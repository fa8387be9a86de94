import Chronicle.Store.Memory
import Chronicle.Store.Typed

/-!
# The numbers of an append

An append numbers its events from the version and the position behind which it stores them. This
file says what those numbers are, as plain numbers: versions and positions are 64 bits wide, and
where one would pass them there is no answer, so a numbered row is never a number that wrapped
around.

`number_eq_ok` is what later files use; they never look into `TenantLog.number` again. Envelopes
come to an append with numbers of their own, which it checks: `appendEnvelopes_of_numbered` says
what the append comes to where they are the numbers that it would give.
-/

namespace Chronicle

/-! ## Computations that may fail -/

/-- A computation in two parts comes through only where the first part does. -/
theorem bind_eq_ok {ε α β : Type} {x : Except ε α} {f : α → Except ε β} {b : β} :
    x >>= f = .ok b ↔ ∃ a, x = .ok a ∧ f a = .ok b := by
  cases x with
  | error error => exact ⟨fun h => (nomatch h), fun ⟨_, h, _⟩ => (nomatch h)⟩
  | ok a =>
    constructor
    · intro h
      exact ⟨a, rfl, h⟩
    · rintro ⟨a', ha, h⟩
      obtain rfl := Except.ok.inj ha
      exact h

/-- A computation in two parts stops in the first or in the second. -/
theorem bind_eq_error {ε α β : Type} {x : Except ε α} {f : α → Except ε β} {error : ε} :
    x >>= f = .error error ↔ x = .error error ∨ ∃ a, x = .ok a ∧ f a = .error error := by
  cases x with
  | error found =>
    constructor
    · intro h
      exact Or.inl (congrArg _ (Except.error.inj h))
    · rintro (h | ⟨a, h, -⟩)
      · exact congrArg _ (Except.error.inj h)
      · cases h
  | ok a =>
    constructor
    · intro h
      exact Or.inr ⟨a, rfl, h⟩
    · rintro (h | ⟨b, hb, h⟩)
      · cases h
      · obtain rfl := Except.ok.inj hb
        exact h

theorem map_eq_ok.{u} {ε β : Type} {α : Type u} {x : Except ε α} {f : α → β} {b : β} :
    x.map f = .ok b ↔ ∃ a, x = .ok a ∧ f a = b := by
  cases x with
  | error error => exact ⟨fun h => (nomatch h), fun ⟨_, h, _⟩ => (nomatch h)⟩
  | ok a =>
    constructor
    · intro h
      exact ⟨a, rfl, Except.ok.inj h⟩
    · rintro ⟨a', ha, rfl⟩
      rw [Except.ok.inj ha]
      rfl

theorem map_eq_error {ε α β : Type} {x : Except ε α} {f : α → β} {error : ε} :
    x.map f = .error error ↔ x = .error error := by
  cases x with
  | error found =>
    show (Except.error found : Except ε β) = .error error ↔ _
    rw [Except.error.injEq, Except.error.injEq]
  | ok a => exact ⟨fun h => (nomatch h), fun h => (nomatch h)⟩

theorem mapError_eq_ok {ε ε' α : Type} {x : Except ε α} {f : ε → ε'} {a : α} :
    x.mapError f = .ok a ↔ x = .ok a := by
  cases x with
  | error error => exact ⟨fun h => (nomatch h), fun h => (nomatch h)⟩
  | ok b =>
    show (Except.ok b : Except ε' α) = .ok a ↔ _
    rw [Except.ok.injEq, Except.ok.injEq]

/-! ## Versions and positions as plain numbers -/

/-- A counter that cannot go on stands at the last number. -/
theorem checkedAdd_one_eq_error {a : UInt64} {fault : Fault} (h : checkedAdd a 1 = .error fault) :
    a.toNat + 1 = 0x10000000000000000 ∧ fault = .addition := by
  obtain ⟨hfull, rfl⟩ := checkedAdd_eq_error_iff.mp h
  have hone : (1 : UInt64).toNat = 1 := rfl
  have hlt := a.toNat_lt
  exact ⟨by omega, rfl⟩

namespace Version

theorem toNat_inj {v w : Version} : v.toNat = w.toNat ↔ v = w := by
  cases v; cases w
  simp [toNat, UInt64.toNat_inj]

theorem le_iff_toNat_le {v w : Version} : v ≤ w ↔ v.toNat ≤ w.toNat := UInt64.le_iff_toNat_le

theorem lt_iff_toNat_lt {v w : Version} : v < w ↔ v.toNat < w.toNat := UInt64.lt_iff_toNat_lt

/-- A version so many events later is that number, if it fits. -/
theorem add_eq_ok {v w : Version} {n : UInt64} (h : v.add n = .ok w) :
    w.toNat = v.toNat + n.toNat := by
  obtain ⟨sum, hsum, rfl⟩ := map_eq_ok.mp h
  exact checkedAdd_eq_ok_iff_toNat.mp hsum

/-- A version that many events later can be counted to. -/
theorem add_of_toNat {v w : Version} {n : Nat} (h : w.toNat = v.toNat + n) :
    v.add (UInt64.ofNat n) = .ok w := by
  have hw : w.toNat < 2 ^ 64 := w.val.toNat_lt
  have hn : (UInt64.ofNat n).toNat = n := by
    rw [UInt64.toNat_ofNat']
    omega
  have hsum : checkedAdd v.val (UInt64.ofNat n) = .ok w.val := by
    rw [checkedAdd_eq_ok_iff_toNat, hn]
    exact h
  exact map_eq_ok.mpr ⟨_, hsum, rfl⟩

theorem next_eq_ok {v w : Version} (h : v.next = .ok w) : w.toNat = v.toNat + 1 := add_eq_ok h

/-- There is no version behind the last one. -/
theorem next_eq_error {v : Version} {fault : Fault} (h : v.next = .error fault) :
    v.toNat + 1 = 0x10000000000000000 ∧ fault = .addition :=
  checkedAdd_one_eq_error (map_eq_error.mp h)

end Version

namespace GlobalPosition

theorem toNat_inj {p q : GlobalPosition} : p.toNat = q.toNat ↔ p = q := by
  cases p; cases q
  simp [toNat, UInt64.toNat_inj]

theorem le_iff_toNat_le {p q : GlobalPosition} : p ≤ q ↔ p.toNat ≤ q.toNat :=
  UInt64.le_iff_toNat_le

theorem lt_iff_toNat_lt {p q : GlobalPosition} : p < q ↔ p.toNat < q.toNat :=
  UInt64.lt_iff_toNat_lt

theorem next_eq_ok {p q : GlobalPosition} (h : p.next = .ok q) : q.toNat = p.toNat + 1 := by
  obtain ⟨sum, hsum, rfl⟩ := map_eq_ok.mp h
  exact checkedAdd_eq_ok_iff_toNat.mp hsum

theorem next_eq_error {p : GlobalPosition} {fault : Fault} (h : p.next = .error fault) :
    p.toNat + 1 = 0x10000000000000000 ∧ fault = .addition :=
  checkedAdd_one_eq_error (map_eq_error.mp h)

end GlobalPosition

namespace TenantLog

/-! ## Numbered rows -/

/-- The rows of an append carry its events in their order, belong to its stream, and are numbered
without a gap from the version and the position before them. -/
structure Numbered (stream : StreamId) (version : Version) (position : GlobalPosition)
    (events : List SerializedEvent) (rows : List RecordedEvent) : Prop where
  content : rows.map RecordedEvent.event = events
  own : ∀ row ∈ rows, row.stream = stream
  versions : rows.map (fun row => row.version.toNat) =
    List.range' (version.toNat + 1) events.length
  positions : rows.map (fun row => row.position.toNat) =
    List.range' (position.toNat + 1) events.length

theorem number_eq_ok {stream : StreamId} {events : List SerializedEvent} :
    ∀ {version : Version} {position : GlobalPosition} {rows : List RecordedEvent},
      number stream version position events = .ok rows →
      Numbered stream version position events rows := by
  induction events with
  | nil =>
    intro version position rows h
    obtain rfl := Except.ok.inj h
    exact ⟨rfl, by simp, rfl, rfl⟩
  | cons event events ih =>
    intro version position rows h
    obtain ⟨version', hv, h⟩ := bind_eq_ok.mp h
    obtain ⟨position', hp, h⟩ := bind_eq_ok.mp h
    obtain ⟨rest, hrest, h⟩ := bind_eq_ok.mp h
    obtain rfl := Except.ok.inj h
    obtain ⟨hcontent, hown, hversions, hpositions⟩ := ih hrest
    refine ⟨by simp [hcontent], ?_, ?_, ?_⟩
    · intro row hrow
      rcases List.mem_cons.mp hrow with rfl | hrow
      · rfl
      · exact hown row hrow
    · simp [hversions, List.range'_succ, Version.next_eq_ok hv]
    · simp [hpositions, List.range'_succ, GlobalPosition.next_eq_ok hp]

/-- Events cannot be numbered only where a version or a position would pass 64 bits. -/
theorem number_eq_error {stream : StreamId} {events : List SerializedEvent} :
    ∀ {version : Version} {position : GlobalPosition} {fault : Fault},
      number stream version position events = .error fault →
      (0x10000000000000000 ≤ version.toNat + events.length ∨
        0x10000000000000000 ≤ position.toNat + events.length) ∧ fault = .addition := by
  induction events with
  | nil => exact nofun
  | cons event events ih =>
    intro version position fault h
    rw [number] at h
    rw [List.length_cons]
    rcases bind_eq_error.mp h with hv | ⟨version', hv, h⟩
    · obtain ⟨hfull, rfl⟩ := Version.next_eq_error hv
      exact ⟨.inl (by omega), rfl⟩
    rcases bind_eq_error.mp h with hp | ⟨position', hp, h⟩
    · obtain ⟨hfull, rfl⟩ := GlobalPosition.next_eq_error hp
      exact ⟨.inr (by omega), rfl⟩
    rcases bind_eq_error.mp h with hrest | ⟨rows, -, h⟩
    · have hv' := Version.next_eq_ok hv
      have hp' := GlobalPosition.next_eq_ok hp
      obtain ⟨hfull, rfl⟩ := ih hrest
      exact ⟨by omega, rfl⟩
    · cases h

theorem Numbered.length_eq {stream : StreamId} {version : Version} {position : GlobalPosition}
    {events : List SerializedEvent} {rows : List RecordedEvent}
    (h : Numbered stream version position events rows) : rows.length = events.length := by
  rw [← h.content, List.length_map]

/-- The version behind some rows is that of the last one, which is their number behind the version
before them. -/
theorem Numbered.toNat_lastVersion {stream : StreamId} {version : Version}
    {position : GlobalPosition} {events : List SerializedEvent} {rows : List RecordedEvent}
    (h : Numbered stream version position events rows) (hne : events ≠ [])
    (before : List RecordedEvent) :
    (lastVersion (before ++ rows)).toNat = version.toNat + events.length := by
  have hpos : events.length ≠ 0 := fun hl => hne (List.length_eq_zero_iff.mp hl)
  cases hlast : rows.getLast? with
  | none =>
    rw [← h.content, List.getLast?_eq_none_iff.mp hlast] at hpos
    exact absurd rfl hpos
  | some last =>
    have hmap : (rows.map fun row => row.version.toNat).getLast? = some last.version.toNat := by
      rw [List.getLast?_map, hlast]; rfl
    rw [h.versions, List.getLast?_range'] at hmap
    simp only [hpos, if_false, Option.some.injEq] at hmap
    simp only [lastVersion, List.getLast?_append, hlast, Option.some_or]
    omega

end TenantLog

namespace EventStore

/-! ## Numbered envelopes -/

variable {ι ε : Type} [InstanceId ι] [EventKind ε] [Wire ε] {codec : Codec} {tag : TypeTag}
  {stream : StreamId} {expected : Version}

/-- Envelopes at the versions that follow pass the check of their versions: only writing them can
fail. -/
theorem serializeFrom_of_numbered {envelopes : List (EventEnvelope ι ε)} :
    ∀ {place : Nat}, envelopes.map (fun e => e.version.toNat) =
        List.range' (expected.toNat + place) envelopes.length →
      serializeFrom codec tag stream expected place envelopes =
        .ok ((envelopes.mapM fun e : EventEnvelope ι ε => e.serialize codec tag).mapError
          .serialization) := by
  induction envelopes with
  | nil => exact fun _ => rfl
  | cons envelope envelopes ih =>
    intro place h
    rw [List.map_cons, List.length_cons, List.range'_succ, List.cons.injEq] at h
    obtain ⟨hfirst, hrest⟩ := h
    rw [serializeFrom, Version.add_of_toNat hfirst]
    show (if envelope.version = envelope.version then _ else _) = _
    rw [if_pos rfl, List.mapM_cons]
    cases envelope.serialize codec tag with
    | error error => rfl
    | ok event =>
      rw [ih hrest]
      cases envelopes.mapM fun e : EventEnvelope ι ε => e.serialize codec tag <;> rfl

/-- An append of envelopes at the versions that follow comes to writing them and appending what was
written. -/
theorem appendEnvelopes_of_numbered {S : Type} [EventStore S] (store : S) (tenant : TenantId)
    {envelopes : List (EventEnvelope ι ε)}
    (h : envelopes.map (fun e => e.version.toNat) =
      List.range' (expected.toNat + 1) envelopes.length) :
    appendEnvelopes store codec tag tenant stream expected envelopes =
      if envelopes.isEmpty then .ok (.error (.emptyBatch stream), store)
      else match envelopes.mapM fun e => e.serialize codec tag with
        | .error error => .ok (.error (.serialization error), store)
        | .ok events => append store tenant stream expected events := by
  unfold appendEnvelopes
  split
  · rfl
  · rw [serializeFrom_of_numbered h]
    cases envelopes.mapM fun e : EventEnvelope ι ε => e.serialize codec tag <;> rfl

end EventStore

end Chronicle
