import Chronicle.Aggregate
import Chronicle.Proofs.Store.Numbers
import Mathlib.Data.List.Induction

/-!
# What events and decisions mean

Two readings that know nothing of envelopes and identities:

- a list of events means the state it leads to, the left fold of the transitions
  (`AggregateType.fold?`);
- a decision means its `Play`: the verdict it ends with, the events it applies on the way, and the
  state and the version it leads to.

`follow_eq_play` says that an instance that follows a decision plays it and does nothing else but
stamp the events. So all that depends on fresh identities is in the stamps, and two instances at
the same state and version always decide alike.
-/

namespace Chronicle

/-! ## The state that events lead to -/

namespace Mutator

variable {σ ε : Type}

/-- The state behind an event, if the event has a transition and that has an answer. -/
def next? [EventKind ε] (m : Mutator σ ε) (state : σ) (event : ε) : Option σ :=
  (m.find? (EventKind.kind event)).bind fun transition => (transition event state).toOption

@[simp] theorem next?_seed [EventKind ε] (m : Mutator σ ε) (state other : σ) (event : ε) :
    (m.seed state).next? other event = m.next? other event := rfl

@[simp] theorem seed_seed (m : Mutator σ ε) (state other : σ) :
    (m.seed state).seed other = m.seed other := rfl

@[simp] theorem seed_current (m : Mutator σ ε) : m.seed m.current = m := rfl

@[simp] theorem current_seed (m : Mutator σ ε) (state : σ) : (m.seed state).current = state := rfl

/-- An event is applied exactly when there is a state behind it. -/
theorem apply_eq_ok_iff [EventKind ε] [Wire σ] {m m' : Mutator σ ε} {event : ε} :
    m.apply event = .ok (.ok m') ↔
      ∃ state, m.next? m.current event = some state ∧ m' = m.seed state := by
  unfold apply next?
  cases hfind : m.find? (EventKind.kind event) with
  | none => simp
  | some transition =>
    cases hstate : transition event m.current with
    | error fault => simp [hstate, Except.map, Except.toOption]
    | ok state => simp [hstate, Except.map, Except.toOption, seed, eq_comm]

end Mutator

/-- The state that the events of a new instance lead to, one after the other. -/
def AggregateType.fold? (A : AggregateType) (events : List A.Event) : Option A.State :=
  events.foldlM A.mutator.next? A.mutator.current

theorem AggregateType.fold?_append (A : AggregateType) (before after : List A.Event) :
    A.fold? (before ++ after) = (A.fold? before).bind fun state =>
      after.foldlM A.mutator.next? state := by
  simp [fold?, List.foldlM_append]

theorem AggregateType.fold?_concat_eq_some {A : AggregateType} {events : List A.Event}
    {event : A.Event} {last : A.State} :
    A.fold? (events ++ [event]) = some last ↔
      ∃ state, A.fold? events = some state ∧ A.mutator.next? state event = some last := by
  rw [fold?_append, Option.bind_eq_some_iff]
  simp

/-- What holds of no events and is kept by each event with its transition, holds of all events that
lead to a state. -/
theorem AggregateType.fold?_induction {A : AggregateType} {P : List A.Event → A.State → Prop}
    (nil : P [] A.mutator.current)
    (concat : ∀ events event state moved, A.fold? events = some state → P events state →
      A.mutator.next? state event = some moved → P (events ++ [event]) moved)
    (events : List A.Event) :
    ∀ {state : A.State}, A.fold? events = some state → P events state := by
  induction events using List.reverseRecOn with
  | nil =>
    intro state h
    obtain rfl := Option.some.inj h
    exact nil
  | append_singleton events event ih =>
    intro state h
    obtain ⟨before, hbefore, hnext⟩ := fold?_concat_eq_some.mp h
    exact concat events event before state hbefore (ih hbefore) hnext

/-! ## What a decision comes to -/

/-- What a decision comes to. -/
structure Play (σ ε : Type) where
  verdict : Verdict
  /-- The events that were applied. -/
  events : List ε
  /-- The state behind the events. -/
  state : σ
  /-- The version behind the events. -/
  version : Version

namespace Decision

variable {σ ε : Type} [EventKind ε] [Wire σ]

/-- Plays a decision at a state and a version: an event without a transition is refused and not
applied, and the decision goes on. -/
def play (m : Mutator σ ε) : Decision σ ε → σ → Version → Checked (Play σ ε)
  | .accept, state, version => .ok ⟨.accepted, [], state, version⟩
  | .reject reason, state, version => .ok ⟨.rejected reason, [], state, version⟩
  | .abandon error, state, version => .ok ⟨.abandoned error, [], state, version⟩
  | .apply event next, state, version => do
    let following ← version.next
    match ← (m.seed state).apply event with
    | .error error => play m (next (.error (.unhandled error))) state version
    | .ok moved =>
      let rest ← play m (next (.ok moved.current)) moved.current following
      return { rest with events := event :: rest.events }

/-- The state that a mutator holds does not matter to a play, which is told where it starts. -/
theorem play_seed (m : Mutator σ ε) (held : σ) (d : Decision σ ε) :
    ∀ (state : σ) (version : Version), d.play (m.seed held) state version = d.play m state version
    := by
  induction d with
  | accept | reject | abandon => intros; rfl
  | apply event next ih =>
    intro state version
    simp only [play, Mutator.seed_seed, ih]

/-- The events of a play lead from the state before it to the state behind it, and each of them
raises the version by one. -/
theorem play_events {m : Mutator σ ε} {d : Decision σ ε} :
    ∀ {state : σ} {version : Version} {p : Play σ ε}, d.play m state version = .ok p →
      p.events.foldlM m.next? state = some p.state ∧
        p.version.toNat = version.toNat + p.events.length := by
  induction d with
  | accept => intro state version p h; obtain rfl := Except.ok.inj h; exact ⟨rfl, rfl⟩
  | reject => intro state version p h; obtain rfl := Except.ok.inj h; exact ⟨rfl, rfl⟩
  | abandon => intro state version p h; obtain rfl := Except.ok.inj h; exact ⟨rfl, rfl⟩
  | apply event next ih =>
    intro state version p h
    rw [play] at h
    obtain ⟨following, hv, h⟩ := bind_eq_ok.mp h
    obtain ⟨moved, hmoved, h⟩ := bind_eq_ok.mp h
    cases moved with
    | error error => exact ih _ h
    | ok moved =>
      obtain ⟨rest, hrest, h⟩ := bind_eq_ok.mp h
      obtain rfl := Except.ok.inj h
      obtain ⟨behind, hnext, rfl⟩ := Mutator.apply_eq_ok_iff.mp hmoved
      obtain ⟨hfold, hversion⟩ := ih _ hrest
      refine ⟨?_, ?_⟩
      · simp only [Mutator.next?_seed, Mutator.current_seed] at hnext
        simp only [List.foldlM_cons, hnext]
        exact hfold
      · simp only [List.length_cons, hversion, Version.next_eq_ok hv]
        omega

/-- A play stops only behind events that lead somewhere, where no version is left for the next one
or its transition stops. -/
theorem play_eq_error {m : Mutator σ ε} {d : Decision σ ε} {fault : Fault} :
    ∀ {state : σ} {version : Version}, d.play m state version = .error fault →
      ∃ (events : List ε) (reached : σ), events.foldlM m.next? state = some reached ∧
        (version.toNat + events.length + 1 = 0x10000000000000000 ∨
          ∃ event, (m.seed reached).apply event = .error fault) := by
  induction d with
  | accept | reject | abandon => exact nofun
  | apply event next ih =>
    intro state version h
    rw [play] at h
    rcases bind_eq_error.mp h with hversion | ⟨following, hversion, h⟩
    · exact ⟨[], state, rfl, Or.inl (Version.next_eq_error hversion).1⟩
    rcases bind_eq_error.mp h with hmoved | ⟨outcome, hmoved, h⟩
    · exact ⟨[], state, rfl, Or.inr ⟨event, hmoved⟩⟩
    cases outcome with
    | error error => exact ih _ h
    | ok moved =>
      rcases bind_eq_error.mp h with hrest | ⟨rest, -, h⟩
      · obtain ⟨behind, hnext, rfl⟩ := Mutator.apply_eq_ok_iff.mp hmoved
        obtain ⟨events, reached, hfold, hstop⟩ := ih _ hrest
        refine ⟨event :: events, reached, ?_, ?_⟩
        · simp only [Mutator.next?_seed, Mutator.current_seed] at hnext
          simp only [List.foldlM_cons, hnext]
          exact hfold
        · have hnumber := Version.next_eq_ok hversion
          rw [List.length_cons]
          exact hstop.imp (fun h => by omega) id
      · cases h
/-- A decision that first applies an event, which has a transition, goes on where this leads. -/
theorem play_emit {m : Mutator σ ε} {event : ε} {transition : Transition σ ε}
    (hfind : m.find? (EventKind.kind event) = some transition) (next : σ → Decision σ ε) (state : σ)
    (version : Version) :
    (emit event next).play m state version = do
      let following ← version.next
      let moved ← transition event state
      let rest ← (next moved).play m moved following
      return { rest with events := event :: rest.events } := by
  have hsame : (m.seed state).find? (EventKind.kind event) = some transition := hfind
  simp only [emit, play, Mutator.apply, hsame, Mutator.current_seed]
  cases version.next with
  | error fault => rfl
  | ok following => cases transition event state <;> rfl

/-- A decision to apply one event, which has a transition, comes to where this leads. -/
theorem play_emitOnly {m : Mutator σ ε} {event : ε} {transition : Transition σ ε}
    (hfind : m.find? (EventKind.kind event) = some transition) (state : σ) (version : Version) :
    (emitOnly event).play m state version = do
      let following ← version.next
      let moved ← transition event state
      return ⟨.accepted, [event], moved, following⟩ := play_emit hfind _ state version

theorem play_emitOnly_eq_ok {m : Mutator σ ε} {event : ε} {transition : Transition σ ε}
    (hfind : m.find? (EventKind.kind event) = some transition) {state : σ} {version : Version}
    {p : Play σ ε} (h : (emitOnly event).play m state version = .ok p) :
    ∃ following moved, version.next = .ok following ∧ transition event state = .ok moved ∧
      p = ⟨.accepted, [event], moved, following⟩ := by
  rw [play_emitOnly hfind] at h
  obtain ⟨following, hfollowing, h⟩ := bind_eq_ok.mp h
  obtain ⟨moved, hmoved, h⟩ := bind_eq_ok.mp h
  exact ⟨following, moved, hfollowing, hmoved, (Except.ok.inj h).symm⟩

/-- Whatever a decision comes to, it applies no other events than these. -/
def OnlyApplies (P : ε → Prop) : Decision σ ε → Prop
  | .accept | .reject _ | .abandon _ => True
  | .apply event next => P event ∧ ∀ outcome, (next outcome).OnlyApplies P

theorem OnlyApplies.mem_events {P : ε → Prop} {m : Mutator σ ε} {d : Decision σ ε} :
    ∀ {state : σ} {version : Version} {p : Play σ ε}, d.OnlyApplies P →
      d.play m state version = .ok p → ∀ event ∈ p.events, P event := by
  induction d with
  | accept | reject | abandon =>
    intro state version p _ h
    obtain rfl := Except.ok.inj h
    simp
  | apply event next ih =>
    intro state version p hd h
    rw [play] at h
    obtain ⟨following, -, h⟩ := bind_eq_ok.mp h
    obtain ⟨moved, -, h⟩ := bind_eq_ok.mp h
    cases moved with
    | error error => exact ih _ (hd.2 _) h
    | ok moved =>
      obtain ⟨rest, hrest, h⟩ := bind_eq_ok.mp h
      obtain rfl := Except.ok.inj h
      simpa using ⟨hd.1, ih _ (hd.2 _) hrest⟩

omit [EventKind ε] [Wire σ] in
theorem onlyApplies_emitOnly {P : ε → Prop} {event : ε} (h : P event) :
    (emitOnly event : Decision σ ε).OnlyApplies P := by
  refine ⟨h, fun outcome => ?_⟩
  cases outcome <;> trivial

end Decision

/-! ## Following a decision -/

namespace Aggregate

variable {A : AggregateType}

/-- The envelopes of the events that a command applies, behind a version, are stamped with what
the instance and the command say, whatever the identities of the events are. -/
inductive Stamped (a : Aggregate A) (command : CommandEnvelope A.Id A.Command) :
    Version → List A.Event → List (EventEnvelope A.Id A.Event) → Prop
  | nil (version : Version) : Stamped a command version [] []
  | cons {version following : Version} {event : A.Event} {events : List A.Event}
      {envelopes : List (EventEnvelope A.Id A.Event)} (eventId : EventId)
      (hv : version.next = .ok following) (h : Stamped a command following events envelopes) :
      Stamped a command version (event :: events)
        (a.stamp command event eventId following :: envelopes)

/-- What is stamped says only whose instance it is. -/
theorem Stamped.of_same {a b : Aggregate A} {command : CommandEnvelope A.Id A.Command}
    {version : Version} {events : List A.Event} {envelopes : List (EventEnvelope A.Id A.Event)}
    (h : b.Stamped command version events envelopes) (hid : b.id = a.id)
    (htenant : b.tenant = a.tenant) : a.Stamped command version events envelopes := by
  induction h with
  | nil version => exact .nil version
  | cons eventId hv _ ih =>
    simp only [stamp, stream, hid, htenant]
    exact .cons eventId hv ih

/-- An instance moved by the events of a play. -/
def moved (a : Aggregate A) (p : Play A.State A.Event)
    (envelopes : List (EventEnvelope A.Id A.Event)) : Aggregate A :=
  { a with
    mutator := a.mutator.seed p.state
    uncommitted := a.uncommitted ++ envelopes
    current := p.version }

/-- Following a decision is playing it and stamping its events. -/
theorem follow_eq_play (command : CommandEnvelope A.Id A.Command)
    (d : Decision A.State A.Event) :
    ∀ (a : Aggregate A) (ids : IdSupply), a.status = .ready →
      (∃ fault, d.play a.mutator a.state a.current = .error fault ∧
        follow command d a ids = .error fault) ∨
      ∃ p envelopes ids', d.play a.mutator a.state a.current = .ok p ∧
        a.Stamped command a.current p.events envelopes ∧
        follow command d a ids = .ok (p.verdict, a.moved p envelopes, ids') := by
  induction d with
  | accept =>
    intro a ids _
    exact Or.inr ⟨_, [], ids, rfl, .nil _, by simp [follow, moved, state]⟩
  | reject reason =>
    intro a ids _
    exact Or.inr ⟨_, [], ids, rfl, .nil _, by simp [follow, moved, state]⟩
  | abandon error =>
    intro a ids _
    exact Or.inr ⟨_, [], ids, rfl, .nil _, by simp [follow, moved, state]⟩
  | apply event next ih =>
    intro a ids hready
    have hensure : a.ensure .ready = .ok () := by simp [ensure, hready]
    have hseed : a.mutator.seed a.state = a.mutator := rfl
    simp only [Decision.play, follow, IdSupply.fresh, Aggregate.apply, hensure, hseed]
    cases hv : a.current.next with
    | error fault => exact Or.inl ⟨fault, rfl, rfl⟩
    | ok following =>
      cases hm : a.mutator.apply event with
      | error fault => exact Or.inl ⟨fault, rfl, rfl⟩
      | ok outcome =>
        cases outcome with
        | error error => exact ih _ a _ hready
        | ok m =>
          obtain ⟨state, -, rfl⟩ := Mutator.apply_eq_ok_iff.mp hm
          -- the handler goes on at the instance behind the event, where the mutator holds the new
          -- state; a play does not look at what the mutator holds
          let changed : Aggregate A :=
            { a with
              mutator := a.mutator.seed state
              uncommitted := a.uncommitted ++ [a.stamp command event ⟨.ofNat ids.next⟩ following]
              current := following }
          have hsame : (next (.ok state)).play changed.mutator changed.state changed.current =
              (next (.ok state)).play a.mutator state following := Decision.play_seed ..
          rcases ih (.ok state) changed ⟨ids.next + 1⟩ hready with
            ⟨fault, hplay, hfollow⟩ | ⟨p, envelopes, ids', hplay, hstamped, hfollow⟩
          · rw [hsame] at hplay
            refine Or.inl ⟨fault, ?_, hfollow⟩
            show (next (.ok state)).play a.mutator state following >>= _ = _
            rw [hplay]
            rfl
          · rw [hsame] at hplay
            have hrest : a.Stamped command following p.events envelopes :=
              hstamped.of_same rfl rfl
            refine Or.inr ⟨{ p with events := event :: p.events }, _ :: envelopes, ids', ?_,
              .cons ⟨.ofNat ids.next⟩ hv hrest, ?_⟩
            · show (next (.ok state)).play a.mutator state following >>= _ = _
              rw [hplay]
              rfl
            · show follow command (next (.ok state)) changed _ = _
              rw [hfollow]
              simp [moved, changed]

/-! ## What the stamps say -/

theorem Stamped.payloads {a : Aggregate A} {command : CommandEnvelope A.Id A.Command}
    {version : Version} {events : List A.Event} {envelopes : List (EventEnvelope A.Id A.Event)}
    (h : a.Stamped command version events envelopes) :
    envelopes.map EventEnvelope.payload = events := by
  induction h with
  | nil => rfl
  | cons _ _ _ ih => simp [stamp, ih]

theorem Stamped.eq_nil_iff {a : Aggregate A} {command : CommandEnvelope A.Id A.Command}
    {version : Version} {events : List A.Event} {envelopes : List (EventEnvelope A.Id A.Event)}
    (h : a.Stamped command version events envelopes) : envelopes = [] ↔ events = [] := by
  rw [← h.payloads, List.map_eq_nil_iff]

/-- What is stamped is of the tenant and the stream of the aggregate. -/
theorem Stamped.own {a : Aggregate A} {command : CommandEnvelope A.Id A.Command}
    {version : Version} {events : List A.Event} {envelopes : List (EventEnvelope A.Id A.Event)}
    (h : a.Stamped command version events envelopes) :
    ∀ envelope ∈ envelopes, envelope.tenant = a.tenant ∧ envelope.stream = a.stream := by
  induction h with
  | nil => exact nofun
  | cons eventId hv _ ih =>
    intro envelope hin
    rcases List.mem_cons.mp hin with rfl | hin
    · exact ⟨rfl, rfl⟩
    · exact ih envelope hin

/-- What is stamped has the versions from the next one on. -/
theorem Stamped.numbered {a : Aggregate A} {command : CommandEnvelope A.Id A.Command}
    {version : Version} {events : List A.Event} {envelopes : List (EventEnvelope A.Id A.Event)}
    (h : a.Stamped command version events envelopes) :
    envelopes.map (fun envelope => envelope.version.toNat) =
      List.range' (version.toNat + 1) envelopes.length := by
  induction h with
  | nil => rfl
  | cons eventId hv _ ih =>
    rw [List.map_cons, List.length_cons, List.range'_succ, ih, ← Version.next_eq_ok hv]
    rfl

/-- Where a play is stamped and no stamp is left, it ends at the version it started from. -/
theorem Stamped.version_of_nil {a : Aggregate A} {command : CommandEnvelope A.Id A.Command}
    {m : Mutator A.State A.Event} {d : Decision A.State A.Event} {state : A.State}
    {version : Version} {p : Play A.State A.Event}
    (h : a.Stamped command version p.events []) (hplay : d.play m state version = .ok p) :
    p.version = version := by
  have hevents : p.events = [] := h.eq_nil_iff.mp rfl
  obtain ⟨-, hversion⟩ := Decision.play_events hplay
  rw [hevents, List.length_nil, Nat.add_zero] at hversion
  exact Version.toNat_inj.mp hversion

end Aggregate

end Chronicle
