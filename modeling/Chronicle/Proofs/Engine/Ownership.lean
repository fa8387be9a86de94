import Chronicle.Proofs.Engine.Faithful
import Chronicle.Proofs.Engine.Histories
import Chronicle.Sample.Carrier

/-!
# Which streams belong to a type

The name of a stream is the name of its type and the text of its instance, with a hyphen between
them. Either may hold hyphens itself, so a name can be read in two ways where one name of a type
goes on, behind a hyphen, in the other. Two names of which neither does so are `Apart`, and these
are exactly the names that never lead to one stream (`StreamId.forAggregate_ne_iff`).

Of types with such names each has its streams for itself: none is read with the other's prefix, and
what is sent to the one leaves versions, snapshots and states of the other as they are
(`streams_belong_to_one_type`). Of types with other names this fails (`probes_share_a_stream`).
-/

namespace Chronicle

/-! ## Names of streams -/

/-- Neither of two names goes on in the other behind a hyphen. -/
def Apart (a b : String) : Prop :=
  ¬(a ++ "-").toList <+: b.toList ∧ ¬(b ++ "-").toList <+: a.toList

instance (a b : String) : Decidable (Apart a b) := inferInstanceAs (Decidable (_ ∧ _))

namespace StreamId

theorem toList_forAggregate (a s : String) :
    (forAggregate a s).text.toList = a.toList ++ '-' :: s.toList := by
  simp [forAggregate, String.toList_append]

theorem forAggregate_inj {a s t : String} : forAggregate a s = forAggregate a t ↔ s = t := by
  refine ⟨fun heq => ?_, fun heq => by rw [heq]⟩
  have htext := congrArg (fun stream => stream.text.toList) heq
  simp only [toList_forAggregate, List.append_cancel_left_eq, List.cons.injEq, true_and] at htext
  exact String.toList_inj.mp htext

/-- Two readings of one text: the names are the same, or one of them goes on in the other. -/
theorem readings {xs ys s t : List Char} (h : xs ++ '-' :: s = ys ++ '-' :: t) :
    xs = ys ∨ xs ++ ['-'] <+: ys ∨ ys ++ ['-'] <+: xs := by
  rcases List.append_eq_append_iff.mp h with ⟨more, rfl, hmore⟩ | ⟨more, rfl, hmore⟩
  · cases more with
    | nil => exact Or.inl (List.append_nil _).symm
    | cons c more =>
      obtain ⟨rfl, -⟩ := List.cons.inj hmore
      exact Or.inr (Or.inl ⟨more, by simp⟩)
  · cases more with
    | nil => exact Or.inl (List.append_nil _)
    | cons c more =>
      obtain ⟨rfl, -⟩ := List.cons.inj hmore
      exact Or.inr (Or.inr ⟨more, by simp⟩)

theorem exists_forAggregate_eq {a b : String} (h : (a ++ "-").toList <+: b.toList) :
    ∃ s, ∀ t, forAggregate a (s ++ "-" ++ t) = forAggregate b t := by
  obtain ⟨more, hmore⟩ := h
  refine ⟨String.ofList more, fun t => ?_⟩
  have hb : b = a ++ "-" ++ String.ofList more := by
    rw [← String.toList_inj, String.toList_append, String.toList_ofList, hmore]
  rw [hb, forAggregate, forAggregate]
  simp only [String.append_assoc]

/-- Two types have no stream in common, whatever their instances are called, exactly if their names
differ and are apart. -/
theorem forAggregate_ne_iff {a b : String} :
    (∀ s t, forAggregate a s ≠ forAggregate b t) ↔ a ≠ b ∧ Apart a b := by
  constructor
  · intro h
    refine ⟨fun hab => h "" "" (by rw [hab]), fun hprefix => ?_, fun hprefix => ?_⟩
    · obtain ⟨s, hs⟩ := exists_forAggregate_eq hprefix
      exact h _ _ (hs "")
    · obtain ⟨s, hs⟩ := exists_forAggregate_eq hprefix
      exact h _ _ (hs "").symm
  · rintro ⟨hne, hapart⟩ s t heq
    have htext := congrArg (fun stream => stream.text.toList) heq
    simp only [toList_forAggregate] at htext
    rcases readings htext with hsame | hprefix | hprefix
    · exact hne (String.toList_inj.mp hsame)
    · exact hapart.1 (by rwa [String.toList_append])
    · exact hapart.2 (by rwa [String.toList_append])

/-- The streams that start with the name of a type and a hyphen are those that its instances can
have. -/
theorem startsWith_iff {stream : StreamId} {a : String} :
    stream.startsWith (a ++ "-") = true ↔ ∃ s, stream = forAggregate a s := by
  rw [startsWith, List.isPrefixOf_iff_prefix]
  constructor
  · rintro ⟨more, hmore⟩
    refine ⟨String.ofList more, congrArg StreamId.mk (String.toList_inj.mp ?_)⟩
    simp only [String.toList_append, String.toList_ofList] at hmore ⊢
    exact hmore.symm
  · rintro ⟨s, rfl⟩
    exact ⟨s.toList, by simp [toList_forAggregate, String.toList_append]⟩

end StreamId

/-! ## What an instance is read from -/

namespace World

variable {κ π : Type}

/-- Two worlds in which an instance of a stream is brought up to date in the same way. -/
structure SameAt (tenant : TenantId) (stream : StreamId) (w w' : World MemoryStore κ π) : Prop where
  rows : (w'.store.tenant tenant).rows stream = (w.store.tenant tenant).rows stream
  kept : w'.vault.get? tenant stream = w.vault.get? tenant stream
  available : w'.store.available = w.store.available
  loads : w'.vault.refusesLoads = w.vault.refusesLoads
  clock : w'.clock = w.clock
  started : w'.started = w.started

variable {tenant : TenantId} {stream : StreamId} {w w' : World MemoryStore κ π}

theorem SameAt.version (h : w.SameAt tenant stream w') :
    w'.store.version tenant stream = w.store.version tenant stream := by
  rw [MemoryStore.version, MemoryStore.version, TenantLog.version, TenantLog.version, h.rows]

variable {A : AggregateType} {id : A.Id}

theorem SameAt.restoreSnapshot (h : w.SameAt tenant (A.stream id) w') (settings : Settings)
    (useSnapshot : Bool) :
    (Engine.restoreSnapshot settings A tenant id useSnapshot w').1 =
      (Engine.restoreSnapshot settings A tenant id useSnapshot w).1 := by
  have hread : w'.vault.read A settings.snapshotPolicy settings.codec w'.clock tenant
      (A.stream id) = w.vault.read A settings.snapshotPolicy settings.codec w.clock tenant
        (A.stream id) := by
    simp only [SnapshotVault.read, SnapshotVault.load, h.loads, h.kept, h.clock]
  exact Engine.restoreSnapshot_of_read hread useSnapshot

theorem SameAt.load (h : w.SameAt tenant (A.stream id) w') (settings : Settings)
    (useSnapshot : Bool) :
    (Engine.load settings A tenant id useSnapshot w').map Prod.fst =
      (Engine.load settings A tenant id useSnapshot w).map Prod.fst := by
  have hsame := h.restoreSnapshot settings useSnapshot
  unfold Engine.load
  cases hrestore : Engine.restoreSnapshot settings A tenant id useSnapshot w with
  | mk restored w₁ =>
    cases hrestore' : Engine.restoreSnapshot settings A tenant id useSnapshot w' with
    | mk restored' w₁' =>
      rw [hrestore, hrestore'] at hsame
      obtain rfl : restored' = restored := hsame
      cases restored' with
      | error error => rfl
      | ok a =>
        obtain ⟨state, version, rfl, -, hstill⟩ := Engine.restoreSnapshot_eq_ok hrestore
        have hstill' := Engine.still_of_restoreSnapshot hrestore'
        have hreplay : Engine.replayStream settings (.startingAt A tenant id state version)
            w₁'.store = Engine.replayStream settings (.startingAt A tenant id state version)
              w₁.store := by
          have hrows : Engine.rowsBehind w'.store tenant (A.stream id) version =
              Engine.rowsBehind w.store tenant (A.stream id) version := by
            rw [Engine.rowsBehind, Engine.rowsBehind, h.rows]
          rw [hstill.store, hstill'.store]
          exact Engine.replayStream_of_rowsBehind h.available hrows
        simp only [hreplay]
        cases Engine.replayStream settings (.startingAt A tenant id state version) w₁.store <;> rfl

theorem SameAt.getState (h : w.SameAt tenant (A.stream id) w') (settings : Settings) :
    (Engine.getState settings A tenant id w').map Prod.fst =
      (Engine.getState settings A tenant id w).map Prod.fst := by
  have hload := h.load settings settings.usesSnapshots
  unfold Engine.getState
  rw [h.started]
  cases w.started with
  | false => rfl
  | true =>
    cases hleft : Engine.load settings A tenant id settings.usesSnapshots w' with
    | error fault =>
      cases hright : Engine.load settings A tenant id settings.usesSnapshots w with
      | error fault' =>
        rw [hleft, hright] at hload
        exact congrArg Except.error (Except.error.inj hload)
      | ok answer => rw [hleft, hright] at hload; cases hload
    | ok answer' =>
      cases hright : Engine.load settings A tenant id settings.usesSnapshots w with
      | error fault => rw [hleft, hright] at hload; cases hload
      | ok answer =>
        rw [hleft, hright] at hload
        exact congrArg (fun loaded => Except.ok (loaded.map Aggregate.state))
          (Except.ok.inj hload)

theorem SameAt.refl (tenant : TenantId) (stream : StreamId) (w : World MemoryStore κ π) :
    w.SameAt tenant stream w := ⟨rfl, rfl, rfl, rfl, rfl, rfl⟩

theorem SameAt.trans {w'' : World MemoryStore κ π} (h : w.SameAt tenant stream w')
    (h' : w'.SameAt tenant stream w'') : w.SameAt tenant stream w'' :=
  ⟨h'.rows.trans h.rows, h'.kept.trans h.kept, h'.available.trans h.available,
    h'.loads.trans h.loads, h'.clock.trans h.clock, h'.started.trans h.started⟩

end World

/-! ## What a send leaves alone -/

namespace Task

variable {κ π : Type} {t : Task κ}

theorem Advances.sameAt {stage stage' : Stage t.A} {w w' : World MemoryStore κ π}
    (h : t.Advances w stage stage' w') (haddressed : t.Addressed stage) {tenant : TenantId}
    {stream : StreamId} (hne : (t.tenant, t.stream) ≠ (tenant, stream)) :
    w.SameAt tenant stream w' := by
  obtain ⟨-, hother⟩ := h.elsewhere haddressed
  obtain ⟨hrows, hkept⟩ := hother tenant stream hne
  obtain ⟨hstarted, havailable⟩ := h.settled
  obtain ⟨hclock, hloads, -⟩ := h.dated
  exact ⟨hrows, hkept, havailable, hloads, hclock, hstarted⟩

/-- A send leaves every stream but its own as it was. -/
theorem sameAt_after_sent [Projection κ π] (w : World MemoryStore κ π) {tenant : TenantId}
    {stream : StreamId} (hne : (t.tenant, t.stream) ≠ (tenant, stream)) :
    w.SameAt tenant stream (w.after (.sent t)) := by
  have hfirst : t.Addressed .waiting ∧ w.SameAt tenant stream w := ⟨trivial, .refl ..⟩
  rw [World.after_sent]
  exact (run_induction (P := fun stage w' => t.Addressed stage ∧ w.SameAt tenant stream w')
    (fun hstep hsame => ⟨(hstep.elsewhere hsame.1).1, hsame.2.trans (hstep.sameAt hsame.1 hne)⟩) 5
    hfirst).2

end Task

/-! ## Types of one kind -/

namespace Sample

/-- Five is added to a scripted aggregate. -/
def addedFive (name id : String) : Task Carrier where
  settings := .standard
  A := probe name
  command := .new id [.emit (.added 5)] ⟨.ofNat 1⟩ ⟨.ofNat 2⟩ ⟨0, 0⟩

end Sample

/-! ## Streams and types -/

/-- **Types whose names are apart share nothing.** Their instances have different streams, a read
of the streams that start with the one name and a hyphen returns none of the other, and a command
that is sent to an instance of the one leaves version, snapshot and state of every instance of the
other as they are. -/
theorem streams_belong_to_one_type {κ π : Type} [Projection κ π] {A B : AggregateType}
    (hne : A.name ≠ B.name) (hapart : Apart A.name B.name) :
    (∀ id other, A.stream id ≠ B.stream other) ∧
      (∀ (options : ReadOptions) (position : GlobalPosition) (other : B.Id),
        options.streamStart = some (A.name ++ "-") →
          options.admits position (B.stream other) = false) ∧
      ∀ (w : World MemoryStore κ π) (t : Task κ) (settings : Settings) (tenant : TenantId)
        (other : B.Id), t.A = A →
        let w' := w.after (.sent t)
        w'.store.version tenant (B.stream other) = w.store.version tenant (B.stream other) ∧
          w'.vault.get? tenant (B.stream other) = w.vault.get? tenant (B.stream other) ∧
          (Engine.getState settings B tenant other w').map Prod.fst =
            (Engine.getState settings B tenant other w).map Prod.fst := by
  have hstreams : ∀ s t, StreamId.forAggregate A.name s ≠ StreamId.forAggregate B.name t :=
    StreamId.forAggregate_ne_iff.mpr ⟨hne, hapart⟩
  refine ⟨fun _ _ => hstreams _ _, fun options position other hstart => ?_,
    fun w t settings tenant other ht => ?_⟩
  · have hnot : (B.stream other).startsWith (A.name ++ "-") = false := by
      rw [← Bool.not_eq_true, StreamId.startsWith_iff]
      rintro ⟨s, hs⟩
      exact hstreams s _ hs.symm
    simp only [ReadOptions.admits, ReadOptions.admitsStream, hstart, hnot, Bool.and_false]
  · subst ht
    have hother : (t.tenant, t.stream) ≠ (tenant, B.stream other) := fun h =>
      hstreams _ _ (Prod.mk.inj h).2
    have hsame := Task.sameAt_after_sent w hother
    exact ⟨hsame.version, hsame.kept, hsame.getState settings⟩

open Sample in
/-- Two names with hyphens that are apart: what is sent to an instance of the one is not found in
an instance of the other. -/
theorem hyphenated_names_share_nothing :
    (("probe-one" ≠ "probe-two" ∧ Apart "probe-one" "probe-two") ∧
        some "probe-one-" = some ((probe "probe-one").name ++ "-") ∧
        (addedFive "probe-one" "1").A = probe "probe-one") ∧
      (probe "probe-one").stream "1" ≠ (probe "probe-two").stream "1" ∧
      ({ ReadOptions.everything with streamStart := some "probe-one-" } : ReadOptions).admits ⟨1⟩
        ((probe "probe-two").stream "1") = false ∧
      ((World.blank : World MemoryStore Carrier Inert).after
        (.sent (addedFive "probe-one" "1"))).store.version .default
          ((probe "probe-two").stream "1") = ⟨0⟩ := by
  have hne : (probe "probe-one").name ≠ (probe "probe-two").name := by decide
  have hapart : Apart (probe "probe-one").name (probe "probe-two").name := by decide
  have hstart : some "probe-one-" = some ((probe "probe-one").name ++ "-") := by decide
  obtain ⟨hstreams, hadmits, hsent⟩ :=
    @streams_belong_to_one_type Carrier Inert _ _ _ hne hapart
  refine ⟨⟨⟨hne, hapart⟩, hstart, rfl⟩, hstreams "1" "1", hadmits _ ⟨1⟩ "1" hstart, ?_⟩
  exact (hsent .blank (addedFive "probe-one" "1") .standard .default "1" rfl).1

open Sample Engine in
set_option maxRecDepth 10000 in
/-- Instances of the types `probe` and `probe-two` can have one stream. It is read with the prefix
of the first, and a command to an instance of the first gives one of the second a version and a
snapshot. -/
theorem probes_share_a_stream : ∃ last : World MemoryStore Carrier Inert,
    (probe "probe").name ≠ (probe "probe-two").name ∧
    (probe "probe").stream "two-1" = (probe "probe-two").stream "1" ∧
    ({ ReadOptions.everything with streamStart := some "probe-" } : ReadOptions).admits ⟨1⟩
      ((probe "probe-two").stream "1") = true ∧
    send .standard (probe "probe") (addedFive "probe" "two-1").command .blank =
      .ok (.ok ⟨true, true, none, ⟨1⟩⟩, last) ∧
    (World.blank : World MemoryStore Carrier Inert).store.version .default
      ((probe "probe-two").stream "1") = ⟨0⟩ ∧
    last.store.version .default ((probe "probe-two").stream "1") = ⟨1⟩ ∧
    (last.vault.get? .default ((probe "probe-two").stream "1")).isSome = true :=
  ⟨_, by decide, rfl, by decide, rfl, rfl, rfl, rfl⟩

end Chronicle
