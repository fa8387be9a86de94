import Chronicle.Proofs.Counters
import Chronicle.Proofs.Engine.Atomicity
import Chronicle.Proofs.Store.Failed

/-!
# What each phase of a send counts

There is one lemma for each phase, `Engine.*_adds`, which says what the phase counts.

`Notes` of a send tell what its phases came to where its stage does not: whether its snapshot was
misread, what its append was answered, and what became of its snapshot. A send is worth the counters
of its notes and of its answer (`Task.worth`). Each phase counts what it adds to that and nothing
else, and leaves notes and a stage that agree with each other (`Task.Tells.advance`).
-/

namespace Chronicle

/-! ## The phases -/

/-- What becomes of a snapshot is something, and the vault counts those that are saved. -/
theorem SnapshotVault.write_saves {A : AggregateType} {policy : SnapshotPolicy} {codec : Codec}
    {now : Timestamp} {v : SnapshotVault} {tenant : TenantId} {stream : StreamId}
    (version : Version) (state : A.State) :
    (v.write A policy codec now tenant stream version (some state)).1 ≠ .noState ∧
      (v.write A policy codec now tenant stream version (some state)).2.saves =
        v.saves + (Counters.ofSave
          (v.write A policy codec now tenant stream version (some state)).1).snapshotsSaved := by
  cases hwanted : policy.persistsAt version with
  | false => simp [write, hwanted, Counters.ofSave, Counters.zero]
  | true =>
    cases hencode : codec.encode state with
    | error error =>
      simp [write, hwanted, hencode, Counters.ofSave, Counters.snapshotFailure, Counters.zero]
    | ok data =>
      cases hrefuses : v.refusesSaves with
      | true =>
        simp [write, save, hwanted, hencode, hrefuses, Counters.ofSave, Counters.snapshotFailure,
          Counters.zero]
      | false =>
        rw [write_of_wanted hwanted hencode hrefuses]
        exact ⟨SaveOutcome.noConfusion, rfl⟩

namespace Engine

variable {κ π : Type} {settings : Settings} {A : AggregateType} {w w' : World MemoryStore κ π}

/-- The snapshot of an instance cannot be read, or is none that can be used. -/
def misreads (settings : Settings) (A : AggregateType) (tenant : TenantId) (id : A.Id)
    (w : World MemoryStore κ π) : Bool :=
  match A.boundMutator with
  | .error _ => false
  | .ok _ =>
    settings.usesSnapshots &&
      match w.vault.read A settings.snapshotPolicy settings.codec w.clock tenant (A.stream id) with
      | .unusable => true
      | _ => false

theorem restoreSnapshot_adds (settings : Settings) (A : AggregateType) (tenant : TenantId)
    (id : A.Id) (w : World MemoryStore κ π) :
    w.Adds (if misreads settings A tenant id w then .snapshotFailure else 0)
      (restoreSnapshot settings A tenant id settings.usesSnapshots w).2 := by
  unfold restoreSnapshot misreads
  cases A.boundMutator with
  | error error => exact .refl w
  | ok mutator =>
    cases settings.usesSnapshots with
    | false => exact .refl w
    | true =>
      simp only [if_true, Bool.true_and]
      cases w.vault.read A settings.snapshotPolicy settings.codec w.clock tenant (A.stream id) with
      | unusable =>
        exact .of_still w.still_countSnapshotFailure w.counters_countSnapshotFailure rfl rfl
      | _ => exact .refl w

/-- An instance that cannot be brought up to date has not lost a race. -/
theorem isRetryable_of_replayStream {a : Aggregate A} {s : MemoryStore} {error : EngineError}
    (h : replayStream settings a s = .ok (.error error)) : error.isRetryable = false := by
  rw [replayStream_eq] at h
  cases havailable : s.available with
  | false =>
    rw [MemoryStore.ensureAvailable, havailable] at h
    cases h
    rfl
  | true =>
    rw [MemoryStore.ensureAvailable_eq_ok_iff.mpr havailable] at h
    simp only [bind, Except.bind, mapM_mapError] at h
    cases hfirst : (rowsBehind s a.tenant a.stream a.current).mapM fun row =>
        EventEnvelope.ofRecorded (ι := A.Id) (ε := A.Event) row settings.codec with
    | error reason =>
      rw [hfirst] at h
      cases h
      rfl
    | ok envelopes =>
      rw [hfirst] at h
      simp only [Except.mapError] at h
      cases hreplay : a.replayAll envelopes with
      | error fault => rw [hreplay] at h; cases h
      | ok outcome =>
        rw [hreplay] at h
        cases outcome with
        | error cause => cases h; rfl
        | ok b => cases h

theorem decide_adds {command : CommandEnvelope A.Id A.Command} {a : Aggregate A}
    {outcome : Except EngineError (Handled A)}
    (h : decide settings command a w = .ok (outcome, w')) :
    match outcome with
    | .error error =>
      error.isRetryable = false ∧ (∀ cause, error ≠ .bus cause) ∧ w.Adds 0 w'
    | .ok (.idle result) => result.hasChanges = false ∧ w.Adds (.ofIdle result) w'
    | .ok (.proposed p) => p.result.hasChanges = true ∧ w.Adds 0 w' := by
  have hstill := (decide_eq_ok h).1
  have hbus : ∀ cause, outcome ≠ .error (.bus cause) := fun cause heq => decide_ne_bus (heq ▸ h)
  obtain ⟨replayed, hreplay, h⟩ := bind_eq_ok.mp h
  cases replayed with
  | error error =>
    obtain ⟨rfl, rfl⟩ := Prod.mk.inj (Except.ok.inj h)
    exact ⟨isRetryable_of_replayStream hreplay, fun cause heq => hbus cause (by rw [heq]), .refl _⟩
  | ok b =>
    obtain ⟨⟨answer, b', ids⟩, -, h⟩ := bind_eq_ok.mp h
    cases answer with
    | error error =>
      obtain ⟨rfl, rfl⟩ := Prod.mk.inj (Except.ok.inj h)
      exact ⟨rfl, nofun, .of_still hstill (add_zero _).symm rfl rfl⟩
    | ok result =>
      cases hchanges : result.hasChanges with
      | true =>
        simp only [hchanges, if_true] at h
        obtain ⟨rfl, rfl⟩ := Prod.mk.inj (Except.ok.inj h)
        exact ⟨hchanges, .of_still hstill (add_zero _).symm rfl rfl⟩
      | false =>
        simp only [hchanges, Bool.false_eq_true, if_false] at h
        obtain ⟨rfl, rfl⟩ := Prod.mk.inj (Except.ok.inj h)
        refine ⟨hchanges, .of_still hstill (World.counters_countIdle ..) ?_ ?_⟩ <;>
          (unfold Counters.ofIdle; split <;> rfl)

/-- An append that fails leaves the store as large as it was. -/
theorem adds_countAppendFailure {s : MemoryStore} (hsize : s.size = w.store.size)
    (error : StoreError) :
    w.Adds (.ofAppend (.error error)) ({ w with store := s }.countAppendFailure error) where
  counters := World.counters_countAppendFailure ..
  events := by
    refine hsize.trans ?_
    cases hconflict : error.isConflict <;> simp [Counters.ofAppend, hconflict, Counters.zero]
  saves := by
    cases hconflict : error.isConflict <;>
      simp [Counters.ofAppend, hconflict, Counters.zero, World.countAppendFailure]

theorem append_adds {p : Proposal A} {outcome : Except EngineError Version}
    (h : append settings p w = .ok (outcome, w')) :
    match outcome with
    | .error error => ∃ cause, error = .store cause ∧ w.Adds (.ofAppend (.error cause)) w'
    | .ok _ => w.Adds (.ofAppend (.ok p.envelopes.length)) w' := by
  obtain ⟨⟨answer, s⟩, happend, h⟩ := bind_eq_ok.mp h
  unfold EventStore.appendEnvelopes at happend
  split at happend
  · obtain ⟨rfl, rfl⟩ := Prod.mk.inj (Except.ok.inj happend)
    obtain ⟨rfl, rfl⟩ := Prod.mk.inj (Except.ok.inj h)
    exact ⟨_, rfl, adds_countAppendFailure rfl _⟩
  obtain ⟨serialized, hserialized, happend⟩ := bind_eq_ok.mp happend
  cases serialized with
  | error error =>
    obtain ⟨rfl, rfl⟩ := Prod.mk.inj (Except.ok.inj happend)
    obtain ⟨rfl, rfl⟩ := Prod.mk.inj (Except.ok.inj h)
    exact ⟨_, rfl, adds_countAppendFailure rfl _⟩
  | ok events =>
    have hends := MemoryStore.append_eq_ok happend
    cases answer with
    | error error =>
      obtain ⟨rfl, rfl⟩ := Prod.mk.inj (Except.ok.inj h)
      exact ⟨_, rfl, adds_countAppendFailure hends.indistinct_of_error.size _⟩
    | ok version =>
      obtain ⟨rfl, rfl⟩ := Prod.mk.inj (Except.ok.inj h)
      have hlength := (forall₂_of_mapM (serializeFrom_eq_ok hserialized)).length_eq
      refine ⟨World.counters_countAppend .., ?_, rfl⟩
      exact hends.size_eq.trans (congrArg _ hlength.symm)

/-- What becomes of the snapshot of a new state, where snapshots are used. -/
def saveOutcome? (settings : Settings) (p : Proposal A) (version : Version)
    (w : World MemoryStore κ π) : Option SaveOutcome :=
  if settings.usesSnapshots then
    some (w.vault.write A settings.snapshotPolicy settings.codec w.clock p.tenant p.stream version
      (some p.state)).1
  else none

theorem saveSnapshot_adds (settings : Settings) (p : Proposal A) (version : Version)
    (w : World MemoryStore κ π) :
    w.Adds ((saveOutcome? settings p version w).elim 0 .ofSave)
      (saveSnapshot settings p version w) := by
  unfold saveOutcome? saveSnapshot
  cases settings.usesSnapshots with
  | false => exact .refl w
  | true =>
    simp only [if_true, Option.elim_some]
    have hsaves : (w.vault.write A settings.snapshotPolicy settings.codec w.clock p.tenant p.stream
        version (some p.state)).2.saves = _ := (SnapshotVault.write_saves version p.state).2
    generalize w.vault.write A settings.snapshotPolicy settings.codec w.clock p.tenant p.stream
      version (some p.state) = answer at hsaves
    obtain ⟨outcome, vault⟩ := answer
    have hstill := World.still_countSave { w with vault := vault } outcome
    refine ⟨World.counters_countSave .., ?_, ?_⟩
    · rw [hstill.store]
      cases outcome <;> rfl
    · rw [hstill.vault]
      exact hsaves

end Engine

/-! ## What is noted -/

/-- What the phases of a send came to: whether its snapshot was misread, what its append was
answered, with the number of events if it succeeded, and what became of its snapshot. -/
structure Notes where
  misread : Bool
  appended : Option (Except StoreError Nat)
  saved : Option SaveOutcome

namespace Notes

def blank : Notes := ⟨false, none, none⟩

/-- The append succeeded. -/
def committed (notes : Notes) : Bool :=
  match notes.appended with
  | some (.ok _) => true
  | _ => false

/-- The append failed, and no race was lost. -/
def appendFailed (notes : Notes) : Bool :=
  match notes.appended with
  | some (.error error) => !error.isConflict
  | _ => false

/-- The append lost a race. -/
def lostRace (notes : Notes) : Bool :=
  match notes.appended with
  | some (.error error) => error.isConflict
  | _ => false

/-- The number of events that were appended. -/
def events (notes : Notes) : Nat :=
  match notes.appended with
  | some (.ok events) => events
  | _ => 0

theorem appended_of_committed {notes : Notes} (h : notes.committed = true) :
    ∃ events, notes.appended = some (.ok events) := by
  unfold committed at h
  split at h
  · next events happended => exact ⟨events, happended⟩
  · cases h

/-- It is known what became of the snapshot. -/
def settled (notes : Notes) : Bool :=
  match notes.saved with
  | none | some .noState => false
  | some _ => true

/-- Nothing was appended yet, and nothing can be saved. -/
structure Early (notes : Notes) : Prop where
  appended : notes.appended = none
  saved : notes.saved = none

/-- The append succeeded, and it is known what became of the snapshot, where there is one. -/
structure Late (settings : Settings) (notes : Notes) : Prop where
  committed : notes.committed = true
  saved : if settings.usesSnapshots then ∃ outcome, notes.saved = some outcome ∧ outcome ≠ .noState
    else notes.saved = none

def worth (notes : Notes) : Counters :=
  notes.appended.elim 0 .ofAppend + (if notes.misread then .snapshotFailure else 0) +
    notes.saved.elim 0 .ofSave

/-- What is noted is counted once. -/
theorem worth_eq (notes : Notes) :
    notes.worth =
      { Counters.zero with
        eventsAppended := notes.events
        appends := notes.committed.toNat
        conflicts := notes.lostRace.toNat
        snapshotsSaved := (notes.saved = some .saved : Bool).toNat
        snapshotsSkipped := (notes.saved = some .skipped : Bool).toNat
        snapshotFailures := notes.misread.toNat + (notes.saved = some .failed : Bool).toNat
        commandsChanged := notes.committed.toNat
        commandsConflict := notes.lostRace.toNat
        commandsFailed := notes.appendFailed.toNat } := by
  obtain ⟨misread, appended, saved⟩ := notes
  rcases appended with - | (error | events)
  case some.error =>
    simp only [worth, events, committed, lostRace, appendFailed, Option.elim_some,
      Counters.ofAppend]
    cases error.isConflict <;> cases misread <;> rcases saved with - | - | - | - | - <;> rfl
  all_goals cases misread <;> rcases saved with - | - | - | - | - <;> rfl

/-- Where nothing was misread, what is counted of snapshots is what became of one. -/
theorem worth_snapshots {notes : Notes} (hread : notes.misread = false) :
    notes.worth.snapshotsSaved + notes.worth.snapshotsSkipped + notes.worth.snapshotFailures =
      notes.settled.toNat := by
  obtain ⟨misread, appended, saved⟩ := notes
  obtain rfl : misread = false := hread
  rw [worth_eq]
  rcases saved with - | - | - | - | - <;> rfl

theorem worth_append {notes : Notes} (h : notes.Early) (outcome : Except StoreError Nat) :
    worth { notes with appended := some outcome } = notes.worth + .ofAppend outcome := by
  simp only [worth, h.appended, h.saved, Option.elim_some, Option.elim_none, add_zero, zero_add]
  exact add_comm ..

theorem worth_save {notes : Notes} (h : notes.saved = none) (outcome : Option SaveOutcome) :
    worth { notes with saved := outcome } = notes.worth + outcome.elim 0 .ofSave := by
  simp only [worth, h, Option.elim_none, add_zero]

end Notes

namespace Stage

variable {A : AggregateType}

/-- The answer tells no changes, and that the command was accepted or was not. -/
def isIdle (accepted : Bool) : Stage A → Bool
  | .answered (.ok result) => !result.hasChanges && result.accepted == accepted
  | _ => false

/-- The answer is a conflict. -/
def isConflict : Stage A → Bool
  | .answered (.error (.store error)) => error.isConflict
  | _ => false

/-- The events are in the store, and the snapshot is still to be dealt with. -/
def isSaving : Stage A → Bool
  | .appended .. => true
  | _ => false

/-- The answer tells that the events are in the store. -/
def tellsCommit : Stage A → Bool
  | .answered (.ok result) => result.hasChanges
  | .answered (.error (.bus _)) => true
  | _ => false

/-- What an answer is worth. Only the answers without changes are counted as such; of the others it
is counted what led to them. -/
def worth : Stage A → Counters
  | .answered (.ok result) => if result.hasChanges then 0 else .ofIdle result
  | _ => 0

theorem worth_eq (stage : Stage A) :
    stage.worth =
      { Counters.zero with
        commandsUnchanged := (stage.isIdle true).toNat
        commandsRejected := (stage.isIdle false).toNat } := by
  rcases stage with - | - | - | - | - | (error | result) | fault
  case answered.ok =>
    obtain ⟨accepted, hasChanges, reason, version⟩ := result
    cases hasChanges <;> cases accepted <;> rfl
  all_goals rfl

end Stage

namespace Task

variable {κ π : Type}

/-- What the next phase adds to the notes. -/
def note (t : Task κ) (stage : Stage t.A) (w : World MemoryStore κ π) (notes : Notes) : Notes :=
  match stage with
  | .waiting =>
    { notes with
      misread :=
        w.started && Engine.misreads t.settings t.A t.command.tenant t.command.aggregateId w }
  | .decided p =>
    match Engine.append t.settings p w with
    | .ok (.error (.store error), _) => { notes with appended := some (.error error) }
    | .ok (.ok _, _) => { notes with appended := some (.ok p.envelopes.length) }
    | _ => notes
  | .appended p version =>
    { notes with saved := Engine.saveOutcome? t.settings p version w }
  | _ => notes

/-- Notes that agree with a stage. Behind the append there are changes; a send whose append
succeeded can be answered with changes, with a failure of the bus, or with nothing if it stops. -/
def Tells (t : Task κ) (notes : Notes) : Stage t.A → Prop
  | .waiting => notes = .blank
  | .restored _ => notes.Early
  | .decided p => notes.Early ∧ p.result.hasChanges = true
  | .appended p _ => notes.committed = true ∧ notes.saved = none ∧ p.result.hasChanges = true
  | .saved p _ => notes.Late t.settings ∧ p.result.hasChanges = true
  | .answered (.ok result) => if result.hasChanges then notes.Late t.settings else notes.Early
  | .answered (.error (.bus _)) => notes.Late t.settings
  | .answered (.error (.store error)) =>
    notes.Early ∧ error.isConflict = false ∨
      notes.appended = some (.error error) ∧ notes.saved = none
  | .answered (.error _) => notes.Early
  | .stopped _ => notes.Early ∨ notes.Late t.settings

/-- All that a send is counted for. -/
def worth {A : AggregateType} (notes : Notes) (stage : Stage A) : Counters :=
  notes.worth + stage.worth

variable {t : Task κ} {notes : Notes} {w : World MemoryStore κ π}

/-- Before the append a send can end with neither a lost race nor a failure of the bus. -/
theorem tells_of_early {error : EngineError} (h : notes.Early) (hrace : error.isRetryable = false)
    (hbus : ∀ cause, error ≠ .bus cause) : t.Tells notes (.answered (.error error)) := by
  cases error with
  | store cause => exact Or.inl ⟨h, hrace⟩
  | bus cause => exact absurd rfl (hbus cause)
  | _ => exact h

/-- From one stage and its notes a phase leads to others that agree, and counts what it adds to
their worth. -/
structure Counts (t : Task κ) (stage : Stage t.A) (notes : Notes) (w : World MemoryStore κ π)
    (stage' : Stage t.A) (notes' : Notes) (w' : World MemoryStore κ π) : Prop where
  tells : t.Tells notes' stage'
  adds : ∃ added, w.Adds added w' ∧ worth notes' stage' = worth notes stage + added

variable [Projection κ π]

theorem counts_waiting :
    t.Counts .waiting .blank w (t.advance .waiting w).1 (t.note .waiting w .blank)
      (t.advance .waiting w).2 := by
  cases hstarted : w.started with
  | false =>
    have hnote : t.note .waiting w .blank = .blank := by simp [note, hstarted, Notes.blank]
    rw [hnote]
    simp only [advance, hstarted]
    exact ⟨⟨rfl, rfl⟩, 0, .refl w, (add_zero _).symm⟩
  | true =>
    have hadds := Engine.restoreSnapshot_adds t.settings t.A t.command.tenant
      t.command.aggregateId w
    have hnote : t.note .waiting w .blank = ⟨Engine.misreads t.settings t.A t.command.tenant
      t.command.aggregateId w, none, none⟩ := by simp [note, hstarted, Notes.blank]
    rw [hnote]
    rcases Engine.restoreSnapshot_cases t.settings t.A t.command.tenant t.command.aggregateId
      t.settings.usesSnapshots w with ⟨error, -, h⟩ | ⟨state, version, w', -, h, -, -⟩
    all_goals
      rw [h] at hadds
      simp only [advance, hstarted, if_true, h]
      refine ⟨⟨rfl, rfl⟩, _, hadds, ?_⟩
      simp [worth, Notes.worth, Stage.worth, Notes.blank]

theorem counts_restored {a : Aggregate t.A} (h : notes.Early) :
    t.Counts (.restored a) notes w (t.advance (.restored a) w).1 notes
      (t.advance (.restored a) w).2 := by
  rcases hdecide : Engine.decide t.settings t.command a w with
    fault | ⟨error | (result | p), w'⟩ <;> simp only [advance, hdecide]
  · exact ⟨Or.inl h, 0, .refl w, (add_zero _).symm⟩
  · obtain ⟨hrace, hbus, hadds⟩ := Engine.decide_adds hdecide
    exact ⟨tells_of_early h hrace hbus, 0, hadds, (add_zero _).symm⟩
  · obtain ⟨hchanges, hadds⟩ := Engine.decide_adds hdecide
    refine ⟨?_, _, hadds, ?_⟩
    · simp only [Tells, hchanges]
      exact h
    · simp [worth, Stage.worth, hchanges]
  · obtain ⟨hchanges, hadds⟩ := Engine.decide_adds hdecide
    exact ⟨⟨h, hchanges⟩, 0, hadds, (add_zero _).symm⟩

theorem counts_decided {p : Engine.Proposal t.A} (h : notes.Early)
    (hchanges : p.result.hasChanges = true) :
    t.Counts (.decided p) notes w (t.advance (.decided p) w).1 (t.note (.decided p) w notes)
      (t.advance (.decided p) w).2 := by
  rcases happend : Engine.append t.settings p w with fault | ⟨error | version, w'⟩
  · simp only [advance, note, happend]
    exact ⟨Or.inl h, 0, .refl w, (add_zero _).symm⟩
  · obtain ⟨cause, rfl, hadds⟩ := Engine.append_adds happend
    simp only [advance, note, happend]
    refine ⟨Or.inr ⟨rfl, h.saved⟩, _, hadds, ?_⟩
    rw [worth, worth, Notes.worth_append h]
    exact add_right_comm ..
  · have hadds := Engine.append_adds happend
    simp only [advance, note, happend]
    refine ⟨⟨rfl, h.saved, hchanges⟩, _, hadds, ?_⟩
    rw [worth, worth, Notes.worth_append h]
    exact add_right_comm ..

theorem counts_appended {p : Engine.Proposal t.A} {version : Version}
    (hcommitted : notes.committed = true) (hsaved : notes.saved = none)
    (hchanges : p.result.hasChanges = true) :
    t.Counts (.appended p version) notes w (t.advance (.appended p version) w).1
      (t.note (.appended p version) w notes) (t.advance (.appended p version) w).2 := by
  refine ⟨⟨⟨hcommitted, ?_⟩, hchanges⟩, _, Engine.saveSnapshot_adds .., ?_⟩
  · simp only [note, Engine.saveOutcome?]
    cases t.settings.usesSnapshots with
    | false => rfl
    | true => exact ⟨_, rfl, (SnapshotVault.write_saves version p.state).1⟩
  · rw [worth, worth, note, Notes.worth_save hsaved]
    exact add_right_comm ..

theorem counts_saved {p : Engine.Proposal t.A} {version : Version} (h : notes.Late t.settings)
    (hchanges : p.result.hasChanges = true) :
    t.Counts (.saved p version) notes w (t.advance (.saved p version) w).1 notes
      (t.advance (.saved p version) w).2 := by
  rcases hpublish : Engine.publish t.A p.envelopes w with fault | ⟨published, w'⟩ <;>
    simp only [advance, hpublish]
  · exact ⟨Or.inr h, 0, .refl w, (add_zero _).symm⟩
  · obtain ⟨hpublished, hw'⟩ := Engine.publish_eq_ok hpublish
    have hadds : w.Adds 0 w' := by
      rw [hw']
      exact ⟨(add_zero _).symm, rfl, rfl⟩
    have hresult : (p.result.atVersion version).hasChanges = true := hchanges
    rcases hpublished with rfl | ⟨error, rfl⟩
    · refine ⟨?_, 0, hadds, ?_⟩
      · simp only [Except.map, Tells, hresult, if_true]
        exact h
      · simp only [Except.map, worth, Stage.worth, hresult, if_true, add_zero]
    · exact ⟨h, 0, hadds, (add_zero _).symm⟩

/-- **What a phase counts.** Each phase counts what it adds to the worth of its send, and leaves
behind notes that agree with its stage. -/
theorem Tells.advance {stage : Stage t.A} (h : t.Tells notes stage) (w : World MemoryStore κ π) :
    t.Counts stage notes w (t.advance stage w).1 (t.note stage w notes) (t.advance stage w).2 := by
  cases stage with
  | waiting =>
    obtain rfl : notes = .blank := h
    exact counts_waiting
  | restored a => exact counts_restored h
  | decided p => exact counts_decided h.1 h.2
  | appended p version => exact counts_appended h.1 h.2.1 h.2.2
  | saved p version => exact counts_saved h.1 h.2
  | answered | stopped => exact ⟨h, 0, .refl w, (add_zero _).symm⟩

/-! ## What the notes of a stage say -/

omit [Projection κ π]

variable {stage : Stage t.A}

/-- The notes of a send as far as the append goes: it is still to come or was not come to, it
failed, or it succeeded. -/
theorem Tells.cases (h : t.Tells notes stage) :
    (notes.Early ∧ stage.isConflict = false ∧ stage.tellsCommit = false) ∨
      (∃ cause, notes.appended = some (.error cause) ∧ notes.saved = none ∧
        stage = .answered (.error (.store cause))) ∨
      (notes.committed = true ∧ stage.isConflict = false ∧
        (stage.isSaving = true ∨ notes.Late t.settings) ∧
        ∀ outcome, stage = .answered outcome → stage.tellsCommit = true) := by
  rcases stage with - | a | p | ⟨p, version⟩ | ⟨p, version⟩ | (error | result) | fault
  case waiting =>
    obtain rfl : notes = .blank := h
    exact Or.inl ⟨⟨rfl, rfl⟩, rfl, rfl⟩
  case restored => exact Or.inl ⟨h, rfl, rfl⟩
  case decided => exact Or.inl ⟨h.1, rfl, rfl⟩
  case appended => exact Or.inr (Or.inr ⟨h.1, rfl, Or.inl rfl, nofun⟩)
  case saved => exact Or.inr (Or.inr ⟨h.1.committed, rfl, Or.inr h.1, nofun⟩)
  case answered.ok =>
    cases hchanges : result.hasChanges with
    | false =>
      simp only [Tells, hchanges, Bool.false_eq_true, if_false] at h
      exact Or.inl ⟨h, rfl, hchanges⟩
    | true =>
      simp only [Tells, hchanges, if_true] at h
      exact Or.inr (Or.inr ⟨h.committed, rfl, Or.inr h, fun _ _ => hchanges⟩)
  case answered.error =>
    cases error with
    | store cause =>
      rcases h with ⟨hearly, hrace⟩ | ⟨happended, hsaved⟩
      · exact Or.inl ⟨hearly, hrace, rfl⟩
      · exact Or.inr (Or.inl ⟨cause, happended, hsaved, rfl⟩)
    | bus cause =>
      have hlate : notes.Late t.settings := h
      exact Or.inr (Or.inr ⟨hlate.committed, rfl, Or.inr hlate, fun _ _ => rfl⟩)
    | _ => exact Or.inl ⟨h, rfl, rfl⟩
  case stopped =>
    rcases h with hearly | hlate
    · exact Or.inl ⟨hearly, rfl, rfl⟩
    · exact Or.inr (Or.inr ⟨hlate.committed, rfl, Or.inr hlate, nofun⟩)

/-- Just those sends are answered with a conflict whose append lost a race. -/
theorem Tells.lostRace_eq (h : t.Tells notes stage) : notes.lostRace = stage.isConflict := by
  rcases h.cases with ⟨hearly, hrace, -⟩ | ⟨cause, happended, -, rfl⟩ | ⟨hcommitted, hrace, -, -⟩
  · rw [hrace, Notes.lostRace, hearly.appended]
  · rw [Notes.lostRace, happended]
    rfl
  · obtain ⟨events, happended⟩ := Notes.appended_of_committed hcommitted
    rw [hrace, Notes.lostRace, happended]

/-- A send that is answered has committed just if its answer says so. -/
theorem Tells.committed_eq {outcome : Except EngineError CommandResult}
    (h : t.Tells notes (.answered outcome)) :
    notes.committed = (Stage.answered outcome : Stage t.A).tellsCommit := by
  rcases h.cases with
    ⟨hearly, -, hsilent⟩ | ⟨cause, happended, -, hstage⟩ | ⟨hcommitted, -, -, htells⟩
  · rw [hsilent, Notes.committed, hearly.appended]
  · rw [hstage, Notes.committed, happended]
    rfl
  · rw [hcommitted, htells outcome rfl]

/-- A send whose append failed, but lost no race, is answered with the failure. -/
theorem Tells.answered_of_appendFailed (h : t.Tells notes stage)
    (hfailed : notes.appendFailed = true) :
    ∃ cause, stage = .answered (.error (.store cause)) ∧ cause.isConflict = false := by
  rcases h.cases with ⟨hearly, -⟩ | ⟨cause, happended, -, hstage⟩ | ⟨hcommitted, -⟩
  · rw [Notes.appendFailed, hearly.appended] at hfailed
    cases hfailed
  · rw [Notes.appendFailed, happended] at hfailed
    exact ⟨cause, hstage, by simpa using hfailed⟩
  · obtain ⟨events, happended⟩ := Notes.appended_of_committed hcommitted
    rw [Notes.appendFailed, happended] at hfailed
    cases hfailed

/-- Where snapshots are used, each send that has committed and comes to the end of that has had
something become of its snapshot, and no other has. -/
theorem Tells.settled_eq (h : t.Tells notes stage) (hused : t.settings.usesSnapshots = true)
    (hsaving : stage.isSaving = false) : notes.settled = notes.committed := by
  rcases h.cases with ⟨hearly, -⟩ | ⟨cause, happended, hsaved, -⟩ | ⟨hcommitted, -, hlate, -⟩
  · rw [Notes.settled, Notes.committed, hearly.appended, hearly.saved]
  · rw [Notes.settled, Notes.committed, happended, hsaved]
  · have hsaved := (hlate.resolve_left (by simp [hsaving])).saved
    rw [if_pos hused] at hsaved
    obtain ⟨outcome, hsaved, hsome⟩ := hsaved
    rw [hcommitted, Notes.settled, hsaved]
    cases outcome with
    | noState => exact absurd rfl hsome
    | _ => rfl

end Task

end Chronicle
