import Chronicle.Proofs.Engine.Laws
import Chronicle.Proofs.Engine.Outcome

/-!
# Commands to a world that is ready

A world is `Ready` if its engine is started, its store can be reached and its bus accepts whatever
is published. There the conditions do not matter: a command decides at what the rows of its stream
mean, and what it decided comes to one of three ends (`Stage.Comes`): there is nothing to store, or
the store takes the events, or it has no room for them.
-/

namespace Chronicle

namespace World

variable {κ π : Type}

/-- The engine is started, the store can be reached, and the bus accepts any batches. -/
structure Ready [Projection κ π] (w : World MemoryStore κ π) : Prop where
  started : w.started = true
  available : w.store.available = true
  obliging : w.bus.Obliging

theorem Ready.under [Projection κ π] {w : World MemoryStore κ π} (h : w.Ready) (c : Conditions) :
    (w.under c).Ready := ⟨h.started, h.available, h.obliging⟩

end World

/-! ## What is decided -/

/-- What a command comes to that has been decided: its last stage, and the world behind it. -/
inductive Stage.Comes {κ π : Type} {A : AggregateType} (codec : Codec)
    (w : World MemoryStore κ π) : Stage A → Stage A → World MemoryStore κ π → Prop
  | finished {stage : Stage A} {w' : World MemoryStore κ π} (hover : stage.isOver = true)
      (hstore : w'.store = w.store) : Comes codec w stage stage w'
  | full {p : Engine.Proposal A} {stored : List SerializedEvent} {w' : World MemoryStore κ π}
      (hstored : p.envelopes.mapM (fun e => e.serialize codec A.tag) = .ok stored)
      (hfull : w.store.append p.tenant p.stream p.expected stored = .error .addition)
      (hstore : w'.store = w.store) : Comes codec w (.decided p) (.stopped .addition) w'
  | stores {p : Engine.Proposal A} {stored : List SerializedEvent} {version : Version}
      {w' : World MemoryStore κ π}
      (hstored : p.envelopes.mapM (fun e => e.serialize codec A.tag) = .ok stored)
      (happends : w.store.Appends p.tenant p.stream p.expected stored (.ok version) w'.store) :
      Comes codec w (.decided p) (.answered (.ok (p.result.atVersion version))) w'

theorem Stage.Comes.of_store {κ π : Type} {A : AggregateType} {codec : Codec}
    {v w w' : World MemoryStore κ π} {decided stage : Stage A}
    (h : Stage.Comes codec v decided stage w') (hstore : v.store = w.store) :
    Stage.Comes codec w decided stage w' := by
  cases h with
  | finished hover hsame => exact .finished hover (hsame.trans hstore)
  | full hstored hfull hsame => exact .full hstored (hstore ▸ hfull) (hsame.trans hstore)
  | stores hstored happends => exact .stores hstored (hstore ▸ happends)

/-- Envelopes whose payloads can be written are stored. -/
theorem exists_stored {ι ε : Type} [InstanceId ι] [EventKind ε] [Wire ε]
    (hforms : ∀ event : ε, (Wire.format (α := ε)).HasForm event) (codec : Codec) (tag : TypeTag)
    (envelopes : List (EventEnvelope ι ε)) :
    ∃ stored, envelopes.mapM (fun e => e.serialize codec tag) = .ok stored := by
  induction envelopes with
  | nil => exact ⟨[], rfl⟩
  | cons envelope envelopes ih =>
    obtain ⟨data, hdata⟩ := Codec.exists_encode (hforms envelope.payload) codec
    obtain ⟨rest, hrest⟩ := ih
    exact ⟨_, by rw [List.mapM_cons, EventEnvelope.serialize, hdata, hrest]; rfl⟩

namespace Task

variable {κ π : Type} [Projection κ π] {t : Task κ}

/-! ## What a command comes to -/

variable {w : World MemoryStore κ π}

/-- No phase but the last makes a world that is ready otherwise. -/
theorem advance_ready (h : w.Ready) (stage : Stage t.A)
    (hstage : ∀ p version, stage ≠ .saved p version) : (t.advance stage w).2.Ready := by
  obtain ⟨hstarted, havailable⟩ := (t.advance_advances stage w).settled
  exact ⟨hstarted.trans h.started, havailable.trans h.available,
    (t.advance_bus stage w hstage).symm ▸ h.obliging⟩

/-- In a world that is ready the last phase publishes the events and answers. -/
theorem advance_saved_of_ready (hready : w.Ready) (p : Engine.Proposal t.A) (version : Version) :
    ∃ w', t.advance (.saved p version) w = (.answered (.ok (p.result.atVersion version)), w') ∧
      w'.store = w.store ∧ w'.Ready := by
  let batch : List (AnyEnvelope κ) :=
    p.envelopes.map fun envelope => AnyEnvelope.erase t.A envelope none
  obtain ⟨bus, tracker, hpublish, hobliging⟩ :=
    hready.obliging.exists_publish (w.tracker.startAll batch) batch
  have hpublishes : Engine.publish t.A p.envelopes w =
      .ok (.ok (), { w with bus := bus, tracker := tracker }) :=
    (Engine.publish_eq p.envelopes w).trans (bind_eq_ok.mpr ⟨_, hpublish, rfl⟩)
  exact ⟨{ w with bus := bus, tracker := tracker }, by simp only [advance, hpublishes]; rfl, rfl,
    hready.started, hready.available, hobliging⟩

/-- Behind a decision to store events there is only the store. -/
theorem runUnder_decided {a : Aggregate t.A} {p : Engine.Proposal t.A} {events : List t.A.Event}
    (hforms : ∀ event : t.A.Event, (Wire.format (α := t.A.Event)).HasForm event)
    (hstamped : a.Stamped t.command p.expected events p.envelopes) (hne : events ≠ [])
    (hready : w.Ready) (hdense : w.store.Dense)
    (hexpected : w.store.version p.tenant p.stream = p.expected) (schedule : Nat → Conditions) :
    Stage.Comes t.settings.codec w (.decided p) (t.runUnder schedule 3 (.decided p) w).1
        (t.runUnder schedule 3 (.decided p) w).2 ∧
      (t.runUnder schedule 3 (.decided p) w).2.Ready := by
  have hne' : p.envelopes ≠ [] := mt hstamped.eq_nil_iff.mp hne
  obtain ⟨stored, hstored⟩ := exists_stored hforms t.settings.codec t.A.tag p.envelopes
  have happend := Engine.append_of_stamped (w := w.under (schedule 0)) hstamped hne' hstored
  have hready₁ : (t.advance (.decided p) (w.under (schedule 0))).2.Ready :=
    advance_ready (hready.under _) _ (by simp)
  rw [World.under_store] at happend
  cases hstore : w.store.append p.tenant p.stream p.expected stored with
  | error fault =>
    obtain ⟨-, rfl⟩ := MemoryStore.append_eq_error hdense hstore
    rw [hstore] at happend
    have hstops : t.advance (.decided p) (w.under (schedule 0)) =
        (.stopped .addition, w.under (schedule 0)) := by
      simp only [advance, happend, Except.map]
    have hover : (Stage.stopped .addition : Stage t.A).isOver = true := rfl
    obtain ⟨c, hrun⟩ := runUnder_of_isOver hover 2 (fun place => schedule (place + 1))
      (w.under (schedule 0))
    rw [runUnder_succ hstops, hrun]
    exact ⟨.full hstored hstore rfl, (hready.under _).under c⟩
  | ok answer =>
    obtain ⟨outcome, s⟩ := answer
    have happends := MemoryStore.append_eq_ok hstore
    rw [hstore] at happend
    cases outcome with
    | error error =>
      have hlength := (forall₂_of_mapM hstored).length_eq
      cases happends with
      | emptyBatch hnil =>
        rw [hnil] at hlength
        exact absurd (List.length_eq_zero_iff.mp hlength) hne'
      | unavailable _ hunavailable => cases hready.available.symm.trans hunavailable
      | conflict _ _ hconflict => exact absurd hexpected hconflict
    | ok version =>
      have hstores : t.advance (.decided p) (w.under (schedule 0)) = (.appended p version,
          { w.under (schedule 0) with store := s }.countAppend p.envelopes.length) := by
        simp only [advance, happend, Except.map]
      rw [hstores] at hready₁
      rw [runUnder_succ hstores, runUnder_succ rfl]
      have hready₂ := advance_ready (hready₁.under (schedule 1)) (.appended p version) (by simp)
      obtain ⟨w', hanswers, hsame, hready'⟩ :=
        advance_saved_of_ready (t := t) (hready₂.under (schedule 2)) p version
      rw [runUnder_succ hanswers]
      refine ⟨.stores hstored ?_, hready'⟩
      have hkeeps : w'.store = s := hsame.trans (Engine.saveSnapshot_store ..)
      show w.store.Appends _ _ _ _ _ w'.store
      rwa [hkeeps]

/-- **The conditions do not matter.** A command that is sent as a whole to a world that is ready
decides at the state that the rows of its stream mean, whatever the conditions are. -/
theorem runUnder_comes {state : t.A.State} (hbound : t.A.boundMutator = .ok t.A.mutator)
    (hforms : ∀ event : t.A.Event, (Wire.format (α := t.A.Event)).HasForm event)
    (hready : w.Ready) (hsound : w.Sound t.A t.settings.codec t.tenant t.stream)
    (hstate : t.A.stateOf? t.settings.codec ((w.store.tenant t.tenant).rows t.stream) = some state)
    (schedule : Nat → Conditions) :
    ∃ decided, t.Decides state (w.store.version t.tenant t.stream) decided ∧
      Stage.Comes t.settings.codec w decided (t.runUnder schedule 5 .waiting w).1
        (t.runUnder schedule 5 .waiting w).2 ∧
      (t.runUnder schedule 5 .waiting w).2.Ready := by
  obtain ⟨a, w₁, hrestores, hstill₁, hgrounded⟩ := advance_restores (t := t)
    (w := w.under (schedule 0)) hready.started hbound (hsound.under _)
  have hready₁ := advance_ready (t := t) (hready.under (schedule 0)) .waiting (by simp)
  rw [hrestores] at hready₁
  have hstore₁ : w₁.store = w.store := hstill₁.store
  rw [World.under_store, ← hstore₁] at hgrounded
  have hstate₁ := hstate
  rw [← hstore₁] at hstate₁
  obtain ⟨decided, w₂, hdecides, hstill₂, hdecided⟩ := advance_decides
    (w := w₁.under (schedule 1)) hready₁.available (hstore₁.symm ▸ hsound.dense) hgrounded hstate₁
  have hready₂ := advance_ready (hready₁.under (schedule 1)) (.restored a) (by simp)
  rw [hdecides] at hready₂
  have hstore₂ : w₂.store = w.store := hstill₂.store.trans hstore₁
  rw [World.under_store, hstore₁] at hdecided
  rw [runUnder_succ hrestores, runUnder_succ hdecides]
  refine ⟨decided, hdecided, ?_⟩
  cases hover : decided.isOver with
  | true =>
    obtain ⟨c, hrun⟩ := runUnder_of_isOver hover 3 (fun place => schedule (place + 2)) w₂
    rw [hrun]
    exact ⟨.finished hover hstore₂, hready₂.under c⟩
  | false =>
    cases hdecided with
    | stops | abandons | rejects | rests => cases hover
    | @proposes play envelopes _ _ hevents hstamped =>
      have hversion : w₂.store.version t.tenant t.stream = w.store.version t.tenant t.stream := by
        rw [hstore₂]
      have hends := runUnder_decided (p := ⟨t.tenant, t.stream, w.store.version t.tenant t.stream,
        envelopes, play.state, .accept true play.version⟩) hforms hstamped hevents hready₂
        (hstore₂.symm ▸ hsound.dense) hversion fun place => schedule (place + 2)
      exact ⟨hends.1.of_store hstore₂, hends.2⟩

end Task

/-! ## Many commands -/

/-- What is answered to a command that is over. -/
def Stage.answer? {A : AggregateType} :
    Stage A → Option (Checked (Except EngineError CommandResult))
  | .answered outcome => some (.ok outcome)
  | .stopped fault => some (.error fault)
  | _ => none

/-- Whether a command stopped with a fault. -/
instance (answer? : Option (Checked (Except EngineError CommandResult))) (fault : Fault) :
    Decidable (answer? = some (.error fault)) :=
  match answer? with
  | none => isFalse nofun
  | some answer => decidable_of_iff (answer = .error fault) (by rw [Option.some.injEq])

/-- What a command is answered, and the world behind it. -/
structure Moment (κ π : Type) where
  answer? : Option (Checked (Except EngineError CommandResult))
  world : World MemoryStore κ π

/-- Sends commands one after the other. For each phase of each command the schedule has the
conditions under which it is done. -/
def World.serve {κ π : Type} [Projection κ π] : (Nat → Nat → Conditions) → List (Task κ) →
    World MemoryStore κ π → List (Moment κ π)
  | _, [], _ => []
  | schedule, t :: tasks, w =>
    let last := t.runUnder (schedule 0) 5 .waiting w
    ⟨last.1.answer?, last.2⟩ :: World.serve (fun place => schedule (place + 1)) tasks last.2

end Chronicle
