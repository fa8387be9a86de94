import Chronicle.Proofs.Engine.Phases

/-!
# Commands under way

A send is five phases, and other things may happen between them. A `Task` is a command with the
engine that sends it, a `Stage` is how far the sending has come, and `Task.advance` does the next
phase. Where a phase stops with a fault the task stops too, and what its phases before have stored
and saved stays.

`Advances` says all that one phase can do; `run_of_send` says that a send is a task that is
advanced five times. So an invariant that no phase breaks holds between the phases of any number
of sends and behind whole sends alike.
-/

namespace Chronicle

/-- A command to an instance, and the settings of the engine that sends it. -/
structure Task (κ : Type) where
  settings : Settings
  A : AggregateType
  [carries : Carries κ A.Id A.Event]
  command : CommandEnvelope A.Id A.Command

attribute [instance] Task.carries

/-- How far the sending of a command has come. -/
inductive Stage (A : AggregateType) where
  | waiting
  | restored (a : Aggregate A)
  | decided (p : Engine.Proposal A)
  | appended (p : Engine.Proposal A) (version : Version)
  | saved (p : Engine.Proposal A) (version : Version)
  | answered (outcome : Except EngineError CommandResult)
  | stopped (fault : Fault)

def Stage.isOver {A : AggregateType} : Stage A → Bool
  | .answered _ | .stopped _ => true
  | _ => false

namespace Task

variable {κ π : Type}

def tenant (t : Task κ) : TenantId := t.command.tenant

def stream (t : Task κ) : StreamId := t.A.stream t.command.aggregateId

/-! ## What one phase can do -/

/-- What one phase of a task can do to the world, and from which stage to which it leads. -/
inductive Advances (t : Task κ) (w : World MemoryStore κ π) :
    Stage t.A → Stage t.A → World MemoryStore κ π → Prop
  | restores {state : t.A.State} {version : Version} {w' : World MemoryStore κ π}
      (hstarted : w.started = true) (hbound : t.A.boundMutator = .ok t.A.mutator)
      (horigin : Engine.Origin t.settings.codec t.A w.vault t.tenant t.stream state version)
      (hstill : w.Still w') :
      Advances t w .waiting
        (.restored (.startingAt t.A t.tenant t.command.aggregateId state version)) w'
  | decides {a b : Aggregate t.A} {play : Play t.A.State t.A.Event}
      {envelopes : List (EventEnvelope t.A.Id t.A.Event)} {p : Engine.Proposal t.A}
      {w' : World MemoryStore κ π}
      (hreplay : Engine.replayStream t.settings a w.store = .ok (.ok b))
      (hplay : (t.A.handle t.command b.state).play b.mutator b.state b.current = .ok play)
      (hstamped : b.Stamped t.command b.current play.events envelopes)
      (hhanded : Engine.handed b play envelopes = .ok (.proposed p)) (hstill : w.Still w') :
      Advances t w (.restored a) (.decided p) w'
  | appends {p : Engine.Proposal t.A} {events : List SerializedEvent} {version : Version}
      {w' : World MemoryStore κ π}
      (hevents : p.envelopes.mapM (fun e => e.serialize t.settings.codec t.A.tag) = .ok events)
      (happends : w.store.Appends p.tenant p.stream p.expected events (.ok version) w'.store)
      (hstill : ({ w with store := w'.store } : World MemoryStore κ π).Still w') :
      Advances t w (.decided p) (.appended p version) w'
  | skips {p : Engine.Proposal t.A} {version : Version} {w' : World MemoryStore κ π}
      (hstill : w.Still w') : Advances t w (.appended p version) (.saved p version) w'
  | keeps {p : Engine.Proposal t.A} {version : Version} {data : Bytes}
      {w' : World MemoryStore κ π} (hencode : t.settings.codec.encode p.state = .ok data)
      (hstill : ({ w with
        vault :=
          { w.vault.plant p.tenant ⟨p.stream, version, t.A.tag, data, w.clock⟩ with
            saves := w.vault.saves + 1 } } : World MemoryStore κ π).Still w') :
      Advances t w (.appended p version) (.saved p version) w'
  | ends {stage stage' : Stage t.A} {w' : World MemoryStore κ π} (hover : stage'.isOver = true)
      (hstore : w.store.Alike w'.store) (hvault : w'.vault = w.vault)
      (hstarted : w'.started = w.started) (hclock : w'.clock = w.clock) :
      Advances t w stage stage' w'

/-- A phase that changes nothing but counters and identities, and is the last. -/
theorem Advances.of_still {t : Task κ} {stage stage' : Stage t.A} {w w' : World MemoryStore κ π}
    (hover : stage'.isOver = true) (h : w.Still w') : t.Advances w stage stage' w' :=
  .ends hover (h.store ▸ .refl _) h.vault h.started h.clock

/-- A store that was dense is dense behind a phase. -/
theorem Advances.dense {t : Task κ} {stage stage' : Stage t.A} {w w' : World MemoryStore κ π}
    (h : t.Advances w stage stage' w') (hdense : w.store.Dense) : w'.store.Dense := by
  cases h with
  | restores _ _ _ hstill | decides _ _ _ _ hstill | skips hstill => rwa [hstill.store]
  | appends _ happends => exact happends.dense hdense
  | keeps _ hstill => rw [hstill.store]; exact hdense
  | ends _ hstore => exact hdense.of_tenant hstore.tenant

theorem Advances.grows {t : Task κ} {stage stage' : Stage t.A} {w w' : World MemoryStore κ π}
    (h : t.Advances w stage stage' w') : w.store.Grows w'.store := by
  cases h with
  | restores _ _ _ hstill | decides _ _ _ _ hstill | skips hstill => exact hstill.store ▸ .refl _
  | appends _ happends => exact happends.grows
  | keeps _ hstill => exact hstill.store ▸ .refl _
  | ends _ hstore => exact .of_tenant hstore.tenant

/-- No phase starts or stops the engine or makes the store available or not. -/
theorem Advances.settled {t : Task κ} {stage stage' : Stage t.A} {w w' : World MemoryStore κ π}
    (h : t.Advances w stage stage' w') :
    w'.started = w.started ∧ w'.store.available = w.store.available := by
  cases h with
  | restores _ _ _ hstill | decides _ _ _ _ hstill | skips hstill =>
    exact ⟨hstill.started, by rw [hstill.store]⟩
  | appends _ happends hstill => exact ⟨hstill.started, happends.available_eq⟩
  | keeps _ hstill => exact ⟨hstill.started, by rw [hstill.store]⟩
  | ends _ hstore _ hstarted => exact ⟨hstarted, hstore.available⟩

/-- No phase moves the clock or makes the vault readable or writable or not. -/
theorem Advances.dated {t : Task κ} {stage stage' : Stage t.A} {w w' : World MemoryStore κ π}
    (h : t.Advances w stage stage' w') :
    w'.clock = w.clock ∧ w'.vault.refusesLoads = w.vault.refusesLoads ∧
      w'.vault.refusesSaves = w.vault.refusesSaves := by
  cases h with
  | restores _ _ _ hstill | decides _ _ _ _ hstill | skips hstill =>
    exact ⟨hstill.clock, by rw [hstill.vault], by rw [hstill.vault]⟩
  | appends _ _ hstill => exact ⟨hstill.clock, by rw [hstill.vault], by rw [hstill.vault]⟩
  | keeps _ hstill => exact ⟨hstill.clock, by rw [hstill.vault]; rfl, by rw [hstill.vault]; rfl⟩
  | ends _ _ hvault _ hclock => exact ⟨hclock, by rw [hvault], by rw [hvault]⟩

/-- No phase but the saving of the snapshot changes the vault. -/
theorem Advances.vault {t : Task κ} {stage stage' : Stage t.A} {w w' : World MemoryStore κ π}
    (h : t.Advances w stage stage' w') (hstage : ∀ p version, stage ≠ .appended p version) :
    w'.vault = w.vault := by
  cases h with
  | restores _ _ _ hstill | decides _ _ _ _ hstill | appends _ _ hstill => exact hstill.vault
  | @skips p version | @keeps p version => exact absurd rfl (hstage p version)
  | ends _ _ hvault => exact hvault

/-! ## The phases -/

variable [Projection κ π]

/-- Does the next phase. -/
def advance (t : Task κ) (stage : Stage t.A) (w : World MemoryStore κ π) :
    Stage t.A × World MemoryStore κ π :=
  match stage with
  | .waiting =>
    if w.started then
      match Engine.restoreSnapshot t.settings t.A t.command.tenant t.command.aggregateId
          t.settings.usesSnapshots w with
      | (.error error, w) => (.answered (.error error), w)
      | (.ok a, w) => (.restored a, w)
    else (.answered (.error .notStarted), w)
  | .restored a =>
    match Engine.decide t.settings t.command a w with
    | .error fault => (.stopped fault, w)
    | .ok (.error error, w) => (.answered (.error error), w)
    | .ok (.ok (.idle result), w) => (.answered (.ok result), w)
    | .ok (.ok (.proposed p), w) => (.decided p, w)
  | .decided p =>
    match Engine.append t.settings p w with
    | .error fault => (.stopped fault, w)
    | .ok (.error error, w) => (.answered (.error error), w)
    | .ok (.ok version, w) => (.appended p version, w)
  | .appended p version => (.saved p version, Engine.saveSnapshot t.settings p version w)
  | .saved p version =>
    match Engine.publish t.A p.envelopes w with
    | .error fault => (.stopped fault, w)
    | .ok (published, w) =>
      (.answered (published.map fun () => p.result.atVersion version), w)
  | .answered _ | .stopped _ => (stage, w)

theorem advance_advances (t : Task κ) (stage : Stage t.A) (w : World MemoryStore κ π) :
    t.Advances w stage (t.advance stage w).1 (t.advance stage w).2 := by
  cases stage with
  | waiting =>
    cases hstarted : w.started with
    | false =>
      simp only [advance, hstarted]
      exact .of_still rfl (.refl w)
    | true =>
      rcases Engine.restoreSnapshot_cases t.settings t.A t.command.tenant t.command.aggregateId
        t.settings.usesSnapshots w with
        ⟨error, -, h⟩ | ⟨state, version, w', hbound, h, horigin, hstill⟩
      · simp only [advance, hstarted, if_true, h]
        exact .of_still rfl (.refl w)
      · simp only [advance, hstarted, if_true, h]
        exact .restores hstarted hbound horigin hstill
  | restored a =>
    cases h : Engine.decide t.settings t.command a w with
    | error fault =>
      simp only [advance, h]
      exact .of_still rfl (.refl w)
    | ok answer =>
      obtain ⟨outcome, w'⟩ := answer
      obtain ⟨hstill, hcases⟩ := Engine.decide_eq_ok h
      rcases outcome with error | (result | p)
      · simp only [advance, h]
        exact .of_still rfl hstill
      · simp only [advance, h]
        exact .of_still rfl hstill
      · simp only [advance, h]
        rcases hcases with ⟨error, -, herror⟩ | ⟨b, play, envelopes, hreplay, hplay, hstamped, heq⟩
        · cases herror
        · exact .decides hreplay hplay hstamped heq.symm hstill
  | decided p =>
    cases h : Engine.append t.settings p w with
    | error fault =>
      simp only [advance, h]
      exact .of_still rfl (.refl w)
    | ok answer =>
      obtain ⟨outcome, w'⟩ := answer
      rcases Engine.append_eq_ok h with
        ⟨error, rfl, hsame⟩ | ⟨events, version, rfl, hevents, happends, hstill⟩
      · simp only [advance, h]
        exact .ends rfl hsame.store hsame.vault hsame.started hsame.clock
      · simp only [advance, h]
        exact .appends hevents happends hstill
  | appended p version =>
    rcases Engine.saveSnapshot_cases t.settings p version w with hstill | ⟨data, hencode, hstill⟩
    · exact .skips hstill
    · exact .keeps hencode hstill
  | saved p version =>
    cases h : Engine.publish t.A p.envelopes w with
    | error fault =>
      simp only [advance, h]
      exact .of_still rfl (.refl w)
    | ok answer =>
      obtain ⟨published, w'⟩ := answer
      simp only [advance, h]
      rw [(Engine.publish_eq_ok h).2]
      exact .ends rfl (.refl _) rfl rfl rfl
  | answered outcome => exact .of_still rfl (.refl w)
  | stopped fault => exact .of_still rfl (.refl w)

/-! ## Many phases -/

/-- Does so many phases. -/
def run (t : Task κ) : Nat → Stage t.A → World MemoryStore κ π → Stage t.A × World MemoryStore κ π
  | 0, stage, w => (stage, w)
  | phases + 1, stage, w => run t phases (t.advance stage w).1 (t.advance stage w).2

theorem run_succ {t : Task κ} {stage stage' : Stage t.A} {w w' : World MemoryStore κ π}
    (h : t.advance stage w = (stage', w')) (phases : Nat) :
    t.run (phases + 1) stage w = t.run phases stage' w' := by
  rw [run, h]

theorem run_of_isOver {t : Task κ} {stage : Stage t.A} (h : stage.isOver = true)
    (w : World MemoryStore κ π) (phases : Nat) : t.run phases stage w = (stage, w) := by
  induction phases with
  | zero => rfl
  | succ phases ih =>
    cases stage with
    | answered | stopped => exact ih
    | _ => cases h

/-- What every phase preserves, so many phases preserve. -/
theorem run_induction {t : Task κ} {P : Stage t.A → World MemoryStore κ π → Prop}
    (step : ∀ {stage w stage' w'}, t.Advances w stage stage' w' → P stage w → P stage' w')
    (phases : Nat) : ∀ {stage : Stage t.A} {w : World MemoryStore κ π}, P stage w →
      P (t.run phases stage w).1 (t.run phases stage w).2 := by
  induction phases with
  | zero => exact id
  | succ phases ih =>
    intro stage w h
    exact ih (step (t.advance_advances stage w) h)

section Send

variable {t : Task κ} {w w' : World MemoryStore κ π}

theorem advance_waiting {a : Aggregate t.A} (hstarted : w.started = true)
    (h : Engine.restoreSnapshot t.settings t.A t.command.tenant t.command.aggregateId
      t.settings.usesSnapshots w = (.ok a, w')) : t.advance .waiting w = (.restored a, w') := by
  simp only [advance, hstarted, if_true, h]

theorem advance_restored {a : Aggregate t.A} {p : Engine.Proposal t.A}
    (h : Engine.decide t.settings t.command a w = .ok (.ok (.proposed p), w')) :
    t.advance (.restored a) w = (.decided p, w') := by
  simp only [advance, h]

theorem advance_decided {p : Engine.Proposal t.A} {version : Version}
    (h : Engine.append t.settings p w = .ok (.ok version, w')) :
    t.advance (.decided p) w = (.appended p version, w') := by
  simp only [advance, h]

/-- A send is a task that is advanced five times. -/
theorem run_of_send {outcome : Except EngineError CommandResult}
    (h : Engine.send t.settings t.A t.command w = .ok (outcome, w')) :
    t.run 5 .waiting w = (.answered outcome, w') := by
  cases Engine.send_eq_ok h with
  | notStarted hstarted =>
    have h₁ : t.advance .waiting w = (.answered (.error .notStarted), w) := by
      simp [advance, hstarted]
    rw [run_succ h₁, run_of_isOver rfl]
  | @unbound error _ hstarted hrestore =>
    have h₁ : t.advance .waiting w = (.answered (.error error), w') := by
      simp only [advance, hstarted, if_true, hrestore]
    rw [run_succ h₁, run_of_isOver rfl]
  | @undecided a error w₁ _ hstarted hrestore hdecide =>
    have h₁ := advance_waiting hstarted hrestore
    have h₂ : t.advance (.restored a) w₁ = (.answered (.error error), w') := by
      simp only [advance, hdecide]
    rw [run_succ h₁, run_succ h₂, run_of_isOver rfl]
  | @idle a result w₁ _ hstarted hrestore hdecide =>
    have h₁ := advance_waiting hstarted hrestore
    have h₂ : t.advance (.restored a) w₁ = (.answered (.ok result), w') := by
      simp only [advance, hdecide]
    rw [run_succ h₁, run_succ h₂, run_of_isOver rfl]
  | @refused a p error w₁ w₂ _ hstarted hrestore hdecide happend =>
    have h₁ := advance_waiting hstarted hrestore
    have h₂ := advance_restored hdecide
    have h₃ : t.advance (.decided p) w₂ = (.answered (.error error), w') := by
      simp only [advance, happend]
    rw [run_succ h₁, run_succ h₂, run_succ h₃, run_of_isOver rfl]
  | @stored a p version published w₁ w₂ w₃ _ hstarted hrestore hdecide happend hpublish =>
    have h₁ := advance_waiting hstarted hrestore
    have h₂ := advance_restored hdecide
    have h₃ := advance_decided happend
    have h₅ : t.advance (.saved p version) (Engine.saveSnapshot t.settings p version w₃) =
        (.answered (published.map fun () => p.result.atVersion version), w') := by
      simp only [advance, hpublish]
    rw [run_succ h₁, run_succ h₂, run_succ h₃, run_succ rfl, run_succ h₅, run_of_isOver rfl]

/-- A send that stops with a fault is a task that stops with it within five phases. -/
theorem run_of_send_fault {fault : Fault}
    (h : Engine.send t.settings t.A t.command w = .error fault) :
    ∃ w', t.run 5 .waiting w = (.stopped fault, w') := by
  unfold Engine.send at h
  cases hstarted : w.started with
  | false => rw [hstarted] at h; cases h
  | true =>
    rw [hstarted, if_pos rfl] at h
    split at h
    · cases h
    next a w₁ hrestore =>
    have h₁ := advance_waiting hstarted hrestore
    rcases hdecide : Engine.decide t.settings t.command a w₁ with
      found | ⟨error | (result | p), w₂⟩ <;> rw [hdecide] at h
    · obtain rfl := Except.error.inj h
      have h₂ : t.advance (.restored a) w₁ = (.stopped found, w₁) := by
        simp only [advance, hdecide]
      exact ⟨w₁, by rw [run_succ h₁, run_succ h₂, run_of_isOver rfl]⟩
    · cases h
    · cases h
    have h₂ := advance_restored hdecide
    change Engine.commit t.settings p w₂ = _ at h
    unfold Engine.commit at h
    rcases happend : Engine.append t.settings p w₂ with found | ⟨error | version, w₃⟩ <;>
      rw [happend] at h
    · obtain rfl := Except.error.inj h
      have h₃ : t.advance (.decided p) w₂ = (.stopped found, w₂) := by
        simp only [advance, happend]
      exact ⟨w₂, by rw [run_succ h₁, run_succ h₂, run_succ h₃, run_of_isOver rfl]⟩
    · cases h
    have h₃ := advance_decided happend
    replace h : (Engine.publish t.A p.envelopes
        (Engine.saveSnapshot t.settings p version w₃) >>= _) = .error fault := h
    rcases hpublish : Engine.publish t.A p.envelopes
        (Engine.saveSnapshot t.settings p version w₃) with found | ⟨published, w₄⟩ <;>
      rw [hpublish] at h
    · obtain rfl := Except.error.inj h
      have h₅ : t.advance (.saved p version) (Engine.saveSnapshot t.settings p version w₃) =
          (.stopped found, Engine.saveSnapshot t.settings p version w₃) := by
        simp only [advance, hpublish]
      exact ⟨_, by rw [run_succ h₁, run_succ h₂, run_succ h₃, run_succ rfl, run_succ h₅,
        run_of_isOver rfl]⟩
    · cases h

end Send

end Task

end Chronicle
