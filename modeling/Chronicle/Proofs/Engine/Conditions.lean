import Chronicle.Proofs.Engine.Clients

/-!
# Conditions

What time it is, and whether the vault of snapshots can be read and written, may be different each
time an engine goes on. `Task.runUnder` is a task whose phases are each done under conditions of
their own; where the conditions never change it is `Task.run` (`runUnder_eq_run`).
-/

namespace Chronicle

/-- What may be different each time an engine goes on. -/
structure Conditions where
  now : Timestamp
  refusesLoads : Bool
  refusesSaves : Bool

namespace World

variable {κ π : Type}

def under (w : World MemoryStore κ π) (c : Conditions) : World MemoryStore κ π :=
  { w with
    clock := c.now
    vault := { w.vault with refusesLoads := c.refusesLoads, refusesSaves := c.refusesSaves } }

@[simp] theorem under_store (w : World MemoryStore κ π) (c : Conditions) :
    (w.under c).store = w.store := rfl

/-- The conditions that a world is under. -/
def conditions (w : World MemoryStore κ π) : Conditions :=
  ⟨w.clock, w.vault.refusesLoads, w.vault.refusesSaves⟩

@[simp] theorem under_conditions (w : World MemoryStore κ π) : w.under w.conditions = w := rfl

end World

namespace Task

variable {κ π : Type} [Projection κ π] {t : Task κ}

/-- Does so many phases, each under the next conditions of a schedule. -/
def runUnder (t : Task κ) : (Nat → Conditions) → Nat → Stage t.A → World MemoryStore κ π →
    Stage t.A × World MemoryStore κ π
  | _, 0, stage, w => (stage, w)
  | schedule, phases + 1, stage, w =>
    let next := t.advance stage (w.under (schedule 0))
    t.runUnder (fun place => schedule (place + 1)) phases next.1 next.2

theorem runUnder_succ {schedule : Nat → Conditions} {stage stage' : Stage t.A}
    {w w' : World MemoryStore κ π} (h : t.advance stage (w.under (schedule 0)) = (stage', w'))
    (phases : Nat) : t.runUnder schedule (phases + 1) stage w =
      t.runUnder (fun place => schedule (place + 1)) phases stage' w' := by
  rw [runUnder, h]

/-- A task that is over stays over, in a world that is the same but for the conditions. -/
theorem runUnder_of_isOver {stage : Stage t.A} (h : stage.isOver = true) (phases : Nat) :
    ∀ (schedule : Nat → Conditions) (w : World MemoryStore κ π),
      ∃ c, t.runUnder schedule phases stage w = (stage, w.under c) := by
  induction phases with
  | zero => exact fun _ w => ⟨w.conditions, rfl⟩
  | succ phases ih =>
    intro schedule w
    have hstays : t.advance stage (w.under (schedule 0)) = (stage, w.under (schedule 0)) := by
      cases stage with
      | answered | stopped => rfl
      | _ => cases h
    obtain ⟨c, hrest⟩ := ih (fun place => schedule (place + 1)) (w.under (schedule 0))
    exact ⟨c, (runUnder_succ hstays phases).trans hrest⟩

/-- What every phase preserves and does not depend on conditions, many phases preserve. -/
theorem runUnder_induction {P : Stage t.A → World MemoryStore κ π → Prop}
    (under : ∀ {stage w} c, P stage w → P stage (w.under c))
    (step : ∀ {stage w stage' w'}, t.Advances w stage stage' w' → P stage w → P stage' w')
    (phases : Nat) : ∀ (schedule : Nat → Conditions) {stage : Stage t.A}
      {w : World MemoryStore κ π}, P stage w →
        P (t.runUnder schedule phases stage w).1 (t.runUnder schedule phases stage w).2 := by
  induction phases with
  | zero => exact fun _ _ _ h => h
  | succ phases ih =>
    intro schedule stage w h
    exact ih _ (step (t.advance_advances stage (w.under (schedule 0))) (under (schedule 0) h))

/-- Under the conditions of the world, which no phase changes, a task is run as it is. -/
theorem runUnder_eq_run (t : Task κ) (phases : Nat) : ∀ (stage : Stage t.A)
    (w : World MemoryStore κ π),
      t.runUnder (fun _ => w.conditions) phases stage w = t.run phases stage w := by
  induction phases with
  | zero => exact fun _ _ => rfl
  | succ phases ih =>
    intro stage w
    obtain ⟨hclock, hloads, hsaves⟩ := (t.advance_advances stage w).dated
    have hsame : (t.advance stage w).2.conditions = w.conditions := by
      rw [World.conditions, hclock, hloads, hsaves]
      rfl
    rw [runUnder, run, World.under_conditions, ← ih, hsame]

/-- Where the conditions never change, five phases are a send. -/
theorem runUnder_of_send {w w' : World MemoryStore κ π} {outcome : Except EngineError CommandResult}
    (h : Engine.send t.settings t.A t.command w = .ok (outcome, w')) :
    t.runUnder (fun _ => w.conditions) 5 .waiting w = (.answered outcome, w') :=
  (t.runUnder_eq_run 5 .waiting w).trans (run_of_send h)

theorem runUnder_dense {w : World MemoryStore κ π} (hdense : w.store.Dense)
    (schedule : Nat → Conditions) (phases : Nat) :
    (t.runUnder schedule phases .waiting w).2.store.Dense :=
  runUnder_induction (P := fun _ w => w.store.Dense) (fun _ h => h) (fun hstep => hstep.dense)
    phases schedule hdense

end Task

end Chronicle
