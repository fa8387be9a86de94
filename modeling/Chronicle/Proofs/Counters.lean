import Chronicle.Proofs.Engine.Phases
import Mathlib.Algebra.Group.Basic
import Mathlib.Algebra.GroupWithZero.Nat

/-!
# Adding counters up

Counters are added field by field. Each thing that is counted is worth some counters (`ofSave`,
`ofIdle`, `ofAppend`, `ofBatch`), and to count it is to add these, so what many things have counted
is a sum. Where one of them comes to be worth more, the sum grows by as much (`sum_map_set`), and a
single counter of a sum is the sum of that counter (`Field.sum`).

`World.Adds` says that from one world to another something is counted, and that as many events have
come into the store and as many snapshots have been saved as are counted.
-/

namespace Chronicle

/-! ## Sums over lists -/

/-- Where one thing becomes another that is worth more, the sum is more by as much. -/
theorem sum_map_set {α μ : Type*} [AddCommMonoid μ] (worth : α → μ) {things : List α} {place : Nat}
    {old new : α} {added : μ} (h : things[place]? = some old)
    (hworth : worth new = worth old + added) :
    ((things.set place new).map worth).sum = (things.map worth).sum + added := by
  induction things generalizing place with
  | nil => cases h
  | cons first things ih =>
    cases place with
    | zero =>
      obtain rfl := Option.some.inj h
      rw [List.set_cons_zero, List.map_cons, List.sum_cons, hworth, List.map_cons, List.sum_cons,
        add_right_comm]
    | succ place =>
      rw [List.set_cons_succ, List.map_cons, List.sum_cons, ih h, List.map_cons, List.sum_cons,
        add_assoc]

/-- To count the things of a kind is to add one up for each. -/
theorem sum_map_toNat {α : Type*} (p : α → Bool) (things : List α) :
    (things.map fun thing => (p thing).toNat).sum = things.countP p := by
  induction things with
  | nil => rfl
  | cons first things ih =>
    rw [List.map_cons, List.sum_cons, ih, List.countP_cons, Nat.add_comm]
    cases p first <;> rfl

/-! ## Counters as numbers -/

attribute [ext] Counters

namespace Counters

instance : Zero Counters := ⟨.zero⟩

instance : Add Counters where
  add a b :=
    ⟨a.eventsAppended + b.eventsAppended, a.appends + b.appends, a.conflicts + b.conflicts,
      a.snapshotsSaved + b.snapshotsSaved, a.snapshotsSkipped + b.snapshotsSkipped,
      a.snapshotFailures + b.snapshotFailures, a.commandsChanged + b.commandsChanged,
      a.commandsUnchanged + b.commandsUnchanged, a.commandsRejected + b.commandsRejected,
      a.commandsConflict + b.commandsConflict, a.commandsFailed + b.commandsFailed,
      a.rebuildBatches + b.rebuildBatches, a.rebuildEvents + b.rebuildEvents,
      a.publicationTimeouts + b.publicationTimeouts⟩

instance : AddCommMonoid Counters where
  add_assoc a b c := by ext <;> exact Nat.add_assoc ..
  zero_add a := by ext <;> exact Nat.zero_add _
  add_zero a := by ext <;> exact Nat.add_zero _
  add_comm a b := by ext <;> exact Nat.add_comm ..
  nsmul := nsmulRec

/-- One of the counters. -/
structure Field (counter : Counters → Nat) : Prop where
  zero : counter 0 = 0
  add : ∀ a b, counter (a + b) = counter a + counter b

theorem Field.sum {counter : Counters → Nat} (h : Field counter) {α : Type*} (worth : α → Counters)
    (things : List α) :
    counter (things.map worth).sum = (things.map fun thing => counter (worth thing)).sum := by
  induction things with
  | nil => exact h.zero
  | cons first things ih =>
    rw [List.map_cons, List.sum_cons, h.add, ih, List.map_cons, List.sum_cons]

/-! ## What is counted -/

/-- A snapshot that cannot be read or saved. -/
def snapshotFailure : Counters := { zero with snapshotFailures := 1 }

/-- What became of a snapshot. -/
def ofSave : SaveOutcome → Counters
  | .saved => { zero with snapshotsSaved := 1 }
  | .skipped => { zero with snapshotsSkipped := 1 }
  | .noState => 0
  | .failed => snapshotFailure

/-- A command that changed nothing. -/
def ofIdle (result : CommandResult) : Counters :=
  if result.accepted then { zero with commandsUnchanged := 1 }
  else { zero with commandsRejected := 1 }

/-- An append of some events, or one that failed. -/
def ofAppend : Except StoreError Nat → Counters
  | .ok events => { zero with eventsAppended := events, appends := 1, commandsChanged := 1 }
  | .error error =>
    if error.isConflict then { zero with conflicts := 1, commandsConflict := 1 }
    else { zero with commandsFailed := 1 }

/-- A published batch of a rebuild. -/
def ofBatch (events : Nat) : Counters := { zero with rebuildBatches := 1, rebuildEvents := events }

end Counters

namespace World

variable {S κ π : Type} (w : World S κ π)

theorem counters_countSnapshotFailure :
    w.countSnapshotFailure.counters = w.counters + .snapshotFailure := rfl

theorem counters_countSave (outcome : SaveOutcome) :
    (w.countSave outcome).counters = w.counters + .ofSave outcome := by
  cases outcome <;> rfl

theorem counters_countIdle (result : CommandResult) :
    (w.countIdle result).counters = w.counters + .ofIdle result := by
  unfold countIdle Counters.ofIdle
  cases result.accepted <;> rfl

theorem counters_countAppend (events : Nat) :
    (w.countAppend events).counters = w.counters + .ofAppend (.ok events) := rfl

theorem counters_countAppendFailure (error : StoreError) :
    (w.countAppendFailure error).counters = w.counters + .ofAppend (.error error) := by
  by_cases h : error.isConflict = true
  · simp only [countAppendFailure, Counters.ofAppend, if_pos h]
    rfl
  · simp only [countAppendFailure, Counters.ofAppend, if_neg h]
    rfl

theorem counters_countBatch (events : Nat) :
    (w.countBatch events).counters = w.counters + .ofBatch events := rfl

end World

/-! ## What is counted between two worlds -/

namespace World

variable {κ π : Type} {w w' w'' : World MemoryStore κ π} {added more : Counters}

/-- From one world to another something is counted: the events among it have come into the store,
and the snapshots have been saved. -/
structure Adds (w : World MemoryStore κ π) (added : Counters) (w' : World MemoryStore κ π) :
    Prop where
  counters : w'.counters = w.counters + added
  events : w'.store.size = w.store.size + added.eventsAppended
  saves : w'.vault.saves = w.vault.saves + added.snapshotsSaved

theorem Adds.refl (w : World MemoryStore κ π) : w.Adds 0 w := ⟨(add_zero _).symm, rfl, rfl⟩

theorem Adds.trans (h : w.Adds added w') (h' : w'.Adds more w'') : w.Adds (added + more) w'' where
  counters := by rw [h'.counters, h.counters, add_assoc]
  events := by
    rw [h'.events, h.events, Nat.add_assoc]
    rfl
  saves := by
    rw [h'.saves, h.saves, Nat.add_assoc]
    rfl

/-- What changes neither store nor vault adds what it counts, if it counts neither events nor
snapshots. -/
theorem Adds.of_still (hstill : w.Still w') (hcounters : w'.counters = w.counters + added)
    (hevents : added.eventsAppended = 0) (hsaves : added.snapshotsSaved = 0) :
    w.Adds added w' where
  counters := hcounters
  events := by rw [hstill.store, hevents, Nat.add_zero]
  saves := by rw [hstill.vault, hsaves, Nat.add_zero]

end World

end Chronicle
