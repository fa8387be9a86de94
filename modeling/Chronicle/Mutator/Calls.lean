import Chronicle.InPlace
import Chronicle.Mutator

/-!
# Calls of a mutator

A mutator is changed in place by whoever calls it, and its steps are told here in their order.
Whoever has a mutator can copy it. A `Bench` holds one and its copies, each at a place of its own.
-/

namespace Chronicle.Mutator

variable {σ ε : Type} [EventKind ε] [Wire σ]

/-- Moves the state by an event. While the transition has the state, the mutator holds the initial
one. -/
def applyInPlace (event : ε) : InPlace (Mutator σ ε) UnhandledKind Unit := do
  let m ← get
  match m.find? (EventKind.kind event) with
  | none => throw ⟨EventKind.kind event, Wire.typeName σ⟩
  | some transition =>
    modify reset
    let state ← transition event m.current
    modify fun m => m.seed state

/-- Moves the state by events in their order, up to the first that has no transition. -/
def applyEach : List ε → InPlace (Mutator σ ε) UnhandledKind Unit
  | [] => return
  | event :: events => do
    applyInPlace event
    applyEach events

/-- What a mutator can be asked to do. -/
inductive Call (σ ε : Type) where
  | register (kind : String) (transition : Transition σ ε)
  | apply (event : ε)
  | seed (state : σ)
  | reset

/-- Does what a mutator is asked to. -/
def callInPlace : Call σ ε → InPlace (Mutator σ ε) UnhandledKind Unit
  | .register kind transition => modify fun m => m.register kind transition
  | .apply event => applyInPlace event
  | .seed state => modify fun m => m.seed state
  | .reset => modify reset

/-- A mutator and its copies. -/
abbrev Bench (σ ε : Type) := List (Mutator σ ε)

namespace Bench

/-- What is done at a bench. -/
inductive Step (σ ε : Type) where
  /-- The mutator at a place is copied to the next free one. -/
  | copy (place : Nat)
  | call (place : Nat) (call : Call σ ε)

/-- Takes a step, if there is a mutator at its place. -/
def step (bench : Bench σ ε) : Step σ ε → Checked (Except UnhandledKind Unit × Bench σ ε)
  | .copy place => .ok (.ok (), bench ++ bench[place]?.toList)
  | .call place call =>
    match bench[place]? with
    | none => .ok (.ok (), bench)
    | some m => do
      let (outcome, m) ← (callInPlace call).perform m
      return (outcome, bench.set place m)

/-- Takes steps one after the other. -/
def run (bench : Bench σ ε) :
    List (Step σ ε) → Checked (List (Except UnhandledKind Unit) × Bench σ ε)
  | [] => .ok ([], bench)
  | s :: steps => do
    let (outcome, bench) ← bench.step s
    let (outcomes, bench) ← bench.run steps
    return (outcome :: outcomes, bench)

end Bench

end Chronicle.Mutator
