import Chronicle.Registry

/-!
# Projections

A projection is a view that published events are handed to, one after the other. It may refuse
an event, and it can be reset in order to be built anew.
-/

namespace Chronicle

/-- Why a projection fails. -/
inductive ProjectionError where
  | storage (reason : String)
  | eventProcessing (reason : String)
  deriving DecidableEq, Repr

/-- The text reported where a projection fails. -/
def ProjectionError.message : ProjectionError → String
  | .storage reason => "Storage error: " ++ reason
  | .eventProcessing reason => "Event processing error: " ++ reason

/-- A type of projections of erased envelopes. -/
class Projection (κ : Type) (π : Type) where
  name : π → String
  handle : π → AnyEnvelope κ → Checked (Except ProjectionError π)
  reset : π → Except ProjectionError π

instance {κ π ρ : Type} [Projection κ π] [Projection κ ρ] : Projection κ (π ⊕ ρ) where
  name
    | .inl view => Projection.name κ view
    | .inr view => Projection.name κ view
  handle
    | .inl view, envelope => return (← Projection.handle view envelope).map .inl
    | .inr view, envelope => return (← Projection.handle view envelope).map .inr
  reset
    | .inl view => (Projection.reset κ view).map .inl
    | .inr view => (Projection.reset κ view).map .inr

/-! ## Recorders -/

/-- A projection that keeps what it is handed, and may refuse one kind of event. -/
structure Recorder (κ : Type) where
  name : String
  received : List (AnyEnvelope κ)
  refuses : Option String
  /-- How often it was reset. -/
  resets : Nat

namespace Recorder

variable {κ : Type}

/-- A recorder that has received nothing. -/
def new (name : String) : Recorder κ := ⟨name, [], none, 0⟩

/-- Keeps an event of a kind that is not refused. -/
def handle (r : Recorder κ) (envelope : AnyEnvelope κ) : Except ProjectionError (Recorder κ) :=
  if r.refuses = some envelope.kind then
    .error (.eventProcessing (r.name ++ " refuses " ++ envelope.kind))
  else .ok { r with received := r.received ++ [envelope] }

/-- Forgets what was received. -/
def reset (r : Recorder κ) : Recorder κ := { r with received := [], resets := r.resets + 1 }

instance : Projection κ (Recorder κ) where
  name := name
  handle r envelope := .ok (r.handle envelope)
  reset r := .ok r.reset

end Recorder

/-! ## Inert projections -/

/-- A projection that ignores every event. -/
structure Inert where
  name : String
  /-- What a reset fails with, if it fails. -/
  resetError : Option ProjectionError

instance {κ : Type} : Projection κ Inert where
  name := Inert.name
  handle view _ := .ok (.ok view)
  reset view := match view.resetError with
    | some error => .error error
    | none => .ok view

end Chronicle
