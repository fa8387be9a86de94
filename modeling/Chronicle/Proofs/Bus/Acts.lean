import Chronicle.Bus.Basic
import Chronicle.Proofs.Store.Numbers

/-!
# Publications, act by act

A publication is a list of acts that are performed up to the first that fails. So it can be cut
anywhere (`Bus.performAll_append`), and each of its points is the end of the acts before.

For a batch as a whole this comes to three loops, one within the other: over the envelopes
(`Bus.publishEach`), and for each of them over the places of the projections (`Bus.deliver`), once
the bus has let the batch in (`Bus.publish_eq`).
-/

namespace Chronicle

variable {κ π : Type}

namespace Bus

section

variable [Projection κ π] {act : Act κ} {acts : List (Act κ)} {bus bus' : Bus κ π}
  {tracker tracker' : CompletionTracker}

theorem performAll_cons_of_ok (h : act.perform bus tracker = .ok (.ok (), bus', tracker')) :
    performAll (act :: acts) bus tracker = performAll acts bus' tracker' := by
  rw [performAll, h]
  rfl

theorem performAll_cons_of_error {error : BusError}
    (h : act.perform bus tracker = .ok (.error error, bus', tracker')) :
    performAll (act :: acts) bus tracker = .ok (.error error, bus', tracker') := by
  rw [performAll, h]
  rfl

theorem performAll_cons_of_fault {fault : Fault} (h : act.perform bus tracker = .error fault) :
    performAll (act :: acts) bus tracker = .error fault := by
  rw [performAll, h]
  rfl

/-- The acts behind a point go on from what the acts before it have left. -/
theorem performAll_append (acts more : List (Act κ)) :
    ∀ (bus : Bus κ π) (tracker : CompletionTracker), performAll (acts ++ more) bus tracker =
      (do
        let (outcome, bus, tracker) ← performAll acts bus tracker
        match outcome with
        | .error error => return (.error error, bus, tracker)
        | .ok () => performAll more bus tracker) := by
  induction acts with
  | nil => exact fun bus tracker => rfl
  | cons act acts ih =>
    intro bus tracker
    rw [List.cons_append]
    rcases h : act.perform bus tracker with fault | ⟨error | _, bus', tracker'⟩
    · rw [performAll_cons_of_fault h, performAll_cons_of_fault h]
      rfl
    · rw [performAll_cons_of_error h, performAll_cons_of_error h]
      rfl
    · rw [performAll_cons_of_ok h, performAll_cons_of_ok h]
      exact ih bus' tracker'

theorem performAll_append_of_ok (h : performAll acts bus tracker = .ok (.ok (), bus', tracker'))
    (more : List (Act κ)) :
    performAll (acts ++ more) bus tracker = performAll more bus' tracker' := by
  rw [performAll_append, h]
  rfl

end

end Bus

/-! ## Notes in the tracker -/

namespace CompletionTracker

/-- Notes that some events are published. -/
def startAll (tracker : CompletionTracker) (batch : List (AnyEnvelope κ)) : CompletionTracker :=
  batch.foldl (fun tracker e => tracker.start e.sequenceId e.eventId) tracker

/-- Notes that some events are handled. -/
def completeAll (tracker : CompletionTracker) (batch : List (AnyEnvelope κ)) : CompletionTracker :=
  batch.foldl (fun tracker e => tracker.complete e.sequenceId e.eventId) tracker

end CompletionTracker

namespace Bus

theorem performAll_marks [Projection κ π] (batch : List (AnyEnvelope κ)) (bus : Bus κ π) :
    ∀ tracker, performAll (batch.map .mark) bus tracker =
      .ok (.ok (), bus, tracker.startAll batch) := by
  induction batch with
  | nil => exact fun tracker => rfl
  | cons envelope batch ih =>
    intro tracker
    have hfirst : (Act.mark envelope).perform bus tracker =
        .ok (.ok (), bus, tracker.start envelope.sequenceId envelope.eventId) := rfl
    rw [List.map_cons, performAll_cons_of_ok hfirst, ih]
    rfl

theorem performAll_releases [Projection κ π] (batch : List (AnyEnvelope κ)) (bus : Bus κ π) :
    ∀ tracker, performAll (batch.map .release) bus tracker =
      .ok (.ok (), bus, tracker.completeAll batch) := by
  induction batch with
  | nil => exact fun tracker => rfl
  | cons envelope batch ih =>
    intro tracker
    have hfirst : (Act.release envelope).perform bus tracker =
        .ok (.ok (), bus, tracker.complete envelope.sequenceId envelope.eventId) := rfl
    rw [List.map_cons, performAll_cons_of_ok hfirst, ih]
    rfl

variable [Projection κ π]

/-! ## A batch as a whole -/

/-- Hands an envelope to the projections at some places, one after the other. -/
def deliver (envelope : AnyEnvelope κ) :
    List Nat → List π → Checked (Except BusError Unit × List π)
  | [], projections => .ok (.ok (), projections)
  | place :: places, projections =>
    match projections[place]? with
    | none => deliver envelope places projections
    | some projection => do
      match ← Projection.handle projection envelope with
      | .error error =>
        return (.error (.projection (Projection.name κ projection) error), projections)
      | .ok changed => deliver envelope places (projections.set place changed)

/-- Publishes envelopes one after the other. -/
def publishEach : List (AnyEnvelope κ) → Bus κ π → CompletionTracker →
    Checked (Except BusError Unit × Bus κ π × CompletionTracker)
  | [], bus, tracker => .ok (.ok (), bus, tracker)
  | envelope :: envelopes, bus, tracker => do
    let (outcome, projections) ← deliver envelope bus.registered bus.projections
    let bus := { bus with projections := projections }
    match outcome with
    | .error error => return (.error error, bus, tracker)
    | .ok () => publishEach envelopes (bus.note envelope) (bus.report tracker envelope)

/-- To hand an envelope on place by place is to deliver it. -/
theorem performAll_hands (envelope : AnyEnvelope κ) (places : List Nat)
    (tracker : CompletionTracker) :
    ∀ bus : Bus κ π, performAll (places.map (.hand envelope ·)) bus tracker =
      (do
        let (outcome, projections) ← deliver envelope places bus.projections
        return (outcome, { bus with projections := projections }, tracker)) := by
  induction places with
  | nil => exact fun bus => rfl
  | cons place places ih =>
    intro bus
    rw [List.map_cons, performAll, Act.perform, deliver]
    cases bus.projections[place]? with
    | none => exact ih bus
    | some view =>
      rcases hhandle : Projection.handle view envelope with fault | ⟨error | changed⟩
      · simp only [hhandle]
        rfl
      · simp only [hhandle]
        rfl
      · simp only [hhandle]
        exact ih _

/-- The acts for some envelopes are the publication of one after the other. -/
theorem performAll_flatMap_acts (envelopes : List (AnyEnvelope κ)) (first : Bus κ π) :
    ∀ (bus : Bus κ π) (tracker : CompletionTracker), bus.registered = first.registered →
      performAll (envelopes.flatMap first.acts) bus tracker = publishEach envelopes bus tracker := by
  induction envelopes with
  | nil => exact fun bus tracker _ => rfl
  | cons envelope envelopes ih =>
    intro bus tracker hregistered
    rw [List.flatMap_cons, performAll_append, acts, performAll_append, performAll_hands,
      ← hregistered, publishEach]
    rcases hdeliver : deliver envelope bus.registered bus.projections with
      fault | ⟨error | _, projections⟩
    · rfl
    · rfl
    · exact ih _ _ hregistered

/-- A batch that is let in is published envelope by envelope, and counted. -/
theorem publish_eq (bus : Bus κ π) (tracker : CompletionTracker) (batch : List (AnyEnvelope κ)) :
    bus.publish tracker batch =
      if bus.refuses then
        .ok (.error (.publish "in-memory bus refuses publication"), bus, tracker)
      else do
        let (outcome, bus, tracker) ← publishEach batch bus tracker
        match outcome with
        | .error error => return (.error error, bus, tracker)
        | .ok () => return (.ok (), { bus with batches := bus.batches + 1 }, tracker) := by
  rw [publish, script, performAll, Act.perform]
  split
  · rfl
  · rw [← performAll_flatMap_acts batch bus bus tracker rfl]
    exact performAll_append (batch.flatMap bus.acts) [.conclude] bus tracker

end Bus

end Chronicle
