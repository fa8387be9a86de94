import Chronicle.Engine.World

/-!
# Rebuilding views

A rebuild publishes a tenant's log once more, in batches, so that projections can be built anew;
from the beginning of the log it resets them first. Each batch is read and decoded as a whole
before any of it is published, so a stored event that cannot be read keeps back its own batch and
all that follow.
-/

namespace Chronicle

/-- Why a rebuild stops. -/
inductive RebuildError where
  | notStarted
  | invalidBatchSize
  | store (error : StoreError)
  | translation (error : RegistryError)
  | publish (error : BusError)
  | reset (projection : String) (error : ProjectionError)
  deriving DecidableEq

/-- The text reported where a rebuild stops. -/
def RebuildError.message : RebuildError → String
  | .notStarted => "Views rebuild requested before the engine was started"
  | .invalidBatchSize => "Rebuild batch size must be greater than zero"
  | .store error => "Reading the global log failed: " ++ error.message
  | .translation error => "Untranslatable event in the global log: " ++ error.message
  | .publish error => "Publishing a rebuild batch failed: " ++ error.message
  | .reset projection error =>
    "Projection " ++ projection ++ " could not be reset: " ++ error.message

/-- The names of the causes of a failure, from outside in. -/
def RebuildError.label : RebuildError → String
  | .notStarted => "EngineNotStarted"
  | .invalidBatchSize => "InvalidBatchSize"
  | .store error => "Store." ++ error.label
  | .translation error => "Translation." ++ error.label
  | .publish error => "Publish." ++ error.label
  | .reset .. => "Reset"

/-- The news of one published batch. -/
structure RebuildProgress where
  tenant : TenantId
  /-- The number of the batch, from 1. -/
  batch : Nat
  batchSize : Nat
  /-- The events published up to and with the batch. -/
  eventsProcessed : Nat
  start : GlobalPosition
  stop : GlobalPosition
  deriving DecidableEq, Repr

/-- What a finished rebuild did. -/
structure RebuildSummary where
  batches : Nat
  events : Nat
  finalPosition : GlobalPosition
  deriving DecidableEq, Repr

namespace RebuildProgress

/-- The number of news that are kept for a reader. -/
def kept : Nat := 64

/-- What a reader who looks at the end finds: how many of the news are lost, and the others. -/
def received (news : List RebuildProgress) : Nat × List RebuildProgress :=
  (news.length - kept, news.drop (news.length - kept))

end RebuildProgress

namespace Rebuild

variable {S κ π : Type} [EventStore S] [Projection κ π]

/-- What a rebuild has done so far, the news included, the latest last. -/
structure Run where
  cursor : GlobalPosition
  batches : Nat
  events : Nat
  news : List RebuildProgress

/-- What was done when the log has no more events. -/
def Run.summary (run : Run) : RebuildSummary := ⟨run.batches, run.events, run.cursor⟩

/-- Notes a published batch. -/
def Run.note (run : Run) (tenant : TenantId) (size : Nat) (stop : GlobalPosition) : Run where
  cursor := stop
  batches := run.batches + 1
  events := run.events + size
  news := run.news ++
    [⟨tenant, run.batches + 1, size, run.events + size, run.cursor, stop⟩]

/-- Publishes one batch after the other, in at most so many rounds. The loop has ended only if
there is an answer: when no round is left, it is taken to go on for ever. -/
def publishFrom (codec : Codec) (registry : Registry κ) (tenant : TenantId) (batchSize : Nat) :
    Nat → Run → World S κ π → Checked (Except RebuildError RebuildSummary × Run × World S κ π)
  | 0, _, _ => .error .endlessLoop
  | rounds + 1, run, w =>
    match EventStore.loadLog w.store tenant (.pageAfter run.cursor batchSize) with
    | .error error => .ok (.error (.store error), run, w)
    | .ok slice =>
      match slice.lastPosition with
      | none => .ok (.ok run.summary, run, w)
      | some stop =>
        match slice.rows.mapM fun row => registry.decode row codec with
        | .error error => .ok (.error (.translation error), run, w)
        | .ok envelopes => do
          let (outcome, bus, tracker) ← w.bus.publish w.tracker envelopes
          let w := { w with bus := bus, tracker := tracker }
          match outcome with
          | .error error => return (.error (.publish error), run, w)
          | .ok () =>
            publishFrom codec registry tenant batchSize rounds
              (run.note tenant envelopes.length stop) (w.countBatch envelopes.length)

/-- Publishes the events behind a position of a tenant's log, in batches of a given size. From the
beginning, the projections at the places `resets` are reset first. Each batch ends at a higher
position than the one before, so there are no more rounds than positions behind the start. -/
def run (codec : Codec) (registry : Registry κ) (resets : List Nat) (tenant : TenantId)
    (start : GlobalPosition) (batchSize : Nat) (w : World S κ π) :
    Checked (Except RebuildError RebuildSummary × List RebuildProgress × World S κ π) :=
  if !w.started then .ok (.error .notStarted, [], w)
  else if batchSize = 0 then .ok (.error .invalidBatchSize, [], w)
  else
    let (outcome, projections) :=
      if start = .start then Bus.reset (κ := κ) resets w.bus.projections
      else (.ok (), w.bus.projections)
    let w := { w with bus := { w.bus with projections := projections } }
    match outcome with
    | .error (name, error) => .ok (.error (.reset name error), [], w)
    | .ok () => do
      let (outcome, run, w) ← publishFrom codec registry tenant batchSize
        (0x10000000000000000 - start.toNat) ⟨start, 0, 0, []⟩ w
      return (outcome, run.news, w)

end Rebuild

end Chronicle
