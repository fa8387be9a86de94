import Chronicle.Bus.Basic
import Chronicle.Counters
import Chronicle.Engine.Settings
import Chronicle.Snapshot.Vault
import Chronicle.Store.Basic

/-!
# The world of an engine

All that an engine reads and changes: the event store, the vault of snapshots, the bus, the
tracker, the counters, the supply of identities and the clock that dates snapshots. The settings
stand apart, since nothing changes them.
-/

namespace Chronicle

/-- What an engine works on. -/
structure World (S κ π : Type) where
  store : S
  vault : SnapshotVault
  bus : Bus κ π
  tracker : CompletionTracker
  counters : Counters
  ids : IdSupply
  clock : Timestamp
  started : Bool

/-- Why an engine fails. -/
inductive EngineError where
  | notStarted
  | store (error : StoreError)
  | aggregate (error : AggregateError)
  | bus (error : BusError)
  | publicationTimeout (timeout : CompletionTimeout)
  deriving DecidableEq

namespace EngineError

/-- Whether another attempt may help. -/
def isRetryable : EngineError → Bool
  | .store error => error.isConflict
  | _ => false

/-- Whether only the wait failed. -/
def isTimeout : EngineError → Bool
  | .publicationTimeout _ => true
  | _ => false

/-- The text reported for a failure, with sequences named as given. -/
def message (naming : SequenceId → String) : EngineError → String
  | .notStarted => "Engine has not been started"
  | .store error => error.message
  | .aggregate error => error.message
  | .bus error => "Events committed but not published: " ++ error.message
  | .publicationTimeout timeout =>
    "Sequence " ++ naming timeout.sequence ++ " was not fully handled within " ++
      timeout.timeout.toText

/-- The names of the causes of a failure, from outside in. -/
def label : EngineError → String
  | .notStarted => "NotStarted"
  | .store error => "Store." ++ error.label
  | .aggregate error => "Aggregate." ++ error.label
  | .bus error => "Bus." ++ error.label
  | .publicationTimeout _ => "PublicationTimeout"

end EngineError

namespace World

variable {S κ π : Type}

/-- Counts a command that changed nothing. -/
def countIdle (w : World S κ π) (result : CommandResult) : World S κ π :=
  { w with
    counters :=
      if result.accepted then
        { w.counters with commandsUnchanged := w.counters.commandsUnchanged + 1 }
      else { w.counters with commandsRejected := w.counters.commandsRejected + 1 } }

/-- Counts an append that succeeded. -/
def countAppend (w : World S κ π) (events : Nat) : World S κ π :=
  { w with
    counters :=
      { w.counters with
        eventsAppended := w.counters.eventsAppended + events
        appends := w.counters.appends + 1
        commandsChanged := w.counters.commandsChanged + 1 } }

/-- Counts an append that failed. -/
def countAppendFailure (w : World S κ π) (error : StoreError) : World S κ π :=
  { w with
    counters :=
      if error.isConflict then
        { w.counters with
          conflicts := w.counters.conflicts + 1
          commandsConflict := w.counters.commandsConflict + 1 }
      else { w.counters with commandsFailed := w.counters.commandsFailed + 1 } }

/-- Counts a snapshot that cannot be read or saved. -/
def countSnapshotFailure (w : World S κ π) : World S κ π :=
  { w with
    counters := { w.counters with snapshotFailures := w.counters.snapshotFailures + 1 } }

/-- Counts what became of a snapshot. -/
def countSave (w : World S κ π) : SaveOutcome → World S κ π
  | .saved =>
    { w with counters := { w.counters with snapshotsSaved := w.counters.snapshotsSaved + 1 } }
  | .skipped =>
    { w with counters := { w.counters with snapshotsSkipped := w.counters.snapshotsSkipped + 1 } }
  | .noState => w
  | .failed => w.countSnapshotFailure

/-- Counts a wait that was not worth it. -/
def countTimeout (w : World S κ π) : World S κ π :=
  { w with
    counters := { w.counters with publicationTimeouts := w.counters.publicationTimeouts + 1 } }

/-- Counts a published batch of a rebuild. -/
def countBatch (w : World S κ π) (events : Nat) : World S κ π :=
  { w with
    counters :=
      { w.counters with
        rebuildBatches := w.counters.rebuildBatches + 1
        rebuildEvents := w.counters.rebuildEvents + events } }

end World

end Chronicle
