/-!
# Counters

What the engine and its parts have done is counted. Each counter is shown as a line with its
name and its value; one that was never raised is not shown.
-/

namespace Chronicle

/-- How often each thing was done. -/
structure Counters where
  eventsAppended : Nat
  /-- Appends that succeeded, each of which is timed. -/
  appends : Nat
  conflicts : Nat
  snapshotsSaved : Nat
  snapshotsSkipped : Nat
  snapshotFailures : Nat
  commandsChanged : Nat
  commandsUnchanged : Nat
  commandsRejected : Nat
  commandsConflict : Nat
  commandsFailed : Nat
  rebuildBatches : Nat
  rebuildEvents : Nat
  publicationTimeouts : Nat
  deriving DecidableEq, Repr

namespace Counters

/-- Nothing was done. -/
def zero : Counters := ⟨0, 0, 0, 0, 0, 0, 0, 0, 0, 0, 0, 0, 0, 0⟩

/-- The name of the counter of commands with one outcome. -/
def commandsNamed (outcome : String) : String :=
  "eventloom_commands_total\x7boutcome=\"" ++ outcome ++ "\"\x7d"

/-- The names and values of all counters, in the order of the names. -/
def table (c : Counters) : List (String × Nat) :=
  [("eventloom_append_duration_seconds_count", c.appends),
    (commandsNamed "changed", c.commandsChanged),
    (commandsNamed "conflict", c.commandsConflict),
    (commandsNamed "failed", c.commandsFailed),
    (commandsNamed "rejected", c.commandsRejected),
    (commandsNamed "unchanged", c.commandsUnchanged),
    ("eventloom_concurrency_conflicts_total", c.conflicts),
    ("eventloom_events_appended_total", c.eventsAppended),
    ("eventloom_publication_timeouts_total", c.publicationTimeouts),
    ("eventloom_rebuild_batches_total", c.rebuildBatches),
    ("eventloom_rebuild_events_total", c.rebuildEvents),
    ("eventloom_snapshot_failures_total", c.snapshotFailures),
    ("eventloom_snapshots_saved_total", c.snapshotsSaved),
    ("eventloom_snapshots_skipped_total", c.snapshotsSkipped)]

/-- The lines of the counters that were raised. -/
def lines (c : Counters) : List String :=
  c.table.filterMap fun (name, value) =>
    if value = 0 then none else some (name ++ " " ++ toString value)

/-- The text reported where what shows counters cannot be made. -/
def buildMessage (reason : String) : String := "Failed to build metrics exporter: " ++ reason

/-- The text reported where counters cannot be shown to others. -/
def installMessage (reason : String) : String :=
  "Failed to install metrics exporter: " ++ reason

end Counters

end Chronicle
