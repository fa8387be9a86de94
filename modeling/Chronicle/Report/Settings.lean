import Chronicle.Engine.Settings
import Chronicle.Report.Basic

/-!
# Settings in reports

Settings and policies are shown in full, those parts included that were not given.
-/

namespace Chronicle.Report

/-- A snapshot policy. -/
def policy (p : SnapshotPolicy) : Json :=
  Json.record [("behaviour", .str (match p.behaviour with
      | .everyCommit => "every"
      | .thresholdCommit => "threshold")),
    ("commit_threshold", word p.threshold), ("min_aggregate_version", version p.minVersion),
    ("expire_after", opt duration p.expireAfter)]

/-- A retry policy. -/
def retry (p : RetryPolicy Float) : Json :=
  Json.record [("max_retries", word p.maxRetries), ("initial_delay", duration p.initialDelay),
    ("max_delay", duration p.maxDelay), ("multiplier", float p.multiplier),
    ("jitter", float p.jitter)]

/-- The settings of an engine. -/
def settings (s : Settings) : Json :=
  Json.record [("snapshot_policy", policy s.snapshotPolicy), ("codec", .str s.codec.name),
    ("rebuild_batch_size", word s.rebuildBatch),
    ("publication_timeout", duration s.publicationTimeout),
    ("use_snapshots", .bool s.usesSnapshots), ("retry_policy", retry s.retryPolicy)]

end Chronicle.Report
