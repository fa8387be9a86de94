import Chronicle.Retry
import Chronicle.Snapshot.Policy

/-!
# Settings of an engine

The settings can be given as a JSON document. A part that is not given keeps its standard value.
-/

namespace Chronicle

/-- How an engine works. -/
structure Settings where
  snapshotPolicy : SnapshotPolicy
  codec : Codec
  /-- How many events a rebuild publishes at once. -/
  rebuildBatch : UInt64
  /-- How long a command waits for its events to be handled. -/
  publicationTimeout : Duration
  usesSnapshots : Bool
  retryPolicy : RetryPolicy Float

namespace Settings

/-- The settings where nothing is said. -/
def standard : Settings := ⟨.everyCommit, .binary, 500, .ofSeconds 30, true, .standard⟩

end Settings

instance : Wire Settings :=
  ⟨"Settings",
    Format.record
      (Fields.optional "snapshot_policy" (Wire.format (α := SnapshotPolicy))
          Settings.standard.snapshotPolicy <|
        Fields.optional "codec" (Wire.format (α := Codec)) Settings.standard.codec <|
        Fields.optional "rebuild_batch_size" Format.uint64 Settings.standard.rebuildBatch <|
        Fields.optional "publication_timeout" Format.duration
          Settings.standard.publicationTimeout <|
        Fields.optional "use_snapshots" Format.bool Settings.standard.usesSnapshots <|
        Fields.optional "retry_policy" (Wire.format (α := RetryPolicy Float))
          Settings.standard.retryPolicy <| Fields.none)
      (fun s => (s.snapshotPolicy, s.codec, s.rebuildBatch, s.publicationTimeout, s.usesSnapshots,
        s.retryPolicy, ()))
      (fun (snapshotPolicy, codec, rebuildBatch, publicationTimeout, usesSnapshots, retryPolicy,
          _) =>
        ⟨snapshotPolicy, codec, rebuildBatch, publicationTimeout, usesSnapshots, retryPolicy⟩)⟩

end Chronicle
