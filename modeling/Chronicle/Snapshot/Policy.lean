import Chronicle.Codec.Wire

/-!
# Snapshot policies

A policy says at which versions a snapshot is taken: above a minimum, and either always or at
the multiples of a threshold. It may also say after how long a snapshot is no longer used.
-/

namespace Chronicle

/-- Whether snapshots are taken at every commit or at the multiples of a threshold. -/
inductive SnapshotBehaviour where
  | everyCommit
  | thresholdCommit
  deriving DecidableEq, Repr

/-- When snapshots are taken and used. -/
structure SnapshotPolicy where
  behaviour : SnapshotBehaviour
  threshold : UInt64
  /-- The highest version at which no snapshot is taken. -/
  minVersion : Version
  expireAfter : Option Duration
  deriving DecidableEq

namespace SnapshotPolicy

/-- A snapshot at every commit, used for ever. -/
def everyCommit : SnapshotPolicy := ⟨.everyCommit, 10, .notCreated, none⟩

/-- A snapshot at the multiples of a threshold, used for ever. -/
def atMultiplesOf (threshold : UInt64) : SnapshotPolicy :=
  ⟨.thresholdCommit, threshold, .notCreated, none⟩

/-- Whether a snapshot is taken at a version. No version is a multiple of the threshold zero. -/
def persistsAt (policy : SnapshotPolicy) (version : Version) : Bool :=
  policy.minVersion < version &&
    match policy.behaviour with
    | .everyCommit => true
    | .thresholdCommit => policy.threshold != 0 && version.val % policy.threshold == 0

/-- The longest age that is compared, 9223372036854775.807 s: some 292 million years. -/
def longestAge : Nat := 9223372036854775807 * 1000000

/-- Whether a snapshot taken at one time is too old at another. -/
def isExpired (policy : SnapshotPolicy) (takenAt now : Timestamp) : Bool :=
  match policy.expireAfter with
  | none => false
  | some limit => limit.nanos ≤ longestAge && (limit.nanos : Int) < now.nanosSince takenAt

end SnapshotPolicy

instance : Wire SnapshotBehaviour :=
  ⟨"eventloom_core::snapshot::SnapshotBehaviour",
    Format.union
      (Variants.plain "every_commit" <| Variants.plain "threshold_commit" <| Variants.none)
      (fun
        | .everyCommit => .inl ()
        | .thresholdCommit => .inr (.inl ()))
      (fun
        | .inl _ => .everyCommit
        | .inr (.inl _) => .thresholdCommit)⟩

instance : Wire SnapshotPolicy :=
  ⟨"eventloom_core::snapshot::SnapshotCreationPolicy",
    Format.record
      (Fields.optional "behaviour" (Wire.format (α := SnapshotBehaviour)) .everyCommit <|
        Fields.optional "commit_threshold" Format.uint64 10 <|
        Fields.optional "min_aggregate_version" (Wire.format (α := Version)) .notCreated <|
        Fields.optional "expire_after" Format.duration.option none <| Fields.none)
      (fun p => (p.behaviour, p.threshold, p.minVersion, p.expireAfter, ()))
      (fun (behaviour, threshold, minVersion, expireAfter, _) =>
        ⟨behaviour, threshold, minVersion, expireAfter⟩)⟩

end Chronicle
