import Chronicle.AggregateType
import Chronicle.Snapshot.Policy
import Chronicle.Table

/-!
# The vault of snapshots

A vault keeps the last snapshot of each stream of each tenant. A snapshot only saves work: one
that is missing, too old, of another type or unreadable counts as absent, and one that cannot be
saved is left out.
-/

namespace Chronicle

/-- A snapshot as it is kept. -/
structure StoredSnapshot where
  stream : StreamId
  version : Version
  tag : TypeTag
  data : Bytes
  takenAt : Timestamp
  deriving DecidableEq

instance : Wire StoredSnapshot :=
  ⟨"eventloom_core::snapshot::StoredSnapshot",
    Format.record
      (Fields.required "stream_id" (Wire.format (α := StreamId)) <|
        Fields.required "version" (Wire.format (α := Version)) <|
        Fields.required "state_type" (Wire.format (α := TypeTag)) <|
        Fields.required "data" Format.uint8.list <|
        Fields.required "taken_at" Format.timestamp <| Fields.none)
      (fun s => (s.stream, s.version, s.tag, s.data, s.takenAt, ()))
      (fun (stream, version, tag, data, takenAt, _) => ⟨stream, version, tag, data, takenAt⟩)⟩

/-- Why the vault refuses, or a snapshot cannot be used. -/
inductive SnapshotError where
  | backend (reason : String)
  | codec (error : CodecError)
  | typeMismatch (stream : StreamId) (expected found : TypeTag)
  deriving DecidableEq, Repr

/-- The text reported for an error. -/
def SnapshotError.message : SnapshotError → String
  | .backend reason => "Snapshot backend error: " ++ reason
  | .codec error => "Snapshot codec error: " ++ error.message
  | .typeMismatch stream expected found =>
    "Snapshot of " ++ stream.text ++ " holds " ++ found.toText ++ ", expected " ++ expected.toText

/-- The last snapshot of each stream of each tenant. -/
structure SnapshotVault where
  records : Table (TenantId × StreamId) StoredSnapshot
  refusesLoads : Bool
  refusesSaves : Bool
  /-- How many snapshots were saved. -/
  saves : Nat

/-- What a look-up in the vault finds. -/
inductive SnapshotReading (σ : Type) where
  | found (state : σ) (version : Version)
  | absent
  /-- There is a snapshot, or may be one, that cannot be read. -/
  | unusable

/-- What becomes of a snapshot that is to be saved. -/
inductive SaveOutcome where
  | saved
  | skipped
  | noState
  | failed
  deriving DecidableEq, Repr

namespace SnapshotVault

/-- A vault without snapshots. -/
def empty : SnapshotVault := ⟨.empty, false, false, 0⟩

/-- The snapshot that is kept of a stream. -/
def get? (v : SnapshotVault) (tenant : TenantId) (stream : StreamId) : Option StoredSnapshot :=
  v.records.get? (tenant, stream)

/-- Keeps a snapshot, whatever the vault refuses. -/
def plant (v : SnapshotVault) (tenant : TenantId) (snapshot : StoredSnapshot) : SnapshotVault :=
  { v with records := v.records.set (tenant, snapshot.stream) snapshot }

/-- The snapshot that is kept of a stream, unless the vault refuses. -/
def load (v : SnapshotVault) (tenant : TenantId) (stream : StreamId) :
    Except SnapshotError (Option StoredSnapshot) :=
  if v.refusesLoads then .error (.backend "snapshot load refused") else .ok (v.get? tenant stream)

/-- Keeps a snapshot, unless the vault refuses. -/
def save (v : SnapshotVault) (tenant : TenantId) (snapshot : StoredSnapshot) :
    Except SnapshotError SnapshotVault :=
  if v.refusesSaves then .error (.backend "snapshot save refused")
  else .ok { v.plant tenant snapshot with saves := v.saves + 1 }

/-! ## Snapshots of states -/

/-- Looks the state of a stream up. -/
def read (A : AggregateType) (policy : SnapshotPolicy) (codec : Codec) (now : Timestamp)
    (v : SnapshotVault) (tenant : TenantId) (stream : StreamId) : SnapshotReading A.State :=
  match v.load tenant stream with
  | .error _ => .unusable
  | .ok none => .absent
  | .ok (some stored) =>
    if stored.tag ≠ A.tag then .unusable
    else if policy.isExpired stored.takenAt now then .absent
    else match codec.decode stored.data with
      | .ok state => .found state stored.version
      | .error _ => .unusable

/-- Saves a state of a stream, if there is one and the policy wants it. -/
def write (A : AggregateType) (policy : SnapshotPolicy) (codec : Codec) (now : Timestamp)
    (v : SnapshotVault) (tenant : TenantId) (stream : StreamId) (version : Version)
    (state : Option A.State) : SaveOutcome × SnapshotVault :=
  match state with
  | none => (.noState, v)
  | some state =>
    if policy.persistsAt version then
      match codec.encode state with
      | .error _ => (.failed, v)
      | .ok data =>
        match v.save tenant ⟨stream, version, A.tag, data, now⟩ with
        | .error _ => (.failed, v)
        | .ok saved => (.saved, saved)
    else (.skipped, v)

end SnapshotVault

end Chronicle
