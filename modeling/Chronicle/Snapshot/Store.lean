import Chronicle.Snapshot.Vault

/-!
# The store of snapshots

A store keeps snapshots in a vault, under a policy and in a codec, and dates and judges them by a
clock. It never fails: what cannot be used is absent, and what cannot be saved is left out.
-/

namespace Chronicle

/-- A snapshot of a stream, or its absence. -/
structure Snapshot (σ : Type) where
  stream : StreamId
  state : Option σ
  version : Version

namespace Snapshot

variable {σ : Type}

/-- There is no snapshot of a stream. -/
def absent (stream : StreamId) : Snapshot σ := ⟨stream, none, .notCreated⟩

/-- A snapshot of a state at a version. -/
def of (stream : StreamId) (state : σ) (version : Version) : Snapshot σ :=
  ⟨stream, some state, version⟩

/-- Whether there is a snapshot. It may be one at version zero. -/
def isPresent (s : Snapshot σ) : Bool := s.state.isSome

end Snapshot

/-- A vault of snapshots with the policy, the codec and the clock by which it is used. -/
structure SnapshotStore where
  policy : SnapshotPolicy
  codec : Codec
  vault : SnapshotVault
  clock : Timestamp

namespace SnapshotStore

/-- A store without snapshots. -/
def new (policy : SnapshotPolicy) (codec : Codec) (now : Timestamp) : SnapshotStore :=
  ⟨policy, codec, .empty, now⟩

/-- The snapshot of a stream, absent where there is none that can be used. -/
def load (A : AggregateType) (s : SnapshotStore) (tenant : TenantId) (stream : StreamId) :
    Snapshot A.State :=
  match s.vault.read A s.policy s.codec s.clock tenant stream with
  | .found state version => .of stream state version
  | .absent => .absent stream
  | .unusable => .absent stream

/-- Saves a snapshot, if there is one and the policy wants it. -/
def save (A : AggregateType) (s : SnapshotStore) (tenant : TenantId)
    (snapshot : Snapshot A.State) : SaveOutcome × SnapshotStore :=
  let (outcome, vault) := s.vault.write A s.policy s.codec s.clock tenant snapshot.stream
    snapshot.version snapshot.state
  (outcome, { s with vault := vault })

end SnapshotStore

end Chronicle
