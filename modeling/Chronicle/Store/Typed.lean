import Chronicle.AggregateType
import Chronicle.Store.Basic

/-!
# Typed access to a store

Envelopes are appended as a batch: each must be at the version that follows the one before it,
and all are written in bytes before the store is asked. Stored events are read back into
envelopes; the first that cannot be read fails the whole.
-/

namespace Chronicle.EventStore

variable {S : Type} [EventStore S]

/-- The envelopes in the form in which they are stored, each checked against the version that
follows an expected one. `place` counts from 1. -/
def serializeFrom {ι ε : Type} [InstanceId ι] [EventKind ε] [Wire ε] (codec : Codec)
    (tag : TypeTag) (stream : StreamId) (expected : Version) :
    Nat → List (EventEnvelope ι ε) → Checked (Except StoreError (List SerializedEvent))
  | _, [] => .ok (.ok [])
  | place, envelope :: envelopes => do
    let due ← expected.add (UInt64.ofNat place)
    if envelope.version = due then
      match envelope.serialize codec tag with
      | .error error => return .error (.serialization error)
      | .ok event =>
        let rest ← serializeFrom codec tag stream expected (place + 1) envelopes
        return rest.map (event :: ·)
    else return .error (.misplaced place stream envelope.version due)

/-- Appends envelopes to a stream that is at the expected version and tells its new version. -/
def appendEnvelopes {ι ε : Type} [InstanceId ι] [EventKind ε] [Wire ε] (store : S) (codec : Codec)
    (tag : TypeTag) (tenant : TenantId) (stream : StreamId) (expected : Version)
    (envelopes : List (EventEnvelope ι ε)) : Checked (Except StoreError Version × S) :=
  if envelopes.isEmpty then .ok (.error (.emptyBatch stream), store)
  else do
    match ← serializeFrom codec tag stream expected 1 envelopes with
    | .error error => return (.error error, store)
    | .ok events => append store tenant stream expected events

/-- The events of a range of a stream, with their payloads. -/
structure TypedStream (ι ε : Type) where
  stream : StreamId
  envelopes : List (EventEnvelope ι ε)
  version : Version
  reachedEnd : Bool

/-- Reads a range of a stream into envelopes. -/
def loadEnvelopes (ι ε : Type) [InstanceId ι] [EventKind ε] [Wire ε] (store : S) (codec : Codec)
    (tenant : TenantId) (stream : StreamId) (range : VersionRange) :
    Except StoreError (TypedStream ι ε) := do
  let recorded ← loadStream store tenant stream range
  let envelopes ← recorded.rows.mapM fun row =>
    (EventEnvelope.ofRecorded row codec).mapError .translation
  return ⟨recorded.stream, envelopes, recorded.version, recorded.reachedEnd⟩

end Chronicle.EventStore
