import Chronicle.Aggregate
import Chronicle.Engine.World
import Chronicle.Store.Typed

/-!
# Bringing instances up to date

An instance starts from the snapshot of its stream, if there is one that can be used, and goes
through the events behind it. The snapshot is read first and the stream after it, so what others
do between the two is seen.
-/

namespace Chronicle.Engine

variable {S κ π : Type} [EventStore S]

/-- An instance as its snapshot leaves it. A type without a name or without transitions has no
instances. -/
def restoreSnapshot (settings : Settings) (A : AggregateType) (tenant : TenantId) (id : A.Id)
    (useSnapshot : Bool) (w : World S κ π) : Except EngineError (Aggregate A) × World S κ π :=
  match A.boundMutator with
  | .error error => (.error (.aggregate error), w)
  | .ok mutator =>
    let blank := Aggregate.hydrating tenant id mutator
    if useSnapshot then
      match w.vault.read A settings.snapshotPolicy settings.codec w.clock tenant (A.stream id) with
      | .found state version => ((blank.restore state version).mapError .aggregate, w)
      | .absent => (.ok blank, w)
      | .unusable => (.ok blank, w.countSnapshotFailure)
    else (.ok blank, w)

/-- Takes an instance through the events behind its version and makes it ready. -/
def replayStream (settings : Settings) {A : AggregateType} (a : Aggregate A) (store : S) :
    Checked (Except EngineError (Aggregate A)) :=
  match EventStore.loadEnvelopes A.Id A.Event store settings.codec a.tenant a.stream
      (.above a.current) with
  | .error error => .ok (.error (.store error))
  | .ok typed => do
    match ← a.replayAll typed.envelopes with
    | .error error => return .error (.aggregate error)
    | .ok a => return .ok a.markReady

/-- An instance that is up to date. -/
def load (settings : Settings) (A : AggregateType) (tenant : TenantId) (id : A.Id)
    (useSnapshot : Bool) (w : World S κ π) :
    Checked (Except EngineError (Aggregate A) × World S κ π) :=
  match restoreSnapshot settings A tenant id useSnapshot w with
  | (.error error, w) => .ok (.error error, w)
  | (.ok a, w) => do
    return (← replayStream settings a w.store, w)

/-- The state of an instance, read through a started engine. -/
def getState (settings : Settings) (A : AggregateType) (tenant : TenantId) (id : A.Id)
    (w : World S κ π) : Checked (Except EngineError A.State × World S κ π) :=
  if w.started then do
    let (loaded, w) ← load settings A tenant id settings.usesSnapshots w
    return (loaded.map Aggregate.state, w)
  else .ok (.error .notStarted, w)

/-- Sets the store up and starts the engine. -/
def start (w : World S κ π) : Except EngineError Unit × World S κ π :=
  match EventStore.setUp w.store with
  | .error error => (.error (.store error), w)
  | .ok store => (.ok (), { w with store := store, started := true })

end Chronicle.Engine
