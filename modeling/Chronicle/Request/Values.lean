import Chronicle.Engine.Settings
import Chronicle.Request.Basic
import Chronicle.Store.Basic

/-!
# Values in requests

How requests spell spans and points of time, tenants and streams, ranges, policies and settings.
All of it may be left out: the defaults are those of the values themselves.
-/

namespace Chronicle.Request

/-- The duration under a name. -/
def duration? (r : Request) (name : String) : Option Duration :=
  (r.member? name).map fun d =>
    (Duration.ofParts? (wordOr d "secs" 0) (UInt32.ofNat (natOr d "nanos" 0))).getD .zero

/-- The point of time under a name, or the start of the year 2025. -/
def time (r : Request) (name : String) : Timestamp :=
  match r.member? name with
  | some t => ⟨(int? t "secs").getD 0, natOr t "nanos" 0⟩
  | none => .year2025

/-- The codec asked for. -/
def codec (r : Request) : Codec := if r.text? "codec" = some "json" then .json else .binary

/-- The tenant asked for. -/
def tenant (r : Request) : TenantId := ⟨r.textOr "tenant" ""⟩

/-- The stream asked for. -/
def stream (r : Request) : StreamId := ⟨r.textOr "stream" "seq-1"⟩

/-- The identity under a name, or the one of a number. -/
def uuid (r : Request) (name : String) (default : Nat) : Uuid := .ofNat (r.natOr name default)

/-- The type tag under a name, or a default. -/
def tag (r : Request) (name : String) (default : Nat) : TypeTag :=
  ⟨UInt32.ofNat (r.natOr name default)⟩

/-- The version under a name, or a default. -/
def version (r : Request) (name : String) (default : UInt64) : Version :=
  ⟨r.wordOr name default⟩

/-- The range of versions asked for. -/
def range (r : Request) : VersionRange :=
  match r.word? "after", r.word? "to" with
  | none, none => .all
  | after, some last => ⟨⟨after.getD 0⟩, .version ⟨last⟩⟩
  | some after, none => .above ⟨after⟩

/-- The options of a read of the log. -/
def readOptions (r : Request) : ReadOptions where
  direction := if r.isTrue "backward" then .backward else .forward
  first := (r.word? "from").map GlobalPosition.mk
  firstInclusive := r.isTrue "from_inclusive"
  last := (r.word? "to").map GlobalPosition.mk
  lastInclusive := r.isTrue "to_inclusive"
  streamStart := r.text? "prefix"
  limit := r.nat? "max"

/-- The snapshot policy that a request is. -/
def policy (r : Request) : SnapshotPolicy :=
  let base :=
    if r.text? "kind" = some "threshold" then .atMultiplesOf (r.wordOr "threshold" 0)
    else SnapshotPolicy.everyCommit
  { base with minVersion := r.version "min" 0, expireAfter := r.duration? "expire" }

/-- The retry policy that a request is. -/
def retry (r : Request) : RetryPolicy Float :=
  let base := RetryPolicy.standard
  { maxRetries := r.wordOr "max_retries" base.maxRetries
    initialDelay := (r.duration? "initial").getD base.initialDelay
    maxDelay := (r.duration? "max").getD base.maxDelay
    multiplier := ((r.member? "multiplier").bind asFloat?).getD base.multiplier
    jitter := ((r.member? "jitter").bind asFloat?).getD base.jitter }

/-- Some settings with the parts that a request gives in place of theirs. -/
def settings (r : Request) (base : Settings) : Settings :=
  { snapshotPolicy := ((r.member? "policy").map policy).getD base.snapshotPolicy
    codec := if (r.member? "codec").isSome then r.codec else base.codec
    rebuildBatch := r.wordOr "batch" base.rebuildBatch
    publicationTimeout := (r.duration? "timeout").getD base.publicationTimeout
    usesSnapshots := (r.bool? "snapshots").getD base.usesSnapshots
    retryPolicy := ((r.member? "retry").map retry).getD base.retryPolicy }

end Chronicle.Request
