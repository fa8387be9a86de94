import Chronicle.Store.Basic
import Chronicle.Table

/-!
# The store in memory

Each tenant has a log, in which events are numbered by position, and for each stream the events
of the log that belong to it, numbered by version. A tenant that was only ever written to in
vain has an empty log.
-/

namespace Chronicle

/-- The events of one tenant. -/
structure TenantLog where
  streams : Table StreamId (List RecordedEvent)
  log : List RecordedEvent

namespace TenantLog

/-- A log without events. -/
def empty : TenantLog := ⟨.empty, []⟩

/-- The events of a stream. -/
def rows (t : TenantLog) (stream : StreamId) : List RecordedEvent :=
  (t.streams.get? stream).getD []

/-- The version of the last of some events of a stream. -/
def lastVersion (rows : List RecordedEvent) : Version :=
  match rows.getLast? with
  | some row => row.version
  | none => .notCreated

/-- The version of a stream. -/
def version (t : TenantLog) (stream : StreamId) : Version := lastVersion (t.rows stream)

/-- The position of the last event of the log. -/
def lastPosition (t : TenantLog) : GlobalPosition :=
  match t.log.getLast? with
  | some row => row.position
  | none => .start

/-- Gives events their versions and positions. -/
def number (stream : StreamId) : Version → GlobalPosition → List SerializedEvent →
    Checked (List RecordedEvent)
  | _, _, [] => .ok []
  | version, position, event :: events => do
    let version ← version.next
    let position ← position.next
    let rows ← number stream version position events
    return ⟨stream, version, position, event⟩ :: rows

/-- Adds numbered events to the log and to their stream. -/
def extend (t : TenantLog) (stream : StreamId) (rows : List RecordedEvent) : TenantLog :=
  ⟨t.streams.set stream (t.rows stream ++ rows), t.log ++ rows⟩

/-- Appends events to a stream that is at the expected version. -/
def append (t : TenantLog) (stream : StreamId) (expected : Version)
    (events : List SerializedEvent) : Checked (Except StoreError Version × TenantLog) :=
  if t.version stream = expected then do
    let rows ← number stream expected t.lastPosition events
    let t := t.extend stream rows
    return (.ok (t.version stream), t)
  else .ok (.error (.conflict stream expected (t.version stream)), t)

/-- Reads a range of a stream. -/
def loadStream (t : TenantLog) (stream : StreamId) (range : VersionRange) : RecordedStream :=
  let rows := (t.rows stream).filter fun row => range.contains row.version
  let version := match rows.getLast? with
    | some row => row.version
    | none => range.after
  ⟨stream, rows, version, t.version stream ≤ version⟩

/-- The events of the log that are read, in their order and without a limit. -/
def matching (t : TenantLog) (options : ReadOptions) : List RecordedEvent :=
  let ordered := match options.direction with
    | .forward => t.log
    | .backward => t.log.reverse
  ordered.filter fun row => options.admits row.position row.stream

/-- Reads a part of the log. -/
def loadLog (t : TenantLog) (options : ReadOptions) : LogSlice :=
  let all := t.matching options
  let page := match options.limit with
    | some limit => all.take limit
    | none => all
  ⟨page, page.getLast?.map RecordedEvent.position, all.length ≤ page.length⟩

end TenantLog

/-- An event store in memory. -/
structure MemoryStore where
  tenants : Table TenantId TenantLog
  available : Bool
  /-- How often the store was set up. -/
  setUps : Nat

namespace MemoryStore

/-- A store without events. -/
def empty : MemoryStore := ⟨.empty, true, 0⟩

/-- The events of a tenant. -/
def tenant (s : MemoryStore) (tenant : TenantId) : TenantLog :=
  (s.tenants.get? tenant).getD .empty

/-- The log of a tenant. -/
def log (s : MemoryStore) (tenant : TenantId) : List RecordedEvent := (s.tenant tenant).log

/-- The version of a stream. -/
def version (s : MemoryStore) (tenant : TenantId) (stream : StreamId) : Version :=
  (s.tenant tenant).version stream

/-- The number of stored events. -/
def size (s : MemoryStore) : Nat := s.tenants.values.foldl (fun total t => total + t.log.length) 0

/-- Whether no event is stored. -/
def isEmpty (s : MemoryStore) : Bool := s.size == 0

/-- Nothing, or the error that the store cannot be reached. -/
def ensureAvailable (s : MemoryStore) : Except StoreError Unit :=
  if s.available then .ok () else .error .unavailable

/-- Makes the store ready for use. -/
def setUp (s : MemoryStore) : Except StoreError MemoryStore := do
  s.ensureAvailable
  return { s with setUps := s.setUps + 1 }

/-- Whether a stream has events. -/
def streamExists (s : MemoryStore) (tenant : TenantId) (stream : StreamId) :
    Except StoreError Bool := do
  s.ensureAvailable
  return !((s.tenant tenant).rows stream).isEmpty

/-- Appends events to a stream that is at the expected version and tells its new version. -/
def append (s : MemoryStore) (tenant : TenantId) (stream : StreamId) (expected : Version)
    (events : List SerializedEvent) : Checked (Except StoreError Version × MemoryStore) :=
  if events.isEmpty then .ok (.error (.emptyBatch stream), s)
  else match s.ensureAvailable with
    | .error error => .ok (.error error, s)
    | .ok () => do
      let (answer, log) ← (s.tenant tenant).append stream expected events
      return (answer, { s with tenants := s.tenants.set tenant log })

/-- Reads a range of a stream. -/
def loadStream (s : MemoryStore) (tenant : TenantId) (stream : StreamId) (range : VersionRange) :
    Except StoreError RecordedStream := do
  s.ensureAvailable
  return (s.tenant tenant).loadStream stream range

/-- Reads a part of a tenant's log. -/
def loadLog (s : MemoryStore) (tenant : TenantId) (options : ReadOptions) :
    Except StoreError LogSlice := do
  if options.limit = some 0 then throw .zeroLimit
  s.ensureAvailable
  return (s.tenant tenant).loadLog options

instance : EventStore MemoryStore where
  setUp := setUp
  append := append
  loadStream := loadStream
  loadLog := loadLog

end MemoryStore

end Chronicle
