import Chronicle.Proofs.Store.Numbers

/-!
# Calls to a store

A `StoreCall` is one thing that a store in memory is asked or told, so that "any sequence of
operations" is a list of calls. A call that stops with a fault leaves the store as it was.

An append has five endings, and `Appends` has one constructor for each of the four that are
answers. All that is said about appends later is said by cases on it.
-/

namespace Chronicle

/-- What a store in memory can be asked or told. -/
inductive StoreCall where
  | setUp
  | setAvailable (available : Bool)
  | append (tenant : TenantId) (stream : StreamId) (expected : Version)
      (events : List SerializedEvent)
  | loadStream (tenant : TenantId) (stream : StreamId) (range : VersionRange)
  | loadLog (tenant : TenantId) (options : ReadOptions)
  | streamExists (tenant : TenantId) (stream : StreamId)
  | version (tenant : TenantId) (stream : StreamId)
  | log (tenant : TenantId)
  | size

/-- What a call is answered. -/
inductive StoreAnswer where
  | done (outcome : Except StoreError Unit)
  | appended (outcome : Except StoreError Version)
  | stream (outcome : Except StoreError RecordedStream)
  | slice (outcome : Except StoreError LogSlice)
  | found (outcome : Except StoreError Bool)
  | version (version : Version)
  | rows (rows : List RecordedEvent)
  | count (count : Nat)

namespace MemoryStore

/-- Makes a call; the answer comes with the store that it leaves behind. -/
def call (s : MemoryStore) : StoreCall → Checked StoreAnswer × MemoryStore
  | .setUp =>
    match s.setUp with
    | .ok s => (.ok (.done (.ok ())), s)
    | .error error => (.ok (.done (.error error)), s)
  | .setAvailable available => (.ok (.done (.ok ())), { s with available := available })
  | .append tenant stream expected events =>
    match s.append tenant stream expected events with
    | .ok (outcome, s) => (.ok (.appended outcome), s)
    | .error fault => (.error fault, s)
  | .loadStream tenant stream range => (.ok (.stream (s.loadStream tenant stream range)), s)
  | .loadLog tenant options => (.ok (.slice (s.loadLog tenant options)), s)
  | .streamExists tenant stream => (.ok (.found (s.streamExists tenant stream)), s)
  | .version tenant stream => (.ok (.version (s.version tenant stream)), s)
  | .log tenant => (.ok (.rows (s.log tenant)), s)
  | .size => (.ok (.count s.size), s)

/-- The store behind a sequence of calls. -/
def afterCalls (s : MemoryStore) (calls : List StoreCall) : MemoryStore :=
  calls.foldl (fun s call => (s.call call).2) s

theorem afterCalls_append (s : MemoryStore) (before after : List StoreCall) :
    s.afterCalls (before ++ after) = (s.afterCalls before).afterCalls after := List.foldl_append

/-- What every call preserves, a sequence of calls preserves. -/
theorem afterCalls_induction {P : MemoryStore → Prop}
    (step : ∀ s call, P s → P (s.call call).2) {s : MemoryStore} (hs : P s)
    (calls : List StoreCall) : P (s.afterCalls calls) := by
  induction calls generalizing s with
  | nil => exact hs
  | cons call calls ih => exact ih (step s call hs)

/-! ## Looking into a store -/

/-- A store in which one tenant's events are replaced. -/
theorem tenant_set (s : MemoryStore) (tenant other : TenantId) (t : TenantLog) :
    ({ s with tenants := s.tenants.set tenant t } : MemoryStore).tenant other =
      if other = tenant then t else s.tenant other := by
  simp only [MemoryStore.tenant, Table.get?_set]
  split <;> rfl

/-- Two stores that no read can tell apart, though one may list a tenant without events. -/
structure Alike (s s' : MemoryStore) : Prop where
  tenant : ∀ tenant, s'.tenant tenant = s.tenant tenant
  available : s'.available = s.available
  setUps : s'.setUps = s.setUps

theorem Alike.refl (s : MemoryStore) : s.Alike s := ⟨fun _ => rfl, rfl, rfl⟩

theorem Alike.trans {s s' s'' : MemoryStore} (h : s.Alike s') (h' : s'.Alike s'') : s.Alike s'' :=
  ⟨fun tenant => (h'.tenant tenant).trans (h.tenant tenant), h'.available.trans h.available,
    h'.setUps.trans h.setUps⟩

theorem alike_set_tenant (s : MemoryStore) (tenant : TenantId) :
    s.Alike { s with tenants := s.tenants.set tenant (s.tenant tenant) } := by
  refine ⟨fun other => ?_, rfl, rfl⟩
  rw [tenant_set]
  split
  · next h => rw [h]
  · rfl

theorem Alike.set_tenant {s s' : MemoryStore} (h : s.Alike s') (tenant : TenantId) (t : TenantLog) :
    ({ s with tenants := s.tenants.set tenant t } : MemoryStore).Alike
      { s' with tenants := s'.tenants.set tenant t } where
  tenant other := by rw [tenant_set, tenant_set, h.tenant]
  available := h.available
  setUps := h.setUps

/-- Stores that no read can tell apart stay so when the same is called. -/
theorem Alike.call {s s' : MemoryStore} (h : s.Alike s') (call : StoreCall) :
    (s.call call).2.Alike (s'.call call).2 := by
  have hensure : s'.ensureAvailable = s.ensureAvailable := by
    rw [ensureAvailable, ensureAvailable, h.available]
  cases call with
  | append tenant stream expected events =>
    simp only [MemoryStore.call, MemoryStore.append, hensure, h.tenant]
    cases events.isEmpty with
    | true => exact h
    | false =>
      cases s.ensureAvailable with
      | error error => exact h
      | ok =>
        cases (s.tenant tenant).append stream expected events with
        | error fault => exact h
        | ok answer => exact h.set_tenant tenant answer.2
  | setUp =>
    simp only [MemoryStore.call, setUp, hensure]
    cases s.ensureAvailable with
    | error error => exact h
    | ok => exact ⟨h.tenant, h.available, congrArg (· + 1) h.setUps⟩
  | setAvailable available => exact ⟨h.tenant, rfl, h.setUps⟩
  | _ => exact h

theorem Alike.afterCalls {s s' : MemoryStore} (h : s.Alike s') (calls : List StoreCall) :
    (s.afterCalls calls).Alike (s'.afterCalls calls) := by
  induction calls generalizing s s' with
  | nil => exact h
  | cons call calls ih => exact ih (h.call call)

end MemoryStore

namespace TenantLog

@[simp] theorem log_extend (t : TenantLog) (stream : StreamId) (rows : List RecordedEvent) :
    (t.extend stream rows).log = t.log ++ rows := rfl

theorem rows_extend (t : TenantLog) (stream other : StreamId) (rows : List RecordedEvent) :
    (t.extend stream rows).rows other =
      if other = stream then t.rows stream ++ rows else t.rows other := by
  simp only [extend, TenantLog.rows, Table.get?_set]
  split <;> rfl

end TenantLog

/-! ## What is asked of a store that cannot be reached -/

namespace MemoryStore

theorem ensureAvailable_eq_ok_iff {s : MemoryStore} :
    s.ensureAvailable = .ok () ↔ s.available = true := by
  cases h : s.available <;> simp [ensureAvailable, h]

theorem loadStream_eq_ok_iff {s : MemoryStore} {tenant : TenantId} {stream : StreamId}
    {range : VersionRange} {recorded : RecordedStream} :
    s.loadStream tenant stream range = .ok recorded ↔
      s.available = true ∧ recorded = (s.tenant tenant).loadStream stream range := by
  constructor
  · intro h
    obtain ⟨_, ha, h⟩ := bind_eq_ok.mp h
    exact ⟨ensureAvailable_eq_ok_iff.mp ha, (Except.ok.inj h).symm⟩
  · rintro ⟨ha, rfl⟩
    exact bind_eq_ok.mpr ⟨(), ensureAvailable_eq_ok_iff.mpr ha, rfl⟩

end MemoryStore

/-! ## How an append ends -/

namespace MemoryStore

/-- How an append of some events to a stream ends: with which answer and which store. -/
inductive Appends (s : MemoryStore) (tenant : TenantId) (stream : StreamId) (expected : Version)
    (events : List SerializedEvent) : Except StoreError Version → MemoryStore → Prop
  | emptyBatch (h : events = []) :
      Appends s tenant stream expected events (.error (.emptyBatch stream)) s
  | unavailable (hne : events ≠ []) (h : s.available = false) :
      Appends s tenant stream expected events (.error .unavailable) s
  | conflict (hne : events ≠ []) (ha : s.available = true)
      (h : s.version tenant stream ≠ expected) :
      Appends s tenant stream expected events
        (.error (.conflict stream expected (s.version tenant stream)))
        { s with tenants := s.tenants.set tenant (s.tenant tenant) }
  | stored (rows : List RecordedEvent) (hne : events ≠ []) (ha : s.available = true)
      (h : s.version tenant stream = expected)
      (hrows : TenantLog.number stream expected (s.tenant tenant).lastPosition events = .ok rows) :
      Appends s tenant stream expected events
        (.ok (TenantLog.lastVersion ((s.tenant tenant).rows stream ++ rows)))
        { s with tenants := s.tenants.set tenant ((s.tenant tenant).extend stream rows) }

theorem append_eq_ok {s s' : MemoryStore} {tenant : TenantId} {stream : StreamId}
    {expected : Version} {events : List SerializedEvent} {outcome : Except StoreError Version}
    (h : s.append tenant stream expected events = .ok (outcome, s')) :
    s.Appends tenant stream expected events outcome s' := by
  unfold MemoryStore.append at h
  split at h
  · next hempty =>
    obtain ⟨rfl, rfl⟩ := Prod.mk.inj (Except.ok.inj h)
    exact .emptyBatch (List.isEmpty_iff.mp hempty)
  next hempty =>
  have hne : events ≠ [] := fun hnil => hempty (List.isEmpty_iff.mpr hnil)
  cases ha : s.available with
  | false =>
    have hens : s.ensureAvailable = .error .unavailable := by simp [ensureAvailable, ha]
    rw [hens] at h
    obtain ⟨rfl, rfl⟩ := Prod.mk.inj (Except.ok.inj h)
    exact .unavailable hne ha
  | true =>
    rw [ensureAvailable_eq_ok_iff.mpr ha] at h
    obtain ⟨⟨answer, t⟩, hlog, h⟩ := bind_eq_ok.mp h
    obtain ⟨rfl, rfl⟩ := Prod.mk.inj (Except.ok.inj h)
    unfold TenantLog.append at hlog
    split at hlog
    · next hversion =>
      obtain ⟨rows, hrows, hlog⟩ := bind_eq_ok.mp hlog
      obtain ⟨rfl, rfl⟩ := Prod.mk.inj (Except.ok.inj hlog)
      have hv : ((s.tenant tenant).extend stream rows).version stream =
          TenantLog.lastVersion ((s.tenant tenant).rows stream ++ rows) := by
        rw [TenantLog.version, TenantLog.rows_extend, if_pos rfl]
      rw [hv]
      exact .stored rows hne ha hversion hrows
    · next hversion =>
      obtain ⟨rfl, rfl⟩ := Prod.mk.inj (Except.ok.inj hlog)
      exact .conflict hne ha hversion

/-- Events that are given to a store that can be reached are appended to their tenant's log. -/
theorem append_of_available {s : MemoryStore} (tenant : TenantId) (stream : StreamId)
    (expected : Version) {events : List SerializedEvent} (hne : events ≠ [])
    (ha : s.available = true) :
    s.append tenant stream expected events =
      ((s.tenant tenant).append stream expected events).map fun (answer, log) =>
        (answer, { s with tenants := s.tenants.set tenant log }) := by
  have hempty : events.isEmpty = false := by cases events <;> simp_all
  rw [MemoryStore.append, hempty, if_neg Bool.false_ne_true, ensureAvailable_eq_ok_iff.mpr ha]
  show ((s.tenant tenant).append stream expected events >>= _) = _
  cases (s.tenant tenant).append stream expected events <;> rfl

/-- Every way to end is how such an append ends. -/
theorem Appends.append_eq {s s' : MemoryStore} {tenant : TenantId} {stream : StreamId}
    {expected : Version} {events : List SerializedEvent} {outcome : Except StoreError Version}
    (h : s.Appends tenant stream expected events outcome s') :
    s.append tenant stream expected events = .ok (outcome, s') := by
  cases h with
  | emptyBatch hnil =>
    subst hnil
    rfl
  | unavailable hne hunavailable =>
    have hempty : events.isEmpty = false := by cases events <;> simp_all
    simp [MemoryStore.append, hempty, ensureAvailable, hunavailable]
  | conflict hne ha hversion =>
    have hversion' : (s.tenant tenant).version stream ≠ expected := hversion
    rw [append_of_available tenant stream expected hne ha, TenantLog.append, if_neg hversion']
    rfl
  | stored rows hne ha hversion hrows =>
    have hversion' : (s.tenant tenant).version stream = expected := hversion
    have hlast : ((s.tenant tenant).extend stream rows).version stream =
        TenantLog.lastVersion ((s.tenant tenant).rows stream ++ rows) := by
      rw [TenantLog.version, TenantLog.rows_extend, if_pos rfl]
    rw [append_of_available tenant stream expected hne ha, TenantLog.append, if_pos hversion',
      hrows, ← hlast]
    rfl

/-- An append that answers with an error changes nothing that can be read. -/
theorem Appends.alike_of_error {s s' : MemoryStore} {tenant : TenantId} {stream : StreamId}
    {expected : Version} {events : List SerializedEvent} {error : StoreError}
    (h : s.Appends tenant stream expected events (.error error) s') : s.Alike s' := by
  cases h with
  | emptyBatch | unavailable => exact .refl s
  | conflict => exact s.alike_set_tenant tenant

/-- An append to one stream leaves the rows of every other as they are. -/
theorem Appends.rows_of_ne {s s' : MemoryStore} {tenant other : TenantId}
    {stream otherStream : StreamId} {expected : Version} {events : List SerializedEvent}
    {outcome : Except StoreError Version}
    (h : s.Appends tenant stream expected events outcome s')
    (hne : (tenant, stream) ≠ (other, otherStream)) :
    (s'.tenant other).rows otherStream = (s.tenant other).rows otherStream := by
  cases h with
  | emptyBatch | unavailable => rfl
  | conflict => rw [(s.alike_set_tenant tenant).tenant]
  | stored rows =>
    rw [tenant_set]
    split
    · next htenant =>
      subst htenant
      rw [TenantLog.rows_extend, if_neg fun hstream => hne (by rw [hstream])]
    · rfl

theorem Appends.available_eq {s s' : MemoryStore} {tenant : TenantId} {stream : StreamId}
    {expected : Version} {events : List SerializedEvent} {outcome : Except StoreError Version}
    (h : s.Appends tenant stream expected events outcome s') : s'.available = s.available := by
  cases h <;> rfl

/-- An append that succeeds found its stream at the expected version, and added to it. -/
theorem Appends.expected_eq {s s' : MemoryStore} {tenant : TenantId} {stream : StreamId}
    {expected version : Version} {events : List SerializedEvent}
    (h : s.Appends tenant stream expected events (.ok version) s') :
    s.version tenant stream = expected ∧
      ((s.tenant tenant).rows stream).length < ((s'.tenant tenant).rows stream).length := by
  cases h with
  | stored rows hne _ hexpected hrows =>
    refine ⟨hexpected, ?_⟩
    have hlength := (TenantLog.number_eq_ok hrows).length_eq
    have hpos := List.length_pos_iff.mpr hne
    rw [tenant_set, if_pos rfl, TenantLog.rows_extend, if_pos rfl, List.length_append]
    omega

theorem Appends.available_of_ok {s s' : MemoryStore} {tenant : TenantId} {stream : StreamId}
    {expected version : Version} {events : List SerializedEvent}
    (h : s.Appends tenant stream expected events (.ok version) s') : s.available = true := by
  cases h with
  | stored rows hne ha => exact ha

/-- An append that succeeds tells the version that the stream has then. -/
theorem Appends.version_eq {s s' : MemoryStore} {tenant : TenantId} {stream : StreamId}
    {expected version : Version} {events : List SerializedEvent}
    (h : s.Appends tenant stream expected events (.ok version) s') :
    version = s'.version tenant stream := by
  cases h with
  | stored rows =>
    rw [MemoryStore.version, tenant_set, if_pos rfl, TenantLog.version, TenantLog.rows_extend,
      if_pos rfl]

/-- That version counts the events that were added to the expected one. -/
theorem Appends.toNat_version {s s' : MemoryStore} {tenant : TenantId} {stream : StreamId}
    {expected version : Version} {events : List SerializedEvent}
    (h : s.Appends tenant stream expected events (.ok version) s') :
    version.toNat = expected.toNat + events.length := by
  cases h with
  | stored rows hne _ _ hrows => exact (TenantLog.number_eq_ok hrows).toNat_lastVersion hne _

end MemoryStore

end Chronicle
