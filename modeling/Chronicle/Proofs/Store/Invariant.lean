import Chronicle.Proofs.Store.Calls

/-!
# What holds of a store at every time

A store in memory keeps each row twice: in the log of its tenant and among the rows of its stream.
The two never disagree. Positions in a log and versions in a stream have no gaps, so a version is
the number of rows behind it, and a log only ever grows at its end.

The invariant is `TenantLog.Dense`, one statement about all that a tenant has. `call_dense` and
`call_grows` say what one call preserves; the main result, `store_is_dense_and_grows`, follows by
induction over the calls.
-/

namespace Chronicle

/-! ## Dense logs -/

namespace TenantLog

/-- A tenant's events, numbered without gaps, and each stream with just its part of the log. -/
structure Dense (t : TenantLog) : Prop where
  positions : t.log.map (fun row => row.position.toNat) = List.range' 1 t.log.length
  versions : ∀ stream, (t.rows stream).map (fun row => row.version.toNat) =
    List.range' 1 (t.rows stream).length
  parts : ∀ stream, t.rows stream = t.log.filter fun row => row.stream = stream

theorem dense_empty : TenantLog.empty.Dense := ⟨rfl, fun _ => rfl, fun _ => rfl⟩

/-- The last of some rows that are numbered from 1 has their number. -/
theorem getLast?_of_dense {f : RecordedEvent → Nat} {rows : List RecordedEvent}
    {last : RecordedEvent} (h : rows.map f = List.range' 1 rows.length)
    (hlast : rows.getLast? = some last) : f last = rows.length := by
  have hmap : (rows.map f).getLast? = some (f last) := by rw [List.getLast?_map, hlast]; rfl
  rw [h, List.getLast?_range'] at hmap
  split at hmap
  · cases hmap
  · have := Option.some.inj hmap
    omega

/-- A stream's version is the number of its rows. -/
theorem Dense.toNat_version {t : TenantLog} (h : t.Dense) (stream : StreamId) :
    (t.version stream).toNat = (t.rows stream).length := by
  unfold TenantLog.version lastVersion
  split
  · next last hlast => exact getLast?_of_dense (h.versions stream) hlast
  · next hnone => rw [List.getLast?_eq_none_iff.mp hnone]; rfl

/-- The position a log has reached is the number of its rows. -/
theorem Dense.toNat_lastPosition {t : TenantLog} (h : t.Dense) :
    t.lastPosition.toNat = t.log.length := by
  unfold TenantLog.lastPosition
  split
  · next last hlast => exact getLast?_of_dense h.positions hlast
  · next hnone => rw [List.getLast?_eq_none_iff.mp hnone]; rfl

/-- Two runs of numbers, one behind the other. -/
theorem range'_append_lengths {n m k : Nat} (h : m = n + 1) :
    List.range' 1 n ++ List.range' m k = List.range' 1 (n + k) := by
  subst h
  have := List.range'_append_1 (s := 1) (m := n) (n := k)
  rwa [Nat.add_comm 1 n] at this

/-- Rows that are numbered from where a dense log ends extend it to a dense log. -/
theorem Dense.extend {t : TenantLog} (h : t.Dense) {stream : StreamId}
    {events : List SerializedEvent} {rows : List RecordedEvent}
    (hrows : Numbered stream (t.version stream) t.lastPosition events rows) :
    (t.extend stream rows).Dense where
  positions := by
    rw [log_extend, List.map_append, List.length_append, h.positions, hrows.positions,
      hrows.length_eq]
    exact range'_append_lengths (by rw [h.toNat_lastPosition])
  versions other := by
    rw [rows_extend]
    split
    · rw [List.map_append, List.length_append, h.versions stream, hrows.versions,
        hrows.length_eq]
      exact range'_append_lengths (by rw [h.toNat_version])
    · exact h.versions other
  parts other := by
    rw [rows_extend, log_extend, List.filter_append]
    split
    · next heq =>
      subst heq
      have hall : rows.filter (fun row => row.stream = other) = rows :=
        List.filter_eq_self.mpr fun row hrow => decide_eq_true (hrows.own row hrow)
      rw [hall, h.parts other]
    · next hne =>
      have hnil : rows.filter (fun row => row.stream = other) = [] := by
        refine List.filter_eq_nil_iff.mpr fun row hrow => ?_
        rw [hrows.own row hrow]
        exact fun heq => hne (of_decide_eq_true heq).symm
      rw [hnil, List.append_nil]
      exact h.parts other

end TenantLog

/-! ## One call -/

namespace MemoryStore

/-- Every tenant's events are dense. -/
def Dense (s : MemoryStore) : Prop := ∀ tenant, (s.tenant tenant).Dense

theorem dense_empty : MemoryStore.empty.Dense := fun _ => TenantLog.dense_empty

/-- Each tenant's log in one store is the beginning of its log in the other, and so is what each
stream has. -/
structure Grows (s s' : MemoryStore) : Prop where
  log : ∀ tenant, s.log tenant <+: s'.log tenant
  rows : ∀ tenant stream, (s.tenant tenant).rows stream <+: (s'.tenant tenant).rows stream

theorem Grows.refl (s : MemoryStore) : s.Grows s :=
  ⟨fun _ => List.prefix_rfl, fun _ _ => List.prefix_rfl⟩

theorem Grows.trans {s s' s'' : MemoryStore} (h : s.Grows s') (h' : s'.Grows s'') : s.Grows s'' :=
  ⟨fun tenant => (h.log tenant).trans (h'.log tenant),
    fun tenant stream => (h.rows tenant stream).trans (h'.rows tenant stream)⟩

theorem Grows.of_tenant {s s' : MemoryStore} (h : ∀ tenant, s'.tenant tenant = s.tenant tenant) :
    s.Grows s' where
  log tenant := by
    have hlog : s'.log tenant = s.log tenant := congrArg TenantLog.log (h tenant)
    exact hlog.symm ▸ List.prefix_rfl
  rows tenant stream := by
    have hrows : (s'.tenant tenant).rows stream = (s.tenant tenant).rows stream := by rw [h tenant]
    exact hrows.symm ▸ List.prefix_rfl

/-- A stream of a store that grows goes on to higher versions only. -/
theorem Grows.version_le {s s' : MemoryStore} (h : s.Grows s') (hs : s.Dense) (hs' : s'.Dense)
    (tenant : TenantId) (stream : StreamId) :
    (s.version tenant stream).toNat ≤ (s'.version tenant stream).toNat := by
  rw [MemoryStore.version, MemoryStore.version, (hs tenant).toNat_version,
    (hs' tenant).toNat_version]
  exact (h.rows tenant stream).length_le

theorem Dense.of_tenant {s s' : MemoryStore} (h : s.Dense)
    (heq : ∀ tenant, s'.tenant tenant = s.tenant tenant) : s'.Dense := fun tenant => by
  rw [heq tenant]; exact h tenant

theorem Appends.dense {s s' : MemoryStore} {tenant : TenantId} {stream : StreamId}
    {expected : Version} {events : List SerializedEvent} {outcome : Except StoreError Version}
    (hs : s.Dense) (h : s.Appends tenant stream expected events outcome s') : s'.Dense := by
  cases h with
  | emptyBatch | unavailable => exact hs
  | conflict => exact hs.of_tenant (s.alike_set_tenant tenant).tenant
  | stored rows _ _ hversion hrows =>
    subst hversion
    intro other
    rw [tenant_set]
    split
    · exact (hs tenant).extend (TenantLog.number_eq_ok hrows)
    · exact hs other

theorem Appends.grows {s s' : MemoryStore} {tenant : TenantId} {stream : StreamId}
    {expected : Version} {events : List SerializedEvent} {outcome : Except StoreError Version}
    (h : s.Appends tenant stream expected events outcome s') : s.Grows s' := by
  cases h with
  | emptyBatch | unavailable => exact .refl s
  | conflict => exact .of_tenant (s.alike_set_tenant tenant).tenant
  | stored rows =>
    constructor
    · intro other
      simp only [MemoryStore.log, tenant_set]
      split
      · next heq => subst heq; exact List.prefix_append _ _
      · exact List.prefix_rfl
    · intro other stream'
      rw [tenant_set]
      split
      · next heq =>
        subst heq
        rw [TenantLog.rows_extend]
        split
        · next heq => subst heq; exact List.prefix_append _ _
        · exact List.prefix_rfl
      · exact List.prefix_rfl

/-- A call either leaves every tenant's events as they are or is an append that ends with an
answer. -/
theorem call_cases (s : MemoryStore) (call : StoreCall) :
    (∀ tenant, (s.call call).2.tenant tenant = s.tenant tenant) ∨
      ∃ tenant stream expected events outcome, call = .append tenant stream expected events ∧
        s.Appends tenant stream expected events outcome (s.call call).2 := by
  cases call with
  | append tenant stream expected events =>
    cases happend : s.append tenant stream expected events with
    | error fault => simp only [MemoryStore.call, happend]; exact Or.inl fun _ => trivial
    | ok answer =>
      simp only [MemoryStore.call, happend]
      exact Or.inr ⟨tenant, stream, expected, events, answer.1, rfl, append_eq_ok happend⟩
  | setUp =>
    refine Or.inl fun tenant => ?_
    cases ha : s.available with
    | false =>
      simp only [MemoryStore.call, setUp, ensureAvailable, ha]
      rfl
    | true =>
      simp only [MemoryStore.call, setUp, ensureAvailable, ha]
      rfl
  | _ => exact Or.inl fun _ => rfl

/-- A stream has no more rows than its tenant's log. -/
theorem Dense.toNat_version_le {s : MemoryStore} (h : s.Dense) (tenant : TenantId)
    (stream : StreamId) : (s.version tenant stream).toNat ≤ (s.log tenant).length := by
  rw [MemoryStore.version, (h tenant).toNat_version, (h tenant).parts]
  exact List.length_filter_le ..

/-- A dense store has room for events up to 64 bits, and takes them up to there. -/
theorem append_eq_error {s : MemoryStore} (hs : s.Dense) {tenant : TenantId} {stream : StreamId}
    {expected : Version} {events : List SerializedEvent} {fault : Fault}
    (h : s.append tenant stream expected events = .error fault) :
    0x10000000000000000 ≤ (s.log tenant).length + events.length ∧ fault = .addition := by
  have hne : events ≠ [] := by
    rintro rfl
    cases h
  have ha : s.available = true := by
    cases ha : s.available with
    | true => rfl
    | false => cases (Appends.unavailable hne ha).append_eq.symm.trans h
  rw [append_of_available tenant stream expected hne ha] at h
  cases hlog : (s.tenant tenant).append stream expected events with
  | ok answer => rw [hlog] at h; cases h
  | error found =>
    rw [hlog] at h
    obtain rfl := Except.error.inj h
    unfold TenantLog.append at hlog
    split at hlog
    case isFalse => cases hlog
    next hversion =>
    cases hrows : TenantLog.number stream expected (s.tenant tenant).lastPosition events with
    | ok rows => rw [hrows] at hlog; cases hlog
    | error found =>
      rw [hrows] at hlog
      obtain rfl := Except.error.inj hlog
      obtain ⟨hfull, rfl⟩ := TenantLog.number_eq_error hrows
      have hlast := (hs tenant).toNat_lastPosition
      have hle := hs.toNat_version_le tenant stream
      rw [MemoryStore.version, hversion] at hle
      change _ = (s.log tenant).length at hlast
      exact ⟨by omega, rfl⟩

theorem call_dense (s : MemoryStore) (call : StoreCall) (hs : s.Dense) :
    (s.call call).2.Dense := by
  rcases s.call_cases call with h | ⟨_, _, _, _, _, -, h⟩
  · exact hs.of_tenant h
  · exact h.dense hs

theorem call_grows (s : MemoryStore) (call : StoreCall) : s.Grows (s.call call).2 := by
  rcases s.call_cases call with h | ⟨_, _, _, _, _, -, h⟩
  · exact .of_tenant h
  · exact h.grows

/-! ## Any sequence of calls -/

theorem afterCalls_dense {s : MemoryStore} (hs : s.Dense) (calls : List StoreCall) :
    (s.afterCalls calls).Dense := afterCalls_induction call_dense hs calls

theorem afterCalls_grows (s : MemoryStore) (calls : List StoreCall) :
    s.Grows (s.afterCalls calls) :=
  afterCalls_induction (fun s' call h => h.trans (call_grows s' call)) (.refl s) calls

/-- **A store is dense, and grows.** Whatever is asked of a store that was empty at first: in each
tenant's log the positions are 1, 2, and so on in order; in each stream the versions are; what is
kept of a stream is the tenant's log without the rows of other streams, and a stream's version is
the number of its rows. And what a log was at any time before is the beginning of what it is. -/
theorem store_is_dense_and_grows (before since : List StoreCall) (tenant : TenantId) :
    let earlier := MemoryStore.empty.afterCalls before
    let now := MemoryStore.empty.afterCalls (before ++ since)
    (now.log tenant).map (fun row => row.position.toNat) =
        List.range' 1 (now.log tenant).length ∧
      (∀ stream, let rows := (now.tenant tenant).rows stream
        rows.map (fun row => row.version.toNat) = List.range' 1 rows.length ∧
          rows = (now.log tenant).filter (fun row => row.stream = stream) ∧
          (now.version tenant stream).toNat = rows.length) ∧
      earlier.log tenant <+: now.log tenant := by
  have hdense := afterCalls_dense dense_empty (before ++ since) tenant
  have hgrows := (afterCalls_grows (MemoryStore.empty.afterCalls before) since).log tenant
  rw [← afterCalls_append] at hgrows
  exact ⟨hdense.positions,
    fun stream => ⟨hdense.versions stream, hdense.parts stream, hdense.toNat_version stream⟩,
    hgrows⟩

end MemoryStore

end Chronicle
