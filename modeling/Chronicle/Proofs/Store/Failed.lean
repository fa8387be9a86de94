import Chronicle.Proofs.Sample.Sequence
import Chronicle.Proofs.Store.Pages
import Mathlib.Algebra.GroupWithZero.Nat

/-!
# Appends that fail

An append that fails changes nothing that can be seen, now or later. It may leave a tenant behind
that has no events, so the stores are not equal; they are `Indistinct`: alike, and with as many
events. No call tells indistinct stores apart (`Indistinct.answer`), and each leaves behind stores
that are indistinct again (`Indistinct.call`), so no sequence of calls does.
-/

namespace Chronicle

/-! ## The number of events -/

/-- What the values of a table add up to, when one of them is replaced. -/
theorem Table.sum_setEntry {κ ν : Type} [DecidableEq κ] (weight : ν → Nat) (key : κ) (value : ν)
    (entries : List (κ × ν)) :
    ((setEntry key value entries).map fun entry => weight entry.2).sum +
        ((entries.lookup key).map weight).getD 0 =
      (entries.map fun entry => weight entry.2).sum + weight value := by
  induction entries with
  | nil => simp [setEntry]
  | cons entry rest ih =>
    obtain ⟨k, v⟩ := entry
    by_cases hk : k = key
    · subst hk
      simp only [setEntry, if_true, List.map_cons, List.sum_cons, List.lookup_cons, BEq.rfl,
        Option.map_some, Option.getD_some]
      omega
    · have hlookup : ((k, v) :: rest).lookup key = rest.lookup key := by
        simp [List.lookup_cons, beq_eq_false_iff_ne.mpr (Ne.symm hk)]
      simp only [setEntry, if_neg hk, List.map_cons, List.sum_cons, hlookup]
      omega

namespace MemoryStore

theorem size_eq_sum (s : MemoryStore) :
    s.size = (s.tenants.entries.map fun entry => entry.2.log.length).sum := by
  rw [size, Table.values, ← List.foldl_map (f := fun t : TenantLog => t.log.length)
    (g := fun total n => total + n), ← List.sum_eq_foldl, List.map_map]
  rfl

/-- A store counts the events of each tenant once. -/
theorem size_set (s : MemoryStore) (tenant : TenantId) (t : TenantLog) :
    ({ s with tenants := s.tenants.set tenant t } : MemoryStore).size + (s.log tenant).length =
      s.size + t.log.length := by
  have hlog : (s.log tenant).length =
      ((s.tenants.entries.lookup tenant).map fun t => t.log.length).getD 0 := by
    simp only [log, MemoryStore.tenant, Table.get?]
    cases s.tenants.entries.lookup tenant <;> rfl
  rw [size_eq_sum, size_eq_sum, hlog]
  exact Table.sum_setEntry (fun t : TenantLog => t.log.length) tenant t s.tenants.entries

/-! ## Stores that no call can tell apart -/

/-- Stores that are alike and have as many events. -/
structure Indistinct (s s' : MemoryStore) : Prop extends s.Alike s' where
  size : s'.size = s.size

theorem Indistinct.refl (s : MemoryStore) : s.Indistinct s := ⟨.refl s, rfl⟩

theorem Indistinct.set_tenant {s s' : MemoryStore} (h : s.Indistinct s') (tenant : TenantId)
    (t : TenantLog) :
    ({ s with tenants := s.tenants.set tenant t } : MemoryStore).Indistinct
      { s' with tenants := s'.tenants.set tenant t } where
  toAlike := h.toAlike.set_tenant tenant t
  size := by
    have hs := s.size_set tenant t
    have hs' := s'.size_set tenant t
    rw [h.size, log, h.tenant, ← log] at hs'
    omega

theorem Indistinct.ensureAvailable {s s' : MemoryStore} (h : s.Indistinct s') :
    s'.ensureAvailable = s.ensureAvailable := by
  rw [MemoryStore.ensureAvailable, MemoryStore.ensureAvailable, h.available]

/-- Two answers to one append. Either none can be given, for the same reason, or both are the same
and leave behind stores that are indistinct. -/
theorem Indistinct.append {s s' : MemoryStore} (h : s.Indistinct s') (tenant : TenantId)
    (stream : StreamId) (expected : Version) (events : List SerializedEvent) :
    (∃ fault, s.append tenant stream expected events = .error fault ∧
        s'.append tenant stream expected events = .error fault) ∨
      ∃ outcome t t', s.append tenant stream expected events = .ok (outcome, t) ∧
        s'.append tenant stream expected events = .ok (outcome, t') ∧ t.Indistinct t' := by
  simp only [MemoryStore.append, h.ensureAvailable, h.tenant]
  cases events.isEmpty with
  | true => exact .inr ⟨_, _, _, rfl, rfl, h⟩
  | false =>
    cases s.ensureAvailable with
    | error error => exact .inr ⟨_, _, _, rfl, rfl, h⟩
    | ok =>
      cases (s.tenant tenant).append stream expected events with
      | error fault => exact .inl ⟨fault, rfl, rfl⟩
      | ok answer => exact .inr ⟨_, _, _, rfl, rfl, h.set_tenant tenant answer.2⟩

theorem Indistinct.answer {s s' : MemoryStore} (h : s.Indistinct s') (call : StoreCall) :
    (s'.call call).1 = (s.call call).1 := by
  cases call with
  | append tenant stream expected events =>
    rcases h.append tenant stream expected events with
      ⟨fault, hs, hs'⟩ | ⟨outcome, t, t', hs, hs', -⟩ <;>
    simp only [MemoryStore.call, hs, hs']
  | setUp =>
    simp only [MemoryStore.call, setUp, h.ensureAvailable]
    cases s.ensureAvailable <;> rfl
  | setAvailable => rfl
  | loadStream tenant stream range =>
    simp only [MemoryStore.call, loadStream, h.ensureAvailable, h.tenant]
  | loadLog tenant options =>
    simp only [MemoryStore.call, loadLog, h.ensureAvailable, h.tenant]
  | streamExists tenant stream =>
    simp only [MemoryStore.call, streamExists, h.ensureAvailable, h.tenant]
  | version tenant stream => simp only [MemoryStore.call, version, h.tenant]
  | log tenant => simp only [MemoryStore.call, log, h.tenant]
  | size => simp only [MemoryStore.call, h.size]

theorem Indistinct.call {s s' : MemoryStore} (h : s.Indistinct s') (call : StoreCall) :
    (s.call call).2.Indistinct (s'.call call).2 := by
  refine ⟨h.toAlike.call call, ?_⟩
  cases call with
  | append tenant stream expected events =>
    rcases h.append tenant stream expected events with
      ⟨fault, hs, hs'⟩ | ⟨outcome, t, t', hs, hs', ht⟩
    · simp only [MemoryStore.call, hs, hs', h.size]
    · simp only [MemoryStore.call, hs, hs', ht.size]
  | setUp =>
    simp only [MemoryStore.call, setUp, h.ensureAvailable]
    cases s.ensureAvailable with
    | error error => exact h.size
    | ok => exact h.size
  | _ => exact h.size

/-- What a sequence of calls is answered, call by call. -/
def answers (s : MemoryStore) : List StoreCall → List (Checked StoreAnswer)
  | [] => []
  | call :: calls => (s.call call).1 :: (s.call call).2.answers calls

theorem Indistinct.answers {s s' : MemoryStore} (h : s.Indistinct s') (calls : List StoreCall) :
    s'.answers calls = s.answers calls := by
  induction calls generalizing s s' with
  | nil => rfl
  | cons call calls ih =>
    rw [MemoryStore.answers, MemoryStore.answers, h.answer call, ih (h.call call)]

/-! ## Appends -/

variable {s s' : MemoryStore} {tenant : TenantId} {stream : StreamId} {expected : Version}
  {events : List SerializedEvent}

/-- An append that fails leaves a store behind that is indistinct from the one before. -/
theorem Appends.indistinct_of_error {error : StoreError}
    (h : s.Appends tenant stream expected events (.error error) s') : s.Indistinct s' := by
  refine ⟨h.alike_of_error, ?_⟩
  cases h with
  | emptyBatch | unavailable => rfl
  | conflict =>
    have hset := s.size_set tenant (s.tenant tenant)
    rw [log] at hset
    omega

/-- An append that succeeds brings its events into the store. -/
theorem Appends.size_eq {version : Version}
    (h : s.Appends tenant stream expected events (.ok version) s') :
    s'.size = s.size + events.length := by
  cases h with
  | stored rows _ _ _ hrows =>
    have hset := s.size_set tenant ((s.tenant tenant).extend stream rows)
    rw [TenantLog.log_extend, List.length_append, (TenantLog.number_eq_ok hrows).length_eq] at hset
    have hlog : (s.log tenant).length = (s.tenant tenant).log.length := rfl
    omega

/-- Events can be appended to a store: there are some, the store can be reached, and their stream
is at the expected version. -/
structure Admits (s : MemoryStore) (tenant : TenantId) (stream : StreamId) (expected : Version)
    (events : List SerializedEvent) : Prop where
  ne_nil : events ≠ []
  available : s.available = true
  expected : expected = s.version tenant stream

theorem Appends.admits {version : Version}
    (h : s.Appends tenant stream expected events (.ok version) s') :
    s.Admits tenant stream expected events := by
  cases h with
  | stored rows hne ha hexpected => exact ⟨hne, ha, hexpected.symm⟩

theorem Appends.not_admits {error : StoreError}
    (h : s.Appends tenant stream expected events (.error error) s') :
    ¬ s.Admits tenant stream expected events := by
  cases h with
  | emptyBatch hnil => exact fun hadmits => hadmits.ne_nil hnil
  | unavailable _ hno => exact fun hadmits => nomatch hno.symm.trans hadmits.available
  | conflict _ _ hother => exact fun hadmits => hother hadmits.expected.symm

/-- Where events cannot be appended, the append says why. -/
theorem exists_appends_error (h : ¬ s.Admits tenant stream expected events) :
    ∃ error s', s.Appends tenant stream expected events (.error error) s' := by
  by_cases hne : events = []
  · exact ⟨_, _, .emptyBatch hne⟩
  cases ha : s.available with
  | false => exact ⟨_, _, .unavailable hne ha⟩
  | true =>
    by_cases hversion : s.version tenant stream = expected
    · exact absurd ⟨hne, ha, hversion.symm⟩ h
    · exact ⟨_, _, .conflict hne ha hversion⟩

/-- Events that are stored have found room in the 64 bits of the positions. -/
theorem Appends.length_lt {version : Version} (hs : s.Dense)
    (h : s.Appends tenant stream expected events (.ok version) s') :
    (s.log tenant).length + events.length < 0x10000000000000000 := by
  have hfits := (h.dense hs).length_log_lt tenant
  cases h with
  | stored rows _ _ _ hrows =>
    have hlength := (TenantLog.number_eq_ok hrows).length_eq
    rwa [log, tenant_set, if_pos rfl, TenantLog.log_extend, List.length_append, hlength] at hfits

/-- **A failed append leaves no trace.** Take any store that calls lead to, and any append to it.
If it fails, every later sequence of calls is answered as if it had not been called. It fails if
and only if no events are given, the store cannot be reached, or the stream is at another version
than the expected one; if none of these is the case it succeeds, as long as the tenant's events can
be numbered in 64 bits, which no memory exceeds. -/
theorem failed_append_leaves_no_trace (before : List StoreCall) (tenant : TenantId)
    (stream : StreamId) (expected : Version) (events : List SerializedEvent) :
    let s := MemoryStore.empty.afterCalls before
    (∀ error s', s.append tenant stream expected events = .ok (.error error, s') →
        ∀ later, s'.answers later = s.answers later) ∧
      ((∃ error s', s.append tenant stream expected events = .ok (.error error, s')) ↔
        ¬ s.Admits tenant stream expected events) ∧
      ((∃ version s', s.append tenant stream expected events = .ok (.ok version, s')) ↔
        s.Admits tenant stream expected events ∧
          (s.log tenant).length + events.length < 0x10000000000000000) := by
  intro s
  have hdense : s.Dense := afterCalls_dense dense_empty before
  refine ⟨fun error s' h => (append_eq_ok h).indistinct_of_error.answers, ⟨?_, ?_⟩, ⟨?_, ?_⟩⟩
  · rintro ⟨error, s', h⟩
    exact (append_eq_ok h).not_admits
  · intro hnot
    obtain ⟨error, s', h⟩ := exists_appends_error hnot
    exact ⟨error, s', h.append_eq⟩
  · rintro ⟨version, s', h⟩
    exact ⟨(append_eq_ok h).admits, (append_eq_ok h).length_lt hdense⟩
  · rintro ⟨hyes, hroom⟩
    cases h : s.append tenant stream expected events with
    | error fault =>
      have hfull := (append_eq_error hdense h).1
      omega
    | ok answer =>
      obtain ⟨error | version, s'⟩ := answer
      · exact absurd hyes (append_eq_ok h).not_admits
      · exact ⟨version, s', rfl⟩

open Sample in
/-- An append to a new tenant that expects events there is refused and leaves the tenant behind,
without events: the stores differ, and no call shows it. -/
theorem refused_tenant_leaves_no_trace :
    let s := MemoryStore.empty.afterCalls [stocking .notCreated [1, 2]]
    ∃ s', s.append ⟨"other"⟩ (sequenceType.stream (7 : UInt64)) ⟨2⟩ [storedAddition 3] =
        .ok (.error (.conflict (sequenceType.stream (7 : UInt64)) ⟨2⟩ .notCreated), s') ∧
      s.tenants.size = 1 ∧ s'.tenants.size = 2 ∧
      ∀ later, s'.answers later = s.answers later := by
  intro s
  exact ⟨_, rfl, rfl, rfl, (failed_append_leaves_no_trace [stocking .notCreated [1, 2]] ⟨"other"⟩
    (sequenceType.stream (7 : UInt64)) ⟨2⟩ [storedAddition 3]).1 _ _ rfl⟩

end MemoryStore

end Chronicle
