import Chronicle.Proofs.Engine.Conditions
import Chronicle.Proofs.Sample.Sequence
import Chronicle.Proofs.Timestamp
import Chronicle.Snapshot.Store

/-!
# A store of snapshots is a table of last writes

Snapshots are saved by any types, records are planted past the store, the clock is moved and the
vault begins or ceases to refuse, in any order. What all this writes is told from the calls alone
(`writes`): each write has a tenant and a record, and a save writes nothing where it has no state,
where the policy does not want it, where the state cannot be encoded or where the vault refuses.

The store keeps of each stream of each tenant the record that was written last for it
(`callAll_takes`), and loads it if it can be used (`store_is_a_keyed_cell`).
-/

namespace Chronicle

/-- A record can be used: it is of the type, it is not too old and its bytes can be read. -/
structure StoredSnapshot.Usable (record : StoredSnapshot) (A : AggregateType)
    (policy : SnapshotPolicy) (codec : Codec) (now : Timestamp) (state : A.State) : Prop where
  tag : record.tag = A.tag
  fresh : ∀ limit, policy.expireAfter = some limit →
    now.nanosSince record.takenAt ≤ limit.nanos
  decodes : codec.decode record.data = .ok state

namespace SnapshotStore

/-- One thing that is done to a store of snapshots. -/
inductive Call where
  | save (A : AggregateType) (tenant : TenantId) (snapshot : Snapshot A.State)
  /-- A record is put into the vault past the store. -/
  | plant (tenant : TenantId) (record : StoredSnapshot)
  | clock (now : Timestamp)
  | refuseLoads (on : Bool)
  | refuseSaves (on : Bool)

def call (s : SnapshotStore) : Call → SnapshotStore
  | .save A tenant snapshot => (s.save A tenant snapshot).2
  | .plant tenant record => { s with vault := s.vault.plant tenant record }
  | .clock now => { s with clock := now }
  | .refuseLoads on => { s with vault := { s.vault with refusesLoads := on } }
  | .refuseSaves on => { s with vault := { s.vault with refusesSaves := on } }

def callAll (s : SnapshotStore) (calls : List Call) : SnapshotStore := calls.foldl call s

/-- The conditions that a store is under. -/
def conditions (s : SnapshotStore) : Conditions :=
  ⟨s.clock, s.vault.refusesLoads, s.vault.refusesSaves⟩

/-! ## What calls write -/

/-- The conditions behind a call. -/
def Call.leaves (c : Conditions) : Call → Conditions
  | .clock now => { c with now := now }
  | .refuseLoads on => { c with refusesLoads := on }
  | .refuseSaves on => { c with refusesSaves := on }
  | .save .. | .plant .. => c

/-- What a call writes, and for whom. -/
def Call.written? (policy : SnapshotPolicy) (codec : Codec) (c : Conditions) :
    Call → Option (TenantId × StoredSnapshot)
  | .save A tenant snapshot =>
    if c.refusesSaves then none
    else (SnapshotVault.record? A policy codec c.now snapshot.stream snapshot.version
      snapshot.state).map (tenant, ·)
  | .plant tenant record => some (tenant, record)
  | .clock _ | .refuseLoads _ | .refuseSaves _ => none

/-- A save writes a record exactly if saves are not refused, there is a state that the policy wants
and it can be encoded. -/
theorem Call.written?_save_iff {policy : SnapshotPolicy} {codec : Codec} {c : Conditions}
    {A : AggregateType} {tenant : TenantId} {snapshot : Snapshot A.State}
    {w : TenantId × StoredSnapshot} :
    (Call.save A tenant snapshot).written? policy codec c = some w ↔
      c.refusesSaves = false ∧ ∃ state data, snapshot.state = some state ∧
        policy.persistsAt snapshot.version = true ∧ codec.encode state = .ok data ∧
        w = (tenant, ⟨snapshot.stream, snapshot.version, A.tag, data, c.now⟩) := by
  cases hrefuses : c.refusesSaves with
  | true => simp [written?, hrefuses]
  | false =>
    simp only [written?, hrefuses, Bool.false_eq_true, if_false, true_and, Option.map_eq_some_iff,
      SnapshotVault.record?_eq_some_iff]
    constructor
    · rintro ⟨_, ⟨state, data, hstate, hwanted, hencode, rfl⟩, rfl⟩
      exact ⟨state, data, hstate, hwanted, hencode, rfl⟩
    · rintro ⟨state, data, hstate, hwanted, hencode, rfl⟩
      exact ⟨_, ⟨state, data, hstate, hwanted, hencode, rfl⟩, rfl⟩

/-- The conditions behind some calls. -/
def leftBy (c : Conditions) (calls : List Call) : Conditions := calls.foldl Call.leaves c

/-- All that some calls write, in the order of the calls. -/
def writes (policy : SnapshotPolicy) (codec : Codec) : Conditions → List Call →
    List (TenantId × StoredSnapshot)
  | _, [] => []
  | c, call :: calls =>
    (call.written? policy codec c).toList ++ writes policy codec (call.leaves c) calls

variable {policy : SnapshotPolicy} {codec : Codec} {tenant : TenantId} {stream : StreamId}

/-! ## What a store keeps -/

/-- A save keeps the record that it writes, if it writes one, and changes nothing otherwise. -/
theorem save_snd (s : SnapshotStore) (A : AggregateType) (other : TenantId)
    (snapshot : Snapshot A.State) :
    (s.save A other snapshot).2 =
      match (Call.save A other snapshot).written? s.policy s.codec s.conditions with
      | some (_, record) => { s with vault := s.vault.kept other record }
      | none => s := by
  have hvault : (s.save A other snapshot).2 = { s with vault := (s.vault.write A s.policy s.codec
      s.clock other snapshot.stream snapshot.version snapshot.state).2 } := rfl
  rw [hvault, SnapshotVault.write_snd]
  cases hrecord : SnapshotVault.record? A s.policy s.codec s.clock snapshot.stream
      snapshot.version snapshot.state with
  | none => simp only [Call.written?, conditions, hrecord, Option.map_none, ite_self]
  | some record =>
    by_cases hrefuses : s.vault.refusesSaves = true <;>
      simp [Call.written?, conditions, hrecord, hrefuses]

/-- A call changes neither the policy nor the codec, and leaves the conditions behind that it
says. -/
theorem call_settled (s : SnapshotStore) (x : Call) :
    (s.call x).policy = s.policy ∧ (s.call x).codec = s.codec ∧
      (s.call x).conditions = x.leaves s.conditions := by
  cases x with
  | save A other snapshot =>
    rw [call, save_snd]
    split <;> exact ⟨rfl, rfl, rfl⟩
  | plant | clock | refuseLoads | refuseSaves => exact ⟨rfl, rfl, rfl⟩

/-- Behind a call the vault has taken what the call wrote. -/
theorem call_takes (s : SnapshotStore) (x : Call) :
    s.vault.Takes (x.written? s.policy s.codec s.conditions).toList (s.call x).vault := by
  cases x with
  | save A other snapshot =>
    rw [call, save_snd]
    cases hwritten : (Call.save A other snapshot).written? s.policy s.codec s.conditions with
    | none => exact .refl s.vault
    | some w =>
      obtain ⟨-, state, data, -, -, -, rfl⟩ := Call.written?_save_iff.mp hwritten
      exact s.vault.takes_plant other _
  | plant other record => exact s.vault.takes_plant other record
  | clock | refuseLoads | refuseSaves => exact .refl s.vault

theorem callAll_settled (calls : List Call) : ∀ s : SnapshotStore,
    (s.callAll calls).policy = s.policy ∧ (s.callAll calls).codec = s.codec ∧
      (s.callAll calls).conditions = leftBy s.conditions calls := by
  induction calls with
  | nil => exact fun s => ⟨rfl, rfl, rfl⟩
  | cons x calls ih =>
    intro s
    obtain ⟨hpolicy, hcodec, hconditions⟩ := s.call_settled x
    obtain ⟨hpolicy', hcodec', hconditions'⟩ := ih (s.call x)
    refine ⟨hpolicy'.trans hpolicy, hcodec'.trans hcodec, hconditions'.trans ?_⟩
    rw [hconditions]
    rfl

/-- Behind any calls the vault has taken what they wrote. -/
theorem callAll_takes (calls : List Call) : ∀ s : SnapshotStore,
    s.vault.Takes (writes s.policy s.codec s.conditions calls) (s.callAll calls).vault := by
  induction calls with
  | nil => exact fun s => .refl s.vault
  | cons x calls ih =>
    intro s
    obtain ⟨hpolicy, hcodec, hconditions⟩ := s.call_settled x
    have hrest := ih (s.call x)
    rw [hpolicy, hcodec, hconditions] at hrest
    exact (s.call_takes x).trans hrest

/-! ## When records are dated -/

/-- The times that a call brings with it lie in the calendar. -/
def Call.InCalendar : Call → Prop
  | .clock now => now.InCalendar
  | .plant _ record => record.takenAt.InCalendar
  | _ => True

theorem Call.leaves_inCalendar {x : Call} {c : Conditions} (hx : x.InCalendar)
    (hc : c.now.InCalendar) : (x.leaves c).now.InCalendar := by
  cases x with
  | clock now => exact hx
  | _ => exact hc

theorem Call.written?_inCalendar {x : Call} {c : Conditions} {w : TenantId × StoredSnapshot}
    (hx : x.InCalendar) (hc : c.now.InCalendar) (h : x.written? policy codec c = some w) :
    w.2.takenAt.InCalendar := by
  cases x with
  | save A other snapshot =>
    obtain ⟨-, _, _, -, -, -, rfl⟩ := Call.written?_save_iff.mp h
    exact hc
  | plant other record =>
    obtain rfl := Option.some.inj h
    exact hx
  | clock | refuseLoads | refuseSaves => cases h

theorem leftBy_inCalendar {calls : List Call} (hcalls : ∀ x ∈ calls, x.InCalendar) :
    ∀ {c : Conditions}, c.now.InCalendar → (leftBy c calls).now.InCalendar := by
  induction calls with
  | nil => exact id
  | cons x calls ih =>
    intro c hc
    exact ih (fun y hy => hcalls y (List.mem_cons_of_mem _ hy))
      (Call.leaves_inCalendar (hcalls x (List.mem_cons_self ..)) hc)

theorem writes_inCalendar {calls : List Call} (hcalls : ∀ x ∈ calls, x.InCalendar) :
    ∀ {c : Conditions}, c.now.InCalendar →
      ∀ w ∈ writes policy codec c calls, w.2.takenAt.InCalendar := by
  induction calls with
  | nil => exact fun _ _ => nofun
  | cons x calls ih =>
    intro c hc w hw
    have hx := hcalls x (List.mem_cons_self ..)
    rcases List.mem_append.mp hw with hw | hw
    · exact Call.written?_inCalendar hx hc (Option.mem_toList.mp hw)
    · exact ih (fun y hy => hcalls y (List.mem_cons_of_mem _ hy))
        (Call.leaves_inCalendar hx hc) w hw

/-! ## One load and one save -/

/-- What is loaded is present exactly if it is a snapshot of a state. -/
theorem isPresent_load_iff (s : SnapshotStore) (A : AggregateType) (tenant : TenantId)
    (stream : StreamId) : (s.load A tenant stream).isPresent = true ↔
      ∃ state version, s.load A tenant stream = .of stream state version := by
  unfold load
  cases s.vault.read A s.policy s.codec s.clock tenant stream with
  | found state version => exact ⟨fun _ => ⟨state, version, rfl⟩, fun _ => rfl⟩
  | absent | unusable => exact ⟨nofun, fun ⟨_, _, h⟩ => nomatch congrArg Snapshot.state h⟩

/-- What is loaded and is not present is the absent snapshot of the stream. -/
theorem load_eq_absent {s : SnapshotStore} {A : AggregateType}
    (h : (s.load A tenant stream).isPresent = false) :
    s.load A tenant stream = .absent stream := by
  unfold load at h ⊢
  cases hread : s.vault.read A s.policy s.codec s.clock tenant stream with
  | found state version =>
    rw [hread] at h
    cases h
  | absent | unusable => rfl

/-- A snapshot is loaded exactly if loads are not refused and the record that is kept of the stream
can be used. The times that are compared lie in the calendar, so that no limit is out of reach. -/
theorem load_eq_of_iff {s : SnapshotStore} {A : AggregateType} (hclock : s.clock.InCalendar)
    (hkept : ∀ record, s.vault.get? tenant stream = some record → record.takenAt.InCalendar)
    {state : A.State} {version : Version} :
    s.load A tenant stream = .of stream state version ↔
      s.vault.refusesLoads = false ∧ ∃ record, s.vault.get? tenant stream = some record ∧
        record.Usable A s.policy s.codec s.clock state ∧ record.version = version := by
  have hload : s.load A tenant stream = .of stream state version ↔
      s.vault.read A s.policy s.codec s.clock tenant stream = .found state version := by
    unfold load
    cases s.vault.read A s.policy s.codec s.clock tenant stream <;>
      simp [Snapshot.of, Snapshot.absent]
  rw [hload, SnapshotVault.read_eq_found_iff]
  refine and_congr_right fun _ => exists_congr fun record => and_congr_right fun hget => ?_
  rw [SnapshotPolicy.isExpired_eq_false_iff (hkept record hget) hclock]
  exact ⟨fun ⟨htag, hfresh, hdecode, hversion⟩ => ⟨⟨htag, hfresh, hdecode⟩, hversion⟩,
    fun ⟨husable, hversion⟩ => ⟨husable.tag, husable.fresh, husable.decodes, hversion⟩⟩

/-- A save without a state, or one that is not wanted, not encoded or refused, changes nothing. -/
theorem save_eq_self {s : SnapshotStore} {A : AggregateType} {snapshot : Snapshot A.State}
    (h : snapshot.state = none ∨ s.policy.persistsAt snapshot.version = false ∨
      (∃ state error, snapshot.state = some state ∧ s.codec.encode state = .error error) ∨
      s.vault.refusesSaves = true) (tenant : TenantId) : (s.save A tenant snapshot).2 = s := by
  rw [save_snd]
  cases hwritten : (Call.save A tenant snapshot).written? s.policy s.codec s.conditions with
  | none => rfl
  | some w =>
    obtain ⟨hopen, state, data, hstate, hwanted, hencode, -⟩ :=
      Call.written?_save_iff.mp hwritten
    rcases h with hnone | hskipped | ⟨state', error, hstate', herror⟩ | hrefuses
    · cases hnone.symm.trans hstate
    · cases hskipped.symm.trans hwanted
    · obtain rfl := Option.some.inj (hstate'.symm.trans hstate)
      cases herror.symm.trans hencode
    · cases hopen.symm.trans hrefuses

/-! ## Any calls -/

/-- **A store of snapshots is a keyed cell.** Take any policy and codec and a new store at any time
of the calendar, and do anything to it: save snapshots of any types, plant records, move the clock,
let the vault refuse. Then the snapshot of a stream that is loaded for a type is present exactly if
loads are not refused and the record that was written last for this tenant and stream can be used:
it is of the type, it is not older than the policy permits and its bytes can be read. It is the
state and the version of this record, and otherwise it is the absent one. And a save without a
state, or one that the policy does not want, that cannot be encoded or that is refused, changes
nothing. -/
theorem store_is_a_keyed_cell (policy : SnapshotPolicy) (codec : Codec) {now : Timestamp}
    (hnow : now.InCalendar) {calls : List Call} (hcalls : ∀ x ∈ calls, x.InCalendar)
    (A : AggregateType) (tenant : TenantId) (stream : StreamId) :
    let s := (new policy codec now).callAll calls
    let c := leftBy ⟨now, false, false⟩ calls
    let last := SnapshotVault.last? tenant stream (writes policy codec ⟨now, false, false⟩ calls)
    ((s.load A tenant stream).isPresent = true ↔ c.refusesLoads = false ∧
      ∃ record state, last = some record ∧ record.Usable A policy codec c.now state) ∧
    (∀ record state, c.refusesLoads = false → last = some record →
      record.Usable A policy codec c.now state →
        s.load A tenant stream = .of stream state record.version) ∧
    ((s.load A tenant stream).isPresent = false → s.load A tenant stream = .absent stream) ∧
    ∀ (B : AggregateType) (other : TenantId) (snapshot : Snapshot B.State),
      (snapshot.state = none ∨ policy.persistsAt snapshot.version = false ∨
        (∃ state error, snapshot.state = some state ∧ codec.encode state = .error error) ∨
        c.refusesSaves = true) → (s.save B other snapshot).2 = s := by
  intro s c last
  obtain ⟨hpolicy, hcodec, hconditions⟩ := callAll_settled calls (new policy codec now)
  change s.policy = policy at hpolicy
  change s.codec = codec at hcodec
  change s.conditions = c at hconditions
  have hget : s.vault.get? tenant stream = last :=
    (callAll_takes calls _ tenant stream).trans Option.or_none
  have hclock : s.clock.InCalendar := by
    have hleft : c.now.InCalendar := leftBy_inCalendar hcalls hnow
    rwa [← hconditions] at hleft
  have hkept : ∀ record, s.vault.get? tenant stream = some record →
      record.takenAt.InCalendar := fun record hrecord => by
    rw [hget] at hrecord
    exact writes_inCalendar hcalls hnow _ (SnapshotVault.mem_of_last? hrecord).1
  have hload : ∀ state version, s.load A tenant stream = .of stream state version ↔
      c.refusesLoads = false ∧ ∃ record, last = some record ∧
        record.Usable A policy codec c.now state ∧ record.version = version := by
    intro state version
    rw [load_eq_of_iff hclock hkept, hget, hpolicy, hcodec, ← hconditions]
    exact Iff.rfl
  refine ⟨?_, fun record state hloads hlast husable => ?_, load_eq_absent,
    fun B other snapshot hnothing => ?_⟩
  · rw [isPresent_load_iff]
    constructor
    · rintro ⟨state, version, h⟩
      obtain ⟨hloads, record, hlast, husable, -⟩ := (hload state version).mp h
      exact ⟨hloads, record, state, hlast, husable⟩
    · rintro ⟨hloads, record, state, hlast, husable⟩
      exact ⟨state, _, (hload state _).mpr ⟨hloads, record, hlast, husable, rfl⟩⟩
  · exact (hload state _).mpr ⟨hloads, record, hlast, husable, rfl⟩
  · refine save_eq_self ?_ other
    rw [hpolicy, hcodec]
    rw [← hconditions] at hnothing
    exact hnothing

end SnapshotStore

namespace Sample

/-- A sequence is saved at every second version; the saves at the versions three and four come to
nothing. A minute passes, and a record of another type is planted for another tenant. -/
def snapshotCalls : List SnapshotStore.Call :=
  [.save sequenceType .default (.of (sequenceType.stream (7 : UInt64)) ⟨[5], 5⟩ ⟨2⟩),
    .save sequenceType .default (.of (sequenceType.stream (7 : UInt64)) ⟨[5, 6], 11⟩ ⟨3⟩),
    .refuseSaves true,
    .save sequenceType .default (.of (sequenceType.stream (7 : UInt64)) ⟨[5, 6, 7], 18⟩ ⟨4⟩),
    .clock ⟨1735689660, 0⟩,
    .plant ⟨"other"⟩ ⟨sequenceType.stream (7 : UInt64), ⟨9⟩, ⟨8⟩, [], .year2025⟩]

/-- The record that the first save writes. -/
def firstRecord : StoredSnapshot :=
  ⟨sequenceType.stream (7 : UInt64), ⟨2⟩, ⟨1⟩,
    [1, 0, 0, 0, 0, 0, 0, 0, 5, 0, 0, 0, 5, 0, 0, 0, 0, 0, 0, 0], .year2025⟩

end Sample

open Sample in
/-- The first save is loaded a minute later, where a snapshot may be a minute old. -/
theorem SnapshotStore.first_save_is_loaded :
    let policy : SnapshotPolicy := { SnapshotPolicy.atMultiplesOf 2 with
      expireAfter := some (.ofSeconds 60) }
    Timestamp.year2025.InCalendar ∧ (∀ x ∈ snapshotCalls, x.InCalendar) ∧
      ((new policy .binary .year2025).callAll snapshotCalls).load sequenceType .default
        (sequenceType.stream (7 : UInt64)) =
          .of (sequenceType.stream (7 : UInt64)) ⟨[5], 5⟩ ⟨2⟩ := by
  intro policy
  have hnow : Timestamp.year2025.InCalendar := by decide
  have hcalls : ∀ x ∈ snapshotCalls, x.InCalendar := by
    simp only [snapshotCalls, List.forall_mem_cons, Call.InCalendar]
    exact ⟨trivial, trivial, trivial, trivial, by decide, by decide, nofun⟩
  have husable : firstRecord.Usable sequenceType policy .binary ⟨1735689660, 0⟩ ⟨[5], 5⟩ := by
    refine ⟨rfl, fun limit hlimit => ?_, rfl⟩
    obtain rfl := Option.some.inj hlimit
    decide
  obtain ⟨-, hload, -⟩ := store_is_a_keyed_cell policy .binary hnow hcalls sequenceType .default
    (sequenceType.stream (7 : UInt64))
  exact ⟨hnow, hcalls, hload firstRecord _ rfl (by decide) husable⟩

end Chronicle
