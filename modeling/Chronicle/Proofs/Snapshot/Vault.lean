import Chronicle.Snapshot.Vault

/-!
# What a vault finds and keeps

A snapshot is found exactly if the vault can be read and what it keeps of the stream is of the type,
has not expired and can be decoded (`read_eq_found_iff`). Saving keeps the one record that a state
makes, if it makes one, or changes nothing (`write_snd`).
-/

namespace Chronicle

namespace SnapshotVault

variable {A : AggregateType} {policy : SnapshotPolicy} {codec : Codec} {now : Timestamp}
  {v : SnapshotVault} {tenant : TenantId} {stream : StreamId}

theorem get?_plant (snapshot : StoredSnapshot) (other : TenantId) (stream : StreamId) :
    (v.plant tenant snapshot).get? other stream =
      if (other, stream) = (tenant, snapshot.stream) then some snapshot
      else v.get? other stream := by
  simp [plant, get?, Table.get?_set]

/-! ## Reading -/

/-- A snapshot that is found is a kept record of the type that is not too old and whose bytes can be
read, and every such record is found. -/
theorem read_eq_found_iff {state : A.State} {version : Version} :
    v.read A policy codec now tenant stream = .found state version ↔
      v.refusesLoads = false ∧ ∃ stored, v.get? tenant stream = some stored ∧
        stored.tag = A.tag ∧ policy.isExpired stored.takenAt now = false ∧
        codec.decode stored.data = .ok state ∧ stored.version = version := by
  unfold read load
  cases v.refusesLoads with
  | true => simp
  | false =>
    cases v.get? tenant stream with
    | none => simp
    | some stored =>
      by_cases htag : stored.tag = A.tag
      · cases hexpired : policy.isExpired stored.takenAt now with
        | true => simp [htag, hexpired]
        | false =>
          cases hdecode : codec.decode (α := A.State) stored.data <;>
            simp [htag, hexpired, hdecode]
      · simp [htag]

theorem read_eq_found {state : A.State} {version : Version}
    (h : v.read A policy codec now tenant stream = .found state version) :
    ∃ stored, v.get? tenant stream = some stored ∧ stored.tag = A.tag ∧
      codec.decode stored.data = .ok state ∧ stored.version = version := by
  obtain ⟨-, stored, hget, htag, -, hdecode, hversion⟩ := read_eq_found_iff.mp h
  exact ⟨stored, hget, htag, hdecode, hversion⟩

/-! ## Writing -/

/-- The record that a state is kept as, if there is one, the policy wants it and it can be
encoded. -/
def record? (A : AggregateType) (policy : SnapshotPolicy) (codec : Codec) (now : Timestamp)
    (stream : StreamId) (version : Version) (state : Option A.State) : Option StoredSnapshot := do
  let state ← state
  if policy.persistsAt version then
    let data ← (codec.encode state).toOption
    some ⟨stream, version, A.tag, data, now⟩
  else none

theorem record?_of_wanted {version : Version} {state : A.State} {data : Bytes}
    (hwanted : policy.persistsAt version = true) (hencode : codec.encode state = .ok data) :
    record? A policy codec now stream version (some state) =
      some ⟨stream, version, A.tag, data, now⟩ := by
  simp [record?, hwanted, hencode, Except.toOption]

theorem record?_of_unwanted {version : Version} (hwanted : policy.persistsAt version = false)
    (state : Option A.State) : record? A policy codec now stream version state = none := by
  cases state <;> simp [record?, hwanted]

/-- A record comes of a state that the policy wants and that can be encoded. -/
theorem record?_eq_some_iff {version : Version} {state : Option A.State} {record : StoredSnapshot} :
    record? A policy codec now stream version state = some record ↔
      ∃ found data, state = some found ∧ policy.persistsAt version = true ∧
        codec.encode found = .ok data ∧ record = ⟨stream, version, A.tag, data, now⟩ := by
  constructor
  · intro h
    cases state with
    | none => cases h
    | some found =>
      cases hwanted : policy.persistsAt version with
      | false => cases (record?_of_unwanted hwanted _).symm.trans h
      | true =>
        cases hencode : codec.encode found with
        | error error => simp [record?, hwanted, hencode, Except.toOption] at h
        | ok data =>
          obtain rfl := Option.some.inj ((record?_of_wanted hwanted hencode).symm.trans h)
          exact ⟨found, data, rfl, rfl, hencode, rfl⟩
  · rintro ⟨found, data, rfl, hwanted, hencode, rfl⟩
    exact record?_of_wanted hwanted hencode

/-- A vault that has kept one record more. -/
def kept (v : SnapshotVault) (tenant : TenantId) (record : StoredSnapshot) : SnapshotVault :=
  { v.plant tenant record with saves := v.saves + 1 }

/-- A state that the policy wants and that can be encoded is saved, unless the vault refuses. -/
theorem write_of_wanted {version : Version} {state : A.State} {data : Bytes}
    (hwanted : policy.persistsAt version = true) (hencode : codec.encode state = .ok data)
    (hopen : v.refusesSaves = false) :
    v.write A policy codec now tenant stream version (some state) =
      (.saved, v.kept tenant ⟨stream, version, A.tag, data, now⟩) := by
  simp [write, save, kept, hwanted, hencode, hopen]

/-- Saving a state keeps the record that it makes, if it makes one and the vault does not refuse. -/
theorem write_snd (version : Version) (state : Option A.State) :
    (v.write A policy codec now tenant stream version state).2 =
      match record? A policy codec now stream version state with
      | some record => if v.refusesSaves then v else v.kept tenant record
      | none => v := by
  cases state with
  | none => rfl
  | some state =>
    cases hwanted : policy.persistsAt version with
    | false => simp [write, record?, hwanted]
    | true =>
      cases hencode : codec.encode state with
      | error error => simp [write, record?, hwanted, hencode, Except.toOption]
      | ok data =>
        rw [record?_of_wanted hwanted hencode]
        cases hrefuses : v.refusesSaves with
        | true => simp [write, save, hwanted, hencode, hrefuses]
        | false =>
          rw [write_of_wanted hwanted hencode hrefuses]
          rfl

/-- Saving a state keeps it under its stream, or changes nothing. -/
theorem write_cases (version : Version) (state : A.State) :
    (v.write A policy codec now tenant stream version (some state)).2 = v ∨
      ∃ data, codec.encode state = .ok data ∧
        (v.write A policy codec now tenant stream version (some state)).2 =
          { v.plant tenant ⟨stream, version, A.tag, data, now⟩ with saves := v.saves + 1 } := by
  rw [write_snd]
  cases hrecord : record? A policy codec now stream version (some state) with
  | none => exact Or.inl rfl
  | some record =>
    obtain ⟨_, data, heq, -, hencode, rfl⟩ := record?_eq_some_iff.mp hrecord
    obtain rfl := Option.some.inj heq
    cases v.refusesSaves with
    | true => exact Or.inl rfl
    | false => exact Or.inr ⟨data, hencode, rfl⟩

/-! ## Last writes -/

/-- The record that is written last for a stream of a tenant. -/
def last? (tenant : TenantId) (stream : StreamId) (written : List (TenantId × StoredSnapshot)) :
    Option StoredSnapshot :=
  (written.filter fun w => (w.1, w.2.stream) = (tenant, stream)).getLast?.map Prod.snd

theorem last?_append (before since : List (TenantId × StoredSnapshot)) :
    last? tenant stream (before ++ since) =
      (last? tenant stream since).or (last? tenant stream before) := by
  simp only [last?, List.filter_append, List.getLast?_append, Option.map_or]

theorem last?_singleton (other : TenantId) (record : StoredSnapshot) :
    last? tenant stream [(other, record)] =
      if (tenant, stream) = (other, record.stream) then some record else none := by
  by_cases h : (tenant, stream) = (other, record.stream)
  · rw [if_pos h, last?, List.filter_cons_of_pos (by simpa using h.symm)]
    rfl
  · rw [if_neg h, last?, List.filter_cons_of_neg (by simpa using Ne.symm h)]
    rfl

theorem mem_of_last? {written : List (TenantId × StoredSnapshot)} {record : StoredSnapshot}
    (h : last? tenant stream written = some record) :
    (tenant, record) ∈ written ∧ record.stream = stream := by
  obtain ⟨⟨other, _⟩, hlast, rfl⟩ := Option.map_eq_some_iff.mp h
  obtain ⟨hmem, hown⟩ := List.mem_filter.mp (List.mem_of_getLast? hlast)
  obtain ⟨rfl, hstream⟩ := Prod.mk.inj (of_decide_eq_true hown)
  exact ⟨hmem, hstream⟩

/-- A vault has of each stream the record that was written last for it, and what another vault has
where none was. -/
def Takes (v : SnapshotVault) (written : List (TenantId × StoredSnapshot)) (v' : SnapshotVault) :
    Prop :=
  ∀ tenant stream, v'.get? tenant stream = (last? tenant stream written).or (v.get? tenant stream)

theorem Takes.refl (v : SnapshotVault) : v.Takes [] v := fun _ _ => rfl

theorem Takes.trans {v v' v'' : SnapshotVault} {before since : List (TenantId × StoredSnapshot)}
    (h : v.Takes before v') (h' : v'.Takes since v'') : v.Takes (before ++ since) v'' :=
  fun tenant stream => by rw [h', h, last?_append, Option.or_assoc]

theorem takes_plant (v : SnapshotVault) (tenant : TenantId) (record : StoredSnapshot) :
    v.Takes [(tenant, record)] (v.plant tenant record) := fun other stream => by
  rw [get?_plant, last?_singleton]
  split <;> rfl

end SnapshotVault

end Chronicle
