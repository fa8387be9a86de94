/-!
# Tables

A table gives values to finitely many keys. Setting a key replaces its value in place or adds
the key at the end, so the keys stay in the order in which they came.
-/

namespace Chronicle

/-- A finite map, as the list of its entries. -/
structure Table (κ ν : Type) where
  entries : List (κ × ν)

namespace Table

variable {κ ν : Type} [DecidableEq κ]

/-- The table without keys. -/
def empty : Table κ ν := ⟨[]⟩

instance : Inhabited (Table κ ν) := ⟨empty⟩

/-- The value of a key. -/
def get? (t : Table κ ν) (key : κ) : Option ν := t.entries.lookup key

/-- Gives a key a value, in a list of entries. -/
def setEntry (key : κ) (value : ν) : List (κ × ν) → List (κ × ν)
  | [] => [(key, value)]
  | entry :: rest =>
    if entry.1 = key then (key, value) :: rest else entry :: setEntry key value rest

/-- Gives a key a value. -/
def set (t : Table κ ν) (key : κ) (value : ν) : Table κ ν := ⟨setEntry key value t.entries⟩

/-- Takes a key out. -/
def erase (t : Table κ ν) (key : κ) : Table κ ν := ⟨t.entries.filter fun entry => entry.1 ≠ key⟩

/-- The number of keys. -/
def size (t : Table κ ν) : Nat := t.entries.length

/-- The keys, in the order in which they came. -/
def keys (t : Table κ ν) : List κ := t.entries.map Prod.fst

/-- The values, in the order of their keys. -/
def values (t : Table κ ν) : List ν := t.entries.map Prod.snd

/-! ## Small laws -/

theorem get?_empty (key : κ) : (empty : Table κ ν).get? key = none := rfl

theorem lookup_setEntry (key other : κ) (value : ν) (entries : List (κ × ν)) :
    (setEntry key value entries).lookup other =
      if other = key then some value else entries.lookup other := by
  induction entries with
  | nil =>
    by_cases h : other = key <;> simp [setEntry, List.lookup_cons, h, beq_eq_false_iff_ne.mpr]
  | cons entry rest ih =>
    obtain ⟨k, v⟩ := entry
    by_cases hk : k = key
    · subst hk
      by_cases h : other = k <;> simp [setEntry, List.lookup_cons, h, beq_eq_false_iff_ne.mpr]
    · by_cases h : other = key
      · subst h
        simp [setEntry, List.lookup_cons, hk, ih, beq_eq_false_iff_ne.mpr (Ne.symm hk)]
      · by_cases ho : other = k <;> simp [setEntry, List.lookup_cons, hk, ih, h, ho]

theorem get?_set (t : Table κ ν) (key other : κ) (value : ν) :
    (t.set key value).get? other = if other = key then some value else t.get? other :=
  lookup_setEntry key other value t.entries

theorem lookup_filter_ne (key other : κ) (entries : List (κ × ν)) :
    (entries.filter fun entry => entry.1 ≠ key).lookup other =
      if other = key then none else entries.lookup other := by
  induction entries with
  | nil => simp
  | cons entry rest ih =>
    obtain ⟨k, v⟩ := entry
    by_cases hk : k = key
    · subst hk
      by_cases h : other = k
      · subst h
        simpa using ih
      · simpa [List.lookup_cons, h, beq_eq_false_iff_ne.mpr h] using ih
    · by_cases h : other = k
      · subst h
        simp [hk]
      · have hb : (other == k) = false := beq_eq_false_iff_ne.mpr h
        simpa [List.lookup_cons, hk, hb] using ih

theorem get?_erase (t : Table κ ν) (key other : κ) :
    (t.erase key).get? other = if other = key then none else t.get? other :=
  lookup_filter_ne key other t.entries

omit [DecidableEq κ] in
theorem length_keys (t : Table κ ν) : t.keys.length = t.size := List.length_map ..

theorem mem_keys_iff {t : Table κ ν} {key : κ} : key ∈ t.keys ↔ t.get? key ≠ none := by
  obtain ⟨entries⟩ := t
  simp only [keys, get?]
  induction entries with
  | nil => simp
  | cons entry rest ih =>
    obtain ⟨k, v⟩ := entry
    by_cases h : key = k <;> simp [List.lookup_cons, h, ih, beq_eq_false_iff_ne.mpr]

/-- Where no key is listed twice, the values are those of the keys. -/
theorem map_get?_keys {t : Table κ ν} (h : t.keys.Nodup) :
    t.keys.map t.get? = t.values.map some := by
  obtain ⟨entries⟩ := t
  simp only [keys, values] at h ⊢
  induction entries with
  | nil => rfl
  | cons entry rest ih =>
    obtain ⟨k, v⟩ := entry
    obtain ⟨hnew, hrest⟩ := List.nodup_cons.mp h
    have hsame : (rest.map Prod.fst).map (get? ⟨(k, v) :: rest⟩) =
        (rest.map Prod.fst).map (get? ⟨rest⟩) := by
      refine List.map_congr_left fun key hin => ?_
      have hne : key ≠ k := fun heq => hnew (heq ▸ hin)
      simp [get?, List.lookup_cons, beq_eq_false_iff_ne.mpr hne]
    rw [List.map_cons, List.map_cons, hsame, ih hrest]
    simp [get?]

theorem map_fst_setEntry (key : κ) (value : ν) (entries : List (κ × ν)) :
    (setEntry key value entries).map Prod.fst =
      if key ∈ entries.map Prod.fst then entries.map Prod.fst
      else entries.map Prod.fst ++ [key] := by
  induction entries with
  | nil => simp [setEntry]
  | cons entry rest ih =>
    obtain ⟨k, v⟩ := entry
    by_cases hk : k = key
    · simp [setEntry, hk]
    · by_cases hmem : key ∈ rest.map Prod.fst <;>
        simp_all [setEntry, Ne.symm hk]

theorem keys_set (t : Table κ ν) (key : κ) (value : ν) :
    (t.set key value).keys = if key ∈ t.keys then t.keys else t.keys ++ [key] :=
  map_fst_setEntry key value t.entries

theorem keys_erase (t : Table κ ν) (key : κ) :
    (t.erase key).keys = t.keys.filter (· ≠ key) := by
  simp only [keys, erase, List.filter_map]
  rfl

/-- Setting a key lists no key twice. -/
theorem nodup_keys_set {t : Table κ ν} (h : t.keys.Nodup) (key : κ) (value : ν) :
    (t.set key value).keys.Nodup := by
  rw [keys_set]
  split
  · exact h
  · next hnew => exact List.nodup_append.mpr ⟨h, by simp, fun a ha b hb => by
      rintro rfl
      exact hnew (List.mem_singleton.mp hb ▸ ha)⟩

theorem nodup_keys_erase {t : Table κ ν} (h : t.keys.Nodup) (key : κ) :
    (t.erase key).keys.Nodup := by
  rw [keys_erase]
  exact h.filter _

end Table

end Chronicle
