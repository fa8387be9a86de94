import Chronicle.Proofs.Registrations
import Mathlib.Data.List.Nodup

/-!
# The tags of types

A registry is asked for the tag of a type by the name of the type. `Lists` says that it knows the
names of the types that were registered and no others, each by the tag of its type, and that no two
of these types have one name. So a type is told the tag of whichever type was registered under its
name: of itself, unless another type came first (`types_are_told_by_name`).

A type that was never registered and shares the name of one that was is told the tag of the other
(`namesake_is_told_a_tag`).
-/

namespace Chronicle

namespace Registry

variable {κ : Type}

/-- The names in a registry are those of the types that were registered, of which no two share a
name, and each is bound to the tag of its type. -/
structure Lists (r : Registry κ) (made : List (Registration κ)) : Prop where
  names : (made.map fun x => x.A.name).Nodup
  tags : ∀ name tag, r.byName? name = some tag ↔ ∃ x ∈ made, x.A.name = name ∧ x.A.tag = tag

theorem lists_empty : (Registry.empty : Registry κ).Lists [] where
  names := List.nodup_nil
  tags _ _ := ⟨nofun, fun ⟨_, h, _⟩ => nomatch h⟩

variable {r : Registry κ} {made : List (Registration κ)}

/-- A name that is free is that of no type that was registered. -/
theorem Lists.name_ne (h : r.Lists made) {name : String} (hfree : r.byName? name = none) :
    ∀ x ∈ made, x.A.name ≠ name := by
  intro x hx hname
  have hbound := (h.tags name x.A.tag).mpr ⟨x, hx, hname, rfl⟩
  rw [hfree] at hbound
  cases hbound

theorem Lists.bound (h : r.Lists made) (x : Registration κ) (hfree : r.Free x.A) :
    (r.bound x.A).Lists (made ++ [x]) where
  names := by
    have hnew : x.A.name ∉ made.map fun y => y.A.name := fun hin => by
      obtain ⟨y, hy, hname⟩ := List.mem_map.mp hin
      exact h.name_ne hfree.1 y hy hname
    rw [List.map_append]
    exact h.names.append (List.nodup_singleton _) (List.disjoint_singleton.mpr hnew)
  tags name tag := by
    rw [byName?_bound]
    by_cases hname : name = x.A.name
    · subst hname
      have hold : ¬ ∃ y ∈ made, y.A.name = x.A.name ∧ y.A.tag = tag :=
        fun ⟨y, hy, hsame, _⟩ => h.name_ne hfree.1 y hy hsame
      simp [List.mem_append, or_and_right, exists_or, hold]
    · rw [if_neg hname, h.tags]
      simp [List.mem_append, or_and_right, exists_or, Ne.symm hname]

/-- A type is told the tag of the type that was registered under its name. -/
theorem Lists.tagOfType_eq_ok_iff (h : r.Lists made) {A : AggregateType} {tag : TypeTag} :
    r.tagOfType A = .ok tag ↔ ∃ x ∈ made, x.A.name = A.name ∧ x.A.tag = tag :=
  tagOfName_eq_ok_iff.trans (h.tags A.name tag)

/-- A type under whose name none was registered is missing. -/
theorem Lists.tagOfType_eq_missing_iff (h : r.Lists made) {A : AggregateType} :
    r.tagOfType A = .error (.missing A.name) ↔ ∀ x ∈ made, x.A.name ≠ A.name := by
  cases hname : r.byName? A.name with
  | none =>
    have hmissing : r.tagOfType A = .error (.missing A.name) := by
      rw [tagOfType, tagOfName, hname]
    exact ⟨fun _ => h.name_ne hname, fun _ => hmissing⟩
  | some tag =>
    have htold : r.tagOfType A = .ok tag := tagOfName_eq_ok_iff.mpr hname
    obtain ⟨x, hx, hsame, -⟩ := h.tagOfType_eq_ok_iff.mp htold
    rw [htold]
    exact ⟨nofun, fun hnone => absurd hsame (hnone x hx)⟩

/-- A type is told its own tag if it was registered, and is missing if it was not. -/
structure KnowsByItself (r : Registry κ) (made : List (Registration κ)) (A : AggregateType) :
    Prop where
  known : (∃ x ∈ made, x.A = A) → r.tagOfType A = .ok A.tag
  unknown : (¬ ∃ x ∈ made, x.A = A) → r.tagOfType A = .error (.missing A.name)

/-- A type is known by itself exactly if no other was registered under its name. -/
theorem Lists.knowsByItself_iff (h : r.Lists made) {A : AggregateType} :
    r.KnowsByItself made A ↔ ∀ x ∈ made, x.A.name = A.name → x.A = A := by
  constructor
  · intro hknows x hx hname
    by_cases hmade : ∃ y ∈ made, y.A = A
    · obtain ⟨y, hy, rfl⟩ := hmade
      rw [List.inj_on_of_nodup_map h.names hx hy hname]
    · exact absurd hname (h.tagOfType_eq_missing_iff.mp (hknows.unknown hmade) x hx)
  · intro honly
    refine ⟨fun ⟨x, hx, hsame⟩ => ?_, fun hnone => ?_⟩
    · exact h.tagOfType_eq_ok_iff.mpr ⟨x, hx, by rw [hsame], by rw [hsame]⟩
    · exact h.tagOfType_eq_missing_iff.mpr fun x hx hname => hnone ⟨x, hx, honly x hx hname⟩

/-- **Types are told by their names.** After any registrations, of whatever types and however they
collide, any type is told a tag exactly if a type of its name was registered, and it is the tag of
that type; otherwise it is missing. So a type is told its own tag if it was registered and missing
if it was not, exactly where no other type was registered under its name. -/
theorem types_are_told_by_name (xs : List (Registration κ)) :
    ∃ answers r, (Registry.empty : Registry κ).registerEach xs = .ok (answers, r) ∧
      answers.length = xs.length ∧ ∀ A : AggregateType,
        (∀ tag, r.tagOfType A = .ok tag ↔
          ∃ x ∈ succeeded xs answers, x.A.name = A.name ∧ x.A.tag = tag) ∧
        (r.tagOfType A = .error (.missing A.name) ↔
          ∀ x ∈ succeeded xs answers, x.A.name ≠ A.name) ∧
        (r.KnowsByItself (succeeded xs answers) A ↔
          ∀ x ∈ succeeded xs answers, x.A.name = A.name → x.A = A) := by
  obtain ⟨answers, r, hrun, hlength, hlists⟩ :=
    registerEach_induction (fun x hfree h => h.bound x hfree) xs (lists_empty (κ := κ))
  rw [List.nil_append] at hlists
  exact ⟨answers, r, hrun, hlength, fun A => ⟨fun tag => hlists.tagOfType_eq_ok_iff,
    hlists.tagOfType_eq_missing_iff, hlists.knowsByItself_iff⟩⟩

open Sample in
/-- Of two types with one name and different tags, the second is told the tag of the first, though
it was not registered. -/
theorem namesake_is_told_a_tag : ∃ r,
    (Registry.empty : Registry Carrier).registerEach [⟨probe "probe"⟩] = .ok ([.ok ()], r) ∧
    (¬ ∃ x ∈ succeeded [(⟨probe "probe"⟩ : Registration Carrier)] [.ok ()],
      x.A = { probe "probe" with tag := ⟨8⟩ }) ∧
    r.tagOfType { probe "probe" with tag := ⟨8⟩ } = .ok ⟨7⟩ := by
  refine ⟨_, rfl, ?_, rfl⟩
  rintro ⟨x, hx, hsame⟩
  obtain rfl := List.mem_singleton.mp hx
  exact absurd (congrArg AggregateType.tag hsame) (by decide)

end Registry

end Chronicle
