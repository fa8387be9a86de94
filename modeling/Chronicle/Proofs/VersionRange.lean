import Chronicle.Proofs.Store.Numbers

/-!
# Which ranges hold a version

A range holds the versions above its lower end and up to the highest that its upper end admits
(`VersionRange.contains_iff`), so it holds one just if it holds that highest one
(`VersionRange.exists_contains_iff`). Versions are 64 bits wide, and an open end admits them all:
the highest is then the last version that there is.

`VersionRange.isEmpty` compares the two ends where the upper one is a version, and never calls an
open range empty. It is right about every range but the open one above the last version, which holds
nothing (`VersionRange.emptiness_is_told_of_all_but_one`).
-/

namespace Chronicle

/-! ## The ends of a range as plain numbers -/

/-- The highest version that an upper end admits. -/
def UpperBound.highest : UpperBound → Version
  | .version last => last
  | .unbounded => ⟨0xffffffffffffffff⟩

/-- The last version that there is, up to which an open end reaches. -/
def Version.last : Version := UpperBound.unbounded.highest

theorem Version.toNat_le (v : Version) : v.toNat ≤ 0xffffffffffffffff :=
  Nat.le_of_lt_succ v.val.toNat_lt

theorem UpperBound.admits_iff {upTo : UpperBound} {v : Version} :
    upTo.admits v = true ↔ v.toNat ≤ upTo.highest.toNat := by
  cases upTo with
  | version last => simp [admits, highest, Version.le_iff_toNat_le]
  | unbounded => exact ⟨fun _ => v.toNat_le, fun _ => rfl⟩

namespace VersionRange

theorem contains_iff {range : VersionRange} {v : Version} :
    range.contains v = true ↔
      range.after.toNat < v.toNat ∧ v.toNat ≤ range.upTo.highest.toNat := by
  rw [contains, Bool.and_eq_true, decide_eq_true_iff, Version.lt_iff_toNat_lt,
    UpperBound.admits_iff]

/-! ## Ranges without versions -/

/-- A range that holds a version holds the highest one that its upper end admits. -/
theorem exists_contains_iff {range : VersionRange} :
    (∃ v, range.contains v = true) ↔ range.after.toNat < range.upTo.highest.toNat := by
  constructor
  · rintro ⟨v, hv⟩
    obtain ⟨habove, hupTo⟩ := contains_iff.mp hv
    exact Nat.lt_of_lt_of_le habove hupTo
  · intro hroom
    exact ⟨range.upTo.highest, contains_iff.mpr ⟨hroom, Nat.le_refl _⟩⟩

/-- A range that ends at a version is called empty just if it holds none. -/
theorem isEmpty_iff_of_version {after last : Version} :
    (⟨after, .version last⟩ : VersionRange).isEmpty = true ↔
      ¬ ∃ v, (⟨after, .version last⟩ : VersionRange).contains v = true := by
  rw [exists_contains_iff, Nat.not_lt]
  exact decide_eq_true_iff.trans Version.le_iff_toNat_le

/-- An open range holds no version just if it starts at the last one. -/
theorem not_exists_contains_above_iff {after : Version} :
    (¬ ∃ v, (above after).contains v = true) ↔ after = .last := by
  have hle : after.toNat ≤ Version.last.toNat := after.toNat_le
  rw [exists_contains_iff, Nat.not_lt, ← Version.toNat_inj]
  exact ⟨fun hge => Nat.le_antisymm hle hge, fun heq => Nat.le_of_eq heq.symm⟩

theorem isEmpty_iff {range : VersionRange} :
    range.isEmpty = true ↔ (¬ ∃ v, range.contains v = true) ∧ range ≠ above .last := by
  obtain ⟨after, last | -⟩ := range
  case version => rw [isEmpty_iff_of_version, and_iff_left nofun]
  case unbounded =>
    refine ⟨nofun, fun ⟨hnone, hother⟩ => ?_⟩
    have hlast : after = .last := not_exists_contains_above_iff.mp hnone
    exact absurd (congrArg above hlast) hother

/-- **Emptiness is told of all ranges but one.** A range is called empty exactly if it holds no
version and is not the open range above the last version. So a range is called empty exactly if it
holds no version, for every range but that one. -/
theorem emptiness_is_told_of_all_but_one (range : VersionRange) :
    (range.isEmpty = true ↔ (¬ ∃ v, range.contains v = true) ∧ range ≠ above .last) ∧
    ((range.isEmpty = true ↔ ¬ ∃ v, range.contains v = true) ↔ range ≠ above .last) := by
  refine ⟨isEmpty_iff, ?_⟩
  rw [isEmpty_iff, and_iff_left_iff_imp]
  constructor
  · rintro hlaw rfl
    exact hlaw (not_exists_contains_above_iff.mpr rfl) rfl
  · exact fun hother _ => hother

/-- No version is above the last one, and yet the open range there is not called empty, as the
range is that ends where it starts. -/
theorem nothing_is_above_the_last_version :
    (¬ ∃ v, (above .last).contains v = true) ∧ (above .last).isEmpty = false ∧
      (⟨.last, .version .last⟩ : VersionRange).isEmpty = true :=
  ⟨not_exists_contains_above_iff.mpr rfl, rfl, rfl⟩

end VersionRange

end Chronicle
