import Chronicle.Identity

/-!
# Decimal texts of numbers

The decimal text of a number is read as that number, wherever the number is not above the bound of
the reader. The reader works from the left and the digits of a number are taken from the right, so
`accumulate_append` cuts off the last digit.
-/

namespace Chronicle

namespace Text.Integer

theorem digit?_digitChar {d : Nat} (h : d < 10) : digit? (Nat.digitChar d) = some d := by
  have hd : d = 0 ∨ d = 1 ∨ d = 2 ∨ d = 3 ∨ d = 4 ∨ d = 5 ∨ d = 6 ∨ d = 7 ∨ d = 8 ∨ d = 9 := by
    omega
  rcases hd with rfl | rfl | rfl | rfl | rfl | rfl | rfl | rfl | rfl | rfl <;> rfl

/-- Reading goes on where the first digits were read. -/
theorem accumulate_append {bound : Nat} {beyond : Flaw} {front rest : List Char} :
    ∀ {acc n : Nat}, accumulate bound beyond acc front = .ok n →
      accumulate bound beyond acc (front ++ rest) = accumulate bound beyond n rest := by
  induction front with
  | nil =>
    intro acc n h
    obtain rfl := Except.ok.inj h
    rfl
  | cons c front ih =>
    intro acc n h
    rw [accumulate] at h
    rw [List.cons_append, accumulate]
    cases hc : digit? c with
    | none => rw [hc] at h; cases h
    | some d =>
      simp only [hc] at h ⊢
      split at h
      · next hle =>
        rw [if_pos hle]
        exact ih h
      · cases h

theorem accumulate_digitChar {bound acc d : Nat} {beyond : Flaw} (hd : d < 10)
    (h : acc * 10 + d ≤ bound) :
    accumulate bound beyond acc [Nat.digitChar d] = .ok (acc * 10 + d) := by
  rw [accumulate, digit?_digitChar hd]
  exact if_pos h

theorem accumulate_toDigits {bound n : Nat} (beyond : Flaw) (h : n ≤ bound) :
    accumulate bound beyond 0 (Nat.toDigits 10 n) = .ok n := by
  induction n using Nat.strongRecOn with
  | ind n ih =>
    rw [Nat.toDigits_eq_if (by decide)]
    split
    · next hlt =>
      have hsmall : 0 * 10 + n ≤ bound := by omega
      rw [accumulate_digitChar hlt hsmall, Nat.zero_mul, Nat.zero_add]
    · next hge =>
      have hfront := ih (n / 10) (by omega) (by omega)
      have hlast : n / 10 * 10 + n % 10 = n := by omega
      have hdigit : n % 10 < 10 := Nat.mod_lt n (by decide)
      rw [accumulate_append hfront, accumulate_digitChar hdigit (by omega), hlast]

/-- A number that is not above the bound is read back of its decimal text. -/
theorem unsigned_toString {bound n : Nat} (h : n ≤ bound) :
    unsigned bound (toString n) = .ok n := by
  have hread := accumulate_toDigits .tooLarge h
  have hdigits : ∀ c ∈ Nat.toDigits 10 n, c.isDigit = true := fun c hc =>
    Nat.isDigit_of_mem_toDigits (by decide) (by decide) hc
  unfold unsigned
  rw [Nat.toString_eq_repr, Nat.toList_repr]
  cases htext : Nat.toDigits 10 n with
  | nil => exact absurd htext Nat.toDigits_ne_nil
  | cons c rest =>
    rw [htext] at hread hdigits
    have hplus : c ≠ '+' := by
      rintro rfl
      exact absurd (hdigits '+' (List.mem_cons_self ..)) (by decide)
    split
    · next hnil => cases hnil
    · next hone => exact absurd (List.cons.inj hone).1 hplus
    · next hsigned => exact absurd (List.cons.inj hsigned).1 hplus
    · exact hread

end Text.Integer

/-- An id that is a number of 64 bits is read back of its text. -/
theorem InstanceId.ofText_toText_uint64 (n : UInt64) :
    InstanceId.ofText (InstanceId.toText n) = .ok n := by
  have hread := Text.Integer.unsigned_toString (Nat.le_of_lt_succ n.toNat_lt)
  show ((Text.Integer.unsigned 0xffffffffffffffff (toString n.toNat)).mapError _).map _ = _
  rw [hread]
  show Except.ok (UInt64.ofNat n.toNat) = _
  rw [UInt64.ofNat_toNat]

end Chronicle
