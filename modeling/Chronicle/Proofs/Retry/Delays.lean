import Chronicle.Retry
import Mathlib.Algebra.Order.Field.Basic
import Mathlib.Algebra.Order.Floor.Semiring
import Mathlib.Data.Rat.Floor

/-!
# How delays grow

Reckoned exactly, what the initial delay has grown to never falls (`grown_le_grown`), and neither do
the delays behind the first attempt, all of which are cut to whole milliseconds. The first delay is
not cut. So it may be longer than all that come behind it, and an initial delay of less than a
millisecond is followed by no delay at all. `delays_shrink_behind_the_first_only` says that nothing
else goes wrong, and when this does.
-/

namespace Chronicle

/-- Exact arithmetic: nothing is rounded and no number is too large. -/
instance : Scaling ℚ where
  ofNat n := n
  mul a b := a * b
  pow base exponent := base ^ exponent
  isFinite _ := true
  le a b := decide (a ≤ b)
  truncate x := UInt64.ofNat (min ⌊x⌋₊ 0xFFFFFFFFFFFFFFFF)

theorem toNat_truncate (x : ℚ) : (Scaling.truncate x).toNat = min ⌊x⌋₊ 0xFFFFFFFFFFFFFFFF :=
  UInt64.toNat_ofNat_of_lt' (Nat.lt_of_le_of_lt (Nat.min_le_right ..) (by decide))

theorem truncate_le_truncate {x y : ℚ} (h : x ≤ y) :
    (Scaling.truncate x).toNat ≤ (Scaling.truncate y).toNat := by
  rw [toNat_truncate, toNat_truncate]
  exact min_le_min_right _ (Nat.floor_mono h)

/-- Milliseconds that do not fill a span are no longer than it when they are cut. -/
theorem Duration.ofMillis_truncate_le {x : ℚ} {d : Duration} (hx : 0 ≤ x) (h : x < d.millis) :
    Duration.ofMillis (Scaling.truncate x) ≤ d := by
  show (Scaling.truncate x).toNat * 1000000 ≤ d.nanos
  have hfloor : ⌊x⌋₊ < d.nanos / 1000000 := (Nat.floor_lt hx).mpr h
  have hcut := Nat.min_le_left ⌊x⌋₊ 0xFFFFFFFFFFFFFFFF
  rw [toNat_truncate]
  omega

namespace RetryPolicy

variable {policy : RetryPolicy ℚ} {attempt first later : Nat}

/-- What the whole milliseconds of the initial delay have grown to behind an attempt. -/
def grown (policy : RetryPolicy ℚ) (attempt : Nat) : ℚ :=
  policy.initialDelay.millis * policy.multiplier ^ min attempt maxPower

theorem grown_one (policy : RetryPolicy ℚ) :
    policy.grown 1 = policy.initialDelay.millis * policy.multiplier := by
  rw [grown, show min 1 maxPower = 1 from rfl, pow_one]

theorem grown_nonneg (hgrows : 1 ≤ policy.multiplier) (attempt : Nat) :
    0 ≤ policy.grown attempt :=
  mul_nonneg (Nat.cast_nonneg _) (pow_nonneg (zero_le_one.trans hgrows) _)

theorem grown_le_grown (hgrows : 1 ≤ policy.multiplier) (h : first ≤ later) :
    policy.grown first ≤ policy.grown later := by
  have hpower : min first maxPower ≤ min later maxPower := min_le_min_right _ h
  exact mul_le_mul_of_nonneg_left (pow_le_pow_right₀ hgrows hpower) (Nat.cast_nonneg _)

/-! ## The delays behind the first attempt -/

theorem delay_zero (policy : RetryPolicy ℚ) :
    policy.delay 0 = policy.initialDelay.min policy.maxDelay := rfl

/-- Behind the first attempt a delay is what the initial one has grown to, in whole milliseconds,
unless this reaches the longest delay. -/
theorem delay_of_pos (h : 0 < attempt) :
    policy.delay attempt =
      if policy.maxDelay.millis ≤ policy.grown attempt then policy.maxDelay
      else .ofMillis (Scaling.truncate (policy.grown attempt)) := by
  have hmillis : Scaling.mul (Scaling.ofNat policy.initialDelay.millis)
      (Scaling.pow policy.multiplier (Nat.min attempt maxPower)) = policy.grown attempt := rfl
  simp only [delay, Nat.ne_of_gt h, if_false, hmillis]
  by_cases hreached : (policy.maxDelay.millis : ℚ) ≤ policy.grown attempt <;>
    simp [Scaling.isFinite, Scaling.le, Scaling.ofNat, hreached]

theorem delay_le_maxDelay (hgrows : 1 ≤ policy.multiplier) (attempt : Nat) :
    policy.delay attempt ≤ policy.maxDelay := by
  rcases Nat.eq_zero_or_pos attempt with rfl | hpos
  · rw [delay_zero, Duration.min]
    split
    · assumption
    · exact Nat.le_refl _
  · rw [delay_of_pos hpos]
    split
    · exact Nat.le_refl _
    · next hreached =>
      exact Duration.ofMillis_truncate_le (grown_nonneg hgrows attempt) (not_le.mp hreached)

theorem delay_le_delay_of_pos (hgrows : 1 ≤ policy.multiplier) (hpos : 0 < first)
    (h : first ≤ later) : policy.delay first ≤ policy.delay later := by
  have hgrown := grown_le_grown hgrows h
  by_cases hreached : (policy.maxDelay.millis : ℚ) ≤ policy.grown later
  · rw [delay_of_pos (Nat.lt_of_lt_of_le hpos h), if_pos hreached]
    exact delay_le_maxDelay hgrows first
  · rw [delay_of_pos hpos, delay_of_pos (Nat.lt_of_lt_of_le hpos h), if_neg hreached,
      if_neg fun hearlier => hreached (hearlier.trans hgrown)]
    exact Nat.mul_le_mul_right _ (truncate_le_truncate hgrown)

/-! ## The first delay and the second -/

/-- A delay that grows and stays below the longest was below it from the start. -/
theorem initialDelay_le_maxDelay (hgrows : 1 ≤ policy.multiplier)
    (h : policy.grown attempt < policy.maxDelay.millis) :
    policy.initialDelay ≤ policy.maxDelay := by
  have hfirst : policy.grown 0 ≤ policy.grown attempt := grown_le_grown hgrows (Nat.zero_le _)
  have hmillis : policy.initialDelay.millis < policy.maxDelay.millis := by
    rw [grown, show min 0 maxPower = 0 from rfl, pow_zero, mul_one] at hfirst
    exact_mod_cast hfirst.trans_lt h
  show policy.initialDelay.nanos ≤ policy.maxDelay.nanos
  simp only [Duration.millis] at hmillis
  omega

/-- The second delay is no shorter than the first if it is the longest, or if growing makes up for
what is cut off the initial delay. -/
theorem delay_zero_le_delay_one_iff (hgrows : 1 ≤ policy.multiplier) :
    policy.delay 0 ≤ policy.delay 1 ↔
      policy.maxDelay.millis ≤ policy.initialDelay.millis * policy.multiplier ∨
        policy.initialDelay ≤
          .ofMillis (Scaling.truncate (policy.initialDelay.millis * policy.multiplier)) := by
  rw [← grown_one, delay_of_pos Nat.one_pos]
  by_cases hreached : (policy.maxDelay.millis : ℚ) ≤ policy.grown 1
  · rw [if_pos hreached]
    exact iff_of_true (delay_le_maxDelay hgrows 0) (.inl hreached)
  · rw [if_neg hreached, delay_zero, Duration.min,
      if_pos (initialDelay_le_maxDelay hgrows (not_le.mp hreached))]
    exact (or_iff_right hreached).symm

/-- Nothing is cut off an initial delay of whole milliseconds. -/
theorem initialDelay_le_of_whole (hgrows : 1 ≤ policy.multiplier) {millis : UInt64}
    (hwhole : policy.initialDelay = .ofMillis millis) :
    policy.initialDelay ≤
      .ofMillis (Scaling.truncate (policy.initialDelay.millis * policy.multiplier)) := by
  have hmillis : policy.initialDelay.millis = millis.toNat := by
    rw [hwhole]
    exact Nat.mul_div_cancel _ (by decide)
  have hgrown : (millis.toNat : ℚ) ≤ policy.initialDelay.millis * policy.multiplier := by
    rw [hmillis]
    exact le_mul_of_one_le_right (Nat.cast_nonneg _) hgrows
  have hkept : (Scaling.truncate (millis.toNat : ℚ)).toNat = millis.toNat := by
    rw [toNat_truncate, Nat.floor_natCast]
    exact Nat.min_eq_left (Nat.le_of_lt_succ millis.toNat_lt)
  have hcut := truncate_le_truncate hgrown
  rw [hkept] at hcut
  have hmade : Duration.ofMillis millis ≤ .ofMillis (Scaling.truncate _) :=
    Nat.mul_le_mul_right _ hcut
  rwa [← hwhole] at hmade

/-- No delay is longer than the longest, and behind the first attempt none is shorter than one
before it. From the first delay to the second, which lacks what whole milliseconds do not hold, they
grow if the second is the longest, or if growing makes up for what is cut off, and else they
shrink. -/
theorem delays_shrink_behind_the_first_only (policy : RetryPolicy ℚ)
    (hgrows : 1 ≤ policy.multiplier) :
    (∀ attempt, policy.delay attempt ≤ policy.maxDelay) ∧
      (∀ first later, 0 < first → first ≤ later → policy.delay first ≤ policy.delay later) ∧
      ((∀ first later, first ≤ later → policy.delay first ≤ policy.delay later) ↔
        policy.maxDelay.millis ≤ policy.initialDelay.millis * policy.multiplier ∨
          policy.initialDelay ≤
            .ofMillis (Scaling.truncate (policy.initialDelay.millis * policy.multiplier))) := by
  refine ⟨delay_le_maxDelay hgrows, fun first later => delay_le_delay_of_pos hgrows, ?_⟩
  rw [← delay_zero_le_delay_one_iff hgrows]
  refine ⟨fun hgrowing => hgrowing 0 1 (Nat.zero_le 1), fun hsecond first later h => ?_⟩
  rcases Nat.eq_zero_or_pos first with rfl | hpos
  · rcases Nat.eq_zero_or_pos later with rfl | hlater
    · exact Nat.le_refl _
    · exact Nat.le_trans hsecond (delay_le_delay_of_pos hgrows Nat.one_pos hlater)
  · exact delay_le_delay_of_pos hgrows hpos h

/-- Ten milliseconds that double, up to a second, are such delays, and they never shrink. -/
theorem doubled_delays_grow :
    let policy : RetryPolicy ℚ := ⟨3, .ofMillis 10, .ofMillis 1000, 2, 0⟩
    1 ≤ policy.multiplier ∧
      ∀ first later, first ≤ later → policy.delay first ≤ policy.delay later := by
  intro policy
  have hgrows : 1 ≤ policy.multiplier := by norm_num [policy]
  exact ⟨hgrows, (delays_shrink_behind_the_first_only policy hgrows).2.2.mpr
    (.inr (initialDelay_le_of_whole hgrows rfl))⟩

/-- Less than a millisecond at first, doubled up to a second. -/
def hasty : RetryPolicy ℚ := ⟨3, ⟨900000, by decide⟩, .ofMillis 1000, 2, 0⟩

/-- An initial delay of less than a millisecond is followed by none at all. -/
theorem hasty_delays_shrink :
    hasty.delay 0 = hasty.initialDelay ∧
      (∀ attempt, 0 < attempt → hasty.delay attempt = .zero) ∧
      ¬ ∀ first later, first ≤ later → hasty.delay first ≤ hasty.delay later := by
  have hnone : ∀ attempt, 0 < attempt → hasty.delay attempt = .zero := by
    intro attempt hpos
    have hgrown : hasty.grown attempt = 0 := by
      rw [grown, show hasty.initialDelay.millis = 0 from rfl, Nat.cast_zero, zero_mul]
    have hreached : ¬ (hasty.maxDelay.millis : ℚ) ≤ 0 := by
      rw [show hasty.maxDelay.millis = 1000 from rfl]
      norm_num
    rw [delay_of_pos hpos, hgrown, if_neg hreached]
    rfl
  refine ⟨rfl, hnone, fun hgrowing => ?_⟩
  have hshrinks := hgrowing 0 1 (Nat.zero_le 1)
  rw [hnone 1 Nat.one_pos] at hshrinks
  exact absurd hshrinks (by decide)

end RetryPolicy

end Chronicle
