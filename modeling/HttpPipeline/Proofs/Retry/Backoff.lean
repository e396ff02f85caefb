import HttpPipeline.Policy.Retry
import Mathlib.Algebra.Ring.Nat
import Mathlib.Order.Monotone.Basic

/-! # The backoff

  The wait before a retry is computed within 64 bits: the power of two is cut there, the product is
  cut there, and the result is cut at the longest wait. The longest wait has 64 bits itself, so
  neither of the first two cuts shows in the result. Main statement: the wait is the exact product,
  cut at the longest wait.
-/

namespace HttpPipeline

/-! ## §1. Cuts that do not show -/

theorem boundedPowerOfTwo_eq (exponent : Nat) :
    boundedPowerOfTwo exponent = min (2 ^ exponent) maxWord64 := by
  have hmax : maxWord64 + 1 = 2 ^ 64 := by decide
  unfold boundedPowerOfTwo
  split
  case isTrue h =>
    have hpow : 2 ^ exponent < 2 ^ 64 := Nat.pow_lt_pow_right (by decide) h
    show 2 ^ exponent = _
    exact (Nat.min_eq_left (by omega)).symm
  case isFalse h =>
    have hpow : 2 ^ 64 ≤ 2 ^ exponent := Nat.pow_le_pow_right (by decide) (Nat.le_of_not_lt h)
    exact (Nat.min_eq_right (by omega)).symm

/-- A cut of a factor does not show in a product that is cut as low as that. -/
theorem min_mul_min_of_le {cap limit : Nat} (h : cap ≤ limit) (a b : Nat) :
    min (a * min b limit) cap = min (a * b) cap := by
  rcases Nat.eq_zero_or_pos a with rfl | ha
  · -- Nothing times anything is nothing, however large the factor is.
    simp
  · rcases Nat.le_total b limit with hb | hb
    · rw [Nat.min_eq_left hb]
    · -- Both products are at least as large as the factor that is cut.
      have hcut : cap ≤ a * limit := h.trans (Nat.le_mul_of_pos_left limit ha)
      have hwhole : cap ≤ a * b := (h.trans hb).trans (Nat.le_mul_of_pos_left b ha)
      rw [Nat.min_eq_right hb, Nat.min_eq_right hcut, Nat.min_eq_right hwhole]

theorem min_boundedProduct_of_le {cap : Nat} (h : cap ≤ maxWord64) (a b : Nat) :
    min (boundedProduct a b) cap = min (a * b) cap := by
  rw [boundedProduct, Nat.min_assoc, Nat.min_eq_right h]

/-! ## §2. The wait before a retry -/

namespace RetryOptions

/-- The longest wait has 64 bits. -/
theorem maxRetryDelay_le (o : RetryOptions) : o.maxRetryDelay.toNat ≤ maxWord64 :=
  Nat.le_pred_of_lt o.maxRetryDelay.toNat_lt

theorem delay_eq (o : RetryOptions) (retry : Nat) :
    o.delay retry = min (o.retryDelay.toNat * 2 ^ (retry - 1)) o.maxRetryDelay.toNat := by
  rw [delay, min_boundedProduct_of_le o.maxRetryDelay_le, boundedPowerOfTwo_eq,
    min_mul_min_of_le o.maxRetryDelay_le]

/-- Each wait is twice the one before it, up to the longest. -/
theorem delay_succ_succ (o : RetryOptions) (n : Nat) :
    o.delay (n + 2) = min (2 * o.delay (n + 1)) o.maxRetryDelay.toNat := by
  have hpow : o.retryDelay.toNat * 2 ^ (n + 1) = 2 * (o.retryDelay.toNat * 2 ^ n) := by
    rw [Nat.pow_succ, Nat.mul_comm (2 ^ n) 2, Nat.mul_left_comm]
  have hnext : o.delay (n + 2) = min (2 * (o.retryDelay.toNat * 2 ^ n)) o.maxRetryDelay.toNat := by
    rw [← hpow]
    exact o.delay_eq (n + 2)
  rw [hnext, o.delay_eq (n + 1), Nat.add_sub_cancel]
  omega

theorem delay_le_delay_succ (o : RetryOptions) (n : Nat) : o.delay n ≤ o.delay (n + 1) := by
  cases n with
  | zero => exact Nat.le_refl _
  | succ n =>
    rw [delay_succ_succ]
    have hcap := o.delay_le (n + 1)
    omega

/-- **The backoff is exact.** The wait before a retry is the first wait, doubled with each retry
before it and cut at the longest wait, as if there were no bound on numbers in between. So the
waits never get shorter, and none is longer than the longest. -/
theorem backoff_is_exact (o : RetryOptions) :
    (∀ n, o.delay (n + 1) = min (o.retryDelay.toNat * 2 ^ n) o.maxRetryDelay.toNat) ∧
      Monotone o.delay ∧ ∀ n, o.delay n ≤ o.maxRetryDelay.toNat :=
  ⟨fun n => o.delay_eq (n + 1), monotone_nat_of_le_succ o.delay_le_delay_succ, o.delay_le⟩

/-- Both cuts at 64 bits are reached here: the exact products are above the longest wait, or
nothing. -/
example :
    ({ retryDelay := 3, maxRetryDelay := 0xFFFFFFFFFFFFFFFF } : RetryOptions).delay 64 = maxWord64 ∧
      ({ retryDelay := 0, maxRetryDelay := 5 } : RetryOptions).delay 1000 = 0 := by
  decide

end RetryOptions

end HttpPipeline
