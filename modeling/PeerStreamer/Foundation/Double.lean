import Mathlib.Data.Int.Log
import Mathlib.Data.Rat.Floor
import Mathlib.Tactic

/-!
# Rounding to doubles

A `double` is a rational `m · 2 ^ (e - 52)`, and an operation on doubles stores the one nearest to
the exact result, of two equally near ones the one with an even `m`.  `toDouble` is this rounding.
Results beyond the largest double, which become infinite, are not covered.

To round a given number it is enough to guess `m` and `e` (`toDouble_eq_of_near`); integers below
`2 ^ 53` are kept (`toDouble_natCast`).
-/

namespace PeerStreamer

/-- The nearest integer, and of two the even one. -/
def roundHalfEven (x : ℚ) : ℤ :=
  if x - ⌊x⌋ < 1 / 2 ∨ x - ⌊x⌋ = 1 / 2 ∧ Even ⌊x⌋ then ⌊x⌋ else ⌊x⌋ + 1

/-- The distance of the doubles around `x`: 53 digits of precision, down to the smallest double. -/
def ulp (x : ℚ) : ℚ := 2 ^ max (Int.log 2 |x| - 52) (-1074)

/-- The double nearest to `x`. -/
def toDouble (x : ℚ) : ℚ := roundHalfEven (x / ulp x) * ulp x

section Rounding

variable {x : ℚ} {m e : ℤ}

/-- An integer that is nearer than a half is the nearest one. -/
lemma roundHalfEven_eq (h : |x - m| < 1 / 2) : roundHalfEven x = m := by
  obtain ⟨hlo, hhi⟩ := abs_lt.mp h
  rw [roundHalfEven]
  rcases lt_or_ge x m with hx | hx
  · -- just below `m`, which is rounded up to
    have hfloor : ⌊x⌋ = m - 1 :=
      Int.floor_eq_iff.mpr ⟨by push_cast; linarith, by push_cast; linarith⟩
    rw [if_neg, hfloor, sub_add_cancel]
    rw [hfloor]
    push_cast
    rintro (h | ⟨h, -⟩) <;> linarith
  · have hfloor : ⌊x⌋ = m := Int.floor_eq_iff.mpr ⟨hx, by linarith⟩
    rw [if_pos (Or.inl (by rw [hfloor]; linarith)), hfloor]

/-- The distance of the doubles with a given exponent. -/
lemma ulp_eq (he : -1022 ≤ e) (hlo : 2 ^ e ≤ |x|) (hhi : |x| < 2 ^ (e + 1)) :
    ulp x = 2 ^ (e - 52) := by
  have hx : 0 < |x| := lt_of_lt_of_le (by positivity) hlo
  have hlog : Int.log 2 |x| = e := by
    have hle := (Int.zpow_le_iff_le_log one_lt_two hx).mp (by exact_mod_cast hlo)
    have hlt := (Int.lt_zpow_iff_log_lt one_lt_two hx).mp (by exact_mod_cast hhi)
    omega
  rw [ulp, hlog, max_eq_left (by omega)]

/-- **Rounding a given number**: a double that is nearer than half the distance of the doubles
there. -/
theorem toDouble_eq_of_near (he : -1022 ≤ e) (hlo : 2 ^ e ≤ |x|) (hhi : |x| < 2 ^ (e + 1))
    (hnear : |x - m * 2 ^ (e - 52)| < 2 ^ (e - 52) / 2) : toDouble x = m * 2 ^ (e - 52) := by
  have hulp : (0 : ℚ) < 2 ^ (e - 52) := by positivity
  have hround : roundHalfEven (x / 2 ^ (e - 52)) = m := by
    refine roundHalfEven_eq ?_
    rw [show x / 2 ^ (e - 52) - m = (x - m * 2 ^ (e - 52)) / 2 ^ (e - 52) by
      rw [sub_div, mul_div_cancel_right₀ _ hulp.ne'], abs_div, abs_of_pos hulp,
      div_lt_iff₀ hulp]
    linarith
  rw [toDouble, ulp_eq he hlo hhi, hround]

/-- **Integers of at most 53 digits** are doubles. -/
theorem toDouble_natCast {n : ℕ} (hn : n < 2 ^ 53) : toDouble n = n := by
  rcases Nat.eq_zero_or_pos n with rfl | hpos
  · have hzero : roundHalfEven 0 = 0 := roundHalfEven_eq (by norm_num)
    simp [toDouble, hzero]
  · have hlo : 2 ^ Nat.log 2 n ≤ n := Nat.pow_log_le_self 2 hpos.ne'
    have hhi : n < 2 ^ (Nat.log 2 n + 1) := Nat.lt_pow_succ_log_self one_lt_two n
    have hlog : Nat.log 2 n ≤ 52 :=
      Nat.lt_succ_iff.mp ((Nat.log_lt_iff_lt_pow one_lt_two hpos.ne').mpr hn)
    obtain ⟨k, hk⟩ := Nat.exists_eq_add_of_le hlog
    -- the digits below the point are all zero
    have hm : ((n * 2 ^ k : ℕ) : ℚ) * 2 ^ ((Nat.log 2 n : ℤ) - 52) = n := by
      rw [show ((Nat.log 2 n : ℤ) - 52) = -(k : ℤ) by omega, zpow_neg, zpow_natCast]
      push_cast
      field_simp
    have habs : |(n : ℚ)| = n := abs_of_nonneg (Nat.cast_nonneg n)
    have h := toDouble_eq_of_near (x := n) (m := (n * 2 ^ k : ℕ)) (e := Nat.log 2 n) (by omega)
      (by rw [habs, zpow_natCast]; exact_mod_cast hlo)
      (by rw [habs]; exact_mod_cast hhi)
      (by rw [Int.cast_natCast, hm, sub_self, abs_zero]; positivity)
    rw [h, Int.cast_natCast, hm]

end Rounding

end PeerStreamer
