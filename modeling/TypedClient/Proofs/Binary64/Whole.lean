import TypedClient.Proofs.Binary64.Rounding

/-!
# Whole numbers as binary floating-point numbers

A binary floating-point number has 53 binary digits, so a whole number is the value of one exactly
if no more digits than that stand in front of its zeros, and it is below `2 ^ 1024`.  Any other
whole number is rounded to a number with another value, or to infinity.

* `value?`: the value of a finite number.
* `HoldsWhole`: the whole numbers that are values.
* `value?_rounded_iff`: a whole number is rounded to a number with its value exactly if it is one of
  them.
-/

namespace TypedClient.Binary64

variable {m n : ℕ} {e : ℤ} {i : ℤ}

/-- The value of a finite number. -/
def value? : Binary64 → Option ℚ
  | .finite negative m e => some ((if negative then -1 else 1) * (m * 2 ^ e))
  | _ => none

/-- The whole number has at most 53 binary digits in front of its zeros, and at most 1024 in all. -/
def HoldsWhole (i : ℤ) : Prop := ∃ m e : ℕ, m < 2 ^ 53 ∧ e ≤ 971 ∧ i.natAbs = m * 2 ^ e

/-- A positive mantissa can be shifted until it has 53 binary digits. -/
theorem exists_shifted (hm : 0 < m) (hshort : m < 2 ^ 53) :
    ∃ k : ℕ, k ≤ 52 ∧ 2 ^ 52 ≤ m * 2 ^ k ∧ m * 2 ^ k < 2 ^ 53 := by
  have hlow : 2 ^ m.log2 ≤ m := Nat.log2_self_le hm.ne'
  have hhigh : m < 2 ^ (m.log2 + 1) := Nat.lt_log2_self
  have hlog : m.log2 < 53 := (Nat.log2_lt hm.ne').mpr hshort
  refine ⟨52 - m.log2, Nat.sub_le _ _, ?_, ?_⟩
  · calc 2 ^ 52 = 2 ^ m.log2 * 2 ^ (52 - m.log2) := by
          rw [← pow_add, Nat.add_sub_cancel' (by omega)]
      _ ≤ m * 2 ^ (52 - m.log2) := Nat.mul_le_mul_right _ hlow
  · calc m * 2 ^ (52 - m.log2) < 2 ^ (m.log2 + 1) * 2 ^ (52 - m.log2) :=
          Nat.mul_lt_mul_of_pos_right hhigh (Nat.two_pow_pos _)
      _ = 2 ^ 53 := by
          rw [← pow_add]
          congr 1
          omega

/-- A whole number that is a value is rounded to a number with this value. -/
theorem exists_rounded_of_holdsWhole (h : HoldsWhole i) (negative : Bool) :
    ∃ m e, rounded negative (i.natAbs : ℚ) = .finite negative m e ∧
      (m : ℚ) * 2 ^ e = i.natAbs := by
  obtain ⟨m, e, hshort, hgreatest, habs⟩ := h
  rcases Nat.eq_zero_or_pos m with rfl | hm
  · rw [habs, zero_mul, Nat.cast_zero, rounded_zero]
    exact ⟨0, minExponent, rfl, by rw [Nat.cast_zero, zero_mul]⟩
  · obtain ⟨k, hk, hlong, hshifted⟩ := exists_shifted hm hshort
    have hmin : minExponent = -1074 := rfl
    have hmax : maxExponent = 971 := rfl
    have hnumber : (finite negative (m * 2 ^ k) (e - k)).IsNumber :=
      ⟨hshifted, by omega, by omega, Or.inr hlong⟩
    have hvalue : ((m * 2 ^ k : ℕ) : ℚ) * 2 ^ (e - k : ℤ) = i.natAbs := by
      rw [habs, zpow_sub₀ two_ne_zero, zpow_natCast, zpow_natCast]
      push_cast
      field_simp
    refine ⟨m * 2 ^ k, e - k, rounded_eq_finite hnumber (Nat.mul_pos hm (Nat.two_pow_pos k)) ?_,
      hvalue⟩
    rw [hvalue, sub_self, abs_zero, zero_mul, habs]
    exact_mod_cast Nat.mul_pos hm (Nat.two_pow_pos e)

/-- A number whose value is a whole number has it in 53 binary digits and zeros behind them. -/
theorem holdsWhole_of_value {negative : Bool} (hnumber : (finite negative m e).IsNumber)
    (hvalue : (m : ℚ) * 2 ^ e = i.natAbs) : HoldsWhole i := by
  obtain ⟨hshort, -, hgreatest, -⟩ := hnumber
  have hmax : maxExponent = 971 := rfl
  rcases le_or_gt 0 e with hnonneg | hneg
  · obtain ⟨k, rfl⟩ := Int.eq_ofNat_of_zero_le hnonneg
    rw [zpow_natCast] at hvalue
    exact ⟨m, k, hshort, by omega, by exact_mod_cast hvalue.symm⟩
  · -- the whole number is a part of the mantissa
    obtain ⟨k, rfl⟩ : ∃ k : ℕ, e = -(k : ℤ) := ⟨(-e).toNat, by omega⟩
    rw [zpow_neg, zpow_natCast, mul_inv_eq_iff_eq_mul₀ (by positivity)] at hvalue
    have hmantissa : m = i.natAbs * 2 ^ k := by exact_mod_cast hvalue
    have hle : i.natAbs ≤ m := by
      rw [hmantissa]
      exact Nat.le_mul_of_pos_right _ (Nat.two_pow_pos k)
    exact ⟨i.natAbs, 0, by omega, by omega, by rw [pow_zero, mul_one]⟩

/-- A number with a whole value is finite, and its magnitude is that of the value. -/
theorem exists_finite_of_value? {x : Binary64} (h : x.value? = some (i : ℚ)) :
    ∃ negative m e, x = .finite negative m e ∧ (m : ℚ) * 2 ^ e = i.natAbs := by
  cases x with
  | nan => cases h
  | inf negative => cases h
  | finite negative m e =>
    have hvalue := congrArg abs (Option.some_inj.mp h)
    have hmagnitude : (0 : ℚ) ≤ m * 2 ^ e := mul_nonneg (Nat.cast_nonneg m) (zpow_two_pos e).le
    have hunit : |(if negative then -1 else 1 : ℚ)| = 1 := by
      cases negative <;> norm_num
    rw [abs_mul, hunit, one_mul, abs_of_nonneg hmagnitude, ← Int.cast_abs, ← Nat.cast_natAbs]
      at hvalue
    exact ⟨negative, m, e, rfl, hvalue⟩

/-- A whole number is its magnitude with its sign. -/
theorem sign_mul_natAbs (i : ℤ) : (if decide (i < 0) then -1 else 1 : ℚ) * i.natAbs = i := by
  rw [Nat.cast_natAbs]
  rcases lt_or_ge i 0 with hneg | hnonneg
  · rw [if_pos (decide_eq_true hneg), abs_of_neg hneg]
    push_cast
    ring
  · rw [decide_eq_false (not_lt.mpr hnonneg), if_neg Bool.false_ne_true, abs_of_nonneg hnonneg,
      one_mul]

/-- A whole number is rounded to a number with its value exactly if it is the value of one. -/
theorem value?_rounded_iff (i : ℤ) :
    (rounded (decide (i < 0)) (i.natAbs : ℚ)).value? = some (i : ℚ) ↔ HoldsWhole i := by
  constructor
  · intro h
    obtain ⟨negative, m, e, hfinite, hvalue⟩ := exists_finite_of_value? h
    rcases isNumber_rounded (decide (i < 0)) (i.natAbs : ℚ) with hinf | hnumber
    · rw [hfinite] at hinf
      cases hinf
    · rw [hfinite] at hnumber
      exact holdsWhole_of_value hnumber hvalue
  · intro h
    obtain ⟨m, e, hrounded, hvalue⟩ := exists_rounded_of_holdsWhole h (decide (i < 0))
    rw [hrounded, value?, hvalue, sign_mul_natAbs]

/-- `2 ^ 53 + 1` is no value. -/
theorem not_holdsWhole_succ : ¬ HoldsWhole (2 ^ 53 + 1) := by
  rintro ⟨m, e, hm, -, habs⟩
  have hodd : (2 ^ 53 + 1 : ℤ).natAbs = 2 ^ 53 + 1 := by decide
  rw [hodd] at habs
  cases e with
  | zero => omega
  | succ e =>
    have heven : m * 2 ^ (e + 1) = 2 * (m * 2 ^ e) := by ring
    omega

end TypedClient.Binary64
