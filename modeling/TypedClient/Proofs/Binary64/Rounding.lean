import Mathlib.Algebra.Order.Floor.Semifield
import Mathlib.Data.Int.Log
import Mathlib.Data.Rat.Floor
import Mathlib.Tactic.FieldSimp
import Mathlib.Tactic.Linarith
import Mathlib.Tactic.Positivity
import TypedClient.Binary64

/-!
# Rounding to binary floating-point numbers

What the number nearest to an exact value is, said of the value itself: the exponent puts 53 binary
digits in front of the point, and the digits behind the point are rounded off, a tie going to the
even mantissa.  The operations compute this number from whole numbers, so that the number depends on
the value alone and not on how the value is written.

* `nearest`, `exponent`, `rounded`: the number nearest to a value.
* `ofRatio_eq_rounded`, `ofDecimal_eq_rounded`: what the operations compute.
* `IsNumber`, `isNumber_rounded`: the numbers that rounding gives.
* `rounded_eq_finite`: a value near enough to a number is rounded to it.
-/

namespace TypedClient.Binary64

variable {x : ℚ} {num den m : ℕ} {e : ℤ} {negative : Bool}

/-! ## The nearest whole number -/

/-- The whole number nearest to a value, on a tie the even one. -/
def nearest (x : ℚ) : ℕ :=
  if x - ⌊x⌋₊ < 1 / 2 then ⌊x⌋₊
  else if 1 / 2 < x - ⌊x⌋₊ then ⌊x⌋₊ + 1
  else if ⌊x⌋₊ % 2 = 0 then ⌊x⌋₊ else ⌊x⌋₊ + 1

/-- A rounded quotient is nearest to the exact one. -/
theorem roundDiv_eq_nearest (num : ℕ) (hden : 0 < den) :
    roundDiv num den = nearest ((num : ℚ) / den) := by
  have hden' : (0 : ℚ) < den := by exact_mod_cast hden
  have hfloor : ⌊(num : ℚ) / den⌋₊ = num / den := Nat.floor_div_eq_div num den
  have hrest : (num : ℚ) / den - (num / den : ℕ) = (num % den : ℕ) / den := by
    have hsplit : (num : ℚ) = den * (num / den : ℕ) + (num % den : ℕ) := by
      exact_mod_cast (Nat.div_add_mod num den).symm
    rw [eq_div_iff hden'.ne', sub_mul, div_mul_cancel₀ _ hden'.ne']
    linarith
  have hbelow : ((num % den : ℕ) : ℚ) / den < 1 / 2 ↔ 2 * (num % den) < den := by
    rw [div_lt_div_iff₀ hden' two_pos, one_mul, mul_comm]
    exact_mod_cast Iff.rfl
  have habove : 1 / 2 < ((num % den : ℕ) : ℚ) / den ↔ den < 2 * (num % den) := by
    rw [div_lt_div_iff₀ two_pos hden', one_mul, mul_comm _ (2 : ℚ)]
    exact_mod_cast Iff.rfl
  rw [nearest, hfloor, hrest, roundDiv]
  simp only [hbelow, habove, gt_iff_lt]

/-- A value less than one half away from a whole number is nearest to it. -/
theorem nearest_eq_of_abs_lt (h : |x - m| < 1 / 2) : nearest x = m := by
  obtain ⟨hlow, hhigh⟩ := abs_lt.mp h
  rcases le_or_gt (m : ℚ) x with hle | hlt
  · have hfloor : ⌊x⌋₊ = m :=
      (Nat.floor_eq_iff (le_trans (Nat.cast_nonneg m) hle)).mpr ⟨hle, by linarith⟩
    rw [nearest, hfloor, if_pos hhigh]
  · cases m with
    | zero =>
      rw [Nat.cast_zero] at hlt
      rw [nearest, Nat.floor_of_nonpos hlt.le, Nat.cast_zero, sub_zero, if_pos (by linarith)]
    | succ k =>
      push_cast at hlow hlt
      have hfloor : ⌊x⌋₊ = k :=
        (Nat.floor_eq_iff (by linarith [Nat.cast_nonneg (α := ℚ) k])).mpr
          ⟨by linarith, by linarith⟩
      rw [nearest, hfloor, if_neg (by linarith), if_pos (by linarith)]

/-- Whole bounds of a value bound the whole number that is nearest to it. -/
theorem nearest_le (h : x < m) : nearest x ≤ m := by
  rcases lt_or_ge x 0 with hneg | hnonneg
  · rw [nearest, Nat.floor_of_nonpos hneg.le, Nat.cast_zero, sub_zero, if_pos (by linarith)]
    exact Nat.zero_le m
  · have hfloor : ⌊x⌋₊ < m := (Nat.floor_lt hnonneg).mpr h
    rw [nearest]
    split_ifs <;> omega

theorem le_nearest (h : (m : ℚ) ≤ x) : m ≤ nearest x := by
  have hfloor : m ≤ ⌊x⌋₊ := Nat.le_floor h
  rw [nearest]
  split_ifs <;> omega

/-- The nearest whole number is at most one half away. -/
theorem abs_sub_nearest_le (h : 0 ≤ x) : |x - nearest x| ≤ 1 / 2 := by
  have hlow : (⌊x⌋₊ : ℚ) ≤ x := Nat.floor_le h
  have hhigh : x < ⌊x⌋₊ + 1 := Nat.lt_floor_add_one x
  rw [nearest]
  split_ifs <;> push_cast <;> rw [abs_le] <;> constructor <;> linarith

/-! ## The exponent -/

/-- The exponent at which a positive value has 53 binary digits in front of the point, or the least
exponent. -/
def exponent (x : ℚ) : ℤ := max minExponent (Int.log 2 x - 52)

theorem zpow_two_pos (e : ℤ) : (0 : ℚ) < 2 ^ e := zpow_pos two_pos e

theorem scaleBy_pos (num : ℕ) (hden : 0 < den) (e : ℤ) : 0 < (scaleBy num den e).2 := by
  rw [scaleBy]
  split
  · exact Nat.mul_pos hden (Nat.pow_pos two_pos)
  · exact hden

/-- The scaled quotient, as a value. -/
theorem scaleBy_div (num : ℕ) (hden : 0 < den) (e : ℤ) :
    ((scaleBy num den e).1 : ℚ) / (scaleBy num den e).2 = (num : ℚ) / den / 2 ^ e := by
  have hden' : (den : ℚ) ≠ 0 := by exact_mod_cast hden.ne'
  rw [scaleBy]
  split
  · rename_i hnonneg
    obtain ⟨k, rfl⟩ := Int.eq_ofNat_of_zero_le hnonneg
    show (num : ℚ) / ((den * 2 ^ k : ℕ) : ℚ) = _
    push_cast
    rw [zpow_natCast, div_div]
  · rename_i hneg
    obtain ⟨k, hk⟩ : ∃ k : ℕ, e = -(k : ℤ) := ⟨(-e).toNat, by omega⟩
    subst hk
    rw [neg_neg, Int.toNat_natCast]
    show ((num * 2 ^ k : ℕ) : ℚ) / den = _
    push_cast
    rw [zpow_neg, zpow_natCast]
    field_simp

/-- A scaled quotient reaches a power of two exactly if the quotient reaches the power scaled. -/
theorem pow_le_scaleBy_iff (hnum : 0 < num) (hden : 0 < den) (e : ℤ) (k : ℕ) :
    2 ^ k ≤ (scaleBy num den e).1 / (scaleBy num den e).2 ↔
      k + e ≤ Int.log 2 ((num : ℚ) / den) := by
  have hx : (0 : ℚ) < num / den := div_pos (by exact_mod_cast hnum) (by exact_mod_cast hden)
  have hpos : (0 : ℚ) < ((scaleBy num den e).2 : ℕ) := by
    exact_mod_cast scaleBy_pos num hden e
  calc 2 ^ k ≤ (scaleBy num den e).1 / (scaleBy num den e).2
      ↔ (2 : ℚ) ^ k ≤ ((scaleBy num den e).1 : ℚ) / (scaleBy num den e).2 := by
        rw [Nat.le_div_iff_mul_le (scaleBy_pos num hden e), le_div_iff₀ hpos]
        exact_mod_cast Iff.rfl
    _ ↔ (2 : ℚ) ^ (k + e : ℤ) ≤ num / den := by
        rw [scaleBy_div num hden, le_div_iff₀ (zpow_two_pos e), zpow_add₀ two_ne_zero, zpow_natCast]
    _ ↔ k + e ≤ Int.log 2 ((num : ℚ) / den) := Int.zpow_le_iff_le_log one_lt_two hx

/-- The numbers of binary digits give the exponent up to one. -/
theorem log_div_bounds (hnum : 0 < num) (hden : 0 < den) :
    (num.log2 : ℤ) - den.log2 - 1 ≤ Int.log 2 ((num : ℚ) / den) ∧
      Int.log 2 ((num : ℚ) / den) < (num.log2 : ℤ) - den.log2 + 1 := by
  have hden' : (0 : ℚ) < den := by exact_mod_cast hden
  have hx : (0 : ℚ) < num / den := div_pos (by exact_mod_cast hnum) hden'
  constructor
  · rw [← Int.zpow_le_iff_le_log one_lt_two hx, le_div_iff₀ hden']
    have hlow : (2 : ℚ) ^ num.log2 ≤ num := by exact_mod_cast Nat.log2_self_le hnum.ne'
    have hhigh : (den : ℚ) ≤ 2 ^ (den.log2 + 1) := by exact_mod_cast Nat.lt_log2_self.le
    calc (2 : ℚ) ^ ((num.log2 : ℤ) - den.log2 - 1) * den
        ≤ 2 ^ ((num.log2 : ℤ) - den.log2 - 1) * 2 ^ (den.log2 + 1) :=
          mul_le_mul_of_nonneg_left hhigh (zpow_two_pos _).le
      _ = 2 ^ num.log2 := by
          rw [← zpow_natCast, ← zpow_natCast, ← zpow_add₀ two_ne_zero]
          congr 1
          push_cast
          ring
      _ ≤ num := hlow
  · rw [← Int.lt_zpow_iff_log_lt one_lt_two hx, div_lt_iff₀ hden']
    have hlow : (2 : ℚ) ^ den.log2 ≤ den := by exact_mod_cast Nat.log2_self_le hden.ne'
    have hhigh : (num : ℚ) < 2 ^ (num.log2 + 1) := by exact_mod_cast Nat.lt_log2_self
    calc (num : ℚ) < 2 ^ (num.log2 + 1) := hhigh
      _ = 2 ^ ((num.log2 : ℤ) - den.log2 + 1) * 2 ^ den.log2 := by
          rw [← zpow_natCast, ← zpow_natCast, ← zpow_add₀ two_ne_zero]
          congr 1
          push_cast
          ring
      _ ≤ 2 ^ ((num.log2 : ℤ) - den.log2 + 1) * den :=
          mul_le_mul_of_nonneg_left hlow (zpow_two_pos _).le

/-- The exponent that is computed from the numbers of digits. -/
theorem exponentOf_eq_exponent (hnum : 0 < num) (hden : 0 < den) :
    exponentOf num den = exponent ((num : ℚ) / den) := by
  obtain ⟨hlow, hhigh⟩ := log_div_bounds hnum hden
  have hreach := pow_le_scaleBy_iff hnum hden
    (max minExponent ((num.log2 : ℤ) - den.log2 - 53)) 53
  have hmin : minExponent = -1074 := rfl
  rw [exponentOf, exponent]
  dsimp only
  split
  · rename_i hle
    have hlog := hreach.mp hle
    omega
  · rename_i hnot
    have hlog := mt hreach.mpr hnot
    omega

/-! ## The nearest number -/

/-- A number from its rounded mantissa; one that has become too long is carried over, and behind the
greatest exponent there is infinity. -/
def finish (negative : Bool) (m : ℕ) (e : ℤ) : Binary64 :=
  let (m, e) := if m = Nat.pow 2 53 then (Nat.pow 2 52, e + 1) else (m, e)
  if e > maxExponent then .inf negative else .finite negative m e

theorem finish_of_ne (h : m ≠ 2 ^ 53) :
    finish negative m e = if e > maxExponent then .inf negative else .finite negative m e := by
  rw [finish, Nat.pow_eq, if_neg h]

theorem finish_carry :
    finish negative (2 ^ 53) e =
      if e + 1 > maxExponent then .inf negative else .finite negative (2 ^ 52) (e + 1) := rfl

/-- The number nearest to `± x`. -/
def rounded (negative : Bool) (x : ℚ) : Binary64 :=
  if x ≤ 0 then zero negative
  else finish negative (nearest (x / 2 ^ exponent x)) (exponent x)

theorem rounded_of_pos (hx : 0 < x) :
    rounded negative x = finish negative (nearest (x / 2 ^ exponent x)) (exponent x) := by
  rw [rounded, if_neg (not_le.mpr hx)]

theorem rounded_zero : rounded negative 0 = zero negative := by
  rw [rounded, if_pos le_rfl]

/-- The sign of a rounded value is the given one. -/
theorem rounded_of_sign (h : rounded false x = .finite false m e) :
    rounded negative x = .finite negative m e := by
  have hfinish : ∀ k f, finish false k f = .finite false m e →
      finish negative k f = .finite negative m e := by
    intro k f hk
    by_cases hcarry : k = 2 ^ 53
    · rw [hcarry, finish_carry] at hk ⊢
      split at hk
      · cases hk
      · rename_i hle
        cases hk
        rw [if_neg hle]
    · rw [finish_of_ne hcarry] at hk ⊢
      split at hk
      · cases hk
      · rename_i hle
        cases hk
        rw [if_neg hle]
  rw [rounded] at h ⊢
  split at h
  · rename_i hle
    rw [if_pos hle]
    cases h
    rfl
  · rename_i hlt
    rw [if_neg hlt]
    exact hfinish _ _ h

/-- A quotient of whole numbers is rounded to the number nearest to its value. -/
theorem ofRatio_eq_rounded (negative : Bool) (num : ℕ) (hden : 0 < den) :
    ofRatio negative num den = rounded negative ((num : ℚ) / den) := by
  rw [ofRatio]
  split
  · rename_i hzero
    rw [hzero, Nat.cast_zero, zero_div, rounded_zero]
  · rename_i hne
    have hnum : 0 < num := Nat.pos_of_ne_zero hne
    rw [rounded_of_pos (div_pos (by exact_mod_cast hnum) (by exact_mod_cast hden)),
      ← exponentOf_eq_exponent hnum hden, ← scaleBy_div num hden,
      ← roundDiv_eq_nearest _ (scaleBy_pos num hden _)]
    rfl

/-- A value of at least `2 ^ 1024` is rounded to infinity. -/
theorem rounded_of_le (h : (2 : ℚ) ^ (1024 : ℤ) ≤ x) : rounded negative x = .inf negative := by
  have hx : 0 < x := lt_of_lt_of_le (zpow_two_pos _) h
  have hlog : 1024 ≤ Int.log 2 x := (Int.zpow_le_iff_le_log one_lt_two hx).mp h
  have hmin : minExponent = -1074 := rfl
  have hmax : maxExponent = 971 := rfl
  rw [rounded_of_pos hx, finish]
  dsimp only
  rw [exponent, if_pos]
  split <;> omega

/-- A positive value below `2 ^ -1075` is rounded to zero. -/
theorem rounded_of_lt (hx : 0 < x) (h : x < (2 : ℚ) ^ (-1075 : ℤ)) :
    rounded negative x = zero negative := by
  have hlog : Int.log 2 x < -1075 := (Int.lt_zpow_iff_log_lt one_lt_two hx).mp h
  have hmin : minExponent = -1074 := rfl
  have hexp : exponent x = minExponent := by
    rw [exponent]
    omega
  have hnearest : nearest (x / 2 ^ minExponent) = 0 := by
    refine nearest_eq_of_abs_lt ?_
    rw [Nat.cast_zero, sub_zero, abs_of_pos (div_pos hx (zpow_two_pos _)),
      div_lt_iff₀ (zpow_two_pos _), hmin]
    calc x < (2 : ℚ) ^ (-1075 : ℤ) := h
      _ = 1 / 2 * 2 ^ (-1074 : ℤ) := by
        rw [show (-1075 : ℤ) = -1 + -1074 by norm_num, zpow_add₀ two_ne_zero, zpow_neg_one,
          one_div]
  rw [rounded_of_pos hx, hexp, hnearest]
  rfl

/-! ## Decimals -/

theorem zpow_ten_pos (k : ℤ) : (0 : ℚ) < 10 ^ k := zpow_pos (by norm_num) k

/-- The number of decimal digits of a positive whole number. -/
theorem pow_decimalLength_bounds {n : ℕ} (hn : 0 < n) :
    (10 : ℚ) ^ (decimalLength n - 1 : ℤ) ≤ n ∧ (n : ℚ) < 10 ^ (decimalLength n : ℤ) := by
  have hpos : 0 < decimalLength n := Nat.length_toDigits_pos
  have hhigh : n < 10 ^ decimalLength n :=
    (Nat.length_toDigits_le_iff (by norm_num) hpos).mp le_rfl
  have hlow : 10 ^ (decimalLength n - 1) ≤ n := by
    rcases Nat.eq_zero_or_pos (decimalLength n - 1) with hzero | hmore
    · rw [hzero, pow_zero]
      exact hn
    · refine not_lt.mp fun hlt => ?_
      have hle := (Nat.length_toDigits_le_iff (by norm_num) hmore).mpr hlt
      rw [decimalLength] at hpos hle
      omega
  constructor
  · rw [show (decimalLength n - 1 : ℤ) = (decimalLength n - 1 : ℕ) by omega, zpow_natCast]
    exact_mod_cast hlow
  · rw [zpow_natCast]
    exact_mod_cast hhigh

/-- The value of a decimal with a magnitude. -/
theorem decimal_bounds {digits : ℕ} (hdigits : 0 < digits) (power : ℤ) :
    (10 : ℚ) ^ (power + decimalLength digits - 1) ≤ digits * 10 ^ power ∧
      (digits : ℚ) * 10 ^ power < 10 ^ (power + decimalLength digits) := by
  obtain ⟨hlow, hhigh⟩ := pow_decimalLength_bounds hdigits
  have hten : (10 : ℚ) ≠ 0 := by norm_num
  constructor
  · rw [show power + decimalLength digits - 1 = (decimalLength digits - 1 : ℤ) + power by ring,
      zpow_add₀ hten]
    exact mul_le_mul_of_nonneg_right hlow (zpow_ten_pos power).le
  · rw [add_comm, zpow_add₀ hten]
    exact mul_lt_mul_of_pos_right hhigh (zpow_ten_pos power)

theorem two_pow_le_ten_pow : (2 : ℚ) ^ (1024 : ℤ) ≤ 10 ^ (309 : ℤ) := by
  exact_mod_cast (by decide +kernel : 2 ^ 1024 ≤ 10 ^ 309)

theorem ten_pow_lt_two_pow : (10 : ℚ) ^ (-324 : ℤ) < 2 ^ (-1075 : ℤ) := by
  rw [zpow_neg, zpow_neg, inv_lt_inv₀ (zpow_ten_pos _) (zpow_two_pos _)]
  exact_mod_cast (by decide +kernel : 2 ^ 1075 < 10 ^ 324)

/-- A decimal is rounded to the number nearest to its value. -/
theorem ofDecimal_eq_rounded (negative : Bool) (digits : ℕ) (power : ℤ) :
    ofDecimal negative digits power = rounded negative ((digits : ℚ) * 10 ^ power) := by
  rw [ofDecimal]
  split
  · rename_i hzero
    rw [hzero, Nat.cast_zero, zero_mul, rounded_zero]
  · rename_i hne
    have hdigits : 0 < digits := Nat.pos_of_ne_zero hne
    obtain ⟨hlow, hhigh⟩ := decimal_bounds hdigits power
    have hten : (1 : ℚ) ≤ 10 := by norm_num
    dsimp only
    split
    · rename_i hlarge
      refine (rounded_of_le ?_).symm
      exact two_pow_le_ten_pow.trans ((zpow_le_zpow_right₀ hten (by omega)).trans hlow)
    · split
      · rename_i hsmall
        refine (rounded_of_lt (mul_pos (by exact_mod_cast hdigits) (zpow_ten_pos _)) ?_).symm
        exact hhigh.trans ((zpow_le_zpow_right₀ hten (by omega)).trans_lt ten_pow_lt_two_pow)
      · split
        · rename_i hnonneg
          obtain ⟨k, rfl⟩ := Int.eq_ofNat_of_zero_le hnonneg
          rw [ofRatio_eq_rounded _ _ one_pos, Nat.cast_one, div_one, Int.toNat_natCast,
            zpow_natCast, Nat.pow_eq]
          push_cast
          rfl
        · rename_i hneg
          obtain ⟨k, rfl⟩ : ∃ k : ℕ, power = -(k : ℤ) := ⟨(-power).toNat, by omega⟩
          rw [neg_neg, Int.toNat_natCast, Nat.pow_eq,
            ofRatio_eq_rounded _ _ (Nat.pow_pos (by norm_num)), zpow_neg, zpow_natCast,
            ← div_eq_mul_inv]
          push_cast
          rfl

/-! ## The numbers that rounding gives -/

/-- A finite number with at most 53 binary digits, and with no fewer unless its exponent is the
least. -/
def IsNumber : Binary64 → Prop
  | .finite _ m e => m < 2 ^ 53 ∧ minExponent ≤ e ∧ e ≤ maxExponent ∧ (e = minExponent ∨ 2 ^ 52 ≤ m)
  | _ => False

theorem isNumber_zero (negative : Bool) : (zero negative).IsNumber := by
  refine ⟨?_, le_rfl, ?_, Or.inl rfl⟩ <;> decide

theorem isNumber_finish (hm : m ≤ 2 ^ 53) (hleast : minExponent ≤ e)
    (hlong : e = minExponent ∨ 2 ^ 52 ≤ m) :
    finish negative m e = .inf negative ∨ (finish negative m e).IsNumber := by
  by_cases hcarry : m = 2 ^ 53
  · rw [hcarry, finish_carry]
    split
    · exact Or.inl rfl
    · rename_i hgreatest
      exact Or.inr ⟨by decide, by omega, not_lt.mp hgreatest, Or.inr le_rfl⟩
  · rw [finish_of_ne hcarry]
    split
    · exact Or.inl rfl
    · rename_i hgreatest
      exact Or.inr ⟨by omega, hleast, not_lt.mp hgreatest, hlong⟩

/-- Rounding gives a finite number, or infinity. -/
theorem isNumber_rounded (negative : Bool) (x : ℚ) :
    rounded negative x = .inf negative ∨ (rounded negative x).IsNumber := by
  rcases le_or_gt x 0 with hle | hx
  · rw [rounded, if_pos hle]
    exact Or.inr (isNumber_zero negative)
  · have hexp : exponent x = max minExponent (Int.log 2 x - 52) := rfl
    have hhigh : nearest (x / 2 ^ exponent x) ≤ 2 ^ 53 := by
      refine nearest_le ?_
      rw [div_lt_iff₀ (zpow_two_pos _)]
      calc x < (2 : ℚ) ^ (53 + exponent x) :=
            (Int.lt_zpow_iff_log_lt one_lt_two hx).mpr (by omega)
        _ = _ := by
          rw [zpow_add₀ two_ne_zero]
          norm_num
    have hlow : exponent x = minExponent ∨ 2 ^ 52 ≤ nearest (x / 2 ^ exponent x) := by
      by_cases hmin : exponent x = minExponent
      · exact Or.inl hmin
      · refine Or.inr (le_nearest ?_)
        rw [le_div_iff₀ (zpow_two_pos _)]
        calc _ = (2 : ℚ) ^ (52 + exponent x) := by
              rw [zpow_add₀ two_ne_zero]
              norm_num
          _ ≤ x := (Int.zpow_le_iff_le_log one_lt_two hx).mpr (by omega)
    rw [rounded_of_pos hx]
    exact isNumber_finish hhigh (le_max_left _ _) hlow

section

variable {t : ℚ}

/-- The logarithm of a value in units of `2 ^ e`. -/
theorem add_le_log_iff (ht : 0 < t) (k : ℕ) (e : ℤ) :
    k + e ≤ Int.log 2 (t * 2 ^ e) ↔ (2 : ℚ) ^ k ≤ t := by
  rw [← Int.zpow_le_iff_le_log one_lt_two (mul_pos ht (zpow_two_pos e))]
  show (2 : ℚ) ^ (k + e : ℤ) ≤ _ ↔ _
  rw [zpow_add₀ two_ne_zero, zpow_natCast, mul_le_mul_iff_left₀ (zpow_two_pos e)]

/-- A value that is closer to `m * 2 ^ e` than its 54th digit, in units of `2 ^ e`. -/
theorem exists_units (hm : 0 < m) (hnear : |x - m * 2 ^ e| * 2 ^ 54 < m * 2 ^ e) :
    ∃ t : ℚ, x = t * 2 ^ e ∧ 0 < t ∧ |t - m| < m / 2 ^ 54 := by
  have hu : (0 : ℚ) < 2 ^ e := zpow_two_pos e
  have hm' : (1 : ℚ) ≤ m := by exact_mod_cast hm
  obtain ⟨t, rfl⟩ : ∃ t, x = t * 2 ^ e := ⟨x / 2 ^ e, (div_mul_cancel₀ x hu.ne').symm⟩
  have hdist : |t - m| < m / 2 ^ 54 := by
    rw [← sub_mul, abs_mul, abs_of_pos hu, mul_right_comm] at hnear
    rw [lt_div_iff₀ (by norm_num)]
    exact lt_of_mul_lt_mul_right hnear hu.le
  have hsmall : (m : ℚ) / 2 ^ 54 ≤ m := div_le_self (by linarith) (by norm_num)
  have hlow := (abs_lt.mp hdist).1
  exact ⟨t, rfl, by linarith, hdist⟩

/-- A value that has the exponent of a number, and is nearest to it. -/
theorem rounded_same (ht : 0 < t) (hexp : exponent (t * 2 ^ e) = e) (hhalf : |t - m| < 1 / 2)
    (hm : m < 2 ^ 53) (he : e ≤ maxExponent) :
    rounded negative (t * 2 ^ e) = .finite negative m e := by
  have hu := zpow_two_pos e
  rw [rounded_of_pos (mul_pos ht hu), hexp, mul_div_cancel_right₀ _ hu.ne',
    nearest_eq_of_abs_lt hhalf, finish_of_ne (by omega), if_neg (not_lt.mpr he)]

/-- A value that has the exponent below that of a number, and is carried over to it. -/
theorem rounded_carried (ht : 0 < t) (hexp : exponent (t * 2 ^ e) = e - 1)
    (hhalf : |2 * t - (2 ^ 53 : ℕ)| < 1 / 2) (he : e ≤ maxExponent) :
    rounded negative (t * 2 ^ e) = .finite negative (2 ^ 52) e := by
  have hdouble : t * 2 ^ e / 2 ^ (e - 1) = 2 * t := by
    rw [zpow_sub_one₀ two_ne_zero]
    field_simp
  rw [rounded_of_pos (mul_pos ht (zpow_two_pos e)), hexp, hdouble, nearest_eq_of_abs_lt hhalf,
    finish_carry, sub_add_cancel, if_neg (not_lt.mpr he)]

end

/-- A value that is closer to a number than its 54th digit is rounded to it. -/
theorem rounded_eq_finite (hnumber : (finite negative m e).IsNumber) (hm : 0 < m)
    (hnear : |x - m * 2 ^ e| * 2 ^ 54 < m * 2 ^ e) :
    rounded negative x = .finite negative m e := by
  obtain ⟨hshort, hleast, hgreatest, hlong⟩ := hnumber
  obtain ⟨t, rfl, ht, hdist⟩ := exists_units hm hnear
  obtain ⟨hlow, hhigh⟩ := abs_lt.mp hdist
  have hshort' : (m : ℚ) ≤ 2 ^ 53 - 1 := by
    rw [le_sub_iff_add_le]
    exact_mod_cast hshort
  have hupper : ¬ (53 : ℕ) + e ≤ Int.log 2 (t * 2 ^ e) := by
    rw [add_le_log_iff ht, not_le]
    linarith
  have hexp : exponent (t * 2 ^ e) = max minExponent (Int.log 2 (t * 2 ^ e) - 52) := rfl
  by_cases hsame : e = minExponent ∨ (2 : ℚ) ^ 52 ≤ t
  · -- the value has the exponent of the number
    have heq : exponent (t * 2 ^ e) = e := by
      rcases hsame with hmin | hreach
      · omega
      · have hlower := (add_le_log_iff ht 52 e).mpr hreach
        omega
    refine rounded_same ht heq ?_ hshort hgreatest
    rw [abs_lt]
    constructor <;> linarith
  · -- the number is the least with its exponent, and the value is carried over to it
    obtain ⟨hmin, hreach⟩ := not_or.mp hsame
    rw [not_le] at hreach
    obtain rfl : m = 2 ^ 52 := by
      have hlong := hlong.resolve_left hmin
      have hlt : (m : ℚ) < 2 ^ 52 + 1 := by linarith
      have hlt' : m < 2 ^ 52 + 1 := by exact_mod_cast hlt
      omega
    push_cast at hlow hhigh
    have heq : exponent (t * 2 ^ e) = e - 1 := by
      have hlower := (add_le_log_iff ht 51 e).mpr (by linarith)
      have hnot := mt (add_le_log_iff ht 52 e).mp (not_le.mpr hreach)
      omega
    refine rounded_carried ht heq ?_ hgreatest
    push_cast
    rw [abs_lt]
    constructor <;> linarith

end TypedClient.Binary64
