import TypedClient.Binary64.Shortest
import TypedClient.Proofs.Binary64.Rounding

/-!
# The shortest decimal reads back

The decimal that a finite number is written as is rounded to that number.  The search for it ends
with a neighbour that reads back, or else with the decimal of seventeen digits that is nearest to
the number, which is close enough to read back whatever the number.

* `Decimal.value`: the value of a decimal.
* `leadingPower_le`: the power of ten of the leading digit.
* `rounded_shortestFrom`: what the search ends with.
* `rounded_shortest`: the decimal of a number is rounded to the number.
-/

namespace TypedClient

/-- The value of a decimal. -/
def Decimal.value (decimal : Decimal) : ℚ := decimal.digits * 10 ^ decimal.power

namespace Binary64

variable {num den m : ℕ} {e power : ℤ}

/-! ## Quotients -/

theorem ratio_div (m : ℕ) (e : ℤ) : ((ratio m e).1 : ℚ) / (ratio m e).2 = m * 2 ^ e := by
  rw [ratio]
  split
  · rename_i hnonneg
    obtain ⟨k, rfl⟩ := Int.eq_ofNat_of_zero_le hnonneg
    show ((m * 2 ^ k : ℕ) : ℚ) / (1 : ℕ) = _
    push_cast
    rw [div_one, zpow_natCast]
  · rename_i hneg
    obtain ⟨k, rfl⟩ : ∃ k : ℕ, e = -(k : ℤ) := ⟨(-e).toNat, by omega⟩
    rw [neg_neg, Int.toNat_natCast]
    show (m : ℚ) / ((2 ^ k : ℕ) : ℚ) = _
    push_cast
    rw [zpow_neg, zpow_natCast, div_eq_mul_inv]

theorem ratio_pos (hm : 0 < m) (e : ℤ) : 0 < (ratio m e).1 ∧ 0 < (ratio m e).2 := by
  rw [ratio]
  split
  · exact ⟨Nat.mul_pos hm (Nat.pow_pos two_pos), one_pos⟩
  · exact ⟨hm, Nat.pow_pos two_pos⟩

theorem inTens_pos (num : ℕ) (hden : 0 < den) (power : ℤ) : 0 < (inTens num den power).2 := by
  rw [inTens]
  split
  · exact Nat.mul_pos hden (Nat.pow_pos (by norm_num))
  · exact hden

theorem inTens_div (num : ℕ) (hden : 0 < den) (power : ℤ) :
    ((inTens num den power).1 : ℚ) / (inTens num den power).2 = (num : ℚ) / den / 10 ^ power := by
  have hden' : (den : ℚ) ≠ 0 := by exact_mod_cast hden.ne'
  rw [inTens]
  split
  · rename_i hnonneg
    obtain ⟨k, rfl⟩ := Int.eq_ofNat_of_zero_le hnonneg
    show (num : ℚ) / ((den * 10 ^ k : ℕ) : ℚ) = _
    push_cast
    rw [zpow_natCast, div_div]
  · rename_i hneg
    obtain ⟨k, rfl⟩ : ∃ k : ℕ, power = -(k : ℤ) := ⟨(-power).toNat, by omega⟩
    rw [neg_neg, Int.toNat_natCast]
    show ((num * 10 ^ k : ℕ) : ℚ) / den = _
    push_cast
    rw [zpow_neg, zpow_natCast]
    field_simp

/-- The leading digit of a quotient stands at its leading power. -/
theorem leadingPower_le (hnum : 0 < num) (hden : 0 < den) :
    (10 : ℚ) ^ leadingPower num den ≤ num / den := by
  obtain ⟨hnumlow, -⟩ := pow_decimalLength_bounds hnum
  obtain ⟨-, hdenhigh⟩ := pow_decimalLength_bounds hden
  have hden' : (0 : ℚ) < den := by exact_mod_cast hden
  have hpos : (0 : ℚ) < (inTens num den (decimalLength num - decimalLength den)).2 := by
    exact_mod_cast inTens_pos num hden _
  rw [leadingPower]
  dsimp only
  split
  · rename_i hreach
    have hone : (1 : ℚ) ≤ num / den / 10 ^ (decimalLength num - decimalLength den : ℤ) := by
      rw [← inTens_div num hden, one_le_div hpos]
      exact_mod_cast hreach
    rw [one_le_div (zpow_ten_pos _)] at hone
    exact hone
  · rw [le_div_iff₀ hden']
    calc (10 : ℚ) ^ (decimalLength num - decimalLength den - 1 : ℤ) * den
        ≤ 10 ^ (decimalLength num - decimalLength den - 1 : ℤ) * 10 ^ (decimalLength den : ℤ) :=
          mul_le_mul_of_nonneg_left hdenhigh.le (zpow_ten_pos _).le
      _ = 10 ^ (decimalLength num - 1 : ℤ) := by
          rw [← zpow_add₀ (by norm_num)]
          congr 1
          ring
      _ ≤ num := hnumlow

/-! ## The search -/

/-- A neighbour that is chosen reads back. -/
theorem ofDecimal_of_neighbour? {x : Binary64} {decimal : Decimal}
    (h : neighbour? x num den power = some decimal) :
    ofDecimal false decimal.digits decimal.power = x := by
  rw [neighbour?] at h
  dsimp only at h
  -- whichever neighbour is tried first, the one that is chosen has passed the test
  split_ifs at h <;> exact Option.some_inj.mp h ▸ of_decide_eq_true ‹_›

/-- The nearest decimal of seventeen digits is rounded to the number. -/
theorem rounded_seventeen (hnumber : (finite false m e).IsNumber) (hm : 0 < m) (hden : 0 < den)
    (hvalue : (num : ℚ) / den = m * 2 ^ e) {lead : ℤ} (hlead : (10 : ℚ) ^ lead ≤ num / den) :
    rounded false (Decimal.value
      ⟨roundDiv (inTens num den (lead - 16)).1 (inTens num den (lead - 16)).2, lead - 16⟩) =
      .finite false m e := by
  have hten : (0 : ℚ) < 10 ^ (lead - 16) := zpow_ten_pos _
  have hx : (0 : ℚ) < num / den := (zpow_ten_pos lead).trans_le hlead
  have hgrid : (10 : ℚ) ^ (lead - 16) * 10 ^ 16 ≤ num / den := by
    have hshift : (10 : ℚ) ^ (lead - 16) * 10 ^ 16 = 10 ^ lead := by
      rw [← zpow_natCast, ← zpow_add₀ (by norm_num)]
      norm_num
    rw [hshift]
    exact hlead
  have hclose := abs_sub_nearest_le (div_nonneg hx.le hten.le)
  rw [roundDiv_eq_nearest _ (inTens_pos num hden _), inTens_div num hden]
  refine rounded_eq_finite hnumber hm ?_
  rw [Decimal.value, ← hvalue]
  generalize nearest ((num : ℚ) / den / 10 ^ (lead - 16)) = digits at hclose
  have hdist : |(digits : ℚ) * 10 ^ (lead - 16) - num / den| =
      |(num : ℚ) / den / 10 ^ (lead - 16) - digits| * 10 ^ (lead - 16) := by
    rw [abs_sub_comm, ← abs_of_pos hten, ← abs_mul, abs_of_pos hten, sub_mul,
      div_mul_cancel₀ _ hten.ne']
  rw [hdist]
  have hbound := mul_le_mul_of_nonneg_right hclose hten.le
  linarith

/-- Whatever the search ends with is rounded to the number. -/
theorem rounded_shortestFrom (hnumber : (finite false m e).IsNumber) (hm : 0 < m) (hden : 0 < den)
    (hvalue : (num : ℚ) / den = m * 2 ^ e) {lead : ℤ} (hlead : (10 : ℚ) ^ lead ≤ num / den)
    (tries count : ℕ) (hcount : tries + count = 17) :
    rounded false (shortestFrom (.finite false m e) num den lead tries count).value =
      .finite false m e := by
  induction tries generalizing count with
  | zero =>
    obtain rfl : count = 17 := by omega
    have hpower : lead - (17 : ℕ) + 1 = lead - 16 := by
      push_cast
      ring
    rw [shortestFrom, hpower]
    exact rounded_seventeen hnumber hm hden hvalue hlead
  | succ tries ih =>
    rw [shortestFrom]
    split
    · rename_i decimal hneighbour
      have hreads := ofDecimal_of_neighbour? hneighbour
      rw [ofDecimal_eq_rounded] at hreads
      exact hreads
    · exact ih (count + 1) (by omega)

/-- Dropping zeros keeps the value. -/
theorem value_dropZeros (fuel : ℕ) (decimal : Decimal) :
    (dropZeros fuel decimal).value = decimal.value := by
  induction fuel generalizing decimal with
  | zero => rfl
  | succ fuel ih =>
    obtain ⟨digits, power⟩ := decimal
    rw [dropZeros]
    split
    · rename_i hzero
      obtain ⟨k, rfl⟩ := Nat.dvd_of_mod_eq_zero hzero.2
      rw [ih, Decimal.value, Decimal.value, Nat.mul_div_cancel_left k (by norm_num)]
      push_cast
      rw [zpow_add_one₀ (by norm_num)]
      ring
    · rfl

/-- The decimal that a number is written as is rounded to the number. -/
theorem rounded_shortest (hnumber : (finite false m e).IsNumber) (hm : 0 < m) :
    rounded false (shortest m e).value = .finite false m e := by
  obtain ⟨hnum, hden⟩ := ratio_pos hm e
  rw [shortest]
  dsimp only
  rw [value_dropZeros]
  exact rounded_shortestFrom hnumber hm hden (ratio_div m e) (leadingPower_le hnum hden) 16 1 rfl

/-- The decimal that a number is written as is not zero. -/
theorem digits_shortest_pos (hnumber : (finite false m e).IsNumber) (hm : 0 < m) :
    0 < (shortest m e).digits := by
  refine Nat.pos_of_ne_zero fun hzero => ?_
  have hrounded := rounded_shortest hnumber hm
  rw [Decimal.value, hzero, Nat.cast_zero, zero_mul, rounded_zero] at hrounded
  exact hm.ne (Binary64.finite.inj hrounded).2.1

end Binary64

end TypedClient
