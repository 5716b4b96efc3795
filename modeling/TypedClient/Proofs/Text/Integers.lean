import Mathlib.Data.List.TakeWhile
import TypedClient.Proofs.Script.Numeral
import TypedClient.Text.Digits

/-!
# Texts that are read as whole numbers

A whole number may be written in many ways.  White space may stand around it and a sign in front,
the digits may be those of any script, zeros may stand before them and single underscores between.
Only the number of digits is limited.  The decimal numerals that begin with a zero only if they are
zero are among these texts, and stand for the number that they are the digits of.

* `Digits`, `Signed`, `Integer`: the grammar of the texts, with the numbers that they stand for.
* `digits?_eq_some_iff`, `readSigned?_eq_some_iff`, `readInteger?_eq_some_iff`: they are the texts
  that are read.
* `integer_of_isWhole`, `Integer.eq_natOf`: decimal numerals.
-/

namespace TypedClient.Text

variable {c : Char} {s body : List Char} {d : ℕ} {ds : List ℕ} {i : ℤ}

/-- A text of digits of any script, with their values; a single underscore may stand between two
digits. -/
inductive Digits : List Char → List ℕ → Prop
  | single {c : Char} {d : ℕ} (hc : digitValue? c = some d) : Digits [c] [d]
  | cons {c : Char} {d : ℕ} {s : List Char} {ds : List ℕ} (hc : digitValue? c = some d)
      (h : Digits s ds) : Digits (c :: s) (d :: ds)
  | spaced {c : Char} {d : ℕ} {s : List Char} {ds : List ℕ} (hc : digitValue? c = some d)
      (h : Digits s ds) : Digits (c :: '_' :: s) (d :: ds)

/-- A text of digits, of which there are not too many, behind a sign or without one. -/
inductive Signed : List Char → ℤ → Prop
  | plain {s : List Char} {ds : List ℕ} (h : Digits s ds) (hlimit : ds.length ≤ numeralLimit) :
      Signed s (valueOfDigits 10 ds)
  | plus {s : List Char} {ds : List ℕ} (h : Digits s ds) (hlimit : ds.length ≤ numeralLimit) :
      Signed ('+' :: s) (valueOfDigits 10 ds)
  | minus {s : List Char} {ds : List ℕ} (h : Digits s ds) (hlimit : ds.length ≤ numeralLimit) :
      Signed ('-' :: s) (-(valueOfDigits 10 ds : ℤ))

/-- A whole number with white space around it, or without. -/
def Integer (s : List Char) (i : ℤ) : Prop :=
  ∃ front body back, s = front ++ body ++ back ∧ (∀ c ∈ front, isNumeralBlank c = true) ∧
    (∀ c ∈ back, isNumeralBlank c = true) ∧ Signed body i

/-! ## Digits -/

theorem digitValue?_underscore : digitValue? '_' = none := by decide

theorem ne_underscore (hc : digitValue? c = some d) : c ≠ '_' := by
  rintro rfl
  rw [digitValue?_underscore] at hc
  cases hc

/-- A text of digits is read, whether a digit stands in front of it or not. -/
theorem Digits.digitsFrom? (h : Digits s ds) (afterDigit : Bool) :
    digitsFrom? afterDigit s = some ds := by
  induction h generalizing afterDigit with
  | single hc =>
    rw [Text.digitsFrom?, if_neg (ne_underscore hc), hc]
    rfl
  | cons hc _ ih =>
    rw [Text.digitsFrom?, if_neg (ne_underscore hc), hc]
    show (Text.digitsFrom? true _).map _ = _
    rw [ih true]
    rfl
  | spaced hc _ ih =>
    rw [Text.digitsFrom?, if_neg (ne_underscore hc), hc]
    show (Text.digitsFrom? true ('_' :: _)).map _ = _
    rw [Text.digitsFrom?, if_pos rfl, if_pos rfl, ih false]
    rfl

/-- What is read is a text of digits; behind a digit it may be the rest of one. -/
theorem digits_of_digitsFrom? :
    (digitsFrom? false s = some ds → Digits s ds) ∧
      (digitsFrom? true s = some ds → digitValue? c = some d → Digits (c :: s) (d :: ds)) := by
  induction s generalizing c d ds with
  | nil =>
    constructor
    · intro h
      cases h
    · intro h hc
      obtain rfl := Option.some_inj.mp h
      exact .single hc
  | cons e s ih =>
    by_cases he : e = '_'
    · subst he
      constructor
      · intro h
        cases h
      · intro h hc
        rw [digitsFrom?, if_pos rfl, if_pos rfl] at h
        exact .spaced hc ((ih (c := c) (d := d)).1 h)
    · have hdigit : ∀ afterDigit, digitsFrom? afterDigit (e :: s) = some ds →
          Digits (e :: s) ds := by
        intro afterDigit h
        rw [digitsFrom?, if_neg he] at h
        cases hvalue : digitValue? e with
        | none =>
          rw [hvalue] at h
          cases h
        | some v =>
          rw [hvalue] at h
          obtain ⟨vs, hvs, rfl⟩ := Option.map_eq_some_iff.mp h
          exact ih.2 hvs hvalue
      exact ⟨hdigit false, fun h hc => .cons hc (hdigit true h)⟩

theorem digits?_eq_some_iff : digits? s = some ds ↔ Digits s ds :=
  ⟨(digits_of_digitsFrom? (c := '0') (d := 0)).1, fun h => h.digitsFrom? false⟩

/-! ## Signs -/

/-- The number that a text of digits stands for, if there are not too many. -/
def magnitude? (s : List Char) : Option ℕ :=
  (digits? s).bind fun ds =>
    if ds.length ≤ numeralLimit then some (valueOfDigits 10 ds) else none

/-- What a magnitude is made into, with a sign or without. -/
theorem map_magnitude?_eq_some_iff {f : ℕ → ℤ} : (magnitude? s).map f = some i ↔
    ∃ ds, Digits s ds ∧ ds.length ≤ numeralLimit ∧ f (valueOfDigits 10 ds) = i := by
  rw [magnitude?, Option.map_bind, Option.bind_eq_some_iff]
  refine exists_congr fun ds => and_congr digits?_eq_some_iff ?_
  by_cases hlimit : ds.length ≤ numeralLimit
  · simp [hlimit]
  · simp [hlimit]

theorem readSigned?_minus (s : List Char) :
    readSigned? ('-' :: s) = (magnitude? s).map fun n : ℕ => -(n : ℤ) := by
  show Option.map _ (magnitude? s >>= fun n => pure (n : ℤ)) = _
  cases magnitude? s <;> rfl

theorem readSigned?_plus (s : List Char) :
    readSigned? ('+' :: s) = (magnitude? s).map fun n : ℕ => (n : ℤ) := by
  show Option.map _ (magnitude? s >>= fun n => pure (n : ℤ)) = _
  cases magnitude? s <;> rfl

theorem readSigned?_plain (h : ∀ c ∈ s.head?, c ≠ '-' ∧ c ≠ '+') :
    readSigned? s = (magnitude? s).map fun n : ℕ => (n : ℤ) := by
  unfold readSigned?
  dsimp only
  split
  · exact absurd rfl (h _ rfl).1
  · exact absurd rfl (h _ rfl).2
  · show Option.map _ (magnitude? s >>= fun n => pure (n : ℤ)) = _
    cases magnitude? s <;> rfl

/-- A text of digits begins with no sign. -/
theorem Digits.ne_sign (h : Digits s ds) : ∀ c ∈ s.head?, c ≠ '-' ∧ c ≠ '+' := by
  have hminus : digitValue? '-' = none := by decide
  have hplus : digitValue? '+' = none := by decide
  cases h <;> rintro _ ⟨⟩ <;> constructor <;> rintro rfl <;> simp_all

theorem readSigned?_eq_some_iff : readSigned? s = some i ↔ Signed s i := by
  constructor
  · intro h
    by_cases hsign : ∀ c ∈ s.head?, c ≠ '-' ∧ c ≠ '+'
    · rw [readSigned?_plain hsign, map_magnitude?_eq_some_iff] at h
      obtain ⟨ds, hds, hlimit, rfl⟩ := h
      exact .plain hds hlimit
    · cases s with
      | nil => exact absurd (by simp) hsign
      | cons c s =>
        have hc : c = '-' ∨ c = '+' := by
          by_contra hnone
          rw [not_or] at hnone
          exact hsign (by rintro _ ⟨⟩; exact hnone)
        rcases hc with rfl | rfl
        · rw [readSigned?_minus, map_magnitude?_eq_some_iff] at h
          obtain ⟨ds, hds, hlimit, rfl⟩ := h
          exact .minus hds hlimit
        · rw [readSigned?_plus, map_magnitude?_eq_some_iff] at h
          obtain ⟨ds, hds, hlimit, rfl⟩ := h
          exact .plus hds hlimit
  · intro h
    cases h with
    | plain hds hlimit =>
      rw [readSigned?_plain hds.ne_sign, map_magnitude?_eq_some_iff]
      exact ⟨_, hds, hlimit, rfl⟩
    | plus hds hlimit =>
      rw [readSigned?_plus, map_magnitude?_eq_some_iff]
      exact ⟨_, hds, hlimit, rfl⟩
    | minus hds hlimit =>
      rw [readSigned?_minus, map_magnitude?_eq_some_iff]
      exact ⟨_, hds, hlimit, rfl⟩

/-! ## White space -/

/-- A digit is no white space. -/
theorem isNumeralBlank_of_digit (hc : digitValue? c = some d) : isNumeralBlank c = false := by
  have hwide : ∀ n ∈ wideBlanks, 128 ≤ n ∧ zeros.find? (fun z => z ≤ n && n ≤ z + 9) = none := by
    decide
  rw [← Bool.not_eq_true]
  intro hblank
  have hcases : c.toNat = 32 ∨ (9 ≤ c.toNat ∧ c.toNat ≤ 13) ∨ (28 ≤ c.toNat ∧ c.toNat ≤ 31) ∨
      c.toNat ∈ wideBlanks := by
    simp only [isNumeralBlank, isBlank, Bool.and_eq_true, Bool.or_eq_true, beq_iff_eq,
      decide_eq_true_eq, List.contains_iff_mem, or_assoc] at hblank
    exact hblank.1
  unfold digitValue? at hc
  by_cases hmem : c.toNat ∈ wideBlanks
  · obtain ⟨hlarge, hnone⟩ := hwide _ hmem
    rw [if_neg (by omega), hnone] at hc
    cases hc
  · have hsmall : c.toNat < 128 ∧ ¬ (48 ≤ c.toNat ∧ c.toNat ≤ 57) := by
      rcases hcases with h | h | h | h
      · omega
      · omega
      · omega
      · exact absurd h hmem
    rw [if_pos hsmall.1, if_neg hsmall.2] at hc
    cases hc

/-- The text neither begins nor ends with white space, and is not empty. -/
structure Bare (s : List Char) : Prop where
  ne_nil : s ≠ []
  first : ∀ c ∈ s.head?, isNumeralBlank c = false
  last : ∀ c ∈ s.getLast?, isNumeralBlank c = false

theorem Bare.cons (hs : Bare s) (hc : isNumeralBlank c = false) : Bare (c :: s) where
  ne_nil := List.cons_ne_nil c s
  first := by
    rintro _ ⟨⟩
    exact hc
  last := by
    rw [List.getLast?_cons_of_ne_nil hs.ne_nil]
    exact hs.last

theorem Digits.bare (h : Digits s ds) : Bare s := by
  induction h with
  | single hc =>
    have hblank := isNumeralBlank_of_digit hc
    refine ⟨List.cons_ne_nil _ _, ?_, ?_⟩ <;> rintro _ ⟨⟩ <;> exact hblank
  | cons hc _ ih => exact ih.cons (isNumeralBlank_of_digit hc)
  | spaced hc _ ih => exact (ih.cons (by decide)).cons (isNumeralBlank_of_digit hc)

theorem Signed.bare (h : Signed s i) : Bare s := by
  cases h with
  | plain h => exact h.bare
  | plus h => exact h.bare.cons (by decide)
  | minus h => exact h.bare.cons (by decide)

/-- White space around a text that has none at its own ends is dropped. -/
theorem Bare.dropEndWhile_dropWhile {front back : List Char} (hs : Bare s)
    (hfront : ∀ c ∈ front, isNumeralBlank c = true) (hback : ∀ c ∈ back, isNumeralBlank c = true) :
    dropEndWhile isNumeralBlank ((front ++ s ++ back).dropWhile isNumeralBlank) = s := by
  have hdrop : ∀ {front s : List Char}, (∀ c ∈ front, isNumeralBlank c = true) →
      (∀ c ∈ s.head?, isNumeralBlank c = false) → (front ++ s).dropWhile isNumeralBlank = s := by
    intro front s hfront hs
    have hspan := Script.span_append hfront hs
    rw [List.span_eq_takeWhile_dropWhile] at hspan
    exact (Prod.mk.inj hspan).2
  have hfirst : ∀ c ∈ (s ++ back).head?, isNumeralBlank c = false := by
    rw [List.head?_append_of_ne_nil _ hs.ne_nil]
    exact hs.first
  have hlast : ∀ c ∈ s.reverse.head?, isNumeralBlank c = false := by
    rw [List.head?_reverse]
    exact hs.last
  rw [List.append_assoc, hdrop hfront hfirst, dropEndWhile, List.reverse_append,
    hdrop (fun c hc => hback c (List.mem_reverse.mp hc)) hlast, List.reverse_reverse]

/-- The texts that are read as whole numbers. -/
theorem readInteger?_eq_some_iff : readInteger? s = some i ↔ Integer s i := by
  rw [readInteger?, readSigned?_eq_some_iff]
  constructor
  · intro h
    refine ⟨s.takeWhile isNumeralBlank, _,
      ((s.dropWhile isNumeralBlank).reverse.takeWhile isNumeralBlank).reverse, ?_, ?_, ?_, h⟩
    · rw [List.append_assoc, dropEndWhile, ← List.reverse_append, List.takeWhile_append_dropWhile,
        List.reverse_reverse, List.takeWhile_append_dropWhile]
    · exact fun c hc => List.mem_takeWhile_imp hc
    · exact fun c hc => List.mem_takeWhile_imp (List.mem_reverse.mp hc)
  · rintro ⟨front, body, back, rfl, hfront, hback, h⟩
    rw [h.bare.dropEndWhile_dropWhile hfront hback]
    exact h

/-! ## Decimal numerals -/

open Script (IsWhole IsDigits natOf)

theorem digitValue?_of_isDigit (hc : c.isDigit = true) : digitValue? c = some (c.toNat - 48) := by
  have hbounds : 48 ≤ c.toNat ∧ c.toNat ≤ 57 := Char.isDigit_iff_toNat.mp hc
  rw [digitValue?, if_pos (by omega), if_pos hbounds]

theorem digits_of_isDigits (hne : s ≠ []) (h : IsDigits s) :
    Digits s (s.map fun c => c.toNat - 48) := by
  induction s with
  | nil => exact absurd rfl hne
  | cons c s ih =>
    have hc := digitValue?_of_isDigit (h c List.mem_cons_self)
    by_cases hs : s = []
    · subst hs
      exact .single hc
    · exact .cons hc (ih hs fun d hd => h d (List.mem_cons_of_mem c hd))

/-- The number that the values of decimal digits name is the one that the digits write. -/
theorem valueOfDigits_map (s : List Char) :
    valueOfDigits 10 (s.map fun c => c.toNat - 48) = natOf s := by
  have hfold : ∀ (s : List Char) (n : ℕ),
      (s.map fun c => c.toNat - 48).foldl (fun value digit => value * 10 + digit) n =
        Nat.ofDigitChars 10 s n := by
    intro s
    induction s with
    | nil => exact fun n => rfl
    | cons c s ih =>
      intro n
      rw [List.map_cons, List.foldl_cons, ih, Nat.ofDigitChars_cons, Nat.mul_comm n 10]
      rfl
  exact hfold s 0

/-- A decimal numeral that is not too long is read as the number that its digits write. -/
theorem readInteger?_of_isWhole (h : IsWhole s) :
    readInteger? s = if s.length ≤ numeralLimit then some (natOf s : ℤ) else none := by
  have hdigits := digits_of_isDigits h.ne_nil h.digits
  have hbare := hdigits.bare.dropEndWhile_dropWhile (List.forall_mem_nil _) (List.forall_mem_nil _)
  rw [List.nil_append, List.append_nil] at hbare
  rw [readInteger?, hbare, readSigned?_plain hdigits.ne_sign, magnitude?,
    digits?_eq_some_iff.mpr hdigits, Option.bind_some, List.length_map, valueOfDigits_map]
  split <;> rfl

theorem integer_of_isWhole (h : IsWhole s) (hlimit : s.length ≤ numeralLimit) :
    Integer s (natOf s) := by
  rw [← readInteger?_eq_some_iff, readInteger?_of_isWhole h, if_pos hlimit]

/-- A decimal numeral is read as no other number. -/
theorem Integer.eq_natOf (h : Integer s i) (hs : IsWhole s) : i = natOf s := by
  rw [← readInteger?_eq_some_iff, readInteger?_of_isWhole hs] at h
  split at h
  · exact (Option.some_inj.mp h).symm
  · cases h

end TypedClient.Text
