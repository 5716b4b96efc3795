import TypedClient.Binary64.Notation
import TypedClient.Proofs.Binary64.Shortest

/-!
# Numerals of the generated script

A number of the script is written as decimal digits, with a fraction and an exponent if need be, and
a sign in front.  A leading zero stands alone in front of the point, since more digits behind it
would make the numeral one of another base.  What whole numbers and floating-point numbers are
written as is read back here.

* `Numeral`, `Numeral.read?`: a numeral, and the numeral that a text is.
* `Numeral.rounded`: the number that the script makes of a numeral.
* `read?_toString`: whole numbers.
* `read?_text`: floating-point numbers.
-/

namespace TypedClient.Script

/-- The front of a text is spanned up to the first character that does not belong to it. -/
theorem span_append {p : Char → Bool} {front s : List Char} (hfront : ∀ c ∈ front, p c = true)
    (hs : ∀ c ∈ s.head?, p c = false) : (front ++ s).span p = (front, s) := by
  have hrest : s.takeWhile p = [] ∧ s.dropWhile p = s := by
    cases s with
    | nil => exact ⟨rfl, rfl⟩
    | cons c s =>
      have hc := hs c rfl
      rw [List.takeWhile_cons, List.dropWhile_cons, hc]
      exact ⟨rfl, rfl⟩
  rw [List.span_eq_takeWhile_dropWhile, List.takeWhile_append_of_pos hfront,
    List.dropWhile_append_of_pos hfront, hrest.1, hrest.2, List.append_nil]

/-! ## Digits -/

/-- The number that decimal digits write. -/
def natOf (ds : List Char) : ℕ := Nat.ofDigitChars 10 ds 0

/-- Is a text made of decimal digits? -/
def IsDigits (ds : List Char) : Prop := ∀ c ∈ ds, c.isDigit = true

/-- The text does not begin with a digit. -/
def EndsDigits (s : List Char) : Prop := ∀ c ∈ s.head?, c.isDigit = false

theorem natOf_toDigits (n : ℕ) : natOf (Nat.toDigits 10 n) = n := Nat.ofDigitChars_ten_toDigits

theorem natOf_zeros_append (k : ℕ) (ds : List Char) :
    natOf (List.replicate k '0' ++ ds) = natOf ds := by
  rw [natOf, Nat.ofDigitChars_append, Nat.ofDigitChars_replicate_zero, Nat.mul_zero, natOf]

theorem natOf_append_zeros (k : ℕ) (ds : List Char) :
    natOf (ds ++ List.replicate k '0') = natOf ds * 10 ^ k := by
  rw [natOf, Nat.ofDigitChars_append, Nat.ofDigitChars_replicate_zero, natOf, Nat.mul_comm]

theorem isDigits_toDigits (n : ℕ) : IsDigits (Nat.toDigits 10 n) :=
  fun _ hc => Nat.isDigit_of_mem_toDigits (by norm_num) le_rfl hc

theorem isDigits_zeros (k : ℕ) : IsDigits (List.replicate k '0') := by
  intro c hc
  rw [List.eq_of_mem_replicate hc]
  rfl

theorem IsDigits.append {ds es : List Char} (hds : IsDigits ds) (hes : IsDigits es) :
    IsDigits (ds ++ es) := by
  intro c hc
  rcases List.mem_append.mp hc with hc | hc
  · exact hds c hc
  · exact hes c hc

/-- The digits of a positive number do not begin with a zero. -/
theorem head?_toDigits {n : ℕ} (hn : 0 < n) : ∀ c ∈ (Nat.toDigits 10 n).head?, c ≠ '0' := by
  induction n using Nat.strong_induction_on with
  | _ n ih =>
    rcases lt_or_ge n 10 with hlt | hge
    · rw [Nat.toDigits_of_lt_base hlt]
      have hall : ∀ k : Fin 10, 0 < k.val → Nat.digitChar k ≠ '0' := by decide
      rintro c hc
      rw [← Option.mem_some.mp hc]
      exact hall ⟨n, hlt⟩ hn
    · rw [Nat.toDigits_of_base_le (by norm_num) hge,
        List.head?_append_of_ne_nil _ Nat.toDigits_ne_nil]
      exact ih (n / 10) (by omega) (by omega)

/-! ## Numerals -/

/-- A numeral: `± digits · 10 ^ power`. -/
structure Numeral where
  negative : Bool
  digits : ℕ
  power : ℤ
deriving Repr, DecidableEq

/-- The number that a script makes of a numeral: the one nearest to its value. -/
def Numeral.rounded (numeral : Numeral) : Binary64 :=
  Binary64.rounded numeral.negative (numeral.digits * 10 ^ numeral.power)

/-- The digits in front of the point: at least one, and none behind a leading zero. -/
def readWhole? (s : List Char) : Option (List Char × List Char) :=
  match s.span Char.isDigit with
  | ([], _) => none
  | ('0' :: _ :: _, _) => none
  | read => some read

/-- The digits behind the point, if there is one. -/
def readFraction (s : List Char) : List Char × List Char :=
  match s with
  | '.' :: rest => rest.span Char.isDigit
  | _ => ([], s)

/-- The number that a text of at least one digit writes. -/
def natOf? (ds : List Char) : Option ℕ :=
  if ds ≠ [] ∧ ds.all Char.isDigit then some (natOf ds) else none

/-- The whole number that a text of digits writes, with or without a sign. -/
def intOf? : List Char → Option ℤ
  | '-' :: ds => (natOf? ds).map fun n : ℕ => -(n : ℤ)
  | '+' :: ds => (natOf? ds).map fun n : ℕ => (n : ℤ)
  | ds => (natOf? ds).map fun n : ℕ => (n : ℤ)

/-- The exponent that a text is; none is zero. -/
def readExponent? : List Char → Option ℤ
  | [] => some 0
  | c :: rest => if c = 'e' ∨ c = 'E' then intOf? rest else none

/-- The numeral that a text without a sign is. -/
def readUnsigned? (negative : Bool) (s : List Char) : Option Numeral :=
  (readWhole? s).bind fun whole =>
  (readExponent? (readFraction whole.2).2).map fun exponent =>
    ⟨negative, natOf (whole.1 ++ (readFraction whole.2).1),
      exponent - (readFraction whole.2).1.length⟩

/-- The numeral that a text is. -/
def Numeral.read? : List Char → Option Numeral
  | '-' :: rest => readUnsigned? true rest
  | s => readUnsigned? false s

/-! ## Reading what is written -/

section

variable {ws fs tail ds : List Char} {e : ℤ}

/-- Digits that may stand in front of the point. -/
structure IsWhole (ws : List Char) : Prop where
  digits : IsDigits ws
  ne_nil : ws ≠ []
  leading : ∀ rest, ws = '0' :: rest → rest = []

theorem readWhole?_append (hws : IsWhole ws) (htail : EndsDigits tail) :
    readWhole? (ws ++ tail) = some (ws, tail) := by
  rw [readWhole?, span_append hws.digits htail]
  split
  · rename_i heq
    exact absurd (Prod.mk.inj heq).1 hws.ne_nil
  · rename_i heq
    exact absurd (hws.leading _ (Prod.mk.inj heq).1) (List.cons_ne_nil _ _)
  · rfl

/-- An exponent is empty or begins with its mark. -/
theorem eq_of_readExponent? (h : readExponent? tail = some e) :
    ∀ c ∈ tail.head?, c = 'e' ∨ c = 'E' := by
  rintro c hc
  cases tail with
  | nil => cases hc
  | cons d rest =>
    rw [readExponent?] at h
    split at h
    · rename_i hmark
      rw [← Option.mem_some.mp hc]
      exact hmark
    · cases h

theorem endsDigits_of_readExponent? (h : readExponent? tail = some e) : EndsDigits tail := by
  intro c hc
  rcases eq_of_readExponent? h c hc with rfl | rfl <;> rfl

/-- A numeral without a point is read as it was written. -/
theorem readUnsigned?_whole (negative : Bool) (hws : IsWhole ws)
    (htail : readExponent? tail = some e) :
    readUnsigned? negative (ws ++ tail) = some ⟨negative, natOf ws, e⟩ := by
  have hfraction : readFraction tail = ([], tail) := by
    cases tail with
    | nil => rfl
    | cons c rest =>
      rcases eq_of_readExponent? htail c rfl with rfl | rfl <;> rfl
  rw [readUnsigned?, readWhole?_append hws (endsDigits_of_readExponent? htail), Option.bind_some,
    hfraction, htail, Option.map_some, List.append_nil]
  simp only [List.length_nil, Nat.cast_zero, sub_zero]

/-- A numeral with a point is read as it was written. -/
theorem readUnsigned?_fraction (negative : Bool) (hws : IsWhole ws) (hfs : IsDigits fs)
    (htail : readExponent? tail = some e) :
    readUnsigned? negative (ws ++ '.' :: (fs ++ tail)) =
      some ⟨negative, natOf (ws ++ fs), e - fs.length⟩ := by
  have hpoint : EndsDigits ('.' :: (fs ++ tail)) := by
    intro c hc
    rw [← Option.mem_some.mp hc]
    rfl
  have hfraction : readFraction ('.' :: (fs ++ tail)) = (fs, tail) :=
    span_append hfs (endsDigits_of_readExponent? htail)
  rw [readUnsigned?, readWhole?_append hws hpoint, Option.bind_some, hfraction, htail,
    Option.map_some]

theorem natOf?_of_isDigits (hds : IsDigits ds) (hne : ds ≠ []) : natOf? ds = some (natOf ds) := by
  rw [natOf?, if_pos ⟨hne, List.all_eq_true.mpr hds⟩]

/-- Digits behind one that is not zero may stand in front of the point. -/
theorem isWhole_cons {c : Char} (hc : c ≠ '0') (hds : IsDigits (c :: ds)) : IsWhole (c :: ds) where
  digits := hds
  ne_nil := List.cons_ne_nil _ _
  leading _ hrest := absurd (List.cons.inj hrest).1 hc

theorem isWhole_zero : IsWhole ['0'] where
  digits := isDigits_zeros 1
  ne_nil := List.cons_ne_nil _ _
  leading _ hrest := (List.cons.inj hrest).2.symm

/-- The digits of a positive number begin with one that is not zero. -/
theorem toDigits_eq_cons {n : ℕ} (hn : 0 < n) :
    ∃ c ds, Nat.toDigits 10 n = c :: ds ∧ c ≠ '0' := by
  obtain ⟨c, ds, hds⟩ := List.exists_cons_of_ne_nil (Nat.toDigits_ne_nil (b := 10) (n := n))
  refine ⟨c, ds, hds, head?_toDigits hn c ?_⟩
  rw [hds]
  rfl

theorem isWhole_toDigits (n : ℕ) : IsWhole (Nat.toDigits 10 n) := by
  rcases Nat.eq_zero_or_pos n with rfl | hn
  · exact isWhole_zero
  · obtain ⟨c, ds, hds, hc⟩ := toDigits_eq_cons hn
    have hdigits := isDigits_toDigits n
    rw [hds] at hdigits ⊢
    exact isWhole_cons hc hdigits

/-- An exponent is read as it was written, zeros in front of it or not. -/
theorem readExponent?_signed (lead : ℤ) (k : ℕ) :
    readExponent? ('e' :: (if lead < 0 then '-' else '+') ::
      (List.replicate k '0' ++ Nat.toDigits 10 lead.natAbs)) = some lead := by
  have hnat : natOf? (List.replicate k '0' ++ Nat.toDigits 10 lead.natAbs) =
      some lead.natAbs := by
    rw [natOf?_of_isDigits ((isDigits_zeros k).append (isDigits_toDigits _))
      (List.append_ne_nil_of_right_ne_nil _ Nat.toDigits_ne_nil), natOf_zeros_append,
      natOf_toDigits]
  split
  · rename_i hneg
    show ((natOf? _).map fun n : ℕ => -(n : ℤ)) = some lead
    rw [hnat, Option.map_some, Option.some_inj]
    omega
  · rename_i hnonneg
    show ((natOf? _).map fun n : ℕ => (n : ℤ)) = some lead
    rw [hnat, Option.map_some, Option.some_inj]
    omega

end

/-! ## Whole numbers -/

/-- A text that begins with a digit has no sign. -/
theorem read?_of_isWhole {ws : List Char} (hws : IsWhole ws) (tail : List Char) :
    Numeral.read? (ws ++ tail) = readUnsigned? false (ws ++ tail) := by
  cases ws with
  | nil => exact absurd rfl hws.ne_nil
  | cons c ws =>
    have hc : c ≠ '-' := by
      rintro rfl
      exact absurd (hws.digits '-' List.mem_cons_self) (by decide)
    rw [List.cons_append, Numeral.read?]
    rintro rest hrest
    exact hc (List.cons.inj hrest).1

theorem toList_toString_natCast (n : ℕ) : (toString (n : ℤ)).toList = Nat.toDigits 10 n := by
  show (toString n).toList = _
  rw [Nat.toString_eq_ofList_toDigits, String.toList_ofList]

theorem toList_toString_negSucc (n : ℕ) :
    (toString (Int.negSucc n)).toList = '-' :: Nat.toDigits 10 (n + 1) := by
  show ("-" ++ toString (n + 1)).toList = _
  rw [String.toList_append, Nat.toString_eq_ofList_toDigits]
  exact congrArg _ String.toList_ofList

/-- A whole number is written as a numeral with its own digits. -/
theorem read?_toString (i : ℤ) :
    Numeral.read? (toString i).toList = some ⟨decide (i < 0), i.natAbs, 0⟩ := by
  have hread (negative : Bool) (n : ℕ) :
      readUnsigned? negative (Nat.toDigits 10 n) = some ⟨negative, n, 0⟩ := by
    have hwhole := readUnsigned?_whole negative (isWhole_toDigits n)
      (show readExponent? [] = some 0 from rfl)
    rw [List.append_nil, natOf_toDigits] at hwhole
    exact hwhole
  cases i with
  | ofNat n =>
    have hsign := read?_of_isWhole (isWhole_toDigits n) []
    rw [List.append_nil] at hsign
    rw [Int.ofNat_eq_natCast, toList_toString_natCast, hsign, hread false n]
    rfl
  | negSucc n =>
    rw [toList_toString_negSucc, decide_eq_true (Int.negSucc_lt_zero n)]
    exact hread true (n + 1)

/-! ## Floating-point numbers -/

section

variable {c : Char} {cs : List Char}

/-- Digits behind a point, if there are any. -/
def pointed : List Char → List Char
  | [] => []
  | ds => '.' :: ds

/-- A decimal with an exponent is a numeral with its digits. -/
theorem readUnsigned?_exponential (negative : Bool) (hds : IsWhole (c :: cs)) (lead : ℤ) (k : ℕ) :
    readUnsigned? negative ([c] ++ pointed cs ++ ['e', if lead < 0 then '-' else '+'] ++
      List.replicate k '0' ++ Nat.toDigits 10 lead.natAbs) =
      some ⟨negative, natOf (c :: cs), lead - cs.length⟩ := by
  have htail := readExponent?_signed lead k
  generalize (if lead < 0 then '-' else '+') = sign at htail ⊢
  have hone : IsWhole [c] := by
    refine ⟨fun d hd => hds.digits d ?_, List.cons_ne_nil _ _,
      fun _ h => (List.cons.inj h).2.symm⟩
    rw [List.mem_singleton.mp hd]
    exact List.mem_cons_self
  rw [List.append_assoc]
  cases cs with
  | nil =>
    rw [List.length_nil, Nat.cast_zero, sub_zero]
    exact readUnsigned?_whole negative hone htail
  | cons d cs =>
    have hfs : IsDigits (d :: cs) := fun x hx => hds.digits x (List.mem_cons_of_mem c hx)
    have hread := readUnsigned?_fraction negative hone hfs htail
    simp only [List.cons_append, List.nil_append, List.append_assoc] at hread ⊢
    exact hread

/-- A decimal below one is a numeral with its digits. -/
theorem readUnsigned?_small (negative : Bool) {ds : List Char} (hds : IsDigits ds) (k : ℕ) :
    readUnsigned? negative ("0.".toList ++ List.replicate k '0' ++ ds) =
      some ⟨negative, natOf ds, -(k + ds.length : ℤ)⟩ := by
  have hread := readUnsigned?_fraction negative isWhole_zero ((isDigits_zeros k).append hds)
    (show readExponent? [] = some 0 from rfl)
  have hvalue : natOf (['0'] ++ (List.replicate k '0' ++ ds)) = natOf ds :=
    natOf_zeros_append (k + 1) ds
  rw [hvalue, List.append_nil, zero_sub, List.length_append, List.length_replicate] at hread
  push_cast at hread
  exact hread

/-- A whole decimal is a numeral with its digits and more zeros. -/
theorem readUnsigned?_large (negative : Bool) (hc : c ≠ '0') (hds : IsDigits (c :: cs)) (k : ℕ) :
    readUnsigned? negative (c :: cs ++ List.replicate k '0' ++ ".0".toList) =
      some ⟨negative, natOf (c :: cs) * 10 ^ (k + 1), -1⟩ := by
  have hwhole : IsWhole (c :: cs ++ List.replicate k '0') :=
    isWhole_cons hc (hds.append (isDigits_zeros k))
  have hread := readUnsigned?_fraction negative hwhole (isDigits_zeros 1)
    (show readExponent? [] = some 0 from rfl)
  have hvalue : natOf (c :: cs ++ List.replicate k '0' ++ List.replicate 1 '0') =
      natOf (c :: cs) * 10 ^ (k + 1) := by
    rw [List.append_assoc, ← List.replicate_add, natOf_append_zeros]
  rw [hvalue] at hread
  exact hread

/-- A decimal with a point among its digits is a numeral with its digits. -/
theorem readUnsigned?_middle (negative : Bool) (hc : c ≠ '0') (hds : IsDigits (c :: cs)) (k : ℕ) :
    readUnsigned? negative ((c :: cs).take (k + 1) ++ '.' :: (c :: cs).drop (k + 1)) =
      some ⟨negative, natOf (c :: cs), -(cs.length - k : ℕ)⟩ := by
  have hwhole : IsWhole ((c :: cs).take (k + 1)) :=
    isWhole_cons hc fun x hx => hds x (List.mem_of_mem_take (i := k + 1) hx)
  have hfs : IsDigits ((c :: cs).drop (k + 1)) := fun x hx => hds x (List.mem_of_mem_drop hx)
  have hread := readUnsigned?_fraction negative hwhole hfs
    (show readExponent? [] = some 0 from rfl)
  rw [List.append_nil, List.take_append_drop, zero_sub, List.drop_succ_cons, List.length_drop]
    at hread
  exact hread

end

/-- A positive decimal is written as a numeral with its value. -/
theorem readUnsigned?_text {decimal : Decimal} (hdigits : 0 < decimal.digits) (negative : Bool) :
    ∃ digits power, readUnsigned? negative (decimal.text .standard).toList =
      some ⟨negative, digits, power⟩ ∧ (digits : ℚ) * 10 ^ power = decimal.value := by
  obtain ⟨digits, power⟩ := decimal
  obtain ⟨c, cs, hcs, hc⟩ := toDigits_eq_cons hdigits
  have hds : IsDigits (c :: cs) := hcs ▸ isDigits_toDigits digits
  have hnat : natOf (c :: cs) = digits := by
    rw [← hcs, natOf_toDigits]
  rw [Decimal.text]
  dsimp only at hcs ⊢
  rw [hcs, List.length_cons]
  split
  · refine ⟨digits, power, ?_, rfl⟩
    have hread := readUnsigned?_exponential negative (isWhole_cons hc hds)
      (power + (cs.length + 1 : ℕ) - 1)
      (2 - (Nat.toDigits 10 (power + (cs.length + 1 : ℕ) - 1).natAbs).length)
    have hpower : power + (cs.length + 1 : ℕ) - 1 - cs.length = power := by omega
    rw [hnat, hpower] at hread
    rw [String.toList_ofList]
    exact hread
  · split
    · refine ⟨digits, power, ?_, rfl⟩
      have hread := readUnsigned?_small negative hds
        ((power + (cs.length + 1 : ℕ) - 1).natAbs - 1)
      have hpower : -(((power + (cs.length + 1 : ℕ) - 1).natAbs - 1 : ℕ) +
          (c :: cs).length : ℤ) = power := by
        rw [List.length_cons]
        omega
      rw [hnat, hpower] at hread
      rw [String.toList_ofList]
      exact hread
    · split
      · rename_i hnonneg hshort
        obtain ⟨k, rfl⟩ : ∃ k : ℕ, power = k := ⟨power.toNat, by omega⟩
        have hread := readUnsigned?_large negative hc hds k
        have hzeros : ((k : ℤ) + (cs.length + 1 : ℕ) - 1).toNat + 1 - (cs.length + 1) = k := by
          omega
        rw [hnat] at hread
        refine ⟨digits * 10 ^ (k + 1), -1, ?_, ?_⟩
        · rw [hzeros, String.toList_ofList]
          exact hread
        · rw [Decimal.value, zpow_natCast, zpow_neg_one]
          push_cast
          rw [pow_succ, mul_assoc, mul_assoc, mul_inv_cancel₀ (by norm_num), mul_one]
      · rename_i hnonneg hlong
        refine ⟨digits, power, ?_, rfl⟩
        have hread := readUnsigned?_middle negative hc hds
          (power + (cs.length + 1 : ℕ) - 1).toNat
        have hpower : -((cs.length - (power + (cs.length + 1 : ℕ) - 1).toNat : ℕ) : ℤ) = power := by
          omega
        rw [hnat, hpower] at hread
        rw [String.toList_ofList]
        exact hread

/-- A sign in front of a numeral is its sign. -/
theorem read?_sign (negative : Bool) {text : List Char} {numeral : Numeral}
    (h : readUnsigned? negative text = some numeral) :
    Numeral.read? ((if negative then "-" else "").toList ++ text) = some numeral := by
  cases negative with
  | true => exact h
  | false =>
    show Numeral.read? text = _
    cases text with
    | nil => cases h
    | cons c rest =>
      have hc : c ≠ '-' := by
        rintro rfl
        cases h
      rw [Numeral.read?]
      · exact h
      · rintro _ hrest
        exact hc (List.cons.inj hrest).1

/-- A finite number is written as a numeral that is rounded to it. -/
theorem read?_text {x : Binary64} (hx : x.IsNumber) :
    ∃ numeral, Numeral.read? x.text.toList = some numeral ∧ numeral.rounded = x := by
  cases x with
  | nan => exact hx.elim
  | inf negative => exact hx.elim
  | finite negative m e =>
    rw [Binary64.text]
    split
    · rename_i hzero
      refine ⟨⟨negative, 0, -1⟩, ?_, ?_⟩
      · rw [String.toList_append]
        exact read?_sign negative rfl
      · have hleast : e = Binary64.minExponent := by
          rcases hx.2.2.2 with hleast | hlong
          · exact hleast
          · omega
        rw [Numeral.rounded, Nat.cast_zero, zero_mul, Binary64.rounded_zero, hzero, hleast,
          Binary64.zero]
    · rename_i hne
      have hm : 0 < m := Nat.pos_of_ne_zero hne
      have hpositive : (Binary64.finite false m e).IsNumber := hx
      obtain ⟨digits, power, hread, hvalue⟩ :=
        readUnsigned?_text (Binary64.digits_shortest_pos hpositive hm) negative
      refine ⟨⟨negative, digits, power⟩, ?_, ?_⟩
      · rw [String.toList_append]
        exact read?_sign negative hread
      · rw [Numeral.rounded, hvalue]
        exact Binary64.rounded_of_sign (Binary64.rounded_shortest hpositive hm)

end TypedClient.Script
