import Mathlib.Data.List.Basic
import TypedClient.Proofs.Script.Numeral
import TypedClient.Text.Segments
import TypedClient.Value.Display

/-!
# Texts without control characters

What is written of numbers, days and moments has no control characters, and neither has the literal
form of a value: a text inside it stands in quotes, where everything that cannot be shown is
escaped.  So no line feed and no carriage return comes from a value that is no text itself.

* `NoControl`: no character of the text stands below the blank.
* `noControl_append`, `forall_mem_joinWith`: texts that are put together.
* `noControl_toString_int`, `noControl_float`, `noControl_day`, `noControl_moment`: numbers, days
  and moments.
* `Value.noControl_literalForm`: the literal form of a value.
-/

namespace TypedClient.Text

/-- No character of the text stands below the blank. -/
def NoControl (s : String) : Prop := ∀ c ∈ s.toList, ' ' ≤ c

instance : DecidablePred NoControl := fun s => List.decidableBAll (fun c => ' ' ≤ c) s.toList

variable {s t sep : String} {texts : List String}

/-- A control character is not in the text. -/
theorem NoControl.notMem (h : NoControl s) {c : Char} (hc : c < ' ') : c ∉ s.toList :=
  fun hmem => absurd (h c hmem) (Char.not_le.mpr hc)

/-! ## Texts that are put together -/

@[simp]
theorem noControl_append : NoControl (s ++ t) ↔ NoControl s ∧ NoControl t := by
  rw [NoControl, String.toList_append, List.forall_mem_append]
  rfl

@[simp]
theorem noControl_ofList {s : List Char} : NoControl (String.ofList s) ↔ ∀ c ∈ s, ' ' ≤ c := by
  rw [NoControl, String.toList_ofList]

/-- What holds of the characters of a separator holds of all characters of a text that is joined
with it, if it holds of those of the texts that are joined. -/
theorem forall_mem_joinWith {p : Char → Prop} (hsep : ∀ c ∈ sep.toList, p c) :
    (∀ c ∈ (joinWith sep texts).toList, p c) ↔ ∀ text ∈ texts, ∀ c ∈ text.toList, p c := by
  induction texts with
  | nil => simp
  | cons first rest ih =>
    cases rest with
    | nil => rw [joinWith_singleton, List.forall_mem_singleton]
    | cons second rest =>
      rw [joinWith_cons_cons, String.toList_append, String.toList_append, List.forall_mem_append,
        List.forall_mem_append, ih, and_iff_left hsep, List.forall_mem_cons (l := second :: rest)]

theorem noControl_joinWith (hsep : NoControl sep) :
    NoControl (joinWith sep texts) ↔ ∀ text ∈ texts, NoControl text :=
  forall_mem_joinWith hsep

/-! ## Numbers -/

theorem exists_digitChar_of_mem_toDigitsCore {c : Char} {base fuel n : ℕ} {ds : List Char}
    (h : c ∈ Nat.toDigitsCore base fuel n ds) : c ∈ ds ∨ ∃ d, c = Nat.digitChar d := by
  induction fuel generalizing n ds with
  | zero => exact Or.inl h
  | succ fuel ih =>
    rw [Nat.toDigitsCore] at h
    split at h
    · exact (List.mem_cons.mp h).symm.imp_right fun hc => ⟨_, hc⟩
    · rcases ih h with hmem | hdigit
      · exact (List.mem_cons.mp hmem).symm.imp_right fun hc => ⟨_, hc⟩
      · exact Or.inr hdigit

theorem blank_le_digitChar (d : ℕ) : ' ' ≤ Nat.digitChar d := by
  rcases lt_or_ge d 16 with hd | hd
  · have hsmall : ∀ d < 16, ' ' ≤ Nat.digitChar d := by decide
    exact hsmall d hd
  · rw [Nat.digitChar_eq_star.mpr hd]
    decide

theorem blank_le_of_mem_toDigits {base n : ℕ} : ∀ c ∈ Nat.toDigits base n, ' ' ≤ c := by
  intro c hc
  rcases exists_digitChar_of_mem_toDigitsCore hc with hmem | ⟨d, rfl⟩
  · exact absurd hmem List.not_mem_nil
  · exact blank_le_digitChar d

theorem blank_le_of_mem_replicate {d : Char} (hd : ' ' ≤ d) {n : ℕ} :
    ∀ c ∈ List.replicate n d, ' ' ≤ c :=
  fun _ hc => (List.eq_of_mem_replicate hc).symm ▸ hd

@[simp]
theorem noControl_toString_nat (n : ℕ) : NoControl (toString n) := by
  rw [Nat.toString_eq_ofList_toDigits, noControl_ofList]
  exact blank_le_of_mem_toDigits

@[simp]
theorem noControl_toString_int (i : ℤ) : NoControl (toString i) := by
  cases i with
  | ofNat n =>
    rw [NoControl, Int.ofNat_eq_natCast, Script.toList_toString_natCast]
    exact blank_le_of_mem_toDigits
  | negSucc n =>
    rw [NoControl, Script.toList_toString_negSucc, List.forall_mem_cons]
    exact ⟨by decide, blank_le_of_mem_toDigits⟩

@[simp]
theorem noControl_padded (width n : ℕ) : NoControl (padded width n) := by
  rw [padded, noControl_ofList, List.forall_mem_append]
  exact ⟨blank_le_of_mem_replicate (by decide), blank_le_of_mem_toDigits⟩

theorem blank_le_of_mem_hexPadded {width n : ℕ} : ∀ c ∈ hexPadded width n, ' ' ≤ c := by
  rw [hexPadded, List.forall_mem_append]
  exact ⟨blank_le_of_mem_replicate (by decide), blank_le_of_mem_toDigits⟩

theorem blank_le_of_mem_fraction {rest : List Char} (h : ∀ c ∈ rest, ' ' ≤ c) :
    ∀ c ∈ (match rest with
      | [] => []
      | rest => '.' :: rest : List Char), ' ' ≤ c := by
  split
  · exact h
  · rw [List.forall_mem_cons]
    exact ⟨by decide, h⟩

/-- The text of a decimal has digits, a point, an exponent's mark and a sign. -/
theorem noControl_decimal (format : DecimalFormat) (decimal : Decimal) :
    NoControl (decimal.text format) := by
  have hdigits : ∀ c ∈ Nat.toDigits 10 decimal.digits, ' ' ≤ c := blank_le_of_mem_toDigits
  have htake (k : ℕ) : ∀ c ∈ (Nat.toDigits 10 decimal.digits).take k, ' ' ≤ c :=
    fun c hc => hdigits c (List.mem_of_mem_take hc)
  have hdrop (k : ℕ) : ∀ c ∈ (Nat.toDigits 10 decimal.digits).drop k, ' ' ≤ c :=
    fun c hc => hdigits c (List.mem_of_mem_drop hc)
  have hzeros (k : ℕ) : ∀ c ∈ List.replicate k '0', ' ' ≤ c :=
    blank_le_of_mem_replicate (by decide)
  rw [Decimal.text]
  split
  · have hsign : ∀ c ∈ ['e', if decimal.power + (Nat.toDigits 10 decimal.digits).length - 1 < 0
        then '-' else '+'], ' ' ≤ c := by
      split <;> simp
    simp only [noControl_ofList, List.forall_mem_append]
    exact ⟨⟨⟨⟨htake 1, blank_le_of_mem_fraction (hdrop 1)⟩, hsign⟩, hzeros _⟩,
      blank_le_of_mem_toDigits⟩
  · split
    · simp only [noControl_ofList, List.forall_mem_append]
      exact ⟨⟨by simp, hzeros _⟩, hdigits⟩
    · dsimp only
      split
      · simp only [noControl_ofList, List.forall_mem_append]
        exact ⟨⟨hdigits, hzeros _⟩, by simp⟩
      · simp only [noControl_ofList, List.forall_mem_append, List.forall_mem_cons]
        exact ⟨htake _, by decide, hdrop _⟩

@[simp]
theorem noControl_float (x : Binary64) : NoControl x.text := by
  cases x with
  | nan => decide
  | inf isNegative => cases isNegative <;> decide
  | finite isNegative m e =>
    have hsign : NoControl (if isNegative then "-" else "") := by cases isNegative <;> decide
    rw [Binary64.text]
    split
    · exact noControl_append.mpr ⟨hsign, by decide⟩
    · exact noControl_append.mpr ⟨hsign, noControl_decimal _ _⟩

/-! ## Displayed values -/

theorem blank_le_of_isPrintable {c : Char} (h : isPrintable c = true) : ' ' ≤ c := by
  have hcode : 32 ≤ c.toNat := by
    rw [isPrintable] at h
    split at h
    · exact of_decide_eq_true h
    · omega
  exact hcode

/-- Between quotes a control character is escaped. -/
theorem blank_le_of_mem_displayChar {quote : Char} (hquote : ' ' ≤ quote) (c : Char) :
    ∀ d ∈ displayChar quote c, ' ' ≤ d := by
  have hhex (width n : ℕ) (mark : Char) (hmark : ' ' ≤ mark) :
      ∀ d ∈ '\\' :: mark :: hexPadded width n, ' ' ≤ d := by
    rw [List.forall_mem_cons, List.forall_mem_cons]
    exact ⟨by decide, hmark, blank_le_of_mem_hexPadded⟩
  rw [displayChar]
  split_ifs with hescaped hfeed hreturn htab hprintable hbyte hshort
  · rw [List.forall_mem_cons, List.forall_mem_singleton]
    refine ⟨by decide, ?_⟩
    rcases hescaped with rfl | rfl
    · exact hquote
    · decide
  · simp
  · simp
  · simp
  · rw [List.forall_mem_singleton]
    exact blank_le_of_isPrintable hprintable
  · exact hhex _ _ 'x' (by decide)
  · exact hhex _ _ 'u' (by decide)
  · exact hhex _ _ 'U' (by decide)

theorem blank_le_quoteFor (hasSingle hasDouble : Bool) : ' ' ≤ quoteFor hasSingle hasDouble := by
  cases hasSingle <;> cases hasDouble <;> decide

theorem blank_le_of_mem_displayQuoted {s : List Char} : ∀ c ∈ displayQuoted s, ' ' ≤ c := by
  have hquote := blank_le_quoteFor (s.contains '\'') (s.contains '"')
  rw [displayQuoted, List.forall_mem_append, List.forall_mem_cons, List.forall_mem_singleton,
    List.forall_mem_flatMap]
  exact ⟨⟨hquote, fun c _ => blank_le_of_mem_displayChar hquote c⟩, hquote⟩

theorem blank_le_of_mem_displayBytes {data : List UInt8} : ∀ c ∈ displayBytes data, ' ' ≤ c := by
  have hquote := blank_le_quoteFor (data.contains 39) (data.contains 34)
  rw [displayBytes, List.forall_mem_append, List.forall_mem_cons, List.forall_mem_cons,
    List.forall_mem_singleton, List.forall_mem_flatMap]
  refine ⟨⟨by decide, hquote, fun b _ => ?_⟩, hquote⟩
  rw [displayByte]
  split
  · exact blank_le_of_mem_displayChar hquote _
  · rw [List.forall_mem_cons, List.forall_mem_cons]
    exact ⟨by decide, by decide, blank_le_of_mem_hexPadded⟩

@[simp]
theorem noControl_day (d : Day) : NoControl d.text := by
  simp +decide only [Day.text, noControl_append, noControl_padded, and_self]

theorem noControl_moment (hsep : NoControl sep) (m : Moment) : NoControl (m.textWith sep) := by
  have hfraction : NoControl (if m.microsecond = 0 then "" else "." ++ padded 6 m.microsecond) := by
    split
    · decide
    · exact noControl_append.mpr ⟨by decide, noControl_padded _ _⟩
  have hoffset (offset : ℤ) : NoControl (Moment.offsetText offset) := by
    simp only [Moment.offsetText, noControl_append, noControl_padded, and_true]
    refine ⟨⟨?_, by decide⟩, ?_⟩
    · split <;> decide
    · split
      · decide
      · exact noControl_append.mpr ⟨by decide, noControl_padded _ _⟩
  simp +decide only [Moment.textWith, noControl_append, noControl_day, noControl_padded, hsep,
    hfraction, true_and, and_true]
  split
  · decide
  · exact hoffset _

end TypedClient.Text

namespace TypedClient.Value

open Text

theorem noControl_offsetLiteral (seconds : ℤ) : NoControl (offsetLiteral seconds) := by
  have hpart (label : String) (hlabel : NoControl label) (n : ℤ) :
      ∀ text ∈ (if n = 0 then [] else [label ++ toString n]), NoControl text := by
    split
    · exact fun text h => absurd h List.not_mem_nil
    · rw [List.forall_mem_singleton, noControl_append]
      exact ⟨hlabel, noControl_toString_int n⟩
  rw [offsetLiteral]
  split
  · decide
  · dsimp only
    rw [noControl_append, noControl_append, noControl_joinWith (by decide), List.forall_mem_append]
    exact ⟨⟨by decide, hpart _ (by decide) _, hpart _ (by decide) _⟩, by decide⟩

theorem noControl_numbers (sizes : List ℕ) : ∀ text ∈ sizes.map toString, NoControl text := by
  rw [List.forall_mem_map]
  exact fun n _ => noControl_toString_nat n

theorem noControl_dayLiteral (d : Day) : NoControl (dayLiteral d) := by
  rw [dayLiteral, noControl_append, noControl_append, noControl_joinWith (by decide)]
  exact ⟨⟨by decide, noControl_numbers [d.year, d.month, d.day]⟩, by decide⟩

theorem noControl_momentLiteral (m : Moment) : NoControl (momentLiteral m) := by
  unfold momentLiteral
  dsimp only
  rw [noControl_append, noControl_append, noControl_joinWith (by decide), List.forall_mem_append,
    List.forall_mem_append]
  refine ⟨⟨by decide, ⟨noControl_numbers [m.day.year, m.day.month, m.day.day, m.hour, m.minute],
    ?_⟩, ?_⟩, by decide⟩
  · split
    · exact noControl_numbers [m.second, m.microsecond]
    · split
      · exact noControl_numbers [m.second]
      · exact noControl_numbers []
  · split
    · exact noControl_numbers []
    · rw [List.forall_mem_singleton, noControl_append]
      exact ⟨by decide, noControl_offsetLiteral _⟩

mutual

/-- In its literal form no value shows a control character. -/
theorem noControl_literalForm : ∀ v : Value, NoControl v.literalForm
  | .null => by rw [literalForm]; decide
  | .bool b => by cases b <;> (rw [literalForm]; decide)
  | .int i => by rw [literalForm]; exact noControl_toString_int i
  | .float x => by rw [literalForm]; exact noControl_float x
  | .text s => by rw [literalForm, noControl_ofList]; exact blank_le_of_mem_displayQuoted
  | .day d => by rw [literalForm]; exact noControl_dayLiteral d
  | .moment m => by rw [literalForm]; exact noControl_momentLiteral m
  | .bytes data => by rw [literalForm, noControl_ofList]; exact blank_le_of_mem_displayBytes
  | .set members => by
    rw [literalForm]
    split
    · decide
    · rw [noControl_append, noControl_append, noControl_joinWith (by decide)]
      exact ⟨⟨by decide, noControl_literalForms members⟩, by decide⟩
  | .pair a b => by
    simp +decide only [literalForm, noControl_append, noControl_literalForm a,
      noControl_literalForm b, and_self]
  | .list items => by
    rw [literalForm, noControl_append, noControl_append, noControl_joinWith (by decide)]
    exact ⟨⟨by decide, noControl_literalForms items⟩, by decide⟩
  | .map entries => by
    rw [literalForm, noControl_append, noControl_append, noControl_joinWith (by decide)]
    exact ⟨⟨by decide, noControl_entryForms entries⟩, by decide⟩

theorem noControl_literalForms : ∀ values : List Value, ∀ text ∈ literalForms values,
    NoControl text
  | [] => by simp [literalForms]
  | v :: rest => by
    rw [literalForms, List.forall_mem_cons]
    exact ⟨noControl_literalForm v, noControl_literalForms rest⟩

theorem noControl_entryForms : ∀ entries : Entries, ∀ text ∈ entryForms entries, NoControl text
  | [] => by simp [entryForms]
  | (k, v) :: rest => by
    rw [entryForms, List.forall_mem_cons, noControl_append, noControl_append]
    exact ⟨⟨⟨noControl_literalForm k, by decide⟩, noControl_literalForm v⟩,
      noControl_entryForms rest⟩

end

end TypedClient.Value
