import TypedClient.Proofs.Binary64.WellFormed
import TypedClient.Proofs.Binary64.Whole
import TypedClient.Proofs.Script.Expression
import TypedClient.Proofs.Script.Numeral

/-!
# Constants of the generated script

The literals of the generated source are read as constants of the script: null, truth values,
strings in single quotes and numerals.  A text reads back unless it holds a carriage return, which
is written as it is although it ends the line.  All numbers of the script are binary floating-point
numbers.  So whole numbers read back if they are the values of such numbers, and floating-point
numbers if they are finite; infinity and the undefined results are written as words that stand for
no number.

* `Constant`, `Constant.read?`: a constant, and the constant that a text is.
* `Constant.Denotes`: a constant stands for a value.
* `IsRead`: the floating-point numbers that documents hold.
* `literals_read_back`: which literals read back.
-/

namespace TypedClient.Script

open Source (quote quoteChar literal)

/-- A constant of the script. -/
inductive Constant where
  | null
  | truth (b : Bool)
  | text (s : String)
  | number (numeral : Numeral)
deriving Repr, DecidableEq

/-- The string that a text is, in single quotes from its first character to its last. -/
def readString? : List Char → Option String
  | [] => none
  | c :: rest =>
    if c = string.closing then
      (string.read false rest).bind fun read =>
        if read.2 = [] then some (String.ofList read.1) else none
    else none

/-- The constant that a text is. -/
def Constant.read? (s : List Char) : Option Constant :=
  if s = "null".toList then some .null
  else if s = "true".toList then some (.truth true)
  else if s = "false".toList then some (.truth false)
  else ((readString? s).map .text).or ((Numeral.read? s).map .number)

/-- The constant stands for the value.  A numeral stands for the number that the script makes of it,
and so for a whole number only if that is the value of this number. -/
def Constant.Denotes : Constant → Value → Prop
  | .null, .null => True
  | .truth b, .bool c => b = c
  | .text s, .text t => s = t
  | .number numeral, .int i => numeral.rounded.value? = some (i : ℚ)
  | .number numeral, .float x => numeral.rounded = x
  | _, _ => False

/-- The value is written as a constant that stands for it. -/
def ReadsBack (v : Value) : Prop :=
  ∃ constant, Constant.read? (literal v).toList = some constant ∧ constant.Denotes v

/-- The scalars of a document but texts with a carriage return, numbers that are not finite, and
whole numbers that are not the value of any floating-point number. -/
def HasLiteral : Value → Prop
  | .null => True
  | .bool _ => True
  | .int i => Binary64.HoldsWhole i
  | .float x => x.IsNumber
  | .text s => '\r' ∉ s.toList
  | _ => False

/-! ## Strings -/

theorem readString?_quote {s : String} (hs : '\r' ∉ s.toList) :
    readString? (quote s).toList = some s := by
  rw [toList_quote, List.singleton_append, readString?, if_pos rfl,
    Literal.read_flatMap fun c hc => string_writes fun heq => hs (heq ▸ hc), Option.bind_some,
    if_pos rfl, String.ofList_toList]

theorem readString?_quote_of_mem {s : String} (hs : '\r' ∈ s.toList) :
    readString? (quote s).toList = none := by
  rw [toList_quote, List.singleton_append, readString?, if_pos rfl,
    Literal.read_flatMap_of_breaks string_writes_or_breaks hs string_breaks, Option.bind_none]

/-- A text in quotes is a string or no constant at all. -/
theorem read?_quote (s : String) :
    Constant.read? (quote s).toList = (readString? (quote s).toList).map .text := by
  rw [toList_quote, List.singleton_append]
  generalize s.toList.flatMap quoteChar ++ [string.closing] = rest
  have hword : ∀ word : List Char, word.head? ≠ some string.closing →
      string.closing :: rest ≠ word := by
    rintro word hword rfl
    exact hword rfl
  have hnumeral : Numeral.read? (string.closing :: rest) = none := rfl
  rw [Constant.read?, if_neg (hword _ (by decide)), if_neg (hword _ (by decide)),
    if_neg (hword _ (by decide)), hnumeral]
  exact Option.or_none

/-- A text reads back exactly if it holds no carriage return. -/
theorem read?_quote_iff (s : String) :
    Constant.read? (quote s).toList = some (.text s) ↔ '\r' ∉ s.toList := by
  rw [read?_quote]
  constructor
  · intro hread hmem
    rw [readString?_quote_of_mem hmem] at hread
    cases hread
  · intro hs
    rw [readString?_quote hs]
    rfl

/-- A text in quotes stands for nothing but a text. -/
theorem not_readsBack_of_quote {v : Value} {s : String} (hliteral : literal v = quote s)
    (hv : ∀ t, v ≠ .text t) : ¬ ReadsBack v := by
  rintro ⟨constant, hread, hdenotes⟩
  rw [hliteral, read?_quote] at hread
  obtain ⟨t, -, rfl⟩ := Option.map_eq_some_iff.mp hread
  cases v <;> first | exact hdenotes | exact hv _ rfl

/-! ## Numbers -/

/-- A numeral is read as a number. -/
theorem read?_of_numeral {s : List Char} {numeral : Numeral}
    (h : Numeral.read? s = some numeral) : Constant.read? s = some (.number numeral) := by
  have hword : ∀ word : List Char, Numeral.read? word = none → s ≠ word := by
    rintro word hword rfl
    rw [h] at hword
    cases hword
  have hstring : readString? s = none := by
    cases s with
    | nil => rfl
    | cons c rest =>
      have hc : c ≠ string.closing := by
        rintro rfl
        cases h
      rw [readString?, if_neg hc]
  rw [Constant.read?, if_neg (hword _ (by decide)), if_neg (hword _ (by decide)),
    if_neg (hword _ (by decide)), hstring, h]
  rfl

/-- A whole number reads back exactly if it is the value of a floating-point number. -/
theorem readsBack_int_iff (i : ℤ) : ReadsBack (.int i) ↔ Binary64.HoldsWhole i := by
  have hread : Constant.read? (literal (.int i)).toList =
      some (.number ⟨decide (i < 0), i.natAbs, 0⟩) := read?_of_numeral (read?_toString i)
  have hrounded : (⟨decide (i < 0), i.natAbs, 0⟩ : Numeral).rounded =
      Binary64.rounded (decide (i < 0)) i.natAbs := by
    rw [Numeral.rounded, zpow_zero, mul_one]
  rw [← Binary64.value?_rounded_iff, ← hrounded]
  constructor
  · rintro ⟨constant, hconstant, hdenotes⟩
    obtain rfl := Option.some_inj.mp (hread.symm.trans hconstant)
    exact hdenotes
  · exact fun hdenotes => ⟨_, hread, hdenotes⟩

theorem read?_infinity (negative : Bool) :
    Constant.read? (literal (.float (.inf negative))).toList = none := by
  cases negative <;> decide

/-- A floating-point number reads back exactly if it is finite. -/
theorem readsBack_float_iff (x : Binary64) : ReadsBack (.float x) ↔ x.IsNumber := by
  constructor
  · rintro ⟨constant, hread, hdenotes⟩
    cases constant with
    | number numeral =>
      have hrounded : numeral.rounded = x := hdenotes
      rcases Binary64.isNumber_rounded numeral.negative (numeral.digits * 10 ^ numeral.power) with
        hinf | hnumber
      · -- what is written for infinity is no constant
        rw [← hrounded, Numeral.rounded, hinf] at hread
        rw [read?_infinity] at hread
        cases hread
      · rw [← hrounded]
        exact hnumber
    | null => exact hdenotes.elim
    | truth b => exact hdenotes.elim
    | text s => exact hdenotes.elim
  · intro hx
    obtain ⟨numeral, hread, hrounded⟩ := read?_text hx
    exact ⟨_, read?_of_numeral hread, hrounded⟩

/-- A floating-point number that a numeral of a document is read as, in JSON or in YAML. -/
inductive IsRead (x : Binary64) : Prop
  | json {position size : ℕ} {c : Char} {rest : List Char}
      (h : Json.token position c rest = (.scalar (.float x), size)) : IsRead x
  | yaml {tag : Yaml.Tag} {s : String} (h : Yaml.Node.scalarValue tag s = .ok (.float x)) : IsRead x

theorem IsRead.wellFormed {x : Binary64} (h : IsRead x) : x.WellFormed := by
  cases h with
  | json h => exact Json.wellFormed_of_token h
  | yaml h => exact Yaml.wellFormed_of_scalarValue h

/-- A number that can be held reads back unless it is infinite or undefined. -/
theorem readsBack_float_of_wellFormed {x : Binary64} (hx : x.WellFormed) :
    ReadsBack (.float x) ↔ x ≠ .nan ∧ ∀ negative, x ≠ .inf negative := by
  rw [readsBack_float_iff]
  cases x with
  | nan => exact iff_of_false id fun h => h.1 rfl
  | inf negative => exact iff_of_false id fun h => h.2 negative rfl
  | finite negative m e =>
    exact iff_of_true hx ⟨Binary64.noConfusion, fun _ => Binary64.noConfusion⟩

/-! ## Values -/

/-- A text is a string exactly if it holds no carriage return, and a value reads back exactly if it
is null, a truth value, a whole number that is the value of a floating-point number, a finite
floating-point number or such a text.  A floating-point number of a document is finite unless it is
infinite or undefined. -/
theorem literals_read_back (s : String) (v : Value) :
    (Constant.read? (quote s).toList = some (.text s) ↔ '\r' ∉ s.toList) ∧
      (ReadsBack v ↔ HasLiteral v) ∧
      ∀ x, IsRead x → (ReadsBack (.float x) ↔ x ≠ .nan ∧ ∀ negative, x ≠ .inf negative) := by
  refine ⟨read?_quote_iff s, ?_, fun x hx => readsBack_float_of_wellFormed hx.wellFormed⟩
  cases v with
  | null => exact iff_of_true ⟨.null, by decide, trivial⟩ trivial
  | bool b =>
    refine iff_of_true ⟨.truth b, ?_, rfl⟩ trivial
    cases b <;> decide
  | int i => exact readsBack_int_iff i
  | float x => exact readsBack_float_iff x
  | text s =>
    rw [HasLiteral, ← read?_quote_iff]
    constructor
    · rintro ⟨constant, hread, hdenotes⟩
      change Constant.read? (quote s).toList = some constant at hread
      obtain ⟨t, -, rfl⟩ := Option.map_eq_some_iff.mp ((read?_quote s).symm.trans hread)
      obtain rfl : t = s := hdenotes
      exact hread
    · exact fun hread => ⟨_, hread, rfl⟩
  | day d => exact iff_of_false (not_readsBack_of_quote rfl fun _ => Value.noConfusion) id
  | moment m => exact iff_of_false (not_readsBack_of_quote rfl fun _ => Value.noConfusion) id
  | bytes data => exact iff_of_false (not_readsBack_of_quote rfl fun _ => Value.noConfusion) id
  | set members => exact iff_of_false (not_readsBack_of_quote rfl fun _ => Value.noConfusion) id
  | pair a b => exact iff_of_false (not_readsBack_of_quote rfl fun _ => Value.noConfusion) id
  | list items => exact iff_of_false (not_readsBack_of_quote rfl fun _ => Value.noConfusion) id
  | map entries => exact iff_of_false (not_readsBack_of_quote rfl fun _ => Value.noConfusion) id

/-- A carriage return breaks a text, infinity and `nan` are no numbers, and `2 ^ 53 + 1` is read as
another number. -/
theorem not_readsBack_return :
    Constant.read? (quote "\r").toList ≠ some (.text "\r") ∧ ¬ ReadsBack (.text "\r") ∧
      ¬ ReadsBack (.float (.inf false)) ∧ ¬ ReadsBack (.float .nan) ∧
      ¬ ReadsBack (.int (2 ^ 53 + 1)) := by
  have hreturn : Constant.read? (quote "\r").toList = none := by decide
  refine ⟨?_, ?_, ?_, ?_, fun h => Binary64.not_holdsWhole_succ ((readsBack_int_iff _).mp h)⟩
  · rw [hreturn]
    exact Option.some_ne_none _ |>.symm
  · rintro ⟨constant, hread, -⟩
    exact absurd (hreturn.symm.trans hread) (Option.some_ne_none _).symm
  · exact fun h => (readsBack_float_iff _).mp h
  · exact fun h => (readsBack_float_iff _).mp h

end TypedClient.Script
