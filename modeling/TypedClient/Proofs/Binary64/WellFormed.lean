import TypedClient.Json.Lexeme
import TypedClient.Proofs.Binary64.Rounding
import TypedClient.Yaml.Content

/-!
# The numbers that documents hold

Every operation rounds its result, so that a finite result is a number with a mantissa that fits and
an exponent in range, whatever the arguments.  What the readers make of numerals is therefore such a
number, infinity or `nan`.

* `Binary64.WellFormed`: a number that can be held.
* `Binary64.wellFormed_ofDecimal`, `Binary64.wellFormed_add`: results of the operations.
* `Json.wellFormed_of_token`, `Yaml.wellFormed_of_scalarValue`: floating-point numbers that are
  read.
-/

namespace TypedClient

namespace Binary64

variable {x : Binary64}

/-- A finite number has a mantissa that fits and an exponent in range. -/
def WellFormed : Binary64 → Prop
  | .finite negative m e => (Binary64.finite negative m e).IsNumber
  | _ => True

theorem IsNumber.wellFormed (h : x.IsNumber) : x.WellFormed := by
  cases x with
  | nan => trivial
  | inf negative => trivial
  | finite negative m e => exact h

theorem wellFormed_rounded (negative : Bool) (x : ℚ) : (rounded negative x).WellFormed := by
  rcases isNumber_rounded negative x with hinf | hnumber
  · rw [hinf]
    trivial
  · exact hnumber.wellFormed

theorem wellFormed_ofRatio (negative : Bool) (num : ℕ) {den : ℕ} (hden : 0 < den) :
    (ofRatio negative num den).WellFormed := by
  rw [ofRatio_eq_rounded negative num hden]
  exact wellFormed_rounded _ _

theorem wellFormed_ofDecimal (negative : Bool) (digits : ℕ) (power : ℤ) :
    (ofDecimal negative digits power).WellFormed := by
  rw [ofDecimal_eq_rounded]
  exact wellFormed_rounded _ _

theorem wellFormed_ofScaled (negative : Bool) (m : ℕ) (e : ℤ) :
    (ofScaled negative m e).WellFormed := by
  rw [ofScaled]
  split
  · exact wellFormed_ofRatio _ _ one_pos
  · exact wellFormed_ofRatio _ _ (Nat.pow_pos two_pos)

theorem wellFormed_neg (h : x.WellFormed) : x.neg.WellFormed := by
  cases x with
  | nan => trivial
  | inf negative => trivial
  | finite negative m e => exact h

/-- A sum is well-formed, whatever its terms. -/
theorem wellFormed_add (x y : Binary64) : (x.add y).WellFormed := by
  cases x with
  | nan => trivial
  | inf s =>
    cases y with
    | nan => trivial
    | inf t =>
      rw [add]
      split <;> trivial
    | finite t n f => trivial
  | finite s m e =>
    cases y with
    | nan => trivial
    | inf t => trivial
    | finite t n f =>
      rw [add]
      split
      · exact (isNumber_zero _).wellFormed
      · exact wellFormed_ofScaled _ _ _

/-- The numeral of a text is well-formed. -/
theorem wellFormed_of_ofText? {s : List Char} (h : ofText? s = some x) : x.WellFormed := by
  have hdecimal (negative : Bool) (s : List Char) (h : unsignedDecimal? negative s = some x) :
      x.WellFormed := by
    rw [unsignedDecimal?.eq_def] at h
    dsimp only at h
    split at h
    · split at h
      · cases h
      · rw [← Option.some_inj.mp h]
        exact wellFormed_ofDecimal _ _ _
    · cases h
  have hunsigned (negative : Bool) (s : List Char) (h : unsigned? negative s = some x) :
      x.WellFormed := by
    rw [unsigned?] at h
    split at h
    · rw [← Option.some_inj.mp h]
      trivial
    · split at h
      · rw [← Option.some_inj.mp h]
        trivial
      · exact hdecimal negative s h
  rw [ofText?] at h
  split at h
  · exact hunsigned _ _ h
  · exact hunsigned _ _ h
  · exact hunsigned _ _ h

end Binary64

namespace Json

open Binary64 (WellFormed)

theorem wellFormed_of_word? {s : List Char} {size : ℕ} {x : Binary64}
    (h : word? s = some (.scalar (.float x), size)) : x.WellFormed := by
  have hwords : ∀ w ∈ words, ∀ y, w.2 = .float y → y.WellFormed := by
    intro w hw y hy
    simp only [words, List.mem_cons, List.not_mem_nil, or_false] at hw
    rcases hw with rfl | rfl | rfl | rfl | rfl | rfl <;> cases hy <;> trivial
  obtain ⟨w, hfind, hw⟩ := Option.map_eq_some_iff.mp h
  exact hwords w (List.mem_of_find?_eq_some hfind) x (Token.scalar.inj (Prod.mk.inj hw).1)

theorem wellFormed_of_numeral? {s : List Char} {size : ℕ} {x : Binary64}
    (h : numeral? s = some (.scalar (.float x), size)) : x.WellFormed := by
  rw [numeral?] at h
  dsimp only at h
  generalize (if (s.head? == some '-') = true then s.drop 1 else s) = body at h
  generalize (if (fractionPart (body.drop (wholePart body).length)).isEmpty = true then 0
    else (fractionPart (body.drop (wholePart body).length)).length + 1) = fractionSize at h
  split at h
  · cases h
  · split at h
    · cases h
      exact Binary64.wellFormed_ofDecimal _ _ _
    · split at h
      · split at h <;> cases h
      · cases h
        exact Binary64.wellFormed_ofDecimal _ _ _

/-- A floating-point numeral of a JSON text is well-formed. -/
theorem wellFormed_of_token {position size : ℕ} {c : Char} {rest : List Char} {x : Binary64}
    (h : token position c rest = (.scalar (.float x), size)) : x.WellFormed := by
  rw [token] at h
  iterate 6
    split at h
    · cases h
  split at h
  · split at h <;> cases h
  · split at h
    · rename_i t taken hword
      obtain ⟨rfl, -⟩ := Prod.mk.inj h
      exact wellFormed_of_word? hword
    · split at h
      · rename_i t taken hnumeral
        obtain ⟨rfl, -⟩ := Prod.mk.inj h
        exact wellFormed_of_numeral? hnumeral
      · cases h

end Json

namespace Yaml

open Binary64 (WellFormed)

/-- A sum of digits in base sixty is well-formed. -/
theorem wellFormed_sexagesimalFloat (digits : List Binary64) :
    (sexagesimalFloat digits).WellFormed := by
  have hstart : (Binary64.zero false, (1 : ℤ)).1.WellFormed :=
    (Binary64.isNumber_zero false).wellFormed
  rw [sexagesimalFloat]
  generalize digits.reverse = digits
  generalize (Binary64.zero false, (1 : ℤ)) = start at hstart ⊢
  induction digits generalizing start with
  | nil => exact hstart
  | cons digit digits ih => exact ih _ (Binary64.wellFormed_add _ _)

/-- A floating-point numeral of a YAML text is well-formed. -/
theorem wellFormed_of_readFloat {s : List Char} {x : Binary64} (h : readFloat s = .ok x) :
    x.WellFormed := by
  have hsize {body : List Char} {y : Binary64} (hy : (if body = ".inf".toList then
      some (Binary64.inf false) else if body = ".nan".toList then some .nan
      else if body.contains ':' then
        ((Text.segments ':' body).mapM Binary64.ofText?).map sexagesimalFloat
      else Binary64.ofText? body) = some y) : y.WellFormed := by
    split at hy
    · rw [← Option.some_inj.mp hy]
      trivial
    · split at hy
      · rw [← Option.some_inj.mp hy]
        trivial
      · split at hy
        · obtain ⟨digits, -, rfl⟩ := Option.map_eq_some_iff.mp hy
          exact wellFormed_sexagesimalFloat digits
        · exact Binary64.wellFormed_of_ofText? hy
  rw [readFloat] at h
  split at h
  · cases h
  · split at h
    · rename_i y hy
      have hy := hsize hy
      split at h
      · rw [← Except.ok.inj h]
        exact Binary64.wellFormed_neg hy
      · rw [← Except.ok.inj h]
        exact hy
    · cases h

/-- A floating-point scalar of a YAML text is well-formed. -/
theorem wellFormed_of_scalarValue {tag : Tag} {s : String} {x : Binary64}
    (h : Node.scalarValue tag s = .ok (.float x)) : x.WellFormed := by
  cases tag with
  | float =>
    change Node.numberOf .float (readFloat (Text.lower s.toList)) = .ok (.float x) at h
    rcases hread : readFloat (Text.lower s.toList) with fault | y
    · rw [hread] at h
      cases fault <;> cases h
    · rw [hread] at h
      cases h
      exact wellFormed_of_readFloat hread
  | bool =>
    change Node.truthOf s = .ok (.float x) at h
    rw [Node.truthOf] at h
    split at h <;> cases h
  | int =>
    change Node.numberOf .int (readInt s.toList) = .ok (.float x) at h
    rcases hread : readInt s.toList with fault | n
    · rw [hread] at h
      cases fault <;> cases h
    · rw [hread] at h
      cases h
  | timestamp =>
    change Node.timestampOf s.toList = .ok (.float x) at h
    rw [Node.timestampOf] at h
    split at h
    · cases h
    · split at h <;> dsimp only at h <;> split at h
      · rename_i v hv
        obtain ⟨_, -, rfl⟩ := Option.map_eq_some_iff.mp hv
        cases h
      · cases h
      · rename_i v hv
        obtain ⟨_, -, rfl⟩ := Option.map_eq_some_iff.mp hv
        cases h
      · cases h
  | binary =>
    change Node.bytesOf s.toList = .ok (.float x) at h
    rw [Node.bytesOf] at h
    split at h
    · split at h <;> cases h
    · cases h
  | _ => cases h

end Yaml

end TypedClient
