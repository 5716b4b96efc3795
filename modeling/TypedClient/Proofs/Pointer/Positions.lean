import TypedClient.Pointer
import TypedClient.Proofs.Outcome
import TypedClient.Proofs.Text.Integers

/-!
# What references reach

A reference is followed segment by segment, through maps by their keys and through lists by the
positions of their elements.  The standard writes a position as the decimal numeral that begins with
a zero only if it is zero.  What is followed besides is every other text that is read as a whole
number, with a sign, zeros or white space in front, underscores in between or the digits of another
script, and negative numbers, which count from the end of the list.

* `Reaches`: following a path when lists are entered by a given rule; `standard` and `lenient` are
  the rule of the standard and the one that is followed.
* `follow_eq_ok_iff`: what is reached.
* `Conforms`: only what the standard reaches is reached, and all else is refused.
* `resolve_conforms_iff`: when a reference conforms.
* `not_conforms_negative`: a reference to the last element of a list.
-/

namespace TypedClient.Pointer

open Script (IsWhole natOf)

variable {ref : String} {segment : List Char} {path before after : List (List Char)}
  {items : List Value} {u v w root : Value}

/-! ## Entering lists -/

/-- The standard's rule: the segment is the decimal numeral of the element's position. -/
def standard (segment : List Char) (items : List Value) (v : Value) : Prop :=
  IsWhole segment ∧ items[natOf segment]? = some v

/-- The rule that is followed: the segment is read as the element's position, which may be counted
from the end of the list as a negative number. -/
def lenient (segment : List Char) (items : List Value) (v : Value) : Prop :=
  ∃ (i : ℤ) (k : ℕ), Text.Integer segment i ∧ (i = k ∨ i + items.length = k) ∧ items[k]? = some v

theorem element?_eq_some_iff {i : ℤ} :
    element? items i = some v ↔ ∃ k : ℕ, (i = k ∨ i + items.length = k) ∧ items[k]? = some v := by
  unfold element?
  constructor
  · intro h
    by_cases hi : 0 ≤ i
    · rw [if_pos hi] at h
      exact ⟨i.toNat, Or.inl (by omega), h⟩
    · rw [if_neg hi] at h
      split at h
      · exact ⟨items.length - i.natAbs, Or.inr (by omega), h⟩
      · cases h
  · rintro ⟨k, hk, hget⟩
    obtain ⟨hlt, -⟩ := List.getElem?_eq_some_iff.mp hget
    by_cases hi : 0 ≤ i
    · rw [if_pos hi, show i.toNat = k by omega]
      exact hget
    · rw [if_neg hi, if_pos (by omega), show items.length - i.natAbs = k by omega]
      exact hget

theorem enter_list_eq_ok_iff :
    enter ref segment (.list items) = .ok v ↔ lenient segment items v := by
  have henter : enter ref segment (.list items) = .ok v ↔
      (Text.readInteger? segment).bind (element? items) = some v := by
    rw [enter]
    cases (Text.readInteger? segment).bind (element? items) with
    | none => exact iff_of_false (by rintro ⟨⟩) (by rintro ⟨⟩)
    | some u =>
      exact ⟨fun h => congrArg some (Except.ok.inj h), fun h => congrArg _ (Option.some_inj.mp h)⟩
  rw [henter, Option.bind_eq_some_iff, lenient]
  refine exists_congr fun i => ?_
  rw [Text.readInteger?_eq_some_iff, element?_eq_some_iff, exists_and_left]

/-- A list that is entered by a decimal numeral is entered as the standard says. -/
theorem lenient.standard (h : lenient segment items v) (hsegment : IsWhole segment) :
    standard segment items v := by
  obtain ⟨i, k, hi, hk, hget⟩ := h
  obtain ⟨hlt, -⟩ := List.getElem?_eq_some_iff.mp hget
  have heq := hi.eq_natOf hsegment
  refine ⟨hsegment, ?_⟩
  rw [show natOf segment = k by omega]
  exact hget

/-! ## Following a path -/

/-- A path of segments leads from one value to another, each segment being a key of the map or, by
the rule, a position of the list that it meets. -/
inductive Reaches (rule : List Char → List Value → Value → Prop) :
    List (List Char) → Value → Value → Prop
  | here (v : Value) : Reaches rule [] v v
  | key {segment : List Char} {path : List (List Char)} {entries : Entries} {v w : Value}
      (hget : Value.lookup? (String.ofList segment) entries = some v) (h : Reaches rule path v w) :
      Reaches rule (segment :: path) (.map entries) w
  | element {segment : List Char} {path : List (List Char)} {items : List Value} {v w : Value}
      (hrule : rule segment items v) (h : Reaches rule path v w) :
      Reaches rule (segment :: path) (.list items) w

theorem follow_eq_ok_iff : follow ref path v = .ok w ↔ Reaches lenient path v w := by
  induction path generalizing v with
  | nil =>
    rw [follow]
    constructor
    · intro h
      obtain rfl := Except.ok.inj h
      exact .here v
    · intro h
      cases h
      rfl
  | cons segment path ih =>
    rw [follow, Outcome.bind_eq_ok_iff]
    constructor
    · rintro ⟨u, hu, h⟩
      rw [ih] at h
      cases v with
      | map entries =>
        rw [enter] at hu
        split at hu
        · rename_i hget
          obtain rfl := Except.ok.inj hu
          exact .key hget h
        · cases hu
      | list items => exact .element (enter_list_eq_ok_iff.mp hu) h
      | _ => cases hu
    · intro h
      cases h with
      | key hget h => exact ⟨_, by rw [enter, hget], ih.mpr h⟩
      | element hrule h => exact ⟨_, enter_list_eq_ok_iff.mpr hrule, ih.mpr h⟩

theorem reaches_append_iff {rule : List Char → List Value → Value → Prop} :
    Reaches rule (before ++ after) v w ↔
      ∃ u, Reaches rule before v u ∧ Reaches rule after u w := by
  constructor
  · intro h
    induction before generalizing v with
    | nil => exact ⟨v, .here v, h⟩
    | cons segment before ih =>
      cases h with
      | key hget h =>
        obtain ⟨u, hu, hrest⟩ := ih h
        exact ⟨u, .key hget hu, hrest⟩
      | element hrule h =>
        obtain ⟨u, hu, hrest⟩ := ih h
        exact ⟨u, .element hrule hu, hrest⟩
  · rintro ⟨u, hu, hrest⟩
    induction hu with
    | here => exact hrest
    | key hget _ ih => exact .key hget (ih hrest)
    | element hrule _ ih => exact .element hrule (ih hrest)

/-- What the standard reaches is all that can be reached. -/
theorem Reaches.unique (h : Reaches standard path v u) (h' : Reaches lenient path v w) : u = w := by
  induction h with
  | here =>
    cases h'
    rfl
  | key hget _ ih =>
    cases h' with
    | key hget' h' =>
      rw [hget] at hget'
      obtain rfl := Option.some_inj.mp hget'
      exact ih h'
  | element hrule _ ih =>
    cases h' with
    | element hrule' h' =>
      have hget := (hrule'.standard hrule.1).2
      rw [hrule.2] at hget
      obtain rfl := Option.some_inj.mp hget
      exact ih h'

/-- Every list on the way is entered by a decimal numeral. -/
def Numbered (path : List (List Char)) (root : Value) : Prop :=
  ∀ before segment after items, path = before ++ segment :: after →
    Reaches lenient before root (.list items) → IsWhole segment

/-- What is reached by decimal numerals is reached as the standard says. -/
theorem Reaches.standard_of_numbered (h : Reaches lenient path v w) (hpath : Numbered path v) :
    Reaches standard path v w := by
  induction h with
  | here v => exact .here v
  | key hget _ ih =>
    refine .key hget (ih fun before segment after items hsplit hbefore => ?_)
    exact hpath _ segment after items (congrArg _ hsplit) (.key hget hbefore)
  | element hrule _ ih =>
    have hsegment := hpath [] _ _ _ rfl (.here _)
    refine .element (hrule.standard hsegment)
      (ih fun before segment after items hsplit hbefore => ?_)
    exact hpath _ segment after items (congrArg _ hsplit) (.element hrule hbefore)

/-! ## References -/

/-- The segments of a reference into the document. -/
def segmentsOf (ref : String) : List (List Char) :=
  (Text.segments '/' (ref.toList.drop 2)).map unescape

theorem resolve_eq_follow (href : ['#', '/'] <+: ref.toList) (root : Value) :
    resolve ref root = follow ref (segmentsOf ref) root := by
  obtain ⟨rest, hrest⟩ := href
  rw [resolve, segmentsOf, ← hrest]
  rfl

/-- A reference reaches only what the standard lets it reach, and is refused where that is
nothing. -/
structure Conforms (ref : String) (root : Value) : Prop where
  reached : ∀ v, resolve ref root = .ok v → Reaches standard (segmentsOf ref) root v
  refused : (∀ v, ¬ Reaches standard (segmentsOf ref) root v) → ∃ e, resolve ref root = .error e

/-- A reference into the document reaches a value exactly if its segments lead there by keys and by
whole numbers, however these are written.  It conforms exactly if it is refused, or if all lists on
the way are entered by decimal numerals. -/
theorem resolve_conforms_iff (href : ['#', '/'] <+: ref.toList) (root : Value) :
    (∀ v, resolve ref root = .ok v ↔ Reaches lenient (segmentsOf ref) root v) ∧
    (Conforms ref root ↔
      (∃ e, resolve ref root = .error e) ∨ Numbered (segmentsOf ref) root) := by
  have hresolve : ∀ v, resolve ref root = .ok v ↔ Reaches lenient (segmentsOf ref) root v := by
    intro v
    rw [resolve_eq_follow href, follow_eq_ok_iff]
  refine ⟨hresolve, ?_, ?_⟩
  · intro h
    rcases Outcome.ok_or_error (resolve ref root) with ⟨v, hv⟩ | herror
    · refine Or.inr fun before segment after items hsplit hbefore => ?_
      have hreached := h.reached v hv
      rw [hsplit, reaches_append_iff] at hreached
      obtain ⟨u, hu, hrest⟩ := hreached
      rw [hu.unique hbefore] at hrest
      cases hrest with
      | element hrule _ => exact hrule.1
    · exact Or.inl herror
  · rintro (⟨e, he⟩ | hnumbered)
    · refine ⟨fun v hv => ?_, fun _ => ⟨e, he⟩⟩
      rw [he] at hv
      cases hv
    · have hreached : ∀ v, resolve ref root = .ok v → Reaches standard (segmentsOf ref) root v :=
        fun v hv => ((hresolve v).mp hv).standard_of_numbered hnumbered
      refine ⟨hreached, fun hnone => ?_⟩
      rcases Outcome.ok_or_error (resolve ref root) with ⟨v, hv⟩ | herror
      · exact absurd (hreached v hv) (hnone v)
      · exact herror

/-- A document with a list of two pets. -/
def petList : Value := .map [(.text "pets", .list [.text "Tom", .text "Rex"])]

/-- A reference by a decimal numeral conforms. -/
theorem conforms_second_pet : ['#', '/'] <+: "#/pets/1".toList ∧ Conforms "#/pets/1" petList ∧
    resolve "#/pets/1" petList = .ok (.text "Rex") := by
  have href : ['#', '/'] <+: "#/pets/1".toList := by decide
  have hsegments : segmentsOf "#/pets/1" = ["pets".toList, ['1']] := by decide +kernel
  refine ⟨href, (resolve_conforms_iff href petList).2.mpr (Or.inr ?_), rfl⟩
  rw [hsegments]
  rintro (_ | ⟨first, _ | ⟨second, before⟩⟩) segment after items hsplit hbefore
  · cases hbefore
  · obtain ⟨-, rfl, -⟩ : _ ∧ ['1'] = segment ∧ _ := by simpa using hsplit
    exact Script.isWhole_toDigits 1
  · simp at hsplit

/-- The reference to the last element by a negative number is no reference of the standard. -/
theorem not_conforms_negative : ¬ Conforms "#/pets/-1" petList := by
  intro h
  have hsegments : segmentsOf "#/pets/-1" = ["pets".toList, ['-', '1']] := by decide +kernel
  have hreached := h.reached (.text "Rex") rfl
  rw [hsegments] at hreached
  cases hreached with
  | key hget hreached =>
    obtain rfl := Option.some_inj.mp hget
    cases hreached with
    | element hrule _ => exact absurd (hrule.1.digits '-' List.mem_cons_self) (by decide)

end TypedClient.Pointer
