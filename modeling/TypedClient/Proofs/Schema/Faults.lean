import TypedClient.Proofs.Outcome
import TypedClient.Schema.Reading

/-!
# Schemas that cannot be read

Almost any value is read as some schema; a keyword with an odd value is passed over or makes the
schema untyped.  Three keywords are the exception.  Their values are looked up among others, which
takes values that can be compared: the type and the format are compared with words, and the required
names become a set.  Where one of them cannot be, anywhere in the tree of a schema object, reading
fails.

* `OwnFault`: a schema object has such a value under one of its own keywords.
* `parts`: the values that a schema object gives for schemas of its own tree.
* `Faulty`: such a value stands anywhere in the tree of a schema object.
* `fails_ofValue_iff`: reading fails exactly then.
-/

namespace TypedClient

open Outcome (Fails fails_bind_iff fails_map_iff not_fails_ok)

namespace Value

/-- Can the value be compared with words?  All keys can, and so can sets. -/
def isComparable : Value → Bool
  | .set _ => true
  | v => v.isKey

theorem fails_isOneOf_iff (words : List String) {v : Value} :
    Fails (v.isOneOf words) ↔ v.isComparable = false := by
  have hother : Fails (if v.isKey then .ok false else .error .notKey : Except Misfit Bool) ↔
      v.isKey = false := by
    cases v.isKey with
    | true => exact iff_of_false (not_fails_ok _) Bool.false_ne_true.symm
    | false => exact iff_of_true ⟨_, rfl⟩ rfl
  cases v with
  | text s => exact iff_of_false (not_fails_ok _) Bool.false_ne_true.symm
  | set members => exact iff_of_false (not_fails_ok _) Bool.false_ne_true.symm
  | _ => exact hother

theorem fails_requireKey_iff {v : Value} : Fails v.requireKey ↔ v.isKey = false := by
  rw [requireKey]
  cases v.isKey with
  | true => exact iff_of_false (not_fails_ok _) Bool.false_ne_true.symm
  | false => exact iff_of_true ⟨_, rfl⟩ rfl

end Value

namespace Schema

variable {entries : Entries} {type : Value}

/-! ## Types -/

mutual

/-- The single types among the value of a type keyword: all but the word `null`, or null if there is
no other. -/
def typesOf : Value → List Value
  | .list types =>
    match types.filter fun t => !isNullWord t with
    | [] => [.null]
    | [t] => [t]
    | _ => typesOfEach types
  | type => [type]

/-- `typesOf` for the elements of a list. -/
def typesOfEach : List Value → List Value
  | [] => []
  | t :: rest => if isNullWord t then typesOfEach rest else typesOf t ++ typesOfEach rest

end

section

variable {shape : Bool → Value → Except Misfit Schema} {P : Value → Prop}

mutual

/-- A schema cannot be read of the types of an object if it cannot be read of one of them. -/
theorem fails_byType_iff (h : ∀ nullable type, Fails (shape nullable type) ↔ P type) :
    ∀ (v : Value) (nullable : Bool), Fails (byType shape nullable v) ↔ ∃ t ∈ typesOf v, P t
  | .list types, nullable => by
    rw [byType, typesOf]
    rcases types.filter fun t => !isNullWord t with _ | ⟨t, _ | ⟨u, more⟩⟩
    · simp only [List.mem_singleton, exists_eq_left, h]
    · simp only [List.mem_singleton, exists_eq_left, h]
    · exact (fails_map_iff _ _).trans (fails_byTypes_iff h types nullable)
  | .null, nullable | .bool _, nullable | .int _, nullable | .float _, nullable
  | .text _, nullable | .day _, nullable | .moment _, nullable | .bytes _, nullable
  | .set _, nullable | .pair _ _, nullable | .map _, nullable => by
    simp only [byType, typesOf, List.mem_singleton, exists_eq_left, h]

/-- `fails_byType_iff` for the elements of a list. -/
theorem fails_byTypes_iff (h : ∀ nullable type, Fails (shape nullable type) ↔ P type) :
    ∀ (types : List Value) (nullable : Bool),
      Fails (byTypes shape nullable types) ↔ ∃ t ∈ typesOfEach types, P t
  | [], nullable => by
    rw [byTypes, typesOfEach]
    exact iff_of_false (not_fails_ok _) (by simp)
  | t :: rest, nullable => by
    rw [byTypes, typesOfEach]
    split
    · exact fails_byTypes_iff h rest nullable
    · simp only [List.mem_append, or_and_right, exists_or]
      rw [← fails_byType_iff h t nullable, ← fails_byTypes_iff h rest nullable]
      exact fails_bind_iff fun s _ => fails_map_iff _ _

end

end

/-! ## Faults -/

/-- Read for one type, the schema object has a value under a keyword of its own that cannot be
looked up: an object a required name that is no key, any other shape the type itself or, without a
type, the format. -/
def OwnFault (entries : Entries) (type : Value) : Announced → Prop
  | .object => ∃ name ∈ Value.itemsUnder entries "required", name.isKey = false
  | .other => settledType entries type = .null ∧
        (Value.getD (.map entries) "format").isComparable = false ∨
      (settledType entries type).isComparable = false
  | _ => False

/-- The values that a schema object of a shape gives for other schemas. -/
def parts (entries : Entries) : Announced → List Value
  | .composition _ keyword => Value.itemsUnder entries keyword
  | .array => (Value.lookup? "items" entries).toList
  | .object => (Value.entriesUnder entries "properties").map Prod.snd ++
      (Value.lookup? "additionalProperties" entries).toList
  | _ => []

/-- A value that cannot be looked up stands under a keyword somewhere in the tree of the schema
object. -/
inductive Faulty : Value → Prop
  | own {entries : Entries} {type : Value}
      (htype : type ∈ typesOf (Value.getD (.map entries) "type"))
      (h : OwnFault entries type (announced entries type)) : Faulty (.map entries)
  | part {entries : Entries} {type v : Value}
      (htype : type ∈ typesOf (Value.getD (.map entries) "type"))
      (hv : v ∈ parts entries (announced entries type)) (h : Faulty v) : Faulty (.map entries)

theorem faulty_map_iff : Faulty (.map entries) ↔
    ∃ type ∈ typesOf (Value.getD (.map entries) "type"),
      OwnFault entries type (announced entries type) ∨
        ∃ v ∈ parts entries (announced entries type), Faulty v := by
  constructor
  · rintro (⟨htype, h⟩ | ⟨htype, hv, h⟩)
    · exact ⟨_, htype, Or.inl h⟩
    · exact ⟨_, htype, Or.inr ⟨_, hv, h⟩⟩
  · rintro ⟨type, htype, h | ⟨v, hv, h⟩⟩
    · exact .own htype h
    · exact .part htype hv h

/-- Only schema objects have faults. -/
theorem Faulty.exists_eq_map {v : Value} (h : Faulty v) : ∃ entries, v = .map entries := by
  cases h with
  | own => exact ⟨_, rfl⟩
  | part => exact ⟨_, rfl⟩

/-! ## Reading -/

theorem fails_requiredKeys_iff : Fails (requiredKeys entries) ↔
    ∃ name ∈ Value.itemsUnder entries "required", name.isKey = false := by
  rw [requiredKeys]
  refine (fails_map_iff _ _).trans (Outcome.fails_forM_iff.trans ?_)
  exact exists_congr fun name => and_congr_right fun _ => Value.fails_requireKey_iff

theorem fails_datedType_iff {format : Value} :
    Fails (datedType format type) ↔ type = .null ∧ format.isComparable = false := by
  rw [datedType, ← Value.isNull_iff]
  cases type.isNull with
  | true =>
    rw [if_pos rfl, and_iff_right rfl, ← Value.fails_isOneOf_iff dateFormats]
    exact fails_map_iff _ _
  | false =>
    rw [if_neg Bool.false_ne_true]
    exact iff_of_false (not_fails_ok _) fun h => Bool.false_ne_true h.1

/-- Settling the type by a date format leaves it as comparable as it was. -/
theorem isComparable_of_datedType {format settled : Value}
    (h : datedType format type = .ok settled) : settled.isComparable = type.isComparable := by
  rw [datedType] at h
  cases hnull : type.isNull with
  | true =>
    rw [hnull, if_pos rfl] at h
    obtain ⟨isDate, -, h⟩ := Outcome.bind_eq_ok_iff.mp h
    rw [← Except.ok.inj h, Value.isNull_iff.mp hnull]
    cases isDate <;> rfl
  | false =>
    rw [hnull, if_neg Bool.false_ne_true] at h
    rw [Except.ok.inj h]

theorem fails_primitiveOrUntyped_iff (nullable : Bool) :
    Fails (primitiveOrUntyped entries nullable type) ↔
      settledType entries type = .null ∧
          (Value.getD (.map entries) "format").isComparable = false ∨
        (settledType entries type).isComparable = false := by
  rw [primitiveOrUntyped, ← fails_datedType_iff]
  refine fails_bind_iff fun settled hsettled => ?_
  rw [← isComparable_of_datedType hsettled, ← Value.fails_isOneOf_iff []]
  exact fails_map_iff _ _

theorem fails_ofItems_iff {items : List Value} (h : ∀ v ∈ items, Fails (ofValue v) ↔ Faulty v) :
    Fails (ofItems items) ↔ ∃ v ∈ items, Faulty v := by
  induction items with
  | nil =>
    rw [ofItems]
    exact iff_of_false (not_fails_ok _) (by simp)
  | cons v rest ih =>
    have hrest := ih fun w hw => h w (List.mem_cons_of_mem _ hw)
    simp only [List.mem_cons, or_and_right, exists_or, exists_eq_left]
    rw [ofItems, ← h v List.mem_cons_self, ← hrest]
    exact fails_bind_iff fun s _ => fails_map_iff _ _

theorem fails_ofProperties_iff (required : List Value) {inner : Entries}
    {found : Named (PropertyOf Schema)}
    (h : ∀ v ∈ inner.map Prod.snd, Fails (ofValue v) ↔ Faulty v) :
    Fails (ofProperties required inner found) ↔ ∃ v ∈ inner.map Prod.snd, Faulty v := by
  induction inner generalizing found with
  | nil =>
    rw [ofProperties]
    exact iff_of_false (not_fails_ok _) (by simp)
  | cons entry rest ih =>
    rw [List.map_cons] at h ⊢
    simp only [List.mem_cons, or_and_right, exists_or, exists_eq_left]
    rw [ofProperties, ← h entry.2 List.mem_cons_self]
    exact fails_bind_iff fun s _ => ih fun v hv => h v (List.mem_cons_of_mem _ hv)

theorem fails_ofAdditional_iff {v : Value} (h : Fails (ofValue v) ↔ Faulty v) :
    Fails (ofAdditional v) ↔ Faulty v := by
  rw [← h, ofAdditional.eq_def]
  split
  · exact iff_of_false (not_fails_ok _) (by simp [ofValue])
  · exact iff_of_false (not_fails_ok _) (by simp [ofValue])
  · exact fails_map_iff _ _

/-! ## Schemas -/

theorem size_lt_of_mem_items {v : Value} {items : List Value} (h : v ∈ items) :
    v.size < Value.sizeItems items := by
  induction items with
  | nil => exact absurd h List.not_mem_nil
  | cons w rest ih =>
    rw [Value.sizeItems]
    rcases List.mem_cons.mp h with rfl | h
    · omega
    · have := ih h
      omega

theorem size_lt_of_mem_entries {entry : Value × Value} {inner : Entries} (h : entry ∈ inner) :
    entry.2.size < Value.sizeEntries inner := by
  induction inner with
  | nil => exact absurd h List.not_mem_nil
  | cons other rest ih =>
    rw [Value.sizeEntries]
    rcases List.mem_cons.mp h with rfl | h
    · omega
    · have := ih h
      omega

/-- The values that a schema object gives for other schemas are smaller than it. -/
theorem size_lt_of_mem_parts {shape : Announced} {v : Value} (h : v ∈ parts entries shape) :
    v.size < (Value.map entries).size := by
  have hunder : ∀ keyword, Value.lookup? keyword entries = some v →
      v.size < Value.sizeEntries entries := fun keyword hget => Value.size_lt_of_lookup? hget
  rw [Value.size]
  cases shape with
  | composition mode keyword =>
    have hmem : v ∈ Value.itemsUnder entries keyword := h
    have := size_lt_of_mem_items hmem
    have := Value.sizeItems_itemsUnder_le entries keyword
    omega
  | array =>
    have := hunder _ (Option.mem_toList.mp h)
    omega
  | object =>
    rcases List.mem_append.mp h with h | h
    · obtain ⟨entry, hentry, rfl⟩ := List.mem_map.mp h
      have := size_lt_of_mem_entries hentry
      have := Value.sizeEntries_entriesUnder_le entries "properties"
      omega
    · have := hunder _ (Option.mem_toList.mp h)
      omega
  | _ => exact absurd h List.not_mem_nil

/-- Reading a schema fails exactly if a value that cannot be looked up stands under a keyword in its
tree. -/
theorem fails_ofValue_iff (v : Value) : Fails (ofValue v) ↔ Faulty v := by
  cases v with
  | map entries =>
    rw [faulty_map_iff, ofValue.eq_def]
    refine fails_byType_iff (fun nullable type => ?_) _ _
    -- each shape has its schemas under other keywords, but all of them are smaller values
    have ih : ∀ w ∈ parts entries (announced entries type), (Fails (ofValue w) ↔ Faulty w) :=
      fun w hw => by
        have hsize := size_lt_of_mem_parts hw
        exact fails_ofValue_iff w
    dsimp only
    generalize announced entries type = shape at ih ⊢
    cases shape with
    | reference => exact iff_of_false (not_fails_ok _) (by simp [OwnFault, parts])
    | composition mode keyword =>
      simp only [OwnFault, false_or]
      exact (fails_map_iff _ _).trans (fails_ofItems_iff ih)
    | array =>
      simp only [OwnFault, false_or, parts] at ih ⊢
      split
      · rename_i items hget
        simp only [hget, Option.toList_some, List.mem_singleton, forall_eq, exists_eq_left] at ih ⊢
        exact (fails_map_iff _ _).trans ih
      · rename_i hget
        exact iff_of_false (not_fails_ok _) (by simp [hget])
    | object =>
      simp only [OwnFault, parts, List.mem_append, or_and_right, exists_or] at ih ⊢
      rw [← fails_requiredKeys_iff]
      refine fails_bind_iff fun required _ => ?_
      rw [← fails_ofProperties_iff required fun v hv => ih v (Or.inl hv)]
      refine fails_bind_iff fun properties _ => ?_
      split
      · rename_i additional hget
        simp only [hget, Option.toList_some, List.mem_singleton, exists_eq_left] at ih ⊢
        exact (fails_map_iff _ _).trans (fails_ofAdditional_iff (ih _ (Or.inr rfl)))
      · rename_i hget
        exact iff_of_false (not_fails_ok _) (by simp [hget])
    | other =>
      rw [fails_primitiveOrUntyped_iff]
      simp [OwnFault, parts]
  | _ =>
    refine iff_of_false (by simp [ofValue]) fun h => ?_
    obtain ⟨entries, hmap⟩ := h.exists_eq_map
    cases hmap
termination_by v.size

end Schema

end TypedClient
