import TypedClient.Mapping
import TypedClient.Proofs.Library.TypeNames
import TypedClient.Proofs.Outcome
import TypedClient.Source.TypeText

/-!
# How references are spelled

A reference is spelled by the type name of its schema alone, and so are the primitive types and the
built-in type of days and moments by theirs.  Type names are all different, and none is `Date`,
which counts as taken, or `void`, which is a reserved word.  The words for the other primitive types are
neither taken nor reserved.  They hold no underscore, and whatever is changed in a name to make it
safe or to tell it from others leaves one, so a type name is such a word exactly if the schema has
the word for its own name.

* `spelling`: the text of the reference to a schema.
* `typeName_eq_self_of_notMem`, `typeName_eq_self`: the names that are kept as type names.
* `StandsApart`: a reference that reads as nothing but itself.
* `spelling_eq_primitive_iff`, `standsApart_iff`: which references do not.
* `not_standsApart_string`: a schema that redefines a primitive type.
-/

namespace TypedClient.Library

variable {lib : Library} {m n : String}

/-! ## Names that are kept -/

/-- A type name without an underscore is the schema's own name. -/
theorem typeName_eq_self_of_notMem (hlib : lib.schemas.names.Nodup) (hn : n ∈ lib.schemas.names)
    (h : '_' ∉ (lib.typeName n).toList) : lib.typeName n = n := by
  obtain ⟨before, after, hnames⟩ := List.append_of_mem hn
  have hbase := (firstFree_typeName hlib hnames).eq_base_of_notMem h
  rw [hbase] at h ⊢
  exact Identifier.sanitize_eq_self_of_notMem h

/-- A safe name without an underscore that the library does not declare itself is kept: no other
schema can have it for its type name. -/
theorem typeName_eq_self (hlib : lib.schemas.names.Nodup) (hn : n ∈ lib.schemas.names)
    (hsafe : Identifier.IsSafe n) (hunderscore : '_' ∉ n.toList) (hfree : n ∉ libraryNames) :
    lib.typeName n = n := by
  obtain ⟨before, after, hnames⟩ := List.append_of_mem hn
  have hbase := Identifier.sanitize_eq_self hsafe
  refine ((firstFree_typeName hlib hnames).eq_base ?_).trans hbase
  rw [hbase, List.mem_append, not_or]
  refine ⟨hfree, fun hmem => ?_⟩
  obtain ⟨m, hm, htype⟩ := List.mem_map.mp hmem
  have hmn : m = n := by
    rw [← htype] at hunderscore ⊢
    refine (typeName_eq_self_of_notMem hlib ?_ hunderscore).symm
    rw [hnames]
    exact List.mem_append_left _ hm
  rw [hnames] at hlib
  exact (List.nodup_append.mp hlib).2.2 m hm n List.mem_cons_self hmn

/-! ## Texts -/

/-- The text of the reference to a schema, unqualified and seen through no view. -/
def spelling (lib : Library) (n : String) : String :=
  Source.typeText 0 (.named (lib.typeName n) "" none false)

theorem spelling_eq (lib : Library) (n : String) : lib.spelling n = lib.typeName n :=
  String.empty_append

/-- The reference is spelled so wherever it is mapped without a qualifier and a view. -/
theorem typeText_of_map_reference {depth : Nat} {location : String} {nullable : Bool}
    {mapped : Mapping.Mapped TypeExpr}
    (h : Mapping.map lib { } location (.reference n nullable) = .ok mapped) :
    Source.typeText depth mapped.result = lib.spelling n := by
  rw [Mapping.map, Mapping.mapReference] at h
  obtain ⟨concrete, -, h⟩ := Outcome.bind_eq_ok_iff.mp h
  rw [← Except.ok.inj h]
  rfl

/-- The words for primitive types are safe names, unless they are reserved. -/
theorem isSafe_primitiveText {type : PrimitiveType} (h : type ≠ .void) :
    Identifier.IsSafe (Source.primitiveText type) ∧ '_' ∉ (Source.primitiveText type).toList ∧
      Source.primitiveText type ∉ libraryNames := by
  cases type with
  | void => exact absurd rfl h
  | _ => decide +kernel

/-- A reference reads as a primitive type exactly if the schema has the word for its name. -/
theorem spelling_eq_primitive_iff (hlib : lib.schemas.names.Nodup) (hn : n ∈ lib.schemas.names)
    (type : PrimitiveType) :
    lib.spelling n = Source.typeText 0 (.primitive type) ↔
      n = Source.primitiveText type ∧ type ≠ .void := by
  show lib.spelling n = Source.primitiveText type ↔ _
  rw [spelling_eq]
  constructor
  · intro h
    have hunderscore : '_' ∉ (lib.typeName n).toList := by
      rw [h]
      cases type <;> decide
    have hn' := typeName_eq_self_of_notMem hlib hn hunderscore
    refine ⟨hn'.symm.trans h, ?_⟩
    rintro rfl
    obtain ⟨before, after, hnames⟩ := List.append_of_mem hn
    have hsafe := (firstFree_typeName hlib hnames).isSafe (Identifier.isSafe_sanitize n)
    rw [h] at hsafe
    exact absurd hsafe (by decide +kernel)
  · rintro ⟨rfl, hvoid⟩
    obtain ⟨hsafe, hunderscore, hfree⟩ := isSafe_primitiveText hvoid
    exact typeName_eq_self hlib hn hsafe hunderscore hfree

/-- No reference reads as the type of days and moments, whose name counts as taken. -/
theorem spelling_ne_dateTime (hlib : lib.schemas.names.Nodup) (hn : n ∈ lib.schemas.names) :
    lib.spelling n ≠ Source.typeText 0 .dateTime := by
  intro h
  rw [spelling_eq] at h
  refine typeName_notMem_libraryNames hlib hn ?_
  rw [h]
  decide

/-- References to different schemas read differently. -/
theorem spelling_ne (hm : m ∈ lib.schemas.names) (hn : n ∈ lib.schemas.names) (h : m ≠ n) :
    lib.spelling n ≠ lib.spelling m := by
  rw [spelling_eq, spelling_eq]
  exact fun heq => h (typeName_injOn hm hn heq.symm)

/-! ## References that read as nothing else -/

/-- The reference to a schema reads as no primitive type, not as the type of days and moments, and
not as the reference to another schema. -/
structure StandsApart (lib : Library) (n : String) : Prop where
  primitive : ∀ type : PrimitiveType, lib.spelling n ≠ Source.typeText 0 (.primitive type)
  dateTime : lib.spelling n ≠ Source.typeText 0 .dateTime
  others : ∀ m ∈ lib.schemas.names, m ≠ n → lib.spelling n ≠ lib.spelling m

/-- The words for primitive types that are not reserved. -/
def openWords : List String := ["string", "number", "boolean", "any", "unknown"]

theorem mem_openWords_iff :
    n ∈ openWords ↔ ∃ type, n = Source.primitiveText type ∧ type ≠ .void := by
  constructor
  · intro h
    simp only [openWords, List.mem_cons, List.not_mem_nil, or_false] at h
    rcases h with rfl | rfl | rfl | rfl | rfl
    · exact ⟨.string, rfl, by decide⟩
    · exact ⟨.number, rfl, by decide⟩
    · exact ⟨.boolean, rfl, by decide⟩
    · exact ⟨.any, rfl, by decide⟩
    · exact ⟨.unknown, rfl, by decide⟩
  · rintro ⟨type, rfl, hvoid⟩
    cases type with
    | void => exact absurd rfl hvoid
    | _ => decide

/-- Every reference that is mapped without a qualifier and a view has the spelling of its schema.
This reads as nothing else exactly if the schema is not named by a word for a primitive type that is
not reserved.  It reads as such a word's type then, and still not as the type of days and moments or
as the reference to another schema. -/
theorem standsApart_iff (lib : Library) (hlib : lib.schemas.names.Nodup) {n : String}
    (hn : n ∈ lib.schemas.names) :
    (∀ depth location nullable mapped,
      Mapping.map lib { } location (.reference n nullable) = .ok mapped →
        Source.typeText depth mapped.result = lib.spelling n) ∧
    (lib.StandsApart n ↔ n ∉ openWords) ∧
    lib.spelling n ≠ Source.typeText 0 .dateTime ∧
    ∀ m ∈ lib.schemas.names, m ≠ n → lib.spelling n ≠ lib.spelling m := by
  have hdateTime := spelling_ne_dateTime hlib hn
  have hothers : ∀ m ∈ lib.schemas.names, m ≠ n → lib.spelling n ≠ lib.spelling m :=
    fun m hm hne => spelling_ne hm hn hne
  refine ⟨fun depth location nullable mapped h => typeText_of_map_reference h, ?_, hdateTime,
    hothers⟩
  rw [mem_openWords_iff]
  constructor
  · rintro hapart ⟨type, hword⟩
    exact hapart.primitive type ((spelling_eq_primitive_iff hlib hn type).mpr hword)
  · intro hword
    exact ⟨fun type h => hword ⟨type, (spelling_eq_primitive_iff hlib hn type).mp h⟩, hdateTime,
      hothers⟩

/-- Schemas named by words for primitive types, by a reserved one and one that is taken among them,
and by the name of the mapping's type of days and moments. -/
def lexicon : Library where
  schemas := ["string", "integer", "void", "Date", "DateTime"].map fun name =>
    (name, .untyped "" false)

/-- A schema whose name is taken is told apart by its suffix. -/
theorem standsApart_lexicon_date :
    lexicon.schemas.names.Nodup ∧ "Date" ∈ lexicon.schemas.names ∧ "Date" ∉ openWords ∧
      lexicon.StandsApart "Date" ∧ lexicon.spelling "Date" = "Date_2" :=
  have hlib : lexicon.schemas.names.Nodup := by decide
  have hn : "Date" ∈ lexicon.schemas.names := by decide
  have hword : "Date" ∉ openWords := by decide
  ⟨hlib, hn, hword, (standsApart_iff lexicon hlib hn).2.1.mpr hword, by decide +kernel⟩

/-- A schema named `string` is referred to by the text of the primitive type. -/
theorem not_standsApart_string : ¬ lexicon.StandsApart "string" :=
  fun h => h.primitive .string (by decide +kernel)

end TypedClient.Library
