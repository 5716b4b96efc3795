import TypedClient.Proofs.Analysis.Operations
import TypedClient.Proofs.Mapping.Notes
import TypedClient.TypeLibrary

/-!
# The notes of analysis

Whoever maps a schema adds at most one note to those of mapping, on a reference that leads nowhere.
Analysis also notes the operations that declare no responses, once for each of them, and leaves them
out.

* `typeCodes`: the codes of the notes on types.
* `code_of_mem_harvest`, `TypeLibrary.code_of_mem_notes`: where all notes are notes on types.
* `filter_isMalformed_ofDocument`: the notes on operations without responses.
* `ofDocument_fst_eq`: the operations that are left.
-/

namespace TypedClient

namespace Analysis

variable {lib : Library}

/-! ## Notes on types -/

/-- The codes of the notes on types. -/
def typeCodes : List String :=
  [Mapping.unsupportedCode, "unresolved-reference", "circular-reference"]

theorem code_of_resolutionDiagnostic (error : ResolutionError) (location : String) :
    (resolutionDiagnostic error location).code ∈ typeCodes := by
  cases error with
  | unknown name place => exact List.mem_cons_of_mem _ List.mem_cons_self
  | circular chain place =>
    exact List.mem_cons_of_mem _ (List.mem_cons_of_mem _ List.mem_cons_self)

/-- The notes that mapping raises are notes on types. -/
theorem code_mem_of_map {ctx : Mapping.Context} {location : String} {schema : Schema}
    {mapped : Mapping.Mapped TypeExpr} (hmap : Mapping.map lib ctx location schema = .ok mapped)
    {d : Diagnostic} (h : d ∈ mapped.notes) : d.code ∈ typeCodes := by
  rw [Mapping.code_of_mem_notes schema hmap d h]
  exact List.mem_cons_self

theorem code_of_mem_referencesOf {use : Use} {d : Diagnostic}
    (h : d ∈ (referencesOf lib use).2) : d.code ∈ typeCodes := by
  rw [referencesOf] at h
  rcases hmap : Mapping.map lib { view := use.view } use.location use.schema with error | mapped
  · rw [hmap, List.mem_singleton] at h
    rw [h]
    exact code_of_resolutionDiagnostic error use.location
  · rw [hmap] at h
    exact code_mem_of_map hmap h

/-- The notes on the types that an operation refers to are notes on types. -/
theorem code_of_mem_harvest {list : List Use} {d : Diagnostic} (h : d ∈ (harvest lib list).2) :
    d.code ∈ typeCodes := by
  induction list with
  | nil => exact absurd h List.not_mem_nil
  | cons use rest ih =>
    rw [harvest_cons, List.mem_append] at h
    rcases h with h | h
    · exact code_of_mem_referencesOf h
    · exact ih h

/-! ## Operations without responses -/

/-- The code of the note on an operation without responses. -/
def malformedCode : String := "malformed-operation"

/-- Is the note on an operation without responses? -/
def isMalformed (d : Diagnostic) : Bool := d.code == malformedCode

/-- A note on a type is not on an operation without responses. -/
theorem isMalformed_eq_false {d : Diagnostic} (h : d.code ∈ typeCodes) :
    isMalformed d = false := by
  have hne : malformedCode ∉ typeCodes := by decide
  rw [isMalformed, beq_eq_false_iff_ne]
  rintro heq
  exact hne (heq ▸ h)

/-- The notes of an operation with responses are notes on types. -/
theorem code_of_mem_ofOperation {op : Operation} (hop : op.responses ≠ []) {d : Diagnostic}
    (h : d ∈ (ofOperation lib op).2) : d.code ∈ typeCodes := by
  cases hresponses : op.responses with
  | nil => exact absurd hresponses hop
  | cons response rest =>
    rw [ofOperation, hresponses] at h
    obtain ⟨seen, hseen, hd⟩ := List.mem_flatMap.mp h
    obtain ⟨tag, -, rfl⟩ := List.mem_map.mp hseen
    exact code_of_mem_harvest hd

/-- An operation is noted to be without responses exactly if it is. -/
theorem filter_isMalformed_ofOperation (op : Operation) :
    (ofOperation lib op).2.filter isMalformed =
      if op.responses.isEmpty then [malformed op.label] else [] := by
  cases hresponses : op.responses with
  | nil =>
    rw [ofOperation, hresponses]
    rfl
  | cons response rest =>
    rw [List.isEmpty_cons, if_neg Bool.false_ne_true, List.filter_eq_nil_iff]
    intro d hd
    rw [isMalformed_eq_false (code_of_mem_ofOperation (by rw [hresponses]; simp) hd)]
    exact Bool.false_ne_true

/-- Every operation without responses is noted once, and no other operation is. -/
theorem filter_isMalformed_ofDocument (doc : Document) :
    (ofDocument lib doc).2.filter isMalformed =
      (doc.operations.filter fun op => op.responses.isEmpty).map fun op => malformed op.label := by
  rw [ofDocument]
  dsimp only
  induction doc.operations with
  | nil => rfl
  | cons op rest ih =>
    rw [List.map_cons, List.flatMap_cons, List.filter_append, ih, filter_isMalformed_ofOperation,
      List.filter_cons]
    split <;> rfl

/-- An operation without responses is left out. -/
theorem ofDocument_fst_eq (doc : Document) :
    (ofDocument lib doc).1 =
      (doc.operations.filter fun op => !op.responses.isEmpty).flatMap fun op =>
        (ofOperation lib op).1 := by
  rw [ofDocument]
  dsimp only
  induction doc.operations with
  | nil => rfl
  | cons op rest ih =>
    rw [List.map_cons, List.flatMap_cons, ih, List.filter_cons]
    cases hresponses : op.responses with
    | nil =>
      rw [ofOperation, hresponses]
      rfl
    | cons response more => rfl

/-- The notes of analysis are on types or on operations without responses. -/
theorem code_of_mem_ofDocument {doc : Document} {d : Diagnostic} (h : d ∈ (ofDocument lib doc).2) :
    d.code ∈ malformedCode :: typeCodes := by
  rw [ofDocument] at h
  obtain ⟨seen, hseen, hd⟩ := List.mem_flatMap.mp h
  obtain ⟨op, -, rfl⟩ := List.mem_map.mp hseen
  by_cases hop : op.responses = []
  · rw [ofOperation, hop] at hd
    rw [List.mem_singleton.mp hd]
    exact List.mem_cons_self
  · exact List.mem_cons_of_mem _ (code_of_mem_ofOperation hop hd)

end Analysis

namespace TypeLibrary

variable {lib : Library} {modifiers : Bool}

/-- The notes of the type library are notes on types. -/
theorem code_of_mem_notes {d : Diagnostic} (h : d ∈ (declarations lib modifiers).2) :
    d.code ∈ Analysis.typeCodes := by
  obtain ⟨declared, hdeclared, hd⟩ := List.mem_flatMap.mp h
  obtain ⟨⟨name, schema⟩, -, rfl⟩ := List.mem_map.mp hdeclared
  rw [declaration.eq_def] at hd
  dsimp only at hd
  split at hd
  · exact absurd hd List.not_mem_nil
  · rcases hmap : Mapping.map lib { markModifiers := modifiers }
      ("#/components/schemas/" ++ name) schema with error | mapped
    · rw [hmap, List.mem_singleton] at hd
      rw [hd]
      exact Analysis.code_of_resolutionDiagnostic error _
    · rw [hmap] at hd
      exact Analysis.code_mem_of_map hmap hd

end TypeLibrary

end TypedClient
