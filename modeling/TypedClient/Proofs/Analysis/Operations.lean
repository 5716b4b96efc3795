import Mathlib.Data.List.Nodup
import TypedClient.Analysis
import TypedClient.Proofs.Outcome
import TypedClient.Proofs.Mapping.Parts
import TypedClient.Proofs.Mapping.Presentation

/-!
# The operations that analysis gives

Analysis sees each operation once under every tag that it carries, so what does not depend on the
tag is the same wherever the operation is seen.  If no two operations of a document share a path and
a method, then the path and the method of an analysed operation tell which operation it is.

* `Operation.route`, `AnalyzedOperation.route`: the path and the method of an operation.
* `mem_ofDocument_iff`: the analysed operations of a document.
* `methodName_eq_of_route_eq`: the path and the method of an operation tell its method name.
* `mem_harvest_iff`, `subset_harvest_of_map`, `references_eq_harvest`: what an operation refers to.
* `harvest_notes_subset`: what is noted on the schemas that it uses.
-/

namespace TypedClient

/-- The path and the method of an operation. -/
def Operation.route (op : Operation) : String × Method := (op.path, op.method)

/-- The path and the method of an operation. -/
def AnalyzedOperation.route (op : AnalyzedOperation) : String × Method := (op.path, op.method)

namespace Analysis

variable {lib : Library}

/-! ## Where an analysed operation comes from -/

theorem analyze_route (op : Operation) (response : Response) (tag : String) :
    (analyze lib op response tag).1.route = op.route := rfl

/-- An operation is seen under the name of its tag. -/
theorem analyze_tag (op : Operation) (response : Response) (tag : String) :
    (analyze lib op response tag).1.tag = Naming.tagName tag := by
  rw [analyze]

/-- The method of an operation has the name that its identifier gives. -/
theorem analyze_methodName_eq (op : Operation) (response : Response) (tag : String) :
    (analyze lib op response tag).1.methodName =
      Naming.methodName (analyze lib op response tag).1.operationId := by
  rw [analyze]

/-- The method name does not depend on the tag. -/
theorem analyze_methodName (op : Operation) (response : Response) (tag other : String) :
    (analyze lib op response tag).1.methodName = (analyze lib op response other).1.methodName := rfl

/-- An operation is seen under each of its tags, with the response that it declares first. -/
theorem mem_ofOperation_iff {op : Operation} {seen : AnalyzedOperation} :
    seen ∈ (ofOperation lib op).1 ↔
      ∃ response rest, op.responses = response :: rest ∧
        ∃ tag ∈ tagsOf op, seen = (analyze lib op response tag).1 := by
  cases hresponses : op.responses with
  | nil =>
    rw [ofOperation, hresponses]
    constructor
    · intro h
      exact absurd h List.not_mem_nil
    · rintro ⟨response, rest, h, -⟩
      cases h
  | cons response rest =>
    rw [ofOperation, hresponses]
    simp only [List.map_map, List.mem_map, Function.comp_apply]
    constructor
    · rintro ⟨tag, htag, rfl⟩
      exact ⟨response, rest, rfl, tag, htag, rfl⟩
    · rintro ⟨_, _, h, tag, htag, rfl⟩
      obtain ⟨rfl, -⟩ := List.cons.inj h
      exact ⟨tag, htag, rfl⟩

/-- The analysed operations of a document are its operations with responses, each under all its
tags. -/
theorem mem_ofDocument_iff {doc : Document} {seen : AnalyzedOperation} :
    seen ∈ (ofDocument lib doc).1 ↔
      ∃ op ∈ doc.operations, ∃ response rest, op.responses = response :: rest ∧
        ∃ tag ∈ tagsOf op, seen = (analyze lib op response tag).1 := by
  rw [ofDocument]
  simp only [List.flatMap_map, List.mem_flatMap, mem_ofOperation_iff]

/-- The path and the method of an analysed operation tell its method name, if they tell apart the
operations of the document. -/
theorem methodName_eq_of_route_eq {doc : Document}
    (hdoc : (doc.operations.map Operation.route).Nodup) {a b : AnalyzedOperation}
    (ha : a ∈ (ofDocument lib doc).1) (hb : b ∈ (ofDocument lib doc).1)
    (hroute : a.route = b.route) : a.methodName = b.methodName := by
  obtain ⟨op, hop, response, rest, hresponses, tag, -, rfl⟩ := mem_ofDocument_iff.mp ha
  obtain ⟨op', hop', response', rest', hresponses', tag', -, rfl⟩ := mem_ofDocument_iff.mp hb
  rw [analyze_route, analyze_route] at hroute
  obtain rfl := List.inj_on_of_nodup_map hdoc hop hop' hroute
  obtain ⟨rfl, -⟩ := List.cons.inj (hresponses.symm.trans hresponses')
  exact analyze_methodName op response tag tag'

/-! ## What an operation refers to -/

theorem harvest_nil : harvest lib [] = ([], []) := rfl

theorem harvest_cons (use : Use) (rest : List Use) :
    harvest lib (use :: rest) =
      (NameSet.union (referencesOf lib use).1 (harvest lib rest).1,
        (referencesOf lib use).2 ++ (harvest lib rest).2) := rfl

/-- A list of uses is noted use by use. -/
theorem harvest_notes (list : List Use) :
    (harvest lib list).2 = list.flatMap fun use => (referencesOf lib use).2 := by
  induction list with
  | nil => rfl
  | cons use rest ih => rw [harvest_cons, List.flatMap_cons, ih]

/-- What a list of uses refers to is what one of them refers to. -/
theorem mem_harvest_iff {n : String} {list : List Use} :
    n ∈ (harvest lib list).1 ↔ ∃ use ∈ list, n ∈ (referencesOf lib use).1 := by
  induction list with
  | nil => simp [harvest_nil]
  | cons use rest ih =>
    rw [harvest_cons, NameSet.mem_union, ih]
    simp

/-- A type made of a schema that is used, through the same view but in whatever presentation, refers
to names that are harvested. -/
theorem subset_harvest_of_map {ctx : Mapping.Context} {use : Use} {list : List Use}
    {mapped : Mapping.Mapped TypeExpr} (huse : use ∈ list) (hview : ctx.view = use.view)
    (h : Mapping.map lib ctx use.location use.schema = .ok mapped) :
    mapped.references ⊆ (harvest lib list).1 := by
  intro n hn
  rw [mem_harvest_iff]
  refine ⟨use, huse, ?_⟩
  have hplain : ctx.view = ({ view := use.view } : Mapping.Context).view := hview
  rcases Mapping.outcome_of_view_eq hplain use.location use.schema with
    ⟨error, herror, -⟩ | ⟨m, plain, hm, hmap, hrefs, -⟩
  · rw [h] at herror
    cases herror
  · obtain rfl := Except.ok.inj (h.symm.trans hm)
    rw [hrefs] at hn
    rw [referencesOf, hmap]
    exact hn

/-- A type made of a schema that is used, through the same view but in whatever presentation, is
noted as the use is. -/
theorem referencesOf_notes {ctx : Mapping.Context} {use : Use} (hview : ctx.view = use.view) :
    (referencesOf lib use).2 =
      match Mapping.map lib ctx use.location use.schema with
      | .ok mapped => mapped.notes
      | .error error => [resolutionDiagnostic error use.location] := by
  have hplain : ctx.view = ({ view := use.view } : Mapping.Context).view := hview
  rcases Mapping.outcome_of_view_eq hplain use.location use.schema with
    ⟨error, herror, hplainError⟩ | ⟨m, plain, hm, hmap, -, hnotes, -⟩
  · rw [referencesOf, herror, hplainError]
  · rw [referencesOf, hm, hmap]
    exact hnotes.symm

/-- Every name that is harvested is the type name of a schema. -/
theorem known_of_mem_harvest {n : String} {list : List Use} (h : n ∈ (harvest lib list).1) :
    ∃ target ∈ lib.schemas.names, n = lib.typeName target := by
  obtain ⟨use, -, hn⟩ := mem_harvest_iff.mp h
  rw [referencesOf] at hn
  rcases hmap : Mapping.map lib { view := use.view } use.location use.schema with error | mapped
  · rw [hmap] at hn
    exact absurd hn List.not_mem_nil
  · rw [hmap] at hn
    exact (Mapping.sound_map use.schema hmap).known n hn

/-- What is noted on the schemas that an analysed operation uses, analysis notes. -/
theorem harvest_notes_subset {doc : Document} {op : AnalyzedOperation}
    (h : op ∈ (ofDocument lib doc).1) :
    (harvest lib (uses op.label op.parameters op.requestBody op.responseSchema)).2 ⊆
      (ofDocument lib doc).2 := by
  obtain ⟨own, hown, response, rest, hresponses, tag, htag, rfl⟩ := mem_ofDocument_iff.mp h
  intro d hd
  rw [ofDocument]
  refine List.mem_flatMap.mpr ⟨ofOperation lib own, List.mem_map_of_mem hown, ?_⟩
  rw [ofOperation, hresponses]
  exact List.mem_flatMap.mpr ⟨analyze lib own response tag, List.mem_map_of_mem htag, hd⟩

/-- An analysed operation refers to the names that are harvested from the schemas it uses. -/
theorem references_eq_harvest {doc : Document} {op : AnalyzedOperation}
    (h : op ∈ (ofDocument lib doc).1) :
    op.references =
      (harvest lib (uses op.label op.parameters op.requestBody op.responseSchema)).1 := by
  obtain ⟨_, -, response, _, -, tag, -, rfl⟩ := mem_ofDocument_iff.mp h
  rfl

end Analysis

end TypedClient
