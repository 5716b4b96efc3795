import TypedClient.Proofs.Document.Noting
import TypedClient.Proofs.Schema.Faults

/-!
# Documents that cannot be read

Most parts of a document that are not as they should be are left out with a note, or passed over.
What is left makes reading fail: a description, a summary or an operation identifier that is no
text, tags that cannot be listed, a parameter whose name or place cannot be a key, and a schema that
cannot be read.  Such a value counts only where the reader comes by, behind all references: in a
parameter that no other overrides, in a body or a response that is reached, in an operation of a
path that is reached.

* `OperationFaulty`: such a value stands in an operation.
* `Faulty`: such a value stands anywhere in the document.
* `fails_ofValue_iff`: reading a document fails exactly then.
-/

namespace TypedClient.Document

open Outcome (not_fails_ok)
open Noting (Fails fails_bind_iff fails_map_iff fails_quiet_iff fails_each_iff not_fails_pure)

variable {root : Value} {label path : String} {method : Method}

/-! ## Texts -/

/-- Does the value stand for an optional text? -/
def isOptionalText : Value → Bool
  | .null => true
  | .text _ => true
  | .bytes data => (String.fromUTF8? ⟨data.toArray⟩).isSome
  | _ => false

theorem fails_optionalText_iff {v : Value} :
    Outcome.Fails (optionalText v) ↔ isOptionalText v = false := by
  cases v with
  | null => exact iff_of_false (not_fails_ok _) Bool.false_ne_true.symm
  | text s => exact iff_of_false (not_fails_ok _) Bool.false_ne_true.symm
  | bytes data =>
    rw [optionalText, isOptionalText]
    cases String.fromUTF8? ⟨data.toArray⟩ with
    | none => exact iff_of_true ⟨_, rfl⟩ rfl
    | some s => exact iff_of_false (not_fails_ok _) Bool.false_ne_true.symm
  | _ => exact iff_of_true ⟨_, rfl⟩ rfl

/-- The head of a document has a description that is no text. -/
def InfoFaulty (root : Value) : Prop :=
  isOptionalText ((root.getD "info").getD "description") = false

theorem fails_readInfo_iff : Outcome.Fails (readInfo root) ↔ InfoFaulty root := by
  rw [InfoFaulty, readInfo.eq_def]
  split
  · rename_i entries hinfo
    rw [hinfo]
    cases entries with
    | nil => exact iff_of_false (not_fails_ok _) Bool.false_ne_true.symm
    | cons entry rest =>
      rw [← fails_optionalText_iff]
      exact Outcome.fails_map_iff _ _
  · rename_i hother
    refine iff_of_false (not_fails_ok _) ?_
    have hnull : (root.getD "info").getD "description" = .null := by
      cases hinfo : root.getD "info" with
      | map entries => exact absurd hinfo (hother entries)
      | _ => rfl
    rw [hnull]
    exact Bool.false_ne_true.symm

/-! ## Schemas -/

/-- One of the named schemas cannot be read. -/
def LibraryFaulty (root : Value) : Prop :=
  ∃ entries, (root.getD "components").getD "schemas" = .map entries ∧
    ∃ entry ∈ entries, Schema.Faulty entry.2

theorem fails_readSchemas_iff {found : Named Schema} {entries : Entries} :
    Fails (readSchemas found entries) ↔ ∃ entry ∈ entries, Schema.Faulty entry.2 := by
  induction entries generalizing found with
  | nil => exact iff_of_false (not_fails_pure _) (by simp)
  | cons entry rest ih =>
    obtain ⟨key, v⟩ := entry
    simp only [List.mem_cons, or_and_right, exists_or, exists_eq_left]
    rw [readSchemas.eq_def]
    dsimp only
    split
    · rw [← Schema.fails_ofValue_iff, ← fails_quiet_iff]
      exact fails_bind_iff fun schema _ _ => ih
    · rename_i hother
      have hsound : ¬ Schema.Faulty v := fun h => by
        obtain ⟨entries, rfl⟩ := h.exists_eq_map
        exact hother entries rfl
      rw [or_iff_right hsound]
      refine (fails_bind_iff fun _ _ _ => ih).trans (or_iff_right ?_)
      exact Noting.not_fails_ok _

theorem fails_readLibrary_iff : Fails (readLibrary root) ↔ LibraryFaulty root := by
  rw [readLibrary.eq_def, LibraryFaulty]
  split
  · rename_i entries hentries
    rw [hentries, fails_readSchemas_iff]
    simp
  · rename_i hother
    refine iff_of_false (not_fails_pure _) ?_
    rintro ⟨entries, hentries, -⟩
    exact hother entries hentries

/-- The value has a schema of its own that cannot be read. -/
def OwnSchemaFaulty (v : Value) : Prop :=
  ∃ schema, v.get? "schema" = some schema ∧ Schema.Faulty schema

theorem fails_readOwnSchema_iff {v : Value} :
    Outcome.Fails (readOwnSchema v) ↔ OwnSchemaFaulty v := by
  rw [readOwnSchema, OwnSchemaFaulty]
  cases v.get? "schema" with
  | none => exact iff_of_false (not_fails_ok _) (by simp)
  | some schema =>
    simp only [Option.some.injEq, exists_eq_left', ← Schema.fails_ofValue_iff]
    exact Outcome.fails_map_iff _ _

/-- A media type of the content has a schema that cannot be read. -/
def ContentFaulty (v : Value) : Prop :=
  ∃ content, v = .map content ∧ ∃ entry ∈ content, OwnSchemaFaulty entry.2

theorem fails_readContent_iff {v : Value} : Outcome.Fails (readContent v) ↔ ContentFaulty v := by
  rw [readContent.eq_def, ContentFaulty]
  split
  · rename_i entries
    rw [Outcome.fails_mapM_iff]
    simp only [Value.map.injEq, exists_eq_left', ← fails_readOwnSchema_iff]
    exact exists_congr fun entry => and_congr_right fun _ => Outcome.fails_map_iff _ _
  · rename_i hother
    refine iff_of_false (not_fails_ok _) ?_
    rintro ⟨content, h, -⟩
    exact hother content h

/-! ## Bodies and responses -/

/-- The value leads to a body or a response with a content that cannot be read, or with a
description that is no text. -/
def PayloadFaulty (root : Value) (label : String) (v : Value) : Prop :=
  ∃ object, component? root label v = some object ∧
    (ContentFaulty (object.getD "content") ∨ isOptionalText (object.getD "description") = false)

/-- Reading what a value leads to, content and description, fails if it is faulty. -/
theorem fails_payload_iff {α : Type} {v : Value}
    {made : Value → List Media → Option String → Option α} :
    Fails (do
      match ← dereference root label v with
      | none => return none
      | some object =>
        let content ← Noting.quiet (readContent (object.getD "content"))
        let description ← Noting.quiet (optionalText (object.getD "description"))
        return made object content description) ↔ PayloadFaulty root label v := by
  refine (fails_bind_iff fun object? notes hobject => ?_).trans
    (or_iff_right (not_fails_dereference root label v))
  rw [PayloadFaulty, component?_of_dereference _ _ hobject]
  cases object? with
  | none => exact iff_of_false (not_fails_pure _) (by simp)
  | some object =>
    simp only [Option.some.injEq, exists_eq_left', ← fails_readContent_iff,
      ← fails_optionalText_iff, ← fails_quiet_iff]
    exact fails_bind_iff fun content _ _ => fails_map_iff _ _

theorem fails_readRequestBody_iff {v : Value} :
    Fails (readRequestBody root label v) ↔ PayloadFaulty root label v := by
  rw [readRequestBody]
  exact fails_payload_iff

theorem fails_readResponse_iff {entry : Value × Value} :
    Fails (readResponse root label entry) ↔ PayloadFaulty root label entry.2 := by
  rw [readResponse]
  exact fails_payload_iff

/-- One of the responses that a value lists is faulty. -/
def ResponsesFaulty (root : Value) (label : String) (v : Value) : Prop :=
  ∃ responses, v = .map responses ∧ ∃ entry ∈ responses, PayloadFaulty root label entry.2

theorem fails_readResponses_iff {v : Value} :
    Fails (readResponses root label v) ↔ ResponsesFaulty root label v := by
  rw [readResponses.eq_def, ResponsesFaulty]
  split
  · rename_i entries
    simp only [Value.map.injEq, exists_eq_left', ← fails_readResponse_iff]
    exact (fails_map_iff _ _).trans fails_each_iff
  · rename_i hother
    refine iff_of_false (not_fails_pure _) ?_
    rintro ⟨responses, h, -⟩
    exact hother responses h

/-! ## Parameters -/

/-- Are the name and the place of a parameter keys? -/
def hasKey (v : Value) : Bool := (parameterKey v).1.isKey && (parameterKey v).2.isKey

theorem fails_parameterKey?_iff {v : Value} :
    Outcome.Fails (parameterKey? v) ↔ hasKey v = false := by
  rw [parameterKey?, hasKey, Bool.and_eq_false_iff, ← Value.fails_requireKey_iff,
    ← Value.fails_requireKey_iff]
  exact Outcome.fails_bind_iff fun _ _ => Outcome.fails_map_iff _ _

theorem eq_parameterKey {v : Value} {key : Value × Value} (h : parameterKey? v = .ok key) :
    key = parameterKey v := by
  rw [parameterKey?] at h
  obtain ⟨-, -, h⟩ := Outcome.bind_eq_ok_iff.mp h
  obtain ⟨-, -, h⟩ := Outcome.bind_eq_ok_iff.mp h
  exact (Except.ok.inj h).symm

/-- The parameters that are read: those of the path that the operation does not override, and its
own. -/
def inForce (ofPath own : List Value) : List Value :=
  (ofPath.filter fun v => !own.any fun w => sameParameter (parameterKey v) (parameterKey w)) ++ own

theorem fails_mergeParameters_iff {ofPath own : List Value} :
    Outcome.Fails (mergeParameters ofPath own) ↔
      (∃ v ∈ own, hasKey v = false) ∨ ∃ v ∈ ofPath, hasKey v = false := by
  rw [mergeParameters]
  simp only [← fails_parameterKey?_iff]
  rw [← Outcome.fails_mapM_iff]
  refine Outcome.fails_bind_iff fun keys _ => ?_
  refine (Outcome.fails_map_iff _ _).trans (Outcome.fails_mapM_iff.trans ?_)
  exact exists_congr fun v => and_congr_right fun _ => Outcome.fails_map_iff _ _

theorem eq_inForce {ofPath own merged : List Value} (h : mergeParameters ofPath own = .ok merged) :
    merged = inForce ofPath own := by
  rw [mergeParameters] at h
  obtain ⟨keys, hkeys, h⟩ := Outcome.bind_eq_ok_iff.mp h
  obtain ⟨keyed, hkeyed, h⟩ := Outcome.bind_eq_ok_iff.mp h
  obtain rfl := Outcome.eq_map_of_mapM (fun v key => eq_parameterKey) hkeys
  obtain rfl : keyed = ofPath.map fun v => (v, parameterKey v) :=
    Outcome.eq_map_of_mapM (fun v pair hpair => by
      obtain ⟨key, hkey, hpair⟩ := Outcome.bind_eq_ok_iff.mp hpair
      rw [← Except.ok.inj hpair, eq_parameterKey hkey]) hkeyed
  rw [← Except.ok.inj h, inForce]
  simp [List.filter_map, Function.comp_def]

/-- A parameter with a name and a known place has a schema that cannot be read, or a description
that is no text. -/
def ParameterFaulty (v : Value) : Prop :=
  (placeOf? v).isSome = true ∧ (v.getD "name").isTruthy = true ∧
    (OwnSchemaFaulty v ∨ isOptionalText (v.getD "description") = false)

theorem fails_readParameter_iff {v : Value} :
    Outcome.Fails (readParameter v) ↔ ParameterFaulty v := by
  rw [readParameter, ParameterFaulty]
  cases placeOf? v with
  | none => exact iff_of_false (not_fails_ok _) fun h => Bool.false_ne_true h.1
  | some place =>
    rw [Option.isSome_some, and_iff_right rfl]
    cases (v.getD "name").isTruthy with
    | false => exact iff_of_false (not_fails_ok _) fun h => Bool.false_ne_true h.1
    | true =>
      rw [and_iff_right rfl, ← fails_readOwnSchema_iff, ← fails_optionalText_iff]
      exact Outcome.fails_bind_iff fun schema _ => Outcome.fails_map_iff _ _

theorem fails_readParameters_iff {items : List Value} :
    Outcome.Fails (readParameters items) ↔ ∃ v ∈ items, ParameterFaulty v := by
  rw [readParameters]
  simp only [← fails_readParameter_iff]
  exact (Outcome.fails_map_iff _ _).trans Outcome.fails_mapM_iff

/-! ## Operations -/

/-- Can the elements of the value be listed? -/
def isListable : Value → Bool
  | .list _ => true
  | .set _ => true
  | .pair _ _ => true
  | .map _ => true
  | .text _ => true
  | .bytes _ => true
  | _ => false

theorem fails_tagValues_iff {v : Value} :
    Outcome.Fails (tagValues v) ↔ v.isTruthy = true ∧ isListable v = false := by
  rw [tagValues.eq_def]
  cases v.isTruthy with
  | false => exact iff_of_false (not_fails_ok _) fun h => Bool.false_ne_true h.1
  | true =>
    rw [and_iff_right rfl]
    cases v with
    | list _ | set _ | pair _ _ | map _ | text _ | bytes _ =>
      exact iff_of_false (not_fails_ok _) Bool.false_ne_true.symm
    | _ => exact iff_of_true ⟨_, rfl⟩ rfl

/-- A value that does not fit its place stands in an operation that an object describes: the name or
the place of a parameter, the tags, a parameter that is read, the request body, a response, or one
of the texts. -/
def OperationFaulty (root : Value) (path : String) (ofPath : List Value) (method : Method)
    (v : Value) : Prop :=
  let label := operationLabel method path
  let own := components root label (v.getD "parameters")
  ((∃ p ∈ own, hasKey p = false) ∨ ∃ p ∈ ofPath, hasKey p = false) ∨
  ((v.getD "tags").isTruthy = true ∧ isListable (v.getD "tags") = false) ∨
  (∃ p ∈ inForce ofPath own, ParameterFaulty p) ∨
  PayloadFaulty root label (v.getD "requestBody") ∨
  ResponsesFaulty root label (v.getD "responses") ∨
  isOptionalText (v.getD "operationId") = false ∨
  isOptionalText (v.getD "summary") = false ∨
  isOptionalText (v.getD "description") = false

theorem fails_readOperation_iff {ofPath : List Value} {v : Value} :
    Fails (readOperation root path ofPath method v) ↔
      OperationFaulty root path ofPath method v := by
  rw [readOperation, OperationFaulty]
  simp only [← fails_mergeParameters_iff, ← fails_tagValues_iff, ← fails_readParameters_iff,
    ← fails_readRequestBody_iff, ← fails_readResponses_iff, ← fails_optionalText_iff,
    ← fails_quiet_iff]
  refine (fails_bind_iff fun own _ hown => ?_).trans
    (or_iff_right (not_fails_dereferenceAll root _ _))
  -- what is read is fixed by the object from here on, whatever was noted on the way
  rw [components_of_dereferenceAll _ _ hown]
  refine fails_bind_iff fun merged _ hmerged => ?_
  rw [← eq_inForce (Noting.quiet_eq_ok hmerged)]
  refine fails_bind_iff fun tags _ _ => ?_
  refine fails_bind_iff fun parameters _ _ => ?_
  refine fails_bind_iff fun body _ _ => ?_
  refine fails_bind_iff fun responses _ _ => ?_
  refine fails_bind_iff fun operationId _ _ => ?_
  exact fails_bind_iff fun summary _ _ => fails_map_iff _ _

/-- A value that does not fit its place stands in an operation of the path that an entry gives,
where the entry leads to an object. -/
def PathFaulty (root : Value) (entry : Value × Value) : Prop :=
  let place := "#/paths/" ++ entry.1.display
  ∃ item, component? root place entry.2 = some item ∧
    ∃ method operation, item.get? method.name = some (.map operation) ∧
      OperationFaulty root entry.1.display
        (components root (place ++ "/parameters") (item.getD "parameters")) method (.map operation)

theorem fails_readMethod_iff {ofPath : List Value} {item : Value} :
    Fails (readMethod root path ofPath item method) ↔
      ∃ operation, item.get? method.name = some (.map operation) ∧
        OperationFaulty root path ofPath method (.map operation) := by
  rw [readMethod.eq_def]
  split
  · rename_i operation hget
    rw [hget]
    simp only [Option.some.injEq, Value.map.injEq, exists_eq_left', ← fails_readOperation_iff]
    exact fails_map_iff _ _
  · rename_i hother
    refine iff_of_false (not_fails_pure _) ?_
    rintro ⟨operation, h, -⟩
    exact hother operation h

theorem fails_readPath_iff {entry : Value × Value} :
    Fails (readPath root entry) ↔ PathFaulty root entry := by
  rw [readPath, PathFaulty]
  refine (fails_bind_iff fun item? _ hitem => ?_).trans
    (or_iff_right (not_fails_dereference root _ _))
  rw [component?_of_dereference _ _ hitem]
  cases item? with
  | none => exact iff_of_false (not_fails_pure _) (by simp)
  | some item =>
    simp only [Option.some.injEq, exists_eq_left', ← fails_readMethod_iff]
    refine (fails_bind_iff fun ofPath _ hofPath => ?_).trans
      (or_iff_right (not_fails_dereferenceAll root _ _))
    rw [components_of_dereferenceAll _ _ hofPath]
    refine (fails_map_iff _ _).trans (fails_each_iff.trans ?_)
    exact exists_congr fun method => and_iff_right (Method.mem_all method)

theorem fails_readOperations_iff : Fails (readOperations root) ↔
    ∃ paths, root.getD "paths" = .map paths ∧ ∃ entry ∈ paths, PathFaulty root entry := by
  rw [readOperations.eq_def]
  split
  · rename_i paths hpaths
    rw [hpaths]
    simp only [Value.map.injEq, exists_eq_left', ← fails_readPath_iff]
    exact (fails_map_iff _ _).trans fails_each_iff
  · rename_i hother
    refine iff_of_false (not_fails_pure _) ?_
    rintro ⟨paths, h, -⟩
    exact hother paths h

/-! ## Documents -/

/-- A value that does not fit its place stands where the reader comes by: in the head, in a named
schema or in an operation. -/
def Faulty (root : Value) : Prop :=
  InfoFaulty root ∨ LibraryFaulty root ∨
    ∃ paths, root.getD "paths" = .map paths ∧ ∃ entry ∈ paths, PathFaulty root entry

/-- Reading a document fails exactly if a value that does not fit its place stands where the reader
comes by. -/
theorem fails_ofValue_iff {version : String} :
    Outcome.Fails (ofValue root version) ↔ Faulty root := by
  rw [ofValue, Faulty, ← fails_readInfo_iff, ← fails_readLibrary_iff, ← fails_readOperations_iff]
  refine Outcome.fails_bind_iff fun info _ => ?_
  refine Outcome.fails_bind_iff fun library _ => ?_
  exact Outcome.fails_map_iff _ _

end TypedClient.Document
