import TypedClient.Proofs.Analysis.Operations
import TypedClient.Proofs.Document.Noting

/-!
# The response that a call gives, in the document as written

Reading leaves out the entries of an operation's responses that lead to no object, and analysis
takes the first response that is left.  So the response that a call gives is the first entry that
leads to an object.  It is the first entry only if nothing in front of it is broken: behind a broken
entry it may be the one that describes an error.

* `Declares`: an operation of the document as written.
* `exists_item_of_mem`, `exists_operation_of_declaresIn`: the operations that are read of a document
  are those that it declares.
* `Answers`: a response is that of the first entry that leads to an object.
* `answers_of_mem_ofDocument`: an analysed operation has the response of that entry.
* `not_first_behind_broken`: it need not be that of the first entry.
-/

namespace TypedClient.Document

open Noting

variable {root : Value} {label path : String} {method : Method}

/-! ## Responses -/

/-- The response is read of the entry: the entry leads to an object, whose content it has, under the
key of the entry as its status. -/
def Reads (root : Value) (label : String) (entry : Value × Value) (response : Response) : Prop :=
  ∃ object, component? root label entry.2 = some object ∧
    response.status = entry.1.display ∧
    readContent (object.getD "content") = .ok response.content

/-- The response is read of the first entry that leads to an object. -/
def Answers (root : Value) (label : String) (responses : Entries) (response : Response) : Prop :=
  ∃ before entry after, responses = before ++ entry :: after ∧
    (∀ broken ∈ before, component? root label broken.2 = none) ∧
    Reads root label entry response

theorem reads_of_readResponse {entry : Value × Value} {response : Response}
    {notes : List Diagnostic} (h : readResponse root label entry = .ok (some response, notes)) :
    Reads root label entry response := by
  rw [readResponse] at h
  obtain ⟨object?, _, _, hobject, h, -⟩ := bind_eq_ok h
  cases object? with
  | none => cases h
  | some object =>
    obtain ⟨content, _, _, hcontent, h, -⟩ := bind_eq_ok h
    obtain ⟨description, _, _, -, h, -⟩ := bind_eq_ok h
    obtain rfl := Option.some_inj.mp (pure_eq_ok h)
    exact ⟨object, component?_of_dereference _ _ hobject, rfl, quiet_eq_ok hcontent⟩

theorem component?_of_readResponse_none {entry : Value × Value} {notes : List Diagnostic}
    (h : readResponse root label entry = .ok (none, notes)) :
    component? root label entry.2 = none := by
  rw [readResponse] at h
  obtain ⟨object?, _, _, hobject, h, -⟩ := bind_eq_ok h
  cases object? with
  | none => exact component?_of_dereference _ _ hobject
  | some object =>
    obtain ⟨content, _, _, -, h, -⟩ := bind_eq_ok h
    obtain ⟨description, _, _, -, h, -⟩ := bind_eq_ok h
    cases pure_eq_ok h

/-- The first response that is read of a map is that of the first entry that leads to an object. -/
theorem answers_of_readResponses {v : Value} {response : Response} {more : List Response}
    {notes : List Diagnostic} (h : readResponses root label v = .ok (response :: more, notes)) :
    ∃ responses, v = .map responses ∧ Answers root label responses response := by
  rw [readResponses.eq_def] at h
  split at h
  · rename_i responses
    obtain ⟨found, _, _, hfound, h, -⟩ := bind_eq_ok h
    have hfirst : found.filterMap id = response :: more := (pure_eq_ok h).symm
    obtain ⟨before, entry, after, hresponses, hbroken, _, hread⟩ :=
      exists_first_of_filterMap (forall₂_each hfound) hfirst
    refine ⟨responses, rfl, before, entry, after, hresponses, fun broken hmem => ?_,
      reads_of_readResponse hread⟩
    obtain ⟨_, hnone⟩ := hbroken broken hmem
    exact component?_of_readResponse_none hnone
  · cases pure_eq_ok h

/-! ## Operations -/

/-- The document gives an object as the operation of a method under a path. -/
def Declares (root : Value) (path : String) (method : Method) (operation : Entries) : Prop :=
  ∃ paths entry item, root.getD "paths" = .map paths ∧ entry ∈ paths ∧ path = entry.1.display ∧
    component? root ("#/paths/" ++ path) entry.2 = some item ∧
    item.get? method.name = some (.map operation)

/-- `Declares`, with the item of the path in which the operation stands. -/
def DeclaresIn (root : Value) (path : String) (item : Value) (method : Method)
    (operation : Entries) : Prop :=
  ∃ paths entry, root.getD "paths" = .map paths ∧ entry ∈ paths ∧ path = entry.1.display ∧
    component? root ("#/paths/" ++ path) entry.2 = some item ∧
    item.get? method.name = some (.map operation)

theorem DeclaresIn.declares {item : Value} {operation : Entries}
    (h : DeclaresIn root path item method operation) : Declares root path method operation := by
  obtain ⟨paths, entry, hpaths, hentry, hpath, hitem, hget⟩ := h
  exact ⟨paths, entry, item, hpaths, hentry, hpath, hitem, hget⟩

/-- The objects that the parameters of a path lead to. -/
def pathParameters (root : Value) (path : String) (item : Value) : List Value :=
  components root ("#/paths/" ++ path ++ "/parameters") (item.getD "parameters")

/-- The objects that the parameters of an operation lead to. -/
def ownParameters (root : Value) (path : String) (method : Method) (operation : Value) :
    List Value :=
  components root (operationLabel method path) (operation.getD "parameters")

theorem fields_of_readOperation {ofPath : List Value} {v : Value} {op : Operation}
    {notes : List Diagnostic} (h : readOperation root path ofPath method v = .ok (op, notes)) :
    op.path = path ∧ op.method = method ∧
      (∃ merged, mergeParameters ofPath (ownParameters root path method v) = .ok merged ∧
        readParameters merged = .ok op.parameters) ∧
      ∃ made, readResponses root (operationLabel method path) (v.getD "responses") =
        .ok (op.responses, made) := by
  rw [readOperation] at h
  obtain ⟨own, _, _, hown, h, -⟩ := bind_eq_ok h
  obtain ⟨merged, _, _, hmerged, h, -⟩ := bind_eq_ok h
  obtain ⟨tags, _, _, -, h, -⟩ := bind_eq_ok h
  obtain ⟨parameters, _, _, hparameters, h, -⟩ := bind_eq_ok h
  obtain ⟨body, _, _, -, h, -⟩ := bind_eq_ok h
  obtain ⟨responses, made, _, hresponses, h, -⟩ := bind_eq_ok h
  obtain ⟨operationId, _, _, -, h, -⟩ := bind_eq_ok h
  obtain ⟨summary, _, _, -, h, -⟩ := bind_eq_ok h
  obtain ⟨description, _, _, -, h, -⟩ := bind_eq_ok h
  obtain rfl := pure_eq_ok h
  rw [← components_of_dereferenceAll _ _ hown] at hmerged
  exact ⟨rfl, rfl, ⟨merged, quiet_eq_ok hmerged, quiet_eq_ok hparameters⟩, made, hresponses⟩

theorem operation_of_readMethod {ofPath : List Value} {item : Value} {op : Operation}
    {notes : List Diagnostic}
    (h : readMethod root path ofPath item method = .ok (some op, notes)) :
    ∃ operation made, item.get? method.name = some (.map operation) ∧
      readOperation root path ofPath method (.map operation) = .ok (op, made) := by
  rw [readMethod.eq_def] at h
  split at h
  · rename_i operation hget
    obtain ⟨op', made, _, hop, h, -⟩ := bind_eq_ok h
    obtain rfl := Option.some_inj.mp (pure_eq_ok h)
    exact ⟨operation, made, hget, hop⟩
  · cases pure_eq_ok h

/-- The operations that were read of a path are those that its item gives for the methods. -/
theorem operations_of_readPath {entry : Value × Value} {item : Value} {ops : List Operation}
    {notes : List Diagnostic} (h : readPath root entry = .ok (ops, notes))
    (hitem : component? root ("#/paths/" ++ entry.1.display) entry.2 = some item) :
    ∃ found, ops = found.filterMap id ∧
      List.Forall₂ (fun method op? => ∃ made, readMethod root entry.1.display
        (pathParameters root entry.1.display item) item method = .ok (op?, made))
        Method.all found := by
  rw [readPath] at h
  obtain ⟨item?, _, _, hread, h, -⟩ := bind_eq_ok h
  obtain rfl := (component?_of_dereference _ _ hread).symm.trans hitem
  obtain ⟨ofPath, _, _, hofPath, h, -⟩ := bind_eq_ok h
  obtain ⟨found, _, _, hfound, h, -⟩ := bind_eq_ok h
  rw [← components_of_dereferenceAll _ _ hofPath] at hfound
  exact ⟨found, pure_eq_ok h, forall₂_each hfound⟩

/-- An entry that leads to no item gives no operations. -/
theorem exists_item_of_readPath {entry : Value × Value} {ops : List Operation}
    {notes : List Diagnostic} (h : readPath root entry = .ok (ops, notes)) (hne : ops ≠ []) :
    ∃ item, component? root ("#/paths/" ++ entry.1.display) entry.2 = some item := by
  rw [readPath] at h
  obtain ⟨item?, _, _, hread, h, -⟩ := bind_eq_ok h
  cases item? with
  | none => exact absurd (pure_eq_ok h) hne
  | some item => exact ⟨item, component?_of_dereference _ _ hread⟩

/-- The operations that were read of a document are those of its paths, if it has any. -/
theorem operations_of_ofValue {version : String} {doc : Document}
    (h : ofValue root version = .ok doc) :
    (doc.operations = [] ∧ ∀ paths, root.getD "paths" ≠ .map paths) ∨
    ∃ paths found, root.getD "paths" = .map paths ∧ doc.operations = found.flatten ∧
      List.Forall₂ (fun entry ops => ∃ made, readPath root entry = .ok (ops, made)) paths found := by
  obtain ⟨_, _, -, hoperations, -⟩ := parts_of_ofValue h
  rw [readOperations.eq_def] at hoperations
  split at hoperations
  · rename_i paths hpaths
    obtain ⟨found, _, _, hfound, hflatten, -⟩ := bind_eq_ok hoperations
    exact Or.inr ⟨paths, found, hpaths, pure_eq_ok hflatten, forall₂_each hfound⟩
  · rename_i hother
    exact Or.inl ⟨pure_eq_ok hoperations, hother⟩

/-- An operation that was read of a document was read of one that the document declares. -/
theorem exists_item_of_mem {version : String} {doc : Document}
    (h : ofValue root version = .ok doc) {op : Operation} (hop : op ∈ doc.operations) :
    ∃ item operation made, DeclaresIn root op.path item op.method operation ∧
      readOperation root op.path (pathParameters root op.path item) op.method (.map operation) =
        .ok (op, made) := by
  rcases operations_of_ofValue h with ⟨hnone, -⟩ | ⟨paths, found, hpaths, hflatten, hfound⟩
  · rw [hnone] at hop
    exact absurd hop List.not_mem_nil
  rw [hflatten] at hop
  obtain ⟨ops, hops, hop⟩ := List.mem_flatten.mp hop
  obtain ⟨entry, hentry, _, hread⟩ := exists_of_mem_forall₂ hfound hops
  obtain ⟨item, hitem⟩ := exists_item_of_readPath hread (List.ne_nil_of_mem hop)
  obtain ⟨made, rfl, hmethods⟩ := operations_of_readPath hread hitem
  obtain ⟨method, -, _, hmethod⟩ := exists_of_mem_filterMap hmethods hop
  obtain ⟨operation, more, hget, hoperation⟩ := operation_of_readMethod hmethod
  obtain ⟨hpath, rfl, -⟩ := fields_of_readOperation hoperation
  rw [← hpath] at hitem hoperation
  exact ⟨item, operation, more, ⟨paths, entry, hpaths, hentry, hpath, hitem, hget⟩, hoperation⟩

/-- An operation that the document declares was read. -/
theorem exists_operation_of_declaresIn {version : String} {doc : Document}
    (h : ofValue root version = .ok doc) {item : Value} {operation : Entries}
    (hdeclares : DeclaresIn root path item method operation) :
    ∃ op ∈ doc.operations, ∃ made,
      readOperation root path (pathParameters root path item) method (.map operation) =
        .ok (op, made) := by
  obtain ⟨paths, entry, hpaths, hentry, rfl, hitem, hget⟩ := hdeclares
  rcases operations_of_ofValue h with ⟨-, hnone⟩ | ⟨paths', found, hpaths', hflatten, hfound⟩
  · exact absurd hpaths (hnone paths)
  rw [hpaths', Value.map.injEq] at hpaths
  subst hpaths
  obtain ⟨ops, hops, _, hread⟩ := exists_of_mem_forall₂ hfound.flip hentry
  obtain ⟨made, rfl, hmethods⟩ := operations_of_readPath hread hitem
  obtain ⟨op?, hop?, _, hmethod⟩ := exists_of_mem_forall₂ hmethods.flip (Method.mem_all method)
  rw [readMethod, hget] at hmethod
  obtain ⟨op, more, _, hoperation, hop, -⟩ := bind_eq_ok hmethod
  obtain rfl := pure_eq_ok hop
  refine ⟨op, ?_, more, hoperation⟩
  rw [hflatten]
  exact List.mem_flatten.mpr ⟨_, hops, List.mem_filterMap.mpr ⟨some op, hop?, rfl⟩⟩

/-- An operation that was read of a document is one that the document declares, with the responses
that were read of its own. -/
theorem declared_of_mem_operations {version : String} {doc : Document}
    (h : ofValue root version = .ok doc) {op : Operation} (hop : op ∈ doc.operations) :
    ∃ operation made, Declares root op.path op.method operation ∧
      readResponses root op.label (Value.getD (.map operation) "responses") =
        .ok (op.responses, made) := by
  obtain ⟨item, operation, made, hdeclares, hread⟩ := exists_item_of_mem h hop
  obtain ⟨-, -, -, made', hresponses⟩ := fields_of_readOperation hread
  exact ⟨operation, made', hdeclares.declares, hresponses⟩

/-- An analysed operation is one that the document declares, and has the response of the first entry
of its responses that leads to an object: the key of that entry is the status, and what is used of
the response is what its content says. -/
theorem answers_of_mem_ofDocument (lib : Library) {version : String} {doc : Document}
    (hdoc : ofValue root version = .ok doc) {seen : AnalyzedOperation}
    (hseen : seen ∈ (Analysis.ofDocument lib doc).1) :
    ∃ operation responses response, Declares root seen.path seen.method operation ∧
      Value.lookup? "responses" operation = some (.map responses) ∧
      Answers root seen.label responses response ∧
      seen.status = response.status ∧
      (seen.responseKind, seen.mediaType, seen.responseSchema) =
        Analysis.responseOf response.content := by
  obtain ⟨op, hop, response, more, hresponses, tag, -, rfl⟩ := Analysis.mem_ofDocument_iff.mp hseen
  obtain ⟨operation, made, hdeclares, hread⟩ := declared_of_mem_operations hdoc hop
  rw [hresponses] at hread
  obtain ⟨responses, hmap, hanswers⟩ := answers_of_readResponses hread
  have hlookup : Value.lookup? "responses" operation = some (.map responses) := by
    rw [Value.getD, Value.get?] at hmap
    cases hget : Value.lookup? "responses" operation with
    | none =>
      rw [hget] at hmap
      cases hmap
    | some v =>
      rw [hget] at hmap
      exact congrArg some hmap
  exact ⟨operation, responses, response, hdeclares, hlookup, hanswers, rfl, rfl⟩

/-! ## A broken response -/

/-- The responses of an operation whose first one has been withdrawn. -/
def fallbacks : Entries :=
  [(.text "200", .map [(.text "$ref", .text "#/components/responses/Gone")]),
    (.text "404", .map [(.text "content", .map [(.text "application/json", .map [])])])]

/-- A path with the operation that has these responses. -/
def fallbackItem : Entries := [(.text "get", .map [(.text "responses", .map fallbacks)])]

/-- A document with this path. -/
def withdrawn : Value := .map [(.text "paths", .map [(.text "/pets", .map fallbackItem)])]

/-- The operation of a document with one, found by what is seen of it. -/
theorem exists_seen_of_map_eq {α : Type} (f : AnalyzedOperation → α) (root : Value)
    (version : String) (lib : Library) (expected : α)
    (h : (ofValue root version).toOption.map (fun doc =>
      (Analysis.ofDocument lib doc).1.map f) = some [expected]) :
    ∃ doc seen, ofValue root version = .ok doc ∧ seen ∈ (Analysis.ofDocument lib doc).1 ∧
      f seen = expected := by
  rcases hdoc : ofValue root version with misfit | doc
  · rw [hdoc] at h
    cases h
  · rw [hdoc] at h
    obtain ⟨seen, hlist, hseen⟩ := List.map_eq_singleton_iff.mp (Option.some_inj.mp h)
    exact ⟨doc, seen, rfl, hlist ▸ List.mem_cons_self, hseen⟩

theorem exists_seen_withdrawn : ∃ doc seen, ofValue withdrawn "3.0.3" = .ok doc ∧
    seen ∈ (Analysis.ofDocument ⟨[]⟩ doc).1 ∧
    seen.path = "/pets" ∧ seen.method = .get ∧ seen.status = "404" := by
  obtain ⟨doc, seen, hdoc, hseen, hfields⟩ :=
    exists_seen_of_map_eq (fun op => (op.path, op.method, op.status)) withdrawn "3.0.3" ⟨[]⟩
      ("/pets", .get, "404") (by decide +kernel)
  rw [Prod.mk.injEq, Prod.mk.injEq] at hfields
  exact ⟨doc, seen, hdoc, hseen, hfields⟩

/-- The operation whose first response has been withdrawn has the response behind it. -/
theorem answers_of_mem_ofDocument_withdrawn : ∃ doc seen,
    ofValue withdrawn "3.0.3" = .ok doc ∧ seen ∈ (Analysis.ofDocument ⟨[]⟩ doc).1 ∧
    seen.status = "404" ∧
    ∃ operation responses response, Declares withdrawn seen.path seen.method operation ∧
      Value.lookup? "responses" operation = some (.map responses) ∧
      Answers withdrawn seen.label responses response ∧ seen.status = response.status ∧
      (seen.responseKind, seen.mediaType, seen.responseSchema) =
        Analysis.responseOf response.content := by
  obtain ⟨doc, seen, hdoc, hseen, -, -, hstatus⟩ := exists_seen_withdrawn
  exact ⟨doc, seen, hdoc, hseen, hstatus, answers_of_mem_ofDocument ⟨[]⟩ hdoc hseen⟩

/-- An object that is no reference leads to itself. -/
theorem component?_of_lookup?_eq_none {entries : Entries}
    (h : Value.lookup? "$ref" entries = none) :
    component? root label (.map entries) = some (.map entries) := by
  rw [component?, Reference.follow.eq_def, Reference.text?, h]
  rfl

/-- The status of an analysed operation need not be the first key of its responses: behind a broken
entry it is the key of another. -/
theorem not_first_behind_broken :
    ¬ ∀ (root : Value) (version : String) (doc : Document) (lib : Library)
      (seen : AnalyzedOperation), ofValue root version = .ok doc →
      seen ∈ (Analysis.ofDocument lib doc).1 →
      ∃ operation first rest, Declares root seen.path seen.method operation ∧
        Value.lookup? "responses" operation = some (.map (first :: rest)) ∧
        seen.status = first.1.display := by
  intro hclaim
  obtain ⟨doc, seen, hdoc, hseen, -, hmethod, hstatus⟩ := exists_seen_withdrawn
  obtain ⟨operation, first, rest, hdeclares, hresponses, hfirst⟩ :=
    hclaim withdrawn "3.0.3" doc ⟨[]⟩ seen hdoc hseen
  obtain ⟨paths, entry, item, hpaths, hentry, -, hitem, hlookup⟩ := hdeclares
  have hpaths' : withdrawn.getD "paths" = .map [(.text "/pets", .map fallbackItem)] := by
    simp [withdrawn, Value.getD, Value.get?, Value.lookup?]
  obtain rfl := Value.map.inj (hpaths.symm.trans hpaths')
  obtain rfl := List.mem_singleton.mp hentry
  rw [component?_of_lookup?_eq_none (by simp [fallbackItem, Value.lookup?])] at hitem
  obtain rfl := Option.some_inj.mp hitem
  have hlookup' : (Value.map fallbackItem).get? Method.get.name =
      some (.map [(.text "responses", .map fallbacks)]) := by
    simp [fallbackItem, Value.get?, Value.lookup?, Method.name]
  rw [hmethod] at hlookup
  obtain rfl := Value.map.inj (Option.some_inj.mp (hlookup.symm.trans hlookup'))
  have hresponses' : Value.lookup? "responses" [(.text "responses", .map fallbacks)] =
      some (.map fallbacks) := by
    simp [Value.lookup?]
  have hfallbacks := Value.map.inj (Option.some_inj.mp (hresponses.symm.trans hresponses'))
  obtain ⟨rfl, -⟩ := List.cons.inj hfallbacks
  rw [hstatus] at hfirst
  exact absurd hfirst (by decide)

end TypedClient.Document
