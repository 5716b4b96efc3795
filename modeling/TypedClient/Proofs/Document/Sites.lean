import TypedClient.Proofs.Document.Noting
import TypedClient.Proofs.Document.References

/-!
# Components that are left out

Path items, parameters, request bodies and responses may be given by references.  A component is
read where its chain of references ends in an object.  Where the chain breaks off, circles, or ends
in another value, the component is left out and a note says so, under the location of the place
where it should stand.  Null is the one value that is passed over without a note, which serves
components that are not given at all, but is met at the end of a reference as well.

* `Site`, `sites`: the places of a document where a component is read, in order.
* `notes_of_ofValue`: the notes of a document that was read are those of its sites.
* `Settles`, `settles`: what is read on a site, for each way its chain may go.
* `Accounts`: the component is read, or one note tells that it is left out.
* `sites_accounted`: all sites account for their components but those that lead to null.
* `not_accounts_null`: a parameter that refers to null.
-/

namespace TypedClient.Document

open Noting
open Reference (Ends BreaksAt Circles Outcome finish circularNote unresolvedNote)

variable {root : Value} {label path location : String}

/-! ## The sites -/

/-- A place of a document where a component is read: what is given there, null if nothing is, and
the location under which a note tells that it is left out. -/
structure Site where
  location : String
  value : Value
deriving Repr, BEq

/-- The notes that reading the component makes. -/
def Site.notes (root : Value) (site : Site) : List Diagnostic :=
  match dereference root site.location site.value with
  | .ok (_, notes) => notes
  | .error _ => []

/-- The parameters that a value lists. -/
def parameterSites (location : String) : Value → List Site
  | .list items => items.map (Site.mk location)
  | _ => []

/-- The responses that a value lists. -/
def responseSites (location : String) : Value → List Site
  | .map entries => entries.map fun entry => ⟨location, entry.2⟩
  | _ => []

/-- The components of an operation: its parameters, its request body and its responses. -/
def operationSites (label : String) (v : Value) : List Site :=
  parameterSites label (v.getD "parameters") ++ [⟨label, v.getD "requestBody"⟩] ++
    responseSites label (v.getD "responses")

/-- The components of the operation that a path item gives for a method. -/
def methodSites (path : String) (item : Value) (method : Method) : List Site :=
  match item.get? method.name with
  | some (.map operation) => operationSites (operationLabel method path) (.map operation)
  | _ => []

/-- The components in a path item: the parameters of the path, and those of its operations. -/
def itemSites (path : String) (item : Value) : List Site :=
  parameterSites ("#/paths/" ++ path ++ "/parameters") (item.getD "parameters") ++
    Method.all.flatMap (methodSites path item)

/-- The path item of an entry, and the components in the object that it leads to. -/
def pathSites (root : Value) (entry : Value × Value) : List Site :=
  let path := entry.1.display
  ⟨"#/paths/" ++ path, entry.2⟩ ::
    (component? root ("#/paths/" ++ path) entry.2).elim [] (itemSites path)

/-- The places of a document where a component is read, in the order of reading. -/
def sites (root : Value) : List Site :=
  match root.getD "paths" with
  | .map paths => paths.flatMap (pathSites root)
  | _ => []

/-! ## The notes of a document -/

theorem makes_dereference (location : String) (v : Value) :
    Makes (dereference root location v) (Site.notes root ⟨location, v⟩) := by
  intro a notes h
  rw [Site.notes, h]

theorem makes_dereferenceAll (v : Value) :
    Makes (dereferenceAll root location v)
      ((parameterSites location v).flatMap (Site.notes root)) := by
  cases v with
  | list items =>
    rw [dereferenceAll, parameterSites, List.flatMap_map]
    exact makes_map (makes_each fun v _ => makes_dereference location v) _
  | _ => exact makes_pure []

/-- Reading what a value leads to, content and description, makes the notes of the site. -/
theorem makes_payload {α : Type} {v : Value}
    {made : Value → List Media → Option String → Option α} :
    Makes (do
      match ← dereference root label v with
      | none => return none
      | some object =>
        let content ← quiet (readContent (object.getD "content"))
        let description ← quiet (optionalText (object.getD "description"))
        return made object content description) (Site.notes root ⟨label, v⟩) := by
  rw [← List.append_nil (Site.notes root ⟨label, v⟩)]
  refine makes_bind (makes_dereference label v) fun object? _ _ => ?_
  cases object? with
  | none => exact makes_pure none
  | some object => exact makes_behind (makes_quiet _) fun content => makes_map (makes_quiet _) _

theorem makes_readResponses (v : Value) :
    Makes (readResponses root label v) ((responseSites label v).flatMap (Site.notes root)) := by
  cases v with
  | map entries =>
    rw [readResponses, responseSites, List.flatMap_map]
    refine makes_map (makes_each fun entry _ => ?_) _
    rw [readResponse]
    exact makes_payload
  | _ => exact makes_pure []

theorem makes_readOperation {ofPath : List Value} {method : Method} {v : Value} :
    Makes (readOperation root path ofPath method v)
      ((operationSites (operationLabel method path) v).flatMap (Site.notes root)) := by
  rw [readOperation, operationSites, List.flatMap_append, List.flatMap_append,
    List.flatMap_singleton, List.append_assoc]
  refine makes_bind (makes_dereferenceAll _) fun own _ _ => ?_
  refine makes_behind (makes_quiet _) fun merged => ?_
  refine makes_behind (makes_quiet _) fun tags => ?_
  refine makes_behind (makes_quiet _) fun parameters => ?_
  refine makes_bind (by rw [readRequestBody]; exact makes_payload) fun body _ _ => ?_
  rw [← List.append_nil (List.flatMap _ _)]
  refine makes_bind (makes_readResponses _) fun responses _ _ => ?_
  refine makes_behind (makes_quiet _) fun operationId => ?_
  refine makes_behind (makes_quiet _) fun summary => ?_
  exact makes_map (makes_quiet _) _

theorem makes_readMethod {ofPath : List Value} {item : Value} {method : Method} :
    Makes (readMethod root path ofPath item method)
      ((methodSites path item method).flatMap (Site.notes root)) := by
  rw [readMethod.eq_def, methodSites]
  cases item.get? method.name with
  | none => exact makes_pure none
  | some v =>
    cases v with
    | map operation => exact makes_map makes_readOperation _
    | _ => exact makes_pure none

theorem makes_readPath {entry : Value × Value} :
    Makes (readPath root entry) ((pathSites root entry).flatMap (Site.notes root)) := by
  rw [readPath, pathSites, List.flatMap_cons]
  refine makes_bind (makes_dereference _ _) fun item? _ hitem => ?_
  rw [component?_of_dereference _ _ hitem]
  cases item? with
  | none => exact makes_pure []
  | some item =>
    rw [Option.elim_some, itemSites, List.flatMap_append, List.flatMap_assoc]
    refine makes_bind (makes_dereferenceAll _) fun ofPath _ _ => ?_
    exact makes_map (makes_each fun method _ => makes_readMethod) _

theorem makes_readOperations :
    Makes (readOperations root) ((sites root).flatMap (Site.notes root)) := by
  rw [readOperations.eq_def, sites]
  cases root.getD "paths" with
  | map paths =>
    dsimp only
    rw [List.flatMap_assoc]
    exact makes_map (makes_each fun entry _ => makes_readPath) _
  | _ => exact makes_pure []

/-- The notes of a document that was read are those on its schemas, and behind them those that its
sites make, one site after the other. -/
theorem notes_of_ofValue {version : String} {doc : Document} (h : ofValue root version = .ok doc) :
    ∃ before, readLibrary root = .ok (doc.schemas, before) ∧
      doc.notes = before ++ (sites root).flatMap (Site.notes root) := by
  obtain ⟨before, more, hlibrary, hoperations, hnotes⟩ := parts_of_ofValue h
  rw [hnotes, ← makes_readOperations _ more hoperations]
  exact ⟨before, hlibrary, rfl⟩

/-! ## What is read on a site -/

/-- What is read on a site, for each way that the chain of references there may go. -/
structure Settles (root : Value) (site : Site) : Prop where
  kept : ∀ entries, Ends root site.value (.map entries) →
    dereference root site.location site.value = .ok (some (.map entries), [])
  passedOver : Ends root site.value .null →
    dereference root site.location site.value = .ok (none, [])
  invalid : ∀ v, Ends root site.value v → v ≠ .null → (∀ entries, v ≠ .map entries) →
    dereference root site.location site.value = .ok (none, [Reference.note "invalid-component"
      ("Expected an object, got " ++ v.kindName) site.location])
  unresolved : ∀ error, BreaksAt root site.value error →
    dereference root site.location site.value = .ok (none, [unresolvedNote error site.location])
  circular : ∀ ref, Circles root site.value ref → ∃ again, Circles root site.value again ∧
    dereference root site.location site.value = .ok (none, [circularNote again site.location])

theorem dereference_of_follow_eq_dropped {v : Value} {note : Diagnostic}
    (h : Reference.follow root location v = .dropped note) :
    dereference root location v = .ok (none, [note]) := by
  rw [dereference, h]
  rfl

theorem finish_eq_dropped {v : Value} (hnull : v ≠ .null) (hmap : ∀ entries, v ≠ .map entries) :
    finish location v = .dropped (Reference.note "invalid-component"
      ("Expected an object, got " ++ v.kindName) location) := by
  cases v with
  | null => exact absurd rfl hnull
  | map entries => exact absurd rfl (hmap entries)
  | _ => rfl

/-- Every site is settled so. -/
theorem settles (root : Value) (site : Site) : Settles root site where
  kept := by
    intro entries h
    rw [dereference, h.follow_eq]
    rfl
  passedOver := by
    intro h
    rw [dereference, h.follow_eq]
    rfl
  invalid := by
    intro v h hnull hmap
    refine dereference_of_follow_eq_dropped ?_
    rw [h.follow_eq, finish_eq_dropped hnull hmap]
  unresolved := fun _ h => dereference_of_follow_eq_dropped (h.follow_eq site.location)
  circular := by
    intro ref h
    obtain ⟨again, hagain, hfollow⟩ := h.exists_follow_eq site.location
    exact ⟨again, hagain, dereference_of_follow_eq_dropped hfollow⟩

/-- The codes of the notes on components that are left out. -/
def leftOutCodes : List String :=
  ["unresolved-reference", "circular-reference", "invalid-component"]

/-- The site accounts for its component: the object at the end of the chain of references is read
and nothing noted, or nothing is read and one note tells so, with the location of the site. -/
def Accounts (root : Value) (site : Site) : Prop :=
  (∃ entries, Ends root site.value (.map entries) ∧
    dereference root site.location site.value = .ok (some (.map entries), [])) ∨
  ∃ note, dereference root site.location site.value = .ok (none, [note]) ∧
    note.code ∈ leftOutCodes ∧ note.location = site.location

/-- A chain that ends in null is all that is not accounted for. -/
theorem accounts_iff {site : Site} : Accounts root site ↔ ¬ Ends root site.value .null := by
  have hsettles := settles root site
  constructor
  · rintro (⟨entries, hends, -⟩ | ⟨note, hread, -⟩) hnull
    · cases hends.unique hnull
    · rw [hsettles.passedOver hnull] at hread
      cases hread
  · intro hnull
    rcases Reference.follow_cases root site.location site.value with
      ⟨v, hends, -⟩ | ⟨error, hbreaks, -⟩ | ⟨ref, hcircles, -⟩
    · by_cases hmap : ∃ entries, v = .map entries
      · obtain ⟨entries, rfl⟩ := hmap
        exact Or.inl ⟨entries, hends, hsettles.kept entries hends⟩
      · have hother : v ≠ .null := by
          rintro rfl
          exact hnull hends
        exact Or.inr ⟨_, hsettles.invalid v hends hother (not_exists.mp hmap),
          by simp [leftOutCodes, Reference.note], rfl⟩
    · exact Or.inr ⟨_, hsettles.unresolved error hbreaks,
        by simp [leftOutCodes, unresolvedNote, Reference.note], rfl⟩
    · obtain ⟨again, -, hread⟩ := hsettles.circular ref hcircles
      exact Or.inr ⟨_, hread, by simp [leftOutCodes, circularNote, Reference.note], rfl⟩

/-- A document that was read has the notes on its schemas and then those that its sites make, one
site after the other.  A site accounts for its component, with one note if it is left out, exactly
if the chain of references there does not end in null; then nothing is read and nothing noted. -/
theorem sites_accounted (root : Value) (version : String) :
    (∀ doc, ofValue root version = .ok doc → ∃ before,
      readLibrary root = .ok (doc.schemas, before) ∧
        doc.notes = before ++ (sites root).flatMap (Site.notes root)) ∧
    ∀ site, Settles root site ∧ (Accounts root site ↔ ¬ Ends root site.value .null) :=
  ⟨fun _ h => notes_of_ofValue h, fun site => ⟨settles root site, accounts_iff⟩⟩

/-- The reference to a parameter among the components. -/
def parameterReference (name : String) : Value :=
  .map [(.text "$ref", .text ("#/components/parameters/" ++ name))]

/-- A document with one operation, and with some parameters among its components. -/
def catalogue (listed : List Value) (parameters : Entries) : Value :=
  .map [(.text "paths", .map [(.text "/pets",
      .map [(.text "get", .map [(.text "parameters", .list listed)])])]),
    (.text "components", .map [(.text "parameters", .map parameters)])]

/-- An operation with a parameter that is not there, and with one that is a number. -/
def brokenCatalogue : Value :=
  catalogue [parameterReference "Gone", parameterReference "Count"] [(.text "Count", .int 3)]

/-- Both parameters are left out with a note. -/
theorem sites_accounted_broken : ∃ doc, ofValue brokenCatalogue "3.0.3" = .ok doc ∧
    doc.notes = [
      ⟨.warning, "unresolved-reference",
        "Cannot resolve $ref '#/components/parameters/Gone': key 'Gone' not found", "GET /pets"⟩,
      ⟨.warning, "invalid-component", "Expected an object, got int", "GET /pets"⟩] ∧
    Accounts brokenCatalogue ⟨"GET /pets", parameterReference "Count"⟩ := by
  obtain ⟨hnotes, hsites⟩ := sites_accounted brokenCatalogue "3.0.3"
  have hread : (ofValue brokenCatalogue "3.0.3").toOption.isSome = true := by decide +kernel
  rcases hdoc : ofValue brokenCatalogue "3.0.3" with misfit | doc
  · rw [hdoc] at hread
    cases hread
  · obtain ⟨before, hlibrary, hdocNotes⟩ := hnotes doc hdoc
    obtain ⟨-, rfl⟩ := Prod.mk.inj (Except.ok.inj hlibrary)
    have hcount : Ends brokenCatalogue (parameterReference "Count") (.int 3) :=
      ⟨.single ⟨_, rfl, rfl⟩, rfl⟩
    refine ⟨doc, rfl, hdocNotes.trans (by decide +kernel), (hsites _).2.mpr fun hnull => ?_⟩
    cases hcount.unique hnull

/-- An operation with a parameter that is null. -/
def emptyCatalogue : Value := catalogue [parameterReference "Limit"] [(.text "Limit", .null)]

/-- A reference to a parameter that is null is left out, and no note tells so. -/
theorem not_accounts_null :
    ¬ ∀ (root : Value) (site : Site) (ref : String), site ∈ sites root →
      Reference.text? site.value = some ref → Accounts root site := by
  intro hclaim
  have hsites : sites emptyCatalogue =
      [⟨"#/paths//pets", .map [(.text "get", .map [(.text "parameters",
          .list [parameterReference "Limit"])])]⟩,
        ⟨"GET /pets", parameterReference "Limit"⟩, ⟨"GET /pets", .null⟩] := by rfl
  have haccounts := hclaim emptyCatalogue ⟨"GET /pets", parameterReference "Limit"⟩ _
    (by rw [hsites]; exact List.mem_cons_of_mem _ List.mem_cons_self) rfl
  exact accounts_iff.mp haccounts ⟨.single ⟨_, rfl, rfl⟩, rfl⟩

end TypedClient.Document
