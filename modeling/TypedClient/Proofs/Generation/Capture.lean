import TypedClient.Proofs.Generation.Fit
import TypedClient.Proofs.Naming.Capitals

/-!
# Names that a client gives away

A client declares its methods and accessors as members of one class, beside the members that every
client has, and it imports names into a module that has names of its own.  The names come from four
places: the client itself, operation identifiers, tags and schemas.  Each family is free of
repetitions, and so is what is imported, but nothing keeps a method from the name of an accessor or
of a member that every client has, nor an imported name from one of the module's own.

* `memberNames`, `importedNames`, `ownNames`: the names of a client.
* `CaptureFree`: no name is taken by another.
* `Client.Draft.Ordered`: the references and projections of a draft are in order.
* `Generation.run_captureFree_iff`: when the client of a run is free of captures.
-/

namespace TypedClient

/-- The members that every client has. -/
def fixedMembers : List String := ["axios", "constructor"]

/-- The names of the members of a client: those that every client has, the methods and the
accessors. -/
def memberNames (declared : List Declaration) : List String :=
  fixedMembers ++ ((declared.filterMap Declaration.callable?).map Callable.name ++
    (declared.filterMap Declaration.tagGroup?).map Prod.fst)

/-- The names that a client imports from the library: the namespace, or else type names. -/
def importedNames (declared : List Declaration) : List String :=
  (declared.filterMap Declaration.import?).flatMap fun (_, names, space) =>
    match space with
    | some space => if space.isEmpty then names else [space]
    | none => names

/-- The names that the module of a client has of its own. -/
def ownNames (className : String) (helps : Bool) : List String :=
  ["axios", "AxiosInstance", "AxiosRequestConfig", className] ++ if helps then ["pick"] else []

/-- No member of the class has the name of another, and no imported name is that of another or one
of the module's own. -/
structure CaptureFree (declared : List Declaration) (className : String) : Prop where
  members : (memberNames declared).Nodup
  imports : (importedNames declared).Nodup
  apart : ∀ n ∈ importedNames declared, n ∉ ownNames className (declared.any Source.isPickHelper)

namespace Client

variable {plan : Plan} {op : AnalyzedOperation} {operations : List AnalyzedOperation}
  {draft final next : Draft}

/-! ## Order of the imported names -/

/-- The references and the projections of a draft are in ascending order. -/
structure Draft.Ordered (draft : Draft) : Prop where
  references : draft.references.Ascends
  views : draft.views.Ascends

/-- One more operation keeps the order. -/
theorem Draft.Ordered.add (h : draft.Ordered) (hadd : Draft.add plan draft op = .ok next) :
    next.Ordered := by
  rcases add_eq_ok hadd with ⟨-, hexpose⟩ | ⟨-, middle, hmiddle, hexpose⟩
  · obtain ⟨-, rfl⟩ := expose_eq_ok hexpose
    exact ⟨h.references, h.views⟩
  · obtain ⟨-, rfl⟩ := addCallable_eq_ok hmiddle
    obtain ⟨-, rfl⟩ := expose_eq_ok hexpose
    exact ⟨NameSet.ascends_union _ h.references, NameSet.ascends_union _ h.views⟩

/-- The draft that assembly ends with is in order. -/
theorem draft_ordered (h : Client.draft plan operations = .ok final) : final.Ordered :=
  @Outcome.foldlM_invariant _ _ _ _ (fun _ draft => draft.Ordered)
    (fun _ _ _ _ hdraft hadd => hdraft.add hadd) [] _ _ _ ⟨List.Pairwise.nil, List.Pairwise.nil⟩ h

/-! ## Members -/

theorem memberNames_declarations (space : Option String) (draft : Draft) :
    memberNames (draft.declarations space) =
      fixedMembers ++ (draft.callables.map Callable.name ++ draft.groups.names) := by
  rw [memberNames, filterMap_callable?_declarations, filterMap_tagGroup?_declarations, List.map_map]
  rfl

/-- A name that begins with a small letter is not that of a tag. -/
theorem ne_tag_of_isSmall (htags : ∀ op ∈ operations, ∃ tag, op.tag = Naming.tagName tag)
    {name : String} (hname : ∃ c ∈ name.toList.head?, Text.IsSmall c) (hop : op ∈ operations) :
    name ≠ op.tag := by
  rintro rfl
  obtain ⟨c, hc, hsmall⟩ := hname
  obtain ⟨tag, htag⟩ := htags op hop
  rw [htag] at hc
  exact Naming.not_isSmall_tagName hc hsmall

/-- The members of a client have different names exactly if no method has the name of a member that
every client has, or of a tag. -/
theorem Draft.Holds.nodup_memberNames_iff (h : Holds plan operations final)
    (htags : ∀ op ∈ operations, ∃ tag, op.tag = Naming.tagName tag) (space : Option String) :
    (memberNames (final.declarations space)).Nodup ↔
      ∀ op ∈ firsts operations, op.methodName ∉ fixedMembers ∧
        ∀ other ∈ operations, op.methodName ≠ other.tag := by
  have hnames : final.callables.map Callable.name =
      (firsts operations).map AnalyzedOperation.methodName := by
    rw [h.callables, List.map_map]
    rfl
  have hmem : ∀ tag, tag ∈ final.groups.names ↔ ∃ op ∈ operations, op.tag = tag := by
    intro tag
    rw [h.tags, List.mem_eraseDups, List.mem_map]
  have hfixed : ∀ name ∈ fixedMembers, ∃ c ∈ name.toList.head?, Text.IsSmall c := by
    intro name hname
    rcases List.mem_pair.mp hname with rfl | rfl
    · exact ⟨'a', rfl, by decide⟩
    · exact ⟨'c', rfl, by decide⟩
  rw [memberNames_declarations, hnames]
  constructor
  · intro hnodup op hop
    obtain ⟨-, hrest, hapart⟩ := List.nodup_append.mp hnodup
    obtain ⟨-, -, htagged⟩ := List.nodup_append.mp hrest
    have hname : op.methodName ∈ (firsts operations).map AnalyzedOperation.methodName :=
      List.mem_map_of_mem hop
    exact ⟨fun hmember => hapart _ hmember _ (List.mem_append_left _ hname) rfl,
      fun other hother => htagged _ hname _ ((hmem _).mpr ⟨other, hother, rfl⟩)⟩
  · intro hall
    refine List.nodup_append.mpr ⟨by decide, List.nodup_append.mpr ⟨?_, h.nodup_tags, ?_⟩, ?_⟩
    · rw [← hnames]
      exact h.nodup_names
    · intro name hname tag htag
      obtain ⟨op, hop, rfl⟩ := List.mem_map.mp hname
      obtain ⟨other, hother, rfl⟩ := (hmem tag).mp htag
      exact (hall op hop).2 other hother
    · rintro name hname member hmember rfl
      rcases List.mem_append.mp hmember with hmethod | htag
      · obtain ⟨op, hop, rfl⟩ := List.mem_map.mp hmethod
        exact (hall op hop).1 hname
      · obtain ⟨other, hother, hother'⟩ := (hmem name).mp htag
        exact ne_tag_of_isSmall htags (hfixed name hname) hother hother'.symm

/-! ## Imports -/

/-- The names that a client imports for an operation. -/
def Plan.imported (plan : Plan) (space : Option String) (op : AnalyzedOperation) : List String :=
  match space with
  | some space => if op.references.isEmpty then [] else [space]
  | none => op.references ++ (plan.made op).viewNames

theorem importedNames_declarations (space : Option String) (draft : Draft) :
    importedNames (draft.declarations space) =
      match space with
      | some s =>
        if draft.references.isEmpty && draft.views.isEmpty || s.isEmpty then [] else [s]
      | none => draft.references ++ draft.views := by
  rw [importedNames, filterMap_import?_declarations]
  cases hempty : draft.references.isEmpty && draft.views.isEmpty with
  | true =>
    rw [Bool.and_eq_true_iff, List.isEmpty_iff, List.isEmpty_iff] at hempty
    rw [hempty.1, hempty.2]
    cases space <;> rfl
  | false =>
    cases space with
    | none => exact List.flatMap_singleton _ _
    | some s =>
      show [(definitionsModule, [], some s)].flatMap _ = if s.isEmpty then [] else [s]
      exact List.flatMap_singleton _ _

section

variable (hops : ∀ op ∈ operations, op.references = (Analysis.harvest plan.lib (usesOf op)).1)
include hops

/-- A client imports what it imports for an operation. -/
theorem Draft.Holds.mem_importedNames_iff (h : Holds plan operations final)
    {space : Option String} (hspace : ∀ s ∈ space, s.isEmpty = false) {n : String} :
    n ∈ importedNames (final.declarations space) ↔
      ∃ op ∈ firsts operations, n ∈ plan.imported space op := by
  rw [importedNames_declarations]
  cases space with
  | none =>
    show n ∈ final.references ++ final.views ↔
      ∃ op ∈ firsts operations, n ∈ op.references ++ (plan.made op).viewNames
    simp only [List.mem_append, h.references, h.views, and_or_left, exists_or]
  | some s =>
    show n ∈ (if final.references.isEmpty && final.views.isEmpty || s.isEmpty then [] else [s]) ↔
      ∃ op ∈ firsts operations, n ∈ if op.references.isEmpty then [] else [s]
    by_cases hnone : final.references = []
    · have hall := h.references_eq_nil_iff.mp hnone
      rw [hnone, h.views_eq_nil hops hnone]
      refine iff_of_false List.not_mem_nil ?_
      rintro ⟨op, hop, hn⟩
      rw [hall op hop] at hn
      exact absurd hn List.not_mem_nil
    · have hsome : ¬ (final.references.isEmpty && final.views.isEmpty || s.isEmpty) = true := by
        rw [hspace s rfl, Bool.or_false, Bool.and_eq_true_iff, List.isEmpty_iff]
        exact fun hempty => hnone hempty.1
      rw [if_neg hsome]
      obtain ⟨m, hm⟩ := List.exists_mem_of_ne_nil _ hnone
      obtain ⟨op, hop, hm⟩ := (h.references m).mp hm
      constructor
      · intro hn
        refine ⟨op, hop, ?_⟩
        rw [if_neg fun hempty => List.ne_nil_of_mem hm (List.isEmpty_iff.mp hempty)]
        exact hn
      · rintro ⟨other, -, hn⟩
        split at hn
        · exact absurd hn List.not_mem_nil
        · exact hn

/-- Nothing is imported twice. -/
theorem Draft.Holds.nodup_importedNames (h : Holds plan operations final) (hordered : final.Ordered)
    (hlib : plan.lib.schemas.names.Nodup) (space : Option String) :
    (importedNames (final.declarations space)).Nodup := by
  rw [importedNames_declarations]
  cases space with
  | some s =>
    dsimp only
    split
    · exact List.nodup_nil
    · exact List.nodup_singleton s
  | none =>
    refine List.nodup_append.mpr ⟨hordered.references.nodup, hordered.views.nodup, ?_⟩
    rintro n hreference m hview rfl
    obtain ⟨target, htarget, rfl⟩ := h.known hops hreference
    obtain ⟨op, -, hview⟩ := (h.views _).mp hview
    obtain ⟨type, -, hview⟩ := exists_type_of_mem_viewNames hview
    obtain ⟨-, -, view, -, -, hname⟩ := TypeExpr.exists_view_of_mem_viewNames type hview
    refine Library.typeName_notMem_libraryNames hlib htarget ?_
    rw [hname]
    cases view <;> decide

end

/-- A client declares the helper if it has a method that picks some of its parameters. -/
theorem Draft.Holds.any_isPickHelper (h : Holds plan operations final) (space : Option String) :
    (final.declarations space).any Source.isPickHelper =
      (firsts operations).any fun op => picks (plan.made op) := by
  have himports : (imports space final.references final.views).any Source.isPickHelper =
      false := by
    rw [imports.eq_def]
    cases final.references.isEmpty && final.views.isEmpty <;>
      cases final.references.isEmpty <;> cases space <;> rfl
  have hcallables : (final.callables.map Declaration.callable).any Source.isPickHelper = false := by
    rw [List.any_map]
    exact List.any_eq_false.mpr fun _ _ => Bool.false_ne_true
  have hgroups : (final.groups.map fun group => Declaration.tagGroup group.1
      (group.2.map fun member => (member.1, member.2.methodName))).any Source.isPickHelper =
      false := by
    rw [List.any_map]
    exact List.any_eq_false.mpr fun _ _ => Bool.false_ne_true
  have hpicks : final.callables.any picks =
      (firsts operations).any fun op => picks (plan.made op) := by
    rw [h.callables, List.any_map]
    rfl
  rw [Draft.declarations, List.any_append, List.any_append, List.any_append, himports, hcallables,
    hgroups, hpicks]
  cases (firsts operations).any fun op => picks (plan.made op) <;> rfl

end Client

namespace Generation

open Client (firsts namespaceOf)

variable {doc : Document} {settings : Settings} {client : Artifact}

theorem isEmpty_of_mem_namespaceOf {s : String} (h : s ∈ namespaceOf settings) :
    s.isEmpty = false := by
  have hs := (Option.filter_eq_some_iff.mp h).2
  rw [Bool.not_eq_true'] at hs
  exact hs

/-- The members of the client of a run have different names exactly if no method has the name of a
member that every client has, or of a tag. -/
theorem nodup_memberNames_iff (h : (run doc settings).client = .ok client) :
    (memberNames client.declarations).Nodup ↔
      ∀ op ∈ firsts (operationsOf doc), op.methodName ∉ fixedMembers ∧
        ∀ other ∈ operationsOf doc, op.methodName ≠ other.tag := by
  obtain ⟨final, hdraft, hdeclared⟩ := exists_draft_of_run h
  have htags : ∀ op ∈ operationsOf doc, ∃ tag, op.tag = Naming.tagName tag := by
    intro op hop
    obtain ⟨_, -, response, _, -, tag, -, rfl⟩ := Analysis.mem_ofDocument_iff.mp hop
    exact ⟨tag, Analysis.analyze_tag _ response tag⟩
  rw [hdeclared]
  exact (Client.draft_holds hdraft).nodup_memberNames_iff htags _

/-- The client of a run imports what it imports for one of its methods. -/
theorem mem_importedNames_iff (h : (run doc settings).client = .ok client) {n : String} :
    n ∈ importedNames client.declarations ↔ ∃ op ∈ firsts (operationsOf doc),
      n ∈ (planOf doc settings).imported (namespaceOf settings) op := by
  obtain ⟨final, hdraft, hdeclared⟩ := exists_draft_of_run h
  rw [hdeclared]
  exact (Client.draft_holds hdraft).mem_importedNames_iff
    (fun op hop => Analysis.references_eq_harvest hop) fun s hs => isEmpty_of_mem_namespaceOf hs

/-- The client of a run is free of captures exactly if no method has the name of a member that every
client has, or of a tag, and nothing that is imported for a method has a name that the module has of
its own. -/
theorem run_captureFree_iff (doc : Document) (settings : Settings) (client : Artifact)
    (hdoc : doc.schemas.names.Nodup) (hclient : (run doc settings).client = .ok client) :
    CaptureFree client.declarations settings.clientName ↔
      (∀ op ∈ firsts (operationsOf doc), op.methodName ∉ fixedMembers ∧
        ∀ other ∈ operationsOf doc, op.methodName ≠ other.tag) ∧
      ∀ op ∈ firsts (operationsOf doc),
        ∀ n ∈ (planOf doc settings).imported (namespaceOf settings) op,
          n ∉ ownNames settings.clientName ((firsts (operationsOf doc)).any fun op =>
            Client.picks ((planOf doc settings).made op)) := by
  obtain ⟨final, hdraft, hdeclared⟩ := exists_draft_of_run hclient
  have hholds := Client.draft_holds hdraft
  have hpicks : client.declarations.any Source.isPickHelper =
      (firsts (operationsOf doc)).any fun op => Client.picks ((planOf doc settings).made op) := by
    rw [hdeclared]
    exact hholds.any_isPickHelper _
  have himports : (importedNames client.declarations).Nodup := by
    rw [hdeclared]
    exact hholds.nodup_importedNames (fun op hop => Analysis.references_eq_harvest hop)
      (Client.draft_ordered hdraft) hdoc _
  rw [← nodup_memberNames_iff hclient, ← hpicks]
  constructor
  · exact fun h => ⟨h.members, fun op hop n hn =>
      h.apart n ((mem_importedNames_iff hclient).mpr ⟨op, hop, hn⟩)⟩
  · rintro ⟨hmembers, hapart⟩
    refine ⟨hmembers, himports, fun n hn => ?_⟩
    obtain ⟨op, hop, hn⟩ := (mem_importedNames_iff hclient).mp hn
    exact hapart op hop n hn

/-- The client of the shop is free of captures. -/
theorem run_captureFree_iff_shop :
    ∃ client, (run Client.shop {}).client = .ok client ∧
      CaptureFree client.declarations "ApiClient" := by
  obtain ⟨client, hclient⟩ : ∃ client, (run Client.shop {}).client = .ok client := ⟨_, rfl⟩
  exact ⟨client, hclient, (run_captureFree_iff Client.shop {} client (by decide) hclient).mpr
    ⟨by decide +kernel, by decide +kernel⟩⟩

/-- A document with one schema and one operation, which gives it. -/
def lookup (operationId tag schema : String) : Document where
  openapiVersion := "3.0.0"
  info := {}
  schemas := [(schema, .object [] .unsaid false)]
  operations :=
    [{ path := "/x"
       method := .get
       operationId := some operationId
       summary := none
       description := none
       tags := [tag]
       parameters := []
       requestBody := none
       responses :=
        [⟨"200", none, [⟨"application/json", some (.reference schema false)⟩]⟩]
       isDeprecated := false }]
  notes := []

/-- A method takes the name of a field, of the constructor or of an accessor, and a schema that of
the transport. -/
theorem not_captureFree_lookup :
    (∃ client, (run (lookup "axios" "x" "X") {}).client = .ok client ∧
      ¬ CaptureFree client.declarations "ApiClient") ∧
    (∃ client, (run (lookup "constructor" "x" "X") {}).client = .ok client ∧
      ¬ CaptureFree client.declarations "ApiClient") ∧
    (∃ client, (run (lookup "_x" "_x" "X") {}).client = .ok client ∧
      ¬ CaptureFree client.declarations "ApiClient") ∧
    ∃ client, (run (lookup "getX" "x" "axios") {}).client = .ok client ∧
      ¬ CaptureFree client.declarations "ApiClient" := by
  refine ⟨?_, ?_, ?_, ?_⟩
  · obtain ⟨client, hclient⟩ : ∃ client, (run (lookup "axios" "x" "X") {}).client = .ok client :=
      ⟨_, rfl⟩
    exact ⟨client, hclient, fun h =>
      absurd ((nodup_memberNames_iff hclient).mp h.members) (by decide +kernel)⟩
  · obtain ⟨client, hclient⟩ :
        ∃ client, (run (lookup "constructor" "x" "X") {}).client = .ok client := ⟨_, rfl⟩
    exact ⟨client, hclient, fun h =>
      absurd ((nodup_memberNames_iff hclient).mp h.members) (by decide +kernel)⟩
  · obtain ⟨client, hclient⟩ : ∃ client, (run (lookup "_x" "_x" "X") {}).client = .ok client :=
      ⟨_, rfl⟩
    exact ⟨client, hclient, fun h =>
      absurd ((nodup_memberNames_iff hclient).mp h.members) (by decide +kernel)⟩
  · obtain ⟨client, hclient⟩ : ∃ client, (run (lookup "getX" "x" "axios") {}).client = .ok client :=
      ⟨_, rfl⟩
    have himported : ∃ op ∈ firsts (operationsOf (lookup "getX" "x" "axios")),
        "axios" ∈ (planOf (lookup "getX" "x" "axios") {}).imported (namespaceOf {}) op := by
      decide +kernel
    exact ⟨client, hclient, fun h =>
      h.apart "axios" ((mem_importedNames_iff hclient).mpr himported) List.mem_cons_self⟩

end Generation

end TypedClient
