import TypedClient.Proofs.Client.Types
import TypedClient.Proofs.Generation.Run

/-!
# Closure of the two files under names

The type library and the client are made by separate passes over the schemas: the library declares
type names in the order of the document, analysis harvests the references that the client imports,
and the types of the methods are mapped once more with qualifiers and views.  They agree: whatever
name a type mentions is declared once, and whatever the client mentions it imports.

* `Closed`: the two files are closed under names.
* `run_closed`: the files of every run that makes a client are closed.
-/

namespace TypedClient

/-- The file, the names and the namespace of a declaration that is an import. -/
def Declaration.import? : Declaration → Option (String × List String × Option String)
  | .importTypes file names space => some (file, names, space)
  | _ => none

/-- The library and the client are closed under names, where the client imports the library under
the namespace, if there is one. -/
structure Closed (library client : List Declaration) (space : Option String) : Prop where
  /-- Every name that a type of the library mentions is declared once. -/
  library_names : ∀ name qualifier view, Occurs (.named name qualifier view false) library →
    (TypeLibrary.names library).count name = 1
  /-- Every name that a type of the client mentions is declared once in the library. -/
  client_names : ∀ name qualifier view, Occurs (.named name qualifier view false) client →
    (TypeLibrary.names library).count name = 1
  /-- Without a namespace every such name stands by itself and is imported. -/
  imported : space = none → ∀ name qualifier view,
    Occurs (.named name qualifier view false) client →
      qualifier = "" ∧ ∃ names, client.filterMap Declaration.import? =
        [(Client.definitionsModule, names, none)] ∧ name ∈ names
  /-- Without a namespace the projection of every view in a type of the client is imported. -/
  imported_views : space = none → ∀ name qualifier view builtin,
    Occurs (.named name qualifier (some view) builtin) client →
      ∃ names, client.filterMap Declaration.import? =
        [(Client.definitionsModule, names, none)] ∧ view.projection ∈ names
  /-- With a namespace every such name is qualified by it, and the namespace is imported. -/
  qualified : ∀ s, space = some s → ∀ name qualifier view,
    Occurs (.named name qualifier view false) client →
      qualifier = s ++ "." ∧ client.filterMap Declaration.import? =
        [(Client.definitionsModule, [], some s)]
  /-- Every name that the client exports is declared once in the library. -/
  exported : ∀ names file, .exportTypes names file ∈ client → ∀ name ∈ names,
    (TypeLibrary.names library).count name = 1
  /-- Where types are seen through views the library starts with the projections. -/
  views : ∀ name qualifier view builtin,
    Occurs (.named name qualifier (some view) builtin) library ∨
      Occurs (.named name qualifier (some view) builtin) client →
      library.head? = some .viewUtilities
  /-- No property in a type of the client is marked. -/
  unmarked : ∀ fields index, Occurs (.object fields index) client →
    ∀ f ∈ fields, f.2.isMarked = false

namespace Client

variable {plan : Plan} {operations : List AnalyzedOperation} {final : Draft}

/-! ## Imports and exports of a draft -/

theorem filterMap_import?_declarations (space : Option String) (draft : Draft) :
    (draft.declarations space).filterMap Declaration.import? =
      if draft.references.isEmpty && draft.views.isEmpty then []
      else match space with
        | some s => [(definitionsModule, [], some s)]
        | none => [(definitionsModule, draft.references ++ draft.views, none)] := by
  have hcallables : (draft.callables.map Declaration.callable).filterMap Declaration.import? =
      [] := by
    rw [List.filterMap_map, List.filterMap_eq_nil_iff]
    exact fun _ _ => rfl
  have hgroups : (draft.groups.map fun group => Declaration.tagGroup group.1
      (group.2.map fun member => (member.1, member.2.methodName))).filterMap
      Declaration.import? = [] := by
    rw [List.filterMap_map, List.filterMap_eq_nil_iff]
    exact fun _ _ => rfl
  have hexports : (if draft.references.isEmpty then []
      else [Declaration.exportTypes draft.references (some definitionsModule)]).filterMap
      Declaration.import? = [] := by
    split <;> rfl
  rw [Draft.declarations, List.filterMap_append, List.filterMap_append, List.filterMap_append,
    hcallables, hgroups, filterMap_pickHelper rfl, imports.eq_def, List.filterMap_append, hexports,
    List.append_nil, List.append_nil, List.append_nil, List.append_nil]
  split
  · rfl
  · cases space <;> rfl

/-- The client exports its references. -/
theorem references_of_export_mem {space : Option String} {draft : Draft} {names : List String}
    {file : Option String} (h : .exportTypes names file ∈ draft.declarations space) :
    names = draft.references := by
  rcases mem_declarations h with ⟨_, _, heq⟩ | heq | ⟨_, _, heq⟩ | ⟨_, _, heq⟩ | heq
  · cases heq
  · exact (Declaration.exportTypes.inj heq).1
  · cases heq
  · cases heq
  · cases heq

/-- The types of a client are the types of its methods. -/
theorem exists_callable_of_occurs {space : Option String} {draft : Draft} {t : TypeExpr}
    (h : Occurs t (draft.declarations space)) :
    ∃ c ∈ draft.callables, ∃ type ∈ c.types, TypeExpr.Within t type := by
  obtain ⟨d, hd, type, htype, ht⟩ := h
  rcases mem_declarations hd with ⟨_, _, rfl⟩ | rfl | ⟨c, hc, rfl⟩ | ⟨_, _, rfl⟩ | rfl
  · exact absurd htype List.not_mem_nil
  · exact absurd htype List.not_mem_nil
  · exact ⟨c, hc, type, htype, ht⟩
  · exact absurd htype List.not_mem_nil
  · exact absurd htype List.not_mem_nil

/-! ## The types of a draft -/

/-- Every part of a type of the client is one that mapping emits for an operation whose references
the client imports, and so are its projections. -/
theorem Draft.Holds.emits_of_occurs (h : Holds plan operations final)
    (hops : ∀ op ∈ operations, op.references = (Analysis.harvest plan.lib (usesOf op)).1)
    {space : Option String} {t : TypeExpr} (ht : Occurs t (final.declarations space)) :
    ∃ view : Option View, Mapping.Emits plan.lib (plan.context view) final.references t ∧
      (view ≠ none → t.viewNames ⊆ final.views) := by
  obtain ⟨c, hc, type, htype, hwithin⟩ := exists_callable_of_occurs ht
  rw [h.callables] at hc
  obtain ⟨op, hop, rfl⟩ := List.mem_map.mp hc
  obtain ⟨view, hemits, hviews⟩ := made_emits (hops op (mem_of_mem_firstBy hop)) htype
  refine ⟨view, (hemits t hwithin).mono fun n hn => ?_, fun hview n hn => ?_⟩
  · exact (h.references n).mpr ⟨op, hop, hn⟩
  · exact (h.views n).mpr
      ⟨op, hop, hviews hview (TypeExpr.viewNames_subset_of_within hwithin hn)⟩

/-- Every reference of the client is the type name of a schema. -/
theorem Draft.Holds.known (h : Holds plan operations final)
    (hops : ∀ op ∈ operations, op.references = (Analysis.harvest plan.lib (usesOf op)).1)
    {n : String} (hn : n ∈ final.references) :
    ∃ target ∈ plan.lib.schemas.names, n = plan.lib.typeName target := by
  obtain ⟨op, hop, hmem⟩ := (h.references n).mp hn
  rw [hops op (mem_of_mem_firstBy hop)] at hmem
  exact Analysis.known_of_mem_harvest hmem

end Client

namespace Mapping

/-- A name with a view is not builtin, and the view is that of the context. -/
theorem Emits.of_view {lib : Library} {ctx : Context} {references : NameSet}
    {name qualifier : String} {view : View} {builtin : Bool}
    (h : Emits lib ctx references (.named name qualifier (some view) builtin)) :
    ctx.wrapViews = true ∧ ctx.view = some view := by
  cases builtin with
  | true => exact absurd h (Option.some_ne_none view)
  | false =>
    obtain ⟨-, -, _, _, _, concrete, -, -, hview⟩ := h
    obtain ⟨hwraps, heq, -⟩ := Context.viewOf_eq_some_iff.mp hview.symm
    exact ⟨hwraps, heq⟩

end Mapping

namespace Generation

variable {doc : Document} {settings : Settings}

theorem planOf_qualifier_none (h : Client.namespaceOf settings = none) :
    (planOf doc settings).qualifier = "" := by
  rw [planOf, Client.planOf, h]

theorem planOf_qualifier_some {s : String} (h : Client.namespaceOf settings = some s) :
    (planOf doc settings).qualifier = s ++ "." := by
  rw [planOf, Client.planOf, h]

/-- What is imported for a reference or a projection. -/
theorem import?_of_ne_nil {final : Client.Draft} {space : Option String}
    (h : (∃ n, n ∈ final.references) ∨ ∃ n, n ∈ final.views) :
    (final.declarations space).filterMap Declaration.import? =
      match space with
      | some s => [(Client.definitionsModule, [], some s)]
      | none => [(Client.definitionsModule, final.references ++ final.views, none)] := by
  rw [Client.filterMap_import?_declarations, if_neg]
  intro hempty
  rw [Bool.and_eq_true_iff, List.isEmpty_iff, List.isEmpty_iff] at hempty
  rcases h with ⟨n, hn⟩ | ⟨n, hn⟩
  · rw [hempty.1] at hn
    exact List.not_mem_nil hn
  · rw [hempty.2] at hn
    exact List.not_mem_nil hn

/-- Where the names of the schemas are all different, the library declares every type name of a
schema once. -/
theorem count_names_library (hdoc : doc.schemas.names.Nodup) {name : String}
    (h : ∃ target ∈ (libraryOf doc).schemas.names, name = (libraryOf doc).typeName target) :
    (TypeLibrary.names (run doc settings).library.declarations).count name = 1 := by
  obtain ⟨target, htarget, rfl⟩ := h
  rw [run_library, TypeLibrary.names_declarations]
  have hnames : (libraryOf doc).schemas.names.Nodup := hdoc
  exact Library.count_typeName hnames htarget

/-- The two files of a run are closed under names. -/
theorem run_closed (doc : Document) (settings : Settings) (client : Artifact)
    (hdoc : doc.schemas.names.Nodup) (hclient : (run doc settings).client = .ok client) :
    Closed (run doc settings).library.declarations client.declarations
      (Client.namespaceOf settings) := by
  obtain ⟨final, hdraft, hdeclared⟩ := exists_draft_of_run hclient
  have hholds := Client.draft_holds hdraft
  have hops : ∀ op ∈ operationsOf doc, op.references =
      (Analysis.harvest (planOf doc settings).lib (Client.usesOf op)).1 :=
    fun op hop => Analysis.references_eq_harvest hop
  have hknown : ∀ n ∈ final.references, ∃ target ∈ (libraryOf doc).schemas.names,
      n = (libraryOf doc).typeName target := fun n hn => hholds.known hops hn
  -- what a name in a type of the client is
  have hname : ∀ name qualifier view, Occurs (.named name qualifier view false)
      client.declarations →
      name ∈ final.references ∧ qualifier = (planOf doc settings).qualifier := by
    intro name qualifier view hoccurs
    rw [hdeclared] at hoccurs
    obtain ⟨_, ⟨hmem, hqualifier, -⟩, -⟩ := hholds.emits_of_occurs hops hoccurs
    exact ⟨hmem, hqualifier⟩
  -- what a view in a type of the client is
  have hview : ∀ name qualifier view builtin, Occurs (.named name qualifier (some view) builtin)
      client.declarations →
      view.projection ∈ final.views ∧ usesViews doc settings = true := by
    intro name qualifier view builtin hoccurs
    rw [hdeclared] at hoccurs
    obtain ⟨side, hemits, hviews⟩ := hholds.emits_of_occurs hops hoccurs
    obtain ⟨hwraps, hside⟩ := hemits.of_view
    have hsome : side ≠ none := by
      rintro rfl
      cases hside
    exact ⟨hviews hsome (TypeExpr.projection_mem_viewNames .refl),
      (Bool.and_eq_true_iff.mp hwraps).2⟩
  constructor
  case library_names =>
    intro name qualifier view hoccurs
    rw [run_library] at hoccurs
    obtain ⟨references, ⟨hmem, -⟩, htargets⟩ := TypeLibrary.emits_of_occurs hoccurs
    exact count_names_library hdoc (htargets name hmem)
  case client_names =>
    intro name qualifier view hoccurs
    exact count_names_library hdoc (hknown name (hname name qualifier view hoccurs).1)
  case imported =>
    intro hspace name qualifier view hoccurs
    obtain ⟨hmem, hqualifier⟩ := hname name qualifier view hoccurs
    refine ⟨hqualifier.trans (planOf_qualifier_none hspace), final.references ++ final.views, ?_,
      List.mem_append_left _ hmem⟩
    rw [hdeclared, import?_of_ne_nil (Or.inl ⟨name, hmem⟩), hspace]
  case imported_views =>
    intro hspace name qualifier view builtin hoccurs
    obtain ⟨hmem, -⟩ := hview name qualifier view builtin hoccurs
    refine ⟨final.references ++ final.views, ?_, List.mem_append_right _ hmem⟩
    rw [hdeclared, import?_of_ne_nil (Or.inr ⟨_, hmem⟩), hspace]
  case qualified =>
    intro s hspace name qualifier view hoccurs
    obtain ⟨hmem, hqualifier⟩ := hname name qualifier view hoccurs
    refine ⟨hqualifier.trans (planOf_qualifier_some hspace), ?_⟩
    rw [hdeclared, import?_of_ne_nil (Or.inl ⟨name, hmem⟩), hspace]
  case exported =>
    intro names file hexport name hmem
    rw [hdeclared] at hexport
    rw [Client.references_of_export_mem hexport] at hmem
    exact count_names_library hdoc (hknown name hmem)
  case views =>
    rintro name qualifier view builtin (hoccurs | hoccurs)
    · -- the library is mapped through no view
      obtain ⟨_, hemits, -⟩ := TypeLibrary.emits_of_occurs hoccurs
      cases hemits.of_view.2
    · exact TypeLibrary.head?_declarations.mpr (hview name qualifier view builtin hoccurs).2
  case unmarked =>
    intro fields index hoccurs f hf
    rw [hdeclared] at hoccurs
    obtain ⟨_, hemits, -⟩ := hholds.emits_of_occurs hops hoccurs
    rw [← Bool.not_eq_true]
    intro hmarked
    cases hemits f hf hmarked

/-- The shop has a client, and its two files are closed under names. -/
theorem run_closed_shop :
    Client.shop.schemas.names.Nodup ∧
      ∃ client, (run Client.shop {}).client = .ok client ∧
        Closed (run Client.shop {}).library.declarations client.declarations none := by
  have hnames : Client.shop.schemas.names.Nodup := by decide
  obtain ⟨client, hclient⟩ : ∃ client, (run Client.shop {}).client = .ok client := ⟨_, rfl⟩
  exact ⟨hnames, client, hclient, run_closed Client.shop {} client hnames hclient⟩

end Generation

end TypedClient
