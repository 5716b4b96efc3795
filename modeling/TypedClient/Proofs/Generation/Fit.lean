import TypedClient.Path
import TypedClient.Proofs.Generation.Closure
import TypedClient.Source.Files

/-!
# The two files of a run, side by side

The settings name the files, and the client names the module that it imports types from.  Both are
written, and the client finds the type library, if the files have different names and the type
library is called `definitions.ts` and lies beside the client.  Any other name is one that the
client does not know of: what it imports is fixed.

* `Path.settled`: a path with the steps back taken.
* `Declaration.specifier?`, `Specifies`: the module that a declaration names, and whether it leads
  from one file to another.
* `Generation.Fit`: both files are written, and the modules that the client names lead to the type
  library.
* `Generation.run_fit_iff`: when the files of a run fit.
-/

namespace TypedClient

/-! ## Modules -/

namespace Path

/-- The parts of a path with the steps back taken: two points take back the part in front of them.
Where there is none to take back they stay, except at the start of an absolute path. -/
def settle (isAbsolute : Bool) (parts : List String) : List String :=
  parts.foldl (fun done part =>
    if part ≠ ".." then done ++ [part]
    else
      match done.getLast? with
      | none => if isAbsolute then [] else [part]
      | some last => if last = ".." then done ++ [part] else done.dropLast) []

/-- The path with the steps back taken. -/
def settled (p : Path) : Path :=
  { p with parts := settle p.isAbsolute p.parts }

/-- The path of a file in a directory. -/
def child (p : Path) (name : String) : Path :=
  { p with parts := p.parts ++ [name] }

theorem settle_concat {name : String} (hname : name ≠ "..") (isAbsolute : Bool)
    (parts : List String) :
    settle isAbsolute (parts ++ [name]) = settle isAbsolute parts ++ [name] := by
  rw [settle, List.foldl_append, List.foldl_cons, List.foldl_nil, if_pos hname, settle]

/-- A name takes no step back. -/
theorem settled_child {name : String} (hname : name ≠ "..") (p : Path) :
    (p.child name).settled = p.settled.child name := by
  rw [settled, settled, child, child, settle_concat hname]
  rfl

end Path

/-- The module from which a declaration takes names. -/
def Declaration.specifier? : Declaration → Option String
  | .importTypes file _ _ => some file
  | .exportTypes _ (some file) => if file.isEmpty then none else some file
  | _ => none

/-- The module that one file names is another file: it goes on from the directory of the first, and
names the other without its ending. -/
def Specifies (file specifier target : String) : Prop :=
  ((Path.ofText file).parent.join (Path.ofText (specifier ++ ".ts"))).settled =
    (Path.ofText target).settled

instance (file specifier target : String) : Decidable (Specifies file specifier target) :=
  inferInstanceAs (Decidable (_ = _))

/-- The module that a client imports is the file `definitions.ts` beside it. -/
theorem specifies_definitionsModule_iff {file target : String} :
    Specifies file Client.definitionsModule target ↔
      (Path.ofText target).settled = (Path.ofText file).parent.settled.child "definitions.ts" := by
  have hmodule : Path.ofText (Client.definitionsModule ++ ".ts") = ⟨"", ["definitions.ts"]⟩ := by
    decide
  rw [Specifies, hmodule, Path.join_of_relative rfl, eq_comm,
    ← Path.settled_child (by decide : "definitions.ts" ≠ "..")]
  rfl

namespace Client

variable {plan : Plan} {operations : List AnalyzedOperation} {final : Draft} {space : Option String}

/-- Every module that a client names is that of the type library. -/
theorem specifier_of_mem_declarations {d : Declaration} {specifier : String}
    (hd : d ∈ final.declarations space) (h : d.specifier? = some specifier) :
    specifier = definitionsModule := by
  rcases mem_declarations hd with ⟨_, _, rfl⟩ | rfl | ⟨_, _, rfl⟩ | ⟨_, _, rfl⟩ | rfl
  · exact (Option.some_inj.mp h).symm
  · exact (Option.some_inj.mp h).symm
  · cases h
  · cases h
  · cases h

/-- A client with references names the module of the type library. -/
theorem exists_specifier_of_references (space : Option String) (h : final.references ≠ []) :
    ∃ d ∈ final.declarations space, d.specifier? = some definitionsModule := by
  refine ⟨.exportTypes final.references (some definitionsModule), ?_, rfl⟩
  refine List.mem_append_left _ (List.mem_append_left _ (List.mem_append_left _
    (List.mem_append_right _ ?_)))
  have hempty : ¬ final.references.isEmpty = true := fun hnil => h (List.isEmpty_iff.mp hnil)
  rw [if_neg hempty]
  exact List.mem_singleton_self _

/-- The projections of a method occur in its types. -/
theorem exists_type_of_mem_viewNames {c : Callable} {n : String} (hn : n ∈ c.viewNames) :
    ∃ type ∈ c.types, n ∈ type.viewNames := by
  have hreturn : n ∈ c.returnType.viewNames → ∃ type ∈ c.types, n ∈ type.viewNames :=
    fun h => ⟨_, List.mem_append_right _ (List.mem_singleton_self _), h⟩
  rw [Callable.viewNames] at hn
  split at hn
  · rename_i data hdata
    rcases NameSet.mem_union.mp hn with hn | hn
    · refine ⟨data, List.mem_append_left _ (List.mem_append_right _ ?_), hn⟩
      rw [hdata]
      exact List.mem_singleton_self _
    · exact hreturn hn
  · exact hreturn hn

/-- The projections that an operation uses are of types that it refers to. -/
theorem references_ne_nil_of_viewNames {op : AnalyzedOperation} {n : String}
    (hop : op.references = (Analysis.harvest plan.lib (usesOf op)).1)
    (hn : n ∈ (plan.made op).viewNames) : op.references ≠ [] := by
  obtain ⟨type, htype, hn⟩ := exists_type_of_mem_viewNames hn
  obtain ⟨name, qualifier, view, builtin, hwithin, -⟩ :=
    TypeExpr.exists_view_of_mem_viewNames type hn
  obtain ⟨side, hemits, -⟩ := made_emits hop htype
  have hnamed := hemits _ hwithin
  cases builtin with
  | true => exact absurd hnamed (Option.some_ne_none view)
  | false => exact List.ne_nil_of_mem hnamed.1

/-- A client has no references exactly if no operation refers to a type of the library. -/
theorem Draft.Holds.references_eq_nil_iff (h : Holds plan operations final) :
    final.references = [] ↔ ∀ op ∈ firsts operations, op.references = [] := by
  simp only [List.eq_nil_iff_forall_not_mem, h.references]
  exact ⟨fun hnone op hop n hn => hnone n ⟨op, hop, hn⟩,
    fun hnone n ⟨op, hop, hn⟩ => hnone op hop n hn⟩

/-- A client without references uses no projections. -/
theorem Draft.Holds.views_eq_nil (h : Holds plan operations final)
    (hops : ∀ op ∈ operations, op.references = (Analysis.harvest plan.lib (usesOf op)).1)
    (hnone : final.references = []) : final.views = [] := by
  refine List.eq_nil_iff_forall_not_mem.mpr fun n hn => ?_
  obtain ⟨op, hop, hn⟩ := (h.views n).mp hn
  exact references_ne_nil_of_viewNames (hops op (mem_of_mem_firstBy hop)) hn
    (h.references_eq_nil_iff.mp hnone op hop)

/-- A client without imports names no module. -/
theorem specifier?_eq_none_of_mem {d : Declaration} (hreferences : final.references = [])
    (hviews : final.views = []) (hd : d ∈ final.declarations space) : d.specifier? = none := by
  rw [Draft.declarations, imports.eq_def, hreferences, hviews] at hd
  rcases List.mem_append.mp hd with hd | hd
  · rcases List.mem_append.mp hd with hd | hd
    · rcases List.mem_append.mp hd with hd | hd
      · exact absurd hd List.not_mem_nil
      · obtain ⟨_, -, rfl⟩ := List.mem_map.mp hd
        rfl
    · obtain ⟨_, -, rfl⟩ := List.mem_map.mp hd
      rfl
  · split at hd
    · rw [List.mem_singleton.mp hd]
      rfl
    · exact absurd hd List.not_mem_nil

/-- The modules that a client names satisfy what the module of the type library satisfies, or no
operation refers to a type of the library. -/
theorem Draft.Holds.forall_specifier_iff (h : Holds plan operations final)
    (hops : ∀ op ∈ operations, op.references = (Analysis.harvest plan.lib (usesOf op)).1)
    (space : Option String) (p : String → Prop) :
    (∀ d ∈ final.declarations space, ∀ specifier, d.specifier? = some specifier → p specifier) ↔
      (∀ op ∈ firsts operations, op.references = []) ∨ p definitionsModule := by
  rw [← h.references_eq_nil_iff]
  constructor
  · intro hall
    by_cases hnone : final.references = []
    · exact Or.inl hnone
    · obtain ⟨d, hd, hspecifier⟩ := exists_specifier_of_references space hnone
      exact Or.inr (hall d hd _ hspecifier)
  · rintro (hnone | hp) d hd specifier hspecifier
    · rw [specifier?_eq_none_of_mem hnone (h.views_eq_nil hops hnone) hd] at hspecifier
      cases hspecifier
    · rw [specifier_of_mem_declarations hd hspecifier]
      exact hp

end Client

/-! ## Files -/

namespace Source

/-- Two files stay two exactly if they have different names. -/
theorem filesOf_pair_iff (a b : Artifact) (className : String) :
    filesOf [a, b] className =
        [(a.filename, artifactText a className), (b.filename, artifactText b className)] ↔
      a.filename ≠ b.filename := by
  show (if a.filename = b.filename then _ else _) = _ ↔ _
  split
  · rename_i heq
    refine ⟨fun h => ?_, fun hne => absurd heq hne⟩
    have hlength := congrArg List.length h
    rw [List.length_singleton, List.length_cons, List.length_singleton] at hlength
    omega
  · rename_i hne
    exact ⟨fun _ => hne, fun _ => rfl⟩

end Source

namespace Generation

variable {doc : Document} {settings : Settings}

/-- The library and the client are written, each under its own name and nothing else, and whatever
module the client takes names from is the file of the library. -/
structure Fit (settings : Settings) (g : Generation) (client : Artifact) : Prop where
  files : Source.filesOf g.artifacts settings.clientName =
    [(settings.definitionsFile, Source.definitionsText g.library.declarations),
      (settings.clientFile, Source.clientText client.declarations settings.clientName)]
  specifiers : ∀ d ∈ client.declarations, ∀ specifier, d.specifier? = some specifier →
    Specifies settings.clientFile specifier settings.definitionsFile

/-- The two files of a run stay two exactly if the settings give them different names. -/
theorem filesOf_run_iff {client : Artifact} (h : (run doc settings).client = .ok client) :
    Source.filesOf (run doc settings).artifacts settings.clientName =
        [(settings.definitionsFile, Source.definitionsText (run doc settings).library.declarations),
          (settings.clientFile, Source.clientText client.declarations settings.clientName)] ↔
      settings.definitionsFile ≠ settings.clientFile := by
  obtain ⟨final, hdraft, hdeclared⟩ := exists_draft_of_run h
  rw [run_of_draft_eq_ok hdraft, Except.ok.injEq] at h
  subst h
  have hartifacts : (run doc settings).artifacts = [(run doc settings).library,
      ⟨clientName, settings.clientFile, final.declarations (Client.namespaceOf settings)⟩] := by
    rw [artifacts, run_of_draft_eq_ok hdraft]
  rw [hartifacts]
  exact Source.filesOf_pair_iff _ _ _

/-- The modules that the client of a run names lead to the library exactly if there are none, or the
library is `definitions.ts` beside the client. -/
theorem specifiers_iff {client : Artifact} (h : (run doc settings).client = .ok client) :
    (∀ d ∈ client.declarations, ∀ specifier, d.specifier? = some specifier →
        Specifies settings.clientFile specifier settings.definitionsFile) ↔
      (∀ op ∈ Client.firsts (operationsOf doc), op.references = []) ∨
        (Path.ofText settings.definitionsFile).settled =
          (Path.ofText settings.clientFile).parent.settled.child "definitions.ts" := by
  obtain ⟨final, hdraft, hdeclared⟩ := exists_draft_of_run h
  have hops : ∀ op ∈ operationsOf doc, op.references =
      (Analysis.harvest (planOf doc settings).lib (Client.usesOf op)).1 :=
    fun op hop => Analysis.references_eq_harvest hop
  rw [hdeclared, ← specifies_definitionsModule_iff]
  exact (Client.draft_holds hdraft).forall_specifier_iff hops (Client.namespaceOf settings) _

/-- The files of a run that makes a client fit exactly if they have different names, and no
operation refers to a type of the library or the library is `definitions.ts` beside the client. -/
theorem run_fit_iff (doc : Document) (settings : Settings) (client : Artifact)
    (hclient : (run doc settings).client = .ok client) :
    Fit settings (run doc settings) client ↔
      settings.definitionsFile ≠ settings.clientFile ∧
        ((∀ op ∈ Client.firsts (operationsOf doc), op.references = []) ∨
          (Path.ofText settings.definitionsFile).settled =
            (Path.ofText settings.clientFile).parent.settled.child "definitions.ts") := by
  rw [← filesOf_run_iff hclient, ← specifiers_iff hclient]
  exact ⟨fun h => ⟨h.files, h.specifiers⟩, fun h => ⟨h.1, h.2⟩⟩

/-- Settings that put both files into one directory, which they write in two ways. -/
def oneDirectory : Settings where
  definitionsFile := "src/definitions.ts"
  clientFile := "src/web/../api.ts"

/-- The files of the shop fit where they lie in one directory. -/
theorem run_fit_iff_shop :
    ∃ client, (run Client.shop oneDirectory).client = .ok client ∧
      Fit oneDirectory (run Client.shop oneDirectory) client := by
  obtain ⟨client, hclient⟩ : ∃ client, (run Client.shop oneDirectory).client = .ok client :=
    ⟨_, rfl⟩
  exact ⟨client, hclient,
    (run_fit_iff Client.shop oneDirectory client hclient).mpr ⟨by decide, Or.inr (by decide)⟩⟩

/-- Settings that give the library another name. -/
def renamed : Settings where
  definitionsFile := "types.ts"

/-- Settings that give both files one name. -/
def shared : Settings where
  definitionsFile := "api.ts"

/-- The files of the shop do not fit if the library has another name, nor if both have one. -/
theorem not_fit_renamed_shared :
    (∃ client, (run Client.shop renamed).client = .ok client ∧
      ¬ Fit renamed (run Client.shop renamed) client) ∧
    ∃ client, (run Client.shop shared).client = .ok client ∧
      ¬ Fit shared (run Client.shop shared) client := by
  constructor
  · obtain ⟨client, hclient⟩ : ∃ client, (run Client.shop renamed).client = .ok client := ⟨_, rfl⟩
    refine ⟨client, hclient, fun h => ?_⟩
    rcases (specifiers_iff hclient).mp h.specifiers with hnone | hlead
    · -- the first operation of the shop gives an order
      exact absurd hnone (by decide +kernel)
    · exact absurd hlead (by decide)
  · obtain ⟨client, hclient⟩ : ∃ client, (run Client.shop shared).client = .ok client := ⟨_, rfl⟩
    exact ⟨client, hclient, fun h => (filesOf_run_iff hclient).mp h.files rfl⟩

end Generation

end TypedClient
