import TypedClient.Proofs.Analysis.Notes
import TypedClient.Proofs.FirstSeen
import TypedClient.Proofs.Generation.Run
import TypedClient.Proofs.TypeLibrary.Declarations

/-!
# Isolation of failures

A run always ends with the type library.  What is broken in the document costs only what depends on
it: a reference the type that contains it, an operation without responses its method, and a clash of
names the client.  Everything that goes wrong on the way is reported, each thing once and in the
order in which it was first met.

* `Diagnostic.gist`: what a diagnostic says.
* `Generation.stream`: all that the stages of a run have to report.
* `Generation.distinct_eq_firstBy`: what is reported of a list of diagnostics.
* `Generation.Isolated`, `Generation.run_isolated`: what every run makes.
-/

namespace TypedClient

/-- What a diagnostic says, however serious it is. -/
def Diagnostic.gist (d : Diagnostic) : String × String × String :=
  (d.code, d.message, d.location)

namespace Generation

variable {doc : Document} {settings : Settings}

/-! ## Diagnostics -/

theorem sameDiagnostic_eq (a b : Diagnostic) : sameDiagnostic a b = (b.gist == a.gist) := by
  rw [BEq.comm, sameDiagnostic, Bool.and_assoc]
  rfl

/-- Of the diagnostics that say the same only the first is reported. -/
theorem distinct_eq_firstBy (l : List Diagnostic) : distinct l = firstBy Diagnostic.gist l := by
  induction l with
  | nil => rfl
  | cons d rest ih =>
    rw [distinct, firstBy_cons, ih]
    congr 1
    refine List.filter_congr fun other _ => ?_
    rw [sameDiagnostic_eq]
    rfl

/-- What the stages of a run have to report: reading, the type library, analysis, and the client or
the clash that takes its place. -/
def stream (doc : Document) (settings : Settings) : List Diagnostic :=
  doc.notes ++ (TypeLibrary.declarations (libraryOf doc) (usesViews doc settings)).2 ++
    (Analysis.ofDocument (libraryOf doc) doc).2 ++
    match assembly doc settings with
    | .ok (_, notes) => notes
    | .error clash => [clashDiagnostic clash]

theorem run_diagnostics :
    (run doc settings).diagnostics = firstBy Diagnostic.gist (stream doc settings) :=
  distinct_eq_firstBy _

/-- Everything that a stage has to report is said. -/
theorem exists_gist_of_mem_stream {d : Diagnostic} (h : d ∈ stream doc settings) :
    d.gist ∈ (run doc settings).diagnostics.map Diagnostic.gist := by
  rw [run_diagnostics, mem_map_firstBy_iff]
  exact List.mem_map_of_mem h

/-- Before the client is assembled, only the notes of the document may say that names clash. -/
theorem mem_notes_of_code_eq {clash : Client.NameClash} {d : Diagnostic}
    (hclash : assembly doc settings = .error clash) (hd : d ∈ stream doc settings)
    (hcode : d.code = (clashDiagnostic clash).code) :
    d = clashDiagnostic clash ∨ d ∈ doc.notes := by
  have hfree : (clashDiagnostic clash).code ∉ Analysis.malformedCode :: Analysis.typeCodes := by
    show "duplicate-method-name" ∉ _
    decide
  rw [← hcode] at hfree
  rw [stream, hclash] at hd
  rcases List.mem_append.mp hd with hd | hd
  · rcases List.mem_append.mp hd with hd | hd
    · rcases List.mem_append.mp hd with hd | hd
      · exact Or.inr hd
      · exact absurd (List.mem_cons_of_mem _ (TypeLibrary.code_of_mem_notes hd)) hfree
    · exact absurd (Analysis.code_of_mem_ofDocument hd) hfree
  · exact Or.inl (List.mem_singleton.mp hd)

/-! ## What every run makes -/

/-- The run has made what it can of the document, and reports the rest. -/
structure Isolated (doc : Document) (settings : Settings) (g : Generation) : Prop where
  /-- The type library is there. -/
  library : g.artifact? "definitions" = some g.library
  /-- It starts with the projections exactly if types are seen through views. -/
  projections : g.library.declarations.head? = some .viewUtilities ↔ g.modifiers = true
  /-- Apart from them it declares one type for each schema, under its type name. -/
  schemas : ∃ declared, g.library.declarations =
      (if g.modifiers then [.viewUtilities] else []) ++ declared ∧
    declared.map Declaration.declaredName? =
      doc.schemas.names.map fun name => some ((libraryOf doc).typeName name)
  /-- The client is there if it could be assembled. -/
  assembled : ∀ declared notes, assembly doc settings = .ok (declared, notes) →
    g.artifact? "api" = some ⟨"api", settings.clientFile, declared⟩ ∧ g.failures = []
  /-- If not, the clash of names is the only failure, and is reported. -/
  failed : ∀ clash, assembly doc settings = .error clash →
    g.artifact? "api" = none ∧ g.failures = [⟨"api", clash.message, clash.second⟩] ∧
      ∃ d ∈ g.diagnostics, d.gist = ("duplicate-method-name", clash.message, clash.second) ∧
        (d = ⟨.error, "duplicate-method-name", clash.message, clash.second⟩ ∨ d ∈ doc.notes)
  /-- Operations without responses are left out of the client. -/
  analysed : operationsOf doc =
    (doc.operations.filter fun op => !op.responses.isEmpty).flatMap fun op =>
      (Analysis.ofOperation (libraryOf doc) op).1
  /-- No method of the client is that of an operation without responses. -/
  callables : ∀ client, g.client = .ok client →
    ∀ c ∈ client.declarations.filterMap Declaration.callable?,
      ∃ op ∈ doc.operations, op.responses ≠ [] ∧ c.route = op.route
  /-- Analysis notes each operation without responses once. -/
  malformed : (Analysis.ofDocument (libraryOf doc) doc).2.filter Analysis.isMalformed =
    (doc.operations.filter fun op => op.responses.isEmpty).map fun op =>
      ⟨.error, "malformed-operation", Analysis.malformedMessage op.label, op.label⟩
  /-- Whatever a stage has to report is said. -/
  represented : ∀ d ∈ stream doc settings, ∃ reported ∈ g.diagnostics, reported.gist = d.gist
  /-- Nothing is said twice. -/
  nodup : (g.diagnostics.map Diagnostic.gist).Nodup
  /-- What is said is said in the order in which it was first met. -/
  ordered : g.diagnostics.map Diagnostic.gist =
    ((stream doc settings).map Diagnostic.gist).eraseDups
  /-- Every diagnostic that is reported is the first to say what it says. -/
  first : ∀ d ∈ g.diagnostics,
    (stream doc settings).find? (fun other => other.gist == d.gist) = some d

/-- Every method of a client is that of an operation with responses. -/
theorem exists_operation_of_callable {client : Artifact}
    (hclient : (run doc settings).client = .ok client) {c : Callable}
    (hc : c ∈ client.declarations.filterMap Declaration.callable?) :
    ∃ op ∈ doc.operations, op.responses ≠ [] ∧ c.route = op.route := by
  obtain ⟨final, hdraft, hdeclared⟩ := exists_draft_of_run hclient
  rw [hdeclared, Client.filterMap_callable?_declarations,
    (Client.draft_holds hdraft).callables] at hc
  obtain ⟨seen, hseen, rfl⟩ := List.mem_map.mp hc
  obtain ⟨op, hop, response, rest, hresponses, tag, -, rfl⟩ :=
    Analysis.mem_ofDocument_iff.mp (mem_of_mem_firstBy hseen)
  refine ⟨op, hop, ?_, rfl⟩
  rw [hresponses]
  exact List.cons_ne_nil _ _

theorem artifact?_api_of_ok {client : Artifact} (hname : client.name = "api")
    (h : (run doc settings).client = .ok client) :
    (run doc settings).artifact? "api" = some client ∧ (run doc settings).failures = [] := by
  have hlibrary : ((run doc settings).library.name == "api") = false := rfl
  constructor
  · rw [artifact?, artifacts, h, List.find?_cons, hlibrary]
    exact List.find?_cons_of_pos (by rw [hname]; rfl)
  · rw [failures, h]

theorem artifact?_api_of_error {clash : Client.NameClash}
    (h : (run doc settings).client = .error clash) :
    (run doc settings).artifact? "api" = none ∧
      (run doc settings).failures = [⟨"api", clash.message, clash.second⟩] := by
  have hlibrary : ((run doc settings).library.name == "api") = false := rfl
  constructor
  · rw [artifact?, artifacts, h, List.find?_cons, hlibrary]
    rfl
  · rw [failures, h]
    rfl

/-- Every run makes what it can of its document, and reports the rest. -/
theorem run_isolated (doc : Document) (settings : Settings) :
    Isolated doc settings (run doc settings) := by
  constructor
  case library => rfl
  case projections => exact TypeLibrary.head?_declarations
  case schemas =>
    rw [run_library, run_modifiers]
    refine ⟨_, TypeLibrary.declarations_fst, ?_⟩
    rw [Named.names, List.map_map, List.map_map]
    exact List.map_congr_left fun entry _ =>
      TypeLibrary.declaredName?_declaration entry.1 entry.2
  case assembled =>
    intro declared notes hassembly
    have hclient : (run doc settings).client = .ok ⟨"api", settings.clientFile, declared⟩ := by
      rw [run_client, hassembly]
      rfl
    exact artifact?_api_of_ok rfl hclient
  case failed =>
    intro clash hassembly
    have hclient : (run doc settings).client = .error clash := by
      rw [run_client, hassembly]
    obtain ⟨hnone, hfailures⟩ := artifact?_api_of_error hclient
    refine ⟨hnone, hfailures, ?_⟩
    have hmem : clashDiagnostic clash ∈ stream doc settings := by
      rw [stream, hassembly]
      exact List.mem_append_right _ (List.mem_singleton_self _)
    obtain ⟨d, hd, hgist⟩ := List.mem_map.mp (exists_gist_of_mem_stream hmem)
    refine ⟨d, hd, hgist, ?_⟩
    rw [run_diagnostics] at hd
    exact mem_notes_of_code_eq hassembly (mem_of_mem_firstBy hd) (congrArg Prod.fst hgist)
  case analysed => exact Analysis.ofDocument_fst_eq doc
  case callables => exact fun client hclient c hc => exists_operation_of_callable hclient hc
  case malformed => exact Analysis.filter_isMalformed_ofDocument doc
  case represented => exact fun d hd => List.mem_map.mp (exists_gist_of_mem_stream hd)
  case nodup =>
    rw [run_diagnostics]
    exact nodup_map_firstBy Diagnostic.gist _
  case ordered =>
    rw [run_diagnostics]
    exact map_firstBy Diagnostic.gist _
  case first =>
    intro d hd
    rw [run_diagnostics] at hd
    exact mem_firstBy_iff.mp hd

end Generation

end TypedClient
