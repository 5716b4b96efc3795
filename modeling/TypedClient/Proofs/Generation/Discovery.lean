import TypedClient.Proofs.Client.Types
import TypedClient.Proofs.Generation.Isolation

/-!
# The client discovers nothing that analysis did not

The schemas of an operation are mapped twice, by analysis for the names that they refer to and by
the client for the types of the method.  The client maps in contexts of its own, with a qualifier
and with projections, but through the same views and at the same locations, so whatever it notes
analysis has noted before.  Of the notes of a run none is left to the client.

* `Client.typeOf_notes`: the notes on one type, made where analysis makes its own.
* `Client.notesOn_subset`: the notes on a method are among those on the schemas it uses.
* `Generation.run_discovers_nothing`: what a run reports is what reading, the type library and
  analysis note, and the clash of names if there is one.
-/

namespace TypedClient

namespace Client

variable {lib : Library} {plan : Plan} {op : AnalyzedOperation}

/-! ## The notes on a method -/

/-- The type of a schema is noted as the use of the schema through the same view is. -/
theorem typeOf_notes {ctx : Mapping.Context} {location : String} {schema : Schema} :
    (typeOf lib ctx location (some schema)).2 =
      (Analysis.referencesOf lib ⟨schema, ctx.view, location⟩).2 := by
  have hview : ctx.view = (⟨schema, ctx.view, location⟩ : Analysis.Use).view := rfl
  rw [typeOf, Analysis.referencesOf_notes hview]
  rcases Mapping.map lib ctx location schema with error | mapped <;> rfl

/-- A missing schema is not noted, and a schema that is used is noted as its use is. -/
theorem typeOf_notes_subset {ctx : Mapping.Context} {location : String} {schema : Option Schema}
    {list : List Analysis.Use} (huse : ∀ s, schema = some s → ⟨s, ctx.view, location⟩ ∈ list) :
    (typeOf lib ctx location schema).2 ⊆ (Analysis.harvest lib list).2 := by
  intro d hd
  cases schema with
  | none => exact absurd hd List.not_mem_nil
  | some s =>
    rw [typeOf_notes] at hd
    rw [Analysis.harvest_notes]
    exact List.mem_flatMap.mpr ⟨_, huse s rfl, hd⟩

theorem parametersType_notes_subset :
    (parametersType plan.lib plan.qualifier op).2 ⊆
      (Analysis.harvest plan.lib (usesOf op)).2 := by
  intro d hd
  rw [parametersType] at hd
  dsimp only at hd
  split at hd
  · exact absurd hd List.not_mem_nil
  · obtain ⟨field, hfield, hd⟩ := List.mem_flatMap.mp hd
    obtain ⟨p, hp, rfl⟩ := List.mem_map.mp hfield
    exact typeOf_notes_subset (fun s hs => use_of_parameter hp hs) hd

theorem dataType_notes_subset :
    (dataType plan.lib plan.qualifier plan.modifiers op).2 ⊆
      (Analysis.harvest plan.lib (usesOf op)).2 := by
  intro d hd
  rw [dataType] at hd
  split at hd
  · exact typeOf_notes_subset (fun s hs => use_of_body hs) hd
  · exact absurd hd List.not_mem_nil

theorem returnType_notes_subset :
    (returnType plan.lib plan.qualifier plan.modifiers op).2 ⊆
      (Analysis.harvest plan.lib (usesOf op)).2 := by
  intro d hd
  rw [returnType] at hd
  split at hd
  · split at hd
    · exact absurd hd List.not_mem_nil
    · rename_i schema hschema
      refine typeOf_notes_subset (fun s hs => ?_) hd
      exact use_of_response (hschema.trans hs)
  · exact absurd hd List.not_mem_nil
  · exact absurd hd List.not_mem_nil
  · exact absurd hd List.not_mem_nil

/-- The notes on a method are among those on the schemas that its operation uses. -/
theorem notesOn_subset : plan.notesOn op ⊆ (Analysis.harvest plan.lib (usesOf op)).2 := by
  intro d hd
  rcases List.mem_append.mp hd with hd | hd
  · rcases List.mem_append.mp hd with hd | hd
    · exact parametersType_notes_subset hd
    · exact dataType_notes_subset hd
  · exact returnType_notes_subset hd

/-- The notes of a finished draft are notes on the schemas that its operations use. -/
theorem Draft.Holds.notes_subset {operations : List AnalyzedOperation} {final : Draft}
    (h : Holds plan operations final) {noted : List Diagnostic}
    (hops : ∀ op ∈ operations, (Analysis.harvest plan.lib (usesOf op)).2 ⊆ noted) :
    final.notes ⊆ noted := by
  intro d hd
  rw [h.notes] at hd
  obtain ⟨op, hop, hd⟩ := List.mem_flatMap.mp hd
  exact hops op (mem_of_mem_firstBy hop) (notesOn_subset hd)

/-- Whatever is noted while the client of a document is assembled, analysis has noted. -/
theorem notes_subset_of_declarations {doc : Document} {settings : Settings} {modifiers : Bool}
    {declared : List Declaration} {notes : List Diagnostic}
    (h : declarations lib settings modifiers (Analysis.ofDocument lib doc).1 =
      .ok (declared, notes)) : notes ⊆ (Analysis.ofDocument lib doc).2 := by
  rcases Outcome.ok_or_error (draft (planOf lib settings modifiers)
    (Analysis.ofDocument lib doc).1) with ⟨final, hdraft⟩ | ⟨clash, hdraft⟩
  · rw [declarations_eq_ok hdraft] at h
    obtain ⟨-, rfl⟩ := Prod.mk.inj (Except.ok.inj h)
    exact (draft_holds hdraft).notes_subset fun op hop => Analysis.harvest_notes_subset hop
  · rw [declarations_eq_error hdraft] at h
    cases h

end Client

namespace Generation

/-! ## The notes of a run -/

/-- What a run reports of its failures. -/
def failureDiagnostic (failure : ArtifactFailure) : Diagnostic :=
  ⟨.error, "duplicate-method-name", failure.message, failure.location⟩

theorem map_failureDiagnostic {doc : Document} {settings : Settings} {clash : Client.NameClash}
    (h : assembly doc settings = .error clash) :
    (run doc settings).failures.map failureDiagnostic = [clashDiagnostic clash] := by
  have hclient : (run doc settings).client = .error clash := by
    rw [run_client, h]
  rw [(artifact?_api_of_error hclient).2]
  rfl

theorem failures_eq_nil {doc : Document} {settings : Settings} {declared : List Declaration}
    {notes : List Diagnostic} (h : assembly doc settings = .ok (declared, notes)) :
    (run doc settings).failures = [] := by
  have hclient : (run doc settings).client = .ok ⟨"api", settings.clientFile, declared⟩ := by
    rw [run_client, h]
    rfl
  exact (artifact?_api_of_ok rfl hclient).2

/-- Every diagnostic of the client says what one of analysis says, so that a run reports what
reading, the type library and analysis note, and its failure if there is one. -/
theorem run_discovers_nothing (doc : Document) (settings : Settings) :
    (∀ modifiers declared notes,
      Client.declarations (libraryOf doc) settings modifiers
        (Analysis.ofDocument (libraryOf doc) doc).1 = .ok (declared, notes) →
      ∀ d ∈ notes, ∃ found ∈ (Analysis.ofDocument (libraryOf doc) doc).2, found.gist = d.gist) ∧
    (run doc settings).diagnostics =
      distinct (doc.notes ++
        (TypeLibrary.declarations (libraryOf doc) (usesViews doc settings)).2 ++
        (Analysis.ofDocument (libraryOf doc) doc).2 ++
        (run doc settings).failures.map failureDiagnostic) := by
  constructor
  · intro modifiers declared notes h d hd
    exact ⟨d, Client.notes_subset_of_declarations h hd, rfl⟩
  · rw [run_diagnostics, distinct_eq_firstBy, stream]
    rcases hassembly : assembly doc settings with clash | ⟨declared, notes⟩
    · rw [map_failureDiagnostic hassembly]
    · rw [failures_eq_nil hassembly, List.map_nil, List.append_nil]
      refine firstBy_append_of_subset fun d hd => ?_
      rw [List.map_append]
      exact List.mem_append_right _
        (List.mem_map_of_mem (Client.notes_subset_of_declarations hassembly hd))

/-- The shop without its schemas. -/
def unstocked : Document := { Client.shop with schemas := [] }

/-- In the shop without schemas a response refers to nothing, and the client notes it as analysis
does. -/
theorem run_discovers_nothing_unstocked :
    ∃ declared notes,
      Client.declarations (libraryOf unstocked) {} true
        (Analysis.ofDocument (libraryOf unstocked) unstocked).1 = .ok (declared, notes) ∧
      notes.map Diagnostic.gist = [("unresolved-reference", "Reference to unknown schema 'Order'",
        "GET /orders/\x7bid\x7d response")] ∧
      ∀ d ∈ notes, ∃ found ∈ (Analysis.ofDocument (libraryOf unstocked) unstocked).2,
        found.gist = d.gist := by
  have hgists : (Client.declarations (libraryOf unstocked) {} true
      (Analysis.ofDocument (libraryOf unstocked) unstocked).1).toOption.map
        (fun made => made.2.map Diagnostic.gist) =
      some [("unresolved-reference", "Reference to unknown schema 'Order'",
        "GET /orders/\x7bid\x7d response")] := by decide +kernel
  rcases hmade : Client.declarations (libraryOf unstocked) {} true
    (Analysis.ofDocument (libraryOf unstocked) unstocked).1 with clash | ⟨declared, notes⟩
  · rw [hmade] at hgists
    cases hgists
  · rw [hmade] at hgists
    exact ⟨declared, notes, rfl, Option.some_inj.mp hgists,
      (run_discovers_nothing unstocked {}).1 true declared notes hmade⟩

end Generation

end TypedClient
