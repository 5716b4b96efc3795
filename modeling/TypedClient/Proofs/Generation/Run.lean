import TypedClient.Generation
import TypedClient.Proofs.Client.Assembly

/-!
# The parts of a run

A run makes the type library and the client of a document by one plan each.  The lemmas here name
the parts and tell what a run makes of them.

* `Generation.libraryOf`, `Generation.operationsOf`, `Generation.planOf`: what a run starts from.
* `Generation.run_library`, `Generation.run_client`: the two files of a run.
* `Generation.run_of_draft_eq_ok`, `Generation.run_of_draft_eq_error`: the client of a run by the
  end of its draft.
-/

namespace TypedClient.Generation

variable {doc : Document} {settings : Settings}

/-- The library of a document. -/
def libraryOf (doc : Document) : Library := ⟨doc.schemas⟩

/-- The operations that a run makes the client for. -/
def operationsOf (doc : Document) : List AnalyzedOperation :=
  (Analysis.ofDocument (libraryOf doc) doc).1

/-- The plan by which a run makes the client. -/
def planOf (doc : Document) (settings : Settings) : Client.Plan :=
  Client.planOf (libraryOf doc) settings (usesViews doc settings)

/-- The assembly of the client in a run. -/
def assembly (doc : Document) (settings : Settings) :
    Except Client.NameClash (List Declaration × List Diagnostic) :=
  Client.declarations (libraryOf doc) settings (usesViews doc settings) (operationsOf doc)

theorem run_library : (run doc settings).library =
    ⟨libraryName, settings.definitionsFile,
      (TypeLibrary.declarations (libraryOf doc) (usesViews doc settings)).1⟩ := rfl

theorem run_modifiers : (run doc settings).modifiers = usesViews doc settings := rfl

theorem run_client : (run doc settings).client =
    match assembly doc settings with
    | .ok (declared, _) => .ok ⟨clientName, settings.clientFile, declared⟩
    | .error clash => .error clash := rfl

/-- Where the draft is finished, the client is what it declares. -/
theorem run_of_draft_eq_ok {final : Client.Draft}
    (h : Client.draft (planOf doc settings) (operationsOf doc) = .ok final) :
    (run doc settings).client = .ok ⟨clientName, settings.clientFile,
      final.declarations (Client.namespaceOf settings)⟩ := by
  rw [run_client, assembly, Client.declarations_eq_ok h]

/-- Where the draft ends with a clash, there is no client. -/
theorem run_of_draft_eq_error {clash : Client.NameClash}
    (h : Client.draft (planOf doc settings) (operationsOf doc) = .error clash) :
    (run doc settings).client = .error clash := by
  rw [run_client, assembly, Client.declarations_eq_error h]

/-- The client of a run declares what the finished draft declares. -/
theorem exists_draft_of_run {client : Artifact} (h : (run doc settings).client = .ok client) :
    ∃ final, Client.draft (planOf doc settings) (operationsOf doc) = .ok final ∧
      client.declarations = final.declarations (Client.namespaceOf settings) := by
  rcases Outcome.ok_or_error (Client.draft (planOf doc settings) (operationsOf doc)) with
    ⟨final, hdraft⟩ | ⟨clash, hdraft⟩
  · rw [run_of_draft_eq_ok hdraft] at h
    exact ⟨final, hdraft, by rw [← Except.ok.inj h]⟩
  · rw [run_of_draft_eq_error hdraft] at h
    cases h

end TypedClient.Generation
