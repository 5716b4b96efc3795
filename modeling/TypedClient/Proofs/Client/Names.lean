import TypedClient.Proofs.Client.Assembly
import TypedClient.Proofs.Identifier.Safety

/-!
# The names of a client

Whatever the identifiers and the tags of operations are, the names that a client declares are safe
identifiers.  A method name and the name of a tag are made safe at the end of their making.  A name
under which a method is exposed is the method's own name, or is made safe once more, since what is
left of a name without its tag need not be safe.

* `isSafe_exposedName`: the names under which methods are exposed.
* `HasSafeNames`: all names that a client declares are safe.
* `hasSafeNames_declarations`: they are in every client.
-/

namespace TypedClient.Client

open Identifier (IsSafe sanitize)

variable {lib : Library} {plan : Plan} {op : AnalyzedOperation}
  {operations : List AnalyzedOperation}

/-- The method names and the tags of operations that analysis gives are safe. -/
theorem isSafe_of_mem_ofDocument {doc : Document} (h : op ∈ (Analysis.ofDocument lib doc).1) :
    IsSafe op.methodName ∧ IsSafe op.tag := by
  obtain ⟨_, -, _, _, -, tag, -, rfl⟩ := Analysis.mem_ofDocument_iff.mp h
  rw [Analysis.analyze_methodName_eq, Analysis.analyze_tag]
  exact ⟨Identifier.isSafe_sanitize _, Identifier.isSafe_sanitize _⟩

/-- A method is exposed under a safe name, whether tags are removed or not. -/
theorem isSafe_exposedName (removesTag : Bool) (h : IsSafe op.methodName) :
    IsSafe (exposedName removesTag op) := by
  unfold exposedName
  dsimp only
  split
  · split
    · exact h
    · exact Identifier.isSafe_sanitize _
  · exact h

/-- All names that are declared in a client are safe: those of its methods and of its accessors, and
in each accessor the names of the members and the methods they lead to. -/
structure HasSafeNames (declared : List Declaration) : Prop where
  methods : ∀ c, .callable c ∈ declared → IsSafe c.name
  accessors : ∀ name members, .tagGroup name members ∈ declared → IsSafe name
  exposed : ∀ name members, .tagGroup name members ∈ declared → ∀ m ∈ members, IsSafe m.1
  targets : ∀ name members, .tagGroup name members ∈ declared → ∀ m ∈ members, IsSafe m.2

/-- An accessor of a finished draft stands for operations with its tag. -/
theorem Draft.Holds.of_mem_tagGroup {final : Draft} (h : Holds plan operations final)
    {space : Option String} {name : String} {members : Named String}
    (hgroup : .tagGroup name members ∈ final.declarations space) :
    (∃ op ∈ operations, op.tag = name) ∧
      ∀ m ∈ members, ∃ op ∈ operations, plan.exposed op = m.1 ∧ op.methodName = m.2 := by
  have hmem : (name, members) ∈ (final.declarations space).filterMap Declaration.tagGroup? :=
    List.mem_filterMap.mpr ⟨_, hgroup, rfl⟩
  rw [filterMap_tagGroup?_declarations] at hmem
  obtain ⟨⟨tag, group⟩, hentry, heq⟩ := List.mem_map.mp hmem
  obtain ⟨rfl, rfl⟩ := Prod.mk.inj heq
  constructor
  · have htag : tag ∈ final.groups.names := List.mem_map_of_mem hentry
    rw [h.tags, List.mem_eraseDups] at htag
    exact List.mem_map.mp htag
  · rintro ⟨exposed, target⟩ hm
    have hmember := hm
    rw [← h.group_eq hentry] at hmember
    obtain ⟨op, hop, -, hexposed, htarget⟩ := h.mem_group_iff.mp hmember
    exact ⟨op, hop, hexposed, htarget⟩

/-- A finished draft declares safe names, if its operations have them. -/
theorem Draft.Holds.hasSafeNames {final : Draft} (h : Holds plan operations final)
    (hsafe : ∀ op ∈ operations, IsSafe op.methodName ∧ IsSafe op.tag) (space : Option String) :
    HasSafeNames (final.declarations space) where
  methods c hc := by
    rw [← Declaration.mem_filterMap_callable?_iff, filterMap_callable?_declarations, h.callables,
      List.mem_map] at hc
    obtain ⟨op, hop, rfl⟩ := hc
    exact (hsafe op (mem_of_mem_firstBy hop)).1
  accessors name members hgroup := by
    obtain ⟨op, hop, rfl⟩ := (h.of_mem_tagGroup hgroup).1
    exact (hsafe op hop).2
  exposed name members hgroup m hm := by
    obtain ⟨op, hop, hexposed, -⟩ := (h.of_mem_tagGroup hgroup).2 m hm
    rw [← hexposed]
    exact isSafe_exposedName _ (hsafe op hop).1
  targets name members hgroup m hm := by
    obtain ⟨op, hop, -, htarget⟩ := (h.of_mem_tagGroup hgroup).2 m hm
    rw [← htarget]
    exact (hsafe op hop).1

/-- Making a text safe gives a safe identifier and changes no text that is one.  Every name in a
client for the operations of a document is therefore safe. -/
theorem hasSafeNames_declarations (lib : Library) (doc : Document) (settings : Settings)
    (modifiers : Bool) :
    (∀ s, IsSafe (sanitize s)) ∧ (∀ s, sanitize (sanitize s) = sanitize s) ∧
      (∀ s, sanitize s = s ↔ IsSafe s) ∧
      ∀ declared notes,
        declarations lib settings modifiers (Analysis.ofDocument lib doc).1 = .ok (declared, notes) →
          HasSafeNames declared := by
  refine ⟨Identifier.isSafe_sanitize, Identifier.sanitize_sanitize,
    fun _ => Identifier.sanitize_eq_self_iff, fun declared notes h => ?_⟩
  rcases Outcome.ok_or_error (draft (planOf lib settings modifiers)
    (Analysis.ofDocument lib doc).1) with ⟨final, hdraft⟩ | ⟨clash, hdraft⟩
  · rw [declarations_eq_ok hdraft] at h
    obtain ⟨rfl, -⟩ := Prod.mk.inj (Except.ok.inj h)
    exact (draft_holds hdraft).hasSafeNames (fun _ => isSafe_of_mem_ofDocument) _
  · rw [declarations_eq_error hdraft] at h
    cases h

/-- An operation that answers nothing. -/
def visit (method : Method) (path : String) (id : Option String) (tags : List String) :
    Operation where
  path := path
  method := method
  operationId := id
  summary := none
  description := none
  tags := tags
  parameters := []
  requestBody := none
  responses := [⟨"204", none, []⟩]
  isDeprecated := false

/-- A clinic whose identifiers and tags are reserved words, or digits and reserved words once tags
are removed, or hold no letter at all. -/
def clinic : Document where
  openapiVersion := "3.0.0"
  info := {}
  schemas := []
  operations :=
    [visit .get "/codes" (some "pet2fa") ["pet"], visit .get "/classes" (some "pet_class") ["pet"],
      visit .delete "/visits" (some "delete") ["--", "delete_"], visit .get "/ünï" none []]
  notes := []

/-- The clinic has a client, and the names in it are safe. -/
theorem hasSafeNames_clinic : ∃ declared notes,
    declarations ⟨[]⟩ { removesTag := true } false (Analysis.ofDocument ⟨[]⟩ clinic).1 =
        .ok (declared, notes) ∧
      declared.filterMap Declaration.tagGroup? =
        [("Pet", [("_2fa", "pet2fa"), ("class_", "pet_class")]), ("_", [("delete_", "delete_")]),
          ("Delete_", [("delete_", "delete_")]), ("Default", [("n_get", "n_get")])] ∧
      HasSafeNames declared := by
  have hmade : (declarations ⟨[]⟩ { removesTag := true } false
      (Analysis.ofDocument ⟨[]⟩ clinic).1).toOption.map
        (fun made => made.1.filterMap Declaration.tagGroup?) =
      some [("Pet", [("_2fa", "pet2fa"), ("class_", "pet_class")]), ("_", [("delete_", "delete_")]),
        ("Delete_", [("delete_", "delete_")]), ("Default", [("n_get", "n_get")])] := by
    decide +kernel
  rcases hdeclared : declarations ⟨[]⟩ { removesTag := true } false
    (Analysis.ofDocument ⟨[]⟩ clinic).1 with clash | ⟨declared, notes⟩
  · rw [hdeclared] at hmade
    cases hmade
  · rw [hdeclared] at hmade
    exact ⟨declared, notes, rfl, Option.some_inj.mp hmade,
      (hasSafeNames_declarations ⟨[]⟩ clinic { removesTag := true } false).2.2.2 _ _ hdeclared⟩

end TypedClient.Client
