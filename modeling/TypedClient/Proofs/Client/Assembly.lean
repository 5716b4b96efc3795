import TypedClient.Proofs.Client.Invariant

/-!
# Assembly of a client

What the declarations of a client hold.  Assembly fails exactly if two operations want one name, and
otherwise gives one method for each operation and one accessor for each tag, whose members stand for
the operations with that tag and lead to methods that are declared.

* `Declaration.callable?`, `Declaration.tagGroup?`: the methods and the accessors of a file.
* `Assembled`: the declarations are those of a list of operations.
* `declarations_exact`: when assembly fails, and what it gives otherwise.
-/

namespace TypedClient

/-- The method of a declaration that declares one. -/
def Declaration.callable? : Declaration → Option Callable
  | .callable c => some c
  | _ => none

/-- The accessor of a declaration that declares one: its name, and the methods by the names under
which it exposes them. -/
def Declaration.tagGroup? : Declaration → Option (String × Named String)
  | .tagGroup name members => some (name, members)
  | _ => none

theorem Declaration.mem_filterMap_callable?_iff {declared : List Declaration} {c : Callable} :
    c ∈ declared.filterMap Declaration.callable? ↔ .callable c ∈ declared := by
  rw [List.mem_filterMap]
  constructor
  · rintro ⟨declaration, hmem, hcallable⟩
    cases declaration with
    | callable d => exact Option.some_inj.mp hcallable ▸ hmem
    | _ => cases hcallable
  · exact fun h => ⟨_, h, rfl⟩

namespace Client

open Declaration (callable? tagGroup?)

variable {plan : Plan} {operations : List AnalyzedOperation}

/-! ## The declarations of a draft -/

/-- The imports and exports of a client declare neither methods nor accessors. -/
theorem filterMap_imports {β : Type} {f : Declaration → Option β}
    (himport : ∀ file names space, f (.importTypes file names space) = none)
    (hexport : ∀ names file, f (.exportTypes names file) = none) (space : Option String)
    (references views : NameSet) : (imports space references views).filterMap f = [] := by
  rw [List.filterMap_eq_nil_iff]
  intro d hd
  rcases List.mem_append.mp hd with hd | hd
  · split at hd
    · exact absurd hd List.not_mem_nil
    · cases space <;> rw [List.mem_singleton] at hd <;> rw [hd] <;> exact himport _ _ _
  · split at hd
    · exact absurd hd List.not_mem_nil
    · rw [List.mem_singleton] at hd
      rw [hd]
      exact hexport _ _

theorem filterMap_pickHelper {β : Type} {f : Declaration → Option β} (hpick : f .pickHelper = none)
    (b : Bool) : (if b then [Declaration.pickHelper] else []).filterMap f = [] := by
  cases b with
  | false => rfl
  | true => exact List.filterMap_cons_none hpick

/-- What a client may declare. -/
theorem mem_declarations {space : Option String} {draft : Draft} {d : Declaration}
    (h : d ∈ draft.declarations space) :
    (∃ names s, d = .importTypes definitionsModule names s) ∨
    d = .exportTypes draft.references (some definitionsModule) ∨
    (∃ c ∈ draft.callables, d = .callable c) ∨
    (∃ name members, d = .tagGroup name members) ∨
    d = .pickHelper := by
  rcases List.mem_append.mp h with h | h
  · rcases List.mem_append.mp h with h | h
    · rcases List.mem_append.mp h with h | h
      · rcases List.mem_append.mp h with h | h
        · split at h
          · exact absurd h List.not_mem_nil
          · cases space <;> exact Or.inl ⟨_, _, List.mem_singleton.mp h⟩
        · split at h
          · exact absurd h List.not_mem_nil
          · exact Or.inr (Or.inl (List.mem_singleton.mp h))
      · obtain ⟨c, hc, rfl⟩ := List.mem_map.mp h
        exact Or.inr (Or.inr (Or.inl ⟨c, hc, rfl⟩))
    · obtain ⟨group, -, rfl⟩ := List.mem_map.mp h
      exact Or.inr (Or.inr (Or.inr (Or.inl ⟨_, _, rfl⟩)))
  · split at h
    · exact Or.inr (Or.inr (Or.inr (Or.inr (List.mem_singleton.mp h))))
    · exact absurd h List.not_mem_nil

/-- The methods of a client are those of its draft. -/
theorem filterMap_callable?_declarations (space : Option String) (draft : Draft) :
    (draft.declarations space).filterMap callable? = draft.callables := by
  have hcallables : (draft.callables.map Declaration.callable).filterMap callable? =
      draft.callables := by
    rw [List.filterMap_map]
    exact List.filterMap_some
  have hgroups : (draft.groups.map fun group => Declaration.tagGroup group.1
      (group.2.map fun member => (member.1, member.2.methodName))).filterMap callable? = [] := by
    rw [List.filterMap_map, List.filterMap_eq_nil_iff]
    exact fun _ _ => rfl
  rw [Draft.declarations, List.filterMap_append, List.filterMap_append, List.filterMap_append,
    filterMap_imports (fun _ _ _ => rfl) (fun _ _ => rfl), hcallables, hgroups,
    filterMap_pickHelper rfl, List.nil_append, List.append_nil, List.append_nil]

/-- The accessors of a client are the groups of its draft. -/
theorem filterMap_tagGroup?_declarations (space : Option String) (draft : Draft) :
    (draft.declarations space).filterMap tagGroup? = draft.groups.map fun group =>
      (group.1, group.2.map fun member => (member.1, member.2.methodName)) := by
  have hcallables : (draft.callables.map Declaration.callable).filterMap tagGroup? = [] := by
    rw [List.filterMap_map, List.filterMap_eq_nil_iff]
    exact fun _ _ => rfl
  have hgroups : (draft.groups.map fun group => Declaration.tagGroup group.1
      (group.2.map fun member => (member.1, member.2.methodName))).filterMap tagGroup? =
      draft.groups.map fun group =>
        (group.1, group.2.map fun member => (member.1, member.2.methodName)) := by
    rw [List.filterMap_map]
    exact congrFun List.filterMap_eq_map draft.groups
  rw [Draft.declarations, List.filterMap_append, List.filterMap_append, List.filterMap_append,
    filterMap_imports (fun _ _ _ => rfl) (fun _ _ => rfl), hcallables, hgroups,
    filterMap_pickHelper rfl, List.nil_append, List.nil_append, List.append_nil]

/-- A client has the helper exactly if one of its methods picks parameters. -/
theorem pickHelper_mem_declarations {space : Option String} {draft : Draft} :
    Declaration.pickHelper ∈ draft.declarations space ↔
      ∃ c ∈ draft.callables, picks c = true := by
  have himports : Declaration.pickHelper ∉ imports space draft.references draft.views := by
    rw [imports.eq_def]
    cases space <;> split <;> split <;> simp
  rw [Draft.declarations, List.mem_append, List.mem_append, List.mem_append]
  cases hany : draft.callables.any picks <;> simp_all

/-! ## What assembly gives -/

/-- The declarations are those of a client for a list of operations. -/
structure Assembled (plan : Plan) (operations : List AnalyzedOperation)
    (declared : List Declaration) : Prop where
  /-- There is one method for each path and method, in the order in which they were first seen. -/
  routes : (declared.filterMap callable?).map Callable.route =
    (operations.map AnalyzedOperation.route).eraseDups
  /-- Every method is that of an operation. -/
  made : ∀ c ∈ declared.filterMap callable?, ∃ op ∈ operations, c = plan.made op
  /-- No two methods have one name. -/
  nodup_names : ((declared.filterMap callable?).map Callable.name).Nodup
  /-- There is one accessor for each tag, in the order in which they were first seen. -/
  tags : (declared.filterMap tagGroup?).map Prod.fst =
    (operations.map AnalyzedOperation.tag).eraseDups
  /-- No accessor exposes two members under one name. -/
  nodup_exposed : ∀ group ∈ declared.filterMap tagGroup?, (group.2.map Prod.fst).Nodup
  /-- No accessor exposes one method under two names. -/
  nodup_targets : ∀ group ∈ declared.filterMap tagGroup?, (group.2.map Prod.snd).Nodup
  /-- The members of an accessor stand for the operations with its tag. -/
  members : ∀ group ∈ declared.filterMap tagGroup?, ∀ exposed name,
    (exposed, name) ∈ group.2 ↔ ∃ op ∈ operations, op.tag = group.1 ∧
      exposedName plan.removesTag op = exposed ∧ op.methodName = name
  /-- Every member of an accessor leads to a method that is declared. -/
  targets : ∀ group ∈ declared.filterMap tagGroup?, ∀ name ∈ group.2.map Prod.snd,
    name ∈ (declared.filterMap callable?).map Callable.name

namespace Draft.Holds

variable {final : Draft}

theorem nodup_tags (h : Holds plan operations final) : final.groups.names.Nodup := by
  rw [h.tags]
  exact nodup_eraseDups _

/-- A group of the draft is what is exposed under its tag. -/
theorem group_eq (h : Holds plan operations final) {tag : String} {members : Named Target}
    (hmem : (tag, members) ∈ final.groups) : final.group tag = members := by
  rw [group, (Named.get?_eq_some_iff h.nodup_tags).mpr hmem, Option.getD_some]

/-- The members under a tag stand for the operations with that tag. -/
theorem mem_group_iff (h : Holds plan operations final) {tag exposed name : String} :
    (exposed, name) ∈ (final.group tag).map (fun member => (member.1, member.2.methodName)) ↔
      ∃ op ∈ operations, op.tag = tag ∧ plan.exposed op = exposed ∧ op.methodName = name := by
  rw [List.mem_map]
  constructor
  · rintro ⟨⟨exposed', target⟩, hmem, heq⟩
    obtain ⟨rfl, rfl⟩ := Prod.mk.inj heq
    exact h.members tag _ target ((Named.get?_eq_some_iff (h.nodup_members tag)).mpr hmem)
  · rintro ⟨op, hop, rfl, rfl, rfl⟩
    obtain ⟨target, hget, hname⟩ := h.exposes op hop
    exact ⟨(plan.exposed op, target), Named.mem_of_get? hget, by rw [hname]⟩

end Draft.Holds

/-- The finished draft declares the client for its operations. -/
theorem Draft.Holds.assembled {final : Draft} (h : Holds plan operations final)
    (hconsistent : Consistent operations) (space : Option String) :
    Assembled plan operations (final.declarations space) := by
  -- every accessor is the group under its own tag
  have hgroup : ∀ group ∈ (final.declarations space).filterMap tagGroup?,
      group.2 = (final.group group.1).map fun member => (member.1, member.2.methodName) := by
    intro group hmem
    rw [filterMap_tagGroup?_declarations] at hmem
    obtain ⟨⟨tag, members⟩, hentry, rfl⟩ := List.mem_map.mp hmem
    rw [h.group_eq hentry]
  have hexposed : ∀ group ∈ (final.declarations space).filterMap tagGroup?,
      (group.2.map Prod.fst).Nodup := by
    intro group hmem
    rw [hgroup group hmem, List.map_map]
    exact h.nodup_members group.1
  refine ⟨?_, ?_, ?_, ?_, hexposed, ?_, ?_, ?_⟩
  · rw [filterMap_callable?_declarations, h.callables, List.map_map]
    exact map_firstBy AnalyzedOperation.route operations
  · intro c hc
    rw [filterMap_callable?_declarations, h.callables] at hc
    obtain ⟨op, hop, rfl⟩ := List.mem_map.mp hc
    exact ⟨op, mem_of_mem_firstBy hop, rfl⟩
  · rw [filterMap_callable?_declarations]
    exact h.nodup_names
  · rw [filterMap_tagGroup?_declarations, List.map_map]
    exact h.tags
  · intro group hmem
    -- two members that lead to one method stand for operations with one tag and one method name,
    -- and so are exposed under one name
    refine List.Nodup.map_on ?_ (hexposed group hmem).of_map
    rw [hgroup group hmem]
    rintro ⟨exposed, name⟩ hm ⟨exposed', name'⟩ hm' heq
    obtain ⟨a, -, hatag, rfl, rfl⟩ := h.mem_group_iff.mp hm
    obtain ⟨b, -, hbtag, rfl, rfl⟩ := h.mem_group_iff.mp hm'
    exact Prod.ext (exposed_congr (hatag.trans hbtag.symm) heq) heq
  · intro group hmem exposed name
    rw [hgroup group hmem]
    exact h.mem_group_iff
  · intro group hmem name hname
    rw [hgroup group hmem] at hname
    obtain ⟨⟨exposed, target⟩, hm, rfl⟩ := List.mem_map.mp hname
    obtain ⟨op, hop, -, -, rfl⟩ := h.mem_group_iff.mp hm
    obtain ⟨c, hc, -, hcname⟩ := h.exists_callable hconsistent hop
    rw [filterMap_callable?_declarations]
    exact List.mem_map.mpr ⟨c, hc, hcname⟩

/-! ## Assembly of the operations of a document -/

/-- The operations that analysis gives are told apart by their paths and methods, if those of the
document are. -/
theorem consistent_ofDocument {lib : Library} {doc : Document}
    (hdoc : (doc.operations.map Operation.route).Nodup) :
    Consistent (Analysis.ofDocument lib doc).1 :=
  fun _ ha _ hb hroute => Analysis.methodName_eq_of_route_eq hdoc ha hb hroute

/-- Assembly ends with the declarations of the draft, or with the clash that ended the draft. -/
theorem declarations_eq_ok {lib : Library} {settings : Settings} {modifiers : Bool} {final : Draft}
    (h : draft (planOf lib settings modifiers) operations = .ok final) :
    declarations lib settings modifiers operations =
      .ok (final.declarations (namespaceOf settings), final.notes) := by
  rw [declarations, h]
  rfl

theorem declarations_eq_error {lib : Library} {settings : Settings} {modifiers : Bool}
    {clash : NameClash} (h : draft (planOf lib settings modifiers) operations = .error clash) :
    declarations lib settings modifiers operations = .error clash := by
  rw [declarations, h]
  rfl

/-- Assembly of a document's operations fails exactly if two of them clash, and otherwise gives the
declarations of a client for them. -/
theorem declarations_exact (lib : Library) (doc : Document) (settings : Settings)
    (modifiers : Bool) (hdoc : (doc.operations.map Operation.route).Nodup) :
    ((∃ clash, declarations lib settings modifiers (Analysis.ofDocument lib doc).1 =
        .error clash) ↔
      ∃ a ∈ (Analysis.ofDocument lib doc).1, ∃ b ∈ (Analysis.ofDocument lib doc).1,
        Clash settings.removesTag a b) ∧
    ((¬ ∃ a ∈ (Analysis.ofDocument lib doc).1, ∃ b ∈ (Analysis.ofDocument lib doc).1,
        Clash settings.removesTag a b) →
      ∃ declared notes,
        declarations lib settings modifiers (Analysis.ofDocument lib doc).1 =
          .ok (declared, notes) ∧
        Assembled (planOf lib settings modifiers) (Analysis.ofDocument lib doc).1 declared) := by
  have hconsistent : Consistent (Analysis.ofDocument lib doc).1 := consistent_ofDocument hdoc
  rcases Outcome.ok_or_error (draft (planOf lib settings modifiers)
    (Analysis.ofDocument lib doc).1) with ⟨final, hdraft⟩ | ⟨clash, hdraft⟩
  · have hholds := draft_holds hdraft
    have hdeclared := declarations_eq_ok hdraft
    constructor
    · constructor
      · rintro ⟨clash, herror⟩
        rw [hdeclared] at herror
        cases herror
      · rintro ⟨a, ha, b, hb, hclash⟩
        exact absurd hclash (hholds.not_clash hconsistent ha hb)
    · intro _
      exact ⟨_, _, hdeclared, hholds.assembled hconsistent _⟩
  · have hclash := exists_clash_of_draft_eq_error hdraft
    have hdeclared := declarations_eq_error hdraft
    constructor
    · exact ⟨fun _ => hclash, fun _ => ⟨clash, hdeclared⟩⟩
    · exact fun hnone => absurd hclash hnone

/-- A shop with two operations, one of them under two tags. -/
def shop : Document where
  openapiVersion := "3.0.0"
  info := {}
  schemas :=
    [("Order", .object [("id", ⟨.primitive .string none [] false, true, true, false⟩),
        ("item", ⟨.reference "Item" false, true, false, false⟩)] .unsaid false),
      ("Item", .object [] .unsaid false)]
  operations :=
    [{ path := "/orders/\x7bid\x7d"
       method := .get
       operationId := some "getOrder"
       summary := none
       description := none
       tags := ["order", "shop"]
       parameters := []
       requestBody := none
       responses := [⟨"200", none, [⟨"application/json", some (.reference "Order" false)⟩]⟩]
       isDeprecated := false },
     { path := "/orders"
       method := .post
       operationId := some "add-order"
       summary := none
       description := none
       tags := ["order"]
       parameters := []
       requestBody := none
       responses := [⟨"201", none, []⟩]
       isDeprecated := false }]
  notes := []

/-- With tags removed the operations of the shop do not clash, so that it has a client. -/
theorem declarations_exact_shop :
    (shop.operations.map Operation.route).Nodup ∧
      ∃ declared notes,
        declarations ⟨shop.schemas⟩ { removesTag := true } true
          (Analysis.ofDocument ⟨shop.schemas⟩ shop).1 = .ok (declared, notes) ∧
        Assembled (planOf ⟨shop.schemas⟩ { removesTag := true } true)
          (Analysis.ofDocument ⟨shop.schemas⟩ shop).1 declared :=
  ⟨by decide, (declarations_exact ⟨shop.schemas⟩ shop { removesTag := true } true
    (by decide)).2 (by decide +kernel)⟩

end Client

end TypedClient
