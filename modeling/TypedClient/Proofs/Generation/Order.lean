import Mathlib.Data.List.Perm.Basic
import Mathlib.Data.List.Sort
import TypedClient.Proofs.Generation.Capture

/-!
# The order of a document

Assembly takes the operations one after the other, and remembers for every path and method, and for
every exposed name, the operation that was there first.  Which one that is depends on the order of
the document and of the tags of each operation.  What is remembered of it does not: the method for
an operation does not read the tag that the operation is seen under, and operations that share an
exposed name without a clash share their method name.

So everything is said in terms of membership.  Whether two operations clash, which methods there
are, what they refer to and what is exposed under a tag are all told by which operations there are,
and that is the same in every order.

* `Operation.Retagged`, `Document.Reordered`: another order of tags, and of operations.
* `Analysis.mem_ofDocument_reordered`: analysis gives the same operations in every order.
* `Client.Determined`: the path and the method of an operation tell what is made of it.
* `Client.draft_fails_iff`, `Draft.Holds.sameUpToOrder`: the verdict, and the two finished drafts.
* `Generation.run_reordered`: the client of a document in another order.
-/

namespace TypedClient

/-! ## Another order -/

/-- The same operation, with its tags in another order. -/
def Operation.Retagged (op other : Operation) : Prop :=
  ∃ tags, op.tags.Perm tags ∧ other = { op with tags := tags }

theorem Operation.Retagged.symm {op other : Operation} (h : op.Retagged other) :
    other.Retagged op := by
  obtain ⟨tags, htags, rfl⟩ := h
  exact ⟨op.tags, htags.symm, rfl⟩

/-- The same schemas and operations, with the operations and the tags of each in another order. -/
structure Document.Reordered (doc other : Document) : Prop where
  schemas : other.schemas = doc.schemas
  operations : ∃ middle, List.Forall₂ Operation.Retagged doc.operations middle ∧
    middle.Perm other.operations

namespace Document.Reordered

variable {doc other : Document}

theorem symm (h : doc.Reordered other) : other.Reordered doc := by
  obtain ⟨middle, hretagged, hperm⟩ := h.operations
  have hback : List.Forall₂ Operation.Retagged middle doc.operations :=
    (hretagged.imp fun _ _ hop => hop.symm).flip
  obtain ⟨between, hbetween, hdoc⟩ := List.perm_comp_forall₂ hperm.symm hback
  exact ⟨h.schemas.symm, between, hbetween, hdoc⟩

/-- Every operation is still there, perhaps with its tags in another order. -/
theorem exists_retagged (h : doc.Reordered other) {op : Operation} (hop : op ∈ doc.operations) :
    ∃ twin ∈ other.operations, op.Retagged twin := by
  obtain ⟨middle, hretagged, hperm⟩ := h.operations
  obtain ⟨i, hi, rfl⟩ := List.getElem_of_mem hop
  have hlength := hretagged.length_eq
  exact ⟨middle[i], hperm.mem_iff.mp (List.getElem_mem _), hretagged.get hi (hlength ▸ hi)⟩

/-- The paths and methods are the same, each as often as before. -/
theorem routes_perm (h : doc.Reordered other) :
    (doc.operations.map Operation.route).Perm (other.operations.map Operation.route) := by
  obtain ⟨middle, hretagged, hperm⟩ := h.operations
  have hsame : doc.operations.map Operation.route = middle.map Operation.route := by
    refine List.forall₂_eq_eq_eq ▸ ?_
    rw [List.forall₂_map_left_iff, List.forall₂_map_right_iff]
    refine hretagged.imp fun op twin htwin => ?_
    obtain ⟨tags, -, rfl⟩ := htwin
    rfl
  rw [hsame]
  exact hperm.map _

/-- Whether properties have directions is not a matter of order. -/
theorem usesModifiers_eq (h : doc.Reordered other) : other.usesModifiers = doc.usesModifiers := by
  have hmono : ∀ {a b : Document}, a.Reordered b → a.usesModifiers = true →
      b.usesModifiers = true := by
    intro a b hab ha
    rw [usesModifiers, Bool.or_eq_true, List.any_eq_true, List.any_eq_true] at ha ⊢
    rcases ha with hschema | ⟨op, hop, huses⟩
    · exact Or.inl (hab.schemas ▸ hschema)
    · obtain ⟨twin, htwin, tags, -, rfl⟩ := hab.exists_retagged hop
      exact Or.inr ⟨_, htwin, huses⟩
  exact Bool.eq_iff_iff.mpr ⟨hmono h.symm, hmono h⟩

end Document.Reordered

namespace Analysis

variable {lib : Library} {doc other : Document}

/-- An operation is seen under the same tags, in whatever order it carries them. -/
theorem mem_tagsOf_retagged {op twin : Operation} (h : op.Retagged twin) {tag : String}
    (htag : tag ∈ tagsOf op) : tag ∈ tagsOf twin := by
  obtain ⟨tags, hperm, rfl⟩ := h
  have hempty : tags.isEmpty = op.tags.isEmpty := by
    rw [Bool.eq_iff_iff, List.isEmpty_iff_length_eq_zero, List.isEmpty_iff_length_eq_zero,
      hperm.length_eq]
  rw [tagsOf] at htag ⊢
  dsimp only
  rw [hempty]
  split
  · rename_i hnone
    rw [if_pos hnone] at htag
    exact htag
  · rename_i hsome
    rw [if_neg hsome] at htag
    exact hperm.mem_iff.mp htag

/-- Under another tag an operation differs in nothing but its tag. -/
theorem analyze_retag (op : Operation) (response : Response) (tag other : String) :
    (analyze lib op response other).1 =
      { (analyze lib op response tag).1 with tag := Naming.tagName other, rawTag := other } := by
  rw [analyze, analyze]

/-- Analysis gives no operation in one order that it does not give in another. -/
theorem mem_ofDocument_of_reordered (h : doc.Reordered other) {seen : AnalyzedOperation}
    (hseen : seen ∈ (ofDocument lib doc).1) : seen ∈ (ofDocument lib other).1 := by
  obtain ⟨op, hop, response, rest, hresponses, tag, htag, rfl⟩ := mem_ofDocument_iff.mp hseen
  obtain ⟨twin, htwin, hretagged⟩ := h.exists_retagged hop
  have htag' : tag ∈ tagsOf twin := mem_tagsOf_retagged hretagged htag
  obtain ⟨tags, -, rfl⟩ := hretagged
  exact mem_ofDocument_iff.mpr ⟨_, htwin, response, rest, hresponses, tag, htag', rfl⟩

/-- Analysis gives the same operations in every order. -/
theorem mem_ofDocument_reordered (h : doc.Reordered other) {seen : AnalyzedOperation} :
    seen ∈ (ofDocument lib doc).1 ↔ seen ∈ (ofDocument lib other).1 :=
  ⟨mem_ofDocument_of_reordered h, mem_ofDocument_of_reordered h.symm⟩

end Analysis

/-! ## What the order does not change -/

/-- The names and the file of a declaration that is an export. -/
def Declaration.export? : Declaration → Option (List String × Option String)
  | .exportTypes names file => some (names, file)
  | _ => none

/-- Two clients hold the same, up to the order of their methods, of their accessors and of the
members of each accessor. -/
structure SameUpToOrder (declared other : List Declaration) : Prop where
  callables : (declared.filterMap Declaration.callable?).Perm
    (other.filterMap Declaration.callable?)
  imports : declared.filterMap Declaration.import? = other.filterMap Declaration.import?
  exports : declared.filterMap Declaration.export? = other.filterMap Declaration.export?
  tags : ((declared.filterMap Declaration.tagGroup?).map Prod.fst).Perm
    ((other.filterMap Declaration.tagGroup?).map Prod.fst)
  /-- The accessors of one tag expose the same methods under the same names. -/
  members : ∀ tag members twins, (tag, members) ∈ declared.filterMap Declaration.tagGroup? →
    (tag, twins) ∈ other.filterMap Declaration.tagGroup? →
      members.Perm twins ∧ ∀ exposed, Named.get? exposed members = Named.get? exposed twins
  picks : Declaration.pickHelper ∈ declared ↔ Declaration.pickHelper ∈ other

namespace NameSet

/-- Sets with the same names are the same. -/
theorem Ascends.eq_of_mem_iff {s t : NameSet} (hs : s.Ascends) (ht : t.Ascends)
    (h : ∀ n, n ∈ s ↔ n ∈ t) : s = t :=
  List.Pairwise.eq_of_mem_iff hs ht h

end NameSet

namespace Client

open AnalyzedOperation (route)
open Declaration (callable? tagGroup? import? export?)

variable {plan : Plan} {operations others : List AnalyzedOperation} {final twin : Draft}

/-- The path and the method of an operation tell its method, and what it refers to. -/
def Determined (plan : Plan) (operations : List AnalyzedOperation) : Prop :=
  ∀ a ∈ operations, ∀ b ∈ operations, a.route = b.route →
    plan.made a = plan.made b ∧ a.references = b.references

theorem Determined.consistent (h : Determined plan operations) : Consistent operations :=
  fun a ha b hb hroute => congrArg Callable.name (h a ha b hb hroute).1

/-- The method for an operation does not read the tag that the operation is seen under. -/
theorem made_of_tag (op : AnalyzedOperation) (tag rawTag : String) :
    plan.made { op with tag := tag, rawTag := rawTag } = plan.made op := rfl

/-- The operations of a document are determined, if no two share a path and a method. -/
theorem determined_ofDocument {lib : Library} {doc : Document}
    (hdoc : (doc.operations.map Operation.route).Nodup) (plan : Plan) :
    Determined plan (Analysis.ofDocument lib doc).1 := by
  intro a ha b hb hroute
  obtain ⟨op, hop, response, rest, hresponses, tag, -, rfl⟩ := Analysis.mem_ofDocument_iff.mp ha
  obtain ⟨op', hop', response', rest', hresponses', tag', -, rfl⟩ :=
    Analysis.mem_ofDocument_iff.mp hb
  rw [Analysis.analyze_route, Analysis.analyze_route] at hroute
  obtain rfl := List.inj_on_of_nodup_map hdoc hop hop' hroute
  obtain ⟨rfl, -⟩ := List.cons.inj (hresponses.symm.trans hresponses')
  rw [Analysis.analyze_retag op response tag tag']
  exact ⟨(made_of_tag _ _ _).symm, rfl⟩

/-- Assembly fails exactly if two operations clash. -/
theorem draft_fails_iff (h : Consistent operations) :
    Outcome.Fails (draft plan operations) ↔
      ∃ a ∈ operations, ∃ b ∈ operations, Clash plan.removesTag a b := by
  constructor
  · rintro ⟨clash, hdraft⟩
    exact exists_clash_of_draft_eq_error hdraft
  · rintro ⟨a, ha, b, hb, hclash⟩
    rcases Outcome.ok_or_error (draft plan operations) with ⟨final, hdraft⟩ | hfails
    · exact absurd hclash ((draft_holds hdraft).not_clash h ha hb)
    · exact hfails

/-- What all operations with one path and method share, is so of the first of them exactly if it is
so of one of them. -/
theorem exists_firsts_iff {p : AnalyzedOperation → Prop}
    (h : ∀ a ∈ operations, ∀ b ∈ operations, a.route = b.route → p a → p b) :
    (∃ op ∈ firsts operations, p op) ↔ ∃ op ∈ operations, p op := by
  constructor
  · rintro ⟨op, hop, hp⟩
    exact ⟨op, mem_of_mem_firstBy hop, hp⟩
  · rintro ⟨op, hop, hp⟩
    have hroute : op.route ∈ (firsts operations).map route :=
      mem_map_firstBy_iff.mpr (List.mem_map_of_mem hop)
    obtain ⟨first, hfirst, heq⟩ := List.mem_map.mp hroute
    exact ⟨first, hfirst, h op hop first (mem_of_mem_firstBy hfirst) heq.symm hp⟩

/-! ## What a finished draft holds, whatever the order -/

namespace Draft.Holds

theorem mem_callables_iff (h : Holds plan operations final) (hops : Determined plan operations)
    {c : Callable} : c ∈ final.callables ↔ ∃ op ∈ operations, plan.made op = c := by
  rw [h.callables, List.mem_map, exists_firsts_iff]
  intro a ha b hb hroute hmade
  rw [← (hops a ha b hb hroute).1]
  exact hmade

theorem mem_references_iff (h : Holds plan operations final) (hops : Determined plan operations)
    {n : String} : n ∈ final.references ↔ ∃ op ∈ operations, n ∈ op.references := by
  rw [h.references, exists_firsts_iff]
  intro a ha b hb hroute hn
  rw [← (hops a ha b hb hroute).2]
  exact hn

theorem mem_views_iff (h : Holds plan operations final) (hops : Determined plan operations)
    {n : String} : n ∈ final.views ↔ ∃ op ∈ operations, n ∈ (plan.made op).viewNames := by
  rw [h.views, exists_firsts_iff]
  intro a ha b hb hroute hn
  rw [← (hops a ha b hb hroute).1]
  exact hn

end Draft.Holds

/-! ## Two drafts for the same operations -/

theorem filterMap_export?_declarations (space : Option String) (draft : Draft) :
    (draft.declarations space).filterMap export? =
      if draft.references.isEmpty then [] else [(draft.references, some definitionsModule)] := by
  have hcallables : (draft.callables.map Declaration.callable).filterMap export? = [] := by
    simp [List.filterMap_map, export?]
  have hgroups : (draft.groups.map fun group => Declaration.tagGroup group.1
      (group.2.map fun member => (member.1, member.2.methodName))).filterMap export? = [] := by
    simp [List.filterMap_map, export?]
  have himports : (imports space draft.references draft.views).filterMap export? =
      if draft.references.isEmpty then [] else [(draft.references, some definitionsModule)] := by
    cases space <;> cases hrefs : draft.references <;> cases hviews : draft.views <;>
      simp [imports, export?, List.filterMap_cons]
  rw [Draft.declarations, List.filterMap_append, List.filterMap_append, List.filterMap_append,
    hcallables, hgroups, himports, filterMap_pickHelper rfl, List.append_nil, List.append_nil,
    List.append_nil]

/-- The methods that are exposed under a tag, by their exposed names. -/
def Draft.exposedIn (draft : Draft) (tag : String) : Named String :=
  (draft.group tag).map fun member => (member.1, member.2.methodName)

/-- An accessor exposes what the draft has under its tag. -/
theorem Draft.Holds.members_eq (h : Holds plan operations final) {space : Option String}
    {tag : String} {members : Named String}
    (hmem : (tag, members) ∈ (final.declarations space).filterMap tagGroup?) :
    members = final.exposedIn tag := by
  rw [filterMap_tagGroup?_declarations] at hmem
  obtain ⟨⟨own, group⟩, hgroup, heq⟩ := List.mem_map.mp hmem
  obtain ⟨rfl, rfl⟩ : own = tag ∧ group.map (fun member => (member.1, member.2.methodName)) =
    members := Prod.mk.inj heq
  rw [exposedIn, h.group_eq hgroup]

theorem Draft.Holds.nodup_exposedIn (h : Holds plan operations final) (tag : String) :
    (final.exposedIn tag).names.Nodup := by
  rw [exposedIn, Named.names, List.map_map]
  exact h.nodup_members tag

/-- Two finished drafts for the same operations declare the same, up to order. -/
theorem Draft.Holds.sameUpToOrder (h : Holds plan operations final)
    (htwin : Holds plan others twin) (hordered : final.Ordered) (htwinOrdered : twin.Ordered)
    (hops : Determined plan operations) (hothers : Determined plan others)
    (hsame : ∀ op, op ∈ operations ↔ op ∈ others) (space : Option String) :
    SameUpToOrder (final.declarations space) (twin.declarations space) := by
  have hexists : ∀ p : AnalyzedOperation → Prop,
      (∃ op ∈ operations, p op) ↔ ∃ op ∈ others, p op :=
    fun p => exists_congr fun op => and_congr_left fun _ => hsame op
  have hmem : ∀ c, c ∈ final.callables ↔ c ∈ twin.callables := by
    intro c
    rw [h.mem_callables_iff hops, htwin.mem_callables_iff hothers, hexists]
  have hreferences : final.references = twin.references := by
    refine hordered.references.eq_of_mem_iff htwinOrdered.references fun n => ?_
    rw [h.mem_references_iff hops, htwin.mem_references_iff hothers, hexists]
  have hviews : final.views = twin.views := by
    refine hordered.views.eq_of_mem_iff htwinOrdered.views fun n => ?_
    rw [h.mem_views_iff hops, htwin.mem_views_iff hothers, hexists]
  have hcallables : final.callables.Perm twin.callables :=
    (List.perm_ext_iff_of_nodup h.nodup_names.of_map htwin.nodup_names.of_map).mpr hmem
  refine ⟨?_, ?_, ?_, ?_, ?_, ?_⟩
  · rw [filterMap_callable?_declarations, filterMap_callable?_declarations]
    exact hcallables
  · rw [filterMap_import?_declarations, filterMap_import?_declarations, hreferences, hviews]
  · rw [filterMap_export?_declarations, filterMap_export?_declarations, hreferences]
  · rw [filterMap_tagGroup?_declarations, filterMap_tagGroup?_declarations, List.map_map,
      List.map_map]
    refine (List.perm_ext_iff_of_nodup h.nodup_tags htwin.nodup_tags).mpr fun tag => ?_
    rw [h.tags, htwin.tags, List.mem_eraseDups, List.mem_eraseDups, List.mem_map, List.mem_map]
    exact hexists _
  · intro tag members twins hmembers htwins
    rw [h.members_eq hmembers, htwin.members_eq htwins]
    have hentries : ∀ p, p ∈ final.exposedIn tag ↔ p ∈ twin.exposedIn tag := by
      rintro ⟨exposed, name⟩
      rw [exposedIn, exposedIn, h.mem_group_iff, htwin.mem_group_iff, hexists]
    have hnodup := h.nodup_exposedIn tag
    have hnodup' := htwin.nodup_exposedIn tag
    exact ⟨(List.perm_ext_iff_of_nodup hnodup.of_map hnodup'.of_map).mpr hentries,
      Named.get?_eq_of_mem_iff hnodup hnodup' hentries⟩
  · rw [pickHelper_mem_declarations, pickHelper_mem_declarations]
    exact exists_congr fun c => and_congr_left fun _ => hmem c

end Client

namespace Generation

variable {doc other : Document} {settings : Settings}

theorem run_client_fails_iff : Outcome.Fails (run doc settings).client ↔
    Outcome.Fails (Client.draft (planOf doc settings) (operationsOf doc)) := by
  rcases Outcome.ok_or_error (Client.draft (planOf doc settings) (operationsOf doc)) with
    ⟨final, hdraft⟩ | ⟨clash, hdraft⟩
  · rw [run_of_draft_eq_ok hdraft, hdraft]
    exact iff_of_false (Outcome.not_fails_ok _) (Outcome.not_fails_ok _)
  · rw [run_of_draft_eq_error hdraft, hdraft]
    exact iff_of_true ⟨clash, rfl⟩ ⟨clash, rfl⟩

/-- The client is made by the same plan in every order. -/
theorem planOf_reordered (h : doc.Reordered other) :
    planOf other settings = planOf doc settings := by
  rw [planOf, planOf, libraryOf, libraryOf, usesViews, usesViews, h.schemas, h.usesModifiers_eq]

/-- The client is made for the same operations in every order. -/
theorem mem_operationsOf_reordered (h : doc.Reordered other) (op : AnalyzedOperation) :
    op ∈ operationsOf doc ↔ op ∈ operationsOf other := by
  have hlib : libraryOf other = libraryOf doc := congrArg Library.mk h.schemas
  rw [operationsOf, operationsOf, hlib]
  exact Analysis.mem_ofDocument_reordered h

/-- In another order of its operations, and of the tags of each, a document has a client exactly if
it has one in its own order, and the two clients hold the same up to order. -/
theorem run_reordered (doc other : Document) (settings : Settings)
    (hdoc : (doc.operations.map Operation.route).Nodup) (hother : doc.Reordered other) :
    (Outcome.Fails (run doc settings).client ↔ Outcome.Fails (run other settings).client) ∧
    ∀ client, (run doc settings).client = .ok client →
      ∃ twin, (run other settings).client = .ok twin ∧
        SameUpToOrder client.declarations twin.declarations := by
  have hnodup : (other.operations.map Operation.route).Nodup := hother.routes_perm.nodup_iff.mp hdoc
  have hsame := mem_operationsOf_reordered hother
  have hplan : planOf other settings = planOf doc settings := planOf_reordered hother
  have hops : Client.Determined (planOf doc settings) (operationsOf doc) :=
    Client.determined_ofDocument hdoc _
  have hothers : Client.Determined (planOf doc settings) (operationsOf other) :=
    Client.determined_ofDocument hnodup _
  have hverdict : Outcome.Fails (run doc settings).client ↔
      Outcome.Fails (run other settings).client := by
    rw [run_client_fails_iff, run_client_fails_iff, hplan, Client.draft_fails_iff hops.consistent,
      Client.draft_fails_iff hothers.consistent]
    simp only [hsame]
  refine ⟨hverdict, fun client hclient => ?_⟩
  rcases Outcome.ok_or_error (run other settings).client with ⟨twin, htwin⟩ | hfails
  · obtain ⟨final, hdraft, hdeclared⟩ := exists_draft_of_run hclient
    obtain ⟨final', hdraft', hdeclared'⟩ := exists_draft_of_run htwin
    rw [hplan] at hdraft'
    refine ⟨twin, htwin, ?_⟩
    rw [hdeclared, hdeclared']
    exact (Client.draft_holds hdraft).sameUpToOrder (Client.draft_holds hdraft')
      (Client.draft_ordered hdraft) (Client.draft_ordered hdraft') hops hothers hsame _
  · have hfailed := hverdict.mpr hfails
    rw [hclient] at hfailed
    exact absurd hfailed (Outcome.not_fails_ok _)

/-- The shop with its operations, and the tags of the first of them, the other way round. -/
def mirroredShop : Document :=
  { Client.shop with
    operations := Client.shop.operations.reverse.map fun op =>
      { op with tags := op.tags.reverse } }

/-- The mirrored shop has the client of the shop, up to order. -/
theorem run_reordered_shop :
    (Client.shop.operations.map Operation.route).Nodup ∧ Client.shop.Reordered mirroredShop ∧
      ∃ client, (run Client.shop {}).client = .ok client ∧
        ∃ twin, (run mirroredShop {}).client = .ok twin ∧
          SameUpToOrder client.declarations twin.declarations := by
  have hreordered : Client.shop.Reordered mirroredShop := by
    refine ⟨rfl, Client.shop.operations.map fun op => { op with tags := op.tags.reverse }, ?_, ?_⟩
    · rw [List.forall₂_map_right_iff, List.forall₂_same]
      exact fun op _ => ⟨_, op.tags.reverse_perm.symm, rfl⟩
    · rw [mirroredShop, List.map_reverse]
      exact (List.reverse_perm _).symm
  obtain ⟨client, hclient⟩ : ∃ client, (run Client.shop {}).client = .ok client := ⟨_, rfl⟩
  exact ⟨by decide, hreordered, client, hclient,
    (run_reordered Client.shop mirroredShop {} (by decide) hreordered).2 client hclient⟩

end Generation

end TypedClient
