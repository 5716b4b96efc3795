import TypedClient.Proofs.Client.Draft

/-!
# What a draft holds

The two invariants of a draft, each kept by the step that changes its part and untouched by the
other.  Together they say what the finished draft holds in terms of all operations, and that no two
of them clash; where assembly fails they say it of the operations before the one that clashed.

* `Draft.Collects`: the methods of a draft, with their references, projections and notes.
* `Draft.Groups`: the members that are exposed under each tag.
* `Draft.Holds`: both; `draft_holds`: they hold of the draft that assembly ends with.
* `exists_clash_of_draft_eq_error`: where assembly fails, the operation that could not be taken
  clashes.
-/

namespace TypedClient.Client

open AnalyzedOperation (route)

variable {plan : Plan} {op : AnalyzedOperation} {seen operations : List AnalyzedOperation}

/-- The first operation with each path and method. -/
def firsts (operations : List AnalyzedOperation) : List AnalyzedOperation :=
  firstBy route operations

namespace Draft

variable {draft next : Draft}

/-! ## Methods -/

/-- A draft that has taken some operations holds a method for the first operation with each path and
method, under names that are all different, and what these operations refer to. -/
structure Collects (plan : Plan) (seen : List AnalyzedOperation) (draft : Draft) : Prop where
  callables : draft.callables = (firsts seen).map plan.made
  nodup_names : (draft.callables.map Callable.name).Nodup
  references : ∀ n, n ∈ draft.references ↔ ∃ op ∈ firsts seen, n ∈ op.references
  views : ∀ n, n ∈ draft.views ↔ ∃ op ∈ firsts seen, n ∈ (plan.made op).viewNames
  notes : draft.notes = (firsts seen).flatMap plan.notesOn

theorem Collects.nil : Collects plan [] {} where
  callables := rfl
  nodup_names := List.nodup_nil
  references := by
    intro n
    simp [firsts]
  views := by
    intro n
    simp [firsts]
  notes := rfl

/-- The paths and methods of the draft are those of the operations that were taken. -/
theorem Collects.mem_routes (h : Collects plan seen draft) {r : String × Method} :
    r ∈ draft.callables.map Callable.route ↔ r ∈ seen.map route := by
  have hroutes : draft.callables.map Callable.route = (firsts seen).map route := by
    rw [h.callables, List.map_map]
    rfl
  rw [hroutes]
  exact mem_map_firstBy_iff

/-- An operation for which there is a method already adds none. -/
theorem Collects.known (h : Collects plan seen draft) (hhas : draft.hasCallable op = true) :
    Collects plan (seen ++ [op]) draft := by
  have hfirsts : firsts (seen ++ [op]) = firsts seen := by
    rw [firsts, firstBy_concat, if_pos (h.mem_routes.mp (hasCallable_iff.mp hhas))]
    rfl
  refine ⟨?_, h.nodup_names, ?_, ?_, ?_⟩ <;> rw [hfirsts]
  · exact h.callables
  · exact h.references
  · exact h.views
  · exact h.notes

/-- An operation for which there is no method adds one. -/
theorem Collects.addCallable (h : Collects plan seen draft) (hhas : draft.hasCallable op = false)
    (hadd : draft.addCallable plan op = .ok next) : Collects plan (seen ++ [op]) next := by
  obtain ⟨hfree, rfl⟩ := addCallable_eq_ok hadd
  have hnew : op.route ∉ seen.map route := by
    intro hmem
    have htrue := hasCallable_iff.mpr (h.mem_routes.mpr hmem)
    rw [hhas] at htrue
    cases htrue
  have hfirsts : firsts (seen ++ [op]) = firsts seen ++ [op] := by
    rw [firsts, firstBy_concat, if_neg hnew]
    rfl
  refine ⟨?_, ?_, fun n => ?_, fun n => ?_, ?_⟩
  · show draft.callables ++ [plan.made op] = _
    rw [hfirsts, List.map_append, h.callables, List.map_singleton]
  · show ((draft.callables ++ [plan.made op]).map Callable.name).Nodup
    rw [List.map_append, List.map_singleton, name_made]
    refine List.nodup_append.mpr ⟨h.nodup_names, List.nodup_singleton _, ?_⟩
    rintro a ha b hb rfl
    rw [List.mem_singleton] at hb
    exact hfree (hb ▸ ha)
  · show n ∈ NameSet.union op.references draft.references ↔ _
    rw [NameSet.mem_union, h.references, hfirsts]
    simp only [List.mem_append, List.mem_singleton, or_and_right, exists_or, exists_eq_left]
    exact or_comm
  · show n ∈ NameSet.union (plan.made op).viewNames draft.views ↔ _
    rw [NameSet.mem_union, h.views, hfirsts]
    simp only [List.mem_append, List.mem_singleton, or_and_right, exists_or, exists_eq_left]
    exact or_comm
  · show draft.notes ++ plan.notesOn op = _
    rw [hfirsts, List.flatMap_append, h.notes, List.flatMap_singleton]

/-- Exposing an operation leaves the methods as they are. -/
theorem Collects.expose (h : Collects plan seen draft)
    (hexpose : draft.expose plan op = .ok next) : Collects plan seen next := by
  obtain ⟨-, rfl⟩ := expose_eq_ok hexpose
  exact ⟨h.callables, h.nodup_names, h.references, h.views, h.notes⟩

/-! ## Groups -/

/-- A draft that has taken some operations has a group for each of their tags.  Every member of a
group stands for an operation with that tag, and every operation is exposed under its name. -/
structure Groups (plan : Plan) (seen : List AnalyzedOperation) (draft : Draft) : Prop where
  tags : draft.groups.names = (seen.map AnalyzedOperation.tag).eraseDups
  nodup_members : ∀ tag, (draft.group tag).names.Nodup
  members : ∀ tag exposed target, (draft.group tag).get? exposed = some target →
    ∃ op ∈ seen, op.tag = tag ∧ plan.exposed op = exposed ∧ op.methodName = target.methodName
  exposes : ∀ op ∈ seen, ∃ target, (draft.group op.tag).get? (plan.exposed op) = some target ∧
    target.methodName = op.methodName

theorem Groups.nil : Groups plan [] {} where
  tags := rfl
  nodup_members := fun _ => List.nodup_nil
  members := by
    intro tag exposed target h
    cases h
  exposes := fun _ h => absurd h List.not_mem_nil

/-- The invariant of the groups reads nothing else of a draft. -/
theorem Groups.of_groups_eq (h : Groups plan seen draft) (hgroups : next.groups = draft.groups) :
    Groups plan seen next := by
  have hgroup : next.group = draft.group := by
    funext tag
    rw [group, group, hgroups]
  refine ⟨?_, ?_, ?_, ?_⟩
  · rw [hgroups]
    exact h.tags
  · rw [hgroup]
    exact h.nodup_members
  · rw [hgroup]
    exact h.members
  · rw [hgroup]
    exact h.exposes

theorem group_withMember_self :
    (draft.withMember plan op).group op.tag =
      (draft.group op.tag).put (plan.exposed op) ⟨op.methodName, op.label⟩ := by
  rw [group, withMember, Named.get?_put_self, Option.getD_some]

theorem group_withMember_of_ne {tag : String} (h : tag ≠ op.tag) :
    (draft.withMember plan op).group tag = draft.group tag := by
  rw [group, withMember, Named.get?_put_of_ne h]
  rfl

/-- Exposing an operation adds it to the group of its tag. -/
theorem Groups.expose (h : Groups plan seen draft) (hexpose : draft.expose plan op = .ok next) :
    Groups plan (seen ++ [op]) next := by
  obtain ⟨hsame, rfl⟩ := expose_eq_ok hexpose
  refine ⟨?_, fun tag => ?_, fun tag exposed target hget => ?_, fun other hother => ?_⟩
  · show (draft.groups.put op.tag _).names = _
    rw [Named.names_put, h.tags, List.map_append, List.map_singleton, eraseDups_concat]
  · by_cases htag : tag = op.tag
    · subst htag
      rw [group_withMember_self]
      exact Named.nodup_names_put (h.nodup_members _)
    · rw [group_withMember_of_ne htag]
      exact h.nodup_members tag
  · by_cases hnew : tag = op.tag ∧ exposed = plan.exposed op
    · obtain ⟨rfl, rfl⟩ := hnew
      rw [group_withMember_self, Named.get?_put_self, Option.some_inj] at hget
      exact ⟨op, List.mem_append_right _ (List.mem_singleton_self op), rfl, rfl, by rw [← hget]⟩
    · have hold : (draft.group tag).get? exposed = some target := by
        by_cases htag : tag = op.tag
        · subst htag
          rw [group_withMember_self, Named.get?_put_of_ne fun heq => hnew ⟨rfl, heq⟩] at hget
          exact hget
        · rw [group_withMember_of_ne htag] at hget
          exact hget
      obtain ⟨origin, horigin, hrest⟩ := h.members tag exposed target hold
      exact ⟨origin, List.mem_append_left _ horigin, hrest⟩
  · rcases List.mem_append.mp hother with hold | hnew
    · obtain ⟨target, hget, hname⟩ := h.exposes other hold
      by_cases htag : other.tag = op.tag
      · rw [htag, group_withMember_self]
        rw [htag] at hget
        by_cases hexposed : plan.exposed other = plan.exposed op
        · -- the member is overwritten, by one that leads to the same method
          rw [hexposed] at hget ⊢
          exact ⟨_, Named.get?_put_self _ _ _, (hsame target hget).symm.trans hname⟩
        · rw [Named.get?_put_of_ne hexposed]
          exact ⟨target, hget, hname⟩
      · rw [group_withMember_of_ne htag]
        exact ⟨target, hget, hname⟩
    · rw [List.mem_singleton] at hnew
      subst hnew
      rw [group_withMember_self]
      exact ⟨_, Named.get?_put_self _ _ _, rfl⟩

/-! ## Steps and runs -/

/-- A draft that has taken some operations holds their methods and their groups. -/
structure Holds (plan : Plan) (seen : List AnalyzedOperation) (draft : Draft) : Prop extends
  Collects plan seen draft, Groups plan seen draft

/-- One more operation keeps the invariant. -/
theorem Holds.add (h : Holds plan seen draft) (hadd : Draft.add plan draft op = .ok next) :
    Holds plan (seen ++ [op]) next := by
  rcases add_eq_ok hadd with ⟨hhas, hexpose⟩ | ⟨hhas, middle, hmiddle, hexpose⟩
  · exact ⟨(h.toCollects.known hhas).expose hexpose, h.toGroups.expose hexpose⟩
  · have hgroups : Groups plan seen middle :=
      h.toGroups.of_groups_eq (by rw [(addCallable_eq_ok hmiddle).2]; rfl)
    exact ⟨(h.toCollects.addCallable hhas hmiddle).expose hexpose, hgroups.expose hexpose⟩

end Draft

/-- The draft that assembly ends with holds the methods and the groups of all operations. -/
theorem draft_holds {final : Draft} (h : draft plan operations = .ok final) :
    Draft.Holds plan operations final :=
  Outcome.foldlM_invariant (I := Draft.Holds plan) (fun _ _ _ _ hseen hadd => hseen.add hadd)
    ⟨Draft.Collects.nil, Draft.Groups.nil⟩ h

/-! ## Clashes -/

/-- Two operations want one name: different operations one method name, or operations with one tag
one exposed name for different methods. -/
def Clash (removesTag : Bool) (a b : AnalyzedOperation) : Prop :=
  (a.route ≠ b.route ∧ a.methodName = b.methodName) ∨
    (a.tag = b.tag ∧ a.methodName ≠ b.methodName ∧
      exposedName removesTag a = exposedName removesTag b)

instance (removesTag : Bool) (a b : AnalyzedOperation) : Decidable (Clash removesTag a b) :=
  inferInstanceAs (Decidable (_ ∨ _))

/-- The operation that cannot be taken clashes with one that was taken. -/
theorem Draft.Holds.clash_of_add_eq_error {draft : Draft} {clash : NameClash}
    (h : Holds plan seen draft) (hadd : Draft.add plan draft op = .error clash) :
    ∃ a ∈ seen, Clash plan.removesTag a op := by
  rcases add_eq_error hadd with ⟨hhas, hname⟩ | ⟨middle, hgroups, hexpose⟩
  · obtain ⟨owner, howner, hname⟩ := addCallable_eq_error hname
    have hroute : owner.route ≠ op.route := by
      intro heq
      have hmem : op.route ∈ draft.callables.map Callable.route := by
        rw [← heq]
        exact List.mem_map_of_mem howner
      have htrue := hasCallable_iff.mpr hmem
      rw [hhas] at htrue
      cases htrue
    rw [h.callables] at howner
    obtain ⟨a, ha, rfl⟩ := List.mem_map.mp howner
    exact ⟨a, mem_of_mem_firstBy ha, Or.inl ⟨hroute, hname⟩⟩
  · obtain ⟨previous, hget, hname⟩ := expose_eq_error hexpose
    obtain ⟨a, ha, htag, hexposed, hmethod⟩ :=
      (h.toGroups.of_groups_eq hgroups).members _ _ _ hget
    exact ⟨a, ha, Or.inr ⟨htag, hmethod ▸ hname, hexposed⟩⟩

/-- Where assembly fails, two operations clash. -/
theorem exists_clash_of_draft_eq_error {clash : NameClash}
    (h : draft plan operations = .error clash) :
    ∃ a ∈ operations, ∃ b ∈ operations, Clash plan.removesTag a b := by
  obtain ⟨before, op, rest, middle, rfl, hbefore, hadd⟩ := Outcome.foldlM_eq_error h
  obtain ⟨a, ha, hclash⟩ := (draft_holds hbefore).clash_of_add_eq_error hadd
  exact ⟨a, List.mem_append_left _ ha, op, List.mem_append_right _ List.mem_cons_self, hclash⟩

/-- The path and the method of an operation tell its method name. -/
def Consistent (operations : List AnalyzedOperation) : Prop :=
  ∀ a ∈ operations, ∀ b ∈ operations, a.route = b.route → a.methodName = b.methodName

/-- The method for an operation has the operation's own name. -/
theorem Draft.Holds.exists_callable {final : Draft} (h : Holds plan operations final)
    (hconsistent : Consistent operations) (hop : op ∈ operations) :
    ∃ c ∈ final.callables, c.route = op.route ∧ c.name = op.methodName := by
  obtain ⟨c, hc, hroute⟩ := List.mem_map.mp (h.mem_routes.mpr (List.mem_map_of_mem hop))
  refine ⟨c, hc, hroute, ?_⟩
  rw [h.callables] at hc
  obtain ⟨first, hfirst, rfl⟩ := List.mem_map.mp hc
  exact hconsistent first (mem_of_mem_firstBy hfirst) op hop hroute

/-- Where assembly succeeds no two operations clash. -/
theorem Draft.Holds.not_clash {final : Draft} (h : Holds plan operations final)
    (hconsistent : Consistent operations) {a b : AnalyzedOperation} (ha : a ∈ operations)
    (hb : b ∈ operations) : ¬ Clash plan.removesTag a b := by
  rintro (⟨hroute, hname⟩ | ⟨htag, hname, hexposed⟩)
  · obtain ⟨c, hc, hcroute, hcname⟩ := h.exists_callable hconsistent ha
    obtain ⟨d, hd, hdroute, hdname⟩ := h.exists_callable hconsistent hb
    have hcd : c = d :=
      List.inj_on_of_nodup_map h.nodup_names hc hd (hcname.trans (hname.trans hdname.symm))
    rw [hcd] at hcroute
    exact hroute (hcroute.symm.trans hdroute)
  · obtain ⟨s, hs, hsname⟩ := h.exposes a ha
    obtain ⟨t, ht, htname⟩ := h.exposes b hb
    have hexp : plan.exposed a = plan.exposed b := hexposed
    rw [htag, hexp, ht, Option.some_inj] at hs
    rw [hs] at htname
    exact hname (hsname.symm.trans htname)

end TypedClient.Client
