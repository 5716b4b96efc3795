import Mathlib.Data.List.Chain
import Mathlib.Data.List.Nodup
import Mathlib.Logic.Function.Iterate
import Mathlib.Tactic.Choose
import TypedClient.Proofs.Library.Resolution

/-!
# How chains of references end

Each schema leads to at most one other, so the chain that starts with a schema is fixed.  It ends in
a schema that is no reference, breaks off at a name that is not in the library, or goes on without
end.  Resolving tells the three apart.  Of a chain without end it looks up the names until one of
them is met again, and reports them with that one behind them.

* `BreaksAt`, `Endless`: the other two ways a chain may go, beside `Ends`.
* `Walks`, `Circles`: the names that are looked up on the way, and those of a chain that meets a
  name again.
* `endless_iff`, `Circles.endless`: the chains without end are those that never stop.
* `follow_of_walks`, `walks_of_follow`: what the loop does with a chain that meets a name again.
* `Decides`, `resolve_decides`: resolving, with its result and its errors.
-/

namespace TypedClient.Library

open Relation (ReflTransGen TransGen)

variable {lib : Library} {a b s : Schema} {name : String} {names chain : List String}

/-! ## The ways a chain may go -/

/-- The chain of references comes to a name that is not in the library; those in front of it are. -/
def BreaksAt (lib : Library) (a : Schema) (name : String) : Prop :=
  ∃ nullable, ReflTransGen lib.Leads a (.reference name nullable) ∧ lib.schemas.get? name = none

/-- The chain of references goes on without end. -/
def Endless (lib : Library) (a : Schema) : Prop :=
  ∃ f : ℕ → Schema, f 0 = a ∧ ∀ i, lib.Leads (f i) (f (i + 1))

/-- A chain stops in one place only. -/
theorem Stops.unique (ha : ReflTransGen lib.Leads s a) (hb : ReflTransGen lib.Leads s b)
    (hstop : lib.Stops a) (hstop' : lib.Stops b) : a = b :=
  Chain.Stops.unique rightUnique_leads ha hb hstop hstop'

theorem stops_of_not_isReference (h : s.isReference = false) : lib.Stops s :=
  fun _ => not_leads_of_not_isReference h

theorem stops_of_get?_eq_none {nullable : Bool} (h : lib.schemas.get? name = none) :
    lib.Stops (.reference name nullable) := by
  rintro b ⟨target, _, heq, hget⟩
  obtain ⟨rfl, -⟩ := Schema.reference.inj heq
  rw [h] at hget
  cases hget

/-- A chain is without end exactly if it stops nowhere. -/
theorem endless_iff : lib.Endless a ↔ ∀ s, ReflTransGen lib.Leads a s → ¬ lib.Stops s := by
  constructor
  · rintro ⟨f, rfl, hf⟩ s hchain
    have hreached : ∃ i, f i = s := by
      induction hchain with
      | refl => exact ⟨0, rfl⟩
      | tail _ hstep ih =>
        obtain ⟨i, rfl⟩ := ih
        exact ⟨i + 1, (hf i).unique hstep⟩
    obtain ⟨i, rfl⟩ := hreached
    exact fun hstop => hstop _ (hf i)
  · intro hnever
    -- the chain is the iteration of a choice of the schema that follows
    have hnext : ∀ b, ∃ c, ReflTransGen lib.Leads a b → lib.Leads b c := by
      intro b
      by_cases hb : ReflTransGen lib.Leads a b
      · obtain ⟨c, hc⟩ := not_forall_not.mp (hnever b hb)
        exact ⟨c, fun _ => hc⟩
      · exact ⟨b, fun h => absurd h hb⟩
    choose next hnext using hnext
    have hreach : ∀ i, ReflTransGen lib.Leads a (next^[i] a) := by
      intro i
      induction i with
      | zero => exact .refl
      | succ i ih =>
        rw [Function.iterate_succ_apply']
        exact ih.tail (hnext _ ih)
    refine ⟨fun i => next^[i] a, rfl, fun i => ?_⟩
    show lib.Leads (next^[i] a) (next^[i + 1] a)
    rw [Function.iterate_succ_apply']
    exact hnext _ (hreach i)

theorem Ends.not_endless (h : lib.Ends a s) : ¬ lib.Endless a :=
  fun hendless => endless_iff.mp hendless s h.1 (stops_of_not_isReference h.2)

theorem BreaksAt.not_endless (h : lib.BreaksAt a name) : ¬ lib.Endless a := by
  obtain ⟨nullable, hchain, hget⟩ := h
  exact fun hendless => endless_iff.mp hendless _ hchain (stops_of_get?_eq_none hget)

theorem BreaksAt.not_ends (h : lib.BreaksAt a name) : ¬ lib.Ends a s := by
  obtain ⟨nullable, hchain, hget⟩ := h
  rintro ⟨hchain', hs⟩
  rw [← Stops.unique hchain hchain' (stops_of_get?_eq_none hget) (stops_of_not_isReference hs)]
    at hs
  cases hs

theorem BreaksAt.unique {other : String} (h : lib.BreaksAt a name) (h' : lib.BreaksAt a other) :
    name = other := by
  obtain ⟨nullable, hchain, hget⟩ := h
  obtain ⟨nullable', hchain', hget'⟩ := h'
  have heq := Stops.unique hchain hchain' (stops_of_get?_eq_none hget) (stops_of_get?_eq_none hget')
  exact (Schema.reference.inj heq).1

/-! ## The names on the way -/

/-- The schema under a name is a reference to another name. -/
def Refers (lib : Library) (m n : String) : Prop :=
  ∃ nullable, lib.schemas.get? m = some (.reference n nullable)

/-- The names are the targets that are looked up, in order, on the way from a schema to another. -/
inductive Walks (lib : Library) : Schema → List String → Schema → Prop
  | stay (a : Schema) : Walks lib a [] a
  | look {target : String} {nullable : Bool} {next b : Schema} {names : List String}
      (hget : lib.schemas.get? target = some next) (h : Walks lib next names b) :
      Walks lib (.reference target nullable) (target :: names) b

/-- The names of a chain that meets one of them again: the targets in order from the starting one,
each of which refers to the next, all different up to the last one, which is one of the others. -/
structure Circles (lib : Library) (a : Schema) (chain : List String) : Prop where
  starts : ∃ target ∈ chain.head?, ∃ nullable, a = .reference target nullable
  refers : chain.IsChain lib.Refers
  distinct : chain.dropLast.Nodup
  repeats : ∀ target ∈ chain.getLast?, target ∈ chain.dropLast

theorem Walks.reflTransGen (h : lib.Walks a names b) : ReflTransGen lib.Leads a b := by
  induction h with
  | stay => exact .refl
  | look hget _ ih => exact .head ⟨_, _, rfl, hget⟩ ih

/-- Every name on the way leads to a schema on the way. -/
theorem Walks.exists_of_mem (h : lib.Walks a names b) (hmem : name ∈ names) :
    ∃ c, lib.schemas.get? name = some c ∧ ReflTransGen lib.Leads a c ∧
      ReflTransGen lib.Leads c b := by
  induction h with
  | stay => exact absurd hmem List.not_mem_nil
  | look hget hwalk ih =>
    rcases List.mem_cons.mp hmem with rfl | hrest
    · exact ⟨_, hget, .single ⟨_, _, rfl, hget⟩, hwalk.reflTransGen⟩
    · obtain ⟨c, hc, hto, hfrom⟩ := ih hrest
      exact ⟨c, hc, .head ⟨_, _, rfl, hget⟩ hto, hfrom⟩

/-- The names on the way to a reference, and its target behind them, are names of which each refers
to the next. -/
theorem exists_walks_iff {target : String} :
    (∃ nullable, lib.Walks a names (.reference target nullable)) ↔
      (∃ first ∈ (names ++ [target]).head?, ∃ nullable, a = .reference first nullable) ∧
        (names ++ [target]).IsChain lib.Refers := by
  induction names generalizing a with
  | nil =>
    constructor
    · rintro ⟨nullable, h⟩
      cases h
      exact ⟨⟨target, rfl, nullable, rfl⟩, List.isChain_singleton _⟩
    · rintro ⟨⟨_, ⟨⟩, nullable, rfl⟩, -⟩
      exact ⟨nullable, .stay _⟩
  | cons n names ih =>
    rw [List.cons_append, List.isChain_cons]
    constructor
    · rintro ⟨nullable, h⟩
      cases h with
      | look hget h =>
        obtain ⟨⟨first, hfirst, nullable', rfl⟩, hchain⟩ := ih.mp ⟨nullable, h⟩
        refine ⟨⟨n, rfl, _, rfl⟩, fun second hsecond => ⟨nullable', ?_⟩, hchain⟩
        rw [hget, Option.mem_unique hsecond hfirst]
    · rintro ⟨⟨_, ⟨⟩, nullable, rfl⟩, hnext, hchain⟩
      obtain ⟨first, hfirst⟩ : ∃ first, (names ++ [target]).head? = some first :=
        Option.isSome_iff_exists.mp (by simp)
      obtain ⟨nullable', hget⟩ := hnext first hfirst
      obtain ⟨last, h⟩ := ih.mpr ⟨⟨first, hfirst, nullable', rfl⟩, hchain⟩
      exact ⟨last, .look hget h⟩

theorem circles_iff : lib.Circles a chain ↔ ∃ names target nullable, chain = names ++ [target] ∧
    lib.Walks a names (.reference target nullable) ∧ names.Nodup ∧ target ∈ names := by
  constructor
  · rintro ⟨hstarts, hrefers, hdistinct, hrepeats⟩
    obtain ⟨first, hfirst, -⟩ := id hstarts
    rcases List.eq_nil_or_concat' chain with rfl | ⟨names, target, rfl⟩
    · cases hfirst
    · obtain ⟨nullable, hwalk⟩ := exists_walks_iff.mpr ⟨hstarts, hrefers⟩
      rw [List.dropLast_concat] at hdistinct hrepeats
      exact ⟨names, target, nullable, rfl, hwalk, hdistinct,
        hrepeats target (by rw [List.getLast?_concat]; rfl)⟩
  · rintro ⟨names, target, nullable, rfl, hwalk, hdistinct, hmem⟩
    obtain ⟨hstarts, hrefers⟩ := exists_walks_iff.mp ⟨nullable, hwalk⟩
    refine ⟨hstarts, hrefers, ?_, ?_⟩
    · rw [List.dropLast_concat]
      exact hdistinct
    · rw [List.dropLast_concat, List.getLast?_concat]
      rintro _ ⟨⟩
      exact hmem

/-- A chain that meets a name again is without end. -/
theorem Circles.endless (h : lib.Circles a chain) : lib.Endless a := by
  obtain ⟨names, target, nullable, -, hwalk, -, hmem⟩ := circles_iff.mp h
  obtain ⟨c, hget, hto, hfrom⟩ := hwalk.exists_of_mem hmem
  have hcircle : TransGen lib.Leads c c :=
    TransGen.tail'_iff.mpr ⟨_, hfrom, target, nullable, rfl, hget⟩
  exact endless_iff.mpr fun s hchain =>
    Chain.not_stops_of_circular rightUnique_leads hto hcircle hchain

/-! ## The loop -/

variable {place : Option String} {visited : List String}

/-- Following looks up the names on the way until it meets one of them, or one visited before. -/
theorem follow_of_walks {target : String} {nullable : Bool}
    (h : lib.Walks a names (.reference target nullable)) (hnodup : (visited ++ names).Nodup)
    (hmem : target ∈ visited ++ names) :
    lib.follow place visited a = .error (.circular (visited ++ names ++ [target]) place) := by
  generalize hend : Schema.reference target nullable = b at h
  induction h generalizing visited with
  | stay a =>
    rw [List.append_nil] at hmem ⊢
    rw [← hend, follow_reference, if_pos (List.contains_iff_mem.mpr hmem)]
  | @look n _ next _ names hget _ ih =>
    have hnew : ¬ visited.contains n = true := by
      rw [List.contains_iff_mem]
      exact fun hn => (List.nodup_append.mp hnodup).2.2 n hn n List.mem_cons_self rfl
    have happend : visited ++ n :: names = visited ++ [n] ++ names := by
      rw [List.append_assoc, List.singleton_append]
    rw [happend] at hnodup hmem ⊢
    rw [follow_reference, if_neg hnew, hget]
    exact ih hnodup hmem hend

/-- A circle that is reported is made of the names on the way. -/
theorem walks_of_follow {location : Option String}
    (h : lib.follow place visited a = .error (.circular chain location)) :
    ∃ names target nullable, chain = visited ++ names ++ [target] ∧
      lib.Walks a names (.reference target nullable) ∧
      (visited.Nodup → (visited ++ names).Nodup) ∧ target ∈ visited ++ names := by
  induction visited, a using follow.induct lib with
  | case1 visited target nullable hseen =>
    rw [follow_reference, if_pos hseen] at h
    obtain ⟨rfl, -⟩ := ResolutionError.circular.inj (Except.error.inj h)
    refine ⟨[], target, nullable, ?_, .stay _, ?_, ?_⟩
    · rw [List.append_nil]
    · rw [List.append_nil]
      exact id
    · rw [List.append_nil]
      exact List.contains_iff_mem.mp hseen
  | case2 visited target nullable hnew hget =>
    rw [follow_reference, if_neg hnew, hget] at h
    cases h
  | case3 visited n nullable hnew next hget ih =>
    rw [follow_reference, if_neg hnew, hget] at h
    obtain ⟨names, target, nullable', hchain, hwalk, hnodup, hmem⟩ := ih h
    have happend : visited ++ [n] ++ names = visited ++ n :: names := by
      rw [List.append_assoc, List.singleton_append]
    rw [happend] at hchain hnodup hmem
    refine ⟨n :: names, target, nullable', hchain, .look hget hwalk, fun hvisited => hnodup ?_,
      hmem⟩
    rw [List.contains_iff_mem] at hnew
    rw [← List.concat_eq_append]
    exact hvisited.concat hnew
  | case4 visited a ha =>
    rw [follow_of_not_isReference (Schema.isReference_eq_false_iff.mpr ha)] at h
    cases h

/-- A name that is reported is one at which the chain breaks off. -/
theorem breaksAt_of_follow {location : Option String}
    (h : lib.follow place visited a = .error (.unknown name location)) : lib.BreaksAt a name := by
  induction visited, a using follow.induct lib with
  | case1 visited target nullable hseen =>
    rw [follow_reference, if_pos hseen] at h
    cases h
  | case2 visited target nullable hnew hget =>
    rw [follow_reference, if_neg hnew, hget] at h
    obtain ⟨rfl, -⟩ := ResolutionError.unknown.inj (Except.error.inj h)
    exact ⟨nullable, .refl, hget⟩
  | case3 visited target nullable hnew next hget ih =>
    rw [follow_reference, if_neg hnew, hget] at h
    obtain ⟨nullable', hchain, hnone⟩ := ih h
    exact ⟨nullable', .head ⟨target, nullable, rfl, hget⟩ hchain, hnone⟩
  | case4 visited a ha =>
    rw [follow_of_not_isReference (Schema.isReference_eq_false_iff.mpr ha)] at h
    cases h

/-! ## Resolving -/

theorem resolve_circular_iff :
    lib.resolve a place = .error (.circular chain place) ↔ lib.Circles a chain := by
  rw [circles_iff]
  constructor
  · intro h
    obtain ⟨names, target, nullable, hchain, hwalk, hnodup, hmem⟩ := walks_of_follow h
    rw [List.nil_append] at hchain hnodup hmem
    exact ⟨names, target, nullable, hchain, hwalk, hnodup List.nodup_nil, hmem⟩
  · rintro ⟨names, target, nullable, rfl, hwalk, hnodup, hmem⟩
    exact follow_of_walks hwalk hnodup hmem

/-- Resolving has one of three outcomes, each for one way the chain may go. -/
theorem resolve_cases (lib : Library) (a : Schema) (place : Option String) :
    (∃ s, lib.resolve a place = .ok s ∧ lib.Ends a s) ∨
    (∃ name, lib.resolve a place = .error (.unknown name place) ∧ lib.BreaksAt a name) ∨
    ∃ chain, lib.resolve a place = .error (.circular chain place) ∧ lib.Circles a chain := by
  cases h : lib.resolve a place with
  | ok s => exact Or.inl ⟨s, rfl, resolve_eq_ok_iff.mp h⟩
  | error error =>
    have hplace := location_of_follow h
    cases error with
    | unknown name location =>
      obtain rfl : location = place := hplace
      exact Or.inr (Or.inl ⟨name, rfl, breaksAt_of_follow h⟩)
    | circular chain location =>
      obtain rfl : location = place := hplace
      exact Or.inr (Or.inr ⟨chain, rfl, resolve_circular_iff.mp h⟩)

/-- Resolving a schema tells how its chain of references goes.  It succeeds with the schema that the
chain ends in, names the first target that is not in the library, or lists the names of a chain
without end up to the one that is met again.  The errors are at the place that was given. -/
structure Decides (lib : Library) (a : Schema) (place : Option String) : Prop where
  ends : ∀ s, lib.resolve a place = .ok s ↔ lib.Ends a s
  returns : (∃ s, lib.resolve a place = .ok s) ↔
    ¬ lib.Endless a ∧ ∀ name, ¬ lib.BreaksAt a name
  breaks : ∀ name, lib.resolve a place = .error (.unknown name place) ↔ lib.BreaksAt a name
  circles : ∀ chain, lib.resolve a place = .error (.circular chain place) ↔ lib.Circles a chain
  endless : (∃ chain, lib.resolve a place = .error (.circular chain place)) ↔ lib.Endless a
  located : ∀ error, lib.resolve a place = .error error → error.location = place

/-- Every schema is resolved so, in every library. -/
theorem resolve_decides (lib : Library) (a : Schema) (place : Option String) :
    lib.Decides a place where
  ends := fun _ => resolve_eq_ok_iff
  returns := by
    constructor
    · rintro ⟨s, h⟩
      have hs := resolve_eq_ok_iff.mp h
      exact ⟨hs.not_endless, fun name hbreaks => hbreaks.not_ends hs⟩
    · rintro ⟨hendless, hbreaks⟩
      rcases resolve_cases lib a place with ⟨s, h, -⟩ | ⟨name, -, hs⟩ | ⟨chain, -, hs⟩
      · exact ⟨s, h⟩
      · exact absurd hs (hbreaks name)
      · exact absurd hs.endless hendless
  breaks := by
    intro name
    refine ⟨breaksAt_of_follow, fun h => ?_⟩
    rcases resolve_cases lib a place with ⟨s, -, hs⟩ | ⟨other, hother, hs⟩ | ⟨chain, -, hs⟩
    · exact absurd hs h.not_ends
    · rw [hother, hs.unique h]
    · exact absurd hs.endless h.not_endless
  circles := fun _ => resolve_circular_iff
  endless := by
    constructor
    · rintro ⟨chain, h⟩
      exact (resolve_circular_iff.mp h).endless
    · intro h
      rcases resolve_cases lib a place with ⟨s, -, hs⟩ | ⟨name, -, hs⟩ | ⟨chain, hchain, -⟩
      · exact absurd h hs.not_endless
      · exact absurd h hs.not_endless
      · exact ⟨chain, hchain⟩
  located := fun _ => location_of_follow

/-- A chain that enters a circle behind its first name. -/
example : resolve ⟨[("A", .reference "B" false), ("B", .reference "C" true),
    ("C", .reference "B" false)]⟩ (.reference "A" false) none =
      .error (.circular ["A", "B", "C", "B"] none) := by
  simp [resolve, follow_reference, Named.get?]

end TypedClient.Library
