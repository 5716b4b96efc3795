import Mathlib.Data.Finset.Card
import TypedClient.Proofs.Document.Noting
import TypedClient.Proofs.Document.References

/-!
# How long references to components are followed

References are followed in a loop, which remembers those that it has followed.  A pass of the loop
ends it, or goes on to any place of the document at all.  What becomes less is the number of
references that stand in the document and have not been followed: what a reference leads to is a
part of the document, so the reference in it is one of the document too.  Only the reference in the
value at the start need not be.

* `Walk`, `pass`, `within`: the loop, with a bound on its passes.
* `known`: the references of the document and the one at the start.
* `within_followFrom`: the loop ends when the references of the document are used up.
* `FollowsInTime`, `follow_inTime`: the bound on the passes, and what the loop returns.
-/

namespace TypedClient.Reference

open Relation (ReflTransGen)

variable {root v : Value} {location ref : String} {error : Pointer.Error}

/-! ## The loop -/

/-- What the loop has come to: the references that were followed, the last one first, and the value
that the last one leads to. -/
structure Walk where
  seen : List String
  value : Value

/-- One pass of the loop: it ends the loop with an outcome, or follows one more reference. -/
def pass (root : Value) (location : String) (walk : Walk) : Outcome ⊕ Walk :=
  match text? walk.value with
  | none => .inl (finish location walk.value)
  | some ref =>
    if ref ∈ walk.seen then .inl (.dropped (circularNote ref location))
    else
      match Pointer.resolve ref root with
      | .error error => .inl (.dropped (unresolvedNote error location))
      | .ok next => .inr ⟨ref :: walk.seen, next⟩

/-- The outcome of the loop, if it ends within a number of passes. -/
def within (root : Value) (location : String) : ℕ → Walk → Option Outcome
  | 0, _ => none
  | n + 1, walk =>
    match pass root location walk with
    | .inl outcome => some outcome
    | .inr next => within root location n next

/-- The references of the document, and the one that the value consists of. -/
def known (root v : Value) : Finset String := ((text? v).toList ++ texts root).toFinset

/-! ## Passes -/

variable {walk next : Walk} {outcome : Outcome} {n : ℕ}

theorem within_succ_of_ends (h : pass root location walk = .inl outcome) :
    within root location (n + 1) walk = some outcome := by
  rw [within, h]

theorem within_succ_of_goesOn (h : pass root location walk = .inr next) :
    within root location (n + 1) walk = within root location n next := by
  rw [within, h]

theorem pass_of_text?_eq_none {seen : List String} (href : text? v = none) :
    pass root location ⟨seen, v⟩ = .inl (finish location v) := by
  rw [pass, href]

theorem pass_of_mem {seen : List String} (href : text? v = some ref) (hseen : ref ∈ seen) :
    pass root location ⟨seen, v⟩ = .inl (.dropped (circularNote ref location)) := by
  rw [pass, href]
  exact if_pos hseen

theorem pass_of_resolve_eq_error {seen : List String} (href : text? v = some ref)
    (hnew : ref ∉ seen) (hnext : Pointer.resolve ref root = .error error) :
    pass root location ⟨seen, v⟩ = .inl (.dropped (unresolvedNote error location)) := by
  rw [pass, href]
  dsimp only
  rw [if_neg hnew, hnext]

theorem pass_of_resolve_eq_ok {seen : List String} {w : Value} (href : text? v = some ref)
    (hnew : ref ∉ seen) (hnext : Pointer.resolve ref root = .ok w) :
    pass root location ⟨seen, v⟩ = .inr ⟨ref :: seen, w⟩ := by
  rw [pass, href]
  dsimp only
  rw [if_neg hnew, hnext]

/-! ## The references that are left -/

/-- Following a reference of the document leaves one less. -/
theorem card_left {all : Finset String} {seen : List String} (hmem : ref ∈ all)
    (hnew : ref ∉ seen) :
    (all \ seen.toFinset).card = (all \ (ref :: seen).toFinset).card + 1 := by
  have hleft : ref ∈ all \ seen.toFinset :=
    Finset.mem_sdiff.mpr ⟨hmem, fun h => hnew (List.mem_toFinset.mp h)⟩
  rw [List.toFinset_cons, Finset.sdiff_insert, Finset.card_erase_add_one hleft]

/-- The reference at the start is known besides those that are left when it has been followed. -/
theorem card_known (href : text? v = some ref) :
    (known root v).card = ((texts root).toFinset \ [ref].toFinset).card + 1 := by
  have hknown : known root v = insert ref (texts root).toFinset := by
    rw [known, href]
    exact List.toFinset_cons
  have hleft : (texts root).toFinset \ [ref].toFinset = (known root v).erase ref := by
    rw [hknown, Finset.erase_insert_eq_erase, Finset.erase_eq]
    rfl
  have hmem : ref ∈ known root v := by
    rw [hknown]
    exact Finset.mem_insert_self _ _
  rw [hleft, Finset.card_erase_add_one hmem]

/-- From a value of the document on, the loop takes at most one pass for each reference of the
document that has not been followed, and one to end. -/
theorem within_followFrom (seen : List String) (v : Value) (hv : texts v ⊆ texts root) :
    within root location (((texts root).toFinset \ seen.toFinset).card + 1) ⟨seen, v⟩ =
      some (followFrom root location seen v hv) := by
  induction seen, v, hv using followFrom.induct root with
  | case1 seen v hv href =>
    rw [within_succ_of_ends (pass_of_text?_eq_none href), followFrom_of_text?_eq_none href]
  | case2 seen v hv ref href hseen =>
    rw [within_succ_of_ends (pass_of_mem href (List.contains_iff_mem.mp hseen)),
      followFrom_of_mem href hseen]
  | case3 seen v hv ref href hseen error hnext =>
    have hnew : ref ∉ seen := fun h => hseen (List.contains_iff_mem.mpr h)
    rw [within_succ_of_ends (pass_of_resolve_eq_error href hnew hnext),
      followFrom_of_resolve href hseen]
    split
    · rename_i error' hnext'
      rw [Except.error.inj (hnext.symm.trans hnext')]
    · rename_i next hnext'
      cases hnext.symm.trans hnext'
  | case4 seen v hv ref href hseen next hnext ih =>
    have hnew : ref ∉ seen := fun h => hseen (List.contains_iff_mem.mpr h)
    have hmem : ref ∈ (texts root).toFinset := List.mem_toFinset.mpr (hv (text?_mem_texts href))
    rw [within_succ_of_goesOn (pass_of_resolve_eq_ok href hnew hnext), card_left hmem hnew, ih,
      followFrom_of_resolve href hseen]
    split
    · rename_i error hnext'
      cases hnext.symm.trans hnext'
    · rename_i next' hnext'
      obtain rfl := Except.ok.inj (hnext.symm.trans hnext')
      rfl

/-- The loop takes at most one pass for each known reference, and one to end. -/
theorem within_follow (root : Value) (location : String) (v : Value) :
    within root location ((known root v).card + 1) ⟨[], v⟩ = some (follow root location v) := by
  rw [follow.eq_def]
  split
  · rename_i href
    exact within_succ_of_ends (pass_of_text?_eq_none href)
  · rename_i ref href
    split
    · rename_i error hnext
      exact within_succ_of_ends (pass_of_resolve_eq_error href List.not_mem_nil hnext)
    · rename_i next hnext
      rw [within_succ_of_goesOn (pass_of_resolve_eq_ok href List.not_mem_nil hnext),
        card_known href]
      exact within_followFrom [ref] next _

/-! ## What is returned -/

/-- Where a chain comes to is where it starts, or a place that a reference names. -/
theorem eq_or_exists_resolve {w : Value} (h : ReflTransGen (Leads root) v w) :
    w = v ∨ ∃ ref, Pointer.resolve ref root = .ok w := by
  rcases ReflTransGen.cases_tail h with heq | ⟨u, -, ref, -, hresolve⟩
  · exact Or.inl heq
  · exact Or.inr ⟨ref, hresolve⟩

/-- An object that a value leads to is no reference, and it is the value or stands at a place that a
reference names. -/
theorem of_follow_eq_object {entries : Entries} (h : follow root location v = .object entries) :
    Value.lookup? "$ref" entries = none ∧
      (.map entries = v ∨ ∃ ref, Pointer.resolve ref root = .ok (.map entries)) := by
  rcases follow_cases root location v with ⟨w, hends, heq⟩ | ⟨_, -, heq⟩ | ⟨_, -, heq⟩
  · rw [h] at heq
    obtain rfl : w = .map entries := by
      cases w with
      | map others => rw [Outcome.object.inj heq]
      | _ => cases heq
    refine ⟨?_, eq_or_exists_resolve hends.1⟩
    exact Option.map_eq_none_iff.mp hends.2
  · rw [h] at heq
    cases heq
  · rw [h] at heq
    cases heq

/-- References are followed in time.  The loop ends after at most one pass more than there are
references in the document, the one at the start included.  What is returned is nothing, or an
object that is no reference, which is the value at the start or stands at a place that a reference
names. -/
structure FollowsInTime (root : Value) (location : String) (v : Value) : Prop where
  passes : within root location ((known root v).card + 1) ⟨[], v⟩ =
    some (follow root location v)
  returns : ∃ found notes, Document.dereference root location v = .ok (found, notes) ∧
    ∀ w ∈ found, (∃ entries, w = .map entries ∧ Value.lookup? "$ref" entries = none) ∧
      (w = v ∨ ∃ ref, Pointer.resolve ref root = .ok w)

/-- So it is in every document, from every value. -/
theorem follow_inTime (root : Value) (location : String) (v : Value) :
    FollowsInTime root location v where
  passes := within_follow root location v
  returns := by
    obtain ⟨notes, hread⟩ := Document.exists_dereference_eq root location v
    refine ⟨_, notes, hread, fun w hw => ?_⟩
    rw [Document.component?] at hw
    split at hw
    · rename_i entries hobject
      obtain rfl := Option.some_inj.mp hw
      obtain ⟨hnone, hplace⟩ := of_follow_eq_object hobject
      exact ⟨⟨entries, rfl, hnone⟩, hplace⟩
    · cases hw

/-- The bound is met by a reference that leads to itself: one pass follows it, and one meets it
again. -/
example : (within (.map [(.text "a", .map [(.text "$ref", .text "#/a")])]) "" 1
      ⟨[], .map [(.text "$ref", .text "#/a")]⟩).isNone = true ∧
    (known (.map [(.text "a", .map [(.text "$ref", .text "#/a")])])
      (.map [(.text "$ref", .text "#/a")])).card = 1 := by
  decide +kernel

end TypedClient.Reference
