import TypedClient.Pointer
import TypedClient.Problem
import TypedClient.Value.Display

/-!
# References to reusable components

A path item, parameter, request body or response may be given by a reference to another place of
the document, and what stands there may be a reference again.  Each further reference is one that
stands in the document itself, so a chain that never repeats a reference comes to an end.

* `Reference.texts`: the references that stand anywhere in a value.
* `Reference.follow`: what a chain of references leads to.
* `Reference.texts_subset_of_resolve`: the references at a place of the document are references of
  the document.
-/

namespace TypedClient.Reference

/-- The reference that a value consists of, if it is one. -/
def text? : Value → Option String
  | .map entries => (Value.lookup? "$ref" entries).map Value.display
  | _ => none

mutual

/-- The references that stand anywhere in a value. -/
def texts : Value → List String
  | .map entries =>
    ((Value.lookup? "$ref" entries).map Value.display).toList ++ textsOfEntries entries
  | .list items => textsOfItems items
  | _ => []

/-- The references in the elements of a list. -/
def textsOfItems : List Value → List String
  | [] => []
  | v :: rest => texts v ++ textsOfItems rest

/-- The references in the entries of a map. -/
def textsOfEntries : List (Value × Value) → List String
  | [] => []
  | (_, v) :: rest => texts v ++ textsOfEntries rest

end

theorem text?_mem_texts {v : Value} {ref : String} (h : text? v = some ref) : ref ∈ texts v := by
  cases v <;> simp_all [text?, texts]

theorem texts_subset_of_mem_items {v : Value} {items : List Value} (h : v ∈ items) :
    texts v ⊆ textsOfItems items := by
  induction items with
  | nil => simp at h
  | cons w rest ih =>
    intro ref href
    simp only [textsOfItems, List.mem_append]
    rcases List.mem_cons.mp h with rfl | hmem
    · exact Or.inl href
    · exact Or.inr (ih hmem href)

theorem texts_subset_of_lookup? {key : String} {v : Value} {entries : Entries}
    (h : Value.lookup? key entries = some v) : texts v ⊆ textsOfEntries entries := by
  induction entries with
  | nil => simp [Value.lookup?] at h
  | cons entry rest ih =>
    obtain ⟨k, w⟩ := entry
    intro ref href
    simp only [textsOfEntries, List.mem_append]
    simp only [Value.lookup?] at h
    split at h
    · split at h
      · obtain rfl := Option.some.inj h
        exact Or.inl href
      · exact Or.inr (ih h href)
    · exact Or.inr (ih h href)

theorem mem_of_element? {items : List Value} {index : Int} {v : Value}
    (h : Pointer.element? items index = some v) : v ∈ items := by
  unfold Pointer.element? at h
  split at h
  · exact List.mem_of_getElem? h
  · split at h
    · exact List.mem_of_getElem? h
    · simp at h

theorem texts_subset_of_enter {ref : String} {segment : List Char} {v w : Value}
    (h : Pointer.enter ref segment v = .ok w) : texts w ⊆ texts v := by
  cases v with
  | map entries =>
    simp only [Pointer.enter] at h
    split at h
    · rename_i found hget
      obtain rfl := Except.ok.inj h
      exact fun r hr => List.mem_append_right _ (texts_subset_of_lookup? hget hr)
    · simp at h
  | list items =>
    simp only [Pointer.enter] at h
    split at h
    · rename_i found hget
      obtain rfl := Except.ok.inj h
      obtain ⟨index, _, helem⟩ := Option.bind_eq_some_iff.mp hget
      exact texts_subset_of_mem_items (mem_of_element? helem)
    · simp at h
  | _ => simp [Pointer.enter] at h

theorem texts_subset_of_path {ref : String} {path : List (List Char)} {v w : Value}
    (h : Pointer.follow ref path v = .ok w) : texts w ⊆ texts v := by
  induction path generalizing v with
  | nil =>
    obtain rfl := Except.ok.inj h
    exact fun _ hr => hr
  | cons segment path ih =>
    simp only [Pointer.follow] at h
    cases hstep : Pointer.enter ref segment v with
    | error e => simp [hstep, bind, Except.bind] at h
    | ok next =>
      simp only [hstep, bind, Except.bind] at h
      exact fun r hr => texts_subset_of_enter hstep (ih h hr)

/-- The references at a place of the document are references of the document. -/
theorem texts_subset_of_resolve {ref : String} {root v : Value}
    (h : Pointer.resolve ref root = .ok v) : texts v ⊆ texts root := by
  unfold Pointer.resolve at h
  split at h
  · exact texts_subset_of_path h
  · simp at h

/-! ## Following a chain -/

/-- What a chain of references leads to: an object, nothing, or a note on why it is left out. -/
inductive Outcome where
  | object (entries : Entries)
  | nothing
  | dropped (note : Diagnostic)
deriving Repr, BEq

/-- A note on a component that was left out. -/
def note (code message location : String) : Diagnostic :=
  ⟨.warning, code, message, location⟩

/-- The end of a chain: an object stays, null is nothing, any other value is noted. -/
def finish (location : String) : Value → Outcome
  | .map entries => .object entries
  | .null => .nothing
  | v => .dropped (note "invalid-component" ("Expected an object, got " ++ v.kindName) location)

/-- The note on a chain that comes back to a reference. -/
def circularNote (ref location : String) : Diagnostic :=
  note "circular-reference" ("Reference cycle through '" ++ ref ++ "'") location

/-- The note on a reference that leads nowhere. -/
def unresolvedNote (error : Pointer.Error) (location : String) : Diagnostic :=
  note "unresolved-reference" error.message location

/-- The references of the document that have not been followed. -/
def unseen (root : Value) (seen : List String) : List String :=
  (texts root).filter fun r => !seen.contains r

theorem length_unseen_lt {root : Value} {seen : List String} {ref : String}
    (hmem : ref ∈ texts root) (hnew : seen.contains ref = false) :
    (unseen root (ref :: seen)).length < (unseen root seen).length := by
  have hsub : unseen root (ref :: seen) = (unseen root seen).filter fun r => r != ref := by
    simp only [unseen, List.filter_filter]
    congr 1
    funext r
    by_cases h : r = ref <;> simp [h]
  rw [hsub]
  refine List.length_filter_lt_length_iff_exists.mpr ⟨ref, ?_, by simp⟩
  simp only [unseen, List.mem_filter]
  exact ⟨hmem, by rw [hnew]; rfl⟩

/-- What a value of the document leads to after the references in `seen` have been followed. -/
def followFrom (root : Value) (location : String) (seen : List String) (v : Value)
    (_hv : texts v ⊆ texts root) : Outcome :=
  match _href : text? v with
  | none => finish location v
  | some ref =>
    if _hseen : seen.contains ref then .dropped (circularNote ref location)
    else
      match hnext : Pointer.resolve ref root with
      | .error e => .dropped (unresolvedNote e location)
      | .ok next =>
        followFrom root location (ref :: seen) next (texts_subset_of_resolve hnext)
termination_by (unseen root seen).length
decreasing_by
  exact length_unseen_lt (_hv (text?_mem_texts _href)) (by simpa using _hseen)

/-- What a value leads to, references in it being looked up in the document. -/
def follow (root : Value) (location : String) (v : Value) : Outcome :=
  match text? v with
  | none => finish location v
  | some ref =>
    match hnext : Pointer.resolve ref root with
    | .error e => .dropped (unresolvedNote e location)
    | .ok next => followFrom root location [ref] next (texts_subset_of_resolve hnext)

end TypedClient.Reference
