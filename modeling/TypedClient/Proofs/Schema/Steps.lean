import TypedClient.Proofs.Schema.Trails

/-!
# The steps of a trail through the document

A turn takes steps through the document, by keys of maps and by positions of lists, and mapping puts a
segment into the location for each of them.  A turn to the object with one of its types alone leads
to no value of the document, and one to an entry beside those under texts takes no steps.  The
segment that is written for a step need not be read as that step: a composition may be written under
another keyword, and a name may hold slashes or tildes.

* `Turn.steps?`, `steps?`: the steps of turns, each with the segment that is written for it.
* `Leads.valueAt?_eq`: the steps lead to where the turns lead.
* `Turn.IsPlain`: a turn whose segments are read as its steps.
* `isPlain_iff`: what that means for the steps of all turns.
-/

namespace TypedClient

open Pointer (Step valueAt?)

namespace Schema

variable {turn : Turn} {turns : List Turn} {pairs : List (Step × String)} {u v w : Value}

/-! ## Steps through the document -/

/-- The steps that a turn takes, each with the segment that is written for it.  The object with one of
its types alone stands nowhere in the document, and entries beside those under texts stand where no
step leads. -/
def Turn.steps? : Turn → Option (List (Step × String))
  | .alternative _ => none
  | .member mode keyword index =>
    some [(.key keyword, Mapping.keyword mode), (.position index, toString index)]
  | .items => some [(.key "items", "items")]
  | .property (.under name) => some [(.key "properties", "properties"), (.key name, name)]
  | .property (.beside _) => none
  | .additional => some [(.key "additionalProperties", "additionalProperties")]

/-- The steps of turns, one after the other. -/
def steps? : List Turn → Option (List (Step × String))
  | [] => some []
  | turn :: turns => turn.steps?.bind fun first => (steps? turns).map fun rest => first ++ rest

theorem Turn.written_eq (h : turn.steps? = some pairs) : turn.written = pairs.map Prod.snd := by
  cases turn with
  | property slot =>
    cases slot with
    | under name =>
      obtain rfl := Option.some_inj.mp h
      rfl
    | beside key => cases h
  | alternative index => cases h
  | _ =>
    obtain rfl := Option.some_inj.mp h
    rfl

theorem written_eq (h : steps? turns = some pairs) :
    turns.flatMap Turn.written = pairs.map Prod.snd := by
  induction turns generalizing pairs with
  | nil =>
    obtain rfl := Option.some_inj.mp h
    rfl
  | cons turn turns ih =>
    obtain ⟨first, hfirst, h⟩ := Option.bind_eq_some_iff.mp h
    obtain ⟨rest, hrest, rfl⟩ := Option.map_eq_some_iff.mp h
    rw [List.flatMap_cons, Turn.written_eq hfirst, ih hrest, List.map_append]

theorem valueAt?_position {entries : Entries} {keyword : String} {index : ℕ}
    (h : (Value.itemsUnder entries keyword)[index]? = some v) :
    valueAt? [.key keyword, .position index] (.map entries) = some v := by
  unfold Value.itemsUnder at h
  split at h
  · rename_i items hget
    show (Value.lookup? keyword entries).bind (valueAt? [.position index]) = some v
    rw [hget, Option.bind_some]
    show items[index]?.bind (valueAt? []) = some v
    rw [h]
    rfl
  · cases h

theorem valueAt?_under {entries : Entries} {keyword name : String}
    (h : Value.lookup? name (Value.entriesUnder entries keyword) = some v) :
    valueAt? [.key keyword, .key name] (.map entries) = some v := by
  unfold Value.entriesUnder at h
  split at h
  · rename_i inner hget
    show (Value.lookup? keyword entries).bind (valueAt? [.key name]) = some v
    rw [hget, Option.bind_some]
    show (Value.lookup? name inner).bind (valueAt? []) = some v
    rw [h]
    rfl
  · cases h

theorem valueAt?_key {entries : Entries} {keyword : String}
    (h : Value.lookup? keyword entries = some v) :
    valueAt? [.key keyword] (.map entries) = some v := by
  show (Value.lookup? keyword entries).bind (valueAt? []) = some v
  rw [h]
  rfl

/-- The steps of a turn lead to where the turn leads. -/
theorem Turn.Leads.valueAt?_eq (hleads : turn.Leads v w) (h : turn.steps? = some pairs) :
    valueAt? (pairs.map Prod.fst) v = some w := by
  cases hleads with
  | alternative => cases h
  | member hshape hv =>
    obtain rfl := Option.some_inj.mp h
    exact valueAt?_position hv
  | items hget =>
    obtain rfl := Option.some_inj.mp h
    exact valueAt?_key hget
  | @property entries slot v hslot =>
    cases slot with
    | under name =>
      obtain rfl := Option.some_inj.mp h
      exact valueAt?_under hslot
    | beside key => cases h
  | additional hget =>
    obtain rfl := Option.some_inj.mp h
    exact valueAt?_key hget

/-- The steps of a trail lead to its end. -/
theorem Leads.valueAt?_eq (hleads : Leads turns v w) (h : steps? turns = some pairs) :
    valueAt? (pairs.map Prod.fst) v = some w := by
  induction hleads generalizing pairs with
  | here v =>
    obtain rfl := Option.some_inj.mp h
    rfl
  | turn hturn _ ih =>
    obtain ⟨first, hfirst, h⟩ := Option.bind_eq_some_iff.mp h
    obtain ⟨rest, hrest, rfl⟩ := Option.map_eq_some_iff.mp h
    rw [List.map_append, Pointer.valueAt?_append, hturn.valueAt?_eq hfirst, Option.bind_some]
    exact ih hrest

/-! ## Plain turns -/

/-- What stands under a name that is read as it is written. -/
def Slot.IsPlain : Slot → Prop
  | .under name => (Step.key name).ReadFrom name
  | .beside _ => False

/-- The turn is to a value that stands in the document itself, and the location names it by its
keyword, by a name that is read as it is written or by a position that is not too long to be read. -/
def Turn.IsPlain : Turn → Prop
  | .alternative _ => False
  | .member mode keyword index =>
    keyword = Mapping.keyword mode ∧ (Step.position index).IsShort
  | .items => True
  | .property slot => slot.IsPlain
  | .additional => True

/-- The step stands in the document as it is written. -/
def IsFaithful (p : Step × String) : Prop := p.1.ReadFrom p.2 ∧ p.1.IsShort

theorem isFaithful_key_iff {name segment : String} : IsFaithful (.key name, segment) ↔
    '/' ∉ segment.toList ∧ Pointer.unescape segment.toList = name.toList :=
  and_iff_left trivial

theorem isFaithful_keyword_iff {mode : Composition} {keyword : String} :
    IsFaithful (.key keyword, Mapping.keyword mode) ↔ keyword = Mapping.keyword mode := by
  rw [isFaithful_key_iff, ← String.toList_inj, eq_comm (a := keyword.toList)]
  cases mode <;> exact and_iff_right (by decide)

/-- A turn is plain exactly if its steps stand in the document as they are written. -/
theorem Turn.isPlain_iff (h : turn.steps? = some pairs) :
    turn.IsPlain ↔ ∀ p ∈ pairs, IsFaithful p := by
  cases turn with
  | alternative index => cases h
  | member mode keyword index =>
    obtain rfl := Option.some_inj.mp h
    rw [List.forall_mem_cons, List.forall_mem_singleton, isFaithful_keyword_iff]
    exact and_congr_right fun _ => (and_iff_right (Pointer.readFrom_position index)).symm
  | items =>
    obtain rfl := Option.some_inj.mp h
    rw [List.forall_mem_singleton, isFaithful_key_iff]
    exact iff_of_true trivial (by decide)
  | property slot =>
    cases slot with
    | under name =>
      obtain rfl := Option.some_inj.mp h
      rw [List.forall_mem_cons, List.forall_mem_singleton, isFaithful_key_iff]
      have hkeyword : '/' ∉ "properties".toList ∧
          Pointer.unescape "properties".toList = "properties".toList := by decide
      rw [and_iff_right hkeyword]
      exact (and_iff_left trivial).symm
    | beside key => cases h
  | additional =>
    obtain rfl := Option.some_inj.mp h
    rw [List.forall_mem_singleton, isFaithful_key_iff]
    exact iff_of_true trivial (by decide)

theorem Turn.exists_steps (h : turn.IsPlain) : ∃ pairs, turn.steps? = some pairs := by
  cases turn with
  | alternative index => exact absurd h id
  | property slot =>
    cases slot with
    | under name => exact ⟨_, rfl⟩
    | beside key => exact absurd h id
  | _ => exact ⟨_, rfl⟩

/-- Turns are plain exactly if their steps stand in the document as they are written. -/
theorem isPlain_iff (h : steps? turns = some pairs) :
    (∀ turn ∈ turns, turn.IsPlain) ↔ ∀ p ∈ pairs, IsFaithful p := by
  induction turns generalizing pairs with
  | nil =>
    obtain rfl := Option.some_inj.mp h
    exact iff_of_true (List.forall_mem_nil _) (List.forall_mem_nil _)
  | cons turn turns ih =>
    obtain ⟨first, hfirst, h⟩ := Option.bind_eq_some_iff.mp h
    obtain ⟨rest, hrest, rfl⟩ := Option.map_eq_some_iff.mp h
    rw [List.forall_mem_cons, List.forall_mem_append, Turn.isPlain_iff hfirst, ih hrest]

theorem exists_steps (h : ∀ turn ∈ turns, turn.IsPlain) : ∃ pairs, steps? turns = some pairs := by
  induction turns with
  | nil => exact ⟨[], rfl⟩
  | cons turn turns ih =>
    rw [List.forall_mem_cons] at h
    obtain ⟨first, hfirst⟩ := Turn.exists_steps h.1
    obtain ⟨rest, hrest⟩ := ih h.2
    exact ⟨first ++ rest, by rw [steps?, hfirst, hrest]; rfl⟩

end Schema

end TypedClient
