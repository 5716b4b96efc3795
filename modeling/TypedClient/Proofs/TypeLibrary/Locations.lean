import TypedClient.Proofs.Document.Noting
import TypedClient.Proofs.Schema.Steps
import TypedClient.Proofs.TypeLibrary.References

/-!
# Where the notes of the type library point

A note on a schema without a type names a location, which is put together from the turns that lead to
the schema, not from the places of the document.  The two differ where a turn leads to no value of
the document, where a composition is written under another keyword than the one that is put into the
location, and where a name is not read as it is written.

* `Schema.LacksType`: a value that is read as a schema without a type.
* `Trail`: the way from the root of a document to a value in the tree of one of its schemas.
* `Trail.PointsTo`: a location leads to the end of a trail, step by step.
* `Trail.pointsTo_iff`: the location of a trail does so exactly if the trail is plain.
* `notes_located`: every note on a schema without a type has the location of the trail to it.
* `not_located_anyOf`: a location that leads nowhere.
-/

namespace TypedClient

open Pointer (Step location segmentsOf valueAt? resolve)
open Schema (Slot Turn)

/-- The value is read as a schema without a type, for a reason that is noted. -/
def Schema.LacksType (v : Value) : Prop :=
  ∃ s reason, Schema.ofValue v = .ok s ∧ Mapping.gap? s = some reason

/-- A way from the root of a document to a value in the tree of one of its schemas: the schema's
entry, and the turns from there. -/
structure Trail where
  slot : Slot
  turns : List Turn

namespace Trail

variable {trail : Trail} {root w : Value} {pairs : List (Step × String)}

/-- The schemas of the document have the entry, and the turns lead from there to the value. -/
def Leads (trail : Trail) (root w : Value) : Prop :=
  ∃ schemas v, (root.getD "components").getD "schemas" = .map schemas ∧
    trail.slot.Holds schemas v ∧ Schema.Leads trail.turns v w

/-- The segments of the location. -/
def written (trail : Trail) : List String :=
  ["components", "schemas", trail.slot.shown] ++ trail.turns.flatMap Turn.written

/-- The steps from the root, each with the segment that is written for it. -/
def steps? (trail : Trail) : Option (List (Step × String)) :=
  match trail.slot with
  | .under name => (Schema.steps? trail.turns).map fun pairs =>
      [(.key "components", "components"), (.key "schemas", "schemas"), (.key name, name)] ++ pairs
  | .beside _ => none

/-- Every segment of the location is read as the step for which it was written. -/
structure IsPlain (trail : Trail) : Prop where
  slot : trail.slot.IsPlain
  turns : ∀ turn ∈ trail.turns, turn.IsPlain

/-- The place is cut into the steps of the trail, and so leads to the value at its end. -/
def PointsTo (trail : Trail) (root : Value) (place : String) (w : Value) : Prop :=
  ∃ pairs, trail.steps? = some pairs ∧
    segmentsOf place = (pairs.map Prod.fst).map Step.segment ∧ resolve place root = .ok w

theorem exists_steps (h : trail.IsPlain) : ∃ pairs, trail.steps? = some pairs := by
  obtain ⟨slot, turns⟩ := trail
  obtain ⟨pairs, hpairs⟩ := Schema.exists_steps h.turns
  cases slot with
  | under name => exact ⟨_, by rw [steps?, hpairs]; rfl⟩
  | beside key => exact absurd h.slot id

theorem isPlain_iff (h : trail.steps? = some pairs) :
    trail.IsPlain ↔ ∀ p ∈ pairs, Schema.IsFaithful p := by
  obtain ⟨slot, turns⟩ := trail
  cases slot with
  | beside key => cases h
  | under name =>
    obtain ⟨rest, hrest, rfl⟩ := Option.map_eq_some_iff.mp h
    have hslot : (Slot.under name).IsPlain ↔ Schema.IsFaithful (.key name, name) :=
      (and_iff_left trivial).symm
    have hhead : Schema.IsFaithful (.key "components", "components") ∧
        Schema.IsFaithful (.key "schemas", "schemas") :=
      ⟨Schema.isFaithful_key_iff.mpr (by decide), Schema.isFaithful_key_iff.mpr (by decide)⟩
    rw [List.forall_mem_append, List.forall_mem_cons, List.forall_mem_cons,
      List.forall_mem_singleton, and_iff_right hhead.1, and_iff_right hhead.2, ← hslot,
      ← Schema.isPlain_iff hrest]
    exact ⟨fun h => ⟨h.slot, h.turns⟩, fun h => ⟨h.1, h.2⟩⟩

theorem written_eq (h : trail.steps? = some pairs) : trail.written = pairs.map Prod.snd := by
  obtain ⟨slot, turns⟩ := trail
  cases slot with
  | beside key => cases h
  | under name =>
    obtain ⟨rest, hrest, rfl⟩ := Option.map_eq_some_iff.mp h
    rw [written, Schema.written_eq hrest, List.map_append]
    rfl

theorem take?_of_getD_eq_map {v : Value} {key : String} {inner : Entries}
    (h : v.getD key = .map inner) : (Step.key key).take? v = some (.map inner) := by
  cases v with
  | map entries =>
    show Value.lookup? key entries = some (.map inner)
    rw [Value.getD, Value.get?] at h
    rcases hget : Value.lookup? key entries with _ | u
    · rw [hget] at h
      cases h
    · rw [hget, Option.getD_some] at h
      rw [h]
  | _ => cases h

theorem Leads.valueAt?_eq (hleads : trail.Leads root w) (h : trail.steps? = some pairs) :
    valueAt? (pairs.map Prod.fst) root = some w := by
  obtain ⟨slot, turns⟩ := trail
  obtain ⟨schemas, v, hschemas, hslot, hturns⟩ := hleads
  cases slot with
  | beside key => cases h
  | under name =>
    obtain ⟨rest, hrest, rfl⟩ := Option.map_eq_some_iff.mp h
    have hcomponents : ∃ components, root.getD "components" = .map components := by
      cases hget : root.getD "components" with
      | map components => exact ⟨components, rfl⟩
      | _ =>
        rw [hget] at hschemas
        cases hschemas
    obtain ⟨components, hcomponents⟩ := hcomponents
    rw [hcomponents] at hschemas
    rw [List.map_append, Pointer.valueAt?_append]
    show (((Step.key "components").take? root).bind fun u => ((Step.key "schemas").take? u).bind
      fun u => ((Step.key name).take? u).bind some).bind _ = _
    rw [take?_of_getD_eq_map hcomponents, Option.bind_some, take?_of_getD_eq_map hschemas,
      Option.bind_some, show (Step.key name).take? (.map schemas) = some v from hslot]
    exact hturns.valueAt?_eq hrest

/-- The location that is written for a trail points to its end exactly if the trail is plain. -/
theorem pointsTo_iff (hleads : trail.Leads root w) :
    trail.PointsTo root (location trail.written) w ↔ trail.IsPlain := by
  have hpoints : ∀ pairs, trail.steps? = some pairs →
      (segmentsOf (location trail.written) = (pairs.map Prod.fst).map Step.segment ∧
        resolve (location trail.written) root = .ok w ↔ trail.IsPlain) := by
    intro pairs hpairs
    have hne : pairs ≠ [] := by
      rintro rfl
      cases written_eq hpairs
    rw [isPlain_iff hpairs, written_eq hpairs]
    exact Pointer.resolve_location_iff hne (hleads.valueAt?_eq hpairs)
  constructor
  · rintro ⟨pairs, hpairs, h⟩
    exact (hpoints pairs hpairs).mp h
  · intro hplain
    obtain ⟨pairs, hpairs⟩ := exists_steps hplain
    exact ⟨pairs, hpairs, (hpoints pairs hpairs).mpr hplain⟩

end Trail

/-! ## The schemas of a document -/

/-- A value that is no object is read as a schema without a type. -/
theorem Schema.lacksType_of_not_map {v : Value} (h : ∀ entries, v ≠ .map entries) :
    Schema.LacksType v := by
  have hreason : ("expected an object, got " ++ v.kindName).isEmpty = false := by
    rw [← Bool.not_eq_true, String.isEmpty_iff, ← String.toList_inj, String.toList_append]
    exact List.append_ne_nil_of_left_ne_nil (by decide) _
  refine ⟨.untyped ("expected an object, got " ++ v.kindName) false,
    "expected an object, got " ++ v.kindName, ?_, ?_⟩
  · rw [Schema.ofValue]
    exact h
  · rw [Mapping.gap?, hreason, if_neg Bool.false_ne_true]

namespace Document

/-- Every schema is read of an entry, or has been there before; an entry that is no object gives a
schema without a type, whatever it is read as. -/
theorem exists_entry_of_schema {found schemas : Named Schema} {entries : Entries}
    {notes : List Diagnostic} {p : String × Schema}
    (h : readSchemas found entries = .ok (schemas, notes)) (hp : p ∈ schemas) :
    p ∈ found ∨ ∃ key v, (key, v) ∈ entries ∧ key.display = p.1 ∧
      (Schema.ofValue v = .ok p.2 ∨
        Schema.LacksType v ∧ ∃ reason nullable, p.2 = .untyped reason nullable) := by
  induction entries generalizing found notes with
  | nil =>
    rw [readSchemas] at h
    obtain ⟨rfl, -⟩ := Prod.mk.inj (Except.ok.inj h)
    exact Or.inl hp
  | cons entry rest ih =>
    obtain ⟨key, v⟩ := entry
    -- What holds of the entry and of what has been there holds of all that is there then.
    have hstep : ∀ {schema : Schema} {more : List Diagnostic},
        readSchemas (found.put key.display schema) rest = .ok (schemas, more) →
        (Schema.ofValue v = .ok schema ∨
          Schema.LacksType v ∧ ∃ reason nullable, schema = .untyped reason nullable) →
        p ∈ found ∨ ∃ key' v', (key', v') ∈ (key, v) :: rest ∧ key'.display = p.1 ∧
          (Schema.ofValue v' = .ok p.2 ∨
            Schema.LacksType v' ∧ ∃ reason nullable, p.2 = .untyped reason nullable) := by
      intro schema more hrest hschema
      rcases ih hrest with hput | ⟨key', v', hmem, hfound⟩
      · rcases Named.mem_of_mem_put hput with rfl | hfound
        · exact Or.inr ⟨key, v, List.mem_cons_self, rfl, hschema⟩
        · exact Or.inl hfound
      · exact Or.inr ⟨key', v', List.mem_cons_of_mem _ hmem, hfound⟩
    rw [readSchemas.eq_def] at h
    dsimp only at h
    split at h
    · obtain ⟨schema, hquiet, more, hschema, hrest, -⟩ := Noting.bind_eq_ok h
      exact hstep hrest (Or.inl (Noting.quiet_eq_ok hschema))
    · rename_i hother
      obtain ⟨-, -, more, -, hrest, -⟩ := Noting.bind_eq_ok h
      exact hstep hrest (Or.inr ⟨Schema.lacksType_of_not_map hother, _, _, rfl⟩)

/-- The schemas of a document that was read are those of its map of schemas. -/
theorem exists_schemas_of_ofValue {root : Value} {version : String} {doc : Document}
    (h : ofValue root version = .ok doc) {p : String × Schema} (hp : p ∈ doc.schemas) :
    ∃ entries notes, (root.getD "components").getD "schemas" = .map entries ∧
      readSchemas [] entries = .ok (doc.schemas, notes) := by
  obtain ⟨notes, _, hlibrary, -⟩ := parts_of_ofValue h
  rw [readLibrary.eq_def] at hlibrary
  split at hlibrary
  · rename_i entries hentries
    exact ⟨entries, notes, hentries, hlibrary⟩
  · obtain ⟨hnone, -⟩ := Prod.mk.inj (Except.ok.inj hlibrary)
    rw [← hnone] at hp
    exact absurd hp List.not_mem_nil

end Document

namespace TypeLibrary

open Document (schemaLocation)

variable {lib : Library} {modifiers : Bool} {d : Diagnostic}

/-- A note on a schema without a type is one that mapping raises of a schema of the library. -/
theorem exists_raises_of_mem (hd : d ∈ (declarations lib modifiers).2)
    (hcode : d.code = Mapping.unsupportedCode) :
    ∃ p ∈ lib.schemas, Mapping.Raises d (schemaLocation p.1) p.2 := by
  obtain ⟨declared, hdeclared, hd⟩ := List.mem_flatMap.mp hd
  obtain ⟨⟨name, schema⟩, hmem, rfl⟩ := List.mem_map.mp hdeclared
  refine ⟨(name, schema), hmem, ?_⟩
  dsimp only at hd
  rcases Outcome.ok_or_error (Mapping.map lib { markModifiers := modifiers } (schemaLocation name)
    schema) with ⟨mapped, hmap⟩ | ⟨error, hmap⟩
  · rw [declaration_of_map_eq_ok hmap] at hd
    exact Mapping.raises_of_mem_notes schema hmap d hd
  · rw [declaration_of_map_eq_error hmap, List.mem_singleton] at hd
    rw [hd] at hcode
    have hreference : error.code ≠ Mapping.unsupportedCode := by
      cases error <;> exact of_decide_eq_true rfl
    exact absurd hcode hreference

theorem schemaLocation_eq (name : String) :
    schemaLocation name = location ["components", "schemas", name] := by
  have hlocation : location ["components", "schemas", name] =
      "#/" ++ ("components" ++ "/" ++ ("schemas" ++ "/" ++ name)) := by
    rw [location, Text.joinWith_cons_cons, Text.joinWith_cons_cons, Text.joinWith_singleton]
  rw [hlocation, ← source_eq, ← String.toList_inj]
  simp

/-- Every note on a schema without a type has the location of a trail that leads to a value which is
read as such a schema.  It points to this value exactly if the trail is plain. -/
theorem notes_located {root : Value} {version : String} {doc : Document}
    (hdoc : Document.ofValue root version = .ok doc) (modifiers : Bool) {d : Diagnostic}
    (hd : d ∈ (declarations ⟨doc.schemas⟩ modifiers).2) (hcode : d.code = Mapping.unsupportedCode) :
    ∃ (trail : Trail) (w : Value), trail.Leads root w ∧ Schema.LacksType w ∧
      d.location = location trail.written ∧
      (trail.PointsTo root d.location w ↔ trail.IsPlain) := by
  obtain ⟨p, hp, hraises⟩ := exists_raises_of_mem hd hcode
  obtain ⟨entries, notes, hentries, hread⟩ := Document.exists_schemas_of_ofValue hdoc hp
  rcases Document.exists_entry_of_schema hread hp with hnil | ⟨key, v, hmem, hkey, hschema⟩
  · exact absurd hnil List.not_mem_nil
  obtain ⟨slot, hslot, hshown⟩ := Schema.exists_slot hmem
  have hplace : schemaLocation p.1 = location ["components", "schemas", slot.shown] := by
    rw [schemaLocation_eq, hshown, hkey]
  -- It is enough to find the turns that lead from the entry to a schema without a type.
  suffices hturns : ∃ turns w, Schema.Leads turns v w ∧ Schema.LacksType w ∧
      d.location = location (["components", "schemas", slot.shown] ++
        turns.flatMap Turn.written) by
    obtain ⟨turns, w, hleads, hlacks, hlocation⟩ := hturns
    have htrail : Trail.Leads ⟨slot, turns⟩ root w := ⟨entries, v, hentries, hslot, hleads⟩
    refine ⟨⟨slot, turns⟩, w, htrail, hlacks, hlocation, ?_⟩
    rw [hlocation]
    exact Trail.pointsTo_iff htrail
  rcases hschema with hschema | ⟨hlacks, reason, nullable, huntyped⟩
  · obtain ⟨turns, w, s, reason, hleads, hw, hgap, rfl⟩ :=
      Schema.traced_of_raises hraises (List.cons_ne_nil _ _) hplace hschema
    exact ⟨turns, w, hleads, ⟨s, reason, hw, hgap⟩, rfl⟩
  · rw [huntyped] at hraises
    cases hraises with
    | own _ hd =>
      refine ⟨[], v, .here v, hlacks, ?_⟩
      rw [hd, List.flatMap_nil, List.append_nil, ← hplace]
      rfl

/-- A file, for which there is no type. -/
def fileSchema : Value := .map [(.text "type", .text "file")]

/-- A document with the schema of an upload. -/
def uploadDocument (schema : Value) : Value :=
  .map [(.text "components", .map [(.text "schemas", .map [(.text "Upload", schema)])])]

/-- The code and the location of every note of the type library. -/
def notePlaces (root : Value) : Option (List (String × String)) :=
  (Document.ofValue root "3.0.3").toOption.map fun doc =>
    (declarations ⟨doc.schemas⟩ false).2.map fun d => (d.code, d.location)

/-- The note of a type library with one, found by its location. -/
theorem exists_note_of_places (root : Value) (place : String)
    (h : notePlaces root = some [(Mapping.unsupportedCode, place)]) :
    ∃ doc d, Document.ofValue root "3.0.3" = .ok doc ∧
      d ∈ (declarations ⟨doc.schemas⟩ false).2 ∧ d.code = Mapping.unsupportedCode ∧
      d.location = place := by
  obtain ⟨doc, hdoc, hplaces⟩ := Option.map_eq_some_iff.mp h
  obtain ⟨d, hnotes, hd⟩ := List.map_eq_singleton_iff.mp hplaces
  obtain ⟨hcode, hlocation⟩ := Prod.mk.inj hd
  exact ⟨doc, d, Outcome.toOption_eq_some_iff.mp hdoc, hnotes ▸ List.mem_singleton_self d, hcode,
    hlocation⟩

/-- An upload with a file as a property. -/
def formUpload : Value :=
  uploadDocument (.map [(.text "properties", .map [(.text "file", fileSchema)])])

/-- The note on the file has the location of a trail, and leads to the file. -/
theorem notes_located_property : ∃ doc d,
    Document.ofValue formUpload "3.0.3" = .ok doc ∧ d ∈ (declarations ⟨doc.schemas⟩ false).2 ∧
    (∃ (trail : Trail) (w : Value), trail.Leads formUpload w ∧ Schema.LacksType w ∧
      d.location = location trail.written ∧
      (trail.PointsTo formUpload d.location w ↔ trail.IsPlain)) ∧
    resolve d.location formUpload = .ok fileSchema := by
  obtain ⟨doc, d, hdoc, hd, hcode, hlocation⟩ := exists_note_of_places formUpload
    "#/components/schemas/Upload/properties/file" (by decide +kernel)
  refine ⟨doc, d, hdoc, hd, notes_located hdoc false hd hcode, ?_⟩
  rw [hlocation]
  rfl

/-- An upload that is a file, as one of the choices. -/
def choiceUpload : Value := uploadDocument (.map [(.text "anyOf", .list [fileSchema])])

/-- Not every note on a schema without a type leads to it: that on a file among several choices names
a keyword which the document does not have. -/
theorem not_located_anyOf :
    ¬ ∀ (root : Value) (version : String) (doc : Document) (modifiers : Bool) (d : Diagnostic),
      Document.ofValue root version = .ok doc → d ∈ (declarations ⟨doc.schemas⟩ modifiers).2 →
      d.code = Mapping.unsupportedCode →
      ∃ w, resolve d.location root = .ok w ∧ Schema.LacksType w := by
  intro hclaim
  obtain ⟨doc, d, hdoc, hd, hcode, hlocation⟩ := exists_note_of_places choiceUpload
    "#/components/schemas/Upload/oneOf/0" (by decide +kernel)
  obtain ⟨w, hresolve, -⟩ := hclaim _ _ doc false d hdoc hd hcode
  have hnowhere : resolve "#/components/schemas/Upload/oneOf/0" choiceUpload =
      .error (.missingKey "#/components/schemas/Upload/oneOf/0" "oneOf") := rfl
  rw [hlocation, hnowhere] at hresolve
  cases hresolve

end TypeLibrary

end TypedClient
