import TypedClient.Proofs.Mapping.Notes
import TypedClient.Proofs.Named
import TypedClient.Proofs.Pointer.Verbatim

/-!
# Trails through a schema object

The parts of a schema are read of the parts of a schema object: the members of a composition of a
list's elements, the properties of an object of a map's entries, and so on.  One of several types is
read of the whole object, with that type alone.  A trail of such turns leads from an object to a
value in its tree, and the trail to the value of a schema is found by following the schema's own
parts.

* `shapeOf`, `ofValue_map`: the schema of an object for a single type.
* `MadeOf`, `madeOf_shapeOf`: what an object gives for the parts of its schema.
* `Slot`, `Turn`, `Leads`: entries of maps, turns, and trails of turns.
* `Traced`, `traced_of_raises`: the value of a schema that mapping notes, and the note's location.
-/

namespace TypedClient.Schema

variable {entries others inner : Entries} {items members : List Schema} {v w : Value}
  {s : Schema} {nullable : Bool} {type : Value}

/-! ## Reading for a single type -/

/-- The schema of an object for a single type. -/
def shapeOf (entries : Entries) (nullable : Bool) (type : Value) : Except Misfit Schema :=
  match announced entries type with
  | .reference =>
    .ok (.reference (referenceTarget ((Value.lookup? "$ref" entries).getD .null)) nullable)
  | .composition mode keyword => do
    return .composite mode (← ofItems (Value.itemsUnder entries keyword)) nullable
  | .array =>
    match Value.lookup? "items" entries with
    | some items => do return .array (← ofValue items) nullable
    | none => .ok (.array (.untyped "" false) nullable)
  | .object => do
    let required ← requiredKeys entries
    let properties ← ofProperties required (Value.entriesUnder entries "properties") []
    let additional ← match Value.lookup? "additionalProperties" entries with
      | some v => ofAdditional v
      | none => .ok .unsaid
    return .object properties additional nullable
  | .other => primitiveOrUntyped entries nullable type

/-- An object is read by its types. -/
theorem ofValue_map (entries : Entries) : ofValue (.map entries) =
    byType (shapeOf entries) (flag (.map entries) "nullable")
      (Value.getD (.map entries) "type") := by
  rw [ofValue]
  congr 1
  funext nullable type
  rw [shapeOf]
  rcases announced entries type with _ | _ | _ | _ | _
  · rfl
  · rfl
  · dsimp only
    split <;> rename_i hget <;> rw [hget]
  · dsimp only
    congr 1
    funext required
    congr 1
    funext properties
    split <;> rename_i hget <;> rw [hget]
  · rfl

/-- The keyword of a composition is none that is read otherwise. -/
theorem ne_type_of_announced {mode : Composition} {keyword : String}
    (h : announced entries type = .composition mode keyword) : keyword ≠ "type" := by
  unfold announced at h
  split_ifs at h <;> cases h <;> decide

/-- Reading for a single type, an object's own types are passed over. -/
theorem shapeOf_congr
    (h : ∀ key, key ≠ "type" → Value.lookup? key others = Value.lookup? key entries) :
    shapeOf others = shapeOf entries := by
  funext nullable type
  have hitems : ∀ key, key ≠ "type" →
      Value.itemsUnder others key = Value.itemsUnder entries key := by
    intro key hkey
    rw [Value.itemsUnder, h key hkey, Value.itemsUnder]
  have hgives : ∀ key, key ≠ "type" → gives others key = gives entries key := by
    intro key hkey
    rw [gives, h key hkey, gives]
  have hlist : ∀ key, key ≠ "type" → givesList others key = givesList entries key := by
    intro key hkey
    rw [givesList, h key hkey, givesList]
  have hannounced : announced others type = announced entries type := by
    simp (disch := decide) only [announced, hgives, hlist]
  have hprimitive : primitiveOrUntyped others nullable type =
      primitiveOrUntyped entries nullable type := by
    simp (disch := decide) only [primitiveOrUntyped, settledType, permittedValues, ofType,
      untypedReason, hitems, h]
  have hrequired : requiredKeys others = requiredKeys entries := by
    simp (disch := decide) only [requiredKeys, hitems]
  have hproperties : Value.entriesUnder others "properties" =
      Value.entriesUnder entries "properties" := by
    simp (disch := decide) only [Value.entriesUnder, h]
  rw [shapeOf, shapeOf, hannounced, hprimitive, hrequired, hproperties, h _ (by decide),
    h _ (by decide), h _ (by decide)]
  rcases hshape : announced entries type with _ | ⟨mode, keyword⟩ | _ | _ | _
  · rfl
  · dsimp only
    rw [hitems _ (ne_type_of_announced hshape)]
  · rfl
  · rfl
  · rfl

/-- Anything but a list of types is one type. -/
theorem byType_of_single {shape : Bool → Value → Except Misfit Schema}
    (h : ∀ types, type ≠ .list types) : byType shape nullable type = shape nullable type := by
  cases type with
  | list types => exact absurd rfl (h types)
  | _ => rw [byType]; exact h

/-- A schema is read by types as one of a single type, or as a composition with a member for each of
several types. -/
theorem byType_cases {shape : Bool → Value → Except Misfit Schema}
    (h : byType shape nullable type = .ok s) :
    (∃ nullable' single, shape nullable' single = .ok s) ∨
    ∃ types members nullable', type = .list types ∧ IsSeveral type ∧
      byTypes shape nullable types = .ok members ∧ s = .composite .one members nullable' := by
  by_cases hlist : ∃ types, type = .list types
  · obtain ⟨types, rfl⟩ := hlist
    rw [byType] at h
    rcases hfilter : types.filter fun t => !isNullWord t with _ | ⟨t, _ | ⟨u, more⟩⟩
    · rw [hfilter] at h
      exact Or.inl ⟨_, _, h⟩
    · rw [hfilter] at h
      exact Or.inl ⟨_, _, h⟩
    · rw [hfilter] at h
      obtain ⟨members, hmembers, h⟩ := Outcome.bind_eq_ok_iff.mp h
      refine Or.inr ⟨types, members, _, rfl, ⟨types, rfl, ?_⟩, hmembers, (Except.ok.inj h).symm⟩
      rw [hfilter, List.length_cons, List.length_cons]
      omega
  · rw [byType_of_single fun types heq => hlist ⟨types, heq⟩] at h
    exact Or.inl ⟨_, _, h⟩

/-- The members of a composition by types are read of the types besides null, in order. -/
theorem exists_type_of_member {shape : Bool → Value → Except Misfit Schema} {types : List Value}
    {i : ℕ} (h : byTypes shape nullable types = .ok members) (hs : members[i]? = some s) :
    ∃ t, (types.filter fun t => !isNullWord t)[i]? = some t ∧ byType shape nullable t = .ok s := by
  induction types generalizing members i with
  | nil =>
    rw [byTypes] at h
    obtain rfl := Except.ok.inj h
    cases hs
  | cons t rest ih =>
    rw [byTypes] at h
    cases hnull : isNullWord t with
    | true =>
      rw [hnull, if_pos rfl] at h
      rw [List.filter_cons_of_neg (by simp [hnull])]
      exact ih h hs
    | false =>
      rw [hnull, if_neg Bool.false_ne_true] at h
      obtain ⟨first, hfirst, h⟩ := Outcome.bind_eq_ok_iff.mp h
      obtain ⟨more, hmore, h⟩ := Outcome.bind_eq_ok_iff.mp h
      obtain rfl := Except.ok.inj h
      rw [List.filter_cons_of_pos (by simp [hnull])]
      cases i with
      | zero =>
        obtain rfl := Option.some_inj.mp hs
        exact ⟨t, rfl, hfirst⟩
      | succ i => exact ih hmore hs

/-! ## The parts of a schema -/

theorem exists_item_of_member {values : List Value} {i : ℕ} (h : ofItems values = .ok members)
    (hs : members[i]? = some s) : ∃ v, values[i]? = some v ∧ ofValue v = .ok s := by
  induction values generalizing members i with
  | nil =>
    rw [ofItems] at h
    obtain rfl := Except.ok.inj h
    cases hs
  | cons v rest ih =>
    rw [ofItems] at h
    obtain ⟨first, hfirst, h⟩ := Outcome.bind_eq_ok_iff.mp h
    obtain ⟨more, hmore, h⟩ := Outcome.bind_eq_ok_iff.mp h
    obtain rfl := Except.ok.inj h
    cases i with
    | zero =>
      obtain rfl := Option.some_inj.mp hs
      exact ⟨v, rfl, hfirst⟩
    | succ i => exact ih hmore hs

/-- Every property is read of an entry, or has been there before. -/
theorem exists_entry_of_property {required : List Value}
    {found properties : Named (PropertyOf Schema)} {p : String × PropertyOf Schema}
    (h : ofProperties required inner found = .ok properties) (hp : p ∈ properties) :
    p ∈ found ∨ ∃ key v, (key, v) ∈ inner ∧ key.display = p.1 ∧ ofValue v = .ok p.2.schema := by
  induction inner generalizing found with
  | nil =>
    rw [ofProperties] at h
    obtain rfl := Except.ok.inj h
    exact Or.inl hp
  | cons entry rest ih =>
    obtain ⟨key, v⟩ := entry
    rw [ofProperties] at h
    obtain ⟨schema, hschema, h⟩ := Outcome.bind_eq_ok_iff.mp h
    rcases ih h with hput | ⟨key', v', hmem, hrest⟩
    · rcases Named.mem_of_mem_put hput with rfl | hfound
      · exact Or.inr ⟨key, v, List.mem_cons_self, rfl, hschema⟩
      · exact Or.inl hfound
    · exact Or.inr ⟨key', v', List.mem_cons_of_mem _ hmem, hrest⟩

/-- What an object gives for the parts of its schema. -/
def MadeOf (entries : Entries) : Schema → Prop
  | .composite mode members _ => ∃ type keyword, announced entries type = .composition mode keyword ∧
      ofItems (Value.itemsUnder entries keyword) = .ok members
  | .array items _ => items = .untyped "" false ∨
      ∃ v, Value.lookup? "items" entries = some v ∧ ofValue v = .ok items
  | .object properties additional _ =>
    (∃ required, ofProperties required (Value.entriesUnder entries "properties") [] =
      .ok properties) ∧
    ∀ s, additional = .schema s →
      ∃ v, Value.lookup? "additionalProperties" entries = some v ∧ ofValue v = .ok s
  | _ => True

theorem madeOf_primitiveOrUntyped (h : primitiveOrUntyped entries nullable type = .ok s) :
    MadeOf entries s := by
  rw [primitiveOrUntyped] at h
  obtain ⟨settled, -, h⟩ := Outcome.bind_eq_ok_iff.mp h
  obtain ⟨-, -, h⟩ := Outcome.bind_eq_ok_iff.mp h
  rw [← Except.ok.inj h, ofType.eq_def]
  dsimp only
  split
  · split <;> trivial
  · trivial

theorem exists_of_ofAdditional (h : ofAdditional v = .ok (.schema s)) : ofValue v = .ok s := by
  rw [ofAdditional.eq_def] at h
  split at h
  · cases h
  · cases h
  · obtain ⟨made, hmade, h⟩ := Outcome.bind_eq_ok_iff.mp h
    cases Except.ok.inj h
    exact hmade

theorem madeOf_shapeOf (h : shapeOf entries nullable type = .ok s) : MadeOf entries s := by
  rw [shapeOf] at h
  rcases hshape : announced entries type with _ | ⟨mode, keyword⟩ | _ | _ | _ <;>
    rw [hshape] at h <;> dsimp only at h
  case reference =>
    obtain rfl := Except.ok.inj h
    trivial
  case composition =>
    obtain ⟨members, hmembers, h⟩ := Outcome.bind_eq_ok_iff.mp h
    obtain rfl := Except.ok.inj h
    exact ⟨type, keyword, hshape, hmembers⟩
  case array =>
    split at h
    · rename_i v hget
      obtain ⟨items, hitems, h⟩ := Outcome.bind_eq_ok_iff.mp h
      obtain rfl := Except.ok.inj h
      exact Or.inr ⟨v, hget, hitems⟩
    · obtain rfl := Except.ok.inj h
      exact Or.inl rfl
  case object =>
    obtain ⟨required, -, h⟩ := Outcome.bind_eq_ok_iff.mp h
    obtain ⟨properties, hproperties, h⟩ := Outcome.bind_eq_ok_iff.mp h
    split at h
    · rename_i v hget
      obtain ⟨additional, hadditional, h⟩ := Outcome.bind_eq_ok_iff.mp h
      obtain rfl := Except.ok.inj h
      refine ⟨⟨required, hproperties⟩, ?_⟩
      rintro s rfl
      exact ⟨v, hget, exists_of_ofAdditional hadditional⟩
    · obtain rfl := Except.ok.inj h
      refine ⟨⟨required, hproperties⟩, ?_⟩
      rintro s ⟨⟩
  case other => exact madeOf_primitiveOrUntyped h

/-! ## Trails -/

/-- An entry of a map: what stands under a text, or an entry beside those. -/
inductive Slot where
  | under (name : String)
  | beside (key : Value)

/-- The key of the entry as it is shown. -/
def Slot.shown : Slot → String
  | .under name => name
  | .beside key => key.display

/-- The map has the entry with the value. -/
def Slot.Holds (inner : Entries) : Slot → Value → Prop
  | .under name, v => Value.lookup? name inner = some v
  | .beside key, v => (key, v) ∈ inner ∧ ∀ name, key = .text name →
      Value.lookup? name inner ≠ some v

theorem exists_slot {key : Value} (h : (key, v) ∈ inner) :
    ∃ slot : Slot, slot.Holds inner v ∧ slot.shown = key.display := by
  by_cases htext : ∃ name, key = .text name ∧ Value.lookup? name inner = some v
  · obtain ⟨name, rfl, hget⟩ := htext
    exact ⟨.under name, hget, rfl⟩
  · exact ⟨.beside key, ⟨h, fun name hname hget => htext ⟨name, hname, hget⟩⟩, rfl⟩

/-- A turn from a schema object to a value in its tree: to the object with one of its several types
alone, to a member of its composition, to its items, to one of its properties, or to the further
ones. -/
inductive Turn where
  | alternative (index : ℕ)
  | member (mode : Composition) (keyword : String) (index : ℕ)
  | items
  | property (slot : Slot)
  | additional

/-- The turn leads from one value to another. -/
inductive Turn.Leads : Turn → Value → Value → Prop
  | alternative {entries : Entries} {types : List Value} {t : Value} {index : ℕ}
      (htype : Value.getD (.map entries) "type" = .list types) (hseveral : IsSeveral (.list types))
      (ht : (types.filter fun t => !isNullWord t)[index]? = some t) :
      Leads (.alternative index) (.map entries) (.map (Value.put (.text "type") t entries))
  | member {entries : Entries} {type v : Value} {mode : Composition} {keyword : String} {index : ℕ}
      (hshape : announced entries type = .composition mode keyword)
      (hv : (Value.itemsUnder entries keyword)[index]? = some v) :
      Leads (.member mode keyword index) (.map entries) v
  | items {entries : Entries} {v : Value} (hget : Value.lookup? "items" entries = some v) :
      Leads .items (.map entries) v
  | property {entries : Entries} {slot : Slot} {v : Value}
      (hslot : slot.Holds (Value.entriesUnder entries "properties") v) :
      Leads (.property slot) (.map entries) v
  | additional {entries : Entries} {v : Value}
      (hget : Value.lookup? "additionalProperties" entries = some v) :
      Leads .additional (.map entries) v

/-- A trail of turns leads from one value to another. -/
inductive Leads : List Turn → Value → Value → Prop
  | here (v : Value) : Leads [] v v
  | turn {turn : Turn} {turns : List Turn} {v u w : Value} (h : turn.Leads v u)
      (hrest : Leads turns u w) : Leads (turn :: turns) v w

/-- The segments that mapping puts into the location at a turn. -/
def Turn.written : Turn → List String
  | .alternative index => [Mapping.keyword .one, toString index]
  | .member mode _ index => [Mapping.keyword mode, toString index]
  | .items => ["items"]
  | .property slot => ["properties", slot.shown]
  | .additional => ["additionalProperties"]

/-! ## The turns to the parts of a schema -/

/-- The object with one of its several types is read as one of several types. -/
theorem ofValue_alternative (t : Value) : ofValue (.map (Value.put (.text "type") t entries)) =
    byType (shapeOf entries) (flag (.map entries) "nullable") t := by
  have hothers : ∀ key, key ≠ "type" →
      Value.lookup? key (Value.put (.text "type") t entries) = Value.lookup? key entries :=
    fun key hkey => Value.lookup?_put_of_ne hkey t entries
  rw [ofValue_map, shapeOf_congr hothers, flag, Value.getD, Value.get?, hothers _ (by decide)]
  rw [Value.getD, Value.get?, Value.lookup?_put_self]
  rfl

/-- A schema is read of a value that is no object, or of what an object gives for its parts, unless it
is a composition with a member for each of several types. -/
theorem ofValue_cases (h : ofValue v = .ok s) :
    (∃ reason, s = .untyped reason false) ∨
    ∃ entries, v = .map entries ∧ (MadeOf entries s ∨
      ∃ types members nullable', Value.getD (.map entries) "type" = .list types ∧
        IsSeveral (.list types) ∧
        byTypes (shapeOf entries) (flag (.map entries) "nullable") types = .ok members ∧
        s = .composite .one members nullable') := by
  cases v with
  | map entries =>
    refine Or.inr ⟨entries, rfl, ?_⟩
    rw [ofValue_map] at h
    rcases byType_cases h with ⟨nullable', single, hshape⟩ |
      ⟨types, members, nullable', htype, hseveral, hmembers, hs⟩
    · exact Or.inl (madeOf_shapeOf hshape)
    · exact Or.inr ⟨types, members, nullable', htype, htype ▸ hseveral, hmembers, hs⟩
  | _ =>
    rw [ofValue] at h
    · exact Or.inl ⟨_, (Except.ok.inj h).symm⟩
    all_goals rintro _ ⟨⟩

theorem exists_turn_of_member {mode : Composition} {i : ℕ}
    (hread : ofValue v = .ok (.composite mode members nullable)) (hs : members[i]? = some s) :
    ∃ (turn : Turn) (u : Value), turn.Leads v u ∧ ofValue u = .ok s ∧
      turn.written = [Mapping.keyword mode, toString i] := by
  rcases ofValue_cases hread with ⟨reason, heq⟩ | ⟨entries, rfl, hmade | hseveral⟩
  · cases heq
  · obtain ⟨type, keyword, hannounced, hitems⟩ := hmade
    obtain ⟨u, hu, hread⟩ := exists_item_of_member hitems hs
    exact ⟨.member mode keyword i, u, .member hannounced hu, hread, rfl⟩
  · obtain ⟨types, several, nullable', htype, hseveral, hmembers, heq⟩ := hseveral
    cases heq
    obtain ⟨t, ht, hread⟩ := exists_type_of_member hmembers hs
    exact ⟨.alternative i, _, .alternative htype hseveral ht,
      (ofValue_alternative t).trans hread, rfl⟩

theorem exists_turn_of_items (hread : ofValue v = .ok (.array s nullable)) :
    s = .untyped "" false ∨ ∃ u, Turn.items.Leads v u ∧ ofValue u = .ok s := by
  rcases ofValue_cases hread with ⟨reason, heq⟩ | ⟨entries, rfl, hmade | hseveral⟩
  · cases heq
  · rcases hmade with hbare | ⟨u, hget, hread⟩
    · exact Or.inl hbare
    · exact Or.inr ⟨u, .items hget, hread⟩
  · obtain ⟨types, several, nullable', -, -, -, heq⟩ := hseveral
    cases heq

theorem exists_turn_of_property {properties : List (String × PropertyOf Schema)}
    {additional : AdditionalOf Schema} {p : String × PropertyOf Schema}
    (hread : ofValue v = .ok (.object properties additional nullable)) (hp : p ∈ properties) :
    ∃ slot u, (Turn.property slot).Leads v u ∧ ofValue u = .ok p.2.schema ∧ slot.shown = p.1 := by
  rcases ofValue_cases hread with ⟨reason, heq⟩ | ⟨entries, rfl, hmade | hseveral⟩
  · cases heq
  · obtain ⟨⟨required, hproperties⟩, -⟩ := hmade
    rcases exists_entry_of_property hproperties hp with hp | ⟨key, u, hmem, hkey, hread⟩
    · exact absurd hp List.not_mem_nil
    · obtain ⟨slot, hslot, hshown⟩ := exists_slot hmem
      exact ⟨slot, u, .property hslot, hread, hshown.trans hkey⟩
  · obtain ⟨types, several, nullable', -, -, -, heq⟩ := hseveral
    cases heq

theorem exists_turn_of_additional {properties : List (String × PropertyOf Schema)}
    (hread : ofValue v = .ok (.object properties (.schema s) nullable)) :
    ∃ u, Turn.additional.Leads v u ∧ ofValue u = .ok s := by
  rcases ofValue_cases hread with ⟨reason, heq⟩ | ⟨entries, rfl, hmade | hseveral⟩
  · cases heq
  · obtain ⟨u, hget, hread⟩ := hmade.2 s rfl
    exact ⟨u, .additional hget, hread⟩
  · obtain ⟨types, several, nullable', -, -, -, heq⟩ := hseveral
    cases heq

/-! ## The trail of a note -/

/-- A trail leads from the value to one that is read as a schema without a type, and the note is that
of this schema, with the segments of the trail behind those that are given. -/
def Traced (d : Diagnostic) (segments : List String) (v : Value) : Prop :=
  ∃ turns w s reason, Leads turns v w ∧ ofValue w = .ok s ∧ Mapping.gap? s = some reason ∧
    d = Mapping.unsupported reason (Pointer.location (segments ++ turns.flatMap Turn.written))

theorem Traced.turn {d : Diagnostic} {segments : List String} {turn : Turn} {u : Value}
    (hturn : turn.Leads v u) (h : Traced d (segments ++ turn.written) u) : Traced d segments v := by
  obtain ⟨turns, w, s, reason, hleads, hread, hgap, hd⟩ := h
  refine ⟨turn :: turns, w, s, reason, .turn hturn hleads, hread, hgap, ?_⟩
  rw [List.flatMap_cons, ← List.append_assoc]
  exact hd

/-- A note on a schema in the tree of one that was read is traced through the value that it was read
of. -/
theorem traced_of_raises {d : Diagnostic} {place : String} (h : Mapping.Raises d place s)
    {segments : List String} (hne : segments ≠ []) (hplace : place = Pointer.location segments)
    (hread : ofValue v = .ok s) : Traced d segments v := by
  induction h generalizing v segments with
  | @own place reason s hgap hd =>
    refine ⟨[], v, s, reason, .here v, hread, hgap, ?_⟩
    rw [List.flatMap_nil, List.append_nil, ← hplace]
    exact hd
  | member hs _ ih =>
    obtain ⟨turn, u, hturn, hu, hwritten⟩ := exists_turn_of_member hread hs
    refine Traced.turn hturn (ih (List.append_ne_nil_of_left_ne_nil hne _) ?_ hu)
    rw [hwritten, Pointer.location_pair hne, hplace]
  | items hraises ih =>
    rcases exists_turn_of_items hread with rfl | ⟨u, hturn, hu⟩
    · -- Items that are not given are untyped without a reason, so there is no note on them.
      cases hraises with
      | own hgap _ => cases hgap
    · refine Traced.turn hturn (ih (List.append_ne_nil_of_left_ne_nil hne _) ?_ hu)
      rw [Turn.written, Pointer.location_concat hne, hplace, String.append_assoc]
      rfl
  | property hp _ ih =>
    obtain ⟨slot, u, hturn, hu, hshown⟩ := exists_turn_of_property hread hp
    refine Traced.turn hturn (ih (List.append_ne_nil_of_left_ne_nil hne _) ?_ hu)
    have hkeyword : "/properties/" = "/" ++ "properties" ++ "/" := rfl
    rw [Turn.written, hshown, Pointer.location_pair hne, hplace, hkeyword]
    simp only [String.append_assoc]
  | additional _ ih =>
    obtain ⟨u, hturn, hu⟩ := exists_turn_of_additional hread
    refine Traced.turn hturn (ih (List.append_ne_nil_of_left_ne_nil hne _) ?_ hu)
    rw [Turn.written, Pointer.location_concat hne, hplace, String.append_assoc]
    rfl

end TypedClient.Schema
