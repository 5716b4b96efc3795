import Mathlib.Data.Nat.Digits.Defs
import TypedClient.Proofs.Pointer.Positions
import TypedClient.Proofs.Text.Parts
import TypedClient.Schema.Reading

/-!
# Writing references

A key is written into a reference with its tildes and slashes escaped, the tildes first.  Reading
undoes the two replacements the other way round: a `~1` is always a slash then, since the tildes of
the key itself are followed by a zero.  Written keys hold no slash, so a reference is cut into what
it was joined from, and it leads to what stands at its path.

* `unescape_escape`: reading a written key.
* `Step`, `valueAt?`: paths of keys and positions, and the values that stand there.
* `schemaReference`, `reference`: the references to a named schema and to a place of the document.
* `Schema.refersTo_ofValue`: the schema that is read of a reference to a named schema.
* `reads_back`: references lead to the schema, and to the value, that they were written for.
-/

namespace TypedClient

namespace Pointer

open Script (isWhole_toDigits natOf_toDigits)

variable {v w : Value}

/-! ## Keys -/

/-- Escaping replaces the tildes, and then the slashes. -/
theorem escape_eq_replaceAll (s : List Char) :
    escape s = Text.replaceAll ['/'] ['~', '1'] (Text.replaceAll ['~'] ['~', '0'] s) := by
  rw [Text.replaceAll_singleton, Text.replaceAll_singleton, List.flatMap_assoc, escape]
  refine List.flatMap_congr fun c _ => ?_
  by_cases htilde : c = '~'
  · rw [if_pos htilde, if_pos htilde]
    rfl
  · rw [if_neg htilde, if_neg htilde, List.flatMap_singleton]

theorem escape_cons (c : Char) (s : List Char) : escape (c :: s) =
    (if c = '~' then ['~', '0'] else if c = '/' then ['~', '1'] else [c]) ++ escape s :=
  List.flatMap_cons ..

/-- Undoing the slashes leaves the tildes escaped: a zero stands behind each of them, and no `~1` is
made of one. -/
theorem replaceAll_slashes_escape (s : List Char) : Text.replaceAll ['~', '1'] ['/'] (escape s) =
    s.flatMap fun c => if c = '~' then ['~', '0'] else [c] := by
  induction s with
  | nil => rfl
  | cons c s ih =>
    rw [escape_cons, List.flatMap_cons, ← ih]
    by_cases htilde : c = '~'
    · rw [if_pos htilde, if_pos htilde, List.cons_append, List.cons_append, List.nil_append,
        Text.replaceAll_pair_of_second_ne (by decide), Text.replaceAll_pair_of_ne (by decide)]
      rfl
    · rw [if_neg htilde, if_neg htilde]
      by_cases hslash : c = '/'
      · rw [if_pos hslash, hslash, List.cons_append, List.cons_append, List.nil_append,
          Text.replaceAll_pair_hit]
      · rw [if_neg hslash, List.singleton_append, Text.replaceAll_pair_of_ne htilde]
        rfl

/-- A written key is read as the key. -/
theorem unescape_escape (s : List Char) : unescape (escape s) = s := by
  rw [unescape, replaceAll_slashes_escape]
  induction s with
  | nil => rfl
  | cons c s ih =>
    rw [List.flatMap_cons]
    by_cases htilde : c = '~'
    · rw [if_pos htilde, htilde, List.cons_append, List.cons_append, List.nil_append,
        Text.replaceAll_pair_hit, ih]
      rfl
    · rw [if_neg htilde, List.singleton_append, Text.replaceAll_pair_of_ne htilde, ih]

/-- A written key holds no slash. -/
theorem slash_notMem_escape (s : List Char) : '/' ∉ escape s := by
  intro h
  obtain ⟨c, -, hc⟩ := List.mem_flatMap.mp h
  by_cases htilde : c = '~'
  · rw [if_pos htilde] at hc
    exact absurd hc (by decide)
  · rw [if_neg htilde] at hc
    by_cases hslash : c = '/'
    · rw [if_pos hslash] at hc
      exact absurd hc (by decide)
    · rw [if_neg hslash, List.mem_singleton] at hc
      exact hslash hc.symm

/-! ## Paths -/

/-- A step of a path through a document. -/
inductive Step where
  | key (name : String)
  | position (index : ℕ)
deriving Repr, DecidableEq

/-- The segment for a step: the key itself, or the decimal numeral of the position. -/
def Step.segment : Step → List Char
  | .key name => name.toList
  | .position index => Nat.toDigits 10 index

/-- The value that a step leads to: what a map has under the key, or a list at the position. -/
def Step.take? : Step → Value → Option Value
  | .key name, .map entries => Value.lookup? name entries
  | .position index, .list items => items[index]?
  | _, _ => none

/-- The value at the end of a path. -/
def valueAt? : (path : List Step) → Value → Option Value
  | [], v => some v
  | step :: path, v => (step.take? v).bind (valueAt? path)

theorem lenient_toDigits {index : ℕ} {items : List Value} (hlimit : index < 10 ^ Text.numeralLimit)
    (hget : items[index]? = some v) : lenient (Nat.toDigits 10 index) items v := by
  have hlength : (Nat.toDigits 10 index).length ≤ Text.numeralLimit :=
    (Nat.length_toDigits_le_iff (by decide) (by decide)).mpr hlimit
  have hinteger := Text.integer_of_isWhole (isWhole_toDigits index) hlength
  rw [natOf_toDigits] at hinteger
  exact ⟨index, index, hinteger, Or.inl rfl, hget⟩

/-- The segments of a path lead to the value at its end. -/
theorem reaches_of_valueAt? {path : List Step} (h : valueAt? path v = some w)
    (hlimit : ∀ index, .position index ∈ path → index < 10 ^ Text.numeralLimit) :
    Reaches lenient (path.map Step.segment) v w := by
  induction path generalizing v with
  | nil =>
    obtain rfl := Option.some_inj.mp h
    exact .here v
  | cons step path ih =>
    obtain ⟨u, hu, hrest⟩ := Option.bind_eq_some_iff.mp h
    have hpath := ih hrest fun index hindex => hlimit index (List.mem_cons_of_mem step hindex)
    cases step with
    | key name =>
      cases v with
      | map entries => exact .key (by rw [Step.segment, String.ofList_toList]; exact hu) hpath
      | _ => cases hu
    | position index =>
      cases v with
      | list items => exact .element (lenient_toDigits (hlimit index List.mem_cons_self) hu) hpath
      | _ => cases hu

/-! ## References -/

/-- The reference to a named schema. -/
def schemaReference (name : String) : String :=
  String.ofList (schemaPlace ++ escape name.toList)

/-- The reference to the place at the end of a path. -/
def reference (path : List Step) : String :=
  "#/" ++ Text.joinWith "/" (path.map fun step => String.ofList (escape step.segment))

/-- The name is read back from a reference to a named schema. -/
theorem schemaName?_schemaReference (name : String) :
    schemaName? (schemaReference name) = some name := by
  rw [schemaName?, schemaReference, String.toList_ofList,
    if_pos (List.isPrefixOf_iff_prefix.mpr (List.prefix_append ..)), List.drop_left,
    unescape_escape, String.ofList_toList]

theorem prefix_reference (path : List Step) : ['#', '/'] <+: (reference path).toList := by
  rw [reference, String.toList_append]
  exact List.prefix_append _ _

/-- A reference is cut into the segments of its path. -/
theorem segmentsOf_reference {path : List Step} (hne : path ≠ []) :
    segmentsOf (reference path) = path.map Step.segment := by
  have hdrop : (reference path).toList.drop 2 = (Text.joinWith (String.singleton '/')
      (path.map fun step => String.ofList (escape step.segment))).toList := by
    rw [reference, String.toList_append]
    rfl
  have hslash : ∀ text ∈ path.map fun step => String.ofList (escape step.segment),
      '/' ∉ text.toList := by
    intro text htext
    obtain ⟨step, -, rfl⟩ := List.mem_map.mp htext
    rw [String.toList_ofList]
    exact slash_notMem_escape step.segment
  rw [segmentsOf, hdrop, Text.segments_joinWith (mt List.map_eq_nil_iff.mp hne) hslash,
    List.map_map, List.map_map]
  refine List.map_congr_left fun step _ => ?_
  show unescape (String.ofList (escape step.segment)).toList = step.segment
  rw [String.toList_ofList, unescape_escape]

end Pointer

/-! ## Schemas of references -/

namespace Schema

open Pointer (schemaReference schemaName?_schemaReference)

variable {name : String} {entries : Entries} {shape : Bool → Value → Except Misfit Schema}

/-- The schema is a reference to the name, or a choice of such references. -/
inductive RefersTo (name : String) : Schema → Prop
  | reference (nullable : Bool) : RefersTo name (.reference name nullable)
  | choice {members : List Schema} {nullable : Bool} (h : ∀ s ∈ members, RefersTo name s) :
      RefersTo name (.composite .one members nullable)

/-- The value is a list of several types besides null. -/
def IsSeveral (type : Value) : Prop :=
  ∃ types, type = .list types ∧ 1 < (types.filter fun t => !isNullWord t).length

mutual

/-- What is read as a reference for each type is read as references for any type. -/
theorem refersTo_byType
    (h : ∀ nullable type, shape nullable type = .ok (.reference name nullable)) :
    ∀ (type : Value) (nullable : Bool), ∃ s, byType shape nullable type = .ok s ∧
      RefersTo name s ∧ (¬ IsSeveral type → ∃ nullable', s = .reference name nullable')
  | .list types, nullable => by
    rw [byType]
    rcases hfilter : types.filter fun t => !isNullWord t with _ | ⟨t, _ | ⟨u, more⟩⟩
    · exact ⟨_, h _ _, .reference _, fun _ => ⟨_, rfl⟩⟩
    · exact ⟨_, h _ _, .reference _, fun _ => ⟨_, rfl⟩⟩
    · obtain ⟨members, hmembers, hrefer⟩ := refersTo_byTypes h types nullable
      refine ⟨.composite .one members (nullable || types.any isNullWord), ?_, .choice hrefer,
        fun hsingle => absurd ⟨types, rfl, ?_⟩ hsingle⟩
      · show byTypes shape nullable types >>= _ = _
        rw [hmembers]
        rfl
      · rw [hfilter]
        simp
  | .null, nullable | .bool _, nullable | .int _, nullable | .float _, nullable
  | .text _, nullable | .day _, nullable | .moment _, nullable | .bytes _, nullable
  | .set _, nullable | .pair _ _, nullable | .map _, nullable => by
    simp only [byType]
    exact ⟨_, h _ _, .reference _, fun _ => ⟨_, rfl⟩⟩

/-- `refersTo_byType` for the elements of a list. -/
theorem refersTo_byTypes
    (h : ∀ nullable type, shape nullable type = .ok (.reference name nullable)) :
    ∀ (types : List Value) (nullable : Bool), ∃ members,
      byTypes shape nullable types = .ok members ∧ ∀ s ∈ members, RefersTo name s
  | [], nullable => ⟨[], by rw [byTypes], List.forall_mem_nil _⟩
  | t :: rest, nullable => by
    obtain ⟨members, hmembers, hrefer⟩ := refersTo_byTypes h rest nullable
    obtain ⟨s, hs, hsrefer, -⟩ := refersTo_byType h t nullable
    rw [byTypes]
    split
    · exact ⟨members, hmembers, hrefer⟩
    · refine ⟨s :: members, ?_, List.forall_mem_cons.mpr ⟨hsrefer, hrefer⟩⟩
      rw [hs, hmembers]
      rfl

end

/-- A schema object with a reference to a named schema is read as a reference to that name.  If it
lists several types as well, it is read as a choice with that reference for each of them. -/
theorem refersTo_ofValue
    (href : Value.lookup? "$ref" entries = some (.text (schemaReference name))) :
    ∃ s, ofValue (.map entries) = .ok s ∧ RefersTo name s ∧
      (¬ IsSeveral (Value.getD (.map entries) "type") →
        ∃ nullable, s = .reference name nullable) := by
  rw [ofValue]
  refine refersTo_byType (fun nullable type => ?_) _ _
  have hgives : gives entries "$ref" = true := by rw [gives, href]; rfl
  have htarget : referenceTarget (.text (schemaReference name)) = name := by
    show (Pointer.schemaName? (schemaReference name)).getD (schemaReference name) = name
    rw [schemaName?_schemaReference, Option.getD_some]
  rw [announced, if_pos hgives]
  dsimp only
  rw [href, Option.getD_some, htarget]

end Schema

namespace Pointer

/-- What is written into a reference is read back.  Escaping is the two replacements, tildes first.
Any name is read from the reference to the schema of that name, and so a schema object with this
reference refers to just that name.  A path of keys and positions that leads to a value is written
as a reference that leads there as well; no list has elements at positions too long to be read. -/
theorem reads_back :
    (∀ s, escape s = Text.replaceAll ['/'] ['~', '1'] (Text.replaceAll ['~'] ['~', '0'] s)) ∧
    (∀ name, schemaName? (schemaReference name) = some name) ∧
    (∀ name entries, Value.lookup? "$ref" entries = some (.text (schemaReference name)) →
      ∃ s, Schema.ofValue (.map entries) = .ok s ∧ Schema.RefersTo name s ∧
        (¬ Schema.IsSeveral (Value.getD (.map entries) "type") →
          ∃ nullable, s = .reference name nullable)) ∧
    (∀ path root v, path ≠ [] → valueAt? path root = some v →
      (∀ index, .position index ∈ path → index < 10 ^ Text.numeralLimit) →
      resolve (reference path) root = .ok v) := by
  refine ⟨escape_eq_replaceAll, schemaName?_schemaReference,
    fun name entries href => Schema.refersTo_ofValue href, fun path root v hne hvalue hlimit => ?_⟩
  rw [resolve_eq_follow (prefix_reference path), segmentsOf_reference hne, follow_eq_ok_iff]
  exact reaches_of_valueAt? hvalue hlimit

/-- A document with a list behind a key with a slash, and a key in it that looks escaped. -/
def awkwardDocument : Value := .map [(.text "a/b", .list [.map [(.text "~1", .int 7)]])]

/-- The references to the entry, and to a schema with an awkward name, lead where they should. -/
theorem reads_back_awkward :
    reference [.key "a/b", .position 0, .key "~1"] = "#/a~1b/0/~01" ∧
    resolve "#/a~1b/0/~01" awkwardDocument = .ok (.int 7) ∧
    schemaReference "~1/" = "#/components/schemas/~01~1" ∧
    ∃ s, Schema.ofValue (.map [(.text "$ref", .text "#/components/schemas/~01~1")]) = .ok s ∧
      Schema.RefersTo "~1/" s := by
  have hpath : reference [.key "a/b", .position 0, .key "~1"] = "#/a~1b/0/~01" := by
    decide +kernel
  have hschema : schemaReference "~1/" = "#/components/schemas/~01~1" := by decide +kernel
  obtain ⟨-, -, hread, hreach⟩ := reads_back
  obtain ⟨s, hs, hrefer, -⟩ := hread "~1/" [(.text "$ref", .text (schemaReference "~1/"))] rfl
  rw [hschema] at hs
  have hvalue := hreach [.key "a/b", .position 0, .key "~1"] awkwardDocument (.int 7)
    (List.cons_ne_nil _ _) rfl (by
      intro index hindex
      obtain rfl : index = 0 := by simpa using hindex
      exact Nat.pow_pos (by decide))
  rw [hpath] at hvalue
  exact ⟨hpath, hvalue, hschema, s, hs, hrefer⟩

end Pointer

end TypedClient
