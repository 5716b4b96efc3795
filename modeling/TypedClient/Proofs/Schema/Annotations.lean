import Mathlib.Data.List.Nodup
import Mathlib.Logic.Relation
import TypedClient.Proofs.Schema.Trails

/-!
# Annotations

A schema object is read by sixteen keywords.  Everything else in it is an annotation, and the order
of its entries says nothing.  Only in the map of the properties does the order count, since it is
that of the schema's properties.  So an edit that moves, adds or removes what says nothing, however
deep in the tree of an object, leaves every look-up of a keyword with what it had, up to parts that
are read alike; and reading an object is nothing but such look-ups.

* `keywords`, `IsAnnotation`: what schema objects are read by, and the keys that say nothing.
* `Retouched`: one edit of a schema object or of one in its tree that says nothing.
* `SameButAnnotations`: values that differ by such edits.
* `ReadAlike`, `Agree`: entries under which the same is read.
* `ofValue_congr`: maps that agree describe the same schema.
* `ofValue_eq_of_sameButAnnotations`: values that differ in annotations describe the same schema.
-/

namespace TypedClient

namespace Value

variable {entries others : Entries} {key : String} {v : Value}

theorem lookup?_cons_self (key : String) (v : Value) (entries : Entries) :
    lookup? key ((.text key, v) :: entries) = some v := by
  rw [lookup?]
  exact if_pos rfl

theorem lookup?_cons_of_ne {k : Value} (h : k ≠ .text key) (v : Value) (entries : Entries) :
    lookup? key ((k, v) :: entries) = lookup? key entries := by
  cases k with
  | text s =>
    rw [lookup?]
    exact if_neg fun hs => h (congrArg Value.text hs)
  | _ => rfl

theorem mem_of_lookup? (h : lookup? key entries = some v) : (.text key, v) ∈ entries := by
  induction entries with
  | nil => cases h
  | cons entry rest ih =>
    obtain ⟨k, w⟩ := entry
    by_cases hk : k = .text key
    · subst hk
      rw [lookup?_cons_self] at h
      obtain rfl := Option.some_inj.mp h
      exact List.mem_cons_self
    · rw [lookup?_cons_of_ne hk] at h
      exact List.mem_cons_of_mem _ (ih h)

/-- Among distinct keys there is one entry for each. -/
theorem lookup?_eq_some_iff (hdistinct : (entries.map Prod.fst).Nodup) :
    lookup? key entries = some v ↔ (.text key, v) ∈ entries := by
  refine ⟨mem_of_lookup?, fun h => ?_⟩
  induction entries with
  | nil => cases h
  | cons entry rest ih =>
    obtain ⟨k, w⟩ := entry
    rw [List.map_cons, List.nodup_cons] at hdistinct
    rcases List.mem_cons.mp h with heq | hrest
    · cases heq
      exact lookup?_cons_self _ _ _
    · have hne : k ≠ .text key := by
        rintro rfl
        exact hdistinct.1 (List.mem_map.mpr ⟨_, hrest, rfl⟩)
      rw [lookup?_cons_of_ne hne]
      exact ih hdistinct.2 hrest

/-- Entries with distinct keys are found in whatever order they stand. -/
theorem lookup?_of_perm (h : entries.Perm others) (hdistinct : (entries.map Prod.fst).Nodup)
    (key : String) : lookup? key others = lookup? key entries := by
  have hothers : (others.map Prod.fst).Nodup := (h.map Prod.fst).nodup hdistinct
  refine Option.ext fun v => ?_
  rw [lookup?_eq_some_iff hothers, lookup?_eq_some_iff hdistinct, h.mem_iff]

end Value

namespace Schema

variable {entries others inner inner' front back : Entries} {v w : Value} {keyword : String}

/-! ## Edits that say nothing -/

/-- The keywords that stand for values of their own. -/
def ownKeywords : List String :=
  ["type", "nullable", "$ref", "required", "enum", "format", "const", "readOnly", "writeOnly"]

/-- The keywords under which a schema stands. -/
def schemaKeywords : List String := ["items", "additionalProperties", "not"]

/-- The keywords under which a list of schemas stands. -/
def listKeywords : List String := ["allOf", "oneOf", "anyOf"]

/-- The keywords that a schema object is read by. -/
def keywords : List String := "properties" :: (ownKeywords ++ schemaKeywords ++ listKeywords)

/-- The key says nothing in a schema object. -/
def IsAnnotation (key : Value) : Prop := ∀ keyword ∈ keywords, key ≠ .text keyword

theorem isAnnotation_text_iff {word : String} : IsAnnotation (.text word) ↔ word ∉ keywords := by
  constructor
  · intro h hmem
    exact h word hmem rfl
  · rintro h keyword hmem heq
    rw [← Value.text.inj heq] at hmem
    exact h hmem

/-- One edit that says nothing: the entries of a schema object are put into another order, an
annotation is added, or an object in its tree is edited so. -/
inductive Retouched : Value → Value → Prop
  | reorder {entries others : Entries} (h : entries.Perm others)
      (hdistinct : (entries.map Prod.fst).Nodup) : Retouched (.map entries) (.map others)
  | annotate {key : Value} (hkey : IsAnnotation key) (v : Value) (entries : Entries) :
      Retouched (.map entries) (.map ((key, v) :: entries))
  | schema {keyword : String} (hkeyword : keyword ∈ schemaKeywords) (front back : Entries)
      {v w : Value} (h : Retouched v w) :
      Retouched (.map (front ++ (.text keyword, v) :: back))
        (.map (front ++ (.text keyword, w) :: back))
  | member {keyword : String} (hkeyword : keyword ∈ listKeywords) (front back : Entries)
      (before behind : List Value) {v w : Value} (h : Retouched v w) :
      Retouched (.map (front ++ (.text keyword, .list (before ++ v :: behind)) :: back))
        (.map (front ++ (.text keyword, .list (before ++ w :: behind)) :: back))
  | property (front back before behind : Entries) (key : Value) {v w : Value}
      (h : Retouched v w) :
      Retouched (.map (front ++ (.text "properties", .map (before ++ (key, v) :: behind)) :: back))
        (.map (front ++ (.text "properties", .map (before ++ (key, w) :: behind)) :: back))

/-- The values differ in the order of the entries of schema objects and in their annotations, at any
depth: edits that say nothing, in either direction, lead from one to the other. -/
def SameButAnnotations : Value → Value → Prop := Relation.EqvGen Retouched

/-- Where an edit that says nothing may stand, so may any number of them. -/
theorem SameButAnnotations.lift {f : Value → Value}
    (hf : ∀ v w, Retouched v w → Retouched (f v) (f w)) (h : SameButAnnotations v w) :
    SameButAnnotations (f v) (f w) := by
  induction h with
  | rel v w hedit => exact .rel _ _ (hf v w hedit)
  | refl v => exact .refl _
  | symm v w _ ih => exact ih.symm
  | trans u v w _ _ ih ih' => exact ih.trans _ _ _ ih'

/-! ## Entries under which the same is read -/

/-- The same is read of the two values under a keyword. -/
inductive ReadAlike (keyword : String) : Value → Value → Prop
  | refl (v : Value) : ReadAlike keyword v v
  | denied (hkeyword : keyword = "not") (v w : Value) : ReadAlike keyword v w
  | items (hkeyword : keyword = "items") {v w : Value} (h : ofValue w = ofValue v) :
      ReadAlike keyword v w
  | additional (hkeyword : keyword = "additionalProperties") {v w : Value}
      (h : ofAdditional w = ofAdditional v) : ReadAlike keyword v w
  | members (hkeyword : keyword ∈ listKeywords) {values others : List Value}
      (h : ofItems others = ofItems values) : ReadAlike keyword (.list values) (.list others)
  | properties (hkeyword : keyword = "properties") {inner inner' : Entries}
      (h : ∀ required found, ofProperties required inner' found =
        ofProperties required inner found) : ReadAlike keyword (.map inner) (.map inner')

/-- Under each keyword that a schema object is read by, either both maps have nothing or the same is
read. -/
def Agree (entries others : Entries) : Prop :=
  ∀ keyword ∈ keywords,
    Option.Rel (ReadAlike keyword) (Value.lookup? keyword entries) (Value.lookup? keyword others)

theorem agree_of_lookup?
    (h : ∀ keyword ∈ keywords, Value.lookup? keyword others = Value.lookup? keyword entries) :
    Agree entries others := by
  intro keyword hkeyword
  rw [h keyword hkeyword]
  cases Value.lookup? keyword entries with
  | none => exact .none
  | some v => exact .some (.refl v)

/-- Entries agree if they differ in one that is read alike. -/
theorem agree_replace (h : ReadAlike keyword v w) (front back : Entries) :
    Agree (front ++ (.text keyword, v) :: back) (front ++ (.text keyword, w) :: back) := by
  intro other hother
  induction front with
  | nil =>
    by_cases heq : other = keyword
    · subst heq
      rw [List.nil_append, List.nil_append, Value.lookup?_cons_self, Value.lookup?_cons_self]
      exact .some h
    · have hne : Value.text keyword ≠ .text other := fun htext => heq (Value.text.inj htext).symm
      rw [List.nil_append, List.nil_append, Value.lookup?_cons_of_ne hne,
        Value.lookup?_cons_of_ne hne]
      exact agree_of_lookup? (fun _ _ => rfl) other hother
  | cons entry rest ih =>
    obtain ⟨k, u⟩ := entry
    by_cases hk : k = .text other
    · subst hk
      rw [List.cons_append, List.cons_append, Value.lookup?_cons_self, Value.lookup?_cons_self]
      exact .some (.refl u)
    · rw [List.cons_append, List.cons_append, Value.lookup?_cons_of_ne hk,
        Value.lookup?_cons_of_ne hk]
      exact ih

theorem ReadAlike.eq_of_own (hkeyword : keyword ∈ ownKeywords) (h : ReadAlike keyword v w) :
    w = v := by
  have hapart : ∀ other ∈ ownKeywords, other ∉ listKeywords := by decide
  cases h with
  | refl => rfl
  | members hother => exact absurd hother (hapart keyword hkeyword)
  | denied hother | items hother | additional hother | properties hother =>
    subst hother
    exact absurd hkeyword (by decide)

namespace Agree

/-- Under a keyword, either both maps have nothing or the same is read. -/
theorem cases (h : Agree entries others) (hkeyword : keyword ∈ keywords) :
    Value.lookup? keyword entries = none ∧ Value.lookup? keyword others = none ∨
    ∃ v w, Value.lookup? keyword entries = some v ∧ Value.lookup? keyword others = some w ∧
      ReadAlike keyword v w := by
  have hrel := h keyword hkeyword
  generalize Value.lookup? keyword entries = x at hrel ⊢
  generalize Value.lookup? keyword others = y at hrel ⊢
  cases hrel with
  | none => exact Or.inl ⟨rfl, rfl⟩
  | some halike => exact Or.inr ⟨_, _, rfl, rfl, halike⟩

/-- What stands under a keyword for a value of its own is the same. -/
theorem own (h : Agree entries others) (keyword : String) (hkeyword : keyword ∈ ownKeywords) :
    Value.lookup? keyword others = Value.lookup? keyword entries := by
  have hmem : keyword ∈ keywords := by simp [keywords, hkeyword]
  rcases h.cases hmem with ⟨hentries, hothers⟩ | ⟨v, w, hentries, hothers, halike⟩
  · rw [hentries, hothers]
  · rw [hentries, hothers, halike.eq_of_own hkeyword]

theorem getD_own (h : Agree entries others) (keyword : String) (hkeyword : keyword ∈ ownKeywords) :
    Value.getD (.map others) keyword = Value.getD (.map entries) keyword := by
  rw [Value.getD, Value.getD, Value.get?, Value.get?, h.own keyword hkeyword]

theorem gives_eq (h : Agree entries others) (keyword : String) (hkeyword : keyword ∈ keywords) :
    gives others keyword = gives entries keyword := by
  rcases h.cases hkeyword with ⟨hentries, hothers⟩ | ⟨v, w, hentries, hothers, -⟩
  · rw [gives, gives, hentries, hothers]
  · rw [gives, gives, hentries, hothers]
    rfl

/-- Under a keyword for a list of schemas, both maps have such a list or neither, and the same
schemas are read. -/
theorem list_eq (h : Agree entries others) (keyword : String) (hkeyword : keyword ∈ listKeywords) :
    givesList others keyword = givesList entries keyword ∧
      ofItems (Value.itemsUnder others keyword) = ofItems (Value.itemsUnder entries keyword) := by
  have hmem : keyword ∈ keywords := by simp [keywords, hkeyword]
  rw [givesList, givesList, Value.itemsUnder, Value.itemsUnder]
  rcases h.cases hmem with ⟨hentries, hothers⟩ | ⟨v, w, hentries, hothers, halike⟩
  · rw [hentries, hothers]
    exact ⟨rfl, rfl⟩
  · rw [hentries, hothers]
    cases halike with
    | refl => exact ⟨rfl, rfl⟩
    | members _ hitems => exact ⟨rfl, hitems⟩
    | denied hother | items hother | additional hother | properties hother =>
      subst hother
      exact absurd hkeyword (by decide)

/-- The same properties are read. -/
theorem properties_eq (h : Agree entries others) (required : List Value)
    (found : Named (PropertyOf Schema)) :
    ofProperties required (Value.entriesUnder others "properties") found =
      ofProperties required (Value.entriesUnder entries "properties") found := by
  rw [Value.entriesUnder, Value.entriesUnder]
  have hkeyword : "properties" ∈ keywords := by decide
  rcases h.cases hkeyword with ⟨hentries, hothers⟩ | ⟨v, w, hentries, hothers, halike⟩
  · rw [hentries, hothers]
  · rw [hentries, hothers]
    cases halike with
    | refl => rfl
    | properties _ hinner => exact hinner required found
    | denied hother | items hother | additional hother | members hother =>
      exact absurd hother (by decide)

/-- The same shape is announced. -/
theorem announced_eq (h : Agree entries others) (type : Value) :
    announced others type = announced entries type := by
  have hlist : ∀ keyword ∈ listKeywords, givesList others keyword = givesList entries keyword :=
    fun keyword hkeyword => (h.list_eq keyword hkeyword).1
  simp (disch := decide) only [announced, h.gives_eq, hlist]

/-- The same is read of values without parts. -/
theorem primitiveOrUntyped_eq (h : Agree entries others) (nullable : Bool) (type : Value) :
    primitiveOrUntyped others nullable type = primitiveOrUntyped entries nullable type := by
  have hdenied : (Value.lookup? "not" others).isSome = (Value.lookup? "not" entries).isSome :=
    h.gives_eq "not" (by decide)
  simp (disch := decide) only [primitiveOrUntyped, settledType, permittedValues, ofType,
    untypedReason, Value.itemsUnder, h.own, hdenied]

theorem shapeOf_eq (h : Agree entries others) : shapeOf others = shapeOf entries := by
  funext nullable type
  have hrequired : requiredKeys others = requiredKeys entries := by
    rw [requiredKeys, requiredKeys, Value.itemsUnder, Value.itemsUnder, h.own _ (by decide)]
  rw [shapeOf, shapeOf, h.announced_eq, h.primitiveOrUntyped_eq, hrequired, h.own _ (by decide)]
  rcases hshape : announced entries type with _ | ⟨mode, keyword⟩ | _ | _ | _
  · rfl
  · dsimp only
    have hkeyword : keyword ∈ listKeywords := by
      unfold announced at hshape
      split_ifs at hshape <;> cases hshape <;> decide
    rw [(h.list_eq keyword hkeyword).2]
  · have hkeyword : "items" ∈ keywords := by decide
    rcases h.cases hkeyword with ⟨hentries, hothers⟩ | ⟨v, w, hentries, hothers, halike⟩
    · rw [hentries, hothers]
    · rw [hentries, hothers]
      cases halike with
      | refl => rfl
      | items _ hread =>
        dsimp only
        rw [hread]
      | denied hother | additional hother | members hother | properties hother =>
        exact absurd hother (by decide)
  · dsimp only
    simp only [h.properties_eq]
    have hkeyword : "additionalProperties" ∈ keywords := by decide
    rcases h.cases hkeyword with ⟨hentries, hothers⟩ | ⟨v, w, hentries, hothers, halike⟩
    · rw [hentries, hothers]
    · rw [hentries, hothers]
      cases halike with
      | refl => rfl
      | additional _ hread =>
        dsimp only
        rw [hread]
      | denied hother | items hother | members hother | properties hother =>
        exact absurd hother (by decide)
  · rfl

end Agree

/-- Maps that agree describe the same schema. -/
theorem ofValue_congr (h : Agree entries others) :
    ofValue (.map others) = ofValue (.map entries) := by
  rw [ofValue_map, ofValue_map, h.shapeOf_eq, flag, flag, h.getD_own _ (by decide),
    h.getD_own _ (by decide)]

/-! ## Edits keep what is read -/

theorem ofItems_replace (h : ofValue w = ofValue v) (before behind : List Value) :
    ofItems (before ++ w :: behind) = ofItems (before ++ v :: behind) := by
  induction before with
  | nil => rw [List.nil_append, List.nil_append, ofItems, ofItems, h]
  | cons u rest ih => rw [List.cons_append, List.cons_append, ofItems, ofItems, ih]

theorem ofProperties_replace (h : ofValue w = ofValue v)
    (hreadOnly : flag w "readOnly" = flag v "readOnly")
    (hwriteOnly : flag w "writeOnly" = flag v "writeOnly") (key : Value) (before behind : Entries)
    (required : List Value) (found : Named (PropertyOf Schema)) :
    ofProperties required (before ++ (key, w) :: behind) found =
      ofProperties required (before ++ (key, v) :: behind) found := by
  induction before generalizing found with
  | nil =>
    rw [List.nil_append, List.nil_append, ofProperties, ofProperties, h, hreadOnly, hwriteOnly]
  | cons entry rest ih =>
    obtain ⟨k, u⟩ := entry
    rw [List.cons_append, List.cons_append, ofProperties, ofProperties]
    congr 1
    funext s
    exact ih _

/-- An edit that says nothing leads from one map to another, and under every keyword the same is
read. -/
theorem Retouched.agree (h : Retouched v w) :
    ∃ entries others, v = .map entries ∧ w = .map others ∧ Agree entries others := by
  induction h with
  | @reorder entries others hperm hdistinct =>
    exact ⟨entries, others, rfl, rfl,
      agree_of_lookup? fun keyword _ => Value.lookup?_of_perm hperm hdistinct keyword⟩
  | annotate hkey v entries =>
    exact ⟨entries, _, rfl, rfl,
      agree_of_lookup? fun keyword hkeyword => Value.lookup?_cons_of_ne (hkey keyword hkeyword) v _⟩
  | schema hkeyword front back _ ih =>
    obtain ⟨entries, others, rfl, rfl, hagree⟩ := ih
    have hread : ofValue (.map others) = ofValue (.map entries) := ofValue_congr hagree
    refine ⟨_, _, rfl, rfl, agree_replace ?_ front back⟩
    simp only [schemaKeywords, List.mem_cons, List.not_mem_nil, or_false] at hkeyword
    rcases hkeyword with rfl | rfl | rfl
    · exact .items rfl hread
    · refine .additional rfl ?_
      rw [ofAdditional, ofAdditional, hread]
      all_goals simp
    · exact .denied rfl _ _
  | member hkeyword front back before behind _ ih =>
    obtain ⟨entries, others, rfl, rfl, hagree⟩ := ih
    exact ⟨_, _, rfl, rfl, agree_replace
      (.members hkeyword (ofItems_replace (ofValue_congr hagree) before behind)) front back⟩
  | property front back before behind key _ ih =>
    obtain ⟨entries, others, rfl, rfl, hagree⟩ := ih
    have hflag : ∀ keyword ∈ ownKeywords,
        flag (.map others) keyword = flag (.map entries) keyword := by
      intro keyword hkeyword
      rw [flag, flag, hagree.getD_own keyword hkeyword]
    have hproperties := ofProperties_replace (ofValue_congr hagree) (hflag _ (by decide))
      (hflag _ (by decide)) key before behind
    exact ⟨_, _, rfl, rfl, agree_replace (.properties rfl hproperties) front back⟩

/-- Values that differ in annotations and in the order of keywords describe the same schema, or
neither can be read, for the same reason. -/
theorem ofValue_eq_of_sameButAnnotations (h : SameButAnnotations v w) : ofValue v = ofValue w := by
  induction h with
  | rel v w hedit =>
    obtain ⟨entries, others, rfl, rfl, hagree⟩ := hedit.agree
    exact (ofValue_congr hagree).symm
  | refl v => rfl
  | symm v w _ ih => exact ih.symm
  | trans u v w _ _ ih ih' => exact ih.trans ih'

/-- A schema object for pets that is described, with a name that has a title. -/
def describedPet : Value :=
  .map [(.text "type", .text "object"), (.text "description", .text "A pet"),
    (.text "properties", .map [(.text "name",
      .map [(.text "type", .text "string"), (.text "title", .text "Name")])])]

/-- The same pets without a word, in another order. -/
def barePet : Value :=
  .map [(.text "properties", .map [(.text "name", .map [(.text "type", .text "string")])]),
    (.text "type", .text "object")]

/-- The two describe the same schema. -/
theorem ofValue_eq_pet :
    SameButAnnotations describedPet barePet ∧ ofValue describedPet = ofValue barePet := by
  have htitle : IsAnnotation (.text "title") := isAnnotation_text_iff.mpr (by decide)
  have hdescription : IsAnnotation (.text "description") := isAnnotation_text_iff.mpr (by decide)
  have hname : SameButAnnotations
      (.map [(.text "type", .text "string"), (.text "title", .text "Name")])
      (.map [(.text "type", .text "string")]) :=
    .trans _ _ _ (.rel _ _ (.reorder (.swap _ _ _) (by simp)))
      (.symm _ _ (.rel _ _ (.annotate htitle _ _)))
  have hproperties : SameButAnnotations describedPet
      (.map [(.text "type", .text "object"), (.text "description", .text "A pet"),
        (.text "properties", .map [(.text "name", .map [(.text "type", .text "string")])])]) :=
    hname.lift fun v w hedit => .property
      [(.text "type", .text "object"), (.text "description", .text "A pet")] [] [] []
      (.text "name") hedit
  have horder : SameButAnnotations
      (.map [(.text "type", .text "object"), (.text "description", .text "A pet"),
        (.text "properties", .map [(.text "name", .map [(.text "type", .text "string")])])])
      (.map [(.text "description", .text "A pet"),
        (.text "properties", .map [(.text "name", .map [(.text "type", .text "string")])]),
        (.text "type", .text "object")]) :=
    .rel _ _ (.reorder ((List.Perm.swap _ _ _).trans (.cons _ (.swap _ _ _))) (by simp))
  have hpet : SameButAnnotations describedPet barePet :=
    hproperties.trans _ _ _ (horder.trans _ _ _ (.symm _ _ (.rel _ _ (.annotate hdescription _ _))))
  exact ⟨hpet, ofValue_eq_of_sameButAnnotations hpet⟩

end Schema

end TypedClient
