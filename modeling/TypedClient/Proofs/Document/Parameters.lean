import TypedClient.Proofs.Document.Faults
import TypedClient.Proofs.Document.Responses

/-!
# The parameters of an operation

A path gives parameters for all its operations, and an operation overrides those of its own names and
places.  What overrides a parameter is settled before the parameters without a name or a known place
are left out; but these have keys of their own, so that they override nothing that is read.  The
parameters of an operation are therefore those of its path that have a name and a known place and
are overridden by no such parameter of the operation, in order, and behind them its own.

* `keyOf?`: the name and the place of a parameter that has both.
* `IsWorded`: the name and the place are texts, if they are given at all.
* `sameParameter_iff`: which parameters are overridden.
* `inEffect`: the parameters with a name and a place that count for an operation.
* `Merges`: the parameters of an operation are those of its path and its own that count.
* `parameters_merged`: every operation of a document has just these parameters.
-/

namespace TypedClient

/-- The keyword of a place, and no other text, is that of the place. -/
theorem Place.ofName?_eq_some_iff {s : String} {place : Place} :
    Place.ofName? s = some place ↔ s = place.name := by
  constructor
  · intro h
    unfold Place.ofName? at h
    split_ifs at h with hs hs hs hs <;> cases h <;> exact hs
  · rintro rfl
    cases place <;> rfl

namespace Document

variable {root v w : Value} {ofPath own : List Value} {p : Parameter} {key : String × Place}

/-! ## Names and places -/

/-- The name and the place of a parameter that has both. -/
def keyOf? (v : Value) : Option (String × Place) :=
  match v.get? "name", placeOf? v with
  | some (.text name), some place => if name.isEmpty then none else some (name, place)
  | _, _ => none

/-- The name and the place of the parameter are texts, if they are given. -/
structure IsWorded (v : Value) : Prop where
  name : ∀ w, v.get? "name" = some w → ∃ s, w = .text s
  place : ∀ w, v.get? "in" = some w → ∃ s, w = .text s

theorem placeOf?_eq_some_iff {place : Place} :
    placeOf? v = some place ↔ v.get? "in" = some (.text place.name) := by
  unfold placeOf?
  split
  · rename_i s hget
    rw [Place.ofName?_eq_some_iff, hget, Option.some_inj, Value.text.injEq]
  · rename_i hother
    exact iff_of_false (by simp) (hother place.name)

theorem keyOf?_eq_some_iff {name : String} {place : Place} : keyOf? v = some (name, place) ↔
    v.get? "name" = some (.text name) ∧ name ≠ "" ∧ v.get? "in" = some (.text place.name) := by
  rw [← placeOf?_eq_some_iff]
  unfold keyOf?
  split
  · rename_i name' place' hname hplace
    rw [hname, hplace]
    by_cases hempty : name' = ""
    · rw [if_pos (String.isEmpty_iff.mpr hempty)]
      refine iff_of_false (by simp) ?_
      rintro ⟨heq, hne, -⟩
      rw [Option.some_inj, Value.text.injEq] at heq
      exact hne (heq.symm.trans hempty)
    · rw [if_neg (mt String.isEmpty_iff.mp hempty), Option.some_inj, Option.some_inj,
        Option.some_inj, Prod.mk.injEq, Value.text.injEq]
      refine and_congr_right fun hname => ?_
      rw [← hname]
      exact (and_iff_right hempty).symm
  · rename_i hother
    refine iff_of_false (by simp) ?_
    rintro ⟨hname, -, hplace⟩
    exact hother name place hname hplace

/-- The name of a parameter counts as given exactly if it is a text with characters. -/
theorem IsWorded.isTruthy_iff (hv : IsWorded v) :
    (v.getD "name").isTruthy = true ↔ ∃ name, v.get? "name" = some (.text name) ∧ name ≠ "" := by
  rw [Value.getD]
  cases hname : v.get? "name" with
  | none => exact iff_of_false (by simp [Value.isTruthy]) (by simp)
  | some w =>
    obtain ⟨s, rfl⟩ := hv.name w hname
    simp [Value.isTruthy]

/-- What is read of a parameter has its name and its place; nothing is read of a parameter without
them. -/
theorem keyOf?_eq_of_readParameter (hv : IsWorded v) {read : Option Parameter}
    (h : readParameter v = .ok read) : keyOf? v = read.map fun p => (p.name, p.place) := by
  rw [readParameter] at h
  split at h
  · -- Without a known place there is no key either.
    rename_i hplace
    obtain rfl := Except.ok.inj h
    refine Option.eq_none_iff_forall_ne_some.mpr fun key hkey => ?_
    have hsome := placeOf?_eq_some_iff.mpr (keyOf?_eq_some_iff.mp hkey).2.2
    rw [hplace] at hsome
    cases hsome
  · rename_i place hplace
    split at h
    · rename_i hname
      obtain rfl := Except.ok.inj h
      refine Option.eq_none_iff_forall_ne_some.mpr fun key hkey => ?_
      obtain ⟨hget, hne, -⟩ := keyOf?_eq_some_iff.mp hkey
      rw [hv.isTruthy_iff.mpr ⟨_, hget, hne⟩] at hname
      cases hname
    · rename_i hname
      rw [Bool.not_eq_true', Bool.not_eq_false] at hname
      obtain ⟨name, hget, hne⟩ := hv.isTruthy_iff.mp hname
      have hshown : (v.getD "name").display = name := by
        rw [Value.getD, hget]
        rfl
      obtain ⟨schema, -, h⟩ := Outcome.bind_eq_ok_iff.mp h
      obtain ⟨description, -, h⟩ := Outcome.bind_eq_ok_iff.mp h
      obtain rfl := Except.ok.inj h
      rw [Option.map_some, hshown]
      exact keyOf?_eq_some_iff.mpr ⟨hget, hne, placeOf?_eq_some_iff.mp hplace⟩

/-- A keyword of texts is given as a text with characters exactly if it is that text, an empty one
standing for one that is missing. -/
theorem sameKey_getD_iff {keyword text : String} (hne : text ≠ "")
    (hw : ∀ u, w.get? keyword = some u → ∃ s, u = .text s) :
    (Value.text text).sameKey ((w.get? keyword).getD (.text "")) = true ↔
      w.get? keyword = some (.text text) := by
  cases hget : w.get? keyword with
  | none => exact iff_of_false (by simpa [Value.sameKey] using hne) (by simp)
  | some u =>
    obtain ⟨s, rfl⟩ := hw u hget
    rw [Option.getD_some, Value.sameKey_text_iff, Option.some_inj, eq_comm]

/-- A parameter that has a name and a place is overridden by those that have the same. -/
theorem sameParameter_iff (hw : IsWorded w) (hv : keyOf? v = some key) :
    sameParameter (parameterKey v) (parameterKey w) = true ↔ keyOf? w = some key := by
  obtain ⟨name, place⟩ := key
  obtain ⟨hname, hne, hplace⟩ := keyOf?_eq_some_iff.mp hv
  have hkey : parameterKey v = (.text name, .text place.name) := by
    rw [parameterKey, hname, hplace]
    rfl
  have hplaceName : place.name ≠ "" := by cases place <;> decide
  rw [keyOf?_eq_some_iff, sameParameter, hkey, Bool.and_eq_true, parameterKey,
    sameKey_getD_iff hne hw.name, sameKey_getD_iff hplaceName hw.place, and_iff_right hne]

/-- A parameter that was read as one of the path is required, whatever it says. -/
theorem isRequired_of_readParameter {v : Value} {p : Parameter}
    (h : readParameter v = .ok (some p)) (hpath : p.place = .path) : p.isRequired = true := by
  rw [readParameter] at h
  split at h
  · cases h
  · split at h
    · cases h
    · obtain ⟨schema, -, h⟩ := Outcome.bind_eq_ok_iff.mp h
      obtain ⟨description, -, h⟩ := Outcome.bind_eq_ok_iff.mp h
      obtain rfl := Option.some_inj.mp (Except.ok.inj h)
      exact Bool.or_eq_true_iff.mpr (Or.inl (beq_iff_eq.mpr hpath))

/-! ## The parameters that count -/

/-- The parameter has a name and a place. -/
def isKeyed (v : Value) : Bool := (keyOf? v).isSome

/-- A parameter of the path counts if it has a name and a place, and the operation gives none that
has the same. -/
def survives (own : List Value) (v : Value) : Bool :=
  isKeyed v && !own.any fun w => keyOf? w == keyOf? v

/-- The parameters of a name and a place that count for an operation: its own if there is any, else
those of the path. -/
def inEffect (ofPath own : List Value) (key : String × Place) : List Value :=
  if own.any fun v => keyOf? v == some key then own.filter fun v => keyOf? v == some key
  else ofPath.filter fun v => keyOf? v == some key

/-- The parameter is read of the object, and has its name and its place. -/
structure Describes (v : Value) (p : Parameter) : Prop where
  read : readParameter v = .ok (some p)
  key : keyOf? v = some (p.name, p.place)

/-- The parameters of an operation: those of its path that count, and behind them its own; for each
name and place those in effect; and all of them in order.  Those in the path are required. -/
structure Merges (ofPath own : List Value) (parameters : List Parameter) : Prop where
  ordered : ∃ kept added, parameters = kept ++ added ∧
    List.Forall₂ Describes (ofPath.filter (survives own)) kept ∧
    List.Forall₂ Describes (own.filter isKeyed) added
  inEffect : ∀ key, List.Forall₂ Describes (inEffect ofPath own key)
    (parameters.filter fun p => (p.name, p.place) == key)
  required : ∀ p ∈ parameters, p.place = .path → p.isRequired = true

theorem forall₂_of_mapM_readParameter {items : List Value} {found : List (Option Parameter)}
    (hworded : ∀ v ∈ items, IsWorded v) (h : items.mapM readParameter = .ok found) :
    List.Forall₂ Describes (items.filter isKeyed) (found.filterMap id) := by
  induction items generalizing found with
  | nil =>
    obtain rfl := Except.ok.inj h
    exact .nil
  | cons v rest ih =>
    rw [List.mapM_cons] at h
    obtain ⟨read, hread, h⟩ := Outcome.bind_eq_ok_iff.mp h
    obtain ⟨more, hmore, h⟩ := Outcome.bind_eq_ok_iff.mp h
    obtain rfl := Except.ok.inj h
    rw [List.forall_mem_cons] at hworded
    have hrest := ih hworded.2 hmore
    have hkey := keyOf?_eq_of_readParameter hworded.1 hread
    cases read with
    | none =>
      rw [List.filter_cons_of_neg (by simp [isKeyed, hkey]), List.filterMap_cons_none (f := id) rfl]
      exact hrest
    | some p =>
      rw [List.filter_cons_of_pos (by simp [isKeyed, hkey]), List.filterMap_cons_some (f := id) rfl]
      exact .cons ⟨hread, hkey⟩ hrest

/-- The parameters that are read of objects are those of the objects with a name and a place. -/
theorem forall₂_of_readParameters {items : List Value} {parameters : List Parameter}
    (hworded : ∀ v ∈ items, IsWorded v) (h : readParameters items = .ok parameters) :
    List.Forall₂ Describes (items.filter isKeyed) parameters := by
  rw [readParameters] at h
  obtain ⟨found, hfound, h⟩ := Outcome.bind_eq_ok_iff.mp h
  rw [← Except.ok.inj h]
  exact forall₂_of_mapM_readParameter hworded hfound

/-- Of the parameters in force those count that have a name and a place. -/
theorem filter_inForce (hworded : ∀ v ∈ own, IsWorded v) :
    (inForce ofPath own).filter isKeyed =
      ofPath.filter (survives own) ++ own.filter isKeyed := by
  rw [inForce, List.filter_append, List.filter_filter]
  congr 1
  refine List.filter_congr fun v _ => ?_
  rw [survives, isKeyed]
  cases hkey : keyOf? v with
  | none => rfl
  | some key =>
    rw [Option.isSome_some, Bool.true_and, Bool.true_and]
    congr 1
    rw [Bool.eq_iff_iff, List.any_eq_true, List.any_eq_true]
    refine exists_congr fun w => and_congr_right fun hw => ?_
    rw [sameParameter_iff (hworded w hw) hkey, beq_iff_eq]

/-- The parameter counts and has the name and the place exactly if it has them and the operation gives
none that has the same. -/
theorem survives_and_iff :
    (survives own v = true ∧ keyOf? v = some key) ↔
      (own.any fun w => keyOf? w == some key) = false ∧ keyOf? v = some key := by
  refine and_congr_left fun hkey => ?_
  rw [survives, isKeyed, hkey, Option.isSome_some, Bool.true_and, Bool.not_eq_true']

/-- Of the parameters that count those of a name and a place are those in effect. -/
theorem filter_eq_inEffect (key : String × Place) :
    (ofPath.filter (survives own) ++ own.filter isKeyed).filter (fun v => keyOf? v == some key) =
      inEffect ofPath own key := by
  have hown : (own.filter isKeyed).filter (fun v => keyOf? v == some key) =
      own.filter fun v => keyOf? v == some key := by
    rw [List.filter_filter]
    refine List.filter_congr fun v _ => ?_
    cases hkey : keyOf? v == some key with
    | false => rfl
    | true =>
      rw [isKeyed, beq_iff_eq.mp hkey]
      rfl
  rw [List.filter_append, hown, List.filter_filter, inEffect]
  cases hany : own.any fun v => keyOf? v == some key with
  | true =>
    have hnone : (ofPath.filter fun v => keyOf? v == some key && survives own v) = [] := by
      refine List.filter_eq_nil_iff.mpr fun v _ hv => ?_
      rw [Bool.and_eq_true, beq_iff_eq, and_comm, survives_and_iff, hany] at hv
      exact Bool.false_ne_true hv.1.symm
    rw [if_pos rfl, hnone, List.nil_append]
  | false =>
    have hnone : (own.filter fun v => keyOf? v == some key) = [] := by
      rw [List.filter_eq_nil_iff]
      exact List.any_eq_false.mp hany
    rw [if_neg Bool.false_ne_true, hnone, List.append_nil]
    refine List.filter_congr fun v _ => ?_
    rw [Bool.eq_iff_iff, Bool.and_eq_true, beq_iff_eq, and_comm, survives_and_iff, hany]
    exact and_iff_right rfl

/-- Each half of a list has its own part of what the whole list has. -/
theorem exists_append_of_forall₂ {α β : Type} {R : α → β → Prop} {front back : List α}
    {found : List β} (h : List.Forall₂ R (front ++ back) found) :
    ∃ kept added, found = kept ++ added ∧ List.Forall₂ R front kept ∧ List.Forall₂ R back added :=
  ⟨found.take front.length, found.drop front.length, (List.take_append_drop _ _).symm,
    (List.forall₂_take_append _ _ _ h.flip).flip, (List.forall₂_drop_append _ _ _ h.flip).flip⟩

theorem merges_of_readOperation {path : String} {method : Method} {operation : Value}
    {op : Operation} {notes : List Diagnostic}
    (h : readOperation root path ofPath method operation = .ok (op, notes))
    (hworded : ∀ v ∈ ofPath ++ ownParameters root path method operation, IsWorded v) :
    Merges ofPath (ownParameters root path method operation) op.parameters := by
  obtain ⟨-, -, ⟨merged, hmerged, hread⟩, -⟩ := fields_of_readOperation h
  obtain rfl := eq_inForce hmerged
  rw [List.forall_mem_append] at hworded
  have hforce : ∀ v ∈ inForce ofPath (ownParameters root path method operation), IsWorded v := by
    intro v hv
    rcases List.mem_append.mp hv with hv | hv
    · exact hworded.1 v (List.mem_filter.mp hv).1
    · exact hworded.2 v hv
  have hall := forall₂_of_readParameters hforce hread
  -- Overriding is settled before anything is left out; on texts the order does not matter.
  rw [filter_inForce hworded.2] at hall
  refine ⟨exists_append_of_forall₂ hall, fun key => ?_, fun p hp hpath => ?_⟩
  · rw [← filter_eq_inEffect]
    refine List.rel_filter (fun v p hv => ?_) hall
    change (keyOf? v == some key) = true ↔ ((p.name, p.place) == key) = true
    rw [hv.key, beq_iff_eq, Option.some_inj, beq_iff_eq]
  · obtain ⟨v, -, hv⟩ := exists_of_mem_forall₂ hall hp
    exact isRequired_of_readParameter hv.read hpath

/-- A parameter in the path is required, whatever the names and the places of the others are. -/
theorem isRequired_of_path {version : String} {doc : Document}
    (h : ofValue root version = .ok doc) {op : Operation} (hop : op ∈ doc.operations)
    (hp : p ∈ op.parameters) (hpath : p.place = .path) : p.isRequired = true := by
  obtain ⟨item, operation, made, -, hread⟩ := exists_item_of_mem h hop
  obtain ⟨-, -, ⟨merged, -, hparameters⟩, -⟩ := fields_of_readOperation hread
  rw [readParameters] at hparameters
  obtain ⟨found, hfound, hparameters⟩ := Outcome.bind_eq_ok_iff.mp hparameters
  rw [← Except.ok.inj hparameters] at hp
  obtain ⟨read, hmem, rfl⟩ := List.mem_filterMap.mp hp
  obtain ⟨v, -, hv⟩ := Outcome.exists_of_mem_mapM hfound hmem
  exact isRequired_of_readParameter hv hpath

/-- The parameters of the operations of a document are those in effect: of every operation that was
read, and of every one that the document declares, provided that the names and the places of its
parameters, and of those of its path, are texts. -/
theorem parameters_merged {version : String} {doc : Document}
    (hdoc : ofValue root version = .ok doc) :
    (∀ op ∈ doc.operations, ∃ item operation, DeclaresIn root op.path item op.method operation ∧
      ((∀ v ∈ pathParameters root op.path item ++
        ownParameters root op.path op.method (.map operation), IsWorded v) →
        Merges (pathParameters root op.path item)
          (ownParameters root op.path op.method (.map operation)) op.parameters)) ∧
    ∀ path item method operation, DeclaresIn root path item method operation →
      (∀ v ∈ pathParameters root path item ++
        ownParameters root path method (.map operation), IsWorded v) →
      ∃ op ∈ doc.operations, op.path = path ∧ op.method = method ∧
        Merges (pathParameters root path item)
          (ownParameters root path method (.map operation)) op.parameters := by
  constructor
  · intro op hop
    obtain ⟨item, operation, made, hdeclares, hread⟩ := exists_item_of_mem hdoc hop
    exact ⟨item, operation, hdeclares, merges_of_readOperation hread⟩
  · intro path item method operation hdeclares hworded
    obtain ⟨op, hop, made, hread⟩ := exists_operation_of_declaresIn hdoc hdeclares
    obtain ⟨hpath, hmethod, -⟩ := fields_of_readOperation hread
    exact ⟨op, hop, hpath, hmethod, merges_of_readOperation hread hworded⟩

/-! ## Overriding a parameter -/

/-- What a map of texts gives under a key is a text. -/
theorem exists_text_of_lookup? {keyword : String} {entries : Entries}
    (h : ∀ entry ∈ entries, ∃ s, entry.2 = .text s)
    (hget : Value.lookup? keyword entries = some w) : ∃ s, w = .text s := by
  fun_induction Value.lookup? keyword entries with
  | case1 => cases hget
  | case2 u rest => exact Option.some_inj.mp hget ▸ (List.forall_mem_cons.mp h).1
  | case3 t u rest _ ih => exact ih (List.forall_mem_cons.mp h).2 hget
  | case4 key u rest _ ih => exact ih (List.forall_mem_cons.mp h).2 hget

theorem isWorded_of_forall_text {entries : Entries}
    (h : ∀ entry ∈ entries, ∃ s, entry.2 = .text s) : IsWorded (.map entries) :=
  ⟨fun _ => exists_text_of_lookup? h, fun _ => exists_text_of_lookup? h⟩

/-- A parameter of the name and the place, with a description. -/
def described (name place description : String) : Value :=
  .map [(.text "name", .text name), (.text "in", .text place),
    (.text "description", .text description)]

/-- The parameters of a path, with a reference among them that leads nowhere. -/
def sharedParameters : List Value :=
  [described "limit" "query" "path-level",
    .map [(.text "$ref", .text "#/components/parameters/Gone")],
    described "X-Trace" "header" "path-level"]

/-- The parameters of an operation, the last two of which have no known place and no name. -/
def listParameters : List Value :=
  [described "limit" "query" "op-level", described "X-Trace" "body" "op-level",
    .map [(.text "in", .text "header")]]

/-- An operation with these parameters. -/
def listItems : Entries := [(.text "parameters", .list listParameters)]

/-- A path with this operation. -/
def itemsPath : Value :=
  .map [(.text "parameters", .list sharedParameters), (.text "get", .map listItems)]

/-- A document with this path. -/
def overriding : Value := .map [(.text "paths", .map [(.text "/items", itemsPath)])]

/-- The operation overrides one parameter of its path, and none by those that are left out. -/
theorem parameters_merged_overriding : ∃ doc, ofValue overriding "3.0.3" = .ok doc ∧
    ∃ op ∈ doc.operations, op.path = "/items" ∧ op.method = .get ∧
      op.parameters.map (fun p => (p.name, p.description)) =
        [("X-Trace", some "path-level"), ("limit", some "op-level")] ∧
      Merges [described "limit" "query" "path-level", described "X-Trace" "header" "path-level"]
        listParameters op.parameters := by
  have hread : (ofValue overriding "3.0.3").toOption.map (fun doc =>
      doc.operations.map fun op => op.parameters.map fun p => (p.name, p.description)) =
      some [[("X-Trace", some "path-level"), ("limit", some "op-level")]] := by decide +kernel
  have hdeclares : DeclaresIn overriding "/items" itemsPath .get listItems :=
    ⟨_, _, rfl, List.mem_cons_self, rfl, rfl, rfl⟩
  have hshared : pathParameters overriding "/items" itemsPath =
      [described "limit" "query" "path-level", described "X-Trace" "header" "path-level"] := rfl
  have hown : ownParameters overriding "/items" .get (.map listItems) = listParameters := rfl
  have hworded : ∀ v ∈ pathParameters overriding "/items" itemsPath ++
      ownParameters overriding "/items" .get (.map listItems), IsWorded v := by
    simp [hshared, hown, listParameters, described, isWorded_of_forall_text]
  rcases hdoc : ofValue overriding "3.0.3" with misfit | doc
  · rw [hdoc] at hread
    cases hread
  · rw [hdoc] at hread
    obtain ⟨op, hop, hpath, hmethod, hmerges⟩ :=
      (parameters_merged hdoc).2 "/items" itemsPath .get listItems hdeclares hworded
    rw [hshared, hown] at hmerges
    have hshown := List.mem_map_of_mem
      (f := fun op : Operation => op.parameters.map fun p => (p.name, p.description)) hop
    have hall : (doc.operations.map fun op => op.parameters.map fun p => (p.name, p.description)) =
        [[("X-Trace", some "path-level"), ("limit", some "op-level")]] := Option.some_inj.mp hread
    rw [hall] at hshown
    exact ⟨doc, rfl, op, hop, hpath, hmethod, List.mem_singleton.mp hshown, hmerges⟩

end Document

end TypedClient
