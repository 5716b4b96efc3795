import TypedClient.Client
import TypedClient.Proofs.Analysis.Operations
import TypedClient.Proofs.Document.Parameters
import TypedClient.Proofs.Named

/-!
# The parameters of a method

A document tells parameters apart by name and place, a method by name alone.  So the type of a
method's parameters has one property for all parameters of a name, and the last of them decides
whether it may be left out.  A parameter that is required stays required only if no later one of its
name, in another place, is optional.

* `AnalyzedOperation.lastNamed?`: the parameter that decides.
* `Callable.parameterFields`: the properties for the parameters, by name.
* `KeepsRequired`: what a method should keep of what its operation requires.
* `keepsRequired_iff`: when it does.
* `not_keepsRequired_shadowed`: it need not.
-/

namespace TypedClient

/-- The last parameter of a name among those that a call passes. -/
def AnalyzedOperation.lastNamed? (op : AnalyzedOperation) (name : String) : Option Parameter :=
  op.parameters.reverse.find? fun p => p.name == name

/-- The properties for the parameters of a method, by name. -/
def Callable.parameterFields (c : Callable) : Named (FieldOf TypeExpr) :=
  match c.parametersType with
  | some (.object fields _) => fields
  | _ => []

theorem AnalyzedOperation.lastNamed?_of_concat {op : AnalyzedOperation} {name : String}
    (before : List Parameter) {last : Parameter} (h : op.parameters = before ++ [last])
    (hname : last.name = name) : op.lastNamed? name = some last := by
  rw [lastNamed?, h, List.reverse_concat]
  exact List.find?_cons_of_pos (beq_iff_eq.mpr hname)

namespace Client

variable {lib : Library} {qualifier : String} {modifiers : Bool} {op : AnalyzedOperation}

/-- The places whose parameters a call passes. -/
def passedPlaces : List Place := [.path, .header, .query]

/-! ## The properties for the parameters -/

/-- The parameters are written one after the other, each as the property of its name. -/
theorem parameterFields_callable :
    (callable lib qualifier modifiers op).1.parameterFields =
      Named.ofList (op.parameters.map fun p =>
        (p.name, (parameterField lib { qualifier := qualifier } op.label p).1)) := by
  have htype : (callable lib qualifier modifiers op).1.parametersType =
      (parametersType lib qualifier op).1 := rfl
  rw [Callable.parameterFields, htype, parametersType]
  cases op.parameters with
  | nil => rfl
  | cons p rest =>
    rw [List.map_cons, List.isEmpty_cons, if_neg Bool.false_ne_true, List.map_cons, List.map_map]
    rfl

/-- There is a property for each name, where the name first occurs. -/
theorem names_parameterFields :
    (callable lib qualifier modifiers op).1.parameterFields.names =
      (op.parameters.map Parameter.name).eraseDups := by
  rw [parameterFields_callable, Named.names_ofList, Named.names, List.map_map]
  rfl

/-- The property of a name is that of the last parameter of the name. -/
theorem get?_parameterFields (name : String) :
    (callable lib qualifier modifiers op).1.parameterFields.get? name =
      (op.lastNamed? name).map fun p =>
        (parameterField lib { qualifier := qualifier } op.label p).1 := by
  rw [parameterFields_callable, Named.get?_ofList, AnalyzedOperation.lastNamed?, ← List.map_reverse]
  induction op.parameters.reverse with
  | nil => rfl
  | cons p rest ih =>
    rw [List.map_cons, Named.get?_cons, List.find?_cons]
    by_cases hname : p.name = name
    · rw [if_pos hname, beq_iff_eq.mpr hname, Option.map_some]
    · rw [if_neg hname, beq_eq_false_iff_ne.mpr hname]
      exact ih

/-- Where a name has a last parameter, it has the property that is made of it. -/
theorem exists_field_of_lastNamed? {name : String} {last : Parameter}
    (h : op.lastNamed? name = some last) :
    ∃ field, (name, field) ∈ (callable lib qualifier modifiers op).1.parameterFields ∧
      field.isOptional = !last.isRequired := by
  refine ⟨(parameterField lib { qualifier := qualifier } op.label last).1,
    Named.mem_of_get? ?_, rfl⟩
  rw [get?_parameterFields, h, Option.map_some]

/-- Whether the property of a name may be left out is what the last parameter of the name says. -/
theorem lastNamed?_of_mem {name : String} {field : FieldOf TypeExpr}
    (h : (name, field) ∈ (callable lib qualifier modifiers op).1.parameterFields) :
    ∃ last, op.lastNamed? name = some last ∧ field.isOptional = !last.isRequired := by
  have hnodup : (callable lib qualifier modifiers op).1.parameterFields.names.Nodup := by
    rw [parameterFields_callable]
    exact Named.nodup_names_ofList _
  have hget := (Named.get?_eq_some_iff hnodup).mpr h
  rw [get?_parameterFields, Option.map_eq_some_iff] at hget
  obtain ⟨last, hlast, rfl⟩ := hget
  exact ⟨last, hlast, rfl⟩

/-! ## What is required -/

/-- A method keeps what its operation requires: it takes the parameters of the operation and no
others, none that is required may be left out, in whichever place it is passed, and neither may one
that stands in the path. -/
structure KeepsRequired (op : AnalyzedOperation) (c : Callable) : Prop where
  names : ∀ name, name ∈ c.parameterFields.names ↔ ∃ place ∈ passedPlaces, name ∈ namesIn op place
  required : ∀ place ∈ passedPlaces, ∀ p ∈ op.parametersIn place, p.isRequired = true →
    ∀ field, (p.name, field) ∈ c.parameterFields → field.isOptional = false
  pathParameters : ∀ name ∈ c.pathParameters, ∃ field, (name, field) ∈ c.parameterFields ∧
    field.isOptional = false

/-- No parameter that is required is followed by an optional one of its name as the last. -/
def LastRequired (op : AnalyzedOperation) : Prop :=
  ∀ p ∈ op.parameters, p.isRequired = true →
    ∀ last, op.lastNamed? p.name = some last → last.isRequired = true

/-- The parameters that a call passes are those of the three places. -/
theorem mem_parameters_iff (hcookie : ∀ p ∈ op.parameters, p.place ≠ .cookie) {p : Parameter} :
    p ∈ op.parameters ↔ ∃ place ∈ passedPlaces, p ∈ op.parametersIn place := by
  constructor
  · intro hp
    refine ⟨p.place, ?_, List.mem_filter.mpr ⟨hp, beq_self_eq_true _⟩⟩
    have hplace : p.place ≠ .cookie := hcookie p hp
    cases hcases : p.place with
    | cookie => exact absurd hcases hplace
    | path => decide
    | header => decide
    | query => decide
  · rintro ⟨place, -, hp⟩
    exact (List.mem_filter.mp hp).1

/-- There is a property for every name of a parameter in one of the three places, and for no
other. -/
theorem mem_names_parameterFields_iff (hcookie : ∀ p ∈ op.parameters, p.place ≠ .cookie)
    (name : String) :
    name ∈ (callable lib qualifier modifiers op).1.parameterFields.names ↔
      ∃ place ∈ passedPlaces, name ∈ namesIn op place := by
  rw [names_parameterFields, List.mem_eraseDups, List.mem_map]
  constructor
  · rintro ⟨p, hp, rfl⟩
    obtain ⟨place, hplace, hp⟩ := (mem_parameters_iff hcookie).mp hp
    exact ⟨place, hplace, List.mem_map_of_mem hp⟩
  · rintro ⟨place, hplace, hname⟩
    obtain ⟨p, hp, rfl⟩ := List.mem_map.mp hname
    exact ⟨p, (mem_parameters_iff hcookie).mpr ⟨place, hplace, hp⟩, rfl⟩

/-- Where no optional parameter follows as the last of its name, the property of a required one may
not be left out. -/
theorem LastRequired.isOptional_eq_false (hlast : LastRequired op) {p : Parameter}
    (hp : p ∈ op.parameters) (hrequired : p.isRequired = true) {field : FieldOf TypeExpr}
    (hfield : (p.name, field) ∈ (callable lib qualifier modifiers op).1.parameterFields) :
    field.isOptional = false := by
  obtain ⟨last, hnamed, hoptional⟩ := lastNamed?_of_mem hfield
  rw [hoptional, hlast p hp hrequired last hnamed, Bool.not_true]

/-- If path parameters are required, then a method keeps what its operation requires exactly if no
required parameter is followed by an optional one of its name. -/
theorem keepsRequired_callable_iff (hcookie : ∀ p ∈ op.parameters, p.place ≠ .cookie)
    (hpath : ∀ p ∈ op.parametersIn .path, p.isRequired = true) :
    KeepsRequired op (callable lib qualifier modifiers op).1 ↔ LastRequired op := by
  constructor
  · intro hkeeps p hp hrequired last hlast
    obtain ⟨place, hplace, hp⟩ := (mem_parameters_iff hcookie).mp hp
    obtain ⟨field, hfield, hoptional⟩ := exists_field_of_lastNamed? hlast
    rw [hkeeps.required place hplace p hp hrequired field hfield] at hoptional
    exact Bool.not_inj hoptional.symm
  · intro hlast
    refine ⟨mem_names_parameterFields_iff hcookie, fun place hplace p hp hrequired field hfield =>
      hlast.isOptional_eq_false ((mem_parameters_iff hcookie).mpr ⟨place, hplace, hp⟩) hrequired
        hfield, fun name hname => ?_⟩
    -- a name that is inserted into the path is that of a parameter there, which is required
    have hdeclared : name ∈ namesIn op .path :=
      List.contains_iff_mem.mp (List.mem_filter.mp hname).2
    obtain ⟨p, hp, rfl⟩ := List.mem_map.mp hdeclared
    have hnamed : p.name ∈ (callable lib qualifier modifiers op).1.parameterFields.names :=
      (mem_names_parameterFields_iff hcookie p.name).mpr ⟨.path, by decide, hdeclared⟩
    obtain ⟨⟨_, field⟩, hfield, rfl⟩ := List.mem_map.mp hnamed
    exact ⟨field, hfield, hlast.isOptional_eq_false (List.mem_filter.mp hp).1 (hpath p hp) hfield⟩

/-- The method of an analysed operation takes the parameters of its path, its header and its query,
each name once.  Whether a property may be left out is what the last parameter of its name says.  So
the method keeps what the operation requires exactly if no required parameter is followed by an
optional one of its name. -/
theorem keepsRequired_iff {root : Value} {version : String} {doc : Document}
    (hdoc : Document.ofValue root version = .ok doc) (lib : Library) {op : AnalyzedOperation}
    (hop : op ∈ (Analysis.ofDocument lib doc).1) (qualifier : String) (modifiers : Bool) :
    (callable lib qualifier modifiers op).1.parameterFields.names =
        (op.parameters.map Parameter.name).eraseDups ∧
    (∀ name, name ∈ (callable lib qualifier modifiers op).1.parameterFields.names ↔
      ∃ place ∈ passedPlaces, name ∈ namesIn op place) ∧
    (∀ name field, (name, field) ∈ (callable lib qualifier modifiers op).1.parameterFields →
      ∃ last, op.lastNamed? name = some last ∧ field.isOptional = !last.isRequired) ∧
    (KeepsRequired op (callable lib qualifier modifiers op).1 ↔ LastRequired op) := by
  obtain ⟨read, hread, response, _, -, tag, -, rfl⟩ := Analysis.mem_ofDocument_iff.mp hop
  have hcookie : ∀ p ∈ (Analysis.analyze lib read response tag).1.parameters,
      p.place ≠ .cookie := fun p hp => bne_iff_ne.mp (List.mem_filter.mp hp).2
  have hpath : ∀ p ∈ (Analysis.analyze lib read response tag).1.parametersIn .path,
      p.isRequired = true := by
    intro p hp
    obtain ⟨hp, hplace⟩ := List.mem_filter.mp hp
    exact Document.isRequired_of_path hdoc hread (List.mem_filter.mp hp).1 (beq_iff_eq.mp hplace)
  exact ⟨names_parameterFields, mem_names_parameterFields_iff hcookie,
    fun _ _ hfield => lastNamed?_of_mem hfield, keepsRequired_callable_iff hcookie hpath⟩

/-! ## A parameter behind one of its name -/

/-- The name of a pet, as a parameter in its path. -/
def petInPath : Value :=
  .map [(.text "name", .text "id"), (.text "in", .text "path"), (.text "required", .bool true)]

/-- The name of a pet, as a parameter in the query that may be left out. -/
def petInQuery : Value :=
  .map [(.text "name", .text "id"), (.text "in", .text "query")]

/-- A document with one operation, which has the parameters that are given. -/
def petDocument (parameters : List Value) : Value :=
  .map [(.text "paths", .map [(.text "/pets/\x7bid\x7d", .map [(.text "get", .map
    [(.text "parameters", .list parameters),
      (.text "responses", .map [(.text "200", .map [])])])])])]

/-- What tells a parameter apart, and whether it is required. -/
def summary (p : Parameter) : String × Place × Bool := (p.name, p.place, p.isRequired)

/-- An operation with two parameters, found by what its document is read as. -/
theorem exists_op_of_summary (root : Value) (first second : String × Place × Bool)
    (h : (Document.ofValue root "3.0.3").toOption.map (fun doc =>
      (Analysis.ofDocument ⟨[]⟩ doc).1.map fun op => op.parameters.map summary) =
        some [[first, second]]) :
    ∃ doc op p q, Document.ofValue root "3.0.3" = .ok doc ∧
      op ∈ (Analysis.ofDocument ⟨[]⟩ doc).1 ∧ op.parameters = [p, q] ∧
      summary p = first ∧ summary q = second := by
  obtain ⟨doc, op, hdoc, hop, hparameters⟩ :=
    Document.exists_seen_of_map_eq _ root "3.0.3" ⟨[]⟩ _ h
  obtain ⟨p, rest, hlist, hp, hrest⟩ := List.map_eq_cons_iff.mp hparameters
  obtain ⟨q, rfl, hq⟩ := List.map_eq_singleton_iff.mp hrest
  exact ⟨doc, op, p, q, hdoc, hop, hlist, hp, hq⟩

/-- With the parameter in the path behind the one in the query, the method keeps what the operation
requires. -/
theorem keepsRequired_iff_last : ∃ doc op,
    Document.ofValue (petDocument [petInQuery, petInPath]) "3.0.3" = .ok doc ∧
    op ∈ (Analysis.ofDocument ⟨[]⟩ doc).1 ∧
    (callable ⟨[]⟩ "" false op).1.parameterFields.names = ["id"] ∧
    KeepsRequired op (callable ⟨[]⟩ "" false op).1 := by
  obtain ⟨doc, op, q, p, hdoc, hop, hparameters, hq, hp⟩ :=
    exists_op_of_summary (petDocument [petInQuery, petInPath]) ("id", .query, false)
      ("id", .path, true) (by decide +kernel)
  obtain ⟨hqName, -, -⟩ : q.name = "id" ∧ q.place = .query ∧ q.isRequired = false := by
    simpa [summary] using hq
  obtain ⟨hpName, -, hpRequired⟩ : p.name = "id" ∧ p.place = .path ∧ p.isRequired = true := by
    simpa [summary] using hp
  obtain ⟨hnames, -, -, hiff⟩ := keepsRequired_iff hdoc ⟨[]⟩ hop "" false
  refine ⟨doc, op, hdoc, hop, ?_, hiff.mpr fun r hr _ last hlast => ?_⟩
  · rw [hnames, hparameters, List.map_cons, List.map_cons, List.map_nil, hqName, hpName]
    rfl
  · have hr : r.name = "id" := by
      rw [hparameters] at hr
      rcases List.mem_pair.mp hr with rfl | rfl
      · exact hqName
      · exact hpName
    rw [hr, AnalyzedOperation.lastNamed?_of_concat [q] hparameters hpName] at hlast
    rw [← Option.some_inj.mp hlast, hpRequired]

/-- A method need not keep what its operation requires: with the parameter in the query behind the
one in the path, the name of the pet may be left out. -/
theorem not_keepsRequired_shadowed :
    ¬ ∀ (root : Value) (version : String) (doc : Document) (lib : Library)
      (op : AnalyzedOperation) (qualifier : String) (modifiers : Bool),
      Document.ofValue root version = .ok doc → op ∈ (Analysis.ofDocument lib doc).1 →
      KeepsRequired op (callable lib qualifier modifiers op).1 := by
  intro hclaim
  obtain ⟨doc, op, p, q, hdoc, hop, hparameters, hp, hq⟩ :=
    exists_op_of_summary (petDocument [petInPath, petInQuery]) ("id", .path, true)
      ("id", .query, false) (by decide +kernel)
  obtain ⟨hpName, hpPlace, hpRequired⟩ :
      p.name = "id" ∧ p.place = .path ∧ p.isRequired = true := by
    simpa [summary] using hp
  obtain ⟨hqName, -, hqRequired⟩ : q.name = "id" ∧ q.place = .query ∧ q.isRequired = false := by
    simpa [summary] using hq
  have hlast : op.lastNamed? "id" = some q :=
    AnalyzedOperation.lastNamed?_of_concat [p] hparameters hqName
  obtain ⟨field, hfield, hoptional⟩ : ∃ field,
      ("id", field) ∈ (callable ⟨[]⟩ "" false op).1.parameterFields ∧
        field.isOptional = !q.isRequired := exists_field_of_lastNamed? hlast
  have hin : p ∈ op.parametersIn .path :=
    List.mem_filter.mpr ⟨hparameters ▸ List.mem_cons_self, beq_iff_eq.mpr hpPlace⟩
  have hkept := (hclaim _ _ doc ⟨[]⟩ op "" false hdoc hop).required .path (by decide) p hin
    hpRequired field (hpName.symm ▸ hfield)
  rw [hkept, hqRequired] at hoptional
  cases hoptional

end Client

end TypedClient
