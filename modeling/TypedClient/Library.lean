import TypedClient.Schema
import TypedClient.Naming

/-!
# The library of named schemas

A document's named schemas refer to each other by name.  The library looks names up, follows
chains of references to the schema they end in, and gives every schema the name of its type.

* `Library`: the named schemas, in the order of the document.
* `Library.resolve`: the schema at the end of a chain of references.  Each step visits a name that
  was not visited before, so the chain ends, is broken, or comes back to a name it has seen.
* `Library.typeName`: the name of a schema's type; different schemas have different type names.
-/

namespace TypedClient

/-- Why a reference has no schema: a name on the way is not in the library, or the names on the
way come back to one of them. -/
inductive ResolutionError where
  | unknown (name : String) (location : Option String)
  | circular (chain : List String) (location : Option String)
deriving Repr, DecidableEq, Inhabited

namespace ResolutionError

/-- The wording of the error. -/
def message : ResolutionError → String
  | .unknown name _ => "Reference to unknown schema '" ++ name ++ "'"
  | .circular chain _ => "Circular reference chain: " ++ Text.joinWith " -> " chain

/-- The place of the reference, if it was given. -/
def location : ResolutionError → Option String
  | .unknown _ location => location
  | .circular _ location => location

/-- The name that could not be resolved; for a circle, the one it was entered by. -/
def schemaName : ResolutionError → String
  | .unknown name _ => name
  | .circular chain _ => chain.headD ""

/-- The stable word for the cause. -/
def code : ResolutionError → String
  | .unknown _ _ => "unresolved-reference"
  | .circular _ _ => "circular-reference"

end ResolutionError

/-- The named schemas of a document. -/
structure Library where
  schemas : Named Schema
deriving Repr, BEq, Inhabited

/-- Names that the generated type library declares or uses itself. -/
def libraryNames : List String :=
  ["readonlyP", "writeonlyP", "Id", "Primitive", "Without", "RemoveReadonly", "RemoveWriteonly",
    "InputView", "OutputView", "Date"]

namespace Library

/-- The schema under a name. -/
def lookup (lib : Library) (name : String) (location : Option String) :
    Except ResolutionError Schema :=
  match lib.schemas.get? name with
  | some schema => .ok schema
  | none => .error (.unknown name location)

/-- The names of the library that are not among the visited ones. -/
def unvisited (lib : Library) (visited : List String) : List String :=
  lib.schemas.names.filter fun n => !visited.contains n

theorem mem_names_of_get? {α : Type} {name : String} {entries : Named α} {entry : α}
    (h : entries.get? name = some entry) : name ∈ entries.names := by
  induction entries with
  | nil => simp [Named.get?] at h
  | cons p rest ih =>
    obtain ⟨n, e⟩ := p
    simp only [Named.get?] at h
    by_cases hn : n = name
    · simp [Named.names, hn]
    · simp only [hn, if_false] at h
      exact List.mem_cons_of_mem _ (ih h)

/-- Visiting a further name of the library leaves fewer names. -/
theorem length_unvisited_lt {lib : Library} {visited : List String} {name : String}
    (hmem : name ∈ lib.schemas.names) (hnew : visited.contains name = false) :
    (lib.unvisited (visited ++ [name])).length < (lib.unvisited visited).length := by
  have hsub : lib.unvisited (visited ++ [name]) =
      (lib.unvisited visited).filter fun n => n != name := by
    simp only [unvisited, List.filter_filter]
    congr 1
    funext n
    by_cases h : n = name <;> simp [h]
  rw [hsub]
  refine List.length_filter_lt_length_iff_exists.mpr ⟨name, ?_, by simp⟩
  simp only [unvisited, List.mem_filter]
  exact ⟨hmem, by rw [hnew]; rfl⟩

/-- The schema at the end of the chain that goes on with `schema` after the visited names. -/
def follow (lib : Library) (location : Option String) (visited : List String) (schema : Schema) :
    Except ResolutionError Schema :=
  match schema with
  | .reference target _ =>
    if _hnew : visited.contains target then
      .error (.circular (visited ++ [target]) location)
    else
      match _hget : lib.schemas.get? target with
      | none => .error (.unknown target location)
      | some next => lib.follow location (visited ++ [target]) next
  | concrete => .ok concrete
termination_by (lib.unvisited visited).length
decreasing_by
  exact length_unvisited_lt (mem_names_of_get? _hget) (by simpa using _hnew)

/-- The schema at the end of the chain of references that starts with a schema; a schema that is
no reference stands for itself. -/
def resolve (lib : Library) (schema : Schema) (location : Option String) :
    Except ResolutionError Schema :=
  lib.follow location [] schema

/-- Does the schema resolve to an enumeration? -/
def isEnumeration (lib : Library) (schema : Schema) : Except ResolutionError Bool := do
  return (← lib.resolve schema none).isEnumeration

/-- The type names of the schemas: safe identifiers, none of them alike and none taken by the
library itself. -/
def typeNames (lib : Library) : Named String :=
  lib.schemas.names.zip
    (Identifier.assign libraryNames (lib.schemas.names.map Identifier.sanitize))

/-- The type name of a schema; a name outside the library is merely made safe. -/
def typeName (lib : Library) (name : String) : String :=
  (lib.typeNames.get? name).getD (Identifier.sanitize name)

end Library

end TypedClient
