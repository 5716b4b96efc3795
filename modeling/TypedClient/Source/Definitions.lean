import TypedClient.Declaration
import TypedClient.Source.TypeText

/-!
# The text of the type library

* `Source.definitionsText`: the text of a list of declarations.  The projections come first if they
  are declared at all; then come the enumerations and types, with a blank line between neighbours.
-/

namespace TypedClient.Source

/-- Lines, each with its end. -/
def linesText (lines : List String) : String :=
  lines.foldr (fun line rest => line ++ "\n" ++ rest) ""

/-- The lines at the head of every generated file. -/
def header : List String :=
  ["/* tslint:disable */", "/* eslint-disable */", ""]

/-- The types on which the projections rest. -/
def projectionBasis : List String :=
  ["type readonlyP = \x7b readonly?: '__readonly' \x7d;",
    "type writeonlyP = \x7b writeonly?: '__writeonly' \x7d;",
    "type Id<T> = \x7b\x7d & \x7b [P in keyof T]: T[P] \x7d;",
    "type Primitive = string | Function | number | boolean | Symbol | undefined | null | Date;",
    "type Without<T, V, WithNevers = \x7b",
    "  [K in keyof T]: Exclude<T[K], undefined> extends V ? never",
    "  : (T[K] extends Record<string, unknown> ? Without<T[K], V> : T[K])",
    "\x7d> = Id<Pick<WithNevers, \x7b",
    "  [K in keyof WithNevers]: WithNevers[K] extends never ? never : K",
    "\x7d[keyof WithNevers]>>;"]

/-- The type that removes the properties with a marker, the marker's name being given with and
without a capital. -/
def removal (name marker : String) : List String :=
  ["type Remove" ++ name ++ "<T> =",
    "  T extends Primitive ? T :",
    "  T extends Array<infer U> ? Remove" ++ name ++ "<U>[] :",
    "  \x7b",
    "    [key in keyof T]: '" ++ marker ++ "' extends keyof T[key] ?",
    "        T[key]['" ++ marker ++ "'] extends '__" ++ marker ++
      "' | undefined ? never : Remove" ++ name ++ "<T[key]> :",
    "      T[key] extends infer TP ? Remove" ++ name ++ "<TP> :",
    "      never",
    "  \x7d;"]

/-- The projections that give the two views of a type. -/
def projections : List String :=
  projectionBasis ++ removal "Readonly" "readonly" ++ removal "Writeonly" "writeonly" ++
    ["export type InputView<T> = Without<RemoveReadonly<T>, never>;",
      "export type OutputView<T> = Without<RemoveWriteonly<T>, never>;",
      ""]

/-- The lines of a declaration of the type library; other declarations have none there. -/
def definitionLines : Declaration → Option (List String)
  | .enumeration name members _ =>
    some (("export enum " ++ name ++ " \x7b") ::
      members.map (fun member => "  " ++ member.name ++ " = " ++ literal member.value ++ ",") ++
      ["\x7d"])
  | .alias name type _ => some ["export type " ++ name ++ " = " ++ typeText 0 type ++ ";"]
  | _ => none

/-- Is the declaration that of the projections? -/
def isProjections : Declaration → Bool
  | .viewUtilities => true
  | _ => false

/-- Groups of lines with a blank line between neighbours. -/
def separated : List (List String) → List String
  | [] => []
  | [lines] => lines
  | lines :: rest => lines ++ "" :: separated rest

/-- The text of the type library. -/
def definitionsText (declarations : List Declaration) : String :=
  linesText (header ++
    (if declarations.any isProjections then projections else []) ++
    separated (declarations.filterMap definitionLines))

end TypedClient.Source
