import TypedClient.Declaration

/-!
# The type library

One declaration for every named schema, in the order of the document.

* `TypeLibrary.members`: the members of an enumeration, with names that are all different.
* `TypeLibrary.declarations`: the declarations of the library and the diagnostics on the way.
-/

namespace TypedClient.TypeLibrary

/-- The identifier that a text gives, in upper case. -/
def memberBase (s : String) : String :=
  Identifier.sanitize (String.ofList (Text.upper s.toList))

/-- The members for a list of texts: one for each, in order, named after the text. -/
def members (values : List String) : List EnumMember :=
  ((Identifier.assign [] (values.map memberBase)).zip values).map fun (name, value) =>
    ⟨name, .text value⟩

/-- The texts in a list of values, if all of them are texts. -/
def texts? : List Value → Option (List String)
  | [] => some []
  | .text s :: rest => (texts? rest).map (s :: ·)
  | _ => none

/-- The declaration of an enumeration: texts give members, other values a type of literals. -/
def enumeration (name : String) (values : List Value) (source : String) : Declaration :=
  match texts? values with
  | some texts => .enumeration name (members texts) source
  | none => .alias name (.literals values) source

/-- The declaration of a named schema.  One that refers to a schema which does not exist is still
declared, as `any`, so that its name can be imported. -/
def declaration (lib : Library) (modifiers : Bool) (name : String) (schema : Schema) :
    Declaration × List Diagnostic :=
  let typeName := lib.typeName name
  let source := "#/components/schemas/" ++ name
  match schema with
  | .primitive _ _ (first :: more) _ => (enumeration typeName (first :: more) source, [])
  | schema =>
    match Mapping.map lib { markModifiers := modifiers } source schema with
    | .ok mapped => (.alias typeName mapped.result source, mapped.notes)
    | .error error =>
      (.alias typeName .any source, [Analysis.resolutionDiagnostic error source])

/-- The declarations of the library and the diagnostics in order. -/
def declarations (lib : Library) (modifiers : Bool) : List Declaration × List Diagnostic :=
  let declared := lib.schemas.map fun entry => declaration lib modifiers entry.1 entry.2
  ((if modifiers then [.viewUtilities] else []) ++ declared.map Prod.fst,
    declared.flatMap Prod.snd)

end TypedClient.TypeLibrary
