/-!
# Settings of a generation run

* `Settings`: the options, with their defaults.
-/

namespace TypedClient

/-- The options of a generation run. -/
structure Settings where
  /-- Are tags removed from the names under which methods are exposed? -/
  removesTag : Bool := false
  /-- Are types seen through views?  Without an answer, if the document has properties of one
  direction. -/
  modifiers : Option Bool := none
  /-- The namespace under which the type library is imported, if any. -/
  typeNamespace : Option String := none
  clientName : String := "ApiClient"
  definitionsFile : String := "definitions.ts"
  clientFile : String := "api.ts"
deriving Repr, DecidableEq, Inhabited

end TypedClient
