/-!
# Options on a command line

An option has a long name with two hyphens, a short one with a single hyphen, or both.  A value
follows its option as the next argument, or in the same argument: behind an equals sign for a long
name, right behind a short one.  Short names of options without values may share one hyphen.  Two
hyphens alone end the options.

* `Command.Rule`: an option as it is declared.
* `Command.split?`: the options and the other arguments of a command line.
-/

namespace TypedClient.Command

/-- An option as it is declared. -/
structure Rule (α : Type) where
  names : List String
  takesValue : Bool
  meaning : α

/-- An option as it is given; the value is empty if the option takes none. -/
structure Given (α : Type) where
  meaning : α
  value : String
deriving Repr

/-- The rule for a name. -/
def ruleFor? {α : Type} (rules : List (Rule α)) (name : String) : Option (Rule α) :=
  rules.find? fun rule => rule.names.contains name

/-- Is the name one with two hyphens? -/
def isLong (name : String) : Bool :=
  "--".toList.isPrefixOf name.toList

/-- An argument cut at its first equals sign. -/
def cutAtEquals (s : List Char) : String × Option String :=
  let name := s.takeWhile (· ≠ '=')
  match s.drop name.length with
  | [] => (String.ofList name, none)
  | _ :: value => (String.ofList name, some (String.ofList value))

/-- The options that the letters behind one hyphen give, and whether the last one takes the next
argument as its value. -/
def shortOptions? {α : Type} (rules : List (Rule α)) (next : Option String) :
    List Char → Option (List (Given α) × Bool)
  | [] => some ([], false)
  | letter :: rest => do
    let rule ← ruleFor? rules (String.ofList ['-', letter])
    if rule.takesValue then
      if rest.isEmpty then return ([⟨rule.meaning, ← next⟩], true)
      else return ([⟨rule.meaning, String.ofList rest⟩], false)
    else
      let (more, takesNext) ← shortOptions? rules next rest
      return (⟨rule.meaning, ""⟩ :: more, takesNext)

/-- The options that an argument with a hyphen gives, and whether the last one takes the next
argument as its value. -/
def optionsOf? {α : Type} (rules : List (Rule α)) (argument : String) (next : Option String) :
    Option (List (Given α) × Bool) :=
  let (name, value) := cutAtEquals argument.toList
  match (if isLong name then ruleFor? rules name else none) with
  | some rule =>
    if rule.takesValue then
      match value with
      | some v => some ([⟨rule.meaning, v⟩], false)
      | none => next.map fun v => ([⟨rule.meaning, v⟩], true)
    else if value.isSome then none
    else some ([⟨rule.meaning, ""⟩], false)
  | none =>
    if isLong argument then none else shortOptions? rules next (argument.toList.drop 1)

/-- The options and the other arguments of a command line.  Unless options may stand behind other
arguments, the first of these ends the options.  Nothing if an option is unknown or its value does
not fit. -/
def split? {α : Type} (rules : List (Rule α)) (mixes : Bool) :
    List String → Option (List (Given α) × List String)
  | [] => some ([], [])
  | argument :: rest =>
    if argument = "--" then some ([], rest)
    else if argument.toList.head? == some '-' && argument != "-" then
      match optionsOf? rules argument rest.head? with
      | none => none
      | some (given, takesNext) =>
        (split? rules mixes (rest.drop (if takesNext then 1 else 0))).map fun (more, others) =>
          (given ++ more, others)
    else if mixes then
      (split? rules mixes rest).map fun (more, others) => (more, argument :: others)
    else some ([], argument :: rest)
termination_by arguments => arguments.length
decreasing_by
  all_goals simp only [List.length_drop, List.length_cons]
  all_goals omega

end TypedClient.Command
