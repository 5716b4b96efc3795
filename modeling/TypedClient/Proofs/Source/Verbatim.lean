import TypedClient.Proofs.Client.Scope
import TypedClient.Proofs.Script.Comment
import TypedClient.Proofs.Text.Returns
import TypedClient.Source.Files

/-!
# What is written as it is

A generated file is put together from fixed texts and from texts of the document: names, paths, and
the texts among the values of enumerations.  Quotes and backslashes in them are escaped and line
feeds are, but carriage returns are written as they are.  Only a summary loses them, since it is cut
into lines.  So a file holds a carriage return exactly if one of these texts does.

* `TypeExpr.verbatim`, `Callable.verbatim`: the texts that a type or a method is written with.
* `Declaration.inLibrary`, `Declaration.inClient`: those of a declaration in one of the files.
* `Artifact.verbatim`: those of a file; `noReturn_artifactText_iff`: the file has a carriage return
  exactly if one of them does.
-/

namespace TypedClient

/-! ## Texts -/

mutual

/-- The texts of a document that a type is written with. -/
def TypeExpr.verbatim : TypeExpr → List String
  | .named name qualifier view isBuiltin =>
    name :: if isBuiltin && view.isNone then [] else [qualifier]
  | .array items => items.verbatim
  | .object fields index => verbatimOfFields fields ++ verbatimOfIndex index
  | .sum members => verbatimOfMembers members
  | .product members => verbatimOfMembers members
  | .literals values => values.flatMap Value.ownText
  | .primitive _ => []
  | .nullable inner => inner.verbatim

/-- The texts that the properties of an object type are written with. -/
def TypeExpr.verbatimOfFields : List (String × FieldOf TypeExpr) → List String
  | [] => []
  | (name, ⟨type, _, _, _, _⟩) :: rest => name :: (type.verbatim ++ verbatimOfFields rest)

/-- The texts that an index signature is written with. -/
def TypeExpr.verbatimOfIndex : Option TypeExpr → List String
  | none => []
  | some type => type.verbatim

/-- The texts that a list of types is written with. -/
def TypeExpr.verbatimOfMembers : List TypeExpr → List String
  | [] => []
  | type :: rest => type.verbatim ++ verbatimOfMembers rest

end

/-- The texts of a document that a method is written with. -/
def Callable.verbatim (c : Callable) : List String :=
  c.name :: c.path :: (c.pathParameters ++ c.headerParameters ++ c.queryParameters ++
    (c.parametersType.toList ++ c.dataType.toList ++ [c.returnType]).flatMap TypeExpr.verbatim)

/-- The texts that a declaration is written with in the type library. -/
def Declaration.inLibrary : Declaration → List String
  | .enumeration name members _ =>
    name :: members.flatMap fun member => member.name :: member.value.ownText
  | .alias name type _ => name :: type.verbatim
  | _ => []

/-- The texts that a declaration is written with in the client. -/
def Declaration.inClient : Declaration → List String
  | .importTypes file names space =>
    file :: match space with
      | some space => if space.isEmpty then names else [space]
      | none => names
  | .exportTypes names file => names ++ file.toList
  | .callable c => c.verbatim
  | .tagGroup name members => name :: members.flatMap fun member => [member.1, member.2]
  | _ => []

/-- The texts that a file is written with. -/
def Artifact.verbatim (artifact : Artifact) (className : String) : List String :=
  if artifact.name = Generation.clientName then
    className :: artifact.declarations.flatMap Declaration.inClient
  else artifact.declarations.flatMap Declaration.inLibrary

end TypedClient

namespace TypedClient.Source

open Text

variable {s : String} {names lines : List String}

/-! ## Literals -/

theorem return_mem_quoteChar_iff {c : Char} : '\r' ∈ quoteChar c ↔ '\r' = c := by
  rw [quoteChar]
  split_ifs with hslash hquote hfeed
  · rw [hslash]
    decide
  · rw [hquote]
    decide
  · rw [hfeed]
    decide
  · exact List.mem_singleton

@[simp]
theorem noReturn_quote : NoReturn (quote s) ↔ NoReturn s := by
  have hmem : '\r' ∈ s.toList.flatMap quoteChar ↔ '\r' ∈ s.toList := by
    simp only [List.mem_flatMap, return_mem_quoteChar_iff, exists_eq_right']
  rw [quote, noReturn_ofList, quoteChars, List.mem_append, List.mem_cons, hmem, List.mem_singleton,
    NoReturn]
  simp +decide only [false_or, or_false]

theorem noReturn_literal_iff (v : Value) :
    NoReturn (literal v) ↔ ∀ text ∈ v.ownText, NoReturn text := by
  cases v with
  | null => decide
  | bool b => cases b <;> decide
  | int i => exact iff_of_true (noControl_toString_int i).noReturn (by simp [Value.ownText])
  | float x => exact iff_of_true (noControl_float x).noReturn (by simp [Value.ownText])
  | _ => exact noReturn_quote.trans (Value.noReturn_display_iff _)

/-! ## Types -/

theorem noControl_margin (depth : ℕ) : NoControl (margin depth) := by
  rw [margin, noControl_ofList]
  exact blank_le_of_mem_replicate (by decide)

@[simp]
theorem noReturn_margin (depth : ℕ) : NoReturn (margin depth) :=
  (noControl_margin depth).noReturn

theorem noReturn_builtinText_iff (name : String) : NoReturn (builtinText name) ↔ NoReturn name := by
  rw [builtinText]
  split
  · rename_i hname
    rw [hname]
    decide
  · rfl

theorem noReturn_namedText_iff (name qualifier : String) (view : Option View) (isBuiltin : Bool) :
    NoReturn (namedText name qualifier view isBuiltin) ↔
      ∀ text ∈ (TypeExpr.named name qualifier view isBuiltin).verbatim, NoReturn text := by
  have hprojection (v : View) : NoReturn v.projection := by cases v <;> decide
  rw [TypeExpr.verbatim, List.forall_mem_cons]
  cases view with
  | none =>
    cases isBuiltin with
    | false => simp [namedText, and_comm]
    | true => simp [namedText, noReturn_builtinText_iff]
  | some v =>
    cases isBuiltin with
    | false => simp +decide [namedText, hprojection, and_comm]
    | true => simp +decide [namedText, hprojection, noReturn_builtinText_iff, and_comm]

theorem noReturn_grouped_iff (type : TypeExpr) : NoReturn (grouped type s) ↔ NoReturn s := by
  rw [grouped]
  split
  · simp +decide
  · rfl

theorem noReturn_fieldKey_iff (name : String) (isReadOnly isOptional : Bool) :
    NoReturn (fieldKey name isReadOnly isOptional) ↔ NoReturn name := by
  cases isReadOnly <;> cases isOptional <;> simp +decide [fieldKey]

theorem noReturn_taggedText_iff (isReadOnly isWriteOnly isMarked : Bool) :
    NoReturn (taggedText isReadOnly isWriteOnly isMarked s) ↔ NoReturn s := by
  cases isReadOnly <;> cases isWriteOnly <;> cases isMarked <;> simp +decide [taggedText]

mutual

/-- A type is written without a carriage return exactly if its texts have none. -/
theorem noReturn_typeText_iff (depth : ℕ) : ∀ type : TypeExpr,
    NoReturn (typeText depth type) ↔ ∀ text ∈ type.verbatim, NoReturn text
  | .named name qualifier view isBuiltin => by
    rw [typeText]
    exact noReturn_namedText_iff name qualifier view isBuiltin
  | .primitive type => by
    rw [typeText, TypeExpr.verbatim]
    cases type <;> decide
  | .literals values => by
    rw [typeText, TypeExpr.verbatim, noReturn_joinWith (by decide), List.forall_mem_map,
      List.forall_mem_flatMap]
    exact forall₂_congr fun v _ => noReturn_literal_iff v
  | .nullable inner => by
    rw [typeText, TypeExpr.verbatim, noReturn_append, noReturn_typeText_iff depth inner]
    exact and_iff_left (by decide)
  | .array items => by
    rw [typeText, TypeExpr.verbatim, noReturn_append, noReturn_grouped_iff,
      noReturn_typeText_iff depth items]
    exact and_iff_left (by decide)
  | .sum members => by
    rw [typeText, TypeExpr.verbatim, noReturn_joinWith (by decide)]
    exact noReturn_memberTexts_iff depth members
  | .product members => by
    rw [typeText, TypeExpr.verbatim, noReturn_joinWith (by decide)]
    exact noReturn_groupedTexts_iff depth members
  | .object fields index => by
    have hlast : NoReturn (margin depth ++ "\x7d") :=
      noReturn_append.mpr ⟨noReturn_margin depth, by decide⟩
    have hfirst : NoReturn "\x7b" := by decide
    rw [typeText, TypeExpr.verbatim, List.forall_mem_append, ← noReturn_fieldLines_iff depth fields,
      ← noReturn_indexLines_iff depth index]
    split
    · rename_i hempty
      rw [Bool.and_eq_true, List.isEmpty_iff, Option.isNone_iff_eq_none] at hempty
      rw [hempty.1, hempty.2, fieldLines, indexLines]
      decide
    · rw [noReturn_joinWith (by decide), List.forall_mem_cons, List.forall_mem_append,
        List.forall_mem_append, List.forall_mem_singleton, and_iff_left hlast,
        and_iff_right hfirst]

theorem noReturn_memberTexts_iff (depth : ℕ) : ∀ members : List TypeExpr,
    (∀ text ∈ memberTexts depth members, NoReturn text) ↔
      ∀ text ∈ TypeExpr.verbatimOfMembers members, NoReturn text
  | [] => by rw [memberTexts, TypeExpr.verbatimOfMembers]
  | type :: rest => by
    rw [memberTexts, TypeExpr.verbatimOfMembers, List.forall_mem_cons, List.forall_mem_append,
      noReturn_typeText_iff depth type, noReturn_memberTexts_iff depth rest]

theorem noReturn_groupedTexts_iff (depth : ℕ) : ∀ members : List TypeExpr,
    (∀ text ∈ groupedTexts depth members, NoReturn text) ↔
      ∀ text ∈ TypeExpr.verbatimOfMembers members, NoReturn text
  | [] => by rw [groupedTexts, TypeExpr.verbatimOfMembers]
  | type :: rest => by
    rw [groupedTexts, TypeExpr.verbatimOfMembers, List.forall_mem_cons, List.forall_mem_append,
      noReturn_grouped_iff, noReturn_typeText_iff depth type, noReturn_groupedTexts_iff depth rest]

theorem noReturn_fieldLines_iff (depth : ℕ) : ∀ fields : List (String × FieldOf TypeExpr),
    (∀ line ∈ fieldLines depth fields, NoReturn line) ↔
      ∀ text ∈ TypeExpr.verbatimOfFields fields, NoReturn text
  | [] => by rw [fieldLines, TypeExpr.verbatimOfFields]
  | (name, ⟨type, isOptional, isReadOnly, isWriteOnly, isMarked⟩) :: rest => by
    rw [fieldLines, TypeExpr.verbatimOfFields, List.forall_mem_cons, List.forall_mem_cons,
      List.forall_mem_append, ← noReturn_typeText_iff (depth + 1) type,
      noReturn_fieldLines_iff depth rest, ← and_assoc]
    simp +decide only [noReturn_append, noReturn_margin, noReturn_fieldKey_iff,
      noReturn_taggedText_iff, true_and, and_true]

theorem noReturn_indexLines_iff (depth : ℕ) : ∀ index : Option TypeExpr,
    (∀ line ∈ indexLines depth index, NoReturn line) ↔
      ∀ text ∈ TypeExpr.verbatimOfIndex index, NoReturn text
  | none => by rw [indexLines, TypeExpr.verbatimOfIndex]
  | some type => by
    rw [indexLines, TypeExpr.verbatimOfIndex, List.forall_mem_singleton,
      ← noReturn_typeText_iff (depth + 1) type]
    simp +decide only [noReturn_append, noReturn_margin, true_and, and_true]

end

/-! ## The type library -/

theorem noReturn_linesText_iff : NoReturn (linesText lines) ↔ ∀ line ∈ lines, NoReturn line := by
  induction lines with
  | nil => exact iff_of_true (by decide) (by simp)
  | cons line rest ih =>
    have hend : NoReturn "\n" := by decide
    show NoReturn (line ++ "\n" ++ linesText rest) ↔ _
    rw [noReturn_append, noReturn_append, ih, List.forall_mem_cons, and_iff_left hend]

theorem forall_mem_separated_iff {groups : List (List String)} :
    (∀ line ∈ separated groups, NoReturn line) ↔
      ∀ lines ∈ groups, ∀ line ∈ lines, NoReturn line := by
  induction groups with
  | nil => simp [separated]
  | cons lines rest ih =>
    cases rest with
    | nil => rw [separated, List.forall_mem_singleton]
    | cons next rest =>
      show (∀ line ∈ lines ++ "" :: separated (next :: rest), NoReturn line) ↔ _
      rw [List.forall_mem_append, List.forall_mem_cons (l := separated _), ih,
        List.forall_mem_cons (l := next :: rest)]
      exact and_congr_right fun _ => and_iff_right (by decide)

theorem noReturn_definitionLines_iff : ∀ d : Declaration,
    (∀ lines ∈ definitionLines d, ∀ line ∈ lines, NoReturn line) ↔
      ∀ text ∈ d.inLibrary, NoReturn text
  | .enumeration name members source => by
    simp +decide only [definitionLines, Declaration.inLibrary, Option.mem_some_iff, forall_eq',
      List.forall_mem_cons, List.forall_mem_append, List.forall_mem_map, List.forall_mem_flatMap,
      List.cons_append, noReturn_append, noReturn_literal_iff, true_and, and_true]
  | .alias name type source => by
    simp +decide only [definitionLines, Declaration.inLibrary, Option.mem_some_iff, forall_eq',
      List.forall_mem_cons, noReturn_append, noReturn_typeText_iff, true_and, and_true]
  | .viewUtilities => by simp [definitionLines, Declaration.inLibrary]
  | .importTypes .. => by simp [definitionLines, Declaration.inLibrary]
  | .exportTypes .. => by simp [definitionLines, Declaration.inLibrary]
  | .callable _ => by simp [definitionLines, Declaration.inLibrary]
  | .tagGroup .. => by simp [definitionLines, Declaration.inLibrary]
  | .pickHelper => by simp [definitionLines, Declaration.inLibrary]

theorem noReturn_header : ∀ line ∈ header, NoReturn line := by decide

-- A fixed line is taken for the list of its characters: to decide this of a text means to decode
-- it.
theorem noReturn_removal {name marker : String} (hname : NoReturn name)
    (hmarker : NoReturn marker) :
    ∀ line ∈ removal name marker, NoReturn line := by
  simp only [removal, List.forall_mem_cons, List.not_mem_nil, false_implies, implies_true, and_true,
    noReturn_append, hname, hmarker]
  and_intros <;> exact noReturn_ofList.mpr (by decide)

theorem noReturn_projections : ∀ line ∈ projections, NoReturn line := by
  have hbasis : ∀ line ∈ projectionBasis, NoReturn line := by
    simp only [projectionBasis, List.forall_mem_cons, List.not_mem_nil, false_implies, implies_true,
      and_true]
    and_intros <;> exact noReturn_ofList.mpr (by decide)
  simp only [projections, List.forall_mem_append, List.forall_mem_cons, List.not_mem_nil,
    false_implies, implies_true, and_true]
  refine ⟨⟨⟨hbasis, noReturn_removal ?_ ?_⟩, noReturn_removal ?_ ?_⟩, ?_⟩
  all_goals and_intros <;> exact noReturn_ofList.mpr (by decide)

theorem noReturn_definitionsText_iff (declarations : List Declaration) :
    NoReturn (definitionsText declarations) ↔
      ∀ text ∈ declarations.flatMap Declaration.inLibrary, NoReturn text := by
  have hprojections :
      ∀ line ∈ if declarations.any isProjections then projections else [], NoReturn line := by
    split
    · exact noReturn_projections
    · exact fun line h => absurd h List.not_mem_nil
  rw [definitionsText, noReturn_linesText_iff, List.forall_mem_append, List.forall_mem_append,
    forall_mem_separated_iff, List.forall_mem_filterMap, List.forall_mem_flatMap,
    and_iff_right ⟨noReturn_header, hprojections⟩]
  exact forall₂_congr fun d _ => noReturn_definitionLines_iff d

/-! ## Methods -/

theorem noReturn_placeholderPattern_iff (name : String) :
    NoReturn (placeholderPattern name) ↔ NoReturn name := by
  have hchar (c : Char) :
      '\r' ∈ (if isPatternSpecial c then ['\\', c] else [c]) ↔ '\r' = c := by
    split
    · simp
    · exact List.mem_singleton
  have hname : NoReturn (String.ofList
      ((PathTemplate.opening :: name.toList ++ [PathTemplate.closing]).flatMap
        fun c => if isPatternSpecial c then ['\\', c] else [c])) ↔ NoReturn name := by
    simp only [noReturn_ofList, List.mem_flatMap, hchar, exists_eq_right', List.cons_append,
      List.mem_cons, List.mem_append, List.not_mem_nil, or_false]
    simp +decide [NoReturn]
  rw [placeholderPattern, noReturn_append, noReturn_append, hname]
  simp +decide only [true_and, and_true]

theorem noReturn_urlText_iff (path : String) (names : List String) :
    NoReturn (urlText path names) ↔ NoReturn path ∧ ∀ name ∈ names, NoReturn name := by
  have hfold : ∀ url : String, NoReturn (names.foldl (fun url name =>
      url ++ ".replace(" ++ placeholderPattern name ++ ", String(params[" ++ quote name ++ "]))")
      url) ↔ NoReturn url ∧ ∀ name ∈ names, NoReturn name := by
    induction names with
    | nil => simp
    | cons name rest ih =>
      intro url
      rw [List.foldl_cons, ih, List.forall_mem_cons, ← and_assoc]
      simp +decide only [noReturn_append, noReturn_placeholderPattern_iff, noReturn_quote, and_true,
        and_assoc, and_self_left]
  rw [urlText, hfold, noReturn_quote]

theorem noReturn_braced_iff : NoReturn (braced names) ↔ ∀ name ∈ names, NoReturn name := by
  have hcomma : NoReturn ", " := by decide
  simp +decide only [braced, noReturn_append, noReturn_joinWith hcomma, true_and, and_true]

theorem noReturn_pickText_iff : NoReturn (pickText names) ↔ ∀ name ∈ names, NoReturn name := by
  have hcomma : NoReturn ", " := by decide
  simp +decide only [pickText, noReturn_append, noReturn_joinWith hcomma, List.forall_mem_map,
    noReturn_quote, true_and, and_true]

theorem noReturn_optionsText_iff (c : Callable) :
    NoReturn (optionsText c) ↔
      (∀ name ∈ c.headerParameters, NoReturn name) ∧ ∀ name ∈ c.queryParameters, NoReturn name := by
  have hpicked (label : String) (hlabel : NoReturn label) (names : List String) :
      (∀ text ∈ (if names.isEmpty then [] else [label ++ pickText names]), NoReturn text) ↔
        ∀ name ∈ names, NoReturn name := by
    cases names with
    | nil => simp
    | cons name rest =>
      rw [if_neg (by simp), List.forall_mem_singleton, noReturn_append, noReturn_pickText_iff]
      exact and_iff_right hlabel
  have hprojections : (∀ text ∈ Client.projectionTexts c, NoReturn text) ↔
      (∀ name ∈ c.headerParameters, NoReturn name) ∧
        ∀ name ∈ c.queryParameters, NoReturn name := by
    rw [Client.projectionTexts, List.forall_mem_append, hpicked _ (by decide),
      hpicked _ (by decide)]
  rw [Client.optionsText_eq, ← hprojections]
  split
  · rename_i hempty
    rw [List.isEmpty_iff.mp hempty]
    decide
  · simp +decide only [noReturn_append, noReturn_braced_iff, true_and, and_true]

theorem noReturn_signatureText_iff (c : Callable) :
    NoReturn (signatureText c) ↔
      ∀ type ∈ c.parametersType.toList ++ c.dataType.toList, ∀ text ∈ type.verbatim,
        NoReturn text := by
  have hcomma : NoReturn ", " := by decide
  rw [signatureText, noReturn_joinWith hcomma, List.forall_mem_append, List.forall_mem_append,
    List.forall_mem_append]
  cases c.parametersType <;> cases c.dataType <;>
    simp +decide [noReturn_typeText_iff]

theorem noReturn_targetText_iff (c : Callable) :
    NoReturn (targetText c) ↔ ∀ text ∈ c.returnType.verbatim, NoReturn text := by
  have hmethod : NoReturn (if hasShorthand c.method then c.method.name else "request") := by
    cases c.method <;> decide
  simp +decide only [targetText, noReturn_append, hmethod, noReturn_typeText_iff, true_and,
    and_true]

theorem noReturn_argumentTexts_iff (c : Callable) :
    (∀ text ∈ argumentTexts c, NoReturn text) ↔
      NoReturn (urlText c.path c.pathParameters) ∧ NoReturn (optionsText c) := by
  have hlabel : NoReturn c.method.label := by cases c.method <;> decide
  have hdata : ∀ text ∈ (if c.sendsData then [if c.dataType.isSome then "data" else "\x7b\x7d"]
      else []), NoReturn text := by
    cases c.sendsData <;> cases c.dataType.isSome <;> decide
  rw [argumentTexts]
  split
  · rw [List.forall_mem_append, List.forall_mem_append, List.forall_mem_singleton,
      List.forall_mem_singleton, and_iff_left hdata]
  · simp +decide only [List.forall_mem_singleton, noReturn_append, noReturn_quote, hlabel, true_and,
      and_comm]

/-- Of the lines of a comment only the one that names the operation can have a carriage return, in
the path. -/
theorem noReturn_docLines_iff (c : Callable) :
    (∀ line ∈ docLines c, NoReturn line) ↔ NoReturn c.path := by
  have hlabel : NoReturn c.label ↔ NoReturn c.path := by
    have hmethod : NoReturn c.method.label := by cases c.method <;> decide
    simp +decide only [Callable.label, operationLabel, noReturn_append, hmethod, true_and]
  have hsummary : ∀ summary : String,
      ∀ line ∈ (Text.lines (Text.replaceAll ['*', '/'] ['*', ' ', '/'] summary.toList)).map
        (fun line => String.ofList (Text.trim line)), NoReturn line := by
    intro summary
    rw [List.forall_mem_map]
    intro line hline
    rw [noReturn_ofList]
    exact fun h => return_notMem_of_mem_lines hline ((infix_trim line).subset h)
  constructor
  · intro h
    by_cases hempty : c.label = ""
    · exact hlabel.mp (hempty ▸ by decide)
    · refine hlabel.mp (h _ (List.mem_filter.mpr ⟨?_, ?_⟩))
      · exact List.mem_append_left _ (List.mem_append_right _ List.mem_cons_self)
      · rwa [Bool.not_eq_true', Bool.eq_false_iff, ne_eq, String.isEmpty_iff]
  · intro hpath line hline
    have hmem := (List.mem_filter.mp hline).1
    rw [List.mem_append, List.mem_append, List.mem_singleton] at hmem
    rcases hmem with (hmem | rfl) | hmem
    · rcases hs : c.summary with _ | summary
      · rw [hs] at hmem
        exact absurd hmem List.not_mem_nil
      · rw [hs] at hmem
        exact hsummary summary line hmem
    · exact hlabel.mpr hpath
    · split at hmem
      · rw [List.mem_singleton.mp hmem]
        decide
      · exact absurd hmem List.not_mem_nil

theorem noReturn_callableLines_iff (c : Callable) :
    (∀ line ∈ callableLines c, NoReturn line) ↔ ∀ text ∈ c.verbatim, NoReturn text := by
  simp +decide only [callableLines, Callable.verbatim, List.forall_mem_append,
    List.forall_mem_cons, List.forall_mem_map, noReturn_append, noReturn_docLines_iff,
    noReturn_signatureText_iff, noReturn_targetText_iff, noReturn_argumentTexts_iff,
    noReturn_urlText_iff, noReturn_optionsText_iff, List.forall_mem_flatMap, true_and, and_true]
  tauto

/-! ## The client -/

/-- What a declaration gives for the client, in whichever part of it. -/
theorem noReturn_clientLines_iff : ∀ d : Declaration,
    (∀ line ∈ importLine? d, NoReturn line) ∧ (∀ line ∈ exportLine? d, NoReturn line) ∧
      (∀ lines ∈ callableLines? d, ∀ line ∈ lines, NoReturn line) ∧
      (∀ lines ∈ groupLines? d, ∀ line ∈ lines, NoReturn line) ↔
    ∀ text ∈ d.inClient, NoReturn text
  | .importTypes file names none => by
    simp +decide [importLine?, exportLine?, callableLines?, groupLines?, Declaration.inClient,
      noReturn_braced_iff, and_comm]
  | .importTypes file names (some space) => by
    by_cases hempty : space = ""
    · simp +decide [importLine?, exportLine?, callableLines?, groupLines?, Declaration.inClient,
        noReturn_braced_iff, hempty, and_comm]
    · simp +decide [importLine?, exportLine?, callableLines?, groupLines?, Declaration.inClient,
        hempty, and_comm]
  | .exportTypes names none => by
    simp +decide [importLine?, exportLine?, callableLines?, groupLines?, Declaration.inClient,
      noReturn_braced_iff]
  | .exportTypes names (some file) => by
    by_cases hempty : file = ""
    · simp +decide [importLine?, exportLine?, callableLines?, groupLines?, Declaration.inClient,
        noReturn_braced_iff, hempty, or_imp, forall_and]
    · simp +decide [importLine?, exportLine?, callableLines?, groupLines?, Declaration.inClient,
        noReturn_braced_iff, hempty, or_imp, forall_and]
  | .callable c => by
    simp only [importLine?, exportLine?, callableLines?, groupLines?, Declaration.inClient,
      Option.mem_some_iff, forall_eq', Option.not_mem_none, false_implies, implies_true,
      noReturn_callableLines_iff, true_and, and_true]
  | .tagGroup name members => by
    simp +decide only [importLine?, exportLine?, callableLines?, groupLines?, groupLines,
      Declaration.inClient, Option.mem_some_iff, forall_eq', Option.not_mem_none, false_implies,
      implies_true, List.forall_mem_cons, List.forall_mem_append, List.forall_mem_map,
      List.forall_mem_flatMap, List.cons_append, noReturn_append, true_and, and_true]
  | .viewUtilities => by
    simp [importLine?, exportLine?, callableLines?, groupLines?, Declaration.inClient]
  | .enumeration .. => by
    simp [importLine?, exportLine?, callableLines?, groupLines?, Declaration.inClient]
  | .alias .. => by
    simp [importLine?, exportLine?, callableLines?, groupLines?, Declaration.inClient]
  | .pickHelper => by
    simp [importLine?, exportLine?, callableLines?, groupLines?, Declaration.inClient]

theorem noReturn_classHead_iff (name : String) :
    (∀ line ∈ classHead name, NoReturn line) ↔ NoReturn name := by
  simp only [classHead, List.forall_mem_cons, List.not_mem_nil, false_implies, implies_true,
    and_true, noReturn_append]
  constructor
  · exact fun h => h.2.1.1.2
  · intro hname
    and_intros <;> first | exact hname | exact noReturn_ofList.mpr (by decide)

theorem noReturn_clientText_iff (declarations : List Declaration) (className : String) :
    NoReturn (clientText declarations className) ↔
      ∀ text ∈ className :: declarations.flatMap Declaration.inClient, NoReturn text := by
  have hpick : ∀ line ∈ if declarations.any isPickHelper then pickLines else [],
      NoReturn line := by
    split
    · simp only [pickLines, List.forall_mem_cons, List.not_mem_nil, false_implies, implies_true,
        and_true]
      and_intros <;> exact noReturn_ofList.mpr (by decide)
    · exact fun line h => absurd h List.not_mem_nil
  rw [clientText, noReturn_linesText_iff]
  simp only [List.forall_mem_cons, List.forall_mem_append, List.forall_mem_filterMap,
    List.forall_mem_flatten, List.forall_mem_flatMap, ← noReturn_clientLines_iff, forall_and,
    noReturn_classHead_iff]
  constructor
  · rintro ⟨⟨⟨⟨⟨⟨⟨-, himport⟩, hexport⟩, hname⟩, hcallable⟩, hgroup⟩, -⟩, -⟩
    exact ⟨hname, himport, hexport, hcallable, hgroup⟩
  · rintro ⟨hname, himport, hexport, hcallable, hgroup⟩
    exact ⟨⟨⟨⟨⟨⟨⟨⟨noReturn_header, by decide⟩, himport⟩, hexport⟩, hname⟩, hcallable⟩, hgroup⟩,
      by decide⟩, hpick⟩

/-! ## Files -/

/-- A file is written without a carriage return exactly if the texts of the document that it is
written with have none. -/
theorem noReturn_artifactText_iff (artifact : Artifact) (className : String) :
    NoReturn (artifactText artifact className) ↔
      ∀ text ∈ artifact.verbatim className, NoReturn text := by
  rw [artifactText, Artifact.verbatim]
  split
  · exact noReturn_clientText_iff _ _
  · exact noReturn_definitionsText_iff _

end TypedClient.Source
