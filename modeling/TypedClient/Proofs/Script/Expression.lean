import TypedClient.Proofs.Script.Replace
import TypedClient.Source.ClientText

/-!
# Expressions of the generated script

The path of a call is written as a string literal with calls of `replace` behind it, each with a
pattern and a parameter.  This is the script's side of it: how such a text is read, and what it
stands for.

* `Literal`, `Literal.read`: the two kinds of literals.  None runs over the end of a line, and a
  pattern knows more ends of lines than a string.
* `Expression`, `Expression.read?`, `Expression.value`: an expression, read from a text, and its
  value for given parameters.
* `Readable`, `read?_urlText`, `readable_of_read?_urlText`: what the expressions that are written
  for a path are read as.

Escapes by the code of a character, and patterns that do not spell a text, are not read.
-/

namespace TypedClient.Script

open PathTemplate (token opening closing)
open Source (quoteChar quoteChars quote placeholderPattern isPatternSpecial urlText)

/-! ## Literals -/

/-- A kind of literals: the character that closes them, what a character stands for behind a
backslash, and which characters stand for themselves. -/
structure Literal where
  closing : Char
  escaped? : Char → Option Char
  stands : Char → Bool
  back_ne_closing : '\\' ≠ closing

/-- The text of a literal, up to the character that closes it, and what is behind it; `escaped` if
a backslash is in front. -/
def Literal.read (kind : Literal) : (escaped : Bool) → List Char → Option (List Char × List Char)
  | _, [] => none
  | true, c :: rest =>
    (kind.escaped? c).bind fun d => (kind.read false rest).map fun read => (d :: read.1, read.2)
  | false, c :: rest =>
    if c = kind.closing then some ([], rest)
    else if c = '\\' then kind.read true rest
    else if kind.stands c then (kind.read false rest).map fun read => (c :: read.1, read.2)
    else none

/-- The letters that stand for another character behind a backslash in a string. -/
def letters : List (Char × Char) :=
  [('n', '\n'), ('r', '\r'), ('t', '\t'), ('b', '\x08'), ('v', '\x0b'), ('f', '\x0c')]

/-- The characters that start an escape by a code, or that end the line. -/
def codes : List Char :=
  ['x', 'u', '0', '1', '2', '3', '4', '5', '6', '7', '8', '9', '\n', '\r', '\u2028', '\u2029']

/-- Strings in single quotes. -/
def string : Literal where
  closing := '\''
  escaped? c := if c ∈ codes then none else some ((letters.lookup c).getD c)
  stands c := c ∉ ['\n', '\r']
  back_ne_closing := by decide

/-- The characters that have a meaning in a pattern. -/
def patternSigns : List Char :=
  ['^', '$', '\\', '.', '*', '+', '?', '(', ')', '[', ']', '\x7b', '\x7d', '|', '/']

/-- The ends of lines. -/
def lineEnds : List Char := ['\n', '\r', '\u2028', '\u2029']

/-- Patterns that spell a text. -/
def pattern : Literal where
  closing := '/'
  escaped? c := if c ∈ patternSigns then some c else none
  stands c := c ∉ patternSigns && c ∉ lineEnds
  back_ne_closing := by decide

/-- How a character may be written in a literal: behind a backslash, or as it is. -/
inductive Literal.Writes (kind : Literal) (c : Char) : List Char → Prop
  | escaped {d : Char} (h : kind.escaped? d = some c) : kind.Writes c ['\\', d]
  | plain (hclosing : c ≠ kind.closing) (hback : c ≠ '\\') (h : kind.stands c = true) :
      kind.Writes c [c]

/-- The character is written as it is, but cannot stand in a literal. -/
structure Literal.Breaks (kind : Literal) (c : Char) (written : List Char) : Prop where
  eq : written = [c]
  ne_closing : c ≠ kind.closing
  ne_back : c ≠ '\\'
  stands : kind.stands c = false

variable {kind : Literal} {write : Char → List Char} {s rest : List Char}

/-- A character of a literal is read as it was written. -/
theorem Literal.Writes.read_append {c : Char} {written : List Char} (h : kind.Writes c written)
    (rest : List Char) :
    kind.read false (written ++ rest) =
      (kind.read false rest).map fun read => (c :: read.1, read.2) := by
  cases h with
  | @escaped d h =>
    show kind.read false ('\\' :: d :: rest) = _
    rw [Literal.read, if_neg kind.back_ne_closing, if_pos rfl, Literal.read, h]
    rfl
  | plain hclosing hback h =>
    show kind.read false (c :: rest) = _
    rw [Literal.read, if_neg hclosing, if_neg hback, if_pos h]

theorem Literal.Breaks.read_append {c : Char} {written : List Char} (h : kind.Breaks c written)
    (rest : List Char) : kind.read false (written ++ rest) = none := by
  rw [h.eq, List.singleton_append, Literal.read, if_neg h.ne_closing, if_neg h.ne_back, h.stands,
    if_neg Bool.false_ne_true]

theorem Literal.read_closing (kind : Literal) (rest : List Char) :
    kind.read false (kind.closing :: rest) = some ([], rest) := by
  rw [Literal.read, if_pos rfl]

/-- A text is read as it was written. -/
theorem Literal.read_flatMap (h : ∀ c ∈ s, kind.Writes c (write c)) (rest : List Char) :
    kind.read false (s.flatMap write ++ kind.closing :: rest) = some (s, rest) := by
  induction s with
  | nil => exact kind.read_closing rest
  | cons c s ih =>
    rw [List.flatMap_cons, List.append_assoc, (h c List.mem_cons_self).read_append,
      ih fun d hd => h d (List.mem_cons_of_mem c hd)]
    rfl

/-- A text that holds a character that cannot stand in a literal is not read. -/
theorem Literal.read_flatMap_of_breaks
    (h : ∀ c, kind.Writes c (write c) ∨ kind.Breaks c (write c))
    {c : Char} (hmem : c ∈ s) (hbreaks : kind.Breaks c (write c)) (rest : List Char) :
    kind.read false (s.flatMap write ++ rest) = none := by
  induction s with
  | nil => exact absurd hmem List.not_mem_nil
  | cons d s ih =>
    rw [List.flatMap_cons, List.append_assoc]
    rcases h d with hd | hd
    · rcases List.mem_cons.mp hmem with rfl | hmem
      · exact hbreaks.read_append _
      · rw [hd.read_append, ih hmem]
        rfl
    · exact hd.read_append _

/-- A literal ends within the text that it is read from. -/
theorem Literal.length_le_of_read {escaped : Bool} {read : List Char × List Char}
    (h : kind.read escaped s = some read) : read.2.length ≤ s.length := by
  induction escaped, s using Literal.read.induct kind generalizing read with
  | case1 => cases h
  | case2 c rest ih =>
    obtain ⟨d, -, hrest⟩ := Option.bind_eq_some_iff.mp h
    obtain ⟨behind, hbehind, rfl⟩ := Option.map_eq_some_iff.mp hrest
    have hle := ih hbehind
    exact Nat.le_succ_of_le hle
  | case3 rest =>
    rw [Literal.read, if_pos rfl] at h
    obtain rfl := Option.some_inj.mp h
    exact Nat.le_succ _
  | case4 rest hclosing ih =>
    rw [Literal.read, if_neg hclosing, if_pos rfl] at h
    exact Nat.le_succ_of_le (ih h)
  | case5 c rest hclosing hback hstands ih =>
    rw [Literal.read, if_neg hclosing, if_neg hback, if_pos hstands] at h
    obtain ⟨behind, hbehind, rfl⟩ := Option.map_eq_some_iff.mp h
    have hle := ih hbehind
    exact Nat.le_succ_of_le hle
  | case6 c rest hclosing hback hstands =>
    rw [Literal.read, if_neg hclosing, if_neg hback, if_neg hstands] at h
    cases h

/-! ## Expressions -/

/-- What is behind an expected text. -/
def readText (expected s : List Char) : Option (List Char) :=
  if expected.isPrefixOf s then some (s.drop expected.length) else none

theorem readText_append (expected rest : List Char) :
    readText expected (expected ++ rest) = some rest := by
  rw [readText, if_pos (List.isPrefixOf_iff_prefix.mpr (List.prefix_append _ _)), List.drop_left]

theorem length_of_readText {expected : List Char} (h : readText expected s = some rest) :
    expected.length + rest.length = s.length := by
  rw [readText] at h
  split at h
  · rename_i hfront
    obtain ⟨behind, rfl⟩ := List.isPrefixOf_iff_prefix.mp hfront
    obtain rfl := Option.some_inj.mp h
    rw [List.drop_left, List.length_append]
  · cases h

/-- A call that replaces all matches of a pattern with a parameter. -/
structure Call where
  pattern : List Char
  parameter : List Char
deriving Repr, DecidableEq

/-- The call at the front of a text, and what is behind it. -/
def readCall (s : List Char) : Option (Call × List Char) :=
  (readText ".replace(/".toList s).bind fun s =>
  (pattern.read false s).bind fun matched =>
  (readText "g, String(params['".toList matched.2).bind fun s =>
  (string.read false s).bind fun parameter =>
  (readText "]))".toList parameter.2).map fun rest => (⟨matched.1, parameter.1⟩, rest)

/-- A call is not empty. -/
theorem length_lt_of_readCall {read : Call × List Char} (h : readCall s = some read) :
    read.2.length < s.length := by
  obtain ⟨s₁, h₁, h⟩ := Option.bind_eq_some_iff.mp h
  obtain ⟨matched, hmatched, h⟩ := Option.bind_eq_some_iff.mp h
  obtain ⟨s₂, h₂, h⟩ := Option.bind_eq_some_iff.mp h
  obtain ⟨parameter, hparameter, h⟩ := Option.bind_eq_some_iff.mp h
  obtain ⟨rest, h₃, rfl⟩ := Option.map_eq_some_iff.mp h
  have hpos : 0 < ".replace(/".toList.length := by decide
  have hlength₁ := length_of_readText h₁
  have hlength₂ := length_of_readText h₂
  have hlength₃ := length_of_readText h₃
  have hle₁ := Literal.length_le_of_read hmatched
  have hle₂ := Literal.length_le_of_read hparameter
  show rest.length < s.length
  omega

/-- The calls that a text consists of. -/
def readCalls (s : List Char) : Option (List Call) :=
  if s = [] then some []
  else
    match _h : readCall s with
    | none => none
    | some read => (readCalls read.2).map fun calls => read.1 :: calls
termination_by s.length
decreasing_by exact length_lt_of_readCall ‹readCall s = some read›

/-- A string and the calls behind it. -/
structure Expression where
  base : List Char
  calls : List Call
deriving Repr, DecidableEq

/-- The expression that a text is. -/
def Expression.read? (text : List Char) : Option Expression :=
  (readText [string.closing] text).bind fun s =>
  (string.read false s).bind fun base =>
  (readCalls base.2).map fun calls => ⟨base.1, calls⟩

/-- The value of an expression: each call replaces in what the calls before it gave. -/
def Expression.value (expression : Expression) (params : String → String) : String :=
  String.ofList (expression.calls.foldl (fun url call =>
    replaceAll call.pattern (params (String.ofList call.parameter)).toList url) expression.base)

theorem readCalls_nil : readCalls [] = some [] := by
  rw [readCalls, if_pos rfl]

theorem readCalls_of_readCall {read : Call × List Char} (h : readCall s = some read) :
    readCalls s = (readCalls read.2).map fun calls => read.1 :: calls := by
  have hs : s ≠ [] := by
    rintro rfl
    cases h
  rw [readCalls, if_neg hs]
  split
  · rename_i hnone
    rw [h] at hnone
    cases hnone
  · rename_i other hother
    rw [h] at hother
    rw [Option.some_inj.mp hother]

theorem readCalls_of_readCall_none (hs : s ≠ []) (h : readCall s = none) : readCalls s = none := by
  rw [readCalls, if_neg hs]
  split
  · rfl
  · rename_i other hother
    rw [h] at hother
    cases hother

/-! ## What is written for a path -/

/-- The path holds no character that ends the line in a string, and no parameter one that ends the
line in a pattern. -/
structure Readable (path : String) (names : List String) : Prop where
  path : '\r' ∉ path.toList
  names : ∀ name ∈ names, ∀ c ∈ name.toList, c ∉ lineEnds

/-- A character as it is written in a pattern. -/
def patternChar (c : Char) : List Char :=
  if isPatternSpecial c then ['\\', c] else [c]

theorem isPatternSpecial_iff {c : Char} : isPatternSpecial c = true ↔ c ∈ patternSigns := by
  rw [isPatternSpecial, List.contains_iff_mem]
  simp only [patternSigns, List.mem_cons, List.not_mem_nil, or_false]
  tauto

theorem string_writes {c : Char} (hc : c ≠ '\r') : string.Writes c (quoteChar c) := by
  rw [quoteChar]
  split
  · rename_i heq
    rw [heq]
    exact .escaped rfl
  · split
    · rename_i heq
      rw [heq]
      exact .escaped rfl
    · split
      · rename_i heq
        rw [heq]
        exact .escaped rfl
      · rename_i hback hclosing hnewline
        refine .plain hclosing hback (decide_eq_true ?_)
        rw [List.mem_pair, not_or]
        exact ⟨hnewline, hc⟩

theorem string_breaks : string.Breaks '\r' (quoteChar '\r') where
  eq := by decide
  ne_closing := by decide
  ne_back := by decide
  stands := by decide

/-- Every character is written as a string literal has it, or breaks the literal. -/
theorem string_writes_or_breaks (c : Char) :
    string.Writes c (quoteChar c) ∨ string.Breaks c (quoteChar c) := by
  by_cases hc : c = '\r'
  · rw [hc]
    exact Or.inr string_breaks
  · exact Or.inl (string_writes hc)

theorem pattern_writes {c : Char} (hc : c ∉ lineEnds) : pattern.Writes c (patternChar c) := by
  rw [patternChar]
  split
  · rename_i hspecial
    exact .escaped (if_pos (isPatternSpecial_iff.mp hspecial))
  · rename_i hspecial
    rw [isPatternSpecial_iff] at hspecial
    have hne : ∀ d ∈ patternSigns, c ≠ d := fun d hd heq => hspecial (heq ▸ hd)
    refine .plain (hne '/' (by decide)) (hne '\\' (by decide)) ?_
    show (decide (c ∉ patternSigns) && decide (c ∉ lineEnds)) = true
    rw [decide_eq_true hspecial, decide_eq_true hc, Bool.and_self]

theorem pattern_breaks {c : Char} (hc : c ∈ lineEnds) : pattern.Breaks c (patternChar c) := by
  simp only [lineEnds, List.mem_cons, List.not_mem_nil, or_false] at hc
  rcases hc with rfl | rfl | rfl | rfl <;> constructor <;> decide

/-- Every character is written as a pattern has it, or breaks the pattern. -/
theorem pattern_writes_or_breaks (c : Char) :
    pattern.Writes c (patternChar c) ∨ pattern.Breaks c (patternChar c) := by
  by_cases hc : c ∈ lineEnds
  · exact Or.inr (pattern_breaks hc)
  · exact Or.inl (pattern_writes hc)

/-- A call as it is written, with some text behind it. -/
def callText (name rest : List Char) : List Char :=
  ".replace(/".toList ++ ((token name).flatMap patternChar ++ pattern.closing ::
    ("g, String(params['".toList ++ (name.flatMap quoteChar ++ string.closing ::
      ("]))".toList ++ rest))))

/-- The calls for some names as they are written. -/
def callTexts (names : List String) : List Char :=
  names.foldr (fun name => callText name.toList) []

theorem toList_placeholderPattern (name : String) :
    (placeholderPattern name).toList =
      "/".toList ++ ((token name.toList).flatMap patternChar ++ "/g".toList) := by
  have hspelled : (String.ofList ((token name.toList).flatMap patternChar)).toList =
      (token name.toList).flatMap patternChar := String.toList_ofList
  show ("/" ++ String.ofList ((token name.toList).flatMap patternChar) ++ "/g").toList = _
  rw [String.toList_append, String.toList_append, hspelled, List.append_assoc]

theorem toList_quote (text : String) :
    (quote text).toList =
      [string.closing] ++ (text.toList.flatMap quoteChar ++ [string.closing]) := by
  rw [quote, String.toList_ofList]
  rfl

theorem toList_call (url name : String) (rest : List Char) :
    (url ++ ".replace(" ++ placeholderPattern name ++ ", String(params[" ++ quote name ++
      "]))").toList ++ rest = url.toList ++ callText name.toList rest := by
  have hhead : ".replace(/".toList = ".replace(".toList ++ "/".toList := by decide
  have hmiddle : [pattern.closing] ++ "g, String(params['".toList =
      "/g".toList ++ (", String(params[".toList ++ [string.closing]) := by decide
  unfold callText
  rw [String.toList_append, String.toList_append, String.toList_append, String.toList_append,
    String.toList_append, toList_placeholderPattern, toList_quote, hhead,
    ← List.singleton_append (x := pattern.closing), ← List.append_assoc [pattern.closing], hmiddle]
  simp only [List.append_assoc, List.cons_append, List.nil_append]

/-- The text of an expression is the path in quotes and its calls. -/
theorem toList_urlText (path : String) (names : List String) :
    (urlText path names).toList = [string.closing] ++ (path.toList.flatMap quoteChar ++
      string.closing :: callTexts names) := by
  have hfold : ∀ url : String, (names.foldl (fun url name =>
      url ++ ".replace(" ++ placeholderPattern name ++ ", String(params[" ++ quote name ++ "]))")
      url).toList = url.toList ++ callTexts names := by
    induction names with
    | nil =>
      intro url
      exact (List.append_nil _).symm
    | cons name names ih =>
      intro url
      rw [List.foldl_cons, ih, toList_call]
      rfl
  rw [urlText, hfold, toList_quote, List.append_assoc, List.append_assoc]
  rfl

theorem readCall_callText {name : List Char} (hname : ∀ c ∈ name, c ∉ lineEnds)
    (rest : List Char) : readCall (callText name rest) = some (⟨token name, name⟩, rest) := by
  have htoken : ∀ c ∈ token name, c ∉ lineEnds := by
    intro c hc
    rw [PathTemplate.token_eq, List.mem_cons, List.mem_append, List.mem_singleton] at hc
    rcases hc with rfl | hc | rfl
    · decide
    · exact hname c hc
    · decide
  have hstring : ∀ c ∈ name, c ≠ '\r' := by
    rintro c hc rfl
    exact hname _ hc (by decide)
  unfold readCall callText
  rw [readText_append, Option.bind_some,
    Literal.read_flatMap fun c hc => pattern_writes (htoken c hc), Option.bind_some,
    readText_append, Option.bind_some,
    Literal.read_flatMap fun c hc => string_writes (hstring c hc), Option.bind_some,
    readText_append, Option.map_some]

theorem readCall_callText_of_mem {name : List Char} {c : Char} (hc : c ∈ name)
    (hend : c ∈ lineEnds) (rest : List Char) : readCall (callText name rest) = none := by
  have htoken : c ∈ token name := List.mem_cons_of_mem _ (List.mem_append_left _ hc)
  unfold readCall callText
  rw [readText_append, Option.bind_some,
    Literal.read_flatMap_of_breaks pattern_writes_or_breaks htoken (pattern_breaks hend),
    Option.bind_none]

theorem readCalls_callTexts {names : List String}
    (hnames : ∀ name ∈ names, ∀ c ∈ name.toList, c ∉ lineEnds) :
    readCalls (callTexts names) =
      some (names.map fun name => ⟨token name.toList, name.toList⟩) := by
  induction names with
  | nil => exact readCalls_nil
  | cons name names ih =>
    rw [List.forall_mem_cons] at hnames
    have hcall := readCall_callText hnames.1 (callTexts names)
    show readCalls (callText name.toList (callTexts names)) = _
    rw [readCalls_of_readCall hcall, ih hnames.2, Option.map_some, List.map_cons]

theorem readCalls_callTexts_of_mem {names : List String} {name : String} (hmem : name ∈ names)
    {c : Char} (hc : c ∈ name.toList) (hend : c ∈ lineEnds) :
    readCalls (callTexts names) = none := by
  induction names with
  | nil => exact absurd hmem List.not_mem_nil
  | cons other names ih =>
    show readCalls (callText other.toList (callTexts names)) = _
    by_cases hother : ∀ d ∈ other.toList, d ∉ lineEnds
    · have hrest : name ∈ names := by
        rcases List.mem_cons.mp hmem with rfl | hrest
        · exact absurd hend (hother c hc)
        · exact hrest
      have hcall := readCall_callText hother (callTexts names)
      rw [readCalls_of_readCall hcall, ih hrest, Option.map_none]
    · push Not at hother
      obtain ⟨d, hd, hdend⟩ := hother
      have hne : callText other.toList (callTexts names) ≠ [] := by
        unfold callText
        exact List.append_ne_nil_of_left_ne_nil (by decide) _
      exact readCalls_of_readCall_none hne (readCall_callText_of_mem hd hdend _)

/-- The expression that is written for a path. -/
def urlExpression (path : String) (names : List String) : Expression where
  base := path.toList
  calls := names.map fun name => ⟨token name.toList, name.toList⟩

/-- What is written for a path is read as a string with one call for each parameter. -/
theorem read?_urlText {path : String} {names : List String} (h : Readable path names) :
    Expression.read? (urlText path names).toList = some (urlExpression path names) := by
  have hpath : ∀ c ∈ path.toList, c ≠ '\r' := by
    rintro c hc rfl
    exact h.path hc
  rw [toList_urlText, Expression.read?, readText_append, Option.bind_some,
    Literal.read_flatMap fun c hc => string_writes (hpath c hc), Option.bind_some,
    readCalls_callTexts h.names, Option.map_some, urlExpression]

/-- Nothing else that is written for a path can be read. -/
theorem readable_of_read?_urlText {path : String} {names : List String} {read : Expression}
    (h : Expression.read? (urlText path names).toList = some read) : Readable path names := by
  rw [toList_urlText, Expression.read?, readText_append, Option.bind_some] at h
  have hpath : '\r' ∉ path.toList := by
    intro hmem
    rw [Literal.read_flatMap_of_breaks string_writes_or_breaks hmem string_breaks] at h
    cases h
  have hstring : ∀ c ∈ path.toList, c ≠ '\r' := by
    rintro c hc rfl
    exact hpath hc
  refine ⟨hpath, fun name hname c hc hend => ?_⟩
  rw [Literal.read_flatMap fun c hc => string_writes (hstring c hc), Option.bind_some,
    readCalls_callTexts_of_mem hname hc hend] at h
  cases h

end TypedClient.Script
