import TypedClient.Proofs.Script.Expression

/-!
# The variables that a text of the script uses

A text of the script is cut into words, literals and signs, whatever stands in its literals.  A word
is a variable of the text unless it names something else: a word directly behind a single point is a
member, and a word in front of a colon is the name of a property.  Behind three points, which spread
an object, a word is a variable again.

The texts that are read this way are the arguments of a call.  They have no comments and no
quotients, so that a slash begins a pattern, and no conditional expressions.

* `Lexeme`, `Begun`, `Scans`: the lexemes that a text completes, and what it leaves begun.
* `Use`, `uses`: the variables among some lexemes, and which of them are called.
* `usesIn`, `IsFinished`: the variables that an argument uses, if it leaves nothing begun.
* `Phrase`: a text that is read for itself, wherever it stands.
* `phrase_quote`, `phrase_urlText`: strings, and the expressions that are written for a path.
-/

namespace TypedClient.Script

open Source (quote quoteChar urlText isPatternSpecial)
open PathTemplate (token)

/-! ## Lexemes -/

/-- A part of a text: a word, which may stand directly behind a single point, a literal, or any
other sign. -/
inductive Lexeme where
  | word (text : String) (isMember : Bool)
  | literal
  | sign (c : Char)
deriving Repr, DecidableEq

/-- What has been begun: nothing, some points, a word, a literal, in which a backslash may be the
last character, or the letters behind a pattern. -/
inductive Begun where
  | nothing
  | points (count : ℕ)
  | run (isMember : Bool) (read : List Char)
  | literal (closing : Char) (escaped : Bool)
  | flags
deriving Repr, DecidableEq

/-- May the character stand in a word? -/
def isWordChar (c : Char) : Bool :=
  c.isAlphanum || c == '_' || c == '$' || decide (128 ≤ c.toNat)

/-- The characters that open a literal, and close it. -/
def literalMarks : List Char := ['\'', '"', '/']

/-- What a character is, or begins, where nothing has been begun. -/
def beginAt (c : Char) : List Lexeme × Begun :=
  if isWordChar c then ([], .run false [c])
  else if c = '.' then ([], .points 1)
  else if c ∈ literalMarks then ([], .literal c false)
  else if c = ' ' then ([], .nothing)
  else ([.sign c], .nothing)

/-- What a character completes and begins.  Points are no lexemes of their own. -/
def Begun.next : Begun → Char → List Lexeme × Begun
  | .nothing, c => beginAt c
  | .points count, c =>
    if c = '.' then ([], .points (count + 1))
    else if isWordChar c then ([], .run (count == 1) [c])
    else beginAt c
  | .run isMember read, c =>
    if isWordChar c then ([], .run isMember (read ++ [c]))
    else (.word (String.ofList read) isMember :: (beginAt c).1, (beginAt c).2)
  | .literal closing true, _ => ([], .literal closing false)
  | .literal closing false, c =>
    if c = closing then ([.literal], if closing = '/' then .flags else .nothing)
    else ([], .literal closing (c == '\\'))
  | .flags, c => if isWordChar c then ([], .flags) else beginAt c

/-- The lexemes that a text completes, and what it leaves begun. -/
def scan : Begun → List Char → List Lexeme × Begun
  | begun, [] => ([], begun)
  | begun, c :: rest =>
    ((begun.next c).1 ++ (scan (begun.next c).2 rest).1, (scan (begun.next c).2 rest).2)

/-- The text goes on from what has been begun, completes the lexemes and leaves something begun. -/
def Scans (begun : Begun) (s : List Char) (lexemes : List Lexeme) (left : Begun) : Prop :=
  scan begun s = (lexemes, left)

instance (begun : Begun) (s : List Char) (lexemes : List Lexeme) (left : Begun) :
    Decidable (Scans begun s lexemes left) :=
  inferInstanceAs (Decidable (scan begun s = (lexemes, left)))

variable {begun middle left : Begun} {s t : List Char} {lexemes others : List Lexeme}

theorem scans_nil : Scans begun [] [] begun := rfl

/-- One text goes on where another one has stopped. -/
theorem Scans.append (hs : Scans begun s lexemes middle) (ht : Scans middle t others left) :
    Scans begun (s ++ t) (lexemes ++ others) left := by
  induction s generalizing begun lexemes with
  | nil =>
    obtain ⟨rfl, rfl⟩ := Prod.mk.inj hs
    exact ht
  | cons c s ih =>
    obtain ⟨rfl, hmiddle⟩ := Prod.mk.inj hs
    have hrest : Scans (begun.next c).2 s (scan (begun.next c).2 s).1 middle := Prod.ext rfl hmiddle
    rw [Scans, List.cons_append, scan, ih hrest, List.append_assoc]

/-! ## Literals -/

/-- Characters that are each written into a literal leave it as it was. -/
theorem scans_flatMap {write : Char → List Char} {closing : Char}
    (h : ∀ c, Scans (.literal closing false) (write c) [] (.literal closing false)) :
    Scans (.literal closing false) (s.flatMap write) [] (.literal closing false) := by
  induction s with
  | nil => exact scans_nil
  | cons c s ih => exact (h c).append ih

theorem scans_quoteChar (c : Char) :
    Scans (.literal '\'' false) (quoteChar c) [] (.literal '\'' false) := by
  rw [quoteChar]
  split
  · decide
  · split
    · decide
    · split
      · decide
      · rename_i hback hclosing _
        rw [Scans, scan, Begun.next, if_neg hclosing, beq_eq_false_iff_ne.mpr hback]
        rfl

theorem scans_patternChar (c : Char) :
    Scans (.literal '/' false) (patternChar c) [] (.literal '/' false) := by
  rw [patternChar]
  split
  · rfl
  · rename_i hspecial
    rw [isPatternSpecial_iff] at hspecial
    have hne : ∀ d ∈ patternSigns, c ≠ d := fun d hd heq => hspecial (heq ▸ hd)
    rw [Scans, scan, Begun.next, if_neg (hne '/' (by decide)),
      beq_eq_false_iff_ne.mpr (hne '\\' (by decide))]
    rfl

/-! ## Variables -/

/-- A variable that is used, and whether it is called. -/
structure Use where
  name : String
  isCalled : Bool
deriving Repr, DecidableEq

/-- The variables among some lexemes. -/
def uses : List Lexeme → List Use
  | [] => []
  | .word _ false :: .sign ':' :: rest => uses rest
  | .word text false :: rest => ⟨text, rest.head? == some (.sign '(')⟩ :: uses rest
  | _ :: rest => uses rest

/-- The variables that a text uses.  It is read with a comma behind it, which ends its last word. -/
def usesIn (text : String) : List Use :=
  uses (scan .nothing (text.toList ++ [','])).1

/-- The text leaves nothing begun, such as a literal that is not closed. -/
def IsFinished (text : String) : Prop :=
  (scan .nothing (text.toList ++ [','])).2 = .nothing

/-- The text is read for itself: it leaves nothing begun, and it uses the given variables whatever
is behind it. -/
def Phrase (s : List Char) (used : List Use) : Prop :=
  ∃ lexemes, Scans .nothing s lexemes .nothing ∧ ∀ rest, uses (lexemes ++ rest) = used ++ uses rest

variable {used more : List Use}

theorem phrase_nil : Phrase [] [] := ⟨[], scans_nil, fun _ => rfl⟩

theorem Phrase.append (hs : Phrase s used) (ht : Phrase t more) :
    Phrase (s ++ t) (used ++ more) := by
  obtain ⟨lexemes, hscans, huses⟩ := hs
  obtain ⟨others, hscans', huses'⟩ := ht
  refine ⟨lexemes ++ others, hscans.append hscans', fun rest => ?_⟩
  rw [List.append_assoc, huses, huses', List.append_assoc]

/-- The variables of a text that is read for itself together with the comma behind it. -/
theorem Phrase.usesIn_eq {text : String} (h : Phrase (text.toList ++ [',']) used) :
    usesIn text = used := by
  obtain ⟨lexemes, hscans, huses⟩ := h
  have hread := huses []
  rw [List.append_nil] at hread
  rw [usesIn, hscans]
  exact hread.trans (List.append_nil used)

theorem Phrase.isFinished {text : String} (h : Phrase (text.toList ++ [',']) used) :
    IsFinished text := by
  obtain ⟨lexemes, hscans, -⟩ := h
  rw [IsFinished, hscans]

/-- Phrases are joined by commas into a phrase. -/
theorem phrase_joinWith {texts : List String} {used : String → List Use}
    (h : ∀ text ∈ texts, Phrase text.toList (used text)) :
    Phrase (Text.joinWith ", " texts).toList (texts.flatMap used) := by
  have hcomma : Phrase ", ".toList [] := ⟨[.sign ','], by decide, fun _ => rfl⟩
  induction texts with
  | nil => exact phrase_nil
  | cons text rest ih =>
    rw [List.forall_mem_cons] at h
    cases rest with
    | nil =>
      rw [List.flatMap_singleton]
      exact h.1
    | cons next rest =>
      rw [Text.joinWith_cons_cons, String.toList_append, String.toList_append, List.append_assoc]
      exact h.1.append (hcomma.append (ih h.2))

/-! ## Strings and paths -/

/-- A string uses no variable, whatever stands in it. -/
theorem phrase_quote (text : String) : Phrase (quote text).toList [] := by
  have hopen : Scans .nothing [string.closing] [] (.literal '\'' false) := by decide
  have hclose : Scans (.literal '\'' false) [string.closing] [.literal] .nothing := by decide
  rw [toList_quote]
  exact ⟨[.literal], hopen.append ((scans_flatMap scans_quoteChar).append hclose), fun _ => rfl⟩

/-- What a call that fills in a parameter uses. -/
def callUses : List Use := [⟨"String", true⟩, ⟨"params", false⟩]

theorem phrase_callText (name : List Char) (h : Phrase s used) :
    Phrase (callText name s) (callUses ++ used) := by
  obtain ⟨lexemes, hscans, huses⟩ := h
  have hopen : Scans .nothing ".replace(/".toList [.word "replace" true, .sign '(']
      (.literal '/' false) := by decide
  have hpattern : Scans (.literal '/' false) ((token name).flatMap patternChar) []
      (.literal '/' false) := scans_flatMap scans_patternChar
  have hmiddle : Scans (.literal '/' false) (pattern.closing :: "g, String(params['".toList)
      [.literal, .sign ',', .word "String" false, .sign '(', .word "params" false, .sign '[']
      (.literal '\'' false) := by decide
  have hname : Scans (.literal '\'' false) (name.flatMap quoteChar) [] (.literal '\'' false) :=
    scans_flatMap scans_quoteChar
  have hclose : Scans (.literal '\'' false) (string.closing :: "]))".toList)
      [.literal, .sign ']', .sign ')', .sign ')'] .nothing := by decide
  refine ⟨_, hopen.append (hpattern.append (hmiddle.append (hname.append
    (hclose.append hscans)))), fun rest => ?_⟩
  rw [List.append_assoc callUses, ← huses]
  rfl

/-- The expression for a path uses the parameters once for each that it fills in. -/
theorem phrase_urlText (path : String) (names : List String) :
    Phrase (urlText path names).toList (names.flatMap fun _ => callUses) := by
  have hcalls : Phrase (callTexts names) (names.flatMap fun _ => callUses) := by
    induction names with
    | nil => exact phrase_nil
    | cons name names ih => exact phrase_callText name.toList ih
  have htext : (urlText path names).toList = (quote path).toList ++ callTexts names := by
    rw [toList_urlText, toList_quote, List.append_assoc, List.append_assoc]
    rfl
  rw [htext]
  exact (phrase_quote path).append hcalls

end TypedClient.Script
