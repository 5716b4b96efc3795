import TypedClient.Proofs.Script.Expression
import TypedClient.Proofs.Script.Numeral
import TypedClient.Text.Segments

/-!
# Tokens of the generated script

A text of the script is cut into words, numerals, strings in single quotes and signs, with blanks
between them where they would run together.  A string is one token, whatever stands in it.

Beyond the characters that every script has, the letters of names are a parameter.

* `Token`, `tokens?`: the tokens, and the tokens that a text is made of.
* `IsClosed`, `IsBounded`: a text that runs together with nothing behind it, or on neither side.
* `tokens?_between`: two texts are cut where a bounded one stands between them.
* `isBounded_quote`, `tokens?_dotted`, `tokens?_toString`: strings, names and whole numbers.
-/

namespace TypedClient.Script

open Source (quote quoteChar)

/-- The signs of a type. -/
inductive Sign where
  | bar
  | ampersand
  | colon
  | semicolon
  | question
  | minus
  | point
  | less
  | greater
  | openGroup
  | closeGroup
  | openBracket
  | closeBracket
  | openBrace
  | closeBrace
deriving Repr, DecidableEq

/-- The characters of the signs. -/
def signTable : List (Char × Sign) :=
  [('|', .bar), ('&', .ampersand), (':', .colon), (';', .semicolon), ('?', .question),
    ('-', .minus), ('.', .point), ('<', .less), ('>', .greater), ('(', .openGroup),
    (')', .closeGroup), ('[', .openBracket), (']', .closeBracket), ('\x7b', .openBrace),
    ('\x7d', .closeBrace)]

/-- A token.  A string stands for its value, and a numeral without a fraction for its own. -/
inductive Token where
  | word (text : String)
  | text (value : String)
  | whole (value : ℕ)
  | sign (sign : Sign)
deriving Repr, DecidableEq

/-- The characters between the tokens. -/
def blanks : List Char := [' ', '\t', '\n', '\r']

/-- The token that a run of letters and digits is. -/
def tokenOf? (run : List Char) : Option Token :=
  if run.head?.any Char.isDigit then
    match readWhole? run with
    | some (digits, []) => some (.whole (natOf digits))
    | _ => none
  else some (.word (String.ofList run))

/-- The token that has been begun: none, a run of letters and digits, or a string, of which a
backslash may be the last character. -/
inductive Pending where
  | none
  | run (read : List Char)
  | quoted (escaped : Bool) (read : List Char)
deriving Repr, DecidableEq

/-- The tokens that are complete where a text ends. -/
def Pending.close? : Pending → Option (List Token)
  | .none => some []
  | .run read => (tokenOf? read).map fun token => [token]
  | .quoted _ _ => Option.none

variable (isLetter : Char → Bool)

/-- May the character stand in a name? -/
def isPart (c : Char) : Bool :=
  c.isAlphanum || c == '_' || c == '$' || (decide (128 ≤ c.toNat) && isLetter c)

/-- What a character begins, or is, where no token has been begun. -/
def begin? (c : Char) : Option (List Token × Pending) :=
  if isPart isLetter c then some ([], .run [c])
  else if c = string.closing then some ([], .quoted false [])
  else if c ∈ blanks then some ([], .none)
  else (signTable.lookup c).map fun sign => ([.sign sign], .none)

/-- What a character completes and begins. -/
def Pending.next? : Pending → Char → Option (List Token × Pending)
  | .none, c => begin? isLetter c
  | .run read, c =>
    if isPart isLetter c then some ([], .run (read ++ [c]))
    else (Pending.run read).close?.bind fun before =>
      (begin? isLetter c).map fun step => (before ++ step.1, step.2)
  | .quoted true read, c => (string.escaped? c).map fun d => ([], .quoted false (read ++ [d]))
  | .quoted false read, c =>
    if c = string.closing then some ([.text (String.ofList read)], .none)
    else if c = '\\' then some ([], .quoted true read)
    else some ([], .quoted false (read ++ [c]))

/-- The tokens that a text completes, and what it leaves begun. -/
def scan? : Pending → List Char → Option (List Token × Pending)
  | pending, [] => some ([], pending)
  | pending, c :: rest => (pending.next? isLetter c).bind fun step =>
    (scan? step.2 rest).map fun read => (step.1 ++ read.1, read.2)

/-- The tokens that a text is made of. -/
def tokens? (s : List Char) : Option (List Token) :=
  (scan? isLetter .none s).bind fun read => read.2.close?.map fun last => read.1 ++ last

/-- A text that leaves no token begun. -/
def IsClosed (s : List Char) (tokens : List Token) : Prop :=
  scan? isLetter .none s = some (tokens, .none)

/-- A text that neither goes on with a token nor leaves one begun. -/
def IsBounded (s : List Char) (tokens : List Token) : Prop :=
  ∀ pending before, Pending.close? pending = some before →
    scan? isLetter pending s = some (before ++ tokens, .none)

/-- Is the text a name without points? -/
def isIdentifier : List Char → Bool
  | [] => false
  | c :: rest => !c.isDigit && (c :: rest).all (isPart isLetter)

variable {isLetter} {pending other : Pending} {c : Char} {s t b : List Char}
  {before tokens others middle : List Token}

/-! ## Texts that are cut -/

theorem scan?_cons (h : pending.next? isLetter c = some ([], other)) :
    scan? isLetter pending (c :: s) = scan? isLetter other s := by
  rw [scan?, h, Option.bind_some]
  exact Option.map_id'

theorem scan?_append (h : scan? isLetter pending s = some (tokens, other)) :
    scan? isLetter pending (s ++ t) =
      (scan? isLetter other t).map fun read => (tokens ++ read.1, read.2) := by
  induction s generalizing pending tokens with
  | nil =>
    obtain ⟨rfl, rfl⟩ := Prod.mk.inj (Option.some_inj.mp h)
    exact Option.map_id'.symm
  | cons c s ih =>
    obtain ⟨step, hstep, hrest⟩ := Option.bind_eq_some_iff.mp h
    obtain ⟨read, hread, heq⟩ := Option.map_eq_some_iff.mp hrest
    obtain ⟨rfl, rfl⟩ := Prod.mk.inj heq
    rw [List.cons_append, scan?, hstep, Option.bind_some, ih hread, Option.map_map]
    simp only [Function.comp_def, List.append_assoc]

/-- A character that no name has completes what has been begun. -/
theorem Pending.next?_of_close? (hc : isPart isLetter c = false)
    (h : pending.close? = some before) :
    pending.next? isLetter c =
      (begin? isLetter c).map fun step => (before ++ step.1, step.2) := by
  cases pending with
  | none =>
    obtain rfl := Option.some_inj.mp h
    exact Option.map_id'.symm
  | run read =>
    rw [Pending.next?, hc, if_neg Bool.false_ne_true, h]
    rfl
  | quoted escaped read => cases h

/-- Texts that begin with a sign, a quote or a blank, and leave nothing begun, are bounded. -/
theorem isBounded_of_closed (hc : isPart isLetter c = false)
    (h : IsClosed isLetter (c :: s) tokens) : IsBounded isLetter (c :: s) tokens := by
  intro pending before hbefore
  obtain ⟨step, hstep, hrest⟩ := Option.bind_eq_some_iff.mp h
  obtain ⟨read, hread, heq⟩ := Option.map_eq_some_iff.mp hrest
  obtain ⟨rfl, hnone⟩ := Prod.mk.inj heq
  have hbegin : begin? isLetter c = some step := hstep
  rw [scan?, Pending.next?_of_close? hc hbefore, hbegin, Option.map_some, Option.bind_some, hread,
    Option.map_some, hnone, List.append_assoc]

theorem IsClosed.append (hs : IsClosed isLetter s tokens) (ht : IsClosed isLetter t others) :
    IsClosed isLetter (s ++ t) (tokens ++ others) := by
  have happend := scan?_append (t := t) hs
  rw [ht, Option.map_some] at happend
  exact happend

theorem isClosed_nil : IsClosed isLetter [] [] := rfl

theorem IsBounded.closed (h : IsBounded isLetter s tokens) : IsClosed isLetter s tokens :=
  h .none [] rfl

/-- A text is complete once a bounded one is behind it. -/
theorem IsBounded.closed_append (hb : IsBounded isLetter b middle)
    (hs : tokens? isLetter s = some tokens) : IsClosed isLetter (s ++ b) (tokens ++ middle) := by
  obtain ⟨read, hread, hlast⟩ := Option.bind_eq_some_iff.mp hs
  obtain ⟨last, hclose, rfl⟩ := Option.map_eq_some_iff.mp hlast
  rw [IsClosed, scan?_append hread, hb _ _ hclose, Option.map_some, List.append_assoc]

/-- A text is cut from a complete one in front of it. -/
theorem IsClosed.tokens?_append (hs : IsClosed isLetter s tokens)
    (ht : tokens? isLetter t = some others) :
    tokens? isLetter (s ++ t) = some (tokens ++ others) := by
  obtain ⟨behind, hbehind, hothers⟩ := Option.bind_eq_some_iff.mp ht
  obtain ⟨rest, hrest, rfl⟩ := Option.map_eq_some_iff.mp hothers
  rw [tokens?, scan?_append hs, hbehind, Option.map_some, Option.bind_some, hrest, Option.map_some,
    List.append_assoc]

theorem IsClosed.tokens?_eq (h : IsClosed isLetter s tokens) :
    tokens? isLetter s = some tokens := by
  rw [tokens?, h]
  exact congrArg some (List.append_nil tokens)

/-- Two texts are cut where a bounded one stands between them. -/
theorem tokens?_between (hs : tokens? isLetter s = some tokens)
    (hb : IsBounded isLetter b middle) (ht : tokens? isLetter t = some others) :
    tokens? isLetter (s ++ (b ++ t)) = some (tokens ++ (middle ++ others)) := by
  rw [← List.append_assoc, ← List.append_assoc]
  exact (hb.closed_append hs).tokens?_append ht

/-! ## Strings, names and whole numbers -/

/-- A character of a string is read as it was written. -/
theorem scan?_quoteChar (read : List Char) (c : Char) :
    scan? isLetter (.quoted false read) (quoteChar c ++ s) =
      scan? isLetter (.quoted false (read ++ [c])) s := by
  have hescape {d : Char} (hd : string.escaped? d = some c) :
      scan? isLetter (.quoted false read) ('\\' :: d :: s) =
        scan? isLetter (.quoted false (read ++ [c])) s := by
    have hnext : Pending.next? isLetter (.quoted true read) d =
        some ([], .quoted false (read ++ [c])) := by
      rw [Pending.next?, hd]
      rfl
    have hback : Pending.next? isLetter (.quoted false read) '\\' =
        some ([], .quoted true read) := rfl
    rw [scan?_cons hback, scan?_cons hnext]
  rw [quoteChar]
  split
  · rename_i heq
    subst heq
    exact hescape rfl
  · split
    · rename_i heq
      subst heq
      exact hescape rfl
    · split
      · rename_i heq
        subst heq
        exact hescape rfl
      · rename_i hback hclosing _
        refine scan?_cons ?_
        rw [Pending.next?, if_neg (show c ≠ string.closing from hclosing), if_neg hback]

theorem scan?_flatMap_quoteChar (read : List Char) :
    scan? isLetter (.quoted false read) (s.flatMap quoteChar ++ [string.closing]) =
      some ([.text (String.ofList (read ++ s))], .none) := by
  induction s generalizing read with
  | nil =>
    rw [List.append_nil]
    rfl
  | cons c s ih =>
    rw [List.flatMap_cons, List.append_assoc, scan?_quoteChar, ih, List.append_assoc]
    rfl

/-- A string is one token, whatever it is. -/
theorem isBounded_quote (text : String) :
    IsBounded isLetter (quote text).toList [.text text] := by
  rw [toList_quote, List.singleton_append]
  refine isBounded_of_closed rfl ?_
  have hopen : Pending.next? isLetter .none string.closing = some ([], .quoted false []) := rfl
  rw [IsClosed, scan?_cons hopen, scan?_flatMap_quoteChar, List.nil_append, String.ofList_toList]

theorem scan?_run {read : List Char} (hs : ∀ c ∈ s, isPart isLetter c = true) :
    scan? isLetter (.run read) s = some ([], .run (read ++ s)) := by
  induction s generalizing read with
  | nil =>
    rw [List.append_nil]
    rfl
  | cons c s ih =>
    rw [List.forall_mem_cons] at hs
    have hnext : Pending.next? isLetter (.run read) c = some ([], .run (read ++ [c])) := by
      rw [Pending.next?, if_pos hs.1]
    rw [scan?_cons hnext, ih hs.2, List.append_assoc, List.singleton_append]

/-- Letters and digits are one token. -/
theorem tokens?_run (hs : s ≠ []) (hparts : ∀ c ∈ s, isPart isLetter c = true) :
    tokens? isLetter s = (tokenOf? s).map fun token => [token] := by
  cases s with
  | nil => exact absurd rfl hs
  | cons c s =>
    rw [List.forall_mem_cons] at hparts
    have hnext : Pending.next? isLetter .none c = some ([], .run [c]) := by
      rw [Pending.next?, begin?, if_pos hparts.1]
    rw [tokens?, scan?_cons hnext, scan?_run hparts.2, Option.bind_some]
    exact Option.map_id'

theorem tokens?_identifier (h : isIdentifier isLetter s = true) :
    tokens? isLetter s = some [.word (String.ofList s)] := by
  cases s with
  | nil => cases h
  | cons c s =>
    rw [isIdentifier, Bool.and_eq_true, Bool.not_eq_true', List.all_eq_true] at h
    rw [tokens?_run (List.cons_ne_nil c s) h.2, tokenOf?, List.head?_cons, Option.any_some, h.1]
    rfl

theorem isPart_of_isDigit (h : c.isDigit = true) : isPart isLetter c = true := by
  simp only [isPart, Char.isAlphanum, h, Bool.or_true, Bool.true_or]

theorem tokens?_toDigits (n : ℕ) :
    tokens? isLetter (Nat.toDigits 10 n) = some [.whole n] := by
  have hdigits := isDigits_toDigits n
  have hhead : (Nat.toDigits 10 n).head?.any Char.isDigit = true := by
    obtain ⟨c, ds, hds⟩ := List.exists_cons_of_ne_nil (Nat.toDigits_ne_nil (b := 10) (n := n))
    rw [hds] at hdigits ⊢
    exact hdigits c List.mem_cons_self
  have hread : readWhole? (Nat.toDigits 10 n ++ []) = some (Nat.toDigits 10 n, []) :=
    readWhole?_append (isWhole_toDigits n) fun c hc => absurd hc (Option.not_mem_none c)
  rw [List.append_nil] at hread
  rw [tokens?_run Nat.toDigits_ne_nil fun c hc => isPart_of_isDigit (hdigits c hc), tokenOf?,
    if_pos hhead, hread]
  exact congrArg (fun n => some [Token.whole n]) (natOf_toDigits n)

/-- The tokens of a whole number. -/
def wholeTokens : ℤ → List Token
  | .ofNat n => [.whole n]
  | .negSucc n => [.sign .minus, .whole (n + 1)]

theorem tokens?_toString (i : ℤ) :
    tokens? isLetter (toString i).toList = some (wholeTokens i) := by
  cases i with
  | ofNat n =>
    rw [Int.ofNat_eq_natCast, toList_toString_natCast, tokens?_toDigits]
    rfl
  | negSucc n =>
    have hminus : IsBounded isLetter ['-'] [.sign .minus] := isBounded_of_closed rfl rfl
    rw [toList_toString_negSucc]
    exact hminus.closed.tokens?_append (tokens?_toDigits (n + 1))

/-- The tokens of a name whose parts have points between them. -/
def dottedTokens : List String → List Token
  | [] => []
  | part :: rest => .word part :: rest.flatMap fun part => [.sign .point, .word part]

/-- The pieces of a text with the separators between them are the text. -/
theorem eq_of_segments {sep : Char} {piece : List Char} {pieces : List (List Char)}
    (h : Text.segments sep s = piece :: pieces) :
    s = piece ++ pieces.flatMap fun piece => sep :: piece := by
  induction s generalizing piece pieces with
  | nil =>
    obtain ⟨rfl, rfl⟩ := List.cons.inj h
    rfl
  | cons c s ih =>
    rw [Text.segments] at h
    split at h
    · rename_i heq
      obtain ⟨rfl, rfl⟩ := List.cons.inj h
      obtain ⟨first, rest, hrest⟩ := List.exists_cons_of_ne_nil (Text.segments_ne_nil sep s)
      rw [hrest, List.flatMap_cons, List.cons_append, ← ih hrest, heq, List.nil_append]
    · split at h
      · rename_i hnil
        exact absurd hnil (Text.segments_ne_nil sep s)
      · rename_i first rest hrest
        obtain ⟨rfl, rfl⟩ := List.cons.inj h
        rw [List.cons_append, ← ih hrest]

/-- The parts of a name, with points between them. -/
def dotted (s : List Char) : List String := (Text.segments '.' s).map String.ofList

/-- A name with points is cut at the points. -/
theorem tokens?_dotted (h : ∀ piece ∈ Text.segments '.' s, isIdentifier isLetter piece = true) :
    tokens? isLetter s = some (dottedTokens (dotted s)) := by
  have hpoint : IsBounded isLetter ['.'] [.sign .point] := isBounded_of_closed rfl rfl
  obtain ⟨piece, pieces, hpieces⟩ := List.exists_cons_of_ne_nil (Text.segments_ne_nil '.' s)
  rw [dotted, hpieces, eq_of_segments hpieces]
  rw [hpieces] at h
  clear hpieces
  induction pieces generalizing piece with
  | nil =>
    rw [List.flatMap_nil, List.append_nil]
    exact tokens?_identifier (h piece List.mem_cons_self)
  | cons next pieces ih =>
    rw [List.forall_mem_cons] at h
    have hbehind := tokens?_between (tokens?_identifier h.1) hpoint (ih next h.2)
    exact hbehind

end TypedClient.Script
