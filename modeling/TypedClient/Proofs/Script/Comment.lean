import TypedClient.Generation
import TypedClient.Document.Reading
import TypedClient.Proofs.Client.Assembly
import TypedClient.Proofs.Text.Parts
import TypedClient.Source.ClientText

/-!
# Where the comment of a method ends

A comment of the script ends with the first star that a slash follows.  The comment in front of a
method is written line by line: the lines of the operation's summary, the operation itself, and
whether it is deprecated.  In the summary a star and the slash behind it are parted before it is cut
into lines; in the path of the operation they are not.

* `readComment?`: what a comment holds, and what stands behind it.
* `readComment?_append_iff`: a comment ends where it is closed exactly if its text has no end in it.
* `commentText`, `toList_callableLines`: the comment of a method within the method's text.
* `ClosesComment`: no line of the comment ends it, as it is and as it is written, so that the
  comment ends where it is closed.
* `closesComment_iff`: that is so exactly if the path of the operation holds no end of a comment.
-/

namespace TypedClient.Script

open Source

/-! ## Comments of the script -/

/-- What ends a comment. -/
def commentEnd : List Char := ['*', '/']

/-- The text of a comment that has been opened, and what stands behind its end. -/
def readComment? : List Char → Option (List Char × List Char)
  | [] => none
  | c :: rest =>
    if c = '*' ∧ rest.head? = some '/' then some ([], rest.tail)
    else (readComment? rest).map fun (body, behind) => (c :: body, behind)

/-- A comment ends where it is closed exactly if its text has no end in it. -/
theorem readComment?_append_iff (body behind : List Char) :
    readComment? (body ++ commentEnd ++ behind) = some (body, behind) ↔
      ¬ commentEnd <:+: body := by
  induction body with
  | nil => simp [readComment?, commentEnd]
  | cons c body ih =>
    -- What is closed begins with a star, so that the text is not ended by a slash behind it.
    have hhead : (body ++ commentEnd ++ behind).head? = some '/' ↔ body.head? = some '/' := by
      cases body with
      | nil => simp [commentEnd]
      | cons d body => rfl
    simp only [List.cons_append, readComment?, hhead]
    by_cases h : c = '*' ∧ body.head? = some '/'
    · rw [if_pos h]
      refine iff_of_false ?_ (not_not.mpr (Text.pair_infix_cons_iff.mpr (Or.inl ⟨h.1.symm, h.2⟩)))
      simp
    · rw [if_neg h, commentEnd, Text.pair_infix_cons_iff, not_or, eq_comm (a := '*'),
        and_iff_right h, ← commentEnd, ← ih]
      cases readComment? (body ++ commentEnd ++ behind) <;> simp [Prod.ext_iff]

/-! ## The comment of a method -/

section

variable {c : Callable} {line : String}

/-- A line of a comment as it is written. -/
def printedLine (line : String) : String := "   * " ++ line

/-- What is written between the opening of a method's comment and its end. -/
def commentText (c : Callable) : List Char :=
  ['*'] ++ '\n' ::
    (((docLines c).map fun line => (printedLine line).toList).flatMap (· ++ ['\n']) ++
      [' ', ' ', ' '])

/-- The lines of a method behind its comment. -/
def bodyLines (c : Callable) : List String :=
  ["  private " ++ c.name ++ "(" ++ signatureText c ++ ") \x7b",
    "    return " ++ targetText c ++ "("] ++
  (argumentTexts c).map (fun argument => "      " ++ argument ++ ",") ++ ["    );", "  \x7d"]

/-- The lines of the comment, and nothing that is written around them, may hold its end. -/
theorem infix_printedLine_iff : commentEnd <:+: (printedLine line).toList ↔
    commentEnd <:+: line.toList := by
  have hfront : (printedLine line).toList = [' ', ' ', ' ', '*'] ++ ' ' :: line.toList :=
    String.toList_append
  rw [hfront, Text.infix_append_cons_iff (by decide)]
  exact or_iff_right (by decide)

theorem infix_commentText_iff :
    commentEnd <:+: commentText c ↔ ∃ line ∈ docLines c, commentEnd <:+: line.toList := by
  have hfront : ¬ commentEnd <:+: ['*'] := by decide
  have hbehind : ¬ commentEnd <:+: [' ', ' ', ' '] := by decide
  have hsep : '\n' ∉ commentEnd := by decide
  rw [commentText, Text.infix_append_cons_iff hsep, Text.infix_flatMap_append_iff hsep,
    or_iff_right hfront, or_iff_left hbehind]
  simp only [List.mem_map, exists_exists_and_eq_and, infix_printedLine_iff]

theorem linesText_append (lines more : List String) :
    linesText (lines ++ more) = linesText lines ++ linesText more := by
  induction lines with
  | nil => simp [linesText]
  | cons line lines ih =>
    rw [List.cons_append]
    show line ++ "\n" ++ linesText (lines ++ more) = line ++ "\n" ++ linesText lines ++ _
    rw [ih, ← String.append_assoc]

theorem toList_linesText (lines : List String) :
    (linesText lines).toList = (lines.map String.toList).flatMap (· ++ ['\n']) := by
  induction lines with
  | nil => rfl
  | cons line lines ih =>
    show (line ++ "\n" ++ linesText lines).toList = _
    rw [String.toList_append, String.toList_append, ih, List.map_cons, List.flatMap_cons]
    rfl

theorem infix_linesText {lines more : List String} (h : lines <:+: more) :
    (linesText lines).toList <:+: (linesText more).toList := by
  obtain ⟨front, behind, rfl⟩ := h
  rw [linesText_append, linesText_append, String.toList_append, String.toList_append]
  exact List.infix_append _ _ _

/-- The text of a method: its comment, and the lines behind the comment. -/
theorem toList_callableLines (c : Callable) :
    (linesText (callableLines c)).toList =
      "\n  /*".toList ++ commentText c ++ commentEnd ++
        ('\n' :: (linesText (bodyLines c)).toList) := by
  have hlines : callableLines c =
      ["", "  /**"] ++ (docLines c).map printedLine ++ (["   */"] ++ bodyLines c) := by
    simp [callableLines, bodyLines, printedLine]
  rw [hlines, linesText_append, linesText_append, linesText_append]
  simp only [String.toList_append, toList_linesText, commentText, commentEnd, List.map_map]
  simp [Function.comp_def]

/-- The text of a client holds the text of each of its methods. -/
theorem infix_clientText {declarations : List Declaration} (hc : .callable c ∈ declarations)
    (className : String) :
    (linesText (callableLines c)).toList <:+: (clientText declarations className).toList := by
  have hmember : callableLines c ∈ declarations.filterMap callableLines? :=
    List.mem_filterMap.mpr ⟨_, hc, rfl⟩
  refine infix_linesText ((List.infix_of_mem_flatten hmember).trans ?_)
  exact (((List.suffix_append _ _).isInfix.trans (List.prefix_append _ _).isInfix).trans
    (List.prefix_append _ _).isInfix).trans (List.prefix_append _ _).isInfix

/-! ## Lines in which a comment can end -/

/-- No line of the summary ends a comment. -/
theorem not_infix_summaryLine {summary : List Char} {line : List Char}
    (h : line ∈ Text.lines (Text.replaceAll ['*', '/'] ['*', ' ', '/'] summary)) :
    ¬ commentEnd <:+: Text.trim line :=
  fun hend => Text.not_infix_replaceAll (by decide) (by decide) (by decide) summary
    ((hend.trans (Text.infix_trim line)).trans (Text.infix_of_mem_lines h))

theorem infix_label_iff : commentEnd <:+: c.label.toList ↔ commentEnd <:+: c.path.toList := by
  have hlabel : c.label.toList = c.method.label.toList ++ ' ' :: c.path.toList := by
    simp [Callable.label, operationLabel]
  have hmethod : ¬ commentEnd <:+: c.method.label.toList := by
    cases c.method <;> decide
  rw [hlabel, Text.infix_append_cons_iff (by decide), or_iff_right hmethod]

/-- A line of the comment holds an end of a comment exactly if the path of the operation does. -/
theorem exists_docLine_iff :
    (∃ line ∈ docLines c, commentEnd <:+: line.toList) ↔ commentEnd <:+: c.path.toList := by
  constructor
  · rintro ⟨line, hline, hend⟩
    rw [docLines, List.mem_filter, List.mem_append, List.mem_append, List.mem_singleton] at hline
    rcases hline.1 with (hsummary | rfl) | hdeprecated
    · rcases hs : c.summary with _ | summary
      · rw [hs] at hsummary
        exact absurd hsummary List.not_mem_nil
      · rw [hs] at hsummary
        obtain ⟨text, htext, rfl⟩ := List.mem_map.mp hsummary
        rw [String.toList_ofList] at hend
        exact absurd hend (not_infix_summaryLine htext)
    · exact infix_label_iff.mp hend
    · split at hdeprecated
      · rw [List.mem_singleton.mp hdeprecated] at hend
        exact absurd hend (by decide)
      · exact absurd hdeprecated List.not_mem_nil
  · intro hend
    have hlabel : commentEnd <:+: c.label.toList := infix_label_iff.mpr hend
    refine ⟨c.label, List.mem_filter.mpr ⟨?_, ?_⟩, hlabel⟩
    · exact List.mem_append_left _ (List.mem_append_right _ (List.mem_singleton_self _))
    · rw [Bool.not_eq_true', Bool.eq_false_iff, ne_eq, String.isEmpty_iff]
      intro hempty
      rw [hempty] at hlabel
      exact absurd hlabel (by decide)

/-- The comment of a method ends where it is closed: no line of it holds an end of a comment, as it
is and as it is written, and whatever follows the comment, its reader stops there. -/
structure ClosesComment (c : Callable) : Prop where
  lines : ∀ line ∈ docLines c, ¬ commentEnd <:+: line.toList
  printed : ∀ line ∈ docLines c, ¬ commentEnd <:+: (printedLine line).toList
  ends : ∀ behind,
    readComment? (commentText c ++ commentEnd ++ behind) = some (commentText c, behind)

theorem closesComment_iff_path : ClosesComment c ↔ ¬ commentEnd <:+: c.path.toList := by
  rw [← exists_docLine_iff]
  constructor
  · rintro h ⟨line, hline, hend⟩
    exact h.lines line hline hend
  · intro h
    refine ⟨fun line hline hend => h ⟨line, hline, hend⟩, fun line hline hend =>
      h ⟨line, hline, infix_printedLine_iff.mp hend⟩, fun behind => ?_⟩
    rwa [readComment?_append_iff, infix_commentText_iff]

/-- In the text of a client every method has its comment, which ends where it is closed exactly if
the path of the operation holds no end of a comment. -/
theorem closesComment_iff {declarations : List Declaration} (hc : .callable c ∈ declarations)
    (className : String) :
    (∃ front behind, (clientText declarations className).toList =
      front ++ "\n  /*".toList ++ commentText c ++ commentEnd ++
        ('\n' :: (linesText (bodyLines c)).toList) ++ behind) ∧
    (ClosesComment c ↔ ¬ commentEnd <:+: c.path.toList) := by
  obtain ⟨front, behind, htext⟩ := infix_clientText hc className
  refine ⟨⟨front, behind, ?_⟩, closesComment_iff_path⟩
  rw [← htext, toList_callableLines]
  simp only [List.append_assoc]

/-- A document with one operation, at the path and with the summary that are given. -/
def filesDocument (path summary : String) : Value :=
  .map [(.text "paths", .map [(.text path, .map [(.text "get", .map
    [(.text "summary", .text summary), (.text "responses", .map [(.text "200", .map [])])])])])]

/-- The methods that the client of a document has, by their paths. -/
def paths (root : Value) : Option (List String) :=
  (Document.ofValue root "3.0.3").toOption.bind fun doc =>
    (Client.declarations ⟨doc.schemas⟩ {} false
      (Analysis.ofDocument ⟨doc.schemas⟩ doc).1).toOption.map fun made =>
        (made.1.filterMap Declaration.callable?).map Callable.path

/-- The method of a client with one, found by its path. -/
theorem exists_callable_of_paths (root : Value) (path : String) (h : paths root = some [path]) :
    ∃ doc declared notes c, Document.ofValue root "3.0.3" = .ok doc ∧
      Client.declarations ⟨doc.schemas⟩ {} false (Analysis.ofDocument ⟨doc.schemas⟩ doc).1 =
        .ok (declared, notes) ∧
      .callable c ∈ declared ∧ c.path = path := by
  obtain ⟨doc, hdoc, hmade⟩ := Option.bind_eq_some_iff.mp h
  obtain ⟨⟨declared, notes⟩, hdeclared, hpaths⟩ := Option.map_eq_some_iff.mp hmade
  obtain ⟨c, hlist, hpath⟩ := List.map_eq_singleton_iff.mp hpaths
  have hc : c ∈ declared.filterMap Declaration.callable? := hlist ▸ List.mem_singleton_self c
  exact ⟨doc, declared, notes, c, Outcome.toOption_eq_some_iff.mp hdoc,
    Outcome.toOption_eq_some_iff.mp hdeclared, Declaration.mem_filterMap_callable?_iff.mp hc, hpath⟩

/-- A summary that holds the end of a comment does not end the comment. -/
theorem closesComment_summary : ∃ doc declared notes c,
    Document.ofValue (filesDocument "/files" "Matches */ only") "3.0.3" = .ok doc ∧
    Client.declarations ⟨doc.schemas⟩ {} false (Analysis.ofDocument ⟨doc.schemas⟩ doc).1 =
      .ok (declared, notes) ∧
    .callable c ∈ declared ∧ ClosesComment c := by
  obtain ⟨doc, declared, notes, c, hdoc, hdeclared, hc, hpath⟩ :=
    exists_callable_of_paths (filesDocument "/files" "Matches */ only") "/files"
      (by decide +kernel)
  refine ⟨doc, declared, notes, c, hdoc, hdeclared, hc, (closesComment_iff hc "Files").2.mpr ?_⟩
  rw [hpath]
  decide

/-- A comment need not end where it is closed: a path in which every part of a text is matched ends
it. -/
theorem not_closesComment_wildcard :
    ¬ ∀ (root : Value) (version : String) (doc : Document) (declared : List Declaration)
      (notes : List Diagnostic) (c : Callable), Document.ofValue root version = .ok doc →
      Client.declarations ⟨doc.schemas⟩ {} false (Analysis.ofDocument ⟨doc.schemas⟩ doc).1 =
        .ok (declared, notes) →
      .callable c ∈ declared → ClosesComment c := by
  intro hclaim
  obtain ⟨doc, declared, notes, c, hdoc, hdeclared, hc, hpath⟩ :=
    exists_callable_of_paths (filesDocument "/files/*/raw" "Raw file") "/files/*/raw"
      (by decide +kernel)
  have hcloses : ClosesComment c := hclaim _ _ doc declared notes c hdoc hdeclared hc
  refine closesComment_iff_path.mp hcloses ?_
  rw [hpath]
  decide

end

end TypedClient.Script
