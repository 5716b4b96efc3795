import TypedClient.Proofs.Console
import TypedClient.Proofs.Markup.Escaped

/-!
# The words of a message

With colours a message is put behind a coloured label and the whole is read as markup; without them
it is written as it is.  Diagnostics are escaped first and the other messages are not, so a bracket
in one of those may be taken for a tag.  Which messages have the same words either way is read off
the text of the message alone.

* `Message`, `say?`: a message of any kind, and what is written for it.
* `KeepsWords`: colours do not change what is written, and it can be written.
* `Message.Survives`: the messages whose words are kept wherever they are written.
* `keepsWords_iff`: a message keeps its words exactly if it is not written or survives.
-/

namespace TypedClient.Console

/-! ## Messages of all kinds -/

/-- A message of any kind. -/
inductive Message where
  | info (text : String)
  | success (text : String)
  | warning (text : String)
  | error (text : String)
  | debug (text : String)
  | diagnostic (d : Diagnostic)

/-- What is written for a message; nothing if it cannot be shown. -/
def say? (c : Console) : Message → Option Streams
  | .info text => c.info? text
  | .success text => c.success? text
  | .warning text => c.warning? text
  | .error text => c.error? text
  | .debug text => c.debug? text
  | .diagnostic d => c.diagnostic? d

/-- The same is written with and without colours, and in both cases the message can be shown. -/
def KeepsWords (isQuiet isVerbose : Bool) (m : Message) : Prop :=
  ∀ f g, ∃ s, say? ⟨f, true, isQuiet, isVerbose⟩ m = some s ∧
    say? ⟨g, false, isQuiet, isVerbose⟩ m = some s

namespace Message

variable {isQuiet isVerbose : Bool}

/-- Is the message written at all? -/
def isWritten (isQuiet isVerbose : Bool) : Message → Bool
  | .info _ | .success _ => !isQuiet
  | .warning _ | .error _ => true
  | .debug _ => isVerbose
  | .diagnostic d => d.severity == .error || !isQuiet || isVerbose

/-- The line without colours. -/
def plain : Message → String
  | .info text | .success text => text
  | .warning text => "Warning: " ++ text
  | .error text => "Error: " ++ text
  | .debug text => "[debug] " ++ text
  | .diagnostic d =>
    match d.severity with
    | .error => "Error: " ++ diagnosticLine d
    | .warning => "Warning: " ++ diagnosticLine d

/-- The line with colours, as markup. -/
def markup : Message → String
  | .info text => text
  | .success text => "[green]" ++ text ++ "[/green]"
  | .warning text => "[yellow]Warning:[/yellow] " ++ text
  | .error text => "[bold red]Error:[/bold red] " ++ text
  | .debug text => "[dim]\\[debug] " ++ text ++ "[/dim]"
  | .diagnostic d =>
    match d.severity with
    | .error => "[bold red]Error:[/bold red] " ++ Markup.escape (diagnosticLine d)
    | .warning => "[yellow]Warning:[/yellow] " ++ Markup.escape (diagnosticLine d)

/-- The line that is written for the message. -/
def line? (m : Message) : (hasColor : Bool) → Option String
  | true => Markup.shown? m.markup
  | false => some m.plain

/-- The text of the message has the same words with colours.  An information, a warning or an error
must have neither a tag nor a bracket with a backslash in front.  A success and a message for the
search for errors have a tag behind them, so they must not end with a backslash either.  In a
diagnostic, which is escaped, tags are allowed, also with backslashes in front. -/
def Survives : Message → Prop
  | .info text | .warning text | .error text => Markup.IsVerbatim text.toList
  | .success text | .debug text =>
    Markup.IsVerbatim text.toList ∧ text.toList.getLast? ≠ some '\\'
  | .diagnostic d => Markup.OnlyTagsEscaped (diagnosticLine d).toList

end Message

variable {isQuiet isVerbose : Bool}

theorem say?_eq (f : Format) (hasColor : Bool) (m : Message) :
    say? ⟨f, hasColor, isQuiet, isVerbose⟩ m =
      if m.isWritten isQuiet isVerbose then
        (m.line? hasColor).map fun s => .toError (s ++ "\n")
      else some .none := by
  cases m with
  | info text => cases isQuiet <;> cases hasColor <;> rfl
  | success text => cases isQuiet <;> cases hasColor <;> rfl
  | warning text => cases hasColor <;> rfl
  | error text => cases hasColor <;> rfl
  | debug text => cases isVerbose <;> cases hasColor <;> rfl
  | diagnostic d =>
    obtain ⟨severity, code, message, location⟩ := d
    cases severity <;> cases hasColor <;> cases isQuiet <;> cases isVerbose <;> rfl

/-! ## Styles -/

section Styles

open Markup

variable {text plain : String} {s : List Char}

theorem map_append_eq_some_iff {u t : List Char} {shown : Option (List Char)} :
    shown.map (u ++ ·) = some (u ++ t) ↔ shown = some t := by
  rw [← Option.map_some (f := (u ++ ·))]
  exact (Option.map_injective (List.append_right_injective u)).eq_iff

/-- A text behind a label, which is a word in a style and a blank, is shown as `plain` behind the
word exactly if it is alone. -/
theorem shown?_label_iff {label shownLabel : String} (tag word : List Char)
    (hstyle : IsStyle tag) (hword : IsVerbatim word) (hlast : word.getLast? ≠ some '\\')
    (hlabel : label.toList = withTag 0 tag (word ++ withTag 0 ('/' :: tag) [' ']))
    (hshown : shownLabel.toList = word ++ [' ']) :
    shown? (label ++ text) = some (shownLabel ++ plain) ↔
      shownPieces? [] (pieces (' ' :: text.toList)) = some (' ' :: plain.toList) := by
  have hmarkup : (label ++ text).toList =
      withTag 0 tag (word ++ withTag 0 ('/' :: tag) (' ' :: text.toList)) := by
    rw [String.toList_append, hlabel, withTag_append, List.append_assoc, withTag_append]
    rfl
  have hplain : (shownLabel ++ plain).toList = word ++ ' ' :: plain.toList := by
    rw [String.toList_append, hshown, List.append_assoc]
    rfl
  rw [shown?_eq_some_iff, hmarkup, hplain, shown_word hstyle hword hlast, map_append_eq_some_iff]

theorem shown?_warning_iff : shown? ("[yellow]Warning:[/yellow] " ++ text) =
    some ("Warning: " ++ plain) ↔
      shownPieces? [] (pieces (' ' :: text.toList)) = some (' ' :: plain.toList) :=
  shown?_label_iff "yellow".toList "Warning:".toList (by decide +kernel)
    (isVerbatim_of_notMem (by decide)) (by decide) rfl rfl

theorem shown?_error_iff : shown? ("[bold red]Error:[/bold red] " ++ text) =
    some ("Error: " ++ plain) ↔
      shownPieces? [] (pieces (' ' :: text.toList)) = some (' ' :: plain.toList) :=
  shown?_label_iff "bold red".toList "Error:".toList (by decide +kernel)
    (isVerbatim_of_notMem (by decide)) (by decide) rfl rfl

theorem shown?_success_iff : shown? ("[green]" ++ text ++ "[/green]") = some text ↔
    IsVerbatim text.toList ∧ text.toList.getLast? ≠ some '\\' := by
  have hstyle : IsStyle "green".toList := by decide +kernel
  have hmarkup : ("[green]" ++ text ++ "[/green]").toList =
      withTag 0 "green".toList (text.toList ++ withTag 0 ('/' :: "green".toList) []) := by
    rw [String.toList_append, String.toList_append, List.append_assoc]
    rfl
  rw [shown?_eq_some_iff, hmarkup, shown_styled_iff hstyle]

theorem isVerbatim_blank_iff : IsVerbatim (' ' :: s) ↔ IsVerbatim s :=
  isVerbatim_cons_iff (by decide) (by decide)

theorem getLast?_blank_ne_iff : (' ' :: s).getLast? ≠ some '\\' ↔ s.getLast? ≠ some '\\' := by
  cases s with
  | nil => simp
  | cons c s => rw [List.getLast?_cons_cons]

/-- The label of a message for the search for errors looks like a tag, so it has a backslash in
front. -/
theorem shown?_debug_iff : shown? ("[dim]\\[debug] " ++ text ++ "[/dim]") =
    some ("[debug] " ++ text) ↔ IsVerbatim text.toList ∧ text.toList.getLast? ≠ some '\\' := by
  have hstyle : IsStyle "dim".toList := by decide +kernel
  have hlabel : IsTag "debug".toList := by decide
  have hmarkup : ("[dim]\\[debug] " ++ text ++ "[/dim]").toList =
      withTag 0 "dim".toList ([] ++ withTag 1 "debug".toList
        (' ' :: text.toList ++ withTag 0 ('/' :: "dim".toList) [])) := by
    rw [String.toList_append, String.toList_append, List.append_assoc]
    rfl
  have hplain : ("[debug] " ++ text).toList = "[debug]".toList ++ ' ' :: text.toList :=
    String.toList_append
  have hread : shownPieces? [] (pieces ("[dim]\\[debug] " ++ text ++ "[/dim]").toList) =
      (shownPieces? [nameOf "dim".toList]
        (pieces (' ' :: text.toList ++ withTag 0 ('/' :: "dim".toList) []))).map
          ("[debug]".toList ++ ·) := by
    rw [hmarkup, shown_withTag hstyle.isTag hstyle.afterTag?_eq,
      pieces_first_tag not_hasTag_nil (by simp) hlabel, shownPieces?,
      shownPieces?_escapedTag (k := 0) hlabel, Option.map_map]
    rfl
  rw [shown?_eq_some_iff, hread, hplain, map_append_eq_some_iff,
    shown_append_closing_iff hstyle.isTag_closing hstyle.afterTag?_closing,
    isVerbatim_blank_iff, getLast?_blank_ne_iff]

end Styles

/-! ## The words -/

/-- The line for a diagnostic ends with a bracket. -/
theorem getLast?_diagnosticLine (d : Diagnostic) :
    (diagnosticLine d).toList.getLast? = some ')' := by
  rw [diagnosticLine, String.toList_append]
  exact List.getLast?_concat

/-- Escaped behind a blank, the line for a diagnostic is shown as it is exactly if each of its
brackets with a backslash in front opens a tag. -/
theorem shown_diagnosticLine_iff (d : Diagnostic) :
    Markup.shownPieces? [] (Markup.pieces (' ' :: (Markup.escape (diagnosticLine d)).toList)) =
        some (' ' :: (diagnosticLine d).toList) ↔
      Markup.OnlyTagsEscaped (diagnosticLine d).toList := by
  have hescape : ' ' :: (Markup.escape (diagnosticLine d)).toList =
      Markup.escapeFrom 0 (' ' :: (diagnosticLine d).toList) := by
    rw [Markup.escape, String.toList_ofList,
      Markup.escapeFrom_char (by decide) (by decide)]
    rfl
  have hlast : (' ' :: (diagnosticLine d).toList).getLast? ≠ some '\\' := by
    rw [getLast?_blank_ne_iff, getLast?_diagnosticLine]
    decide
  rw [hescape, Markup.shown_escaped_eq_self_iff hlast,
    Markup.onlyTagsEscaped_cons_of_ne (by decide)]

/-- The markup of a message shows as its line without colours exactly if the message survives. -/
theorem shown?_markup_iff (m : Message) : Markup.shown? m.markup = some m.plain ↔ m.Survives := by
  cases m with
  | info text => exact Markup.shown?_eq_some_iff.trans Markup.shown_eq_self_iff
  | success text => exact shown?_success_iff
  | warning text =>
    exact shown?_warning_iff.trans (Markup.shown_eq_self_iff.trans isVerbatim_blank_iff)
  | error text =>
    exact shown?_error_iff.trans (Markup.shown_eq_self_iff.trans isVerbatim_blank_iff)
  | debug text => exact shown?_debug_iff
  | diagnostic d =>
    obtain ⟨severity, code, message, location⟩ := d
    cases severity with
    | error => exact shown?_error_iff.trans (shown_diagnosticLine_iff _)
    | warning => exact shown?_warning_iff.trans (shown_diagnosticLine_iff _)

theorem toError_line_inj {s t : String} :
    Streams.toError (s ++ "\n") = Streams.toError (t ++ "\n") ↔ s = t := by
  rw [Streams.toError, Streams.toError, Streams.mk.injEq, and_iff_right rfl]
  exact String.append_left_inj "\n"

/-- A message keeps its words exactly if it is not written or survives. -/
theorem keepsWords_iff (isQuiet isVerbose : Bool) (m : Message) :
    KeepsWords isQuiet isVerbose m ↔ (m.isWritten isQuiet isVerbose → m.Survives) := by
  rw [← shown?_markup_iff]
  cases hwritten : m.isWritten isQuiet isVerbose with
  | false =>
    have hnone : ∀ f hasColor, say? ⟨f, hasColor, isQuiet, isVerbose⟩ m = some .none := by
      intro f hasColor
      rw [say?_eq, hwritten, if_neg Bool.false_ne_true]
    exact iff_of_true (fun f g => ⟨.none, hnone f true, hnone g false⟩) fun h =>
      absurd h Bool.false_ne_true
  | true =>
    have hcolor : ∀ f, say? ⟨f, true, isQuiet, isVerbose⟩ m =
        (Markup.shown? m.markup).map fun s => .toError (s ++ "\n") := by
      intro f
      rw [say?_eq, hwritten, if_pos rfl, Message.line?]
    have hplain : ∀ g, say? ⟨g, false, isQuiet, isVerbose⟩ m =
        some (.toError (m.plain ++ "\n")) := by
      intro g
      rw [say?_eq, hwritten, if_pos rfl, Message.line?, Option.map_some]
    constructor
    · intro h _
      obtain ⟨s, hs, hs'⟩ := h .plain .plain
      rw [hcolor, Option.map_eq_some_iff] at hs
      obtain ⟨shown, hshown, rfl⟩ := hs
      rw [hplain, Option.some_inj, toError_line_inj] at hs'
      rw [hshown, hs']
    · intro h f g
      refine ⟨_, ?_, hplain g⟩
      rw [hcolor, h rfl, Option.map_some]

/-- A bracket in the name of a file is taken for a tag, so that the name is shown without it. -/
theorem not_keepsWords_bracketed :
    ¬ KeepsWords false false (.error "Document not found: pets[draft].json") := by
  intro h
  obtain ⟨s, hcolor, hplain⟩ := h .plain .plain
  have heq := hcolor.trans hplain.symm
  revert heq
  decide +kernel

end TypedClient.Console
