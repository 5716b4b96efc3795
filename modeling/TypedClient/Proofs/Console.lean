import TypedClient.Console
import TypedClient.Proofs.Markup

/-!
# Messages

A message goes to standard error, or it cannot be shown because its markup closes a tag that is not
open.  The second happens with colours only, and only to texts that are put into the markup as they
are: diagnostics are escaped, so they can always be shown.

* `Console.IsMessage`: nothing is written to standard output.
* `Console.isSome_of_hasColor_eq_false`: without colours every message can be shown.
* `Console.isSome_diagnostic?`: every diagnostic can be shown.
-/

namespace TypedClient.Console

variable {c : Console}

/-! ## Where messages go -/

/-- What is written, if anything, is not written to standard output. -/
def IsMessage (written : Option Streams) : Prop := ∀ s ∈ written, s.output = ""

theorem isMessage_none : IsMessage (some .none) := by
  intro s hs
  obtain rfl := Option.some_inj.mp hs
  rfl

theorem isMessage_message? (plain markup : String) : IsMessage (c.message? plain markup) := by
  intro s hs
  obtain ⟨text, -, rfl⟩ := Option.map_eq_some_iff.mp hs
  rfl

theorem isMessage_success? (message : String) : IsMessage (c.success? message) := by
  rw [success?]
  split
  · exact isMessage_none
  · exact isMessage_message? _ _

theorem isMessage_error? (message : String) : IsMessage (c.error? message) :=
  isMessage_message? _ _

theorem isMessage_debug? (message : String) : IsMessage (c.debug? message) := by
  rw [debug?]
  split
  · exact isMessage_message? _ _
  · exact isMessage_none

theorem isMessage_diagnostic? (d : Diagnostic) : IsMessage (c.diagnostic? d) := by
  rw [diagnostic?]
  split
  · exact isMessage_error? _
  · split
    · exact isMessage_none
    · exact isMessage_message? _ _

/-! ## Messages that can be shown -/

/-- Without colours every message can be shown. -/
theorem isSome_of_hasColor_eq_false (h : c.hasColor = false) (plain markup : String) :
    (c.message? plain markup).isSome := by
  rw [message?, h, if_neg Bool.false_ne_true]
  rfl

/-- A message can be shown if its markup can. -/
theorem isSome_message? {plain markup : String} (h : (Markup.shown? markup).isSome) :
    (c.message? plain markup).isSome := by
  rw [message?, Option.isSome_map]
  split
  · exact h
  · rfl

/-- The label of a warning can be shown with an escaped text behind it. -/
theorem isSome_shown?_warning (s : String) :
    (Markup.shown? ("[yellow]Warning:[/yellow] " ++ Markup.escape s)).isSome := by
  have hlabel : ∀ s, Markup.pieces ("[yellow]Warning:[/yellow] ".toList ++ s) =
      [.text [], .text [], .tag "yellow".toList, .text "Warning:".toList, .text [],
        .tag "/yellow".toList] ++ Markup.piecesFrom " ".toList 0 0 s := fun _ => rfl
  exact Markup.isSome_shown?_append_escape hlabel (by decide +kernel) s

/-- The label of an error can be shown with an escaped text behind it. -/
theorem isSome_shown?_error (s : String) :
    (Markup.shown? ("[bold red]Error:[/bold red] " ++ Markup.escape s)).isSome := by
  have hlabel : ∀ s, Markup.pieces ("[bold red]Error:[/bold red] ".toList ++ s) =
      [.text [], .text [], .tag "bold red".toList, .text "Error:".toList, .text [],
        .tag "/bold red".toList] ++ Markup.piecesFrom " ".toList 0 0 s := fun _ => rfl
  exact Markup.isSome_shown?_append_escape hlabel (by decide +kernel) s

/-- Every diagnostic can be shown, whatever its text is. -/
theorem isSome_diagnostic? (c : Console) (d : Diagnostic) : (c.diagnostic? d).isSome := by
  rw [diagnostic?]
  cases hcolor : c.hasColor with
  | false =>
    rw [if_neg Bool.false_ne_true]
    split
    · exact isSome_of_hasColor_eq_false hcolor _ _
    · split
      · rfl
      · exact isSome_of_hasColor_eq_false hcolor _ _
  | true =>
    rw [if_pos rfl]
    split
    · exact isSome_message? (isSome_shown?_error _)
    · split
      · rfl
      · exact isSome_message? (isSome_shown?_warning _)

end TypedClient.Console
