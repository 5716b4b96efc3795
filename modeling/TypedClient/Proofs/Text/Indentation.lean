import TypedClient.Proofs.Text.Controls
import TypedClient.Proofs.Text.Parts

/-!
# Indented texts

A text is indented by blanks that are put behind each of its line feeds.  The first line stays where
it is, since what stands in front of it is not part of the text.  Every character is replaced by
itself, so texts that are put together are indented one by one, and a text on a single line is not
changed at all.

* `indented`: the text with blanks behind every line feed.
* `indented_append`, `indented_joinWith`: texts that are put together.
* `indented_eq_self`: a text on one line.
* `indented_lines`: every line but the first moves to the right.
-/

namespace TypedClient.Text

/-- The text with a number of blanks put behind every line feed. -/
def indented (blanks : ℕ) (s : String) : String :=
  String.ofList (replaceAll ['\n'] ('\n' :: List.replicate blanks ' ') s.toList)

variable {n : ℕ} {s t : String}

theorem toList_indented (n : ℕ) (s : String) : (indented n s).toList =
    s.toList.flatMap fun c => if c = '\n' then '\n' :: List.replicate n ' ' else [c] := by
  rw [indented, String.toList_ofList, replaceAll_singleton]

/-- A text on one line stays as it is. -/
theorem indented_eq_self (h : '\n' ∉ s.toList) : indented n s = s := by
  have hchar : ∀ c ∈ s.toList, (if c = '\n' then '\n' :: List.replicate n ' ' else [c]) = [c] :=
    fun c hc => if_neg (ne_of_mem_of_not_mem hc h)
  rw [← String.toList_inj, toList_indented, List.flatMap_congr hchar, List.flatMap_singleton']

theorem NoControl.indented_eq (h : NoControl s) : indented n s = s :=
  indented_eq_self (h.notMem (by decide))

theorem indented_append (n : ℕ) (s t : String) :
    indented n (s ++ t) = indented n s ++ indented n t := by
  rw [← String.toList_inj, String.toList_append, toList_indented, toList_indented, toList_indented,
    String.toList_append, List.flatMap_append]

/-- What is joined is indented piece by piece, and so is what stands between the pieces. -/
theorem indented_joinWith (n : ℕ) (sep : String) (texts : List String) :
    indented n (joinWith sep texts) = joinWith (indented n sep) (texts.map (indented n)) := by
  induction texts with
  | nil => exact indented_eq_self List.not_mem_nil
  | cons first rest ih =>
    cases rest with
    | nil => rfl
    | cons second rest =>
      rw [joinWith_cons_cons, indented_append, indented_append, ih]
      rfl

/-- What ends a separator may as well begin the texts that stand behind it. -/
theorem joinWith_append (sep front first : String) (rest : List String) :
    joinWith (sep ++ front) (first :: rest) = joinWith sep (first :: rest.map (front ++ ·)) := by
  rw [← String.toList_inj, toList_joinWith_cons, toList_joinWith_cons, List.flatMap_map]
  simp only [String.toList_append, List.append_assoc]

/-- Of several lines all but the first move to the right. -/
theorem indented_lines (n : ℕ) (first : String) (rest : List String) :
    indented n (joinWith "\n" (first :: rest)) =
      joinWith "\n" (indented n first ::
        rest.map fun line => String.ofList (List.replicate n ' ') ++ indented n line) := by
  have hfeed : indented n "\n" = "\n" ++ String.ofList (List.replicate n ' ') := by
    rw [← String.toList_inj, toList_indented]
    simp
  rw [indented_joinWith, hfeed, List.map_cons, joinWith_append, List.map_map]
  rfl

end TypedClient.Text
