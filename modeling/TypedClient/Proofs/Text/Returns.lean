import TypedClient.Proofs.Text.Controls
import TypedClient.Proofs.Text.Parts

/-!
# Texts with carriage returns

Where a carriage return in a text comes from.  It is in a text that is put together exactly if it is
in one of the parts.  Lines have none, since it ends them, and neither has a text without control
characters.  So a value displays with one only if it is a text that has one.

* `NoReturn`: the text holds no carriage return.
* `noReturn_append`, `noReturn_joinWith`: texts that are put together.
* `return_notMem_of_mem_lines`: lines hold none.
* `noReturn_display_iff`: which values display without one.
-/

namespace TypedClient.Text

/-- The text holds no carriage return. -/
def NoReturn (s : String) : Prop := '\r' ∉ s.toList

instance : DecidablePred NoReturn := fun s => inferInstanceAs (Decidable ('\r' ∉ s.toList))

variable {s t sep : String} {texts : List String}

theorem NoControl.noReturn (h : NoControl s) : NoReturn s := h.notMem (by decide)

/-! ## Texts that are put together -/

@[simp]
theorem noReturn_append : NoReturn (s ++ t) ↔ NoReturn s ∧ NoReturn t := by
  rw [NoReturn, String.toList_append, List.mem_append, not_or]
  rfl

@[simp]
theorem noReturn_ofList {s : List Char} : NoReturn (String.ofList s) ↔ '\r' ∉ s := by
  rw [NoReturn, String.toList_ofList]

theorem noReturn_iff : NoReturn s ↔ ∀ c ∈ s.toList, c ≠ '\r' :=
  ⟨fun h _ hc heq => h (heq ▸ hc), fun h hmem => h _ hmem rfl⟩

theorem noReturn_joinWith (hsep : NoReturn sep) :
    NoReturn (joinWith sep texts) ↔ ∀ text ∈ texts, NoReturn text := by
  simp only [noReturn_iff] at hsep ⊢
  exact forall_mem_joinWith hsep

/-- The lines of a text hold no carriage return. -/
theorem return_notMem_of_mem_linesFrom {line t s : List Char} (ht : '\r' ∉ t)
    (h : line ∈ linesFrom t s) : '\r' ∉ line := by
  have hopen : '\r' ∉ t.reverse := by rwa [List.mem_reverse]
  induction t, s using linesFrom.induct with
  | case1 t hnil =>
    rw [linesFrom, if_pos hnil] at h
    exact absurd h List.not_mem_nil
  | case2 t hnil =>
    rw [linesFrom, if_neg hnil, List.mem_singleton] at h
    rwa [h]
  | case3 t rest ih =>
    rw [linesFrom] at h
    rcases List.mem_cons.mp h with rfl | h
    · exact hopen
    · exact ih (by simp) h (by simp)
  | case4 t c rest hpair hc ih =>
    rw [linesFrom.eq_3 _ _ _ hpair, if_pos hc] at h
    rcases List.mem_cons.mp h with rfl | h
    · exact hopen
    · exact ih (by simp) h (by simp)
  | case5 t c rest hpair hc ih =>
    rw [linesFrom.eq_3 _ _ _ hpair, if_neg hc] at h
    have hne : '\r' ∉ c :: t := by
      rw [List.mem_cons, not_or]
      refine ⟨?_, ht⟩
      rintro rfl
      exact hc (by decide)
    exact ih hne h (by rwa [List.mem_reverse])

theorem return_notMem_of_mem_lines {line s : List Char} (h : line ∈ lines s) : '\r' ∉ line :=
  return_notMem_of_mem_linesFrom List.not_mem_nil h

end TypedClient.Text

namespace TypedClient.Value

open Text

/-- The text that a value is, if it is one. -/
def ownText : Value → List String
  | .text s => [s]
  | _ => []

/-- A value displays without a carriage return unless it is a text that has one. -/
theorem noReturn_display_iff (v : Value) :
    NoReturn v.display ↔ ∀ text ∈ v.ownText, NoReturn text := by
  cases v with
  | text s => simp [display, ownText]
  | day d => exact iff_of_true (noControl_day d).noReturn (by simp [ownText])
  | moment m => exact iff_of_true (noControl_moment (by decide) m).noReturn (by simp [ownText])
  | _ => exact iff_of_true (noControl_literalForm _).noReturn (by simp [ownText])

end TypedClient.Value
