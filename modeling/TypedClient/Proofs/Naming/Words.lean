import Mathlib.Data.List.DropRight
import Mathlib.Data.List.SplitBy
import TypedClient.Naming

/-!
# Words in camel case

A text is made of runs, of separators and of word characters in turn.  In camel case the separators
in front of a word disappear and the word is capitalised.  Separators at the end have no word behind
them.  A single one is kept; but of several the last one is taken for the word, so that it alone is
left.  Hence the end of a text is left alone exactly if no two separators stand there.

* `runs`, `Alternate`: the runs of a text, which are of both kinds in turn.
* `joinRuns`: the runs put together, given what becomes of separators at the end.
* `joinWords_eq_joinRuns`: that is what `joinWords` does, whatever the text.
* `KeepsEnd`: camel case leaves the separators at the end alone.
* `keepsEnd_iff`: the texts where it does, and what it gives in any case.
-/

namespace TypedClient.Naming

open Identifier (isWord)

/-! ## Runs -/

/-- Does the run hold separators only? -/
def areSeparators (run : List Char) : Bool := run.all fun c => !isWord c

/-- The longest runs of separators and of word characters that a text is made of, in order. -/
def runs (s : List Char) : List (List Char) := s.splitBy fun a b => isWord a == isWord b

/-- The runs are nonempty, and of separators and of word characters in turn; the flag tells whether
the first one is of word characters. -/
inductive Alternate : Bool → List (List Char) → Prop
  | nil {word : Bool} : Alternate word []
  | cons {word : Bool} {run : List Char} {rest : List (List Char)} (hne : run ≠ [])
      (huniform : ∀ c ∈ run, isWord c = word) (hrest : Alternate (!word) rest) :
      Alternate word (run :: rest)

variable {s run word : List Char} {rest : List (List Char)}

/-- All characters of a run are of the kind of its first one. -/
theorem uniform_of_isChain {c : Char} {more : List Char}
    (h : (c :: more).IsChain fun a b => isWord a == isWord b) :
    ∀ d ∈ c :: more, isWord d = isWord c := by
  induction more generalizing c with
  | nil => simp
  | cons d more ih =>
    obtain ⟨heq, hmore⟩ := List.isChain_cons_cons.mp h
    have hd : isWord c = isWord d := by simpa using heq
    intro e he
    rcases List.mem_cons.mp he with rfl | he
    · rfl
    · rw [ih hmore e he, hd]

/-- Runs alternate if each of them is uniform and no two neighbours are of one kind. -/
theorem exists_alternate {l : List (List Char)} (hne : [] ∉ l)
    (huniform : ∀ run ∈ l, run.IsChain fun a b => isWord a == isWord b)
    (hchain : l.IsChain fun a b => ∃ ha hb, (isWord (a.getLast ha) == isWord (b.head hb)) = false) :
    ∃ word, Alternate word l := by
  induction l with
  | nil => exact ⟨true, .nil⟩
  | cons run rest ih =>
    rw [List.mem_cons, not_or] at hne
    have hrun := huniform run List.mem_cons_self
    obtain ⟨word, halternate⟩ := ih hne.2 (fun r hr => huniform r (List.mem_cons_of_mem _ hr))
      hchain.tail
    obtain ⟨c, more, rfl⟩ := List.exists_cons_of_ne_nil (Ne.symm hne.1)
    have hkind := uniform_of_isChain hrun
    refine ⟨isWord c, .cons (List.cons_ne_nil _ _) hkind ?_⟩
    cases halternate with
    | nil => exact .nil
    | @cons _ next rest hnext hnextKind hrest =>
      obtain ⟨ha, hb, hdiffer⟩ := (List.isChain_cons_cons.mp hchain).1
      rw [hkind _ (List.getLast_mem ha), hnextKind _ (List.head_mem hb)] at hdiffer
      have hword : word = !isWord c := Bool.eq_not.mpr (beq_eq_false_iff_ne.mp hdiffer).symm
      subst hword
      exact .cons hnext hnextKind hrest

theorem flatten_runs (s : List Char) : (runs s).flatten = s := List.flatten_splitBy _ s

theorem exists_alternate_runs (s : List Char) : ∃ word, Alternate word (runs s) :=
  exists_alternate (List.nil_notMem_splitBy _ s) (fun _ => List.isChain_of_mem_splitBy)
    (List.isChain_getLast_head_splitBy (fun a b => isWord a == isWord b) s)

theorem areSeparators_iff : areSeparators run = true ↔ ∀ c ∈ run, isWord c = false := by
  simp [areSeparators]

/-- A run of an alternation is of separators exactly if its flag says so. -/
theorem areSeparators_of_uniform {kind : Bool} (hne : run ≠ [])
    (huniform : ∀ c ∈ run, isWord c = kind) : areSeparators run = !kind := by
  cases kind with
  | false => exact areSeparators_iff.mpr huniform
  | true =>
    obtain ⟨c, hc⟩ := List.exists_mem_of_ne_nil run hne
    rw [Bool.not_true, ← Bool.not_eq_true, areSeparators_iff]
    intro h
    have hfalse := h c hc
    rw [huniform c hc] at hfalse
    cases hfalse

/-! ## Runs put together -/

/-- The runs put together: a run of separators in front of a word is dropped and the word
capitalised.  What becomes of separators at the end is given. -/
def joinRuns (ending : List Char → List Char) : List (List Char) → List Char
  | [] => []
  | [run] => if areSeparators run then ending run else run
  | run :: next :: rest =>
    if areSeparators run then upperFirst next ++ joinRuns ending rest
    else run ++ joinRuns ending (next :: rest)

variable {ending : List Char → List Char}

theorem joinRuns_nil : joinRuns ending [] = [] := rfl

theorem joinRuns_separators (h : areSeparators run = true) :
    joinRuns ending [run] = ending run := by
  rw [joinRuns, if_pos h]

theorem joinRuns_capital (h : areSeparators run = true) :
    joinRuns ending (run :: word :: rest) = upperFirst word ++ joinRuns ending rest := by
  rw [joinRuns, if_pos h]

theorem joinRuns_word (h : areSeparators run = false) :
    joinRuns ending (run :: rest) = run ++ joinRuns ending rest := by
  cases rest with
  | nil => rw [joinRuns_nil, joinRuns, h, if_neg Bool.false_ne_true, List.append_nil]
  | cons next rest => rw [joinRuns, h, if_neg Bool.false_ne_true]

/-- Alternating runs are none, separators alone, separators with a word behind them, or a word. -/
theorem Alternate.induction {P : List (List Char) → Prop} (nil : P [])
    (separators : ∀ run, areSeparators run = true → P [run])
    (capital : ∀ run word rest, run ≠ [] → areSeparators run = true → word ≠ [] →
      (∀ c ∈ word, isWord c = true) → P rest → P (run :: word :: rest))
    (word : ∀ run rest, run ≠ [] → areSeparators run = false → (∀ c ∈ run, isWord c = true) →
      P rest → P (run :: rest))
    {l : List (List Char)} {kind : Bool} (h : Alternate kind l) : P l := by
  -- what starts with a word, or is empty, is needed with separators in front of it as well
  have hboth : P l ∧ (kind = true → ∀ run, run ≠ [] → areSeparators run = true → P (run :: l)) := by
    induction h with
    | nil => exact ⟨nil, fun _ run _ hrun => separators run hrun⟩
    | @cons kind next rest hne huniform hrest ih =>
      have hnext := areSeparators_of_uniform hne huniform
      cases kind with
      | true =>
        exact ⟨word next rest hne hnext huniform ih.1,
          fun _ run hrunNe hrun => capital run next rest hrunNe hrun hne huniform ih.1⟩
      | false => exact ⟨ih.2 rfl next hne hnext, fun hfalse => absurd hfalse Bool.false_ne_true⟩
  exact hboth.1

/-- Word characters are kept as they are. -/
theorem joinWords_append_of_isWord (hword : ∀ c ∈ word, isWord c = true) (text : List Char) :
    joinWords [] (word ++ text) = word ++ joinWords [] text := by
  induction word with
  | nil => rfl
  | cons c more ih =>
    obtain ⟨hc, hmore⟩ := List.forall_mem_cons.mp hword
    rw [List.cons_append, joinWords, if_pos hc, ih hmore]
    rfl

/-- Separators make the open run longer. -/
theorem joinWords_append_of_separators {separators : List Char} (opened text : List Char)
    (h : ∀ c ∈ separators, isWord c = false) :
    joinWords opened (separators ++ text) = joinWords (separators.reverse ++ opened) text := by
  induction separators generalizing opened with
  | nil => rfl
  | cons c more ih =>
    obtain ⟨hc, hmore⟩ := List.forall_mem_cons.mp h
    rw [List.cons_append, joinWords, hc, if_neg Bool.false_ne_true, ih _ hmore,
      List.reverse_cons, List.append_assoc]
    rfl

/-- Behind an open run a word is capitalised. -/
theorem joinWords_append_of_open {opened : List Char} (hopened : opened ≠ []) (hne : word ≠ [])
    (hword : ∀ c ∈ word, isWord c = true) (text : List Char) :
    joinWords opened (word ++ text) = upperFirst word ++ joinWords [] text := by
  cases word with
  | nil => exact absurd rfl hne
  | cons c more =>
    obtain ⟨hc, hmore⟩ := List.forall_mem_cons.mp hword
    have hempty : opened.isEmpty = false := by simpa using hopened
    rw [List.cons_append, joinWords, if_pos hc, hempty, if_neg Bool.false_ne_true,
      joinWords_append_of_isWord hmore, upperFirst, List.append_assoc]

/-- The words of a text are joined run by run. -/
theorem joinWords_eq_joinRuns (s : List Char) :
    joinWords [] s = joinRuns (fun run => closeRun run.reverse) (runs s) := by
  obtain ⟨kind, halternate⟩ := exists_alternate_runs s
  conv_lhs => rw [← flatten_runs s]
  refine Alternate.induction (P := fun l => joinWords [] l.flatten =
    joinRuns (fun run => closeRun run.reverse) l) rfl ?_ ?_ ?_ halternate
  · intro run hrun
    have hjoin := joinWords_append_of_separators [] [] (areSeparators_iff.mp hrun)
    rw [List.append_nil, List.append_nil] at hjoin
    rw [joinRuns_separators hrun, List.flatten_singleton]
    exact hjoin
  · intro run word rest hne hrun hword hkind ih
    have hopened : run.reverse ++ [] ≠ [] := by simpa using hne
    rw [joinRuns_capital hrun, List.flatten_cons, List.flatten_cons,
      joinWords_append_of_separators _ _ (areSeparators_iff.mp hrun),
      joinWords_append_of_open hopened hword hkind, ih]
  · intro run rest _ hrun hkind ih
    rw [joinRuns_word hrun, List.flatten_cons, joinWords_append_of_isWord hkind, ih]

/-! ## Separators at the end -/

/-- The separators at the end of a text. -/
def trailing (s : List Char) : List Char := s.rtakeWhile fun c => !isWord c

/-- Of several separators the last one. -/
def keepLast (separators : List Char) : List Char := separators.drop (separators.length - 1)

/-- What stands in front of a word, and the word, are not at the end. -/
theorem trailing_append_word (hne : word ≠ []) (hword : ∀ c ∈ word, isWord c = true)
    (front s : List Char) : trailing (front ++ (word ++ s)) = trailing s := by
  obtain ⟨init, last, rfl⟩ := (List.eq_nil_or_concat' word).resolve_left hne
  have hlast : isWord last = true := hword last (by simp)
  unfold trailing
  induction s using List.reverseRecOn with
  | nil =>
    rw [List.append_nil, ← List.append_assoc, List.rtakeWhile_concat_neg _ _ _ (by simp [hlast]),
      List.rtakeWhile_nil]
  | append_singleton s c ih =>
    rw [← List.append_assoc, ← List.append_assoc, List.rtakeWhile_concat,
      List.rtakeWhile_concat, List.append_assoc, ih]

theorem trailing_of_separators (h : areSeparators run = true) : trailing run = run := by
  rw [trailing, List.rtakeWhile_eq_self_iff]
  simpa [areSeparators] using h

/-- What stands at the end is put behind the words. -/
theorem joinRuns_eq_append (ending : List Char → List Char) (hending : ending [] = [])
    {kind : Bool} {l : List (List Char)} (h : Alternate kind l) :
    joinRuns ending l = joinRuns (fun _ => []) l ++ ending (trailing l.flatten) := by
  refine Alternate.induction (P := fun l =>
    joinRuns ending l = joinRuns (fun _ => []) l ++ ending (trailing l.flatten)) ?_ ?_ ?_ ?_ h
  · exact hending.symm
  · intro run hrun
    rw [joinRuns_separators hrun, joinRuns_separators hrun, List.flatten_singleton,
      trailing_of_separators hrun, List.nil_append]
  · intro run word rest _ hrun hword hkind ih
    rw [joinRuns_capital hrun, joinRuns_capital hrun, ih, List.flatten_cons, List.flatten_cons,
      trailing_append_word hword hkind, List.append_assoc]
  · intro run rest hne hrun hkind ih
    have htrailing := trailing_append_word hne hkind [] rest.flatten
    rw [joinRuns_word hrun, joinRuns_word hrun, ih, List.flatten_cons, ← htrailing,
      List.nil_append, List.append_assoc]

/-! ## Camel case -/

/-- In camel case the words of the text are joined and the separators at its end left alone. -/
def KeepsEnd (s : String) : Prop :=
  camelCase s = String.ofList (lowerFirst (joinRuns id (runs s.toList)))

instance (s : String) : Decidable (KeepsEnd s) := inferInstanceAs (Decidable (_ = _))

/-- Separators of ASCII have no other case. -/
theorem upperChar_of_separator {c : Char} (hascii : c.toNat < 128) (h : isWord c = false) :
    Text.upperChar c = [c] := by
  have hall : ∀ n : Fin 128, isWord (Char.ofNat n) = false →
      (Char.ofNat n).toUpper = Char.ofNat n := by decide
  have hc := hall ⟨c.toNat, hascii⟩
  rw [Char.ofNat_toNat] at hc
  rw [Text.upperChar_ascii hascii, hc h]

/-- Of several separators of ASCII without a line feed the last one is kept. -/
theorem closeRun_reverse (hrun : ∀ c ∈ run, isWord c = false)
    (hascii : ∀ c ∈ run, c.toNat < 128) (hfeed : '\n' ∉ run) :
    closeRun run.reverse = keepLast run := by
  rcases List.eq_nil_or_concat' run with rfl | ⟨init, last, rfl⟩
  · rfl
  · have hmem : last ∈ init ++ [last] := by simp
    have hlast : (last == '\n') = false := by
      rw [beq_eq_false_iff_ne]
      rintro rfl
      exact hfeed hmem
    have hupper := upperChar_of_separator (hascii last hmem) (hrun last hmem)
    have hkeep : keepLast (init ++ [last]) = [last] := by simp [keepLast]
    rw [hkeep, List.reverse_append, List.reverse_singleton, List.singleton_append, closeRun]
    cases init.reverse with
    | nil => simp [hlast]
    | cons c more => simp [hlast, hupper]

theorem lowerFirst_append {front : List Char} (hne : front ≠ []) (t : List Char) :
    lowerFirst (front ++ t) = lowerFirst front ++ t := by
  cases front with
  | nil => exact absurd rfl hne
  | cons c rest => rw [List.cons_append, lowerFirst, lowerFirst, List.append_assoc]

theorem length_lowerFirst {t : List Char} (h : ∀ c ∈ t, c.toNat < 128) :
    (lowerFirst t).length = t.length := by
  cases t with
  | nil => rfl
  | cons c rest =>
    rw [lowerFirst, Text.lowerChar_ascii (h c List.mem_cons_self)]
    rfl

theorem length_keepLast (t : List Char) : (keepLast t).length = t.length - (t.length - 1) := by
  rw [keepLast, List.length_drop]

/-- Keeping the last of the separators at the end changes a text if there are several. -/
theorem lowerFirst_keepLast_iff {front t : List Char} (hascii : ∀ c ∈ t, c.toNat < 128) :
    lowerFirst (front ++ keepLast t) = lowerFirst (front ++ t) ↔ t.length ≤ 1 := by
  constructor
  · intro h
    have hlength : (keepLast t).length = t.length := by
      rcases eq_or_ne front [] with rfl | hne
      · have hlast : ∀ c ∈ keepLast t, c.toNat < 128 :=
          fun c hc => hascii c (List.mem_of_mem_drop hc)
        rw [← length_lowerFirst hlast, ← length_lowerFirst hascii]
        exact congrArg List.length h
      · rw [lowerFirst_append hne, lowerFirst_append hne] at h
        exact congrArg List.length (List.append_cancel_left h)
    rw [length_keepLast] at hlength
    omega
  · intro h
    have hzero : t.length - 1 = 0 := by omega
    rw [keepLast, hzero, List.drop_zero]

/-- A text of ASCII without line feeds keeps the separators at its end exactly if it does not end
with two of them.  In any case its words are joined, and of separators at the end the last one is
kept. -/
theorem keepsEnd_iff {s : String} (hascii : ∀ c ∈ s.toList, c.toNat < 128)
    (hfeed : '\n' ∉ s.toList) :
    (KeepsEnd s ↔ (trailing s.toList).length ≤ 1) ∧
      camelCase s = String.ofList (lowerFirst (joinRuns keepLast (runs s.toList))) := by
  obtain ⟨kind, halternate⟩ := exists_alternate_runs s.toList
  have hsub : trailing s.toList ⊆ s.toList := (List.rtakeWhile_suffix _ _).subset
  have hseparators : ∀ c ∈ trailing s.toList, isWord c = false := fun c hc => by
    simpa using List.mem_rtakeWhile_imp hc
  have hclose : closeRun (trailing s.toList).reverse = keepLast (trailing s.toList) :=
    closeRun_reverse hseparators (fun c hc => hascii c (hsub hc)) fun h => hfeed (hsub h)
  have hcamel : camelCase s = String.ofList (lowerFirst (joinRuns keepLast (runs s.toList))) := by
    rw [camelCase, joinWords_eq_joinRuns, joinRuns_eq_append _ rfl halternate,
      joinRuns_eq_append keepLast rfl halternate, flatten_runs, hclose]
  refine ⟨?_, hcamel⟩
  rw [KeepsEnd, hcamel, String.ofList_inj, joinRuns_eq_append keepLast rfl halternate,
    joinRuns_eq_append id rfl halternate, flatten_runs]
  exact lowerFirst_keepLast_iff fun c hc => hascii c (hsub hc)

/-- Separators inside a text, and one at its end. -/
theorem keepsEnd_owner :
    KeepsEnd "Get pets (by--owner)" ∧ camelCase "Get pets (by--owner)" = "getPetsByOwner)" := by
  have hascii : ("Get pets (by--owner)".toList.all fun c => c.toNat < 128) = true := by
    decide +kernel
  have hkeeps := keepsEnd_iff (fun c hc => of_decide_eq_true (List.all_eq_true.mp hascii c hc))
    (by decide +kernel)
  exact ⟨hkeeps.1.mpr (by decide +kernel), by decide +kernel⟩

/-- Of two separators at the end of a text only the last one is left. -/
theorem not_keepsEnd_dashes :
    ¬ KeepsEnd "list pets--" ∧ camelCase "list pets--" = "listPets-" := by
  decide +kernel

end TypedClient.Naming
