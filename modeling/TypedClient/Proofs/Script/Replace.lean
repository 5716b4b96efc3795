import TypedClient.Proofs.PathTemplate.Marks

/-!
# Replacement in the generated script

The script replaces all matches of a pattern in a text, from left to right.  What is put in place of
a match is not the replacement as it stands: a dollar with one of four signs behind it stands for a
dollar, the match, the text before it, or the text behind it.  Other dollars stand for themselves.

* `substitute`, `replaceAll`: the replacement as the script understands it.
* `IsPlain`: a text in which every dollar stands for itself.
* `replaceFrom_of_plain`: a plain text is inserted as it stands.
* `isPlain_of_replaceAll_eq_fill`: and only a plain text is, whatever the pattern is a placeholder
  of.
-/

namespace TypedClient.Script

open PathTemplate (Cut fill token IsName opening closing)

/-! ## The replacement of a match -/

/-- The signs that have a meaning behind a dollar. -/
def signs : List Char := ['$', '&', '`', '\'']

/-- What a dollar stands for with a sign behind it. -/
def signText? (before matched after : List Char) (sign : Char) : Option (List Char) :=
  if sign = '$' then some ['$']
  else if sign = '&' then some matched
  else if sign = '`' then some before
  else if sign = '\'' then some after
  else none

/-- The text that is put in place of a match with some text before it and behind it. -/
def substitute (before matched after : List Char) : List Char → List Char
  | [] => []
  | [c] => [c]
  | c :: sign :: rest =>
    if c = '$' then
      match signText? before matched after sign with
      | some text => text ++ substitute before matched after rest
      | none => c :: substitute before matched after (sign :: rest)
    else c :: substitute before matched after (sign :: rest)

/-- The text behind some text, with all matches of a pattern replaced; `skip` characters at its
front belong to the match before. -/
def replaceFrom (pattern replacement : List Char) :
    (before : List Char) → (skip : Nat) → List Char → List Char
  | _, _, [] => []
  | before, skip + 1, c :: rest => replaceFrom pattern replacement (before ++ [c]) skip rest
  | before, 0, c :: rest =>
    if pattern.isPrefixOf (c :: rest) then
      substitute before pattern ((c :: rest).drop pattern.length) replacement ++
        replaceFrom pattern replacement (before ++ [c]) (pattern.length - 1) rest
    else c :: replaceFrom pattern replacement (before ++ [c]) 0 rest

/-- The text with all matches of a pattern replaced. -/
def replaceAll (pattern replacement text : List Char) : List Char :=
  replaceFrom pattern replacement [] 0 text

/-- No dollar of the text has a meaning of its own. -/
def IsPlain (text : List Char) : Prop := ∀ sign ∈ signs, ¬ ['$', sign] <:+: text

instance (text : List Char) : Decidable (IsPlain text) :=
  inferInstanceAs (Decidable (∀ sign ∈ signs, ¬ ['$', sign] <:+: text))

variable {before matched after text rest pattern replacement : List Char}

/-- A dollar stands for itself unless one of the four signs is behind it. -/
theorem signText?_eq_none_iff {sign : Char} :
    signText? before matched after sign = none ↔ sign ∉ signs := by
  constructor
  · intro h hmem
    simp only [signs, List.mem_cons, List.not_mem_nil, or_false] at hmem
    rcases hmem with rfl | rfl | rfl | rfl <;> cases h
  · intro h
    simp only [signs, List.mem_cons, List.not_mem_nil, or_false, not_or] at h
    rw [signText?, if_neg h.1, if_neg h.2.1, if_neg h.2.2.1, if_neg h.2.2.2]

/-- The four signs, and what a dollar stands for with each of them behind it. -/
theorem signText?_eq_some {sign : Char} {meaning : List Char}
    (h : signText? before matched after sign = some meaning) :
    sign = '$' ∧ meaning = ['$'] ∨ sign = '&' ∧ meaning = matched ∨
      sign = '`' ∧ meaning = before ∨ sign = '\'' ∧ meaning = after := by
  rw [signText?] at h
  split at h
  · rename_i hsign
    exact Or.inl ⟨hsign, (Option.some_inj.mp h).symm⟩
  · split at h
    · rename_i hsign
      exact Or.inr (Or.inl ⟨hsign, (Option.some_inj.mp h).symm⟩)
    · split at h
      · rename_i hsign
        exact Or.inr (Or.inr (Or.inl ⟨hsign, (Option.some_inj.mp h).symm⟩))
      · split at h
        · rename_i hsign
          exact Or.inr (Or.inr (Or.inr ⟨hsign, (Option.some_inj.mp h).symm⟩))
        · cases h

theorem substitute_sign {sign : Char} {meaning : List Char}
    (h : signText? before matched after sign = some meaning) :
    substitute before matched after ('$' :: sign :: rest) =
      meaning ++ substitute before matched after rest := by
  rw [substitute, if_pos rfl, h]

theorem substitute_dollar {sign : Char} (h : signText? before matched after sign = none) :
    substitute before matched after ('$' :: sign :: rest) =
      '$' :: substitute before matched after (sign :: rest) := by
  rw [substitute, if_pos rfl, h]

theorem substitute_of_ne {c : Char} (h : c ≠ '$') (sign : Char) :
    substitute before matched after (c :: sign :: rest) =
      c :: substitute before matched after (sign :: rest) := by
  rw [substitute, if_neg h]

/-- A dollar and a sign are two characters. -/
theorem isPlain_of_length_le_one (h : text.length ≤ 1) : IsPlain text := by
  intro sign _ hwithin
  have hlength := hwithin.length_le
  rw [List.length_cons, List.length_singleton] at hlength
  omega

theorem IsPlain.tail {c : Char} (h : IsPlain (c :: rest)) : IsPlain rest :=
  fun sign hsign hwithin => h sign hsign (List.infix_cons hwithin)

/-- A dollar in front of a plain text has no sign behind it. -/
theorem IsPlain.sign_notMem {sign : Char} (h : IsPlain ('$' :: sign :: rest)) : sign ∉ signs :=
  fun hsign => h sign hsign ⟨[], rest, rfl⟩

/-- A text behind a character is plain with it, unless it starts a dollar and a sign. -/
theorem IsPlain.cons {c sign : Char} (h : IsPlain (sign :: rest))
    (hc : c = '$' → sign ∉ signs) : IsPlain (c :: sign :: rest) := by
  intro other hother hwithin
  rcases List.infix_cons_iff.mp hwithin with hfront | hwithin
  · rw [List.cons_prefix_cons, List.cons_prefix_cons] at hfront
    exact hc hfront.1.symm (hfront.2.1 ▸ hother)
  · exact h other hother hwithin

/-- A plain text is put in place of a match as it stands. -/
theorem substitute_of_plain (h : IsPlain text) : substitute before matched after text = text := by
  induction text using substitute.induct before matched after with
  | case1 => rw [substitute]
  | case2 c => rw [substitute]
  | case3 sign rest meaning hsign _ =>
    rw [signText?_eq_none_iff.mpr h.sign_notMem] at hsign
    cases hsign
  | case4 sign rest hsign ih => rw [substitute_dollar hsign, ih h.tail]
  | case5 c sign rest hc ih => rw [substitute_of_ne hc, ih h.tail]

/-! ## All matches -/

theorem replaceFrom_skip (skipped : List Char) :
    replaceFrom pattern replacement before skipped.length (skipped ++ rest) =
      replaceFrom pattern replacement (before ++ skipped) 0 rest := by
  induction skipped generalizing before with
  | nil => rw [List.append_nil, List.nil_append, List.length_nil]
  | cons c skipped ih =>
    rw [List.length_cons, List.cons_append, replaceFrom, ih, List.append_assoc]
    rfl

/-- A match is replaced, and the rest follows. -/
theorem replaceFrom_hit (hpattern : pattern ≠ []) :
    replaceFrom pattern replacement before 0 (pattern ++ rest) =
      substitute before pattern rest replacement ++
        replaceFrom pattern replacement (before ++ pattern) 0 rest := by
  match pattern, hpattern with
  | c :: tail, _ =>
    have hfront : (c :: tail).isPrefixOf (c :: (tail ++ rest)) = true :=
      List.isPrefixOf_iff_prefix.mpr (List.prefix_append (c :: tail) rest)
    have hdrop : (c :: (tail ++ rest)).drop (c :: tail).length = rest := by
      rw [List.length_cons, List.drop_succ_cons, List.drop_left]
    rw [List.cons_append, replaceFrom, if_pos hfront, hdrop]
    congr 1
    rw [List.length_cons, Nat.add_sub_cancel, replaceFrom_skip, List.append_assoc]
    rfl

/-- A character at which no match starts is kept. -/
theorem replaceFrom_char {c : Char} (hc : ¬ pattern <+: c :: rest) :
    replaceFrom pattern replacement before 0 (c :: rest) =
      c :: replaceFrom pattern replacement (before ++ [c]) 0 rest := by
  rw [replaceFrom, if_neg]
  exact fun h => hc (List.isPrefixOf_iff_prefix.mp h)

/-- A plain text is inserted at all matches as it stands. -/
theorem replaceFrom_of_plain (hpattern : pattern ≠ []) (hplain : IsPlain replacement)
    {marks : List (Option Char)} (hcut : Cut pattern text marks) (before : List Char) :
    replaceFrom pattern replacement before 0 text = fill replacement marks := by
  induction hcut generalizing before with
  | nil => rw [replaceFrom, fill]
  | hit _ ih => rw [replaceFrom_hit hpattern, substitute_of_plain hplain, ih, fill]
  | char hc _ ih => rw [replaceFrom_char hc, ih, fill]

/-! ## Weights

To see that a text that is not plain does not stand for itself, characters are weighed so that
whatever a dollar with a sign stands for weighs more than the two of them: a dollar weighs less than
nothing, and a character that the placeholder holds, and one that the texts before it and behind it
hold, weigh more than all dollars together. -/

/-- A character that may stand in front of a template and behind it. -/
def edge : Char := 'a'

/-- The weight of a character, where the whole text is no longer than `bound`. -/
def charWeight (bound : Nat) (c : Char) : Int :=
  if c = '$' then -1 else if c = edge ∨ c = opening then bound else 0

/-- The weight of a text. -/
def weight (bound : Nat) : List Char → Int
  | [] => 0
  | c :: rest => charWeight bound c + weight bound rest

variable {bound : Nat}

theorem weight_cons (c : Char) (l : List Char) :
    weight bound (c :: l) = charWeight bound c + weight bound l := rfl

theorem weight_append (l m : List Char) :
    weight bound (l ++ m) = weight bound l + weight bound m := by
  induction l with
  | nil =>
    show weight bound m = 0 + weight bound m
    omega
  | cons c rest ih =>
    rw [List.cons_append, weight_cons, weight_cons, ih]
    omega

theorem neg_one_le_charWeight (bound : Nat) (c : Char) : -1 ≤ charWeight bound c := by
  rw [charWeight]
  split
  · omega
  · split <;> omega

theorem neg_length_le_weight (bound : Nat) (l : List Char) : -(l.length : Int) ≤ weight bound l := by
  induction l with
  | nil => exact Int.le_refl 0
  | cons c rest ih =>
    have hc := neg_one_le_charWeight bound c
    rw [weight_cons, List.length_cons]
    omega

/-- A text that is not too long and holds a heavy character does not weigh less than nothing. -/
theorem weight_nonneg {l : List Char} (hlength : l.length ≤ bound) {c : Char} (hmem : c ∈ l)
    (hc : c = edge ∨ c = opening) : 0 ≤ weight bound l := by
  obtain ⟨l₁, l₂, rfl⟩ := List.append_of_mem hmem
  have hheavy : charWeight bound c = bound := by
    rw [charWeight, if_neg, if_pos hc]
    rintro rfl
    rcases hc with h | h <;> exact absurd h (by decide)
  have h₁ := neg_length_le_weight bound l₁
  have h₂ := neg_length_le_weight bound l₂
  rw [List.length_append, List.length_cons] at hlength
  rw [weight_append, weight_cons, hheavy]
  omega

/-- What a dollar with a sign stands for weighs more than the two of them. -/
theorem weight_lt_of_signText? {sign : Char} {meaning : List Char}
    (hbefore : 0 ≤ weight bound before) (hmatched : 0 ≤ weight bound matched)
    (hafter : 0 ≤ weight bound after)
    (h : signText? before matched after sign = some meaning) :
    weight bound ['$', sign] < weight bound meaning := by
  have hdollar : charWeight bound '$' = -1 := rfl
  have hnil : weight bound [] = 0 := rfl
  rw [weight_cons, weight_cons, hnil, hdollar]
  rcases signText?_eq_some h with ⟨rfl, rfl⟩ | ⟨rfl, rfl⟩ | ⟨rfl, rfl⟩ | ⟨rfl, rfl⟩
  · rw [weight_cons, hnil, hdollar]
    omega
  · have hsign : charWeight bound '&' = 0 := rfl
    omega
  · have hsign : charWeight bound '`' = 0 := rfl
    omega
  · have hsign : charWeight bound '\'' = 0 := rfl
    omega

/-- What is put in place of a match weighs at least as much as the replacement, and more if the
replacement is not plain. -/
theorem weight_substitute (hbefore : 0 ≤ weight bound before) (hmatched : 0 ≤ weight bound matched)
    (hafter : 0 ≤ weight bound after) (text : List Char) :
    weight bound text ≤ weight bound (substitute before matched after text) ∧
      (¬ IsPlain text →
        weight bound text < weight bound (substitute before matched after text)) := by
  induction text using substitute.induct before matched after with
  | case1 =>
    rw [substitute]
    have hplain : IsPlain [] := isPlain_of_length_le_one (Nat.zero_le 1)
    exact ⟨Int.le_refl _, fun h => absurd hplain h⟩
  | case2 c =>
    rw [substitute]
    have hplain : IsPlain [c] := isPlain_of_length_le_one (Nat.le_refl 1)
    exact ⟨Int.le_refl _, fun h => absurd hplain h⟩
  | case3 sign rest meaning hsign ih =>
    have hlt := weight_lt_of_signText? hbefore hmatched hafter hsign
    have hsplit : weight bound ('$' :: sign :: rest) =
        weight bound ['$', sign] + weight bound rest := weight_append ['$', sign] rest
    rw [substitute_sign hsign, weight_append, hsplit]
    exact ⟨by omega, fun _ => by omega⟩
  | case4 sign rest hsign ih =>
    rw [substitute_dollar hsign, weight_cons '$' (sign :: rest), weight_cons '$' (substitute ..)]
    refine ⟨by omega, fun h => ?_⟩
    have hrest : ¬ IsPlain (sign :: rest) :=
      fun hplain => h (hplain.cons fun _ => signText?_eq_none_iff.mp hsign)
    have hlt := ih.2 hrest
    omega
  | case5 c sign rest hc ih =>
    rw [substitute_of_ne hc, weight_cons, weight_cons c]
    refine ⟨by omega, fun h => ?_⟩
    have hrest : ¬ IsPlain (sign :: rest) :=
      fun hplain => h (hplain.cons fun heq => absurd heq hc)
    have hlt := ih.2 hrest
    omega

theorem forall_mem_getLast?_edge {init : List Char} :
    ∀ c ∈ (init ++ [edge]).getLast?, c = edge := by
  intro c hc
  rw [List.getLast?_concat] at hc
  exact (Option.some_inj.mp hc).symm

/-- A placeholder ends in a brace, so that the last character of a text is behind it. -/
theorem exists_behind_token {name : List Char}
    (hlast : ∀ c ∈ (token name ++ rest).getLast?, c = edge) : ∃ init, rest = init ++ [edge] := by
  rcases List.eq_nil_or_concat rest with rfl | ⟨init, last, rfl⟩
  · have hclosing : closing = edge := hlast closing (by
      rw [List.append_nil, PathTemplate.token_eq, ← List.cons_append]
      exact List.getLast?_concat)
    exact absurd hclosing (by decide)
  · rw [List.concat_eq_append] at hlast ⊢
    have hedge : last = edge := hlast last (by
      rw [← List.append_assoc]
      exact List.getLast?_concat)
    exact ⟨init, by rw [hedge]⟩

/-- What all matches of a placeholder are replaced with weighs at least as much as the replacement
at all of them, and more if there is a match and the replacement is not plain. -/
theorem weight_replaceFrom {name : List Char} {marks : List (Option Char)}
    (hcut : Cut (token name) text marks) (hbefore : edge ∈ before)
    (hlast : ∀ c ∈ text.getLast?, c = edge) (hlength : before.length + text.length ≤ bound) :
    weight bound (fill replacement marks) ≤
        weight bound (replaceFrom (token name) replacement before 0 text) ∧
      (none ∈ marks → ¬ IsPlain replacement → weight bound (fill replacement marks) <
        weight bound (replaceFrom (token name) replacement before 0 text)) := by
  induction hcut generalizing before with
  | nil =>
    rw [fill, replaceFrom]
    exact ⟨Int.le_refl _, fun h => absurd h List.not_mem_nil⟩
  | @hit rest marks hcut ih =>
    rw [List.length_append] at hlength
    obtain ⟨init, rfl⟩ := exists_behind_token hlast
    have hlight : 0 ≤ weight bound before :=
      weight_nonneg (by omega) hbefore (Or.inl rfl)
    have hmatched : 0 ≤ weight bound (token name) :=
      weight_nonneg (by omega) List.mem_cons_self (Or.inr rfl)
    have hafter : 0 ≤ weight bound (init ++ [edge]) :=
      weight_nonneg (by omega) (List.mem_append_right _ (List.mem_singleton_self _)) (Or.inl rfl)
    obtain ⟨hle, hlt⟩ := weight_substitute hlight hmatched hafter replacement
    have hnext : edge ∈ before ++ token name := List.mem_append_left _ hbefore
    have hih := (ih hnext forall_mem_getLast?_edge (by rw [List.length_append]; omega)).1
    have htoken : token name ≠ [] := List.cons_ne_nil _ _
    rw [replaceFrom_hit htoken, fill, weight_append, weight_append]
    refine ⟨by omega, fun _ hplain => ?_⟩
    have hmore := hlt hplain
    omega
  | @char c rest marks hc hcut ih =>
    rw [List.length_cons] at hlength
    have hnext : edge ∈ before ++ [c] := List.mem_append_left _ hbefore
    have hrest : ∀ d ∈ rest.getLast?, d = edge := by
      intro d hd
      refine hlast d ?_
      rw [List.getLast?_cons, Option.mem_def.mp hd]
      rfl
    have hih := ih hnext hrest (by rw [List.length_append, List.length_singleton]; omega)
    rw [replaceFrom_char hc, fill, weight_cons, weight_cons]
    refine ⟨by omega, fun hmem hplain => ?_⟩
    have hmore := hih.2 ((List.mem_cons.mp hmem).resolve_left (by simp)) hplain
    omega

/-- Only a plain text stands for itself in place of a placeholder, whatever is in front of the
template and behind it. -/
theorem isPlain_of_replaceAll_eq_fill {name path : List Char} {marks : List (Option Char)}
    (hcut : Cut (token name) (path ++ [edge]) marks) (hmarks : none ∈ marks)
    (heq : replaceAll (token name) replacement (edge :: (path ++ [edge])) =
      edge :: fill replacement marks) : IsPlain replacement := by
  by_contra hplain
  have hedge : ¬ token name <+: edge :: (path ++ [edge]) := by
    intro hfront
    rw [PathTemplate.token_eq, List.cons_prefix_cons] at hfront
    exact absurd hfront.1 (by decide)
  rw [replaceAll, replaceFrom_char hedge, List.cons.injEq] at heq
  have hbefore : edge ∈ [] ++ [edge] := List.mem_singleton_self edge
  have hlt :=
    (weight_replaceFrom hcut hbefore forall_mem_getLast?_edge (Nat.le_refl _)).2 hmarks hplain
  rw [heq.2] at hlt
  exact absurd hlt (Int.lt_irrefl _)

end TypedClient.Script
