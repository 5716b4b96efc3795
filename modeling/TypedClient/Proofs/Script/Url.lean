import Mathlib.Data.List.Perm.Subperm
import TypedClient.Client
import TypedClient.Proofs.PathTemplate.Marks
import TypedClient.Proofs.Script.Expression

/-!
# The path of a call

The script fills in the parameters of a path one after another, each with a call of `replace` on
what the calls before it gave, while a template is expanded at one go.  The two differ in three
ways: what is written for the path may be no expression at all, a value may hold dollars that mean
something in a replacement, and the values in front may put together a placeholder that the
template does not have.

* `pathNames`, `Agrees`: the path parameters of a method, and the agreement of script and template.
* `Faithful`: none of the three happens.
* `Faithful.agrees`: then the two agree.
* `agrees_iff_faithful`: and only then do they agree with other text around the template and with
  fewer parameters declared.  A single call may agree by accident.
* `not_agrees_dollar_capture`: two calls that do not agree.
-/

namespace TypedClient.Script

open PathTemplate (Cut Piece Refines fill token IsName isNameChar occurrences opening closing
  placeholders pieces templateMarks)
open Source (urlText)

/-! ## Agreement -/

/-- The names of a template that are declared as path parameters. -/
def pathNames (declared : List String) (path : String) : List String :=
  (placeholders path).filter declared.contains

/-- The values of some names. -/
def restrict (values : String → String) (names : List String) (n : String) : Option String :=
  if n ∈ names then some (values n) else none

/-- The expression for a path has a value, and it is the expanded template. -/
def Agrees (path : String) (names : List String) (values : String → String) : Prop :=
  (Expression.read? (urlText path names).toList).map (fun url => url.value values) =
    some (PathTemplate.expand path (restrict values names))

/-- A template with values for some names, as a list of characters. -/
def expanded (values : String → String) (names : List String) (s : List Char) : List Char :=
  (pieces s).flatMap (Piece.expand (restrict values names))

/-- The path can be read, every value stands for itself, and the values of the names in front never
put together another placeholder of a name, unless its value is that placeholder. -/
structure Faithful (path : String) (names : List String) (values : String → String) : Prop where
  readable : Readable path names
  plain : ∀ n ∈ names, IsPlain (values n).toList
  captures : ∀ before n, (before ++ [n]).Sublist names →
    occurrences (token n.toList) (expanded values before path.toList) =
      occurrences (token n.toList) path.toList ∨ (values n).toList = token n.toList

/-- Text in which no placeholder starts or ends and that a string can hold. -/
structure IsFrame (text : String) : Prop where
  opening : opening ∉ text.toList
  closing : closing ∉ text.toList
  carriageReturn : '\r' ∉ text.toList

variable {path l r : String} {names before declared : List String} {values : String → String}
  {s : List Char} {n : String}

/-! ## Expanding name by name -/

theorem toList_expand (path : String) (values : String → String) (names : List String) :
    (PathTemplate.expand path (restrict values names)).toList =
      expanded values names path.toList := by
  rw [PathTemplate.expand, String.toList_ofList]
  rfl

theorem restrict_nil (values : String → String) : restrict values [] = fun _ => none := by
  funext n
  rw [restrict, if_neg List.not_mem_nil]

/-- Without values a template is left as it is. -/
theorem expanded_nil (values : String → String) (s : List Char) : expanded values [] s = s := by
  have hpiece : Piece.expand (restrict values []) = Piece.text := by
    funext piece
    rw [restrict_nil]
    cases piece <;> rfl
  rw [expanded, hpiece, PathTemplate.text_pieces]

/-- The placeholders of the next name, in a template with values for the names before. -/
def nextMarks (values : String → String) (before : List String) (n : String) (s : List Char) :
    List (Option Char) :=
  templateMarks n.toList (restrict values before) (pieces s)

/-- With the placeholders themselves at the marks, the next name has no value yet. -/
theorem fill_nextMarks_token (hn : n ∉ before) (s : List Char) :
    fill (token n.toList) (nextMarks values before n s) = expanded values before s := by
  have hnone : restrict values before = fun m =>
      if m = String.ofList n.toList then none else restrict values before m := by
    funext m
    rw [String.ofList_toList]
    by_cases hm : m = n
    · rw [if_pos hm, restrict, if_neg (hm ▸ hn)]
    · rw [if_neg hm]
  have htoken : Piece.expand (fun m =>
      if m = String.ofList n.toList then none else restrict values before m)
      (.placeholder n.toList) = token n.toList := by
    rw [Piece.expand, if_pos rfl, token]
  have hfill := PathTemplate.fill_templateMarks htoken (pieces s)
  rw [← hnone] at hfill
  exact hfill

/-- With its value at the marks, the next name has its value. -/
theorem fill_nextMarks_value (values : String → String) (before : List String) (n : String)
    (s : List Char) :
    fill (values n).toList (nextMarks values before n s) = expanded values (before ++ [n]) s := by
  have hsome : restrict values (before ++ [n]) = fun m =>
      if m = String.ofList n.toList then some (values n) else restrict values before m := by
    funext m
    rw [String.ofList_toList]
    by_cases hm : m = n
    · rw [if_pos hm, hm, restrict, if_pos (List.mem_append_right _ (List.mem_singleton_self n))]
    · have hiff : m ∈ before ++ [n] ↔ m ∈ before := by
        rw [List.mem_append, List.mem_singleton, or_iff_left hm]
      rw [if_neg hm, restrict, restrict]
      exact if_congr hiff rfl rfl
  have hvalue : Piece.expand (fun m =>
      if m = String.ofList n.toList then some (values n) else restrict values before m)
      (.placeholder n.toList) = (values n).toList := by
    rw [Piece.expand, if_pos rfl]
  have hfill := PathTemplate.fill_templateMarks hvalue (pieces s)
  rw [← hsome] at hfill
  exact hfill

/-- As many placeholders of the next name are marked as the template has. -/
theorem count_nextMarks (hn : IsName n.toList) (before : List String) (s : List Char) :
    (nextMarks values before n s).count none = occurrences (token n.toList) s := by
  rw [nextMarks, PathTemplate.count_templateMarks, PathTemplate.occurrences_pieces hn]

/-- The marks of the next name against all of its placeholders, some of which may have been put
together. -/
theorem exists_refines_nextMarks (hn : IsName n.toList) (hbefore : n ∉ before) (s : List Char) :
    ∃ cut, Cut (token n.toList) (expanded values before s) cut ∧
      Refines (token n.toList) cut (nextMarks values before n s) := by
  have hne : token n.toList ≠ [] := List.cons_ne_nil _ _
  obtain ⟨cut, hcut⟩ := PathTemplate.exists_cut hne (expanded values before s)
  exact ⟨cut, hcut, hcut.refines hn (fill_nextMarks_token hbefore s)⟩

/-- All placeholders of the next name are cut at the marks if there are no more of them than in the
template. -/
theorem cut_nextMarks (hn : IsName n.toList) (hbefore : n ∉ before)
    (hcount : occurrences (token n.toList) (expanded values before s) =
      occurrences (token n.toList) s) :
    Cut (token n.toList) (expanded values before s) (nextMarks values before n s) := by
  obtain ⟨cut, hcut, hrefines⟩ := exists_refines_nextMarks hn hbefore s
  have heq : cut = nextMarks values before n s := by
    refine hrefines.eq_of_count_eq ?_
    rw [← hcut.occurrences_eq hn, hcount, count_nextMarks hn]
  exact heq ▸ hcut

/-- One call: a value that stands for itself replaces its name, if no placeholder was put together
or if it is the placeholder. -/
theorem replaceAll_expanded (hn : IsName n.toList) (hbefore : n ∉ before)
    (hplain : IsPlain (values n).toList)
    (hcaptures : occurrences (token n.toList) (expanded values before s) =
      occurrences (token n.toList) s ∨ (values n).toList = token n.toList) :
    replaceAll (token n.toList) (values n).toList (expanded values before s) =
      expanded values (before ++ [n]) s := by
  have hne : token n.toList ≠ [] := List.cons_ne_nil _ _
  rcases hcaptures with hcount | hvalue
  · have hcut := cut_nextMarks hn hbefore hcount
    rw [replaceAll, replaceFrom_of_plain hne hplain hcut, fill_nextMarks_value]
  · obtain ⟨cut, hcut⟩ := PathTemplate.exists_cut hne (expanded values before s)
    rw [replaceAll, replaceFrom_of_plain hne hplain hcut, hvalue, hcut.fill_eq,
      ← fill_nextMarks_token hbefore, ← fill_nextMarks_value, hvalue]

/-- And only then, for a value that stands for itself. -/
theorem captures_of_replaceAll_expanded (hn : IsName n.toList) (hbefore : n ∉ before)
    (hplain : IsPlain (values n).toList)
    (heq : replaceAll (token n.toList) (values n).toList (expanded values before s) =
      expanded values (before ++ [n]) s) :
    occurrences (token n.toList) (expanded values before s) = occurrences (token n.toList) s ∨
      (values n).toList = token n.toList := by
  have hne : token n.toList ≠ [] := List.cons_ne_nil _ _
  obtain ⟨cut, hcut, hrefines⟩ := exists_refines_nextMarks hn hbefore s
  rw [replaceAll, replaceFrom_of_plain hne hplain hcut, ← fill_nextMarks_value] at heq
  rcases hrefines.eq_or_eq_of_fill_eq heq with hvalue | hmarks
  · exact Or.inr hvalue
  · rw [hcut.occurrences_eq hn, hmarks, count_nextMarks hn]
    exact Or.inl rfl

/-! ## All calls -/

/-- The path after the calls for some names. -/
def replaced (values : String → String) (names : List String) (s : List Char) : List Char :=
  names.foldl (fun url n => replaceAll (token n.toList) (values n).toList url) s

theorem replaced_concat (values : String → String) (names : List String) (n : String)
    (s : List Char) :
    replaced values (names ++ [n]) s =
      replaceAll (token n.toList) (values n).toList (replaced values names s) := by
  rw [replaced, List.foldl_append]
  rfl

theorem value_urlExpression (path : String) (names : List String) (values : String → String) :
    (urlExpression path names).value values =
      String.ofList (replaced values names path.toList) := by
  rw [Expression.value, urlExpression, List.foldl_map, replaced]
  simp only [String.ofList_toList]

/-- Script and template agree exactly if the path can be read and the calls give the expanded
template. -/
theorem agrees_iff_replaced :
    Agrees path names values ↔
      Readable path names ∧
        replaced values names path.toList = expanded values names path.toList := by
  constructor
  · intro h
    obtain ⟨url, hread, hvalue⟩ := Option.map_eq_some_iff.mp h
    have hreadable := readable_of_read?_urlText hread
    rw [read?_urlText hreadable] at hread
    refine ⟨hreadable, ?_⟩
    rw [← Option.some_inj.mp hread, value_urlExpression] at hvalue
    rw [← toList_expand, ← hvalue, String.toList_ofList]
  · rintro ⟨hreadable, hreplaced⟩
    rw [Agrees, read?_urlText hreadable, Option.map_some, value_urlExpression, hreplaced,
      ← toList_expand, String.ofList_toList]

theorem isName_of_mem (h : n ∈ placeholders path) : IsName n.toList :=
  PathTemplate.isName_of_mem_pieces (PathTemplate.mem_placeholders_iff.mp h)

/-- No name of a template is among those in front of it. -/
theorem notMem_of_sublist (h : (before ++ [n]).Sublist (placeholders path)) : n ∉ before := by
  intro hn
  have hnodup := (PathTemplate.nodup_placeholders path).sublist h
  exact List.disjoint_of_nodup_append hnodup hn (List.mem_singleton_self n)

/-- If the path can be read, no value has dollars with a meaning, and no placeholder is put
together, script and template agree. -/
theorem Faithful.agrees (h : Faithful path names values)
    (hnames : names.Sublist (placeholders path)) : Agrees path names values := by
  -- The calls made so far have given the template with the values of their names.
  have hcalls : ∀ before, before <+: names →
      replaced values before path.toList = expanded values before path.toList := by
    intro before
    induction before using List.reverseRecOn with
    | nil =>
      intro _
      rw [expanded_nil]
      rfl
    | append_singleton before n ih =>
      intro hfront
      have hmem : n ∈ names := hfront.subset (List.mem_append_right _ (List.mem_singleton_self n))
      have hbefore : n ∉ before := notMem_of_sublist (hfront.sublist.trans hnames)
      rw [replaced_concat, ih ((List.prefix_append before [n]).trans hfront)]
      exact replaceAll_expanded (isName_of_mem (hnames.subset hmem)) hbefore (h.plain n hmem)
        (h.captures before n hfront.sublist)
  exact agrees_iff_replaced.mpr ⟨h.readable, hcalls names List.prefix_rfl⟩

/-! ## Fewer parameters, and text around the template -/

theorem pathNames_sublist (declared : List String) (path : String) :
    (pathNames declared path).Sublist (placeholders path) := List.filter_sublist

/-- Fewer declared parameters are fewer path parameters. -/
theorem pathNames_sublist_of_subset {kept : List String} (h : kept ⊆ declared) (path : String) :
    (pathNames kept path).Sublist (pathNames declared path) := by
  refine List.monotone_filter_right _ fun n hn => ?_
  rw [List.contains_iff_mem] at hn ⊢
  exact h hn

/-- Some of the names of a template, in its order, are the path parameters if they are declared. -/
theorem pathNames_of_sublist (h : names.Sublist (placeholders path)) :
    pathNames names path = names := by
  have hnodup := PathTemplate.nodup_placeholders path
  have hmem : ∀ n, n ∈ pathNames names path ↔ n ∈ names := by
    intro n
    rw [pathNames, List.mem_filter, List.contains_iff_mem]
    exact and_iff_right_of_imp fun hn => h.subset hn
  have hsublist := pathNames_sublist names path
  refine (hnodup.perm_iff_eq_of_sublist hsublist h).mp ?_
  exact (List.perm_ext_iff_of_nodup (hnodup.sublist hsublist) (hnodup.sublist h)).mpr hmem

theorem Faithful.mono {kept : List String} (h : Faithful path names values)
    (hkept : kept.Sublist names) : Faithful path kept values where
  readable := ⟨h.readable.path, fun n hn => h.readable.names n (hkept.subset hn)⟩
  plain n hn := h.plain n (hkept.subset hn)
  captures before n hbefore := h.captures before n (hbefore.trans hkept)

theorem flatMap_expand_char (value? : String → Option String) (text : List Char) :
    (text.map Piece.char).flatMap (Piece.expand value?) = text := by
  induction text with
  | nil => rfl
  | cons c rest ih =>
    rw [List.map_cons, List.flatMap_cons, ih]
    rfl

theorem filterMap_name?_char (text : List Char) :
    (text.map Piece.char).filterMap Piece.name? = [] := by
  induction text with
  | nil => rfl
  | cons c rest ih =>
    rw [List.map_cons, List.filterMap_cons_none rfl, ih]

theorem pieces_frame (hl : IsFrame l) (hr : IsFrame r) (path : String) :
    pieces (l ++ path ++ r).toList =
      l.toList.map .char ++ pieces path.toList ++ r.toList.map .char := by
  rw [String.toList_append, String.toList_append,
    PathTemplate.pieces_append_right hr.opening hr.closing,
    PathTemplate.pieces_append_left hl.opening]

theorem placeholders_frame (hl : IsFrame l) (hr : IsFrame r) (path : String) :
    placeholders (l ++ path ++ r) = placeholders path := by
  rw [placeholders, pieces_frame hl hr, List.filterMap_append, List.filterMap_append,
    filterMap_name?_char, filterMap_name?_char, List.nil_append, List.append_nil, placeholders]

theorem expanded_frame (hl : IsFrame l) (hr : IsFrame r) (path : String)
    (values : String → String) (names : List String) :
    expanded values names (l ++ path ++ r).toList =
      l.toList ++ (expanded values names path.toList ++ r.toList) := by
  rw [expanded, pieces_frame hl hr, List.flatMap_append, List.flatMap_append, flatMap_expand_char,
    flatMap_expand_char, List.append_assoc, expanded]

/-- Text around a template puts no placeholders together. -/
theorem Faithful.frame (h : Faithful path names values) (hl : IsFrame l) (hr : IsFrame r) :
    Faithful (l ++ path ++ r) names values where
  readable := by
    refine ⟨?_, h.readable.names⟩
    rw [String.toList_append, String.toList_append, List.mem_append, List.mem_append]
    rintro ((hmem | hmem) | hmem)
    · exact hl.carriageReturn hmem
    · exact h.readable.path hmem
    · exact hr.carriageReturn hmem
  plain := h.plain
  captures before n hbefore := by
    rw [expanded_frame hl hr, PathTemplate.occurrences_append_left hl.opening,
      PathTemplate.occurrences_append_right hr.closing, String.toList_append,
      String.toList_append, PathTemplate.occurrences_append_right hr.closing,
      PathTemplate.occurrences_append_left hl.opening]
    exact h.captures before n hbefore

/-! ## When script and template agree -/

theorem isFrame_empty : IsFrame "" := by constructor <;> decide

theorem isFrame_edge : IsFrame (String.singleton edge) := by constructor <;> decide

/-- The placeholders of a template by itself are all there are. -/
theorem cut_template (hn : IsName n.toList) (values : String → String) (s : List Char) :
    Cut (token n.toList) s (nextMarks values [] n s) := by
  have hcount : occurrences (token n.toList) (expanded values [] s) =
      occurrences (token n.toList) s := by
    rw [expanded_nil]
  have hcut := cut_nextMarks hn List.not_mem_nil hcount
  rwa [expanded_nil] at hcut

/-- A value that is put in place of its name as it stands, with a character in front of the template
and behind it, has no dollars with a meaning. -/
theorem isPlain_of_agrees (hn : n ∈ placeholders path)
    (h : Agrees (String.singleton edge ++ path ++ String.singleton edge) [n] values) :
    IsPlain (values n).toList := by
  have hedge : ∀ s, pieces (edge :: s) = .char edge :: pieces s :=
    PathTemplate.pieces_cons_of_ne (by decide)
  have hframed : (String.singleton edge ++ path ++ String.singleton edge).toList =
      edge :: (path.toList ++ [edge]) := by
    rw [String.toList_append, String.toList_append, String.toList_singleton, List.append_assoc]
    rfl
  have hvalid := isName_of_mem hn
  have hcut := cut_template hvalid values (path.toList ++ [edge])
  have hmarks : none ∈ nextMarks values [] n (path.toList ++ [edge]) := by
    rw [← List.count_pos_iff, count_nextMarks hvalid,
      PathTemplate.occurrences_append_right (by decide), PathTemplate.occurrences_pieces hvalid,
      List.count_pos_iff]
    exact PathTemplate.mem_placeholders_iff.mp hn
  have heq := (agrees_iff_replaced.mp h).2
  rw [hframed] at heq
  have hexpanded : expanded values [n] (edge :: (path.toList ++ [edge])) =
      edge :: expanded values ([] ++ [n]) (path.toList ++ [edge]) := by
    rw [expanded, hedge]
    rfl
  rw [hexpanded, ← fill_nextMarks_value] at heq
  exact isPlain_of_replaceAll_eq_fill hcut hmarks heq

/-- Agreement for any text around the template and any parameters out of those declared: then the
template is faithful. -/
theorem faithful_of_agrees
    (h : ∀ l r, IsFrame l → IsFrame r → ∀ kept ⊆ declared,
      Agrees (l ++ path ++ r) (pathNames kept (l ++ path ++ r)) values) :
    Faithful path (pathNames declared path) values := by
  have hnames := pathNames_sublist declared path
  have hframed : ∀ l r, IsFrame l → IsFrame r → ∀ names, names.Sublist (pathNames declared path) →
      Agrees (l ++ path ++ r) names values := by
    intro l r hl hr names hsub
    have hdeclared : names ⊆ declared := fun n hn =>
      List.contains_iff_mem.mp (List.mem_filter.mp (hsub.subset hn)).2
    have hagrees := h l r hl hr names hdeclared
    have hpath : pathNames names (l ++ path ++ r) = names := by
      refine pathNames_of_sublist ?_
      rw [placeholders_frame hl hr]
      exact hsub.trans hnames
    rwa [hpath] at hagrees
  have hplain : ∀ n ∈ pathNames declared path, IsPlain (values n).toList := by
    intro n hn
    refine isPlain_of_agrees (hnames.subset hn) ?_
    exact hframed _ _ isFrame_edge isFrame_edge [n] (List.singleton_sublist.mpr hn)
  have hreplaced : ∀ names, names.Sublist (pathNames declared path) →
      replaced values names path.toList = expanded values names path.toList := by
    intro names hsub
    have hagrees := hframed "" "" isFrame_empty isFrame_empty names hsub
    rw [String.empty_append, String.append_empty] at hagrees
    exact (agrees_iff_replaced.mp hagrees).2
  have hagrees := hframed "" "" isFrame_empty isFrame_empty _ (List.Sublist.refl _)
  rw [String.empty_append, String.append_empty] at hagrees
  refine ⟨(agrees_iff_replaced.mp hagrees).1, hplain, fun before n hbefore => ?_⟩
  have hmem : n ∈ pathNames declared path :=
    hbefore.subset (List.mem_append_right _ (List.mem_singleton_self n))
  have hnotMem : n ∉ before := notMem_of_sublist (hbefore.trans hnames)
  refine captures_of_replaceAll_expanded (isName_of_mem (hnames.subset hmem)) hnotMem
    (hplain n hmem) ?_
  have hcalls := hreplaced (before ++ [n]) hbefore
  rwa [replaced_concat, hreplaced before ((List.sublist_append_left before [n]).trans hbefore)]
    at hcalls

/-- Script and template agree, whatever text without braces is around the template and whichever of
the declared parameters are left, exactly if the path can be read, no value has dollars with a
meaning, and no placeholder is put together. -/
theorem agrees_iff_faithful (path : String) (declared : List String) (values : String → String) :
    (∀ l r, IsFrame l → IsFrame r → ∀ kept ⊆ declared,
      Agrees (l ++ path ++ r) (pathNames kept (l ++ path ++ r)) values) ↔
    Faithful path (pathNames declared path) values := by
  constructor
  · exact faithful_of_agrees
  · intro h l r hl hr kept hkept
    have hnames : pathNames kept (l ++ path ++ r) = pathNames kept path := by
      rw [pathNames, placeholders_frame hl hr, pathNames]
    have hfaithful : Faithful (l ++ path ++ r) (pathNames kept (l ++ path ++ r)) values := by
      rw [hnames]
      exact (h.mono (pathNames_sublist_of_subset hkept path)).frame hl hr
    exact hfaithful.agrees (pathNames_sublist kept (l ++ path ++ r))

/-- The two ways in which an expression that can be read differs from the template: a dollar with a
meaning, and a placeholder that was put together. -/
theorem not_agrees_dollar_capture :
    ¬ Agrees "/x/\x7ba\x7d" (pathNames ["a"] "/x/\x7ba\x7d") (fun _ => "$&") ∧
      ¬ Agrees "/x/\x7ba\x7d/\x7bb\x7d" (pathNames ["a", "b"] "/x/\x7ba\x7d/\x7bb\x7d")
        (fun n => if n = "a" then "\x7bb\x7d" else "1") := by
  have hname : ∀ c, isNameChar c = true → IsName [c] := fun c hc =>
    ⟨List.cons_ne_nil _ _, fun d hd => (List.mem_singleton.mp hd) ▸ hc⟩
  have hslashes : ∀ s, pieces ('/' :: 'x' :: '/' :: s) =
      .char '/' :: .char 'x' :: .char '/' :: pieces s := by
    intro s
    rw [PathTemplate.pieces_cons_of_ne (by decide), PathTemplate.pieces_cons_of_ne (by decide),
      PathTemplate.pieces_cons_of_ne (by decide)]
  have hone : pieces "/x/\x7ba\x7d".toList =
      [.char '/', .char 'x', .char '/', .placeholder ['a']] := by
    show pieces ('/' :: 'x' :: '/' :: (opening :: ['a'] ++ closing :: [])) = _
    rw [hslashes, PathTemplate.pieces_placeholder (hname 'a' rfl), PathTemplate.pieces_nil]
  have htwo : pieces "/x/\x7ba\x7d/\x7bb\x7d".toList =
      [.char '/', .char 'x', .char '/', .placeholder ['a'], .char '/', .placeholder ['b']] := by
    show pieces ('/' :: 'x' :: '/' :: (opening :: ['a'] ++ closing ::
      ('/' :: (opening :: ['b'] ++ closing :: [])))) = _
    rw [hslashes, PathTemplate.pieces_placeholder (hname 'a' rfl),
      PathTemplate.pieces_cons_of_ne (by decide),
      PathTemplate.pieces_placeholder (hname 'b' rfl), PathTemplate.pieces_nil]
  constructor
  · intro h
    have heq := (agrees_iff_replaced.mp h).2
    rw [pathNames, placeholders, expanded, hone] at heq
    revert heq
    decide
  · intro h
    have heq := (agrees_iff_replaced.mp h).2
    rw [pathNames, placeholders, expanded, htwo] at heq
    revert heq
    decide

end TypedClient.Script
