import TypedClient.Proofs.Pointer.Escaping

/-!
# Locations written as they are

A location is written like a reference, but its segments are put into it as they are.  It is cut
into the segments of a path exactly if none of them holds a slash and each is read as what it should
be; so keys with tildes or slashes may lead it elsewhere.

* `location`: the location with some segments.
* `segmentsOf_location_iff`: when a location is cut into the segments of a path.
* `resolve_location_iff`: when it leads, by these segments, to what stands at the path.
-/

namespace TypedClient.Pointer

open Script (isWhole_toDigits natOf_toDigits)

variable {v w root : Value} {path : List Step}

/-- The location with the segments as they are. -/
def location (segments : List String) : String :=
  "#/" ++ Text.joinWith "/" segments

theorem location_concat {segments : List String} (hne : segments ≠ []) (segment : String) :
    location (segments ++ [segment]) = location segments ++ "/" ++ segment := by
  rw [location, location, String.append_assoc, String.append_assoc]
  congr 1
  induction segments with
  | nil => exact absurd rfl hne
  | cons first rest ih =>
    cases rest with
    | nil => simp [Text.joinWith_cons_cons, String.append_assoc]
    | cons second rest =>
      rw [List.cons_append, List.cons_append, Text.joinWith_cons_cons, Text.joinWith_cons_cons,
        ← List.cons_append, ih (List.cons_ne_nil _ _)]
      simp only [String.append_assoc]

theorem location_pair {segments : List String} (hne : segments ≠ []) (first second : String) :
    location (segments ++ [first, second]) =
      location segments ++ "/" ++ first ++ "/" ++ second := by
  rw [← location_concat hne, ← location_concat (List.append_ne_nil_of_left_ne_nil hne _),
    List.append_assoc]
  rfl

/-- A segment without tildes is read as it is. -/
theorem unescape_eq_self {segment : List Char} (h : '~' ∉ segment) : unescape segment = segment := by
  have hpair : ∀ c, ¬ ['~', c] <:+: segment := fun c hpair => h (hpair.subset List.mem_cons_self)
  rw [unescape, Text.replaceAll_eq_self (hpair '1'), Text.replaceAll_eq_self (hpair '0')]

/-- The segment, written as it is, is read as that of the step. -/
def Step.ReadFrom (step : Step) (segment : String) : Prop :=
  '/' ∉ segment.toList ∧ unescape segment.toList = step.segment

theorem readFrom_position (index : ℕ) : (Step.position index).ReadFrom (toString index) := by
  have hdigit : ∀ c ∈ Nat.toDigits 10 index, c.isDigit = true := fun c hc =>
    Nat.isDigit_of_mem_toDigits (by decide) (by decide) hc
  have hsegment : (toString index).toList = (Step.position index).segment := by
    rw [Nat.toString_eq_ofList_toDigits, String.toList_ofList]
    rfl
  rw [Step.ReadFrom, hsegment]
  refine ⟨fun h => absurd (hdigit _ h) (by decide), unescape_eq_self fun h => ?_⟩
  exact absurd (hdigit _ h) (by decide)

/-- Cut further, the segments of some texts are at least as many as the texts. -/
theorem length_le_length_flatMap_segments (texts : List String) :
    texts.length ≤ (texts.flatMap fun text => Text.segments '/' text.toList).length := by
  induction texts with
  | nil => exact Nat.le_refl 0
  | cons text texts ih =>
    have hpos := List.length_pos_iff.mpr (Text.segments_ne_nil '/' text.toList)
    rw [List.flatMap_cons, List.length_append, List.length_cons]
    omega

/-- A location is cut into the segments of a path exactly if each of its own segments is read as that
of the step for which it was written. -/
theorem segmentsOf_location_iff {pairs : List (Step × String)} (hne : pairs ≠ []) :
    segmentsOf (location (pairs.map Prod.snd)) = (pairs.map Prod.fst).map Step.segment ↔
      ∀ p ∈ pairs, p.1.ReadFrom p.2 := by
  have hdrop : (location (pairs.map Prod.snd)).toList.drop 2 =
      (Text.joinWith (String.singleton '/') (pairs.map Prod.snd)).toList := by
    rw [location, String.toList_append]
    rfl
  rw [segmentsOf, hdrop, Text.segments_joinWith_eq_flatMap (mt List.map_eq_nil_iff.mp hne)]
  clear hdrop hne
  induction pairs with
  | nil => exact iff_of_true rfl (List.forall_mem_nil _)
  | cons p pairs ih =>
    have hrest : (∀ q ∈ pairs, q.1.ReadFrom q.2) ↔ ((pairs.map Prod.snd).flatMap fun text =>
        Text.segments '/' text.toList).map unescape = (pairs.map Prod.fst).map Step.segment :=
      ih.symm
    rw [List.map_cons, List.map_cons, List.map_cons, List.flatMap_cons, List.map_append,
      List.forall_mem_cons, hrest]
    by_cases hslash : '/' ∈ p.2.toList
    · -- Then there are more pieces than steps.
      refine iff_of_false (fun heq => ?_) fun h => h.1.1 hslash
      have hpieces := Text.one_lt_length_segments hslash
      have hmore := length_le_length_flatMap_segments (pairs.map Prod.snd)
      have hcount := congrArg List.length heq
      simp only [List.length_append, List.length_map, List.length_cons] at hcount hmore
      omega
    · rw [Text.segments_of_notMem hslash, List.map_singleton, List.singleton_append,
        List.cons.injEq, Step.ReadFrom, and_iff_right hslash]

/-- The value at the end of a path behind another. -/
theorem valueAt?_append {before after : List Step} :
    valueAt? (before ++ after) v = (valueAt? before v).bind (valueAt? after) := by
  induction before generalizing v with
  | nil => rfl
  | cons step before ih =>
    rw [List.cons_append, valueAt?, valueAt?, Option.bind_assoc]
    exact congrArg _ (funext fun u => ih)

theorem limit_of_lenient {index : ℕ} {items : List Value}
    (h : lenient (Nat.toDigits 10 index) items v) : index < 10 ^ Text.numeralLimit := by
  obtain ⟨i, -, hread, -⟩ := h
  rw [← Text.readInteger?_eq_some_iff, Text.readInteger?_of_isWhole (isWhole_toDigits index)] at hread
  split at hread
  · rename_i hlength
    exact (Nat.length_toDigits_le_iff (by decide) (by decide)).mp hlength
  · cases hread

/-- The step is a key, or a position that is short enough to be read. -/
def Step.IsShort : Step → Prop
  | .key _ => True
  | .position index => index < 10 ^ Text.numeralLimit

/-- Where the segments of a path lead on, its positions are short enough to be read. -/
theorem isShort_of_reaches (h : Reaches lenient (path.map Step.segment) v w)
    (hvalue : valueAt? path v = some w) : ∀ step ∈ path, step.IsShort := by
  induction path generalizing v with
  | nil => exact List.forall_mem_nil _
  | cons step path ih =>
    obtain ⟨u, hu, hrest⟩ := Option.bind_eq_some_iff.mp hvalue
    rw [List.map_cons] at h
    cases step with
    | key name =>
      cases v with
      | map entries =>
        cases h with
        | key hget h =>
          rw [Step.segment, String.ofList_toList] at hget
          obtain rfl := Option.some_inj.mp (hget.symm.trans hu)
          exact List.forall_mem_cons.mpr ⟨trivial, ih h hrest⟩
      | _ => cases hu
    | position index =>
      cases v with
      | list items =>
        cases h with
        | element hrule h =>
          have hget := (hrule.standard (isWhole_toDigits index)).2
          rw [Step.segment, natOf_toDigits] at hget
          obtain rfl := Option.some_inj.mp (hget.symm.trans hu)
          exact List.forall_mem_cons.mpr ⟨limit_of_lenient hrule, ih h hrest⟩
      | _ => cases hu

/-- A location leads, by the segments of a path, to what stands there exactly if each of its own
segments is read as that of its step and no position is too long to be read. -/
theorem resolve_location_iff {pairs : List (Step × String)} (hne : pairs ≠ [])
    (hvalue : valueAt? (pairs.map Prod.fst) root = some w) :
    segmentsOf (location (pairs.map Prod.snd)) = (pairs.map Prod.fst).map Step.segment ∧
        resolve (location (pairs.map Prod.snd)) root = .ok w ↔
      ∀ p ∈ pairs, p.1.ReadFrom p.2 ∧ p.1.IsShort := by
  have hprefix : ['#', '/'] <+: (location (pairs.map Prod.snd)).toList := by
    rw [location, String.toList_append]
    exact List.prefix_append _ _
  have hshort : (∀ step ∈ pairs.map Prod.fst, step.IsShort) ↔ ∀ p ∈ pairs, p.1.IsShort :=
    List.forall_mem_map
  rw [forall₂_and, ← segmentsOf_location_iff hne, ← hshort, resolve_eq_follow hprefix,
    follow_eq_ok_iff]
  refine and_congr_right fun hsegments => ?_
  rw [hsegments]
  exact ⟨fun h => isShort_of_reaches h hvalue, fun h => reaches_of_valueAt? hvalue fun _ hindex =>
    h _ hindex⟩

end TypedClient.Pointer
