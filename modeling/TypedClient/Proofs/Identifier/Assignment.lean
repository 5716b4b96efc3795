import Mathlib.Data.List.Nodup
import TypedClient.Identifier
import TypedClient.Text.Digits

/-!
# Names that are not taken

`Identifier.assign` names a sequence of bases one after the other, each by the first of its
candidates that is still free.  The candidates for a base are all different, so that among one more
of them than there are taken names at least one is free, and the search of `unused` never comes
back empty.

* `candidate_injective`: different suffixes make different candidates.
* `unused_eq_candidate`: the name found is the first free candidate.
* `exists_assign_append`: names are assigned from the front.
* `notMem_of_mem_assign`, `nodup_assign`: assigned names are not taken, and no two are alike.
-/

namespace TypedClient.Identifier

/-! ## Candidates -/

theorem candidate_zero (base : String) : candidate base 0 = base := rfl

theorem candidate_succ (base : String) (k : Nat) :
    candidate base (k + 1) = base ++ "_" ++ toString (k + 2) := rfl

/-- Different suffixes make different candidates. -/
theorem candidate_injective (base : String) : Function.Injective (candidate base) := by
  intro i j h
  match i, j with
  | 0, 0 => rfl
  | 0, j + 1 =>
    rw [candidate_zero, candidate_succ] at h
    have hlen := congrArg String.length h
    simp only [String.length_append] at hlen
    have hbar : "_".length = 1 := rfl
    omega
  | i + 1, 0 =>
    rw [candidate_zero, candidate_succ] at h
    have hlen := congrArg String.length h
    simp only [String.length_append] at hlen
    have hbar : "_".length = 1 := rfl
    omega
  | i + 1, j + 1 =>
    rw [candidate_succ, candidate_succ] at h
    have hsuffix : toString (i + 2) = toString (j + 2) := by
      have hlist := congrArg String.toList h
      simp only [String.toList_append] at hlist
      exact String.toList_inj.mp (List.append_cancel_left hlist)
    have hnum := Text.toString_inj.mp hsuffix
    omega

/-! ## The search -/

/-- Among one more candidates than there are taken names, one is free. -/
theorem exists_free_candidate (taken : List String) (base : String) :
    ∃ k ∈ List.range (taken.length + 1), candidate base k ∉ taken := by
  by_contra hnone
  have hsub : (List.range (taken.length + 1)).map (candidate base) ⊆ taken := by
    intro name hname
    obtain ⟨k, hk, rfl⟩ := List.mem_map.mp hname
    by_contra hfree
    exact hnone ⟨k, hk, hfree⟩
  have hnodup : ((List.range (taken.length + 1)).map (candidate base)).Nodup :=
    List.Nodup.map (candidate_injective base) List.nodup_range
  have hle := hnodup.length_le_of_subset hsub
  rw [List.length_map, List.length_range] at hle
  omega

/-- The name found is the first candidate that is not taken. -/
theorem unused_eq_candidate (taken : List String) (base : String) :
    ∃ k, unused taken base = candidate base k ∧ candidate base k ∉ taken ∧
      ∀ j < k, candidate base j ∈ taken := by
  have hsome : ((List.range (taken.length + 1)).find?
      fun k => !taken.contains (candidate base k)).isSome := by
    obtain ⟨k, hk, hfree⟩ := exists_free_candidate taken base
    rw [List.find?_isSome]
    exact ⟨k, hk, by simpa using hfree⟩
  obtain ⟨k, hk⟩ := Option.isSome_iff_exists.mp hsome
  obtain ⟨hfree, -, hleast⟩ := List.find?_range_eq_some.mp hk
  refine ⟨k, ?_, by simpa using hfree, fun j hj => by simpa using hleast j hj⟩
  rw [unused, List.find?_map]
  show (Option.map (candidate base) (List.find? _ _)).getD base = candidate base k
  have hcomp : ((fun name => !taken.contains name) ∘ candidate base) =
      fun k => !taken.contains (candidate base k) := rfl
  rw [hcomp, hk]
  rfl

theorem unused_notMem (taken : List String) (base : String) : unused taken base ∉ taken := by
  obtain ⟨k, hk, hfree, -⟩ := unused_eq_candidate taken base
  rw [hk]
  exact hfree

/-! ## Assignment -/

theorem assign_cons (taken : List String) (base : String) (rest : List String) :
    assign taken (base :: rest) =
      unused taken base :: assign (unused taken base :: taken) rest := rfl

/-- The names of the first bases do not depend on the bases behind them. -/
theorem exists_assign_append (taken bases more : List String) :
    ∃ others, assign taken (bases ++ more) = assign taken bases ++ others := by
  induction bases generalizing taken with
  | nil => exact ⟨assign taken more, rfl⟩
  | cons base rest ih =>
    obtain ⟨others, hothers⟩ := ih (unused taken base :: taken)
    refine ⟨others, ?_⟩
    rw [List.cons_append, assign_cons, assign_cons, hothers, List.cons_append]

/-- An assigned name is none of the names taken before. -/
theorem notMem_of_mem_assign {taken bases : List String} {name : String}
    (h : name ∈ assign taken bases) : name ∉ taken := by
  induction bases generalizing taken with
  | nil => exact absurd h List.not_mem_nil
  | cons base rest ih =>
    rw [assign_cons, List.mem_cons] at h
    rcases h with rfl | h
    · exact unused_notMem taken base
    · exact fun hmem => ih h (List.mem_cons_of_mem _ hmem)

/-- No two assigned names are alike. -/
theorem nodup_assign (taken bases : List String) : (assign taken bases).Nodup := by
  induction bases generalizing taken with
  | nil => exact List.nodup_nil
  | cons base rest ih =>
    rw [assign_cons, List.nodup_cons]
    exact ⟨fun h => notMem_of_mem_assign h List.mem_cons_self, ih _⟩

end TypedClient.Identifier
