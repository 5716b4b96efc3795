import TypedClient.Document.Reference
import TypedClient.Proofs.Chain

/-!
# What references to components lead to

A reference names a value of the document, which may be a reference again.  The chain that starts
with a value ends in one that is no reference, breaks off at a reference that leads nowhere, or
meets a reference for a second time and then goes on in circles.  It does just one of the three, and
following tells which.

* `Leads`, `Ends`, `BreaksAt`, `Circles`: the chain as relations on the values of the document.
* `Met`, `met_follow`: following stops when the chain ends, breaks off, or meets a reference again.
* `follow_cases`: following tells which way the chain goes.
* `Ends.follow_eq`, `BreaksAt.follow_eq`, `Circles.exists_follow_eq`: what is made of each way.
-/

namespace TypedClient.Reference

open Relation (ReflTransGen TransGen)

variable {root u v w : Value} {location ref : String} {error : Pointer.Error}

/-! ## The ways a chain may go -/

/-- A reference leads to the value that it names in the document. -/
def Leads (root v w : Value) : Prop :=
  ∃ ref, text? v = some ref ∧ Pointer.resolve ref root = .ok w

/-- The chain of references that starts with a value ends in one that is no reference. -/
def Ends (root v w : Value) : Prop :=
  ReflTransGen (Leads root) v w ∧ text? w = none

/-- The chain of references comes to one that leads nowhere. -/
def BreaksAt (root v : Value) (error : Pointer.Error) : Prop :=
  ∃ w ref, ReflTransGen (Leads root) v w ∧ text? w = some ref ∧
    Pointer.resolve ref root = .error error

/-- The chain of references meets one of them again. -/
def Circles (root v : Value) (ref : String) : Prop :=
  ∃ u w, ReflTransGen (Leads root) v u ∧ text? u = some ref ∧ TransGen (Leads root) u w ∧
    text? w = some ref

theorem rightUnique_leads : Relator.RightUnique (Leads root) := by
  rintro v u w ⟨ref, href, hu⟩ ⟨ref', href', hw⟩
  obtain rfl := Option.some_inj.mp (href.symm.trans href')
  exact Except.ok.inj (hu.symm.trans hw)

theorem stops_of_text?_eq_none (h : text? w = none) : Chain.Stops (Leads root) w := by
  rintro u ⟨ref, href, -⟩
  rw [h] at href
  cases href

theorem stops_of_resolve_eq_error (href : text? w = some ref)
    (h : Pointer.resolve ref root = .error error) : Chain.Stops (Leads root) w := by
  rintro u ⟨ref', href', hu⟩
  obtain rfl := Option.some_inj.mp (href.symm.trans href')
  rw [h] at hu
  cases hu

theorem Ends.unique (hu : Ends root v u) (hw : Ends root v w) : u = w :=
  Chain.Stops.unique rightUnique_leads hu.1 hw.1 (stops_of_text?_eq_none hu.2)
    (stops_of_text?_eq_none hw.2)

theorem BreaksAt.not_ends (h : BreaksAt root v error) : ¬ Ends root v u := by
  rintro ⟨hu, hnone⟩
  obtain ⟨w, ref, hw, href, herror⟩ := h
  obtain rfl := Chain.Stops.unique rightUnique_leads hu hw (stops_of_text?_eq_none hnone)
    (stops_of_resolve_eq_error href herror)
  rw [hnone] at href
  cases href

theorem BreaksAt.unique {other : Pointer.Error} (h : BreaksAt root v error)
    (h' : BreaksAt root v other) : error = other := by
  obtain ⟨w, ref, hw, href, herror⟩ := h
  obtain ⟨w', ref', hw', href', herror'⟩ := h'
  obtain rfl := Chain.Stops.unique rightUnique_leads hw hw'
    (stops_of_resolve_eq_error href herror) (stops_of_resolve_eq_error href' herror')
  obtain rfl := Option.some_inj.mp (href.symm.trans href')
  exact Except.error.inj (herror.symm.trans herror')

/-- A chain that meets a reference again does not stop. -/
theorem Circles.not_stops (h : Circles root v ref) (hw : ReflTransGen (Leads root) v w) :
    ¬ Chain.Stops (Leads root) w := by
  obtain ⟨u, again, hu, href, hcircle, href'⟩ := h
  obtain ⟨next, hnext, hback⟩ := TransGen.head'_iff.mp hcircle
  -- the two references are one text, so they lead to the same value
  have hlast : Leads root again next := by
    obtain ⟨ref', hhead, hresolve⟩ := hnext
    obtain rfl := Option.some_inj.mp (href.symm.trans hhead)
    exact ⟨ref, href', hresolve⟩
  exact Chain.not_stops_of_circular rightUnique_leads (hu.tail hnext)
    (TransGen.tail'_iff.mpr ⟨again, hback, hlast⟩) hw

theorem Circles.not_ends (h : Circles root v ref) : ¬ Ends root v w :=
  fun hends => h.not_stops hends.1 (stops_of_text?_eq_none hends.2)

theorem Circles.not_breaksAt (h : Circles root v ref) : ¬ BreaksAt root v error := by
  rintro ⟨w, ref', hw, href, herror⟩
  exact h.not_stops hw (stops_of_resolve_eq_error href herror)

theorem Ends.head (h : Leads root v u) (hends : Ends root u w) : Ends root v w :=
  ⟨.head h hends.1, hends.2⟩

theorem BreaksAt.head (h : Leads root v u) (hbreaks : BreaksAt root u error) :
    BreaksAt root v error := by
  obtain ⟨w, ref, hw, hend⟩ := hbreaks
  exact ⟨w, ref, .head h hw, hend⟩

theorem Circles.head (h : Leads root v u) (hcircles : Circles root u ref) :
    Circles root v ref := by
  obtain ⟨a, b, ha, hmeet⟩ := hcircles
  exact ⟨a, b, .head h ha, hmeet⟩

/-! ## Following -/

/-- How following a value ends, when some references have been followed before: with the end of the
chain, with a reference that leads nowhere, or with one that was followed before or is met again. -/
inductive Met (root : Value) (location : String) (seen : List String) (v : Value) :
    Outcome → Prop
  | ends {w : Value} (h : Ends root v w) : Met root location seen v (finish location w)
  | breaks {error : Pointer.Error} (h : BreaksAt root v error) :
      Met root location seen v (.dropped (unresolvedNote error location))
  | circles {ref : String} (h : Circles root v ref) :
      Met root location seen v (.dropped (circularNote ref location))
  | seen {w : Value} {ref : String} (hw : ReflTransGen (Leads root) v w)
      (href : text? w = some ref) (hseen : ref ∈ seen) :
      Met root location seen v (.dropped (circularNote ref location))

/-- What is met behind a reference is met from it on. -/
theorem Met.head {seen : List String} {outcome : Outcome} (href : text? v = some ref)
    (h : Leads root v u) (hmet : Met root location (ref :: seen) u outcome) :
    Met root location seen v outcome := by
  cases hmet with
  | ends hends => exact .ends (hends.head h)
  | breaks hbreaks => exact .breaks (hbreaks.head h)
  | circles hcircles => exact .circles (hcircles.head h)
  | seen hw hreftext hseen =>
    rcases List.mem_cons.mp hseen with rfl | hseen
    · exact .circles ⟨v, _, .refl, href, TransGen.head'_iff.mpr ⟨u, h, hw⟩, hreftext⟩
    · exact .seen (.head h hw) hreftext hseen

variable {seen : List String} {hv : texts v ⊆ texts root}

theorem followFrom_of_text?_eq_none (href : text? v = none) :
    followFrom root location seen v hv = finish location v := by
  rw [followFrom.eq_def]
  split
  · rfl
  · rename_i ref href'
    rw [href] at href'
    cases href'

theorem followFrom_of_mem (href : text? v = some ref) (hseen : seen.contains ref = true) :
    followFrom root location seen v hv = .dropped (circularNote ref location) := by
  rw [followFrom.eq_def]
  split
  · rename_i href'
    rw [href] at href'
    cases href'
  · rename_i ref' href'
    obtain rfl := Option.some_inj.mp (href.symm.trans href')
    rw [dif_pos hseen]

theorem followFrom_of_resolve (href : text? v = some ref) (hseen : ¬ seen.contains ref = true) :
    followFrom root location seen v hv =
      match hnext : Pointer.resolve ref root with
      | .error e => .dropped (unresolvedNote e location)
      | .ok next =>
        followFrom root location (ref :: seen) next (texts_subset_of_resolve hnext) := by
  rw [followFrom.eq_def]
  split
  · rename_i href'
    rw [href] at href'
    cases href'
  · rename_i ref' href'
    obtain rfl := Option.some_inj.mp (href.symm.trans href')
    exact dif_neg hseen

theorem met_followFrom (seen : List String) (v : Value) (hv : texts v ⊆ texts root) :
    Met root location seen v (followFrom root location seen v hv) := by
  induction seen, v, hv using followFrom.induct root with
  | case1 seen v hv href =>
    rw [followFrom_of_text?_eq_none href]
    exact .ends ⟨.refl, href⟩
  | case2 seen v hv ref href hseen =>
    rw [followFrom_of_mem href hseen]
    exact .seen .refl href (List.contains_iff_mem.mp hseen)
  | case3 seen v hv ref href hseen e hnext =>
    rw [followFrom_of_resolve href hseen]
    split
    · rename_i e' hnext'
      exact .breaks ⟨v, ref, .refl, href, hnext'⟩
    · rename_i next hnext'
      rw [hnext] at hnext'
      cases hnext'
  | case4 seen v hv ref href hseen next hnext ih =>
    rw [followFrom_of_resolve href hseen]
    split
    · rename_i e hnext'
      exact .breaks ⟨v, ref, .refl, href, hnext'⟩
    · rename_i next' hnext'
      obtain rfl := Except.ok.inj (hnext.symm.trans hnext')
      exact ih.head href ⟨ref, href, hnext⟩

/-- Following meets the end of the chain, a reference that leads nowhere, or one of the chain for a
second time. -/
theorem met_follow (root : Value) (location : String) (v : Value) :
    Met root location [] v (follow root location v) := by
  unfold follow
  split
  · rename_i href
    exact .ends ⟨.refl, href⟩
  · rename_i ref href
    split
    · rename_i e hnext
      exact .breaks ⟨v, ref, .refl, href, hnext⟩
    · rename_i next hnext
      exact (met_followFrom [ref] next _).head href ⟨ref, href, hnext⟩

/-- Following tells which way the chain goes. -/
theorem follow_cases (root : Value) (location : String) (v : Value) :
    (∃ w, Ends root v w ∧ follow root location v = finish location w) ∨
    (∃ error, BreaksAt root v error ∧
      follow root location v = .dropped (unresolvedNote error location)) ∨
    ∃ ref, Circles root v ref ∧ follow root location v = .dropped (circularNote ref location) := by
  have hmet := met_follow root location v
  generalize follow root location v = outcome at hmet ⊢
  cases hmet with
  | ends h => exact Or.inl ⟨_, h, rfl⟩
  | breaks h => exact Or.inr (Or.inl ⟨_, h, rfl⟩)
  | circles h => exact Or.inr (Or.inr ⟨_, h, rfl⟩)
  | seen _ _ hseen => exact absurd hseen List.not_mem_nil

/-- Following a chain that ends gives its end. -/
theorem Ends.follow_eq (h : Ends root v w) (location : String) :
    follow root location v = finish location w := by
  rcases follow_cases root location v with ⟨u, hu, heq⟩ | ⟨_, hbreaks, -⟩ | ⟨_, hcircles, -⟩
  · rw [heq, h.unique hu]
  · exact absurd h hbreaks.not_ends
  · exact absurd h hcircles.not_ends

/-- Following a chain that breaks off gives the note on the reference that leads nowhere. -/
theorem BreaksAt.follow_eq (h : BreaksAt root v error) (location : String) :
    follow root location v = .dropped (unresolvedNote error location) := by
  rcases follow_cases root location v with ⟨_, hends, -⟩ | ⟨other, hother, heq⟩ | ⟨_, hcircles, -⟩
  · exact absurd hends h.not_ends
  · rw [heq, h.unique hother]
  · exact absurd h hcircles.not_breaksAt

/-- Following a chain that meets a reference again gives the note on such a reference. -/
theorem Circles.exists_follow_eq (h : Circles root v ref) (location : String) :
    ∃ again, Circles root v again ∧
      follow root location v = .dropped (circularNote again location) := by
  rcases follow_cases root location v with ⟨_, hends, -⟩ | ⟨_, hbreaks, -⟩ | hcircles
  · exact absurd hends h.not_ends
  · exact absurd hbreaks h.not_breaksAt
  · exact hcircles

end TypedClient.Reference
