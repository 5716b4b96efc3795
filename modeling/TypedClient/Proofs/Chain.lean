import Mathlib.Logic.Relation

/-!
# Chains

Where each thing leads to at most one other, the chain that starts with a thing is fixed.  It can
stop in one place only, and it stops nowhere once it has come back to where it was.

* `Stops`: nothing follows in the chain.
* `Stops.unique`: a chain stops in one place only.
* `not_stops_of_circular`: a chain with a circle in it does not stop.
-/

namespace TypedClient.Chain

open Relation (ReflTransGen TransGen)

variable {α : Type} {r : α → α → Prop} {a c s t : α}

/-- Nothing follows in the chain. -/
def Stops (r : α → α → Prop) (s : α) : Prop := ∀ b, ¬ r s b

/-- A chain that goes on from where it stops has not moved. -/
theorem Stops.eq_of_reflTransGen (hstop : Stops r s) (h : ReflTransGen r s t) : s = t := by
  rcases ReflTransGen.cases_head h with heq | ⟨b, hb, -⟩
  · exact heq
  · exact absurd hb (hstop b)

/-- A chain stops in one place only. -/
theorem Stops.unique (hr : Relator.RightUnique r) (hs : ReflTransGen r a s)
    (ht : ReflTransGen r a t) (hstop : Stops r s) (hstop' : Stops r t) : s = t := by
  rcases ReflTransGen.total_of_right_unique hr hs ht with hst | hts
  · exact hstop.eq_of_reflTransGen hst
  · exact (hstop'.eq_of_reflTransGen hts).symm

/-- A chain that stops does not come back to where it started. -/
theorem not_circular_of_stops (hr : Relator.RightUnique r) (hchain : ReflTransGen r a s)
    (hs : Stops r s) : ¬ TransGen r a a := by
  induction hchain using ReflTransGen.head_induction_on with
  | refl =>
    intro hcircle
    obtain ⟨b, hb, -⟩ := TransGen.head'_iff.mp hcircle
    exact hs b hb
  | head hstep _ ih =>
    intro hcircle
    obtain ⟨b, hb, hback⟩ := TransGen.head'_iff.mp hcircle
    obtain rfl := hr hb hstep
    exact ih (TransGen.tail'_iff.mpr ⟨_, hback, hb⟩)

/-- A chain with a circle in it does not stop. -/
theorem not_stops_of_circular (hr : Relator.RightUnique r) (hc : ReflTransGen r a c)
    (hcircle : TransGen r c c) (hs : ReflTransGen r a s) : ¬ Stops r s := by
  intro hstop
  rcases ReflTransGen.total_of_right_unique hr hc hs with hcs | hsc
  · exact not_circular_of_stops hr hcs hstop hcircle
  · obtain rfl := hstop.eq_of_reflTransGen hsc
    exact not_circular_of_stops hr .refl hstop hcircle

end TypedClient.Chain
