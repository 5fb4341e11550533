import Mathlib.Logic.Relation

/-!
# Ubwt.Lib.Refinement

A system of steps that is seen through a function: what is seen of a step is a step of another
system, or nothing. Then **what is seen of a run is a run of the other system** (`Refines.run`).
-/

namespace Lib

variable {α β : Type} {r : α → α → Prop} {inv : α → Prop} {R : β → β → Prop} {view : α → β}
  {s t : α}

/-- Each step of `r` from a state of the invariant keeps it, and is a step of `R` or nothing. -/
structure Refines (r : α → α → Prop) (inv : α → Prop) (R : β → β → Prop) (view : α → β) :
    Prop where
  keeps : ∀ s s', inv s → r s s' → inv s'
  step : ∀ s s', inv s → r s s' → view s' = view s ∨ R (view s) (view s')

namespace Refines

theorem keeps_run (h : Refines r inv R view) (hs : inv s) (hrun : Relation.ReflTransGen r s t) :
    inv t := by
  induction hrun with
  | refl => exact hs
  | tail _ hstep ih => exact h.keeps _ _ ih hstep

theorem run (h : Refines r inv R view) (hs : inv s) (hrun : Relation.ReflTransGen r s t) :
    Relation.ReflTransGen R (view s) (view t) := by
  induction hrun with
  | refl => exact .refl
  | tail hrun hstep ih =>
      rcases h.step _ _ (h.keeps_run hs hrun) hstep with heq | hstep
      · rw [heq]
        exact ih
      · exact ih.tail hstep

end Refines

end Lib
