import Mathlib.Logic.Relation

/-!
# Ubwt.Lib.Prophecy

Values that the steps of a run choose, as if they had been known before it.

A step chooses the values of some keys, and no key twice in a run: `ahead s k` says that the value
of `k` is still to be chosen. So **for every run there is one function that all of its steps agree
with** (`exists_foretold`), and an invariant of the run may mention values that are chosen later.
-/

namespace Lib

variable {σ κ α : Type}

/-- How the steps of `r` choose values: a step chooses at most one value of a key, only of a key
that is ahead, and no key comes ahead again. -/
structure Chooses (r : σ → σ → Prop) (inv : σ → Prop) (ahead : σ → κ → Prop)
    (chosen : σ → σ → κ → α → Prop) : Prop where
  keeps : ∀ s s', inv s → r s s' → inv s'
  unique : ∀ s s' k a b, chosen s s' k a → chosen s s' k b → a = b
  was_ahead : ∀ s s' k a, inv s → r s s' → chosen s s' k a → ahead s k
  still_ahead : ∀ s s' k, inv s → r s s' → ahead s' k → ahead s k ∧ ∀ a, ¬chosen s s' k a

/-- A step that chooses the values of `f`. -/
def Foretold (r : σ → σ → Prop) (chosen : σ → σ → κ → α → Prop) (f : κ → α) (s s' : σ) : Prop :=
  r s s' ∧ ∀ k a, chosen s s' k a → a = f k

open Classical in
/-- The values that a step chooses, and those of `f` for the other keys. -/
noncomputable def resolve (chosen : κ → α → Prop) (f : κ → α) (k : κ) : α :=
  if h : ∃ a, chosen k a then h.choose else f k

theorem resolve_chosen {chosen : κ → α → Prop} {f : κ → α} {k : κ} {a : α} (h : chosen k a) :
    chosen k (resolve chosen f k) := by
  have hex : ∃ a, chosen k a := ⟨a, h⟩
  rw [resolve, dif_pos hex]
  exact hex.choose_spec

theorem resolve_of_not {chosen : κ → α → Prop} {f : κ → α} {k : κ} (h : ∀ a, ¬chosen k a) :
    resolve chosen f k = f k := by
  rw [resolve, dif_neg (not_exists.mpr h)]

variable {r : σ → σ → Prop} {inv : σ → Prop} {ahead : σ → κ → Prop}
  {chosen : σ → σ → κ → α → Prop} {s t : σ}

/-- The values matter only for the keys that are ahead. -/
theorem Chooses.exists_foretold_of_agree [Nonempty α] (h : Chooses r inv ahead chosen) (hs : inv s)
    (hrun : Relation.ReflTransGen r s t) :
    ∃ f : κ → α, ∀ g, (∀ k, ahead s k → g k = f k) →
      Relation.ReflTransGen (Foretold r chosen g) s t := by
  induction hrun using Relation.ReflTransGen.head_induction_on with
  | refl => exact ⟨fun _ => Classical.ofNonempty, fun _ _ => .refl⟩
  | @head s s' hstep _ ih =>
      obtain ⟨f, hf⟩ := ih (h.keeps s s' hs hstep)
      refine ⟨resolve (chosen s s') f, fun g hg => ?_⟩
      refine .head ⟨hstep, fun k a hk => ?_⟩ (hf g fun k hk => ?_)
      · rw [hg k (h.was_ahead s s' k a hs hstep hk)]
        exact h.unique s s' k a _ hk (resolve_chosen hk)
      · obtain ⟨hahead, hnot⟩ := h.still_ahead s s' k hs hstep hk
        rw [hg k hahead, resolve_of_not hnot]

/-- **Every run is foretold.** -/
theorem Chooses.exists_foretold [Nonempty α] (h : Chooses r inv ahead chosen) (hs : inv s)
    (hrun : Relation.ReflTransGen r s t) :
    ∃ f : κ → α, Relation.ReflTransGen (Foretold r chosen f) s t := by
  obtain ⟨f, hf⟩ := h.exists_foretold_of_agree hs hrun
  exact ⟨f, hf f fun _ _ => rfl⟩

end Lib
