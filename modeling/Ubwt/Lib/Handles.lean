import Mathlib.Data.Finset.Erase
import Mathlib.Data.Finset.Insert

/-!
# Ubwt.Lib.Handles

Who holds the handles that are open. `Holds base opened holder` says that they are those of `base`,
which nobody holds, and those that somebody holds, no two the same. To acquire, to release and to
lose a handle each has a rule.
-/

namespace Lib

variable {ι δ : Type} {base opened : Finset δ} {i : ι} {h : δ}
  {holder holder' : ι → Option δ}

/-- The handles that are open, and who holds them. -/
structure Holds (base opened : Finset δ) (holder : ι → Option δ) : Prop where
  mem_iff : ∀ h, h ∈ opened ↔ h ∈ base ∨ ∃ i, holder i = some h
  apart : ∀ i h, holder i = some h → h ∉ base
  unique : ∀ i j h, holder i = some h → holder j = some h → i = j

namespace Holds

theorem init (hnone : ∀ i, holder i = none) : Holds base base holder where
  mem_iff := by simp [hnone]
  apart := by simp [hnone]
  unique := by simp [hnone]

theorem mem (H : Holds base opened holder) (hi : holder i = some h) : h ∈ opened :=
  (H.mem_iff h).mpr (.inr ⟨i, hi⟩)

theorem base_subset (H : Holds base opened holder) : base ⊆ opened :=
  fun h hh => (H.mem_iff h).mpr (.inl hh)

theorem congr (H : Holds base opened holder) (heq : ∀ j, holder' j = holder j) :
    Holds base opened holder' := by
  rwa [funext heq]

variable [DecidableEq δ]

/-- A new handle is given to one that has none. -/
theorem acquire (H : Holds base opened holder) (hnew : h ∉ opened) (hi : holder i = none)
    (hi' : holder' i = some h) (hother : ∀ j, j ≠ i → holder' j = holder j) :
    Holds base (insert h opened) holder' := by
  have hcases : ∀ j h', holder' j = some h' ↔ (j = i ∧ h' = h) ∨ holder j = some h' := by
    intro j h'
    by_cases hj : j = i
    · subst hj
      simp [hi, hi', eq_comm]
    · simp [hother j hj, hj]
  refine ⟨?_, ?_, ?_⟩
  · intro h'
    simp only [Finset.mem_insert, H.mem_iff, hcases]
    constructor
    · rintro (rfl | hb | ⟨j, hj⟩)
      · exact .inr ⟨i, .inl ⟨rfl, rfl⟩⟩
      · exact .inl hb
      · exact .inr ⟨j, .inr hj⟩
    · rintro (hb | ⟨j, ⟨-, rfl⟩ | hj⟩)
      · exact .inr (.inl hb)
      · exact .inl rfl
      · exact .inr (.inr ⟨j, hj⟩)
  · intro j h' hj
    rcases (hcases j h').mp hj with ⟨-, rfl⟩ | hj
    · exact fun hb => hnew (H.base_subset hb)
    · exact H.apart j h' hj
  · intro j k h' hj hk
    rcases (hcases j h').mp hj with ⟨rfl, rfl⟩ | hj
    · rcases (hcases k _).mp hk with ⟨rfl, -⟩ | hk
      · rfl
      · exact absurd (H.mem hk) hnew
    · rcases (hcases k h').mp hk with ⟨-, rfl⟩ | hk
      · exact absurd (H.mem hj) hnew
      · exact H.unique j k h' hj hk

/-- The holder of a handle closes it. -/
theorem release (H : Holds base opened holder) (hi : holder i = some h) (hi' : holder' i = none)
    (hother : ∀ j, j ≠ i → holder' j = holder j) : Holds base (opened.erase h) holder' := by
  have hcases : ∀ j h', holder' j = some h' ↔ j ≠ i ∧ holder j = some h' := by
    intro j h'
    by_cases hj : j = i
    · subst hj
      simp [hi']
    · simp [hother j hj, hj]
  refine ⟨?_, ?_, ?_⟩
  · intro h'
    simp only [Finset.mem_erase, H.mem_iff, hcases]
    constructor
    · rintro ⟨hne, hb | ⟨j, hj⟩⟩
      · exact .inl hb
      · refine .inr ⟨j, ?_, hj⟩
        rintro rfl
        exact hne (Option.some.inj (hj.symm.trans hi))
    · rintro (hb | ⟨j, hne, hj⟩)
      · exact ⟨fun heq => H.apart i h hi (heq ▸ hb), .inl hb⟩
      · refine ⟨?_, .inr ⟨j, hj⟩⟩
        rintro rfl
        exact hne (H.unique j i _ hj hi)
  · intro j h' hj
    exact H.apart j h' ((hcases j h').mp hj).2
  · intro j k h' hj hk
    exact H.unique j k h' ((hcases j h').mp hj).2 ((hcases k h').mp hk).2

/-- A handle that nobody holds is closed. -/
theorem lose (H : Holds base opened holder) (hb : h ∈ base) :
    Holds (base.erase h) (opened.erase h) holder := by
  have hne : ∀ j h', holder j = some h' → h' ≠ h := by
    rintro j h' hj rfl
    exact H.apart j _ hj hb
  refine ⟨?_, ?_, H.unique⟩
  · intro h'
    simp only [Finset.mem_erase, H.mem_iff]
    constructor
    · rintro ⟨hh, hb' | hj⟩
      · exact .inl ⟨hh, hb'⟩
      · exact .inr hj
    · rintro (⟨hh, hb'⟩ | ⟨j, hj⟩)
      · exact ⟨hh, .inl hb'⟩
      · exact ⟨hne j h' hj, .inr ⟨j, hj⟩⟩
  · intro j h' hj hmem
    exact H.apart j h' hj (Finset.mem_of_mem_erase hmem)

end Holds

end Lib
