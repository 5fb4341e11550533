import Ubwt.Lib.Mutex
import Ubwt.Lib.Tally
import Ubwt.Worker.Barrier

/-!
# Ubwt.Worker.BarrierInv

The invariant of the custom barrier.

Two mutexes are taken in opposite orders: a thread that arrives holds `mutex[0]` when it
takes `mutex[1]`, a thread that leaves first or last holds `mutex[1]` when it takes
`mutex[0]`. **Why this does not deadlock**: the thread that leaves first is the one that
arrived last, so nobody is left to hold `mutex[0]`; it sets `block_r`, and while `block_r`
is set whoever takes `mutex[0]` gives it back in `pthread_cond_wait`.

`BarrierInvAt g` is about the generation `g` of the barrier, which is no variable of the
program: every thread has left `g` or `g + 1` generations, `count` is the number of those
that have not left the current one, `waiting` the number of those inside it. Most steps
move one thread and a mutex (`quiet_goto`); the five that change a counter or `block_r`
have a lemma each.
-/

namespace Ubwt

open Lib

variable {N : Nat}

/-! ### What a thread holds and where it counts -/

namespace BarrierPc

/-- The thread owns `mutex[0]`. -/
@[simp] def holds0 : BarrierPc → Bool
  | test0 | lock1 | arrive | unlock0 | firstSet | firstUnlock | lastReset | lastBroadcast
  | lastUnlock => true
  | _ => false

/-- The thread owns `mutex[1]`. -/
@[simp] def holds1 : BarrierPc → Bool
  | arrive | unlock0 | test1 | check | firstLock | firstSet | firstUnlock | firstBroadcast
  | leave | lastLock | lastReset | lastBroadcast | lastUnlock | unlock1 _ | failed => true
  | _ => false

/-- The thread is counted in `waiting`. -/
@[simp] def inside : BarrierPc → Bool
  | unlock0 | test1 | wait1 | relock1 | check | firstLock | firstSet | firstUnlock
  | firstBroadcast | leave => true
  | _ => false

/-- What the running call is going to return, once that is known. -/
@[simp] def pending : BarrierPc → List Bool
  | lastLock | lastReset | lastBroadcast | lastUnlock => [true]
  | unlock1 serial => [serial]
  | _ => []

/-- The thread has yet to broadcast `cond[1]` if `waiting` has reached `count`. -/
@[simp] def beforeBroadcast1 : BarrierPc → Bool
  | unlock0 | test1 | check | firstLock | firstSet | firstUnlock | firstBroadcast => true
  | _ => false

/-- The thread is about to reset the barrier. -/
@[simp] def resets : BarrierPc → Bool
  | lastLock | lastReset => true
  | _ => false

/-- What a thread knows of the shared variables where it stands. -/
@[simp] def Knows (p : BarrierPc) (s : Barrier N) : Prop :=
  match p with
  | lock1 | arrive | unlock0 => s.blockR = false
  | check => s.count = s.waiting
  | firstLock | firstSet => s.count = s.waiting ∧ s.count = N
  | firstUnlock | firstBroadcast => s.count = s.waiting ∧ s.count = N ∧ s.blockR = true
  | leave => s.count = s.waiting ∧ s.blockR = true
  | lastLock | lastReset => s.count = 0 ∧ s.blockR = true
  | failed => False
  | _ => True

end BarrierPc

namespace Barrier

/-- The results of the calls of a thread, the one it is about to return included. -/
def results (s : Barrier N) (i : Fin N) : List Bool := s.returns i ++ (s.pc i).pending

/-- The number of generations a thread has left. -/
def left (s : Barrier N) (i : Fin N) : Nat := (s.results i).length

end Barrier

/-- The invariant of the barrier in its generation `g`. -/
structure BarrierInvAt (g : Nat) (s : Barrier N) : Prop where
  total : s.total = N
  owner0 : OwnedBy s.mutex0 (fun i => (s.pc i).holds0)
  owner1 : OwnedBy s.mutex1 (fun i => (s.pc i).holds1)
  left : ∀ i, s.left i = g ∨ s.left i = g + 1
  waiting : s.waiting = tally (fun i => (s.pc i).inside)
  count : s.count = tally (fun i => decide (s.left i = g))
  inside : ∀ i, (s.pc i).inside = true → s.left i = g
  /-- While threads leave, all that have not left are inside. -/
  leaving : s.blockR = true → ∀ i, s.left i = g → (s.pc i).inside = true
  /-- While threads arrive, none has left. -/
  arriving : s.blockR = false → ∀ i, s.left i = g
  knows : ∀ i, (s.pc i).Knows s
  queue0 : ∀ i, s.pc i = .wait0 → s.blockR = true ∨ ∃ j, s.pc j = .lastBroadcast
  queue1 : ∀ i, s.pc i = .wait1 →
    s.waiting < s.count ∨ s.count = N ∧ ∃ j, (s.pc j).beforeBroadcast1 = true
  reset : s.count = 0 → ∃ j, (s.pc j).resets = true
  past : ∀ k < g, ∃! i, (s.results i)[k]? = some true
  now : ∀ i, (s.results i)[g]? = some true → (s.pc i).resets = true

/-! ### Steps that no counter sees -/

namespace BarrierPc

theorem Knows.congr {p : BarrierPc} {s s' : Barrier N} (h : p.Knows s)
    (hc : s'.count = s.count) (hw : s'.waiting = s.waiting) (hb : s'.blockR = s.blockR) :
    p.Knows s' := by
  unfold Knows at h ⊢
  rw [hc, hw, hb]
  exact h

/-- A thread outside `mutex[1]` knows at most that `block_r` is clear, and that only under
`mutex[0]`. -/
theorem Knows.of_other {p : BarrierPc} {s s' : Barrier N} (h : p.Knows s)
    (h1 : p.holds1 = false) (hb : s'.blockR = s.blockR ∨ p.holds0 = false) : p.Knows s' := by
  cases p <;> simp_all [Knows, holds1, holds0]

end BarrierPc

/-- A step that leaves the shared variables and the place of every thread in the
generation as they are. -/
theorem BarrierInvAt.quiet {g : Nat} {s s' : Barrier N} (h : BarrierInvAt g s)
    (htotal : s'.total = s.total) (hcount : s'.count = s.count) (hwaiting : s'.waiting = s.waiting)
    (hblock : s'.blockR = s.blockR) (hresults : ∀ j, s'.results j = s.results j)
    (hinside : ∀ j, (s'.pc j).inside = (s.pc j).inside)
    (hresets : ∀ j, (s'.pc j).resets = (s.pc j).resets)
    (hown0 : OwnedBy s'.mutex0 (fun j => (s'.pc j).holds0))
    (hown1 : OwnedBy s'.mutex1 (fun j => (s'.pc j).holds1))
    (hknows : ∀ j, (s'.pc j).Knows s)
    (hqueue0 : ∀ j, s'.pc j = .wait0 → s.blockR = true ∨ ∃ k, s'.pc k = .lastBroadcast)
    (hqueue1 : ∀ j, s'.pc j = .wait1 →
      s.waiting < s.count ∨ s.count = N ∧ ∃ k, (s'.pc k).beforeBroadcast1 = true) :
    BarrierInvAt g s' := by
  have hleft : ∀ j, s'.left j = s.left j := fun j => congrArg List.length (hresults j)
  constructor
  · rw [htotal, h.total]
  · exact hown0
  · exact hown1
  · intro j
    rw [hleft]
    exact h.left j
  · simp only [hwaiting, hinside, h.waiting]
  · simp only [hcount, hleft, h.count]
  · intro j hj
    rw [hleft]
    exact h.inside j (by rwa [hinside] at hj)
  · intro hb j hj
    rw [hinside]
    exact h.leaving (by rwa [hblock] at hb) j (by rwa [hleft] at hj)
  · intro hb j
    rw [hleft]
    exact h.arriving (by rwa [hblock] at hb) j
  · exact fun j => (hknows j).congr hcount hwaiting hblock
  · intro j hj
    rw [hblock]
    exact hqueue0 j hj
  · intro j hj
    rw [hwaiting, hcount]
    exact hqueue1 j hj
  · intro hc
    obtain ⟨j, hj⟩ := h.reset (by rwa [hcount] at hc)
    exact ⟨j, by rwa [hresets]⟩
  · intro k hk
    simp only [hresults]
    exact h.past k hk
  · intro j hj
    rw [hresets]
    exact h.now j (by rwa [hresults] at hj)

/-- A quiet step of one thread. -/
theorem BarrierInvAt.quiet_goto {g : Nat} {s : Barrier N} (h : BarrierInvAt g s) (i : Fin N)
    {p : BarrierPc} {m0 m1 : Option (Fin N)}
    (hown0 : OwnedBy m0 (fun j => ((s.goto i p).pc j).holds0))
    (hown1 : OwnedBy m1 (fun j => ((s.goto i p).pc j).holds1))
    (hpending : p.pending = (s.pc i).pending) (hinside : p.inside = (s.pc i).inside)
    (hresets : p.resets = (s.pc i).resets) (hknows : p.Knows s)
    (hqueue0 : p = .wait0 → s.blockR = true) (hlast : s.pc i ≠ .lastBroadcast)
    (hqueue1 : p = .wait1 → s.waiting < s.count)
    (hbefore : (s.pc i).beforeBroadcast1 = true →
      p.beforeBroadcast1 = true ∨ s.waiting < s.count ∨ s.count ≠ N) :
    BarrierInvAt g { s.goto i p with mutex0 := m0, mutex1 := m1 } := by
  have hpc : ∀ {α : Type} (f : BarrierPc → α), f p = f (s.pc i) → ∀ j,
      f ((s.goto i p).pc j) = f (s.pc j) := by
    intro α f hf j
    by_cases hj : j = i
    · subst hj
      simpa [Barrier.goto] using hf
    · simp [Barrier.goto, hj]
  have hother : ∀ j, j ≠ i → (s.goto i p).pc j = s.pc j := fun j hj => by simp [Barrier.goto, hj]
  have hself : (s.goto i p).pc i = p := by simp [Barrier.goto]
  refine h.quiet rfl rfl rfl rfl (fun j => ?_) (hpc _ hinside) (hpc _ hresets) hown0 hown1
    (fun j => ?_) (fun j hj => ?_) (fun j hj => ?_)
  · show s.returns j ++ _ = s.returns j ++ _
    rw [hpc BarrierPc.pending hpending]
  · by_cases hj : j = i
    · subst hj
      show ((s.goto j p).pc j).Knows s
      rw [hself]
      exact hknows
    · show ((s.goto i p).pc j).Knows s
      rw [hother j hj]
      exact h.knows j
  · change (s.goto i p).pc j = .wait0 at hj
    by_cases hji : j = i
    · subst hji
      rw [hself] at hj
      exact .inl (hqueue0 hj)
    · rw [hother j hji] at hj
      rcases h.queue0 j hj with hb | ⟨k, hk⟩
      · exact .inl hb
      · refine .inr ⟨k, ?_⟩
        have hki : k ≠ i := fun he => hlast (he ▸ hk)
        exact (hother k hki).trans hk
  · change (s.goto i p).pc j = .wait1 at hj
    have hold : s.waiting < s.count ∨ s.count = N ∧ ∃ k, (s.pc k).beforeBroadcast1 = true := by
      by_cases hji : j = i
      · subst hji
        rw [hself] at hj
        exact .inl (hqueue1 hj)
      · rw [hother j hji] at hj
        exact h.queue1 j hj
    rcases hold with hlt | ⟨hN, k, hk⟩
    · exact .inl hlt
    · by_cases hki : k = i
      · subst hki
        rcases hbefore hk with hb | hlt | hne
        · exact .inr ⟨hN, k, by show ((s.goto k p).pc k).beforeBroadcast1 = true; rwa [hself]⟩
        · exact .inl hlt
        · exact absurd hN hne
      · refine .inr ⟨hN, k, ?_⟩
        show ((s.goto i p).pc k).beforeBroadcast1 = true
        rwa [hother k hki]

/-! ### The steps -/

section Steps

variable {g : Nat} {s : Barrier N} {i : Fin N}

@[simp] theorem Barrier.goto_self (s : Barrier N) (i : Fin N) (p : BarrierPc) :
    (s.goto i p).pc i = p := by
  simp [Barrier.goto]

theorem Barrier.goto_other (s : Barrier N) {i j : Fin N} (p : BarrierPc) (h : j ≠ i) :
    (s.goto i p).pc j = s.pc j := by
  simp [Barrier.goto, h]

/-- A thread that goes on with the same mutex changes nothing of its ownership. -/
theorem Barrier.goto_owner {holds : BarrierPc → Bool} {m : Option (Fin N)} {p : BarrierPc}
    (h : OwnedBy m (fun j => holds (s.pc j))) (heq : holds p = holds (s.pc i)) :
    OwnedBy m (fun j => holds ((s.goto i p).pc j)) := by
  refine h.congr (fun j => ?_)
  by_cases hj : j = i
  · subst hj
    rw [goto_self, heq]
  · rw [goto_other _ _ hj]

theorem Barrier.goto_lock {holds : BarrierPc → Bool} {m : Option (Fin N)} {p : BarrierPc}
    (h : OwnedBy m (fun j => holds (s.pc j))) (hfree : m = none) (hp : holds p = true) :
    OwnedBy (some i) (fun j => holds ((s.goto i p).pc j)) := by
  subst hfree
  refine h.lock (by rw [goto_self, hp]) (fun j hj => ?_)
  rw [goto_other _ _ hj]

theorem Barrier.goto_unlock {holds : BarrierPc → Bool} {m : Option (Fin N)} {p : BarrierPc}
    (h : OwnedBy m (fun j => holds (s.pc j))) (hi : holds (s.pc i) = true) (hp : holds p = false) :
    OwnedBy none (fun j => holds ((s.goto i p).pc j)) := by
  refine h.unlock (i := i) hi (by rw [goto_self, hp]) (fun j hj => ?_)
  rw [goto_other _ _ hj]

theorem BarrierInvAt.waiting_le_count (h : BarrierInvAt g s) : s.waiting ≤ s.count := by
  rw [h.waiting, h.count]
  exact tally_mono (fun j hj => decide_eq_true (h.inside j hj))

theorem BarrierInvAt.count_eq_of_arriving (h : BarrierInvAt g s) (hb : s.blockR = false) :
    s.count = N := by
  rw [h.count]
  refine (tally_eq_card.mpr (fun j => decide_eq_true (h.arriving hb j))).trans ?_
  simp

/-- Thread `i` goes on at `p`; the mutexes and the finished calls stay as they are. -/
structure Barrier.Moves (i : Fin N) (p : BarrierPc) (s s' : Barrier N) : Prop where
  self : s'.pc i = p
  other : ∀ j, j ≠ i → s'.pc j = s.pc j
  total : s'.total = s.total
  returns : s'.returns = s.returns
  mutex0 : s'.mutex0 = s.mutex0
  mutex1 : s'.mutex1 = s.mutex1

namespace Barrier.Moves

variable {p : BarrierPc} {s' : Barrier N}

theorem of_goto (hpc : s'.pc = (s.goto i p).pc) (htotal : s'.total = s.total)
    (hreturns : s'.returns = s.returns) (h0 : s'.mutex0 = s.mutex0)
    (h1 : s'.mutex1 = s.mutex1) : Moves i p s s' where
  self := by rw [hpc, goto_self]
  other := fun j hj => by rw [hpc, goto_other _ _ hj]
  total := htotal
  returns := hreturns
  mutex0 := h0
  mutex1 := h1

theorem results_other (hm : Moves i p s s') {j : Fin N} (hj : j ≠ i) :
    s'.results j = s.results j := by
  rw [Barrier.results, hm.returns, hm.other j hj, Barrier.results]

theorem results_self (hm : Moves i p s s') : s'.results i = s.returns i ++ p.pending := by
  rw [Barrier.results, hm.returns, hm.self]

theorem results (hm : Moves i p s s') (hp : p.pending = (s.pc i).pending) (j : Fin N) :
    s'.results j = s.results j := by
  by_cases hj : j = i
  · subst hj
    rw [hm.results_self, hp, Barrier.results]
  · exact hm.results_other hj

theorem owner {holds : BarrierPc → Bool} {m m' : Option (Fin N)} (hm : Moves i p s s')
    (h : OwnedBy m (fun j => holds (s.pc j))) (hmm : m' = m) (hp : holds p = holds (s.pc i)) :
    OwnedBy m' (fun j => holds (s'.pc j)) := by
  rw [hmm]
  refine h.congr (fun j => ?_)
  by_cases hj : j = i
  · subst hj
    rw [hm.self, hp]
  · rw [hm.other j hj]

theorem knows (hm : Moves i p s s') (h : BarrierInvAt g s) (hi : (s.pc i).holds1 = true)
    (hb : s'.blockR = s.blockR ∨ (s.pc i).holds0 = true) (hp : p.Knows s') (j : Fin N) :
    (s'.pc j).Knows s' := by
  by_cases hj : j = i
  · subst hj
    rw [hm.self]
    exact hp
  · rw [hm.other j hj]
    exact (h.knows j).of_other (h.owner1.other hi hj) (hb.imp_right (h.owner0.other · hj))

end Barrier.Moves

/-- Only the owner of `mutex[1]` broadcasts or resets. -/
theorem BarrierInvAt.owner1_eq {holder : BarrierPc → Bool} {j : Fin N} (h : BarrierInvAt g s)
    (hi : (s.pc i).holds1 = true) (hj : holder (s.pc j) = true)
    (hholder : ∀ p, holder p = true → p.holds1 = true) : j = i :=
  h.owner1.unique (hholder _ hj) hi

theorem BarrierPc.holds1_of_resets : ∀ p : BarrierPc, p.resets = true → p.holds1 = true := by
  intro p hp
  cases p <;> first | rfl | cases hp

theorem BarrierPc.holds1_of_beforeBroadcast1 :
    ∀ p : BarrierPc, p.beforeBroadcast1 = true → p.holds1 = true := by
  intro p hp
  cases p <;> first | rfl | cases hp

section Loud

variable {s' : Barrier N}

/-- `waiting ++`: the thread is now inside. -/
theorem BarrierInvAt.arrive (h : BarrierInvAt g s) (hp : s.pc i = .arrive)
    (hm : Barrier.Moves i .unlock0 s s') (hw : s'.waiting = s.waiting + 1)
    (hc : s'.count = s.count) (hb : s'.blockR = s.blockR) : BarrierInvAt g s' := by
  have hclear : s.blockR = false := by simpa [hp] using h.knows i
  have hN := h.count_eq_of_arriving hclear
  have hholds : (s.pc i).holds1 = true := by rw [hp]; rfl
  have hresults := hm.results (by rw [hp]; rfl)
  have hleft : ∀ j, s'.left j = s.left j := fun j => congrArg List.length (hresults j)
  refine ⟨hm.total.trans h.total, hm.owner h.owner0 hm.mutex0 (by rw [hp]; rfl),
    hm.owner h.owner1 hm.mutex1 (by rw [hp]; rfl), ?_, ?_, ?_, ?_, ?_, ?_, ?_, ?_, ?_, ?_, ?_, ?_⟩
  · simpa only [hleft] using h.left
  · rw [hw, h.waiting]
    refine (tally_join i (by simp [hp]) (by simp [hm.self]) (fun j hj => ?_)).symm
    rw [hm.other j hj]
  · simpa only [hleft, hc] using h.count
  · intro j _
    rw [hleft]
    exact h.arriving hclear j
  · intro hset
    rw [hb, hclear] at hset
    cases hset
  · intro _ j
    rw [hleft]
    exact h.arriving hclear j
  · exact hm.knows h hholds (.inl hb) (by rw [BarrierPc.Knows, hb, hclear])
  · intro j hj
    have hji : j ≠ i := by
      rintro rfl
      rw [hm.self] at hj
      cases hj
    rw [hm.other j hji] at hj
    rcases h.queue0 j hj with hset | ⟨k, hk⟩
    · rw [hclear] at hset
      cases hset
    · -- A thread that resets the barrier owns the mutex that this one owns.
      have hki : k = i := h.owner1.unique (i := k) (by simp [hk]) hholds
      rw [hki, hp] at hk
      cases hk
  · intro j _
    exact .inr ⟨hc.trans hN, i, by rw [hm.self]; rfl⟩
  · intro hzero
    have := i.pos
    omega
  · simpa only [hresults] using h.past
  · intro j hj
    rw [hresults] at hj
    have hres := h.now j hj
    have hji := h.owner1_eq hholds hres BarrierPc.holds1_of_resets
    rw [hji, hp] at hres
    cases hres

/-- The first thread released sets `block_r`: all threads are inside. -/
theorem BarrierInvAt.firstSet (h : BarrierInvAt g s) (hp : s.pc i = .firstSet)
    (hm : Barrier.Moves i .firstUnlock s s') (hw : s'.waiting = s.waiting)
    (hc : s'.count = s.count) (hb : s'.blockR = true) : BarrierInvAt g s' := by
  have hknow : s.count = s.waiting ∧ s.count = N := by simpa [hp] using h.knows i
  have hholds : (s.pc i).holds1 = true := by rw [hp]; rfl
  have hresults := hm.results (by rw [hp]; rfl)
  have hleft : ∀ j, s'.left j = s.left j := fun j => congrArg List.length (hresults j)
  have hinside : ∀ j, (s'.pc j).inside = (s.pc j).inside := by
    intro j
    by_cases hj : j = i
    · subst hj
      rw [hm.self, hp]
      rfl
    · rw [hm.other j hj]
  have hall : ∀ j, (s.pc j).inside = true := by
    refine tally_eq_card.mp ?_
    rw [← h.waiting, ← hknow.1, hknow.2]
    simp
  refine ⟨hm.total.trans h.total, hm.owner h.owner0 hm.mutex0 (by rw [hp]; rfl),
    hm.owner h.owner1 hm.mutex1 (by rw [hp]; rfl), ?_, ?_, ?_, ?_, ?_, ?_, ?_, ?_, ?_, ?_, ?_, ?_⟩
  · simpa only [hleft] using h.left
  · simpa only [hinside, hw] using h.waiting
  · simpa only [hleft, hc] using h.count
  · intro j hj
    rw [hleft]
    exact h.inside j (by rwa [hinside] at hj)
  · intro _ j _
    rw [hinside]
    exact hall j
  · intro hclear
    rw [hb] at hclear
    cases hclear
  · refine hm.knows h hholds (.inr (by rw [hp]; rfl)) ?_
    exact ⟨hc.trans (hknow.1.trans hw.symm), hc.trans hknow.2, hb⟩
  · exact fun j _ => .inl hb
  · exact fun j _ => .inr ⟨hc.trans hknow.2, i, by rw [hm.self]; rfl⟩
  · intro hzero
    have := i.pos
    omega
  · simpa only [hresults] using h.past
  · intro j hj
    rw [hresults] at hj
    have hres := h.now j hj
    have hji := h.owner1_eq hholds hres BarrierPc.holds1_of_resets
    rw [hji, hp] at hres
    cases hres

/-- `count --`, `waiting --`: the thread leaves the generation, with `serial` set exactly
if it is the last one. -/
theorem BarrierInvAt.leave {p : BarrierPc} (h : BarrierInvAt g s) (hp : s.pc i = .leave)
    (hm : Barrier.Moves i p s s') (hw : s'.waiting = s.waiting - 1) (hc : s'.count = s.count - 1)
    (hb : s'.blockR = s.blockR)
    (hcase : s.count - 1 ≠ 0 ∧ p = .unlock1 false ∨ s.count - 1 = 0 ∧ p = .lastLock) :
    BarrierInvAt g s' := by
  have hknow : s.count = s.waiting ∧ s.blockR = true := by simpa [hp] using h.knows i
  have hholds : (s.pc i).holds1 = true := by rw [hp]; rfl
  have hlen : (s.returns i).length = g := by
    have hleft := h.inside i (by rw [hp]; rfl)
    simpa [Barrier.left, Barrier.results, hp] using hleft
  obtain ⟨serial, hpend, hserial⟩ : ∃ serial, p.pending = [serial] ∧
      (serial = true → p.resets = true) := by
    rcases hcase with ⟨-, rfl⟩ | ⟨-, rfl⟩
    · exact ⟨false, rfl, fun h => by cases h⟩
    · exact ⟨true, rfl, fun _ => rfl⟩
  have hsame : p.holds0 = false ∧ p.holds1 = true ∧ p.inside = false ∧ p ≠ .wait1 := by
    rcases hcase with ⟨-, rfl⟩ | ⟨-, rfl⟩ <;> simp
  have hleftI : s'.left i = g + 1 := by
    rw [Barrier.left, hm.results_self, hpend, List.length_append, hlen]
    rfl
  have hleft : ∀ j, j ≠ i → s'.left j = s.left j :=
    fun j hj => congrArg List.length (hm.results_other hj)
  have hcount : s.count = tally (fun j => decide (s'.left j = g)) + 1 := by
    rw [h.count]
    refine tally_join i (by simp [hleftI]) (decide_eq_true (h.inside i (by rw [hp]; rfl))) ?_
    intro j hj
    rw [hleft j hj]
  have hwaiting : s.waiting = tally (fun j => (s'.pc j).inside) + 1 := by
    rw [h.waiting]
    refine tally_join i (by rw [hm.self]; exact hsame.2.2.1) (by rw [hp]; rfl) ?_
    intro j hj
    rw [hm.other j hj]
  refine ⟨hm.total.trans h.total, hm.owner h.owner0 hm.mutex0 (by rw [hp]; exact hsame.1),
    hm.owner h.owner1 hm.mutex1 (by rw [hp]; exact hsame.2.1), ?_, ?_, ?_, ?_, ?_, ?_, ?_, ?_, ?_, ?_,
    ?_, ?_⟩
  · intro j
    by_cases hj : j = i
    · subst hj
      exact .inr hleftI
    · rw [hleft j hj]
      exact h.left j
  · rw [hw, hwaiting, Nat.add_sub_cancel]
  · rw [hc, hcount, Nat.add_sub_cancel]
  · intro j hj
    have hji : j ≠ i := by
      rintro rfl
      rw [hm.self, hsame.2.2.1] at hj
      cases hj
    rw [hleft j hji]
    exact h.inside j (by rwa [hm.other j hji] at hj)
  · intro _ j hj
    have hji : j ≠ i := by
      rintro rfl
      omega
    rw [hm.other j hji]
    exact h.leaving hknow.2 j (by rwa [hleft j hji] at hj)
  · intro hclear
    rw [hb, hknow.2] at hclear
    cases hclear
  · refine hm.knows h hholds (.inl hb) ?_
    rcases hcase with ⟨-, rfl⟩ | ⟨hzero, rfl⟩
    · trivial
    · exact ⟨hc.trans hzero, hb.trans hknow.2⟩
  · exact fun j _ => .inl (hb.trans hknow.2)
  · -- `cond[1]` was broadcast before the first thread left.
    intro j hj
    have hji : j ≠ i := by
      rintro rfl
      exact hsame.2.2.2 (hm.self.symm.trans hj)
    rw [hm.other j hji] at hj
    rcases h.queue1 j hj with hlt | ⟨-, k, hk⟩
    · omega
    · have hki := h.owner1_eq hholds hk BarrierPc.holds1_of_beforeBroadcast1
      rw [hki, hp] at hk
      cases hk
  · intro hzero
    rcases hcase with ⟨hne, -⟩ | ⟨-, hlast⟩
    · exact absurd (hc.symm.trans hzero) hne
    · exact ⟨i, by rw [hm.self, hlast]; rfl⟩
  · intro k hk
    have hsameAt : ∀ j, (s'.results j)[k]? = (s.results j)[k]? := by
      intro j
      by_cases hj : j = i
      · subst hj
        rw [hm.results_self, hpend, List.getElem?_append_left (by omega), Barrier.results, hp]
        simp
      · rw [hm.results_other hj]
    simpa only [hsameAt] using h.past k hk
  · intro j hj
    by_cases hji : j = i
    · subst hji
      rw [hm.results_self, hpend, List.getElem?_append_right (by omega), hlen] at hj
      rw [hm.self]
      exact hserial (by simpa using hj)
    · rw [hm.results_other hji] at hj
      have hres := h.now j hj
      exact absurd (h.owner1_eq hholds hres BarrierPc.holds1_of_resets) hji

/-- The last thread released resets the barrier: a new generation begins. -/
theorem BarrierInvAt.lastReset (h : BarrierInvAt g s) (hp : s.pc i = .lastReset)
    (hm : Barrier.Moves i .lastBroadcast s s') (hw : s'.waiting = s.waiting)
    (hc : s'.count = s.total) (hb : s'.blockR = false) : BarrierInvAt (g + 1) s' := by
  have hknow : s.count = 0 ∧ s.blockR = true := by simpa [hp] using h.knows i
  have hholds : (s.pc i).holds1 = true := by rw [hp]; rfl
  have hresults := hm.results (by rw [hp]; rfl)
  have hleft : ∀ j, s'.left j = s.left j := fun j => congrArg List.length (hresults j)
  have hall : ∀ j, s.left j = g + 1 := by
    intro j
    have hzero := tally_eq_zero.mp (h.count.symm.trans hknow.1) j
    exact (h.left j).resolve_left (by simpa using hzero)
  have hnone : ∀ j, (s.pc j).inside = false := by
    intro j
    by_contra hj
    have := h.inside j (Bool.of_not_eq_false hj)
    have := hall j
    omega
  have hinside : ∀ j, (s'.pc j).inside = false := by
    intro j
    by_cases hj : j = i
    · subst hj
      rw [hm.self]
      rfl
    · rw [hm.other j hj]
      exact hnone j
  refine ⟨hm.total.trans h.total, hm.owner h.owner0 hm.mutex0 (by rw [hp]; rfl),
    hm.owner h.owner1 hm.mutex1 (by rw [hp]; rfl), ?_, ?_, ?_, ?_, ?_, ?_, ?_, ?_, ?_, ?_, ?_, ?_⟩
  · intro j
    rw [hleft]
    exact .inl (hall j)
  · rw [hw, h.waiting, tally_eq_zero.mpr hnone, tally_eq_zero.mpr hinside]
  · rw [hc, h.total]
    refine ((tally_eq_card.mpr (fun j => ?_)).trans (by simp)).symm
    rw [hleft, hall j]
    exact decide_eq_true rfl
  · intro j hj
    rw [hinside j] at hj
    cases hj
  · intro hset
    rw [hb] at hset
    cases hset
  · intro _ j
    rw [hleft]
    exact hall j
  · exact hm.knows h hholds (.inr (by rw [hp]; rfl)) trivial
  · exact fun j _ => .inr ⟨i, hm.self⟩
  · intro j hj
    have := hinside j
    rw [hj] at this
    cases this
  · intro hzero
    have := i.pos
    have := h.total
    omega
  · intro k hk
    simp only [hresults]
    rcases Nat.lt_succ_iff_lt_or_eq.mp hk with hlt | rfl
    · exact h.past k hlt
    · -- In the generation that ends, the thread that resets is the one that returns 1.
      refine ⟨i, ?_, fun j hj => ?_⟩
      · have hlen : (s.returns i).length = k := by
          simpa [Barrier.left, Barrier.results, hp] using hall i
        simp [Barrier.results, hp, hlen]
      · exact h.owner1_eq hholds (h.now j hj) BarrierPc.holds1_of_resets
  · intro j hj
    have hlen : (s'.results j).length ≤ g + 1 := by
      have := hleft j
      have := hall j
      unfold Barrier.left at *
      omega
    rw [List.getElem?_eq_none hlen] at hj
    cases hj

end Loud

/-- The first thread released broadcasts `cond[1]`. -/
theorem BarrierInvAt.firstBroadcast (h : BarrierInvAt g s) (hp : s.pc i = .firstBroadcast) :
    BarrierInvAt g (s.broadcast1.goto i .leave) := by
  have hknow : s.count = s.waiting ∧ s.count = N ∧ s.blockR = true := by
    simpa [hp] using h.knows i
  have hself : (s.broadcast1.goto i .leave).pc i = .leave := Barrier.goto_self _ _ _
  have hother : ∀ j, j ≠ i → (s.broadcast1.goto i .leave).pc j
      = if s.pc j = .wait1 then .relock1 else s.pc j :=
    fun j hj => Barrier.goto_other _ _ hj
  -- A thread that is woken up changes nothing but its place in the queue.
  have hpc : ∀ {α : Type} (f : BarrierPc → α), f .relock1 = f .wait1 →
      f .leave = f .firstBroadcast →
      ∀ j, f ((s.broadcast1.goto i .leave).pc j) = f (s.pc j) := by
    intro α f hwake hleave j
    by_cases hj : j = i
    · subst hj
      rw [hself, hp, hleave]
    · rw [hother j hj]
      split <;> simp [*]
  refine h.quiet rfl rfl rfl rfl (fun j => ?_) (hpc _ rfl rfl) (hpc _ rfl rfl)
    (h.owner0.congr (hpc _ rfl rfl)) (h.owner1.congr (hpc _ rfl rfl)) (fun j => ?_)
    (fun j _ => .inl hknow.2.2) (fun j hj => ?_)
  · exact congrArg (s.returns j ++ ·) (hpc BarrierPc.pending rfl rfl j)
  · by_cases hj : j = i
    · subst hj
      rw [hself]
      exact ⟨hknow.1, hknow.2.2⟩
    · rw [hother j hj]
      split
      · trivial
      · exact h.knows j
  · by_cases hji : j = i
    · subst hji
      rw [hself] at hj
      cases hj
    · rw [hother j hji] at hj
      split at hj
      · cases hj
      · exact absurd hj ‹_›

/-- The last thread released broadcasts `cond[0]`. -/
theorem BarrierInvAt.lastBroadcast (h : BarrierInvAt g s) (hp : s.pc i = .lastBroadcast) :
    BarrierInvAt g (s.broadcast0.goto i .lastUnlock) := by
  have hself : (s.broadcast0.goto i .lastUnlock).pc i = .lastUnlock := Barrier.goto_self _ _ _
  have hother : ∀ j, j ≠ i → (s.broadcast0.goto i .lastUnlock).pc j
      = if s.pc j = .wait0 then .lock0 else s.pc j :=
    fun j hj => Barrier.goto_other _ _ hj
  have hpc : ∀ {α : Type} (f : BarrierPc → α), f .lock0 = f .wait0 →
      f .lastUnlock = f .lastBroadcast →
      ∀ j, f ((s.broadcast0.goto i .lastUnlock).pc j) = f (s.pc j) := by
    intro α f hwake hlast j
    by_cases hj : j = i
    · subst hj
      rw [hself, hp, hlast]
    · rw [hother j hj]
      split <;> simp [*]
  refine h.quiet rfl rfl rfl rfl (fun j => ?_) (hpc _ rfl rfl) (hpc _ rfl rfl)
    (h.owner0.congr (hpc _ rfl rfl)) (h.owner1.congr (hpc _ rfl rfl)) (fun j => ?_)
    (fun j hj => ?_) (fun j hj => ?_)
  · exact congrArg (s.returns j ++ ·) (hpc BarrierPc.pending rfl rfl j)
  · by_cases hj : j = i
    · subst hj
      rw [hself]
      trivial
    · rw [hother j hj]
      split
      · trivial
      · exact h.knows j
  · by_cases hji : j = i
    · subst hji
      rw [hself] at hj
      cases hj
    · rw [hother j hji] at hj
      split at hj
      · cases hj
      · exact absurd hj ‹_›
  · have hji : j ≠ i := by
      rintro rfl
      rw [hself] at hj
      cases hj
    have hold : s.pc j = .wait1 := by
      rw [hother j hji] at hj
      split at hj
      · cases hj
      · exact hj
    rcases h.queue1 j hold with hlt | ⟨hN, k, hk⟩
    · exact .inl hlt
    · refine .inr ⟨hN, k, ?_⟩
      rwa [hpc BarrierPc.beforeBroadcast1 rfl rfl]

/-- The return from a call: the result that was pending is now on record. -/
theorem BarrierInvAt.unlock1 {serial : Bool} (h : BarrierInvAt g s)
    (hp : s.pc i = .unlock1 serial) :
    BarrierInvAt g { s.goto i .idle with
      mutex1 := none
      returns := Function.update s.returns i (s.returns i ++ [serial]) } := by
  have hpc : ∀ {α : Type} (f : BarrierPc → α), f .idle = f (.unlock1 serial) →
      ∀ j, f ((s.goto i .idle).pc j) = f (s.pc j) := by
    intro α f hf j
    by_cases hj : j = i
    · subst hj
      rw [Barrier.goto_self, hp, hf]
    · rw [Barrier.goto_other _ _ hj]
  have hback : ∀ (q : BarrierPc) (j : Fin N), q ≠ .idle →
      (s.goto i .idle).pc j = q → s.pc j = q := by
    intro q j hq hj
    by_cases hji : j = i
    · subst hji
      rw [Barrier.goto_self] at hj
      exact absurd hj.symm hq
    · rwa [Barrier.goto_other _ _ hji] at hj
  refine h.quiet rfl rfl rfl rfl (fun j => ?_) (hpc _ rfl) (hpc _ rfl)
    (h.owner0.congr (hpc _ rfl)) (Barrier.goto_unlock h.owner1 (by simp [hp]) rfl) (fun j => ?_)
    (fun j hj => ?_) (fun j hj => ?_)
  · by_cases hj : j = i
    · subst hj
      simp [Barrier.results, hp, Barrier.goto]
    · simp [Barrier.results, Barrier.goto, hj]
  · by_cases hj : j = i
    · subst hj
      show ((s.goto j .idle).pc j).Knows s
      rw [Barrier.goto_self]
      trivial
    · show ((s.goto i .idle).pc j).Knows s
      rw [Barrier.goto_other _ _ hj]
      exact h.knows j
  · rcases h.queue0 j (hback _ j (by decide) hj) with hb | ⟨k, hk⟩
    · exact .inl hb
    · refine .inr ⟨k, ?_⟩
      have hki : k ≠ i := by
        rintro rfl
        rw [hp] at hk
        cases hk
      exact (Barrier.goto_other _ _ hki).trans hk
  · rcases h.queue1 j (hback _ j (by decide) hj) with hlt | ⟨hN, k, hk⟩
    · exact .inl hlt
    · exact .inr ⟨hN, k, (hpc BarrierPc.beforeBroadcast1 rfl k).trans hk⟩

/-- **Every step keeps the invariant**, the reset in the next generation. -/
theorem BarrierInvAt.stepOf {s' : Barrier N} (h : BarrierInvAt g s) (hs : Barrier.StepOf i s s') :
    ∃ g', BarrierInvAt g' s' := by
  have hk := h.knows i
  cases hs with
  | call hp =>
      refine ⟨g, h.quiet_goto i (Barrier.goto_owner h.owner0 ?_)
        (Barrier.goto_owner h.owner1 ?_) ?_ ?_ ?_ ?_ ?_ ?_ ?_ ?_⟩ <;> simp [hp]
  | lock0 hp hfree =>
      refine ⟨g, h.quiet_goto i (Barrier.goto_lock h.owner0 hfree ?_)
        (Barrier.goto_owner h.owner1 ?_) ?_ ?_ ?_ ?_ ?_ ?_ ?_ ?_⟩ <;> simp [hp]
  | block hp hb =>
      refine ⟨g, h.quiet_goto i (Barrier.goto_unlock h.owner0 ?_ ?_)
        (Barrier.goto_owner h.owner1 ?_) ?_ ?_ ?_ ?_ ?_ ?_ ?_ ?_⟩ <;> simp [hp, hb]
  | pass hp hb =>
      refine ⟨g, h.quiet_goto i (Barrier.goto_owner h.owner0 ?_)
        (Barrier.goto_owner h.owner1 ?_) ?_ ?_ ?_ ?_ ?_ ?_ ?_ ?_⟩ <;> simp [hp, hb]
  | lock1 hp hfree =>
      rw [hp] at hk
      refine ⟨g, h.quiet_goto i (Barrier.goto_owner h.owner0 ?_)
        (Barrier.goto_lock h.owner1 hfree ?_) ?_ ?_ ?_ hk ?_ ?_ ?_ ?_⟩ <;> simp [hp]
  | arrive hp =>
      exact ⟨g, h.arrive hp (.of_goto rfl rfl rfl rfl rfl) rfl rfl rfl⟩
  | unlock0 hp =>
      refine ⟨g, h.quiet_goto i (Barrier.goto_unlock h.owner0 ?_ ?_)
        (Barrier.goto_owner h.owner1 ?_) ?_ ?_ ?_ ?_ ?_ ?_ ?_ ?_⟩ <;> simp [hp]
  | sleep hp hw =>
      refine ⟨g, h.quiet_goto i (Barrier.goto_owner h.owner0 ?_)
        (Barrier.goto_unlock h.owner1 ?_ ?_) ?_ ?_ ?_ ?_ ?_ ?_ ?_ ?_⟩ <;> simp [hp, hw]
  | go hp hw =>
      have heq : s.count = s.waiting := by
        have := h.waiting_le_count
        omega
      refine ⟨g, h.quiet_goto i (Barrier.goto_owner h.owner0 ?_)
        (Barrier.goto_owner h.owner1 ?_) ?_ ?_ ?_ heq ?_ ?_ ?_ ?_⟩ <;> simp [hp]
  | relock1 hp hfree =>
      refine ⟨g, h.quiet_goto i (Barrier.goto_owner h.owner0 ?_)
        (Barrier.goto_lock h.owner1 hfree ?_) ?_ ?_ ?_ ?_ ?_ ?_ ?_ ?_⟩ <;> simp [hp]
  | assertFails hp hne =>
      rw [hp] at hk
      exact absurd hk hne
  | first hp heq hf =>
      refine ⟨g, h.quiet_goto i (Barrier.goto_owner h.owner0 ?_)
        (Barrier.goto_owner h.owner1 ?_) ?_ ?_ ?_ ⟨heq, hf.trans h.total⟩ ?_ ?_ ?_ ?_⟩ <;> simp [hp]
  | notFirst hp heq hf =>
      have hb : s.blockR = true := by
        by_contra hclear
        exact hf ((h.count_eq_of_arriving (Bool.of_not_eq_true hclear)).trans h.total.symm)
      rw [h.total] at hf
      refine ⟨g, h.quiet_goto i (Barrier.goto_owner h.owner0 ?_)
        (Barrier.goto_owner h.owner1 ?_) ?_ ?_ ?_ ⟨heq, hb⟩ ?_ ?_ ?_ ?_⟩ <;> simp [hp, hf]
  | firstLock hp hfree =>
      rw [hp] at hk
      refine ⟨g, h.quiet_goto i (Barrier.goto_lock h.owner0 hfree ?_)
        (Barrier.goto_owner h.owner1 ?_) ?_ ?_ ?_ hk ?_ ?_ ?_ ?_⟩ <;> simp [hp]
  | firstSet hp =>
      exact ⟨g, h.firstSet hp (.of_goto rfl rfl rfl rfl rfl) rfl rfl rfl⟩
  | firstUnlock hp =>
      rw [hp] at hk
      refine ⟨g, h.quiet_goto i (Barrier.goto_unlock h.owner0 ?_ ?_)
        (Barrier.goto_owner h.owner1 ?_) ?_ ?_ ?_ hk ?_ ?_ ?_ ?_⟩ <;> simp [hp]
  | firstBroadcast hp => exact ⟨g, h.firstBroadcast hp⟩
  | leave hp hl =>
      exact ⟨g, h.leave hp (.of_goto rfl rfl rfl rfl rfl) rfl rfl rfl (.inl ⟨hl, rfl⟩)⟩
  | leaveLast hp hl =>
      exact ⟨g, h.leave hp (.of_goto rfl rfl rfl rfl rfl) rfl rfl rfl (.inr ⟨hl, rfl⟩)⟩
  | lastLock hp hfree =>
      rw [hp] at hk
      refine ⟨g, h.quiet_goto i (Barrier.goto_lock h.owner0 hfree ?_)
        (Barrier.goto_owner h.owner1 ?_) ?_ ?_ ?_ hk ?_ ?_ ?_ ?_⟩ <;> simp [hp]
  | lastReset hp =>
      exact ⟨g + 1, h.lastReset hp (.of_goto rfl rfl rfl rfl rfl) rfl rfl rfl⟩
  | lastBroadcast hp => exact ⟨g, h.lastBroadcast hp⟩
  | lastUnlock hp =>
      refine ⟨g, h.quiet_goto i (Barrier.goto_unlock h.owner0 ?_ ?_)
        (Barrier.goto_owner h.owner1 ?_) ?_ ?_ ?_ ?_ ?_ ?_ ?_ ?_⟩ <;> simp [hp]
  | unlock1 hp => exact ⟨g, h.unlock1 hp⟩

end Steps

end Ubwt
