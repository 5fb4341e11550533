import Mathlib.Logic.Function.Basic

/-!
# Ubwt.Worker.HandOff

The hand-off from the main thread to a worker that it creates: `worker_task_create` waits on
`worker_cond_global`, with `worker_mutex_cond`, until the worker has cleared `forking` in
`_worker_task_init` and has signalled.

The worker takes no mutex for either. **If it signals while the main thread stands between its test
of `forking` and its wait, the signal is lost**: the main thread then waits for a flag that is
clear already (`lostWakeUp_reachable`), until another worker happens to signal. It is lost in no
other way (`handOff_noLostWakeUp`).
-/

namespace Ubwt

/-! ### worker_task_create and _worker_task_init -/

/-- Where the main thread is in `worker_task_create()`. -/
inductive TaskCreatePc
  /-- Not in a call. -/
  | idle
  /-- `current_forking_set(1)` is done. -/
  | create
  /-- The worker exists. -/
  | lock
  /-- Holds `worker_mutex_cond`, at the test of `forking`. -/
  | test
  /-- Has seen `forking` set, and is about to wait. -/
  | wait
  /-- In the queue of `worker_cond_global`. -/
  | blocked
  /-- Takes `worker_mutex_cond` on the way out of the wait. -/
  | relock
  /-- Has seen `forking` clear. -/
  | unlock
  deriving Repr, DecidableEq

/-- Where a worker is in `_worker_task_init()`. -/
inductive TaskInitPc
  | absent
  /-- `current_fork()`. -/
  | fork
  /-- `current_forking_set(0)`. -/
  | clear
  /-- `worker_cond_signal()`. -/
  | signal
  /-- Runs its task. -/
  | task
  deriving Repr, DecidableEq

/-- The worker has cleared `forking`. -/
def TaskInitPc.cleared : TaskInitPc → Bool
  | signal | task => true
  | _ => false

/-- The worker has signalled. -/
def TaskInitPc.signalled : TaskInitPc → Bool
  | task => true
  | _ => false

theorem TaskInitPc.cleared_of_signalled {p : TaskInitPc} (h : p.signalled = true) :
    p.cleared = true := by
  cases p with
  | task => rfl
  | _ => cases h

/-- The worker that was created last matters to the main thread from here on. -/
def TaskCreatePc.awaits : TaskCreatePc → Bool
  | lock | test | wait | blocked | relock => true
  | _ => false

/-- The main thread, its workers by the order of their creation, and what they share. -/
structure HandOff where
  forking : UInt32
  /-- `worker_mutex_cond` is locked. -/
  mutexCond : Bool
  main : TaskCreatePc
  /-- How many workers have been created. -/
  created : Nat
  worker : Nat → TaskInitPc

/-- One operation, each of which is atomic. -/
inductive HandOffOp
  | forkingSet
  | create
  | lock
  | test
  | wait
  /-- A wake-up without a signal. -/
  | spurious
  | relock
  | unlock
  | fork (k : Nat)
  | clear (k : Nat)
  | signal (k : Nat)
  /-- A signal from within a task: `current_running_set()` and its like. -/
  | taskSignal (k : Nat)
  deriving Repr, DecidableEq

namespace HandOff

/-- Before the first call. -/
def init : HandOff where
  forking := 0
  mutexCond := false
  main := .idle
  created := 0
  worker := fun _ => .absent

/-- `worker_cond_signal()`. The main thread is the only one that waits. -/
def condSignal (s : HandOff) : HandOff :=
  if s.main = .blocked then { s with main := .relock } else s

/-- Worker `k` goes on at `p`. -/
def goto (s : HandOff) (k : Nat) (p : TaskInitPc) : HandOff :=
  { s with worker := Function.update s.worker k p }

/-- One step of the main thread, or of a worker. -/
inductive Step : HandOff → HandOffOp → HandOff → Prop
  | forkingSet {s} (h : s.main = .idle) :
      Step s .forkingSet { s with forking := 1, main := .create }
  | create {s} (h : s.main = .create) :
      Step s .create
        { s.goto s.created .fork with main := .lock, created := s.created + 1 }
  | lock {s} (h : s.main = .lock) (hfree : s.mutexCond = false) :
      Step s .lock { s with main := .test, mutexCond := true }
  | testSet {s} (h : s.main = .test) (hset : s.forking ≠ 0) :
      Step s .test { s with main := .wait }
  | testClear {s} (h : s.main = .test) (hclear : s.forking = 0) :
      Step s .test { s with main := .unlock }
  /-- Unlocks the mutex and joins the queue. -/
  | wait {s} (h : s.main = .wait) :
      Step s .wait { s with main := .blocked, mutexCond := false }
  | spurious {s} (h : s.main = .blocked) : Step s .spurious { s with main := .relock }
  | relock {s} (h : s.main = .relock) (hfree : s.mutexCond = false) :
      Step s .relock { s with main := .test, mutexCond := true }
  | unlock {s} (h : s.main = .unlock) : Step s .unlock { s with main := .idle, mutexCond := false }
  | fork {s} (k) (h : s.worker k = .fork) : Step s (.fork k) (s.goto k .clear)
  | clear {s} (k) (h : s.worker k = .clear) :
      Step s (.clear k) { s.goto k .signal with forking := 0 }
  | signal {s} (k) (h : s.worker k = .signal) : Step s (.signal k) (s.goto k .task).condSignal
  | taskSignal {s} (k) (h : s.worker k = .task) : Step s (.taskSignal k) s.condSignal

/-- Worker `k` is the one that was created last. -/
def Newest (s : HandOff) (k : Nat) : Prop := s.created = k + 1

/-- The main thread waits for a flag that is clear, and the signal is past. -/
def LostWakeUp (s : HandOff) : Prop :=
  s.main = .blocked ∧ s.forking = 0 ∧ ∃ k, s.Newest k ∧ (s.worker k).signalled = true

/-- The worker that was created last does not signal while the main thread stands between its
test and its wait. -/
def Timely (s : HandOff) (op : HandOffOp) : Prop :=
  s.main = .wait → ∀ k, s.Newest k → op ≠ .signal k

/-- The states that can be reached. -/
inductive Reachable : HandOff → Prop
  | init : Reachable init
  | step {s s' op} (hs : Reachable s) (hstep : Step s op s') : Reachable s'

/-- The states that runs of timely steps reach. -/
inductive TimelyRun : HandOff → Prop
  | init : TimelyRun init
  | step {s s' op} (hs : TimelyRun s) (hstep : Step s op s') (htimely : s.Timely op) : TimelyRun s'

/-! ### The invariant -/

/-- What holds of the flag at every moment. -/
structure Inv (s : HandOff) : Prop where
  absent : ∀ k, s.created ≤ k → s.worker k = .absent
  set : s.main = .create → s.forking ≠ 0
  /-- All workers have cleared the flag, but for the newest while the main thread awaits it. -/
  older : ∀ k, k < s.created → s.main.awaits = false ∨ ¬ s.Newest k → (s.worker k).cleared = true
  newest : s.main.awaits = true →
    ∃ k, s.Newest k ∧ (s.forking = 0 ↔ (s.worker k).cleared = true)

/-- What timely steps keep besides. -/
def Pending (s : HandOff) : Prop :=
  s.main = .wait ∨ s.main = .blocked → ∀ k, s.Newest k → (s.worker k).signalled = false

variable {s s' : HandOff} {op : HandOffOp} {k j : Nat} {p : TaskInitPc}

@[simp] theorem goto_self : (s.goto k p).worker k = p := Function.update_self ..

theorem goto_of_ne (h : j ≠ k) : (s.goto k p).worker j = s.worker j := Function.update_of_ne h ..

/-- A worker that goes on within the same part of `_worker_task_init()`. -/
theorem goto_cleared (h : p.cleared = (s.worker k).cleared) (j : Nat) :
    ((s.goto k p).worker j).cleared = (s.worker j).cleared := by
  by_cases hj : j = k
  · rw [hj, goto_self, h]
  · rw [goto_of_ne hj]

theorem goto_absent (h : s.worker k ≠ .absent) (hj : s.worker j = .absent) :
    (s.goto k p).worker j = .absent := by
  rw [goto_of_ne, hj]
  intro heq
  subst heq
  exact h hj

/-- A signal moves no one but the main thread. -/
theorem condSignal_same (s : HandOff) : s.condSignal.forking = s.forking
    ∧ s.condSignal.created = s.created ∧ s.condSignal.worker = s.worker
    ∧ s.condSignal.main.awaits = s.main.awaits := by
  unfold condSignal
  split
  · rename_i hblocked
    exact ⟨rfl, rfl, rfl, by rw [hblocked]; rfl⟩
  · exact ⟨rfl, rfl, rfl, rfl⟩

/-- After a signal the main thread is not blocked. -/
theorem condSignal_main (s : HandOff) :
    s.condSignal.main ≠ .blocked
      ∧ ∀ p, p ≠ .relock → s.condSignal.main = p → s.main = p := by
  unfold condSignal
  split
  · refine ⟨fun h => (by cases h), ?_⟩
    intro p hp h
    exact absurd h.symm hp
  · rename_i hblocked
    exact ⟨hblocked, fun _ _ => id⟩

theorem inv_init : init.Inv where
  absent := fun _ _ => rfl
  set := fun h => by cases h
  older := fun _ h => by cases h
  newest := fun h => by cases h

/-- A step that changes neither the flag nor who has cleared it. -/
theorem Inv.congr (h : s.Inv) (hforking : s'.forking = s.forking) (hcreated : s'.created = s.created)
    (hawaits : s'.main.awaits = s.main.awaits) (hset : s'.main = .create → s.main = .create)
    (habsent : ∀ k, s.worker k = .absent → s'.worker k = .absent)
    (hcleared : ∀ k, (s'.worker k).cleared = (s.worker k).cleared) : s'.Inv where
  absent := fun k hk => habsent k (h.absent k (hcreated ▸ hk))
  set := fun hmain => hforking ▸ h.set (hset hmain)
  older := by
    intro k hk hor
    rw [hcleared]
    rw [hawaits, Newest, hcreated] at hor
    exact h.older k (hcreated ▸ hk) hor
  newest := by
    intro ha
    obtain ⟨k, hnewest, hflag⟩ := h.newest (hawaits ▸ ha)
    exact ⟨k, hcreated.trans hnewest, by rw [hforking, hcleared, hflag]⟩

/-- A step of the main thread between two points that both await the newest worker, or both not. -/
theorem Inv.goMain (h : s.Inv) {main : TaskCreatePc} (mutexCond : Bool)
    (hawaits : main.awaits = s.main.awaits) (hset : main ≠ .create) :
    ({ s with main := main, mutexCond := mutexCond } : HandOff).Inv :=
  h.congr rfl rfl hawaits (fun hmain => absurd hmain hset) (fun _ => id) (fun _ => rfl)

theorem Inv.condSignal (h : s.Inv) : s.condSignal.Inv := by
  obtain ⟨hforking, hcreated, hworker, hawaits⟩ := condSignal_same s
  have hset := (condSignal_main s).2 .create (fun hp => by cases hp)
  exact h.congr hforking hcreated hawaits hset (fun k hk => by rw [hworker, hk])
    (fun k => by rw [hworker])

/-- A worker that is about to clear the flag is the newest, and the main thread awaits it. -/
theorem Inv.newest_of_clear (h : s.Inv) (hk : s.worker k = .clear) :
    s.main.awaits = true ∧ s.Newest k := by
  have hlt : k < s.created := by
    by_contra hge
    rw [h.absent k (Nat.not_lt.mp hge)] at hk
    cases hk
  have hold : ¬ (s.main.awaits = false ∨ ¬ s.Newest k) := by
    intro hor
    have hcleared := h.older k hlt hor
    rw [hk] at hcleared
    cases hcleared
  rw [not_or, not_not] at hold
  exact ⟨Bool.of_not_eq_false hold.1, hold.2⟩

/-- The step lemma. -/
theorem Inv.step (h : s.Inv) (hstep : Step s op s') : s'.Inv := by
  cases hstep with
  | forkingSet hmain =>
      refine ⟨h.absent, fun _ hset => (by cases hset), ?_, fun ha => by cases ha⟩
      intro k hk _
      exact h.older k hk (.inl (by rw [hmain]; rfl))
  | create hmain =>
      have hset := h.set hmain
      refine ⟨?_, fun hcreate => (by cases hcreate), ?_, fun _ => ⟨s.created, rfl, ?_⟩⟩
      · intro k hk
        exact (goto_of_ne (Nat.ne_of_gt hk)).trans (h.absent k (Nat.le_of_lt hk))
      · intro k hk hor
        have hlt : k < s.created := by
          rcases hor with ha | hne
          · cases ha
          · exact Nat.lt_of_le_of_ne (Nat.lt_succ_iff.mp hk) fun heq => hne (congrArg _ heq.symm)
        have hother : (s.goto s.created .fork).worker k = s.worker k :=
          goto_of_ne (Nat.ne_of_lt hlt)
        change ((s.goto s.created .fork).worker k).cleared = true
        rw [hother]
        exact h.older k hlt (.inl (by rw [hmain]; rfl))
      · change s.forking = 0 ↔ ((s.goto s.created .fork).worker s.created).cleared = true
        rw [goto_self]
        exact iff_of_false hset fun hcleared => by cases hcleared
  | lock hmain => exact h.goMain true (by rw [hmain]; rfl) fun hp => by cases hp
  | testSet hmain => exact h.goMain s.mutexCond (by rw [hmain]; rfl) fun hp => by cases hp
  | testClear hmain hclear =>
      obtain ⟨k, hnewest, hflag⟩ := h.newest (by rw [hmain]; rfl)
      refine ⟨h.absent, fun hcreate => (by cases hcreate), ?_, fun ha => by cases ha⟩
      intro j hj _
      by_cases hjk : s.Newest j
      · have heq : j = k := Nat.succ.inj (hjk.symm.trans hnewest)
        rw [heq]
        exact hflag.mp hclear
      · exact h.older j hj (.inr hjk)
  | wait hmain => exact h.goMain false (by rw [hmain]; rfl) fun hp => by cases hp
  | spurious hmain => exact h.goMain s.mutexCond (by rw [hmain]; rfl) fun hp => by cases hp
  | relock hmain => exact h.goMain true (by rw [hmain]; rfl) fun hp => by cases hp
  | unlock hmain => exact h.goMain false (by rw [hmain]; rfl) fun hp => by cases hp
  | fork k hk =>
      refine h.congr rfl rfl rfl id ?_ (goto_cleared (by rw [hk]; rfl))
      exact fun j hj => goto_absent (by rw [hk]; exact fun hp => by cases hp) hj
  | clear k hk =>
      obtain ⟨ha, hnewest⟩ := h.newest_of_clear hk
      refine ⟨?_, ?_, ?_, fun _ => ⟨k, hnewest, ?_⟩⟩
      · intro j hj
        exact goto_absent (by rw [hk]; exact fun hp => by cases hp) (h.absent j hj)
      · intro hcreate
        have hcreate' : s.main = .create := hcreate
        rw [hcreate'] at ha
        cases ha
      · intro j hj hor
        have hjk : j ≠ k := by
          intro heq
          subst heq
          rcases hor with hidle | hne
          · exact Bool.noConfusion (ha.symm.trans hidle)
          · exact hne hnewest
        change ((s.goto k .signal).worker j).cleared = true
        rw [goto_of_ne hjk]
        exact h.older j hj hor
      · change (0 : UInt32) = 0 ↔ ((s.goto k .signal).worker k).cleared = true
        rw [goto_self]
        exact iff_of_true rfl rfl
  | signal k hk =>
      refine Inv.condSignal (h.congr rfl rfl rfl id ?_ (goto_cleared (by rw [hk]; rfl)))
      exact fun j hj => goto_absent (by rw [hk]; exact fun hp => by cases hp) hj
  | taskSignal k hk => exact h.condSignal

/-- The run rule for all runs. -/
theorem Reachable.inv (h : Reachable s) : s.Inv := by
  induction h with
  | init => exact inv_init
  | step hs hstep ih => exact ih.step hstep

theorem TimelyRun.reachable (h : TimelyRun s) : Reachable s := by
  induction h with
  | init => exact .init
  | step hs hstep htimely ih => exact .step ih hstep

/-! ### Timely runs -/

/-- A step after which the main thread is not on the way into its wait. -/
theorem Pending.of_ne (h : s.main ≠ .wait) (h' : s.main ≠ .blocked) : s.Pending := by
  intro hmain
  rcases hmain with hmain | hmain
  · exact absurd hmain h
  · exact absurd hmain h'

/-- A step of a worker that is not its signal. -/
theorem Pending.goto (h : s.Pending) (hp : p.signalled = false) : (s.goto k p).Pending := by
  intro hmain j hnewest
  by_cases hj : j = k
  · rw [hj, goto_self, hp]
  · rw [goto_of_ne hj]
    exact h hmain j hnewest

/-- What is known after a signal. -/
theorem Pending.condSignal (h : s.main = .wait → ∀ k, s.Newest k → (s.worker k).signalled = false) :
    s.condSignal.Pending := by
  obtain ⟨-, hcreated, hworker, -⟩ := condSignal_same s
  obtain ⟨hblocked, hsame⟩ := condSignal_main s
  intro hmain k hnewest
  rw [Newest, hcreated] at hnewest
  rw [hworker]
  rcases hmain with hmain | hmain
  · exact h (hsame .wait (fun hp => by cases hp) hmain) k hnewest
  · exact absurd hmain hblocked

/-- The step lemma for timely steps. -/
theorem Pending.step (h : s.Inv) (hp : s.Pending) (hstep : Step s op s') (ht : s.Timely op) :
    s'.Pending := by
  cases hstep with
  | forkingSet hmain | create hmain | lock hmain | testClear hmain | spurious hmain | relock hmain
  | unlock hmain => exact .of_ne (fun heq => by cases heq) (fun heq => by cases heq)
  | testSet hmain hset =>
      -- The flag is set, so the newest worker has not even cleared it.
      intro _ k hk
      obtain ⟨j, hj, hflag⟩ := h.newest (by rw [hmain]; rfl)
      have hjk : k = j := Nat.succ.inj (hk.symm.trans hj)
      subst hjk
      by_contra hsignalled
      exact hset (hflag.mpr (TaskInitPc.cleared_of_signalled (Bool.of_not_eq_false hsignalled)))
  | wait hmain => exact fun _ => hp (.inl hmain)
  | fork k hk => exact hp.goto rfl
  | clear k hk =>
      have hgoto : (s.goto k .signal).Pending := hp.goto rfl
      exact hgoto
  | signal k hk =>
      refine .condSignal ?_
      intro hmain j hj
      have hjk : j ≠ k := fun heq => ht hmain j hj (congrArg _ heq.symm)
      rw [goto_of_ne hjk]
      exact hp (.inl hmain) j hj
  | taskSignal k hk => exact .condSignal fun hmain => hp (.inl hmain)

/-- The run rule for timely runs. -/
theorem TimelyRun.pending (h : TimelyRun s) : s.Pending := by
  induction h with
  | init => exact .of_ne (fun heq => by cases heq) (fun heq => by cases heq)
  | step hs hstep htimely ih => exact ih.step hs.reachable.inv hstep htimely

/-- **No lost wake-up in timely runs.** In every run, of any number of calls, in which no worker
that the main thread awaits signals between the test and the wait of the main thread, the main
thread never waits for a flag that is clear with the signal past. A signal between the two is lost:
with its next step the main thread waits in vain. -/
theorem handOff_noLostWakeUp (s : HandOff) (hrun : TimelyRun s) :
    ¬ s.LostWakeUp
    ∧ ∀ op s', Step s op s' → ¬ s.Timely op → ∃ s'', Step s' .wait s'' ∧ s''.LostWakeUp := by
  constructor
  · intro hlost
    obtain ⟨hblocked, -, k, hnewest, hsignalled⟩ := hlost
    rw [hrun.pending (.inr hblocked) k hnewest] at hsignalled
    cases hsignalled
  · intro op s' hstep hlate
    obtain ⟨hmain, k, hnewest, hop⟩ : s.main = .wait ∧ ∃ k, s.Newest k ∧ op = .signal k := by
      simpa [Timely] using hlate
    subst hop
    obtain ⟨j, hj, hflag⟩ := hrun.reachable.inv.newest (by rw [hmain]; rfl)
    have hjk : k = j := Nat.succ.inj (hnewest.symm.trans hj)
    subst hjk
    cases hstep with
    | signal k hk =>
        have hnot : (s.goto k .task).main ≠ .blocked := by
          intro heq
          have hblocked : s.main = .blocked := heq
          rw [hmain] at hblocked
          cases hblocked
        have hsame : (s.goto k .task).condSignal = s.goto k .task := if_neg hnot
        rw [hsame]
        refine ⟨_, .wait hmain, rfl, hflag.mpr (by rw [hk]; rfl), k, hnewest, ?_⟩
        change ((s.goto k .task).worker k).signalled = true
        rw [goto_self]
        rfl

/-- One call: the main thread is in its wait before the worker signals. -/
theorem handOff_noLostWakeUp_blocked :
    ∃ s, TimelyRun s ∧ s.main = .blocked ∧ s.worker 0 = .signal ∧ ¬ s.LostWakeUp := by
  have htimely : ∀ {s : HandOff} {op : HandOffOp}, (∀ k, op ≠ .signal k) → s.Timely op :=
    fun h _ k _ => h k
  have h₁ : TimelyRun _ := .step .init (.forkingSet rfl) (htimely (by simp))
  have h₂ : TimelyRun _ := .step h₁ (.create rfl) (htimely (by simp))
  have h₃ : TimelyRun _ := .step h₂ (.lock rfl rfl) (htimely (by simp))
  have h₄ : TimelyRun _ := .step h₃ (.testSet rfl (by decide)) (htimely (by simp))
  have h₅ : TimelyRun _ := .step h₄ (.wait rfl) (htimely (by simp))
  have h₆ : TimelyRun _ := .step h₅ (.fork 0 rfl) (htimely (by simp))
  have h₇ : TimelyRun _ := .step h₆ (.clear 0 rfl) (htimely (by simp))
  exact ⟨_, h₇, rfl, rfl, (handOff_noLostWakeUp _ h₇).1⟩

/-- One call: the worker forks, clears the flag and signals while the main thread stands between
its test and its wait. -/
theorem lostWakeUp_reachable : ∃ s, Reachable s ∧ s.LostWakeUp := by
  have h₁ : Reachable _ := .step .init (.forkingSet rfl)
  have h₂ : Reachable _ := .step h₁ (.create rfl)
  have h₃ : Reachable _ := .step h₂ (.lock rfl rfl)
  have h₄ : Reachable _ := .step h₃ (.testSet rfl (by decide))
  have h₅ : Reachable _ := .step h₄ (.fork 0 rfl)
  have h₆ : Reachable _ := .step h₅ (.clear 0 rfl)
  have h₇ : Reachable _ := .step h₆ (.signal 0 rfl)
  have h₈ : Reachable _ := .step h₇ (.wait rfl)
  exact ⟨_, h₈, rfl, rfl, 0, rfl, rfl⟩

end HandOff

end Ubwt
