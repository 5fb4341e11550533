import Mathlib.Data.Fintype.EquivFin
import Mathlib.Data.List.FinRange
import Mathlib.Logic.Function.Basic
import Mathlib.Logic.Relation
import Ubwt.Talk.Step

/-!
# Ubwt.Runtime.Pairing

Which worker of the connector is joined to which worker of the listener in asynchronous
TCP mode.

All connections go through one listening socket, and any worker that is blocked in
`accept()` takes any of them. **The pairing is kept in order by the two main threads**:
`runtime_do` creates the straight workers, waits until half of the workers are RUNNING, and
only then creates the reverse workers. A worker is RUNNING only after its connection has
been accepted and answered, so once a reverse worker exists at one end all the straight
workers of that end are joined, to straight workers, and by counting none is left at the
other end either.
-/

namespace Ubwt

/-! ### The main thread (runtime_do) -/

/-- The flags of a worker that `runtime_do()` waits for while it creates workers. -/
inductive TaskFlag
  | ready
  | running
  deriving Repr, DecidableEq

/-- A worker of one endpoint: `process_run(0)` or `process_run(1)`, and its number. -/
abbrev Worker (n : Nat) := Dir × Fin n

/-- Where a main thread is in `runtime_do()`, with `n` workers of each kind. -/
inductive RuntimePc (n : Nat)
  /-- About to create worker `k` of a kind. -/
  | create (d : Dir) (k : Nat)
  /-- In `current_children_has_flag()`: the records still to visit, and how many more have to
  have the flag. -/
  | wait (d : Dir) (flag : TaskFlag) (rest : List (Worker n)) (count : Nat)
  /-- All workers are created. -/
  | done

variable {n : Nat}

/-- The child workers in the list of records, newest first, when all workers up to kind
`d` exist. -/
def childWorkers (n : Nat) : Dir → List (Worker n)
  | .straight => (List.finRange n).reverse.map (Dir.straight, ·)
  | .reverse =>
      (List.finRange n).reverse.map (Dir.reverse, ·) ++
        (List.finRange n).reverse.map (Dir.straight, ·)

/-- How many workers have to have the flag: `worker_count / 2`, then `worker_count`. -/
def flagCount (n : Nat) : Dir → Nat
  | .straight => n
  | .reverse => n + n

/-- `_runtime_wait_worker_flag()`, at the start of a walk over the list. -/
def RuntimePc.startWait (d : Dir) (flag : TaskFlag) : RuntimePc n :=
  .wait d flag (childWorkers n d) (flagCount n d)

/-- One step of a main thread, which may create a worker. The flag of a record is read
when the walk is at the record. -/
inductive RuntimeStep (hasFlag : TaskFlag → Worker n → Bool) :
    RuntimePc n → Option (Worker n) → RuntimePc n → Prop
  | create {d k} (hk : k < n) :
      RuntimeStep hasFlag (.create d k) (some (d, ⟨k, hk⟩)) (.create d (k + 1))
  | created {d} : RuntimeStep hasFlag (.create d n) none (.startWait d .ready)
  | visitSet {d flag w rest count} (h : hasFlag flag w = true) :
      RuntimeStep hasFlag (.wait d flag (w :: rest) (count + 1)) none (.wait d flag rest count)
  | visitClear {d flag w rest count} (h : hasFlag flag w = false) :
      RuntimeStep hasFlag (.wait d flag (w :: rest) (count + 1)) none
        (.wait d flag rest (count + 1))
  | again {d flag count} :
      RuntimeStep hasFlag (.wait d flag [] (count + 1)) none (.startWait d flag)
  | ready {d rest} :
      RuntimeStep hasFlag (.wait d .ready rest 0) none (.startWait d .running)
  | straightRunning {rest} :
      RuntimeStep hasFlag (.wait .straight .running rest 0) none (.create .reverse 0)
  | reverseRunning {rest} :
      RuntimeStep hasFlag (.wait .reverse .running rest 0) none .done

/-! ### The workers (talk_init) -/

/-- Where a worker of the connector is: `net_connector_connect()` and what follows. -/
inductive ConnectorPc
  | absent
  | created
  | connected
  | sent
  | running
  | ended
  deriving Repr, DecidableEq

/-- Where a worker of the listener is: `net_listener_accept()` and what follows. -/
inductive ListenerPc
  | absent
  | accepting
  | accepted
  | received
  | replied
  | running
  | ended
  deriving Repr, DecidableEq

def ConnectorPc.hasFlag (p : ConnectorPc) : TaskFlag → Bool
  | .ready => p != .absent
  | .running => p == .running

def ListenerPc.hasFlag (p : ListenerPc) : TaskFlag → Bool
  | .ready => p != .absent
  | .running => p == .running

/-- The two processes: their main threads, their workers, and for each worker of the
listener the worker of the connector whose connection it accepted. -/
structure Pairing (n : Nat) where
  mainC : RuntimePc n
  mainL : RuntimePc n
  con : Worker n → ConnectorPc
  lis : Worker n → ListenerPc
  peer : Worker n → Option (Worker n)

namespace Pairing

/-- Both main threads are about to create their first worker. -/
def init (n : Nat) : Pairing n where
  mainC := .create .straight 0
  mainL := .create .straight 0
  con := fun _ => .absent
  lis := fun _ => .absent
  peer := fun _ => none

/-- One step of a main thread or of a worker. -/
inductive Step : Pairing n → Pairing n → Prop
  | mainC {s m} (h : RuntimeStep (fun f w => (s.con w).hasFlag f) s.mainC none m) :
      Step s { s with mainC := m }
  | forkC {s m w} (h : RuntimeStep (fun f w => (s.con w).hasFlag f) s.mainC (some w) m) :
      Step s { s with mainC := m, con := Function.update s.con w .created }
  | mainL {s m} (h : RuntimeStep (fun f w => (s.lis w).hasFlag f) s.mainL none m) :
      Step s { s with mainL := m }
  | forkL {s m w} (h : RuntimeStep (fun f w => (s.lis w).hasFlag f) s.mainL (some w) m) :
      Step s { s with mainL := m, lis := Function.update s.lis w .accepting }
  /-- `connect()`: the connection is in the queue of the listening socket. -/
  | connect {s} (w) (h : s.con w = .created) :
      Step s { s with con := Function.update s.con w .connected }
  /-- `write()` of the connect payload. -/
  | send {s} (w) (h : s.con w = .connected) :
      Step s { s with con := Function.update s.con w .sent }
  /-- `accept()`: any worker that is blocked in it takes any connection in the queue. -/
  | accept {s} (v w) (hv : s.lis v = .accepting) (hw : s.con w = .connected ∨ s.con w = .sent)
      (hfree : ∀ u, s.peer u ≠ some w) :
      Step s { s with
        lis := Function.update s.lis v .accepted
        peer := Function.update s.peer v (some w) }
  /-- `read()` of the connect payload. -/
  | receive {s} (v w) (hv : s.lis v = .accepted) (hp : s.peer v = some w) (hw : s.con w = .sent) :
      Step s { s with lis := Function.update s.lis v .received }
  /-- `write()` of the answer. -/
  | reply {s} (v) (hv : s.lis v = .received) :
      Step s { s with lis := Function.update s.lis v .replied }
  /-- `worker_task_running_set()` at the listener. -/
  | runL {s} (v) (hv : s.lis v = .replied) :
      Step s { s with lis := Function.update s.lis v .running }
  /-- `read()` of the answer and `worker_task_running_set()` at the connector. -/
  | runC {s} (v w) (hw : s.con w = .sent) (hp : s.peer v = some w)
      (hv : s.lis v = .replied ∨ s.lis v = .running ∨ s.lis v = .ended) :
      Step s { s with con := Function.update s.con w .running }
  /-- `worker_task_running_unset()` in `talk_destroy()`. -/
  | endC {s} (w) (h : s.con w = .running) : Step s { s with con := Function.update s.con w .ended }
  | endL {s} (v) (h : s.lis v = .running) : Step s { s with lis := Function.update s.lis v .ended }

/-- The states that can be reached from the start of both processes. -/
def Reachable (s : Pairing n) : Prop := Relation.ReflTransGen Step (init n) s

end Pairing

/-! ### What a main thread has seen -/

namespace RuntimePc

/-- The wait for the straight workers is over. -/
def pastStraight : RuntimePc n → Prop
  | create .reverse _ => True
  | wait .reverse _ _ _ => True
  | done => True
  | _ => False

/-- The worker is still to be created. -/
def unborn : RuntimePc n → Worker n → Prop
  | create .straight k, (.straight, i) => k ≤ i
  | create .straight _, (.reverse, _) => True
  | create .reverse k, (.reverse, i) => k ≤ i
  | wait .straight _ _ _, (.reverse, _) => True
  | _, _ => False

theorem pastStraight_of_born {m : RuntimePc n} {i : Fin n} (h : ¬m.unborn (.reverse, i)) :
    m.pastStraight := by
  cases m with
  | create d k | wait d flag rest count =>
      cases d with
      | straight => exact absurd trivial h
      | reverse => trivial
  | done => trivial

/-- A walk that waits for the straight workers counts workers that have been RUNNING. -/
def WalkInv (ran : Worker n → Bool) : RuntimePc n → Prop
  | wait .straight .running rest count =>
      ∃ visited, visited ++ rest = childWorkers n .straight ∧ n ≤ count + visited.countP ran
  | _ => True

theorem WalkInv.mono {ran ran' : Worker n → Bool} (h : ∀ w, ran w = true → ran' w = true)
    {m : RuntimePc n} (hw : m.WalkInv ran) : m.WalkInv ran' := by
  unfold WalkInv at hw ⊢
  split at hw
  · obtain ⟨visited, hsplit, hle⟩ := hw
    refine ⟨visited, hsplit, hle.trans (Nat.add_le_add_left ?_ _)⟩
    exact List.countP_mono_left (fun w _ => h w)
  · trivial

end RuntimePc

namespace RuntimeStep

variable {hasFlag : TaskFlag → Worker n → Bool} {ran : Worker n → Bool} {m m' : RuntimePc n}
  {w : Option (Worker n)}

theorem length_childWorkers_straight : (childWorkers n .straight).length = n := by
  simp [childWorkers]

/-- A new walk has counted nothing. -/
theorem walkInv_startWait (d : Dir) (flag : TaskFlag) :
    (RuntimePc.startWait d flag : RuntimePc n).WalkInv ran := by
  cases d with
  | reverse => trivial
  | straight =>
      cases flag with
      | ready => trivial
      | running => exact ⟨[], rfl, by simp [flagCount]⟩

theorem walkInv (h : RuntimeStep hasFlag m w m') (hw : m.WalkInv ran)
    (hran : ∀ u, hasFlag .running u = true → ran u = true) : m'.WalkInv ran := by
  cases h with
  | create | straightRunning | reverseRunning => trivial
  | created | again | ready => exact walkInv_startWait _ _
  | @visitSet d flag u rest count hu =>
      cases d with
      | reverse => trivial
      | straight =>
          cases flag with
          | ready => trivial
          | running =>
              obtain ⟨visited, hsplit, hle⟩ := hw
              refine ⟨visited ++ [u], by simpa using hsplit, ?_⟩
              simp [hran u hu]
              omega
  | @visitClear d flag u rest count hu =>
      cases d with
      | reverse => trivial
      | straight =>
          cases flag with
          | ready => trivial
          | running =>
              obtain ⟨visited, hsplit, hle⟩ := hw
              refine ⟨visited ++ [u], by simpa using hsplit, ?_⟩
              rw [List.countP_append]
              omega

/-- **What the wait for RUNNING establishes**: when a main thread goes past it, every
straight worker has been RUNNING. -/
theorem pastStraight (h : RuntimeStep hasFlag m w m') (hw : m.WalkInv ran)
    (hpast : m'.pastStraight) : m.pastStraight ∨ ∀ i, ran (Dir.straight, i) = true := by
  cases h with
  | @create d | @created d | @visitSet d | @visitClear d | @again d | @ready d =>
      cases d with
      | reverse => exact .inl trivial
      | straight => exact absurd hpast id
  | reverseRunning => exact .inl trivial
  | @straightRunning rest =>
      obtain ⟨visited, hsplit, hle⟩ := hw
      have hlen := congrArg List.length hsplit
      rw [List.length_append, length_childWorkers_straight] at hlen
      have hcount := List.countP_le_length (p := ran) (l := visited)
      have hall : visited.countP ran = visited.length := by omega
      refine .inr (fun i => List.countP_eq_length.mp hall (Dir.straight, i) ?_)
      have hrest : rest = [] := List.length_eq_zero_iff.mp (by omega)
      rw [hrest, List.append_nil] at hsplit
      rw [hsplit]
      simp [childWorkers]

/-- Each worker is created once. -/
theorem unborn (h : RuntimeStep hasFlag m w m') {u : Worker n} (hu : m'.unborn u) :
    m.unborn u ∧ w ≠ some u := by
  obtain ⟨du, i⟩ := u
  cases h with
  | @create d k hk =>
      cases d <;> cases du
      · have hle : k + 1 ≤ i.val := hu
        refine ⟨Nat.le_of_succ_le hle, ?_⟩
        intro heq
        cases heq
        exact Nat.lt_irrefl _ hle
      · exact ⟨trivial, by simp⟩
      · exact absurd hu id
      · have hle : k + 1 ≤ i.val := hu
        refine ⟨Nat.le_of_succ_le hle, ?_⟩
        intro heq
        cases heq
        exact Nat.lt_irrefl _ hle
  | @created d | @visitSet d | @visitClear d | @again d | @ready d =>
      cases d <;> cases du <;> first | exact ⟨trivial, by simp⟩ | exact absurd hu id
  | straightRunning =>
      cases du with
      | straight => exact absurd hu id
      | reverse => exact ⟨trivial, by simp⟩
  | reverseRunning => exact absurd hu id

theorem fork_unborn {u : Worker n} (h : RuntimeStep hasFlag m (some u) m') : m.unborn u := by
  cases h with
  | @create d k hk => cases d <;> exact Nat.le_refl k

end RuntimeStep

/-! ### The invariant -/

/-- The worker has been RUNNING. -/
def ConnectorPc.ran (p : ConnectorPc) : Bool := p == .running || p == .ended

def ListenerPc.ran (p : ListenerPc) : Bool := p == .running || p == .ended

/-- The worker has accepted a connection. -/
def ListenerPc.joined (p : ListenerPc) : Bool := p != .absent && p != .accepting

theorem ConnectorPc.ran_of_hasFlag {p : ConnectorPc} (h : p.hasFlag .running = true) :
    p.ran = true := by
  cases p <;> first | rfl | cases h

theorem ListenerPc.ran_of_hasFlag {p : ListenerPc} (h : p.hasFlag .running = true) :
    p.ran = true := by
  cases p <;> first | rfl | cases h

theorem ListenerPc.joined_of_ran {p : ListenerPc} (h : p.ran = true) : p.joined = true := by
  cases p <;> first | rfl | cases h

namespace Pairing

/-- What holds at every moment. `doneC` and `doneL` are what the two waits are for. -/
structure Inv (s : Pairing n) : Prop where
  inj : ∀ u v w, s.peer u = some w → s.peer v = some w → u = v
  kind : ∀ v w, s.peer v = some w → v.1 = w.1
  joined : ∀ v, (s.peer v).isSome = (s.lis v).joined
  ran : ∀ w, (s.con w).ran = true → ∃ v, s.peer v = some w
  unbornC : ∀ w, s.mainC.unborn w → s.con w = .absent
  unbornL : ∀ v, s.mainL.unborn v → s.lis v = .absent
  doneC : s.mainC.pastStraight → ∀ i, ∃ v, s.peer v = some (.straight, i)
  doneL : s.mainL.pastStraight → ∀ i, ∃ w, s.peer (.straight, i) = some w
  walkC : s.mainC.WalkInv (fun w => (s.con w).ran)
  walkL : s.mainL.WalkInv (fun w => (s.lis w).ran)

variable {s s' : Pairing n}

theorem inv_init : (init n).Inv where
  inj := fun _ _ _ h => by cases h
  kind := fun _ _ h => by cases h
  joined := fun _ => rfl
  ran := fun _ h => by cases h
  unbornC := fun _ _ => rfl
  unbornL := fun _ _ => rfl
  doneC := fun h => absurd h id
  doneL := fun h => absurd h id
  walkC := trivial
  walkL := trivial

theorem Inv.bornC (h : s.Inv) {w : Worker n} (hw : s.con w ≠ .absent) : ¬s.mainC.unborn w :=
  fun hun => hw (h.unbornC w hun)

theorem Inv.bornL (h : s.Inv) {v : Worker n} (hv : s.lis v ≠ .absent) : ¬s.mainL.unborn v :=
  fun hun => hv (h.unbornL v hun)

/-- **The counting argument at the connector's end**: past the wait of the connector, every
straight worker of the listener is joined, to one of the connector's straight workers. -/
theorem Inv.straight_joined_of_mainC (h : s.Inv) (hpast : s.mainC.pastStraight) (i : Fin n) :
    ∃ w, s.peer (.straight, i) = some w := by
  choose v hv using h.doneC hpast
  have hkind : ∀ j, v j = (Dir.straight, (v j).2) := by
    intro j
    rw [← show (v j).1 = Dir.straight from h.kind _ _ (hv j)]
  have hinj : Function.Injective (fun j => (v j).2) := by
    intro j k hjk
    have hvjk : v j = v k := by rw [hkind j, hkind k]; exact congrArg (Prod.mk _) hjk
    have hw := hv j
    rw [hvjk, hv k] at hw
    exact (congrArg Prod.snd (Option.some.inj hw)).symm
  obtain ⟨j, hj⟩ := Finite.injective_iff_surjective.mp hinj i
  refine ⟨(.straight, j), ?_⟩
  rw [← hv j, hkind j]
  exact congrArg (fun k => s.peer (Dir.straight, k)) hj.symm

/-- **The counting argument at the listener's end**: past the wait of the listener, every
straight worker of the connector is joined. -/
theorem Inv.straight_joined_of_mainL (h : s.Inv) (hpast : s.mainL.pastStraight) (i : Fin n) :
    ∃ v, s.peer v = some (.straight, i) := by
  choose w hw using h.doneL hpast
  have hkind : ∀ j, w j = (Dir.straight, (w j).2) := by
    intro j
    rw [show Dir.straight = (w j).1 from h.kind _ _ (hw j)]
  have hinj : Function.Injective (fun j => (w j).2) := by
    intro j k hjk
    have hwjk : w j = w k := by rw [hkind j, hkind k]; exact congrArg (Prod.mk _) hjk
    have hv := hw j
    rw [hwjk] at hv
    exact congrArg Prod.snd (h.inj _ _ _ hv (hw k))
  obtain ⟨j, hj⟩ := Finite.injective_iff_surjective.mp hinj i
  refine ⟨(.straight, j), ?_⟩
  rw [hw j, hkind j]
  exact congrArg (fun k => some (Dir.straight, k)) hj

/-- `accept()` joins two workers of one kind. -/
theorem Inv.accept_kind (h : s.Inv) {v w : Worker n} (hv : s.lis v = .accepting)
    (hw : s.con w = .connected ∨ s.con w = .sent) (hfree : ∀ u, s.peer u ≠ some w) :
    v.1 = w.1 := by
  obtain ⟨dv, i⟩ := v
  obtain ⟨dw, j⟩ := w
  cases dv with
  | straight =>
      cases dw with
      | straight => rfl
      | reverse =>
          have hborn : ¬s.mainC.unborn (.reverse, j) := by
            rcases hw with hw | hw <;> exact h.bornC (by simp [hw])
          obtain ⟨w, hw⟩ :=
            h.straight_joined_of_mainC (RuntimePc.pastStraight_of_born hborn) i
          have hjoined := h.joined (.straight, i)
          rw [hw, hv] at hjoined
          cases hjoined
  | reverse =>
      cases dw with
      | reverse => rfl
      | straight =>
          have hborn : ¬s.mainL.unborn (.reverse, i) := h.bornL (by simp [hv])
          obtain ⟨u, hu⟩ :=
            h.straight_joined_of_mainL (RuntimePc.pastStraight_of_born hborn) j
          exact absurd hu (hfree u)

/-- A worker of the connector moves on. -/
theorem Inv.updateCon (h : s.Inv) (w : Worker n) (p : ConnectorPc) (hborn : ¬s.mainC.unborn w)
    (hmono : (s.con w).ran = true → p.ran = true)
    (hran : p.ran = true → ∃ v, s.peer v = some w) :
    Inv { s with con := Function.update s.con w p } where
  inj := h.inj
  kind := h.kind
  joined := h.joined
  ran := by
    intro u hu
    by_cases huw : u = w
    · subst huw
      exact hran (by simpa using hu)
    · exact h.ran u (by simpa [Function.update_of_ne huw] using hu)
  unbornC := by
    intro u hu
    by_cases huw : u = w
    · exact absurd (huw ▸ hu) hborn
    · simpa [Function.update_of_ne huw] using h.unbornC u hu
  unbornL := h.unbornL
  doneC := h.doneC
  doneL := h.doneL
  walkC := by
    refine h.walkC.mono ?_
    intro u hu
    by_cases huw : u = w
    · subst huw
      simpa using hmono hu
    · simpa [Function.update_of_ne huw] using hu
  walkL := h.walkL

/-- A worker of the listener moves on. -/
theorem Inv.updateLis (h : s.Inv) (v : Worker n) (p : ListenerPc) (hborn : ¬s.mainL.unborn v)
    (hmono : (s.lis v).ran = true → p.ran = true) (hjoined : p.joined = (s.lis v).joined) :
    Inv { s with lis := Function.update s.lis v p } where
  inj := h.inj
  kind := h.kind
  joined := by
    intro u
    by_cases huv : u = v
    · subst huv
      simpa [hjoined] using h.joined u
    · simpa [Function.update_of_ne huv] using h.joined u
  ran := h.ran
  unbornC := h.unbornC
  unbornL := by
    intro u hu
    by_cases huv : u = v
    · exact absurd (huv ▸ hu) hborn
    · simpa [Function.update_of_ne huv] using h.unbornL u hu
  doneC := h.doneC
  doneL := h.doneL
  walkC := h.walkC
  walkL := by
    refine h.walkL.mono ?_
    intro u hu
    by_cases huv : u = v
    · subst huv
      simpa using hmono hu
    · simpa [Function.update_of_ne huv] using hu

/-- The main thread of the connector moves on. -/
theorem Inv.stepMainC (h : s.Inv) {m : RuntimePc n} {w : Option (Worker n)}
    (hm : RuntimeStep (fun f w => (s.con w).hasFlag f) s.mainC w m) :
    Inv { s with mainC := m } where
  inj := h.inj
  kind := h.kind
  joined := h.joined
  ran := h.ran
  unbornC := fun u hu => h.unbornC u (hm.unborn hu).1
  unbornL := h.unbornL
  doneC := by
    intro hpast i
    rcases hm.pastStraight h.walkC hpast with hbefore | hall
    · exact h.doneC hbefore i
    · exact h.ran _ (hall i)
  doneL := h.doneL
  walkC := hm.walkInv h.walkC (fun _ => ConnectorPc.ran_of_hasFlag)
  walkL := h.walkL

/-- The main thread of the listener moves on. -/
theorem Inv.stepMainL (h : s.Inv) {m : RuntimePc n} {w : Option (Worker n)}
    (hm : RuntimeStep (fun f w => (s.lis w).hasFlag f) s.mainL w m) :
    Inv { s with mainL := m } where
  inj := h.inj
  kind := h.kind
  joined := h.joined
  ran := h.ran
  unbornC := h.unbornC
  unbornL := fun u hu => h.unbornL u (hm.unborn hu).1
  doneC := h.doneC
  doneL := by
    intro hpast i
    rcases hm.pastStraight h.walkL hpast with hbefore | hall
    · exact h.doneL hbefore i
    · rw [← Option.isSome_iff_exists, h.joined]
      exact ListenerPc.joined_of_ran (hall i)
  walkC := h.walkC
  walkL := hm.walkInv h.walkL (fun _ => ListenerPc.ran_of_hasFlag)

/-- A worker accepts a connection. -/
theorem Inv.stepAccept (h : s.Inv) {v w : Worker n} (hv : s.lis v = .accepting)
    (hw : s.con w = .connected ∨ s.con w = .sent) (hfree : ∀ u, s.peer u ≠ some w) :
    Inv { s with
      lis := Function.update s.lis v .accepted
      peer := Function.update s.peer v (some w) } := by
  have hnone : s.peer v = none := by
    have hjoined := h.joined v
    rw [hv] at hjoined
    exact Option.not_isSome_iff_eq_none.mp (Bool.eq_false_iff.mp hjoined)
  -- No pair that existed is lost.
  have hkeep : ∀ u x, s.peer u = some x → Function.update s.peer v (some w) u = some x := by
    intro u x hu
    have huv : u ≠ v := by
      intro huv
      rw [huv, hnone] at hu
      cases hu
    rwa [Function.update_of_ne huv]
  -- A pair is the new one, or it existed.
  have hpair : ∀ u x, Function.update s.peer v (some w) u = some x →
      (u = v ∧ x = w) ∨ (u ≠ v ∧ s.peer u = some x) := by
    intro u x hu
    by_cases huv : u = v
    · subst huv
      rw [Function.update_self] at hu
      exact .inl ⟨rfl, (Option.some.inj hu).symm⟩
    · rw [Function.update_of_ne huv] at hu
      exact .inr ⟨huv, hu⟩
  exact {
    inj := by
      intro u u' x hu hu'
      rcases hpair u x hu with ⟨hu, hx⟩ | ⟨-, hold⟩
      · rcases hpair u' x hu' with ⟨hu', -⟩ | ⟨-, hold'⟩
        · rw [hu, hu']
        · exact absurd (hx ▸ hold') (hfree u')
      · rcases hpair u' x hu' with ⟨-, hx⟩ | ⟨-, hold'⟩
        · exact absurd (hx ▸ hold) (hfree u)
        · exact h.inj u u' x hold hold'
    kind := by
      intro u x hu
      rcases hpair u x hu with ⟨rfl, rfl⟩ | ⟨-, hu⟩
      · exact h.accept_kind hv hw hfree
      · exact h.kind u x hu
    joined := by
      intro u
      by_cases huv : u = v
      · subst huv
        simp [ListenerPc.joined]
      · simpa [Function.update_of_ne huv] using h.joined u
    ran := by
      intro u hu
      obtain ⟨x, hx⟩ := h.ran u hu
      exact ⟨x, hkeep x u hx⟩
    unbornC := h.unbornC
    unbornL := by
      intro u hu
      by_cases huv : u = v
      · exact absurd (huv ▸ hu) (h.bornL (by simp [hv]))
      · simpa [Function.update_of_ne huv] using h.unbornL u hu
    doneC := by
      intro hpast i
      obtain ⟨x, hx⟩ := h.doneC hpast i
      exact ⟨x, hkeep _ _ hx⟩
    doneL := by
      intro hpast i
      obtain ⟨x, hx⟩ := h.doneL hpast i
      exact ⟨x, hkeep _ _ hx⟩
    walkC := h.walkC
    walkL := by
      refine h.walkL.mono ?_
      intro u hu
      have huv : u ≠ v := by
        intro huv
        rw [huv, hv] at hu
        cases hu
      simpa [Function.update_of_ne huv] using hu }

/-- Every step keeps the invariant. -/
theorem Inv.step (h : s.Inv) (hstep : Step s s') : s'.Inv := by
  cases hstep with
  | mainC hm => exact h.stepMainC hm
  | mainL hm => exact h.stepMainL hm
  | @forkC m w hm =>
      have habs := h.unbornC w hm.fork_unborn
      refine (h.stepMainC hm).updateCon w .created (fun hun => (hm.unborn hun).2 rfl) ?_ ?_
      · intro hran
        rw [show ({ s with mainC := m } : Pairing n).con w = .absent from habs] at hran
        cases hran
      · intro hran
        cases hran
  | @forkL m v hm =>
      have habs := h.unbornL v hm.fork_unborn
      refine (h.stepMainL hm).updateLis v .accepting (fun hun => (hm.unborn hun).2 rfl) ?_ ?_
      · intro hran
        rw [show ({ s with mainL := m } : Pairing n).lis v = .absent from habs] at hran
        cases hran
      · rw [show ({ s with mainL := m } : Pairing n).lis v = .absent from habs]
        rfl
  | connect w hw | send w hw =>
      refine h.updateCon w _ (h.bornC (by simp [hw])) ?_ ?_
      · simp [hw, ConnectorPc.ran]
      · simp [ConnectorPc.ran]
  | accept v w hv hw hfree => exact h.stepAccept hv hw hfree
  | receive v w hv hp hw | reply v hv | runL v hv | endL v hv =>
      refine h.updateLis v _ (h.bornL (by simp [hv])) ?_ ?_
      · simp [hv, ListenerPc.ran]
      · rw [hv]
        rfl
  | runC v w hw hp hv =>
      refine h.updateCon w _ (h.bornC (by simp [hw])) ?_ (fun _ => ⟨v, hp⟩)
      simp [ConnectorPc.ran]
  | endC w hw =>
      refine h.updateCon w _ (h.bornC (by simp [hw])) ?_ (fun _ => h.ran w ?_)
      · simp [ConnectorPc.ran]
      · simp [hw, ConnectorPc.ran]

theorem Reachable.inv (h : s.Reachable) : s.Inv := by
  induction h with
  | refl => exact inv_init
  | tail _ hstep ih => exact ih.step hstep

/-! ### The pairing -/

/-- **Asynchronous pairing.** In every reachable state each connection joins two workers of
one kind, of which one is a sender and the other a receiver. -/
theorem accepted_same_kind {n : Nat} {s : Pairing n} (h : s.Reachable) (v w : Worker n)
    (hpeer : s.peer v = some w) :
    v.1 = w.1 ∧ (w.1.role .connector = .sender ↔ v.1.role .listener = .receiver) := by
  have hkind := h.inv.kind v w hpeer
  refine ⟨hkind, ?_⟩
  rw [← hkind]
  cases v.1 <;> decide

/-- One worker of each kind: the straight ones run, and the listener has accepted the
connection of the reverse one. -/
theorem accepted_same_kind_reverse :
    ∃ s : Pairing 1, s.Reachable ∧ s.peer (.straight, 0) = some (.straight, 0) ∧
      s.peer (.reverse, 0) = some (.reverse, 0) ∧
      (Dir.reverse.role .connector = .sender ↔ Dir.reverse.role .listener = .receiver) := by
  -- Both ends create the straight worker, which gets a connection and runs.
  obtain ⟨s, hs, hmainC, hmainL, hcon, hlis, hpeer⟩ : ∃ s : Pairing 1, s.Reachable ∧
      s.mainC = .create .straight 1 ∧ s.mainL = .create .straight 1 ∧
      s.con = Function.update (fun _ => .absent) (.straight, 0) .running ∧
      s.lis = Function.update (fun _ => .absent) (.straight, 0) .running ∧
      s.peer = Function.update (fun _ => none) (.straight, 0) (some (.straight, 0)) :=
    by
    have hforked := ((Relation.ReflTransGen.refl (r := Step) (a := init 1)).tail
      (.forkC (.create (k := 0) Nat.one_pos))).tail (.forkL (.create (k := 0) Nat.one_pos))
    have haccepted := ((hforked.tail (.connect (.straight, 0) rfl)).tail
      (.send (.straight, 0) rfl)).tail
      (.accept (.straight, 0) (.straight, 0) rfl (.inr rfl) (fun _ h => by cases h))
    have hreplied := (haccepted.tail (.receive (.straight, 0) (.straight, 0) rfl rfl rfl)).tail
      (.reply (.straight, 0) rfl)
    have hruns := (hreplied.tail (.runL (.straight, 0) rfl)).tail
      (.runC (.straight, 0) (.straight, 0) rfl rfl (.inr (.inl rfl)))
    exact ⟨_, hruns, rfl, rfl, by simp [init], by simp [init], rfl⟩
  have hflagC : ∀ flag, (s.con (.straight, 0)).hasFlag flag = true := by
    intro flag
    rw [hcon]
    cases flag <;> rfl
  have hflagL : ∀ flag, (s.lis (.straight, 0)).hasFlag flag = true := by
    intro flag
    rw [hlis]
    cases flag <;> rfl
  -- The main threads have waited for it, and create the reverse worker.
  have hwaitC := (((((hs.tail (.mainC (by rw [hmainC]; exact .created))).tail
    (.mainC (.visitSet (hflagC _)))).tail (.mainC .ready)).tail
    (.mainC (.visitSet (hflagC _)))).tail (.mainC .straightRunning)).tail
    (.forkC (.create (k := 0) Nat.one_pos))
  have hwaitL := (((((hwaitC.tail (.mainL (by rw [hmainL]; exact .created))).tail
    (.mainL (.visitSet (hflagL _)))).tail (.mainL .ready)).tail
    (.mainL (.visitSet (hflagL _)))).tail (.mainL .straightRunning)).tail
    (.forkL (.create (k := 0) Nat.one_pos))
  have hconnect := hwaitL.tail (.connect (.reverse, 0) rfl)
  have hreverse := hconnect.tail (.accept (.reverse, 0) (.reverse, 0) rfl (.inl rfl) fun u hu => by
    change s.peer u = some (.reverse, 0) at hu
    rw [hpeer, Function.update_apply] at hu
    split at hu <;> cases hu)
  refine ⟨_, hreverse, ?_, rfl, (accepted_same_kind hreverse (.reverse, 0) (.reverse, 0) rfl).2⟩
  show Function.update s.peer (.reverse, 0) (some (.reverse, 0)) (.straight, 0) = _
  rw [Function.update_of_ne (by decide), hpeer]
  rfl

end Pairing

end Ubwt
