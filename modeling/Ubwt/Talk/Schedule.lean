import Ubwt.Talk.Workers

/-!
# Ubwt.Talk.Schedule

The steps of `TalkTest` as a function of what the scheduler picks, so that a run can be
evaluated (`TalkTest.run`). **What is evaluated is a run** (`reachable_of_run`).
-/

namespace Ubwt

open Lib

namespace TalkWorker

variable (v : TestEnv) (e : Endpoint) (c : Fin v.workers) (d : Dir)

/-- The step of the worker alone, if there is one. -/
def localNext (w : TalkWorker) (sh : TalkContext v.workers) :
    Option (TalkWorker × TalkContext v.workers) :=
  match w.pc with
  | .talkInit =>
      some ({ w with pc := .initWait },
        { sh with imWeak := fun _ => 0, weakTime := fun _ => 0, count := fun _ => 0 })
  | .countSet =>
      some ({ w with pc := .countSync },
        { sh with count := Function.update sh.count d v.countCurrent })
  | .resetLock =>
      if sh.mutex = none then some ({ w with pc := .resetWeak }, { sh with mutex := some c })
      else none
  | .resetWeak => some ({ w with pc := .resetImWeak }, { sh with weak := 0 })
  | .resetImWeak =>
      some ({ w with pc := .resetWeakTime }, { sh with imWeak := Function.update sh.imWeak d 0 })
  | .resetWeakTime =>
      some ({ w with pc := .resetUnlock }, { sh with weakTime := Function.update sh.weakTime d 0 })
  | .resetUnlock => some ({ w with pc := .startWait }, { sh with mutex := none })
  | .setLock =>
      if sh.mutex = none then some ({ w with pc := .loadWeak }, { sh with mutex := some c })
      else none
  | .loadWeak => some ({ w with pc := .storeWeak, acc := sh.weak }, sh)
  | .storeWeak => some ({ w with pc := .loadImWeak }, { sh with weak := w.acc + 1 })
  | .loadImWeak => some ({ w with pc := .storeImWeak, acc := sh.imWeak d }, sh)
  | .storeImWeak =>
      some ({ w with pc := .setWeakTime },
        { sh with imWeak := Function.update sh.imWeak d (w.acc + 1) })
  | .setWeakTime =>
      some ({ w with pc := .setUnlock },
        { sh with weakTime := Function.update sh.weakTime d w.time })
  | .setUnlock => some ({ w with pc := .returnWait }, { sh with mutex := none })
  | .testWeak => some (if 0 < sh.weak then { w with pc := .testImWeak } else w.stop d, sh)
  | .testImWeak => some (w.testImWeak v e d sh.imWeak, sh)
  | .testImWeakReverse =>
      some (if sh.imWeak .reverse = v.workers / 2 then w.again e d else w.stop d, sh)
  | .recount =>
      some ({ w with pc := .recountSync },
        if sh.imWeak d = (if v.asynchronous then v.workers / 2 else v.workers)
          then { sh with count := Function.update sh.count d (sh.count d) } else sh)
  | _ => if (w.pc.barrier v d).isSome then some ({ w with waiting := true }, sh) else none

variable {v e c d}

theorem local_of_localNext {w w' : TalkWorker} {sh sh' : TalkContext v.workers}
    (h : w.localNext v e c d sh = some (w', sh')) : Local v e c d w sh w' sh' := by
  unfold localNext at h
  split at h
  case h_3 hpc | h_8 hpc =>
    split at h
    · cases h
      constructor <;> assumption
    · cases h
  case h_19 =>
    split at h
    · rename_i hb
      cases h
      obtain ⟨b, hb⟩ := Option.isSome_iff_exists.mp hb
      exact .enter hb
    · cases h
  all_goals
    cases h
    constructor
    assumption

end TalkWorker

/-! ### Runs -/

/-- What the scheduler picks: a worker, and what it does. -/
inductive TalkAct (n : Nat)
  | loc (e : Endpoint) (c : Fin n)
  | leave (e : Endpoint) (c : Fin n) (serial : Bool)
  | send (e : Endpoint) (c : Fin n)
  | recv (e : Endpoint) (c : Fin n)
  deriving Repr, DecidableEq

/-- What a worker can do; the first one gets what the barriers return to one of them. -/
def TalkAct.all (n : Nat) : List (TalkAct n) :=
  (List.finRange n).flatMap fun c => [Endpoint.connector, .listener].flatMap fun e =>
    [.loc e c, .leave e c (decide (c.val = 0)), .send e c, .recv e c]

instance (v : TestEnv) (b : BarrierId) (c : Fin v.workers) : Decidable (v.Joins b c) :=
  match b with
  | .all => inferInstanceAs (Decidable True)
  | .dir d => inferInstanceAs (Decidable (v.asynchronous = true → v.dirs c = [d]))

/-- The bytes of a packet whose buffer is not filled. -/
def zeroFill : List UInt8 := List.replicate (talkPayloadMaxSize - talkHdrSize) 0

theorem length_zeroFill : zeroFill.length = talkPayloadMaxSize - talkHdrSize :=
  List.length_replicate ..

namespace TalkTest

/-- The state after the step, if the worker can take it. -/
def exec (v : TestEnv) (s : TalkTest v.workers) : TalkAct v.workers → Option (TalkTest v.workers)
  | .loc e c =>
      match (s.worker e c).dirs with
      | [] => none
      | d :: _ =>
          if (s.worker e c).waiting then none
          else
            ((s.worker e c).localNext v e c d (s.shared e)).map fun next => s.set e c next.1 next.2
  | .leave e c serial =>
      match (s.worker e c).dirs with
      | [] => none
      | d :: _ =>
          match (s.worker e c).pc.barrier v d with
          | none => none
          | some b =>
              if (s.worker e c).waiting = true ∧ ∀ c', v.Joins b c' →
                  entered (fun c => (s.worker e c).passed b) (fun c => (s.worker e c).waitsAt v b) c
                    ≤ entered (fun c => (s.worker e c).passed b)
                        (fun c => (s.worker e c).waitsAt v b) c' then
                some (s.set e c
                  { (s.worker e c).proceed v e c d serial 0 with
                    waiting := false
                    passed := Function.update (s.worker e c).passed b
                      ((s.worker e c).passed b + 1) }
                  (s.shared e))
              else none
  | .send e c =>
      match (s.worker e c).dirs, (s.worker e c).exchange with
      | d :: rest, some step =>
          if d.role e = step.speaker then
            some ((s.set e c ((s.worker e c).sent v e c d rest (s.shared e).count)
              (s.shared e)).setChan c e (s.chan c e ++ [talkSay (v.hosts e) v.iter v.size
                ((s.worker e c).data v c d (s.shared e).count zeroFill length_zeroFill)
                step]))
          else none
      | _, _ => none
  | .recv e c =>
      match (s.worker e c).dirs, (s.worker e c).exchange, s.chan c e.peer with
      | d :: rest, some step, pkt :: more =>
          if d.role e ≠ step.speaker ∧ (talkCheck v.iter pkt step).isOk = true then
            some ((s.set e c ((s.worker e c).heard v e d rest (s.shared e).count 0 pkt)
              (s.shared e)).setChan c e.peer more)
          else none
      | _, _, _ => none

/-- Take the first step that is possible, `n` times at most. -/
def run (v : TestEnv) : Nat → TalkTest v.workers → TalkTest v.workers
  | 0, s => s
  | n + 1, s =>
      match (TalkAct.all v.workers).findSome? (s.exec v) with
      | none => s
      | some s' => run v n s'

variable {v : TestEnv} {s s' : TalkTest v.workers}

theorem step_of_exec {a : TalkAct v.workers} (h : s.exec v a = some s') : Step v s s' := by
  cases a with
  | loc e c =>
      simp only [exec] at h
      split at h
      · cases h
      · rename_i d rest hd
        split at h
        · cases h
        · rename_i hw
          obtain ⟨next, hnext, rfl⟩ := Option.map_eq_some_iff.mp h
          exact .loc e c hd (Bool.eq_false_of_not_eq_true hw) (TalkWorker.local_of_localNext hnext)
  | leave e c serial =>
      simp only [exec] at h
      split at h
      · cases h
      · rename_i d rest hd
        split at h
        · cases h
        · rename_i b hb
          split at h
          · rename_i hall
            cases h
            exact .leave e c serial 0 hd hall.1 hb hall.2
          · cases h
  | send e c =>
      simp only [exec] at h
      split at h
      · rename_i d rest step hd hx
        split at h
        · rename_i hrole
          cases h
          exact .send e c _ _ hd hx hrole
        · cases h
      · cases h
  | recv e c =>
      simp only [exec] at h
      split at h
      · rename_i d rest step pkt more hd hx hchan
        split at h
        · rename_i hok
          cases h
          refine .recv e c 0 hd hx hok.1 hchan ?_
          cases hcheck : talkCheck v.iter pkt step with
          | error err =>
              rw [hcheck] at hok
              cases hok.2
          | ok u => rfl
        · cases h
      · cases h

/-- **What is evaluated is a run.** -/
theorem steps_run (v : TestEnv) (n : Nat) (s : TalkTest v.workers) :
    Relation.ReflTransGen (Step v) s (s.run v n) := by
  induction n generalizing s with
  | zero => exact .refl
  | succ n ih =>
      rw [run]
      split
      · exact .refl
      · rename_i s' hfind
        obtain ⟨a, -, ha⟩ := List.exists_of_findSome?_eq_some hfind
        exact .head (step_of_exec ha) (ih s')

theorem reachable_run (n : Nat) (h : s.Reachable v) : (s.run v n).Reachable v :=
  h.trans (steps_run v n s)

end TalkTest

end Ubwt
