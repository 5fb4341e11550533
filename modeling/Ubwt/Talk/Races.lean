import Ubwt.Talk.Restart

/-!
# Ubwt.Talk.Races

The variables that the threads of a process share in `talk.c` are read outside of the global mutex,
and `count` is never protected by it. **No two threads are at one of them at the same time**, unless
both only read it (`race_free`): between two accesses that are not under the mutex lies a call of a
barrier, and of the callers of a barrier one at a time changes `count`. Only the `memset` of
`talk_init` is done by all threads at once, before any of them uses the variables.

What each place of a worker loads and stores is `WorkerPc.loads` and `WorkerPc.stores`; a step
leaves all else alone (`TalkWorker.Local.stores`), and does the same whatever else the variables
hold (`TalkWorker.Local.loads`).
-/

namespace Ubwt

open Lib Lib.Posix

/-! ### What a worker loads and stores -/

/-- `__talk_weak` and the fields of `__talk`. -/
inductive TalkVar
  | weak
  | imWeak (d : Dir)
  | weakTime (d : Dir)
  | count (d : Dir)
  deriving Repr, DecidableEq

/-- The value of a variable. -/
def TalkContext.value {n : Nat} (sh : TalkContext n) : TalkVar → Nat
  | .weak => sh.weak
  | .imWeak d => sh.imWeak d
  | .weakTime d => (sh.weakTime d).toNat
  | .count d => (sh.count d).toNat

namespace TalkContext

variable {n : Nat} {sh : TalkContext n} {d : Dir} {x : TalkVar}

theorem value_imWeak (hx : x ≠ .imWeak d) {k : Nat} :
    ({ sh with imWeak := Function.update sh.imWeak d k } : TalkContext n).value x = sh.value x := by
  cases x with
  | imWeak d' => exact Function.update_of_ne (fun heq => hx (congrArg TalkVar.imWeak heq)) _ _
  | weak | weakTime | count => rfl

theorem value_weakTime (hx : x ≠ .weakTime d) {t : UInt64} :
    ({ sh with weakTime := Function.update sh.weakTime d t } : TalkContext n).value x
      = sh.value x := by
  cases x with
  | weakTime d' =>
      have hne : d' ≠ d := fun heq => hx (congrArg TalkVar.weakTime heq)
      exact congrArg UInt64.toNat (Function.update_of_ne hne _ _)
  | weak | imWeak | count => rfl

theorem value_count (hx : x ≠ .count d) {count : UInt64} :
    ({ sh with count := Function.update sh.count d count } : TalkContext n).value x
      = sh.value x := by
  cases x with
  | count d' =>
      have hne : d' ≠ d := fun heq => hx (congrArg TalkVar.count heq)
      exact congrArg UInt64.toNat (Function.update_of_ne hne _ _)
  | weak | imWeak | weakTime => rfl

end TalkContext

namespace WorkerPc

/-- The variables that a worker of direction `d` stores next. -/
def stores (d : Dir) : WorkerPc → List TalkVar
  | talkInit => [.imWeak .straight, .imWeak .reverse, .weakTime .straight, .weakTime .reverse,
      .count .straight, .count .reverse]
  | resetWeak | storeWeak => [.weak]
  | resetImWeak | storeImWeak => [.imWeak d]
  | resetWeakTime | setWeakTime => [.weakTime d]
  | countSet | recount => [.count d]
  | _ => []

/-- The variables that it loads next. The count of a direction is its sender's. -/
def loads (v : TestEnv) (e : Endpoint) (d : Dir) : WorkerPc → List TalkVar
  | negotiate | streamStart => if d.role e = .sender then [.count d] else []
  | loadWeak | testWeak => [.weak]
  | loadImWeak => [.imWeak d]
  | testImWeak => [.imWeak (if v.asynchronous then .straight else d)]
  | testImWeakReverse => [.imWeak .reverse]
  | recount => [.imWeak d, .weakTime d, .count d]
  | _ => []

end WorkerPc

namespace TalkWorker

variable {v : TestEnv} {e : Endpoint} {c : Fin v.workers} {d : Dir} {rest : List Dir}
  {w w' : TalkWorker} {sh sh' sh₁ : TalkContext v.workers}

/-- A step leaves alone what its place does not store. -/
theorem Local.stores (h : Local v e c d w sh w' sh') {x : TalkVar} (hx : x ∉ w.pc.stores d) :
    sh'.value x = sh.value x := by
  cases h with
  | talkInit hpc =>
      rw [hpc] at hx
      cases x with
      | weak => rfl
      | imWeak d' | weakTime d' | count d' => cases d' <;> simp [WorkerPc.stores] at hx
  | resetWeak hpc | storeWeak hpc =>
      rw [hpc, WorkerPc.stores, List.mem_singleton] at hx
      cases x with
      | weak => exact absurd rfl hx
      | imWeak | weakTime | count => rfl
  | resetImWeak hpc | storeImWeak hpc =>
      rw [hpc, WorkerPc.stores, List.mem_singleton] at hx
      exact TalkContext.value_imWeak hx
  | resetWeakTime hpc | setWeakTime hpc =>
      rw [hpc, WorkerPc.stores, List.mem_singleton] at hx
      exact TalkContext.value_weakTime hx
  | countSet hpc =>
      rw [hpc, WorkerPc.stores, List.mem_singleton] at hx
      exact TalkContext.value_count hx
  | recount count hpc =>
      rw [hpc, WorkerPc.stores, List.mem_singleton] at hx
      by_cases hall : sh.imWeak d = (if v.asynchronous then v.workers / 2 else v.workers)
      · rw [if_pos hall]
        exact TalkContext.value_count hx
      · rw [if_neg hall]
  | enter | resetLock | resetUnlock | setLock | loadWeak | loadImWeak | setUnlock | testWeak
  | testImWeak | testImWeakReverse => rfl

/-- A step of the worker alone depends on the mutex and on what its place loads. -/
theorem Local.loads (h : Local v e c d w sh w' sh') (hmutex : sh₁.mutex = sh.mutex)
    (hload : ∀ x ∈ w.pc.loads v e d, sh₁.value x = sh.value x) :
    ∃ sh₁', Local v e c d w sh₁ w' sh₁' := by
  cases h with
  | talkInit hpc => exact ⟨_, .talkInit hpc⟩
  | enter hb => exact ⟨_, .enter hb⟩
  | countSet hpc => exact ⟨_, .countSet hpc⟩
  | resetLock hpc hm => exact ⟨_, .resetLock hpc (hmutex.trans hm)⟩
  | resetWeak hpc => exact ⟨_, .resetWeak hpc⟩
  | resetImWeak hpc => exact ⟨_, .resetImWeak hpc⟩
  | resetWeakTime hpc => exact ⟨_, .resetWeakTime hpc⟩
  | resetUnlock hpc => exact ⟨_, .resetUnlock hpc⟩
  | setLock hpc hm => exact ⟨_, .setLock hpc (hmutex.trans hm)⟩
  | loadWeak hpc =>
      have hweak : sh₁.weak = sh.weak := hload .weak (by simp [hpc, WorkerPc.loads])
      exact ⟨_, hweak ▸ Local.loadWeak hpc⟩
  | storeWeak hpc => exact ⟨_, .storeWeak hpc⟩
  | loadImWeak hpc =>
      have hweak : sh₁.imWeak d = sh.imWeak d := hload (.imWeak d) (by simp [hpc, WorkerPc.loads])
      exact ⟨_, hweak ▸ Local.loadImWeak hpc⟩
  | storeImWeak hpc => exact ⟨_, .storeImWeak hpc⟩
  | setWeakTime hpc => exact ⟨_, .setWeakTime hpc⟩
  | setUnlock hpc => exact ⟨_, .setUnlock hpc⟩
  | testWeak hpc =>
      have hweak : sh₁.weak = sh.weak := hload .weak (by simp [hpc, WorkerPc.loads])
      exact ⟨_, hweak ▸ Local.testWeak hpc⟩
  | testImWeak hpc =>
      have hweak := hload (.imWeak (if v.asynchronous then .straight else d)) (by
        simp [hpc, WorkerPc.loads])
      refine ⟨sh₁, ?_⟩
      have heq : w.testImWeak v e d sh₁.imWeak = w.testImWeak v e d sh.imWeak := by
        unfold TalkWorker.testImWeak
        cases ha : v.asynchronous with
        | true =>
            rw [ha] at hweak
            have hstraight : sh₁.imWeak .straight = sh.imWeak .straight := hweak
            rw [if_pos rfl, if_pos rfl, hstraight]
        | false =>
            rw [ha] at hweak
            have hown : sh₁.imWeak d = sh.imWeak d := hweak
            rw [if_neg Bool.false_ne_true, if_neg Bool.false_ne_true, hown]
      exact heq ▸ Local.testImWeak hpc
  | testImWeakReverse hpc =>
      have hweak : sh₁.imWeak .reverse = sh.imWeak .reverse :=
        hload (.imWeak .reverse) (by simp [hpc, WorkerPc.loads])
      exact ⟨_, hweak ▸ Local.testImWeakReverse hpc⟩
  | recount count hpc => exact ⟨_, .recount count hpc⟩

/-- What a worker says, and where it goes from there, depends on what its place loads. -/
theorem sent_loads {step : TalkStep} {count count₁ : Dir → UInt64} (hx : w.exchange = some step)
    (hspeaks : d.role e = step.speaker) (fill : List UInt8)
    (fillSize : fill.length = talkPayloadMaxSize - talkHdrSize)
    (hload : .count d ∈ w.pc.loads v e d → count₁ d = count d) :
    w.sent v e c d rest count₁ = w.sent v e c d rest count ∧
      talkSay (v.hosts e) v.iter v.size (w.data v c d count₁ fill fillSize) step
        = talkSay (v.hosts e) v.iter v.size (w.data v c d count fill fillSize) step := by
  rcases exchange_cases hx with ⟨hpc, rfl⟩ | ⟨hpc, rfl⟩ | ⟨hpc, rfl⟩ | ⟨hpc, rfl⟩ | ⟨hpc, rfl⟩ |
    ⟨hpc, rfl⟩ | ⟨hpc, rfl⟩ | ⟨hpc, rfl⟩
  case inr.inr.inl =>
    have hsender : d.role e = .sender := hspeaks
    have heq : count₁ d = count d := hload (by
      rw [hpc, WorkerPc.loads, if_pos hsender]
      exact List.mem_singleton_self _)
    simp [TalkWorker.sent, data, hpc, heq]
  all_goals simp [TalkWorker.sent, data, hpc]

theorem heard_loads {step : TalkStep} {count count₁ : Dir → UInt64} {latency : UInt32}
    {pkt : TalkPayload} (hx : w.exchange = some step) (hlistens : d.role e ≠ step.speaker)
    (hload : .count d ∈ w.pc.loads v e d → count₁ d = count d) :
    w.heard v e d rest count₁ latency pkt = w.heard v e d rest count latency pkt := by
  rcases exchange_cases hx with ⟨hpc, rfl⟩ | ⟨hpc, rfl⟩ | ⟨hpc, rfl⟩ | ⟨hpc, rfl⟩ | ⟨hpc, rfl⟩ |
    ⟨hpc, rfl⟩ | ⟨hpc, rfl⟩ | ⟨hpc, rfl⟩
  case inr.inr.inr.inl =>
    have hsender : d.role e = .sender := by
      cases hrole : d.role e with
      | sender => rfl
      | receiver => exact absurd hrole hlistens
    have heq : count₁ d = count d := hload (by
      rw [hpc, WorkerPc.loads, if_pos hsender]
      exact List.mem_singleton_self _)
    simp only [TalkWorker.heard, hpc, heq]
  all_goals simp [TalkWorker.heard, hpc]

end TalkWorker

/-! ### Who is where -/

namespace WorkerPc

variable {v : TestEnv} {e : Endpoint} {d : Dir} {pc : WorkerPc} {x : TalkVar}

/-- A store is the one of `talk_init`, or under the mutex, or that of an elected sender. -/
theorem stores_cases (h : x ∈ pc.stores d) : pc = .talkInit ∨
    (pc.holdsMutex = true ∧ (pc.mainSeg = 4 ∨ pc.mainSeg = 7) ∧ ∀ d', x ≠ .count d') ∨
      (pc.turn = .set ∧ x = .count d) := by
  cases pc <;> simp_all [stores, holdsMutex, mainSeg, turn]

/-- A load is under the mutex, or behind the increments of a stream, or that of the count of a
sender. -/
theorem loads_cases (h : x ∈ pc.loads v e d) :
    (pc.holdsMutex = true ∧ ∀ d', x ≠ .count d') ∨ (pc.reads = true ∧ ∀ d', x ≠ .count d') ∨
      (x = .count d ∧
        (pc.turn = .set ∨ d.role e = .sender ∧ (pc = .negotiate ∨ pc = .streamStart))) := by
  cases pc <;> simp_all [loads, holdsMutex, reads, mainSeg, turn]
  rcases h with rfl | rfl | rfl <;> simp

theorem barrier_of_access (h : x ∈ pc.stores d ∨ x ∈ pc.loads v e d) : pc.barrier v d = none := by
  cases pc <;> simp_all [stores, loads, barrier]

/-- No access is before the first barrier, but for the stores of `talk_init`. -/
theorem mainSeg_of_access (h : x ∈ pc.stores d ∨ x ∈ pc.loads v e d) (hpc : pc ≠ .talkInit) :
    0 < pc.mainSeg := by
  cases pc <;> simp_all [stores, loads, mainSeg]

theorem senderOnly_of_set (h : pc.turn = .set) : pc.senderOnly = true := by
  rcases of_turn_set h with rfl | rfl <;> rfl

/-- The calls before the resets or the increments of a stream are not those before the loads of
one. -/
theorem mainPassed_ne {p q : WorkerPc} {k l : Nat} {single : Bool}
    (hp : p.mainSeg = 4 ∨ p.mainSeg = 7) (hq : 8 ≤ q.mainSeg) :
    p.mainPassed single k ≠ q.mainPassed single l := by
  have hle := q.mainSeg_le
  unfold mainPassed
  cases single <;> dsimp only <;> rw [if_neg (by omega), if_neg (by omega)] <;> omega

theorem mainPassed_pos (h : 0 < pc.mainSeg) (single : Bool) (k : Nat) :
    0 < pc.mainPassed single k := by
  unfold mainPassed
  cases single <;> dsimp only <;> split <;> omega

end WorkerPc

namespace Crew

variable {v : TestEnv} {e : Endpoint} {c j : Fin v.workers} {d d' : Dir} {rest rest' : List Dir}
  {ws : Fin v.workers → TalkWorker} {sh : TalkContext v.workers}

/-- Two workers behind their first barrier that wait at none have made the same calls of it. -/
theorem level (h : Crew v e ws sh) (hd : (ws c).dirs = d :: rest) (hd' : (ws j).dirs = d' :: rest')
    (hw : (ws c).waiting = false) (hw' : (ws j).waiting = false) (hpos : 0 < (ws c).pc.mainSeg)
    (hpos' : 0 < (ws j).pc.mainSeg) :
    (v.asynchronous = false → d' = d) ∧
      (ws j).pc.mainPassed (v.single e d) (ws j).k = (ws c).pc.mainPassed (v.single e d) (ws c).k := by
  have hat := (h.shape c).now d rest hd
  have hat' := (h.shape j).now d' rest' hd'
  have hpassed : 0 < (ws c).passed (v.mainBarrier d) := by
    rw [hat.main]
    exact WorkerPc.mainPassed_pos hpos _ _
  have hpassed' : 0 < (ws j).passed (v.mainBarrier d') := by
    rw [hat'.main]
    exact WorkerPc.mainPassed_pos hpos' _ _
  have hsame : v.asynchronous = false → d' = d := by
    intro ha
    have hc := (h.shape c).suffix
    have hj := (h.shape j).suffix
    rw [TestEnv.dirs_sync ha j c, hd'] at hj
    rw [hd] at hc
    rcases List.suffix_or_suffix_of_suffix hc hj with hs | hs
    · rcases List.suffix_cons_iff.mp hs with heq | hlater
      · exact (List.cons.inj heq).1.symm
      · exact absurd (hlater.subset (List.mem_cons_self ..)) (h.not_later hpassed hd')
    · rcases List.suffix_cons_iff.mp hs with heq | hlater
      · exact (List.cons.inj heq).1
      · exact absurd (hlater.subset (List.mem_cons_self ..)) (h.not_later hpassed' hd)
  refine ⟨hsame, ?_⟩
  have hboth : v.mainBarrier d' = v.mainBarrier d ∧ v.single e d' = v.single e d := by
    cases ha : v.asynchronous with
    | true => simp [TestEnv.mainBarrier, TestEnv.single, ha]
    | false =>
        rw [hsame ha]
        exact ⟨rfl, rfl⟩
  have heq := (h.meets (v.mainBarrier d)).eq (TestEnv.joins_main d j) (TestEnv.joins_main d c)
    (TalkWorker.waitsAt_of_waiting hw' _) (TalkWorker.waitsAt_of_waiting hw _)
  rw [← hat.main, ← heq, ← hboth.1, ← hboth.2]
  exact hat'.main.symm

/-- Nobody is at the count of a stream while a worker sets the count. -/
theorem set_apart (h : Crew v e ws sh) (hd : (ws c).dirs = d :: rest)
    (hd' : (ws j).dirs = d :: rest') (hw : (ws c).waiting = false) (hw' : (ws j).waiting = false)
    (hrole : d.role e = .sender) (hset : (ws c).pc.turn = .set)
    (huse : (ws j).pc = .negotiate ∨ (ws j).pc = .streamStart) : False := by
  have hat := (h.shape c).now d rest hd
  have hat' := (h.shape j).now d rest' hd'
  have heq : (ws c).passed (.dir d) = (ws j).passed (.dir d) :=
    (h.meets (.dir d)).eq ((h.shape c).joins hd) ((h.shape j).joins hd')
      (TalkWorker.waitsAt_of_waiting hw _) (TalkWorker.waitsAt_of_waiting hw' _)
  rw [hat.passed_dir hrole, hat'.passed_dir hrole] at heq
  rcases WorkerPc.of_turn_set hset with hpc | hpc <;> rcases huse with hpc' | hpc' <;>
    rw [hpc, hpc'] at heq <;> split at heq <;>
    simp [WorkerPc.sidePassed, WorkerPc.sideSeg, WorkerPc.mainPassed, WorkerPc.mainSeg] at heq <;>
    omega

end Crew

/-! ### The races -/

namespace TalkTest

variable {v : TestEnv} {s : TalkTest v.workers}

/-- **Two threads are never at one variable at the same time**, one of them to store it, but for
`talk_init`. -/
def RaceFree (s : TalkTest v.workers) : Prop :=
  ∀ e c c' d d' rest rest' x, c ≠ c' → (s.worker e c).dirs = d :: rest →
    (s.worker e c').dirs = d' :: rest' → x ∈ (s.worker e c).pc.stores d →
    x ∈ (s.worker e c').pc.stores d' ∨ x ∈ (s.worker e c').pc.loads v e d' →
      (s.worker e c).pc = .talkInit ∧ (s.worker e c').pc = .talkInit

end TalkTest

/-- **There are no data races** on the variables of `talk.c` after `talk_init`, for every accepted
command line, in every state that the workers of both endpoints can reach. -/
theorem race_free {env : Env} {args : List CString} {cfg : Config}
    (h : configInit env args = .ok cfg) {v : TestEnv} (hv : v.Configured cfg)
    {election : v.Election} {s : TalkTest v.workers} (hs : s.Reaches cfg election) :
    s.RaceFree := by
  have hopt := configInit_optInv h
  intro e c c' d d' rest rest' x hne hd hd' hstore haccess
  have hcrew := hs.reachable.inv.crew e
  have hidle : ∀ {c d rest}, (s.worker e c).dirs = d :: rest →
      x ∈ (s.worker e c).pc.stores d ∨ x ∈ (s.worker e c).pc.loads v e d →
        (s.worker e c).waiting = false := by
    intro c d rest hd haccess
    by_contra hw
    have hb := ((hcrew.shape c).now d rest hd).barrier (Bool.of_not_eq_false hw)
    rw [WorkerPc.barrier_of_access haccess] at hb
    cases hb
  have hw := hidle hd (.inl hstore)
  have hw' := hidle hd' haccess
  -- While one of them is in `talk_init`, both are.
  by_cases hinit : (s.worker e c).pc = .talkInit
  · refine ⟨hinit, ?_⟩
    by_contra hinit'
    have hpos := WorkerPc.mainSeg_of_access haccess hinit'
    have hzero := hcrew.seg_of_fresh hd hw hinit hd'
    omega
  by_cases hinit' : (s.worker e c').pc = .talkInit
  · have hpos := WorkerPc.mainSeg_of_access (v := v) (e := e) (.inl hstore) hinit
    have hzero := hcrew.seg_of_fresh hd' hw' hinit' hd
    omega
  exfalso
  obtain ⟨hsame, hlevel⟩ := hcrew.level hd hd' hw hw'
    (WorkerPc.mainSeg_of_access (v := v) (e := e) (.inl hstore) hinit)
    (WorkerPc.mainSeg_of_access haccess hinit')
  rcases (WorkerPc.stores_cases hstore).resolve_left hinit with
    ⟨hmutex, hseg, hcount⟩ | ⟨hset, rfl⟩
  · have hother : (s.worker e c').pc.holdsMutex = false :=
      hcrew.mutex.other hmutex hne.symm
    have hnot : ¬(s.worker e c').pc.holdsMutex = true := by simp [hother]
    rcases haccess with hstore' | hload
    · rcases (WorkerPc.stores_cases hstore').resolve_left hinit' with ⟨hmutex', -⟩ | ⟨-, hx⟩
      · exact hnot hmutex'
      · exact hcount d' hx
    · rcases WorkerPc.loads_cases hload with ⟨hmutex', -⟩ | ⟨hreads, -⟩ | ⟨hx, -⟩
      · exact hnot hmutex'
      · -- A barrier lies between the resets, the increments and the loads.
        exact WorkerPc.mainPassed_ne hseg (of_decide_eq_true hreads) hlevel.symm
      · exact hcount d' hx
  · have hrole : d.role e = .sender :=
      ((hcrew.shape c).now d rest hd).sender (WorkerPc.senderOnly_of_set hset)
    -- One caller of the barrier is elected.
    have hone : ∀ {rest'}, (s.worker e c').dirs = d :: rest' → (s.worker e c').pc.turn ≠ .set := by
      intro rest' hd' hset'
      have hmem := (hcrew.shape c).mem hd
      obtain ⟨weakTime, done, hcounted⟩ := hs.counted hv hopt hrole ⟨c, hmem⟩
      obtain ⟨hround, helected⟩ :=
        (Stand.sees_set (p := (s.worker e c).stand v d) hset).mp (hcounted.sees c rest hd)
      obtain ⟨hround', helected'⟩ :=
        (Stand.sees_set (p := (s.worker e c').stand v d) hset').mp (hcounted.sees c' rest' hd')
      rw [← hround] at helected
      rw [← hround'] at helected'
      exact hne (helected.symm.trans helected')
    rcases haccess with hstore' | hload
    · rcases (WorkerPc.stores_cases hstore').resolve_left hinit' with ⟨-, -, hcount⟩ | ⟨hset', hx⟩
      · exact hcount d rfl
      · cases hx
        exact hone hd' hset'
    · rcases WorkerPc.loads_cases hload with ⟨-, hcount⟩ | ⟨-, hcount⟩ | ⟨hx, huse⟩
      · exact hcount d rfl
      · exact hcount d rfl
      · cases hx
        rcases huse with hset' | ⟨-, huse⟩
        · exact hone hd' hset'
        · exact hcrew.set_apart hd hd' hw hw' hrole hset huse

/-- `ubwt -A -W 2 connector 10.0.0.1`. -/
theorem race_free_bothWays :
    ∃ cfg, configInit ⟨false, false, fun _ _ => false⟩
        ["-A".toList, "-W".toList, "2".toList, "connector".toList, "10.0.0.1".toList] = .ok cfg
      ∧ envBothWays.Configured cfg ∧
      ∀ s : TalkTest envBothWays.workers, s.Reaches cfg electionBothWays → s.RaceFree := by
  obtain ⟨cfg, hcfg, hv⟩ : ∃ cfg, configInit ⟨false, false, fun _ _ => false⟩
        ["-A".toList, "-W".toList, "2".toList, "connector".toList, "10.0.0.1".toList] = .ok cfg
      ∧ envBothWays.Configured cfg := ⟨_, rfl, rfl, rfl, rfl, rfl, rfl, rfl, rfl⟩
  exact ⟨cfg, hcfg, hv, fun s hs => race_free hcfg hv hs⟩

end Ubwt
