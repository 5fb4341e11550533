import Ubwt.Talk.Crew

/-!
# Ubwt.Talk.CrewStep

Every step of a worker keeps what holds of the workers of its endpoint (`Crew`).

A step touches a shared variable only in the places that `counter_cases`, `mutex_cases` and
`count_cases` name; everywhere else the counters stay as they are (`Ledger.quiet`).
-/

namespace Ubwt

open Lib

/-! ### What a step of the worker alone does -/

namespace TalkWorker

variable {v : TestEnv} {e : Endpoint} {c : Fin v.workers} {d : Dir} {w w' : TalkWorker}
  {sh sh' : TalkContext v.workers}

theorem aside_testImWeak (imWeak : Dir → Nat) : (w.testImWeak v e d imWeak).Aside := by
  unfold testImWeak
  split_ifs
  · exact aside_again
  · exact .of_pc (fun _ => rfl) rfl rfl
  · exact aside_again
  · exact aside_stop

theorem plain_verdict (hpc : w.pc = .testWeak ∨ w.pc = .testImWeak ∨ w.pc = .testImWeakReverse) :
    w.Plain := by
  rcases hpc with hpc | hpc | hpc <;> simp [Plain, done, hpc, WorkerPc.holdsMutex]

theorem aside_ite {p : Prop} [Decidable p] (h : w.Aside) (h' : w'.Aside) :
    (if p then w else w').Aside := by
  split <;> assumption

/-- A verdict, from the first test or from the last. -/
theorem aside_testWeak {p : Prop} [Decidable p] :
    (if p then { w with pc := .testImWeak } else w.stop d).Aside :=
  aside_ite (.of_pc (fun _ => rfl) rfl rfl) aside_stop

/-- What a step does with a counter: `talk_init` aside, it leaves it alone, sets it to zero, or
stores one more than what it has loaded. -/
theorem Local.counter_cases (hat : w.At v e c d) (h : Local v e c d w sh w' sh') (im : Bool) :
    w.pc = .talkInit ∨
    ((∀ d', sh'.counter im d' = sh.counter im d') ∧ w'.done im = w.done im) ∨
    ((∀ d', im = true → d' ≠ d → sh'.counter im d' = sh.counter im d') ∧ w'.waiting = w.waiting ∧
      w.pc.holdsMutex = true ∧ (w.pc.mainSeg = 4 ∧ sh'.counter im d = 0 ∨
        w.pc = .store im ∧ sh'.counter im d = w.acc + 1 ∧ w'.done im = true)) := by
  cases h with
  | talkInit h => exact .inl h
  | enter => exact .inr (.inl ⟨fun _ => rfl, rfl⟩)
  | countSet h | resetLock h _ | resetWeakTime h | resetUnlock h | setLock h _ | loadWeak h
  | loadImWeak h | setWeakTime h =>
      exact .inr (.inl ⟨fun _ => rfl, by simp [done, h]⟩)
  | setUnlock h =>
      have hweak := hat.adds (by rw [h]; rfl)
      exact .inr (.inl ⟨fun _ => rfl, by simp [done, h, hweak]⟩)
  | recount count h =>
      refine .inr (.inl ⟨?_, by simp [done, h]⟩)
      intro d'
      split_ifs <;> rfl
  | testWeak h =>
      refine .inr (.inl ⟨fun _ => rfl, ?_⟩)
      rw [(plain_verdict (.inl h)).1, aside_testWeak.1.1]
  | testImWeak h =>
      refine .inr (.inl ⟨fun _ => rfl, ?_⟩)
      rw [(plain_verdict (.inr (.inl h))).1, (aside_testImWeak _).1.1]
  | testImWeakReverse h =>
      refine .inr (.inl ⟨fun _ => rfl, ?_⟩)
      rw [(plain_verdict (.inr (.inr h))).1, (aside_ite aside_again aside_stop).1.1]
  | resetWeak h =>
      cases im with
      | true => exact .inr (.inl ⟨fun _ => rfl, by simp [done, h]⟩)
      | false =>
          exact .inr (.inr ⟨fun _ him => absurd him Bool.false_ne_true, rfl, by rw [h]; rfl,
            .inl ⟨by rw [h]; rfl, rfl⟩⟩)
  | storeWeak h =>
      cases im with
      | true => exact .inr (.inl ⟨fun _ => rfl, by simp [done, h]⟩)
      | false =>
          exact .inr (.inr ⟨fun _ him => absurd him Bool.false_ne_true, rfl, by rw [h]; rfl,
            .inr ⟨h, rfl, rfl⟩⟩)
  | resetImWeak h =>
      cases im with
      | false => exact .inr (.inl ⟨fun _ => rfl, by simp [done, h]⟩)
      | true =>
          refine .inr (.inr ⟨?_, rfl, by rw [h]; rfl, .inl ⟨by rw [h]; rfl, ?_⟩⟩)
          · intro d' _ hne
            exact Function.update_of_ne hne _ _
          · exact Function.update_self ..
  | storeImWeak h =>
      cases im with
      | false => exact .inr (.inl ⟨fun _ => rfl, by simp [done, h]⟩)
      | true =>
          refine .inr (.inr ⟨?_, rfl, by rw [h]; rfl, .inr ⟨h, ?_, rfl⟩⟩)
          · intro d' _ hne
            exact Function.update_of_ne hne _ _
          · exact Function.update_self ..

/-- What a step does with the mutex. -/
theorem Local.mutex_cases (h : Local v e c d w sh w' sh') :
    (sh'.mutex = sh.mutex ∧ w'.pc.holdsMutex = w.pc.holdsMutex) ∨
    (sh.mutex = none ∧ sh'.mutex = some c ∧ w'.pc.holdsMutex = true) ∨
    (w.pc.holdsMutex = true ∧ sh'.mutex = none ∧ w'.pc.holdsMutex = false) := by
  cases h with
  | resetLock h hm | setLock h hm => exact .inr (.inl ⟨hm, rfl, rfl⟩)
  | resetUnlock h | setUnlock h => exact .inr (.inr ⟨by rw [h]; rfl, rfl, rfl⟩)
  | testWeak h =>
      refine .inl ⟨rfl, ?_⟩
      rw [(plain_verdict (.inl h)).2, aside_testWeak.1.2]
  | testImWeak h =>
      refine .inl ⟨rfl, ?_⟩
      rw [(plain_verdict (.inr (.inl h))).2, (aside_testImWeak _).1.2]
  | testImWeakReverse h =>
      refine .inl ⟨rfl, ?_⟩
      rw [(plain_verdict (.inr (.inr h))).2, (aside_ite aside_again aside_stop).1.2]
  | recount count h =>
      refine .inl ⟨?_, by rw [h]; rfl⟩
      split_ifs <;> rfl
  | enter => exact .inl ⟨rfl, rfl⟩
  | talkInit h | countSet h | resetWeak h | resetImWeak h | resetWeakTime h | loadWeak h
  | storeWeak h | loadImWeak h | storeImWeak h | setWeakTime h =>
      exact .inl ⟨rfl, by rw [h]; rfl⟩

theorem Plain.ne_store (h : w.Plain) (im : Bool) : w.pc ≠ .store im := by
  intro hpc
  have hholds := h.2
  rw [hpc] at hholds
  cases im <;> cases hholds

/-- What an increment is about to add one to is what it has loaded. -/
theorem Local.loaded (h : Local v e c d w sh w' sh') (im : Bool) (hpc : w'.pc = .store im) :
    w'.acc = sh'.counter im d := by
  cases h with
  | loadWeak h =>
      cases im with
      | false => rfl
      | true => cases hpc
  | loadImWeak h =>
      cases im with
      | false => cases hpc
      | true => rfl
  | enter hb =>
      rw [show w.pc = .store im from hpc] at hb
      cases im <;> cases hb
  | testWeak h => exact absurd hpc (aside_testWeak.1.ne_store im)
  | testImWeak h => exact absurd hpc ((aside_testImWeak _).1.ne_store im)
  | testImWeakReverse h => exact absurd hpc ((aside_ite aside_again aside_stop).1.ne_store im)
  | _ => cases im <;> cases hpc

/-- What a step does with the counts: one is set around a barrier of its direction. -/
theorem Local.count_cases (h : Local v e c d w sh w' sh') :
    w.pc = .talkInit ∨ ∀ d', sh'.count d' = sh.count d' ∨
      d' = d ∧ (w.pc = .countSet ∨ w.pc = .recount) := by
  have hupdate : ∀ (count : UInt64) d',
      Function.update sh.count d count d' = sh.count d' ∨ d' = d := by
    intro count d'
    by_cases hd' : d' = d
    · exact .inr hd'
    · exact .inl (Function.update_of_ne hd' _ _)
  cases h with
  | talkInit h => exact .inl h
  | countSet h =>
      refine .inr fun d' => ?_
      exact (hupdate _ d').imp id fun hd' => ⟨hd', .inl h⟩
  | recount count h =>
      refine .inr fun d' => ?_
      split_ifs
      · exact (hupdate _ d').imp id fun hd' => ⟨hd', .inr h⟩
      · exact .inl rfl
      · exact (hupdate _ d').imp id fun hd' => ⟨hd', .inr h⟩
      · exact .inl rfl
  | _ => exact .inr fun _ => .inl rfl

/-- The worker does not get to the start of a stream by itself. -/
theorem Local.pc_ne (h : Local v e c d w sh w' sh') : w'.pc ≠ .streamStart := by
  cases h with
  | enter hb =>
      intro hpc
      rw [show w.pc = .streamStart from hpc] at hb
      cases hb
  | testWeak h => exact aside_testWeak.2
  | testImWeak h => exact (aside_testImWeak _).2
  | testImWeakReverse h => exact (aside_ite aside_again aside_stop).2
  | _ => nofun

end TalkWorker

/-! ### The crew -/

namespace Crew

variable {v : TestEnv} {e : Endpoint} {c : Fin v.workers} {d : Dir} {rest : List Dir}
  {ws : Fin v.workers → TalkWorker} {w' : TalkWorker} {sh sh' : TalkContext v.workers}

/-- No barrier is involved in the step. -/
theorem meets_quiet (h : Crew v e ws sh) (hpassed : w'.passed = (ws c).passed)
    (hw : (ws c).waiting = false) (b : BarrierId) :
    Meets (v.Joins b) (fun j => (Function.update ws c w' j).passed b)
      (fun j => (Function.update ws c w' j).waitsAt v b) := by
  refine (h.meets b).enter ?_ ?_
  · refine (Function.forall_update_iff ws fun j w => w.passed b = (ws j).passed b).mpr
      ⟨?_, fun _ _ => rfl⟩
    rw [hpassed]
  · refine (Function.forall_update_iff ws fun j w =>
      (ws j).waitsAt v b = true → w.waitsAt v b = true).mpr ⟨?_, fun _ _ => id⟩
    rw [TalkWorker.waitsAt_of_waiting hw]
    nofun

/-- While a worker is in `talk_init`, nobody has returned from a barrier. -/
theorem fresh (h : Crew v e ws sh) (hd : (ws c).dirs = d :: rest) (hw : (ws c).waiting = false)
    (hpc : (ws c).pc = .talkInit) (j : Fin v.workers) (d' : Dir) :
    (ws j).passed (v.mainBarrier d') = 0 := by
  have hle := h.meets (v.mainBarrier d') j c (TestEnv.joins_main d' j) (TestEnv.joins_main d' c)
  have hzero := ((h.shape c).now d rest hd).fresh hpc (v.mainBarrier d')
  simp only [entered, TalkWorker.waitsAt_of_waiting hw, hzero, Bool.toNat_false] at hle
  omega

/-- When a worker has been at the barrier of a direction, no other one has that direction still to
come. -/
theorem not_later (h : Crew v e ws sh) (hpos : 0 < (ws c).passed (v.mainBarrier d))
    {j : Fin v.workers} {d' : Dir} {rest' : List Dir} (hd' : (ws j).dirs = d' :: rest') :
    d ∉ rest' := by
  intro hmem
  obtain ⟨hmem', hne⟩ := (h.shape j).mem_rest hd' hmem
  have ha := TalkWorker.sync_of_ne ((h.shape j).mem hd') hmem' hne
  have hzero := (h.shape j).later d' rest' hd' d hmem
  have hwaits : (ws j).waitsAt v (v.mainBarrier d) = false := by
    by_contra hwaits
    obtain ⟨rest, hd, -⟩ := (h.shape j).of_waitsAt (Bool.of_not_eq_false hwaits)
    rw [TestEnv.connDir, ha, if_neg Bool.false_ne_true, hd'] at hd
    exact hne (List.cons.inj hd).1.symm
  have hle := h.meets (v.mainBarrier d) c j (TestEnv.joins_main d c) (TestEnv.joins_main d j)
  simp only [entered, hwaits, hzero, Bool.toNat_false] at hle
  omega

/-- While a worker is in one direction, nobody has returned from a barrier of another that it is
in. -/
theorem idle_other (h : Crew v e ws sh) (hd : (ws c).dirs = d :: rest)
    (hw : (ws c).waiting = false) (hpos : 0 < (ws c).passed (v.mainBarrier d)) {d' : Dir}
    (hne : v.mainBarrier d' ≠ v.mainBarrier d) (j : Fin v.workers)
    (hj : (ws j).tests (v.connDir j d') = true) : (ws j).passed (v.mainBarrier d') = 0 := by
  have ha : v.asynchronous = false := by
    by_contra ha
    exact hne (by simp [TestEnv.mainBarrier, Bool.of_not_eq_false ha])
  have hconn : ∀ c d, v.connDir c d = d := by simp [TestEnv.connDir, ha]
  have hdd : d' ≠ d := fun heq => hne (heq ▸ rfl)
  obtain ⟨restj, hdj⟩ := TalkWorker.dirs_of_tests hj
  rw [hconn] at hdj
  -- The worker `j` has not been at the barrier of `d` unless it is through with `d`.
  have hnot : d ∉ (ws j).dirs := by
    intro hmem
    rw [hdj] at hmem
    exact h.not_later hpos hdj ((List.mem_cons.mp hmem).resolve_left (Ne.symm hdd))
  -- So `d'` comes after `d`, and the worker `c` has not been at its barrier.
  have hsuffix : (ws j).dirs <:+ (ws c).dirs := by
    have hc := (h.shape c).suffix
    rw [TestEnv.dirs_sync ha c j] at hc
    rcases List.suffix_or_suffix_of_suffix (h.shape j).suffix hc with hs | hs
    · exact hs
    · exact absurd (hs.subset (hd ▸ List.mem_cons_self ..)) hnot
  have hrest : d' ∈ rest := by
    have hmem : d' ∈ (ws c).dirs := hsuffix.subset (hdj ▸ List.mem_cons_self ..)
    rw [hd] at hmem
    exact (List.mem_cons.mp hmem).resolve_left hdd
  have hzero := (h.shape c).later d rest hd d' hrest
  have hle := h.meets (v.mainBarrier d') j c (TestEnv.joins_main d' j) (TestEnv.joins_main d' c)
  simp only [entered, TalkWorker.waitsAt_of_waiting hw, hzero, Bool.toNat_false] at hle
  omega

/-- A counter that the step leaves alone. -/
theorem ledger_same (h : Crew v e ws sh) {im : Bool} {d' : Dir} (htested : v.Tested d')
    (hw : (ws c).waiting = false) (hdirs : w'.dirs = (ws c).dirs)
    (hpassed : w'.passed = (ws c).passed)
    (hdone : v.member im d' c = true → (ws c).tests (v.connDir c d') = true →
      w'.done im = (ws c).done im) :
    Ledger v e (Function.update ws c w') im d' (sh.counter im d') := by
  have htests : ∀ d, w'.tests d = (ws c).tests d := by
    intro d
    rw [TalkWorker.tests, hdirs, TalkWorker.tests]
  refine (h.counters im d' htested).quiet ?_ ?_ ?_ ?_
  · rw [hpassed]
  · rw [TalkWorker.waitsAt_of_waiting hw]
    exact fun hf => absurd hf Bool.false_ne_true
  · rw [htests]
    exact .inl
  · intro hm
    rw [htests]
    cases ht : (ws c).tests (v.connDir c d') with
    | false => rfl
    | true => rw [hdone hm ht]

/-- The counter that the worker sets to zero, and `weak` in the other direction. -/
theorem ledger_reset (h : Crew v e ws sh) (hd : (ws c).dirs = d :: rest)
    (hw : (ws c).waiting = false) (hdirs : w'.dirs = (ws c).dirs)
    (hpassed : w'.passed = (ws c).passed) (hw' : w'.waiting = false)
    (hseg : (ws c).pc.mainSeg = 4) (im : Bool) (d' : Dir) :
    Ledger v e (Function.update ws c w') im d' 0 := by
  have hreset : (ws c).passed (v.mainBarrier d) = (v.timetable e d).reset (ws c).k :=
    ((h.shape c).now d rest hd).passed_of_seg (r := 0) hseg (Nat.zero_le _)
  by_cases hmain : v.mainBarrier d' = v.mainBarrier d
  · have hconn := TestEnv.eq_connDir ((h.shape c).mem hd) hmain.symm
    refine Ledger.reset (c := c) (k := (ws c).k) (h.meets_quiet hpassed hw _) ?_ ?_
    · rw [Function.update_self, hw']
    · rw [Function.update_self, hpassed, hmain, hreset, hconn, TestEnv.timetable_connDir]
  · have hpos : 0 < (ws c).passed (v.mainBarrier d) := hreset ▸ Timetable.reset_pos
    exact Ledger.of_idle hdirs hpassed (h.idle_other hd hw hpos hmain)

/-- The counter that the worker adds one to, and `weak` in the other direction. -/
theorem ledger_add (h : Crew v e ws sh) (hd : (ws c).dirs = d :: rest)
    (hw : (ws c).waiting = false) (hdirs : w'.dirs = (ws c).dirs)
    (hpassed : w'.passed = (ws c).passed) (hw' : w'.waiting = false) {im : Bool}
    (hpc : (ws c).pc = .store im) (hdone : w'.done im = true) {d' : Dir} (htested : v.Tested d')
    (hmember : v.member im d' c = true) :
    Ledger v e (Function.update ws c w') im d' (sh.counter im d' + 1) := by
  have hat := (h.shape c).now d rest hd
  have hplace : (ws c).pc.mainSeg = 4 + 3 ∧ (ws c).pc.adds = true ∧ (ws c).pc.knowsWeak = true ∧
      (ws c).done im = false := by
    cases im <;> simp [hpc, WorkerPc.store, WorkerPc.mainSeg, WorkerPc.adds, WorkerPc.knowsWeak,
      TalkWorker.done]
  obtain ⟨hseg, hadds, hknows, hnot⟩ := hplace
  have hcount : (ws c).passed (v.mainBarrier d) = (v.timetable e d).count (ws c).k :=
    hat.passed_of_seg (r := 3) hseg (by decide)
  by_cases hmain : v.mainBarrier d' = v.mainBarrier d
  · have hconn := TestEnv.eq_connDir ((h.shape c).mem hd) hmain.symm
    refine (h.counters im d' htested).add (k := (ws c).k) (h.meets _) hw ?_ hmember ?_ ?_ hnot
      hpassed hdirs hw' hdone
    · rw [hmain, hcount, hconn, TestEnv.timetable_connDir]
    · rw [← hconn, ← hat.weak hknows, hat.adds hadds]
    · rw [TalkWorker.tests_eq hd, ← hconn]
      exact decide_eq_true rfl
  · have hpos : 0 < (ws c).passed (v.mainBarrier d) := by
      rw [hcount]
      exact Nat.lt_of_lt_of_le Timetable.reset_pos (Nat.le_add_right _ _)
    exact Ledger.of_idle hdirs hpassed (h.idle_other hd hw hpos hmain)

/-- A counter after a step of the worker alone. -/
theorem ledger_loc (h : Crew v e ws sh) (hd : (ws c).dirs = d :: rest)
    (hw : (ws c).waiting = false) (hstep : TalkWorker.Local v e c d (ws c) sh w' sh') (im : Bool)
    (d' : Dir) (htested : v.Tested d') :
    Ledger v e (Function.update ws c w') im d' (sh'.counter im d') := by
  obtain ⟨hdirs, hpassed, -⟩ := hstep.frame
  have hmem := (h.shape c).mem hd
  rcases hstep.counter_cases ((h.shape c).now d rest hd) im with
    hpc | ⟨hsame, hdone⟩ | ⟨hother, hwaiting, -, hset⟩
  · exact Ledger.of_idle hdirs hpassed (fun j _ => h.fresh hd hw hpc j d')
  · rw [hsame]
    exact h.ledger_same htested hw hdirs hpassed (fun _ _ => hdone)
  · by_cases hd' : im = true ∧ d' ≠ d
    · -- `im_weak` of a direction that the worker is not in.
      obtain ⟨rfl, hne⟩ := hd'
      rw [hother d' rfl hne]
      refine h.ledger_same htested hw hdirs hpassed ?_
      intro hm htests
      have hmem' : d' ∈ v.dirs c := by simpa [TestEnv.member] using hm
      rw [TalkWorker.tests_eq hd, TestEnv.connDir_of_mem hmem', decide_eq_true_eq] at htests
      exact absurd htests.symm hne
    · have hcounter : ∀ sh : TalkContext v.workers, sh.counter im d' = sh.counter im d := by
        intro sh
        cases im with
        | false => rfl
        | true => rw [show d' = d by simpa using hd']
      have hmember : v.member im d' c = true := by
        cases im with
        | false => rfl
        | true =>
            rw [show d' = d by simpa using hd']
            simp [TestEnv.member, hmem]
      have hw' := hwaiting.trans hw
      rcases hset with ⟨hseg, hzero⟩ | ⟨hpc, hadd, hdone⟩
      · rw [hcounter, hzero]
        exact h.ledger_reset hd hw hdirs hpassed hw' hseg im d'
      · rw [hcounter, hadd, h.loaded im c d rest hd hpc, ← hcounter]
        exact h.ledger_add hd hw hdirs hpassed hw' hpc hdone htested hmember

/-- While a worker is in `talk_init`, nobody is behind the first barrier. -/
theorem seg_of_fresh (h : Crew v e ws sh) (hd : (ws c).dirs = d :: rest)
    (hw : (ws c).waiting = false) (hpc : (ws c).pc = .talkInit) {j : Fin v.workers} {d' : Dir}
    {rest' : List Dir} (hd' : (ws j).dirs = d' :: rest') : (ws j).pc.mainSeg = 0 := by
  have hzero := h.fresh hd hw hpc j d'
  rw [((h.shape j).now d' rest' hd').main] at hzero
  unfold WorkerPc.mainPassed at hzero
  cases hs : v.single e d' <;> simp only [hs] at hzero <;> split at hzero <;> omega

/-- Nobody waits for the start of a stream while a worker sets the count of its direction. -/
theorem count_apart (h : Crew v e ws sh) (hd : (ws c).dirs = d :: rest)
    (hw : (ws c).waiting = false) (hpc : (ws c).pc = .countSet ∨ (ws c).pc = .recount)
    {j : Fin v.workers} {rest' : List Dir} (hd' : (ws j).dirs = d :: rest')
    (hpc' : (ws j).pc = .streamStart) : False := by
  have hat := (h.shape c).now d rest hd
  have hat' := (h.shape j).now d rest' hd'
  have hsender : d.role e = .sender := by
    refine hat.sender ?_
    rcases hpc with hpc | hpc <;> rw [hpc] <;> rfl
  have hx : (ws j).exchange = some (.streamStart (ws j).k) := by simp [TalkWorker.exchange, hpc']
  have hw' := hat'.waiting_of_exchange hx
  have heq : (ws c).passed (.dir d) = (ws j).passed (.dir d) :=
    (h.meets (.dir d)).eq ((h.shape c).joins hd) ((h.shape j).joins hd')
      (TalkWorker.waitsAt_of_waiting hw _) (TalkWorker.waitsAt_of_waiting hw' _)
  cases ha : v.asynchronous with
  | true =>
      rw [hat.side ha hsender, hat'.side ha hsender, hpc'] at heq
      rcases hpc with hpc | hpc <;>
        simp [hpc, WorkerPc.sidePassed, WorkerPc.sideSeg] at heq <;> omega
  | false =>
      have hmain : v.mainBarrier d = .dir d := by simp [TestEnv.mainBarrier, ha]
      have hsingle : v.single e d = true := by simp [TestEnv.single, ha, hsender]
      rw [← hmain, hat.main, hat'.main, hpc', hsingle] at heq
      rcases hpc with hpc | hpc <;>
        simp [hpc, WorkerPc.mainPassed, WorkerPc.mainSeg] at heq <;> omega

/-- **A step of a worker alone.** -/
theorem loc (h : Crew v e ws sh) (hd : (ws c).dirs = d :: rest) (hw : (ws c).waiting = false)
    (hstep : TalkWorker.Local v e c d (ws c) sh w' sh') :
    Crew v e (Function.update ws c w') sh' := by
  obtain ⟨hdirs, hpassed, -⟩ := hstep.frame
  have hat := (h.shape c).now d rest hd
  exact {
    shape := by
      refine (Function.forall_update_iff ws fun j w => w.Shape v e j).mpr
        ⟨?_, fun j _ => h.shape j⟩
      exact (h.shape c).loc hd hw (h.settled hd hw) hstep
    meets := h.meets_quiet hpassed hw
    mutex := by
      have hother : ∀ j, j ≠ c →
          (Function.update ws c w' j).pc.holdsMutex = (ws j).pc.holdsMutex := by
        intro j hj
        rw [Function.update_of_ne hj]
      rcases hstep.mutex_cases with ⟨hm, hholds⟩ | ⟨hnone, hm, hholds⟩ | ⟨hheld, hm, hholds⟩
      · rw [hm]
        refine h.mutex.congr ?_
        exact (Function.forall_update_iff ws fun j w => w.pc.holdsMutex = (ws j).pc.holdsMutex).mpr
          ⟨hholds, fun _ _ => rfl⟩
      · rw [hm]
        have hmutex := h.mutex
        rw [hnone] at hmutex
        refine hmutex.lock ?_ hother
        rw [Function.update_self, hholds]
      · rw [hm]
        refine h.mutex.unlock (i := c) hheld ?_ hother
        rw [Function.update_self, hholds]
    loaded := by
      intro im
      refine (Function.forall_update_iff ws fun _ w => ∀ d rest, w.dirs = d :: rest →
        w.pc = .store im → w.acc = sh'.counter im d).mpr ⟨?_, ?_⟩
      · intro d' rest' hd' hpc
        rw [hdirs, hd] at hd'
        cases hd'
        exact hstep.loaded im hpc
      · intro j hj d' rest' hd' hpc
        have hholds : (ws j).pc.holdsMutex = true := by
          rw [hpc]
          cases im <;> rfl
        rcases hstep.counter_cases hat im with hinit | ⟨hsame, -⟩ | ⟨-, -, hheld, -⟩
        · have hseg := h.seg_of_fresh hd hw hinit hd'
          rw [hpc] at hseg
          cases im <;> cases hseg
        · rw [hsame]
          exact h.loaded im j d' rest' hd' hpc
        · exact absurd (h.mutex.unique hholds hheld) hj
    counters := h.ledger_loc hd hw hstep
    count := by
      refine (Function.forall_update_iff ws fun _ w => ∀ d rest, w.dirs = d :: rest →
        d.role e = .sender → w.pc = .streamStart → w.count = (sh'.count d).toUInt32).mpr ⟨?_, ?_⟩
      · intro _ _ _ _ hpc
        exact absurd hpc hstep.pc_ne
      · intro j hj d' rest' hd' hsender hpc
        rcases hstep.count_cases with hinit | hcount
        · have hseg := h.seg_of_fresh hd hw hinit hd'
          rw [hpc] at hseg
          cases hseg
        · rcases hcount d' with hsame | ⟨rfl, hset⟩
          · rw [hsame]
            exact h.count j d' rest' hd' hsender hpc
          · exact (h.count_apart hd hw hset hd' hpc).elim }

/-- **A barrier lets a worker go.** -/
theorem leave (h : Crew v e ws sh) (hd : (ws c).dirs = d :: rest) (hw : (ws c).waiting = true)
    {b : BarrierId} (hb : (ws c).pc.barrier v d = some b)
    (hall : ∀ c', v.Joins b c' →
      entered (fun c => (ws c).passed b) (fun c => (ws c).waitsAt v b) c
        ≤ entered (fun c => (ws c).passed b) (fun c => (ws c).waitsAt v b) c')
    (serial : Bool) (now : UInt64) :
    Crew v e (Function.update ws c ((ws c).released v e c d b serial now)) sh := by
  have hwaits : ∀ b', (ws c).waitsAt v b' = decide (b = b') :=
    fun _ => TalkWorker.waitsAt_eq hd hw hb
  have hplain : ((ws c).released v e c d b serial now).Plain :=
    (TalkWorker.aside_proceed hb serial now).1
  exact {
    shape := by
      refine (Function.forall_update_iff ws fun j w => w.Shape v e j).mpr
        ⟨?_, fun j _ => h.shape j⟩
      exact (h.shape c).leave hd hb serial now
    meets := by
      intro b'
      by_cases hbb : b = b'
      · subst hbb
        refine (h.meets b).leave (i := c) ?_ hall ?_ ?_ ?_
        · rw [hwaits]
          exact decide_eq_true rfl
        · simp [TalkWorker.released, TalkWorker.passes]
        · rw [Function.update_self]
          exact TalkWorker.waitsAt_of_waiting rfl b
        · intro j hj
          simp [Function.update_of_ne hj]
      · refine (h.meets b').enter ?_ ?_
        · refine (Function.forall_update_iff ws fun j w => w.passed b' = (ws j).passed b').mpr
            ⟨?_, fun _ _ => rfl⟩
          exact Function.update_of_ne (Ne.symm hbb) _ _
        · refine (Function.forall_update_iff ws fun j w =>
            (ws j).waitsAt v b' = true → w.waitsAt v b' = true).mpr ⟨?_, fun _ _ => id⟩
          rw [hwaits, decide_eq_true_eq]
          exact fun heq => absurd heq hbb
    mutex := by
      refine h.mutex.congr ?_
      refine (Function.forall_update_iff ws fun j w =>
        w.pc.holdsMutex = (ws j).pc.holdsMutex).mpr ⟨?_, fun _ _ => rfl⟩
      rw [hplain.2]
      cases hpc : (ws c).pc <;> first | rfl | (rw [hpc] at hb; cases hb)
    loaded := by
      intro im
      refine (Function.forall_update_iff ws fun _ w => ∀ d rest, w.dirs = d :: rest →
        w.pc = .store im → w.acc = sh.counter im d).mpr ⟨?_, fun j _ => h.loaded im j⟩
      intro _ _ _ hpc
      exact absurd hpc (hplain.ne_store im)
    counters := by
      intro im d' htested
      exact (h.counters im d' htested).leave h.shape (h.meets _) htested hd hw hb hall serial now
    count := by
      refine (Function.forall_update_iff ws fun _ w => ∀ d rest, w.dirs = d :: rest →
        d.role e = .sender → w.pc = .streamStart → w.count = (sh.count d).toUInt32).mpr
          ⟨?_, fun j _ => h.count j⟩
      intro _ _ _ _ hpc
      exact absurd hpc ((TalkWorker.aside_proceed hb serial now).2) }

/-- **An exchange of a worker with its peer.** -/
theorem talk (h : Crew v e ws sh) (hw : (ws c).waiting = false) (hshape : w'.Shape v e c)
    (hpassed : w'.passed = (ws c).passed)
    (hlive : ∀ d, w'.tests d = true →
      (ws c).tests d = true ∨ (ws c).passed (v.mainBarrier d) = 0)
    (hplain : (ws c).Plain) (hplain' : w'.Plain)
    (hcount : ∀ d rest, w'.dirs = d :: rest → d.role e = .sender → w'.pc = .streamStart →
      w'.count = (sh.count d).toUInt32) :
    Crew v e (Function.update ws c w') sh where
  shape := (Function.forall_update_iff ws fun j w => w.Shape v e j).mpr
    ⟨hshape, fun j _ => h.shape j⟩
  meets := h.meets_quiet hpassed hw
  mutex := by
    refine h.mutex.congr ?_
    refine (Function.forall_update_iff ws fun j w =>
      w.pc.holdsMutex = (ws j).pc.holdsMutex).mpr ⟨?_, fun _ _ => rfl⟩
    rw [hplain.2, hplain'.2]
  loaded := by
    intro im
    refine (Function.forall_update_iff ws fun _ w => ∀ d rest, w.dirs = d :: rest →
      w.pc = .store im → w.acc = sh.counter im d).mpr ⟨?_, fun j _ => h.loaded im j⟩
    intro _ _ _ hpc
    exact absurd hpc (hplain'.ne_store im)
  counters := by
    intro im d htested
    refine (h.counters im d htested).quiet ?_ ?_ ?_ ?_
    · rw [hpassed]
    · rw [TalkWorker.waitsAt_of_waiting hw]
      nofun
    · rw [← TestEnv.mainBarrier_connDir (c := c)]
      exact hlive _
    · intro _
      rw [hplain.1, hplain'.1, Bool.and_false, Bool.and_false]
  count := (Function.forall_update_iff ws fun _ w => ∀ d rest, w.dirs = d :: rest →
    d.role e = .sender → w.pc = .streamStart → w.count = (sh.count d).toUInt32).mpr
      ⟨hcount, fun j _ => h.count j⟩

/-- A worker that an exchange takes to another direction has not been at its barrier. -/
theorem tests_nextDir (h : Crew v e ws sh) (hd : (ws c).dirs = d :: rest) {d' : Dir}
    (htests : ((ws c).nextDir rest).tests d' = true) :
    (ws c).tests d' = true ∨ (ws c).passed (v.mainBarrier d') = 0 := by
  obtain ⟨rest', hrest⟩ := TalkWorker.dirs_of_tests htests
  have hmem : d' ∈ rest := by
    rw [show rest = d' :: rest' from hrest]
    exact List.mem_cons_self ..
  exact .inr ((h.shape c).later d rest hd d' hmem)

theorem sent {step : TalkStep} (h : Crew v e ws sh) (hd : (ws c).dirs = d :: rest)
    (hx : (ws c).exchange = some step) (hrole : d.role e = step.speaker) :
    Crew v e (Function.update ws c ((ws c).sent v e c d rest sh.count)) sh := by
  have hw := ((h.shape c).now d rest hd).waiting_of_exchange hx
  refine h.talk hw ((h.shape c).sent hd hx hrole) TalkWorker.sent_passed ?_
    (TalkWorker.plain_exchange hx) (TalkWorker.aside_sent hx).1 ?_
  · intro d' htests
    by_cases hstep : step = .finish
    · subst hstep
      simp only [TalkWorker.sent, TalkWorker.pc_eq_finish hx] at htests
      exact h.tests_nextDir hd htests
    · have hkeeps : (ws c).Keeps d ((ws c).sent v e c d rest sh.count) :=
        TalkWorker.sent_keeps (TalkWorker.pc_ne_finish hx hstep)
      rw [TalkWorker.tests, hkeeps.1] at htests
      exact .inl htests
  · intro d' rest' hd' _ hpc
    have hneg := (TalkWorker.aside_sent hx).2 hpc
    simp only [TalkWorker.sent, hneg] at hd' ⊢
    obtain rfl : d = d' := (List.cons.inj (hd.symm.trans hd')).1
    rfl

theorem heard {step : TalkStep} {latency : UInt32} {pkt : TalkPayload} (h : Crew v e ws sh)
    (hd : (ws c).dirs = d :: rest) (hx : (ws c).exchange = some step)
    (hrole : d.role e ≠ step.speaker)
    (hweak : ∀ k, step = .streamEnd k → pkt.has .streamWeak = v.weak c d k) :
    Crew v e (Function.update ws c ((ws c).heard v e d rest sh.count latency pkt)) sh := by
  have hw := ((h.shape c).now d rest hd).waiting_of_exchange hx
  refine h.talk hw ((h.shape c).heard hd hx hrole hweak) TalkWorker.heard_passed ?_
    (TalkWorker.plain_exchange hx) (TalkWorker.aside_heard hx).1 ?_
  · intro d' htests
    by_cases hstep : step = .finish
    · subst hstep
      simp only [TalkWorker.heard, TalkWorker.pc_eq_finish hx] at htests
      exact h.tests_nextDir hd htests
    · have hkeeps : (ws c).Keeps d ((ws c).heard v e d rest sh.count latency pkt) :=
        TalkWorker.heard_keeps (TalkWorker.pc_ne_finish hx hstep)
      rw [TalkWorker.tests, hkeeps.1] at htests
      exact .inl htests
  · -- Only a receiver hears the negotiation.
    intro d' rest' hd' hsender hpc
    have hneg := (TalkWorker.aside_heard hx).2 hpc
    simp only [TalkWorker.heard, hneg] at hd'
    obtain rfl : d = d' := (List.cons.inj (hd.symm.trans hd')).1
    simp only [TalkWorker.exchange, hneg, Option.some.injEq] at hx
    rw [← hx] at hrole
    exact absurd hsender hrole

/-- Before the first step. -/
theorem init : Crew v e ((TalkTest.init v).worker e) ((TalkTest.init v).shared e) where
  shape := by
    intro c
    exact {
      suffix := List.suffix_refl _
      now := by
        intro d rest _
        exact {
          main := by cases v.single e d <;> rfl
          side := fun _ _ => rfl
          ran := fun j hj => absurd hj (Nat.not_lt_zero j)
          barrier := nofun
          fresh := fun _ _ => rfl
          early := fun _ => rfl }
      later := fun _ _ _ _ _ => rfl
      past := fun d hmem hnot => absurd hmem hnot
      decided := nofun }
  meets := fun b => meets_zero _ _
  mutex := fun c => ⟨nofun, nofun⟩
  loaded := by
    intro im c d rest _ hpc
    cases im <;> cases hpc
  counters := fun im d _ => Gathered.of_idle (fun _ _ => rfl)
  count := by
    intro c d rest _ _ hpc
    cases hpc

end Crew

end Ubwt
