import Ubwt.Talk.Place

/-!
# Ubwt.Talk.Shape

What holds of one worker at every moment, through all directions (`TalkWorker.Shape`), and
that every step of the worker keeps it.
-/

namespace Ubwt

open Lib

namespace TalkWorker

variable {v : TestEnv} {e : Endpoint} {c : Fin v.workers} {d : Dir} {w w' : TalkWorker}
  {sh sh' : TalkContext v.workers} {rest : List Dir}

/-! ### From direction to direction -/

/-- What holds of a worker that is through with direction `d`. -/
def Over (v : TestEnv) (e : Endpoint) (c : Fin v.workers) (d : Dir) (w : TalkWorker) : Prop :=
  ∃ K, v.Final d K ∧ w.passed (v.mainBarrier d) = (v.timetable e d).count K + 1 ∧
    (d.role e = .receiver → (w.report d).talkStreamTimeDuration = v.time c d K)

/-- What holds of a worker. -/
structure Shape (v : TestEnv) (e : Endpoint) (c : Fin v.workers) (w : TalkWorker) : Prop where
  suffix : w.dirs <:+ v.dirs c
  now : ∀ d rest, w.dirs = d :: rest → w.At v e c d
  later : ∀ d rest, w.dirs = d :: rest → ∀ d' ∈ rest, w.passed (v.mainBarrier d') = 0
  past : ∀ d ∈ v.dirs c, d ∉ w.dirs → w.Over v e c d
  decided : ∀ x ∈ w.decided, x.2.2 = v.restart x.1 x.2.1

theorem Shape.mem (h : w.Shape v e c) (hd : w.dirs = d :: rest) : d ∈ v.dirs c :=
  h.suffix.subset (hd ▸ List.mem_cons_self ..)

theorem Shape.mem_rest (h : w.Shape v e c) (hd : w.dirs = d :: rest) {d' : Dir} (hd' : d' ∈ rest) :
    d' ∈ v.dirs c ∧ d' ≠ d := by
  have hnodup : (d :: rest).Nodup := hd ▸ (v.nodup_dirs c).sublist h.suffix.sublist
  refine ⟨h.suffix.subset (hd ▸ List.mem_cons_of_mem d hd'), ?_⟩
  rintro rfl
  exact (List.nodup_cons.mp hnodup).1 hd'

/-- A worker that has a direction before it, and not later, is in it. -/
theorem dirs_of_mem (hmem : d ∈ w.dirs) (hnot : ∀ d' rest, w.dirs = d' :: rest → d ∉ rest) :
    ∃ rest, w.dirs = d :: rest := by
  cases hdirs : w.dirs with
  | nil =>
      rw [hdirs] at hmem
      cases hmem
  | cons d' rest =>
      rw [hdirs] at hmem
      rcases List.mem_cons.mp hmem with rfl | hlater
      · exact ⟨rest, rfl⟩
      · exact absurd hlater (hnot d' rest hdirs)

/-- A worker that tests two directions does so in synchronous mode. -/
theorem sync_of_ne {d' : Dir} (hd : d ∈ v.dirs c) (hd' : d' ∈ v.dirs c) (hne : d' ≠ d) :
    v.asynchronous = false := by
  by_contra ha
  rw [TestEnv.dirs_async (Bool.of_not_eq_false ha) d, List.mem_singleton] at hd hd'
  exact hne (hd'.trans hd.symm)

/-- A worker uses the barrier of its direction. -/
theorem Shape.joins (h : w.Shape v e c) (hd : w.dirs = d :: rest) : v.Joins (.dir d) c := by
  intro ha
  have hmem := h.mem hd
  rw [TestEnv.dirs_async ha d, List.mem_singleton] at hmem
  rw [TestEnv.dirs_async ha d, ← hmem]

/-- A step in direction `d`. -/
theorem Shape.step (h : w.Shape v e c) (hd : w.dirs = d :: rest) (hdirs : w'.dirs = w.dirs)
    (hpassed : ∀ d' ∈ v.dirs c, d' ≠ d →
      w'.passed (v.mainBarrier d') = w.passed (v.mainBarrier d'))
    (hreport : ∀ d', d' ≠ d → w'.report d' = w.report d')
    (hdecided : ∀ x ∈ w'.decided, x ∈ w.decided ∨ x.2.2 = v.restart x.1 x.2.1)
    (hat : w'.At v e c d) : w'.Shape v e c where
  suffix := hdirs ▸ h.suffix
  now := by
    intro d' rest' hd'
    rw [hdirs, hd] at hd'
    cases hd'
    exact hat
  later := by
    intro d₁ rest₁ hd₁ d' hd'
    rw [hdirs, hd] at hd₁
    cases hd₁
    obtain ⟨hmem, hne⟩ := h.mem_rest hd hd'
    rw [hpassed d' hmem hne]
    exact h.later d rest hd d' hd'
  past := by
    intro d' hmem hnot
    rw [hdirs] at hnot
    have hne : d' ≠ d := by
      rintro rfl
      exact hnot (hd ▸ List.mem_cons_self ..)
    obtain ⟨K, hfinal, hover, htime⟩ := h.past d' hmem hnot
    refine ⟨K, hfinal, ?_, ?_⟩
    · rw [hpassed d' hmem hne]
      exact hover
    · rw [hreport d' hne]
      exact htime
  decided := by
    intro x hx
    rcases hdecided x hx with hx | hx
    · exact h.decided x hx
    · exact hx

/-- The end of a direction. -/
theorem At.past (h : w.At v e c d) (hpc : w.pc = .finish) : w.Over v e c d := by
  refine ⟨w.k, ⟨h.ran, h.reports (by rw [hpc]; rfl)⟩, ?_, h.measured (by rw [hpc]; rfl)⟩
  rw [h.main, hpc, Timetable.count, TestEnv.reset_eq]
  cases v.single e d <;>
    simp [WorkerPc.mainPassed, WorkerPc.mainSeg, TestEnv.timetable] <;> omega

/-- The next direction. -/
theorem Shape.nextDir (h : w.Shape v e c) (hd : w.dirs = d :: rest) (hpc : w.pc = .finish)
    (hw : w.waiting = false) : (w.nextDir rest).Shape v e c where
  suffix := ((List.suffix_cons d rest).trans (hd ▸ List.suffix_refl _)).trans h.suffix
  now := by
    intro d' rest' hd'
    obtain rfl : rest = d' :: rest' := hd'
    have hmem : d' ∈ d' :: rest' := List.mem_cons_self ..
    obtain ⟨hmem', hne⟩ := h.mem_rest hd hmem
    exact {
      main := by
        refine (h.later d _ hd d' hmem).trans ?_
        cases v.single e d' <;> rfl
      side := fun ha => by cases (sync_of_ne (h.mem hd) hmem' hne).symm.trans ha
      ran := fun j hj => absurd hj (Nat.not_lt_zero j)
      barrier := not_waiting hw
      early := fun _ => rfl }
  later := by
    intro d₁ rest₁ hd₁ d' hd'
    have hrest : rest = d₁ :: rest₁ := hd₁
    exact h.later d rest hd d' (hrest ▸ List.mem_cons_of_mem d₁ hd')
  past := by
    intro d' hmem hnot
    by_cases hne : d' = d
    · subst hne
      exact (h.now d' rest hd).past hpc
    · refine h.past d' hmem ?_
      rw [hd, List.mem_cons]
      exact fun hor => hor.elim hne hnot
  decided := h.decided

/-! ### The steps of a worker -/

/-- What a step of the worker alone does not touch. -/
theorem Local.frame (h : Local v e c d w sh w' sh') :
    w'.dirs = w.dirs ∧ w'.passed = w.passed ∧ w'.report = w.report := by
  cases h with
  | testWeak =>
      split <;> exact ⟨rfl, rfl, rfl⟩
  | testImWeak =>
      unfold TalkWorker.testImWeak TalkWorker.again
      repeat' split
      all_goals exact ⟨rfl, rfl, rfl⟩
  | testImWeakReverse =>
      unfold TalkWorker.again
      repeat' split
      all_goals exact ⟨rfl, rfl, rfl⟩
  | _ => exact ⟨rfl, rfl, rfl⟩

theorem mem_decided_stop {x : Dir × Nat × Bool} (hat : (w.stop d).At v e c d)
    (hx : x ∈ (w.stop d).decided) : x ∈ w.decided ∨ x.2.2 = v.restart x.1 x.2.1 := by
  rcases List.mem_append.mp hx with hx | hx
  · exact .inl hx
  · rw [List.mem_singleton.mp hx]
    exact .inr (hat.reports rfl).symm

theorem mem_decided_again {x : Dir × Nat × Bool} (hat : (w.again e d).At v e c d)
    (hx : x ∈ (w.again e d).decided) : x ∈ w.decided ∨ x.2.2 = v.restart x.1 x.2.1 := by
  unfold TalkWorker.again at hat hx
  cases hrole : d.role e with
  | sender =>
      rw [hrole] at hat hx
      rcases List.mem_append.mp hx with hx | hx
      · exact .inl hx
      · rw [List.mem_singleton.mp hx]
        exact .inr (hat.recounts rfl).symm
  | receiver =>
      rw [hrole] at hat hx
      rcases List.mem_append.mp hx with hx | hx
      · exact .inl hx
      · rw [List.mem_singleton.mp hx]
        exact .inr (hat.ran w.k (Nat.lt_succ_self _)).symm

/-- A verdict is the one that the place after it says. -/
theorem Local.mem_decided (h : Local v e c d w sh w' sh') (hat : w'.At v e c d)
    {x : Dir × Nat × Bool} (hx : x ∈ w'.decided) :
    x ∈ w.decided ∨ x.2.2 = v.restart x.1 x.2.1 := by
  cases h with
  | testWeak =>
      split_ifs at hat hx with hpos
      · exact .inl hx
      · exact mem_decided_stop hat hx
  | testImWeak =>
      unfold TalkWorker.testImWeak at hat hx
      split_ifs at hat hx with ha hall hall
      · exact mem_decided_again hat hx
      · exact .inl hx
      · exact mem_decided_again hat hx
      · exact mem_decided_stop hat hx
  | testImWeakReverse =>
      split_ifs at hat hx with hall
      · exact mem_decided_again hat hx
      · exact mem_decided_stop hat hx
  | _ => exact .inl hx

theorem Shape.loc (h : w.Shape v e c) (hd : w.dirs = d :: rest) (hw : w.waiting = false)
    (hsettled : w.pc.reads = true → sh.Settled v d w.k) (hstep : Local v e c d w sh w' sh') :
    w'.Shape v e c := by
  obtain ⟨hdirs, hpassed, hreport⟩ := hstep.frame
  have hat := (h.now d rest hd).loc hw hsettled hstep
  refine h.step hd hdirs ?_ ?_ ?_ hat
  · intro d' _ _
    rw [hpassed]
  · intro d' _
    rw [hreport]
  · intro x hx
    exact hstep.mem_decided hat hx

/-- What a step in direction `d` leaves of the rest of the worker. -/
def Keeps (d : Dir) (w w' : TalkWorker) : Prop :=
  w'.dirs = w.dirs ∧ (∀ d', d' ≠ d → w'.report d' = w.report d') ∧ w'.decided = w.decided

theorem keeps_refl : w.Keeps d w := ⟨rfl, fun _ _ => rfl, rfl⟩

theorem keeps_setReport (r : ReportCollect) : w.Keeps d (w.setReport d r) :=
  ⟨rfl, fun _ hne => Function.update_of_ne hne _ _, rfl⟩

theorem Keeps.toPing (h : w.Keeps d w') (i : Nat) : w.Keeps d (w'.toPing v e d i) := by
  unfold TalkWorker.toPing
  repeat' split
  all_goals exact h

theorem Keeps.toRun (h : w.Keeps d w') (i : Nat) : w.Keeps d (w'.toRun i) := by
  unfold TalkWorker.toRun
  split <;> exact h

theorem measure_keeps : w.Keeps d (w.measure v e c d) := by
  unfold measure
  cases d.role e with
  | sender => exact keeps_refl
  | receiver => exact keeps_setReport _

theorem proceed_keeps (serial : Bool) (now : UInt64) :
    w.Keeps d (w.proceed v e c d serial now) := by
  unfold proceed
  split
  case h_1 => exact keeps_refl.toPing 0
  case h_5 =>
    cases d.role e with
    | sender => exact keeps_refl.toRun 0
    | receiver => exact (keeps_setReport _).toRun 0
  case h_6 =>
    split
    · exact keeps_refl
    · exact measure_keeps
  case h_7 => exact measure_keeps
  all_goals exact keeps_refl

theorem sent_keeps {count : Dir → UInt64} (hpc : w.pc ≠ .finish) :
    w.Keeps d (w.sent v e c d rest count) := by
  unfold sent
  split
  case h_2 => exact keeps_refl.toPing _
  case h_3 => exact keeps_setReport _
  case h_5 => exact keeps_refl.toRun _
  case h_8 hfinish => exact absurd hfinish hpc
  all_goals exact keeps_refl

theorem heard_keeps {count : Dir → UInt64} {latency : UInt32} {pkt : TalkPayload}
    (hpc : w.pc ≠ .finish) : w.Keeps d (w.heard v e d rest count latency pkt) := by
  unfold heard
  split
  case h_2 =>
    split
    · exact keeps_refl.toPing _
    · exact (keeps_setReport _).toPing _
  case h_3 => exact keeps_setReport _
  case h_5 => exact keeps_refl.toRun _
  case h_7 => exact keeps_setReport _
  case h_8 hfinish => exact absurd hfinish hpc
  all_goals exact keeps_refl

theorem sent_passed {count : Dir → UInt64} : (w.sent v e c d rest count).passed = w.passed := by
  unfold sent toPing toRun
  repeat' split
  all_goals rfl

theorem heard_passed {count : Dir → UInt64} {latency : UInt32} {pkt : TalkPayload} :
    (w.heard v e d rest count latency pkt).passed = w.passed := by
  unfold heard toPing toRun
  repeat' split
  all_goals rfl

theorem Shape.leave {b : BarrierId} (h : w.Shape v e c) (hd : w.dirs = d :: rest)
    (hb : w.pc.barrier v d = some b) (serial : Bool) (now : UInt64) :
    ({ w.proceed v e c d serial now with waiting := false, passed := w.passes b } :
      TalkWorker).Shape v e c := by
  obtain ⟨hdirs, hreport, hdecided⟩ : w.Keeps d (w.proceed v e c d serial now) :=
    proceed_keeps serial now
  have hat := h.now d rest hd
  refine h.step hd hdirs ?_ hreport (fun x hx => .inl (hdecided ▸ hx)) (hat.leave hb serial now)
  -- Only a synchronous worker has another direction, and that has a barrier of its own.
  intro d' hmem hne
  have ha := sync_of_ne (h.mem hd) hmem hne
  have hmain : ∀ d, v.mainBarrier d = .dir d := by simp [TestEnv.mainBarrier, ha]
  refine Function.update_of_ne ?_ _ _
  rcases barrier_cases hb with ⟨rfl, -⟩ | ⟨rfl, -⟩ | ⟨rfl, -⟩ | ⟨-, hpc⟩
  · simpa [hmain] using hne
  · simpa [hmain] using hne
  · simpa [hmain] using hne
  · cases ha.symm.trans (hat.async (by rw [hpc]; rfl))

/-- A worker at FINISH says or hears it and goes to the next direction. -/
theorem pc_ne_finish {step : TalkStep} (hx : w.exchange = some step) (hstep : step ≠ .finish) :
    w.pc ≠ .finish := by
  intro hpc
  rw [exchange, hpc] at hx
  exact hstep (Option.some.inj hx).symm

theorem pc_eq_finish (hx : w.exchange = some .finish) : w.pc = .finish := by
  rcases exchange_cases hx with ⟨-, h⟩ | ⟨-, h⟩ | ⟨-, h⟩ | ⟨-, h⟩ | ⟨-, h⟩ | ⟨-, h⟩ | ⟨-, h⟩ |
    ⟨hpc, -⟩
  all_goals first
    | exact hpc
    | cases h

theorem Shape.sent {step : TalkStep} {count : Dir → UInt64} (h : w.Shape v e c)
    (hd : w.dirs = d :: rest) (hx : w.exchange = some step) (hrole : d.role e = step.speaker) :
    (w.sent v e c d rest count).Shape v e c := by
  have hat := h.now d rest hd
  by_cases hstep : step = .finish
  · subst hstep
    have hpc := pc_eq_finish hx
    simp only [TalkWorker.sent, hpc]
    exact h.nextDir hd hpc (hat.waiting_of_exchange hx)
  · obtain ⟨hdirs, hreport, hdecided⟩ : w.Keeps d (w.sent v e c d rest count) :=
      sent_keeps (pc_ne_finish hx hstep)
    exact h.step hd hdirs (fun _ _ _ => congrFun sent_passed _) hreport
      (fun x hx => .inl (hdecided ▸ hx)) (hat.sent hx hrole hstep)

theorem Shape.heard {step : TalkStep} {count : Dir → UInt64} {latency : UInt32} {pkt : TalkPayload}
    (h : w.Shape v e c) (hd : w.dirs = d :: rest) (hx : w.exchange = some step)
    (hrole : d.role e ≠ step.speaker)
    (hweak : ∀ k, step = .streamEnd k → pkt.has .streamWeak = v.weak c d k) :
    (w.heard v e d rest count latency pkt).Shape v e c := by
  have hat := h.now d rest hd
  by_cases hstep : step = .finish
  · subst hstep
    have hpc := pc_eq_finish hx
    simp only [TalkWorker.heard, hpc]
    exact h.nextDir hd hpc (hat.waiting_of_exchange hx)
  · obtain ⟨hdirs, hreports, hdecided⟩ : w.Keeps d (w.heard v e d rest count latency pkt) :=
      heard_keeps (pc_ne_finish hx hstep)
    exact h.step hd hdirs (fun _ _ _ => congrFun heard_passed _) hreports
      (fun x hx => .inl (hdecided ▸ hx)) (hat.heard hx hrole hstep hweak)

end TalkWorker

end Ubwt
