import Ubwt.Talk.Rounds

/-!
# Ubwt.Talk.Counting

**In every state each sender of a direction uses the count that follows from the restarts before
its stream** (`Counted`): the elected worker moves it on, and nobody starts the next stream before
it has, or when the assertions fail.
-/

namespace Ubwt

open Lib

/-! ### The count of a direction -/

/-- What holds of the senders of a direction and its count, after `done` rounds. -/
structure Counted (v : TestEnv) (cfg : Config) (election : v.Election) (e : Endpoint) (d : Dir)
    (weakTime : Nat → UInt64) (ws : Fin v.workers → TalkWorker) (sh : TalkContext v.workers)
    (done : Nat) : Prop where
  count : ∀ k, done = k + 1 → (sh.count d).toNat = v.streamCount cfg weakTime d k
  sees : ∀ c rest, (ws c).dirs = d :: rest →
    ((ws c).stand v d).Sees (fun r => election.caller e d (v.firstCall r) = c) done
  later : ∀ c d' rest, (ws c).dirs = d' :: rest → d ∈ rest → done = 0
  asserted : ∀ c rest, (ws c).dirs = d :: rest → (ws c).pc.early = false →
    v.streamCount cfg weakTime d (ws c).k ≤ configTalkCountMax.toNat

/-- More rounds may be done, but the recounts of those before are as they were. -/
structure Extends (weakTime weakTime' : Nat → UInt64) (done done' : Nat) : Prop where
  le : done ≤ done'
  same : ∀ j, j + 1 < done → weakTime' j = weakTime j

namespace Extends

variable {weakTime weakTime' weakTime'' : Nat → UInt64} {done done' done'' : Nat}

theorem refl (weakTime : Nat → UInt64) (done : Nat) : Extends weakTime weakTime done done :=
  ⟨Nat.le_refl _, fun _ _ => rfl⟩

theorem trans (h : Extends weakTime weakTime' done done')
    (h' : Extends weakTime' weakTime'' done' done'') : Extends weakTime weakTime'' done done'' where
  le := h.le.trans h'.le
  same := fun j hj => (h'.same j (Nat.lt_of_lt_of_le hj h.le)).trans (h.same j hj)

theorem streamCount_eq {v : TestEnv} {cfg : Config} {d : Dir} {k : Nat}
    (h : Extends weakTime weakTime' done done') (hk : k < done) :
    v.streamCount cfg weakTime' d k = v.streamCount cfg weakTime d k :=
  TestEnv.streamCount_congr fun j hj => h.same j (Nat.lt_of_le_of_lt hj hk)

end Extends

namespace Counted

variable {v : TestEnv} {cfg : Config} {election : v.Election} {e : Endpoint} {c : Fin v.workers}
  {d d₁ : Dir} {rest : List Dir} {weakTime weakTime' : Nat → UInt64}
  {ws : Fin v.workers → TalkWorker} {w' : TalkWorker} {sh sh' : TalkContext v.workers} {done : Nat}

/-- A step of one worker that leaves the count alone. -/
theorem update (h : Counted v cfg election e d weakTime ws sh done)
    (hcount : sh'.count d = sh.count d)
    (hsees : ∀ rest, w'.dirs = d :: rest →
      (w'.stand v d).Sees (fun r => election.caller e d (v.firstCall r) = c) done)
    (hlater : ∀ d' rest, w'.dirs = d' :: rest → d ∈ rest → done = 0)
    (hasserted : ∀ rest, w'.dirs = d :: rest → w'.pc.early = false →
      v.streamCount cfg weakTime d w'.k ≤ configTalkCountMax.toNat) :
    Counted v cfg election e d weakTime (Function.update ws c w') sh' done where
  count := by
    rw [hcount]
    exact h.count
  sees := (Function.forall_update_iff ws fun j w => ∀ rest, w.dirs = d :: rest →
    (w.stand v d).Sees (fun r => election.caller e d (v.firstCall r) = j) done).mpr
      ⟨hsees, fun j _ => h.sees j⟩
  later := (Function.forall_update_iff ws fun _ w => ∀ d' rest, w.dirs = d' :: rest → d ∈ rest →
    done = 0).mpr ⟨hlater, fun j _ => h.later j⟩
  asserted := (Function.forall_update_iff ws fun _ w => ∀ rest, w.dirs = d :: rest →
    w.pc.early = false → v.streamCount cfg weakTime d w.k ≤ configTalkCountMax.toNat).mpr
      ⟨hasserted, fun j _ => h.asserted j⟩

/-- A step of a sender that takes no part in a round. -/
theorem stays (h : Counted v cfg election e d weakTime ws sh done)
    (hcount : sh'.count d = sh.count d) (hdirs : w'.dirs = (ws c).dirs)
    (hstays : (∃ rest, (ws c).dirs = d :: rest) → (ws c).Stays w') :
    Counted v cfg election e d weakTime (Function.update ws c w') sh' done := by
  refine h.update hcount ?_ ?_ ?_
  · intro rest hd
    rw [hdirs] at hd
    exact (hstays ⟨rest, hd⟩).sees (h.sees c rest hd)
  · rw [hdirs]
    exact h.later c
  · intro rest hd hearly
    rw [hdirs] at hd
    have hsame := hstays ⟨rest, hd⟩
    rw [hsame.early] at hearly
    rw [hsame.k]
    exact h.asserted c rest hd hearly

/-- `talk_init`: nobody has come to a round. -/
theorem zero (hearly : ∀ c rest, (ws c).dirs = d :: rest → (ws c).pc.mainSeg = 0) :
    Counted v cfg election e d weakTime ws sh 0 where
  count := fun _ hdone => by cases hdone
  sees := by
    intro c rest hd
    have hseg := hearly c rest hd
    unfold Stand.Sees TalkWorker.stand
    cases hpc : (ws c).pc <;> rw [hpc] at hseg <;> first | cases hseg; done | rfl
  later := fun _ _ _ _ _ => rfl
  asserted := by
    intro c rest hd hlate
    rw [WorkerPc.early, hearly c rest hd] at hlate
    cases hlate

/-- **The elected worker moves the count on.** -/
theorem moved (h : Counted v cfg election e d weakTime ws sh done) (hcrew : Crew v e ws sh)
    (hrole : d.role e = .sender) (hd : (ws c).dirs = d :: rest) (hturn : (ws c).pc.turn = .set)
    (hdirs : w'.dirs = (ws c).dirs) (hearly : w'.pc.early = (ws c).pc.early)
    (hk : w'.k = (ws c).k) (hsync : w'.pc.turn = .sync)
    (hext : Extends weakTime weakTime' done (done + 1))
    (hcount : (sh'.count d).toNat = v.streamCount cfg weakTime' d done) :
    Counted v cfg election e d weakTime' (Function.update ws c w') sh' (done + 1) := by
  have hpaced : ∀ {j rest}, (ws j).dirs = d :: rest → ((ws j).stand v d).Paced v.firstCall :=
    fun hj => ((hcrew.shape _).now d _ hj).paced hrole hj
  obtain ⟨hdone, helected⟩ :=
    (Stand.sees_set (p := (ws c).stand v d) hturn).mp (h.sees c rest hd)
  have hpos : 0 < (ws c).passed (v.mainBarrier d) := by
    rw [((hcrew.shape c).now d rest hd).main]
    rcases WorkerPc.of_turn_set hturn with hpc | hpc <;> rw [hpc] <;> cases v.single e d <;>
      simp [WorkerPc.mainPassed, WorkerPc.mainSeg]
  have hround : w'.pc.round w'.k = ((ws c).stand v d).round := by
    rw [WorkerPc.round, hearly, hk]
    rfl
  have hbefore : ∀ j rest, (ws j).dirs = d :: rest → (ws j).pc.early = false →
      v.streamCount cfg weakTime' d (ws j).k ≤ configTalkCountMax.toNat := by
    intro j rest' hj hlate
    have hle := (h.sees j rest' hj).round_le
    rw [TalkWorker.stand, WorkerPc.round, hlate, if_neg Bool.false_ne_true] at hle
    rw [hext.streamCount_eq hle]
    exact h.asserted j rest' hj hlate
  exact {
    count := by
      intro k heq
      rw [hcount, Nat.succ.inj heq]
    sees := by
      refine (Function.forall_update_iff ws fun j w => ∀ rest, w.dirs = d :: rest →
        (w.stand v d).Sees (fun r => election.caller e d (v.firstCall r) = j) (done + 1)).mpr
          ⟨?_, ?_⟩
      · intro rest' _
        refine (Stand.sees_sync (p := w'.stand v d) hsync).mpr (.inl ?_)
        show done + 1 = w'.pc.round w'.k + 1
        rw [hround, hdone]
      · intro j hj rest' hd'
        have hseesj := h.sees j rest' hd'
        rw [hdone] at hseesj ⊢
        refine hseesj.moved TestEnv.firstCall_succ (hpaced hd) (hpaced hd') hturn ?_ ?_
        · exact hcrew.meets (.dir d) c j ((hcrew.shape c).joins hd) ((hcrew.shape j).joins hd')
        · rw [helected]
          exact fun heq => hj heq.symm
    later := by
      have hnot : ∀ j d' rest', (ws j).dirs = d' :: rest' → d ∈ rest' → done + 1 = 0 :=
        fun j d' rest' hd' hmem => absurd hmem (hcrew.not_later hpos hd')
      refine (Function.forall_update_iff ws fun _ w => ∀ d' rest, w.dirs = d' :: rest → d ∈ rest →
        done + 1 = 0).mpr ⟨?_, fun j _ => hnot j⟩
      rw [hdirs]
      exact hnot c
    asserted := by
      refine (Function.forall_update_iff ws fun _ w => ∀ rest, w.dirs = d :: rest →
        w.pc.early = false → v.streamCount cfg weakTime' d w.k ≤ configTalkCountMax.toNat).mpr
          ⟨?_, fun j _ => hbefore j⟩
      rw [hdirs, hearly, hk]
      exact hbefore c }

/-- The recount of the elected worker is the one of the stream. -/
theorem toNat_recounted (h : Counted v cfg election e d weakTime ws sh done)
    (hcrew : Crew v e ws sh) (hmul : cfg.talkCountMul.toNat < 10000000)
    (hd : (ws c).dirs = d :: rest) (hw : (ws c).waiting = false) (hpc : (ws c).pc = .recount)
    (hdone : done = (ws c).k + 1) (hnow : weakTime' (ws c).k = sh.weakTime d)
    (hsame : v.streamCount cfg weakTime' d (ws c).k = v.streamCount cfg weakTime d (ws c).k) :
    (sh.recounted cfg v d).toNat = v.streamCount cfg weakTime' d ((ws c).k + 1) := by
  have hflagged : sh.imWeak d = v.flagged d (ws c).k :=
    (hcrew.settled hd hw (by rw [hpc]; rfl)).imWeak d (.inr rfl)
  have hcount := h.count (ws c).k hdone
  rw [TalkContext.recounted, TestEnv.streamCount, TestEnv.needsRecount, hflagged, hcount, hnow,
    hsame]
  by_cases hneeds : v.flagged d (ws c).k = v.dirWorkers
  · rw [if_pos hneeds, if_pos (decide_eq_true hneeds), UInt64.toNat_ofNat']
    refine Nat.mod_eq_of_lt (recount_lt_size hmul _ ?_)
    exact h.asserted c rest hd (by rw [hpc]; rfl)
  · rw [if_neg hneeds, if_neg (by simpa using hneeds), hcount]

/-- While a worker is in `talk_init`, no round of a direction is done. -/
theorem eq_zero_of_fresh (h : Counted v cfg election e d weakTime ws sh done)
    (hcrew : Crew v e ws sh) (htested : ∃ j, d ∈ v.dirs j) (hd : (ws c).dirs = d₁ :: rest)
    (hw : (ws c).waiting = false) (hinit : (ws c).pc = .talkInit) : done = 0 := by
  obtain ⟨j, hj⟩ := htested
  cases hdirs : (ws j).dirs with
  | nil =>
      obtain ⟨K, -, hpassed, -⟩ := (hcrew.shape j).past d hj (by rw [hdirs]; exact List.not_mem_nil)
      rw [hcrew.fresh hd hw hinit j d] at hpassed
      cases hpassed
  | cons d' rest' =>
      have hseg := hcrew.seg_of_fresh hd hw hinit hdirs
      by_cases hlater : d ∈ rest'
      · exact h.later j d' rest' hdirs hlater
      · by_cases hd' : d' = d
        · subst hd'
          have hsees := h.sees j rest' hdirs
          unfold Stand.Sees TalkWorker.stand at hsees
          cases hpc : (ws j).pc <;> rw [hpc] at hseg hsees <;> first | cases hseg; done | exact hsees
        · have hnot : d ∉ (ws j).dirs := by
            rw [hdirs, List.mem_cons, not_or]
            exact ⟨Ne.symm hd', hlater⟩
          obtain ⟨K, -, hpassed, -⟩ := (hcrew.shape j).past d hj hnot
          rw [hcrew.fresh hd hw hinit j d] at hpassed
          cases hpassed

/-- **A step of a worker alone.** -/
theorem loc (h : Counted v cfg election e d weakTime ws sh done) (hcrew : Crew v e ws sh)
    (hmul : cfg.talkCountMul.toNat < 10000000) (hrole : d.role e = .sender)
    (htested : ∃ j, d ∈ v.dirs j) (hd : (ws c).dirs = d₁ :: rest) (hw : (ws c).waiting = false)
    (hstep : TalkWorker.Local v e c d₁ (ws c) sh w' sh')
    (hrecount : (ws c).pc = .recount → sh'.count d₁ = sh.recounted cfg v d₁) :
    ∃ weakTime' done', Extends weakTime weakTime' done done' ∧
      Counted v cfg election e d weakTime' (Function.update ws c w') sh' done' := by
  have hdirs := hstep.frame.1
  by_cases hinit : (ws c).pc = .talkInit
  · -- `memset(__talk, 0, sizeof(__talk))` comes before anything else.
    obtain rfl := h.eq_zero_of_fresh hcrew htested hd hw hinit
    refine ⟨weakTime, 0, .refl _ _, zero ?_⟩
    refine (Function.forall_update_iff ws fun _ w => ∀ rest, w.dirs = d :: rest →
      w.pc.mainSeg = 0).mpr ⟨?_, ?_⟩
    · intro _ _
      rw [hstep.of_talkInit hinit]
      rfl
    · intro j _ _ hd'
      exact hcrew.seg_of_fresh hd hw hinit hd'
  by_cases hset : d₁ = d ∧ (ws c).pc.turn = .set
  · obtain ⟨rfl, hturn⟩ := hset
    obtain ⟨hearly, hk, hsync, hfirst⟩ := hstep.of_set hturn
    have hdone : done = (ws c).pc.round (ws c).k :=
      ((Stand.sees_set (p := (ws c).stand v d₁) hturn).mp (h.sees c rest hd)).1
    rcases WorkerPc.of_turn_set hturn with hpc | hpc
    · have hext : Extends weakTime weakTime done (done + 1) :=
        ⟨Nat.le_succ done, fun _ _ => rfl⟩
      refine ⟨weakTime, done + 1, hext, h.moved hcrew hrole hd hturn hdirs hearly hk hsync hext ?_⟩
      rw [hdone, hpc, hfirst hpc]
      rfl
    · have hdone' : done = (ws c).k + 1 := by
        rw [hdone, hpc]
        rfl
      have hext : Extends weakTime (Function.update weakTime (ws c).k (sh.weakTime d₁)) done
          (done + 1) := by
        refine ⟨Nat.le_succ done, fun j hj => Function.update_of_ne ?_ _ _⟩
        omega
      refine ⟨_, done + 1, hext, h.moved hcrew hrole hd hturn hdirs hearly hk hsync hext ?_⟩
      rw [hrecount hpc, hdone']
      exact h.toNat_recounted hcrew hmul hd hw hpc hdone' (Function.update_self ..)
        (hext.streamCount_eq hdone'.ge)
  · refine ⟨weakTime, done, .refl _ _, h.stays ?_ hdirs ?_⟩
    · rcases (hstep.count_cases.resolve_left hinit) d with hsame | ⟨hd₁, hpc⟩
      · exact hsame
      · refine absurd ⟨hd₁.symm, ?_⟩ hset
        rcases hpc with hpc | hpc <;> rw [hpc] <;> rfl
    · intro hdir
      obtain ⟨rest', hd'⟩ := hdir
      rw [hd] at hd'
      cases hd'
      exact hstep.stays hrole hw fun hturn => hset ⟨rfl, hturn⟩

/-- While a sender is at the second call of a round, its direction goes on for everybody. -/
theorem not_past (hcrew : Crew v e ws sh) (hd : (ws c).dirs = d :: rest)
    (hsync : (ws c).pc.turn = .sync) {j : Fin v.workers}
    (hj : d ∈ v.dirs j) : d ∈ (ws j).dirs := by
  by_contra hnot
  obtain ⟨K, hfinal, hpassed, -⟩ := (hcrew.shape j).past d hj hnot
  have hat := (hcrew.shape c).now d rest hd
  have hle := hcrew.meets (v.mainBarrier d) j c (TestEnv.joins_main d j) (TestEnv.joins_main d c)
  have hone : ((ws c).waitsAt v (v.mainBarrier d)).toNat ≤ 1 := Bool.toNat_le _
  dsimp only [entered] at hle
  rw [hpassed, hat.main, Timetable.count, TestEnv.reset_eq] at hle
  rcases WorkerPc.of_turn_sync hsync with hpc | hpc
  · rw [hpc] at hle
    cases hs : v.single e d <;>
      simp [hs, WorkerPc.mainPassed, WorkerPc.mainSeg, TestEnv.timetable] at hle <;> omega
  · have hK : K ≤ (ws c).k := by
      rw [hpc] at hle
      cases hs : v.single e d <;>
        simp [hs, WorkerPc.mainPassed, WorkerPc.mainSeg, TestEnv.timetable] at hle <;> omega
    have hrestart := hat.ran_succ (hat.recounts (by rw [hpc]; rfl)) K (Nat.lt_succ_of_le hK)
    cases hfinal.2.symm.trans hrestart

/-- **Behind the second call the round is done.** -/
theorem done_of_sync (h : Counted v cfg election e d weakTime ws sh done)
    (hcrew : Crew v e ws sh) (hrole : d.role e = .sender) (hd : (ws c).dirs = d :: rest)
    (hw : (ws c).waiting = true) (hsync : (ws c).pc.turn = .sync)
    (hall : ∀ c', v.Joins (.dir d) c' →
      entered (fun c => (ws c).passed (.dir d)) (fun c => (ws c).waitsAt v (.dir d)) c
        ≤ entered (fun c => (ws c).passed (.dir d)) (fun c => (ws c).waitsAt v (.dir d)) c') :
    done = (ws c).pc.round (ws c).k + 1 := by
  have hat := (hcrew.shape c).now d rest hd
  generalize hj : election.caller e d (v.firstCall ((ws c).pc.round (ws c).k)) = j
  have hjoins : v.Joins (.dir d) j := hj ▸ election.joins e d _
  have hmem : d ∈ v.dirs j := by
    cases ha : v.asynchronous with
    | true =>
        rw [hjoins ha]
        exact List.mem_singleton_self d
    | false =>
        rw [TestEnv.dirs_sync ha j c]
        exact (hcrew.shape c).mem hd
  have hpos : 0 < (ws c).passed (v.mainBarrier d) := by
    rw [hat.main]
    rcases WorkerPc.of_turn_sync hsync with hpc | hpc <;> rw [hpc] <;> cases v.single e d <;>
      simp [WorkerPc.mainPassed, WorkerPc.mainSeg]
  -- The elected worker is in the direction, too.
  obtain ⟨rest', hd'⟩ := TalkWorker.dirs_of_mem (not_past hcrew hd hsync hmem)
    fun _ _ => hcrew.not_later hpos
  refine Stand.Sees.done_of_sync TestEnv.firstCall_succ (hat.paced hrole hd)
    (((hcrew.shape j).now d rest' hd').paced hrole hd') hsync ?_ (hall j hjoins)
    (h.sees c rest hd) (h.sees j rest' hd') hj
  rcases WorkerPc.of_turn_sync hsync with hpc | hpc <;>
    exact (TalkWorker.waitsAt_eq hd hw (by rw [hpc]; rfl)).trans (decide_eq_true rfl)

/-- From its first call of a round a worker goes on as the election says. -/
theorem leave_wait {b : BarrierId} (h : Counted v cfg election e d weakTime ws sh done)
    (hcrew : Crew v e ws sh) (hrole : d.role e = .sender) (hd : (ws c).dirs = d :: rest)
    (hturn : (ws c).pc.turn = .wait) (serial : Bool) (now : UInt64)
    (helected : ((ws c).released v e c d b serial now).pc.turn = .set ↔
      election.caller e d ((ws c).passed (.dir d)) = c) :
    Counted v cfg election e d weakTime
      (Function.update ws c ((ws c).released v e c d b serial now)) sh done := by
  obtain ⟨hearly, hk, hserial⟩ := TalkWorker.released_wait (v := v) (e := e) (c := c) (d := d)
    (b := b) hturn serial now
  have hround : ((ws c).released v e c d b serial now).pc.round
      ((ws c).released v e c d b serial now).k = (ws c).pc.round (ws c).k := by
    rw [WorkerPc.round, WorkerPc.round, hearly, hk]
  have hpassed : (ws c).passed (.dir d) = v.firstCall ((ws c).pc.round (ws c).k) :=
    (((hcrew.shape c).now d rest hd).paced hrole hd).wait hturn
  rw [hpassed] at helected
  refine h.update rfl ?_ ?_ ?_
  · exact fun rest' _ => (h.sees c rest hd).returned hturn hround hserial helected
  · rw [TalkWorker.released_dirs serial now]
    exact h.later c
  · intro rest' _ hlate
    rw [hearly] at hlate
    rw [hk]
    exact h.asserted c rest hd hlate

/-- From its second call it goes on to the stream with the new count. -/
theorem leave_sync {b : BarrierId} (h : Counted v cfg election e d weakTime ws sh done)
    (hcrew : Crew v e ws sh) (hcurrent : v.countCurrent.toNat ≤ configTalkCountMax.toNat)
    (hd : (ws c).dirs = d :: rest) (hturn : (ws c).pc.turn = .sync)
    (hdone : done = (ws c).pc.round (ws c).k + 1) (serial : Bool) (now : UInt64)
    (hasserted : (ws c).pc = .recountSync → (sh.count d).toNat ≤ configTalkCountMax.toNat) :
    Counted v cfg election e d weakTime
      (Function.update ws c ((ws c).released v e c d b serial now)) sh done := by
  have hnext : ((ws c).released v e c d b serial now).pc = .negotiate ∧
      ((ws c).released v e c d b serial now).k = (ws c).pc.round (ws c).k := by
    rcases WorkerPc.of_turn_sync hturn with hpc | hpc
    · refine ⟨by simp only [TalkWorker.released, TalkWorker.proceed, hpc], ?_⟩
      have hzero := ((hcrew.shape c).now d rest hd).early (by rw [hpc]; rfl)
      simp only [TalkWorker.released, TalkWorker.proceed, hpc, hzero]
      rfl
    · refine ⟨by simp only [TalkWorker.released, TalkWorker.proceed, hpc], ?_⟩
      simp only [TalkWorker.released, TalkWorker.proceed, hpc]
      rfl
  refine h.update rfl ?_ ?_ ?_
  · intro rest' _
    unfold Stand.Sees TalkWorker.stand
    dsimp only
    rw [hnext.1, hnext.2, hdone]
    rfl
  · rw [TalkWorker.released_dirs serial now]
    exact h.later c
  · intro rest' _ _
    rw [hnext.2]
    rcases WorkerPc.of_turn_sync hturn with hpc | hpc
    · rw [hpc]
      exact hcurrent
    · rw [← h.count _ hdone]
      exact hasserted hpc

/-- **A barrier lets a worker go.** -/
theorem leave {b : BarrierId} (h : Counted v cfg election e d weakTime ws sh done)
    (hcrew : Crew v e ws sh) (hcurrent : v.countCurrent.toNat ≤ configTalkCountMax.toNat)
    (hrole : d.role e = .sender) (hd : (ws c).dirs = d₁ :: rest) (hw : (ws c).waiting = true)
    (hb : (ws c).pc.barrier v d₁ = some b)
    (hall : ∀ c', v.Joins b c' →
      entered (fun c => (ws c).passed b) (fun c => (ws c).waitsAt v b) c
        ≤ entered (fun c => (ws c).passed b) (fun c => (ws c).waitsAt v b) c')
    (serial : Bool) (now : UInt64)
    (helected : (ws c).pc.turn = .wait →
      (((ws c).released v e c d₁ b serial now).pc.turn = .set ↔
        election.caller e d₁ ((ws c).passed (.dir d₁)) = c))
    (hasserted : (ws c).pc = .recountSync → (sh.count d₁).toNat ≤ configTalkCountMax.toNat) :
    Counted v cfg election e d weakTime
      (Function.update ws c ((ws c).released v e c d₁ b serial now)) sh done := by
  have hdirs : ((ws c).released v e c d₁ b serial now).dirs = (ws c).dirs :=
    TalkWorker.released_dirs serial now
  by_cases hd₁ : d₁ = d
  · subst hd₁
    have hat := (hcrew.shape c).now d₁ rest hd
    cases hturn : (ws c).pc.turn with
    | out =>
        refine h.stays rfl hdirs fun _ => ?_
        have hstays := hat.stays_proceed hrole hb hturn serial now
        exact ⟨hstays.early, hstays.k, hstays.turn⟩
    | set =>
        rcases WorkerPc.of_turn_set hturn with hpc | hpc <;> rw [hpc] at hb <;> cases hb
    | wait => exact h.leave_wait hcrew hrole hd hturn serial now (helected hturn)
    | sync =>
        have hbarrier : b = .dir d₁ := by
          rcases WorkerPc.of_turn_sync hturn with hpc | hpc <;> rw [hpc] at hb <;>
            exact (Option.some.inj hb).symm
        subst hbarrier
        exact h.leave_sync hcrew hcurrent hd hturn (h.done_of_sync hcrew hrole hd hw hturn hall)
          serial now hasserted
  · refine h.stays rfl hdirs ?_
    intro hdir
    obtain ⟨rest', hd'⟩ := hdir
    rw [hd] at hd'
    exact absurd (List.cons.inj hd').1 hd₁

/-- The next direction is behind this one. -/
theorem nextDir (h : Counted v cfg election e d weakTime ws sh done)
    (hd : (ws c).dirs = d₁ :: rest) :
    Counted v cfg election e d weakTime (Function.update ws c ((ws c).nextDir rest)) sh done := by
  have hzero : d ∈ rest → done = 0 := h.later c d₁ rest hd
  refine h.update rfl ?_ ?_ ?_
  · intro rest' hd'
    have hrest : rest = d :: rest' := hd'
    rw [hzero (hrest ▸ List.mem_cons_self ..)]
    subst hrest
    rfl
  · intro d' rest' hd' hmem
    have hrest : rest = d' :: rest' := hd'
    exact hzero (hrest ▸ List.mem_cons_of_mem d' hmem)
  · intro rest' hd' hlate
    have hrest : rest = d :: rest' := hd'
    subst hrest
    cases hlate

/-- **An exchange with the peer.** -/
theorem talk (h : Counted v cfg election e d weakTime ws sh done) (hcrew : Crew v e ws sh)
    (step : TalkStep) (hd : (ws c).dirs = d₁ :: rest) (hfinish : step = .finish → w' = (ws c).nextDir rest)
    (hstay : step ≠ .finish → w'.dirs = (ws c).dirs ∧
      ((ws c).At v e c d₁ → d₁ = d → (ws c).Stays w')) :
    Counted v cfg election e d weakTime (Function.update ws c w') sh done := by
  by_cases hstep : step = .finish
  · rw [hfinish hstep]
    exact h.nextDir hd
  · obtain ⟨hdirs, hstays⟩ := hstay hstep
    refine h.stays rfl hdirs ?_
    intro hdir
    obtain ⟨rest', hd'⟩ := hdir
    rw [hd] at hd'
    exact hstays ((hcrew.shape c).now d₁ rest hd) (List.cons.inj hd').1

theorem sent (h : Counted v cfg election e d weakTime ws sh done) (hcrew : Crew v e ws sh)
    (hrole : d.role e = .sender) {step : TalkStep} (hd : (ws c).dirs = d₁ :: rest)
    (hx : (ws c).exchange = some step) :
    Counted v cfg election e d weakTime
      (Function.update ws c ((ws c).sent v e c d₁ rest sh.count)) sh done := by
  refine h.talk hcrew step hd ?_ fun hstep => ⟨?_, ?_⟩
  · intro heq
    subst heq
    simp only [TalkWorker.sent, TalkWorker.pc_eq_finish hx]
  · exact (TalkWorker.sent_keeps (TalkWorker.pc_ne_finish hx hstep)).1
  · rintro hat rfl
    exact hat.stays_sent hrole hx hstep

theorem heard (h : Counted v cfg election e d weakTime ws sh done) (hcrew : Crew v e ws sh)
    (hrole : d.role e = .sender) {step : TalkStep} (latency : UInt32) (pkt : TalkPayload)
    (hd : (ws c).dirs = d₁ :: rest) (hx : (ws c).exchange = some step) :
    Counted v cfg election e d weakTime
      (Function.update ws c ((ws c).heard v e d₁ rest sh.count latency pkt)) sh done := by
  refine h.talk hcrew step hd ?_ fun hstep => ⟨?_, ?_⟩
  · intro heq
    subst heq
    simp only [TalkWorker.heard, TalkWorker.pc_eq_finish hx]
  · exact (TalkWorker.heard_keeps (TalkWorker.pc_ne_finish hx hstep)).1
  · rintro hat rfl
    exact hat.stays_heard hrole hx hstep

end Counted

/-! ### All states -/

namespace TalkTest

variable {v : TestEnv} {cfg : Config} {env : Env} {election : v.Election} {e : Endpoint} {d : Dir}
  {weakTime : Nat → UInt64} {done : Nat} {s s' : TalkTest v.workers}

/-- The states of a test that runs with a configuration. -/
def Reaches (cfg : Config) (election : v.Election) (s : TalkTest v.workers) : Prop :=
  Relation.ReflTransGen (Advance cfg election) (init v) s

theorem Reaches.reachable (h : s.Reaches cfg election) : s.Reachable v := by
  induction h with
  | refl => exact .refl
  | tail _ hadvance ih => exact ih.tail hadvance.step

theorem shared_set_self {e : Endpoint} {c : Fin v.workers} {w : TalkWorker}
    {sh : TalkContext v.workers} : (s.set e c w sh).shared e = sh := by
  simp [set]

/-- A step at one endpoint. -/
theorem counted_set {f : Endpoint} {c : Fin v.workers} {w : TalkWorker}
    {sh : TalkContext v.workers}
    (h : Counted v cfg election e d weakTime (s.worker e) (s.shared e) done)
    (hset : f = e → ∃ weakTime' done', Extends weakTime weakTime' done done' ∧
      Counted v cfg election e d weakTime' (Function.update (s.worker e) c w) sh done') :
    ∃ weakTime' done', Extends weakTime weakTime' done done' ∧
      Counted v cfg election e d weakTime' ((s.set f c w sh).worker e) ((s.set f c w sh).shared e)
        done' := by
  by_cases hf : f = e
  · subst hf
    simpa [TalkTest.set] using hset rfl
  · refine ⟨weakTime, done, .refl _ _, ?_⟩
    simpa [TalkTest.set, Function.update_of_ne (Ne.symm hf)] using h

/-- **A step of the test.** -/
theorem counted_step (hv : v.Configured cfg) (hopt : OptInv env cfg) (hinv : s.Inv v)
    (hrole : d.role e = .sender) (htested : ∃ j, d ∈ v.dirs j)
    (h : Counted v cfg election e d weakTime (s.worker e) (s.shared e) done)
    (hadvance : Advance cfg election s s') :
    ∃ weakTime' done', Extends weakTime weakTime' done done' ∧
      Counted v cfg election e d weakTime' (s'.worker e) (s'.shared e) done' := by
  obtain ⟨hstep, helected, hrecounted, hasserted⟩ := hadvance
  cases hstep with
  | loc f c hd hw hlocal =>
      refine counted_set h ?_
      intro heq
      subst heq
      refine h.loc (hinv.crew f) (hopt.mul_lt) hrole htested hd hw hlocal fun hpc => ?_
      have hsync := (hlocal.of_set (by rw [hpc]; rfl)).2.2.1
      have hcount := hrecounted f c _ _ hd hpc
      rw [worker_set_self, shared_set_self] at hcount
      refine hcount fun hpc' => ?_
      rw [hpc'] at hsync
      cases hsync
  | @leave f c d₁ rest b serial now hd hw hb hall =>
      refine counted_set h ?_
      intro heq
      subst heq
      refine ⟨weakTime, done, .refl _ _, ?_⟩
      refine h.leave (hinv.crew f) (hv.start hopt ▸ by decide) hrole hd hw hb hall serial now ?_ ?_
      · intro hturn
        have hcaller := helected f c _ _ hd hturn hw
        rw [worker_set_self] at hcaller
        exact hcaller rfl
      · intro hpc
        have hle := hasserted f c _ _ hd hpc
        rw [worker_set_self] at hle
        have hnext : ((s.worker f c).proceed v f c d₁ serial now).pc ≠ .recountSync := by
          simp only [TalkWorker.proceed, hpc]
          exact fun heq => by cases heq
        exact hopt.counts.2.2 ▸ (hle hnext).1
  | send f c fill fillSize hd hx hspeaks =>
      refine counted_set h ?_
      intro heq
      subst heq
      exact ⟨weakTime, done, .refl _ _, h.sent (hinv.crew f) hrole hd hx⟩
  | recv f c latency hd hx hspeaks hchan _ =>
      refine counted_set h ?_
      intro heq
      subst heq
      exact ⟨weakTime, done, .refl _ _, h.heard (hinv.crew f) hrole latency _ hd hx⟩

/-- **A run of the test.** -/
theorem counted_run (hv : v.Configured cfg) (hopt : OptInv env cfg) (hinv : s.Inv v)
    (hrole : d.role e = .sender) (htested : ∃ j, d ∈ v.dirs j)
    (h : Counted v cfg election e d weakTime (s.worker e) (s.shared e) done)
    (hrun : Relation.ReflTransGen (Advance cfg election) s s') :
    s'.Inv v ∧ ∃ weakTime' done', Extends weakTime weakTime' done done' ∧
      Counted v cfg election e d weakTime' (s'.worker e) (s'.shared e) done' := by
  induction hrun with
  | refl => exact ⟨hinv, weakTime, done, .refl _ _, h⟩
  | tail _ hadvance ih =>
      obtain ⟨hinv₁, weakTime₁, done₁, hext₁, h₁⟩ := ih
      obtain ⟨weakTime₂, done₂, hext₂, h₂⟩ :=
        counted_step hv hopt hinv₁ hrole htested h₁ hadvance
      exact ⟨inv_step hinv₁ hadvance.step, weakTime₂, done₂, hext₁.trans hext₂, h₂⟩

theorem Reaches.counted (hv : v.Configured cfg) (hopt : OptInv env cfg)
    (hrole : d.role e = .sender) (htested : ∃ j, d ∈ v.dirs j) (h : s.Reaches cfg election) :
    ∃ weakTime done, Counted v cfg election e d weakTime (s.worker e) (s.shared e) done := by
  have hinit : Counted v cfg election e d (fun _ => 0) ((init v).worker e) ((init v).shared e) 0 :=
    Counted.zero fun _ _ _ => rfl
  obtain ⟨-, weakTime, done, -, hcounted⟩ := counted_run hv hopt inv_init hrole htested hinit h
  exact ⟨weakTime, done, hcounted⟩

end TalkTest

end Ubwt
