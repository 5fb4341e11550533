import Ubwt.Talk.Ending

/-!
# Ubwt.Talk.Records

What the workers of a connection have in their records. The receiver of a direction counts the
packets that were negotiated and their bytes (`TalkWorker.Accounts`).

**A report on its way is the record of the worker that sent it**, which waits for FINISH and does
not touch the record any more (`TalkTest.Sent`), so the two records of a direction are the same from
the moment the report is heard (`TalkTest.Copied`).
-/

namespace Ubwt

open Lib Lib.Posix

/-! ### The record of a receiver -/

/-- A record of a stream of which every packet has come in. -/
structure Recorded (v : TestEnv) (r : ReportCollect) : Prop where
  pkts : r.talkStreamRecvPkts = r.talkCount
  bytes : r.talkStreamRecvBytes = UInt64.ofNat (r.talkCount.toNat * v.size.val)

/-- The count of the stream has been negotiated. -/
def WorkerPc.negotiated (pc : WorkerPc) : Bool := !pc.early && decide (pc ≠ .negotiate)

/-- The worker has come through the loop of its stream. -/
def WorkerPc.through : WorkerPc → Bool
  | endWait | endWaitAll => true
  | _ => false

/-- Whoever is at `p'` after it was at `p` is outside of the loop of a stream, and has come as far
in its stream as at `p`. -/
def WorkerPc.carries (p p' : WorkerPc) : Bool :=
  (!p'.negotiated || p.negotiated) && decide (p' ≠ .streamRun) && (!p'.through || p.through) &&
  (!p'.measured || p.measured)

theorem WorkerPc.carries_iff {p p' : WorkerPc} : p.carries p' = true ↔
    (p'.negotiated = true → p.negotiated = true) ∧ p' ≠ .streamRun ∧
      (p'.through = true → p.through = true) ∧ (p'.measured = true → p.measured = true) := by
  simp [WorkerPc.carries, Bool.or_eq_true, and_assoc, imp_iff_not_or]

namespace TalkWorker

/-- What holds of the receiver of direction `d`. -/
structure Counts (v : TestEnv) (d : Dir) (w : TalkWorker) : Prop where
  count : w.pc.negotiated = true → (w.report d).talkCount = w.count
  run : w.pc = .streamRun → w.i < w.count.toNat
  through : w.pc.through = true → w.i = w.count.toNat
  recorded : w.pc.measured = true → Recorded v (w.report d)

/-- Whoever has negotiated its count did so before, in the same stream. -/
def KeepsCount (d : Dir) (w w' : TalkWorker) : Prop :=
  w'.pc.negotiated = true → w.pc.negotiated = true ∧ w'.k = w.k ∧
    (w'.report d).talkCount = (w.report d).talkCount

variable {v : TestEnv} {e : Endpoint} {c : Fin v.workers} {d : Dir} {rest : List Dir}
  {w w' : TalkWorker} {sh sh' : TalkContext v.workers} {p p' : WorkerPc}

theorem counts_of_early (hpc : w.pc.early = true) : w.Counts v d := by
  have hnone : ∀ {f : WorkerPc → Bool}, (∀ pc : WorkerPc, pc.early = true → f pc = false) →
      f w.pc ≠ true := fun hf ht => by cases (hf w.pc hpc).symm.trans ht
  exact {
    count := fun h => absurd h (hnone (f := WorkerPc.negotiated) (by
      intro pc hearly
      simp [WorkerPc.negotiated, hearly]))
    run := fun h => by rw [h] at hpc; cases hpc
    through := fun h => absurd h (hnone (f := WorkerPc.through) (by
      intro pc hearly
      revert hearly
      cases pc <;> decide))
    recorded := fun h => absurd h (hnone (f := WorkerPc.measured) (by
      intro pc hearly
      revert hearly
      cases pc <;> decide)) }

/-- A step outside of the loop. -/
theorem Counts.move (h : w.Counts v d) (hpc : w.pc = p) (hp : p.carries w'.pc = true)
    (hk : w'.k = w.k) (hcount : w'.count = w.count) (hi : w'.i = w.i)
    (hreport : w'.report = w.report) : w'.Counts v d ∧ w.KeepsCount d w' := by
  subst hpc
  obtain ⟨hnegotiated, hrun, hthrough, hmeasured⟩ := WorkerPc.carries_iff.mp hp
  refine ⟨?_, fun hn => ⟨hnegotiated hn, hk, by rw [hreport]⟩⟩
  exact {
    count := fun hn => by rw [hreport, hcount, h.count (hnegotiated hn)]
    run := fun hr => absurd hr hrun
    through := fun ht => by rw [hi, hcount, h.through (hthrough ht)]
    recorded := fun hm => hreport ▸ h.recorded (hmeasured hm) }

/-- The head of the stream loop. -/
theorem counts_toRun {i : Nat} (hcount : (w.report d).talkCount = w.count)
    (hi : i ≤ w.count.toNat) : (w.toRun i).Counts v d := by
  unfold TalkWorker.toRun
  split
  · rename_i hlt
    exact ⟨fun _ => hcount, fun _ => hlt, nofun, nofun⟩
  · rename_i hge
    exact ⟨fun _ => hcount, nofun, fun _ => Nat.le_antisymm hi (Nat.not_lt.mp hge), nofun⟩

theorem counts_toPing (hrole : d.role e = .receiver) (i : Nat) : (w.toPing v e d i).Counts v d := by
  unfold toPing
  split
  · exact counts_of_early rfl
  · rw [hrole]
    exact ⟨nofun, nofun, nofun, nofun⟩

/-- **The end of a stream**: as many packets as were negotiated. -/
theorem Counts.measure (h : w.Counts v d) (hrole : d.role e = .receiver)
    (hthrough : w.pc.through = true) (hnegotiated : w.pc.negotiated = true) :
    (w.measure v e c d).Counts v d ∧ w.KeepsCount d (w.measure v e c d) := by
  have hi := h.through hthrough
  have hcount := h.count hnegotiated
  unfold TalkWorker.measure
  rw [hrole]
  refine ⟨⟨fun _ => ?_, nofun, nofun, fun _ => ?_⟩, fun _ => ⟨hnegotiated, rfl, ?_⟩⟩
  · simpa [setReport] using hcount
  · simp only [setReport, Function.update_self, hi]
    refine ⟨?_, ?_⟩
    · rw [hcount]
      exact UInt32.ofNat_toNat
    · rw [hcount]
  · simp [setReport]

theorem counts_again (hrole : d.role e = .receiver) :
    (w.again e d).Counts v d ∧ w.KeepsCount d (w.again e d) := by
  unfold again
  rw [hrole]
  exact ⟨⟨nofun, nofun, nofun, nofun⟩, nofun⟩

/-- A step of the receiver alone. -/
theorem Counts.loc (h : w.Counts v d) (hrole : d.role e = .receiver)
    (hstep : Local v e c d w sh w' sh') : w'.Counts v d ∧ w.KeepsCount d w' := by
  cases hstep with
  | enter => exact ⟨⟨h.count, h.run, h.through, h.recorded⟩, fun hn => ⟨hn, rfl, rfl⟩⟩
  | testWeak hpc =>
      split <;> exact h.move hpc rfl rfl rfl rfl rfl
  | testImWeak hpc =>
      unfold TalkWorker.testImWeak
      split_ifs
      · exact counts_again hrole
      · exact h.move hpc rfl rfl rfl rfl rfl
      · exact counts_again hrole
      · exact h.move hpc rfl rfl rfl rfl rfl
  | testImWeakReverse hpc =>
      split
      · exact counts_again hrole
      · exact h.move hpc rfl rfl rfl rfl rfl
  | talkInit hpc | countSet hpc | resetWeak hpc | resetImWeak hpc | resetWeakTime hpc
  | resetUnlock hpc | loadWeak hpc | storeWeak hpc | loadImWeak hpc | storeImWeak hpc
  | setWeakTime hpc | setUnlock hpc | resetLock hpc _ | setLock hpc _ | recount _ hpc =>
      exact h.move hpc rfl rfl rfl rfl rfl

theorem toRun_report (i : Nat) : (w.toRun i).report = w.report ∧ (w.toRun i).k = w.k := by
  unfold toRun
  split <;> exact ⟨rfl, rfl⟩

theorem not_negotiated_toPing (hrole : d.role e = .receiver) (i : Nat) :
    (w.toPing v e d i).pc.negotiated = false := by
  unfold toPing
  split
  · rfl
  · rw [hrole]
    rfl

/-- A barrier lets it go. -/
theorem Counts.released {b : BarrierId} (h : w.Counts v d) (hat : w.At v e c d)
    (hrole : d.role e = .receiver) (hb : w.pc.barrier v d = some b) (serial : Bool)
    (now : UInt64) :
    (w.released v e c d b serial now).Counts v d ∧
      w.KeepsCount d (w.released v e c d b serial now) := by
  have hfree : ({ w with waiting := false, passed := w.passes b } : TalkWorker).Counts v d :=
    ⟨h.count, h.run, h.through, h.recorded⟩
  unfold TalkWorker.released
  rw [proceed_with]
  rcases barrier_cases hb with ⟨-, hpc⟩ | ⟨-, hpc⟩ | ⟨-, hpc⟩ | ⟨-, hpc⟩
  · rcases hpc with hpc | hpc | hpc | hpc | hpc <;> simp only [proceed, hpc]
    · refine ⟨counts_toPing hrole 0, fun hn => ?_⟩
      rw [not_negotiated_toPing hrole] at hn
      cases hn
    · exact h.move hpc rfl rfl rfl rfl rfl
    · rw [hrole]
      have hcount := h.count (by rw [hpc]; rfl)
      refine ⟨counts_toRun ?_ (Nat.zero_le _), fun _ => ⟨by rw [hpc]; rfl, ?_, ?_⟩⟩
      · simpa [setReport] using hcount
      · exact (toRun_report 0).2
      · rw [(toRun_report 0).1]
        simp [setReport]
    · cases w.weak <;> exact h.move hpc rfl rfl rfl rfl rfl
    · exact h.move hpc rfl rfl rfl rfl rfl
  · have hsender : d.role e = .sender := by
      refine hat.sender ?_
      rcases hpc with hpc | hpc | hpc | hpc <;> rw [hpc] <;> rfl
    cases hrole.symm.trans hsender
  · simp only [proceed, hpc]
    split
    · exact h.move hpc rfl rfl rfl rfl rfl
    · rw [hpc] at hfree
      exact ⟨(hfree.measure hrole rfl rfl).1, (hpc ▸ (hfree.measure hrole rfl rfl).2 :)⟩
  · simp only [proceed, hpc]
    rw [hpc] at hfree
    exact ⟨(hfree.measure hrole rfl rfl).1, (hpc ▸ (hfree.measure hrole rfl rfl).2 :)⟩

/-- It says something. -/
theorem Counts.sent {step : TalkStep} {count : Dir → UInt64} (h : w.Counts v d)
    (hrole : d.role e = .receiver) (hx : w.exchange = some step)
    (hspeaks : d.role e = step.speaker) :
    (w.sent v e c d rest count).Counts v d ∧ w.KeepsCount d (w.sent v e c d rest count) := by
  rcases exchange_cases hx with ⟨hpc, rfl⟩ | ⟨hpc, rfl⟩ | ⟨hpc, rfl⟩ | ⟨hpc, rfl⟩ | ⟨hpc, rfl⟩ |
    ⟨hpc, rfl⟩ | ⟨hpc, rfl⟩ | ⟨hpc, rfl⟩ <;> simp only [TalkWorker.sent, hpc]
  · cases hrole.symm.trans hspeaks
  · refine ⟨counts_toPing hrole _, fun hn => ?_⟩
    rw [not_negotiated_toPing hrole] at hn
    cases hn
  · cases hrole.symm.trans hspeaks
  · exact h.move hpc rfl rfl rfl rfl rfl
  · cases hrole.symm.trans hspeaks
  · exact h.move hpc rfl rfl rfl rfl rfl
  · exact h.move hpc rfl rfl rfl rfl rfl
  · cases hrole.symm.trans hspeaks

/-- It hears something: the count, where it is not the end of the direction. -/
theorem Counts.heard {step : TalkStep} {count : Dir → UInt64} {latency : UInt32}
    {pkt : TalkPayload} (h : w.Counts v d) (hrole : d.role e = .receiver)
    (hx : w.exchange = some step) (hlistens : d.role e ≠ step.speaker) (hstep : step ≠ .finish) :
    (w.heard v e d rest count latency pkt).Counts v d ∧
      (w.KeepsCount d (w.heard v e d rest count latency pkt) ∨
        ∃ k, step = .negotiate k ∧ (w.heard v e d rest count latency pkt).k = w.k ∧
          ((w.heard v e d rest count latency pkt).report d).talkCount = pkt.count) := by
  rcases exchange_cases hx with ⟨hpc, rfl⟩ | ⟨hpc, rfl⟩ | ⟨hpc, rfl⟩ | ⟨hpc, rfl⟩ | ⟨hpc, rfl⟩ |
    ⟨hpc, rfl⟩ | ⟨hpc, rfl⟩ | ⟨hpc, rfl⟩ <;> simp only [TalkWorker.heard, hpc]
  · refine ⟨counts_of_early rfl, .inl ?_⟩
    intro hn
    cases hn
  · exact absurd hrole hlistens
  · refine ⟨⟨fun _ => ?_, ?_, ?_, ?_⟩, .inr ⟨w.k, rfl, rfl, ?_⟩⟩
    · simp [setReport]
    · intro hr
      cases hr
    · intro ht
      cases ht
    · intro hm
      cases hm
    · simp [setReport]
  · exact absurd hrole hlistens
  · have hcount := h.count (by rw [hpc]; rfl)
    refine ⟨counts_toRun hcount (h.run hpc), .inl fun _ => ⟨by rw [hpc]; rfl, ?_, ?_⟩⟩
    · exact (toRun_report _).2
    · rw [(toRun_report _).1]
  · exact absurd hrole hlistens
  · exact absurd hrole hlistens
  · exact absurd rfl hstep

/-! ### A step of a worker -/

/-- What a worker does in a step, with the messages before it and what it says. -/
inductive Moves (v : TestEnv) (e : Endpoint) (c : Fin v.workers) (d : Dir) (rest : List Dir)
    (w : TalkWorker) (sh : TalkContext v.workers) (msgs : List TalkPayload) :
    TalkWorker → List TalkPayload → Prop
  | loc {w' : TalkWorker} {sh' : TalkContext v.workers} (h : Local v e c d w sh w' sh') :
      Moves v e c d rest w sh msgs w' []
  | leave {b} (hb : w.pc.barrier v d = some b) (serial : Bool) (now : UInt64) :
      Moves v e c d rest w sh msgs (w.released v e c d b serial now) []
  | send {step} (fill : List UInt8) (fillSize : fill.length = talkPayloadMaxSize - talkHdrSize)
      (hx : w.exchange = some step) (hspeaks : d.role e = step.speaker) :
      Moves v e c d rest w sh msgs (w.sent v e c d rest sh.count)
        [talkSay (v.hosts e) v.iter v.size (w.data v c d sh.count fill fillSize) step]
  | recv {step pkt more} (latency : UInt32) (hx : w.exchange = some step)
      (hlistens : d.role e ≠ step.speaker) (hmsgs : msgs = pkt :: more)
      (hcheck : talkCheck v.iter pkt step = .ok ()) :
      Moves v e c d rest w sh msgs (w.heard v e d rest sh.count latency pkt) []

variable {msgs said : List TalkPayload}

theorem pc_ne_finish_of_plain (hpc : w.pc = p) (hp : decide (p = .finish) = false) :
    w.pc ≠ .finish :=
  hpc ▸ of_decide_eq_false hp

theorem pc_ne_finish_again : (w.again e d).pc ≠ .finish := by
  unfold again
  cases d.role e <;> nofun

/-- A worker does not get to FINISH, nor beyond it, by itself. -/
theorem Local.pc_ne_finish (h : Local v e c d w sh w' sh') :
    w.pc ≠ .finish ∧ w'.pc ≠ .finish := by
  cases h with
  | enter hb =>
      refine ⟨?_, ?_⟩ <;>
        · intro hpc
          rw [show w.pc = .finish from hpc] at hb
          cases hb
  | talkInit hpc | countSet hpc | resetWeak hpc | resetImWeak hpc | resetWeakTime hpc
  | resetUnlock hpc | loadWeak hpc | storeWeak hpc | loadImWeak hpc | storeImWeak hpc
  | setWeakTime hpc | setUnlock hpc | resetLock hpc _ | setLock hpc _ | recount _ hpc =>
      exact ⟨pc_ne_finish_of_plain hpc rfl, nofun⟩
  | testWeak hpc =>
      refine ⟨pc_ne_finish_of_plain hpc rfl, ?_⟩
      split <;> nofun
  | testImWeak hpc =>
      refine ⟨pc_ne_finish_of_plain hpc rfl, ?_⟩
      unfold TalkWorker.testImWeak
      split_ifs
      · exact pc_ne_finish_again
      · nofun
      · exact pc_ne_finish_again
      · nofun
  | testImWeakReverse hpc =>
      refine ⟨pc_ne_finish_of_plain hpc rfl, ?_⟩
      split
      · exact pc_ne_finish_again
      · nofun

/-- Where a step in direction `d` takes a worker: after FINISH to the next direction, and until then
it changes one record only. -/
def Goes (d : Dir) (rest : List Dir) (w w' : TalkWorker) : Prop :=
  (w.pc = .finish ∧ w' = w.nextDir rest) ∨
    (w.pc ≠ .finish ∧ w'.dirs = w.dirs ∧ ∀ d', d' ≠ d → w'.report d' = w.report d')

theorem Moves.goes (h : w.Moves v e c d rest sh msgs w' said) : w.Goes d rest w' := by
  cases h with
  | loc h =>
      obtain ⟨hdirs, -, hreport⟩ := h.frame
      exact .inr ⟨h.pc_ne_finish.1, hdirs, fun _ _ => by rw [hreport]⟩
  | leave hb serial now =>
      obtain ⟨hdirs, hreport, -⟩ : w.Keeps d (w.proceed v e c d serial now) :=
        proceed_keeps serial now
      refine .inr ⟨?_, hdirs, hreport⟩
      intro hpc
      rw [hpc] at hb
      cases hb
  | @send step fill fillSize hx hspeaks =>
      by_cases hstep : step = .finish
      · subst hstep
        have hpc := pc_eq_finish hx
        exact .inl ⟨hpc, by simp only [TalkWorker.sent, hpc]⟩
      · obtain ⟨hdirs, hreport, -⟩ : w.Keeps d (w.sent v e c d rest sh.count) :=
          sent_keeps (pc_ne_finish hx hstep)
        exact .inr ⟨pc_ne_finish hx hstep, hdirs, hreport⟩
  | @recv step pkt more latency hx hlistens hmsgs _ =>
      by_cases hstep : step = .finish
      · subst hstep
        have hpc := pc_eq_finish hx
        exact .inl ⟨hpc, by simp only [TalkWorker.heard, hpc]⟩
      · obtain ⟨hdirs, hreport, -⟩ : w.Keeps d (w.heard v e d rest sh.count latency pkt) :=
          heard_keeps (pc_ne_finish hx hstep)
        exact .inr ⟨pc_ne_finish hx hstep, hdirs, hreport⟩

/-- The worker is through with a direction, but for its FINISH. -/
def Through (d : Dir) (w : TalkWorker) : Prop :=
  d ∉ w.dirs ∨ ∃ rest, w.dirs = d :: rest ∧ w.pc = .finish

/-- Whoever is through with a direction leaves its record alone. -/
theorem Goes.through {d' : Dir} (h : w.Goes d rest w') (hd : w.dirs = d :: rest)
    (hnodup : w.dirs.Nodup) (hthrough : w.Through d') :
    w'.Through d' ∧ w'.report d' = w.report d' := by
  rw [hd] at hnodup
  rcases h with ⟨-, rfl⟩ | ⟨hpc, hdirs, hreport⟩
  · refine ⟨.inl ?_, rfl⟩
    show d' ∉ rest
    rcases hthrough with hnot | ⟨rest', hd', -⟩
    · rw [hd, List.mem_cons, not_or] at hnot
      exact hnot.2
    · rw [hd] at hd'
      cases hd'
      exact (List.nodup_cons.mp hnodup).1
  · rcases hthrough with hnot | ⟨-, -, hfinish⟩
    · refine ⟨.inl (hdirs ▸ hnot), hreport d' ?_⟩
      rintro rfl
      exact hnot (hd ▸ List.mem_cons_self ..)
    · exact absurd hfinish hpc

/-- Whoever gets through with a direction gets to its FINISH. -/
theorem Goes.through_cases {d' : Dir} (h : w.Goes d rest w') (hd : w.dirs = d :: rest)
    (hthrough : w'.Through d') : w.Through d' ∨ d' = d ∧ w'.pc = .finish := by
  rcases h with ⟨hpc, rfl⟩ | ⟨-, hdirs, -⟩
  · refine .inl ?_
    by_cases hd' : d' = d
    · exact .inr ⟨rest, hd' ▸ hd, hpc⟩
    · rcases hthrough with hnot | ⟨-, -, hpc'⟩
      · refine .inl ?_
        rw [hd, List.mem_cons, not_or]
        exact ⟨hd', hnot⟩
      · unfold TalkWorker.nextDir at hpc'
        dsimp only at hpc'
        split at hpc' <;> cases hpc'
  · rcases hthrough with hnot | ⟨rest', hd', hpc'⟩
    · exact .inl (.inl (hdirs ▸ hnot))
    · rw [hdirs, hd] at hd'
      exact .inr ⟨(List.cons.inj hd').1.symm, hpc'⟩

/-- A step of the receiver in its direction. -/
theorem Moves.counts (hmove : w.Moves v e c d rest sh msgs w' said) (h : w.Counts v d)
    (hat : w.At v e c d) (hrole : d.role e = .receiver) (hpc : w.pc ≠ .finish) :
    w'.Counts v d ∧ (w.KeepsCount d w' ∨ ∃ pkt more, msgs = pkt :: more ∧
      w.exchange = some (.negotiate w.k) ∧ w'.k = w.k ∧ (w'.report d).talkCount = pkt.count) := by
  cases hmove with
  | loc hlocal => exact (h.loc hrole hlocal).imp_right .inl
  | leave hb serial now => exact (h.released hat hrole hb serial now).imp_right .inl
  | send fill fillSize hx hspeaks => exact (h.sent hrole hx hspeaks).imp_right .inl
  | @recv step pkt more latency hx hlistens hmsgs _ =>
      have hstep : step ≠ .finish := by
        rintro rfl
        exact hpc (pc_eq_finish hx)
      obtain ⟨hcounts, hkeeps⟩ :
          (w.heard v e d rest sh.count latency pkt).Counts v d ∧ _ :=
        h.heard hrole hx hlistens hstep
      refine ⟨hcounts, hkeeps.imp_right ?_⟩
      rintro ⟨k, rfl, hk, hcount⟩
      refine ⟨pkt, more, hmsgs, ?_, hk, hcount⟩
      rw [exchange, pc_of_negotiate hx]

theorem pc_of_nextStep (h : w.nextStep v d = .finish) : w.pc = .finish ∨ w.pc = .returned := by
  cases hpc : w.pc <;> simp [nextStep, hpc, TalkStep.handshake, TalkStep.stream] at h ⊢ <;>
    split at h <;> cases h

theorem of_pos_talk {step : TalkStep} (h : (w.pos v).1 = .talk d rest step) :
    w.dirs = d :: rest ∧ w.nextStep v d = step := by
  unfold pos at h
  split at h
  · cases h
  · cases h
    exact ⟨‹_›, rfl⟩

theorem pc_ne_finish_toPing (i : Nat) : (w.toPing v e d i).pc ≠ .finish := by
  unfold toPing
  split
  · nofun
  · cases d.role e <;> nofun

theorem pc_ne_finish_toRun (i : Nat) : (w.toRun i).pc ≠ .finish := by
  unfold toRun
  split <;> nofun

theorem pc_ne_finish_nextDir : (w.nextDir rest).pc ≠ .finish := by
  unfold nextDir
  split <;> nofun

theorem pc_ne_finish_proceed {b : BarrierId} (hb : w.pc.barrier v d = some b) (serial : Bool)
    (now : UInt64) : (w.proceed v e c d serial now).pc ≠ .finish := by
  have hmeasure : (w.measure v e c d).pc ≠ .finish := by
    unfold measure
    cases d.role e <;> simp [setReport]
  rcases barrier_cases hb with ⟨-, hpc⟩ | ⟨-, hpc⟩ | ⟨-, hpc⟩ | ⟨-, hpc⟩
  · rcases hpc with hpc | hpc | hpc | hpc | hpc <;> simp only [proceed, hpc]
    · exact pc_ne_finish_toPing 0
    · simp
    · cases d.role e <;> exact pc_ne_finish_toRun 0
    · split <;> simp
    · simp
  · rcases hpc with hpc | hpc | hpc | hpc <;> simp only [proceed, hpc] <;>
      cases serial <;> simp
  · simp only [proceed, hpc]
    split
    · simp
    · exact hmeasure
  · simp only [proceed, hpc]
    exact hmeasure

/-- FINISH comes after the report, which the receiver says and the sender hears. -/
theorem Moves.finish_cases (hmove : w.Moves v e c d rest sh msgs w' said) (hpc : w'.pc = .finish) :
    w.exchange = some .report ∧
      ((d.role e = .receiver ∧ w'.report = w.report ∧
          said = [reportPayload (v.hosts e) v.size (w.report d)]) ∨
        d.role e = .sender ∧ ∃ pkt more, msgs = pkt :: more ∧ pkt.has .report = true ∧
          w'.report d = reportUnmarshal (v.hosts e) pkt.buf) := by
  cases hmove with
  | loc hlocal => exact absurd hpc hlocal.pc_ne_finish.2
  | leave hb serial now => exact absurd hpc (pc_ne_finish_proceed hb serial now)
  | send fill fillSize hx hspeaks =>
      rcases exchange_cases hx with ⟨hw, rfl⟩ | ⟨hw, rfl⟩ | ⟨hw, rfl⟩ | ⟨hw, rfl⟩ | ⟨hw, rfl⟩ |
        ⟨hw, rfl⟩ | ⟨hw, rfl⟩ | ⟨hw, rfl⟩ <;> simp only [TalkWorker.sent, hw] at hpc
      case inr.inl => exact absurd hpc (pc_ne_finish_toPing _)
      case inr.inr.inr.inr.inl => exact absurd hpc (pc_ne_finish_toRun _)
      case inr.inr.inr.inr.inr.inr.inl =>
        refine ⟨hx, .inl ⟨hspeaks, ?_, rfl⟩⟩
        simp only [TalkWorker.sent, hw]
      case inr.inr.inr.inr.inr.inr.inr => exact absurd hpc pc_ne_finish_nextDir
      all_goals cases hpc
  | @recv step pkt more latency hx hlistens hmsgs hcheck =>
      rcases exchange_cases hx with ⟨hw, rfl⟩ | ⟨hw, rfl⟩ | ⟨hw, rfl⟩ | ⟨hw, rfl⟩ | ⟨hw, rfl⟩ |
        ⟨hw, rfl⟩ | ⟨hw, rfl⟩ | ⟨hw, rfl⟩ <;> simp only [TalkWorker.heard, hw] at hpc
      case inr.inl =>
        split at hpc <;> exact absurd hpc (pc_ne_finish_toPing _)
      case inr.inr.inr.inr.inl => exact absurd hpc (pc_ne_finish_toRun _)
      case inr.inr.inr.inr.inr.inr.inl =>
        have hsender : d.role e = .sender := by
          cases hrole : d.role e with
          | sender => rfl
          | receiver => exact absurd hrole hlistens
        refine ⟨hx, .inr ⟨hsender, pkt, more, hmsgs, ?_, ?_⟩⟩
        · by_contra hhas
          simp only [talkCheck, hhas] at hcheck
          cases hcheck
        · simp only [TalkWorker.heard, hw, setReport, Function.update_self]
      case inr.inr.inr.inr.inr.inr.inr => exact absurd hpc pc_ne_finish_nextDir
      all_goals cases hpc

/-- What holds of the records of a worker: those of the directions that it receives, and those that
it does not test. -/
structure Accounts (v : TestEnv) (e : Endpoint) (c : Fin v.workers) (w : TalkWorker) : Prop where
  now : ∀ d rest, w.dirs = d :: rest → d.role e = .receiver → w.Counts v d
  past : ∀ d ∈ v.dirs c, d ∉ w.dirs → d.role e = .receiver → Recorded v (w.report d)
  other : ∀ d, d ∉ v.dirs c → w.report d = .zero

theorem Accounts.moves (h : w.Accounts v e c) (hshape : w.Shape v e c) (hd : w.dirs = d :: rest)
    (hmove : w.Moves v e c d rest sh msgs w' said) : w'.Accounts v e c := by
  rcases hmove.goes with ⟨hpc, rfl⟩ | ⟨hpc, hdirs, hreport⟩
  · exact {
      now := by
        intro d' rest' hd' _
        have hrest : rest = d' :: rest' := hd'
        subst hrest
        exact counts_of_early rfl
      past := by
        intro d' hmem hnot hrole
        show Recorded v (w.report d')
        by_cases hd' : d' = d
        · subst hd'
          exact (h.now d' rest hd hrole).recorded (by rw [hpc]; rfl)
        · refine h.past d' hmem ?_ hrole
          rw [hd, List.mem_cons, not_or]
          exact ⟨hd', hnot⟩
      other := h.other }
  · exact {
      now := by
        intro d' rest' hd' hrole
        rw [hdirs, hd] at hd'
        cases hd'
        exact (hmove.counts (h.now d rest hd hrole) (hshape.now d rest hd) hrole hpc).1
      past := by
        intro d' hmem hnot hrole
        rw [hdirs] at hnot
        rw [hreport d' (by
          rintro rfl
          exact hnot (hd ▸ List.mem_cons_self ..))]
        exact h.past d' hmem hnot hrole
      other := by
        intro d' hnot
        rw [hreport d' (by
          rintro rfl
          exact hnot (hshape.mem hd))]
        exact h.other d' hnot }

end TalkWorker

namespace TalkTest

variable {v : TestEnv} {s s' : TalkTest v.workers} {e : Endpoint} {c : Fin v.workers} {d : Dir}
  {rest : List Dir}

/-- What is on its way elsewhere. -/
theorem chan_setChan_other {e' : Endpoint} {c' : Fin v.workers} {msgs : List TalkPayload}
    (h : ¬(e = e' ∧ c = c')) : (s.setChan c' e' msgs).chan c e = s.chan c e := by
  by_cases hc : c = c'
  · subst hc
    exact chan_setChan_of_ne fun he => h ⟨he, rfl⟩
  · exact congrFun (Function.update_of_ne hc _ _) e

/-- A step is one of the worker itself, or takes at most a message that it has said. -/
theorem Step.own_cases (hstep : Step v s s') (e : Endpoint) (c : Fin v.workers) :
    (s'.worker e c = s.worker e c ∧ s'.chan c e <:+ s.chan c e) ∨
      ∃ d rest said, (s.worker e c).dirs = d :: rest ∧
        (s.worker e c).Moves v e c d rest (s.shared e) (s.chan c e.peer) (s'.worker e c) said ∧
        s'.chan c e = s.chan c e ++ said := by
  cases hstep with
  | @loc e' c' d rest w sh hd hw hlocal =>
      by_cases hsame : e = e' ∧ c = c'
      · obtain ⟨rfl, rfl⟩ := hsame
        rw [worker_set_self]
        exact .inr ⟨d, rest, [], hd, .loc hlocal, (List.append_nil _).symm⟩
      · exact .inl ⟨worker_set_of_ne hsame, List.suffix_refl _⟩
  | @leave e' c' d rest b serial now hd hw hb hall =>
      by_cases hsame : e = e' ∧ c = c'
      · obtain ⟨rfl, rfl⟩ := hsame
        rw [worker_set_self]
        exact .inr ⟨d, rest, [], hd, .leave hb serial now, (List.append_nil _).symm⟩
      · exact .inl ⟨worker_set_of_ne hsame, List.suffix_refl _⟩
  | @send e' c' d rest step fill fillSize hd hx hrole =>
      rw [worker_setChan]
      by_cases hsame : e = e' ∧ c = c'
      · obtain ⟨rfl, rfl⟩ := hsame
        rw [worker_set_self, chan_setChan_self]
        exact .inr ⟨d, rest, _, hd, .send fill fillSize hx hrole, rfl⟩
      · rw [chan_setChan_other hsame]
        exact .inl ⟨worker_set_of_ne hsame, List.suffix_refl _⟩
  | @recv e' c' d rest step pkt more latency hd hx hrole hchan hcheck =>
      rw [worker_setChan]
      by_cases hsame : e = e' ∧ c = c'
      · obtain ⟨rfl, rfl⟩ := hsame
        rw [worker_set_self, chan_setChan_of_ne e.peer_ne.symm]
        exact .inr ⟨d, rest, [], hd, .recv latency hx hrole hchan hcheck,
          (List.append_nil _).symm⟩
      · refine .inl ⟨worker_set_of_ne hsame, ?_⟩
        by_cases hpeer : e = e'.peer ∧ c = c'
        · obtain ⟨rfl, rfl⟩ := hpeer
          rw [chan_setChan_self, hchan]
          exact List.suffix_cons pkt more
        · rw [chan_setChan_other hpeer]
          exact List.suffix_refl _

theorem Reachable.accounts (h : s.Reachable v) (e : Endpoint) (c : Fin v.workers) :
    (s.worker e c).Accounts v e c := by
  induction h with
  | refl =>
      exact {
        now := fun _ _ _ _ => TalkWorker.counts_of_early rfl
        past := fun _ hmem hnot _ => absurd hmem hnot
        other := fun _ _ => rfl }
  | tail hreach hstep ih =>
      rcases hstep.own_cases e c with ⟨heq, -⟩ | ⟨d, rest, said, hd, hmove, -⟩
      · rw [heq]
        exact ih
      · exact ih.moves (((Reachable.inv hreach).crew e).shape c) hd hmove

/-! ### The report on its way -/

/-- Only the report exchange says a report. -/
theorem report_of_has {h : Host} {iter : UInt16} {size : PayloadSize} {x : TalkData}
    {step : TalkStep} (hhas : (talkSay h iter size x step).has .report = true) :
    step = .report := by
  rw [TalkPayload.has, talkSay_flags] at hhas
  generalize x.weak = weak at hhas
  cases step with
  | report => rfl
  | _ =>
      exfalso
      revert weak
      dsimp only [TalkStep.flags, TalkStep.op]
      decide

/-- Before the report exchange there is no report. -/
theorem no_report_of_spoken {p q : TalkPos × UInt32} {pkts : List TalkPayload}
    (h : (v.connScript c).Spoken e p pkts q) (hq : q.1 = .talk d rest .report)
    {pkt : TalkPayload} (hmem : pkt ∈ pkts) : pkt.has .report = false := by
  induction h with
  | nil => exact absurd hmem List.not_mem_nil
  | @cons p m pkts q hspeaker hadmits hrest ih =>
      rcases List.mem_cons.mp hmem with rfl | hmem
      · by_contra hhas
        have hhas := Bool.of_not_eq_false hhas
        obtain ⟨pos, n⟩ := p
        cases pos with
        | returned => cases hspeaker
        | talk d' rest' step =>
            obtain ⟨f, x, -, rfl, -⟩ := hadmits
            obtain rfl := report_of_has hhas
            -- After a report the other endpoint speaks.
            have hsilent : (TalkPos.talk d' rest' .finish).speaker ≠ some e := by
              have hrole := (TalkPos.speaker_talk d' rest' .report e).mp hspeaker
              rw [ne_eq, TalkPos.speaker_talk, hrole]
              nofun
            obtain ⟨-, rfl⟩ := hrest.of_silent hsilent
            cases hq
      · exact ih hq hmem

/-- A report that is on its way is the record of the worker that said it. -/
def Sent (s : TalkTest v.workers) : Prop :=
  ∀ e c d rest, d.role e = .receiver → (s.worker e c).dirs = d :: rest →
    (s.worker e c).pc = .finish → ∀ pkt ∈ s.chan c e, pkt.has .report = true →
      pkt = reportPayload (v.hosts e) v.size ((s.worker e c).report d)

theorem Reachable.sent (h : s.Reachable v) : s.Sent := by
  induction h with
  | refl => exact fun _ _ _ _ _ _ hpc => by cases hpc
  | @tail s s' hreach hstep ih =>
      intro e c d rest hrole hd hpc pkt hmem hhas
      have hinv := Reachable.inv hreach
      rcases hstep.own_cases e c with ⟨hsame, hsuffix⟩ | ⟨d₁, rest₁, said, hd₁, hmove, hchan⟩
      · rw [hsame] at hd hpc ⊢
        exact ih e c d rest hrole hd hpc pkt (hsuffix.subset hmem) hhas
      · have hdirs : (s'.worker e c).dirs = (s.worker e c).dirs := by
          rcases hmove.goes with ⟨-, heq⟩ | ⟨-, hdirs, -⟩
          · rw [heq] at hpc
            exact absurd hpc TalkWorker.pc_ne_finish_nextDir
          · exact hdirs
        rw [hdirs, hd₁] at hd
        cases hd
        obtain ⟨hx, ⟨-, hreport, rfl⟩ | ⟨hsender, -⟩⟩ := hmove.finish_cases hpc
        · rw [hchan, List.mem_append, List.mem_singleton] at hmem
          rcases hmem with hmem | rfl
          · have hpos := TalkWorker.pos_of_exchange (v := v) hd₁ hx
            have hspeaker : ((v.connScript c).speaker ((s.worker e c).pos v)) = some e := by
              rw [hpos]
              exact (TalkPos.speaker_talk d rest .report e).mpr hrole
            have hspoken := ((hinv.inStep c).ahead_of_speaker hspeaker).1
            cases (no_report_of_spoken hspoken (congrArg Prod.fst hpos) hmem).symm.trans hhas
          · rw [hreport]
        · cases hrole.symm.trans hsender

/-! ### The two records of a connection -/

/-- Whoever is through with a direction leaves its record alone. -/
theorem Step.through (hstep : Step v s s') (hinv : s.Inv v) (h : (s.worker e c).Through d) :
    (s'.worker e c).Through d ∧ (s'.worker e c).report d = (s.worker e c).report d := by
  rcases hstep.own_cases e c with ⟨hsame, -⟩ | ⟨d₁, rest, said, hd, hmove, -⟩
  · rw [hsame]
    exact ⟨h, rfl⟩
  · have hsuffix := ((hinv.crew e).shape c).suffix
    exact hmove.goes.through hd ((v.nodup_dirs c).sublist hsuffix.sublist) h

/-- The sender of a direction has the record of its receiver, when it is through. -/
def Copied (s : TalkTest v.workers) : Prop :=
  ∀ e c d, d.role e = .sender → (s.worker e c).Through d → d ∈ v.dirs c →
    (s.worker e.peer c).Through d ∧
      (s.worker e c).report d = (s.worker e.peer c).report d

/-- When the sender hears the report, the receiver waits for FINISH. -/
theorem Reachable.reported (h : s.Reachable v) {pkt : TalkPayload} {more : List TalkPayload}
    (hd : (s.worker e c).dirs = d :: rest) (hx : (s.worker e c).exchange = some .report)
    (hrole : d.role e = .sender) (hchan : s.chan c e.peer = pkt :: more) :
    (s.worker e.peer c).Through d ∧
      reportUnmarshal (v.hosts e) pkt.buf = (s.worker e.peer c).report d := by
  have hpos := TalkWorker.pos_of_exchange (v := v) hd hx
  obtain ⟨-, hsays, hspoken, -⟩ := (h.inv.inStep c).behind (s := e) hchan
  rw [hpos] at hsays hspoken
  obtain ⟨f, x, -, rfl, -⟩ := hsays
  have hpeer : d.role e.peer = .receiver := by
    cases d <;> cases e <;> first | rfl | cases hrole
  have hsilent : (TalkPos.talk d rest .finish).speaker ≠ some e.peer := by
    rw [ne_eq, TalkPos.speaker_talk, hpeer]
    nofun
  obtain ⟨-, hposPeer⟩ := hspoken.of_silent hsilent
  obtain ⟨hdPeer, hnext⟩ := TalkWorker.of_pos_talk (congrArg Prod.fst hposPeer).symm
  have hpcPeer := (TalkWorker.pc_of_nextStep hnext).resolve_right (h.ne_returned hdPeer)
  refine ⟨.inr ⟨rest, hdPeer, hpcPeer⟩, ?_⟩
  have hpkt := h.sent e.peer c d rest hpeer hdPeer hpcPeer
    (talkSay (v.hosts f) v.iter v.size x .report) (hchan ▸ List.mem_cons_self ..)
    (talkSay_has_op (v.hosts f) v.iter v.size x .report)
  rw [hpkt, reportUnmarshal_reportPayload]

theorem Reachable.copied (h : s.Reachable v) : s.Copied := by
  induction h with
  | refl =>
      intro e c d _ hthrough hmem
      rcases hthrough with hnot | ⟨-, -, hpc⟩
      · exact absurd hmem hnot
      · cases hpc
  | @tail s s' hreach hstep ih =>
      intro e c d hrole hthrough hmem
      have hinv := Reachable.inv hreach
      -- What holds before the step holds after it.
      have hkeep : (s.worker e.peer c).Through d →
          (s'.worker e c).report d = (s.worker e.peer c).report d →
          (s'.worker e.peer c).Through d ∧
            (s'.worker e c).report d = (s'.worker e.peer c).report d := by
        intro hpeer hreport
        obtain ⟨hpeer', hreportPeer⟩ := hstep.through hinv hpeer
        exact ⟨hpeer', hreport.trans hreportPeer.symm⟩
      by_cases hbefore : (s.worker e c).Through d
      · obtain ⟨hpeer, hreport⟩ := ih e c d hrole hbefore hmem
        exact hkeep hpeer ((hstep.through hinv hbefore).2.trans hreport)
      · rcases hstep.own_cases e c with ⟨hsame, -⟩ | ⟨d₁, rest, said, hd, hmove, -⟩
        · exact absurd (hsame ▸ hthrough) hbefore
        · obtain ⟨rfl, hpc⟩ := (hmove.goes.through_cases hd hthrough).resolve_left hbefore
          obtain ⟨hx, ⟨hreceiver, -⟩ | ⟨-, pkt, more, hchan, -, hreport⟩⟩ := hmove.finish_cases hpc
          · cases hrole.symm.trans hreceiver
          · obtain ⟨hpeer, hpkt⟩ := Reachable.reported hreach hd hx hrole hchan
            exact hkeep hpeer (hreport.trans hpkt)

end TalkTest

end Ubwt
