import Mathlib.Data.Prod.Lex
import Ubwt.Talk.Restart

/-!
# Ubwt.Talk.Rank

How far a worker is (`TalkWorker.rank`), so that **whoever waits for it is further**: a worker at a
barrier is further than one that has made fewer calls of it (`TalkWorker.At.rank_lt_main`,
`TalkWorker.At.rank_lt_side`), and not as far as its next exchange
(`TalkWorker.At.rank_lt_pos`).
-/

namespace Ubwt

open Lib

/-! ### How far a worker is -/

namespace WorkerPc

/-- The order of the places of a stream, and of those before the first one. -/
def ord : WorkerPc → Nat
  | talkInit | returned => 0
  | initWait => 1
  | ping | pong => 2
  | countWait => 3
  | countSet => 4
  | countSync => 5
  | negotiate => 6
  | streamStart => 7
  | resetWait => 8
  | resetLock => 9
  | resetWeak => 10
  | resetImWeak => 11
  | resetWeakTime => 12
  | resetUnlock => 13
  | startWait => 14
  | streamRun => 15
  | endWait => 16
  | endWaitAll => 17
  | streamEnd => 18
  | setWait => 19
  | setLock => 20
  | loadWeak => 21
  | storeWeak => 22
  | loadImWeak => 23
  | storeImWeak => 24
  | setWeakTime => 25
  | setUnlock => 26
  | returnWait => 27
  | testWeak => 28
  | testImWeak => 29
  | testImWeakReverse => 30
  | report => 31
  | finish => 32
  | recountWait => 33
  | recount => 34
  | recountSync => 35

theorem ord_lt (pc : WorkerPc) : pc.ord < 40 := by
  cases pc <;> decide

/-- The last place of each segment of the barrier for all workers. -/
def mainLast (asynchronous : Bool) : Nat → Nat
  | 0 => 1
  | 1 => 3
  | 2 => 5
  | 3 => 8
  | 4 => 14
  | 5 => if asynchronous then 17 else 16
  | 6 => 19
  | 7 => 27
  | 8 => 33
  | _ => 35

theorem mainLast_mono (asynchronous : Bool) : Monotone (mainLast asynchronous) := by
  refine monotone_nat_of_le_succ fun n => ?_
  match n with
  | 0 | 1 | 2 | 3 | 4 | 5 | 6 | 7 | 8 => cases asynchronous <;> decide
  | n + 9 => exact Nat.le_refl _

theorem ord_le_mainLast {asynchronous : Bool} {pc : WorkerPc}
    (h : pc.asyncOnly = true → asynchronous = true) :
    pc.ord ≤ mainLast asynchronous pc.mainSeg := by
  cases asynchronous <;> cases pc <;> first | decide | exact absurd (h rfl) Bool.false_ne_true

/-- The last place of each segment of the barrier for the workers of a direction. -/
def sideLast : Nat → Nat
  | 0 => 3
  | 1 => 5
  | 2 => 16
  | 3 => 33
  | _ => 35

theorem sideLast_mono : Monotone sideLast := by
  refine monotone_nat_of_le_succ fun n => ?_
  match n with
  | 0 | 1 | 2 | 3 => decide
  | n + 4 => exact Nat.le_refl _

theorem ord_le_sideLast (pc : WorkerPc) : pc.ord ≤ sideLast pc.sideSeg := by
  cases pc <;> decide

variable {v : TestEnv} {d : Dir} {pc pc' : WorkerPc}

/-- **A worker waits at the end of a segment.** -/
theorem ord_of_main (hb : pc.barrier v d = some (v.mainBarrier d)) :
    pc.ord = mainLast v.asynchronous pc.mainSeg := by
  cases ha : v.asynchronous <;> cases pc <;>
    simp [barrier, TestEnv.mainBarrier, ha] at hb <;> rfl

theorem ord_of_side (hb : pc.barrier v d = some (.dir d)) (ha : v.asynchronous = true) :
    pc.ord = sideLast pc.sideSeg := by
  cases pc <;> simp [barrier, TestEnv.mainBarrier, ha] at hb <;> rfl

/-- The place of a barrier, from its order. -/
def barrierAt : Nat → WorkerPc
  | 1 => initWait
  | 3 => countWait
  | 5 => countSync
  | 8 => resetWait
  | 14 => startWait
  | 16 => endWait
  | 17 => endWaitAll
  | 19 => setWait
  | 27 => returnWait
  | 33 => recountWait
  | _ => recountSync

theorem barrierAt_ord (hb : (pc.barrier v d).isSome = true) : barrierAt pc.ord = pc := by
  cases pc <;> first | rfl | cases hb

/-- A worker at a barrier is in one of its streams, or between two of them. -/
theorem mainSeg_of_barrier (hb : (pc.barrier v d).isSome = true) :
    pc.reports = false ∧ (pc.mainSeg ≤ 7 ∨ pc.recounts = true) := by
  cases pc <;> first | exact ⟨rfl, .inl (by decide)⟩ | exact ⟨rfl, .inr rfl⟩ | cases hb

theorem early_of_sideSeg (h : pc.sideSeg ≤ 1) : pc.early = true := by
  cases pc <;> first | rfl | exact absurd h (by decide)

/-- Where a call of the barrier for all workers is, if it is not the only one. -/
theorem mainSeg_of_main (hb : pc.barrier v d = some (v.mainBarrier d))
    (hsender : pc.senderOnly = false) : pc.mainSeg = 0 ∨ 3 ≤ pc.mainSeg ∧ pc.mainSeg ≤ 7 := by
  cases pc <;> first | cases hb; done | cases hsender; done | decide

/-- How often a worker has been at the barrier of its direction, in asynchronous mode. A receiver
is there once for each stream. -/
def sideCalls (role : TalkRole) (pc : WorkerPc) (k : Nat) : Nat :=
  match role with
  | .sender => pc.sidePassed k
  | .receiver => k + (decide (3 ≤ pc.sideSeg)).toNat

/-- The segments come in the order of the calls. -/
theorem sideSeg_of_calls {role : TalkRole} {k k' : Nat} (hb : pc.barrier v d = some (.dir d))
    (ha : v.asynchronous = true) (hearly : pc.early = true → k = 0)
    (hearly' : pc'.early = true → k' = 0) (hsender : pc.senderOnly = true → role = .sender)
    (hle : pc'.sideCalls role k' ≤ pc.sideCalls role k) :
    k' < k ∨ k' = k ∧ pc'.sideSeg ≤ pc.sideSeg := by
  have hk := fun hseg => hearly (early_of_sideSeg hseg)
  have hk' := fun hseg => hearly' (early_of_sideSeg hseg)
  cases role with
  | sender =>
      have hmax : pc.sideSeg ≤ 4 := by cases pc <;> decide
      have hmax' : pc'.sideSeg ≤ 4 := by cases pc' <;> decide
      simp only [sideCalls, sidePassed] at hle
      split at hle <;> split at hle <;> omega
  | receiver =>
      have hseg : pc.sideSeg = 2 := by
        have hnot : pc.senderOnly = false := by
          by_contra hs
          cases hsender (Bool.of_not_eq_false hs)
        revert hb hnot
        cases pc <;> simp [barrier, senderOnly, TestEnv.mainBarrier, ha, sideSeg]
      simp only [sideCalls, hseg] at hle ⊢
      by_cases hside : 3 ≤ pc'.sideSeg <;> simp [hside] at hle <;> omega

end WorkerPc

namespace TalkWorker

/-- How far a worker is, for those that may wait for it: its direction and whether it is behind the
streams, where nobody comes to a barrier; its stream, its place, and whether it is in a call. -/
def rank (w : TalkWorker) : Nat ×ₗ Nat :=
  toLex (2 * (2 - w.dirs.length) + w.pc.reports.toNat,
    if w.pc.reports then 0 else 2 * (40 * w.k + w.pc.ord) + w.waiting.toNat)

end TalkWorker

namespace TalkStep

def reports : TalkStep → Bool
  | report | finish => true
  | _ => false

/-- The order of the exchanges. -/
def ord : TalkStep → Nat
  | ping _ | pong _ => 2
  | negotiate k => 40 * k + 6
  | streamStart k => 40 * k + 7
  | streamRun k _ => 40 * k + 15
  | streamEnd k => 40 * k + 18
  | report | finish => 0

end TalkStep

/-- How far a worker at an exchange is. -/
def TalkPos.rank : TalkPos → Nat ×ₗ Nat
  | talk _ rest step => toLex (2 * (1 - rest.length) + step.reports.toNat, 2 * step.ord)
  | returned => toLex (4, 0)

/-! ### Along a connection -/

/-- A connection has at most two directions to come. -/
def TalkPos.Short : TalkPos → Prop
  | talk _ rest _ => rest.length ≤ 1
  | returned => True

theorem TalkPos.rank_talk_le {d d' : Dir} {rest rest' : List Dir} {step step' : TalkStep}
    (hlen : rest'.length = rest.length)
    (hle : step.reports = step'.reports ∧ step.ord ≤ step'.ord ∨
      step.reports = false ∧ step'.reports = true) :
    (talk d rest step).rank ≤ (talk d' rest' step').rank := by
  dsimp only [rank]
  rw [hlen, Prod.Lex.toLex_le_toLex]
  rcases hle with ⟨hreports, hord⟩ | ⟨hreports, hreports'⟩
  · rw [hreports]
    exact .inr ⟨rfl, Nat.mul_le_mul_left 2 hord⟩
  · rw [hreports, hreports']
    exact .inl (Nat.lt_succ_self _)

/-- The next exchange is further. -/
theorem TalkStep.ord_le_next {iter : UInt16} {count : Nat → UInt32} {restart : Nat → Bool}
    {step step' : TalkStep} (hnext : step.next iter count restart = some step') :
    step.reports = step'.reports ∧ step.ord ≤ step'.ord ∨
      step.reports = false ∧ step'.reports = true := by
  cases step <;> cases hnext
  case pong i =>
    unfold TalkStep.handshake
    split <;> exact .inl ⟨rfl, by simp [TalkStep.ord]⟩
  case streamStart k =>
    unfold TalkStep.stream
    split <;> exact .inl ⟨rfl, by simp [TalkStep.ord]⟩
  case streamRun k i =>
    unfold TalkStep.stream
    split <;> exact .inl ⟨rfl, by simp [TalkStep.ord]⟩
  case streamEnd k =>
    split
    · exact .inl ⟨rfl, by simp only [TalkStep.ord]; omega⟩
    · exact .inr ⟨rfl, rfl⟩
  all_goals exact .inl ⟨rfl, by simp [TalkStep.ord]⟩

namespace TestEnv

variable {v : TestEnv} {c : Fin v.workers} {e : Endpoint} {p q : TalkPos × UInt32}
  {pkt : TalkPayload} {pkts : List TalkPayload}

theorem rank_le_next (hp : p.1.Short) :
    p.1.rank ≤ (v.posNext p pkt).1.rank ∧ (v.posNext p pkt).1.Short := by
  obtain ⟨pos, n⟩ := p
  cases pos with
  | returned => exact ⟨le_refl _, trivial⟩
  | talk d rest step =>
      have hlen : rest.length ≤ 1 := hp
      rcases v.posNext_talk d rest step n pkt with ⟨count, step', hnext, heq⟩ | ⟨hfin, heq⟩
      · rw [heq]
        exact ⟨TalkPos.rank_talk_le rfl (TalkStep.ord_le_next hnext), hp⟩
      · rw [heq, hfin]
        cases rest with
        | nil =>
            exact ⟨le_of_lt (Prod.Lex.toLex_lt_toLex.mpr (.inl (Nat.lt_succ_self 3))), trivial⟩
        | cons d' rest =>
            rw [List.length_cons] at hlen
            have hnil : rest.length = 0 := by omega
            refine ⟨le_of_lt (Prod.Lex.toLex_lt_toLex.mpr (.inl ?_)),
              hnil.le.trans (Nat.zero_le 1)⟩
            unfold TalkStep.handshake
            simp only [hnil, List.length_cons, TalkStep.reports]
            split <;> decide

/-- **Who is ahead on a connection is further.** -/
theorem rank_le_spoken (h : (v.connScript c).Spoken e p pkts q) (hp : p.1.Short) :
    p.1.rank ≤ q.1.rank := by
  induction h with
  | nil => exact le_refl _
  | cons _ _ _ ih =>
      obtain ⟨hle, hnext⟩ := rank_le_next hp
      exact le_trans hle (ih hnext)

end TestEnv

/-! ### A worker and its position -/

namespace TalkWorker

variable {v : TestEnv} {e : Endpoint} {c c' : Fin v.workers} {d : Dir} {rest rest' : List Dir}
  {w w' : TalkWorker} {b : BarrierId}

theorem rank_lt_talk {step : TalkStep} (hd : w.dirs = d :: rest) (hreports : w.pc.reports = false)
    (hlt : step.reports = true ∨
      2 * (40 * w.k + w.pc.ord) + w.waiting.toNat < 2 * step.ord) :
    w.rank < (TalkPos.talk d rest step).rank := by
  dsimp only [rank, TalkPos.rank]
  rw [Prod.Lex.toLex_lt_toLex, hreports, hd, List.length_cons]
  dsimp only [Bool.toNat_false]
  cases hstep : step.reports with
  | true =>
      left
      simp only [Bool.toNat_true]
      omega
  | false =>
      right
      rw [hstep] at hlt
      refine ⟨?_, ?_⟩
      · simp only [Bool.toNat_false]
        omega
      · simpa using hlt

/-- **A worker at a barrier is not as far as its next exchange.** -/
theorem At.rank_lt_pos (h : w.At v e c d) (hd : w.dirs = d :: rest) (hb : w.pc.barrier v d = some b) :
    w.rank < (w.pos v).1.rank := by
  have hone : w.waiting.toNat ≤ 1 := Bool.toNat_le _
  have hearly : w.pc.early = true → w.k = 0 := h.early
  rw [pos_eq hd]
  refine rank_lt_talk hd (WorkerPc.mainSeg_of_barrier (by rw [hb]; rfl)).1 ?_
  unfold nextStep TalkStep.handshake TalkStep.stream
  rcases barrier_cases hb with ⟨-, hpc⟩ | ⟨-, hpc⟩ | ⟨-, hpc⟩ | ⟨-, hpc⟩
  · rcases hpc with hpc | hpc | hpc | hpc | hpc <;> rw [hpc] at hearly ⊢ <;> dsimp only
    · rw [hearly rfl]
      split <;> simp only [TalkStep.ord, WorkerPc.ord] <;> omega
    all_goals split <;> simp [TalkStep.reports, TalkStep.ord, WorkerPc.ord] <;> omega
  · rcases hpc with hpc | hpc | hpc | hpc <;> rw [hpc] <;>
      simp only [TalkStep.ord, WorkerPc.ord] <;> omega
  · rw [hpc]
    simp only [TalkStep.ord, WorkerPc.ord]
    omega
  · rw [hpc]
    simp only [TalkStep.ord, WorkerPc.ord]
    omega

/-- At an exchange it is as far as that. -/
theorem At.rank_eq_pos {step : TalkStep} (h : w.At v e c d) (hd : w.dirs = d :: rest)
    (hx : w.exchange = some step) : w.rank = (w.pos v).1.rank := by
  have hw := h.waiting_of_exchange hx
  have hlen : 2 - w.dirs.length = 1 - rest.length := by
    rw [hd, List.length_cons]
    omega
  have hearly : w.pc.early = true → w.k = 0 := h.early
  rw [pos_of_exchange hd hx, rank, hlen, hw]
  dsimp only [TalkPos.rank]
  rcases exchange_cases hx with ⟨hpc, rfl⟩ | ⟨hpc, rfl⟩ | ⟨hpc, rfl⟩ | ⟨hpc, rfl⟩ | ⟨hpc, rfl⟩ |
    ⟨hpc, rfl⟩ | ⟨hpc, rfl⟩ | ⟨hpc, rfl⟩ <;> rw [hpc] at hearly ⊢
  case inl => rw [hearly rfl]; rfl
  case inr.inl => rw [hearly rfl]; rfl
  all_goals rfl

/-! ### Two workers of an endpoint -/

theorem rank_lt_of_dirs (hlen : w.dirs.length < w'.dirs.length) (htwo : w'.dirs.length ≤ 2) :
    w'.rank < w.rank := by
  have hone : w'.pc.reports.toNat ≤ 1 := Bool.toNat_le _
  exact Prod.Lex.toLex_lt_toLex.mpr (.inl (by dsimp only; omega))

/-- In one direction, who is in an earlier stream is not as far, nor who is in the same stream at an
earlier place. -/
theorem rank_lt_of_place (hlen : w'.dirs.length = w.dirs.length) (hreports : w.pc.reports = false)
    (hreports' : w'.pc.reports = false) (hw : w.waiting = true)
    (hle : w'.k < w.k ∨ w'.k = w.k ∧ w'.pc.ord ≤ w.pc.ord)
    (hsame : w'.k = w.k → w'.pc.ord = w.pc.ord → w'.waiting = false) : w'.rank < w.rank := by
  have hord := w'.pc.ord_lt
  have hone : w'.waiting.toNat ≤ 1 := Bool.toNat_le _
  refine Prod.Lex.toLex_lt_toLex.mpr (.inr ?_)
  rw [hlen, hreports, hreports', hw]
  refine ⟨rfl, ?_⟩
  simp only [Bool.false_eq_true, if_false, Bool.toNat_true]
  rcases hle with hlt | ⟨hk, hle⟩
  · omega
  · rcases Nat.lt_or_eq_of_le hle with hlt | heq
    · omega
    · rw [hsame hk heq, hk, heq]
      exact Nat.lt_succ_self _

/-- **Who is through with a direction has made more calls than anybody at a barrier.** -/
theorem At.passed_lt {K : Nat} (h : w.At v e c d) (hb : w.pc.barrier v d = some b)
    (hfinal : v.Final d K) : w.passed (v.mainBarrier d) < (v.timetable e d).count K + 1 := by
  have hk : w.k ≤ K := by
    by_contra hlt
    cases hfinal.2.symm.trans (h.ran K (Nat.not_le.mp hlt))
  have hseg : w.pc.mainSeg ≤ 7 ∨ w.k < K := by
    rcases (WorkerPc.mainSeg_of_barrier (by rw [hb]; rfl)).2 with hseg | hrecounts
    · exact .inl hseg
    · refine .inr (Nat.lt_of_le_of_ne hk ?_)
      rintro rfl
      cases hfinal.2.symm.trans (h.recounts hrecounts)
  have hle := w.pc.mainSeg_le
  rw [h.main, Timetable.count, TestEnv.reset_eq]
  unfold WorkerPc.mainPassed
  cases v.single e d <;> simp only [Bool.false_eq_true, if_false, if_true, TestEnv.timetable] <;>
    split <;> omega

/-- Who is behind the last stream has made as many. -/
theorem At.passed_of_reports (h : w.At v e c d) (hreports : w.pc.reports = true) :
    v.Final d w.k ∧ w.passed (v.mainBarrier d) = (v.timetable e d).count w.k + 1 := by
  refine ⟨⟨h.ran, h.reports hreports⟩, ?_⟩
  rw [h.passed_of_seg (r := 4) ?_ (Nat.le_refl 4)]
  · rfl
  · revert hreports
    cases w.pc <;> first | exact fun _ => rfl | nofun

theorem final_connDir {K : Nat} (h : v.Final (v.connDir c d) K) : v.Final d K := by
  have hcongr : ∀ k, v.restart (v.connDir c d) k = v.restart d k := by
    intro k
    refine TalkTest.restart_congr ?_ k
    unfold TestEnv.connDir
    cases v.asynchronous with
    | true => exact .inl rfl
    | false => exact .inr rfl
  exact ⟨fun j hj => (hcongr j).symm.trans (h.1 j hj), (hcongr K).symm.trans h.2⟩

/-- Two workers that test the same directions: one of them is in an earlier direction, or they have
the same ones before them. -/
theorem cons_suffix_cases {l₁ l₂ l : List Dir} {d₁ d₂ : Dir} (hl : l.Nodup) (h₁ : d₁ :: l₁ <:+ l)
    (h₂ : d₂ :: l₂ <:+ l) (hmem : d₁ ∈ d₂ :: l₂) :
    d₁ :: l₁ = d₂ :: l₂ ∨ l₁.length < l₂.length := by
  rcases List.suffix_or_suffix_of_suffix h₁ h₂ with h | h
  · rcases List.suffix_cons_iff.mp h with heq | hlater
    · exact .inl heq
    · exact .inr (Nat.lt_of_lt_of_le (Nat.lt_succ_self _) hlater.length_le)
  · rcases List.suffix_cons_iff.mp h with heq | hlater
    · exact .inl heq.symm
    · exact absurd (hlater.subset hmem) (List.nodup_cons.mp (hl.sublist h₁.sublist)).1

theorem length_dirs_le (c : Fin v.workers) : (v.dirs c).length ≤ 2 := by
  unfold TestEnv.dirs processRun
  split <;> split <;> decide

/-- A worker at the barrier for all workers is further than one that has made fewer calls. -/
theorem At.rank_lt_main (h : w.At v e c d) (h' : w'.At v e c' (v.connDir c' d))
    (hlen : w'.dirs.length = w.dirs.length) (hd' : w'.dirs = v.connDir c' d :: rest')
    (hw : w.waiting = true) (hb : w.pc.barrier v d = some (v.mainBarrier d))
    (hle : w'.passed (v.mainBarrier d) + (w'.waitsAt v (v.mainBarrier d)).toNat
      ≤ w.passed (v.mainBarrier d)) : w'.rank < w.rank := by
  have hreports : w'.pc.reports = false := by
    by_contra hreports
    obtain ⟨hfinal, hpassed⟩ := h'.passed_of_reports (Bool.of_not_eq_false hreports)
    have hlt := h.passed_lt hb (final_connDir hfinal)
    rw [TestEnv.mainBarrier_connDir, TestEnv.timetable_connDir] at hpassed
    omega
  have hmain := h.main
  have hmain' := h'.main
  have hsingle : v.single e (v.connDir c' d) = v.single e d := by
    unfold TestEnv.single TestEnv.connDir
    cases v.asynchronous <;> rfl
  have hearly' : w'.pc.mainSeg ≤ 2 → w'.k = 0 := fun hseg => h'.early (decide_eq_true hseg)
  have hearly : w.pc.mainSeg ≤ 2 → w.k = 0 := fun hseg => h.early (decide_eq_true hseg)
  have hseg : v.single e d = false → w.pc.mainSeg = 0 ∨ 3 ≤ w.pc.mainSeg ∧ w.pc.mainSeg ≤ 7 := by
    intro hs
    refine WorkerPc.mainSeg_of_main hb ?_
    by_contra hsender
    have hrole := h.sender (Bool.of_not_eq_false hsender)
    simp only [TestEnv.single, hrole, decide_true, Bool.and_true, Bool.not_eq_false'] at hs
    revert hb hsender
    cases w.pc <;> simp [WorkerPc.senderOnly, WorkerPc.barrier, TestEnv.mainBarrier, hs]
  rw [TestEnv.mainBarrier_connDir, hsingle] at hmain'
  rw [hmain, hmain'] at hle
  -- The segments come in the order of the calls.
  have hcases : w'.k < w.k ∨ w'.k = w.k ∧ w'.pc.mainSeg ≤ w.pc.mainSeg := by
    have hmax := w.pc.mainSeg_le
    have hmax' := w'.pc.mainSeg_le
    unfold WorkerPc.mainPassed at hle
    cases hs : v.single e d with
    | true =>
        simp only [hs] at hle
        split at hle <;> split at hle <;> omega
    | false =>
        have := hseg hs
        simp only [hs] at hle
        split at hle <;> split at hle <;> omega
  have hord := WorkerPc.ord_of_main hb
  refine rank_lt_of_place hlen (WorkerPc.mainSeg_of_barrier (by rw [hb]; rfl)).1 hreports hw ?_ ?_
  · refine hcases.imp_right (And.imp_right fun hseg => ?_)
    rw [hord]
    exact (WorkerPc.ord_le_mainLast h'.async).trans (WorkerPc.mainLast_mono _ hseg)
  · -- At the same place it has made fewer calls, so it has not entered this one.
    intro hk heq
    by_contra hw'
    have hw' := Bool.of_not_eq_false hw'
    have hpc : w'.pc = w.pc := by
      rw [← WorkerPc.barrierAt_ord (h'.barrier hw'), heq,
        WorkerPc.barrierAt_ord (d := d) (by rw [hb]; rfl)]
    have hb' : w'.pc.barrier v (v.connDir c' d) = some (v.mainBarrier d) := by
      have hdir : ∀ d' : Dir, v.mainBarrier d' = v.mainBarrier d →
          w.pc.barrier v d' = some (v.mainBarrier d) := by
        intro d' heq
        cases ha : v.asynchronous with
        | true =>
            rw [← hb]
            revert hb
            cases w.pc <;> simp [WorkerPc.barrier, TestEnv.mainBarrier, ha]
        | false =>
            simp only [TestEnv.mainBarrier, ha, Bool.false_eq_true, if_false,
              BarrierId.dir.injEq] at heq
            rw [heq]
            exact hb
      rw [hpc]
      exact hdir _ TestEnv.mainBarrier_connDir
    rw [waitsAt_eq hd' hw' hb', decide_eq_true rfl, hpc, hk] at hle
    simp at hle

/-- The same at the barrier for the workers of a direction, with the calls of it in order. -/
theorem At.rank_lt_side (h' : w'.At v e c' d) (ha : v.asynchronous = true)
    (hlen : w'.dirs.length = w.dirs.length) (hd' : w'.dirs = d :: rest')
    (hw : w.waiting = true) (hb : w.pc.barrier v d = some (.dir d))
    (hreports : w'.pc.reports = false)
    (hcases : w'.k < w.k ∨ w'.k = w.k ∧ w'.pc.sideSeg ≤ w.pc.sideSeg)
    (hcall : w'.k = w.k → w'.pc = w.pc → w'.waitsAt v (.dir d) = false) : w'.rank < w.rank := by
  refine rank_lt_of_place hlen (WorkerPc.mainSeg_of_barrier (by rw [hb]; rfl)).1 hreports hw ?_ ?_
  · refine hcases.imp_right (And.imp_right fun hseg => ?_)
    rw [WorkerPc.ord_of_side hb ha]
    exact w'.pc.ord_le_sideLast.trans (WorkerPc.sideLast_mono hseg)
  · intro hk heq
    by_contra hw'
    have hw' := Bool.of_not_eq_false hw'
    have hpc : w'.pc = w.pc := by
      rw [← WorkerPc.barrierAt_ord (h'.barrier hw'), heq,
        WorkerPc.barrierAt_ord (d := d) (by rw [hb]; rfl)]
    have hnot := hcall hk hpc
    rw [waitsAt_eq hd' hw' (hpc ▸ hb), decide_eq_true rfl] at hnot
    cases hnot

/-! ### The calls of a receiver in asynchronous mode -/

def SideMet (d : Dir) (w : TalkWorker) : Prop :=
  w.passed (.dir d) = w.pc.sideCalls .receiver w.k

variable {sh sh' : TalkContext v.workers}

theorem SideMet.of_seg (h : w.SideMet d) (hpassed : w'.passed (.dir d) = w.passed (.dir d))
    (hk : w'.k = w.k) (hseg : decide (3 ≤ w'.pc.sideSeg) = decide (3 ≤ w.pc.sideSeg)) :
    w'.SideMet d := by
  unfold SideMet WorkerPc.sideCalls at h ⊢
  rw [hpassed, hk, hseg, h]

theorem SideMet.setReport (h : w.SideMet d) (r : ReportCollect) : (w.setReport d r).SideMet d := h

theorem SideMet.toPing (h : w.SideMet d) (hk : w.k = 0) (hseg : w.pc.sideSeg = 0) (i : Nat) :
    (w.toPing v e d i).SideMet d := by
  unfold TalkWorker.toPing
  split
  · exact h.of_seg rfl rfl (by rw [hseg]; rfl)
  · cases d.role e <;> exact h.of_seg rfl hk.symm (by rw [hseg]; rfl)

theorem SideMet.toRun (h : w.SideMet d) (hseg : w.pc.sideSeg = 2) (i : Nat) :
    (w.toRun i).SideMet d := by
  unfold TalkWorker.toRun
  split <;> exact h.of_seg rfl rfl (by rw [hseg]; rfl)

theorem SideMet.measure (h : w.SideMet d) (hseg : w.pc.sideSeg = 3) :
    (w.measure v e c d).SideMet d := by
  unfold TalkWorker.measure
  cases d.role e <;> exact h.of_seg rfl rfl (by rw [hseg]; rfl)

theorem SideMet.stop (h : w.SideMet d) (hseg : w.pc.sideSeg = 3) : (w.stop d).SideMet d :=
  h.of_seg rfl rfl (by rw [hseg]; rfl)

theorem SideMet.again (h : w.SideMet d) (hrole : d.role e = .receiver) (hseg : w.pc.sideSeg = 3) :
    (w.again e d).SideMet d := by
  unfold SideMet TalkWorker.again WorkerPc.sideCalls at *
  rw [hseg] at h
  rw [hrole]
  exact h

theorem SideMet.loc (h : w.SideMet d) (hrole : d.role e = .receiver)
    (hstep : Local v e c d w sh w' sh') : w'.SideMet d := by
  cases hstep with
  | enter => exact h.of_seg rfl rfl rfl
  | testWeak hpc =>
      have hseg : w.pc.sideSeg = 3 := by rw [hpc]; rfl
      split
      · exact h.of_seg rfl rfl (by rw [hseg]; rfl)
      · exact h.stop hseg
  | testImWeak hpc =>
      have hseg : w.pc.sideSeg = 3 := by rw [hpc]; rfl
      unfold TalkWorker.testImWeak
      split
      · split
        · exact h.again hrole hseg
        · exact h.of_seg rfl rfl (by rw [hseg]; rfl)
      · split
        · exact h.again hrole hseg
        · exact h.stop hseg
  | testImWeakReverse hpc =>
      have hseg : w.pc.sideSeg = 3 := by rw [hpc]; rfl
      split
      · exact h.again hrole hseg
      · exact h.stop hseg
  | talkInit hpc | countSet hpc | resetWeak hpc | resetImWeak hpc | resetWeakTime hpc
  | resetUnlock hpc | loadWeak hpc | storeWeak hpc | loadImWeak hpc | storeImWeak hpc
  | setWeakTime hpc | setUnlock hpc | resetLock hpc _ | setLock hpc _ | recount _ hpc =>
      exact h.of_seg rfl rfl (by rw [hpc]; rfl)

theorem SideMet.released (h : w.SideMet d) (hat : w.At v e c d) (ha : v.asynchronous = true)
    (hrole : d.role e = .receiver) (hb : w.pc.barrier v d = some b) (serial : Bool)
    (now : UInt64) : (w.released v e c d b serial now).SideMet d := by
  have hmain : v.mainBarrier d = .all := by simp [TestEnv.mainBarrier, ha]
  -- The other barrier does not count.
  have hpasses : (w.proceed v e c d serial now).SideMet d → b = .all →
      (w.released v e c d b serial now).SideMet d := by
    rintro h rfl
    refine h.of_seg ?_ rfl rfl
    have hpassed : (w.proceed v e c d serial now).passed = w.passed := by
      unfold proceed TalkWorker.toPing TalkWorker.toRun TalkWorker.measure
      repeat' split
      all_goals rfl
    rw [hpassed]
    show w.passes .all (.dir d) = w.passed (.dir d)
    simp [passes]
  rcases barrier_cases hb with ⟨hall, hpc⟩ | ⟨rfl, hpc⟩ | ⟨rfl, hpc⟩ | ⟨hall, hpc⟩
  · refine hpasses ?_ (hall.trans hmain)
    rcases hpc with hpc | hpc | hpc | hpc | hpc <;> simp only [proceed, hpc]
    · exact h.toPing (hat.early (by rw [hpc]; rfl)) (by rw [hpc]; rfl) 0
    · exact h.of_seg rfl rfl (by rw [hpc]; rfl)
    · rw [hrole]
      exact (h.setReport _).toRun (by rw [TalkWorker.setReport, hpc]; rfl) 0
    · refine h.of_seg rfl rfl ?_
      cases w.weak <;> rw [hpc] <;> rfl
    · exact h.of_seg rfl rfl (by rw [hpc]; rfl)
  · have hsender : d.role e = .sender := by
      refine hat.sender ?_
      rcases hpc with hpc | hpc | hpc | hpc <;> rw [hpc] <;> rfl
    cases hrole.symm.trans hsender
  · unfold SideMet at h ⊢
    rw [hpc] at h
    simp only [TalkWorker.released, passes, proceed, hpc, ha, if_true, Function.update_self, h]
    rfl
  · refine hpasses ?_ hall
    simp only [proceed, hpc]
    exact h.measure (by rw [hpc]; rfl)

theorem SideMet.sent {step : TalkStep} {count : Dir → UInt64} (h : w.SideMet d)
    (hat : w.At v e c d) (hx : w.exchange = some step) (hstep : step ≠ .finish) :
    (w.sent v e c d rest count).SideMet d := by
  rcases exchange_cases hx with ⟨hpc, rfl⟩ | ⟨hpc, rfl⟩ | ⟨hpc, rfl⟩ | ⟨hpc, rfl⟩ | ⟨hpc, rfl⟩ |
    ⟨hpc, rfl⟩ | ⟨hpc, rfl⟩ | ⟨hpc, rfl⟩ <;> simp only [TalkWorker.sent, hpc]
  case inr.inl => exact h.toPing (hat.early (by rw [hpc]; rfl)) (by rw [hpc]; rfl) _
  case inr.inr.inr.inr.inl => exact h.toRun (by rw [hpc]; rfl) _
  case inr.inr.inr.inr.inr.inr.inr => exact absurd rfl hstep
  all_goals exact h.of_seg rfl rfl (by rw [hpc]; rfl)

theorem SideMet.heard {step : TalkStep} {count : Dir → UInt64} {latency : UInt32}
    {pkt : TalkPayload} (h : w.SideMet d) (hat : w.At v e c d) (hx : w.exchange = some step)
    (hstep : step ≠ .finish) : (w.heard v e d rest count latency pkt).SideMet d := by
  rcases exchange_cases hx with ⟨hpc, rfl⟩ | ⟨hpc, rfl⟩ | ⟨hpc, rfl⟩ | ⟨hpc, rfl⟩ | ⟨hpc, rfl⟩ |
    ⟨hpc, rfl⟩ | ⟨hpc, rfl⟩ | ⟨hpc, rfl⟩ <;> simp only [TalkWorker.heard, hpc]
  case inr.inl =>
    have hk : w.k = 0 := hat.early (by rw [hpc]; rfl)
    have hseg : w.pc.sideSeg = 0 := by rw [hpc]; rfl
    split
    · exact h.toPing hk hseg _
    · exact (h.setReport _).toPing hk hseg _
  case inr.inr.inr.inr.inl => exact h.toRun (by rw [hpc]; rfl) _
  case inr.inr.inr.inr.inr.inr.inr => exact absurd rfl hstep
  all_goals exact h.of_seg rfl rfl (by rw [hpc]; rfl)

end TalkWorker

end Ubwt
