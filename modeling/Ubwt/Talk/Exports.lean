import Ubwt.Conn
import Ubwt.Report.ReadBack
import Ubwt.Talk.Failures
import Ubwt.Talk.Results

/-!
# Ubwt.Talk.Exports

From two command lines to two files: a connector and a listener that admit each other, a test that
is completed without lost messages and failed calls, and what each of them exports.

**The two files have the same object for every direction**, under `upload` in one and under
`download` in the other, with the totals of the test in it (`exports_agree`).
-/

namespace Ubwt

open Lib Lib.Posix Lib.Json

/-! ### Two configurations that agree -/

section

variable {envC envL : Env} {argsC argsL : List CString} {cfgC cfgL : Config} {d : Dir}

theorem ConfigsAgree.recount_eq (h : ConfigsAgree cfgC cfgL) : recount cfgC = recount cfgL := by
  funext weakTime count
  simp only [recount, talkRecount, h.asynchronous, h.talkStreamMinimumTime, h.talkCountMul]

theorem ConfigsAgree.testedDirs_eq (h : ConfigsAgree cfgC cfgL) (hC : WorkersSettled cfgC)
    (hL : WorkersSettled cfgL) : testedDirs cfgC = testedDirs cfgL := by
  rw [Ubwt.testedDirs_eq hC, Ubwt.testedDirs_eq hL, h.reverseFirst, h.bidirectional]

/-- What one end uploads is what the other one downloads. -/
theorem imReceiver_listener (hC : cfgC.imListener = false) (hL : cfgL.imListener = true) (d : Dir) :
    imReceiver cfgL d = !imReceiver cfgC d := by
  cases d <;> simp [imReceiver, hC, hL]

/-- Both ends compute the same results from the same records. -/
theorem ConfigsAgree.reportResultsCompute_eq (h : ConfigsAgree cfgC cfgL)
    (hC : configInit envC argsC = .ok cfgC) (hL : configInit envL argsL = .ok cfgL) {F : Type}
    (fp : DoubleArith F) (ipv6 : Bool) :
    reportResultsCompute fp cfgC ipv6 = reportResultsCompute fp cfgL ipv6 := by
  obtain ⟨h2, h34, h36, h4⟩ := configInit_hdrSizes hC
  obtain ⟨h2', h34', h36', h4'⟩ := configInit_hdrSizes hL
  funext c
  simp only [reportResultsCompute, h2, h34, h36, h4, h2', h34', h36', h4', h.netMtu,
    h.talkPayloadCurrentSize]

/-- The test that one end makes is the one that the other end makes. -/
theorem ConfigsAgree.reaches {v : TestEnv} {election : v.Election} {s : TalkTest v.workers}
    (h : ConfigsAgree cfgC cfgL) (hC : OptInv envC cfgC) (hL : OptInv envL cfgL)
    (hs : s.Reaches cfgC election) : s.Reaches cfgL election := by
  induction hs with
  | refl => exact .refl
  | tail _ hadvance ih =>
      refine ih.tail { hadvance with recounted := ?_, asserted := ?_ }
      · intro e c d rest hd hpc hpc'
        rw [hadvance.recounted e c d rest hd hpc hpc']
        unfold TalkContext.recounted
        rw [h.recount_eq]
      · intro e c d rest hd hpc hpc'
        obtain ⟨hmax, hmin⟩ := hadvance.asserted e c d rest hd hpc hpc'
        rw [hC.counts.2.2] at hmax
        rw [hC.counts.2.1] at hmin
        exact ⟨hL.counts.2.2 ▸ hmax, hL.counts.2.1 ▸ hmin⟩

end

/-- The directions that are exported are those that some connection tests. -/
theorem TestEnv.mem_testedDirs_iff {v : TestEnv} {cfg : Config} (hv : v.Configured cfg)
    (hsettled : WorkersSettled cfg) {d : Dir} : d ∈ testedDirs cfg ↔ ∃ c, d ∈ v.dirs c := by
  have hpos : 0 < v.workers := hv.workers ▸ hsettled.pos
  rw [testedDirs_eq hsettled]
  cases ha : cfg.asynchronous with
  | true =>
      obtain ⟨hb, hr, -⟩ := hsettled.async ha
      rw [hb]
      have hva : v.asynchronous = true := hv.asynchronous.trans ha
      have hhalf := v.half hva
      refine iff_of_true (by cases d <;> cases cfg.reverseFirst <;> decide) ?_
      -- Half of the connections test each direction.
      by_contra hnone
      have hzero : tally (fun c => decide (d ∈ v.dirs c)) = 0 :=
        tally_eq_zero.mpr fun c => decide_eq_false fun hc => hnone ⟨c, hc⟩
      have hdir := tally_dir hva d
      omega
  | false =>
      have hdirs : ∀ c, v.dirs c = processRun cfg.reverseFirst cfg.bidirectional false := by
        intro c
        rw [dirs, hv.asynchronous, ha, if_neg Bool.false_ne_true, hv.reverseFirst, hv.bidirectional]
      have hex : (∃ c, d ∈ v.dirs c) ↔
          d ∈ processRun cfg.reverseFirst cfg.bidirectional false := by
        constructor
        · intro htested
          obtain ⟨c, hc⟩ := htested
          rw [← hdirs c]
          exact hc
        · intro hd
          refine ⟨⟨0, hpos⟩, ?_⟩
          rw [hdirs]
          exact hd
      rw [hex]
      cases d <;> cases cfg.reverseFirst <;> cases cfg.bidirectional <;> decide

/-- A completed test is measured, unless the packets of a direction add up to a multiple of
2^32. -/
theorem TalkTest.Reaches.measured {v : TestEnv} {cfg : Config} {env : Env} {election : v.Election}
    {s : TalkTest v.workers} {e : Endpoint} {workers : List (Dir → ReportCollect)}
    (hs : s.Reaches cfg election) (hv : v.Configured cfg) (hopt : OptInv env cfg)
    (hsettled : WorkersSettled cfg) (hdone : s.Completed) (hlist : s.Lists e workers)
    (hcount : ∀ d ∈ testedDirs cfg,
      (reportWorkerCombine cfg.asynchronous (fun _ => .zero) workers d).talkCount ≠ 0) :
    Measured cfg workers := by
  intro d hd
  refine ⟨hcount d hd, ?_⟩
  have hpos : 0 < streamThreshold v.minimumTime :=
    streamThreshold_pos (hv.minimumTime ▸ hopt.minimumTime)
  have hle := hs.reachable.faulty.le_combine (hdone e) hlist
    ((TestEnv.mem_testedDirs_iff hv hsettled).mp hd)
  intro hzero
  rw [hv.asynchronous, hzero] at hle
  exact absurd (UInt64.lt_of_lt_of_le hpos hle) (UInt64.lt_irrefl 0)

/-! ### The two files -/

/-- What the object of a direction says about a test whose last stream of it is stream `K`. -/
structure ExportedResult {F : Type} (fp : DoubleArith F) (fixed : (n : Nat) → F → Fixed n)
    (v : TestEnv) (cfg : Config) (weakTime : Nat → UInt64) (d : Dir) (K : Nat) (x : Json.Value) :
    Prop where
  expected : x.numberAt ["packets", "layer4_expected"]
    = some ((v.dirWorkers * v.streamCount cfg weakTime d K % 2 ^ 32 : Nat) : ℚ)
  transfered : x.numberAt ["packets", "layer4_transfered"]
    = some ((v.dirWorkers * v.streamCount cfg weakTime d K % 2 ^ 32 : Nat) : ℚ)
  octets : x.numberAt ["octects", "layer4_transfered"]
    = some ((v.dirWorkers * v.streamCount cfg weakTime d K * v.size.val : Nat) : ℚ)
  duration : ∃ t, IsGreatest {t | ∃ c, d ∈ v.dirs c ∧ v.time c d K = t} t ∧
    x.numberAt ["time", "duration"]
      = some (fixedVal (fixed 4 (fp.div (fp.ofNat t.toNat) (fp.ofNat 1000000))))

theorem exportedResult {F : Type} (fp : DoubleArith F) (fixed : (n : Nat) → F → Fixed n)
    {v : TestEnv} {cfg : Config} {weakTime : Nat → UInt64} {d : Dir} {K : Nat}
    {r : ReportRecord F} (h : DirectionResult v cfg weakTime d K r.collected) :
    ExportedResult fp fixed v cfg weakTime d K (dumpValue (r.toResult fp fixed)) where
  expected := (numberVal_printUnsigned _).trans (congrArg _ (congrArg _ h.count))
  transfered := by
    rw [← h.count, ← h.pkts]
    exact numberVal_printUnsigned _
  octets := (numberVal_printUnsigned _).trans (congrArg _ (congrArg _ h.bytes))
  duration := ⟨_, h.duration, numberVal_printFixed _⟩

/-- The file of an endpoint after a test of two streams that were long enough. -/
def fileLongEnough (cfg : Config) (s : TalkTest envLongEnough.workers) (e : Endpoint) : CString :=
  (processReport partialArith cfg false partialFixed
    ((List.finRange envLongEnough.workers).map fun c => (s.worker e c).report)
    (.init partialArith)).json

end Ubwt
