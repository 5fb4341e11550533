import Mathlib.Data.Rat.Floor
import Ubwt.Export
import Ubwt.Report.Totals
import Ubwt.Talk.Count

/-!
# Ubwt.Report.Results

The results: `report_results_compute`, the printed report `report_results_show` and the JSON
export, in the order in which `process_report` calls them.

Both outputs read one record through a pointer. **The head of the export is written before any
result is computed**: its header size and its theoretical bandwidth are the zeros that
`current_init` left, and these two are the only quantities on which the outputs differ
(`processReport_agrees_iff`). The packet loss is computed in 32 bits, which **hold the loss of
42949672 packets and no more** (`packetLoss_exact_iff`).
-/

namespace Ubwt

open Lib Lib.Posix Lib.Json

/-! ### report_results_compute -/

/-- The operations on `double`s in `report.c`. -/
structure DoubleArith (F : Type) where
  ofNat : Nat → F
  div : F → F → F
  ceil : F → F
  toUInt32 : F → UInt32

/-- What the standard says about the quotient of two integers that a `double` holds: it grows
with the dividend, and it is exact where the result is an integer. -/
structure RoundedArith (F : Type) [Preorder F] extends DoubleArith F where
  div_mono : ∀ a b c : Nat, a ≤ b → b ≤ 2 ^ 53 → 0 < c → c ≤ 2 ^ 53 →
    div (ofNat a) (ofNat c) ≤ div (ofNat b) (ofNat c)
  div_exact : ∀ a c : Nat, 0 < c → a * c ≤ 2 ^ 53 → div (ofNat (a * c)) (ofNat c) = ofNat a

/-- `struct ubwt_report_compute`. -/
structure ReportCompute (F : Type) where
  bandwidthTheoreticalMbps : UInt32
  bandwidthEstimatedMbps : F
  bandwidthEffectiveMbps : F
  packetLoss : F
  fragmentationRatio : F
  totalPkts : UInt64
  hdrSize : UInt64

/-- `struct ubwt_report_result`. -/
structure ReportRecord (F : Type) where
  collected : ReportCollect
  computed : ReportCompute F

/-- The bounds of `_report_bandwidth_theoretical_mbps()`. -/
def bandwidthSteps : List UInt32 :=
  [10, 100, 1000, 2500, 5000, 10000, 20000, 40000, 100000, 200000, 400000, 800000, 1000000, 1600000]

/-- `_report_bandwidth_theoretical_mbps()`: the first bound that is greater. -/
def reportBandwidthTheoreticalMbps (bandwidthEffective : UInt32) : UInt32 :=
  (bandwidthSteps.find? (fun step => bandwidthEffective < step)).getD bandwidthEffective

/-- The product of `report_results_compute()` that becomes the dividend of the packet loss. -/
def lossNumerator (count recvPkts : UInt32) : UInt32 := (count - recvPkts) * 100

section

variable {F : Type} (fp : DoubleArith F) (cfg : Config) (ipv6 : Bool)

/-- `packet_loss`. -/
def packetLoss (count recvPkts : UInt32) : F :=
  fp.div (fp.ofNat (lossNumerator count recvPkts).toNat) (fp.ofNat count.toNat)

/-- `report_results_compute()`. -/
def reportResultsCompute (c : ReportCollect) : ReportCompute F :=
  let hdrSize := UInt64.ofNat (cfg.netL2HdrSize.toNat
    + (if ipv6 then cfg.netL3Ipv6HdrSize else cfg.netL3Ipv4HdrSize).toNat + cfg.netL4HdrSize.toNat)
  let totalPkts := c.talkStreamRecvBytes / UInt64.ofNat
    (if cfg.netMtu < cfg.talkPayloadCurrentSize then cfg.netMtu
      else cfg.talkPayloadCurrentSize).toNat
  let seconds := fp.div (fp.ofNat c.talkStreamTimeDuration.toNat) (fp.ofNat 1000000)
  let effective := fp.div
    (fp.div (fp.ofNat (c.talkStreamRecvBytes * 8).toNat) (fp.ofNat 1000000)) seconds
  { hdrSize := hdrSize
    totalPkts := totalPkts
    bandwidthEstimatedMbps := fp.div
      (fp.div (fp.ofNat ((c.talkStreamRecvBytes + totalPkts * hdrSize) * 8).toNat)
        (fp.ofNat 1000000)) seconds
    bandwidthEffectiveMbps := effective
    bandwidthTheoreticalMbps := reportBandwidthTheoreticalMbps (fp.toUInt32 effective)
    packetLoss := packetLoss fp c.talkCount c.talkStreamRecvPkts
    fragmentationRatio :=
      if cfg.netMtu ≥ cfg.talkPayloadCurrentSize then fp.ofNat 1
      else fp.div (fp.ofNat cfg.talkPayloadCurrentSize.toNat) (fp.ofNat cfg.netMtu.toNat) }

/-! ### The quantities of the two outputs -/

/-- What a line of the printed report, or a member of the export, is about. -/
inductive Quantity
  | mtu
  | l3Protocol
  | l4Protocol
  | payloadSize
  | hdrSize
  | duration
  | l4PktsExpected
  | l4PktsTransfered
  | l4Octets
  | l3Pkts
  | fragmentation
  | l2Octets
  | latency
  | packetLoss
  | theoreticalBandwidth
  | estimatedBandwidth
  | effectiveBandwidth
  deriving Repr, DecidableEq

/-- An argument of `fprintf()`. -/
inductive Value (F : Type)
  | nat (n : Nat)
  | str (s : CString)
  | double (x : F)

/-- The lines of `report_results_show()` with `report_full`, below the direction. -/
def fullValues (r : ReportRecord F) : List (Quantity × Value F) :=
  [ (.mtu, .nat cfg.netMtu.toNat),
    (.l3Protocol, .str (if ipv6 then "ipv6".toList else "ipv4".toList)),
    (.l4Protocol, .str cfg.netL4ProtoName),
    (.payloadSize, .nat cfg.talkPayloadCurrentSize.toNat),
    (.hdrSize, .nat r.computed.hdrSize.toNat),
    (.duration, .double (fp.div (fp.ofNat r.collected.talkStreamTimeDuration.toNat)
      (fp.ofNat 1000000))),
    (.l4PktsExpected, .nat r.collected.talkCount.toNat),
    (.l4PktsTransfered, .nat r.collected.talkStreamRecvPkts.toNat),
    (.l4Octets, .nat r.collected.talkStreamRecvBytes.toNat),
    (.l3Pkts, .nat r.computed.totalPkts.toNat),
    (.fragmentation, .double (fp.ceil r.computed.fragmentationRatio)),
    (.l2Octets, .nat (r.collected.talkStreamRecvBytes
      + r.computed.totalPkts * r.computed.hdrSize).toNat),
    (.latency, .double (fp.div (fp.ofNat r.collected.talkLatencyUs.toNat) (fp.ofNat 1000))),
    (.packetLoss, .double r.computed.packetLoss),
    (.theoreticalBandwidth, .nat r.computed.bandwidthTheoreticalMbps.toNat),
    (.estimatedBandwidth, .double r.computed.bandwidthEstimatedMbps),
    (.effectiveBandwidth, .double r.computed.bandwidthEffectiveMbps) ]

/-- The lines of `report_results_show()` without it. -/
def shortValues (r : ReportRecord F) : List (Quantity × Value F) :=
  [ (.latency, .double (fp.div (fp.ofNat r.collected.talkLatencyUs.toNat) (fp.ofNat 1000))),
    (.estimatedBandwidth, .double r.computed.bandwidthEstimatedMbps) ]

/-- The members that `report_export_json_start()` shares with the printed report. -/
def startValues (r : ReportRecord F) : List (Quantity × Value F) :=
  [ (.mtu, .nat cfg.netMtu.toNat),
    (.theoreticalBandwidth, .nat r.computed.bandwidthTheoreticalMbps.toNat),
    (.payloadSize, .nat cfg.talkPayloadCurrentSize.toNat),
    (.hdrSize, .nat r.computed.hdrSize.toNat),
    (.l3Protocol, .str (if ipv6 then "ipv6".toList else "ipv4".toList)),
    (.l4Protocol, .str cfg.netL4ProtoName) ]

/-- The members that `report_export_json_dump()` shares with the printed report. -/
def dumpValues (r : ReportRecord F) : List (Quantity × Value F) :=
  [ (.l2Octets, .nat (r.collected.talkStreamRecvBytes
      + r.computed.totalPkts * r.computed.hdrSize).toNat),
    (.l4Octets, .nat r.collected.talkStreamRecvBytes.toNat),
    (.l3Pkts, .nat r.computed.totalPkts.toNat),
    (.l4PktsExpected, .nat r.collected.talkCount.toNat),
    (.l4PktsTransfered, .nat r.collected.talkStreamRecvPkts.toNat),
    (.fragmentation, .double (fp.ceil r.computed.fragmentationRatio)),
    (.packetLoss, .double r.computed.packetLoss),
    (.duration, .double (fp.div (fp.ofNat r.collected.talkStreamTimeDuration.toNat)
      (fp.ofNat 1000000))),
    (.latency, .double (fp.div (fp.ofNat r.collected.talkLatencyUs.toNat) (fp.ofNat 1000))),
    (.estimatedBandwidth, .double r.computed.bandwidthEstimatedMbps),
    (.effectiveBandwidth, .double r.computed.bandwidthEffectiveMbps) ]

/-! ### process_report -/

/-- What `process_report()` works on: `current->report`, the role that `process_set_im_*()`
sets, and what has been written to `stdout` and to the file of `-j`. A value is logged under the
name of its direction, or under none in the head of the file. -/
structure ReportState (F : Type) where
  results : Dir → ReportRecord F
  result : Dir
  imReceiver : Bool
  printed : List (Bool × Quantity × Value F)
  exported : List (Option Bool × Quantity × Value F)
  json : CString

/-- The record that `current_init()` zeroes. -/
def ReportRecord.zero : ReportRecord F where
  collected := .zero
  computed := ⟨0, fp.ofNat 0, fp.ofNat 0, fp.ofNat 0, fp.ofNat 0, 0, 0⟩

/-- The main thread after `report_init()`. -/
def ReportState.init : ReportState F where
  results := fun _ => .zero fp
  result := .straight
  imReceiver := false
  printed := []
  exported := []
  json := []

/-- A record as the export prints it; `fixed` is the conversion of `%.nf`. -/
def ReportRecord.toResult (fixed : (n : Nat) → F → Fixed n) (r : ReportRecord F) :
    ReportResult where
  collected := r.collected
  bandwidthTheoreticalMbps := r.computed.bandwidthTheoreticalMbps
  totalPkts := r.computed.totalPkts
  hdrSize := r.computed.hdrSize
  fragmentationRatio := fixed 0 (fp.ceil r.computed.fragmentationRatio)
  packetLoss := fixed 4 r.computed.packetLoss
  timeStart := fixed 4
    (fp.div (fp.ofNat r.collected.talkStreamTimeStart.toNat) (fp.ofNat 1000000))
  timeDuration := fixed 4
    (fp.div (fp.ofNat r.collected.talkStreamTimeDuration.toNat) (fp.ofNat 1000000))
  latency := fixed 3 (fp.div (fp.ofNat r.collected.talkLatencyUs.toNat) (fp.ofNat 1000))
  bandwidthEstimatedMbps := fixed 3 r.computed.bandwidthEstimatedMbps
  bandwidthEffectiveMbps := fixed 3 r.computed.bandwidthEffectiveMbps

namespace ReportState

variable (fixed : (n : Nat) → F → Fixed n) (s : ReportState F)

/-- `*current->report.result`. -/
def current : ReportRecord F := s.results s.result

/-- `report_worker_combine()`. -/
def combine (workers : List (Dir → ReportCollect)) : ReportState F :=
  { s with
    results := fun d => { s.results d with
      collected := reportWorkerCombine cfg.asynchronous (fun j => (s.results j).collected)
        workers d } }

/-- `report_results_compute()`. -/
def compute : ReportState F :=
  { s with
    results := Function.update s.results s.result
      { s.current with computed := reportResultsCompute fp cfg ipv6 s.current.collected } }

/-- `report_results_show()`. -/
def resultsShow : ReportState F :=
  { s with
    printed := s.printed ++
      ((if cfg.reportFull then fullValues fp cfg ipv6 s.current
        else shortValues fp s.current).map (fun v => (s.imReceiver, v))) }

/-- `report_export_json_start()`. -/
def exportStart : ReportState F :=
  if cfg.reportJsonFile.isNone then s
  else
    { s with
      exported := s.exported ++ (startValues cfg ipv6 s.current).map (fun v => (none, v))
      json := s.json ++ reportExportJsonStart cfg ipv6 (s.current.toResult fp fixed) }

/-- `report_export_json_dump()`. -/
def exportDump (resume : Bool) : ReportState F :=
  if cfg.reportJsonFile.isNone then s
  else
    { s with
      exported := s.exported ++ (dumpValues fp s.current).map (fun v => (some s.imReceiver, v))
      json := s.json ++
        reportExportJsonDump s.imReceiver (s.current.toResult fp fixed) resume }

/-- `report_export_json_end()`. -/
def exportEnd : ReportState F :=
  if cfg.reportJsonFile.isNone then s else { s with json := s.json ++ reportExportJsonEnd }

/-- The calls of `process_report()` for one direction. -/
def reportDir (d : Dir) (resume : Bool) : ReportState F :=
  let s := { s with imReceiver := Ubwt.imReceiver cfg d, result := d }
  ((s.compute fp cfg ipv6).resultsShow fp cfg ipv6).exportDump fp cfg fixed resume

end ReportState

/-- `process_report()`. -/
def processReport (fixed : (n : Nat) → F → Fixed n) (workers : List (Dir → ReportCollect))
    (s : ReportState F) : ReportState F :=
  let s := (s.combine cfg workers).exportStart fp cfg ipv6 fixed
  let s :=
    if (cfg.reverseFirst && cfg.bidirectional) || !cfg.reverseFirst then
      s.reportDir fp cfg ipv6 fixed .straight false
    else s
  if !cfg.bidirectional && !cfg.reverseFirst then s.exportEnd cfg
  else (s.reportDir fp cfg ipv6 fixed .reverse true).exportEnd cfg

/-! ### What process_report writes -/

variable {fp cfg ipv6} {fixed : (n : Nat) → F → Fixed n} {workers : List (Dir → ReportCollect)}

/-- The record of a direction once its results are computed. -/
def reported (fp : DoubleArith F) (cfg : Config) (ipv6 : Bool)
    (workers : List (Dir → ReportCollect)) (d : Dir) : ReportRecord F :=
  let c := reportWorkerCombine cfg.asynchronous (fun _ => .zero) workers d
  ⟨c, reportResultsCompute fp cfg ipv6 c⟩

/-- The record of a direction before. -/
def unreported (fp : DoubleArith F) (cfg : Config) (workers : List (Dir → ReportCollect))
    (d : Dir) : ReportRecord F :=
  { ReportRecord.zero fp with
    collected := reportWorkerCombine cfg.asynchronous (fun _ => .zero) workers d }

/-- One direction, with both outputs on. -/
theorem ReportState.reportDir_eq (hfull : cfg.reportFull = true)
    (hjson : cfg.reportJsonFile.isSome = true) (s : ReportState F) (d : Dir) (resume : Bool) :
    s.reportDir fp cfg ipv6 fixed d resume =
      let r : ReportRecord F :=
        { s.results d with computed := reportResultsCompute fp cfg ipv6 (s.results d).collected }
      { results := Function.update s.results d r
        result := d
        imReceiver := Ubwt.imReceiver cfg d
        printed := s.printed ++ (fullValues fp cfg ipv6 r).map (fun v => (Ubwt.imReceiver cfg d, v))
        exported := s.exported ++ (dumpValues fp r).map (fun v => (some (Ubwt.imReceiver cfg d), v))
        json := s.json ++ reportExportJsonDump (Ubwt.imReceiver cfg d) (r.toResult fp fixed) resume } := by
  have hsome : cfg.reportJsonFile.isNone = false := by
    rw [← Option.not_isSome, hjson]
    rfl
  simp only [reportDir, exportDump, resultsShow, compute, current, hsome, hfull, if_true,
    Bool.false_eq_true, if_false, Function.update_self]

/-- **The two outputs and the text of the file.** Every tested direction is printed and exported
from its computed record, and the head of the file from a record that is not computed. -/
theorem processReport_eq (fp : DoubleArith F) (ipv6 : Bool) (fixed : (n : Nat) → F → Fixed n)
    (workers : List (Dir → ReportCollect)) (hsettled : WorkersSettled cfg)
    (hfull : cfg.reportFull = true) (hjson : cfg.reportJsonFile.isSome = true) :
    (processReport fp cfg ipv6 fixed workers (.init fp)).printed
        = (testedDirs cfg).flatMap (fun d => (fullValues fp cfg ipv6
            (reported fp cfg ipv6 workers d)).map (fun v => (imReceiver cfg d, v)))
      ∧ (processReport fp cfg ipv6 fixed workers (.init fp)).exported
        = (startValues cfg ipv6 (unreported fp cfg workers .straight)).map (fun v => (none, v))
          ++ (testedDirs cfg).flatMap (fun d => (dumpValues fp
            (reported fp cfg ipv6 workers d)).map (fun v => (some (imReceiver cfg d), v)))
      ∧ (processReport fp cfg ipv6 fixed workers (.init fp)).json
        = processReportJson cfg ipv6 ((unreported fp cfg workers .straight).toResult fp fixed)
            (fun d => (reported fp cfg ipv6 workers d).toResult fp fixed) := by
  have hsome : cfg.reportJsonFile.isNone = false := by
    rw [← Option.not_isSome, hjson]
    rfl
  have hne : Dir.reverse ≠ .straight := by decide
  rw [testedDirs_eq hsettled]
  cases hr : cfg.reverseFirst <;> cases hb : cfg.bidirectional <;>
    simp [processReport, processReportJson, ReportState.reportDir_eq hfull hjson,
      ReportState.exportStart, ReportState.exportEnd, ReportState.combine, ReportState.init,
      ReportState.current, hsome, hr, hb, hne, reported, unreported, ReportRecord.zero]

/-! ### Do the outputs agree? -/

/-- Every value that the file has for a quantity is one that is printed for it: for the
direction it belongs to, or for some direction if it is in the head of the file. -/
def Agrees (s : ReportState F) (q : Quantity) : Prop :=
  ∀ name v, (name, q, v) ∈ s.exported →
    ∃ dir, (name = none ∨ name = some dir) ∧ (dir, q, v) ∈ s.printed

/-- Both outputs have the quantity. -/
def Carried (s : ReportState F) (q : Quantity) : Prop :=
  (∃ name v, (name, q, v) ∈ s.exported) ∧ ∃ dir v, (dir, q, v) ∈ s.printed

/-- What the export has for a direction is what is printed for it. -/
theorem mem_fullValues_of_dump {r : ReportRecord F} :
    ∀ v ∈ dumpValues fp r, v ∈ fullValues fp cfg ipv6 r := by
  simp [dumpValues, fullValues]

/-- What the head of the file has from the configuration is printed for every direction. -/
theorem mem_fullValues_of_start {r r' : ReportRecord F} :
    ∀ v ∈ startValues cfg ipv6 r, v.1 ≠ .hdrSize → v.1 ≠ .theoreticalBandwidth →
      v ∈ fullValues fp cfg ipv6 r' := by
  simp [startValues, fullValues]

theorem mem_fullValues_hdrSize {r : ReportRecord F} {v : Value F}
    (h : (Quantity.hdrSize, v) ∈ fullValues fp cfg ipv6 r) :
    v = .nat r.computed.hdrSize.toNat := by
  simpa [fullValues] using h

theorem mem_fullValues_theoreticalBandwidth {r : ReportRecord F} {v : Value F}
    (h : (Quantity.theoreticalBandwidth, v) ∈ fullValues fp cfg ipv6 r) :
    v = .nat r.computed.bandwidthTheoreticalMbps.toNat := by
  simpa [fullValues] using h

/-- Every quantity is in the printed report, and either in the head of the file or in each of
its directions. -/
theorem exists_values (fp : DoubleArith F) (cfg : Config) (ipv6 : Bool) (q : Quantity)
    (r r' : ReportRecord F) :
    (∃ v, (q, v) ∈ fullValues fp cfg ipv6 r) ∧
      ((∃ v, (q, v) ∈ startValues cfg ipv6 r') ∨ ∃ v, (q, v) ∈ dumpValues fp r) := by
  cases q <;> simp [fullValues, startValues, dumpValues]

/-- The theoretical bandwidth is never zero. -/
theorem ten_le_reportBandwidthTheoreticalMbps (bandwidth : UInt32) :
    10 ≤ (reportBandwidthTheoreticalMbps bandwidth).toNat := by
  unfold reportBandwidthTheoreticalMbps
  cases hfind : bandwidthSteps.find? (fun step => bandwidth < step) with
  | some step =>
      have hsteps : ∀ step ∈ bandwidthSteps, 10 ≤ step.toNat := by simp [bandwidthSteps]
      exact hsteps step (List.mem_of_find?_eq_some hfind)
  | none =>
      have hten := List.find?_eq_none.mp hfind 10 List.mem_cons_self
      rw [decide_eq_true_eq, UInt32.lt_iff_toNat_lt] at hten
      exact Nat.le_of_not_lt hten

/-- No option changes the sizes of the headers. -/
theorem configInit_hdrSizes {env : Env} {args : List CString} (h : configInit env args = .ok cfg) :
    cfg.netL2HdrSize = configNetL2HeaderSize ∧ cfg.netL3Ipv4HdrSize = configNetL3Ipv4HeaderSize
      ∧ cfg.netL3Ipv6HdrSize = configNetL3Ipv6HeaderSize
      ∧ cfg.netL4HdrSize = configNetL4TcpHeaderSize := by
  refine configInit_invariant (P := fun cfg => cfg.netL2HdrSize = configNetL2HeaderSize
    ∧ cfg.netL3Ipv4HdrSize = configNetL3Ipv4HeaderSize
    ∧ cfg.netL3Ipv6HdrSize = configNetL3Ipv6HeaderSize
    ∧ cfg.netL4HdrSize = configNetL4TcpHeaderSize)
    ⟨rfl, rfl, rfl, rfl⟩ ?_ ?_ (fun _ _ _ _ _ hP => hP) h
  · intro cfg optarg opt _ hP
    cases opt <;> exact hP
  · intro cfg role addr hP
    unfold roleConfig
    split <;> split <;> exact hP

/-- The header size of an accepted configuration. -/
theorem reported_hdrSize (fp : DoubleArith F) (ipv6 : Bool) (workers : List (Dir → ReportCollect))
    {env : Env} {args : List CString} (h : configInit env args = .ok cfg) (d : Dir) :
    (reported fp cfg ipv6 workers d).computed.hdrSize.toNat = if ipv6 then 86 else 66 := by
  obtain ⟨h2, h34, h36, h4⟩ := configInit_hdrSizes h
  show (UInt64.ofNat (cfg.netL2HdrSize.toNat
    + (if ipv6 then cfg.netL3Ipv6HdrSize else cfg.netL3Ipv4HdrSize).toNat
    + cfg.netL4HdrSize.toNat)).toNat = _
  rw [h2, h34, h36, h4]
  cases ipv6 <;> rfl

theorem testedDirs_ne_nil (h : WorkersSettled cfg) : testedDirs cfg ≠ [] := by
  rw [testedDirs_eq h]
  cases cfg.reverseFirst <;> cases cfg.bidirectional <;> simp

theorem mem_map_mk {α β : Type} {a a' : α} {b : β} {bs : List β} :
    (a, b) ∈ bs.map (fun b => (a', b)) ↔ b ∈ bs ∧ a' = a := by
  rw [List.mem_map]
  constructor
  · intro h
    obtain ⟨b', hmem, heq⟩ := h
    cases heq
    exact ⟨hmem, rfl⟩
  · intro h
    exact ⟨b, h.1, h.2 ▸ rfl⟩

/-- What is printed comes from the records of the directions. -/
theorem mem_printed_iff (hsettled : WorkersSettled cfg) (hfull : cfg.reportFull = true)
    (hjson : cfg.reportJsonFile.isSome = true) {dir : Bool} {q : Quantity} {v : Value F} :
    (dir, q, v) ∈ (processReport fp cfg ipv6 fixed workers (.init fp)).printed ↔
      ∃ d ∈ testedDirs cfg, (q, v) ∈ fullValues fp cfg ipv6 (reported fp cfg ipv6 workers d) ∧
        imReceiver cfg d = dir := by
  rw [(processReport_eq fp ipv6 fixed workers hsettled hfull hjson).1]
  simp only [List.mem_flatMap, mem_map_mk]

/-- What is exported comes from the record that is not computed, or from those of the
directions. -/
theorem mem_exported_iff (hsettled : WorkersSettled cfg) (hfull : cfg.reportFull = true)
    (hjson : cfg.reportJsonFile.isSome = true) {name : Option Bool} {q : Quantity} {v : Value F} :
    (name, q, v) ∈ (processReport fp cfg ipv6 fixed workers (.init fp)).exported ↔
      ((q, v) ∈ startValues cfg ipv6 (unreported fp cfg workers .straight) ∧ none = name) ∨
        ∃ d ∈ testedDirs cfg, (q, v) ∈ dumpValues fp (reported fp cfg ipv6 workers d) ∧
          some (imReceiver cfg d) = name := by
  rw [(processReport_eq fp ipv6 fixed workers hsettled hfull hjson).2.1]
  simp only [List.mem_append, List.mem_flatMap, mem_map_mk]

/-- Both outputs have every quantity. -/
theorem carried (hsettled : WorkersSettled cfg) (hfull : cfg.reportFull = true)
    (hjson : cfg.reportJsonFile.isSome = true) (q : Quantity) :
    Carried (processReport fp cfg ipv6 fixed workers (.init fp)) q := by
  obtain ⟨d, hd⟩ := List.exists_mem_of_ne_nil _ (testedDirs_ne_nil hsettled)
  obtain ⟨⟨v, hv⟩, hexp⟩ := exists_values fp cfg ipv6 q (reported fp cfg ipv6 workers d)
    (unreported fp cfg workers .straight)
  refine ⟨?_, _, v, (mem_printed_iff hsettled hfull hjson).mpr ⟨d, hd, hv, rfl⟩⟩
  rcases hexp with ⟨v', hv'⟩ | ⟨v', hv'⟩
  · exact ⟨_, v', (mem_exported_iff hsettled hfull hjson).mpr (.inl ⟨hv', rfl⟩)⟩
  · exact ⟨_, v', (mem_exported_iff hsettled hfull hjson).mpr (.inr ⟨d, hd, hv', rfl⟩)⟩

/-- A value of the head that no direction prints. -/
theorem not_agrees_of_start (hsettled : WorkersSettled cfg) (hfull : cfg.reportFull = true)
    (hjson : cfg.reportJsonFile.isSome = true) {q : Quantity} {v : Value F}
    (hstart : (q, v) ∈ startValues cfg ipv6 (unreported fp cfg workers .straight))
    (hno : ∀ d, (q, v) ∉ fullValues fp cfg ipv6 (reported fp cfg ipv6 workers d)) :
    ¬Agrees (processReport fp cfg ipv6 fixed workers (.init fp)) q := by
  intro hagrees
  obtain ⟨dir, -, hmem⟩ :=
    hagrees none v ((mem_exported_iff hsettled hfull hjson).mpr (.inl ⟨hstart, rfl⟩))
  obtain ⟨d, -, hvalue, -⟩ := (mem_printed_iff hsettled hfull hjson).mp hmem
  exact hno d hvalue

/-- A value of the head from the configuration, and every value of a direction, is printed. -/
theorem agrees_of_ne (hsettled : WorkersSettled cfg) (hfull : cfg.reportFull = true)
    (hjson : cfg.reportJsonFile.isSome = true) {q : Quantity} (hhdr : q ≠ .hdrSize)
    (htheoretical : q ≠ .theoreticalBandwidth) :
    Agrees (processReport fp cfg ipv6 fixed workers (.init fp)) q := by
  intro name v hmem
  rcases (mem_exported_iff hsettled hfull hjson).mp hmem with ⟨hstart, rfl⟩ | ⟨d, hd, hdump, rfl⟩
  · obtain ⟨d, hd⟩ := List.exists_mem_of_ne_nil _ (testedDirs_ne_nil hsettled)
    exact ⟨_, .inl rfl, (mem_printed_iff hsettled hfull hjson).mpr
      ⟨d, hd, mem_fullValues_of_start _ hstart hhdr htheoretical, rfl⟩⟩
  · exact ⟨_, .inr rfl, (mem_printed_iff hsettled hfull hjson).mpr
      ⟨d, hd, mem_fullValues_of_dump _ hdump, rfl⟩⟩

/-- **The printed report and the export agree on everything but two quantities.** For every
accepted command line with `-F` and `-j`, whatever the workers have collected and whatever the
arithmetic of the platform, the two outputs do not agree; what they disagree on is the header
size and the theoretical bandwidth, and nothing else. -/
theorem processReport_agrees_iff {env : Env} {args : List CString}
    (hcfg : configInit env args = .ok cfg) (hfull : cfg.reportFull = true)
    (hjson : cfg.reportJsonFile.isSome = true) :
    (∀ q, Carried (processReport fp cfg ipv6 fixed workers (.init fp)) q)
    ∧ ¬ (∀ q, Agrees (processReport fp cfg ipv6 fixed workers (.init fp)) q)
    ∧ ∀ q, Agrees (processReport fp cfg ipv6 fixed workers (.init fp)) q ↔
      q ≠ .hdrSize ∧ q ≠ .theoreticalBandwidth := by
  have hsettled := configInit_settled hcfg
  have hhdr : ¬ Agrees (processReport fp cfg ipv6 fixed workers (.init fp)) .hdrSize := by
    refine not_agrees_of_start hsettled hfull hjson (v := .nat 0)
      (by simp [startValues, unreported, ReportRecord.zero]) ?_
    intro d hmem
    have hval := mem_fullValues_hdrSize hmem
    rw [reported_hdrSize fp ipv6 workers hcfg] at hval
    cases ipv6 <;> cases hval
  have htheoretical :
      ¬ Agrees (processReport fp cfg ipv6 fixed workers (.init fp)) .theoreticalBandwidth := by
    refine not_agrees_of_start hsettled hfull hjson (v := .nat 0)
      (by simp [startValues, unreported, ReportRecord.zero]) ?_
    intro d hmem
    have hval := mem_fullValues_theoreticalBandwidth hmem
    have hten := ten_le_reportBandwidthTheoreticalMbps
      (fp.toUInt32 (reported fp cfg ipv6 workers d).computed.bandwidthEffectiveMbps)
    have hzero := Value.nat.inj hval
    exact absurd (hzero.symm ▸ hten : 10 ≤ 0) (by decide)
  refine ⟨carried hsettled hfull hjson, fun hall => hhdr (hall _), fun q => ⟨?_, ?_⟩⟩
  · intro hagrees
    exact ⟨fun hq => hhdr (hq ▸ hagrees), fun hq => htheoretical (hq ▸ hagrees)⟩
  · intro hq
    exact agrees_of_ne hsettled hfull hjson hq.1 hq.2

end

/-! ### The packet loss -/

section

variable {F : Type} [Preorder F] (fp : RoundedArith F)

/-- The loss of a stream is computed from the integers it should be: the dividend is a hundred
times the number of lost packets, the loss is a percentage, and it does not grow with the
packets that are received. -/
structure LossExact (count recvPkts : UInt32) : Prop where
  numerator : (lossNumerator count recvPkts).toNat = 100 * (count.toNat - recvPkts.toNat)
  nonneg : fp.ofNat 0 ≤ packetLoss fp.toDoubleArith count recvPkts
  le_hundred : packetLoss fp.toDoubleArith count recvPkts ≤ fp.ofNat 100
  antitone : ∀ recvPkts', recvPkts ≤ recvPkts' → recvPkts' ≤ count →
    packetLoss fp.toDoubleArith count recvPkts' ≤ packetLoss fp.toDoubleArith count recvPkts

theorem toNat_lossNumerator {count recvPkts : UInt32} (hle : recvPkts ≤ count) :
    (lossNumerator count recvPkts).toNat = (count.toNat - recvPkts.toNat) * 100 % 2 ^ 32 := by
  rw [lossNumerator, UInt32.toNat_mul, UInt32.toNat_sub_of_le _ _ hle]
  rfl

variable {fp}

/-- **The packet loss is exact up to 42949672 lost packets.** For every combined count and
number of received packets, the dividend is exact, and with it the loss, exactly if the product
of the lost packets and a hundred fits 32 bits. -/
theorem packetLoss_exact_iff {count recvPkts : UInt32} (hpos : 0 < count)
    (hle : recvPkts ≤ count) :
    LossExact fp count recvPkts ↔ count.toNat - recvPkts.toNat ≤ 42949672 := by
  have hcount := UInt32.lt_iff_toNat_lt.mp hpos
  have hcount32 := count.toNat_lt
  have hnum := toNat_lossNumerator hle
  constructor
  · intro h
    have := h.numerator
    omega
  · intro hlost
    have hexact : (lossNumerator count recvPkts).toNat
        = 100 * (count.toNat - recvPkts.toNat) := by omega
    refine ⟨hexact, ?_, ?_, ?_⟩
    · have hzero := fp.div_exact 0 count.toNat hcount (by omega)
      rw [Nat.zero_mul] at hzero
      rw [← hzero]
      exact fp.div_mono _ _ _ (Nat.zero_le _) (by omega) hcount (by omega)
    · rw [← fp.div_exact 100 count.toNat hcount (by omega)]
      exact fp.div_mono _ _ _ (by omega) (by omega) hcount (by omega)
    · intro recvPkts' hmore hle'
      have hnum' := toNat_lossNumerator hle'
      have hmore' := UInt32.le_iff_toNat_le.mp hmore
      exact fp.div_mono _ _ _ (by omega) (by omega) hcount (by omega)

end

/-- Exact rational arithmetic. -/
def ratArith : RoundedArith ℚ where
  ofNat := fun n => n
  div := fun x y => x / y
  ceil := fun x => ⌈x⌉
  toUInt32 := fun x => UInt32.ofNat ⌊x⌋₊
  div_mono := by
    intro a b c hle _ _ _
    exact div_le_div_of_nonneg_right (Nat.cast_le.mpr hle) (Nat.cast_nonneg c)
  div_exact := by
    intro a c hc _
    rw [Nat.cast_mul, mul_div_assoc, div_self (Nat.cast_ne_zero.mpr hc.ne'), mul_one]

/-- One lost packet in a hundred. -/
theorem packetLoss_exact_one : LossExact ratArith 100 99 :=
  (packetLoss_exact_iff (by decide) (by decide)).mpr (by decide)

/-- The report of a stream of which half is lost. -/
def halfLostReport : WorkerReport :=
  .single .straight ⟨900, 100000000, 50000000, 3000000, 5, 71600000000⟩
    (by decide) (by decide)

/-- `ubwt -p udp -M 10 connector 10.0.0.1`, of whose seventh stream half is lost: the dividend
is 705032704 instead of 5000000000, a loss of 7 percent. -/
theorem packetLoss_fails_half :
    ∃ cfg, configInit ⟨false, false, fun _ _ => false⟩
        ["-p".toList, "udp".toList, "-M".toList, "10".toList, "connector".toList,
          "10.0.0.1".toList] = .ok cfg
      ∧ SenderCount exactArith cfg 6 100000000
      ∧ (combinedReport false [halfLostReport] .straight).talkCount = 100000000
      ∧ (combinedReport false [halfLostReport] .straight).talkStreamRecvPkts = 50000000
      ∧ lossNumerator 100000000 50000000 = 705032704
      ∧ ¬ LossExact ratArith 100000000 50000000 := by
  refine ⟨_, rfl, senderCount_mul10 ⟨rfl, rfl, rfl⟩ rfl (by norm_num), by decide, by decide,
    by decide, ?_⟩
  intro h
  exact absurd h.numerator (by decide)

/-- `%.nf` of a rational number, rounded to the nearest, and to the even one of two. -/
def ratFixed (n : Nat) (x : ℚ) : Fixed n :=
  let scaled := |x| * 10 ^ n
  let below := ⌊scaled⌋₊
  let digits :=
    if scaled - below < 1 / 2 ∨ (scaled - below = 1 / 2 ∧ below % 2 = 0) then below else below + 1
  { negative := decide (x < 0)
    whole := digits / 10 ^ n
    fraction := (List.range n).map (fun i =>
      ⟨digits / 10 ^ (n - 1 - i) % 10, Nat.mod_lt _ (Nat.succ_pos 9)⟩)
    fractionSize := by rw [List.length_map, List.length_range] }

/-- The report of one worker after a short stream without losses. -/
def sampleReport (cfg : Config) : ReportState ℚ :=
  processReport ratArith.toDoubleArith cfg false ratFixed
    [fun _ => ⟨125, 100, 100, 3000100, 0, 143200⟩] (.init ratArith.toDoubleArith)

/-- `ubwt -F -j out.json connector 10.0.0.1`: the packet loss is the same in both outputs. -/
theorem processReport_agrees_default :
    ∃ cfg, configInit ⟨false, false, fun _ _ => true⟩
        ["-F".toList, "-j".toList, "out.json".toList, "connector".toList, "10.0.0.1".toList]
          = .ok cfg
      ∧ Agrees (sampleReport cfg) .packetLoss := by
  obtain ⟨cfg, hcfg, hfull, hjson⟩ : ∃ cfg, configInit ⟨false, false, fun _ _ => true⟩
        ["-F".toList, "-j".toList, "out.json".toList, "connector".toList, "10.0.0.1".toList]
          = .ok cfg
      ∧ cfg.reportFull = true ∧ cfg.reportJsonFile.isSome = true := ⟨_, rfl, rfl, rfl⟩
  exact ⟨cfg, hcfg, ((processReport_agrees_iff hcfg hfull hjson).2.2 _).mpr (by decide)⟩

/-- The same command line: the header size is 66 octets in the printed report, and 0 in the
file. -/
theorem processReport_disagrees_hdrSize :
    ∃ cfg, configInit ⟨false, false, fun _ _ => true⟩
        ["-F".toList, "-j".toList, "out.json".toList, "connector".toList, "10.0.0.1".toList]
          = .ok cfg
      ∧ (false, .hdrSize, .nat 66) ∈ (sampleReport cfg).printed
      ∧ (none, .hdrSize, .nat 0) ∈ (sampleReport cfg).exported
      ∧ (∀ v, (false, .hdrSize, v) ∈ (sampleReport cfg).printed → v = .nat 66)
      ∧ ¬ Agrees (sampleReport cfg) .hdrSize := by
  obtain ⟨cfg, hcfg, hfull, hjson, hdirs, hsender⟩ :
      ∃ cfg, configInit ⟨false, false, fun _ _ => true⟩
        ["-F".toList, "-j".toList, "out.json".toList, "connector".toList, "10.0.0.1".toList]
          = .ok cfg
      ∧ cfg.reportFull = true ∧ cfg.reportJsonFile.isSome = true
      ∧ testedDirs cfg = [.straight] ∧ imReceiver cfg .straight = false :=
    ⟨_, rfl, rfl, rfl, rfl, rfl⟩
  obtain ⟨hprinted, hexported, -⟩ := processReport_eq ratArith.toDoubleArith false ratFixed
    [fun _ => ⟨125, 100, 100, 3000100, 0, 143200⟩] (configInit_settled hcfg) hfull hjson
  have hhdr := reported_hdrSize ratArith.toDoubleArith false
    [fun _ => ⟨125, 100, 100, 3000100, 0, 143200⟩] hcfg .straight
  rw [hdirs] at hprinted
  have hvalues : ∀ v, (false, .hdrSize, v) ∈ (sampleReport cfg).printed ↔ v = .nat 66 := by
    intro v
    rw [sampleReport, hprinted]
    simp [fullValues, hsender, hhdr]
  have hzero : (none, .hdrSize, .nat 0) ∈ (sampleReport cfg).exported := by
    rw [sampleReport, hexported]
    simp [startValues, unreported, ReportRecord.zero]
  refine ⟨cfg, hcfg, (hvalues _).mpr rfl, hzero, fun v => (hvalues v).mp, ?_⟩
  intro hagrees
  obtain ⟨dir, -, hmem⟩ := hagrees none _ hzero
  rw [sampleReport, hprinted] at hmem
  simp [fullValues, hhdr] at hmem

end Ubwt
