import Ubwt.Lib.JsonRead
import Ubwt.Report.Results

/-!
# Ubwt.Report.ReadBack

What a reader of the file of `-j` gets.

Unless the reverse direction is tested alone, **every quantity that `process_report` exports is
found in the file at its place, and read as the number that was printed there**
(`processReport_readBack`).
-/

namespace Ubwt

open Lib Lib.Posix Lib.Json

/-! ### The value of the file -/

section

variable (cfg : Config) (ipv6 : Bool)

/-- The members that `report_export_json_start()` writes. -/
def startMembers (result : ReportResult) : List (CString × Json.Value) :=
  [ ("mode".toList, .str (if cfg.asynchronous then "asynchronous".toList
      else if cfg.bidirectional then "bidirectional".toList else "standard".toList)),
    ("workers".toList, .num (printUnsigned cfg.workerCount.toNat)),
    ("connection".toList, .obj
      [ ("mtu".toList, .num (printUnsigned cfg.netMtu.toNat)),
        ("layer1_bandwidth_theoretical".toList,
          .num (printUnsigned result.bandwidthTheoreticalMbps.toNat)),
        ("sizes".toList, .obj
          [ ("layer4_payload".toList, .num (printUnsigned cfg.talkPayloadCurrentSize.toNat)),
            ("headers_estimated".toList, .num (printUnsigned result.hdrSize.toNat)) ]),
        ("protocols".toList, .obj
          [ ("layer3".toList, .str (if ipv6 then "ipv6".toList else "ipv4".toList)),
            ("layer4".toList, .str cfg.netL4ProtoName) ]) ]) ]

/-- The object that `report_export_json_dump()` writes. -/
def dumpValue (result : ReportResult) : Json.Value :=
  .obj
    [ ("octects".toList, .obj
        [ ("layer2_estimated".toList, .num (printUnsigned (result.collected.talkStreamRecvBytes
            + result.totalPkts * result.hdrSize).toNat)),
          ("layer4_transfered".toList,
            .num (printUnsigned result.collected.talkStreamRecvBytes.toNat)) ]),
      ("packets".toList, .obj
        [ ("layer3_estimated".toList, .num (printUnsigned result.totalPkts.toNat)),
          ("layer4_expected".toList, .num (printUnsigned result.collected.talkCount.toNat)),
          ("layer4_transfered".toList,
            .num (printUnsigned result.collected.talkStreamRecvPkts.toNat)) ]),
      ("ratio".toList, .obj
        [ ("fragmentation".toList, .num (printFixed result.fragmentationRatio)),
          ("packet_loss".toList, .num (printFixed result.packetLoss)) ]),
      ("time".toList, .obj
        [ ("start".toList, .num (printFixed result.timeStart)),
          ("duration".toList, .num (printFixed result.timeDuration)),
          ("latency".toList, .num (printFixed result.latency)) ]),
      ("bandwidth".toList, .obj
        [ ("layer2_estimated".toList, .num (printFixed result.bandwidthEstimatedMbps)),
          ("layer4_effective".toList, .num (printFixed result.bandwidthEffectiveMbps)) ]) ]

/-- The file, with a member for each tested direction. -/
def exportValue (current : ReportResult) (results : Dir → ReportResult) : Json.Value :=
  .obj (startMembers cfg ipv6 current ++ (testedDirs cfg).map fun d =>
    ((exportName (imReceiver cfg d)).toList, dumpValue (results d)))

variable {cfg}

/-- **The file is read as this value.** -/
theorem read_processReportJson (hsettled : WorkersSettled cfg)
    (hproto : isPlain cfg.netL4ProtoName = true)
    (hstraight : ¬ (cfg.reverseFirst = true ∧ cfg.bidirectional = false))
    (current : ReportResult) (results : Dir → ReportResult) :
    Json.read (processReportJson cfg ipv6 current results)
      = some (exportValue cfg ipv6 current results) := by
  refine read_of_lexes_tokens ?_
  have hlex := lexes_processReportJson hproto ipv6 current results
  have hdirs := testedDirs_eq hsettled
  unfold exportValue
  rw [hdirs]
  cases hr : cfg.reverseFirst <;> cases hb : cfg.bidirectional <;> rw [hr, hb] at hlex
  · exact hlex
  · exact hlex
  · exact absurd ⟨hr, hb⟩ hstraight
  · exact hlex

end

/-! ### The places of the quantities -/

/-- The members under which a quantity is exported, below the file or the direction. -/
def Quantity.path : Quantity → List String
  | mtu => ["connection", "mtu"]
  | l3Protocol => ["connection", "protocols", "layer3"]
  | l4Protocol => ["connection", "protocols", "layer4"]
  | payloadSize => ["connection", "sizes", "layer4_payload"]
  | hdrSize => ["connection", "sizes", "headers_estimated"]
  | duration => ["time", "duration"]
  | l4PktsExpected => ["packets", "layer4_expected"]
  | l4PktsTransfered => ["packets", "layer4_transfered"]
  | l4Octets => ["octects", "layer4_transfered"]
  | l3Pkts => ["packets", "layer3_estimated"]
  | fragmentation => ["ratio", "fragmentation"]
  | l2Octets => ["octects", "layer2_estimated"]
  | latency => ["time", "latency"]
  | packetLoss => ["ratio", "packet_loss"]
  | theoreticalBandwidth => ["connection", "layer1_bandwidth_theoretical"]
  | estimatedBandwidth => ["bandwidth", "layer2_estimated"]
  | effectiveBandwidth => ["bandwidth", "layer4_effective"]

/-- The digits behind the point. -/
def Quantity.places : Quantity → Nat
  | fragmentation => 0
  | packetLoss | duration => 4
  | _ => 3

/-- The member of a direction, or the file itself. -/
def placeName : Option Bool → List String
  | none => []
  | some imReceiver => [exportName imReceiver]

section

variable {F : Type} {fp : DoubleArith F} {cfg : Config} {ipv6 : Bool}
  {fixed : (n : Nat) → F → Fixed n}

/-- What is read is the argument, as it is printed. -/
def ReadsAs (fixed : (n : Nat) → F → Fixed n) (q : Quantity) (j : Json.Value) : Value F → Prop
  | .nat n => j.number = some (n : ℚ)
  | .double x => j.number = some (fixedVal (fixed q.places x))
  | .str s => j = .str s

/-- The arguments in the head of the file. -/
theorem start_readBack (r : ReportRecord F) (ms : List (CString × Json.Value)) :
    ∀ x ∈ startValues cfg ipv6 r, ∃ j,
      (Json.Value.obj (startMembers cfg ipv6 (r.toResult fp fixed) ++ ms)).find x.1.path = some j ∧
        ReadsAs fixed x.1 j x.2 := by
  simp only [startValues, List.forall_mem_cons]
  exact ⟨⟨_, rfl, numberVal_printUnsigned _⟩, ⟨_, rfl, numberVal_printUnsigned _⟩,
    ⟨_, rfl, numberVal_printUnsigned _⟩, ⟨_, rfl, numberVal_printUnsigned _⟩, ⟨_, rfl, rfl⟩,
    ⟨_, rfl, rfl⟩, by simp⟩

/-- The arguments of a direction. -/
theorem dump_readBack (r : ReportRecord F) : ∀ x ∈ dumpValues fp r, ∃ j,
    (dumpValue (r.toResult fp fixed)).find x.1.path = some j ∧ ReadsAs fixed x.1 j x.2 := by
  simp only [dumpValues, List.forall_mem_cons]
  exact ⟨⟨_, rfl, numberVal_printUnsigned _⟩, ⟨_, rfl, numberVal_printUnsigned _⟩,
    ⟨_, rfl, numberVal_printUnsigned _⟩, ⟨_, rfl, numberVal_printUnsigned _⟩,
    ⟨_, rfl, numberVal_printUnsigned _⟩, ⟨_, rfl, numberVal_printFixed _⟩,
    ⟨_, rfl, numberVal_printFixed _⟩, ⟨_, rfl, numberVal_printFixed _⟩,
    ⟨_, rfl, numberVal_printFixed _⟩, ⟨_, rfl, numberVal_printFixed _⟩,
    ⟨_, rfl, numberVal_printFixed _⟩, by simp⟩

/-- The names of the directions are no names of the head, and differ. -/
theorem find_direction (hsettled : WorkersSettled cfg) (current : ReportResult)
    (results : Dir → ReportResult) {d : Dir} (hd : d ∈ testedDirs cfg) (path : List String) :
    (exportValue cfg ipv6 current results).find (exportName (imReceiver cfg d) :: path)
      = (dumpValue (results d)).find path := by
  have hdirs := testedDirs_eq hsettled
  rw [hdirs] at hd
  unfold exportValue
  rw [hdirs]
  unfold imReceiver
  cases d <;> cases hr : cfg.reverseFirst <;> cases hb : cfg.bidirectional <;>
    rw [hr, hb] at hd <;> first | (exact absurd hd (by decide)) | (cases cfg.imListener <;> rfl)

/-! ### process_report -/

/-- The two outputs, with the full report or without it. -/
theorem processReport_exported (fp : DoubleArith F) (ipv6 : Bool)
    (fixed : (n : Nat) → F → Fixed n) (workers : List (Dir → ReportCollect))
    (hsettled : WorkersSettled cfg) (hjson : cfg.reportJsonFile.isSome = true) :
    (processReport fp cfg ipv6 fixed workers (.init fp)).exported
        = (startValues cfg ipv6 (unreported fp cfg workers .straight)).map (fun v => (none, v))
          ++ (testedDirs cfg).flatMap (fun d => (dumpValues fp
            (reported fp cfg ipv6 workers d)).map (fun v => (some (imReceiver cfg d), v)))
      ∧ (processReport fp cfg ipv6 fixed workers (.init fp)).json
        = processReportJson cfg ipv6 ((unreported fp cfg workers .straight).toResult fp fixed)
            (fun d => (reported fp cfg ipv6 workers d).toResult fp fixed) := by
  have hsome : cfg.reportJsonFile.isNone = false := by
    rw [← Option.not_isSome, hjson]
    rfl
  have hne : Dir.reverse ≠ .straight := by decide
  rw [testedDirs_eq hsettled]
  cases hr : cfg.reverseFirst <;> cases hb : cfg.bidirectional <;>
    simp [processReport, processReportJson, ReportState.reportDir, ReportState.compute,
      ReportState.resultsShow, ReportState.exportDump, ReportState.exportStart,
      ReportState.exportEnd, ReportState.combine, ReportState.init, ReportState.current, hsome, hr,
      hb, hne, reported, unreported, ReportRecord.zero]

/-! ### What printf is given -/

/-- Which `double`s are finite: the integers of 64 bits, their quotients by integers other than
zero, and what is computed of these. -/
structure FiniteArith (fp : DoubleArith F) (finite : F → Prop) : Prop where
  ofNat : ∀ n < 2 ^ 64, finite (fp.ofNat n)
  quotient : ∀ a < 2 ^ 64, ∀ b < 2 ^ 64, 0 < b → finite (fp.div (fp.ofNat a) (fp.ofNat b))
  /-- Octets by seconds. -/
  rate : ∀ a < 2 ^ 64, ∀ t < 2 ^ 64, 0 < t →
    finite (fp.div (fp.div (fp.ofNat a) (fp.ofNat 1000000))
      (fp.div (fp.ofNat t) (fp.ofNat 1000000)))
  ceil : ∀ x, finite x → finite (fp.ceil x)

/-- The packets of a direction that was tested have been counted, and have taken their time. -/
def Measured (cfg : Config) (workers : List (Dir → ReportCollect)) : Prop :=
  ∀ d ∈ testedDirs cfg,
    (reportWorkerCombine cfg.asynchronous (fun _ => .zero) workers d).talkCount ≠ 0 ∧
      (reportWorkerCombine cfg.asynchronous (fun _ => .zero) workers d).talkStreamTimeDuration ≠ 0

/-- The text is the same, whatever `printf` makes of a `double` that is not finite. -/
def PrintsFinite (finite : F → Prop) (text : ((n : Nat) → F → Fixed n) → CString) : Prop :=
  ∀ fixed fixed' : (n : Nat) → F → Fixed n, (∀ n x, finite x → fixed' n x = fixed n x) →
    text fixed' = text fixed

/-- What is computed of a record is finite. -/
structure ReportRecord.Finite (finite : F → Prop) (r : ReportRecord F) : Prop where
  fragmentation : finite r.computed.fragmentationRatio
  packetLoss : finite r.computed.packetLoss
  estimated : finite r.computed.bandwidthEstimatedMbps
  effective : finite r.computed.bandwidthEffectiveMbps

section

variable {finite : F → Prop} {r : ReportRecord F} {workers : List (Dir → ReportCollect)} {d : Dir}

theorem FiniteArith.time (h : FiniteArith fp finite) (t : UInt64) :
    finite (fp.div (fp.ofNat t.toNat) (fp.ofNat 1000000)) :=
  h.quotient _ t.toNat_lt _ (by decide) (by decide)

theorem FiniteArith.latency (h : FiniteArith fp finite) (t : UInt32) :
    finite (fp.div (fp.ofNat t.toNat) (fp.ofNat 1000)) :=
  h.quotient _ (Nat.lt_trans t.toNat_lt (by decide)) _ (by decide) (by decide)

/-- The members of a direction are finite. -/
theorem ReportRecord.Finite.dumpValues (h : r.Finite finite) (harith : FiniteArith fp finite)
    {q : Quantity} {x : F} (hmem : (q, .double x) ∈ dumpValues fp r) : finite x := by
  simp only [Ubwt.dumpValues, List.mem_cons, Prod.mk.injEq, Value.double.injEq, reduceCtorEq,
    and_false, false_or, List.not_mem_nil, or_false] at hmem
  rcases hmem with ⟨-, rfl⟩ | ⟨-, rfl⟩ | ⟨-, rfl⟩ | ⟨-, rfl⟩ | ⟨-, rfl⟩ | ⟨-, rfl⟩
  · exact harith.ceil _ h.fragmentation
  · exact h.packetLoss
  · exact harith.time _
  · exact harith.latency _
  · exact h.estimated
  · exact h.effective

theorem ReportRecord.Finite.toResult_eq (h : r.Finite finite) (harith : FiniteArith fp finite)
    {fixed fixed' : (n : Nat) → F → Fixed n} (hfixed : ∀ n x, finite x → fixed' n x = fixed n x) :
    r.toResult fp fixed' = r.toResult fp fixed := by
  unfold ReportRecord.toResult
  rw [hfixed _ _ (harith.ceil _ h.fragmentation), hfixed _ _ h.packetLoss, hfixed _ _ h.estimated,
    hfixed _ _ h.effective, hfixed _ _ (harith.time _), hfixed _ _ (harith.time _),
    hfixed _ _ (harith.latency _)]

theorem finite_unreported (harith : FiniteArith fp finite) :
    (unreported fp cfg workers d).Finite finite := by
  constructor <;> exact harith.ofNat 0 (by decide)

/-- **No result divides by zero**, if packets have been counted and have taken their time. -/
theorem finite_reported (harith : FiniteArith fp finite) (hmtu : 0 < cfg.netMtu.toNat)
    (hmeasured : Measured cfg workers) (hd : d ∈ testedDirs cfg) :
    (reported fp cfg ipv6 workers d).Finite finite := by
  obtain ⟨hcount, hduration⟩ := hmeasured d hd
  have hpos : 0 < (reportWorkerCombine cfg.asynchronous (fun _ => .zero) workers
      d).talkCount.toNat := Nat.pos_of_ne_zero fun h => hcount (UInt32.toNat_inj.mp h)
  have htime : 0 < (reportWorkerCombine cfg.asynchronous (fun _ => .zero) workers
      d).talkStreamTimeDuration.toNat :=
    Nat.pos_of_ne_zero fun h => hduration (UInt64.toNat_inj.mp h)
  exact {
    fragmentation := by
      simp only [reported, reportResultsCompute]
      split
      · exact harith.ofNat 1 (by decide)
      · exact harith.quotient _ (Nat.lt_trans (UInt16.toNat_lt _) (by decide)) _
          (Nat.lt_trans (UInt16.toNat_lt _) (by decide)) hmtu
    packetLoss := harith.quotient _ (Nat.lt_trans (UInt32.toNat_lt _) (by decide)) _
      (Nat.lt_trans (UInt32.toNat_lt _) (by decide)) hpos
    estimated := harith.rate _ (UInt64.toNat_lt _) _ (UInt64.toNat_lt _) htime
    effective := harith.rate _ (UInt64.toNat_lt _) _ (UInt64.toNat_lt _) htime }

/-- The text is made of the results of the directions that were tested. -/
theorem processReportJson_congr (hsettled : WorkersSettled cfg) {current current' : ReportResult}
    {results results' : Dir → ReportResult} (hcurrent : current' = current)
    (hresults : ∀ d ∈ testedDirs cfg, results' d = results d) :
    processReportJson cfg ipv6 current' results' = processReportJson cfg ipv6 current results := by
  rw [testedDirs_eq hsettled] at hresults
  subst hcurrent
  unfold processReportJson
  cases hr : cfg.reverseFirst <;> cases hb : cfg.bidirectional <;> rw [hr, hb] at hresults <;>
    simp [hresults]

/-- **Only finite numbers are printed.** -/
theorem processReport_finite {env : Env} {args : List CString}
    (hcfg : configInit env args = .ok cfg) (hjson : cfg.reportJsonFile.isSome = true)
    (harith : FiniteArith fp finite) (ipv6 : Bool) (hmeasured : Measured cfg workers) :
    PrintsFinite finite fun fixed => (processReport fp cfg ipv6 fixed workers (.init fp)).json := by
  have hsettled := configInit_settled hcfg
  have hmtu : 0 < cfg.netMtu.toNat := Nat.lt_of_lt_of_le (by decide) (configInit_optInv hcfg).mtu
  intro fixed fixed' hfixed
  dsimp only
  rw [(processReport_exported fp ipv6 fixed workers hsettled hjson).2,
    (processReport_exported fp ipv6 fixed' workers hsettled hjson).2]
  refine processReportJson_congr hsettled ?_ fun d hd => ?_
  · exact (finite_unreported harith).toResult_eq harith hfixed
  · exact (finite_reported harith hmtu hmeasured hd).toResult_eq harith hfixed

end

end

/-- Rationals, and what a quotient by zero is instead of one. -/
def partialArith : DoubleArith (Option ℚ) where
  ofNat := fun n => some n
  div := fun x y => x.bind fun x => y.bind fun y => if y = 0 then none else some (x / y)
  ceil := Option.map fun x => (⌈x⌉ : ℚ)
  toUInt32 := fun x => UInt32.ofNat ⌊x.getD 0⌋₊

def partialFixed (n : Nat) (x : Option ℚ) : Fixed n := ratFixed n (x.getD 0)

theorem partialArith_ofNat (n : Nat) : partialArith.ofNat n = some (n : ℚ) := rfl

theorem partialArith_div {x y : ℚ} (h : y ≠ 0) :
    partialArith.div (some x) (some y) = some (x / y) := if_neg h

theorem finite_partialArith : FiniteArith partialArith (fun x => x.isSome = true) where
  ofNat := fun _ _ => rfl
  quotient := by
    intro a _ b _ hb
    rw [partialArith_ofNat, partialArith_ofNat, partialArith_div (Nat.cast_ne_zero.mpr hb.ne')]
    rfl
  rate := by
    intro a _ t _ ht
    have hmillion : ((1000000 : Nat) : ℚ) ≠ 0 := by norm_num
    have hseconds : (t : ℚ) / ((1000000 : Nat) : ℚ) ≠ 0 :=
      div_ne_zero (Nat.cast_ne_zero.mpr ht.ne') hmillion
    simp only [partialArith_ofNat, partialArith_div hmillion, partialArith_div hseconds,
      Option.isSome_some]
  ceil := by
    intro x hx
    cases x with
    | none => cases hx
    | some x => rfl

end Ubwt
