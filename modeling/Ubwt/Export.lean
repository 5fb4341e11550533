import Mathlib.Data.List.TakeWhile
import Ubwt.Config.Options
import Ubwt.Lib.Json
import Ubwt.Talk.Pair

/-!
# Ubwt.Export

The JSON export of the results: `report_export_json_start`, `report_export_json_dump` and
`report_export_json_end` (`report.c`), in the order in which `process_report` calls them.

Each function writes lines by hand, and the comma between two directions is written by the
second dump, on the word of the caller. **When the reverse direction is the only one there is
no first dump**, but the caller says that there is: `report_export_json_start` has written a
comma already, and the text has two in a row (`exportJson_wellFormed_iff`).
-/

namespace Ubwt

open Lib Lib.Posix Lib.Json

/-! ### report.c -/

/-- `struct ubwt_report_result`; the `double`s are given as they are printed. -/
structure ReportResult where
  collected : ReportCollect
  bandwidthTheoreticalMbps : UInt32
  totalPkts : UInt64
  hdrSize : UInt64
  fragmentationRatio : Fixed 0
  packetLoss : Fixed 4
  timeStart : Fixed 4
  timeDuration : Fixed 4
  latency : Fixed 3
  bandwidthEstimatedMbps : Fixed 3
  bandwidthEffectiveMbps : Fixed 3

/-- The lines that the export is made of: a member that is a number or a string, and the
start and the end of one that is an object; `last` is the last member of its object. -/
inductive JsonLine
  | num (tabs : Nat) (key : String) (text : CString) (last : Bool)
  | str (tabs : Nat) (key : String) (s : CString) (last : Bool)
  | opening (tabs : Nat) (key : String)
  | closing (tabs : Nat) (last : Bool)

/-- The indentation of a member, and its key. -/
def jsonKey (tabs : Nat) (key : String) : CString :=
  List.replicate tabs '\t' ++ ('"' :: (key.toList ++ "\": ".toList))

/-- The end of a line: a comma, unless it is the last one of its object. -/
def jsonEol (last : Bool) : CString := if last then "\n".toList else ",\n".toList

/-- What `fprintf()` writes for a line. -/
def JsonLine.text : JsonLine → CString
  | num tabs key text last => jsonKey tabs key ++ (text ++ jsonEol last)
  | str tabs key s last => jsonKey tabs key ++ ('"' :: (s ++ '"' :: jsonEol last))
  | opening tabs key => jsonKey tabs key ++ "\x7b\n".toList
  | closing tabs last => List.replicate tabs '\t' ++ '}' :: jsonEol last

/-- The lines of `report_export_json_start()`. -/
def startLines (cfg : Config) (ipv6 : Bool) (result : ReportResult) : List JsonLine :=
  [ .str 1 "mode" (if cfg.asynchronous then "asynchronous".toList
      else if cfg.bidirectional then "bidirectional".toList else "standard".toList) false,
    .num 1 "workers" (printUnsigned cfg.workerCount.toNat) false,
    .opening 1 "connection",
    .num 2 "mtu" (printUnsigned cfg.netMtu.toNat) false,
    .num 2 "layer1_bandwidth_theoretical"
      (printUnsigned result.bandwidthTheoreticalMbps.toNat) false,
    .opening 2 "sizes",
    .num 3 "layer4_payload" (printUnsigned cfg.talkPayloadCurrentSize.toNat) false,
    .num 3 "headers_estimated" (printUnsigned result.hdrSize.toNat) true,
    .closing 2 false,
    .opening 2 "protocols",
    .str 3 "layer3" (if ipv6 then "ipv6".toList else "ipv4".toList) false,
    .str 3 "layer4" cfg.netL4ProtoName true,
    .closing 2 true,
    .closing 1 false ]

/-- `report_export_json_start()`. -/
def reportExportJsonStart (cfg : Config) (ipv6 : Bool) (result : ReportResult) : CString :=
  "\x7b\n".toList ++ (startLines cfg ipv6 result).flatMap JsonLine.text

/-- The name of a direction, as `process_im_receiver()` says it. -/
def exportName (imReceiver : Bool) : String := if imReceiver then "download" else "upload"

/-- The lines of `report_export_json_dump()`. -/
def dumpLines (imReceiver : Bool) (result : ReportResult) : List JsonLine :=
  [ .opening 1 (exportName imReceiver),
    .opening 2 "octects",
    .num 3 "layer2_estimated" (printUnsigned (result.collected.talkStreamRecvBytes
      + result.totalPkts * result.hdrSize).toNat) false,
    .num 3 "layer4_transfered" (printUnsigned result.collected.talkStreamRecvBytes.toNat) true,
    .closing 2 false,
    .opening 2 "packets",
    .num 3 "layer3_estimated" (printUnsigned result.totalPkts.toNat) false,
    .num 3 "layer4_expected" (printUnsigned result.collected.talkCount.toNat) false,
    .num 3 "layer4_transfered" (printUnsigned result.collected.talkStreamRecvPkts.toNat) true,
    .closing 2 false,
    .opening 2 "ratio",
    .num 3 "fragmentation" (printFixed result.fragmentationRatio) false,
    .num 3 "packet_loss" (printFixed result.packetLoss) true,
    .closing 2 false,
    .opening 2 "time",
    .num 3 "start" (printFixed result.timeStart) false,
    .num 3 "duration" (printFixed result.timeDuration) false,
    .num 3 "latency" (printFixed result.latency) true,
    .closing 2 false,
    .opening 2 "bandwidth",
    .num 3 "layer2_estimated" (printFixed result.bandwidthEstimatedMbps) false,
    .num 3 "layer4_effective" (printFixed result.bandwidthEffectiveMbps) true,
    .closing 2 true ]

/-- `report_export_json_dump()`. -/
def reportExportJsonDump (imReceiver : Bool) (result : ReportResult) (resume : Bool) : CString :=
  (if resume then ",\n".toList else []) ++
    ((dumpLines imReceiver result).flatMap JsonLine.text ++ "\t\x7d".toList)

/-- `report_export_json_end()`. -/
def reportExportJsonEnd : CString := "\n\x7d\n".toList

/-! ### process.c -/

/-- Is this end the receiver of a direction? -/
def imReceiver (cfg : Config) : Dir → Bool
  | .straight => cfg.imListener
  | .reverse => !cfg.imListener

/-- The text that `process_report()` writes into the file of `-j`. -/
def processReportJson (cfg : Config) (ipv6 : Bool) (current : ReportResult)
    (results : Dir → ReportResult) : CString :=
  let straight :=
    if (cfg.reverseFirst && cfg.bidirectional) || !cfg.reverseFirst then
      reportExportJsonDump (imReceiver cfg .straight) (results .straight) false
    else []
  let reverse :=
    if !cfg.bidirectional && !cfg.reverseFirst then []
    else reportExportJsonDump (imReceiver cfg .reverse) (results .reverse) true
  reportExportJsonStart cfg ipv6 current ++ (straight ++ (reverse ++ reportExportJsonEnd))

/-- The directions that the workers of `runtime_do()` test. -/
def testedDirs (cfg : Config) : List Dir :=
  [Dir.straight, Dir.reverse].filter (fun d =>
    (cfg.workerStraightFirstCount != 0 &&
      (processRun false cfg.bidirectional cfg.asynchronous).contains d) ||
    (cfg.workerReverseFirstCount != 0 &&
      (processRun true cfg.bidirectional cfg.asynchronous).contains d))

/-- The text is one object, with one member for each direction that was tested. -/
def ExportWellFormed (cfg : Config) (text : CString) : Prop :=
  ∃ members, Json.read text = some (.obj members)
    ∧ members.map Prod.fst
      = ["mode".toList, "workers".toList, "connection".toList]
        ++ (testedDirs cfg).map (fun d => (exportName (imReceiver cfg d)).toList)
    ∧ (members.map Prod.fst).Nodup

/-! ### The tokens of the lines -/

/-- Characters that stand for themselves in a string. -/
def isPlain (s : CString) : Bool := s.all (fun c => c ≠ '"' && c ≠ '\\' && 32 ≤ c.toNat)

theorem lexFrom_str {acc s : CString} (hs : isPlain s = true) :
    lexFrom (.str acc) s = some ([], .str (acc ++ s)) := by
  induction s generalizing acc with
  | nil => simp [lexFrom]
  | cons c s ih =>
      simp only [isPlain, List.all_cons, Bool.and_eq_true, decide_eq_true_eq] at hs
      obtain ⟨⟨⟨hquote, hback⟩, hctrl⟩, hs⟩ := hs
      have hlow : ¬ c.toNat < 32 := by omega
      simp [lexFrom, lexStep, hquote, hback, hlow, ih hs]

/-- A string of plain characters is a token. -/
theorem lexes_quoted {s : CString} (hs : isPlain s = true) :
    Lexes ('"' :: (s ++ ['"'])) [.str s] := by
  have hquoted : lexFrom (.str []) (s ++ ['"']) = some ([.str s], .idle) := by
    rw [lexFrom_append, lexFrom_str hs]
    rfl
  have hstart : lexStep .idle '"' = some ([], .str []) := rfl
  unfold Lexes
  simp only [lexFrom, hstart, hquoted]
  rfl

theorem lexes_tabs (n : Nat) : Lexes (List.replicate n '\t') [] := by
  induction n with
  | zero => rfl
  | succ n ih =>
      rw [List.replicate_succ]
      exact (show Lexes ['\t'] [] from rfl).append ih

/-- A printed number. -/
structure NumText (text : CString) : Prop where
  chars : text.all isNumChar = true
  number : isNumber text = true

theorem isNumChar_of_isDigit {c : Char} (hc : c.isDigit = true) : isNumChar c = true := by
  simp [isNumChar, hc]

/-- The sign is looked for at the head only. -/
theorem isNumber_toDigits (n : Nat) (frac : CString) :
    isNumber (Nat.toDigits 10 n ++ frac) = isUnsigned (Nat.toDigits 10 n ++ frac) := by
  cases hdigits : Nat.toDigits 10 n with
  | nil => exact absurd hdigits Nat.toDigits_ne_nil
  | cons c cs =>
      have hc := toDigits_all n c (by rw [hdigits]; exact List.mem_cons_self ..)
      have hne : c ≠ '-' := by
        rintro rfl
        exact absurd hc (by decide)
      rw [List.cons_append]
      unfold isNumber
      split
      · rename_i heq
        exact absurd (List.cons.inj heq).1 hne
      · rfl

theorem numText_printUnsigned (n : Nat) : NumText (printUnsigned n) where
  chars := List.all_eq_true.mpr fun c hc => isNumChar_of_isDigit (toDigits_all n c hc)
  number := by
    have hnum := isNumber_toDigits n []
    rw [List.append_nil] at hnum
    rw [printUnsigned, hnum, ← List.append_nil (Nat.toDigits 10 n)]
    exact isUnsigned_toDigits n rfl (by simp)

theorem numText_printFixed {n : Nat} (x : Fixed n) : NumText (printFixed x) := by
  have hdigits : ∀ c ∈ x.fraction.map (fun d => Nat.digitChar d.val), c.isDigit = true := by
    intro c hc
    obtain ⟨d, -, rfl⟩ := List.mem_map.mp hc
    have hall : ∀ d : Fin 10, (Nat.digitChar d.val).isDigit = true := by decide
    exact hall d
  generalize hfrac : (if n = 0 then [] else '.' :: x.fraction.map (fun d => Nat.digitChar d.val))
    = frac
  have hall : ∀ c ∈ frac, isNumChar c = true := by
    subst hfrac
    intro c hc
    split at hc
    · cases hc
    · rcases List.mem_cons.mp hc with rfl | hc
      · rfl
      · exact isNumChar_of_isDigit (hdigits c hc)
  have hfraction : isFraction frac = true ∧ ∀ c ∈ frac.head?, c.isDigit = false := by
    subst hfrac
    split
    · exact ⟨rfl, by simp⟩
    · rename_i hn
      have hne : x.fraction.map (fun d => Nat.digitChar d.val) ≠ [] := by
        intro hnil
        have := congrArg List.length hnil
        rw [List.length_map, x.fractionSize] at this
        exact hn this
      refine ⟨?_, by simp⟩
      rw [isFraction, List.takeWhile_eq_self_iff.mpr hdigits, List.dropWhile_eq_nil_iff.mpr hdigits]
      simpa [isExponent] using hne
  have hunsigned := isUnsigned_toDigits x.whole hfraction.1 hfraction.2
  have hchars : (Nat.toDigits 10 x.whole ++ frac).all isNumChar = true := by
    rw [List.all_append, Bool.and_eq_true]
    exact ⟨List.all_eq_true.mpr fun c hc => isNumChar_of_isDigit (toDigits_all _ c hc),
      List.all_eq_true.mpr hall⟩
  rw [printFixed, hfrac]
  cases x.negative with
  | true => exact ⟨hchars, hunsigned⟩
  | false => exact ⟨hchars, (isNumber_toDigits x.whole frac).trans hunsigned⟩

/-- The token at the end of a line. -/
def eolTokens (last : Bool) : List Token := if last then [] else [.comma]

/-- The tokens of a line. -/
def JsonLine.tokens : JsonLine → List Token
  | num _ key text last => [.str key.toList, .colon, .num text] ++ eolTokens last
  | str _ key s last => [.str key.toList, .colon, .str s] ++ eolTokens last
  | opening _ key => [.str key.toList, .colon, .lbrace]
  | closing _ last => .rbrace :: eolTokens last

/-- A line whose key and string are plain and whose number is one. -/
def JsonLine.Sound : JsonLine → Prop
  | num _ key text _ => isPlain key.toList = true ∧ NumText text
  | str _ key s _ => isPlain key.toList = true ∧ isPlain s = true
  | opening _ key => isPlain key.toList = true
  | closing _ _ => True

theorem lexes_jsonKey (tabs : Nat) {key : String} (hkey : isPlain key.toList = true) :
    Lexes (jsonKey tabs key) [.str key.toList, .colon] := by
  have hline : jsonKey tabs key
      = List.replicate tabs '\t' ++ ('"' :: (key.toList ++ ['"']) ++ ": ".toList) := by
    simp [jsonKey]
  rw [hline]
  exact (lexes_tabs tabs).append ((lexes_quoted hkey).append
    (show Lexes ": ".toList [.colon] from rfl))

theorem lexes_jsonEol (last : Bool) : Lexes (jsonEol last) (eolTokens last) := by
  cases last <;> rfl

theorem JsonLine.Sound.lexes {line : JsonLine} (h : line.Sound) : Lexes line.text line.tokens := by
  cases line with
  | num tabs key text last =>
      refine (lexes_jsonKey tabs h.1).append ?_
      cases last with
      | true => exact Lexes.num h.2.chars h.2.number (by decide) (show Lexes ['\n'] [] from rfl)
      | false =>
          exact Lexes.num h.2.chars h.2.number (by decide)
            (show Lexes [',', '\n'] [.comma] from rfl)
  | str tabs key s last =>
      have hline : (JsonLine.str tabs key s last).text
          = jsonKey tabs key ++ ('"' :: (s ++ ['"']) ++ jsonEol last) := by
        simp [text]
      rw [hline]
      exact (lexes_jsonKey tabs h.1).append ((lexes_quoted h.2).append (lexes_jsonEol last))
  | opening tabs key =>
      exact (lexes_jsonKey tabs h).append (show Lexes "\x7b\n".toList [.lbrace] from rfl)
  | closing tabs last =>
      have hline : (JsonLine.closing tabs last).text
          = List.replicate tabs '\t' ++ (['}'] ++ jsonEol last) := by
        simp [text]
      rw [hline]
      exact (lexes_tabs tabs).append
        ((show Lexes ['}'] [.rbrace] from rfl).append (lexes_jsonEol last))

theorem lexes_lines {lines : List JsonLine} (h : ∀ line ∈ lines, line.Sound) :
    Lexes (lines.flatMap JsonLine.text) (lines.flatMap JsonLine.tokens) := by
  induction lines with
  | nil => exact Lexes.nil
  | cons line lines ih =>
      obtain ⟨hline, hlines⟩ := List.forall_mem_cons.mp h
      exact hline.lexes.append (ih hlines)

/-! ### The three functions -/

theorem lexes_start {cfg : Config} (hproto : isPlain cfg.netL4ProtoName = true) (ipv6 : Bool)
    (result : ReportResult) :
    Lexes (reportExportJsonStart cfg ipv6 result)
      (.lbrace :: (startLines cfg ipv6 result).flatMap JsonLine.tokens) := by
  have hmode : isPlain (if cfg.asynchronous then "asynchronous".toList
      else if cfg.bidirectional then "bidirectional".toList else "standard".toList) = true := by
    split
    · decide
    · split <;> decide
  have hl3 : isPlain (if ipv6 then "ipv6".toList else "ipv4".toList) = true := by
    cases ipv6 <;> decide
  refine (show Lexes "\x7b\n".toList [.lbrace] from rfl).append (lexes_lines ?_)
  simp only [startLines, List.forall_mem_cons, JsonLine.Sound, numText_printUnsigned, hmode, hl3,
    hproto, and_true, true_and]
  simp
  decide

theorem lexes_dump (imReceiver : Bool) (result : ReportResult) (resume : Bool) :
    Lexes (reportExportJsonDump imReceiver result resume)
      ((if resume then [.comma] else []) ++
        ((dumpLines imReceiver result).flatMap JsonLine.tokens ++ [.rbrace])) := by
  have hname : isPlain (exportName imReceiver).toList = true := by
    cases imReceiver <;> decide
  have hresume : Lexes (if resume then ",\n".toList else []) (if resume then [.comma] else []) := by
    cases resume <;> rfl
  refine hresume.append ((lexes_lines ?_).append (show Lexes "\t\x7d".toList [.rbrace] from rfl))
  simp only [dumpLines, List.forall_mem_cons, JsonLine.Sound, numText_printUnsigned,
    numText_printFixed, hname, and_true, true_and]
  simp
  decide

/-- The protocol of an accepted configuration has one of two names. -/
theorem configInit_protoName {env : Env} {args : List CString} {cfg : Config}
    (h : configInit env args = .ok cfg) : isPlain cfg.netL4ProtoName = true := by
  refine configInit_invariant (P := fun cfg => isPlain cfg.netL4ProtoName = true) (by decide)
    ?_ ?_ (fun _ _ _ _ _ hP => hP) h
  · intro cfg optarg opt hacc hP
    cases opt
    case p => rcases hacc with rfl | rfl <;> rfl
    all_goals exact hP
  · intro cfg role addr hP
    unfold roleConfig
    split <;> split <;> exact hP

/-- The directions that are tested, as the options say. -/
theorem testedDirs_eq {cfg : Config} (h : WorkersSettled cfg) :
    testedDirs cfg =
      match cfg.reverseFirst, cfg.bidirectional with
      | false, false => [.straight]
      | true, false => [.reverse]
      | _, true => [.straight, .reverse] := by
  have hzero : ∀ w : UInt32, w.toNat ≠ 0 → (w != 0) = true := by
    intro w hw
    rw [bne_iff_ne]
    rintro rfl
    exact hw rfl
  have hsum := h.sum
  have hpos := h.pos
  cases ha : cfg.asynchronous with
  | true =>
      obtain ⟨hb, hr, heq⟩ := h.async ha
      have hs := hzero cfg.workerStraightFirstCount (by rw [heq] at hsum ⊢; omega)
      have hw := hzero cfg.workerReverseFirstCount (by rw [heq] at hsum; omega)
      simp only [testedDirs, ha, hb, hr, hs, hw]
      decide
  | false =>
      have hsync := h.sync ha
      cases hr : cfg.reverseFirst with
      | true =>
          rw [hr, if_pos rfl] at hsync
          have hw := hzero cfg.workerReverseFirstCount (by rw [hsync] at hsum; simp at hsum; omega)
          simp only [testedDirs, ha, hsync, hw]
          cases cfg.bidirectional <;> decide
      | false =>
          rw [hr, if_neg (by decide)] at hsync
          have hw := hzero cfg.workerStraightFirstCount (by rw [hsync] at hsum; simp at hsum; omega)
          simp only [testedDirs, ha, hsync, hw]
          cases cfg.bidirectional <;> decide

theorem read_of_lexes {text : CString} {toks : List Token} (h : Lexes text toks) :
    Json.read text = Json.parse toks := by
  rw [Json.read, h.lex_eq, Option.bind_some]

section

variable (cfg : Config) (ipv6 : Bool) (current : ReportResult) (straight reverse : ReportResult)

/-- The text with one direction. -/
theorem parse_one (name : Bool) : ∃ members,
    Json.parse (.lbrace :: (startLines cfg ipv6 current).flatMap JsonLine.tokens
        ++ ((dumpLines name straight).flatMap JsonLine.tokens ++ [.rbrace] ++ [.rbrace]))
      = some (.obj members)
    ∧ members.map Prod.fst = ["mode".toList, "workers".toList, "connection".toList]
        ++ [(exportName name).toList] :=
  ⟨_, rfl, rfl⟩

/-- The text with two directions. -/
theorem parse_two (name name' : Bool) : ∃ members,
    Json.parse (.lbrace :: (startLines cfg ipv6 current).flatMap JsonLine.tokens
        ++ ((dumpLines name straight).flatMap JsonLine.tokens ++ [.rbrace]
          ++ ([.comma] ++ ((dumpLines name' reverse).flatMap JsonLine.tokens ++ [.rbrace])
            ++ [.rbrace])))
      = some (.obj members)
    ∧ members.map Prod.fst = ["mode".toList, "workers".toList, "connection".toList]
        ++ [(exportName name).toList, (exportName name').toList] :=
  ⟨_, rfl, rfl⟩

/-- A comma with no direction before it. -/
theorem parse_resumed (name : Bool) :
    Json.parse (.lbrace :: (startLines cfg ipv6 current).flatMap JsonLine.tokens
        ++ ([.comma] ++ ((dumpLines name reverse).flatMap JsonLine.tokens ++ [.rbrace])
          ++ [.rbrace])) = none :=
  rfl

end

theorem lexes_processReportJson {cfg : Config} (hproto : isPlain cfg.netL4ProtoName = true)
    (ipv6 : Bool) (current : ReportResult) (results : Dir → ReportResult) :
    Lexes (processReportJson cfg ipv6 current results)
      (.lbrace :: (startLines cfg ipv6 current).flatMap JsonLine.tokens
        ++ ((if (cfg.reverseFirst && cfg.bidirectional) || !cfg.reverseFirst then
              (dumpLines (imReceiver cfg .straight) (results .straight)).flatMap JsonLine.tokens
                ++ [.rbrace]
            else [])
          ++ ((if !cfg.bidirectional && !cfg.reverseFirst then []
              else [.comma] ++ ((dumpLines (imReceiver cfg .reverse) (results .reverse)).flatMap
                JsonLine.tokens ++ [.rbrace]))
            ++ [.rbrace]))) := by
  have hend : Lexes reportExportJsonEnd [.rbrace] := rfl
  refine (lexes_start hproto ipv6 current).append (Lexes.append ?_ (Lexes.append ?_ hend))
  · split
    · exact lexes_dump _ _ false
    · exact Lexes.nil
  · split
    · exact Lexes.nil
    · exact lexes_dump _ _ true

/-- With the reverse direction alone the text is no JSON value at all. -/
theorem not_exportWellFormed_reverse {cfg : Config} (hproto : isPlain cfg.netL4ProtoName = true)
    (hr : cfg.reverseFirst = true) (hb : cfg.bidirectional = false) (ipv6 : Bool)
    (current : ReportResult) (results : Dir → ReportResult) :
    ¬ ExportWellFormed cfg (processReportJson cfg ipv6 current results) := by
  rintro ⟨members, hread, -⟩
  rw [read_of_lexes (lexes_processReportJson hproto ipv6 current results), hr, hb] at hread
  have hnone := parse_resumed cfg ipv6 current (results .reverse) (imReceiver cfg .reverse)
  exact absurd (hread.symm.trans hnone) (by simp)

/-- **The export is well formed exactly if the straight direction is part of it.** For an
accepted command line and all results, the text is one object with a member for each tested
direction, unless the reverse direction is tested alone. -/
theorem exportJson_wellFormed_iff {env : Env} {args : List CString} {cfg : Config}
    (hcfg : configInit env args = .ok cfg) (ipv6 : Bool) (current : ReportResult)
    (results : Dir → ReportResult) :
    ExportWellFormed cfg (processReportJson cfg ipv6 current results)
      ↔ ¬ (cfg.reverseFirst = true ∧ cfg.bidirectional = false) := by
  have hproto := configInit_protoName hcfg
  have hlex := lexes_processReportJson hproto ipv6 current results
  have hdirs := testedDirs_eq (configInit_settled hcfg)
  have hone : ∀ name : Bool, (["mode".toList, "workers".toList, "connection".toList]
      ++ [(exportName name).toList]).Nodup := by decide
  have htwo : (["mode".toList, "workers".toList, "connection".toList]
      ++ [(exportName (imReceiver cfg .straight)).toList,
        (exportName (imReceiver cfg .reverse)).toList]).Nodup := by
    simp only [imReceiver]
    cases cfg.imListener <;> decide
  by_cases hrev : cfg.reverseFirst = true ∧ cfg.bidirectional = false
  · exact iff_of_false (not_exportWellFormed_reverse hproto hrev.1 hrev.2 ipv6 current results)
      (fun hno => hno hrev)
  unfold ExportWellFormed
  rw [read_of_lexes hlex, hdirs]
  cases hr : cfg.reverseFirst <;> cases hb : cfg.bidirectional
  · obtain ⟨members, hparse, hkeys⟩ := parse_one cfg ipv6 current (results .straight)
      (imReceiver cfg .straight)
    exact iff_of_true ⟨members, hparse, hkeys, hkeys ▸ hone _⟩ (by decide)
  · obtain ⟨members, hparse, hkeys⟩ := parse_two cfg ipv6 current (results .straight)
      (results .reverse) (imReceiver cfg .straight) (imReceiver cfg .reverse)
    exact iff_of_true ⟨members, hparse, hkeys, hkeys ▸ htwo⟩ (by decide)
  · exact absurd ⟨hr, hb⟩ hrev
  · obtain ⟨members, hparse, hkeys⟩ := parse_two cfg ipv6 current (results .straight)
      (results .reverse) (imReceiver cfg .straight) (imReceiver cfg .reverse)
    exact iff_of_true ⟨members, hparse, hkeys, hkeys ▸ htwo⟩ (by decide)

/-- The result of a short stream. -/
def sampleResult : ReportResult where
  collected := ⟨125, 100, 100, 3000100, 0, 143200⟩
  bandwidthTheoreticalMbps := 1000
  totalPkts := 100
  hdrSize := 66
  fragmentationRatio := ⟨false, 1, [], rfl⟩
  packetLoss := ⟨false, 0, [0, 0, 0, 0], rfl⟩
  timeStart := ⟨false, 0, [0, 0, 0, 0], rfl⟩
  timeDuration := ⟨false, 3, [0, 0, 0, 1], rfl⟩
  latency := ⟨false, 0, [1, 2, 5], rfl⟩
  bandwidthEstimatedMbps := ⟨false, 941, [2, 0, 7], rfl⟩
  bandwidthEffectiveMbps := ⟨false, 899, [5, 0, 0], rfl⟩

/-- `ubwt -R -b -j out.json connector 10.0.0.1`. -/
theorem exportJson_wellFormed_both :
    ∃ cfg, configInit ⟨false, false, fun _ _ => true⟩
        ["-R".toList, "-b".toList, "-j".toList, "out.json".toList, "connector".toList,
          "10.0.0.1".toList] = .ok cfg
      ∧ ExportWellFormed cfg (processReportJson cfg false sampleResult (fun _ => sampleResult)) := by
  obtain ⟨cfg, hcfg, hbi⟩ : ∃ cfg, configInit ⟨false, false, fun _ _ => true⟩
        ["-R".toList, "-b".toList, "-j".toList, "out.json".toList, "connector".toList,
          "10.0.0.1".toList] = .ok cfg
      ∧ cfg.bidirectional = true := ⟨_, rfl, rfl⟩
  refine ⟨cfg, hcfg,
    (exportJson_wellFormed_iff hcfg false sampleResult (fun _ => sampleResult)).mpr ?_⟩
  simp [hbi]

/-- `ubwt -R -j out.json connector 10.0.0.1`: two commas in a row. -/
theorem exportJson_malformed_reverse :
    ∃ cfg, configInit ⟨false, false, fun _ _ => true⟩
        ["-R".toList, "-j".toList, "out.json".toList, "connector".toList, "10.0.0.1".toList]
          = .ok cfg
      ∧ ¬ ExportWellFormed cfg (processReportJson cfg false sampleResult (fun _ => sampleResult)) := by
  exact ⟨_, rfl, not_exportWellFormed_reverse rfl rfl rfl false sampleResult _⟩

end Ubwt
