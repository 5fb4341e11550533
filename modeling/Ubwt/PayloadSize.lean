import Ubwt.Conn
import Ubwt.Report.Results

/-!
# Ubwt.PayloadSize

The three sizes of a payload in the configuration, and who reads which.

The option `-s` writes `talk_payload_default_size`. Every message, the connect payload and the
results read `talk_payload_current_size`, **which no option writes**: `-s` has no effect on them
(`sizeFollows_iff`), and two endpoints with different sizes do not refuse each other for it. The
buffer of `-B` is checked against the size of `-s` and consumed in pieces of the other one
(`fillsInside_iff`).
-/

namespace Ubwt

open Lib Lib.Posix

/-! ### The option -s -/

/-- The argument of `-s`, or the default. -/
def payloadArg (env : Env) (args : List CString) : Int :=
  atoi (lastArg .s "1432".toList (cmdoptOpts (getopt (cmdoptFlags env.debugBuild) none args).1))

/-- The size `s` is the one of every message outside the HANDSHAKE stage, the one that is
announced in the connect payload, and the one that the results are computed with. -/
structure SizeFollows (cfg : Config) (s : Int) : Prop where
  sent : ∀ size : PayloadSize, size.val = cfg.talkPayloadCurrentSize.toNat →
    ∀ (h : Host) (workerSelf : UInt64) (stage : Stage) (pkt : TalkPayload),
      stage ≠ .talkHandshake → (talkSendBuf h workerSelf stage size pkt).length = s
  announced : (connPayloadCreate cfg).configL4PayloadSize.toNat = s
  computed : ∀ (F : Type) (fp : DoubleArith F) (ipv6 : Bool) (c : ReportCollect),
    reportResultsCompute fp cfg ipv6 c
      = reportResultsCompute fp { cfg with talkPayloadCurrentSize := UInt16.ofInt s } ipv6 c

/-- The two ends refuse each other. -/
def Refused (cfgC cfgL : Config) : Prop :=
  ∀ (hostC hostL : Host) (memC memL : List UInt8),
    netConnectorConnect hostC cfgC memC (connPayloadBytes hostL cfgL) ≠ .established
    ∧ netListenerAccept hostL cfgL memL (connPayloadBytes hostC cfgC) ≠ .established

/-- The thirteen values other than the payload size agree. -/
def OthersAgree (cfgC cfgL : Config) : Prop :=
  ConfigsAgree { cfgC with talkPayloadCurrentSize := cfgL.talkPayloadCurrentSize } cfgL

variable {env : Env} {args : List CString} {cfg : Config}

theorem configInit_currentSize (h : configInit env args = .ok cfg) :
    cfg.talkPayloadCurrentSize = configTalkPayloadDefaultSize := (configInit_optInv h).sizes.1

theorem sizeFollows_default (h : configInit env args = .ok cfg) {s : Int} :
    SizeFollows cfg s ↔ s = 1432 := by
  have hcur := configInit_currentSize h
  constructor
  · intro hs
    have hann := hs.announced
    rw [connPayloadCreate, hcur] at hann
    exact hann.symm
  · intro heq
    subst heq
    refine ⟨?_, ?_, ?_⟩
    · intro size hsize host workerSelf stage pkt hstage
      rw [length_talkSendBuf, talkLen, if_neg hstage, hsize, hcur]
      rfl
    · rw [connPayloadCreate, hcur]
      rfl
    · intro F fp ipv6 c
      have hsame : { cfg with talkPayloadCurrentSize := UInt16.ofInt 1432 } = cfg := by
        rw [show UInt16.ofInt 1432 = configTalkPayloadDefaultSize by decide, ← hcur]
      rw [hsame]

/-- Accepted configurations refuse each other for one of the other thirteen values. -/
theorem refused_iff {env' : Env} {args' : List CString} {cfg' : Config}
    (h : configInit env args = .ok cfg) (h' : configInit env' args' = .ok cfg')
    (hC : cfg.imConnector = true) (hL : cfg'.imListener = true) :
    Refused cfg cfg' ↔ ¬ OthersAgree cfg cfg' := by
  have hothers : OthersAgree cfg cfg' ↔ ConfigsAgree cfg cfg' := by
    have hsame : { cfg with talkPayloadCurrentSize := cfg'.talkPayloadCurrentSize } = cfg := by
      rw [configInit_currentSize h', ← configInit_currentSize h]
    rw [OthersAgree, hsame]
  rw [hothers]
  constructor
  · intro hrefused hagree
    obtain ⟨hcon, -⟩ := established_iff ⟨.little, .inlineFunction⟩ ⟨.little, .inlineFunction⟩ h h'
      hC hL [] []
    exact (hrefused _ _ [] []).1 (hcon.mpr hagree)
  · intro hdiffer hostC hostL memC memL
    obtain ⟨hcon, hacc⟩ := established_iff hostC hostL h h' hC hL memC memL
    exact ⟨fun he => hdiffer (hcon.mp he), fun he => hdiffer (hacc.mp he)⟩

/-- **`-s` sets the size of nothing.** For every accepted command line the messages, the
announced size and the results follow the argument of `-s` exactly if it is the default; and a
connector and a listener with different arguments refuse each other exactly if they disagree on
another value. -/
theorem sizeFollows_iff (h : configInit env args = .ok cfg) :
    (SizeFollows cfg (payloadArg env args) ↔ payloadArg env args = 1432)
    ∧ ∀ (env' : Env) (args' : List CString) (cfg' : Config),
      configInit env' args' = .ok cfg' → cfg.imConnector = true → cfg'.imListener = true →
      payloadArg env args ≠ payloadArg env' args' →
      (Refused cfg cfg' ↔ ¬ OthersAgree cfg cfg') :=
  ⟨sizeFollows_default h, fun _ _ _ h' hC hL _ => refused_iff h h' hC hL⟩

/-- `ubwt connector 10.0.0.1`, against a listener with `-s 508`. -/
theorem sizeFollows_default_args :
    ∃ cfg, configInit ⟨false, false, fun _ _ => false⟩ ["connector".toList, "10.0.0.1".toList]
        = .ok cfg
      ∧ SizeFollows cfg 1432
      ∧ ∃ cfg', configInit ⟨false, false, fun _ _ => false⟩
          ["-s".toList, "508".toList, "listener".toList, "10.0.0.1".toList] = .ok cfg'
        ∧ (Refused cfg cfg' ↔ ¬ OthersAgree cfg cfg') := by
  obtain ⟨cfg, hcfg, hC⟩ : ∃ cfg, configInit ⟨false, false, fun _ _ => false⟩
      ["connector".toList, "10.0.0.1".toList] = .ok cfg ∧ cfg.imConnector = true := ⟨_, rfl, rfl⟩
  obtain ⟨cfg', hcfg', hL⟩ : ∃ cfg', configInit ⟨false, false, fun _ _ => false⟩
        ["-s".toList, "508".toList, "listener".toList, "10.0.0.1".toList] = .ok cfg'
      ∧ cfg'.imListener = true := ⟨_, rfl, rfl⟩
  obtain ⟨hsize, hrefused⟩ := sizeFollows_iff hcfg
  exact ⟨cfg, hcfg, hsize.mpr (by decide), cfg', hcfg', hrefused _ _ _ hcfg' hC hL (by decide)⟩

/-- `ubwt -s 508 connector 10.0.0.1` and `ubwt -s 1000 listener 10.0.0.1`: the connector sends
1432 octets, and the two do not refuse each other. -/
theorem sizeFollows_fails_508 :
    ∃ cfg, configInit ⟨false, false, fun _ _ => false⟩
        ["-s".toList, "508".toList, "connector".toList, "10.0.0.1".toList] = .ok cfg
      ∧ ¬ SizeFollows cfg 508
      ∧ ∃ cfg', configInit ⟨false, false, fun _ _ => false⟩
          ["-s".toList, "1000".toList, "listener".toList, "10.0.0.1".toList] = .ok cfg'
        ∧ ¬ Refused cfg cfg' := by
  obtain ⟨cfg, hcfg, hC⟩ : ∃ cfg, configInit ⟨false, false, fun _ _ => false⟩
        ["-s".toList, "508".toList, "connector".toList, "10.0.0.1".toList] = .ok cfg
      ∧ cfg.imConnector = true := ⟨_, rfl, rfl⟩
  obtain ⟨cfg', hcfg', hL, hagree⟩ : ∃ cfg', configInit ⟨false, false, fun _ _ => false⟩
        ["-s".toList, "1000".toList, "listener".toList, "10.0.0.1".toList] = .ok cfg'
      ∧ cfg'.imListener = true ∧ OthersAgree cfg cfg' := by
    cases hcfg
    exact ⟨_, rfl, rfl, by constructor <;> rfl⟩
  refine ⟨cfg, hcfg, ?_, cfg', hcfg', ?_⟩
  · rw [sizeFollows_default hcfg]
    decide
  · rw [refused_iff hcfg hcfg' hC hL]
    exact not_not_intro hagree

/-! ### The payload buffer -/

/-- The part of `net_init()` that fills the buffer: `fread()` of one item of the size of `-B`
from the file of `-C`, or a FATAL error. -/
def netInitBuf (cfg : Config) (file : List UInt8) : Option (List UInt8) :=
  if file.length < cfg.netPayloadBufferSize.toNat then none
  else some (file.take cfg.netPayloadBufferSize.toNat)

/-- What a `memcpy()` from the buffer reads. -/
structure BufRead where
  start : Nat
  count : Nat
  bytes : List UInt8

/-- `net_buf_fill()`: what it reads, and `buf_idx` after it. -/
def netBufFill (env : Env) (cfg : Config) (buf : List UInt8) (bufIdx : UInt32) (count : Nat) :
    Except Halt (BufRead × UInt32) := do
  cAssert env (count ≤ cfg.netPayloadBufferSize.toNat) "count <= c->config->net_payload_buffer_size"
  let bufIdx := if bufIdx.toNat + count > cfg.netPayloadBufferSize.toNat then 0 else bufIdx
  return (⟨bufIdx.toNat, count, (buf.drop bufIdx.toNat).take count⟩,
    UInt32.ofNat (bufIdx.toNat + count))

/-- The calls in the send loop of `_talk_sender_stream()`. -/
def streamFills (env : Env) (cfg : Config) (buf : List UInt8) :
    Nat → UInt32 → Except Halt (List BufRead × UInt32)
  | 0, bufIdx => .ok ([], bufIdx)
  | n + 1, bufIdx => do
      let (read, bufIdx) ← netBufFill env cfg buf bufIdx cfg.talkPayloadCurrentSize.toNat
      let (reads, bufIdx) ← streamFills env cfg buf n bufIdx
      return (read :: reads, bufIdx)

/-- The same if `payload_fill` is set, which it is if there is a buffer. -/
def talkSenderFills (env : Env) (cfg : Config) (buf : List UInt8) (count bufIdx : UInt32) :
    Except Halt (List BufRead × UInt32) :=
  if cfg.netPayloadBufferSize != 0 then streamFills env cfg buf count.toNat bufIdx
  else .ok ([], bufIdx)

/-- The calls of a worker: one stream after the other, with one cursor. -/
def workerFills (env : Env) (cfg : Config) (buf : List UInt8) :
    List UInt32 → UInt32 → Except Halt (List BufRead)
  | [], _ => .ok []
  | count :: counts, bufIdx => do
      let (reads, bufIdx) ← talkSenderFills env cfg buf count bufIdx
      let rest ← workerFills env cfg buf counts bufIdx
      return reads ++ rest

/-- Every call meets the assertion, and reads inside the buffer. -/
def FillsInside (env : Env) (cfg : Config) (buf : List UInt8) (counts : List UInt32) : Prop :=
  ∃ reads, workerFills env cfg buf counts 0 = .ok reads
    ∧ ∀ r ∈ reads, r.count ≤ cfg.netPayloadBufferSize.toNat ∧ r.start + r.count ≤ buf.length

section

variable {buf : List UInt8}

theorem length_netInitBuf {file : List UInt8} (h : netInitBuf cfg file = some buf) :
    buf.length = cfg.netPayloadBufferSize.toNat := by
  unfold netInitBuf at h
  split at h
  · cases h
  · cases h
    rw [List.length_take]
    omega

/-- A piece that fits the buffer is read inside it, wherever the cursor stands. -/
theorem netBufFill_inside (env : Env) (buf : List UInt8) (bufIdx : UInt32) {count : Nat}
    (hcount : count ≤ cfg.netPayloadBufferSize.toNat) :
    ∃ read bufIdx', netBufFill env cfg buf bufIdx count = .ok (read, bufIdx')
      ∧ read.count = count ∧ read.start + read.count ≤ cfg.netPayloadBufferSize.toNat := by
  obtain ⟨start, hif, hroom⟩ : ∃ start : UInt32,
      (if bufIdx.toNat + count > cfg.netPayloadBufferSize.toNat then 0 else bufIdx) = start
      ∧ start.toNat + count ≤ cfg.netPayloadBufferSize.toNat := by
    by_cases hend : bufIdx.toNat + count > cfg.netPayloadBufferSize.toNat
    · refine ⟨0, if_pos hend, ?_⟩
      rw [show (0 : UInt32).toNat = 0 from rfl]
      omega
    · exact ⟨bufIdx, if_neg hend, by omega⟩
  refine ⟨⟨start.toNat, count, (buf.drop start.toNat).take count⟩,
    UInt32.ofNat (start.toNat + count), ?_, rfl, hroom⟩
  rw [netBufFill, hif, decide_eq_true hcount, cAssert_true]
  rfl

/-- A piece that does not fit is read from the start of the buffer to beyond its end, if the
assertion does not prevent it. -/
theorem netBufFill_outside {bufIdx bufIdx' : UInt32} {count : Nat} {read : BufRead}
    (hcount : cfg.netPayloadBufferSize.toNat < count)
    (h : netBufFill env cfg buf bufIdx count = .ok (read, bufIdx')) :
    cfg.netPayloadBufferSize.toNat < read.count := by
  rw [netBufFill, except_unit_bind_eq_ok] at h
  cases h.2
  exact hcount

/-- One stream. -/
theorem streamFills_inside (env : Env)
    (hcount : cfg.talkPayloadCurrentSize.toNat ≤ cfg.netPayloadBufferSize.toNat) (n : Nat)
    (bufIdx : UInt32) :
    ∃ reads bufIdx', streamFills env cfg buf n bufIdx = .ok (reads, bufIdx')
      ∧ ∀ r ∈ reads, r.count = cfg.talkPayloadCurrentSize.toNat
        ∧ r.start + r.count ≤ cfg.netPayloadBufferSize.toNat := by
  induction n generalizing bufIdx with
  | zero => exact ⟨[], bufIdx, rfl, by simp⟩
  | succ n ih =>
      obtain ⟨read, bufIdx₁, hfill, hread⟩ := netBufFill_inside env buf bufIdx hcount
      obtain ⟨reads, bufIdx₂, hrest, hreads⟩ := ih bufIdx₁
      refine ⟨read :: reads, bufIdx₂, ?_, List.forall_mem_cons.mpr ⟨hread, hreads⟩⟩
      simp only [streamFills, hfill, hrest, bind, Except.bind]
      rfl

/-- The run rule: one stream after the other, each from where the last one left the cursor. -/
theorem workerFills_inside (env : Env) (buf : List UInt8)
    (hcount : cfg.talkPayloadCurrentSize.toNat ≤ cfg.netPayloadBufferSize.toNat)
    (counts : List UInt32) (bufIdx : UInt32) :
    ∃ reads, workerFills env cfg buf counts bufIdx = .ok reads
      ∧ ∀ r ∈ reads, r.count = cfg.talkPayloadCurrentSize.toNat
        ∧ r.start + r.count ≤ cfg.netPayloadBufferSize.toNat := by
  induction counts generalizing bufIdx with
  | nil => exact ⟨[], rfl, by simp⟩
  | cons count counts ih =>
      obtain ⟨reads, bufIdx₁, hstream, hreads⟩ : ∃ reads bufIdx₁,
          talkSenderFills env cfg buf count bufIdx = .ok (reads, bufIdx₁)
          ∧ ∀ r ∈ reads, r.count = cfg.talkPayloadCurrentSize.toNat
            ∧ r.start + r.count ≤ cfg.netPayloadBufferSize.toNat := by
        unfold talkSenderFills
        split
        · exact streamFills_inside env hcount count.toNat bufIdx
        · exact ⟨[], bufIdx, rfl, by simp⟩
      obtain ⟨rest, hrest, hrests⟩ := ih bufIdx₁
      refine ⟨reads ++ rest, ?_, List.forall_mem_append.mpr ⟨hreads, hrests⟩⟩
      simp only [workerFills, hstream, hrest, bind, Except.bind]
      rfl

/-- Without a packet there is no call. -/
theorem workerFills_none (env : Env) {counts : List UInt32} (h : ∀ n ∈ counts, n = 0)
    (bufIdx : UInt32) : workerFills env cfg buf counts bufIdx = .ok [] := by
  induction counts with
  | nil => rfl
  | cons count counts ih =>
      obtain ⟨rfl, hcounts⟩ := List.forall_mem_cons.mp h
      have hstream : talkSenderFills env cfg buf 0 bufIdx = .ok ([], bufIdx) := by
        unfold talkSenderFills
        split <;> rfl
      simp only [workerFills, hstream, ih hcounts, bind, Except.bind]
      rfl

/-- With a packet, and a piece that does not fit, a call fails or reads outside. -/
theorem workerFills_outside (hsize : cfg.netPayloadBufferSize ≠ 0)
    (hcount : cfg.netPayloadBufferSize.toNat < cfg.talkPayloadCurrentSize.toNat)
    {counts : List UInt32} (h : ¬ ∀ n ∈ counts, n = 0) {bufIdx : UInt32} {reads : List BufRead}
    (hrun : workerFills env cfg buf counts bufIdx = .ok reads) :
    ∃ r ∈ reads, cfg.netPayloadBufferSize.toNat < r.count := by
  induction counts generalizing bufIdx reads with
  | nil => exact absurd (by simp) h
  | cons count counts ih =>
      rw [workerFills, talkSenderFills, if_pos (bne_iff_ne.mpr hsize), except_bind_eq_ok] at hrun
      obtain ⟨⟨first, bufIdx₁⟩, hstream, hrun⟩ := hrun
      rw [except_bind_eq_ok] at hrun
      obtain ⟨rest, hrest, hrun⟩ := hrun
      cases hrun
      cases hn : count.toNat with
      | zero =>
          have hzero : count = 0 := UInt32.toNat_inj.mp hn
          have hlater : ¬ ∀ n ∈ counts, n = 0 :=
            fun hall => h (List.forall_mem_cons.mpr ⟨hzero, hall⟩)
          obtain ⟨r, hr, hout⟩ := ih hlater hrest
          exact ⟨r, List.mem_append_right _ hr, hout⟩
      | succ n =>
          rw [hn, streamFills, except_bind_eq_ok] at hstream
          obtain ⟨⟨read, bufIdx₂⟩, hfill, hstream⟩ := hstream
          rw [except_bind_eq_ok] at hstream
          obtain ⟨⟨more, bufIdx₃⟩, -, hstream⟩ := hstream
          cases hstream
          exact ⟨read, List.mem_append_left _ (List.mem_cons_self ..),
            netBufFill_outside hcount hfill⟩

end

/-- **An accepted buffer is big enough if it holds a default payload.** For every accepted
command line with a buffer, and any file that fills it, the calls of a worker in any sequence of
streams meet the assertion and read inside the buffer exactly if the buffer has 1432 octets, or
no packet is sent. The check at the start is against the size of `-s`. -/
theorem fillsInside_iff (h : configInit env args = .ok cfg) (hsize : cfg.netPayloadBufferSize ≠ 0)
    {file buf : List UInt8} (hbuf : netInitBuf cfg file = some buf) (counts : List UInt32) :
    FillsInside env cfg buf counts ↔
      1432 ≤ cfg.netPayloadBufferSize.toNat ∨ ∀ n ∈ counts, n = 0 := by
  have hlen := length_netInitBuf hbuf
  have hcur : cfg.talkPayloadCurrentSize.toNat = 1432 := by
    rw [configInit_currentSize h]
    rfl
  constructor
  · intro hfills
    obtain ⟨reads, hrun, hinside⟩ := hfills
    by_contra hno
    obtain ⟨hsmall, hsome⟩ := not_or.mp hno
    obtain ⟨r, hr, hout⟩ := workerFills_outside hsize (by omega) hsome hrun
    exact absurd (hinside r hr).1 (by omega)
  · intro hsafe
    rcases hsafe with hbig | hnone
    · have hfits : cfg.talkPayloadCurrentSize.toNat ≤ cfg.netPayloadBufferSize.toNat := by omega
      obtain ⟨reads, hrun, hreads⟩ := workerFills_inside env buf hfits counts 0
      refine ⟨reads, hrun, ?_⟩
      intro r hr
      obtain ⟨hcount, hroom⟩ := hreads r hr
      omega
    · exact ⟨[], workerFills_none env hnone 0, by simp⟩

/-- `ubwt -B 128000 -C /dev/urandom connector 10.0.0.1`: three streams. -/
theorem fillsInside_128000 :
    ∃ cfg buf, configInit ⟨false, false, fun _ _ => true⟩
        ["-B".toList, "128000".toList, "-C".toList, "/dev/urandom".toList, "connector".toList,
          "10.0.0.1".toList] = .ok cfg
      ∧ netInitBuf cfg (List.replicate 128000 7) = some buf
      ∧ FillsInside ⟨false, false, fun _ _ => true⟩ cfg buf [100, 1000, 10000] := by
  obtain ⟨cfg, hcfg, hsize⟩ : ∃ cfg, configInit ⟨false, false, fun _ _ => true⟩
        ["-B".toList, "128000".toList, "-C".toList, "/dev/urandom".toList, "connector".toList,
          "10.0.0.1".toList] = .ok cfg
      ∧ cfg.netPayloadBufferSize = 128000 := ⟨_, rfl, rfl⟩
  have hbuf : netInitBuf cfg (List.replicate 128000 7)
      = some ((List.replicate 128000 7).take cfg.netPayloadBufferSize.toNat) := by
    rw [netInitBuf, List.length_replicate, hsize]
    exact if_neg (by decide)
  refine ⟨cfg, _, hcfg, hbuf, (fillsInside_iff hcfg ?_ hbuf _).mpr (.inl ?_)⟩
  · rw [hsize]
    decide
  · rw [hsize]
    decide

/-- `ubwt -s 508 -B 600 -C /dev/urandom connector 10.0.0.1`: the first call fails the
assertion. -/
theorem fillsInside_fails_600 :
    ∃ cfg buf, configInit ⟨false, false, fun _ _ => true⟩
        ["-s".toList, "508".toList, "-B".toList, "600".toList, "-C".toList,
          "/dev/urandom".toList, "connector".toList, "10.0.0.1".toList] = .ok cfg
      ∧ netInitBuf cfg (List.replicate 600 7) = some buf
      ∧ workerFills ⟨false, false, fun _ _ => true⟩ cfg buf [100] 0
        = .error (.assertion "count <= c->config->net_payload_buffer_size")
      ∧ ¬ FillsInside ⟨false, false, fun _ _ => true⟩ cfg buf [100] := by
  obtain ⟨cfg, hcfg, hsize, hrun⟩ : ∃ cfg, configInit ⟨false, false, fun _ _ => true⟩
        ["-s".toList, "508".toList, "-B".toList, "600".toList, "-C".toList,
          "/dev/urandom".toList, "connector".toList, "10.0.0.1".toList] = .ok cfg
      ∧ cfg.netPayloadBufferSize = 600
      ∧ ∀ buf, workerFills ⟨false, false, fun _ _ => true⟩ cfg buf [100] 0
        = .error (.assertion "count <= c->config->net_payload_buffer_size") :=
    ⟨_, rfl, rfl, fun _ => rfl⟩
  have hbuf : netInitBuf cfg (List.replicate 600 7)
      = some ((List.replicate 600 7).take cfg.netPayloadBufferSize.toNat) := by
    rw [netInitBuf, List.length_replicate, hsize]
    exact if_neg (by decide)
  refine ⟨cfg, _, hcfg, hbuf, hrun _, ?_⟩
  intro hfills
  obtain ⟨reads, hok, -⟩ := hfills
  rw [hrun] at hok
  cases hok

end Ubwt
