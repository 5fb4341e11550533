import Ubwt.Config.Options

/-!
# Ubwt.Conn

The connect payload (`conn.h`, `conn.c`) and its exchange at the start of a connection
in `net_connector_connect` and `net_listener_accept`.

**Admission agrees and is exact.** Each end puts fourteen values of its configuration
into a record, sends the record in network order, and compares what it receives with its
own by one `memcmp`. The record has two bytes of padding, which take part in the
comparison. `connector_listener_agree` says that the comparison admits a connection, at
both ends, exactly if the fourteen values are equal.
-/

namespace Ubwt

open Lib Lib.Endian Lib.Posix

/-! ### conn.h -/

/-- `UBWT_CONN_MAGIC`. -/
def connMagic : UInt32 := 0x47A8F3CD

/-- `ubwt_conn_base_flag_t`. -/
inductive ConnBaseFlag
  | connect
  | accept
  deriving Repr, DecidableEq

def ConnBaseFlag.bit : ConnBaseFlag → Nat
  | connect => 1
  | accept => 2

/-- `ubwt_conn_config_flag_t`. -/
inductive ConnConfigFlag
  | async
  | bidir
  | revrs
  | mtu
  | hsinterv
  | hsiter
  | ctimeo
  | stime
  | plsize
  | wrkcnt
  | cntmul
  | stimeo
  | etimeo
  | revdly
  deriving Repr, DecidableEq

def ConnConfigFlag.bit : ConnConfigFlag → Nat
  | async => 1
  | bidir => 2
  | revrs => 3
  | mtu => 4
  | hsinterv => 5
  | hsiter => 6
  | ctimeo => 7
  | stime => 8
  | plsize => 9
  | wrkcnt => 10
  | cntmul => 11
  | stimeo => 12
  | etimeo => 13
  | revdly => 14

/-- `ubwt_conn_payload_t`. With `#pragma pack(4)` two bytes of padding precede
`config_stream_time`. -/
structure ConnPayload where
  flags : UInt32
  magic : UInt32
  configFlags : UInt32
  configWorkerCount : UInt16
  configLinkMtu : UInt16
  configL4PayloadSize : UInt16
  configConnTimeout : UInt16
  configHandshakeIter : UInt16
  configHandshakeInterval : UInt16
  configStreamRunTimeout : UInt16
  configStreamEndTimeout : UInt16
  configReverseDelay : UInt16
  padding : UInt8 × UInt8
  configStreamTime : UInt32
  configCountMul : UInt32
  deriving Repr, DecidableEq

/-- `sizeof(ubwt_conn_payload_t)`. -/
def connPayloadSize : Nat := 40

/-- `offsetof(ubwt_conn_payload_t, config_flags)`. -/
def connConfigOffset : Nat := 8

/-! ### The memory image -/

/-- The widths of the fields in memory, the two bytes of padding among them. -/
def connWidths : List Nat := [4, 4, 4, 2, 2, 2, 2, 2, 2, 2, 2, 2, 1, 1, 4, 4]

/-- The part of the record from `config_flags` on. -/
def ConnPayload.configWords (p : ConnPayload) : List (Nat × Nat) :=
  [(4, p.configFlags.toNat), (2, p.configWorkerCount.toNat), (2, p.configLinkMtu.toNat),
    (2, p.configL4PayloadSize.toNat), (2, p.configConnTimeout.toNat),
    (2, p.configHandshakeIter.toNat), (2, p.configHandshakeInterval.toNat),
    (2, p.configStreamRunTimeout.toNat), (2, p.configStreamEndTimeout.toNat),
    (2, p.configReverseDelay.toNat), (1, p.padding.1.toNat), (1, p.padding.2.toNat),
    (4, p.configStreamTime.toNat), (4, p.configCountMul.toNat)]

def ConnPayload.words (p : ConnPayload) : List (Nat × Nat) :=
  (4, p.flags.toNat) :: (4, p.magic.toNat) :: p.configWords

/-- The bytes of the record in the memory of a host. -/
def ConnPayload.image (o : ByteOrder) (p : ConnPayload) : List UInt8 := o.storeWords p.words

/-- The record whose memory holds these bytes. -/
def ConnPayload.ofImage (o : ByteOrder) (l : List UInt8) : ConnPayload :=
  let piece := fun i => (ByteOrder.cutWords connWidths l).getD i []
  { flags := UInt32.ofNat (o.load (piece 0))
    magic := UInt32.ofNat (o.load (piece 1))
    configFlags := UInt32.ofNat (o.load (piece 2))
    configWorkerCount := UInt16.ofNat (o.load (piece 3))
    configLinkMtu := UInt16.ofNat (o.load (piece 4))
    configL4PayloadSize := UInt16.ofNat (o.load (piece 5))
    configConnTimeout := UInt16.ofNat (o.load (piece 6))
    configHandshakeIter := UInt16.ofNat (o.load (piece 7))
    configHandshakeInterval := UInt16.ofNat (o.load (piece 8))
    configStreamRunTimeout := UInt16.ofNat (o.load (piece 9))
    configStreamEndTimeout := UInt16.ofNat (o.load (piece 10))
    configReverseDelay := UInt16.ofNat (o.load (piece 11))
    padding := (UInt8.ofNat (o.load (piece 12)), UInt8.ofNat (o.load (piece 13)))
    configStreamTime := UInt32.ofNat (o.load (piece 14))
    configCountMul := UInt32.ofNat (o.load (piece 15)) }

/-! ### conn.c -/

/-- `conn_has_connect()`. -/
def connHasConnect (p : ConnPayload) : Bool :=
  bitTest p.flags ConnBaseFlag.connect.bit && p.magic == connMagic

/-- `conn_has_accept()`. -/
def connHasAccept (p : ConnPayload) : Bool :=
  bitTest p.flags ConnBaseFlag.accept.bit && p.magic == connMagic

/-- `conn_config_match()`: `memcmp()` from `config_flags` to the end of the record. -/
def connConfigMatch (h : Host) (l r : ConnPayload) : Bool :=
  (l.image h.order).drop connConfigOffset == (r.image h.order).drop connConfigOffset

/-- `conn_payload_hton()`; `conn_payload_ntoh()` makes the same conversions. -/
def connPayloadHton (h : Host) (p : ConnPayload) : ConnPayload :=
  { p with
    flags := htonl h p.flags
    magic := htonl h p.magic
    configFlags := htonl h p.configFlags
    configWorkerCount := htons h p.configWorkerCount
    configLinkMtu := htons h p.configLinkMtu
    configL4PayloadSize := htons h p.configL4PayloadSize
    configConnTimeout := htons h p.configConnTimeout
    configHandshakeIter := htons h p.configHandshakeIter
    configHandshakeInterval := htons h p.configHandshakeInterval
    configStreamRunTimeout := htons h p.configStreamRunTimeout
    configStreamEndTimeout := htons h p.configStreamEndTimeout
    configReverseDelay := htons h p.configReverseDelay
    configStreamTime := htonl h p.configStreamTime
    configCountMul := htonl h p.configCountMul }

/-- `conn_payload_ntoh()`. -/
def connPayloadNtoh (h : Host) (p : ConnPayload) : ConnPayload := connPayloadHton h p

/-- The `config_flags` of `conn_payload_create()`: three that depend on the
configuration, and one for each value that follows. -/
def connConfigFlags (cfg : Config) : UInt32 :=
  let flags : UInt32 := 0
  let flags := if cfg.asynchronous then bitSet flags ConnConfigFlag.async.bit else flags
  let flags := if cfg.bidirectional then bitSet flags ConnConfigFlag.bidir.bit else flags
  let flags := if cfg.reverseFirst then bitSet flags ConnConfigFlag.revrs.bit else flags
  let flags := bitSet flags ConnConfigFlag.mtu.bit
  let flags := bitSet flags ConnConfigFlag.hsinterv.bit
  let flags := bitSet flags ConnConfigFlag.hsiter.bit
  let flags := bitSet flags ConnConfigFlag.ctimeo.bit
  let flags := bitSet flags ConnConfigFlag.stimeo.bit
  let flags := bitSet flags ConnConfigFlag.etimeo.bit
  let flags := bitSet flags ConnConfigFlag.stime.bit
  let flags := bitSet flags ConnConfigFlag.revdly.bit
  let flags := bitSet flags ConnConfigFlag.cntmul.bit
  let flags := bitSet flags ConnConfigFlag.plsize.bit
  bitSet flags ConnConfigFlag.wrkcnt.bit

/-- `conn_payload_create()`; the `memset()` covers the padding. -/
def connPayloadCreate (cfg : Config) : ConnPayload where
  flags :=
    if cfg.imConnector then bitSet 0 ConnBaseFlag.connect.bit
    else bitSet 0 ConnBaseFlag.accept.bit
  magic := connMagic
  configFlags := connConfigFlags cfg
  -- `worker_count` is an `unsigned int` and is narrowed here.
  configWorkerCount := UInt16.ofNat cfg.workerCount.toNat
  configLinkMtu := cfg.netMtu
  configL4PayloadSize := cfg.talkPayloadCurrentSize
  configConnTimeout := cfg.netTimeoutDefault
  configHandshakeIter := cfg.talkHandshakeIter
  configHandshakeInterval := cfg.talkHandshakeInterval
  configStreamRunTimeout := cfg.netTimeoutTalkStreamRun
  configStreamEndTimeout := cfg.netTimeoutTalkStreamEnd
  configReverseDelay := cfg.processReverseDelay
  padding := (0, 0)
  configStreamTime := cfg.talkStreamMinimumTime.toUInt32
  configCountMul := cfg.talkCountMul

/-! ### net_connector_connect and net_listener_accept -/

/-- How the two functions end: they return 0, they return -1 with the text given to
`error_handler()` and the `errno` they set, or the FATAL error ends the program. -/
inductive ConnOutcome
  | established
  | failed (origin : String) (errno : Option Errno)
  | fatal (origin : String)
  deriving Repr, DecidableEq

/-- The bytes that go out: the own record in network order. -/
def connPayloadBytes (h : Host) (cfg : Config) : List UInt8 :=
  (connPayloadHton h (connPayloadCreate cfg)).image h.order

/-- The memory of `p2` after the bytes `got` came in: over TCP only a whole record will
do, over UDP a short datagram leaves the rest of `mem` as it was. -/
def connReceive (proto : L4Proto) (mem got : List UInt8) : Option (List UInt8) :=
  match proto with
  | .tcp => if got.length = connPayloadSize then some got else none
  | .udp => some ((got ++ mem.drop got.length).take connPayloadSize)
  | .unset => none

/-- What both functions do with the record that came in, `expected` being the base flag
that they ask for. -/
def connAdmit (h : Host) (cfg : Config) (expected : ConnPayload → Bool) (func : String)
    (p2 : List UInt8) : ConnOutcome :=
  let p1 := connPayloadNtoh h (connPayloadHton h (connPayloadCreate cfg))
  let p2 := connPayloadNtoh h (ConnPayload.ofImage h.order p2)
  if !expected p2 then
    .failed (func ++ "(): Unexpected response from the remote host") (some .msgUnexpected)
  else if !connConfigMatch h p1 p2 then
    .fatal (func ++ "(): Configurations from listener and connector do not match")
  else .established

/-- `net_connector_connect()`, after a successful `connect()` and `write()`. -/
def netConnectorConnect (h : Host) (cfg : Config) (mem got : List UInt8) : ConnOutcome :=
  match cfg.netL4ProtoValue, connReceive cfg.netL4ProtoValue mem got with
  | .unset, _ => .failed "net_connector_connect(): Unsupported L4 protocol" (some .einval)
  | _, none => .failed "net_connector_connect(): read()" none
  | _, some p2 => connAdmit h cfg connHasAccept "net_connector_connect" p2

/-- `net_listener_accept()`, after a successful `accept()` and `write()`. -/
def netListenerAccept (h : Host) (cfg : Config) (mem got : List UInt8) : ConnOutcome :=
  match cfg.netL4ProtoValue, connReceive cfg.netL4ProtoValue mem got with
  | .unset, _ => .failed "net_listener_accept(): Unsupported L4 protocol" (some .einval)
  | _, none => .failed "net_listener_accept(): read()" none
  | _, some p2 => connAdmit h cfg connHasConnect "net_listener_accept" p2

/-! ### The record across two hosts -/

theorem ConnPayload.words_lt (p : ConnPayload) : ∀ w ∈ p.words, w.2 < 256 ^ w.1 := by
  have h8 := fun v : UInt8 => v.toNat_lt
  have h16 := fun v : UInt16 => v.toNat_lt
  have h32 := fun v : UInt32 => v.toNat_lt
  simp only [words, configWords, List.forall_mem_cons]
  exact ⟨h32 _, h32 _, h32 _, h16 _, h16 _, h16 _, h16 _, h16 _, h16 _, h16 _, h16 _, h16 _, h8 _,
    h8 _, h32 _, h32 _, by simp⟩

/-- The record on the wire. -/
def connWire (p : ConnPayload) : List UInt8 := p.words.flatMap (fun w => toBE w.1 w.2)

theorem cutWords_connWire (p : ConnPayload) :
    ByteOrder.cutWords connWidths (connWire p) = p.words.map (fun w => toBE w.1 w.2) :=
  ByteOrder.cutWords_flatMap (fun w => length_toBE w.1 w.2) p.words

theorem store_one (o : ByteOrder) (n : Nat) : o.store 1 n = toBE 1 n := by
  cases o <;> rfl

theorem load_toBE_one (o : ByteOrder) (v : UInt8) : UInt8.ofNat (o.load (toBE 1 v.toNat)) = v := by
  rw [← store_one o, ByteOrder.load_store]
  simp

/-- What a host sends does not depend on its byte order. -/
theorem image_connPayloadHton (h : Host) (p : ConnPayload) :
    (connPayloadHton h p).image h.order = connWire p := by
  simp only [ConnPayload.image, ByteOrder.storeWords, connWire, ConnPayload.words,
    ConnPayload.configWords, connPayloadHton, List.flatMap_cons, toNat_htonl, toNat_htons,
    List.flatMap_nil, ByteOrder.store_hton, store_one]

/-- What a host makes of a record that came in. -/
theorem connPayloadNtoh_ofImage (h : Host) (p : ConnPayload) :
    connPayloadNtoh h (ConnPayload.ofImage h.order (connWire p)) = p := by
  simp only [connPayloadNtoh, connPayloadHton, ConnPayload.ofImage, cutWords_connWire,
    ConnPayload.words, ConnPayload.configWords, List.map_cons, List.getD_cons_zero,
    List.getD_cons_succ, htonl_load rfl, htons_load rfl, load_toBE_one]

/-- The own record goes to network order and back. -/
theorem connPayloadNtoh_connPayloadHton (h : Host) (p : ConnPayload) :
    connPayloadNtoh h (connPayloadHton h p) = p := by
  simp only [connPayloadNtoh, connPayloadHton, htonl_htonl, htons_htons]

theorem length_connWire (p : ConnPayload) : (connWire p).length = connPayloadSize := by
  simp [connWire, ConnPayload.words, ConnPayload.configWords, connPayloadSize]

/-! ### The comparison -/

/-- `memcmp()` compares the words from `config_flags` on. -/
theorem connConfigMatch_iff (h : Host) (l r : ConnPayload) :
    connConfigMatch h l r = true ↔ l.configWords = r.configWords := by
  have hdrop : ∀ p : ConnPayload,
      (p.image h.order).drop connConfigOffset = h.order.storeWords p.configWords := by
    intro p
    simp only [ConnPayload.image, ByteOrder.storeWords, ConnPayload.words, List.flatMap_cons,
      ← List.append_assoc]
    exact List.drop_left' (by simp [connConfigOffset])
  have hlt : ∀ p : ConnPayload, ∀ w ∈ p.configWords, w.2 < 256 ^ w.1 := fun p w hw =>
    p.words_lt w (List.mem_cons_of_mem _ (List.mem_cons_of_mem _ hw))
  rw [connConfigMatch, hdrop, hdrop, beq_iff_eq]
  exact ⟨h.order.storeWords_injective rfl (hlt l) (hlt r), fun heq => by rw [heq]⟩

/-- The fourteen values on which two endpoints have to agree. -/
structure ConfigsAgree (c l : Config) : Prop where
  asynchronous : c.asynchronous = l.asynchronous
  bidirectional : c.bidirectional = l.bidirectional
  reverseFirst : c.reverseFirst = l.reverseFirst
  netMtu : c.netMtu = l.netMtu
  talkHandshakeInterval : c.talkHandshakeInterval = l.talkHandshakeInterval
  talkHandshakeIter : c.talkHandshakeIter = l.talkHandshakeIter
  netTimeoutDefault : c.netTimeoutDefault = l.netTimeoutDefault
  netTimeoutTalkStreamRun : c.netTimeoutTalkStreamRun = l.netTimeoutTalkStreamRun
  netTimeoutTalkStreamEnd : c.netTimeoutTalkStreamEnd = l.netTimeoutTalkStreamEnd
  talkStreamMinimumTime : c.talkStreamMinimumTime = l.talkStreamMinimumTime
  processReverseDelay : c.processReverseDelay = l.processReverseDelay
  talkCountMul : c.talkCountMul = l.talkCountMul
  talkPayloadCurrentSize : c.talkPayloadCurrentSize = l.talkPayloadCurrentSize
  workerCount : c.workerCount = l.workerCount

theorem ConfigsAgree.symm {c l : Config} (h : ConfigsAgree c l) : ConfigsAgree l c := by
  constructor
  · exact h.asynchronous.symm
  · exact h.bidirectional.symm
  · exact h.reverseFirst.symm
  · exact h.netMtu.symm
  · exact h.talkHandshakeInterval.symm
  · exact h.talkHandshakeIter.symm
  · exact h.netTimeoutDefault.symm
  · exact h.netTimeoutTalkStreamRun.symm
  · exact h.netTimeoutTalkStreamEnd.symm
  · exact h.talkStreamMinimumTime.symm
  · exact h.processReverseDelay.symm
  · exact h.talkCountMul.symm
  · exact h.talkPayloadCurrentSize.symm
  · exact h.workerCount.symm

/-- No two of the three options share a bit of `config_flags`, nor with the bits that
are always set. -/
theorem connConfigFlags_inj (c l : Config) :
    connConfigFlags c = connConfigFlags l ↔
      c.asynchronous = l.asynchronous ∧ c.bidirectional = l.bidirectional ∧
        c.reverseFirst = l.reverseFirst := by
  simp only [connConfigFlags]
  generalize c.asynchronous = a
  generalize c.bidirectional = b
  generalize c.reverseFirst = r
  generalize l.asynchronous = a'
  generalize l.bidirectional = b'
  generalize l.reverseFirst = r'
  revert a b r a' b' r'
  decide

/-- A worker count of an accepted configuration survives the narrowing. -/
theorem narrow_workerCount {m n : UInt32} (hm : m.toNat ≤ 1024) (hn : n.toNat ≤ 1024) :
    UInt16.ofNat m.toNat = UInt16.ofNat n.toNat ↔ m = n := by
  rw [← UInt16.toNat_inj, ← UInt32.toNat_inj, UInt16.toNat_ofNat', UInt16.toNat_ofNat']
  omega

theorem configWords_create_iff {c l : Config} (hc : c.workerCount.toNat ≤ 1024)
    (hl : l.workerCount.toNat ≤ 1024) :
    (connPayloadCreate c).configWords = (connPayloadCreate l).configWords ↔ ConfigsAgree c l := by
  have htime : c.talkStreamMinimumTime.toUInt32 = l.talkStreamMinimumTime.toUInt32 ↔
      c.talkStreamMinimumTime = l.talkStreamMinimumTime := by
    rw [← UInt32.toNat_inj, UInt16.toNat_toUInt32, UInt16.toNat_toUInt32, UInt16.toNat_inj]
  simp only [ConnPayload.configWords, connPayloadCreate, List.cons.injEq, Prod.mk.injEq, true_and,
    and_true, UInt16.toNat_inj, UInt32.toNat_inj, connConfigFlags_inj, narrow_workerCount hc hl,
    htime]
  constructor
  · rintro ⟨⟨hasync, hbidir, hrev⟩, hworkers, hmtu, hsize, hctimeo, hiter, hinterval, hrun, hend,
      hdelay, hstime, hmul⟩
    exact ⟨hasync, hbidir, hrev, hmtu, hinterval, hiter, hctimeo, hrun, hend, hstime, hdelay, hmul,
      hsize, hworkers⟩
  · intro h
    exact ⟨⟨h.asynchronous, h.bidirectional, h.reverseFirst⟩, h.workerCount, h.netMtu,
      h.talkPayloadCurrentSize, h.netTimeoutDefault, h.talkHandshakeIter, h.talkHandshakeInterval,
      h.netTimeoutTalkStreamRun, h.netTimeoutTalkStreamEnd, h.processReverseDelay,
      h.talkStreamMinimumTime, h.talkCountMul⟩

/-! ### Admission -/

/-- One end, with the record of the other end delivered whole. -/
theorem connAdmit_iff {h peer : Host} {cfg cfg' : Config} {expected : ConnPayload → Bool}
    {func : String} (hexp : expected (connPayloadCreate cfg') = true)
    (hc : cfg.workerCount.toNat ≤ 1024) (hl : cfg'.workerCount.toNat ≤ 1024) :
    connAdmit h cfg expected func (connPayloadBytes peer cfg') = .established ↔
      ConfigsAgree cfg cfg' := by
  rw [connAdmit, connPayloadBytes, image_connPayloadHton, connPayloadNtoh_ofImage,
    connPayloadNtoh_connPayloadHton, hexp, ← configWords_create_iff hc hl, ← connConfigMatch_iff h]
  cases connConfigMatch h (connPayloadCreate cfg) (connPayloadCreate cfg') <;> simp

theorem length_connPayloadBytes (h : Host) (cfg : Config) :
    (connPayloadBytes h cfg).length = connPayloadSize := by
  rw [connPayloadBytes, image_connPayloadHton, length_connWire]

/-- A whole record fills the memory of `p2`. -/
theorem connReceive_whole {proto : L4Proto} {mem got : List UInt8} (hp : proto ≠ .unset)
    (hgot : got.length = connPayloadSize) : connReceive proto mem got = some got := by
  cases proto with
  | unset => exact absurd rfl hp
  | tcp => simp [connReceive, hgot]
  | udp => simp [connReceive, ← hgot]

theorem netConnectorConnect_whole {h : Host} {cfg : Config} {mem got : List UInt8}
    (hp : cfg.netL4ProtoValue ≠ .unset) (hgot : got.length = connPayloadSize) :
    netConnectorConnect h cfg mem got
      = connAdmit h cfg connHasAccept "net_connector_connect" got := by
  rw [netConnectorConnect, connReceive_whole hp hgot]
  split
  · exact absurd ‹_› hp
  · cases ‹some _ = none›
  · simp_all

theorem netListenerAccept_whole {h : Host} {cfg : Config} {mem got : List UInt8}
    (hp : cfg.netL4ProtoValue ≠ .unset) (hgot : got.length = connPayloadSize) :
    netListenerAccept h cfg mem got
      = connAdmit h cfg connHasConnect "net_listener_accept" got := by
  rw [netListenerAccept, connReceive_whole hp hgot]
  split
  · exact absurd ‹_› hp
  · cases ‹some _ = none›
  · simp_all

/-- Each end of two accepted configurations, with the record of the other end delivered whole. -/
theorem established_iff (hostC hostL : Host) {envC envL : Env} {argsC argsL : List CString}
    {cfgC cfgL : Config} (hinitC : configInit envC argsC = .ok cfgC)
    (hinitL : configInit envL argsL = .ok cfgL) (hC : cfgC.imConnector = true)
    (hL : cfgL.imListener = true) (memC memL : List UInt8) :
    (netConnectorConnect hostC cfgC memC (connPayloadBytes hostL cfgL) = .established ↔
        ConfigsAgree cfgC cfgL) ∧
      (netListenerAccept hostL cfgL memL (connPayloadBytes hostC cfgC) = .established ↔
        ConfigsAgree cfgC cfgL) := by
  obtain ⟨hwC, -, hpC⟩ := configInit_workers_role hinitC
  obtain ⟨hwL, hroleL, hpL⟩ := configInit_workers_role hinitL
  have hLc : cfgL.imConnector = false := by simpa [hL] using hroleL
  have haccept : connHasAccept (connPayloadCreate cfgL) = true := by
    simp only [connHasAccept, connPayloadCreate, hLc]
    decide
  have hconnect : connHasConnect (connPayloadCreate cfgC) = true := by
    simp only [connHasConnect, connPayloadCreate, hC]
    decide
  constructor
  · rw [netConnectorConnect_whole hpC (length_connPayloadBytes ..)]
    exact connAdmit_iff haccept hwC hwL
  · rw [netListenerAccept_whole hpL (length_connPayloadBytes ..)]
    exact (connAdmit_iff hconnect hwL hwC).trans ⟨.symm, .symm⟩

/-- **Admission agrees and is exact.** A connector and a listener whose configurations
`config_init` accepted, on hosts of any byte order, exchange their records whole: both
establish the connection if the fourteen values agree, and neither does if they differ. -/
theorem connector_listener_agree (hostC hostL : Host) (envC envL : Env)
    (argsC argsL : List CString) (cfgC cfgL : Config)
    (hinitC : configInit envC argsC = .ok cfgC) (hinitL : configInit envL argsL = .ok cfgL)
    (hC : cfgC.imConnector = true) (hL : cfgL.imListener = true) (memC memL : List UInt8) :
    (netConnectorConnect hostC cfgC memC (connPayloadBytes hostL cfgL) = .established ↔
        netListenerAccept hostL cfgL memL (connPayloadBytes hostC cfgC) = .established) ∧
      (netConnectorConnect hostC cfgC memC (connPayloadBytes hostL cfgL) = .established ↔
        ConfigsAgree cfgC cfgL) ∧
      (netListenerAccept hostL cfgL memL (connPayloadBytes hostC cfgC) = .established ↔
        ConfigsAgree cfgC cfgL) := by
  obtain ⟨hcon, hacc⟩ := established_iff hostC hostL hinitC hinitL hC hL memC memL
  exact ⟨hcon.trans hacc.symm, hcon, hacc⟩

/-- A little-endian connector and a big-endian listener, each started with the defaults. -/
theorem connector_listener_agree_defaults :
    ∃ cfgC cfgL,
      configInit ⟨false, false, fun _ _ => false⟩ ["connector".toList, "10.0.0.1".toList] = .ok cfgC ∧
      configInit ⟨false, false, fun _ _ => false⟩ ["listener".toList, "10.0.0.1".toList] = .ok cfgL ∧
      netConnectorConnect ⟨.little, .inlineFunction⟩ cfgC []
        (connPayloadBytes ⟨.big, .inlineFunction⟩ cfgL) = .established ∧
      netListenerAccept ⟨.big, .inlineFunction⟩ cfgL []
        (connPayloadBytes ⟨.little, .inlineFunction⟩ cfgC) = .established := by
  refine ⟨_, _, rfl, rfl, ?_⟩
  have h := connector_listener_agree ⟨.little, .inlineFunction⟩ ⟨.big, .inlineFunction⟩
    ⟨false, false, fun _ _ => false⟩ ⟨false, false, fun _ _ => false⟩
    ["connector".toList, "10.0.0.1".toList] ["listener".toList, "10.0.0.1".toList]
    _ _ rfl rfl rfl rfl
    [] []
  have hagree := h.2.1.mpr (by constructor <;> rfl)
  exact ⟨hagree, h.1.mp hagree⟩

end Ubwt
