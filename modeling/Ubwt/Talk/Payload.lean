import Ubwt.Net.Transfer

/-!
# Ubwt.Talk.Payload

The talk messages (`talk.h`) and the two functions that put them on the wire and
take them off: `_talk_send` and `_talk_recv`.

A `ubwt_talk_payload_t` is a C object, so it has a **memory image** that depends on
the byte order of the host: six header fields (32 bytes, `#pragma pack(4)`) followed
by `buf`. `_talk_send` builds the image of a packet whose header is in network order
and writes its first `len` bytes; `_talk_recv` reads `len` bytes over the image of the
caller's packet and converts the header back. `len` is the size of the header in the
HANDSHAKE stage and `talk_payload_current_size` in every other stage.

`talkSendBuf_eq` gives the bytes on the wire in closed form, independent of the
sending host, and `toHost_overlay` says what a receiver makes of them.
-/

namespace Ubwt

open Lib Lib.Endian

/-! ### talk.h -/

/-- `ubwt_talk_ops_t`. -/
inductive TalkOp
  | noop
  | ping
  | pong
  | latencyUs
  | countReq
  | streamStart
  | streamRun
  | streamEnd
  | streamWeak
  | report
  | finish
  | forceFail
  deriving Repr, DecidableEq

/-- The bit an op has in the `flags` of a message. -/
def TalkOp.bit : TalkOp → Nat
  | noop => 0
  | ping => 1
  | pong => 2
  | latencyUs => 3
  | countReq => 4
  | streamStart => 5
  | streamRun => 6
  | streamEnd => 7
  | streamWeak => 8
  | report => 9
  | finish => 10
  | forceFail => 11

/-- `UBWT_CONFIG_TALK_PAYLOAD_MAX_SIZE`: the size of a `ubwt_talk_payload_t`. -/
def talkPayloadMaxSize : Nat := 8192

/-- `UBWT_CONFIG_TALK_PAYLOAD_MIN_SIZE`. -/
def talkPayloadMinSize : Nat := 508

/-- `offsetof(ubwt_talk_payload_t, buf)`. -/
def talkHdrSize : Nat := 32

/-- A `talk_payload_current_size` that `_config_sanity` lets through. -/
structure PayloadSize where
  val : Nat
  min : talkPayloadMinSize ≤ val
  max : val ≤ talkPayloadMaxSize

/-- `ubwt_talk_payload_t`. -/
structure TalkPayload where
  flags : UInt32
  count : UInt32
  latency : UInt32
  reserved1 : UInt32
  weakTime : UInt64
  workerId : UInt64
  buf : List UInt8
  bufSize : buf.length = talkPayloadMaxSize - talkHdrSize

/-- `ubwt_talk_payload_t p = { 0, 0, 0, 0, 0, 0, { 0 } }`. -/
def TalkPayload.zero : TalkPayload where
  flags := 0
  count := 0
  latency := 0
  reserved1 := 0
  weakTime := 0
  workerId := 0
  buf := List.replicate (talkPayloadMaxSize - talkHdrSize) 0
  bufSize := List.length_replicate ..

/-- Does the message carry this op? -/
def TalkPayload.has (p : TalkPayload) (op : TalkOp) : Bool := bitTest p.flags op.bit

/-! ### The memory image -/

/-- The bytes of the header fields on a host. -/
def headerImage (o : ByteOrder) (flags count latency reserved1 : UInt32)
    (weakTime workerId : UInt64) : List UInt8 :=
  o.store 4 flags.toNat ++ (o.store 4 count.toNat ++ (o.store 4 latency.toNat ++
    (o.store 4 reserved1.toNat ++ (o.store 8 weakTime.toNat ++ o.store 8 workerId.toNat))))

@[simp] theorem length_headerImage (o : ByteOrder) (flags count latency reserved1 : UInt32)
    (weakTime workerId : UInt64) :
    (headerImage o flags count latency reserved1 weakTime workerId).length = talkHdrSize := by
  simp [headerImage, talkHdrSize]

/-- The bytes of a `ubwt_talk_payload_t` in memory. -/
def TalkPayload.image (o : ByteOrder) (p : TalkPayload) : List UInt8 :=
  headerImage o p.flags p.count p.latency p.reserved1 p.weakTime p.workerId ++ p.buf

@[simp] theorem TalkPayload.length_image (o : ByteOrder) (p : TalkPayload) :
    (p.image o).length = talkPayloadMaxSize := by
  simp [image, p.bufSize, talkHdrSize, talkPayloadMaxSize]

/-- The object whose memory holds these bytes. -/
def TalkPayload.ofImage (o : ByteOrder) (l : List UInt8) (hl : l.length = talkPayloadMaxSize) :
    TalkPayload where
  flags := UInt32.ofNat (o.load (l.take 4))
  count := UInt32.ofNat (o.load ((l.drop 4).take 4))
  latency := UInt32.ofNat (o.load ((l.drop 8).take 4))
  reserved1 := UInt32.ofNat (o.load ((l.drop 12).take 4))
  weakTime := UInt64.ofNat (o.load ((l.drop 16).take 8))
  workerId := UInt64.ofNat (o.load ((l.drop 24).take 8))
  buf := l.drop talkHdrSize
  bufSize := by rw [List.length_drop, hl]

/-- The object after a `read()` put `bytes` over the start of its memory; what the
object cannot hold is not written. -/
def TalkPayload.overlay (o : ByteOrder) (p : TalkPayload) (bytes : List UInt8) : TalkPayload :=
  ofImage o ((bytes ++ (p.image o).drop bytes.length).take talkPayloadMaxSize) (by
    rw [List.length_take, List.length_append, List.length_drop, length_image]
    omega)

/-! ### _talk_send and _talk_recv -/

/-- The length both functions choose from the stage of the calling party. -/
def talkLen (stage : Stage) (size : PayloadSize) : Nat :=
  if stage = .talkHandshake then talkHdrSize else size.val

/-- The bytes `_talk_send()` hands to the write loop. -/
def talkSendBuf (h : Host) (workerSelf : UInt64) (stage : Stage) (size : PayloadSize)
    (pkt : TalkPayload) : List UInt8 :=
  let len := talkLen stage size
  -- The `memcpy` into the zeroed `pktbuf`, which the HANDSHAKE stage skips.
  let buf := pkt.buf.take (len - talkHdrSize)
  let pktbuf : List UInt8 :=
    headerImage h.order (htonl h pkt.flags) (htonl h pkt.count) (htonl h pkt.latency) 0
        (netHtonll h pkt.weakTime) (netHtonll h workerSelf)
      ++ (buf ++ List.replicate (talkPayloadMaxSize - talkHdrSize - buf.length) 0)
  pktbuf.take len

/-- `_talk_send()` over TCP, at the end `e` of the connection. -/
def talkSend (e : Endpoint) (h : Host) (workerSelf : UInt64) (stage : Stage) (size : PayloadSize)
    (pkt : TalkPayload) (script : List IoResult) (wire : List UInt8) :
    Option (IoReturn × List UInt8 × List IoResult) :=
  match e with
  | .connector => netWriteToListener (talkSendBuf h workerSelf stage size pkt) script wire
  | .listener => netWriteToConnector (talkSendBuf h workerSelf stage size pkt) script wire

/-- The header conversion of `_talk_recv()`, made only when a whole message came. -/
def TalkPayload.toHost (h : Host) (p : TalkPayload) : TalkPayload :=
  { p with
    flags := htonl h p.flags
    count := htonl h p.count
    latency := htonl h p.latency
    weakTime := netHtonll h p.weakTime
    workerId := netHtonll h p.workerId }

/-- What `_talk_recv()` makes of the result of its read loop: `pkt` is the object
with the bytes read so far in it. -/
def talkRecvFinish (h : Host) (len : Nat) (ret : IoReturn) (pkt : TalkPayload) :
    IoReturn × TalkPayload :=
  let pkt := if ret = .ok len then pkt.toHost h else pkt
  -- Force receive to fail if the remote host indicates it.
  if pkt.has .forceFail then (.err .abort, pkt) else (ret, pkt)

/-- `_talk_recv()` over TCP, at the end `e` of the connection, into a packet that
held `prior`. -/
def talkRecv (e : Endpoint) (h : Host) (stage : Stage) (size : PayloadSize) (prior : TalkPayload)
    (script : List IoResult) (stream : List UInt8) :
    Option ((IoReturn × TalkPayload) × List UInt8 × List IoResult) :=
  let len := talkLen stage size
  let res := match e with
    | .connector => netReadFromListener len script stream
    | .listener => netReadFromConnector len script stream
  match res with
  | none => none
  | some (ret, got, stream, script) =>
    some (talkRecvFinish h len ret (prior.overlay h.order got), stream, script)

/-- A count comes back only through the last line of `_talk_recv()`. -/
theorem talkRecvFinish_ok {h : Host} {len n : Nat} {ret : IoReturn} {pkt rcvd : TalkPayload}
    (hfin : talkRecvFinish h len ret pkt = (.ok n, rcvd)) :
    ret = .ok n ∧ rcvd = if ret = .ok len then pkt.toHost h else pkt := by
  unfold talkRecvFinish at hfin
  dsimp only at hfin
  generalize (if ret = .ok len then pkt.toHost h else pkt) = decoded at hfin ⊢
  by_cases hff : decoded.has .forceFail = true
  · rw [if_pos hff] at hfin
    cases hfin
  · rw [if_neg hff] at hfin
    cases hfin
    exact ⟨rfl, rfl⟩

/-! ### The bytes on the wire -/

theorem talkHdrSize_le_talkLen (stage : Stage) (size : PayloadSize) :
    talkHdrSize ≤ talkLen stage size := by
  have := size.min
  simp only [talkLen, talkHdrSize, talkPayloadMinSize] at *
  split <;> omega

theorem talkLen_le (stage : Stage) (size : PayloadSize) :
    talkLen stage size ≤ talkPayloadMaxSize := by
  have := size.max
  simp only [talkLen, talkHdrSize, talkPayloadMaxSize] at *
  split <;> omega

/-- The header of a message on the wire. -/
def wireHeader (workerSelf : UInt64) (pkt : TalkPayload) : List UInt8 :=
  toBE 4 pkt.flags.toNat ++ (toBE 4 pkt.count.toNat ++ (toBE 4 pkt.latency.toNat ++
    (toBE 4 0 ++ (toBE 8 pkt.weakTime.toNat ++ toBE 8 workerSelf.toNat))))

@[simp] theorem length_wireHeader (workerSelf : UInt64) (pkt : TalkPayload) :
    (wireHeader workerSelf pkt).length = talkHdrSize := by
  simp [wireHeader, talkHdrSize]

theorem store_zero (o : ByteOrder) (w : Nat) : o.store w 0 = toBE w 0 := by
  have hrep : ∀ w, toLE w 0 = List.replicate w 0 := by
    intro w
    induction w with
    | zero => rfl
    | succ w ih => simp [toLE, ih, List.replicate_succ]
  cases o with
  | little => simp [ByteOrder.store, toBE, hrep]
  | big => rfl

/-- **The wire format does not depend on the sending host.** -/
theorem talkSendBuf_eq (h : Host) (workerSelf : UInt64) (stage : Stage) (size : PayloadSize)
    (pkt : TalkPayload) :
    talkSendBuf h workerSelf stage size pkt
      = wireHeader workerSelf pkt ++ pkt.buf.take (talkLen stage size - talkHdrSize) := by
  have hhdr : headerImage h.order (htonl h pkt.flags) (htonl h pkt.count) (htonl h pkt.latency) 0
      (netHtonll h pkt.weakTime) (netHtonll h workerSelf) = wireHeader workerSelf pkt := by
    simp only [headerImage, wireHeader, toNat_htonl, netHtonll_eq, ByteOrder.store_hton]
    rw [show (0 : UInt32).toNat = 0 from rfl, store_zero]
  have hle := talkHdrSize_le_talkLen stage size
  have hmax := talkLen_le stage size
  have hbuf : (pkt.buf.take (talkLen stage size - talkHdrSize)).length
      = talkLen stage size - talkHdrSize := by
    rw [List.length_take, pkt.bufSize]
    omega
  simp only [talkSendBuf, hhdr]
  rw [List.take_append, List.take_of_length_le (by rw [length_wireHeader]; exact hle),
    length_wireHeader, List.take_append, List.take_of_length_le (by rw [hbuf]), hbuf,
    Nat.sub_self, List.take_zero, List.append_nil]

theorem length_talkSendBuf (h : Host) (workerSelf : UInt64) (stage : Stage) (size : PayloadSize)
    (pkt : TalkPayload) :
    (talkSendBuf h workerSelf stage size pkt).length = talkLen stage size := by
  have hle := talkHdrSize_le_talkLen stage size
  have hmax := talkLen_le stage size
  rw [talkSendBuf_eq, List.length_append, length_wireHeader, List.length_take, pkt.bufSize]
  omega

/-! ### Reading a message back -/

/-- A received packet is the one that was sent: equal header fields, the id of the
sending worker, and outside the HANDSHAKE stage as much of `buf` as was sent. -/
structure SameMessage (workerSelf : UInt64) (stage : Stage) (size : PayloadSize)
    (sent rcvd : TalkPayload) : Prop where
  flags : rcvd.flags = sent.flags
  count : rcvd.count = sent.count
  latency : rcvd.latency = sent.latency
  weakTime : rcvd.weakTime = sent.weakTime
  workerId : rcvd.workerId = workerSelf
  buf : rcvd.buf.take (talkLen stage size - talkHdrSize)
    = sent.buf.take (talkLen stage size - talkHdrSize)

/-- **What `_talk_recv` decodes** from the bytes of one `_talk_send` made in the same
stage, on any pair of hosts and whatever the packet held before. -/
theorem toHost_overlay (tx rx : Host) (workerSelf : UInt64) (stage : Stage) (size : PayloadSize)
    (pkt prior : TalkPayload) :
    SameMessage workerSelf stage size pkt
      ((prior.overlay rx.order (talkSendBuf tx workerSelf stage size pkt)).toHost rx) := by
  have hlen := length_talkSendBuf tx workerSelf stage size pkt
  have hmax := talkLen_le stage size
  have hhdr := talkHdrSize_le_talkLen stage size
  have hbuf : (pkt.buf.take (talkLen stage size - talkHdrSize)).length
      = talkLen stage size - talkHdrSize := by
    rw [List.length_take, pkt.bufSize]
    omega
  -- The whole image: the wire header, what was sent of `buf`, and the old tail.
  obtain ⟨tail, himg⟩ : ∃ tail, (talkSendBuf tx workerSelf stage size pkt
        ++ (prior.image rx.order).drop (talkSendBuf tx workerSelf stage size pkt).length).take
          talkPayloadMaxSize
      = wireHeader workerSelf pkt ++ (pkt.buf.take (talkLen stage size - talkHdrSize) ++ tail) := by
    refine ⟨(prior.image rx.order).drop (talkLen stage size), ?_⟩
    rw [List.take_of_length_le, hlen, talkSendBuf_eq, List.append_assoc]
    rw [List.length_append, List.length_drop, TalkPayload.length_image, hlen]
    omega
  constructor <;>
    simp only [TalkPayload.toHost, TalkPayload.overlay, TalkPayload.ofImage, himg, wireHeader,
      List.append_assoc]
  · exact htonl_load (by simp)
  · exact htonl_load (by simp)
  · exact htonl_load (by simp [List.drop_append, List.drop_eq_nil_of_le])
  · exact netHtonll_load (by simp [List.drop_append, List.drop_eq_nil_of_le])
  · exact netHtonll_load (by simp [List.drop_append, List.drop_eq_nil_of_le])
  · simp only [talkHdrSize] at hbuf ⊢
    simp [List.drop_append, List.drop_eq_nil_of_le, hbuf]

end Ubwt
