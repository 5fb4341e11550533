import Ubwt.Net.BufFill
import Ubwt.Lib.Memory

/-!
# Ubwt.Talk.Bounds

The functions that access a `ubwt_talk_payload_t`, on its memory, with every access checked
against its 8192 bytes.

`_talk_send` and `_talk_recv` take `talk_payload_current_size` as the length of the whole packet.
`net_buf_fill` and `report_marshal` get the same number as a length of `buf`, **which starts 32
bytes later**: the accesses stay inside exactly for the sizes up to 8160
(`accessesInside_iff`). Where they do, the functions on the memory compute what the functions on
the fields do (`talkSendAt_eq`, `reportMarshalAt_eq`, `reportUnmarshalAt_eq`).
-/

namespace Ubwt

open Lib Lib.Endian Lib.Memory

/-! ### The functions on the memory -/

/-- `dst->member = htonl(src->member)`, for the member at `off`. -/
def convert32 (h : Host) (src dst : List UInt8) (off : Nat) : Option (List UInt8) := do
  let bytes ← load src off 4
  store dst off (h.order.store 4 (htonl h (UInt32.ofNat (h.order.load bytes))).toNat)

/-- `dst->member = net_htonll(src->member)`. -/
def convert64 (h : Host) (src dst : List UInt8) (off : Nat) : Option (List UInt8) := do
  let bytes ← load src off 8
  store dst off (h.order.store 8 (netHtonll h (UInt64.ofNat (h.order.load bytes))).toNat)

/-- The `memcpy()` of `_talk_send()`, which the HANDSHAKE stage skips. -/
def copyBuf (stage : Stage) (size : PayloadSize) (pkt pktbuf : List UInt8) :
    Option (List UInt8) :=
  if stage = .talkHandshake then some pktbuf
  else (load pkt talkHdrSize (talkLen stage size - talkHdrSize)).bind (store pktbuf talkHdrSize)

/-- `_talk_send()`: the bytes that the write loop reads. -/
def talkSendAt (h : Host) (workerSelf : UInt64) (stage : Stage) (size : PayloadSize)
    (pkt : List UInt8) : Option (List UInt8) := do
  let pktbuf ← copyBuf stage size pkt (List.replicate talkPayloadMaxSize 0)
  let pktbuf ← convert32 h pkt pktbuf 0
  let pktbuf ← convert32 h pkt pktbuf 4
  let pktbuf ← convert32 h pkt pktbuf 8
  let pktbuf ← convert64 h pkt pktbuf 16
  let pktbuf ← store pktbuf 24 (h.order.store 8 (netHtonll h workerSelf).toNat)
  load pktbuf 0 (talkLen stage size)

/-- The conversions of `_talk_recv()`, made only when a whole message came. -/
def convertHeader (h : Host) (len : Nat) (ret : IoReturn) (pkt : List UInt8) :
    Option (List UInt8) :=
  if ret = .ok len then do
    let pkt ← convert32 h pkt pkt 0
    let pkt ← convert32 h pkt pkt 4
    let pkt ← convert32 h pkt pkt 8
    let pkt ← convert64 h pkt pkt 16
    convert64 h pkt pkt 24
  else some pkt

/-- `_talk_recv()`, whose read loop returned `ret` and wrote `got`. -/
def talkRecvAt (h : Host) (stage : Stage) (size : PayloadSize) (ret : IoReturn)
    (got pkt : List UInt8) : Option (IoReturn × List UInt8) := do
  let pkt ← store pkt 0 got
  let pkt ← convertHeader h (talkLen stage size) ret pkt
  let flags ← load pkt 0 4
  if bitTest (UInt32.ofNat (h.order.load flags)) TalkOp.forceFail.bit then
    return (.err .abort, pkt)
  else return (ret, pkt)

/-- `net_buf_fill(p.buf, count)`: the copy to the packet, of what is read from the buffer. -/
def netBufFillAt (env : Env) (cfg : Config) (buf : List UInt8) (bufIdx : UInt32) (count : Nat)
    (pkt : List UInt8) : Except Halt (Option (List UInt8) × UInt32) := do
  let (read, bufIdx) ← netBufFill env cfg buf bufIdx count
  return (store pkt talkHdrSize read.bytes, bufIdx)

/-- `report_marshal(p.buf, len)`. -/
def reportMarshalAt (h : Host) (r : ReportCollect) (len : Nat) (pkt : List UInt8) :
    Option (List UInt8) := do
  let pkt ← store pkt talkHdrSize (List.replicate len 0)
  let pkt ← store pkt talkHdrSize (h.order.store 4 (htonl h r.talkLatencyUs).toNat)
  let pkt ← store pkt (talkHdrSize + 4) (h.order.store 4 (htonl h r.talkCount).toNat)
  let pkt ← store pkt (talkHdrSize + 32) (h.order.store 8 (netHtonll h r.talkStreamTimeStart).toNat)
  let pkt ← store pkt (talkHdrSize + 24)
    (h.order.store 8 (netHtonll h r.talkStreamTimeDuration).toNat)
  let pkt ← store pkt (talkHdrSize + 8) (h.order.store 4 (htonl h r.talkStreamRecvPkts).toNat)
  store pkt (talkHdrSize + 40) (h.order.store 8 (netHtonll h r.talkStreamRecvBytes).toNat)

/-- `report_unmarshal(p.buf, len)`, which makes no use of `len` outside its assertion. -/
def reportUnmarshalAt (h : Host) (pkt : List UInt8) : Option ReportCollect := do
  let latency ← load pkt talkHdrSize 4
  let count ← load pkt (talkHdrSize + 4) 4
  let start ← load pkt (talkHdrSize + 32) 8
  let duration ← load pkt (talkHdrSize + 24) 8
  let pkts ← load pkt (talkHdrSize + 8) 4
  let bytes ← load pkt (talkHdrSize + 40) 8
  return {
    talkLatencyUs := htonl h (UInt32.ofNat (h.order.load latency))
    talkCount := htonl h (UInt32.ofNat (h.order.load count))
    talkStreamRecvPkts := htonl h (UInt32.ofNat (h.order.load pkts))
    talkStreamTimeDuration := netHtonll h (UInt64.ofNat (h.order.load duration))
    talkStreamTimeStart := netHtonll h (UInt64.ofNat (h.order.load start))
    talkStreamRecvBytes := netHtonll h (UInt64.ofNat (h.order.load bytes)) }

/-! ### What they compute -/

section

variable {h : Host}

theorem load_store32 (o : ByteOrder) (v : UInt32) :
    UInt32.ofNat (o.load (o.store 4 v.toNat)) = v := by
  have hlt : v.toNat < 256 ^ 4 := v.toNat_lt
  rw [ByteOrder.load_store, Nat.mod_eq_of_lt hlt, UInt32.ofNat_toNat]

theorem load_store64 (o : ByteOrder) (v : UInt64) :
    UInt64.ofNat (o.load (o.store 8 v.toNat)) = v := by
  have hlt : v.toNat < 256 ^ 8 := v.toNat_lt
  rw [ByteOrder.load_store, Nat.mod_eq_of_lt hlt, UInt64.ofNat_toNat]

/-- The members in the image of a packet. -/
theorem load_image (o : ByteOrder) (p : TalkPayload) :
    load (p.image o) 0 4 = some (o.store 4 p.flags.toNat)
    ∧ load (p.image o) 4 4 = some (o.store 4 p.count.toNat)
    ∧ load (p.image o) 8 4 = some (o.store 4 p.latency.toNat)
    ∧ load (p.image o) 16 8 = some (o.store 8 p.weakTime.toNat)
    ∧ load (p.image o) 24 8 = some (o.store 8 p.workerId.toNat) := by
  refine ⟨?_, ?_, ?_, ?_, ?_⟩ <;>
    simp [load, TalkPayload.image, headerImage, List.drop_append, List.drop_eq_nil_of_le, p.bufSize,
      talkPayloadMaxSize, talkHdrSize]

/-- The members written to the image of a packet. -/
theorem store_image (o : ByteOrder) (p : TalkPayload) (v : UInt32) (w : UInt64) :
    store (p.image o) 0 (o.store 4 v.toNat) = some ({ p with flags := v }.image o)
    ∧ store (p.image o) 4 (o.store 4 v.toNat) = some ({ p with count := v }.image o)
    ∧ store (p.image o) 8 (o.store 4 v.toNat) = some ({ p with latency := v }.image o)
    ∧ store (p.image o) 16 (o.store 8 w.toNat) = some ({ p with weakTime := w }.image o)
    ∧ store (p.image o) 24 (o.store 8 w.toNat) = some ({ p with workerId := w }.image o) := by
  refine ⟨?_, ?_, ?_, ?_, ?_⟩ <;>
    simp [store, TalkPayload.image, headerImage, List.take_append, List.drop_append,
      List.drop_eq_nil_of_le, List.take_of_length_le, p.bufSize, talkPayloadMaxSize, talkHdrSize]

/-- The conversions, from one packet to another or in place. -/
theorem convert_image (h : Host) (p q : TalkPayload) :
    convert32 h (p.image h.order) (q.image h.order) 0
      = some ({ q with flags := htonl h p.flags }.image h.order)
    ∧ convert32 h (p.image h.order) (q.image h.order) 4
      = some ({ q with count := htonl h p.count }.image h.order)
    ∧ convert32 h (p.image h.order) (q.image h.order) 8
      = some ({ q with latency := htonl h p.latency }.image h.order)
    ∧ convert64 h (p.image h.order) (q.image h.order) 16
      = some ({ q with weakTime := netHtonll h p.weakTime }.image h.order)
    ∧ convert64 h (p.image h.order) (q.image h.order) 24
      = some ({ q with workerId := netHtonll h p.workerId }.image h.order) := by
  obtain ⟨hflags, hcount, hlatency, hweak, hworker⟩ := load_image h.order p
  have hstore := store_image h.order q
  refine ⟨?_, ?_, ?_, ?_, ?_⟩
  · simp only [convert32, hflags, bind, Option.bind_some, load_store32, (hstore _ 0).1]
  · simp only [convert32, hcount, bind, Option.bind_some, load_store32, (hstore _ 0).2.1]
  · simp only [convert32, hlatency, bind, Option.bind_some, load_store32, (hstore _ 0).2.2.1]
  · simp only [convert64, hweak, bind, Option.bind_some, load_store64, (hstore 0 _).2.2.2.1]
  · simp only [convert64, hworker, bind, Option.bind_some, load_store64, (hstore 0 _).2.2.2.2]

/-- The packet of `_talk_send()` before its header is filled in. -/
def copiedBuf (stage : Stage) (size : PayloadSize) (pkt : TalkPayload) : List UInt8 :=
  let buf := pkt.buf.take (talkLen stage size - talkHdrSize)
  buf ++ List.replicate (talkPayloadMaxSize - talkHdrSize - buf.length) 0

theorem length_copiedBuf (stage : Stage) (size : PayloadSize) (pkt : TalkPayload) :
    (copiedBuf stage size pkt).length = talkPayloadMaxSize - talkHdrSize := by
  simp only [copiedBuf, List.length_append, List.length_replicate, List.length_take, pkt.bufSize]
  omega

/-- The packet that `_talk_send()` fills in: zero, with a copy of the part that is sent. -/
def copiedPacket (stage : Stage) (size : PayloadSize) (pkt : TalkPayload) : TalkPayload :=
  { TalkPayload.zero with buf := copiedBuf stage size pkt, bufSize := length_copiedBuf stage size pkt }

theorem image_zero (o : ByteOrder) :
    TalkPayload.zero.image o = List.replicate talkPayloadMaxSize 0 := by
  have hhdr : headerImage o 0 0 0 0 0 0 = List.replicate talkHdrSize 0 := by
    cases o <;> rfl
  rw [TalkPayload.image, TalkPayload.zero, hhdr, List.replicate_append_replicate]
  rfl

/-- The `memcpy` of `_talk_send()`, or none in the HANDSHAKE stage. -/
theorem copiedPacket_image (o : ByteOrder) (stage : Stage) (size : PayloadSize)
    (pkt : TalkPayload) :
    copyBuf stage size (pkt.image o) (List.replicate talkPayloadMaxSize 0)
      = some ((copiedPacket stage size pkt).image o) := by
  have hmax := talkLen_le stage size
  have hbuf : (pkt.buf.take (talkLen stage size - talkHdrSize)).length
      = talkLen stage size - talkHdrSize := by
    rw [List.length_take, pkt.bufSize]
    omega
  rw [← image_zero o, copyBuf]
  by_cases hstage : stage = .talkHandshake
  · have hnone : talkLen stage size - talkHdrSize = 0 := by
      rw [talkLen, if_pos hstage, Nat.sub_self]
    rw [if_pos hstage]
    simp only [TalkPayload.image, copiedPacket, copiedBuf, hnone, List.take_zero, List.nil_append,
      List.length_nil, Nat.sub_zero, TalkPayload.zero]
  · have hpkt : pkt.image o = headerImage o pkt.flags pkt.count pkt.latency pkt.reserved1
          pkt.weakTime pkt.workerId
        ++ (pkt.buf.take (talkLen stage size - talkHdrSize)
          ++ pkt.buf.drop (talkLen stage size - talkHdrSize)) := by
      rw [List.take_append_drop, TalkPayload.image]
    have hzero : TalkPayload.zero.image o = headerImage o 0 0 0 0 0 0
        ++ (List.replicate (talkLen stage size - talkHdrSize) 0
          ++ List.replicate (talkPayloadMaxSize - talkHdrSize - (talkLen stage size - talkHdrSize))
            0) := by
      rw [List.replicate_append_replicate, Nat.add_sub_cancel' (by omega)]
      rfl
    rw [if_neg hstage, hpkt, hzero, load_append (length_headerImage ..).symm hbuf.symm,
      Option.bind_some, store_append (length_headerImage ..).symm
        (by rw [hbuf, List.length_replicate])]
    simp only [copiedPacket, copiedBuf, TalkPayload.image, TalkPayload.zero, hbuf]

/-- **`_talk_send` on the memory** makes the accesses that the model on the fields takes for
granted, and hands the same bytes to the write loop. -/
theorem talkSendAt_eq (h : Host) (workerSelf : UInt64) (stage : Stage) (size : PayloadSize)
    (pkt : TalkPayload) :
    talkSendAt h workerSelf stage size (pkt.image h.order)
      = some (talkSendBuf h workerSelf stage size pkt) := by
  have hmax := talkLen_le stage size
  have hconv := convert_image h pkt
  have hstore := store_image h.order
  simp only [talkSendAt, copiedPacket_image, bind, Option.bind_some, (hconv _).1, (hconv _).2.1, (hconv _).2.2.1,
    (hconv _).2.2.2.1, (hstore _ 0 _).2.2.2.2]
  rw [load, if_pos (by rw [TalkPayload.length_image, Nat.zero_add]; exact hmax)]
  rfl

/-- A word that is read is written as it was. -/
theorem store_load (o : ByteOrder) {w : Nat} {m : List UInt8} (hm : m.length = w) :
    o.store w (o.load m) = m := by
  subst hm
  cases o with
  | little => exact toLE_ofLE m
  | big =>
      have hrev := toLE_ofLE m.reverse
      rw [List.length_reverse] at hrev
      rw [ByteOrder.store, ByteOrder.load, toBE, ofBE, hrev, List.reverse_reverse]

theorem store_load32 (o : ByteOrder) {m : List UInt8} (hm : m.length = 4) :
    o.store 4 (UInt32.ofNat (o.load m)).toNat = m := by
  have hlt : o.load m < 2 ^ 32 := by simpa [hm] using o.load_lt m
  rw [UInt32.toNat_ofNat', Nat.mod_eq_of_lt hlt, store_load o hm]

theorem store_load64 (o : ByteOrder) {m : List UInt8} (hm : m.length = 8) :
    o.store 8 (UInt64.ofNat (o.load m)).toNat = m := by
  have hlt : o.load m < 2 ^ 64 := by simpa [hm] using o.load_lt m
  rw [UInt64.toNat_ofNat', Nat.mod_eq_of_lt hlt, store_load o hm]

/-- A member and what follows it. -/
theorem take_drop_append (l : List UInt8) (off w : Nat) :
    (l.drop off).take w ++ l.drop (off + w) = l.drop off := by
  rw [← List.drop_drop, List.take_append_drop]

/-- The object whose memory holds these bytes has them in memory. -/
theorem image_ofImage (o : ByteOrder) {l : List UInt8} (hl : l.length = talkPayloadMaxSize) :
    (TalkPayload.ofImage o l hl).image o = l := by
  have hmember : ∀ off w, off + w ≤ talkPayloadMaxSize → ((l.drop off).take w).length = w := by
    intro off w hle
    rw [List.length_take, List.length_drop, hl]
    omega
  have hfirst : l.take 4 = (l.drop 0).take 4 := rfl
  simp only [TalkPayload.image, TalkPayload.ofImage, headerImage, hfirst, List.append_assoc]
  rw [store_load32 o (hmember 0 4 (by decide)), store_load32 o (hmember 4 4 (by decide)),
    store_load32 o (hmember 8 4 (by decide)), store_load32 o (hmember 12 4 (by decide)),
    store_load64 o (hmember 16 8 (by decide)), store_load64 o (hmember 24 8 (by decide)),
    talkHdrSize, take_drop_append l 24 8, take_drop_append l 16 8, take_drop_append l 12 4,
    take_drop_append l 8 4, take_drop_append l 4 4, take_drop_append l 0 4, List.drop_zero]

/-- The write of the read loop. -/
theorem store_got (o : ByteOrder) (prior : TalkPayload) {got : List UInt8}
    (hgot : got.length ≤ talkPayloadMaxSize) :
    store (prior.image o) 0 got = some ((prior.overlay o got).image o) := by
  rw [TalkPayload.overlay, image_ofImage, List.take_of_length_le, store, if_pos, List.take_zero,
    List.nil_append, Nat.zero_add]
  · rw [TalkPayload.length_image]
    omega
  · rw [List.length_append, List.length_drop, TalkPayload.length_image]
    omega

/-- The conversions on the memory. -/
theorem convertHeader_eq (h : Host) (len : Nat) (ret : IoReturn) (pkt : TalkPayload) :
    convertHeader h len ret (pkt.image h.order)
      = some ((if ret = .ok len then pkt.toHost h else pkt).image h.order) := by
  unfold convertHeader
  split
  · have hconv := fun p => convert_image h p p
    simp only [bind, Option.bind_some, (hconv _).1, (hconv _).2.1, (hconv _).2.2.1,
      (hconv _).2.2.2.1, (hconv _).2.2.2.2]
    rfl
  · rfl

/-- **`_talk_recv` on the memory**, for whatever its read loop did. -/
theorem talkRecvAt_eq (h : Host) (stage : Stage) (size : PayloadSize) (ret : IoReturn)
    {got : List UInt8} (hgot : got.length ≤ talkLen stage size) (prior : TalkPayload) :
    talkRecvAt h stage size ret got (prior.image h.order)
      = some ((talkRecvFinish h (talkLen stage size) ret (prior.overlay h.order got)).1,
        (talkRecvFinish h (talkLen stage size) ret (prior.overlay h.order got)).2.image
          h.order) := by
  have hmax := talkLen_le stage size
  simp only [talkRecvAt, store_got h.order prior (Nat.le_trans hgot hmax), convertHeader_eq, bind,
    Option.bind_some, (load_image _ _).1, load_store32, talkRecvFinish, TalkPayload.has]
  generalize (if ret = .ok (talkLen stage size) then (prior.overlay h.order got).toHost h
    else prior.overlay h.order got) = decoded
  by_cases hff : bitTest decoded.flags TalkOp.forceFail.bit = true
  · simp only [hff, if_true, pure]
  · simp only [hff, pure]
    rfl

/-! ### The record in the packet -/

/-- The fields of a record that starts `buf`. -/
theorem store_record (o : ByteOrder) {hdr rest : List UInt8} (hhdr : hdr.length = talkHdrSize)
    (l c p : UInt32) (d s b : UInt64) (v : UInt32) (w : UInt64) :
    store (hdr ++ (collectImage o l c p d s b ++ rest)) talkHdrSize (o.store 4 v.toNat)
      = some (hdr ++ (collectImage o v c p d s b ++ rest))
    ∧ store (hdr ++ (collectImage o l c p d s b ++ rest)) (talkHdrSize + 4) (o.store 4 v.toNat)
      = some (hdr ++ (collectImage o l v p d s b ++ rest))
    ∧ store (hdr ++ (collectImage o l c p d s b ++ rest)) (talkHdrSize + 8) (o.store 4 v.toNat)
      = some (hdr ++ (collectImage o l c v d s b ++ rest))
    ∧ store (hdr ++ (collectImage o l c p d s b ++ rest)) (talkHdrSize + 24) (o.store 8 w.toNat)
      = some (hdr ++ (collectImage o l c p w s b ++ rest))
    ∧ store (hdr ++ (collectImage o l c p d s b ++ rest)) (talkHdrSize + 32) (o.store 8 w.toNat)
      = some (hdr ++ (collectImage o l c p d w b ++ rest))
    ∧ store (hdr ++ (collectImage o l c p d s b ++ rest)) (talkHdrSize + 40) (o.store 8 w.toNat)
      = some (hdr ++ (collectImage o l c p d s w ++ rest)) := by
  refine ⟨?_, ?_, ?_, ?_, ?_, ?_⟩ <;>
    simp [store, collectImage, List.take_append, List.drop_append, List.drop_eq_nil_of_le,
      List.take_of_length_le, hhdr, talkHdrSize] <;>
    omega

theorem length_collectImage (o : ByteOrder) (l c p : UInt32) (d s b : UInt64) :
    (collectImage o l c p d s b).length = reportCollectSize := by
  simp [collectImage, reportCollectSize]

/-- **`report_marshal` on the memory**, if the packet has room for `len` bytes in `buf`. -/
theorem reportMarshalAt_eq (h : Host) (r : ReportCollect) {len : Nat} {hdr buf : List UInt8}
    (hhdr : hdr.length = talkHdrSize) (hmin : reportCollectSize ≤ len) (hroom : len ≤ buf.length) :
    reportMarshalAt h r len (hdr ++ buf) = some (hdr ++ reportMarshal h r buf len) := by
  have hzeroed : store (hdr ++ buf) talkHdrSize (List.replicate len 0)
      = some (hdr ++ (collectImage h.order 0 0 0 0 0 0
        ++ (List.replicate (len - reportCollectSize) 0 ++ buf.drop len))) := by
    have hrecord : collectImage h.order 0 0 0 0 0 0 = List.replicate reportCollectSize 0 := by
      cases h.order <;> rfl
    have hbuf : (List.replicate len 0 : List UInt8).length = (buf.take len).length := by
      rw [List.length_replicate, List.length_take, Nat.min_eq_left hroom]
    conv_lhs => rw [← List.take_append_drop len buf]
    rw [store_append hhdr.symm hbuf, hrecord, ← List.append_assoc (List.replicate _ 0),
      List.replicate_append_replicate, Nat.add_sub_cancel' hmin]
  have hstore := @store_record h.order hdr
    (List.replicate (len - reportCollectSize) 0 ++ buf.drop len) hhdr
  have hrest : (List.replicate len 0 ++ buf.drop len).drop reportCollectSize
      = List.replicate (len - reportCollectSize) 0 ++ buf.drop len := by
    rw [List.drop_append, List.drop_replicate, List.length_replicate,
      Nat.sub_eq_zero_of_le hmin, List.drop_zero]
  simp only [reportMarshalAt, hzeroed, bind, Option.bind_some, (hstore _ _ _ _ _ _ _ 0).1,
    (hstore _ _ _ _ _ _ _ 0).2.1, (hstore _ _ _ _ _ _ _ 0).2.2.1, (hstore _ _ _ _ _ _ 0 _).2.2.2.1,
    (hstore _ _ _ _ _ _ 0 _).2.2.2.2.1, (hstore _ _ _ _ _ _ 0 _).2.2.2.2.2]
  rw [reportMarshal, hrest, List.take_of_length_le]
  rw [List.length_append, length_collectImage, List.length_append, List.length_replicate,
    List.length_drop]
  omega

/-- **`report_unmarshal` on the memory**: it reads no more than the record. -/
theorem reportUnmarshalAt_eq (h : Host) {hdr buf : List UInt8} (hhdr : hdr.length = talkHdrSize)
    (hroom : reportCollectSize ≤ buf.length) :
    reportUnmarshalAt h (hdr ++ buf) = some (reportUnmarshal h buf) := by
  have hload : ∀ off w, off + w ≤ reportCollectSize →
      load (hdr ++ buf) (talkHdrSize + off) w = some ((buf.drop off).take w) := by
    intro off w hle
    rw [load, if_pos (by rw [List.length_append]; omega), ← hhdr, List.drop_append,
      List.drop_eq_nil_of_le (by omega), List.nil_append, Nat.add_sub_cancel_left]
  have hfirst := hload 0 4 (by decide)
  rw [Nat.add_zero] at hfirst
  simp only [reportUnmarshalAt, hfirst, hload 4 4 (by decide), hload 32 8 (by decide),
    hload 24 8 (by decide), hload 8 4 (by decide), hload 40 8 (by decide), bind, Option.bind_some]
  rfl

end

/-! ### The sizes -/

/-- For a payload size: no access of these functions to a packet is outside of it, and a record
that is marshalled is transmitted completely. -/
structure AccessesInside (size : PayloadSize) : Prop where
  send : ∀ (h : Host) (workerSelf : UInt64) (stage : Stage) (pkt : TalkPayload),
    (talkSendAt h workerSelf stage size (pkt.image h.order)).isSome
  recv : ∀ (h : Host) (stage : Stage) (ret : IoReturn) (got : List UInt8) (pkt : TalkPayload),
    got.length ≤ talkLen stage size →
    (talkRecvAt h stage size ret got (pkt.image h.order)).isSome
  fill : ∀ (env : Env) (cfg : Config) (o : ByteOrder) (buf : List UInt8) (bufIdx : UInt32)
      (pkt : TalkPayload), cfg.talkPayloadCurrentSize.toNat = size.val →
    buf.length = cfg.netPayloadBufferSize.toNat → size.val ≤ buf.length →
    ∃ pkt' bufIdx', netBufFillAt env cfg buf bufIdx cfg.talkPayloadCurrentSize.toNat (pkt.image o)
      = .ok (some pkt', bufIdx')
  marshal : ∀ (h : Host) (r : ReportCollect) (pkt : TalkPayload),
    (reportMarshalAt h r size.val (pkt.image h.order)).isSome
  unmarshal : ∀ (h : Host) (pkt : TalkPayload), (reportUnmarshalAt h (pkt.image h.order)).isSome
  transmitted : ∀ (h : Host) (workerSelf : UInt64) (r : ReportCollect) (pkt : TalkPayload)
      (marshalled : List UInt8),
    reportMarshalAt h r size.val (pkt.image h.order) = some marshalled →
    ∃ sent rest, talkSendAt h workerSelf .talkReportExchange size marshalled = some sent
      ∧ sent.drop talkHdrSize = wireCollect r ++ rest

theorem netBufFillAt_isSome (env : Env) {cfg : Config} (o : ByteOrder) {buf : List UInt8}
    (bufIdx : UInt32) (pkt : TalkPayload) {count : Nat}
    (hbuf : buf.length = cfg.netPayloadBufferSize.toNat) (hfits : count ≤ buf.length)
    (hroom : count ≤ talkPayloadMaxSize - talkHdrSize) :
    ∃ pkt' bufIdx', netBufFillAt env cfg buf bufIdx count (pkt.image o)
      = .ok (some pkt', bufIdx') := by
  rw [hbuf] at hfits
  obtain ⟨bufIdx', hfill, -⟩ := netBufFill_eq env buf hfits bufIdx
  have hstore : (store (pkt.image o) talkHdrSize (BufRead.at buf (RoundRobin.start
      cfg.netPayloadBufferSize.toNat count bufIdx.toNat) count).bytes).isSome := by
    have hbytes := List.length_take_le count (buf.drop (RoundRobin.start
      cfg.netPayloadBufferSize.toNat count bufIdx.toNat))
    rw [store_isSome_iff, TalkPayload.length_image, BufRead.at]
    simp only [talkPayloadMaxSize, talkHdrSize] at *
    omega
  obtain ⟨pkt', hpkt'⟩ := Option.isSome_iff_exists.mp hstore
  refine ⟨pkt', bufIdx', ?_⟩
  rw [netBufFillAt, hfill, ← hpkt']
  rfl

/-- What `_talk_send` makes of a record that was marshalled into a packet. -/
theorem talkSendAt_marshalled (h : Host) (workerSelf : UInt64) (size : PayloadSize)
    (r : ReportCollect) (pkt : TalkPayload) (hroom : size.val ≤ talkPayloadMaxSize - talkHdrSize)
    {marshalled : List UInt8}
    (hmarshal : reportMarshalAt h r size.val (pkt.image h.order) = some marshalled) :
    ∃ sent rest, talkSendAt h workerSelf .talkReportExchange size marshalled = some sent
      ∧ sent.drop talkHdrSize = wireCollect r ++ rest := by
  have hmin := size.min
  simp only [talkPayloadMinSize] at hmin
  have hlen : (reportMarshal h r pkt.buf size.val).length = talkPayloadMaxSize - talkHdrSize := by
    rw [length_reportMarshal, pkt.bufSize]
  rw [TalkPayload.image, reportMarshalAt_eq h r (length_headerImage ..)
    (by rw [reportCollectSize]; omega) (by rw [pkt.bufSize]; exact hroom)] at hmarshal
  cases hmarshal
  let filled : TalkPayload :=
    { pkt with buf := reportMarshal h r pkt.buf size.val, bufSize := hlen }
  have hcut : talkLen .talkReportExchange size - talkHdrSize = size.val - talkHdrSize := by
    rw [talkLen, if_neg (by decide)]
  have hbuf : reportCollectSize ≤ pkt.buf.length := by
    rw [pkt.bufSize]
    decide
  have hrecord : ∃ rest, filled.buf.take (size.val - talkHdrSize) = wireCollect r ++ rest := by
    have hfits : reportCollectSize ≤ size.val - talkHdrSize := by
      rw [reportCollectSize, talkHdrSize]
      omega
    dsimp only [filled]
    rw [reportMarshal_eq, List.take_take, List.take_append,
      List.take_of_length_le (by rw [length_wireCollect]; omega)]
    exact ⟨_, rfl⟩
  obtain ⟨rest, hrest⟩ := hrecord
  refine ⟨_, rest, talkSendAt_eq h workerSelf .talkReportExchange size filled, ?_⟩
  rw [talkSendBuf_eq, hcut, hrest, List.drop_left' (length_wireHeader ..)]

theorem reportMarshalAt_outside (h : Host) (r : ReportCollect) {len : Nat} (pkt : TalkPayload)
    (hlen : talkPayloadMaxSize - talkHdrSize < len) :
    reportMarshalAt h r len (pkt.image h.order) = none := by
  have hout : store (pkt.image h.order) talkHdrSize (List.replicate len 0) = none := by
    refine store_outside ?_
    rw [TalkPayload.length_image, List.length_replicate]
    omega
  simp only [reportMarshalAt, hout, bind, Option.bind_none]

/-- **The sizes whose packets are accessed inside** are those up to the size of `buf`. The
check of the configuration admits those up to the size of the packet. -/
theorem accessesInside_iff (size : PayloadSize) :
    AccessesInside size ↔ size.val ≤ talkPayloadMaxSize - talkHdrSize := by
  have hmin := size.min
  simp only [talkPayloadMinSize] at hmin
  constructor
  · intro hinside
    by_contra hbig
    have hmarshal := hinside.marshal ⟨.little, .inlineFunction⟩ .zero .zero
    rw [reportMarshalAt_outside _ _ _ (Nat.not_le.mp hbig)] at hmarshal
    cases hmarshal
  · intro hroom
    refine ⟨?_, ?_, ?_, ?_, ?_, ?_⟩
    · intro h workerSelf stage pkt
      rw [talkSendAt_eq]
      rfl
    · intro h stage ret got pkt hgot
      rw [talkRecvAt_eq h stage size ret hgot]
      rfl
    · intro env cfg o buf bufIdx pkt hcur hbuf hfits
      rw [hcur]
      exact netBufFillAt_isSome env o bufIdx pkt hbuf hfits hroom
    · intro h r pkt
      rw [TalkPayload.image, reportMarshalAt_eq h r (length_headerImage ..)
        (by rw [reportCollectSize]; omega) (by rw [pkt.bufSize]; exact hroom)]
      rfl
    · intro h pkt
      rw [TalkPayload.image, reportUnmarshalAt_eq h (length_headerImage ..)
        (by rw [pkt.bufSize]; decide)]
      rfl
    · intro h workerSelf r pkt marshalled hmarshal
      exact talkSendAt_marshalled h workerSelf size r pkt hroom hmarshal

/-- The largest size that is admitted: a record is marshalled over the end of the packet. -/
theorem accessesInside_fails_8192 : ∃ size : PayloadSize, size.val = 8192
    ∧ reportMarshalAt ⟨.little, .inlineFunction⟩ .zero size.val (TalkPayload.zero.image .little)
      = none
    ∧ ¬ AccessesInside size := by
  let size : PayloadSize := ⟨8192, by decide, by decide⟩
  have hbig : talkPayloadMaxSize - talkHdrSize < size.val := by decide
  exact ⟨size, rfl, reportMarshalAt_outside ⟨.little, .inlineFunction⟩ .zero .zero hbig,
    fun hinside => Nat.not_le.mpr hbig ((accessesInside_iff size).mp hinside)⟩

end Ubwt
