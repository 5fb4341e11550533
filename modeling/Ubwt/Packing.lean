import Ubwt.Conn
import Ubwt.Lib.Layout
import Ubwt.Report

/-!
# Ubwt.Packing

The two ways in which a build packs the structs that go over the wire: `#pragma pack(4)`,
and `__attribute__ ((packed, aligned(4)))` under `UBWT_CONFIG_NO_PRAGMA_PACK`.

The talk payload and the report record have no member that the first rule would move, so
**both builds lay them out alike**. The connect payload has: nine 16-bit members stand before
the two last ones, which the pragma aligns to four bytes and the attribute does not. A build
of one kind reads the last two members of the other one shifted by two bytes
(`packings_agree_iff`).
-/

namespace Ubwt

open Lib Lib.Endian Lib.Layout

/-- Is `UBWT_CONFIG_NO_PRAGMA_PACK` defined? -/
inductive PackVariant
  | pragmaPack
  | noPragmaPack
  deriving Repr, DecidableEq

/-- The rule of a build. -/
def PackVariant.packing : PackVariant → Packing
  | pragmaPack => .pragmaPack 4
  | noPragmaPack => .packedAligned 4

/-- A build of the other kind. -/
def PackVariant.other : PackVariant → PackVariant
  | pragmaPack => noPragmaPack
  | noPragmaPack => pragmaPack

/-! ### The three structs -/

/-- The members of `ubwt_conn_payload_t` up to `config_reverse_delay`. -/
def connMembersHead : List MemberType :=
  [.uint 4, .uint 4, .uint 4, .uint 2, .uint 2, .uint 2, .uint 2, .uint 2, .uint 2, .uint 2,
    .uint 2, .uint 2]

/-- `ubwt_conn_payload_t`. -/
def connMembers : List MemberType := connMembersHead ++ [.uint 4, .uint 4]

/-- `ubwt_talk_payload_t`. -/
def talkMembers : List MemberType :=
  [.uint 4, .uint 4, .uint 4, .uint 4, .uint 8, .uint 8, .array (talkPayloadMaxSize - 32)]

/-- `ubwt_report_collect_t`. -/
def collectMembers : List MemberType :=
  [.uint 4, .uint 4, .uint 4, .uint 4, .uint 4, .uint 4, .uint 8, .uint 8, .uint 8]

def ConnPayload.valuesHead (p : ConnPayload) : List MemberVal :=
  [.int p.flags.toNat, .int p.magic.toNat, .int p.configFlags.toNat,
    .int p.configWorkerCount.toNat, .int p.configLinkMtu.toNat, .int p.configL4PayloadSize.toNat,
    .int p.configConnTimeout.toNat, .int p.configHandshakeIter.toNat,
    .int p.configHandshakeInterval.toNat, .int p.configStreamRunTimeout.toNat,
    .int p.configStreamEndTimeout.toNat, .int p.configReverseDelay.toNat]

/-- The members of a connect payload. -/
def ConnPayload.values (p : ConnPayload) : List MemberVal :=
  p.valuesHead ++ [.int p.configStreamTime.toNat, .int p.configCountMul.toNat]

/-- The members of the packet that `_talk_send()` builds. -/
def TalkPayload.values (workerSelf : UInt64) (p : TalkPayload) : List MemberVal :=
  [.int p.flags.toNat, .int p.count.toNat, .int p.latency.toNat, .int 0, .int p.weakTime.toNat,
    .int workerSelf.toNat, .bytes p.buf]

/-- The members of a record that `report_marshal()` builds. -/
def ReportCollect.values (r : ReportCollect) : List MemberVal :=
  [.int r.talkLatencyUs.toNat, .int r.talkCount.toNat, .int r.talkStreamRecvPkts.toNat,
    .int 0, .int 0, .int 0, .int r.talkStreamTimeDuration.toNat, .int r.talkStreamTimeStart.toNat,
    .int r.talkStreamRecvBytes.toNat]

theorem TalkPayload.values_ofType (workerSelf : UInt64) (p : TalkPayload) :
    List.Forall₂ MemberVal.OfType (p.values workerSelf) talkMembers :=
  .cons p.flags.toNat_lt (.cons p.count.toNat_lt (.cons p.latency.toNat_lt
    (.cons (by decide : 0 < 256 ^ 4)
    (.cons p.weakTime.toNat_lt (.cons workerSelf.toNat_lt (.cons p.bufSize .nil))))))

theorem ReportCollect.values_ofType (r : ReportCollect) :
    List.Forall₂ MemberVal.OfType r.values collectMembers :=
  .cons r.talkLatencyUs.toNat_lt (.cons r.talkCount.toNat_lt (.cons r.talkStreamRecvPkts.toNat_lt
    (.cons (by decide : 0 < 256 ^ 4) (.cons (by decide : 0 < 256 ^ 4)
    (.cons (by decide : 0 < 256 ^ 4)
      (.cons r.talkStreamTimeDuration.toNat_lt (.cons r.talkStreamTimeStart.toNat_lt
        (.cons r.talkStreamRecvBytes.toNat_lt .nil))))))))

theorem ConnPayload.valuesHead_ofType (p : ConnPayload) :
    List.Forall₂ MemberVal.OfType p.valuesHead connMembersHead :=
  .cons p.flags.toNat_lt (.cons p.magic.toNat_lt (.cons p.configFlags.toNat_lt
    (.cons p.configWorkerCount.toNat_lt (.cons p.configLinkMtu.toNat_lt
      (.cons p.configL4PayloadSize.toNat_lt (.cons p.configConnTimeout.toNat_lt
        (.cons p.configHandshakeIter.toNat_lt (.cons p.configHandshakeInterval.toNat_lt
          (.cons p.configStreamRunTimeout.toNat_lt (.cons p.configStreamEndTimeout.toNat_lt
            (.cons p.configReverseDelay.toNat_lt .nil)))))))))))

/-! ### The layouts of the build with the pragma

They are the ones that the messages are modelled with elsewhere. -/

theorem encode_connPayload (h : Host) (p : ConnPayload) (hpad : p.padding = (0, 0)) :
    PackVariant.pragmaPack.packing.encode h.order connMembers p.values
      = (connPayloadHton h p).image h.order := by
  rw [image_connPayloadHton]
  simp [PackVariant.packing, Packing.encode, Packing.image, connMembers, connMembersHead,
    ConnPayload.values, ConnPayload.valuesHead, MemberVal.store, ByteOrder.store_hton, Packing.pad,
    padTo, Packing.memberAlign, MemberType.align, MemberType.size, Packing.structAlign, Packing.fin,
    connWire, ConnPayload.words, ConnPayload.configWords, hpad]
  rfl

theorem encode_talkPayload (h : Host) (workerSelf : UInt64) (stage : Stage) (size : PayloadSize)
    (p : TalkPayload) (b : PackVariant) :
    (b.packing.encode h.order talkMembers (p.values workerSelf)).take (talkLen stage size)
      = talkSendBuf h workerSelf stage size p := by
  have himage : b.packing.encode h.order talkMembers (p.values workerSelf)
      = wireHeader workerSelf p ++ p.buf := by
    cases b <;>
      simp [PackVariant.packing, Packing.encode, Packing.image, talkMembers, TalkPayload.values,
        MemberVal.store, ByteOrder.store_hton, Packing.pad, padTo, Packing.memberAlign,
        MemberType.align, MemberType.size, Packing.structAlign, Packing.fin, wireHeader,
        talkPayloadMaxSize]
  rw [himage, talkSendBuf_eq, List.take_append, length_wireHeader, List.take_of_length_le]
  rw [length_wireHeader]
  exact talkHdrSize_le_talkLen stage size

theorem encode_reportCollect (h : Host) (r : ReportCollect) (b : PackVariant) :
    b.packing.encode h.order collectMembers r.values = wireCollect r := by
  have hzero : toBE 4 0 = [0, 0, 0, 0] := rfl
  cases b <;>
    simp [PackVariant.packing, Packing.encode, Packing.image, collectMembers, ReportCollect.values,
      MemberVal.store, ByteOrder.store_hton, Packing.pad, padTo, Packing.memberAlign,
      MemberType.align, MemberType.size, Packing.structAlign, Packing.fin, wireCollect, hzero]

/-! ### The connect payload in a build of the other kind -/

/-- The bytes of a connect payload from the thirtieth on. -/
def connTail (b : PackVariant) (streamTime countMul : Nat) : List UInt8 :=
  match b with
  | .pragmaPack => [0, 0] ++ (toBE 4 streamTime ++ toBE 4 countMul)
  | .noPragmaPack => toBE 4 streamTime ++ (toBE 4 countMul ++ [0, 0])

/-- What a build finds for the last two members in these bytes. -/
def connTailDecoded (b : PackVariant) (tail : List UInt8) : Nat × Nat :=
  match b with
  | .pragmaPack => (ofBE ((tail.drop 2).take 4), ofBE ((tail.drop 6).take 4))
  | .noPragmaPack => (ofBE (tail.take 4), ofBE ((tail.drop 4).take 4))

theorem decode_connPayload (b b' : PackVariant) (tx rx : Host) (p : ConnPayload) :
    b'.packing.decode rx.order connMembers (b.packing.encode tx.order connMembers p.values)
      = p.valuesHead ++
        [.int (connTailDecoded b' (connTail b p.configStreamTime.toNat
            p.configCountMul.toNat)).1,
          .int (connTailDecoded b' (connTail b p.configStreamTime.toNat
            p.configCountMul.toNat)).2] := by
  have hhead := p.valuesHead_ofType
  have hoffsets : b.packing.offsets 0 connMembersHead = b'.packing.offsets 0 connMembersHead := by
    cases b <;> cases b' <;> decide
  have hlen : (b.packing.image tx.order 0 connMembersHead p.valuesHead).length = 30 := by
    have hfin := Packing.length_image (p := b.packing) (o := tx.order) hhead 0
    rw [Nat.zero_add] at hfin
    rw [hfin]
    cases b <;> decide
  have hencode : b.packing.encode tx.order connMembers p.values
      = b.packing.image tx.order 0 connMembersHead p.valuesHead
        ++ connTail b p.configStreamTime.toNat p.configCountMul.toNat := by
    rw [Packing.encode, connMembers, ConnPayload.values, Packing.image_append rfl,
      List.append_assoc]
    congr 1
    cases b <;>
      simp [PackVariant.packing, Packing.image, MemberVal.store, ByteOrder.store_hton, Packing.pad,
        padTo, Packing.memberAlign, MemberType.align, MemberType.size, Packing.structAlign,
        Packing.fin, connMembersHead, connTail]
  rw [Packing.decode, hencode, connMembers, Packing.offsets_append,
    decodeAt_append (Packing.length_offsets ..), ← hoffsets]
  generalize htail : connTail b p.configStreamTime.toNat p.configCountMul.toNat = tail
  have hpiece : ∀ k, k + 4 ≤ 10 → MemberVal.load rx.order
      (((b.packing.image tx.order 0 connMembersHead p.valuesHead ++ tail).drop (30 + k)).take 4)
        (.uint 4) = .int (ofBE ((tail.drop k).take 4)) := by
    intro k hk
    have hten : tail.length = 10 := by
      rw [← htail]
      cases b <;> simp [connTail]
    rw [← List.drop_drop, List.drop_left' hlen]
    refine MemberVal.load_uint rx.order ?_
    rw [List.length_take, List.length_drop]
    omega
  congr 1
  · exact decodeAt_image (p := b.packing) hhead rx.order [] _
  · cases b' with
    | pragmaPack =>
        exact congrArg₂ (fun v w => [v, w]) (hpiece 2 (by decide)) (hpiece 6 (by decide))
    | noPragmaPack =>
        exact congrArg₂ (fun v w => [v, w]) (hpiece 0 (by decide)) (hpiece 4 (by decide))

/-- A build of the other kind finds the last two members moved by two bytes. -/
theorem connTailDecoded_other (b : PackVariant) {streamTime countMul : Nat}
    (hs : streamTime < 2 ^ 32) (hc : countMul < 2 ^ 32) :
    connTailDecoded b.other (connTail b streamTime countMul)
      = match b with
        | .pragmaPack =>
            (streamTime / 65536, streamTime % 65536 * 65536 + countMul / 65536)
        | .noPragmaPack =>
            (streamTime % 65536 * 65536 + countMul / 65536, countMul % 65536 * 65536) := by
  have hsplit : ∀ n, toBE 4 n = toBE 2 (n / 65536) ++ toBE 2 n := fun n => toBE_add 2 2 n
  have hpair : ∀ m n, ofBE (toBE 2 m ++ toBE 2 n) = m % 65536 * 65536 + n % 65536 := by
    intro m n
    rw [ofBE_append, ofBE_toBE, ofBE_toBE, length_toBE]
    norm_num
  have hzero : ([0, 0] : List UInt8) = toBE 2 0 := rfl
  cases b with
  | pragmaPack =>
      simp only [connTailDecoded, PackVariant.other, connTail, hsplit, hzero]
      simp [List.take_append, List.drop_append, List.take_of_length_le, List.drop_eq_nil_of_le,
        hpair]
      omega
  | noPragmaPack =>
      simp only [connTailDecoded, PackVariant.other, connTail, hsplit, hzero]
      simp [List.take_append, List.drop_append, List.take_of_length_le, List.drop_eq_nil_of_le,
        hpair]
      omega

/-- **The two packings share the wire format of the talk payload and of the report record,
and that of a connect payload exactly if its last two members are zero.** Either build may be
the one that encodes, and the hosts may differ in byte order. -/
theorem packings_agree_iff (b : PackVariant) (tx rx : Host) :
    (∀ p : ConnPayload,
      b.other.packing.decode rx.order connMembers (b.packing.encode tx.order connMembers p.values)
        = p.values ↔ p.configStreamTime = 0 ∧ p.configCountMul = 0)
    ∧ (∀ (workerSelf : UInt64) (p : TalkPayload),
      b.other.packing.decode rx.order talkMembers
        (b.packing.encode tx.order talkMembers (p.values workerSelf)) = p.values workerSelf)
    ∧ ∀ r : ReportCollect,
      b.other.packing.decode rx.order collectMembers
        (b.packing.encode tx.order collectMembers r.values) = r.values := by
  refine ⟨fun p => ?_, fun workerSelf p => ?_, fun r => ?_⟩
  · have hs : p.configStreamTime.toNat < 2 ^ 32 := p.configStreamTime.toNat_lt
    have hc : p.configCountMul.toNat < 2 ^ 32 := p.configCountMul.toNat_lt
    rw [decode_connPayload, ConnPayload.values, List.append_cancel_left_eq,
      connTailDecoded_other b hs hc, ← UInt32.toNat_inj, ← UInt32.toNat_inj]
    cases b <;> simp only [List.cons.injEq, MemberVal.int.injEq, and_true] <;>
      rw [show (0 : UInt32).toNat = 0 from rfl] <;> omega
  · refine decode_encode (p.values_ofType workerSelf) ?_ _ _
    cases b <;> decide
  · refine decode_encode r.values_ofType ?_ _ _
    cases b <;> decide

/-- The connect payload of a configuration that was accepted, sent by a build with the pragma
to one without it: the stream time of three seconds is read as zero. -/
theorem packings_disagree_defaults :
    ∃ cfg, configInit ⟨false, false, fun _ _ => false⟩ ["connector".toList, "10.0.0.1".toList]
        = .ok cfg
      ∧ PackVariant.noPragmaPack.packing.decode .little connMembers
          (PackVariant.pragmaPack.packing.encode .little connMembers (connPayloadCreate cfg).values)
        ≠ (connPayloadCreate cfg).values := by
  refine ⟨_, rfl, ?_⟩
  decide

end Ubwt
