import Mathlib.Data.List.Perm.Basic
import Ubwt.Talk.Wire

/-!
# Ubwt.Report

The collected part of a report (`report.h`), its two encodings `report_marshal` and
`report_unmarshal`, the report exchange of `talk.c`, and `report_worker_combine`.

**Both endpoints report the same test.** The receiver of a connection measures and
sends its record, the sender of the connection overwrites its own with what it gets
(`reportExchanged_eq`); the two processes then combine the same records, each in the
order of its own worker list (`combineCollect_comm` makes that order irrelevant).
-/

namespace Ubwt

open Lib Lib.Endian

/-- `process.reverse` and the index of `report.results`: the direction of a test, as
seen from the connector. -/
inductive Dir
  | straight
  | reverse
  deriving Repr, DecidableEq

/-- The endpoint that receives the stream of a direction. -/
def Dir.receiver : Dir → Endpoint
  | straight => .listener
  | reverse => .connector

/-- The endpoint that sends the stream of a direction. -/
def Dir.sender (d : Dir) : Endpoint := d.receiver.peer

/-- `ubwt_report_collect_t`, without its reserved words. -/
structure ReportCollect where
  talkLatencyUs : UInt32
  talkCount : UInt32
  talkStreamRecvPkts : UInt32
  talkStreamTimeDuration : UInt64
  talkStreamTimeStart : UInt64
  talkStreamRecvBytes : UInt64
  deriving Repr, DecidableEq

/-- The record `current_init()` and `current_fork()` leave: all zero. -/
def ReportCollect.zero : ReportCollect := ⟨0, 0, 0, 0, 0, 0⟩

/-- `sizeof(ubwt_report_collect_t)`. -/
def reportCollectSize : Nat := 48

/-! ### report_marshal and report_unmarshal -/

/-- The memory of a record whose fields hold these values; the three reserved words
are zero. -/
def collectImage (o : ByteOrder) (latency count pkts : UInt32) (duration start bytes : UInt64) :
    List UInt8 :=
  o.store 4 latency.toNat ++ (o.store 4 count.toNat ++ (o.store 4 pkts.toNat ++
    (List.replicate 12 0 ++ (o.store 8 duration.toNat ++ (o.store 8 start.toNat ++
      o.store 8 bytes.toNat)))))

/-- `report_marshal()`: zero `len` bytes of `storage` and put the record there in
network order. -/
def reportMarshal (h : Host) (r : ReportCollect) (storage : List UInt8) (len : Nat) :
    List UInt8 :=
  let zeroed := List.replicate len 0 ++ storage.drop len
  (collectImage h.order (htonl h r.talkLatencyUs) (htonl h r.talkCount)
      (htonl h r.talkStreamRecvPkts) (netHtonll h r.talkStreamTimeDuration)
      (netHtonll h r.talkStreamTimeStart) (netHtonll h r.talkStreamRecvBytes)
    ++ zeroed.drop reportCollectSize).take storage.length

/-- `report_unmarshal()`: every field of the record is overwritten. -/
def reportUnmarshal (h : Host) (storage : List UInt8) : ReportCollect where
  talkLatencyUs := htonl h (UInt32.ofNat (h.order.load (storage.take 4)))
  talkCount := htonl h (UInt32.ofNat (h.order.load ((storage.drop 4).take 4)))
  talkStreamRecvPkts := htonl h (UInt32.ofNat (h.order.load ((storage.drop 8).take 4)))
  talkStreamTimeDuration := netHtonll h (UInt64.ofNat (h.order.load ((storage.drop 24).take 8)))
  talkStreamTimeStart := netHtonll h (UInt64.ofNat (h.order.load ((storage.drop 32).take 8)))
  talkStreamRecvBytes := netHtonll h (UInt64.ofNat (h.order.load ((storage.drop 40).take 8)))

/-- A record on the wire. -/
def wireCollect (r : ReportCollect) : List UInt8 :=
  toBE 4 r.talkLatencyUs.toNat ++ (toBE 4 r.talkCount.toNat ++
    (toBE 4 r.talkStreamRecvPkts.toNat ++ (List.replicate 12 0 ++
      (toBE 8 r.talkStreamTimeDuration.toNat ++ (toBE 8 r.talkStreamTimeStart.toNat ++
        toBE 8 r.talkStreamRecvBytes.toNat)))))

@[simp] theorem length_wireCollect (r : ReportCollect) :
    (wireCollect r).length = reportCollectSize := by
  simp [wireCollect, reportCollectSize]

theorem reportMarshal_eq (h : Host) (r : ReportCollect) (storage : List UInt8) (len : Nat) :
    reportMarshal h r storage len
      = (wireCollect r ++ (List.replicate len 0 ++ storage.drop len).drop reportCollectSize).take
          storage.length := by
  simp only [reportMarshal, collectImage, wireCollect, toNat_htonl, netHtonll_eq,
    ByteOrder.store_hton]

theorem length_reportMarshal (h : Host) (r : ReportCollect) (storage : List UInt8) (len : Nat) :
    (reportMarshal h r storage len).length = storage.length := by
  rw [reportMarshal_eq]
  simp only [List.length_take, List.length_append, length_wireCollect, List.length_drop,
    List.length_replicate]
  omega

/-- Whatever follows a record on the wire, the receiving host reads the record. -/
theorem reportUnmarshal_wire (h : Host) (r : ReportCollect) (rest : List UInt8) :
    reportUnmarshal h (wireCollect r ++ rest) = r := by
  obtain ⟨latency, count, pkts, duration, start, bytes⟩ := r
  simp only [reportUnmarshal, wireCollect, List.append_assoc, ReportCollect.mk.injEq]
  refine ⟨htonl_load ?_, htonl_load ?_, htonl_load ?_, netHtonll_load ?_, netHtonll_load ?_,
    netHtonll_load ?_⟩ <;>
  simp [List.drop_append, List.drop_eq_nil_of_le]

/-! ### The report exchange (`talk.c`) -/

/-- The message `_talk_receiver_report_exchange()` builds. -/
def reportPayload (h : Host) (size : PayloadSize) (r : ReportCollect) : TalkPayload :=
  { TalkPayload.zero with
    flags := bitSet 0 TalkOp.report.bit
    buf := reportMarshal h r TalkPayload.zero.buf size.val
    bufSize := by rw [length_reportMarshal, TalkPayload.zero.bufSize] }

/-- `_talk_receiver_report_exchange()`. -/
def talkReceiverReportExchange (e : Endpoint) (h : Host) (workerSelf : UInt64)
    (size : PayloadSize) (r : ReportCollect) (script : List IoResult) (wire : List UInt8) :
    Option (IoReturn × List UInt8 × List IoResult) :=
  talkSend e h workerSelf .talkReportExchange size (reportPayload h size r) script wire

/-- `_talk_sender_report_exchange()`: the record after it, or the `errno` it failed
with. -/
def talkSenderReportExchange (e : Endpoint) (h : Host) (size : PayloadSize)
    (script : List IoResult) (stream : List UInt8) : Option (Except Errno ReportCollect) :=
  match talkRecv e h .talkReportExchange size TalkPayload.zero script stream with
  | none => none
  | some ((.err err, _), _) => some (.error err)
  | some ((.ok _, p), _) =>
    if p.has .report then some (.ok (reportUnmarshal h p.buf)) else some (.error .msgUnexpected)

/-- What of a message's `buf` the report exchange carries starts with the record. -/
theorem take_buf_reportPayload (h : Host) (size : PayloadSize) (r : ReportCollect) :
    ∃ rest, (reportPayload h size r).buf.take (talkLen .talkReportExchange size - talkHdrSize)
      = wireCollect r ++ rest := by
  have hmin := size.min
  have hlen : reportCollectSize ≤ talkLen .talkReportExchange size - talkHdrSize := by
    simp only [talkLen, talkPayloadMinSize, talkHdrSize, reportCollectSize] at *
    rw [if_neg (by decide)]
    omega
  have hbuf : reportCollectSize ≤ TalkPayload.zero.buf.length :=
    TalkPayload.zero.bufSize.symm ▸ by decide
  dsimp only [reportPayload]
  generalize TalkPayload.zero.buf = storage at hbuf
  rw [reportMarshal_eq, List.take_take, List.take_append,
    List.take_of_length_le (by rw [length_wireCollect]; omega)]
  exact ⟨_, rfl⟩

/-- The record can be read back from the message. -/
theorem reportUnmarshal_reportPayload (rx tx : Host) (size : PayloadSize) (r : ReportCollect) :
    reportUnmarshal rx (reportPayload tx size r).buf = r := by
  obtain ⟨rest, hrest⟩ := take_buf_reportPayload tx size r
  rw [← List.take_append_drop (talkLen .talkReportExchange size - talkHdrSize)
    (reportPayload tx size r).buf, hrest, List.append_assoc, reportUnmarshal_wire]

/-- A connection whose report exchange is over: the receiver of the stream returned
from sending `r`, and the sender of the stream from receiving it, with `s` as its
record. -/
def ReportExchanged (receiver : Endpoint) (hosts : Endpoint → Host) (size : PayloadSize)
    (r s : ReportCollect) : Prop :=
  ∃ workerSelf wscript wscript' n wire rscript,
    talkReceiverReportExchange receiver (hosts receiver) workerSelf size r wscript []
      = some (.ok n, wire, wscript')
    ∧ talkSenderReportExchange receiver.peer (hosts receiver.peer) size rscript wire
      = some (.ok s)

/-- **The sender ends with the receiver's record.** -/
theorem reportExchanged_eq {receiver : Endpoint} {hosts : Endpoint → Host} {size : PayloadSize}
    {r s : ReportCollect} (h : ReportExchanged receiver hosts size r s) : s = r := by
  obtain ⟨workerSelf, wscript, wscript', n, wire, rscript, hsend, hrecv⟩ := h
  have hwire := talkSend_ok hsend
  rw [List.nil_append, ← List.append_nil (talkSendBuf ..)] at hwire
  subst hwire
  unfold talkSenderReportExchange at hrecv
  split at hrecv
  · cases hrecv
  · cases hrecv
  · rename_i p _ htalk
    obtain ⟨hsame, -⟩ := talkRecv_ok htalk
    split at hrecv
    · obtain ⟨rest, hrest⟩ := take_buf_reportPayload (hosts receiver) size r
      have hpbuf : p.buf = wireCollect r
          ++ (rest ++ p.buf.drop (talkLen .talkReportExchange size - talkHdrSize)) := by
        rw [← List.append_assoc, ← hrest, ← hsame.buf, List.take_append_drop]
      simp only [Option.some.injEq, Except.ok.injEq] at hrecv
      rw [← hrecv, hpbuf, reportUnmarshal_wire]
    · cases hrecv

theorem reportPayload_flags (h : Host) (size : PayloadSize) (r : ReportCollect) :
    (reportPayload h size r).flags = bitSet 0 TalkOp.report.bit := rfl

/-- The exchange completes on any transport that keeps moving bytes, and leaves the
receiver's record on both sides. -/
theorem reportExchanged_self (receiver : Endpoint) (hosts : Endpoint → Host) (size : PayloadSize)
    (r : ReportCollect) : ReportExchanged receiver hosts size r r := by
  have hff : (reportPayload (hosts receiver) size r).has .forceFail = false := by
    rw [TalkPayload.has, reportPayload_flags]
    decide
  let len := talkLen .talkReportExchange size
  obtain ⟨wscript', hsend, -, -⟩ := talkSend_splits receiver (hosts receiver) 0
    .talkReportExchange size (reportPayload (hosts receiver) size r)
    (splits_replicate _ len) (by simp [len])
  rw [List.nil_append] at hsend
  obtain ⟨p, rscript', hrecv, hsame, -, -⟩ := talkRecv_splits receiver.peer (hosts receiver)
    (hosts receiver.peer) 0 .talkReportExchange size (reportPayload (hosts receiver) size r)
    TalkPayload.zero hff (splits_replicate _ len) (by simp [len])
  rw [List.append_nil] at hrecv
  have hrep : p.has .report = true := by
    rw [TalkPayload.has, hsame.flags, reportPayload_flags]
    decide
  have hdone : talkSenderReportExchange receiver.peer (hosts receiver.peer) size
      (List.replicate len (.ret 1)) (talkSendBuf (hosts receiver) 0 .talkReportExchange size
        (reportPayload (hosts receiver) size r))
      = some (.ok (reportUnmarshal (hosts receiver.peer) p.buf)) := by
    simp [talkSenderReportExchange, hrecv, hrep]
  have hexch : ReportExchanged receiver hosts size r
      (reportUnmarshal (hosts receiver.peer) p.buf) :=
    ⟨_, _, _, _, _, _, hsend, hdone⟩
  rwa [reportExchanged_eq hexch] at hexch

/-! ### report_worker_combine -/

/-- The body of the inner loop of `report_worker_combine()`. -/
def combineCollect (main c : ReportCollect) : ReportCollect where
  talkLatencyUs := main.talkLatencyUs + c.talkLatencyUs
  talkCount := main.talkCount + c.talkCount
  talkStreamRecvPkts := main.talkStreamRecvPkts + c.talkStreamRecvPkts
  -- Take the greater value.
  talkStreamTimeDuration :=
    if main.talkStreamTimeDuration > c.talkStreamTimeDuration then main.talkStreamTimeDuration
    else c.talkStreamTimeDuration
  -- Take the lesser value.
  talkStreamTimeStart :=
    if main.talkStreamTimeStart > c.talkStreamTimeStart then c.talkStreamTimeStart
    else main.talkStreamTimeStart
  talkStreamRecvBytes := main.talkStreamRecvBytes + c.talkStreamRecvBytes

/-- `report_worker_combine()`: `main` is the record of the main thread, `workers` the
list that starts at `current->next`. -/
def reportWorkerCombine (asynchronous : Bool) (main : Dir → ReportCollect)
    (workers : List (Dir → ReportCollect)) (j : Dir) : ReportCollect :=
  let i := workers.length
  let r := (workers.map (· j)).foldl combineCollect (main j)
  if i = 0 then r
  else
    { r with
      talkLatencyUs := r.talkLatencyUs / UInt32.ofNat (if asynchronous then i / 2 else i) }

theorem combineCollect_comm (main a b : ReportCollect) :
    combineCollect (combineCollect main a) b = combineCollect (combineCollect main b) a := by
  simp only [combineCollect, ReportCollect.mk.injEq]
  refine ⟨?_, ?_, ?_, ?_, ?_, ?_⟩
  · rw [UInt32.add_assoc, UInt32.add_comm a.talkLatencyUs, ← UInt32.add_assoc]
  · rw [UInt32.add_assoc, UInt32.add_comm a.talkCount, ← UInt32.add_assoc]
  · rw [UInt32.add_assoc, UInt32.add_comm a.talkStreamRecvPkts, ← UInt32.add_assoc]
  · simp only [gt_iff_lt, UInt64.lt_iff_toNat_lt]
    apply UInt64.toNat_inj.mp
    (repeat' split) <;> omega
  · simp only [gt_iff_lt, UInt64.lt_iff_toNat_lt]
    apply UInt64.toNat_inj.mp
    (repeat' split) <;> omega
  · rw [UInt64.add_assoc, UInt64.add_comm a.talkStreamRecvBytes, ← UInt64.add_assoc]

/-- The order of the worker list does not matter. -/
theorem reportWorkerCombine_perm (asynchronous : Bool) (main : Dir → ReportCollect) (j : Dir)
    {ws ws' : List (Dir → ReportCollect)} (h : (ws.map (· j)).Perm (ws'.map (· j))) :
    reportWorkerCombine asynchronous main ws j = reportWorkerCombine asynchronous main ws' j := by
  have hlen : ws.length = ws'.length := by simpa using h.length_eq
  have hfold := h.foldl_eq' (fun x _ y _ z => combineCollect_comm z x y) (main j)
  simp only [reportWorkerCombine, hlen, hfold]

/-! ### The two reports of one test -/

/-- A connection at the end of a test: the reports of its two workers. -/
structure ReportedConnection where
  /-- The directions this connection tested. -/
  tested : Dir → Bool
  /-- The reports of the worker at each end. -/
  report : Endpoint → Dir → ReportCollect

/-- Every tested direction of the connection has been through the report exchange,
and the records of the other direction are as `current_fork()` made them. -/
def ReportedConnection.Complete (hosts : Endpoint → Host) (size : PayloadSize)
    (c : ReportedConnection) : Prop :=
  ∀ d, if c.tested d then
      ReportExchanged d.receiver hosts size (c.report d.receiver d) (c.report d.sender d)
    else ∀ e, c.report e d = .zero

theorem ReportedConnection.Complete.agree {hosts : Endpoint → Host} {size : PayloadSize}
    {c : ReportedConnection} (h : c.Complete hosts size) (d : Dir) :
    c.report .listener d = c.report .connector d := by
  have hd := h d
  split at hd
  · have heq := reportExchanged_eq hd
    cases d with
    | straight => exact heq.symm
    | reverse => exact heq
  · rw [hd, hd]

/-- **Both endpoints report the same test.** The connections of a test are listed by
each process in an order of its own; once all of them have completed the report
exchange, `report_worker_combine` produces the same record for every direction on the
listener and on the connector, whatever the receivers measured, on hosts of any byte
order. -/
theorem reportWorkerCombine_agree (asynchronous : Bool) (hosts : Endpoint → Host)
    (size : PayloadSize) (conns : List ReportedConnection)
    (hconns : ∀ c ∈ conns, c.Complete hosts size)
    (workers : Endpoint → List (Dir → ReportCollect))
    (hworkers : ∀ e, (workers e).Perm (conns.map (·.report e))) (d : Dir) :
    reportWorkerCombine asynchronous (fun _ => .zero) (workers .listener) d
      = reportWorkerCombine asynchronous (fun _ => .zero) (workers .connector) d := by
  apply reportWorkerCombine_perm
  have hl := (hworkers .listener).map (· d)
  have hc := (hworkers .connector).map (· d)
  have hsame : (conns.map (·.report .listener)).map (· d)
      = (conns.map (·.report .connector)).map (· d) := by
    rw [List.map_map, List.map_map]
    exact List.map_congr_left fun c hmem => (hconns c hmem).agree d
  exact hl.trans (hsame ▸ hc.symm)

/-- Two workers that tested the straight direction, listed in opposite orders. -/
theorem reportWorkerCombine_agree_two :
    reportWorkerCombine false (fun _ => .zero)
        [fun d => if d = .straight then ⟨900, 100, 99, 3000000, 5, 141768⟩ else .zero,
          fun d => if d = .straight then ⟨1100, 100, 100, 3100000, 7, 143200⟩ else .zero] .straight
      = reportWorkerCombine false (fun _ => .zero)
        [fun d => if d = .straight then ⟨1100, 100, 100, 3100000, 7, 143200⟩ else .zero,
          fun d => if d = .straight then ⟨900, 100, 99, 3000000, 5, 141768⟩
            else .zero] .straight := by
  let r₁ : ReportCollect := ⟨900, 100, 99, 3000000, 5, 141768⟩
  let r₂ : ReportCollect := ⟨1100, 100, 100, 3100000, 7, 143200⟩
  let conn (r : ReportCollect) : ReportedConnection :=
    ⟨fun d => d = .straight, fun _ d => if d = .straight then r else .zero⟩
  let hosts (e : Endpoint) : Host :=
    if e = .connector then ⟨.little, .inlineFunction⟩ else ⟨.big, .clangMacro⟩
  have hconn : ∀ r, (conn r).Complete hosts ⟨1432, by decide, by decide⟩ := by
    intro r d
    cases d with
    | straight => exact reportExchanged_self _ _ _ r
    | reverse => exact fun _ => rfl
  exact reportWorkerCombine_agree false hosts ⟨1432, by decide, by decide⟩ [conn r₁, conn r₂]
    (by
      intro c hc
      simp only [List.mem_cons, List.not_mem_nil, or_false] at hc
      rcases hc with rfl | rfl <;> exact hconn _)
    (fun e =>
      if e = .listener then [(conn r₁).report e, (conn r₂).report e]
      else [(conn r₂).report e, (conn r₁).report e])
    (by
      intro e
      cases e with
      | listener => exact .refl _
      | connector => exact .swap _ _ _)
    .straight

end Ubwt
