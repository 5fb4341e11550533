import Ubwt.Config.Assertions
import Ubwt.Net.Socket
import Ubwt.Runtime.Clock
import Ubwt.Talk.Recount
import Ubwt.Talk.Recv

/-!
# Ubwt.Talk.Accounting

`_talk_receiver_stream`, and the figures it records.

The packet loop ends with the count, or earlier with the first call of `_talk_recv` that fails: on
`EAGAIN` the stream is over, on any other failure the program is. **Packets and bytes are those of
the calls that succeeded**, and the loop is short of the count exactly if it ended on `EAGAIN`
(`streamRecvLoop_left`).

The time of that last call is not a time of the stream, so that the time-out is taken off again.
The subtraction is one of unsigned words, of a product of `int`s. The call took that long, and so
it does not go below zero **as long as an `int` holds the product** (`streamDuration_eq_iff`),
which is what the bound of `-T` sees to.
-/

namespace Ubwt

open Lib Lib.Posix

/-! ### _talk_receiver_stream -/

/-- What a worker has when it receives a stream. -/
structure ReceiverSetting where
  endpoint : Endpoint
  host : Host
  workerSelf : UInt64
  size : PayloadSize
  /-- Whether `setsockopt()` takes a time-out. -/
  setTimeout : UInt16 → Bool
  /-- The answers to the writes of STREAM START and of STREAM END. -/
  startWrite : List IoResult
  endWrite : List IoResult
  /-- What `datetime_now_us()` returns before the first packet, and after the last. -/
  start : UInt64
  now : UInt64
  /-- What `current_time_elapsed()` returns then. -/
  uptime : UInt64
  /-- How many of the other workers have a weak stream. -/
  othersWeak : Nat

/-- One call of `_talk_recv()`: what it returns, and how long it takes. -/
structure RecvCall where
  ret : IoReturn
  us : Nat
  deriving Repr, DecidableEq

/-- `_talk_recv()` outside of the HANDSHAKE stage, into a packet that held `prior`. -/
def talkRecvSocket (h : Host) (size : PayloadSize) (prior : TalkPayload) (s : Socket) :
    Option (RecvCall × TalkPayload × Socket) :=
  let len := talkLen .talkStream size
  match s.read len with
  | none => none
  | some (ret, got, us, s) =>
      let (ret, pkt) := talkRecvFinish h len ret (prior.overlay h.order got)
      some (⟨ret, us⟩, pkt, s)

/-- How the packet loop ends, with its `i` and its `len`. -/
inductive LoopEnd
  | left (i : UInt32) (len : UInt64)
  | fatal
  deriving Repr, DecidableEq

/-- The packet loop, with `n` packets to come. -/
def streamRecvLoop (h : Host) (size : PayloadSize) :
    Nat → UInt32 → UInt64 → TalkPayload → Socket → Option LoopEnd
  | 0, i, len, _, _ => some (.left i len)
  | n + 1, i, len, p, s =>
      match talkRecvSocket h size p s with
      | none => none
      | some (⟨.ok ret, _⟩, p, s) =>
          streamRecvLoop h size n (i + 1) (len + UInt64.ofNat ret) p s
      | some (⟨.err .eagain, _⟩, _, _) => some (.left i len)
      | some (⟨.err _, _⟩, _, _) => some .fatal

/-- The time of a stream that ended with `i` packets of `count`. -/
def streamDuration (run : UInt16) (start now : UInt64) (i count : UInt32) : UInt64 :=
  -- `net_timeout_talk_stream_run * 1000000` is the product of `int`s that the minimum time has.
  now - start - (if i ≠ count then streamThreshold run else 0)

/-- How `_talk_receiver_stream()` ends. -/
inductive StreamReturn
  /-- It returns 0, or 1 if a worker has a weak stream. -/
  | ret (weak : Bool)
  /-- It returns -1. -/
  | failed (origin : String)
  /-- `error_handler()` at level FATAL. -/
  | fatal (origin : String)
  | halt (h : Halt)
  deriving Repr, DecidableEq

/-- STREAM START. -/
def streamStartPayload (count : UInt32) : TalkPayload :=
  { TalkPayload.zero with flags := bitSet 0 TalkOp.streamStart.bit, count := count }

/-- STREAM END, and STREAM WEAK with it. -/
def streamEndPayload (weak : Bool) (t : UInt64) : TalkPayload :=
  if weak then
    { TalkPayload.zero with
      flags := bitSet (bitSet 0 TalkOp.streamEnd.bit) TalkOp.streamWeak.bit
      weakTime := t }
  else { TalkPayload.zero with flags := bitSet 0 TalkOp.streamEnd.bit }

section

variable (env : Env) (cfg : Config) (v : ReceiverSetting)

/-- From the end of the loop on. -/
def receiverStreamEnd (count i : UInt32) (len : UInt64) (wire : List UInt8) (r : ReportCollect) :
    Option (StreamReturn × ReportCollect × List UInt8) :=
  if !v.setTimeout cfg.netTimeoutTalkStreamEnd then
    some (.fatal "_talk_timeout(): net_timeout_set()", r, wire)
  else
    let t := streamDuration cfg.netTimeoutTalkStreamRun v.start v.now i count
    match cAssert env (t < v.uptime) "t < current_time_elapsed()" with
    | .error halt => some (.halt halt, r, wire)
    | .ok () =>
        let r := { r with
          talkStreamTimeDuration := t
          talkStreamRecvPkts := i
          talkStreamRecvBytes := len }
        let weak := decide (t < streamThreshold cfg.talkStreamMinimumTime)
        match talkSend v.endpoint v.host v.workerSelf .talkStream v.size
            (streamEndPayload weak t) v.endWrite wire with
        | none => none
        | some (.err _, wire, _) =>
            some (.failed "_talk_receiver_stream(): _talk_send()", r, wire)
        | some (.ok _, wire, _) =>
            if !v.setTimeout cfg.netTimeoutDefault then
              some (.fatal "_talk_timeout(): net_timeout_set()", r, wire)
            else some (.ret (weak || decide (0 < v.othersWeak)), r, wire)

/-- `_talk_receiver_stream()`: what it returns, the record it leaves and what it has written. The
barriers, and what the workers share, are those of `Ubwt.Talk.Workers`. -/
def talkReceiverStream (count : UInt32) (s : Socket) (wire : List UInt8) (r : ReportCollect) :
    Option (StreamReturn × ReportCollect × List UInt8) :=
  match talkSend v.endpoint v.host v.workerSelf .talkStream v.size (streamStartPayload count)
      v.startWrite wire with
  | none => none
  | some (.err _, wire, _) => some (.failed "_talk_receiver_stream(): _talk_send()", r, wire)
  | some (.ok _, wire, _) =>
      let r := { r with talkStreamTimeStart := v.start }
      if !v.setTimeout cfg.netTimeoutTalkStreamRun then
        some (.fatal "_talk_timeout(): net_timeout_set()", r, wire)
      else
        match streamRecvLoop v.host v.size count.toNat 0 0 TalkPayload.zero s with
        | none => none
        | some .fatal => some (.fatal "_talk_receiver_stream(): _talk_recv()", r, wire)
        | some (.left i len) => receiverStreamEnd env cfg v count i len wire r

end

/-! ### The calls -/

/-- The call succeeded. -/
def RecvCall.succeeded (c : RecvCall) : Bool :=
  match c.ret with
  | .ok _ => true
  | .err _ => false

/-- The calls of `_talk_recv()` that are made for `n` packets, up to the first that fails. -/
def recvCalls (h : Host) (size : PayloadSize) :
    Nat → TalkPayload → Socket → Option (List RecvCall)
  | 0, _, _ => some []
  | n + 1, p, s =>
      match talkRecvSocket h size p s with
      | none => none
      | some (c, p, s) =>
          if c.succeeded then (recvCalls h size n p s).map (c :: ·) else some [c]

/-- How many of the calls succeeded. -/
def received (calls : List RecvCall) : Nat := calls.countP RecvCall.succeeded

/-- The last call returned `EAGAIN`. -/
def LeftOnEagain (calls : List RecvCall) : Prop :=
  ∃ c, calls.getLast? = some c ∧ c.ret = .err .eagain

/-- The time of all calls. -/
def callsUs (calls : List RecvCall) : Nat := (calls.map RecvCall.us).sum

/-- The record is that of the calls. -/
structure ReceiverAccounted (cfg : Config) (count : UInt32) (calls : List RecvCall)
    (r : ReportCollect) : Prop where
  pkts_le : r.talkStreamRecvPkts ≤ count
  pkts : r.talkStreamRecvPkts.toNat = received calls
  bytes : r.talkStreamRecvBytes.toNat
    = r.talkStreamRecvPkts.toNat * cfg.talkPayloadCurrentSize.toNat
  short : r.talkStreamRecvPkts < count ↔ LeftOnEagain calls

/-- The recorded time is what is left of the time between the readings. -/
def DurationExact (run : UInt16) (count : UInt32) (start now : UInt64) (r : ReportCollect) :
    Prop :=
  r.talkStreamTimeDuration.toNat
      + (if r.talkStreamRecvPkts < count then run.toNat * 1000000 else 0) + start.toNat
    = now.toNat

/-! ### One call -/

variable {h : Host} {size : PayloadSize} {p p' : TalkPayload} {s s' : Socket} {c : RecvCall}
  {limit : Nat}

/-- A call is a read loop, and what `_talk_recv()` makes of its result. -/
theorem talkRecvSocket_inv (hcall : talkRecvSocket h size p s = some (c, p', s')) :
    ∃ ret got, s.read (talkLen .talkStream size) = some (ret, got, c.us, s')
      ∧ talkRecvFinish h (talkLen .talkStream size) ret (p.overlay h.order got) = (c.ret, p') := by
  unfold talkRecvSocket at hcall
  dsimp only at hcall
  split at hcall
  · cases hcall
  · rename_i ret got us s₁ hread
    cases hcall
    exact ⟨ret, got, hread, rfl⟩

/-- The end of `_talk_recv()` makes no `EAGAIN` of its own. -/
theorem talkRecvFinish_eagain {len : Nat} {ret : IoReturn}
    (hfin : talkRecvFinish h len ret p = (.err .eagain, p')) : ret = .err .eagain := by
  unfold talkRecvFinish at hfin
  dsimp only at hfin
  generalize (if ret = .ok len then p.toHost h else p) = decoded at hfin
  by_cases hff : decoded.has .forceFail = true
  · rw [if_pos hff] at hfin
    cases hfin
  · rw [if_neg hff] at hfin
    cases hfin
    rfl

/-- **A call that succeeds brings a packet.** -/
theorem talkRecvSocket_ok {n : Nat} (hcall : talkRecvSocket h size p s = some (c, p', s'))
    (hret : c.ret = .ok n) : n = size.val := by
  obtain ⟨ret, got, hread, hfin⟩ := talkRecvSocket_inv hcall
  rw [hret] at hfin
  obtain ⟨rfl, -⟩ := talkRecvFinish_ok hfin
  exact Socket.read_ok hread

/-- **A call that fails with `EAGAIN` has waited for it.** -/
theorem talkRecvSocket_eagain (hlast : s.TimeoutsLast limit)
    (hcall : talkRecvSocket h size p s = some (c, p', s')) (hret : c.ret = .err .eagain) :
    limit ≤ c.us := by
  obtain ⟨ret, got, hread, hfin⟩ := talkRecvSocket_inv hcall
  rw [hret] at hfin
  obtain rfl := talkRecvFinish_eagain hfin
  exact Socket.read_eagain hlast hread

theorem talkRecvSocket_timeoutsLast (hlast : s.TimeoutsLast limit)
    (hcall : talkRecvSocket h size p s = some (c, p', s')) : s'.TimeoutsLast limit := by
  obtain ⟨ret, got, hread, -⟩ := talkRecvSocket_inv hcall
  exact Socket.read_timeoutsLast hlast hread

/-! ### The loop -/

@[simp] theorem received_nil : received [] = 0 := rfl

theorem received_ok {n : Nat} (hret : c.ret = .ok n) (calls : List RecvCall) :
    received (c :: calls) = received calls + 1 := by
  rw [received, List.countP_cons_of_pos, received]
  rw [RecvCall.succeeded, hret]

theorem received_err {e : Errno} (hret : c.ret = .err e) : received [c] = 0 := by
  rw [received, List.countP_cons_of_neg, List.countP_nil]
  rw [RecvCall.succeeded, hret]
  exact Bool.false_ne_true

theorem not_leftOnEagain_nil : ¬ LeftOnEagain [] := by
  rintro ⟨c, hlast, -⟩
  cases hlast

theorem leftOnEagain_singleton : LeftOnEagain [c] ↔ c.ret = .err .eagain := by
  constructor
  · rintro ⟨c', hlast, hret⟩
    cases hlast
    exact hret
  · intro hret
    exact ⟨c, rfl, hret⟩

/-- A call that succeeds is not the one the loop ends with. -/
theorem leftOnEagain_ok {n : Nat} (hret : c.ret = .ok n) (calls : List RecvCall) :
    LeftOnEagain (c :: calls) ↔ LeftOnEagain calls := by
  cases calls with
  | nil =>
      refine iff_of_false ?_ not_leftOnEagain_nil
      rw [leftOnEagain_singleton, hret]
      exact fun h => by cases h
  | cons c' calls => rw [LeftOnEagain, LeftOnEagain, List.getLast?_cons_cons]

/-- **Where the loop ends.** It has counted the calls that succeeded and their bytes, and is short
of its packets exactly if its last call failed with `EAGAIN`. -/
theorem streamRecvLoop_left {n : Nat} {i i' : UInt32} {len len' : UInt64}
    (hloop : streamRecvLoop h size n i len p s = some (.left i' len')) :
    ∃ calls, recvCalls h size n p s = some calls
      ∧ i' = i + UInt32.ofNat (received calls)
      ∧ len' = len + UInt64.ofNat (received calls * size.val)
      ∧ received calls ≤ n ∧ (received calls < n ↔ LeftOnEagain calls) := by
  induction n generalizing i len p s with
  | zero =>
      cases hloop
      refine ⟨[], rfl, by simp, by simp, Nat.le_refl 0, ?_⟩
      exact iff_of_false (Nat.lt_irrefl 0) not_leftOnEagain_nil
  | succ n ih =>
      rw [streamRecvLoop] at hloop
      split at hloop
      · cases hloop
      · rename_i ret us p₁ s₁ hcall
        obtain rfl := talkRecvSocket_ok hcall rfl
        obtain ⟨calls, hcalls, hi, hlen, hle, hleft⟩ := ih hloop
        refine ⟨⟨.ok size.val, us⟩ :: calls, ?_, ?_, ?_, ?_, ?_⟩
        · simp only [recvCalls, hcall, RecvCall.succeeded, if_true, hcalls, Option.map_some]
        · rw [received_ok rfl, hi, UInt32.ofNat_add, UInt32.add_assoc,
            UInt32.add_comm (UInt32.ofNat _)]
          rfl
        · rw [received_ok rfl, hlen, Nat.succ_mul, UInt64.ofNat_add, UInt64.add_assoc,
            UInt64.add_comm (UInt64.ofNat _)]
        · rw [received_ok rfl]
          omega
        · rw [received_ok rfl, leftOnEagain_ok rfl, ← hleft]
          omega
      · rename_i us p₁ s₁ hcall
        cases hloop
        refine ⟨[⟨.err .eagain, us⟩], ?_, ?_, ?_, ?_, ?_⟩
        · rw [recvCalls, hcall]
          rfl
        · rw [received_err rfl]
          simp
        · rw [received_err rfl]
          simp
        · rw [received_err rfl]
          exact Nat.zero_le _
        · rw [received_err rfl]
          exact iff_of_true (Nat.succ_pos n) (leftOnEagain_singleton.mpr rfl)
      · cases hloop

/-- The calls of a loop that ended on `EAGAIN` took as long as the time-out. -/
theorem callsUs_eagain {n : Nat} {calls : List RecvCall} (hlast : s.TimeoutsLast limit)
    (hcalls : recvCalls h size n p s = some calls) (hleft : LeftOnEagain calls) :
    limit ≤ callsUs calls := by
  induction n generalizing calls p s with
  | zero =>
      cases hcalls
      exact absurd hleft not_leftOnEagain_nil
  | succ n ih =>
      rw [recvCalls] at hcalls
      split at hcalls
      · cases hcalls
      · rename_i c p₁ s₁ hcall
        split at hcalls
        · rename_i hok
          obtain ⟨calls', hcalls', rfl⟩ := Option.map_eq_some_iff.mp hcalls
          have hret : ∃ k, c.ret = .ok k := by
            unfold RecvCall.succeeded at hok
            split at hok
            · rename_i k hk
              exact ⟨k, hk⟩
            · cases hok
          obtain ⟨k, hk⟩ := hret
          have hrest := ih (talkRecvSocket_timeoutsLast hlast hcall) hcalls'
            ((leftOnEagain_ok hk calls').mp hleft)
          unfold callsUs at *
          rw [List.map_cons, List.sum_cons]
          omega
        · cases hcalls
          have hus := talkRecvSocket_eagain hlast hcall (leftOnEagain_singleton.mp hleft)
          unfold callsUs
          simpa using hus

/-! ### The time -/

variable {run : UInt16} {start now : UInt64} {i count : UInt32}

/-- A whole stream has the time between the readings. -/
theorem streamDuration_whole (hclock : start.toNat ≤ now.toNat) :
    (streamDuration run start now count count).toNat + start.toNat = now.toNat := by
  rw [streamDuration, if_neg (fun hne => hne rfl), UInt64.sub_zero,
    UInt64.toNat_sub_of_le _ _ (UInt64.le_iff_toNat_le.mpr hclock)]
  omega

/-- **The time-out comes off again exactly if an `int` holds it.** -/
theorem streamDuration_eq_iff (hne : i ≠ count)
    (hclock : start.toNat + run.toNat * 1000000 ≤ now.toNat) :
    (streamDuration run start now i count).toNat + run.toNat * 1000000 + start.toNat = now.toNat
      ↔ run.toNat ≤ 2147 := by
  have houter := toNat_sub_emod (now - start) (streamThreshold run)
  have hinner := toNat_sub_emod now start
  have hthreshold := toNat_streamThreshold run
  have hrun := run.toNat_lt
  have hnow := now.toNat_lt
  have hbound := (streamThreshold run).toNat_lt
  rw [streamDuration, if_pos hne]
  generalize (now - start - streamThreshold run).toNat = duration at houter ⊢
  generalize (now - start).toNat = between at houter hinner
  generalize (streamThreshold run).toNat = threshold at houter hthreshold hbound
  have hbetween : between = now.toNat - start.toNat := by omega
  constructor
  · intro heq
    have hsame : threshold = run.toNat * 1000000 := by omega
    by_contra hlong
    rw [hsame] at hthreshold
    split at hthreshold <;> omega
  · intro hfits
    have hmod : run.toNat * 1000000 % 2 ^ 32 = run.toNat * 1000000 := Nat.mod_eq_of_lt (by omega)
    rw [hmod, if_pos (by omega)] at hthreshold
    omega

/-! ### The function -/

variable {env : Env} {cfg : Config} {v : ReceiverSetting} {wire wire' : List UInt8}
  {r r' : ReportCollect} {weak : Bool}

/-- What a call that returned 0 or 1 has put into the record. -/
theorem receiverStreamEnd_ret {len : UInt64}
    (hret : receiverStreamEnd env cfg v count i len wire r = some (.ret weak, r', wire')) :
    r' = { r with
      talkStreamTimeDuration := streamDuration cfg.netTimeoutTalkStreamRun v.start v.now i count
      talkStreamRecvPkts := i
      talkStreamRecvBytes := len } := by
  unfold receiverStreamEnd at hret
  split at hret
  · cases hret
  · dsimp only at hret
    split at hret
    · cases hret
    · split at hret
      · cases hret
      · cases hret
      · split at hret
        · cases hret
        · rw [Option.some.injEq, Prod.mk.injEq, Prod.mk.injEq] at hret
          exact hret.2.1.symm

/-- A call that returned 0 or 1 has left its loop on a count or on `EAGAIN`. -/
theorem talkReceiverStream_ret
    (hret : talkReceiverStream env cfg v count s wire r = some (.ret weak, r', wire')) :
    ∃ i len, streamRecvLoop v.host v.size count.toNat 0 0 TalkPayload.zero s = some (.left i len)
      ∧ r'.talkStreamRecvPkts = i ∧ r'.talkStreamRecvBytes = len
      ∧ r'.talkStreamTimeDuration
        = streamDuration cfg.netTimeoutTalkStreamRun v.start v.now i count := by
  unfold talkReceiverStream at hret
  split at hret
  · cases hret
  · cases hret
  · dsimp only at hret
    split at hret
    · cases hret
    · split at hret
      · cases hret
      · cases hret
      · rename_i i len hloop
        obtain rfl := receiverStreamEnd_ret hret
        exact ⟨i, len, hloop, rfl, rfl, rfl⟩

/-! ### Runs that return -/

/-- A datagram with a message is one call. -/
theorem talkRecvSocket_datagram (h : Host) (size : PayloadSize) (p : TalkPayload) (tx : Host) (workerSelf : UInt64) {pkt : TalkPayload}
    (hff : pkt.has .forceFail = false) (us : Nat) (script : List (Timed DatagramResult)) :
    ∃ rcvd, talkRecvSocket h size p
        (.udp (⟨.datagram (talkSendBuf tx workerSelf .talkStream size pkt), us⟩ :: script))
      = some (⟨.ok size.val, us⟩, rcvd, .udp script) ∧ rcvd.flags = pkt.flags := by
  have hsame := toHost_overlay tx h workerSelf .talkStream size pkt p
  have hlen := length_talkSendBuf tx workerSelf .talkStream size pkt
  have hpos : 0 < talkLen .talkStream size :=
    Nat.lt_of_lt_of_le (by decide : 0 < talkHdrSize) (talkHdrSize_le_talkLen .talkStream size)
  generalize talkSendBuf tx workerSelf .talkStream size pkt = buf at hsame hlen ⊢
  have hread : Socket.read (talkLen .talkStream size) (.udp (⟨.datagram buf, us⟩ :: script))
      = some (.ok (talkLen .talkStream size), buf, us, .udp script) := by
    have hwhole : netReadDatagrams (talkLen .talkStream size) (script.map Timed.answer) buf
        = some (.ok buf.length, buf, script.map Timed.answer) := by
      unfold netReadDatagrams
      split
      · rename_i hnil
        rw [hnil, if_neg (by omega)]
      · rename_i hcons
        rw [hcons, if_neg (by omega)]
    simp only [Socket.read, List.map_cons, netReadDatagrams, List.length_nil, if_pos hpos,
      Nat.sub_zero, List.nil_append, List.take_of_length_le hlen.le, hwhole, List.length_map,
      List.length_cons, Nat.add_sub_cancel_left]
    rw [hlen]
    simp [spent]
  have hnot : ((p.overlay h.order buf).toHost h).has .forceFail = false := by
    rw [TalkPayload.has, hsame.flags]
    exact hff
  refine ⟨(p.overlay h.order buf).toHost h, ?_, hsame.flags⟩
  simp only [talkRecvSocket, hread, talkRecvFinish_whole, hnot]
  rfl

/-- A time-out before anything came. -/
theorem talkRecvSocket_timeout (h : Host) (size : PayloadSize) (hff : p.has .forceFail = false) (us : Nat)
    (script : List (Timed DatagramResult)) :
    ∃ rcvd, talkRecvSocket h size p (.udp (⟨.fail .eagain, us⟩ :: script))
      = some (⟨.err .eagain, us⟩, rcvd, .udp script) := by
  have hpos : 0 < talkLen .talkStream size :=
    Nat.lt_of_lt_of_le (by decide : 0 < talkHdrSize) (talkHdrSize_le_talkLen .talkStream size)
  have hread : Socket.read (talkLen .talkStream size) (.udp (⟨.fail .eagain, us⟩ :: script))
      = some (.err .eagain, [], us, .udp script) := by
    simp [Socket.read, netReadDatagrams, hpos, spent]
  have hnot : (p.overlay h.order []).has .forceFail = false := by
    rw [TalkPayload.has, overlay_flags, flagsAfter, List.nil_append, List.length_nil,
      List.drop_zero, List.take_of_length_le (ByteOrder.length_store ..).le, ByteOrder.load_store]
    simpa [TalkPayload.has] using hff
  refine ⟨p.overlay h.order [], ?_⟩
  simp only [talkRecvSocket, hread, talkRecvFinish_fail, hnot]
  rfl

/-- The function returns if its messages go out, its loop ends and its assertion holds. -/
theorem talkReceiverStream_returns {len : UInt64} (hset : ∀ t, v.setTimeout t = true)
    (hstart : Splits [.eintr, .enobufs] v.startWrite)
    (hend : Splits [.eintr, .enobufs] v.endWrite)
    (hstartFuel : talkLen .talkStream v.size ≤ transfers v.startWrite)
    (hendFuel : talkLen .talkStream v.size ≤ transfers v.endWrite)
    (hloop : streamRecvLoop v.host v.size count.toNat 0 0 TalkPayload.zero s = some (.left i len))
    (huptime : streamDuration cfg.netTimeoutTalkStreamRun v.start v.now i count < v.uptime) :
    ∃ weak r' wire', talkReceiverStream env cfg v count s wire r = some (.ret weak, r', wire') := by
  obtain ⟨_, hsendStart, -, -⟩ := @talkSend_splits v.endpoint v.host v.workerSelf .talkStream
    v.size (streamStartPayload count) v.startWrite wire hstart hstartFuel
  have hsendEnd := fun (t : UInt64) (weak : Bool) (wire : List UInt8) =>
    @talkSend_splits v.endpoint v.host v.workerSelf .talkStream v.size
      (streamEndPayload weak t) v.endWrite wire hend hendFuel
  have htaken : ¬ (!true) = true := Bool.false_ne_true
  rw [talkReceiverStream, hsendStart]
  dsimp only
  rw [hset, hloop, if_neg htaken]
  dsimp only
  rw [receiverStreamEnd, hset, if_neg htaken]
  dsimp only
  rw [decide_eq_true huptime, cAssert_true]
  dsimp only
  obtain ⟨_, hsent, -, -⟩ := hsendEnd (streamDuration cfg.netTimeoutTalkStreamRun v.start v.now i
    count) (decide (streamDuration cfg.netTimeoutTalkStreamRun v.start v.now i count
      < streamThreshold cfg.talkStreamMinimumTime)) (wire ++ talkSendBuf v.host v.workerSelf
        .talkStream v.size (streamStartPayload count))
  rw [hsent]
  dsimp only
  rw [hset, if_neg htaken]
  exact ⟨_, _, _, rfl⟩

/-! ### Every run -/

/-- **Receiver accounting.** For every accepted command line, every count and every script of
results over TCP or UDP: if the function returns 0 or 1, the packets and bytes of the record are
those of the calls that succeeded, and the packets are short of the count exactly if the last call
failed with `EAGAIN`. If time-outs last as long as they are set to, and the clock has gone on for
at least the time of the calls, the recorded time is that between the readings less the
time-out. -/
theorem talkReceiverStream_accounted (hassert : env.ndebug = false) {args : List CString}
    (hcfg : configInit env args = .ok cfg)
    (hsize : v.size.val = cfg.talkPayloadCurrentSize.toNat)
    (hret : talkReceiverStream env cfg v count s wire r = some (.ret weak, r', wire')) :
    ∃ calls, recvCalls v.host v.size count.toNat TalkPayload.zero s = some calls
      ∧ ReceiverAccounted cfg count calls r'
      ∧ (s.TimeoutsLast (cfg.netTimeoutTalkStreamRun.toNat * 1000000) →
          v.start.toNat + callsUs calls ≤ v.now.toNat →
          DurationExact cfg.netTimeoutTalkStreamRun count v.start v.now r') := by
  obtain ⟨i, len, hloop, hpkts, hbytes, hduration⟩ := talkReceiverStream_ret hret
  obtain ⟨calls, hcalls, hi, hlen, hle, hleft⟩ := streamRecvLoop_left hloop
  have hcount := count.toNat_lt
  have hmax := v.size.max
  -- Neither sum wraps.
  have hpktsNat : r'.talkStreamRecvPkts.toNat = received calls := by
    rw [hpkts, hi, UInt32.zero_add, UInt32.toNat_ofNat_of_lt' (by unfold UInt32.size; omega)]
  have hbytesNat : r'.talkStreamRecvBytes.toNat = received calls * v.size.val := by
    have hprod : received calls * v.size.val ≤ 2 ^ 32 * talkPayloadMaxSize :=
      Nat.mul_le_mul (by omega) hmax
    unfold talkPayloadMaxSize at hprod
    rw [hbytes, hlen, UInt64.zero_add, UInt64.toNat_ofNat_of_lt' (by unfold UInt64.size; omega)]
  have hshort : r'.talkStreamRecvPkts < count ↔ LeftOnEagain calls := by
    rw [UInt32.lt_iff_toNat_lt, hpktsNat, hleft]
  refine ⟨calls, hcalls, ⟨?_, hpktsNat, ?_, hshort⟩, ?_⟩
  · rw [UInt32.le_iff_toNat_le, hpktsNat]
    exact hle
  · rw [hbytesNat, hpktsNat, hsize]
  · intro hlast hclock
    unfold DurationExact
    rw [hduration, ← hpkts]
    by_cases hagain : LeftOnEagain calls
    · have hlt := hshort.mpr hagain
      have hus := callsUs_eagain hlast hcalls hagain
      have hrun := configInit_streamRun hassert hcfg
      rw [if_pos hlt]
      exact (streamDuration_eq_iff (UInt32.ne_of_lt hlt) (by omega)).mpr (by omega)
    · have hall : r'.talkStreamRecvPkts = count := by
        rw [← UInt32.toNat_inj, hpktsNat]
        have := mt hleft.mp hagain
        omega
      rw [if_neg (mt hshort.mp hagain), hall]
      exact streamDuration_whole (by omega)

/-- A listener that waits for two packets, of which one comes: 1432 octets in 100 microseconds, and
5 seconds without another. -/
theorem talkReceiverStream_accounted_short :
    ∃ cfg v s weak r' wire', configInit ⟨false, false, fun _ _ => false⟩
        ["listener".toList, "0.0.0.0".toList] = .ok cfg
      ∧ talkReceiverStream ⟨false, false, fun _ _ => false⟩ cfg v 2 s [] .zero
          = some (.ret weak, r', wire')
      ∧ r'.talkStreamRecvPkts.toNat = 1 ∧ r'.talkStreamRecvBytes.toNat = 1432
      ∧ r'.talkStreamTimeDuration.toNat = 100 := by
  obtain ⟨cfg, hcfg, hsize, hrun⟩ : ∃ cfg, configInit ⟨false, false, fun _ _ => false⟩
        ["listener".toList, "0.0.0.0".toList] = .ok cfg
      ∧ cfg.talkPayloadCurrentSize = 1432 ∧ cfg.netTimeoutTalkStreamRun = 5 := ⟨_, rfl, rfl, rfl⟩
  let host : Host := ⟨.little, .inlineFunction⟩
  let size : PayloadSize := ⟨1432, by decide, by decide⟩
  let pkt : TalkPayload :=
    { TalkPayload.zero with flags := bitSet 0 TalkOp.streamRun.bit }
  let v : ReceiverSetting :=
    { endpoint := .listener, host := host, workerSelf := 7, size := size
      setTimeout := fun _ => true
      startWrite := List.replicate 1432 (.ret 1), endWrite := List.replicate 1432 (.ret 1)
      start := 1000000000, now := 1005000100, uptime := 60000000, othersWeak := 0 }
  let s : Socket := .udp [⟨.datagram (talkSendBuf host 7 .talkStream size pkt), 100⟩,
    ⟨.fail .eagain, 5000000⟩]
  have hfive : (5 : UInt16).toNat = 5 := rfl
  have hstart : v.start.toNat = 1000000000 := rfl
  have hnow : v.now.toNat = 1005000100 := rfl
  have hfuel : talkLen .talkStream size ≤ transfers (List.replicate 1432 (.ret 1)) :=
    ((show talkLen .talkStream size = 1432 from rfl).trans (transfers_replicate 1432).symm).le
  have hpkt : pkt.has .forceFail = false := by decide
  obtain ⟨rcvd, hfirst, hflags⟩ := talkRecvSocket_datagram host size TalkPayload.zero host 7 hpkt
    100 [⟨.fail .eagain, 5000000⟩]
  have hrcvd : rcvd.has .forceFail = false := by
    rw [TalkPayload.has, hflags]
    decide
  obtain ⟨rcvd', hsecond⟩ := talkRecvSocket_timeout host size hrcvd 5000000 []
  have hcalls : recvCalls v.host v.size 2 TalkPayload.zero s
      = some [⟨.ok 1432, 100⟩, ⟨.err .eagain, 5000000⟩] := by
    simp only [recvCalls, v, s, hfirst, hsecond, RecvCall.succeeded]
    rfl
  have hloop : streamRecvLoop v.host v.size (2 : UInt32).toNat 0 0 TalkPayload.zero s
      = some (.left 1 1432) := by
    change streamRecvLoop v.host v.size 2 0 0 TalkPayload.zero s = some (.left 1 1432)
    simp only [streamRecvLoop, v, s, hfirst, hsecond]
    rfl
  have hduration : (streamDuration 5 v.start v.now 1 2).toNat = 100 := by
    have heq := (@streamDuration_eq_iff 5 v.start v.now 1 2 (by decide) (by decide)).mpr
      (by decide)
    rw [hfive, hstart, hnow] at heq
    omega
  obtain ⟨weak, r', wire', hret⟩ : ∃ weak r' wire',
      talkReceiverStream ⟨false, false, fun _ _ => false⟩ cfg v 2 s [] .zero
        = some (.ret weak, r', wire') :=
    talkReceiverStream_returns (fun _ => rfl) (splits_replicate _ 1432) (splits_replicate _ 1432)
      hfuel hfuel hloop (by
        rw [hrun, UInt64.lt_iff_toNat_lt, hduration]
        exact (by norm_num : 100 < 60000000))
  obtain ⟨calls, hcalls', haccounted, hexact⟩ :=
    talkReceiverStream_accounted rfl hcfg (by rw [hsize]; rfl) hret
  obtain rfl : [⟨.ok 1432, 100⟩, ⟨.err .eagain, 5000000⟩] = calls :=
    Option.some.inj (hcalls.symm.trans hcalls')
  have hpkts : r'.talkStreamRecvPkts.toNat = 1 := haccounted.pkts
  have hlast : s.TimeoutsLast (cfg.netTimeoutTalkStreamRun.toNat * 1000000) := by
    rw [hrun]
    simp [Socket.TimeoutsLast, s]
  have htime := hexact hlast (by decide)
  have hshort : r'.talkStreamRecvPkts < 2 := by
    rw [UInt32.lt_iff_toNat_lt, hpkts]
    decide
  rw [DurationExact, if_pos hshort, hrun, hfive, hstart, hnow] at htime
  refine ⟨cfg, v, s, weak, r', wire', hcfg, hret, hpkts, ?_, ?_⟩
  · rw [haccounted.bytes, hpkts, hsize]
    rfl
  · omega

end Ubwt
