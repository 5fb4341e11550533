import Ubwt.Config.Basic
import Ubwt.Lib.Choreography
import Ubwt.Report

/-!
# Ubwt.Talk.Step

The exchanges of `talk_sender` and `talk_receiver`: what is said at each of them, what
the listening party checks, and where both go from there.

The two functions are two readings of one list of exchanges (`TalkStep`), and **an
exchange has one stage**: the sender and the receiver are in the same stage when they are
at the same exchange (`TalkStep.stage`), so the length of the message, which each of them
takes from its own stage, is the same. The list as a script for the two endpoints is
`talkScript`.
-/

namespace Ubwt

open Lib

/-! ### The exchanges -/

/-- One message of `talk_sender()` and `talk_receiver()`: `i` counts the iterations of
the handshake and the packets of a stream, `k` counts the streams. -/
inductive TalkStep
  | ping (i : Nat)
  | pong (i : Nat)
  | negotiate (k : Nat)
  | streamStart (k : Nat)
  | streamRun (k i : Nat)
  | streamEnd (k : Nat)
  | report
  | finish
  deriving Repr, DecidableEq

/-- `process.im_sender` and `process.im_receiver`. -/
inductive TalkRole
  | sender
  | receiver
  deriving Repr, DecidableEq

/-- What an endpoint does in a direction. -/
def Dir.role (d : Dir) (e : Endpoint) : TalkRole :=
  if d.sender = e then .sender else .receiver

namespace TalkStep

/-- The stage a party is in at an exchange. -/
def stage : TalkStep → Stage
  | ping _ => .talkHandshake
  | pong _ => .talkHandshake
  | negotiate _ => .talkNegotiation
  | streamStart _ => .talkStream
  | streamRun _ _ => .talkStream
  | streamEnd _ => .talkStream
  | report => .talkReportExchange
  | finish => .talkFinish

/-- Who says it. -/
def speaker : TalkStep → TalkRole
  | ping _ => .sender
  | pong _ => .receiver
  | negotiate _ => .sender
  | streamStart _ => .receiver
  | streamRun _ _ => .sender
  | streamEnd _ => .receiver
  | report => .receiver
  | finish => .sender

/-- The op the listening party waits for. -/
def op : TalkStep → TalkOp
  | ping _ => .ping
  | pong _ => .pong
  | negotiate _ => .countReq
  | streamStart _ => .streamStart
  | streamRun _ _ => .streamRun
  | streamEnd _ => .streamEnd
  | report => .report
  | finish => .finish

/-- The head of the handshake loop. -/
def handshake (iter : UInt16) (i : Nat) : TalkStep :=
  if i < iter.toNat then ping i else negotiate 0

/-- The head of the two `STREAM RUN` loops. -/
def stream (count : UInt32) (k i : Nat) : TalkStep :=
  if i < count.toNat then streamRun k i else streamEnd k

/-- Where the two functions go from an exchange, `none` being their return. `count k` is
the number of packets of stream `k`, and `restart k` the verdict after it. -/
def next (iter : UInt16) (count : Nat → UInt32) (restart : Nat → Bool) : TalkStep → Option TalkStep
  | ping i => some (pong i)
  | pong i => some (handshake iter (i + 1))
  | negotiate k => some (streamStart k)
  | streamStart k => some (stream (count k) k 0)
  | streamRun k i => some (stream (count k) k (i + 1))
  | streamEnd k => some (if restart k then negotiate (k + 1) else report)
  | report => some finish
  | finish => none

end TalkStep

/-! ### What is said -/

/-- The values that go into the messages of a party: its count and its latency, what
`net_buf_fill()` has put into the buffer of a stream, the time of a stream and whether it
was weak, and the record of the report. -/
structure TalkData where
  count : UInt32
  latency : UInt32
  fill : List UInt8
  fillSize : fill.length = talkPayloadMaxSize - talkHdrSize
  time : UInt64
  weak : Bool
  report : ReportCollect

/-- The message of an exchange. -/
def talkSay (h : Host) (iter : UInt16) (size : PayloadSize) (x : TalkData) :
    TalkStep → TalkPayload
  | .ping _ => { TalkPayload.zero with flags := bitSet 0 TalkOp.ping.bit, count := iter.toUInt32 }
  | .pong _ => { TalkPayload.zero with flags := bitSet 0 TalkOp.pong.bit, count := iter.toUInt32 }
  | .negotiate _ =>
      { TalkPayload.zero with
        flags := bitSet (bitSet 0 TalkOp.countReq.bit) TalkOp.latencyUs.bit
        count := x.count
        latency := x.latency }
  | .streamStart _ =>
      { TalkPayload.zero with flags := bitSet 0 TalkOp.streamStart.bit, count := x.count }
  | .streamRun _ i =>
      { TalkPayload.zero with
        flags := bitSet 0 TalkOp.streamRun.bit
        count := UInt32.ofNat i
        buf := x.fill
        bufSize := x.fillSize }
  | .streamEnd _ =>
      if x.weak then
        { TalkPayload.zero with
          flags := bitSet (bitSet 0 TalkOp.streamEnd.bit) TalkOp.streamWeak.bit
          weakTime := x.time }
      else { TalkPayload.zero with flags := bitSet 0 TalkOp.streamEnd.bit }
  | .report => reportPayload h size x.report
  | .finish => { TalkPayload.zero with flags := bitSet 0 TalkOp.finish.bit }

/-- The message of `_talk_send_abort()`. -/
def abortPayload : TalkPayload :=
  { TalkPayload.zero with flags := bitSet 0 TalkOp.forceFail.bit }

/-- The flags of a message. -/
def TalkStep.flags (weak : Bool) : TalkStep → UInt32
  | negotiate _ => bitSet (bitSet 0 TalkOp.countReq.bit) TalkOp.latencyUs.bit
  | streamEnd _ =>
      if weak then bitSet (bitSet 0 TalkOp.streamEnd.bit) TalkOp.streamWeak.bit
      else bitSet 0 TalkOp.streamEnd.bit
  | step => bitSet 0 step.op.bit

theorem talkSay_flags (h : Host) (iter : UInt16) (size : PayloadSize) (x : TalkData)
    (step : TalkStep) : (talkSay h iter size x step).flags = step.flags x.weak := by
  cases step with
  | streamEnd k =>
      simp only [talkSay, TalkStep.flags]
      split <;> rfl
  | ping | pong | negotiate | streamStart | streamRun | report | finish => rfl

/-- A message carries the op that is waited for. -/
theorem talkSay_has_op (h : Host) (iter : UInt16) (size : PayloadSize) (x : TalkData)
    (step : TalkStep) : (talkSay h iter size x step).has step.op = true := by
  rw [TalkPayload.has, talkSay_flags]
  generalize x.weak = weak
  cases step <;> dsimp only [TalkStep.flags, TalkStep.op] <;> revert weak <;> decide

/-- Only `_talk_send_abort()` forces a failure. -/
theorem talkSay_forceFail (h : Host) (iter : UInt16) (size : PayloadSize) (x : TalkData)
    (step : TalkStep) : (talkSay h iter size x step).has .forceFail = false := by
  rw [TalkPayload.has, talkSay_flags]
  generalize x.weak = weak
  cases step <;> dsimp only [TalkStep.flags, TalkStep.op] <;> revert weak <;> decide

/-! ### What is checked -/

/-- The checks on a message that `_talk_recv()` has returned, with the `errno` they set. The
flags of a PONG and of a stream packet are not looked at. -/
def talkCheck (iter : UInt16) (p : TalkPayload) : TalkStep → Except Errno Unit
  | .ping _ =>
      if p.has .ping then
        if p.count ≠ iter.toUInt32 then .error .einval else .ok ()
      else .error .msgUnexpected
  | .pong _ => if p.count ≠ iter.toUInt32 then .error .einval else .ok ()
  | .negotiate _ =>
      if p.has .countReq then
        if p.count < configTalkCountMax then
          if p.has .latencyUs then .ok () else .error .msgUnexpected
        else .error .einval
      else .error .msgUnexpected
  | .streamStart _ => if p.has .streamStart then .ok () else .error .msgUnexpected
  | .streamRun _ _ => .ok ()
  | .streamEnd _ => if p.has .streamEnd then .ok () else .error .msgUnexpected
  | .report => if p.has .report then .ok () else .error .msgUnexpected
  | .finish => if p.has .finish then .ok () else .error .msgUnexpected

/-- **What is said passes the checks**, but for a count that the receiver does not admit. -/
theorem talkCheck_talkSay {h : Host} {iter : UInt16} {size : PayloadSize} {x : TalkData}
    {step : TalkStep} {p : TalkPayload}
    (hflags : p.flags = (talkSay h iter size x step).flags)
    (hcount : p.count = (talkSay h iter size x step).count)
    (hadm : ∀ k, step = .negotiate k → x.count < configTalkCountMax) :
    talkCheck iter p step = .ok () := by
  have hop : p.has step.op = true := by
    rw [TalkPayload.has, hflags]
    exact talkSay_has_op h iter size x step
  cases step with
  | ping i => simp only [talkCheck, TalkStep.op] at hop ⊢; simp [hop, hcount, talkSay]
  | pong i => simp [talkCheck, hcount, talkSay]
  | negotiate k =>
      have hlatency : p.has .latencyUs = true := by
        rw [TalkPayload.has, hflags, talkSay_flags]
        dsimp only [TalkStep.flags]
        decide
      have hlt : p.count < configTalkCountMax := by
        rw [hcount]
        exact hadm k rfl
      simp only [talkCheck, TalkStep.op] at hop ⊢
      simp [hop, hlatency, hlt]
  | streamStart k => simp only [talkCheck, TalkStep.op] at hop ⊢; simp [hop]
  | streamRun k i => rfl
  | streamEnd k => simp only [talkCheck, TalkStep.op] at hop ⊢; simp [hop]
  | report => simp only [talkCheck, TalkStep.op] at hop ⊢; simp [hop]
  | finish => simp only [talkCheck, TalkStep.op] at hop ⊢; simp [hop]

/-! ### The script of a connection -/

/-- Where a party is on its connection: at an exchange of a direction, with the directions
that are still to come, or back from `process_run()`. -/
inductive TalkPos
  | talk (d : Dir) (rest : List Dir) (step : TalkStep)
  | returned
  deriving Repr, DecidableEq

/-- The start of the first of the directions. -/
def TalkPos.enter (iter : UInt16) : List Dir → TalkPos
  | [] => returned
  | d :: rest => talk d rest (.handshake iter 0)

/-- The next exchange, in this direction or in the one after it. -/
def TalkPos.next (iter : UInt16) (count : Dir → Nat → UInt32) (restart : Dir → Nat → Bool) :
    TalkPos → TalkPos
  | talk d rest step =>
      match step.next iter (count d) (restart d) with
      | some step => talk d rest step
      | none => enter iter rest
  | returned => returned

/-- The endpoint that speaks. -/
def TalkPos.speaker : TalkPos → Option Endpoint
  | talk d _ step =>
      match step.speaker with
      | .sender => some d.sender
      | .receiver => some d.receiver
  | returned => none

theorem TalkPos.speaker_talk (d : Dir) (rest : List Dir) (step : TalkStep) (e : Endpoint) :
    (talk d rest step).speaker = some e ↔ d.role e = step.speaker := by
  cases d <;> cases e <;> cases step <;> simp [speaker, Dir.role, Dir.sender, Dir.receiver,
    Endpoint.peer, TalkStep.speaker]

theorem TalkPos.speaker_talk_peer (d : Dir) (rest : List Dir) (step : TalkStep) (e : Endpoint) :
    (talk d rest step).speaker = some e.peer ↔ d.role e ≠ step.speaker := by
  cases d <;> cases e <;> cases step <;> simp [speaker, Dir.role, Dir.sender, Dir.receiver,
    Endpoint.peer, TalkStep.speaker]

/-- The script of one connection, over messages of any kind. -/
def talkScript {M : Type} (iter : UInt16) (count : Dir → Nat → UInt32)
    (restart : Dir → Nat → Bool) (admits : TalkPos → M → Prop) :
    Choreography Endpoint TalkPos M where
  peer := Endpoint.peer
  peer_peer := Endpoint.peer_peer
  peer_ne := Endpoint.peer_ne
  eq_or_eq_peer := Endpoint.eq_or_eq_peer
  speaker := TalkPos.speaker
  admits := admits
  next := fun pos _ => TalkPos.next iter count restart pos

end Ubwt
