import Mathlib.Logic.Function.Basic
import Mathlib.Logic.Relation
import Ubwt.Talk.Step

/-!
# Ubwt.Talk.Pair

`talk_sender` at one end of a connection and `talk_receiver` at the other, over two byte
streams. A step of a party is one call of `_talk_send` or `_talk_recv` together with what
the code does before the next one; the answers of the kernel to the `read()` and `write()`
calls are scripts, as in `Ubwt.Net.Transfer`.

The threads of a process agree on the count of a stream and on whether another one is run;
for one connection both are given (`TalkEnv.counts`, `TalkEnv.restart`).
-/

namespace Ubwt

open Lib

/-- `process_run()`: the directions a worker tests, one after the other. -/
def processRun (reverseFirst bidirectional asynchronous : Bool) : List Dir :=
  match reverseFirst with
  | false => if bidirectional && !asynchronous then [.straight, .reverse] else [.straight]
  | true => if bidirectional && !asynchronous then [.reverse, .straight] else [.reverse]

/-- What the two parties run with: the configuration they share, the hosts and the threads
they are, and what the other threads contribute. -/
structure TalkEnv where
  iter : UInt16
  size : PayloadSize
  countDefault : UInt32
  countMax : UInt32
  /-- `NDEBUG` is defined. -/
  ndebug : Bool
  reverseFirst : Bool
  bidirectional : Bool
  asynchronous : Bool
  hosts : Endpoint → Host
  workerSelf : Endpoint → UInt64
  /-- `talk[d].count` for stream `k` of a direction. -/
  counts : Dir → Nat → UInt32
  /-- Is another stream run after stream `k`? -/
  restart : Dir → Nat → Bool

/-- The `assert()`s of `talk_sender()` on the count of stream `k`. -/
def TalkEnv.countAsserted (v : TalkEnv) (k : Nat) (count : UInt32) : Bool :=
  v.ndebug ||
    (if k = 0 then decide (count > 0)
      else decide (count ≤ v.countMax) && decide (count ≥ v.countDefault))

/-! ### One party -/

inductive PartyPc
  /-- About to call `_talk_send()` or `_talk_recv()`. -/
  | talk (d : Dir) (rest : List Dir) (step : TalkStep)
  /-- An `assert()` failed. -/
  | assertFailed (d : Dir) (rest : List Dir) (step : TalkStep)
  /-- About to call `_talk_send_abort()` in this stage. -/
  | abort (stage : Stage)
  /-- `exit()` after it. -/
  | aborted (stage : Stage)
  /-- `exit()` without it. -/
  | exited
  | returned
  deriving Repr, DecidableEq

/-- A party and its count: `talk[d].count` in `talk_sender()`, `count` in
`talk_receiver()`. -/
structure Party where
  pc : PartyPc
  count : UInt32
  deriving Repr, DecidableEq

namespace Party

variable (v : TalkEnv) (e : Endpoint)

/-- Get to an exchange. A sender has a new count before it negotiates. -/
def arrive (p : Party) (d : Dir) (rest : List Dir) (step : TalkStep) : Party :=
  match step, d.role e with
  | .negotiate k, .sender =>
      if v.countAsserted k (v.counts d k) then ⟨.talk d rest (.negotiate k), v.counts d k⟩
      else ⟨.assertFailed d rest (.negotiate k), v.counts d k⟩
  | step, _ => { p with pc := .talk d rest step }

/-- Start the next direction, or return. -/
def enter (p : Party) : List Dir → Party
  | [] => { p with pc := .returned }
  | d :: rest => p.arrive v e d rest (.handshake v.iter 0)

/-- Go on after an exchange. -/
def advance (p : Party) (d : Dir) (rest : List Dir) (step : TalkStep) : Party :=
  match step.next v.iter (fun _ => p.count) (v.restart d) with
  | some step => p.arrive v e d rest step
  | none => p.enter v e rest

/-- What a failure does: a timeout ends a stream, any other failure in a stream is fatal at
once, a failed FINISH is only a warning, and all the others abort. -/
def fail (p : Party) (d : Dir) (rest : List Dir) (step : TalkStep) (err : Errno) : Party :=
  match step with
  | .streamRun k _ =>
      if err = .eagain then p.arrive v e d rest (.streamEnd k) else { p with pc := .exited }
  | .finish => p.enter v e rest
  | step => { p with pc := .abort step.stage }

/-- What a party keeps of a message: the receiver takes its count from the negotiation. -/
def store (p : Party) (step : TalkStep) (pkt : TalkPayload) : Party :=
  match step with
  | .negotiate _ => { p with count := pkt.count }
  | _ => p

/-- Go on with what `_talk_recv()` has returned. -/
def hear (p : Party) (d : Dir) (rest : List Dir) (step : TalkStep) (ret : IoReturn)
    (pkt : TalkPayload) : Party :=
  match ret with
  | .err err => p.fail v e d rest step err
  | .ok _ =>
      match talkCheck v.iter pkt step with
      | .error err => p.fail v e d rest step err
      | .ok () => (p.store step pkt).advance v e d rest step

end Party

/-! ### The two parties -/

/-- A call of `_talk_recv()`: the exchange it was made at, the bytes it consumed and what it
returned. -/
structure Heard where
  step : TalkStep
  bytes : List UInt8
  ret : IoReturn
  pkt : TalkPayload

/-- Both parties, the bytes each has written and the other has not read, and the history of
their calls. -/
structure TalkPair where
  party : Endpoint → Party
  wire : Endpoint → List UInt8
  /-- The bytes of each `_talk_send()`. -/
  sent : Endpoint → List (List UInt8)
  heard : Endpoint → List Heard

namespace TalkPair

def init (v : TalkEnv) : TalkPair where
  party := fun e =>
    Party.enter v e ⟨.returned, 0⟩ (processRun v.reverseFirst v.bidirectional v.asynchronous)
  wire := fun _ => []
  sent := fun _ => []
  heard := fun _ => []

/-- One step of a party; `errors` are the `errno` values a `read()` may fail with. -/
inductive Step (v : TalkEnv) (errors : List Errno) : TalkPair → TalkPair → Prop
  | send {s} (e : Endpoint) {d rest step x script script' n bytes}
      (hpc : (s.party e).pc = .talk d rest step) (hrole : d.role e = step.speaker)
      (hcount : x.count = (s.party e).count)
      (hsend : talkSend e (v.hosts e) (v.workerSelf e) step.stage v.size
        (talkSay (v.hosts e) v.iter v.size x step) script (s.wire e)
          = some (.ok n, s.wire e ++ bytes, script')) :
      Step v errors s { s with
        party := Function.update s.party e ((s.party e).advance v e d rest step)
        wire := Function.update s.wire e (s.wire e ++ bytes)
        sent := Function.update s.sent e (s.sent e ++ [bytes]) }
  | recv {s} (e : Endpoint) {d rest step prior script script' ret pkt bytes stream}
      (hpc : (s.party e).pc = .talk d rest step) (hrole : d.role e ≠ step.speaker)
      (hprior : prior.has .forceFail = false) (hscript : Splits errors script)
      (hwire : s.wire e.peer = bytes ++ stream)
      (hrecv : talkRecv e (v.hosts e) step.stage v.size prior script (s.wire e.peer)
        = some ((ret, pkt), stream, script')) :
      Step v errors s { s with
        party := Function.update s.party e ((s.party e).hear v e d rest step ret pkt)
        wire := Function.update s.wire e.peer stream
        heard := Function.update s.heard e (s.heard e ++ [⟨step, bytes, ret, pkt⟩]) }
  | abort {s} (e : Endpoint) {stage script script' n bytes}
      (hpc : (s.party e).pc = .abort stage)
      (hsend : talkSend e (v.hosts e) (v.workerSelf e) stage v.size abortPayload script (s.wire e)
        = some (.ok n, s.wire e ++ bytes, script')) :
      Step v errors s { s with
        party := Function.update s.party e { s.party e with pc := .aborted stage }
        wire := Function.update s.wire e (s.wire e ++ bytes)
        sent := Function.update s.sent e (s.sent e ++ [bytes]) }

/-- The states that can be reached. -/
def Reachable (v : TalkEnv) (errors : List Errno) (s : TalkPair) : Prop :=
  Relation.ReflTransGen (Step v errors) (init v) s

/-- The party waits in `_talk_recv()`. -/
def Listens (s : TalkPair) (e : Endpoint) : Prop :=
  ∃ d rest step, (s.party e).pc = .talk d rest step ∧ d.role e ≠ step.speaker

end TalkPair

end Ubwt
