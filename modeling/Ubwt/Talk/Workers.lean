import Mathlib.Logic.Function.Basic
import Mathlib.Logic.Relation
import Ubwt.Lib.Rendezvous
import Ubwt.Talk.Pair

/-!
# Ubwt.Talk.Workers

All workers of both endpoints: `talk_init`, `talk_sender` and `talk_receiver` with their
calls of `worker_barrier_wait`, the global mutex, and the variables `weak`, `im_weak`,
`weak_time` and `count` that the threads of a process share.

A connection joins the two workers with its number, and carries whole messages in order
(`Ubwt.Talk.LockStep` is about their bytes). A barrier lets a caller return once every
thread that uses it has made as many calls. A load and a store of a shared variable are
two steps, and so is every other access. How long a stream takes is given for each
connection, direction and stream (`TestEnv.time`).

A worker whose check of a message fails, or whose process ends, has no further step. No
message is lost here and no call fails; the steps with such failures are those of
`Ubwt.Talk.Failures`.
-/

namespace Ubwt

open Lib

/-! ### The test -/

/-- The three barriers of `worker_barrier_global`. -/
inductive BarrierId
  | dir (d : Dir)
  | all
  deriving Repr, DecidableEq

/-- What the two endpoints run with: the configuration they share, and what the streams
take. -/
structure TestEnv where
  /-- `worker_count`. -/
  workers : Nat
  workers_pos : 0 < workers
  asynchronous : Bool
  bidirectional : Bool
  reverseFirst : Bool
  /-- The workers that start with the reverse direction, in asynchronous mode. -/
  reverse : Fin workers → Bool
  half : asynchronous = true → 2 * tally reverse = workers
  iter : UInt16
  size : PayloadSize
  /-- `talk_stream_minimum_time`. -/
  minimumTime : UInt16
  /-- `talk_count_current`. -/
  countCurrent : UInt64
  hosts : Endpoint → Host
  /-- The time the receiver of a connection measures for stream `k` of a direction. -/
  time : Fin workers → Dir → Nat → UInt64

/-- `talk_stream_minimum_time * 1000000`: a product of `int`s, which wraps, converted to
`uint64_t`. -/
def streamThreshold (minimumTime : UInt16) : UInt64 :=
  UInt64.ofInt (Int.bmod (minimumTime.toNat * 1000000) (2 ^ 32))

namespace TestEnv

variable (v : TestEnv)

/-- The directions the workers of a connection test. -/
def dirs (c : Fin v.workers) : List Dir :=
  processRun (if v.asynchronous then v.reverse c else v.reverseFirst) v.bidirectional v.asynchronous

/-- Is the stream weak? -/
def weak (c : Fin v.workers) (d : Dir) (k : Nat) : Bool :=
  decide (v.time c d k < streamThreshold v.minimumTime)

/-- The barrier for all workers that are at the same point: the third one in asynchronous mode,
else the one of the direction. -/
def mainBarrier (d : Dir) : BarrierId := if v.asynchronous then .all else .dir d

/-- The workers that use a barrier. -/
def Joins (b : BarrierId) (c : Fin v.workers) : Prop :=
  match b with
  | .all => True
  | .dir d => v.asynchronous = true → v.dirs c = [d]

end TestEnv

/-! ### A worker -/

/-- Where a worker is. -/
inductive WorkerPc
  | talkInit
  /-- After `talk_init()`, before any transmission. -/
  | initWait
  | ping
  | pong
  /-- Around the assignment of `talk[d].count`. -/
  | countWait
  | countSet
  | countSync
  | negotiate
  | streamStart
  /-- Around the reset of the shared variables. -/
  | resetWait
  | resetLock
  | resetWeak
  | resetImWeak
  | resetWeakTime
  | resetUnlock
  | startWait
  | streamRun
  /-- STREAM END, of the workers of a direction and, in asynchronous mode, of all. -/
  | endWait
  | endWaitAll
  | streamEnd
  /-- Around the increments. -/
  | setWait
  | setLock
  | loadWeak
  | storeWeak
  | loadImWeak
  | storeImWeak
  | setWeakTime
  | setUnlock
  | returnWait
  /-- `*weak > 0`, then `_talk_weak_stream_needs_restart()`. -/
  | testWeak
  | testImWeak
  | testImWeakReverse
  /-- Around the new `talk[d].count`. -/
  | recountWait
  | recount
  | recountSync
  | report
  | finish
  | returned
  deriving Repr, DecidableEq

/-- The barrier a worker is at. -/
def WorkerPc.barrier (v : TestEnv) (d : Dir) : WorkerPc → Option BarrierId
  | initWait => some (v.mainBarrier d)
  | countWait => some (.dir d)
  | countSync => some (.dir d)
  | resetWait => some (v.mainBarrier d)
  | startWait => some (v.mainBarrier d)
  | endWait => some (.dir d)
  | endWaitAll => some .all
  | setWait => some (v.mainBarrier d)
  | returnWait => some (v.mainBarrier d)
  | recountWait => some (.dir d)
  | recountSync => some (.dir d)
  | _ => none

/-- A worker: the direction it tests and those to come, the number of the stream and of the
packet, its local variables, its record, the calls of each barrier it has returned from,
and the verdicts it has come to. -/
structure TalkWorker where
  dirs : List Dir
  pc : WorkerPc
  k : Nat
  i : Nat
  count : UInt32
  /-- The value that an increment has loaded. -/
  acc : Nat
  /-- The flag STREAM WEAK of the last STREAM END, and its time. -/
  weak : Bool
  time : UInt64
  report : Dir → ReportCollect
  waiting : Bool
  passed : BarrierId → Nat
  decided : List (Dir × Nat × Bool)

/-- What the threads of a process share: `__talk_weak`, `__talk` and the global mutex. -/
structure TalkContext (n : Nat) where
  weak : Nat
  imWeak : Dir → Nat
  weakTime : Dir → UInt64
  count : Dir → UInt64
  mutex : Option (Fin n)

namespace TalkWorker

variable (v : TestEnv) (e : Endpoint) (c : Fin v.workers) (d : Dir)

/-- The barrier the worker waits at. -/
def waitsAt (w : TalkWorker) (b : BarrierId) : Bool :=
  w.waiting && decide (w.dirs.head?.bind (fun d => w.pc.barrier v d) = some b)

/-- The head of the handshake loop. -/
def toPing (w : TalkWorker) (i : Nat) : TalkWorker :=
  if i < v.iter.toNat then { w with pc := .ping, i := i }
  else
    match d.role e with
    | .sender => { w with pc := .countWait, k := 0 }
    | .receiver => { w with pc := .negotiate, k := 0 }

/-- The head of the stream loop. -/
def toRun (w : TalkWorker) (i : Nat) : TalkWorker :=
  if i < w.count.toNat then { w with pc := .streamRun, i := i }
  else { w with pc := .endWait, i := i }

/-- Change the record of a direction. -/
def setReport (w : TalkWorker) (r : ReportCollect) : TalkWorker :=
  { w with report := Function.update w.report d r }

/-- The receiver stores its report data. -/
def measure (w : TalkWorker) : TalkWorker :=
  match d.role e with
  | .sender => { w with pc := .streamEnd }
  | .receiver =>
      setReport d { w with pc := .streamEnd } { w.report d with
        talkStreamTimeDuration := v.time c d w.k
        talkStreamRecvPkts := UInt32.ofNat w.i
        talkStreamRecvBytes := UInt64.ofNat (w.i * v.size.val) }

/-- What a worker does next when a barrier lets it go. `serial` is what the call returns, `now`
the time of the clock. -/
def proceed (w : TalkWorker) (serial : Bool) (now : UInt64) : TalkWorker :=
  match w.pc with
  | .initWait => w.toPing v e d 0
  | .countWait => { w with pc := if serial then .countSet else .countSync }
  | .countSync => { w with pc := .negotiate }
  | .resetWait => { w with pc := .resetLock }
  | .startWait =>
      match d.role e with
      | .sender => w.toRun 0
      | .receiver => (w.setReport d { w.report d with talkStreamTimeStart := now }).toRun 0
  | .endWait => if v.asynchronous then { w with pc := .endWaitAll } else w.measure v e c d
  | .endWaitAll => w.measure v e c d
  | .setWait => { w with pc := if w.weak then .setLock else .returnWait }
  | .returnWait => { w with pc := .testWeak }
  | .recountWait => { w with pc := if serial then .recount else .recountSync }
  | .recountSync => { w with pc := .negotiate, k := w.k + 1 }
  | _ => w

/-- The verdict: no more streams. -/
def stop (w : TalkWorker) : TalkWorker :=
  { w with pc := .report, decided := w.decided ++ [(d, w.k, false)] }

/-- The verdict: another stream. -/
def again (w : TalkWorker) : TalkWorker :=
  match d.role e with
  | .sender => { w with pc := .recountWait, decided := w.decided ++ [(d, w.k, true)] }
  | .receiver =>
      { w with pc := .negotiate, k := w.k + 1, decided := w.decided ++ [(d, w.k, true)] }

/-- The next direction, or the end of `process_run()`. -/
def nextDir (w : TalkWorker) (rest : List Dir) : TalkWorker :=
  { w with dirs := rest, pc := if rest = [] then .returned else .initWait, k := 0, i := 0 }

/-- The exchange a worker is at. -/
def exchange (w : TalkWorker) : Option TalkStep :=
  match w.pc with
  | .ping => some (.ping w.i)
  | .pong => some (.pong w.i)
  | .negotiate => some (.negotiate w.k)
  | .streamStart => some (.streamStart w.k)
  | .streamRun => some (.streamRun w.k w.i)
  | .streamEnd => some (.streamEnd w.k)
  | .report => some .report
  | .finish => some .finish
  | _ => none

/-- The values of its messages. The sender reads the shared count for the negotiation. -/
def data (w : TalkWorker) (count : Dir → UInt64) (fill : List UInt8)
    (fillSize : fill.length = talkPayloadMaxSize - talkHdrSize) : TalkData where
  count := if w.pc = .negotiate then (count d).toUInt32 else w.count
  latency := (w.report d).talkLatencyUs
  fill := fill
  fillSize := fillSize
  time := v.time c d w.k
  weak := v.weak c d w.k
  report := w.report d

/-- After a message has been sent. -/
def sent (w : TalkWorker) (rest : List Dir) (count : Dir → UInt64) : TalkWorker :=
  match w.pc with
  | .ping => { w with pc := .pong }
  | .pong => w.toPing v e d (w.i + 1)
  | .negotiate =>
      setReport d { w with pc := .streamStart, count := (count d).toUInt32 }
        { w.report d with talkCount := (count d).toUInt32 }
  | .streamStart => { w with pc := .resetWait }
  | .streamRun => w.toRun (w.i + 1)
  | .streamEnd => { w with pc := .setWait, weak := v.weak c d w.k, time := v.time c d w.k }
  | .report => { w with pc := .finish }
  | .finish => w.nextDir rest
  | _ => w

/-- After a message has been received; `latency` is the mean time of the handshakes. The sender
reads the shared count again for the stream. -/
def heard (w : TalkWorker) (rest : List Dir) (count : Dir → UInt64) (latency : UInt32)
    (pkt : TalkPayload) : TalkWorker :=
  match w.pc with
  | .ping => { w with pc := .pong }
  | .pong =>
      if w.i + 1 < v.iter.toNat then w.toPing v e d (w.i + 1)
      else (w.setReport d { w.report d with talkLatencyUs := latency }).toPing v e d (w.i + 1)
  | .negotiate =>
      setReport d { w with pc := .streamStart, count := pkt.count }
        { w.report d with talkCount := pkt.count, talkLatencyUs := pkt.latency }
  | .streamStart => { w with pc := .resetWait, count := (count d).toUInt32 }
  | .streamRun => w.toRun (w.i + 1)
  | .streamEnd => { w with pc := .setWait, weak := pkt.has .streamWeak, time := pkt.weakTime }
  | .report =>
      setReport d { w with pc := .finish } (reportUnmarshal (v.hosts e) pkt.buf)
  | .finish => w.nextDir rest
  | _ => w

/-- `_talk_weak_stream_needs_restart()`, up to the first `==` in asynchronous mode. -/
def testImWeak (w : TalkWorker) (imWeak : Dir → Nat) : TalkWorker :=
  if v.asynchronous then
    if imWeak .straight = v.workers / 2 then w.again e d else { w with pc := .testImWeakReverse }
  else if imWeak d = v.workers then w.again e d
  else w.stop d

/-- A step that involves neither a message nor the other workers. -/
inductive Local : TalkWorker → TalkContext v.workers → TalkWorker → TalkContext v.workers → Prop
  /-- `memset(__talk, 0, sizeof(__talk))`. -/
  | talkInit {w sh} (h : w.pc = .talkInit) :
      Local w sh { w with pc := .initWait }
        { sh with imWeak := fun _ => 0, weakTime := fun _ => 0, count := fun _ => 0 }
  | enter {w sh b} (hb : w.pc.barrier v d = some b) :
      Local w sh { w with waiting := true } sh
  | countSet {w sh} (h : w.pc = .countSet) :
      Local w sh { w with pc := .countSync }
        { sh with count := Function.update sh.count d v.countCurrent }
  | resetLock {w sh} (h : w.pc = .resetLock) (hm : sh.mutex = none) :
      Local w sh { w with pc := .resetWeak } { sh with mutex := some c }
  | resetWeak {w sh} (h : w.pc = .resetWeak) :
      Local w sh { w with pc := .resetImWeak } { sh with weak := 0 }
  | resetImWeak {w sh} (h : w.pc = .resetImWeak) :
      Local w sh { w with pc := .resetWeakTime }
        { sh with imWeak := Function.update sh.imWeak d 0 }
  | resetWeakTime {w sh} (h : w.pc = .resetWeakTime) :
      Local w sh { w with pc := .resetUnlock }
        { sh with weakTime := Function.update sh.weakTime d 0 }
  | resetUnlock {w sh} (h : w.pc = .resetUnlock) :
      Local w sh { w with pc := .startWait } { sh with mutex := none }
  | setLock {w sh} (h : w.pc = .setLock) (hm : sh.mutex = none) :
      Local w sh { w with pc := .loadWeak } { sh with mutex := some c }
  | loadWeak {w sh} (h : w.pc = .loadWeak) :
      Local w sh { w with pc := .storeWeak, acc := sh.weak } sh
  | storeWeak {w sh} (h : w.pc = .storeWeak) :
      Local w sh { w with pc := .loadImWeak } { sh with weak := w.acc + 1 }
  | loadImWeak {w sh} (h : w.pc = .loadImWeak) :
      Local w sh { w with pc := .storeImWeak, acc := sh.imWeak d } sh
  | storeImWeak {w sh} (h : w.pc = .storeImWeak) :
      Local w sh { w with pc := .setWeakTime }
        { sh with imWeak := Function.update sh.imWeak d (w.acc + 1) }
  | setWeakTime {w sh} (h : w.pc = .setWeakTime) :
      Local w sh { w with pc := .setUnlock }
        { sh with weakTime := Function.update sh.weakTime d w.time }
  | setUnlock {w sh} (h : w.pc = .setUnlock) :
      Local w sh { w with pc := .returnWait } { sh with mutex := none }
  | testWeak {w sh} (h : w.pc = .testWeak) :
      Local w sh (if 0 < sh.weak then { w with pc := .testImWeak } else w.stop d) sh
  | testImWeak {w sh} (h : w.pc = .testImWeak) : Local w sh (w.testImWeak v e d sh.imWeak) sh
  | testImWeakReverse {w sh} (h : w.pc = .testImWeakReverse) :
      Local w sh
        (if sh.imWeak .reverse = v.workers / 2 then w.again e d else w.stop d) sh
  /-- `_talk_weak_stream_needs_recount()`, and the product with a `double`. -/
  | recount {w sh} (count : UInt64) (h : w.pc = .recount) :
      Local w sh { w with pc := .recountSync }
        (if sh.imWeak d = (if v.asynchronous then v.workers / 2 else v.workers)
          then { sh with count := Function.update sh.count d count } else sh)

end TalkWorker

/-! ### All workers -/

/-- The workers of both endpoints, what each process shares, and the messages on each
connection that its endpoints have sent and the others have not received. -/
structure TalkTest (n : Nat) where
  worker : Endpoint → Fin n → TalkWorker
  shared : Endpoint → TalkContext n
  chan : Fin n → Endpoint → List TalkPayload

namespace TalkTest

variable {v : TestEnv}

/-- Replace a worker and what its process shares. -/
def set {n : Nat} (s : TalkTest n) (e : Endpoint) (c : Fin n) (w : TalkWorker) (sh : TalkContext n) :
    TalkTest n :=
  { s with
    worker := Function.update s.worker e (Function.update (s.worker e) c w)
    shared := Function.update s.shared e sh }

/-- Replace what an endpoint has on its way on a connection. -/
def setChan {n : Nat} (s : TalkTest n) (c : Fin n) (e : Endpoint) (msgs : List TalkPayload) :
    TalkTest n :=
  { s with chan := Function.update s.chan c (Function.update (s.chan c) e msgs) }

def init (v : TestEnv) : TalkTest v.workers where
  worker := fun _ c =>
    { dirs := v.dirs c, pc := .talkInit, k := 0, i := 0, count := 0, acc := 0, weak := false,
      time := 0, report := fun _ => .zero, waiting := false, passed := fun _ => 0, decided := [] }
  shared := fun _ =>
    { weak := 0, imWeak := fun _ => 0, weakTime := fun _ => 0, count := fun _ => 0, mutex := none }
  chan := fun _ _ => []

/-- One step of a worker. -/
inductive Step (v : TestEnv) : TalkTest v.workers → TalkTest v.workers → Prop
  | loc {s} (e : Endpoint) (c : Fin v.workers) {d rest w sh}
      (hd : (s.worker e c).dirs = d :: rest) (hw : (s.worker e c).waiting = false)
      (h : TalkWorker.Local v e c d (s.worker e c) (s.shared e) w sh) :
      Step v s (s.set e c w sh)
  | leave {s} (e : Endpoint) (c : Fin v.workers) {d rest b} (serial : Bool) (now : UInt64)
      (hd : (s.worker e c).dirs = d :: rest) (hw : (s.worker e c).waiting = true)
      (hb : (s.worker e c).pc.barrier v d = some b)
      (hall : ∀ c', v.Joins b c' →
        entered (fun c => (s.worker e c).passed b) (fun c => (s.worker e c).waitsAt v b) c
          ≤ entered (fun c => (s.worker e c).passed b) (fun c => (s.worker e c).waitsAt v b) c') :
      Step v s (s.set e c
        { (s.worker e c).proceed v e c d serial now with
          waiting := false
          passed := Function.update (s.worker e c).passed b ((s.worker e c).passed b + 1) }
        (s.shared e))
  | send {s} (e : Endpoint) (c : Fin v.workers) {d rest step} (fill : List UInt8)
      (fillSize : fill.length = talkPayloadMaxSize - talkHdrSize)
      (hd : (s.worker e c).dirs = d :: rest) (hx : (s.worker e c).exchange = some step)
      (hrole : d.role e = step.speaker) :
      Step v s ((s.set e c ((s.worker e c).sent v e c d rest (s.shared e).count) (s.shared e)).setChan
        c e (s.chan c e ++ [talkSay (v.hosts e) v.iter v.size
          ((s.worker e c).data v c d (s.shared e).count fill fillSize) step]))
  | recv {s} (e : Endpoint) (c : Fin v.workers) {d rest step pkt more} (latency : UInt32)
      (hd : (s.worker e c).dirs = d :: rest) (hx : (s.worker e c).exchange = some step)
      (hrole : d.role e ≠ step.speaker) (hchan : s.chan c e.peer = pkt :: more)
      (hcheck : talkCheck v.iter pkt step = .ok ()) :
      Step v s ((s.set e c ((s.worker e c).heard v e d rest (s.shared e).count latency pkt)
        (s.shared e)).setChan c e.peer more)

/-- The states that can be reached. -/
def Reachable (v : TestEnv) (s : TalkTest v.workers) : Prop :=
  Relation.ReflTransGen (Step v) (init v) s

end TalkTest

end Ubwt
