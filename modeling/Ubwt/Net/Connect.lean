import Ubwt.Conn
import Ubwt.Net.Transfer

/-!
# Ubwt.Net.Connect

The calls of `net_connector_connect` and `net_listener_accept` over TCP.

The transfer loops of `net.c` go on after a partial result and after `EINTR`. These two functions
do not: **each makes one `write()` and one `read()` of the whole record**, and anything less is a
failure. So how the transport splits the record decides over the connection, unless the record
would be turned down with the same result (`admission_iff`).
-/

namespace Ubwt

/-- The answers to the three calls of one side. -/
structure ConnCalls where
  /-- The `errno` of a failed `connect()` or `accept()`. -/
  opened : Option Errno
  write : IoResult
  read : IoResult
  deriving Repr, DecidableEq

/-- The call transferred a whole record. -/
def IoResult.wholeRecord : IoResult → Bool
  | .ret n => connPayloadSize ≤ n
  | .fail _ _ => false

/-- What a `read()` of a record puts into memory. -/
def IoResult.recordRead (stream : List UInt8) : IoResult → List UInt8
  | .ret n => stream.take (min n connPayloadSize)
  | .fail _ _ => []

section

variable (h : Host) (cfg : Config) (calls : ConnCalls) (mem stream : List UInt8)

/-- The TCP branch of `net_connector_connect()`; `stream` is what the listener sends. -/
def netConnectorConnectCalls : ConnOutcome :=
  match calls.opened with
  | some _ => .failed "net_connector_connect(): connect()" none
  | none =>
      if !calls.write.wholeRecord then .failed "net_connector_connect(): write()" none
      else netConnectorConnect h cfg mem (calls.read.recordRead stream)

/-- The TCP branch of `net_listener_accept()`, which reads before it writes. -/
def netListenerAcceptCalls : ConnOutcome :=
  match calls.opened with
  | some _ => .failed "net_listener_accept(): accept()" none
  | none =>
      if (calls.read.recordRead stream).length != connPayloadSize then
        .failed "net_listener_accept(): read()" none
      else if !calls.write.wholeRecord then .failed "net_listener_accept(): write()" none
      else netListenerAccept h cfg mem (calls.read.recordRead stream)

end

/-- What the caller gets, unless the program ends. -/
def ConnOutcome.result : ConnOutcome → Option Int
  | established => some 0
  | failed _ _ => some (-1)
  | fatal _ => none

/-- All calls of one side succeed, and transfer a whole record. -/
def ConnCalls.whole (calls : ConnCalls) : Bool :=
  calls.opened.isNone && calls.write.wholeRecord && calls.read.wholeRecord

/-- The record that came in has the flag that is asked for, and the magic number. -/
def recordExpected (h : Host) (expected : ConnPayload → Bool) (stream : List UInt8) : Bool :=
  expected (connPayloadNtoh h (ConnPayload.ofImage h.order (stream.take connPayloadSize)))

/-- Two runs in which the same bytes arrive have the same result, at the connector and at the
listener. -/
structure SameAdmission (hostC hostL : Host) (cfgC cfgL : Config) (toC toL : List UInt8)
    (c c' l l' : ConnCalls) : Prop where
  connector : ∀ mem mem', (netConnectorConnectCalls hostC cfgC c mem toC).result
    = (netConnectorConnectCalls hostC cfgC c' mem' toC).result
  listener : ∀ mem mem', (netListenerAcceptCalls hostL cfgL l mem toL).result
    = (netListenerAcceptCalls hostL cfgL l' mem' toL).result

/-! ### One side -/

variable {h : Host} {cfg : Config} {calls calls' : ConnCalls} {mem stream : List UInt8}

theorem recordRead_whole {r : IoResult} (hr : r.wholeRecord = true) :
    r.recordRead stream = stream.take connPayloadSize := by
  cases r with
  | fail e => cases hr
  | ret n => rw [IoResult.recordRead, Nat.min_eq_right (of_decide_eq_true hr)]

theorem length_recordRead {r : IoResult} (hlen : connPayloadSize ≤ stream.length) :
    (r.recordRead stream).length = connPayloadSize ↔ r.wholeRecord = true := by
  cases r with
  | fail e =>
      exact iff_of_false (by simp [IoResult.recordRead, connPayloadSize]) Bool.false_ne_true
  | ret n =>
      rw [IoResult.recordRead, IoResult.wholeRecord, decide_eq_true_iff, List.length_take]
      omega

/-- A record that was read in part fails. -/
theorem connReceive_short {got : List UInt8} (hgot : got.length ≠ connPayloadSize) :
    connReceive .tcp mem got = none := if_neg hgot

/-- The result over a record that came in whole. -/
theorem connAdmit_result (expected : ConnPayload → Bool) (func : String) :
    (connAdmit h cfg expected func (stream.take connPayloadSize)).result = some (-1)
      ↔ recordExpected h expected stream = false := by
  rw [connAdmit, recordExpected]
  split
  · rename_i hexp
    exact iff_of_true rfl (Bool.not_eq_true' _ ▸ hexp)
  · rename_i hexp
    refine iff_of_false ?_ ?_
    · split <;> exact fun heq => by cases heq
    · simpa using hexp

/-- The record of a peer that runs the same program. -/
theorem recordExpected_bytes (peer : Host) (cfg' : Config) (expected : ConnPayload → Bool) :
    recordExpected h expected (connPayloadBytes peer cfg') = expected (connPayloadCreate cfg') := by
  rw [recordExpected, ← length_connPayloadBytes peer cfg', List.take_length, connPayloadBytes,
    image_connPayloadHton, connPayloadNtoh_ofImage]

/-- What the connector's result depends on. -/
theorem connector_result (hproto : cfg.netL4ProtoValue = .tcp)
    (hlen : connPayloadSize ≤ stream.length) :
    (netConnectorConnectCalls h cfg calls mem stream).result
      = if calls.whole then (connAdmit h cfg connHasAccept "net_connector_connect"
          (stream.take connPayloadSize)).result
        else some (-1) := by
  unfold netConnectorConnectCalls ConnCalls.whole
  cases calls.opened with
  | some e => rfl
  | none =>
      cases hwrite : calls.write.wholeRecord with
      | false => rfl
      | true =>
          cases hread : calls.read.wholeRecord with
          | true =>
              have hgot : (calls.read.recordRead stream).length = connPayloadSize :=
                (length_recordRead hlen).mpr hread
              change (netConnectorConnect h cfg mem (calls.read.recordRead stream)).result
                = (connAdmit h cfg connHasAccept "net_connector_connect"
                    (stream.take connPayloadSize)).result
              rw [netConnectorConnect_whole (by rw [hproto]; exact fun heq => by cases heq) hgot,
                recordRead_whole hread]
          | false =>
              have hgot : (calls.read.recordRead stream).length ≠ connPayloadSize := by
                rw [Ne, length_recordRead hlen, hread]
                exact Bool.false_ne_true
              change (netConnectorConnect h cfg mem (calls.read.recordRead stream)).result
                = some (-1)
              rw [netConnectorConnect, hproto, connReceive_short hgot]
              rfl

/-- What the listener's result depends on. -/
theorem listener_result (hproto : cfg.netL4ProtoValue = .tcp)
    (hlen : connPayloadSize ≤ stream.length) :
    (netListenerAcceptCalls h cfg calls mem stream).result
      = if calls.whole then (connAdmit h cfg connHasConnect "net_listener_accept"
          (stream.take connPayloadSize)).result
        else some (-1) := by
  unfold netListenerAcceptCalls ConnCalls.whole
  cases calls.opened with
  | some e => rfl
  | none =>
      cases hread : calls.read.wholeRecord with
      | false =>
          have hgot : (calls.read.recordRead stream).length ≠ connPayloadSize := by
            rw [Ne, length_recordRead hlen, hread]
            exact Bool.false_ne_true
          dsimp only
          rw [if_pos (bne_iff_ne.mpr hgot), Bool.and_false, if_neg Bool.false_ne_true]
          rfl
      | true =>
          have hgot : (calls.read.recordRead stream).length = connPayloadSize :=
            (length_recordRead hlen).mpr hread
          dsimp only
          rw [hgot, bne_self_eq_false, if_neg Bool.false_ne_true]
          cases calls.write.wholeRecord with
          | false => rfl
          | true =>
              change (netListenerAccept h cfg mem (calls.read.recordRead stream)).result
                = (connAdmit h cfg connHasConnect "net_listener_accept"
                    (stream.take connPayloadSize)).result
              rw [netListenerAccept_whole (by rw [hproto]; exact fun heq => by cases heq) hgot,
                recordRead_whole hread]

/-- Two results that each depend on whether the calls were whole. -/
theorem whole_result_eq_iff {α : Type} {r s : α} {b b' : Bool} :
    ((if b then r else s) = if b' then r else s) ↔ b = b' ∨ r = s := by
  cases b <;> cases b' <;> simp [eq_comm]

/-! ### Both sides -/

/-- **When segmentation does not matter.** For every pair of records and two runs of the same
bytes: the results are the same at each side exactly if its calls transfer the whole record in both
runs or in neither, or the record has not the flag and the magic number that the side asks for. -/
theorem admission_iff (hostC hostL : Host) {cfgC cfgL : Config}
    (hC : cfgC.netL4ProtoValue = .tcp) (hL : cfgL.netL4ProtoValue = .tcp) {toC toL : List UInt8}
    (htoC : connPayloadSize ≤ toC.length) (htoL : connPayloadSize ≤ toL.length)
    (c c' l l' : ConnCalls) :
    SameAdmission hostC hostL cfgC cfgL toC toL c c' l l'
      ↔ (c.whole = c'.whole ∨ recordExpected hostC connHasAccept toC = false)
        ∧ (l.whole = l'.whole ∨ recordExpected hostL connHasConnect toL = false) := by
  have hconnector : ∀ mem mem', (netConnectorConnectCalls hostC cfgC c mem toC).result
      = (netConnectorConnectCalls hostC cfgC c' mem' toC).result
      ↔ c.whole = c'.whole ∨ recordExpected hostC connHasAccept toC = false := by
    intro mem mem'
    rw [connector_result hC htoC, connector_result hC htoC, whole_result_eq_iff, connAdmit_result]
  have hlistener : ∀ mem mem', (netListenerAcceptCalls hostL cfgL l mem toL).result
      = (netListenerAcceptCalls hostL cfgL l' mem' toL).result
      ↔ l.whole = l'.whole ∨ recordExpected hostL connHasConnect toL = false := by
    intro mem mem'
    rw [listener_result hL htoL, listener_result hL htoL, whole_result_eq_iff, connAdmit_result]
  constructor
  · intro hsame
    exact ⟨(hconnector [] []).mp (hsame.connector [] []),
      (hlistener [] []).mp (hsame.listener [] [])⟩
  · intro hcond
    exact ⟨fun mem mem' => (hconnector mem mem').mpr hcond.1,
      fun mem mem' => (hlistener mem mem').mpr hcond.2⟩

/-- The calls of one side, with nothing split. -/
def ConnCalls.unsplit : ConnCalls := ⟨none, .ret connPayloadSize, .ret connPayloadSize⟩

/-- Both ends with the defaults, in two runs in which the records come in whole. -/
theorem admission_defaults : ∃ cfgC cfgL,
    configInit ⟨false, false, fun _ _ => false⟩ ["connector".toList, "10.0.0.1".toList] = .ok cfgC
    ∧ configInit ⟨false, false, fun _ _ => false⟩ ["listener".toList, "10.0.0.1".toList] = .ok cfgL
    ∧ SameAdmission ⟨.little, .inlineFunction⟩ ⟨.big, .inlineFunction⟩ cfgC cfgL
        (connPayloadBytes ⟨.big, .inlineFunction⟩ cfgL)
        (connPayloadBytes ⟨.little, .inlineFunction⟩ cfgC)
        .unsplit ⟨none, .ret 64, .ret 41⟩ .unsplit .unsplit := by
  refine ⟨_, _, rfl, rfl, ?_⟩
  exact (admission_iff _ _ rfl rfl (length_connPayloadBytes ..).ge (length_connPayloadBytes ..).ge
    _ _ _ _).mpr ⟨.inl rfl, .inl rfl⟩

/-- Both ends with the defaults: the listener's record comes in whole, in two parts, or after an
interrupted call. -/
theorem admission_fails_split : ∃ cfgC cfgL,
    configInit ⟨false, false, fun _ _ => false⟩ ["connector".toList, "10.0.0.1".toList] = .ok cfgC
    ∧ configInit ⟨false, false, fun _ _ => false⟩ ["listener".toList, "10.0.0.1".toList] = .ok cfgL
    ∧ ∀ read, read = .ret 20 ∨ read = .fail .eintr →
      ¬ SameAdmission ⟨.little, .inlineFunction⟩ ⟨.big, .inlineFunction⟩ cfgC cfgL
        (connPayloadBytes ⟨.big, .inlineFunction⟩ cfgL)
        (connPayloadBytes ⟨.little, .inlineFunction⟩ cfgC)
        .unsplit ⟨none, .ret connPayloadSize, read⟩ .unsplit .unsplit := by
  refine ⟨_, _, rfl, rfl, ?_⟩
  intro read hread hsame
  have hcond := (admission_iff _ _ rfl rfl (length_connPayloadBytes ..).ge
    (length_connPayloadBytes ..).ge _ _ _ _).mp hsame
  rcases hcond.1 with hwhole | hrefused
  · rcases hread with rfl | rfl <;> cases hwhole
  · rw [recordExpected_bytes] at hrefused
    cases hrefused

end Ubwt
