import Ubwt.Talk.LockStep

/-!
# Ubwt.Talk.Abort

**Abort delivery.** A party that gives up sends an abort message and exits. The message is
framed with the stage of the aborting party and read with the stage of its peer, and after
a timeout the two need not be at the same exchange: the abort reaches the peer as one
message exactly when both stages are HANDSHAKE or neither is (`talk_abort_delivered_iff`).

The runs here are those in which any `_talk_recv` may time out, also in the middle of a
message.
-/

namespace Ubwt

open Lib

namespace TalkPair

variable {v : TalkEnv} {errors : List Errno} {s s' : TalkPair} {e : Endpoint}

/-- The `errno` values of a `read()` that may time out. -/
abbrev timeouts : List Errno := [.eintr, .eagain]

/-- All the bytes a party has read. -/
def consumed (s : TalkPair) (e : Endpoint) : List UInt8 := ((s.heard e).map Heard.bytes).flatten

/-! ### What is on the wires -/

/-- Whatever the parties make of it, what is on a wire is what was sent and not read, and the
last thing an aborted party has sent is its abort. -/
structure WireInv (v : TalkEnv) (s : TalkPair) : Prop where
  wire : ∀ e, (s.sent e).flatten = s.consumed e.peer ++ s.wire e
  aborted : ∀ e stage, (s.party e).pc = .aborted stage → ∃ before, s.sent e = before ++
    [talkSendBuf (v.hosts e) (v.workerSelf e) stage v.size abortPayload]

theorem arrive_not_aborted (p : Party) (d : Dir) (rest : List Dir) (step : TalkStep)
    (stage : Stage) : (p.arrive v e d rest step).pc ≠ .aborted stage := by
  unfold Party.arrive
  split
  · split <;> exact fun h => by cases h
  · exact fun h => by cases h

theorem enter_not_aborted (p : Party) (ds : List Dir) (stage : Stage) :
    (p.enter v e ds).pc ≠ .aborted stage := by
  cases ds with
  | nil => exact fun h => by cases h
  | cons d rest => exact arrive_not_aborted p d rest _ stage

theorem advance_not_aborted (p : Party) (d : Dir) (rest : List Dir) (step : TalkStep)
    (stage : Stage) : (p.advance v e d rest step).pc ≠ .aborted stage := by
  unfold Party.advance
  split
  · exact arrive_not_aborted p d rest _ stage
  · exact enter_not_aborted p rest stage

theorem fail_not_aborted (p : Party) (d : Dir) (rest : List Dir) (step : TalkStep) (err : Errno)
    (stage : Stage) : (p.fail v e d rest step err).pc ≠ .aborted stage := by
  unfold Party.fail
  split
  · split
    · exact arrive_not_aborted p d rest _ stage
    · exact fun h => by cases h
  · exact enter_not_aborted p rest stage
  · exact fun h => by cases h

/-- Only `_talk_send_abort()` gets a party to where it has aborted. -/
theorem hear_not_aborted (p : Party) (d : Dir) (rest : List Dir) (step : TalkStep) (ret : IoReturn)
    (pkt : TalkPayload) (stage : Stage) : (p.hear v e d rest step ret pkt).pc ≠ .aborted stage := by
  unfold Party.hear
  split
  · exact fail_not_aborted p d rest step _ stage
  · split
    · exact fail_not_aborted p d rest step _ stage
    · exact advance_not_aborted _ d rest step stage

theorem wireInv_init (v : TalkEnv) : (init v).WireInv v where
  wire := fun _ => rfl
  aborted := fun _ stage h => absurd h (enter_not_aborted _ _ stage)

/-- A party sends something. -/
theorem WireInv.write (h : s.WireInv v) (e : Endpoint) (p : Party) (bytes : List UInt8)
    (hp : ∀ stage, p.pc = .aborted stage →
      bytes = talkSendBuf (v.hosts e) (v.workerSelf e) stage v.size abortPayload) :
    WireInv v { s with
      party := Function.update s.party e p
      wire := Function.update s.wire e (s.wire e ++ bytes)
      sent := Function.update s.sent e (s.sent e ++ [bytes]) } where
  wire := by
    intro f
    by_cases hf : f = e
    · subst hf
      simp only [Function.update_self, List.flatten_append, h.wire f, List.append_assoc]
      simp [consumed]
    · simpa [Function.update_of_ne hf, consumed] using h.wire f
  aborted := by
    intro f stage hpc
    by_cases hf : f = e
    · subst hf
      simp only [Function.update_self] at hpc ⊢
      exact ⟨s.sent f, by rw [hp stage hpc]⟩
    · simp only [Function.update_of_ne hf] at hpc ⊢
      exact h.aborted f stage hpc

/-- A party reads something. -/
theorem WireInv.read (h : s.WireInv v) {p : Party} {r : Heard} {stream : List UInt8}
    (hp : ∀ stage, p.pc ≠ .aborted stage) (hwire : s.wire e.peer = r.bytes ++ stream) :
    WireInv v { s with
      party := Function.update s.party e p
      wire := Function.update s.wire e.peer stream
      heard := Function.update s.heard e (s.heard e ++ [r]) } where
  wire := by
    intro f
    by_cases hf : f = e.peer
    · subst hf
      simp [h.wire, hwire, consumed]
    · have hfe : f.peer ≠ e := by
        rintro rfl
        exact hf (Endpoint.peer_peer f).symm
      simpa [Function.update_of_ne hf, Function.update_of_ne hfe, consumed] using h.wire f
  aborted := by
    intro f stage hpc
    by_cases hf : f = e
    · subst hf
      simp only [Function.update_self] at hpc
      exact absurd hpc (hp stage)
    · simp only [Function.update_of_ne hf] at hpc
      exact h.aborted f stage hpc

theorem WireInv.step (h : s.WireInv v) (hstep : Step v errors s s') : s'.WireInv v := by
  cases hstep with
  | send e hpc hrole hcount hsend =>
      exact h.write e _ _ (fun stage hst => absurd hst (advance_not_aborted _ _ _ _ stage))
  | recv e hpc hrole hprior hscript hwire hrecv =>
      exact h.read (hear_not_aborted _ _ _ _ _ _) hwire
  | abort e hpc hsend =>
      refine h.write e _ _ ?_
      intro stage hst
      cases hst
      exact List.append_cancel_left (talkSend_ok hsend)

theorem Reachable.wireInv (h : s.Reachable v errors) : s.WireInv v := by
  induction h with
  | refl => exact wireInv_init v
  | tail _ hstep ih => exact ih.step hstep

/-! ### Delivery -/

/-- A party has aborted in `stage`, its peer has read all that it sent before the abort, and is
about to call `_talk_recv()` at the exchange `step`: the abort is at the head of the channel. -/
structure AbortAtHead (s : TalkPair) (e : Endpoint) (stage : Stage) (step : TalkStep) : Prop where
  aborted : (s.party e).pc = .aborted stage
  head : s.consumed e.peer = (s.sent e).dropLast.flatten
  listens : ∃ d rest, (s.party e.peer).pc = .talk d rest step ∧ d.role e.peer ≠ step.speaker

/-- `_talk_recv` in stage `stage'`, on a transport that brings all the bytes of an abort sent in
stage `stage`, consumes exactly these and returns -1 with `UBWT_ERROR_ABORT`. -/
def AbortDelivered (v : TalkEnv) (s : TalkPair) (e : Endpoint) (stage stage' : Stage) : Prop :=
  ∀ prior script, Splits [.eintr] script → talkLen stage v.size ≤ transfers script →
    ∃ pkt script', talkRecv e.peer (v.hosts e.peer) stage' v.size prior script (s.wire e)
      = some ((.err .abort, pkt), [], script')

theorem WireInv.wire_abort (h : s.WireInv v) {stage : Stage} {step : TalkStep}
    (hhead : s.AbortAtHead e stage step) :
    s.wire e = talkSendBuf (v.hosts e) (v.workerSelf e) stage v.size abortPayload := by
  obtain ⟨before, hsent⟩ := h.aborted e stage hhead.aborted
  have hwire := h.wire e
  rw [hhead.head, hsent, List.dropLast_concat, List.flatten_append] at hwire
  simpa using (List.append_cancel_left hwire).symm

/-- Two stages with one length. -/
theorem talkLen_eq_iff (stage stage' : Stage) (size : PayloadSize) :
    talkLen stage size = talkLen stage' size ↔
      (stage = .talkHandshake ↔ stage' = .talkHandshake) := by
  have hmin := size.min
  simp only [talkLen, talkHdrSize, talkPayloadMinSize] at *
  by_cases h : stage = .talkHandshake <;> by_cases h' : stage' = .talkHandshake <;>
    simp only [h, h', if_true, if_false] <;> simp <;> omega

/-! ### A PONG that comes too late -/

/-- A `_talk_recv` that times out before anything has come. -/
theorem talkRecv_timeout (e : Endpoint) (h : Host) (stage : Stage) (size : PayloadSize)
    (stream : List UInt8) :
    ∃ pkt, talkRecv e h stage size TalkPayload.zero [.fail .eagain] stream
      = some ((.err .eagain, pkt), stream, []) := by
  have hlen : 0 < talkLen stage size :=
    Nat.lt_of_lt_of_le (by decide) (talkHdrSize_le_talkLen stage size)
  have hread : netRead (talkLen stage size) [.fail .eagain] [] stream
      = some (.err .eagain, [], stream, []) := by
    simp [netRead, hlen]
  have hflags : (TalkPayload.zero.overlay h.order []).flags = 0 := by
    simp only [TalkPayload.overlay, TalkPayload.ofImage, TalkPayload.image, headerImage,
      List.nil_append, List.length_nil, List.drop_zero, List.take_take]
    simp [talkPayloadMaxSize, TalkPayload.zero, ByteOrder.load_store]
  have hff : (TalkPayload.zero.overlay h.order []).has .forceFail = false := by
    rw [TalkPayload.has, hflags]
    decide
  refine ⟨TalkPayload.zero.overlay h.order [], ?_⟩
  cases e <;>
    simp [talkRecv, netReadFromListener, netReadFromConnector, hread, talkRecvFinish, hff]

/-- The sender times out on the first PONG and aborts; the receiver has sent it and is at the
next exchange. -/
theorem abort_late_pong (v : TalkEnv) {d : Dir} {rest : List Dir}
    (hdirs : v.dirs = d :: rest) (hiter : 0 < v.iter.toNat)
    (hrole : d.role e = .sender)
    (hlisten : (TalkStep.handshake v.iter 1).speaker = .sender) :
    ∃ s : TalkPair, s.Reachable v timeouts ∧
      s.AbortAtHead e .talkHandshake (.handshake v.iter 1) := by
  have hpeer : e.peer ≠ e := e.peer_ne
  have hpeerRole : d.role e.peer = .receiver := by
    cases d <;> cases e <;> first | rfl | cases hrole
  have hstart : TalkStep.handshake v.iter 0 = .ping 0 := by rw [TalkStep.handshake, if_pos hiter]
  have h₀ : (init v).Both v d rest (.ping 0) := by
    refine ⟨?_, fun e => Party.ok_enter _, fun _ => rfl⟩
    intro e
    show (Party.enter v e _ v.dirs).pc = _
    rw [hdirs]
    simp only [Party.enter, hstart]
    rfl
  obtain ⟨s₁, hrun₁, h₁⟩ := h₀.next timeouts (fun _ hk => by cases hk) rfl
    (fun _ hk => by cases hk)
  have hinv := Reachable.wireInv hrun₁
  -- The PONG is sent ...
  have hsend := step_send timeouts (v := v) (h₁.pc e.peer) hpeerRole
  generalize hs₂ : spoken v s₁ e.peer d rest (.pong 0) = s₂ at hsend
  have hpc₂ : (s₂.party e).pc = .talk d rest (.pong 0) := by
    rw [← h₁.pc e, ← hs₂]
    exact congrArg Party.pc (Function.update_of_ne hpeer.symm _ _)
  -- ... but not in time ...
  obtain ⟨pkt, hrecv⟩ := talkRecv_timeout e (v.hosts e) .talkHandshake v.size (s₂.wire e.peer)
  have htimeout : Step v timeouts s₂ _ := .recv e hpc₂ (by rw [hrole]; exact fun hr => by cases hr)
    (by decide)
    (by intro r hr; exact .inr ⟨.eagain, by decide, congrArg _ (List.mem_singleton.mp hr)⟩)
    (List.nil_append _).symm hrecv
  generalize hs₃ : ({ s₂ with
    party := Function.update s₂.party e ((s₂.party e).hear v e d rest (.pong 0) (.err .eagain) pkt)
    wire := Function.update s₂.wire e.peer (s₂.wire e.peer)
    heard := Function.update s₂.heard e (s₂.heard e ++ [⟨.pong 0, [], .err .eagain, pkt⟩]) } :
      TalkPair) = s₃ at htimeout
  have hpc₃ : (s₃.party e).pc = .abort .talkHandshake := by
    simp only [← hs₃, Function.update_self]
    rfl
  -- ... and the sender aborts.
  have habort := step_abort timeouts (v := v) hpc₃
  refine ⟨_, ((hrun₁.tail hsend).tail htimeout).tail habort, ?_, ?_, ?_⟩
  · simp [abortSent]
  · have hwire := hinv.wire e
    rw [h₁.wire, List.append_nil] at hwire
    simp only [abortSent, ← hs₃, ← hs₂, spoken, consumed, Function.update_self,
      Function.update_of_ne hpeer, Function.update_of_ne hpeer.symm, List.dropLast_concat]
    exact hwire.symm
  · refine ⟨d, rest, ?_, ?_⟩
    · simp only [abortSent, ← hs₃, ← hs₂, spoken, Function.update_of_ne hpeer,
        Function.update_self]
      show (Party.arrive v e.peer (s₁.party e.peer) d rest (.handshake v.iter 1)).pc = _
      unfold Party.arrive
      split
      · rename_i hr
        rw [hpeerRole] at hr
        cases hr
      · rfl
    · rw [hpeerRole, hlisten]
      exact fun hr => by cases hr

end TalkPair

/-- **Abort delivery.** In every reachable state of a pair whose receives may time out, with
the abort of one party at the head of the other's channel, the next `_talk_recv` of the other
consumes exactly the abort and returns -1 with `UBWT_ERROR_ABORT` if and only if both parties
are in the HANDSHAKE stage or neither is. -/
theorem talk_abort_delivered_iff {v : TalkEnv} {s : TalkPair}
    (h : s.Reachable v TalkPair.timeouts) {e : Endpoint} {stage : Stage} {step : TalkStep}
    (hhead : s.AbortAtHead e stage step) :
    s.AbortDelivered v e stage step.stage ↔
      (stage = .talkHandshake ↔ step.stage = .talkHandshake) := by
  have hwire := h.wireInv.wire_abort hhead
  rw [← TalkPair.talkLen_eq_iff stage step.stage v.size]
  constructor
  · intro hdelivered
    obtain ⟨pkt, script', hrecv⟩ := hdelivered TalkPayload.zero
      (List.replicate (talkLen stage v.size) (.ret 1)) (splits_replicate _ _) (by simp)
    have hlen := talkRecv_length (splits_replicate _ _) hrecv
    rwa [hwire, length_talkSendBuf, List.length_nil, Nat.add_zero] at hlen
  · intro hlen prior script hs hfuel
    obtain ⟨pkt, script', hrecv, -, -, -⟩ := talkRecv_message e.peer (v.hosts e) (v.hosts e.peer)
      (v.workerSelf e) step.stage v.size abortPayload prior hs (hlen ▸ hfuel)
    rw [List.append_nil, ← TalkPair.talkSendBuf_congr _ _ _ hlen, ← hwire] at hrecv
    have hff : abortPayload.has .forceFail = true := by decide
    rw [if_pos hff] at hrecv
    exact ⟨pkt, script', hrecv⟩

/-- Two iterations of the handshake: the receiver waits for the second PING, and reads the
abort. -/
theorem talk_abort_delivered_handshake :
    ∃ s : TalkPair, s.Reachable { envMul10 0 with iter := 2 } TalkPair.timeouts ∧
      s.AbortAtHead .connector .talkHandshake (.ping 1) ∧
      s.AbortDelivered { envMul10 0 with iter := 2 } .connector .talkHandshake .talkHandshake := by
  obtain ⟨s, hrun, hhead⟩ := TalkPair.abort_late_pong { envMul10 0 with iter := 2 }
    (d := .straight) (e := .connector) rfl (by decide) rfl rfl
  exact ⟨s, hrun, hhead, (talk_abort_delivered_iff hrun hhead).mpr (by decide)⟩

/-- One iteration: the receiver is in the NEGOTIATION stage, and waits for more bytes than an
abort of the HANDSHAKE stage has. -/
theorem talk_abort_lost_negotiation :
    ∃ s : TalkPair, s.Reachable (envMul10 0) TalkPair.timeouts ∧
      s.AbortAtHead .connector .talkHandshake (.negotiate 0) ∧
      ¬s.AbortDelivered (envMul10 0) .connector .talkHandshake .talkNegotiation := by
  obtain ⟨s, hrun, hhead⟩ := TalkPair.abort_late_pong (envMul10 0) (d := .straight)
    (e := .connector) rfl (by decide) rfl rfl
  refine ⟨s, hrun, hhead, ?_⟩
  intro hdelivered
  obtain ⟨pkt, script', hrecv⟩ := hdelivered TalkPayload.zero
    (List.replicate (talkLen .talkHandshake (envMul10 0).size) (.ret 1)) (splits_replicate _ _)
    (by simp)
  have hlen := talkRecv_length (splits_replicate _ _) hrecv
  rw [(TalkPair.Reachable.wireInv hrun).wire_abort hhead, length_talkSendBuf] at hlen
  cases hlen

end Ubwt
