import Ubwt.Talk.Payload

/-!
# Ubwt.Talk.Wire

**The wire round trip.** A sequence of messages sent with `_talk_send` over one TCP
connection is received by `_talk_recv` calls made in the same stages, whatever the
transport makes of the bytes in between.

The two ends only share the byte stream: how much of it has arrived when a `read()`
is made is part of the read script, so a reader that runs while the writer is still
busy is covered by the scripts of a reader that comes after it.
-/

namespace Ubwt

open Lib

/-- One `_talk_send`: the message is appended to the wire whole. -/
theorem talkSend_splits (e : Endpoint) (h : Host) (workerSelf : UInt64) (stage : Stage)
    (size : PayloadSize)
    (pkt : TalkPayload) {script : List IoResult} {wire : List UInt8}
    (hs : Splits [.eintr, .enobufs] script) (hfuel : talkLen stage size ≤ transfers script) :
    ∃ script', talkSend e h workerSelf stage size pkt script wire
        = some (.ok (talkLen stage size), wire ++ talkSendBuf h workerSelf stage size pkt, script')
      ∧ Splits [.eintr, .enobufs] script'
      ∧ transfers script ≤ transfers script' + talkLen stage size := by
  have hlen := length_talkSendBuf h workerSelf stage size pkt
  obtain ⟨script', heq, hs', hle⟩ := netWrite_splits hs (Nat.zero_le _) (by rw [hlen]; exact hfuel)
  rw [hlen, List.drop_zero] at heq
  rw [hlen] at hle
  refine ⟨script', ?_, hs', hle⟩
  cases e <;> exact heq

/-- One `_talk_recv` with a message of its own stage at the head of the stream takes exactly
that message; it returns its length and its fields, or fails if the message forces it to. -/
theorem talkRecv_message (e : Endpoint) (tx rx : Host) (workerSelf : UInt64) (stage : Stage)
    (size : PayloadSize) (pkt prior : TalkPayload) {script : List IoResult} {rest : List UInt8}
    (hs : Splits [.eintr] script) (hfuel : talkLen stage size ≤ transfers script) :
    ∃ rcvd script', talkRecv e rx stage size prior script
          (talkSendBuf tx workerSelf stage size pkt ++ rest)
        = some ((if pkt.has .forceFail then .err .abort else .ok (talkLen stage size), rcvd),
            rest, script')
      ∧ SameMessage workerSelf stage size pkt rcvd
      ∧ Splits [.eintr] script'
      ∧ transfers script ≤ transfers script' + talkLen stage size := by
  have hlen := length_talkSendBuf tx workerSelf stage size pkt
  have hsame := toHost_overlay tx rx workerSelf stage size pkt prior
  obtain ⟨script', heq, hs', hle⟩ := @netRead_splits (talkLen stage size) script []
    (talkSendBuf tx workerSelf stage size pkt ++ rest) hs (Nat.zero_le _)
    (by rw [List.length_append, hlen]; simp) hfuel
  have htake : (talkSendBuf tx workerSelf stage size pkt ++ rest).take (talkLen stage size)
      = talkSendBuf tx workerSelf stage size pkt := List.take_left' hlen
  have hdrop : (talkSendBuf tx workerSelf stage size pkt ++ rest).drop (talkLen stage size)
      = rest := List.drop_left' hlen
  rw [List.length_nil, Nat.sub_zero, htake, hdrop, List.nil_append] at heq
  refine ⟨_, script', ?_, hsame, hs', by simpa using hle⟩
  have hff : ((prior.overlay rx.order (talkSendBuf tx workerSelf stage size pkt)).toHost rx).has
      .forceFail = pkt.has .forceFail := by
    rw [TalkPayload.has, hsame.flags, TalkPayload.has]
  have hread : talkRecv e rx stage size prior script
        (talkSendBuf tx workerSelf stage size pkt ++ rest)
      = some (talkRecvFinish rx (talkLen stage size) (.ok (talkLen stage size))
          (prior.overlay rx.order (talkSendBuf tx workerSelf stage size pkt)), rest, script') := by
    cases e <;> simp only [talkRecv, netReadFromListener, netReadFromConnector, heq]
  rw [hread]
  simp only [talkRecvFinish, if_true, hff]
  split <;> rfl

/-- The same for a message that does not force a failure. -/
theorem talkRecv_splits (e : Endpoint) (tx rx : Host) (workerSelf : UInt64) (stage : Stage)
    (size : PayloadSize) (pkt prior : TalkPayload) (hff : pkt.has .forceFail = false)
    {script : List IoResult} {rest : List UInt8}
    (hs : Splits [.eintr] script) (hfuel : talkLen stage size ≤ transfers script) :
    ∃ rcvd script', talkRecv e rx stage size prior script
          (talkSendBuf tx workerSelf stage size pkt ++ rest)
        = some ((.ok (talkLen stage size), rcvd), rest, script')
      ∧ SameMessage workerSelf stage size pkt rcvd
      ∧ Splits [.eintr] script'
      ∧ transfers script ≤ transfers script' + talkLen stage size := by
  simpa [hff] using
    talkRecv_message e tx rx workerSelf stage size pkt prior hs hfuel

/-- A `_talk_send` that returned a count put its message on the wire. -/
theorem talkSend_ok {e : Endpoint} {h : Host} {workerSelf : UInt64} {stage : Stage}
    {size : PayloadSize} {pkt : TalkPayload} {script script' : List IoResult} {n : Nat}
    {wire wire' : List UInt8}
    (hsend : talkSend e h workerSelf stage size pkt script wire = some (.ok n, wire', script')) :
    wire' = wire ++ talkSendBuf h workerSelf stage size pkt := by
  cases e <;> exact netWrite_ok (Nat.zero_le _) hsend

/-- What a `_talk_recv` that returned did: its read loop, and the rest. -/
theorem talkRecv_inv {e : Endpoint} {h : Host} {stage : Stage} {size : PayloadSize}
    {prior rcvd : TalkPayload} {script script' : List IoResult} {ret : IoReturn}
    {stream stream' : List UInt8}
    (hrecv : talkRecv e h stage size prior script stream = some ((ret, rcvd), stream', script')) :
    ∃ ret₀ got, netRead (talkLen stage size) script [] stream = some (ret₀, got, stream', script')
      ∧ talkRecvFinish h (talkLen stage size) ret₀ (prior.overlay h.order got) = (ret, rcvd) := by
  cases e <;>
    simp only [talkRecv, netReadFromListener, netReadFromConnector] at hrecv <;>
    split at hrecv <;>
    first
      | cases hrecv
      | (simp only [Option.some.injEq, Prod.mk.injEq] at hrecv
         obtain ⟨hfin, rfl, rfl⟩ := hrecv
         exact ⟨_, _, ‹_›, hfin⟩)

/-- A `_talk_recv` that returned a count, with a message of its own stage at the head
of the stream, took exactly that message. -/
theorem talkRecv_ok {e : Endpoint} {tx rx : Host} {workerSelf : UInt64} {stage : Stage}
    {size : PayloadSize} {pkt prior rcvd : TalkPayload} {script script' : List IoResult} {n : Nat}
    {rest stream' : List UInt8}
    (hrecv : talkRecv e rx stage size prior script (talkSendBuf tx workerSelf stage size pkt ++ rest)
      = some ((.ok n, rcvd), stream', script')) :
    SameMessage workerSelf stage size pkt rcvd ∧ stream' = rest := by
  have hlen := length_talkSendBuf tx workerSelf stage size pkt
  have hsame := toHost_overlay tx rx workerSelf stage size pkt prior
  obtain ⟨ret, got, hread, hfin⟩ := talkRecv_inv hrecv
  obtain ⟨rfl, hpkt⟩ := talkRecvFinish_ok hfin
  obtain ⟨rfl, hgot, happ⟩ := netRead_ok (Nat.zero_le _) hread
  rw [List.nil_append] at happ
  obtain ⟨rfl, rfl⟩ := List.append_inj happ (by rw [hgot, hlen])
  rw [if_pos rfl] at hpkt
  exact ⟨hpkt ▸ hsame, rfl⟩

/-- A `_talk_recv` that is not timed out takes as many bytes as its stage says. -/
theorem talkRecv_length {e : Endpoint} {rx : Host} {stage : Stage} {size : PayloadSize}
    {prior rcvd : TalkPayload} {script script' : List IoResult} {ret : IoReturn}
    {stream stream' : List UInt8} (hs : Splits [.eintr] script)
    (hrecv : talkRecv e rx stage size prior script stream = some ((ret, rcvd), stream', script')) :
    stream.length = talkLen stage size + stream'.length := by
  obtain ⟨ret₀, got, hread, -⟩ := talkRecv_inv hrecv
  have hret := netRead_ret_of_splits hs (Nat.zero_le _) hread
  subst hret
  obtain ⟨-, hgot, happ⟩ := netRead_ok (Nat.zero_le _) hread
  rw [List.nil_append] at happ
  rw [← happ, List.length_append, hgot]

/-- A `_talk_recv` that is not timed out, with a message of its own stage at the head of the
stream that does not force a failure, returns its length. -/
theorem talkRecv_ret {e : Endpoint} {tx rx : Host} {workerSelf : UInt64} {stage : Stage}
    {size : PayloadSize} {pkt prior rcvd : TalkPayload} {script script' : List IoResult}
    {ret : IoReturn} {rest stream' : List UInt8} (hs : Splits [.eintr] script)
    (hff : pkt.has .forceFail = false)
    (hrecv : talkRecv e rx stage size prior script (talkSendBuf tx workerSelf stage size pkt ++ rest)
      = some ((ret, rcvd), stream', script')) :
    ret = .ok (talkLen stage size) := by
  have hlen := length_talkSendBuf tx workerSelf stage size pkt
  have hsame := toHost_overlay tx rx workerSelf stage size pkt prior
  obtain ⟨ret₀, got, hread, hfin⟩ := talkRecv_inv hrecv
  have hret := netRead_ret_of_splits hs (Nat.zero_le _) hread
  subst hret
  obtain ⟨-, hgot, happ⟩ := netRead_ok (Nat.zero_le _) hread
  rw [List.nil_append] at happ
  obtain ⟨rfl, rfl⟩ := List.append_inj happ (by rw [hgot, hlen])
  have hno : ((prior.overlay rx.order (talkSendBuf tx workerSelf stage size pkt)).toHost rx).has
      .forceFail = false := by
    rw [TalkPayload.has, hsame.flags]
    exact hff
  simp only [talkRecvFinish, if_true, hno, Bool.false_eq_true, if_false, Prod.mk.injEq] at hfin
  exact hfin.1.symm

/-- The `_talk_send` calls of one worker on one connection, each in its stage. -/
def talkSendAll (e : Endpoint) (h : Host) (workerSelf : UInt64) (size : PayloadSize) :
    List (Stage × TalkPayload) → List IoResult → List UInt8 →
      Option (List IoReturn × List UInt8 × List IoResult)
  | [], script, wire => some ([], wire, script)
  | (stage, pkt) :: msgs, script, wire => do
    let (ret, wire, script) ← talkSend e h workerSelf stage size pkt script wire
    let (rets, wire, script) ← talkSendAll e h workerSelf size msgs script wire
    return (ret :: rets, wire, script)

/-- The `_talk_recv` calls of the peer, each in its stage and into a packet with some
earlier content. -/
def talkRecvAll (e : Endpoint) (h : Host) (size : PayloadSize) :
    List (Stage × TalkPayload) → List IoResult → List UInt8 →
      Option (List (IoReturn × TalkPayload) × List UInt8 × List IoResult)
  | [], script, stream => some ([], stream, script)
  | (stage, prior) :: calls, script, stream => do
    let (rcvd, stream, script) ← talkRecv e h stage size prior script stream
    let (rcvds, stream, script) ← talkRecvAll e h size calls script stream
    return (rcvd :: rcvds, stream, script)

/-- The number of bytes a sequence of calls transfers. -/
def talkBytes (size : PayloadSize) (stages : List Stage) : Nat :=
  (stages.map (talkLen · size)).sum

theorem talkSendAll_splits (e : Endpoint) (h : Host) (workerSelf : UInt64) (size : PayloadSize)
    (msgs : List (Stage × TalkPayload)) {script : List IoResult} {wire : List UInt8}
    (hs : Splits [.eintr, .enobufs] script)
    (hfuel : talkBytes size (msgs.map Prod.fst) ≤ transfers script) :
    ∃ script', talkSendAll e h workerSelf size msgs script wire
      = some (msgs.map (fun m => .ok (talkLen m.1 size)),
          wire ++ msgs.flatMap (fun m => talkSendBuf h workerSelf m.1 size m.2), script') := by
  induction msgs generalizing script wire with
  | nil => exact ⟨script, by simp [talkSendAll]⟩
  | cons m msgs ih =>
      obtain ⟨stage, pkt⟩ := m
      simp only [talkBytes, List.map_cons, List.sum_cons] at hfuel
      obtain ⟨script', heq, hs', hle⟩ :=
        @talkSend_splits e h workerSelf stage size pkt script wire hs (by omega)
      obtain ⟨script'', heq'⟩ :=
        @ih script' (wire ++ talkSendBuf h workerSelf stage size pkt) hs'
          (by unfold talkBytes; omega)
      exact ⟨script'', by simp [talkSendAll, heq, heq']⟩

theorem talkRecvAll_splits (e : Endpoint) (tx rx : Host) (workerSelf : UInt64) (size : PayloadSize)
    (msgs : List (Stage × TalkPayload)) (priors : List TalkPayload)
    (hpriors : priors.length = msgs.length) (hff : ∀ m ∈ msgs, m.2.has .forceFail = false)
    {script : List IoResult} {rest : List UInt8} (hs : Splits [.eintr] script)
    (hfuel : talkBytes size (msgs.map Prod.fst) ≤ transfers script) :
    ∃ rcvds script', talkRecvAll e rx size ((msgs.map Prod.fst).zip priors) script
          (msgs.flatMap (fun m => talkSendBuf tx workerSelf m.1 size m.2) ++ rest)
        = some (rcvds, rest, script')
      ∧ List.Forall₂ (fun m r => r.1 = .ok (talkLen m.1 size)
          ∧ SameMessage workerSelf m.1 size m.2 r.2) msgs rcvds := by
  induction msgs generalizing priors script with
  | nil => exact ⟨[], script, by simp [talkRecvAll], .nil⟩
  | cons m msgs ih =>
      obtain ⟨stage, pkt⟩ := m
      cases priors with
      | nil => simp at hpriors
      | cons prior priors =>
          simp only [talkBytes, List.map_cons, List.sum_cons] at hfuel
          obtain ⟨rcvd, script', heq, hsame, hs', hle⟩ :=
            @talkRecv_splits e tx rx workerSelf stage size pkt prior
              (hff (stage, pkt) (List.mem_cons_self ..)) script
              (msgs.flatMap (fun m => talkSendBuf tx workerSelf m.1 size m.2) ++ rest)
              hs (by omega)
          obtain ⟨rcvds, script'', heq', hall⟩ := ih priors (by simpa using hpriors)
            (fun m hm => hff m (List.mem_cons_of_mem _ hm)) hs' (by unfold talkBytes; omega)
          refine ⟨(.ok (talkLen stage size), rcvd) :: rcvds, script'', ?_, .cons ⟨rfl, hsame⟩ hall⟩
          simp [talkRecvAll, heq, heq']

/-- **Wire round trip.** Messages without the FORCE_FAIL bit, sent one after the other
over TCP and received by calls made in the same stages, come out as they went in:
nothing is lost, duplicated or reordered. The write and the read script are arbitrary
but for having enough successful calls to move all the bytes; the sender may be either
end of the connection, the hosts at the two ends may differ in byte order and in their
definition of `net_htonll`, and the receiver's packets may have held anything before. -/
theorem talkRecvAll_talkSendAll (e : Endpoint) (tx rx : Host) (workerSelf : UInt64)
    (size : PayloadSize) (msgs : List (Stage × TalkPayload)) (hff : ∀ m ∈ msgs, m.2.has .forceFail = false)
    (priors : List TalkPayload) (hpriors : priors.length = msgs.length)
    (wscript rscript : List IoResult) (hw : Splits [.eintr, .enobufs] wscript)
    (hr : Splits [.eintr] rscript)
    (hwfuel : talkBytes size (msgs.map Prod.fst) ≤ transfers wscript)
    (hrfuel : talkBytes size (msgs.map Prod.fst) ≤ transfers rscript) :
    ∃ rets wire wscript' rcvds rscript',
      talkSendAll e tx workerSelf size msgs wscript [] = some (rets, wire, wscript')
      ∧ rets = msgs.map (fun m => .ok (talkLen m.1 size))
      ∧ talkRecvAll e.peer rx size ((msgs.map Prod.fst).zip priors) rscript wire
          = some (rcvds, [], rscript')
      ∧ List.Forall₂ (fun m r => r.1 = .ok (talkLen m.1 size)
          ∧ SameMessage workerSelf m.1 size m.2 r.2) msgs rcvds := by
  obtain ⟨wscript', hsend⟩ := talkSendAll_splits e tx workerSelf size msgs hw hwfuel
  obtain ⟨rcvds, rscript', hrecv, hall⟩ :=
    talkRecvAll_splits e.peer tx rx workerSelf size msgs priors hpriors hff hr hrfuel
  rw [List.append_nil] at hrecv
  exact ⟨_, _, wscript', rcvds, rscript', hsend, rfl, hrecv, hall⟩

/-- A PING, cut into pieces of three bytes or less by interrupted calls. -/
theorem talkRecvAll_talkSendAll_ping :
    ∃ rets wire wscript' rcvds rscript',
      talkSendAll .connector ⟨.little, .inlineFunction⟩ 7 ⟨1432, by decide, by decide⟩
          [(.talkHandshake, { TalkPayload.zero with flags := bitSet 0 TalkOp.ping.bit, count := 20 })]
          (.fail .eintr :: .fail .enobufs :: List.replicate 32 (.ret 1)) []
        = some (rets, wire, wscript')
      ∧ rets = [.ok 32]
      ∧ talkRecvAll .listener ⟨.big, .clangMacro⟩ ⟨1432, by decide, by decide⟩
          [(.talkHandshake, TalkPayload.zero)]
          (.ret 3 :: .fail .eintr :: List.replicate 32 (.ret 2)) wire
        = some (rcvds, [], rscript')
      ∧ List.Forall₂ (fun m r => r.1 = .ok (talkLen m.1 ⟨1432, by decide, by decide⟩)
          ∧ SameMessage 7 m.1 ⟨1432, by decide, by decide⟩ m.2 r.2)
          [(.talkHandshake, { TalkPayload.zero with flags := bitSet 0 TalkOp.ping.bit, count := 20 })]
          rcvds :=
  talkRecvAll_talkSendAll .connector ⟨.little, .inlineFunction⟩ ⟨.big, .clangMacro⟩ 7
    ⟨1432, by decide, by decide⟩
    [(.talkHandshake, { TalkPayload.zero with flags := bitSet 0 TalkOp.ping.bit, count := 20 })]
    (by simp; decide) [TalkPayload.zero] rfl
    (.fail .eintr :: .fail .enobufs :: List.replicate 32 (.ret 1))
    (.ret 3 :: .fail .eintr :: List.replicate 32 (.ret 2))
    (by unfold Splits; decide) (by unfold Splits; decide) (by decide) (by decide)

end Ubwt
