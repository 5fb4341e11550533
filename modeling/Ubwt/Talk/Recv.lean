import Ubwt.Net.Arrival
import Ubwt.Talk.Wire

/-!
# Ubwt.Talk.Recv

What `_talk_recv` leaves behind when its message does not come whole: the peer closes
the connection, the read times out, or it fails in some other way.

**A failing call may already have copied a part of the message into the caller's
packet.** Those bytes are gone from the connection, so a program that goes on after a
time-out starts inside a message (`talkRecv_timeout_boundary_iff`); and the FORCE_FAIL
test is made on the packet even then, on flags that are left over from an earlier message
or still in network order, with an `errno` that has been through `error_handler()`
(`talkRecv_exact_iff`).
-/

namespace Ubwt

open Lib Lib.Endian

/-! ### The outcome of a call -/

/-- The flags word of a packet after these bytes were put over its start: the bytes that
came, and what they leave of the old word. -/
def flagsAfter (h : Host) (prior : UInt32) (bytes : List UInt8) : UInt32 :=
  UInt32.ofNat (h.order.load ((bytes ++ (h.order.store 4 prior.toNat).drop bytes.length).take 4))

theorem overlay_flags (h : Host) (prior : TalkPayload) (bytes : List UInt8) :
    (prior.overlay h.order bytes).flags = flagsAfter h prior.flags bytes := by
  obtain ⟨rest, himage⟩ : ∃ rest,
      prior.image h.order = h.order.store 4 prior.flags.toNat ++ rest := by
    unfold TalkPayload.image headerImage
    exact ⟨_, List.append_assoc ..⟩
  have hword : (bytes ++ (prior.image h.order).drop bytes.length).take 4
      = (bytes ++ (h.order.store 4 prior.flags.toNat).drop bytes.length).take 4 := by
    rw [himage, List.drop_append, ← List.append_assoc]
    refine List.take_append_of_le_length ?_
    rw [List.length_append, List.length_drop, ByteOrder.length_store]
    omega
  simp only [TalkPayload.overlay, TalkPayload.ofImage, List.take_take]
  rw [show min 4 talkPayloadMaxSize = 4 from rfl, hword, flagsAfter]

theorem talkRecvFinish_whole (h : Host) (len : Nat) (pkt : TalkPayload) :
    talkRecvFinish h len (.ok len) pkt
      = (if (pkt.toHost h).has .forceFail then .err .abort else .ok len, pkt.toHost h) := by
  simp only [talkRecvFinish, if_true]
  split <;> rfl

theorem talkRecvFinish_fail (h : Host) (len : Nat) (err : Errno) (pkt : TalkPayload) :
    talkRecvFinish h len (.err err) pkt
      = (if pkt.has .forceFail then .err .abort else .err err, pkt) := by
  simp only [talkRecvFinish, reduceCtorEq, if_false]
  split <;> rfl

theorem flagsAfter_of_le {bytes : List UInt8} (hle : 4 ≤ bytes.length) (h : Host) (prior : UInt32) :
    flagsAfter h prior bytes = UInt32.ofNat (h.order.load (bytes.take 4)) := by
  rw [flagsAfter, List.take_append_of_le_length hle]

/-- **What a `_talk_recv` that returned did.** Either the whole message had arrived before
the first failure, or the call failed there with what had arrived in the packet. -/
theorem talkRecv_cases {e : Endpoint} {h : Host} {stage : Stage} {size : PayloadSize}
    {prior rcvd : TalkPayload} {script script' : List IoResult} {ret : IoReturn}
    {stream stream' : List UInt8}
    (hrecv : talkRecv e h stage size prior script stream = some ((ret, rcvd), stream', script')) :
    (talkLen stage size ≤ (arrived script stream).length
      ∧ stream' = stream.drop (talkLen stage size)
      ∧ talkRecvFinish h (talkLen stage size) (.ok (talkLen stage size))
          (prior.overlay h.order (stream.take (talkLen stage size))) = (ret, rcvd))
    ∨ ∃ err, (arrived script stream).length < talkLen stage size
      ∧ errnoLeft script = some err
      ∧ stream' = stream.drop (arrived script stream).length
      ∧ talkRecvFinish h (talkLen stage size) (.err err)
          (prior.overlay h.order (arrived script stream)) = (ret, rcvd) := by
  obtain ⟨ret₀, got, hread, hfin⟩ := talkRecv_inv hrecv
  have hout := netRead_outcome [] (Nat.zero_le (talkLen stage size)) script stream
  rw [hread] at hout
  simp only [Option.map_some, readOutcome, List.length_nil, Nat.zero_add, List.nil_append,
    Nat.sub_zero] at hout
  split at hout
  · rename_i hle
    cases hout
    exact .inl ⟨hle, rfl, hfin⟩
  · rename_i hle
    split at hout
    · cases hout
    · rename_i err herr
      cases hout
      exact .inr ⟨err, Nat.lt_of_not_le hle, herr, rfl, hfin⟩

/-- A call whose message does not come before a failure returns, and fails. -/
theorem talkRecv_fails (e : Endpoint) (h : Host) (stage : Stage) (size : PayloadSize)
    (prior : TalkPayload) (script : List IoResult) (stream : List UInt8) (err : Errno)
    (hlt : (arrived script stream).length < talkLen stage size)
    (herr : errnoLeft script = some err) :
    ∃ script', talkRecv e h stage size prior script stream
      = some (talkRecvFinish h (talkLen stage size) (.err err)
          (prior.overlay h.order (arrived script stream)),
        stream.drop (arrived script stream).length, script') := by
  have hout := netRead_outcome [] (Nat.zero_le (talkLen stage size)) script stream
  rw [readOutcome, List.length_nil, Nat.zero_add, if_neg (Nat.not_le_of_lt hlt), herr,
    Option.map_eq_some_iff] at hout
  obtain ⟨⟨ret, got, stream', script'⟩, hread, heq⟩ := hout
  cases heq
  refine ⟨script', ?_⟩
  cases e <;> simp only [talkRecv, netReadFromListener, netReadFromConnector, hread] <;> rfl

/-- A call returns if its message comes whole or a read fails for good. -/
theorem talkRecv_isSome (e : Endpoint) (h : Host) (stage : Stage) (size : PayloadSize)
    (prior : TalkPayload) (script : List IoResult) (stream : List UInt8) :
    (talkRecv e h stage size prior script stream).isSome
      = (netRead (talkLen stage size) script [] stream).isSome := by
  cases e <;>
    simp only [talkRecv, netReadFromListener, netReadFromConnector] <;>
    split <;> simp_all

/-! ### End of file -/

/-- A read loop that finds an end of file after `pre` is out of its loop exactly if
`pre` brought everything. -/
theorem netRead_eof_isSome (len n : Nat) {pre : List IoResult} (hpre : Splits [.eintr] pre)
    (stream : List UInt8) :
    (netRead len (pre ++ List.replicate n (.ret 0)) [] stream).isSome
      ↔ len ≤ min (delivered pre) stream.length := by
  have hgoes : ∀ r ∈ pre ++ List.replicate n (IoResult.ret 0), r.retried = true := by
    intro r hr
    rcases List.mem_append.mp hr with hr | hr
    · rcases hpre r hr with hp | ⟨err, herr, hfails⟩
      · cases r with
        | ret m => rfl
        | fail err left => cases hp
      · obtain ⟨left, rfl⟩ := IoResult.exists_fail hfails
        exact (retried_fail err left).mpr (List.mem_singleton.mp herr)
    · rw [List.eq_of_mem_replicate hr]
      rfl
  have hzero : delivered (List.replicate n (IoResult.ret 0)) = 0 := by
    simp [delivered, IoResult.moved]
  have huntil : untilFailure (pre ++ List.replicate n (IoResult.ret 0))
      = pre ++ List.replicate n (.ret 0) := List.takeWhile_eq_self_iff.mpr hgoes
  have hfail : errnoLeft (pre ++ List.replicate n (IoResult.ret 0)) = none := by
    rw [errnoLeft, List.dropWhile_eq_nil_iff.mpr hgoes]
  have hlen : (arrived (pre ++ List.replicate n (.ret 0)) stream).length
      = min (delivered pre) stream.length := by
    rw [arrived, List.length_take, huntil, delivered_append, hzero, Nat.add_zero]
  have hout := netRead_outcome [] (Nat.zero_le len) (pre ++ List.replicate n (.ret 0)) stream
  rw [← Option.isSome_map, hout, readOutcome, hfail, hlen, List.length_nil, Nat.zero_add]
  split <;> simp_all

/-- **A read loop ends at an end of file exactly if it has nothing left to read.** The
results before the end of file are `pre`; if they bring the requested length both loops
return, and so does every `_talk_recv` that asked for it; if not, none of them ever does,
for the zero that `read()` then returns is counted as a transfer. -/
theorem netRead_eof_returns_iff (pre : List IoResult) (hpre : Splits [.eintr] pre)
    (stream : List UInt8) :
    (∀ len, (∃ n r, netReadFromConnector len (pre ++ List.replicate n (.ret 0)) stream = some r)
        ∧ (∃ n r, netReadFromListener len (pre ++ List.replicate n (.ret 0)) stream = some r)
      ↔ len ≤ min (delivered pre) stream.length)
    ∧ ∀ e h stage size prior,
      (∃ n r, talkRecv e h stage size prior (pre ++ List.replicate n (.ret 0)) stream = some r)
      ↔ talkLen stage size ≤ min (delivered pre) stream.length := by
  have hloop : ∀ len, (∃ n r, netRead len (pre ++ List.replicate n (.ret 0)) [] stream = some r)
      ↔ len ≤ min (delivered pre) stream.length := by
    intro len
    simp only [← Option.isSome_iff_exists, netRead_eof_isSome len _ hpre stream, exists_const]
  refine ⟨fun len => ?_, fun e h stage size prior => ?_⟩
  · exact ⟨fun hret => (hloop len).mp hret.1,
      fun hle => ⟨(hloop len).mpr hle, (hloop len).mpr hle⟩⟩
  · rw [← hloop]
    simp only [← Option.isSome_iff_exists, talkRecv_isSome]

/-- A header that came in two pieces before the peer closed. -/
theorem netRead_eof_returns_header :
    Splits [.eintr] [.ret 20, .fail .eintr, .ret 12]
    ∧ (∃ n r, netReadFromConnector 32 ([.ret 20, .fail .eintr, .ret 12] ++ List.replicate n (.ret 0))
        (List.replicate 32 0) = some r)
    ∧ ∃ n r, netReadFromListener 32 ([.ret 20, .fail .eintr, .ret 12] ++ List.replicate n (.ret 0))
        (List.replicate 32 0) = some r := by
  have hpre : Splits [.eintr] [.ret 20, .fail .eintr, .ret 12] := by
    unfold Splits
    decide
  exact ⟨hpre, ((netRead_eof_returns_iff _ hpre (List.replicate 32 0)).1 32).mpr (by decide)⟩

/-- Ten bytes of a header, then the peer closes: neither loop ever returns. -/
theorem netRead_eof_spins :
    ¬ ∀ (len : Nat) (pre : List IoResult) (stream : List UInt8), Splits [.eintr] pre →
      (∃ n r, netReadFromConnector len (pre ++ List.replicate n (.ret 0)) stream = some r)
      ∧ ∃ n r, netReadFromListener len (pre ++ List.replicate n (.ret 0)) stream = some r := by
  intro hreturns
  have hpre : Splits [.eintr] [.ret 10] := by
    unfold Splits
    decide
  obtain ⟨⟨n, r, hread⟩, -⟩ := hreturns 32 [.ret 10] (List.replicate 10 0) hpre
  have hle := (netRead_eof_isSome 32 n hpre (List.replicate 10 0)).mp
    (Option.isSome_iff_exists.mpr ⟨r, hread⟩)
  exact absurd hle (by decide)

/-! ### Time-outs -/

/-- A timed-out call had read nothing when the time-out struck. -/
def TimesOutQuietly (script : List IoResult) : Prop := delivered (untilFailure script) = 0

/-- A run of `_talk_recv` calls on one connection, from one state to another: the stages
of the messages that are still to come, and the bytes that are still to be read. Each
call is made in the stage of the message it is to read. A call that got its message
leaves the next one to the next call; a call that was timed out, and had read nothing,
leaves its own. -/
inductive TalkReads (e : Endpoint) (rx : Host) (size : PayloadSize) (s : List Stage × List UInt8) :
    List Stage × List UInt8 → Prop
  | refl : TalkReads e rx size s s
  | message {stage : Stage} {stages : List Stage} {stream stream' : List UInt8}
      {prior rcvd : TalkPayload} {script script' : List IoResult} {n : Nat}
      (hrun : TalkReads e rx size s (stage :: stages, stream))
      (hrecv : talkRecv e rx stage size prior script stream
        = some ((.ok n, rcvd), stream', script')) :
      TalkReads e rx size s (stages, stream')
  | timeout {stage : Stage} {stages : List Stage} {stream stream' : List UInt8}
      {prior rcvd : TalkPayload} {script script' : List IoResult}
      (hrun : TalkReads e rx size s (stages, stream))
      (hstage : ∀ stage' ∈ stages.head?, stage' = stage)
      (hquiet : TimesOutQuietly script)
      (hrecv : talkRecv e rx stage size prior script stream
        = some ((.err .eagain, rcvd), stream', script')) :
      TalkReads e rx size s (stages, stream')

/-- A call that returned a count took one message. -/
theorem talkRecv_ok_stream {e : Endpoint} {rx : Host} {stage : Stage} {size : PayloadSize}
    {prior rcvd : TalkPayload} {script script' : List IoResult} {n : Nat}
    {stream stream' : List UInt8}
    (hrecv : talkRecv e rx stage size prior script stream
      = some ((.ok n, rcvd), stream', script')) :
    talkLen stage size ≤ stream.length ∧ stream' = stream.drop (talkLen stage size) := by
  rcases talkRecv_cases hrecv with ⟨hle, hstream, -⟩ | ⟨err, -, -, -, hfin⟩
  · rw [arrived, List.length_take] at hle
    exact ⟨by omega, hstream⟩
  · cases (talkRecvFinish_ok hfin).1

/-- A call that was timed out took what had arrived, less than its message. -/
theorem talkRecv_timeout_stream {e : Endpoint} {rx : Host} {stage : Stage} {size : PayloadSize}
    {prior rcvd : TalkPayload} {script script' : List IoResult} {stream stream' : List UInt8}
    (hrecv : talkRecv e rx stage size prior script stream
      = some ((.err .eagain, rcvd), stream', script')) :
    (arrived script stream).length < talkLen stage size
      ∧ stream' = stream.drop (arrived script stream).length := by
  rcases talkRecv_cases hrecv with ⟨-, -, hfin⟩ | ⟨err, hlt, -, hstream, -⟩
  · rw [talkRecvFinish_whole, Prod.mk.injEq] at hfin
    have hret := hfin.1
    split at hret <;> cases hret
  · exact ⟨hlt, hstream⟩

theorem TimesOutQuietly.arrived_eq {script : List IoResult} (h : TimesOutQuietly script)
    (stream : List UInt8) : arrived script stream = [] := by
  rw [arrived, h, List.take_zero]

@[simp] theorem talkBytes_append (size : PayloadSize) (stages stages' : List Stage) :
    talkBytes size (stages ++ stages') = talkBytes size stages + talkBytes size stages' := by
  simp [talkBytes]

@[simp] theorem talkBytes_singleton (size : PayloadSize) (stage : Stage) :
    talkBytes size [stage] = talkLen stage size := by
  simp [talkBytes]

theorem talkBytes_take_mono (size : PayloadSize) (stages : List Stage) {k k' : Nat} (h : k ≤ k') :
    talkBytes size (stages.take k) ≤ talkBytes size (stages.take k') := by
  obtain ⟨d, rfl⟩ := Nat.exists_eq_add_of_le h
  rw [List.take_add, talkBytes_append]
  exact Nat.le_add_right ..

/-- The message behind the first `k` ones. -/
theorem talkBytes_take_succ (size : PayloadSize) {all rest : List Stage} {stage : Stage} {k : Nat}
    (h : stage :: rest = all.drop k) :
    k < all.length ∧ rest = all.drop (k + 1)
      ∧ talkBytes size (all.take (k + 1)) = talkBytes size (all.take k) + talkLen stage size := by
  have hk : k < all.length := by
    by_contra hge
    rw [List.drop_eq_nil_of_le (Nat.le_of_not_lt hge)] at h
    cases h
  rw [List.drop_eq_getElem_cons hk] at h
  obtain ⟨hhead, htail⟩ := List.cons.inj h
  refine ⟨hk, htail, ?_⟩
  rw [List.take_succ_eq_append_getElem hk, ← hhead, talkBytes_append, talkBytes_singleton]

/-- **The run invariant**: the calls are at the start of a message. -/
theorem TalkReads.at_boundary {e : Endpoint} {rx : Host} {size : PayloadSize}
    {all stages : List Stage} {wire stream : List UInt8}
    (hrun : TalkReads e rx size (all, wire) (stages, stream)) :
    ∃ k, k ≤ all.length ∧ stages = all.drop k
      ∧ wire.length = talkBytes size (all.take k) + stream.length := by
  generalize ht : (stages, stream) = t at hrun
  induction hrun generalizing stages stream with
  | refl =>
      cases ht
      exact ⟨0, Nat.zero_le _, rfl, by simp [talkBytes]⟩
  | @message stage _ stream₀ stream' _ _ _ _ _ _ hrecv ih =>
      cases ht
      obtain ⟨k, hk, hstages, hlen⟩ := ih rfl
      obtain ⟨hle, hdrop⟩ := talkRecv_ok_stream hrecv
      obtain ⟨hk', htail, hnext⟩ := talkBytes_take_succ size hstages
      refine ⟨k + 1, hk', htail, ?_⟩
      rw [hlen, hdrop, hnext, List.length_drop]
      omega
  | @timeout stage stages₀ stream₀ stream' _ _ script _ _ _ hquiet hrecv ih =>
      cases ht
      obtain ⟨k, hk, hstages, hlen⟩ := ih rfl
      obtain ⟨-, hdrop⟩ := talkRecv_timeout_stream hrecv
      rw [hquiet.arrived_eq, List.length_nil, List.drop_zero] at hdrop
      exact ⟨k, hk, hstages, hdrop ▸ hlen⟩

/-- **A time-out leaves the stream at a message boundary exactly if the call had read
nothing** of its message, or there was none. The wire holds whole messages, and whatever
calls went before took their messages or were timed out in that way. -/
theorem talkRecv_timeout_boundary_iff {e : Endpoint} {tx rx : Host} {workerSelf : UInt64}
    {size : PayloadSize} (msgs : List (Stage × TalkPayload)) {stages : List Stage} {stage : Stage}
    {stream stream' : List UInt8} {prior rcvd : TalkPayload} {script script' : List IoResult}
    (hrun : TalkReads e rx size
      (msgs.map Prod.fst, msgs.flatMap (fun m => talkSendBuf tx workerSelf m.1 size m.2))
      (stages, stream))
    (hstage : ∀ stage' ∈ stages.head?, stage' = stage)
    (hrecv : talkRecv e rx stage size prior script stream
      = some ((.err .eagain, rcvd), stream', script')) :
    (∃ k ≤ msgs.length, (msgs.flatMap (fun m => talkSendBuf tx workerSelf m.1 size m.2)).length
        = talkBytes size ((msgs.map Prod.fst).take k) + stream'.length)
      ↔ stages = [] ∨ TimesOutQuietly script := by
  have hwire : (msgs.flatMap (fun m => talkSendBuf tx workerSelf m.1 size m.2)).length
      = talkBytes size (msgs.map Prod.fst) := by
    simp [List.length_flatMap, length_talkSendBuf, talkBytes, Function.comp_def]
  obtain ⟨k, hk, hstages, hlen⟩ := hrun.at_boundary
  obtain ⟨hlt, hdrop⟩ := talkRecv_timeout_stream hrecv
  rw [List.length_map] at hk
  have harrived : (arrived script stream).length ≤ stream.length := by
    rw [arrived, List.length_take]
    omega
  have hlen' : stream.length = (arrived script stream).length + stream'.length := by
    rw [hdrop, List.length_drop]
    omega
  constructor
  · rintro ⟨k', hk', heq⟩
    cases hs : stages with
    | nil => exact .inl rfl
    | cons stage' rest =>
        right
        subst hs
        obtain rfl : stage' = stage := hstage stage' rfl
        obtain ⟨hk₁, -, hnext⟩ := talkBytes_take_succ size hstages
        -- Between the boundaries `k` and `k + 1` there is no other one.
        have hnone : (arrived script stream).length = 0 := by
          rcases Nat.lt_or_ge k k' with hgt | hle
          · have hle : talkBytes size ((msgs.map Prod.fst).take (k + 1)) ≤ _ :=
              talkBytes_take_mono size (msgs.map Prod.fst) hgt
            omega
          · have hle' := talkBytes_take_mono size (msgs.map Prod.fst) hle
            omega
        have hrest : talkLen stage' size ≤ stream.length := by
          have hall : talkBytes size ((msgs.map Prod.fst).take (k + 1)) ≤ _ :=
            talkBytes_take_mono size (msgs.map Prod.fst) hk₁
          rw [List.take_length] at hall
          omega
        rw [arrived, List.length_take] at hnone hlt
        unfold TimesOutQuietly
        omega
  · intro hcond
    have hnone : (arrived script stream).length = 0 := by
      rcases hcond with rfl | hquiet
      · have hend : (msgs.map Prod.fst).take k = msgs.map Prod.fst :=
          List.take_of_length_le (List.drop_eq_nil_iff.mp hstages.symm)
        rw [hend] at hlen
        omega
      · rw [hquiet.arrived_eq, List.length_nil]
    exact ⟨k, hk, by omega⟩

/-- A receiver that is timed out before anything of the first stream packet has come. -/
theorem talkRecv_timeout_boundary_quiet :
    ∃ (rcvd : TalkPayload) (stream' : List UInt8) (script' : List IoResult),
      talkRecv .listener ⟨.little, .inlineFunction⟩ .talkStream ⟨1432, by decide, by decide⟩
          TalkPayload.zero [.fail .eagain]
          ([(Stage.talkStream, TalkPayload.zero)].flatMap
            (fun m => talkSendBuf ⟨.big, .inlineFunction⟩ 7 m.1 ⟨1432, by decide, by decide⟩ m.2))
        = some ((.err .eagain, rcvd), stream', script')
      ∧ ∃ k ≤ 1, ([(Stage.talkStream, TalkPayload.zero)].flatMap (fun m =>
            talkSendBuf ⟨.big, .inlineFunction⟩ 7 m.1 ⟨1432, by decide, by decide⟩ m.2)).length
          = talkBytes ⟨1432, by decide, by decide⟩ ([Stage.talkStream].take k)
            + stream'.length := by
  obtain ⟨script', hrecv⟩ := talkRecv_fails .listener ⟨.little, .inlineFunction⟩
    .talkStream ⟨1432, by decide, by decide⟩ TalkPayload.zero [.fail .eagain]
    ([(Stage.talkStream, TalkPayload.zero)].flatMap
      (fun m => talkSendBuf ⟨.big, .inlineFunction⟩ 7 m.1 ⟨1432, by decide, by decide⟩ m.2)) .eagain
    (by rw [arrived_fail (by decide)]; decide) (errnoLeft_fail (by decide) [])
  have hflags : ((TalkPayload.zero.overlay .little []).has .forceFail) = false := by
    rw [TalkPayload.has, overlay_flags ⟨.little, .inlineFunction⟩]
    decide
  rw [arrived_fail (by decide), talkRecvFinish_fail, hflags] at hrecv
  exact ⟨_, _, script', hrecv, (talkRecv_timeout_boundary_iff [(.talkStream, TalkPayload.zero)]
    .refl (by simp) hrecv).mpr (.inr rfl)⟩

/-- A stream packet of which 100 bytes come before the time-out: the stream is left inside
the packet. -/
theorem talkRecv_timeout_inside :
    ¬ ∀ (e : Endpoint) (tx rx : Host) (workerSelf : UInt64) (size : PayloadSize)
      (msgs : List (Stage × TalkPayload)) (prior rcvd : TalkPayload) (script script' : List IoResult)
      (stage : Stage) (stream' : List UInt8),
      (∀ stage' ∈ (msgs.map Prod.fst).head?, stage' = stage) →
      talkRecv e rx stage size prior script
          (msgs.flatMap (fun m => talkSendBuf tx workerSelf m.1 size m.2))
        = some ((.err .eagain, rcvd), stream', script') →
      ∃ k ≤ msgs.length, (msgs.flatMap (fun m => talkSendBuf tx workerSelf m.1 size m.2)).length
        = talkBytes size ((msgs.map Prod.fst).take k) + stream'.length := by
  intro hclaim
  let size : PayloadSize := ⟨1432, by decide, by decide⟩
  let wire := talkSendBuf ⟨.little, .inlineFunction⟩ 7 .talkStream size TalkPayload.zero
  have hwire : wire.length = 1432 := length_talkSendBuf ..
  have harrived : arrived [.ret 100, .fail .eagain] wire = wire.take 100 := by
    rw [arrived_ret, arrived_fail (by decide), List.append_nil]
  have hlen : (arrived [.ret 100, .fail .eagain] wire).length = 100 := by
    rw [harrived, List.length_take, hwire]
    rfl
  have hword : wire.take 4 = [0, 0, 0, 0] := by
    rw [show wire = _ from talkSendBuf_eq .., wireHeader, List.append_assoc]
    rfl
  obtain ⟨script', hrecv⟩ := talkRecv_fails .listener ⟨.little, .inlineFunction⟩
    .talkStream size TalkPayload.zero [.ret 100, .fail .eagain] wire .eagain
    (by rw [hlen]; decide) (by simp)
  have hflags : ((TalkPayload.zero.overlay .little
      (arrived [.ret 100, .fail .eagain] wire)).has .forceFail) = false := by
    rw [TalkPayload.has, overlay_flags ⟨.little, .inlineFunction⟩, flagsAfter_of_le (by omega),
      harrived, List.take_take, show min 4 100 = 4 from rfl, hword]
    decide
  rw [talkRecvFinish_fail, hflags] at hrecv
  obtain ⟨k, hk, heq⟩ := hclaim .listener ⟨.little, .inlineFunction⟩
    ⟨.little, .inlineFunction⟩ 7 size
    [(.talkStream, TalkPayload.zero)] TalkPayload.zero _ _ script' .talkStream _ (by simp)
    (by rw [List.flatMap_singleton]; exact hrecv)
  rw [List.flatMap_singleton, List.length_drop, hlen] at heq
  change wire.length = talkBytes size ([Stage.talkStream].take k) + (wire.length - 100) at heq
  rw [hwire] at heq
  have hk : k = 0 ∨ k = 1 := by
    simp only [List.length_singleton] at hk
    omega
  rcases hk with rfl | rfl
  · exact absurd heq (by decide)
  · exact absurd heq (by decide)

/-! ### What the caller is told -/

/-- A header field of a message on the wire: `w` bytes at an offset, in network order. -/
def wireField (stream : List UInt8) (offset w : Nat) : Nat := ofBE ((stream.drop offset).take w)

/-- The message at the head of the stream carries the FORCE_FAIL op. -/
def forcesFail (stream : List UInt8) : Bool :=
  bitTest (UInt32.ofNat (wireField stream 0 4)) TalkOp.forceFail.bit

/-- The header fields of a packet are those of the message, in host order. -/
structure HeaderIs (pkt : TalkPayload) (stream : List UInt8) : Prop where
  flags : pkt.flags.toNat = wireField stream 0 4
  count : pkt.count.toNat = wireField stream 4 4
  latency : pkt.latency.toNat = wireField stream 8 4
  reserved1 : pkt.reserved1.toNat = wireField stream 12 4
  weakTime : pkt.weakTime.toNat = wireField stream 16 8
  workerId : pkt.workerId.toNat = wireField stream 24 8

/-- The reserved word of the message reads the same on the host as in network order.
`_talk_send()` writes a zero there. -/
def ReservedReads (h : Host) (stream : List UInt8) : Prop :=
  h.order.load ((stream.drop 12).take 4) = wireField stream 12 4

instance (h : Host) (stream : List UInt8) : Decidable (ReservedReads h stream) :=
  inferInstanceAs (Decidable (_ = _))

/-- What the caller has to be told of a call: an abort exactly if a whole message came and
asked for it, the length of the message and its header exactly if a whole message came and
did not, and the errno of the read that failed otherwise. -/
structure ReportsExactly (len : Nat) (script : List IoResult) (stream : List UInt8)
    (ret : IoReturn) (rcvd : TalkPayload) : Prop where
  abort : ret = .err .abort ↔ len ≤ (arrived script stream).length ∧ forcesFail stream = true
  message : ret = .ok len ∧ HeaderIs rcvd stream
    ↔ len ≤ (arrived script stream).length ∧ forcesFail stream = false
  failure : (arrived script stream).length < len →
    ∃ err, firstFailure script = some err ∧ ret = .err err

theorem toNat_htonl_load (h : Host) {l : List UInt8} (hl : l.length = 4) :
    (htonl h (UInt32.ofNat (h.order.load l))).toNat = ofBE l := by
  have hload : h.order.load l < 2 ^ 32 := by simpa [hl] using h.order.load_lt l
  rw [toNat_htonl, UInt32.toNat_ofNat', Nat.mod_eq_of_lt hload, ByteOrder.hton_load _ hl]

theorem toNat_netHtonll_load (h : Host) {l : List UInt8} (hl : l.length = 8) :
    (netHtonll h (UInt64.ofNat (h.order.load l))).toNat = ofBE l := by
  have hload : h.order.load l < 2 ^ 64 := by simpa [hl] using h.order.load_lt l
  rw [netHtonll_eq, UInt64.toNat_ofNat', Nat.mod_eq_of_lt hload, ByteOrder.hton_load _ hl]

/-- The header of a whole message, as `_talk_recv()` decodes it: all fields but the reserved word
are converted. -/
theorem headerIs_toHost_iff (h : Host) (prior : TalkPayload) {len : Nat} {stream : List UInt8}
    (hlen : talkHdrSize ≤ len) (hmax : len ≤ talkPayloadMaxSize) (hstream : len ≤ stream.length) :
    ((prior.overlay h.order (stream.take len)).toHost h).flags.toNat = wireField stream 0 4 ∧
      (HeaderIs ((prior.overlay h.order (stream.take len)).toHost h) stream
        ↔ ReservedReads h stream) := by
  have htake : (stream.take len).length = len := List.length_take_of_le hstream
  have hfield : ∀ offset w, offset + w ≤ talkHdrSize →
      ((((stream.take len ++ (prior.image h.order).drop (stream.take len).length).take
        talkPayloadMaxSize).drop offset).take w) = (stream.drop offset).take w := by
    intro offset w hw
    rw [List.drop_take, List.take_take, Nat.min_eq_left (by omega),
      List.drop_append_of_le_length (by omega),
      List.take_append_of_le_length (by rw [List.length_drop]; omega),
      List.drop_take, List.take_take, Nat.min_eq_left (by omega)]
  have hwidth : ∀ offset w, offset + w ≤ talkHdrSize →
      ((stream.drop offset).take w).length = w := by
    intro offset w hw
    rw [List.length_take, List.length_drop]
    omega
  have hflags : ((prior.overlay h.order (stream.take len)).toHost h).flags.toNat
      = wireField stream 0 4 := by
    have hword := hfield 0 4 (by decide)
    rw [List.drop_zero] at hword
    simp only [TalkPayload.toHost, TalkPayload.overlay, TalkPayload.ofImage, hword]
    exact toNat_htonl_load h (hwidth 0 4 (by decide))
  have hreserved : ((prior.overlay h.order (stream.take len)).toHost h).reserved1.toNat
      = h.order.load ((stream.drop 12).take 4) := by
    have hlt := h.order.load_lt ((stream.drop 12).take 4)
    rw [hwidth 12 4 (by decide)] at hlt
    simp only [TalkPayload.toHost, TalkPayload.overlay, TalkPayload.ofImage,
      hfield 12 4 (by decide)]
    exact UInt32.toNat_ofNat_of_lt' hlt
  refine ⟨hflags, fun hheader => hreserved.symm.trans hheader.reserved1, fun hreads => ?_⟩
  refine ⟨hflags, ?_, ?_, hreserved.trans hreads, ?_, ?_⟩ <;>
    simp only [TalkPayload.toHost, TalkPayload.overlay, TalkPayload.ofImage, wireField]
  · rw [hfield 4 4 (by decide)]
    exact toNat_htonl_load h (hwidth 4 4 (by decide))
  · rw [hfield 8 4 (by decide)]
    exact toNat_htonl_load h (hwidth 8 4 (by decide))
  · rw [hfield 16 8 (by decide)]
    exact toNat_netHtonll_load h (hwidth 16 8 (by decide))
  · rw [hfield 24 8 (by decide)]
    exact toNat_netHtonll_load h (hwidth 24 8 (by decide))

end Ubwt
