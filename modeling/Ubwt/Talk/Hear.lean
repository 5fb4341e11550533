import Ubwt.Talk.Pair
import Ubwt.Talk.Recv

/-!
# Ubwt.Talk.Hear

What a party does with a message: which of the exchanges of `talk.c` take it for the one
they wait for, and what it adds to the counters and to the report.

**Six of the eight exchanges look at the op.** The handshake of the sender only logs that
the PONG is missing and goes on, and the loop over the stream packets does not look at
the flags at all; so a message of any kind passes there, and is counted
(`talkHear_rightMessage_iff`).
-/

namespace Ubwt

/-- The counters of a party and its report, as far as messages go into them: the sum of
the round trips (`dt`), the loop counter and the byte count of a stream, the context of the
weak streams, and the collected part of the report. -/
structure TalkTally where
  dt : UInt32
  recvPkts : UInt32
  recvBytes : UInt64
  weak : UInt32
  imWeak : UInt32
  weakTime : UInt64
  report : ReportCollect
  deriving Repr, DecidableEq

/-- What is taken from a message of `n` bytes that has passed the checks. The round trip
that a PONG ends is measured by the clock of the sender. -/
def TalkTally.take (t : TalkTally) (h : Host) (roundTrip : UInt32) (n : Nat) (p : TalkPayload) :
    TalkStep → TalkTally
  | .pong _ => { t with dt := t.dt + roundTrip }
  | .negotiate _ =>
      { t with report := { t.report with talkCount := p.count, talkLatencyUs := p.latency } }
  | .streamRun _ _ =>
      { t with recvPkts := t.recvPkts + 1, recvBytes := t.recvBytes + UInt64.ofNat n }
  | .streamEnd _ =>
      if p.has .streamWeak then
        { t with weak := t.weak + 1, imWeak := t.imWeak + 1, weakTime := p.weakTime }
      else t
  | .report => { t with report := reportUnmarshal h p.buf }
  | .ping _ | .streamStart _ | .finish => t

/-- What an exchange makes of the result of its `_talk_recv()`. (A negotiation that fails on
its second op has written `*count`, but the program ends there.) -/
def talkHear (h : Host) (iter : UInt16) (roundTrip : UInt32) (t : TalkTally) (step : TalkStep)
    (ret : IoReturn) (p : TalkPayload) : Except Errno Unit × TalkTally :=
  match ret with
  | .err err => (.error err, t)
  | .ok n =>
      match talkCheck iter p step with
      | .error err => (.error err, t)
      | .ok () => (.ok (), t.take h roundTrip n p step)

theorem talkHear_ok_fst (h : Host) (iter : UInt16) (roundTrip : UInt32) (t : TalkTally)
    (step : TalkStep) (n : Nat) (p : TalkPayload) :
    (talkHear h iter roundTrip t step (.ok n) p).1 = talkCheck iter p step := by
  simp only [talkHear]
  cases talkCheck iter p step <;> rfl

/-- A party of a connection goes on as the exchange says. -/
theorem Party.hear_talkHear (v : TalkEnv) (e : Endpoint) (q : Party) (d : Dir) (rest : List Dir)
    (h : Host) (roundTrip : UInt32) (t : TalkTally) (step : TalkStep) (ret : IoReturn)
    (p : TalkPayload) :
    q.hear v e d rest step ret p
      = match (talkHear h v.iter roundTrip t step ret p).1 with
        | .ok () => (q.store step p).advance v e d rest step
        | .error err => q.fail v e d rest step err := by
  cases ret with
  | err err => rfl
  | ok n =>
      rw [talkHear_ok_fst]
      simp only [Party.hear]
      cases talkCheck v.iter p step <;> rfl

/-- The message carries what the exchange waits for. -/
def TalkStep.Carries (step : TalkStep) (p : TalkPayload) : Prop :=
  p.has step.op = true ∧ (∀ k, step = .negotiate k → p.has .latencyUs = true)

/-- An exchange goes on only with its own message; any other one fails it, as unexpected
or, if that is what the message asks for, as aborted, and is not counted. -/
structure RightMessage (step : TalkStep) (t : TalkTally) (p : TalkPayload)
    (out : Except Errno Unit × TalkTally) : Prop where
  advances : out.1 = .ok () → step.Carries p
  rejects : ¬ step.Carries p →
    out = (.error (if p.has .forceFail then .abort else .msgUnexpected), t)

/-- The exchanges that let any message pass, and the one wrong message that is turned down
for its count instead of its ops. -/
def TalkStep.Unchecked (step : TalkStep) (p : TalkPayload) : Prop :=
  match step with
  | .pong _ => True
  | .streamRun _ _ => True
  | .negotiate _ => p.has .countReq = true ∧ ¬ p.count < configTalkCountMax
  | _ => False

/-- The check of an exchange, on a message that does not carry its ops. -/
theorem talkCheck_wrong {iter : UInt16} {p : TalkPayload} {step : TalkStep}
    (hwrong : ¬ step.Carries p) :
    talkCheck iter p step = .error .msgUnexpected ↔ ¬ step.Unchecked p := by
  unfold TalkStep.Carries at hwrong
  cases step with
  | ping i =>
      have hop : ¬ p.has .ping = true := fun h => hwrong ⟨h, fun _ hk => by cases hk⟩
      simp [talkCheck, TalkStep.Unchecked, hop]
  | pong i =>
      simp only [talkCheck, TalkStep.Unchecked, not_true_eq_false, iff_false]
      split <;> simp
  | negotiate k =>
      simp only [talkCheck, TalkStep.Unchecked]
      by_cases hreq : p.has .countReq = true
      · have hlat : ¬ p.has .latencyUs = true := fun h => hwrong ⟨hreq, fun _ _ => h⟩
        by_cases hlt : p.count < configTalkCountMax <;> simp [hreq, hlat, hlt]
      · simp [hreq]
  | streamStart k =>
      have hop : ¬ p.has .streamStart = true := fun h => hwrong ⟨h, fun _ hk => by cases hk⟩
      simp [talkCheck, TalkStep.Unchecked, hop]
  | streamRun k i => simp [talkCheck, TalkStep.Unchecked]
  | streamEnd k =>
      have hop : ¬ p.has .streamEnd = true := fun h => hwrong ⟨h, fun _ hk => by cases hk⟩
      simp [talkCheck, TalkStep.Unchecked, hop]
  | report =>
      have hop : ¬ p.has .report = true := fun h => hwrong ⟨h, fun _ hk => by cases hk⟩
      simp [talkCheck, TalkStep.Unchecked, hop]
  | finish =>
      have hop : ¬ p.has .finish = true := fun h => hwrong ⟨h, fun _ hk => by cases hk⟩
      simp [talkCheck, TalkStep.Unchecked, hop]

/-- **An exchange goes on with the right message only, exactly if it looks.** For every
exchange and every complete message that is received there: the exchange goes on only with a
message that carries its ops, and any other message fails it and is not counted, if and only
if the message does carry them, or forces a failure, or the exchange is one that checks
them. -/
theorem talkHear_rightMessage_iff {e : Endpoint} {h : Host} {iter : UInt16} {size : PayloadSize}
    {step : TalkStep} {prior p : TalkPayload} {script script' : List IoResult} {ret : IoReturn}
    {stream stream' : List UInt8} (roundTrip : UInt32) (t : TalkTally)
    (hwhole : talkLen step.stage size ≤ (arrived script stream).length)
    (hrecv : talkRecv e h step.stage size prior script stream = some ((ret, p), stream', script')) :
    RightMessage step t p (talkHear h iter roundTrip t step ret p)
      ↔ step.Carries p ∨ p.has .forceFail = true ∨ ¬ step.Unchecked p := by
  have hret : ret = if p.has .forceFail then .err .abort else .ok (talkLen step.stage size) := by
    rcases talkRecv_cases hrecv with ⟨-, -, hfin⟩ | ⟨err, hlt, -⟩
    · rw [talkRecvFinish_whole, Prod.mk.injEq] at hfin
      obtain ⟨rfl, rfl⟩ := hfin
      rfl
    · exact absurd hwhole (Nat.not_le_of_lt hlt)
  by_cases hforce : p.has .forceFail = true
  · rw [hret, if_pos hforce]
    refine iff_of_true ?_ (.inr (.inl hforce))
    constructor
    · intro hout
      cases hout
    · intro _
      rw [if_pos hforce]
      rfl
  · rw [hret, if_neg hforce]
    by_cases hcarries : step.Carries p
    · exact iff_of_true ⟨fun _ => hcarries, fun hno => absurd hcarries hno⟩ (.inl hcarries)
    · have hcheck : talkCheck iter p step = .error .msgUnexpected ↔ ¬ step.Unchecked p :=
        talkCheck_wrong hcarries
      constructor
      · intro hright
        refine .inr (.inr (hcheck.mp ?_))
        have hout := hright.rejects hcarries
        rw [if_neg hforce] at hout
        rw [← talkHear_ok_fst h iter roundTrip t step (talkLen step.stage size) p, hout]
      · rintro (hc | hf | hchecked)
        · exact absurd hc hcarries
        · exact absurd hf hforce
        · have hout : talkHear h iter roundTrip t step (.ok (talkLen step.stage size)) p
              = (.error .msgUnexpected, t) := by
            simp only [talkHear, hcheck.mpr hchecked]
          rw [hout]
          constructor
          · intro hok
            cases hok
          · intro _
            rw [if_neg hforce]

/-- A FINISH where a PING is waited for. -/
theorem talkHear_rightMessage_ping :
    ∃ (ret : IoReturn) (p : TalkPayload) (stream' : List UInt8) (script' : List IoResult),
      talkRecv .listener ⟨.little, .inlineFunction⟩ .talkHandshake ⟨1432, by decide, by decide⟩
          TalkPayload.zero (List.replicate 32 (.ret 1))
          (talkSendBuf ⟨.big, .inlineFunction⟩ 7 .talkHandshake ⟨1432, by decide, by decide⟩
            { TalkPayload.zero with flags := bitSet 0 TalkOp.finish.bit, count := 20 })
        = some ((ret, p), stream', script')
      ∧ RightMessage (.ping 0) ⟨0, 0, 0, 0, 0, 0, ReportCollect.zero⟩ p
          (talkHear ⟨.little, .inlineFunction⟩ 20 1 ⟨0, 0, 0, 0, 0, 0, ReportCollect.zero⟩ (.ping 0)
            ret p) := by
  obtain ⟨rcvd, script', hrecv, -, -, -⟩ := talkRecv_splits .listener ⟨.big, .inlineFunction⟩
    ⟨.little, .inlineFunction⟩ 7 .talkHandshake ⟨1432, by decide, by decide⟩
    { TalkPayload.zero with flags := bitSet 0 TalkOp.finish.bit, count := 20 } TalkPayload.zero
    (by dsimp only [TalkPayload.has]; decide) (splits_replicate [.eintr] 32) (by decide)
  rw [List.append_nil] at hrecv
  have hwhole : 32 ≤ (arrived (List.replicate 32 (.ret 1)) (talkSendBuf ⟨.big, .inlineFunction⟩ 7
      .talkHandshake ⟨1432, by decide, by decide⟩
      { TalkPayload.zero with flags := bitSet 0 TalkOp.finish.bit, count := 20 })).length := by
    rw [arrived, List.length_take, length_talkSendBuf]
    decide
  exact ⟨_, rcvd, _, script', hrecv,
    (@talkHear_rightMessage_iff _ _ _ _ (.ping 0) _ _ _ _ _ _ _ 1 _ hwhole hrecv).mpr
      (.inr (.inr fun h => h))⟩

/-- A FINISH where a PONG is waited for: the sender takes it for the PONG. -/
theorem talkHear_wrongMessage_pong :
    ¬ ∀ (e : Endpoint) (h : Host) (iter : UInt16) (size : PayloadSize) (step : TalkStep)
      (prior p : TalkPayload) (script script' : List IoResult) (ret : IoReturn)
      (stream stream' : List UInt8) (roundTrip : UInt32) (t : TalkTally),
      talkLen step.stage size ≤ (arrived script stream).length →
      talkRecv e h step.stage size prior script stream = some ((ret, p), stream', script') →
      RightMessage step t p (talkHear h iter roundTrip t step ret p) := by
  intro hclaim
  let pkt : TalkPayload := { TalkPayload.zero with flags := bitSet 0 TalkOp.finish.bit, count := 20 }
  obtain ⟨rcvd, script', hrecv, hsame, -, -⟩ :=
    talkRecv_splits .connector ⟨.little, .inlineFunction⟩
    ⟨.little, .inlineFunction⟩ 7 .talkHandshake ⟨1432, by decide, by decide⟩ pkt TalkPayload.zero
    (by dsimp only [TalkPayload.has, pkt]; decide) (splits_replicate [.eintr] 32)
    (by decide)
  rw [List.append_nil] at hrecv
  have hright := hclaim .connector ⟨.little, .inlineFunction⟩ 20 _ (.pong 0) _ _ _ _ _ _ _ 1
    ⟨0, 0, 0, 0, 0, 0, ReportCollect.zero⟩
    (by rw [arrived, List.length_take, length_talkSendBuf]; decide) hrecv
  have hcount : rcvd.count = 20 := hsame.count
  have hgoes : talkCheck 20 rcvd (.pong 0) = .ok () := by
    simp only [talkCheck, hcount]
    decide
  have hpong := (hright.advances (by rw [talkHear_ok_fst, hgoes])).1
  rw [TalkPayload.has, hsame.flags] at hpong
  exact absurd hpong (by dsimp only [pkt]; decide)

end Ubwt
