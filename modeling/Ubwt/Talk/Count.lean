import Mathlib.Data.Nat.Factorization.Basic
import Mathlib.Tactic.NormNum.Prime
import Ubwt.Config.Options
import Ubwt.Talk.Step

/-!
# Ubwt.Talk.Count

The count of a stream: how `talk_sender` comes to it, and what `_talk_receiver_negotiate`
makes of it.

The sender starts with `talk_count_current` packets and multiplies the count after a weak
stream, by the factor of `-M` or by one it computes from the time of the stream; it asserts
that the result is at most `talk_count_max`. The receiver asks for **less than**
`UBWT_CONFIG_TALK_COUNT_MAX`, which is the same number. So they differ on one count, and
with `-M` there is one factor that reaches it (`pow_eq_countRatio`).
-/

namespace Ubwt

open Lib Lib.Posix

/-! ### The count of the sender -/

/-- The floating-point arithmetic of `count *= mul`. A product with the integral factor of
`-M` is exact as long as a `double` holds it, and no smaller than that bound beyond it. The
factor that is computed from the time of a stream is left open. -/
structure RecountArith where
  product : Nat → Nat → Nat
  product_exact : ∀ count mul, count * mul ≤ 2 ^ 53 → product count mul = count * mul
  product_large : ∀ count mul, 2 ^ 53 < count * mul → 2 ^ 53 ≤ product count mul
  automatic : (weakTime count : Nat) → Nat

variable {arith : RecountArith} {cfg : Config}

/-- The recount of `talk_sender()` after a weak stream. -/
def talkRecount (arith : RecountArith) (cfg : Config) (weakTime count : Nat) : Nat :=
  if cfg.talkCountMul ≠ 0 then arith.product count cfg.talkCountMul.toNat
  else arith.automatic weakTime count

/-- The assertions of `talk_sender()` after a restart. -/
def CountAsserted (cfg : Config) (count : Nat) : Prop :=
  count ≤ cfg.talkCountMax.toNat ∧ count ≥ cfg.talkCountDefault.toNat

/-- `talk[d].count` for stream `k`, over all sequences of restarts. A restart does not
recount when it is the other direction that was weak. -/
inductive SenderCount (arith : RecountArith) (cfg : Config) : Nat → Nat → Prop
  | current : SenderCount arith cfg 0 cfg.talkCountCurrent.toNat
  | kept {k count : Nat} (h : SenderCount arith cfg k count) (hassert : CountAsserted cfg count) :
      SenderCount arith cfg (k + 1) count
  | recounted {k count : Nat} (weakTime : Nat) (h : SenderCount arith cfg k count)
      (hassert : CountAsserted cfg (talkRecount arith cfg weakTime count)) :
      SenderCount arith cfg (k + 1) (talkRecount arith cfg weakTime count)

/-! ### The negotiation -/

/-- The message of `_talk_sender_negotiate()`. -/
def negotiatePayload (count latency : UInt32) : TalkPayload :=
  { TalkPayload.zero with
    flags := bitSet (bitSet 0 TalkOp.countReq.bit) TalkOp.latencyUs.bit
    count := count
    latency := latency }

theorem negotiatePayload_has (count latency : UInt32) (op : TalkOp) :
    (negotiatePayload count latency).has op = decide (op = .countReq ∨ op = .latencyUs) := by
  dsimp only [TalkPayload.has, negotiatePayload]
  cases op <;> decide

/-- `_talk_sender_negotiate()`; its argument cuts the count to 32 bits. -/
def talkSenderNegotiate (e : Endpoint) (h : Host) (workerSelf : UInt64) (size : PayloadSize)
    (count : Nat) (latency : UInt32) (script : List IoResult) (wire : List UInt8) :
    Option (IoReturn × List UInt8 × List IoResult) :=
  talkSend e h workerSelf .talkNegotiation size (negotiatePayload (UInt32.ofNat count) latency)
    script wire

/-- `_talk_receiver_negotiate()`: `*count` and `*latency`, or the `errno`. -/
def talkReceiverNegotiate (e : Endpoint) (h : Host) (size : PayloadSize) (script : List IoResult)
    (stream : List UInt8) : Option (Except Errno (UInt32 × UInt32) × List UInt8 × List IoResult) :=
  match talkRecv e h .talkNegotiation size TalkPayload.zero script stream with
  | none => none
  | some ((.err err, _), stream, script) => some (.error err, stream, script)
  | some ((.ok _, p), stream, script) =>
    match talkCheck 0 p (.negotiate 0) with
    | .error err => some (.error err, stream, script)
    | .ok () => some (.ok (p.count, p.latency), stream, script)

/-- The receiver accepts the count and uses it, whatever the two ends are and however the
transport splits the message. -/
def CountAccepted (count : Nat) : Prop :=
  ∀ (e : Endpoint) (tx rx : Host) (workerSelf : UInt64) (size : PayloadSize) (latency : UInt32)
    (wscript rscript : List IoResult),
    Splits [.eintr, .enobufs] wscript → size.val ≤ transfers wscript →
    Splits [.eintr] rscript → size.val ≤ transfers rscript →
    ∃ wire wscript' rscript' count',
      talkSenderNegotiate e tx workerSelf size count latency wscript []
        = some (.ok size.val, wire, wscript')
      ∧ talkReceiverNegotiate e.peer rx size rscript wire
        = some (.ok (count', latency), [], rscript')
      ∧ count'.toNat = count

/-- What the receiver answers to a count. -/
theorem talkReceiverNegotiate_sent (e : Endpoint) (tx rx : Host) (workerSelf : UInt64)
    (size : PayloadSize) (count : Nat) (latency : UInt32) {wscript rscript : List IoResult}
    (hw : Splits [.eintr, .enobufs] wscript) (hwfuel : size.val ≤ transfers wscript)
    (hr : Splits [.eintr] rscript) (hrfuel : size.val ≤ transfers rscript) :
    ∃ wire wscript' rscript',
      talkSenderNegotiate e tx workerSelf size count latency wscript []
        = some (.ok size.val, wire, wscript')
      ∧ talkReceiverNegotiate e.peer rx size rscript wire
        = some (if UInt32.ofNat count < configTalkCountMax then
            .ok (UInt32.ofNat count, latency) else .error .einval, [], rscript') := by
  have hlen : talkLen .talkNegotiation size = size.val := rfl
  obtain ⟨wscript', hsend, -, -⟩ := talkSend_splits e tx workerSelf .talkNegotiation size
    (negotiatePayload (UInt32.ofNat count) latency) hw (hlen ▸ hwfuel)
  obtain ⟨rcvd, rscript', hrecv, hsame, -, -⟩ := talkRecv_splits e.peer tx rx workerSelf
    .talkNegotiation size (negotiatePayload (UInt32.ofNat count) latency) TalkPayload.zero
    (negotiatePayload_has ..) hr (hlen ▸ hrfuel)
  rw [List.nil_append] at hsend
  rw [List.append_nil] at hrecv
  refine ⟨_, wscript', rscript', hsend, ?_⟩
  have hhas : ∀ op, rcvd.has op = decide (op = .countReq ∨ op = .latencyUs) := by
    intro op
    rw [TalkPayload.has, hsame.flags]
    exact negotiatePayload_has ..
  have hreq : rcvd.has .countReq = true := hhas .countReq
  have hlatency : rcvd.has .latencyUs = true := hhas .latencyUs
  have hcount : rcvd.count = UInt32.ofNat count := hsame.count
  have hlat : rcvd.latency = latency := hsame.latency
  by_cases hlt : UInt32.ofNat count < configTalkCountMax
  · simp [talkReceiverNegotiate, hrecv, talkCheck, hreq, hlatency, hcount, hlat, hlt]
  · simp [talkReceiverNegotiate, hrecv, talkCheck, hreq, hcount, hlt]

/-- A count of 32 bits is accepted exactly if it is below the receiver's limit. -/
theorem countAccepted_iff {count : Nat} (hcount : count < 2 ^ 32) :
    CountAccepted count ↔ count < configTalkCountMax.toNat := by
  have hnat : (UInt32.ofNat count).toNat = count := by
    rw [UInt32.toNat_ofNat']
    exact Nat.mod_eq_of_lt hcount
  have hlt : UInt32.ofNat count < configTalkCountMax ↔ count < configTalkCountMax.toNat := by
    rw [UInt32.lt_iff_toNat_lt, hnat]
  constructor
  · intro haccepted
    let size : PayloadSize := ⟨508, by decide, by decide⟩
    have hsplits : ∀ retried, Splits retried (List.replicate 508 (.ret 1)) :=
      fun retried => splits_replicate retried 508
    have hfuel : size.val ≤ transfers (List.replicate 508 (.ret 1)) := by
      rw [transfers_replicate]
    obtain ⟨wire, ws, rs, count', hsend, hrecv, -⟩ := haccepted .connector ⟨.little, .inlineFunction⟩
      ⟨.little, .inlineFunction⟩ 0 size 0 _ _ (hsplits _) hfuel (hsplits _) hfuel
    obtain ⟨wire', ws', rs', hsend', hrecv'⟩ := talkReceiverNegotiate_sent .connector
      ⟨.little, .inlineFunction⟩ ⟨.little, .inlineFunction⟩ 0 size count 0
      (hsplits _) hfuel (hsplits _) hfuel
    obtain rfl : wire = wire' := by
      rw [hsend] at hsend'
      cases hsend'
      rfl
    rw [hrecv] at hrecv'
    by_contra hge
    rw [if_neg (hlt.not.mpr hge)] at hrecv'
    cases hrecv'
  · intro hmax e tx rx workerSelf size latency wscript rscript hw hwfuel hr hrfuel
    obtain ⟨wire, ws, rs, hsend, hrecv⟩ := talkReceiverNegotiate_sent e tx rx workerSelf size count
      latency hw hwfuel hr hrfuel
    rw [if_pos (hlt.mpr hmax)] at hrecv
    exact ⟨wire, ws, rs, _, hsend, hrecv, hnat⟩

/-! ### The counts that are reached -/

/-- The counts of `-M` are the default times a power of the factor: a product that passes
the assertion is one that a `double` holds. -/
theorem SenderCount.eq_pow (hcounts : cfg.talkCountCurrent = configTalkCountDefault
      ∧ cfg.talkCountMax = configTalkCountMax) (hmul : cfg.talkCountMul ≠ 0)
    {k count : Nat} (h : SenderCount arith cfg k count) :
    ∃ j, count = configTalkCountDefault.toNat * cfg.talkCountMul.toNat ^ j := by
  induction h with
  | current => exact ⟨0, by simp [hcounts.1]⟩
  | kept _ _ ih => exact ih
  | @recounted k count weakTime _ hassert ih =>
      obtain ⟨j, rfl⟩ := ih
      have hle := hassert.1
      rw [hcounts.2] at hle
      simp only [talkRecount, if_pos hmul] at hle ⊢
      rcases Nat.lt_or_ge (2 ^ 53) (configTalkCountDefault.toNat * cfg.talkCountMul.toNat ^ j
        * cfg.talkCountMul.toNat) with hlarge | hsmall
      · have hprod := arith.product_large _ _ hlarge
        exact absurd (hprod.trans hle) (by decide)
      · exact ⟨j + 1, by rw [arith.product_exact _ _ hsmall, pow_succ, Nat.mul_assoc]⟩

/-- Ten is the only accepted factor of which a power is the ratio of the maximum count and
the default one. -/
theorem pow_eq_countRatio {mul j : Nat} (hmul : mul < 10000000) (h : mul ^ j = 10000000) :
    mul = 10 := by
  have hratio : (10000000 : Nat) = 10 ^ 7 := by norm_num
  have hten : Nat.factorization 10 2 = 1 := by
    have hprime : Nat.Prime 5 := by norm_num
    rw [show (10 : Nat) = 2 * 5 by norm_num, Nat.factorization_mul (by norm_num) (by norm_num),
      Finsupp.add_apply, Nat.prime_two.factorization_self, hprime.factorization]
    simp
  have hval : j * mul.factorization 2 = 7 := by
    have hfac : (mul ^ j).factorization 2 = (10 ^ 7 : Nat).factorization 2 :=
      congrArg (fun n => Nat.factorization n 2) (h.trans hratio)
    rw [Nat.factorization_pow, Nat.factorization_pow, Finsupp.smul_apply, Finsupp.smul_apply, hten]
      at hfac
    exact hfac
  have hdvd : j ∣ 7 := ⟨_, hval.symm⟩
  rcases (Nat.dvd_prime (by norm_num)).mp hdvd with rfl | rfl
  · rw [pow_one] at h
    omega
  · exact Nat.pow_left_injective (by norm_num : (7 : Nat) ≠ 0) (h.trans hratio)

/-- The counts of `-M 10`, with every stream weak. -/
theorem senderCount_mul10 (hcounts : cfg.talkCountCurrent = configTalkCountDefault
      ∧ cfg.talkCountDefault = configTalkCountDefault ∧ cfg.talkCountMax = configTalkCountMax)
    (hmul : cfg.talkCountMul = 10) {k : Nat} (hk : k ≤ 7) :
    SenderCount arith cfg k (100 * 10 ^ k) := by
  induction k with
  | zero =>
      have hcur : cfg.talkCountCurrent.toNat = 100 := by
        rw [hcounts.1]
        rfl
      rw [pow_zero, Nat.mul_one, ← hcur]
      exact .current
  | succ k ih =>
      have hpow : 10 ^ k ≤ 10 ^ 6 := Nat.pow_le_pow_right (by norm_num) (Nat.le_of_succ_le_succ hk)
      have hrecount : talkRecount arith cfg 0 (100 * 10 ^ k) = 100 * 10 ^ (k + 1) := by
        have hexact := arith.product_exact (100 * 10 ^ k) 10 (by omega)
        rw [talkRecount, hmul, if_pos (by decide)]
        rw [show (10 : UInt32).toNat = 10 from rfl, hexact, pow_succ, Nat.mul_assoc]
      have hassert : CountAsserted cfg (talkRecount arith cfg 0 (100 * 10 ^ k)) := by
        rw [hrecount, CountAsserted, hcounts.2.1, hcounts.2.2, pow_succ]
        rw [show configTalkCountMax.toNat = 1000000000 from rfl,
          show configTalkCountDefault.toNat = 100 from rfl]
        have := Nat.one_le_pow k 10 (by norm_num)
        omega
      exact hrecount ▸ .recounted 0 (ih (Nat.le_of_succ_le hk)) hassert

/-- A count of the sender is at most the limit of the receiver. -/
theorem SenderCount.le_max (hcounts : cfg.talkCountCurrent = configTalkCountDefault
      ∧ cfg.talkCountMax = configTalkCountMax) {k count : Nat} (h : SenderCount arith cfg k count) :
    count ≤ configTalkCountMax.toNat := by
  cases h with
  | current =>
      rw [hcounts.1]
      decide
  | kept _ hassert => exact hcounts.2 ▸ hassert.1
  | recounted _ _ hassert => exact hcounts.2 ▸ hassert.1

/-- **The receiver accepts every count of the sender but the maximum itself.** For an
accepted command line and any sequence of restarts, a count that the sender's assertions let
through is accepted, and used unchanged, exactly if it is not `UBWT_CONFIG_TALK_COUNT_MAX`;
and with `-M` that count is reached exactly if the factor is 10. -/
theorem countAccepted_senderCount_iff {env : Env} {args : List CString} (arith : RecountArith)
    (hcfg : configInit env args = .ok cfg) :
    (∀ k count, SenderCount arith cfg k count →
      (CountAccepted count ↔ count ≠ configTalkCountMax.toNat))
    ∧ (cfg.talkCountMul ≠ 0 →
      ((∀ k count, SenderCount arith cfg k count → CountAccepted count)
        ↔ cfg.talkCountMul ≠ 10)) := by
  have hi := configInit_optInv hcfg
  have hcounts : cfg.talkCountCurrent = configTalkCountDefault
      ∧ cfg.talkCountMax = configTalkCountMax := ⟨hi.counts.1, hi.counts.2.2⟩
  have heach : ∀ k count, SenderCount arith cfg k count →
      (CountAccepted count ↔ count ≠ configTalkCountMax.toNat) := by
    intro k count h
    have hle := h.le_max hcounts
    rw [countAccepted_iff (Nat.lt_of_le_of_lt hle (by decide))]
    exact ⟨Nat.ne_of_lt, Nat.lt_of_le_of_ne hle⟩
  refine ⟨heach, fun hmul => ⟨fun hall hten => ?_, fun hten k count h => ?_⟩⟩
  · have hseven : SenderCount arith cfg 7 (100 * 10 ^ 7) := senderCount_mul10 hi.counts hten le_rfl
    exact (heach 7 _ hseven).mp (hall 7 _ hseven) (by decide)
  · rw [heach k count h]
    intro hmax
    obtain ⟨j, hj⟩ := h.eq_pow hcounts hmul
    have hpow : cfg.talkCountMul.toNat ^ j = 10000000 := by
      rw [hj, show configTalkCountMax.toNat = 1000000000 from rfl,
        show configTalkCountDefault.toNat = 100 from rfl] at hmax
      omega
    have hlt : cfg.talkCountMul.toNat < 10000000 := by
      rcases hi.mul with hzero | ⟨-, hlt⟩
      · omega
      · exact hlt
    exact hten (UInt32.toNat_inj.mp (pow_eq_countRatio hlt hpow))

/-- Exact arithmetic, and a recount that triples where no factor is given. -/
def exactArith : RecountArith where
  product := fun count mul => count * mul
  product_exact := fun _ _ _ => rfl
  product_large := fun _ _ h => h.le
  automatic := fun _ count => 3 * count

/-- `ubwt -M 3 connector 10.0.0.1`: every count is accepted. -/
theorem countAccepted_senderCount_mul3 :
    ∃ cfg, configInit ⟨false, false, fun _ _ => false⟩
        ["-M".toList, "3".toList, "connector".toList, "10.0.0.1".toList] = .ok cfg
      ∧ cfg.talkCountMul = 3
      ∧ ∀ k count, SenderCount exactArith cfg k count → CountAccepted count := by
  obtain ⟨cfg, hcfg, hmul⟩ : ∃ cfg, configInit ⟨false, false, fun _ _ => false⟩
        ["-M".toList, "3".toList, "connector".toList, "10.0.0.1".toList] = .ok cfg
      ∧ cfg.talkCountMul = 3 := ⟨_, rfl, rfl⟩
  refine ⟨cfg, hcfg, hmul, ((countAccepted_senderCount_iff exactArith hcfg).2 ?_).mpr ?_⟩
  · rw [hmul]
    decide
  · rw [hmul]
    decide

/-- `ubwt -M 10 connector 10.0.0.1`: the count of the eighth stream is one that the sender's
assertions let through and the receiver turns down. -/
theorem countAccepted_fails_mul10 :
    ∃ cfg, configInit ⟨false, false, fun _ _ => false⟩
        ["-M".toList, "10".toList, "connector".toList, "10.0.0.1".toList] = .ok cfg
      ∧ SenderCount exactArith cfg 7 1000000000 ∧ CountAsserted cfg 1000000000
      ∧ ¬ CountAccepted 1000000000 := by
  refine ⟨_, rfl, senderCount_mul10 ⟨rfl, rfl, rfl⟩ rfl le_rfl, ?_, ?_⟩
  · unfold CountAsserted
    decide
  · rw [countAccepted_iff (by norm_num)]
    decide

end Ubwt
