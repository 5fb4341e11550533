import Ubwt.Lib.Wrap
import Ubwt.Talk.Count
import Ubwt.Talk.Hear

/-!
# Ubwt.Talk.Latency

The latency of the handshakes: the loop at the start of `talk_sender`, and what becomes of its
result.

A round trip is a `long`, is narrowed to an `int` and added to a 32-bit sum, which is divided
once the loop is over. A single round trip survives the narrowing; **their sum has to fit 32
bits** for the quotient to be their mean (`talkSenderLatency_exact_iff`).
-/

namespace Ubwt

open Lib

/-! ### talk_sender -/

/-- The readings of the clock around an exchange of PING and PONG. -/
structure RoundTrip where
  sent : UInt64
  received : UInt64
  deriving Repr, DecidableEq

/-- The time of a round trip. -/
def RoundTrip.us (t : RoundTrip) : Nat := (t.received - t.sent).toNat

/-- `_talk_sender_handshake()`, successful. -/
def talkSenderHandshake (t : RoundTrip) : Int64 := (t.received - t.sent).toInt64

/-- The handshake loop of `talk_sender()`: what its calls return is narrowed to `ret`, and
added to `dt`. Below zero the program ends. -/
def handshakeLoop : List Int64 → UInt32 → Option UInt32
  | [], dt => some dt
  | r :: rs, dt =>
      let ret := r.toInt32
      if ret < 0 then none else handshakeLoop rs (dt + ret.toUInt32)

/-- From the loop to `report_talk_latency_set()`; `rets` is what the calls return. -/
def talkSenderLatency (iter : UInt16) (rets : Nat → Int64) (r : ReportCollect) :
    Option ReportCollect :=
  match handshakeLoop ((List.range iter.toNat).map rets) 0 with
  | none => none
  | some dt => some { r with talkLatencyUs := dt / iter.toUInt32 }

/-- The message of the negotiation, with `report_talk_latency_get()`. -/
def talkSenderOffer (count : UInt32) (r : ReportCollect) : TalkPayload :=
  negotiatePayload count r.talkLatencyUs

/-- The sum of the round trips. -/
def roundTripSum (iter : UInt16) (trips : Nat → RoundTrip) : Nat :=
  ((List.range iter.toNat).map (fun i => (trips i).us)).sum

/-- The latency that is reported, and sent, is the mean round trip. -/
def LatencyExact (iter : UInt16) (trips : Nat → RoundTrip) (r : ReportCollect) : Prop :=
  ∃ r', talkSenderLatency iter (fun i => talkSenderHandshake (trips i)) r = some r'
    ∧ r'.talkLatencyUs.toNat = roundTripSum iter trips / iter.toNat
    ∧ ∀ count, (talkSenderOffer count r').latency.toNat = roundTripSum iter trips / iter.toNat

/-! ### One round trip -/

theorem toInt32_toInt64 (x : UInt64) : x.toInt64.toInt32 = Int32.ofNat x.toNat := by
  rw [← Int64.toInt32_ofNat', ← UInt64.toInt64_ofNat', UInt64.ofNat_toNat]

/-- A round trip of less than 2^31 microseconds is no failure. -/
theorem handshake_nonneg {t : RoundTrip} (h : t.us < 2 ^ 31) :
    ¬ (talkSenderHandshake t).toInt32 < 0 := by
  have hval : (Int32.ofNat t.us).toInt = t.us := Int32.toInt_ofNat_of_lt h
  rw [talkSenderHandshake, toInt32_toInt64, Int32.lt_iff_toInt_lt, ← RoundTrip.us, hval,
    Int32.toInt_zero]
  omega

/-- The narrowing keeps the low 32 bits. -/
theorem handshake_toUInt32 (t : RoundTrip) :
    (talkSenderHandshake t).toInt32.toUInt32 = UInt32.ofNat t.us := by
  rw [talkSenderHandshake, toInt32_toInt64, ← UInt32.toInt32_ofNat', UInt32.toUInt32_toInt32]
  rfl

/-! ### The loop -/

/-- The loop adds up the round trips. -/
theorem handshakeLoop_eq {trips : List RoundTrip} (h : ∀ t ∈ trips, t.us < 2 ^ 31) (dt : UInt32) :
    handshakeLoop (trips.map talkSenderHandshake) dt
      = some (trips.foldl (fun s t => s + UInt32.ofNat t.us) dt) := by
  induction trips generalizing dt with
  | nil => rfl
  | cons t trips ih =>
      obtain ⟨ht, htrips⟩ := List.forall_mem_cons.mp h
      simp only [List.map_cons, handshakeLoop, if_neg (handshake_nonneg ht), List.foldl_cons,
        handshake_toUInt32]
      exact ih htrips _

/-- The loop does to `dt` what the sender of a connection does with every PONG. -/
theorem handshakeLoop_tally {trips : List RoundTrip} (h : ∀ t ∈ trips, t.us < 2 ^ 31)
    (host : Host) (n : Nat) (p : TalkPayload) (i : Nat) (tally : TalkTally) :
    handshakeLoop (trips.map talkSenderHandshake) tally.dt
      = some (trips.foldl (fun s t => s.take host (UInt32.ofNat t.us) n p (.pong i)) tally).dt := by
  rw [handshakeLoop_eq h]
  exact congrArg some (List.foldl_hom TalkTally.dt (fun _ _ => rfl))

/-- What is reported, whatever the round trips add up to. -/
theorem talkSenderLatency_eq (iter : UInt16) (trips : Nat → RoundTrip)
    (h : ∀ i < iter.toNat, (trips i).us < 2 ^ 31) (r : ReportCollect) :
    ∃ latency, talkSenderLatency iter (fun i => talkSenderHandshake (trips i)) r
        = some { r with talkLatencyUs := latency }
      ∧ latency.toNat = roundTripSum iter trips % 2 ^ 32 / iter.toNat := by
  have hmem : ∀ t ∈ (List.range iter.toNat).map trips, t.us < 2 ^ 31 := by
    intro t ht
    obtain ⟨i, hi, rfl⟩ := List.mem_map.mp ht
    exact h i (List.mem_range.mp hi)
  have hus : ((List.range iter.toNat).map trips).map (fun t => (UInt32.ofNat t.us).toNat)
      = (List.range iter.toNat).map (fun i => (trips i).us) := by
    rw [List.map_map]
    refine List.map_congr_left ?_
    intro i hi
    have := h i (List.mem_range.mp hi)
    rw [Function.comp_apply, UInt32.toNat_ofNat']
    omega
  have hloop := handshakeLoop_eq hmem 0
  rw [List.map_map] at hloop
  refine ⟨_, by rw [talkSenderLatency, ← Function.comp_def talkSenderHandshake trips, hloop], ?_⟩
  rw [UInt32.toNat_div, wraps_uint32.toNat_foldl_add, hus, UInt16.toNat_toUInt32, roundTripSum]
  rw [show (0 : UInt32).toNat = 0 from rfl, Nat.zero_add]

/-- **The latency is the mean round trip as long as the sum fits 32 bits.** For every accepted
number of handshakes and as many round trips below 2^31 microseconds, what the sender reports
and sends is the floor of their mean exactly if they add up to less than 2^32 microseconds. -/
theorem talkSenderLatency_exact_iff {iter : UInt16} (hiter : 0 < iter.toNat)
    {trips : Nat → RoundTrip} (hus : ∀ i < iter.toNat, (trips i).us < 2 ^ 31)
    (r : ReportCollect) :
    LatencyExact iter trips r ↔ roundTripSum iter trips < 2 ^ 32 := by
  obtain ⟨latency, hrun, hlatency⟩ := talkSenderLatency_eq iter trips hus r
  have hmean := mod_div_eq_iff (s := roundTripSum iter trips) hiter
    (Nat.le_of_lt (Nat.lt_trans iter.toNat_lt (by decide : (2 ^ 16 : Nat) < 2 ^ 32)))
  rw [← hlatency] at hmean
  rw [← hmean]
  constructor
  · intro hexists
    obtain ⟨r', hrun', hexact, -⟩ := hexists
    rw [hrun] at hrun'
    cases hrun'
    exact hexact
  · intro hexact
    exact ⟨_, hrun, hexact, fun _ => hexact⟩

/-- Three round trips of about 300 microseconds. -/
theorem talkSenderLatency_exact_three :
    LatencyExact 3 (fun i => ⟨1000, 1300 + UInt64.ofNat i⟩) .zero :=
  (talkSenderLatency_exact_iff (by decide) (by decide) _).mpr (by decide)

/-- `-N 65535` over a link with a round trip of 66 milliseconds: a latency of 462 microseconds
is reported. -/
theorem talkSenderLatency_fails_satellite :
    (∃ r', talkSenderLatency 65535 (fun _ => talkSenderHandshake ⟨0, 66000⟩) .zero = some r'
      ∧ r'.talkLatencyUs.toNat = 462)
    ∧ ¬ LatencyExact 65535 (fun _ => ⟨0, 66000⟩) .zero := by
  have hsum : roundTripSum 65535 (fun _ => ⟨0, 66000⟩) = 4325310000 := by
    rw [roundTripSum, List.map_const', List.sum_replicate, List.length_range, smul_eq_mul]
    rfl
  obtain ⟨latency, hrun, hlatency⟩ := talkSenderLatency_eq 65535 (fun _ => ⟨0, 66000⟩)
    (fun _ _ => by decide) .zero
  rw [hsum] at hlatency
  have hval : latency.toNat = 462 := hlatency
  refine ⟨⟨_, hrun, hval⟩, ?_⟩
  intro hexists
  obtain ⟨r', hrun', hexact, -⟩ := hexists
  rw [hrun] at hrun'
  cases hrun'
  rw [hsum] at hexact
  have hmean : latency.toNat = 66000 := hexact
  rw [hval] at hmean
  exact absurd hmean (by decide)

end Ubwt
