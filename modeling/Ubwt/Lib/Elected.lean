import Mathlib.Order.Monotone.Basic

/-!
# Ubwt.Lib.Elected

A value that one of the callers of a barrier moves on in each round. All callers come to a first
call of the round, from which one of them returns with the news that it is elected; it moves the
value on, and all of them come to a second call.

What a caller knows of the number of rounds in which the value has been moved on is
`Stand.Sees`. **When the elected caller moves it on, all others still see what they saw**
(`Stand.Sees.moved`), and **behind the second call every caller sees its round done**
(`Stand.Sees.done_of_sync`).
-/

namespace Lib

/-- Where a caller is in its round. -/
inductive Turn
  /-- Before the first call. -/
  | out
  /-- At the first call. -/
  | wait
  /-- Elected, between the two calls. -/
  | set
  /-- At the second call. -/
  | sync
  deriving Repr, DecidableEq

/-- A caller: its round, where it is in it, and the calls that it has returned from. -/
structure Stand where
  round : Nat
  turn : Turn
  passed : Nat
  waiting : Bool

namespace Stand

/-- The calls that it has entered. -/
def calls (p : Stand) : Nat := p.passed + p.waiting.toNat

/-- The calls are those of its place; `first r` are made before the first call of round `r`. -/
structure Paced (first : Nat → Nat) (p : Stand) : Prop where
  out : p.turn = .out → p.calls ≤ first p.round
  wait : p.turn = .wait → p.passed = first p.round
  set : p.turn = .set → p.passed = first p.round + 1 ∧ p.waiting = false
  sync : p.turn = .sync → p.passed = first p.round + 1

/-- What a caller knows of the number of rounds that are done; `elected r` says that it is elected
in round `r`. -/
def Sees (elected : Nat → Prop) (done : Nat) (p : Stand) : Prop :=
  match p.turn with
  | .out => done = p.round
  | .wait => done = p.round ∨ done = p.round + 1 ∧ p.waiting = true ∧ ¬elected p.round
  | .set => done = p.round ∧ elected p.round
  | .sync => done = p.round + 1 ∨ done = p.round ∧ ¬elected p.round

variable {first : Nat → Nat} {elected elected' : Nat → Prop} {done : Nat} {p q : Stand}

theorem sees_out (h : p.turn = .out) : p.Sees elected done ↔ done = p.round := by
  rw [Sees, h]

theorem sees_wait (h : p.turn = .wait) : p.Sees elected done ↔
    done = p.round ∨ done = p.round + 1 ∧ p.waiting = true ∧ ¬elected p.round := by
  rw [Sees, h]

theorem sees_set (h : p.turn = .set) :
    p.Sees elected done ↔ done = p.round ∧ elected p.round := by
  rw [Sees, h]

theorem sees_sync (h : p.turn = .sync) : p.Sees elected done ↔
    done = p.round + 1 ∨ done = p.round ∧ ¬elected p.round := by
  rw [Sees, h]

theorem Sees.round_le (h : p.Sees elected done) : p.round ≤ done := by
  unfold Sees at h
  split at h <;> omega

theorem Paced.calls_le (h : p.Paced first) : p.calls ≤ first p.round + 2 := by
  have hone : p.waiting.toNat ≤ 1 := Bool.toNat_le _
  unfold calls
  cases hturn : p.turn with
  | out =>
      have := h.out hturn
      unfold calls at this
      omega
  | wait =>
      have := h.wait hturn
      omega
  | set =>
      have := (h.set hturn).1
      omega
  | sync =>
      have := h.sync hturn
      omega

/-- A caller that has come as far as the first call of a round is in that round or behind it. -/
theorem Paced.le_round (hfirst : ∀ r, first r + 2 ≤ first (r + 1)) (h : p.Paced first) {r : Nat}
    (hcalls : first r < p.calls) : r ≤ p.round := by
  have hmono : Monotone first := monotone_nat_of_le_succ fun r => by
    have := hfirst r
    omega
  by_contra hlt
  have hnext := hmono (show p.round + 1 ≤ r by omega)
  have := hfirst p.round
  have := h.calls_le
  omega

/-- `p` returns from its first call, and is then `q`. -/
theorem Sees.returned (h : p.Sees elected done) (hwait : p.turn = .wait)
    (hround : q.round = p.round) (hturn : q.turn = .set ∨ q.turn = .sync)
    (helected : q.turn = .set ↔ elected p.round) : q.Sees elected done := by
  have hsees := (sees_wait hwait).mp h
  rcases hturn with hset | hsync
  · rw [sees_set hset, hround]
    rcases hsees with hdone | ⟨-, -, hnot⟩
    · exact ⟨hdone, helected.mp hset⟩
    · exact absurd (helected.mp hset) hnot
  · rw [sees_sync hsync, hround]
    rcases hsees with hdone | ⟨hdone, -, -⟩
    · refine .inr ⟨hdone, fun hcaller => ?_⟩
      cases hsync.symm.trans (helected.mpr hcaller)
    · exact .inl hdone

/-- `p` moves the value on. -/
theorem Sees.moved (hfirst : ∀ r, first r + 2 ≤ first (r + 1)) (hp : p.Paced first)
    (hq : q.Paced first) (hturn : p.turn = .set) (hmeets : p.passed ≤ q.calls)
    (hsees : q.Sees elected p.round) (hother : ¬elected p.round) :
    q.Sees elected (p.round + 1) := by
  have hpassed := (hp.set hturn).1
  have hround : p.round ≤ q.round := hq.le_round hfirst (by omega)
  obtain hq' : q.round = p.round := Nat.le_antisymm hsees.round_le hround
  cases hqturn : q.turn with
  | out =>
      have := hq.out hqturn
      rw [hq'] at this
      omega
  | wait =>
      have hwait := hq.wait hqturn
      have hwaiting : q.waiting = true := by
        by_contra hnot
        rw [calls, hwait, hq', Bool.of_not_eq_true hnot, Bool.toNat_false] at hmeets
        omega
      exact (sees_wait hqturn).mpr (.inr ⟨by rw [hq'], hwaiting, hq'.symm ▸ hother⟩)
  | set => exact absurd (hq' ▸ ((sees_set hqturn).mp hsees).2) hother
  | sync => exact (sees_sync hqturn).mpr (.inl (by rw [hq']))

/-- `p` returns from its second call, `q` is elected in its round. -/
theorem Sees.done_of_sync (hfirst : ∀ r, first r + 2 ≤ first (r + 1)) (hp : p.Paced first)
    (hq : q.Paced first) (hturn : p.turn = .sync) (hwaiting : p.waiting = true)
    (hmeets : p.calls ≤ q.calls) (hsees : p.Sees elected done) (hsees' : q.Sees elected' done)
    (helected : elected' p.round) : done = p.round + 1 := by
  have hcalls : p.calls = first p.round + 2 := by
    rw [calls, hp.sync hturn, hwaiting]
    rfl
  have hround : p.round ≤ q.round := hq.le_round hfirst (by omega)
  have hle := hsees'.round_le
  rcases (sees_sync hturn).mp hsees with hdone | ⟨hdone, -⟩
  · exact hdone
  · -- The elected caller would still be in the round, at its second call.
    have hq' : q.round = p.round := by omega
    have hone : q.waiting.toNat ≤ 1 := Bool.toNat_le _
    rw [hcalls] at hmeets
    cases hqturn : q.turn with
    | out =>
        have := hq.out hqturn
        rw [hq'] at this
        omega
    | wait =>
        have := hq.wait hqturn
        unfold calls at hmeets
        rw [hq'] at this
        omega
    | set =>
        obtain ⟨hpassed, hnot⟩ := hq.set hqturn
        rw [calls, hpassed, hnot, hq', Bool.toNat_false] at hmeets
        omega
    | sync =>
        rw [sees_sync hqturn, hq'] at hsees'
        rcases hsees' with hlater | ⟨-, hnot⟩
        · omega
        · exact absurd helected hnot

end Stand

end Lib
