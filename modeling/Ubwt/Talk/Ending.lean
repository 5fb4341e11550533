import Mathlib.Algebra.Order.BigOperators.Group.Finset
import Ubwt.Talk.Progress

/-!
# Ubwt.Talk.Ending

**Every test ends** (`every_test_ends`), if no message is lost and no call fails: no run has more
steps than a bound that depends on the number of workers alone, and where a run cannot go on, the
test is completed, or an assertion on a count fails, or a receiver refuses the largest count that
the assertions allow.

Each step takes one worker on: to another direction, to the next stream, to a later place of the
stream, through a loop, or into a call of a barrier (`TalkWorker.Below`). All of these are bounded,
the streams by the counts (`TalkTest.Reaches.stream_le`).
-/

namespace Ubwt

open Lib Lib.Posix

/-! ### What a worker has before it -/

namespace TalkWorker

/-- The iterations of the loop that the worker is in. -/
def left (v : TestEnv) (w : TalkWorker) : Nat :=
  match w.pc with
  | .ping => 2 * (v.iter.toNat - w.i) + 1
  | .pong => 2 * (v.iter.toNat - w.i)
  | .streamRun => w.count.toNat - w.i
  | _ => 0

/-- The worker `w'` has less before it than `w`. -/
inductive Below (v : TestEnv) (w' w : TalkWorker) : Prop
  | dirs (h : w'.dirs.length < w.dirs.length)
  | stream (hd : w'.dirs = w.dirs) (hk : w'.k = w.k + 1)
  | place (hd : w'.dirs = w.dirs) (hk : w'.k = w.k) (hpc : w.pc.ord < w'.pc.ord)
  | loop (hd : w'.dirs = w.dirs) (hk : w'.k = w.k) (hpc : w'.pc.ord = w.pc.ord)
      (hleft : w'.left v < w.left v)
  | enter (hd : w'.dirs = w.dirs) (hk : w'.k = w.k) (hpc : w'.pc.ord = w.pc.ord)
      (hleft : w'.left v = w.left v) (hw : w.waiting = false) (hw' : w'.waiting = true)

/-- What a worker has before it as a number, if it is in stream `K` at most. -/
def before (v : TestEnv) (K : Nat) (w : TalkWorker) : Nat :=
  (((w.dirs.length * (K + 1) + (K - w.k)) * 40 + (39 - w.pc.ord)) * 2 ^ 33 + w.left v) * 2
    + (!w.waiting).toNat

variable {v : TestEnv} {e : Endpoint} {c : Fin v.workers} {d : Dir} {rest : List Dir}
  {w w' : TalkWorker} {sh sh' : TalkContext v.workers} {K : Nat}

theorem left_lt (w : TalkWorker) : w.left v < 2 ^ 33 := by
  have hiter := v.iter.toNat_lt
  have hcount := w.count.toNat_lt
  unfold left
  split <;> omega

/-- The digits of the number are in the order of `Below`. -/
theorem Below.before_lt (h : Below v w' w) (hK : w'.dirs = w.dirs → w'.k ≤ K) :
    w'.before v K < w.before v K := by
  have hleft' := w'.left_lt (v := v)
  have hord := w.pc.ord_lt
  have hord' := w'.pc.ord_lt
  have hwait : (!w'.waiting).toNat < 2 := Nat.lt_succ_of_le (Bool.toNat_le _)
  unfold before
  refine digits_lt hwait ?_
  cases h with
  | dirs h =>
      refine .inl (digits_lt hleft' (.inl (digits_lt (by omega) (.inl (digits_lt ?_ (.inl h))))))
      omega
  | stream hd hk =>
      have := hK hd
      refine .inl (digits_lt hleft' (.inl (digits_lt (by omega) (.inl ?_))))
      rw [hd]
      omega
  | place hd hk hpc =>
      refine .inl (digits_lt hleft' (.inl ?_))
      rw [hd, hk]
      omega
  | loop hd hk hpc hleft =>
      refine .inl ?_
      rw [hd, hk, hpc]
      omega
  | enter hd hk hpc hleft hw hw' =>
      refine .inr ⟨?_, ?_⟩
      · rw [hd, hk, hpc, hleft]
      · rw [hw, hw']
        decide

/-! ### Each step takes a worker on -/

theorem below_toPing {p : WorkerPc} (hpc : w.pc = p) (hp : p = .initWait ∨ p = .pong)
    (hdirs : w'.dirs = w.dirs) (hk : w'.k = w.k) (hzero : w.k = 0) {i : Nat}
    (hi : p = .pong → w.i + 1 = i) : Below v (w'.toPing v e d i) w := by
  unfold toPing
  split
  · rename_i hlt
    rcases hp with rfl | rfl
    · exact .place hdirs hk (by simp [hpc, WorkerPc.ord])
    · refine .loop hdirs hk (by rw [hpc]; rfl) ?_
      have := hi rfl
      simp only [left, hpc]
      omega
  · cases d.role e <;> refine .place hdirs hzero.symm ?_ <;> rw [hpc] <;>
      rcases hp with rfl | rfl <;> simp [WorkerPc.ord]

theorem below_toRun {p : WorkerPc} (hpc : w.pc = p) (hp : p = .startWait ∨ p = .streamRun)
    (hdirs : w'.dirs = w.dirs) (hk : w'.k = w.k) (hcount : w'.count = w.count) {i : Nat}
    (hi : p = .streamRun → w.i + 1 = i) : Below v (w'.toRun i) w := by
  unfold toRun
  split
  · rename_i hlt
    rcases hp with rfl | rfl
    · exact .place hdirs hk (by simp [hpc, WorkerPc.ord])
    · refine .loop hdirs hk (by rw [hpc]) ?_
      have := hi rfl
      simp only [left, hpc, hcount] at hlt ⊢
      omega
  · refine .place hdirs hk ?_
    rw [hpc]
    rcases hp with rfl | rfl <;> simp [WorkerPc.ord]

theorem below_again {p : WorkerPc} (hpc : w.pc = p) (hp : p.ord < 33) : Below v (w.again e d) w := by
  unfold again
  cases d.role e with
  | sender =>
      refine .place rfl rfl ?_
      rw [hpc]
      exact hp
  | receiver => exact .stream rfl rfl

theorem below_stop {p : WorkerPc} (hpc : w.pc = p) (hp : p.ord < 31) : Below v (w.stop d) w := by
  refine .place rfl rfl ?_
  rw [hpc]
  exact hp

/-- A step of the worker alone. -/
theorem Local.below (h : Local v e c d w sh w' sh') (hw : w.waiting = false) : Below v w' w := by
  cases h with
  | enter => exact .enter rfl rfl rfl rfl hw rfl
  | testWeak hpc =>
      split
      · exact .place rfl rfl (by simp [hpc, WorkerPc.ord])
      · exact below_stop hpc (by decide)
  | testImWeak hpc =>
      unfold TalkWorker.testImWeak
      split_ifs
      · exact below_again hpc (by decide)
      · exact .place rfl rfl (by simp [hpc, WorkerPc.ord])
      · exact below_again hpc (by decide)
      · exact below_stop hpc (by decide)
  | testImWeakReverse hpc =>
      split
      · exact below_again hpc (by decide)
      · exact below_stop hpc (by decide)
  | talkInit hpc | countSet hpc | resetWeak hpc | resetImWeak hpc | resetWeakTime hpc
  | resetUnlock hpc | loadWeak hpc | storeWeak hpc | loadImWeak hpc | storeImWeak hpc
  | setWeakTime hpc | setUnlock hpc | resetLock hpc _ | setLock hpc _ | recount _ hpc =>
      exact .place rfl rfl (by simp [hpc, WorkerPc.ord])

/-- A barrier lets it go. -/
theorem At.released_below {b : BarrierId} (h : w.At v e c d) (hb : w.pc.barrier v d = some b)
    (serial : Bool) (now : UInt64) : Below v (w.released v e c d b serial now) w := by
  unfold released
  rw [proceed_with]
  rcases barrier_cases hb with ⟨-, hpc⟩ | ⟨-, hpc⟩ | ⟨-, hpc⟩ | ⟨-, hpc⟩
  · rcases hpc with hpc | hpc | hpc | hpc | hpc <;> simp only [proceed, hpc]
    · exact below_toPing hpc (.inl rfl) (by rfl) (by rfl) (h.early (by rw [hpc]; rfl))
        (by intro h; cases h)
    · exact .place rfl rfl (by simp [hpc, WorkerPc.ord])
    · cases d.role e <;> exact below_toRun hpc (.inl rfl) (by rfl) (by rfl) (by rfl)
        (by intro h; cases h)
    · cases w.weak <;> exact .place rfl rfl (by simp [hpc, WorkerPc.ord])
    · exact .place rfl rfl (by simp [hpc, WorkerPc.ord])
  · rcases hpc with hpc | hpc | hpc | hpc <;> simp only [proceed, hpc]
    · cases serial <;> exact .place rfl rfl (by simp [hpc, WorkerPc.ord])
    · exact .place rfl rfl (by simp [hpc, WorkerPc.ord])
    · cases serial <;> exact .place rfl rfl (by simp [hpc, WorkerPc.ord])
    · exact .stream rfl rfl
  · simp only [proceed, hpc, measure]
    split
    · exact .place rfl rfl (by simp [hpc, WorkerPc.ord])
    · cases d.role e <;> exact .place rfl rfl (by simp [hpc, WorkerPc.ord, setReport])
  · simp only [proceed, hpc, measure]
    cases d.role e <;> exact .place rfl rfl (by simp [hpc, WorkerPc.ord, setReport])

theorem below_nextDir (hd : w.dirs = d :: rest) : Below v (w.nextDir rest) w := by
  refine .dirs ?_
  rw [hd]
  exact Nat.lt_succ_self _

/-- It says something. -/
theorem At.sent_below {step : TalkStep} {count : Dir → UInt64} (h : w.At v e c d)
    (hd : w.dirs = d :: rest) (hx : w.exchange = some step) :
    Below v (w.sent v e c d rest count) w := by
  rcases exchange_cases hx with ⟨hpc, rfl⟩ | ⟨hpc, rfl⟩ | ⟨hpc, rfl⟩ | ⟨hpc, rfl⟩ | ⟨hpc, rfl⟩ |
    ⟨hpc, rfl⟩ | ⟨hpc, rfl⟩ | ⟨hpc, rfl⟩ <;> simp only [TalkWorker.sent, hpc]
  case inl => exact .loop rfl rfl (by rw [hpc]; rfl) (by simp [left, hpc])
  case inr.inl =>
    exact below_toPing hpc (.inr rfl) (by rfl) (by rfl) (h.early (by rw [hpc]; rfl)) fun _ => rfl
  case inr.inr.inr.inr.inl => exact below_toRun hpc (.inr rfl) (by rfl) (by rfl) (by rfl) fun _ => rfl
  case inr.inr.inr.inr.inr.inr.inr => exact below_nextDir hd
  all_goals exact .place rfl rfl (by simp [hpc, WorkerPc.ord, setReport])

/-- It hears something. -/
theorem At.heard_below {step : TalkStep} {count : Dir → UInt64} {latency : UInt32}
    {pkt : TalkPayload} (h : w.At v e c d) (hd : w.dirs = d :: rest)
    (hx : w.exchange = some step) : Below v (w.heard v e d rest count latency pkt) w := by
  rcases exchange_cases hx with ⟨hpc, rfl⟩ | ⟨hpc, rfl⟩ | ⟨hpc, rfl⟩ | ⟨hpc, rfl⟩ | ⟨hpc, rfl⟩ |
    ⟨hpc, rfl⟩ | ⟨hpc, rfl⟩ | ⟨hpc, rfl⟩ <;> simp only [TalkWorker.heard, hpc]
  case inl => exact .loop rfl rfl (by rw [hpc]; rfl) (by simp [left, hpc])
  case inr.inl =>
    have hzero := h.early (by rw [hpc]; rfl)
    split
    · exact below_toPing hpc (.inr rfl) (by rfl) (by rfl) hzero fun _ => rfl
    · exact below_toPing hpc (.inr rfl) (by rfl) (by rfl) hzero fun _ => rfl
  case inr.inr.inr.inr.inl => exact below_toRun hpc (.inr rfl) (by rfl) (by rfl) (by rfl) fun _ => rfl
  case inr.inr.inr.inr.inr.inr.inr => exact below_nextDir hd
  all_goals exact .place rfl rfl (by simp [hpc, WorkerPc.ord, setReport])

end TalkWorker

/-! ### All workers -/

namespace TalkTest

variable {v : TestEnv} {cfg : Config} {env : Env} {election : v.Election} {e : Endpoint}
  {c : Fin v.workers} {s s' : TalkTest v.workers} {K : Nat}

/-- A step takes one worker on and leaves the others where they are. -/
theorem Step.below (hinv : s.Inv v) (hstep : Step v s s') :
    ∃ e c d rest, (s.worker e c).dirs = d :: rest ∧
      TalkWorker.Below v (s'.worker e c) (s.worker e c) ∧
      ∀ e' c', ¬(e' = e ∧ c' = c) → s'.worker e' c' = s.worker e' c' := by
  have hat : ∀ {e c d rest}, (s.worker e c).dirs = d :: rest →
      (s.worker e c).At v e c d := fun hd => ((hinv.crew _).shape _).now _ _ hd
  cases hstep with
  | loc e c hd hw hlocal =>
      refine ⟨e, c, _, _, hd, ?_, fun _ _ => worker_set_of_ne⟩
      rw [worker_set_self]
      exact hlocal.below hw
  | leave e c serial now hd hw hb hall =>
      refine ⟨e, c, _, _, hd, ?_, fun _ _ => worker_set_of_ne⟩
      rw [worker_set_self]
      exact (hat hd).released_below hb serial now
  | send e c fill fillSize hd hx hrole =>
      refine ⟨e, c, _, _, hd, ?_, ?_⟩
      · rw [worker_setChan, worker_set_self]
        exact (hat hd).sent_below hd hx
      · intro e' c' hne
        rw [worker_setChan, worker_set_of_ne hne]
  | recv e c latency hd hx hrole hchan _ =>
      refine ⟨e, c, _, _, hd, ?_, ?_⟩
      · rw [worker_setChan, worker_set_self]
        exact (hat hd).heard_below hd hx
      · intro e' c' hne
        rw [worker_setChan, worker_set_of_ne hne]

/-- What the workers of both endpoints have before them. -/
def before (v : TestEnv) (K : Nat) (s : TalkTest v.workers) : Nat :=
  ∑ c, ((s.worker .connector c).before v K + (s.worker .listener c).before v K)

theorem before_lt (hlt : (s'.worker e c).before v K < (s.worker e c).before v K)
    (hother : ∀ e' c', ¬(e' = e ∧ c' = c) → s'.worker e' c' = s.worker e' c') :
    s'.before v K < s.before v K := by
  have hle : ∀ e' c', (s'.worker e' c').before v K ≤ (s.worker e' c').before v K := by
    intro e' c'
    by_cases hsame : e' = e ∧ c' = c
    · rw [hsame.1, hsame.2]
      exact hlt.le
    · rw [hother e' c' hsame]
  refine Finset.sum_lt_sum (fun c' _ => Nat.add_le_add (hle _ c') (hle _ c')) ⟨c, Finset.mem_univ c, ?_⟩
  cases e with
  | connector => exact Nat.add_lt_add_of_lt_of_le hlt (hle _ c)
  | listener => exact Nat.add_lt_add_of_le_of_lt (hle _ c) hlt

/-- The number of the last stream that a count allows. -/
def streamMax : Nat := 2 * configTalkCountMax.toNat

/-- **Each step leaves less.** -/
theorem lowers (hv : v.Configured cfg) (hopt : OptInv env cfg) :
    Lowers (Advance cfg election) (Reaches cfg election) (before v streamMax) where
  keeps := fun _ _ hs hadvance => hs.tail hadvance
  lowers := by
    intro s s' hs hadvance
    obtain ⟨e, c, d, rest, hd, hbelow, hother⟩ := hadvance.step.below hs.reachable.inv
    refine before_lt (hbelow.before_lt fun hdirs => ?_) hother
    have hs' : s'.Reaches cfg election := hs.tail hadvance
    exact hs'.stream_le hv hopt (hdirs.trans hd)

/-- What the workers of both endpoints have before them at the start, if they are in stream `K` at
most. -/
def stepsMax (workers K : Nat) : Nat :=
  workers * (2 * ((((2 * (K + 1) + K) * 40 + 39) * 2 ^ 33) * 2 + 1))

theorem before_init (v : TestEnv) (K : Nat) : (init v).before v K ≤ stepsMax v.workers K := by
  have hle : ∀ e c, ((init v).worker e c).before v K
      ≤ (((2 * (K + 1) + K) * 40 + 39) * 2 ^ 33) * 2 + 1 := by
    intro e c
    have hlen := TalkWorker.length_dirs_le c
    have hmul : (v.dirs c).length * (K + 1) ≤ 2 * (K + 1) := Nat.mul_le_mul_right _ hlen
    simp only [TalkWorker.before, init, WorkerPc.ord, TalkWorker.left, Bool.not_false,
      Bool.toNat_true, Nat.sub_zero, Nat.add_zero]
    omega
  calc (init v).before v K
      ≤ ∑ _c : Fin v.workers, 2 * ((((2 * (K + 1) + K) * 40 + 39) * 2 ^ 33) * 2 + 1) := by
        refine Finset.sum_le_sum fun c _ => ?_
        have hconnector := hle .connector c
        have hlistener := hle .listener c
        omega
    _ = stepsMax v.workers K := by
        rw [Finset.sum_const, Finset.card_univ, Fintype.card_fin, smul_eq_mul, stepsMax]

/-! ### The counts on their way -/

/-- Only a negotiation asks for a count. -/
theorem negotiate_of_countReq {h : Host} {iter : UInt16} {size : PayloadSize} {x : TalkData}
    {step : TalkStep} (hreq : (talkSay h iter size x step).has .countReq = true) :
    ∃ k, step = .negotiate k ∧ (talkSay h iter size x step).count = x.count := by
  rw [TalkPayload.has, talkSay_flags] at hreq
  generalize x.weak = weak at hreq
  cases step with
  | negotiate k => exact ⟨k, rfl, rfl⟩
  | _ =>
      exfalso
      revert weak
      dsimp only [TalkStep.flags, TalkStep.op]
      decide

theorem countReq_of_negotiate {h : Host} {iter : UInt16} {size : PayloadSize} {x : TalkData}
    {k : Nat} : (talkSay h iter size x (.negotiate k)).has .countReq = true := by
  rw [TalkPayload.has, talkSay_flags]
  dsimp only [TalkStep.flags]
  decide

/-- What the assertions of the senders leave of the counts on their way. -/
def CountsBounded (s : TalkTest v.workers) : Prop :=
  ∀ c e, ∀ pkt ∈ s.chan c e, pkt.has .countReq = true → pkt.count ≤ configTalkCountMax

/-- A sender negotiates what its assertions admit. -/
theorem Reaches.count_le {d : Dir} {rest : List Dir} {k : Nat} (hv : v.Configured cfg)
    (hopt : OptInv env cfg) (h : s.Reaches cfg election) (hd : (s.worker e c).dirs = d :: rest)
    (hrole : d.role e = .sender) (hx : (s.worker e c).exchange = some (.negotiate k)) :
    ((s.shared e).count d).toUInt32 ≤ configTalkCountMax := by
  have hpc := TalkWorker.pc_of_negotiate hx
  have hmem := ((h.reachable.inv.crew e).shape c).mem hd
  obtain ⟨weakTime, done, hcounted⟩ := h.counted hv hopt hrole ⟨c, hmem⟩
  have hin : (s.worker e c).InStream := ⟨by rw [hpc]; rfl, by rw [hpc]; rfl⟩
  have hle := hcounted.asserted c rest hd hin.1
  rw [← (hcounted.toNat_count hd hin).2] at hle
  rw [UInt32.le_iff_toNat_le, UInt64.toNat_toUInt32]
  exact (Nat.mod_le _ _).trans hle

theorem Reaches.countsBounded (hv : v.Configured cfg) (hopt : OptInv env cfg)
    (h : s.Reaches cfg election) : s.CountsBounded := by
  induction h with
  | refl => exact fun _ _ _ hmem => absurd hmem List.not_mem_nil
  | @tail s s' hreaches hadvance ih =>
      intro c' e' pkt hmem hreq
      cases hadvance.step with
      | loc | leave => exact ih c' e' pkt hmem hreq
      | @send e c d rest step fill fillSize hd hx hrole =>
          by_cases hsame : c' = c ∧ e' = e
          · obtain ⟨rfl, rfl⟩ := hsame
            rw [chan_setChan_self, List.mem_append, List.mem_singleton] at hmem
            rcases hmem with hmem | rfl
            · exact ih _ _ pkt hmem hreq
            · obtain ⟨k, rfl, hcount⟩ := negotiate_of_countReq hreq
              rw [hcount, TalkWorker.data, if_pos (TalkWorker.pc_of_negotiate hx)]
              exact Reaches.count_le hv hopt hreaches hd hrole hx
          · refine ih c' e' pkt ?_ hreq
            simp only [setChan] at hmem
            by_cases hc : c' = c
            · subst hc
              rw [Function.update_self, Function.update_of_ne fun he => hsame ⟨rfl, he⟩] at hmem
              exact hmem
            · rw [Function.update_of_ne hc] at hmem
              exact hmem
      | @recv e c d rest step pkt' more latency hd hx hrole hchan _ =>
          refine ih c' e' pkt ?_ hreq
          simp only [setChan] at hmem
          by_cases hc : c' = c
          · subst hc
            rw [Function.update_self] at hmem
            by_cases he : e' = e.peer
            · subst he
              rw [Function.update_self] at hmem
              rw [hchan]
              exact List.mem_cons_of_mem pkt' hmem
            · rw [Function.update_of_ne he] at hmem
              exact hmem
          · rw [Function.update_of_ne hc] at hmem
            exact hmem

/-- The one count that the assertions of a sender admit and a receiver does not. -/
def RefusesMax (v : TestEnv) (s : TalkTest v.workers) (e : Endpoint) (c : Fin v.workers) : Prop :=
  ∃ d rest k pkt more, (s.worker e c).dirs = d :: rest ∧ d.role e = .receiver ∧
    (s.worker e c).exchange = some (.negotiate k) ∧ s.chan c e.peer = pkt :: more ∧
    pkt.count = configTalkCountMax

theorem Reaches.refusesMax (hv : v.Configured cfg) (hopt : OptInv env cfg)
    (h : s.Reaches cfg election) (hrefuses : s.Refuses v e c) : s.RefusesMax v e c := by
  obtain ⟨d, rest, k, pkt, more, hd, hrole, hx, hchan, hlarge⟩ := hrefuses
  refine ⟨d, rest, k, pkt, more, hd, hrole, hx, hchan, ?_⟩
  have hsays : v.Says c ((s.worker e c).pos v).1 pkt :=
    ((h.reachable.inv.inStep c).behind (s := e) hchan).2.1
  rw [TalkWorker.pos_of_exchange hd hx] at hsays
  obtain ⟨f, x, -, hpkt, -⟩ := hsays
  have hle := h.countsBounded hv hopt c e.peer pkt (hchan ▸ List.mem_cons_self ..)
    (hpkt ▸ countReq_of_negotiate)
  exact UInt32.le_antisymm hle hlarge

/-! ### The end -/

/-- The worker is behind a recount, and the assertions on the count fail. -/
def Fails (cfg : Config) (s : TalkTest v.workers) (e : Endpoint) (c : Fin v.workers) : Prop :=
  ∃ d rest, (s.worker e c).dirs = d :: rest ∧ (s.worker e c).pc = .recountSync ∧
    ¬CountAsserted cfg ((s.shared e).count d).toNat

/-- What is asked of a step is asked of the worker that takes it. -/
theorem Advance.of_mover {d : Dir} {rest : List Dir} (hstep : Step v s s')
    (hd : (s.worker e c).dirs = d :: rest)
    (hother : ∀ e' c', ¬(e' = e ∧ c' = c) → s'.worker e' c' = s.worker e' c')
    (helected : (s.worker e c).pc.turn = .wait → (s.worker e c).waiting = true →
      (s'.worker e c).waiting = false → ((s'.worker e c).pc.turn = .set ↔
        election.caller e d ((s.worker e c).passed (.dir d)) = c))
    (hrecounted : (s.worker e c).pc = .recount → (s'.worker e c).pc ≠ .recount →
      (s'.shared e).count d = (s.shared e).recounted cfg v d)
    (hasserted : (s.worker e c).pc = .recountSync → (s'.worker e c).pc ≠ .recountSync →
      CountAsserted cfg ((s.shared e).count d).toNat) : Advance cfg election s s' where
  step := hstep
  elected := by
    intro e' c' d' rest' hd' hturn hw hw'
    by_cases hsame : e' = e ∧ c' = c
    · obtain ⟨rfl, rfl⟩ := hsame
      rw [hd] at hd'
      obtain ⟨rfl, rfl⟩ := List.cons.inj hd'
      exact helected hturn hw hw'
    · rw [hother e' c' hsame, hw] at hw'
      cases hw'
  recounted := by
    intro e' c' d' rest' hd' hpc hpc'
    by_cases hsame : e' = e ∧ c' = c
    · obtain ⟨rfl, rfl⟩ := hsame
      rw [hd] at hd'
      obtain ⟨rfl, rfl⟩ := List.cons.inj hd'
      exact hrecounted hpc hpc'
    · rw [hother e' c' hsame] at hpc'
      exact absurd hpc hpc'
  asserted := by
    intro e' c' d' rest' hd' hpc hpc'
    by_cases hsame : e' = e ∧ c' = c
    · obtain ⟨rfl, rfl⟩ := hsame
      rw [hd] at hd'
      obtain ⟨rfl, rfl⟩ := List.cons.inj hd'
      exact hasserted hpc hpc'
    · rw [hother e' c' hsame] at hpc'
      exact absurd hpc hpc'

/-- **A worker that has a step can take one that the election, the recount and the assertions
allow**, unless the assertions fail. -/
theorem Ready.advance (h : s.Ready v e c) (hinv : s.Inv v) (hfails : ¬s.Fails cfg e c) :
    ∃ s', Advance cfg election s s' := by
  cases h with
  | @loc d rest hd hw hlocal =>
      obtain ⟨w, sh, hlocal⟩ := hlocal
      by_cases hpc : (s.worker e c).pc = .recount
      · refine ⟨_, .of_mover (.loc e c hd hw (.recount
          (UInt64.ofNat (recount cfg ((s.shared e).weakTime d).toNat ((s.shared e).count d).toNat))
          hpc)) hd (fun _ _ => worker_set_of_ne) ?_ ?_ ?_⟩
        · intro _ hwaiting
          cases hw.symm.trans hwaiting
        · intro _ _
          rw [shared_set_self, TalkContext.recounted, TestEnv.dirWorkers]
          split_ifs <;> simp
        · intro hsync
          cases hpc.symm.trans hsync
      · refine ⟨_, .of_mover (.loc e c hd hw hlocal) hd (fun _ _ => worker_set_of_ne) ?_ ?_ ?_⟩
        · intro _ hwaiting
          cases hw.symm.trans hwaiting
        · intro hrecount
          exact absurd hrecount hpc
        · intro hsync hleft
          -- A worker that is not in the call yet only enters it.
          rw [worker_set_self] at hleft
          cases hlocal with
          | enter => exact absurd hsync hleft
          | talkInit hpc | countSet hpc | resetWeak hpc | resetImWeak hpc | resetWeakTime hpc
          | resetUnlock hpc | loadWeak hpc | storeWeak hpc | loadImWeak hpc | storeImWeak hpc
          | setWeakTime hpc | setUnlock hpc | resetLock hpc _ | setLock hpc _ | recount _ hpc
          | testWeak hpc | testImWeak hpc | testImWeakReverse hpc => cases hsync.symm.trans hpc
  | @leave d rest b hd hw hb hall =>
      refine ⟨_, .of_mover (.leave e c
        (decide (election.caller e d ((s.worker e c).passed (.dir d)) = c)) 0 hd hw hb hall) hd
          (fun _ _ => worker_set_of_ne) ?_ ?_ ?_⟩
      · intro hturn _ _
        rw [worker_set_self]
        rcases WorkerPc.of_turn_wait hturn with hpc | hpc <;>
          by_cases hcaller : election.caller e d ((s.worker e c).passed (.dir d)) = c <;>
            simp [TalkWorker.proceed, hpc, hcaller, WorkerPc.turn]
      · intro hpc
        rw [hpc] at hb
        cases hb
      · intro hpc _
        by_contra hassert
        exact hfails ⟨d, rest, hd, hpc, hassert⟩
  | @send d rest step hd hx hrole =>
      have hout : (s.worker e c).pc ≠ .recount ∧ (s.worker e c).pc ≠ .recountSync := by
        constructor <;> intro hpc <;> rw [TalkWorker.exchange, hpc] at hx <;> cases hx
      have hw := (((hinv.crew e).shape c).now d rest hd).waiting_of_exchange hx
      refine ⟨_, .of_mover (.send e c (List.replicate (talkPayloadMaxSize - talkHdrSize) 0)
        List.length_replicate hd hx hrole) hd ?_ ?_ ?_ ?_⟩
      · intro e' c' hne
        rw [worker_setChan, worker_set_of_ne hne]
      · intro _ hwaiting
        cases hw.symm.trans hwaiting
      · exact fun hpc => absurd hpc hout.1
      · exact fun hpc => absurd hpc hout.2
  | @recv d rest step pkt more hd hx hrole hchan hcheck =>
      have hout : (s.worker e c).pc ≠ .recount ∧ (s.worker e c).pc ≠ .recountSync := by
        constructor <;> intro hpc <;> rw [TalkWorker.exchange, hpc] at hx <;> cases hx
      have hw := (((hinv.crew e).shape c).now d rest hd).waiting_of_exchange hx
      refine ⟨_, .of_mover (.recv e c 0 hd hx hrole hchan hcheck) hd ?_ ?_ ?_ ?_⟩
      · intro e' c' hne
        rw [worker_setChan, worker_set_of_ne hne]
      · intro _ hwaiting
        cases hw.symm.trans hwaiting
      · exact fun hpc => absurd hpc hout.1
      · exact fun hpc => absurd hpc hout.2

/-- Where no worker may go on. -/
theorem Reaches.ends (hv : v.Configured cfg) (hopt : OptInv env cfg) (h : s.Reaches cfg election)
    (hstuck : ∀ s', ¬Advance cfg election s s') :
    s.Clean ∨ (∃ e c, s.RefusesMax v e c) ∨ ∃ e c, s.Fails cfg e c := by
  by_cases hdone : s.Completed
  · exact .inl (h.reachable.clean hdone)
  · obtain ⟨e, he⟩ := not_forall.mp hdone
    obtain ⟨c, hlive⟩ := not_forall.mp he
    by_cases hrefuses : ∃ e c, s.Refuses v e c
    · obtain ⟨e, c, hrefuses⟩ := hrefuses
      exact .inr (.inl ⟨e, c, h.refusesMax hv hopt hrefuses⟩)
    · obtain ⟨e, c, hready⟩ := h.reachable.exists_ready hlive
        fun e c hr => hrefuses ⟨e, c, hr⟩
      by_contra hnone
      have hfails : ¬s.Fails cfg e c := fun hfails => hnone (.inr (.inr ⟨e, c, hfails⟩))
      obtain ⟨s', hadvance⟩ : ∃ s', Advance cfg election s s' :=
        hready.advance h.reachable.inv hfails
      exact hstuck s' hadvance

end TalkTest

/-- How the runs of a test end. -/
structure TestEnds {v : TestEnv} (cfg : Config) (election : v.Election) : Prop where
  /-- No run is longer than the bound. -/
  bounded : ∀ (run : Nat → TalkTest v.workers) (n : Nat), run 0 = .init v →
    (∀ i < n, TalkTest.Advance cfg election (run i) (run (i + 1))) →
      n ≤ TalkTest.stepsMax v.workers TalkTest.streamMax
  /-- Every run can be taken to its end. -/
  finishes : ∀ s : TalkTest v.workers, s.Reaches cfg election →
    ∃ t, Relation.ReflTransGen (TalkTest.Advance cfg election) s t ∧
      ∀ t', ¬TalkTest.Advance cfg election t t'
  /-- There the test is completed, unless a count is at its limit or beyond it. -/
  ends : ∀ s : TalkTest v.workers, s.Reaches cfg election →
    (∀ s', ¬TalkTest.Advance cfg election s s') →
      s.Clean ∨ (∃ e c, s.RefusesMax v e c) ∨ ∃ e c, s.Fails cfg e c

/-- **Every test ends**, for every accepted command line, all durations of the streams of all workers
of both endpoints, every interleaving and every choice of the elected threads. -/
theorem every_test_ends {env : Env} {args : List CString} {cfg : Config}
    (h : configInit env args = .ok cfg) {v : TestEnv} (hv : v.Configured cfg)
    (election : v.Election) : TestEnds cfg election := by
  have hopt := configInit_optInv h
  have hlowers : Lowers (TalkTest.Advance cfg election) (TalkTest.Reaches cfg election)
      (TalkTest.before v TalkTest.streamMax) := TalkTest.lowers hv hopt
  exact {
    bounded := by
      intro run n hinit hrun
      have hreaches : (run 0).Reaches cfg election := by
        rw [hinit]
        exact .refl
      refine (hlowers.length_le hreaches hrun).trans ?_
      rw [hinit]
      exact TalkTest.before_init v TalkTest.streamMax
    finishes := fun s hs => hlowers.exists_stuck hs
    ends := fun s hs hstuck => hs.ends hv hopt hstuck }

/-- `ubwt -A -W 2 connector 10.0.0.1`. -/
theorem every_test_ends_bothWays :
    ∃ cfg, configInit ⟨false, false, fun _ _ => false⟩
        ["-A".toList, "-W".toList, "2".toList, "connector".toList, "10.0.0.1".toList] = .ok cfg
      ∧ envBothWays.Configured cfg ∧ TestEnds cfg electionBothWays := by
  obtain ⟨cfg, hcfg, hv⟩ : ∃ cfg, configInit ⟨false, false, fun _ _ => false⟩
        ["-A".toList, "-W".toList, "2".toList, "connector".toList, "10.0.0.1".toList] = .ok cfg
      ∧ envBothWays.Configured cfg := ⟨_, rfl, rfl, rfl, rfl, rfl, rfl, rfl, rfl⟩
  exact ⟨cfg, hcfg, hv, every_test_ends hcfg hv electionBothWays⟩

end Ubwt
