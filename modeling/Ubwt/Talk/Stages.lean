import Ubwt.Talk.Step

/-!
# Ubwt.Talk.Stages

The stages (`stage.c`), and the calls of them in `talk_sender` and `talk_receiver`.

`_talk_send` and `_talk_recv` ask for the stage to tell how long a message is. Both functions make
the same calls of `stage_set`, `stage_inc` and `stage_reset` between their exchanges, so that **at
every exchange the stage is the one of the exchange and its counter the number of the handshake or
of the stream** (`talk_stages`): that is what `TalkStep.stage` says, and it holds at both ends. The
counter is a `size_t`, of any width, and wraps.
-/

namespace Ubwt

/-! ### stage.c -/

/-- The bits of `enum UBWT_STAGE_CONTROL_FLAGS`. -/
def stageCtrlFlNoReset : Nat := 1

def stageCtrlFlNoShow : Nat := 2

/-- `ubwt_stage_t`, where a `size_t` has `w` bits. -/
structure StageData (w : Nat) where
  iter : BitVec w
  state : Stage
  deriving Repr, DecidableEq

/-- The stage of a thread, what `debug_info_stage_show()` has shown of it, and the exchanges so far,
each with the stage it was made in. -/
structure StageTrace (w : Nat) where
  data : StageData w
  shown : List (StageData w)
  exchanges : List (TalkStep × StageData w)

variable {w : Nat}

namespace StageTrace

/-- `debug_info_stage_show()`. -/
def debugInfoStageShow (t : StageTrace w) : StageTrace w := { t with shown := t.shown ++ [t.data] }

/-- `stage_reset()`. -/
def reset (t : StageTrace w) : StageTrace w := { t with data := ⟨0, .none⟩ }

/-- `stage_set()`. -/
def set (t : StageTrace w) (state : Stage) (flags : UInt32) : StageTrace w :=
  let t := if bitTest flags stageCtrlFlNoReset then t else t.reset
  let t : StageTrace w := { t with data := { t.data with state := state } }
  if bitTest flags stageCtrlFlNoShow then t else t.debugInfoStageShow

/-- `stage_inc()`. -/
def inc (t : StageTrace w) (flags : UInt32) : StageTrace w :=
  let t : StageTrace w := { t with data := { t.data with iter := t.data.iter + 1 } }
  if bitTest flags stageCtrlFlNoShow then t else t.debugInfoStageShow

/-- A call of `_talk_send()` or `_talk_recv()`. -/
def exchange (t : StageTrace w) (step : TalkStep) : StageTrace w :=
  { t with exchanges := t.exchanges ++ [(step, t.data)] }

/-! ### talk.c -/

/-- An iteration of the handshake. -/
def handshake (t : StageTrace w) (i : Nat) : StageTrace w :=
  ((t.exchange (.ping i)).exchange (.pong i)).inc 0

/-- The packets of a stream. -/
def packets (t : StageTrace w) (k : Nat) : Nat → StageTrace w
  | 0 => t
  | n + 1 => (t.packets k n).exchange (.streamRun k n)

/-- An iteration of the stream loop. -/
def stream (t : StageTrace w) (k : Nat) (count : UInt32) (restart : Bool) : StageTrace w :=
  let t := (t.set .talkNegotiation (bitFlag stageCtrlFlNoReset)).exchange (.negotiate k)
  let t := (t.set .talkStream (bitFlag stageCtrlFlNoReset)).exchange (.streamStart k)
  let t := (t.packets k count.toNat).exchange (.streamEnd k)
  if restart then t.inc (bitFlag stageCtrlFlNoShow) else t

/-- The first `n` iterations of the handshake. -/
def handshakes (t : StageTrace w) : Nat → StageTrace w
  | 0 => t
  | n + 1 => (t.handshakes n).handshake n

/-- The first `n` iterations of the stream loop. -/
def streams (t : StageTrace w) (count : Nat → UInt32) (restart : Nat → Bool) : Nat → StageTrace w
  | 0 => t
  | n + 1 => (t.streams count restart n).stream n (count n) (restart n)

/-- The stages of one direction, with stream `K` as the last one. -/
def talk (t : StageTrace w) (iter : UInt16) (count : Nat → UInt32) (restart : Nat → Bool) (K : Nat) :
    StageTrace w :=
  let t := (t.set .talkHandshake 0).handshakes iter.toNat
  let t := t.reset.streams count restart (K + 1)
  let t := (t.set .talkReportExchange 0).exchange .report
  (t.set .talkFinish 0).exchange .finish

end StageTrace

/-- The stages of `talk_sender()`. -/
def talkSenderStages :
    StageTrace w → UInt16 → (Nat → UInt32) → (Nat → Bool) → Nat → StageTrace w :=
  StageTrace.talk

/-- The stages of `talk_receiver()`. -/
def talkReceiverStages :
    StageTrace w → UInt16 → (Nat → UInt32) → (Nat → Bool) → Nat → StageTrace w :=
  StageTrace.talk

/-! ### The exchanges that are made -/

/-- From `p` on, the exchanges `steps` are made one after the other, and `q` is to come. -/
inductive TalkStep.Walk (next : TalkStep → Option TalkStep) :
    Option TalkStep → List TalkStep → Option TalkStep → Prop
  | nil {p : Option TalkStep} : Walk next p [] p
  | cons {step : TalkStep} {steps : List TalkStep} {q : Option TalkStep}
      (h : Walk next (next step) steps q) : Walk next (some step) (step :: steps) q

/-- The number of the iteration that an exchange belongs to. -/
def TalkStep.round : TalkStep → Nat
  | ping i => i
  | pong i => i
  | negotiate k => k
  | streamStart k => k
  | streamRun k _ => k
  | streamEnd k => k
  | report => 0
  | finish => 0

theorem TalkStep.Walk.snoc {next : TalkStep → Option TalkStep} {p : Option TalkStep}
    {steps : List TalkStep} {step : TalkStep} (h : Walk next p steps (some step)) :
    Walk next p (steps ++ [step]) (next step) := by
  generalize hq : some step = q at h
  induction h with
  | nil =>
      subst hq
      exact .cons .nil
  | cons _ ih => exact .cons (ih hq)

section

variable {iter : UInt16} {count : Nat → UInt32} {restart : Nat → Bool} {t : StageTrace w}
  {k n K : Nat} {p : Option TalkStep} {s : TalkStep}

namespace StageTrace

/-- The exchanges have been made in their stages, and `p` is the next one. -/
structure On (iter : UInt16) (count : Nat → UInt32) (restart : Nat → Bool) (t : StageTrace w)
    (p : Option TalkStep) : Prop where
  walk : TalkStep.Walk (TalkStep.next iter count restart) (some (.handshake iter 0))
    (t.exchanges.map Prod.fst) p
  staged : ∀ x ∈ t.exchanges, x.2 = ⟨.ofNat w x.1.round, x.1.stage⟩

/-- A call of `stage.c` is no exchange. -/
theorem On.congr {u : StageTrace w} (h : t.On iter count restart p)
    (heq : u.exchanges = t.exchanges) : u.On iter count restart p where
  walk := heq ▸ h.walk
  staged := heq ▸ h.staged

/-- **An exchange in its stage.** -/
theorem On.exchange (h : t.On iter count restart (some s))
    (hdata : t.data = ⟨.ofNat w s.round, s.stage⟩) :
    (t.exchange s).On iter count restart (s.next iter count restart) where
  walk := by
    rw [StageTrace.exchange, List.map_append]
    exact h.walk.snoc
  staged := by
    intro x hx
    rcases List.mem_append.mp hx with hx | hx
    · exact h.staged x hx
    · obtain rfl := List.mem_singleton.mp hx
      exact hdata

/-! ### What the calls do to the stage -/

@[simp] theorem exchange_data : (t.exchange s).data = t.data := rfl

@[simp] theorem exchange_shown : (t.exchange s).shown = t.shown := rfl

theorem set_reset (state : Stage) :
    t.set state 0 = { t with data := ⟨0, state⟩, shown := t.shown ++ [⟨0, state⟩] } := by
  have hreset : bitTest 0 stageCtrlFlNoReset = false := by decide
  have hshow : bitTest 0 stageCtrlFlNoShow = false := by decide
  simp [set, reset, debugInfoStageShow, hreset, hshow]

theorem set_noReset (state : Stage) :
    t.set state (bitFlag stageCtrlFlNoReset)
      = { t with data := ⟨t.data.iter, state⟩, shown := t.shown ++ [⟨t.data.iter, state⟩] } := by
  have hreset : bitTest (bitFlag stageCtrlFlNoReset) stageCtrlFlNoReset = true := by decide
  have hshow : bitTest (bitFlag stageCtrlFlNoReset) stageCtrlFlNoShow = false := by decide
  simp [set, debugInfoStageShow, hreset, hshow]

theorem inc_show : t.inc 0 = { t with
    data := ⟨t.data.iter + 1, t.data.state⟩
    shown := t.shown ++ [⟨t.data.iter + 1, t.data.state⟩] } := by
  have hshow : bitTest 0 stageCtrlFlNoShow = false := by decide
  simp [inc, debugInfoStageShow, hshow]

theorem inc_noShow : t.inc (bitFlag stageCtrlFlNoShow)
    = { t with data := ⟨t.data.iter + 1, t.data.state⟩ } := by
  have hshow : bitTest (bitFlag stageCtrlFlNoShow) stageCtrlFlNoShow = true := by decide
  simp [inc, hshow]

@[simp] theorem reset_shown : t.reset.shown = t.shown := rfl

/-- The report and the end. -/
theorem ending_shown : ((((t.set .talkReportExchange 0).exchange .report).set .talkFinish 0).exchange
    .finish).shown = t.shown ++ [⟨0, .talkReportExchange⟩, ⟨0, .talkFinish⟩] := by
  simp [set_reset]

/-! ### The loops -/

/-- What `debug_info_stage_show()` shows of the first `n` iterations of the handshake. -/
def handshakesShown (w n : Nat) : List (StageData w) :=
  (List.range n).map fun i => ⟨.ofNat w (i + 1), .talkHandshake⟩

/-- What it shows of the first `n` iterations of the stream loop. -/
def streamsShown (w n : Nat) : List (StageData w) :=
  (List.range n).flatMap fun k => [⟨.ofNat w k, .talkNegotiation⟩, ⟨.ofNat w k, .talkStream⟩]

/-- The handshakes, by induction on their number. -/
theorem On.handshakes (h : t.On iter count restart (some (.handshake iter 0)))
    (hdata : t.data = ⟨0, .talkHandshake⟩) (hn : n ≤ iter.toNat) :
    (t.handshakes n).On iter count restart (some (.handshake iter n)) ∧
      (t.handshakes n).data = ⟨.ofNat w n, .talkHandshake⟩ ∧
      (t.handshakes n).shown = t.shown ++ handshakesShown w n := by
  induction n with
  | zero => exact ⟨h, hdata, by simp [StageTrace.handshakes, handshakesShown]⟩
  | succ n ih =>
      obtain ⟨hon, hdata, hshown⟩ := ih (Nat.le_of_succ_le hn)
      have hping : TalkStep.handshake iter n = .ping n := if_pos (Nat.lt_of_succ_le hn)
      rw [hping] at hon
      simp only [StageTrace.handshakes, StageTrace.handshake, inc_show]
      refine ⟨?_, ?_, ?_⟩
      · exact ((hon.exchange hdata).exchange (s := .pong n) hdata).congr rfl
      · simp [hdata, BitVec.ofNat_add]
      · simp [hdata, hshown, handshakesShown, List.range_succ, BitVec.ofNat_add]

/-- The packets of a stream, by induction on their number. -/
theorem On.packets (h : t.On iter count restart (some (.stream (count k) k 0)))
    (hdata : t.data = ⟨.ofNat w k, .talkStream⟩) (hn : n ≤ (count k).toNat) :
    (t.packets k n).On iter count restart (some (.stream (count k) k n)) ∧
      (t.packets k n).data = ⟨.ofNat w k, .talkStream⟩ ∧ (t.packets k n).shown = t.shown := by
  induction n with
  | zero => exact ⟨h, hdata, rfl⟩
  | succ n ih =>
      obtain ⟨hon, hdata, hshown⟩ := ih (Nat.le_of_succ_le hn)
      have hrun : TalkStep.stream (count k) k n = .streamRun k n := if_pos (Nat.lt_of_succ_le hn)
      rw [hrun] at hon
      exact ⟨hon.exchange (s := .streamRun k n) hdata, hdata, hshown⟩

/-- An iteration of the stream loop. -/
theorem On.stream (h : t.On iter count restart (some (.negotiate k))) (hdata : t.data.iter = .ofNat w k) :
    (t.stream k (count k) (restart k)).On iter count restart
        (some (if restart k then .negotiate (k + 1) else .report)) ∧
      (t.stream k (count k) (restart k)).data.iter
        = .ofNat w (if restart k then k + 1 else k) ∧
      (t.stream k (count k) (restart k)).shown
        = t.shown ++ [⟨.ofNat w k, .talkNegotiation⟩, ⟨.ofNat w k, .talkStream⟩] := by
  -- Up to the first packet.
  have hneg : (t.set .talkNegotiation (bitFlag stageCtrlFlNoReset)).On iter count restart
      (some (.negotiate k)) := h.congr (by rw [set_noReset])
  have hneg' := hneg.exchange (by rw [set_noReset, hdata]; rfl)
  let t₁ := (t.set .talkNegotiation (bitFlag stageCtrlFlNoReset)).exchange (.negotiate k)
  have hstart : (t₁.set .talkStream (bitFlag stageCtrlFlNoReset)).On iter count restart
      (some (.streamStart k)) := hneg'.congr (by rw [set_noReset])
  have hdata₁ : (t₁.set .talkStream (bitFlag stageCtrlFlNoReset)).data = ⟨.ofNat w k, .talkStream⟩ := by
    simp [t₁, set_noReset, hdata]
  obtain ⟨hon, hdata₂, hshown⟩ := On.packets (hstart.exchange hdata₁) hdata₁ (Nat.le_refl _)
  -- The end, and the verdict.
  have hend : TalkStep.stream (count k) k (count k).toNat = .streamEnd k :=
    if_neg (Nat.lt_irrefl _)
  rw [hend] at hon
  have hon' := hon.exchange hdata₂
  have hshown' : (t₁.set .talkStream (bitFlag stageCtrlFlNoReset)).shown
      = t.shown ++ [⟨.ofNat w k, .talkNegotiation⟩, ⟨.ofNat w k, .talkStream⟩] := by
    simp [t₁, set_noReset, hdata]
  have hiter := congrArg StageData.iter hdata₂
  cases hr : restart k with
  | true =>
      simp only [TalkStep.next, hr, if_true] at hon'
      simp only [StageTrace.stream, inc_noShow, if_true]
      exact ⟨hon'.congr rfl, (congrArg (· + 1) hiter).trans (BitVec.ofNat_add k 1).symm,
        hshown.trans hshown'⟩
  | false =>
      simp only [TalkStep.next, hr, Bool.false_eq_true, if_false] at hon'
      exact ⟨hon', hiter, hshown.trans hshown'⟩

/-- The stream loop up to the head of iteration `n`, by induction on `n`. -/
theorem On.streams (h : t.On iter count restart (some (.negotiate 0))) (hdata : t.data.iter = 0)
    (hran : ∀ k < n, restart k = true) :
    (t.streams count restart n).On iter count restart (some (.negotiate n)) ∧
      (t.streams count restart n).data.iter = .ofNat w n ∧
      (t.streams count restart n).shown = t.shown ++ streamsShown w n := by
  induction n with
  | zero => exact ⟨h, hdata, by simp [StageTrace.streams, streamsShown]⟩
  | succ n ih =>
      obtain ⟨hon, hdata, hshown⟩ := ih fun k hk => hran k (Nat.lt_succ_of_lt hk)
      obtain ⟨hon', hdata', hshown'⟩ := hon.stream hdata
      rw [if_pos (hran n (Nat.lt_succ_self n))] at hon' hdata'
      refine ⟨hon', hdata', ?_⟩
      simp only [StageTrace.streams, hshown', hshown, streamsShown, List.range_succ,
        List.flatMap_append, List.flatMap_singleton, List.append_assoc]

end StageTrace

/-- **The stages of a direction.** For every number of handshakes, all counts and every number of
streams, from any stage: `talk_sender` and `talk_receiver` make the exchanges from the first to the
last one, each in its own stage, with the number of its handshake or stream in the counter, modulo
the size of a `size_t`; and what they show of it. -/
theorem talk_stages (iter : UInt16) (count : Nat → UInt32) (restart : Nat → Bool) (K : Nat)
    (hran : ∀ k < K, restart k = true) (hlast : restart K = false) (start : StageData w) :
    ∀ run ∈ [talkSenderStages, talkReceiverStages],
      let t := run ⟨start, [], []⟩ iter count restart K
      TalkStep.Walk (TalkStep.next iter count restart) (some (.handshake iter 0))
        (t.exchanges.map Prod.fst) none ∧
      (∀ x ∈ t.exchanges, x.2 = ⟨.ofNat w x.1.round, x.1.stage⟩) ∧
      t.shown = ⟨0, .talkHandshake⟩ :: StageTrace.handshakesShown w iter.toNat
        ++ StageTrace.streamsShown w (K + 1) ++ [⟨0, .talkReportExchange⟩, ⟨0, .talkFinish⟩] := by
  have hsame : ∀ run ∈ [talkSenderStages (w := w), talkReceiverStages], run = StageTrace.talk := by
    simp [talkSenderStages, talkReceiverStages]
  intro run hrun
  rw [hsame run hrun]
  -- The handshakes.
  have hstart : (StageTrace.set ⟨start, [], []⟩ .talkHandshake 0).On iter count restart
      (some (.handshake iter 0)) := by
    rw [StageTrace.set_reset]
    exact ⟨.nil, by simp⟩
  obtain ⟨hon, -, hshown⟩ := hstart.handshakes (by rw [StageTrace.set_reset]) (Nat.le_refl _)
  have hend : TalkStep.handshake iter iter.toNat = .negotiate 0 := if_neg (Nat.lt_irrefl _)
  rw [hend] at hon
  -- The streams.
  obtain ⟨hon, hiter, hshown'⟩ := (hon.congr (u := StageTrace.reset _) rfl).streams rfl hran
  obtain ⟨hon, -, hshown''⟩ := hon.stream hiter
  rw [hlast, if_neg Bool.false_ne_true] at hon
  -- The report and the end.
  have hreport := (hon.congr (u := StageTrace.set _ .talkReportExchange 0)
    (by rw [StageTrace.set_reset])).exchange (by rw [StageTrace.set_reset]; rfl)
  have hfinish := (hreport.congr (u := StageTrace.set _ .talkFinish 0)
    (by rw [StageTrace.set_reset])).exchange (s := .finish) (by rw [StageTrace.set_reset]; rfl)
  simp only [StageTrace.talk, StageTrace.streams, hlast]
  refine ⟨hfinish.walk, hfinish.staged, ?_⟩
  rw [hlast] at hshown''
  rw [StageTrace.ending_shown, hshown'', hshown', StageTrace.reset_shown, hshown]
  simp [StageTrace.set_reset, StageTrace.streamsShown, List.range_succ]

/-- Two handshakes, and two streams of three packets, on both sides. -/
theorem talk_stages_twoStreams :
    [talkSenderStages, talkReceiverStages].map (fun run =>
        (run (⟨⟨0, .initProcess⟩, [], []⟩ : StageTrace 64) 2 (fun _ => 3)
          (fun k => decide (k < 1)) 1).shown)
      = List.replicate 2
        [⟨0, .talkHandshake⟩, ⟨1, .talkHandshake⟩, ⟨2, .talkHandshake⟩, ⟨0, .talkNegotiation⟩,
        ⟨0, .talkStream⟩, ⟨1, .talkNegotiation⟩, ⟨1, .talkStream⟩, ⟨0, .talkReportExchange⟩,
        ⟨0, .talkFinish⟩] := by
  have hran : ∀ k < 1, decide (k < 1) = true := fun k hk => decide_eq_true hk
  rw [List.eq_replicate_iff]
  refine ⟨rfl, ?_⟩
  intro shown hshown
  obtain ⟨run, hrun, rfl⟩ := List.mem_map.mp hshown
  exact (talk_stages 2 (fun _ => 3) (fun k => decide (k < 1)) 1 hran rfl ⟨0, .initProcess⟩ run
    hrun).2.2

end

end Ubwt
