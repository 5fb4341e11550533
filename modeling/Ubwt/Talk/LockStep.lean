import Ubwt.Talk.Pair

/-!
# Ubwt.Talk.LockStep

**Lock-step of the talk protocol.** The two parties of a connection follow one script
(`connScript`): each position has one stage, so the length a reader chooses is the length
the writer chose, and `Lib.Choreography.InStep` holds in every reachable state.

The receiver turns down a count that is not less than `UBWT_CONFIG_TALK_COUNT_MAX`, while
the assertion of the sender admits that count itself; the results are therefore about
counts that the receiver admits (`TalkEnv.CountsAdmitted`).
-/

namespace Ubwt

open Lib

/-- The directions that are tested. -/
def TalkEnv.dirs (v : TalkEnv) : List Dir :=
  processRun v.reverseFirst v.bidirectional v.asynchronous

/-- In a tested direction, every count that the sender's assertions let through is one that
the receiver admits, as far as the streams go. -/
def TalkEnv.CountsAdmitted (v : TalkEnv) : Prop :=
  ∀ d ∈ v.dirs, ∀ k, (∀ j < k, v.restart d j = true) → v.countAsserted k (v.counts d k) = true →
    v.counts d k < configTalkCountMax

/-! ### The script -/

/-- The stream whose count is in use at an exchange. -/
def TalkStep.streamCount : TalkStep → Option Nat
  | negotiate k => some k
  | streamStart k => some k
  | streamRun k _ => some k
  | _ => none

/-- What may be on the wire at a position: the bytes of the message, said with the count of
the stream. -/
def TalkEnv.Frame (v : TalkEnv) : TalkPos → List UInt8 → Prop
  | .talk d _ step, bytes =>
      ∃ e x, d.role e = step.speaker ∧
        (∀ k, step.streamCount = some k →
          x.count = v.counts d k ∧ v.countAsserted k (v.counts d k) = true) ∧
        bytes = talkSendBuf (v.hosts e) (v.workerSelf e) step.stage v.size
          (talkSay (v.hosts e) v.iter v.size x step)
  | .returned, _ => False

/-- The script of the connection, over byte strings. -/
def TalkEnv.connScript (v : TalkEnv) : Choreography Endpoint TalkPos (List UInt8) :=
  talkScript v.iter v.counts v.restart v.Frame

variable {v : TalkEnv} {e : Endpoint} {d : Dir} {rest : List Dir} {step : TalkStep} {p : Party}

theorem TalkEnv.Frame.length_pos {pos : TalkPos} {bytes : List UInt8} (h : v.Frame pos bytes) :
    0 < bytes.length := by
  cases pos with
  | returned => exact h.elim
  | talk d rest step =>
      obtain ⟨e, x, -, -, rfl⟩ := h
      rw [length_talkSendBuf]
      exact Nat.lt_of_lt_of_le (by decide) (talkHdrSize_le_talkLen step.stage v.size)

theorem next_congr (iter : UInt16) {count count' : Nat → UInt32} (restart : Nat → Bool)
    (h : ∀ k, step.streamCount = some k → count k = count' k) :
    step.next iter count restart = step.next iter count' restart := by
  cases step with
  | streamStart k | streamRun k i => simp only [TalkStep.next, h k rfl]
  | ping | pong | negotiate | streamEnd | report | finish => rfl

/-- The count a step hands to the next one is of the same stream. -/
theorem streamCount_next {iter : UInt16} {count : Nat → UInt32} {restart : Nat → Bool}
    {step' : TalkStep} {k : Nat} (h : step.next iter count restart = some step')
    (hk : step'.streamCount = some k) (hneg : ∀ j, step' ≠ .negotiate j) :
    step.streamCount = some k := by
  cases step with
  | ping i =>
      cases h
      cases hk
  | pong i =>
      simp only [TalkStep.next, TalkStep.handshake] at h
      split at h <;> cases h
      · cases hk
      · exact absurd rfl (hneg 0)
  | negotiate j =>
      cases h
      exact hk
  | streamStart j | streamRun j i =>
      simp only [TalkStep.next, TalkStep.stream] at h
      split at h <;> cases h
      · exact hk
      · cases hk
  | streamEnd j =>
      simp only [TalkStep.next] at h
      split at h <;> cases h
      · exact absurd rfl (hneg (j + 1))
      · cases hk
  | report =>
      cases h
      cases hk
  | finish => cases h

/-- The streams before the one of an exchange were all weak. -/
def TalkStep.Reached (restart : Nat → Bool) : TalkStep → Prop
  | negotiate k => ∀ j < k, restart j = true
  | streamStart k => ∀ j < k, restart j = true
  | streamRun k _ => ∀ j < k, restart j = true
  | streamEnd k => ∀ j < k, restart j = true
  | _ => True

/-- A position that the verdicts lead to. -/
def TalkEnv.Reached (v : TalkEnv) : TalkPos → Prop
  | .talk d rest step => d ∈ v.dirs ∧ (∀ d' ∈ rest, d' ∈ v.dirs) ∧ step.Reached (v.restart d)
  | .returned => True

theorem reached_handshake (iter : UInt16) (restart : Nat → Bool) (i : Nat) :
    (TalkStep.handshake iter i).Reached restart := by
  unfold TalkStep.handshake
  split
  · trivial
  · exact fun _ hj => absurd hj (Nat.not_lt_zero _)

theorem reached_stepNext {iter : UInt16} {count : Nat → UInt32} {restart : Nat → Bool}
    {step' : TalkStep} (h : step.Reached restart)
    (hnext : step.next iter count restart = some step') : step'.Reached restart := by
  cases step with
  | ping i =>
      cases hnext
      trivial
  | pong i =>
      cases hnext
      exact reached_handshake _ _ _
  | negotiate k =>
      cases hnext
      exact h
  | streamStart k | streamRun k i =>
      simp only [TalkStep.next, TalkStep.stream] at hnext
      split at hnext <;> cases hnext <;> exact h
  | streamEnd k =>
      simp only [TalkStep.next] at hnext
      split at hnext <;> cases hnext
      · rename_i hk
        intro j hj
        rcases Nat.lt_succ_iff_lt_or_eq.mp hj with hlt | rfl
        · exact h j hlt
        · exact hk
      · trivial
  | report =>
      cases hnext
      trivial
  | finish => cases hnext

theorem reached_enter {ds : List Dir} (h : ∀ d ∈ ds, d ∈ v.dirs) :
    v.Reached (TalkPos.enter v.iter ds) := by
  cases ds with
  | nil => trivial
  | cons d rest =>
      exact ⟨h d (List.mem_cons_self ..), fun d' hd' => h d' (List.mem_cons_of_mem d hd'),
        reached_handshake _ _ _⟩

theorem reached_next {pos : TalkPos} (h : v.Reached pos) :
    v.Reached (TalkPos.next v.iter v.counts v.restart pos) := by
  cases pos with
  | returned => trivial
  | talk d rest step =>
      obtain ⟨hd, hrest, hstep⟩ := h
      unfold TalkPos.next
      dsimp only
      split
      · rename_i step' hnext
        exact ⟨hd, hrest, reached_stepNext hstep hnext⟩
      · exact reached_enter hrest

/-! ### One party -/

namespace Party

/-- The position of a party in the script; one that has failed an assertion stays where it
is. -/
def pos (p : Party) : TalkPos :=
  match p.pc with
  | .talk d rest step => .talk d rest step
  | .assertFailed d rest step => .talk d rest step
  | _ => .returned

/-- A party that has not aborted, and whose count is the one of the stream. -/
def Ok (v : TalkEnv) (e : Endpoint) (p : Party) : Prop :=
  match p.pc with
  | .talk d _ step =>
      ∀ k, step.streamCount = some k → (d.role e = .receiver → step ≠ .negotiate k) →
        p.count = v.counts d k ∧ v.countAsserted k (v.counts d k) = true
  | .assertFailed _ _ _ => True
  | .returned => True
  | _ => False

theorem pos_arrive : (p.arrive v e d rest step).pos = .talk d rest step := by
  unfold arrive
  split
  · split <;> rfl
  · rfl

/-- A party that has the count of the stream is in order at the next exchange. -/
theorem ok_arrive
    (h : ∀ k, step.streamCount = some k → (∀ j, step ≠ .negotiate j) →
      p.count = v.counts d k ∧ v.countAsserted k (v.counts d k) = true) :
    (p.arrive v e d rest step).Ok v e := by
  unfold arrive
  split
  · rename_i k hrole
    split
    · rename_i hassert
      intro j hj _
      cases hj
      exact ⟨rfl, hassert⟩
    · trivial
  · rename_i hnot
    intro k hk hrole
    refine h k hk ?_
    intro j hj
    subst hj
    cases hk
    cases hd : d.role e with
    | sender => exact hnot k rfl hd
    | receiver => exact hrole hd rfl

theorem pos_enter (ds : List Dir) : (p.enter v e ds).pos = TalkPos.enter v.iter ds := by
  cases ds with
  | nil => rfl
  | cons d rest => exact pos_arrive

theorem ok_enter (ds : List Dir) : (p.enter v e ds).Ok v e := by
  cases ds with
  | nil => trivial
  | cons d rest =>
      refine ok_arrive ?_
      intro k hk hneg
      unfold TalkStep.handshake at hk hneg
      split at hk
      · cases hk
      · rename_i hi
        rw [if_neg hi] at hneg
        exact absurd rfl (hneg 0)

/-- The count of the stream in use is in the hands of the party. -/
def HasCount (v : TalkEnv) (p : Party) (d : Dir) (step : TalkStep) : Prop :=
  ∀ k, step.streamCount = some k →
    p.count = v.counts d k ∧ v.countAsserted k (v.counts d k) = true

theorem pos_advance (h : p.HasCount v d step) :
    (p.advance v e d rest step).pos = TalkPos.next v.iter v.counts v.restart (.talk d rest step) := by
  have hnext := next_congr v.iter (v.restart d) (fun k hk => (h k hk).1)
  simp only [advance, TalkPos.next, ← hnext]
  cases step.next v.iter (fun _ => p.count) (v.restart d) with
  | none => exact pos_enter rest
  | some step' => exact pos_arrive

theorem ok_advance (h : p.HasCount v d step) : (p.advance v e d rest step).Ok v e := by
  unfold advance
  split
  · rename_i step' hnext
    exact ok_arrive (fun k hk hneg => h k (streamCount_next hnext hk hneg))
  · exact ok_enter rest

/-- A party that speaks has its count. -/
theorem Ok.hasCount (h : p.Ok v e) (hpc : p.pc = .talk d rest step)
    (hrole : d.role e = .receiver → ∀ k, step ≠ .negotiate k) : p.HasCount v d step := by
  unfold Ok at h
  rw [hpc] at h
  exact fun k hk => h k hk (fun hr => hrole hr k)

/-- A party that listens has its count once it has stored the message. -/
theorem Ok.hasCount_store (h : p.Ok v e) (hpc : p.pc = .talk d rest step)
    (hrole : d.role e ≠ step.speaker) {pkt : TalkPayload}
    (hpkt : ∀ k, step = .negotiate k →
      pkt.count = v.counts d k ∧ v.countAsserted k (v.counts d k) = true) :
    (p.store step pkt).HasCount v d step := by
  cases step with
  | negotiate k =>
      intro j hj
      cases hj
      exact hpkt k rfl
  | ping | pong | streamStart | streamRun | streamEnd | report | finish =>
      exact h.hasCount hpc (fun _ k hk => by cases hk)

/-- What a party does with a message of its position. -/
theorem hear_eq {h : Host} {x : TalkData} {pkt : TalkPayload} {n : Nat}
    (hflags : pkt.flags = (talkSay h v.iter v.size x step).flags)
    (hcount : pkt.count = (talkSay h v.iter v.size x step).count)
    (hadm : ∀ k, step = .negotiate k → x.count < configTalkCountMax) :
    p.hear v e d rest step (.ok n) pkt = (p.store step pkt).advance v e d rest step := by
  simp only [hear, talkCheck_talkSay hflags hcount hadm]

end Party

/-! ### Both parties -/

namespace TalkPair

/-- **Lock-step.** Each `_talk_recv` has consumed the bytes of one `_talk_send` of the peer,
in order, and has returned a message with the op it waited for; the parties do not both
wait with nothing on the wire; and nothing is left when they have returned. -/
structure LockStep (v : TalkEnv) (s : TalkPair) : Prop where
  consumes : ∀ e, (s.heard e).map Heard.bytes <+: s.sent e.peer
  expected : ∀ e, ∀ r ∈ s.heard e,
    r.ret = .ok (talkLen r.step.stage v.size) ∧ r.pkt.has r.step.op = true
  live : ¬∀ e, s.Listens e ∧ s.wire e = []
  clean : (∀ e, (s.party e).pc = .returned) → ∀ e, s.wire e = []

/-- The invariant: `frames` are the messages on the wires. -/
structure Inv (v : TalkEnv) (s : TalkPair) (frames : Endpoint → List (List UInt8)) : Prop where
  wire : ∀ e, s.wire e = (frames e).flatten
  history : ∀ e, s.sent e = (s.heard e.peer).map Heard.bytes ++ frames e
  inStep : v.connScript.InStep (fun e => (s.party e).pos) frames
  ok : ∀ e, (s.party e).Ok v e
  reached : ∀ e, v.Reached (s.party e).pos
  heard : ∀ e, ∀ r ∈ s.heard e,
    r.ret = .ok (talkLen r.step.stage v.size) ∧ r.pkt.has r.step.op = true

variable {s s' : TalkPair} {frames : Endpoint → List (List UInt8)}

theorem inv_init (v : TalkEnv) : (init v).Inv v (fun _ => []) where
  wire := fun _ => rfl
  history := fun _ => rfl
  inStep := by
    have hpos : (fun e => ((init v).party e).pos)
        = fun _ => TalkPos.enter v.iter v.dirs :=
      funext fun e => Party.pos_enter _
    rw [hpos]
    have : Nonempty Endpoint := ⟨.connector⟩
    exact Choreography.inStep_start _
  ok := fun e => Party.ok_enter _
  reached := by
    intro e
    rw [show ((init v).party e).pos = TalkPos.enter v.iter v.dirs from Party.pos_enter _]
    exact reached_enter (fun d hd => hd)
  heard := fun _ _ h => by cases h

theorem pos_of_pc {p : Party} (hpc : p.pc = .talk d rest step) : p.pos = .talk d rest step := by
  rw [Party.pos, hpc]

/-- A party sends the message of its position. -/
theorem Inv.send (h : s.Inv v frames) {x : TalkData} {script script' : List IoResult} {n : Nat}
    {bytes : List UInt8} (hpc : (s.party e).pc = .talk d rest step)
    (hrole : d.role e = step.speaker) (hcount : x.count = (s.party e).count)
    (hsend : talkSend e (v.hosts e) (v.workerSelf e) step.stage v.size
      (talkSay (v.hosts e) v.iter v.size x step) script (s.wire e)
        = some (.ok n, s.wire e ++ bytes, script')) :
    Inv v { s with
        party := Function.update s.party e ((s.party e).advance v e d rest step)
        wire := Function.update s.wire e (s.wire e ++ bytes)
        sent := Function.update s.sent e (s.sent e ++ [bytes]) }
      (Function.update frames e (frames e ++ [bytes])) := by
  have hhas : (s.party e).HasCount v d step := (h.ok e).hasCount hpc (by
    intro hr k hk
    rw [hk, hr] at hrole
    cases hrole)
  have hbytes := List.append_cancel_left (talkSend_ok hsend)
  have hpeer : e.peer ≠ e := e.peer_ne
  exact {
    wire := by
      intro f
      by_cases hf : f = e
      · subst hf
        simp [h.wire f]
      · simpa [Function.update_of_ne hf] using h.wire f
    history := by
      intro f
      by_cases hf : f = e
      · subst hf
        simp [h.history f]
      · simpa [Function.update_of_ne hf] using h.history f
    inStep := by
      refine h.inStep.say (s := e) (m := bytes) ?_ ?_ ?_ ?_ ?_ ?_
      · exact (pos_of_pc hpc).symm ▸ (TalkPos.speaker_talk d rest step e).mpr hrole
      · rw [pos_of_pc hpc]
        exact ⟨e, x, hrole, fun k hk => hcount ▸ hhas k hk, hbytes⟩
      · simp only [Function.update_self, pos_of_pc hpc]
        exact Party.pos_advance hhas
      · exact congrArg Party.pos (Function.update_of_ne hpeer _ _)
      · exact Function.update_self ..
      · exact Function.update_of_ne hpeer _ _
    ok := by
      intro f
      by_cases hf : f = e
      · subst hf
        simpa using Party.ok_advance hhas
      · simpa [Function.update_of_ne hf] using h.ok f
    reached := by
      intro f
      by_cases hf : f = e
      · subst hf
        simp only [Function.update_self, Party.pos_advance hhas, ← pos_of_pc hpc]
        exact reached_next (h.reached f)
      · simpa [Function.update_of_ne hf] using h.reached f
    heard := h.heard }

/-- **What `_talk_recv` finds**: the message of the position of its party is at the head of
the wire. -/
theorem Inv.head (h : s.Inv v frames) {prior pkt : TalkPayload} {script script' : List IoResult}
    {ret : IoReturn} {stream : List UInt8} (hpc : (s.party e).pc = .talk d rest step)
    (hscript : Splits [.eintr] script)
    (hrecv : talkRecv e (v.hosts e) step.stage v.size prior script (s.wire e.peer)
      = some ((ret, pkt), stream, script')) :
    ∃ f x frame more, d.role f = step.speaker ∧ frames e.peer = frame :: more ∧
      (∀ k, step.streamCount = some k →
        x.count = v.counts d k ∧ v.countAsserted k (v.counts d k) = true) ∧
      frame = talkSendBuf (v.hosts f) (v.workerSelf f) step.stage v.size
        (talkSay (v.hosts f) v.iter v.size x step) ∧
      stream = more.flatten ∧ ret = .ok (talkLen step.stage v.size) ∧
      SameMessage (v.workerSelf f) step.stage v.size (talkSay (v.hosts f) v.iter v.size x step) pkt := by
  have hlen := talkRecv_length hscript hrecv
  have hhdr := talkHdrSize_le_talkLen step.stage v.size
  cases hframes : frames e.peer with
  | nil =>
      rw [h.wire, hframes, List.flatten_nil, List.length_nil] at hlen
      simp only [talkHdrSize] at hhdr
      omega
  | cons frame more =>
      obtain ⟨-, hframe, -⟩ := h.inStep.behind (s := e) hframes
      rw [pos_of_pc hpc] at hframe
      obtain ⟨f, x, hf, hcount, heq⟩ := hframe
      rw [h.wire, hframes, List.flatten_cons, heq] at hrecv
      have hret := talkRecv_ret hscript (talkSay_forceFail ..) hrecv
      subst hret
      obtain ⟨hsame, hstream⟩ := talkRecv_ok hrecv
      exact ⟨f, x, frame, more, hf, rfl, hcount, heq, hstream, rfl, hsame⟩

/-- A party receives the message of its position. -/
theorem Inv.recv (hcounts : v.CountsAdmitted) (h : s.Inv v frames) {prior pkt : TalkPayload}
    {script script' : List IoResult} {ret : IoReturn} {bytes stream : List UInt8}
    (hpc : (s.party e).pc = .talk d rest step) (hrole : d.role e ≠ step.speaker)
    (hscript : Splits [.eintr] script) (hwire : s.wire e.peer = bytes ++ stream)
    (hrecv : talkRecv e (v.hosts e) step.stage v.size prior script (s.wire e.peer)
      = some ((ret, pkt), stream, script')) :
    ∃ frames', Inv v { s with
        party := Function.update s.party e ((s.party e).hear v e d rest step ret pkt)
        wire := Function.update s.wire e.peer stream
        heard := Function.update s.heard e (s.heard e ++ [⟨step, bytes, ret, pkt⟩]) } frames' := by
  obtain ⟨f, x, frame, more, hf, hframes, hcount, hframe, rfl, rfl, hsame⟩ :=
    h.head hpc hscript hrecv
  have hbytes : bytes = frame := by
    rw [h.wire, hframes, List.flatten_cons] at hwire
    exact (List.append_cancel_right hwire).symm
  have hneg : ∀ k, step = .negotiate k →
      x.count = v.counts d k ∧ v.countAsserted k (v.counts d k) = true := by
    rintro k rfl
    exact hcount k rfl
  have hhear : (s.party e).hear v e d rest step (.ok (talkLen step.stage v.size)) pkt
      = ((s.party e).store step pkt).advance v e d rest step := by
    refine Party.hear_eq hsame.flags hsame.count (fun k hk => ?_)
    obtain ⟨hx, hassert⟩ := hneg k hk
    have hreached := h.reached e
    rw [pos_of_pc hpc, hk] at hreached
    rw [hx]
    exact hcounts d hreached.1 k hreached.2.2 hassert
  have hhas : ((s.party e).store step pkt).HasCount v d step :=
    (h.ok e).hasCount_store hpc hrole (by
      rintro k rfl
      rw [hsame.count]
      exact hneg k rfl)
  have hpeer : e.peer ≠ e := e.peer_ne
  refine ⟨Function.update frames e.peer more, ?_⟩
  exact {
    wire := by
      intro g
      by_cases hg : g = e.peer
      · subst hg
        simp
      · simpa [Function.update_of_ne hg] using h.wire g
    history := by
      intro g
      by_cases hg : g = e.peer
      · subst hg
        simp [h.history, hframes, hbytes]
      · have hge : g.peer ≠ e := by
          rintro rfl
          exact hg (Endpoint.peer_peer g).symm
        simpa [Function.update_of_ne hg, Function.update_of_ne hge] using h.history g
    inStep := by
      refine (h.inStep.hear (s := e) hframes).2.2 ?_ ?_ ?_ ?_
      · simp only [Function.update_self, pos_of_pc hpc, hhear]
        exact Party.pos_advance hhas
      · exact congrArg Party.pos (Function.update_of_ne hpeer _ _)
      · exact Function.update_of_ne hpeer.symm _ _
      · exact Function.update_self ..
    ok := by
      intro g
      by_cases hg : g = e
      · subst hg
        simpa [hhear] using Party.ok_advance hhas
      · simpa [Function.update_of_ne hg] using h.ok g
    reached := by
      intro g
      by_cases hg : g = e
      · subst hg
        simp only [Function.update_self, hhear, Party.pos_advance hhas, ← pos_of_pc hpc]
        exact reached_next (h.reached g)
      · simpa [Function.update_of_ne hg] using h.reached g
    heard := by
      intro g r hr
      by_cases hg : g = e
      · subst hg
        simp only [Function.update_self] at hr
        rcases List.mem_append.mp hr with hold | hnew
        · exact h.heard g r hold
        · obtain rfl := List.mem_singleton.mp hnew
          refine ⟨rfl, ?_⟩
          rw [TalkPayload.has, hsame.flags]
          exact talkSay_has_op ..
      · simp only [Function.update_of_ne hg] at hr
        exact h.heard g r hr }

theorem Inv.preserved (hcounts : v.CountsAdmitted) (h : s.Inv v frames) (hstep : Step v [.eintr] s s') :
    ∃ frames', s'.Inv v frames' := by
  cases hstep with
  | send e hpc hrole hcount hsend => exact ⟨_, h.send hpc hrole hcount hsend⟩
  | recv e hpc hrole _ hscript hwire hrecv => exact h.recv hcounts hpc hrole hscript hwire hrecv
  | abort e hpc _ =>
      have hok := h.ok e
      rw [Party.Ok, hpc] at hok
      exact hok.elim

theorem Reachable.inv (hcounts : v.CountsAdmitted) (h : s.Reachable v [.eintr]) :
    ∃ frames, s.Inv v frames := by
  induction h with
  | refl => exact ⟨_, inv_init v⟩
  | tail _ hstep ih =>
      obtain ⟨frames, hinv⟩ := ih
      exact hinv.preserved hcounts hstep

/-- A wire with nothing on it holds no message. -/
theorem Inv.frames_nil (h : s.Inv v frames) (hwire : s.wire e = []) : frames e = [] := by
  rw [h.wire] at hwire
  obtain ⟨t, hspoken, hempty⟩ := h.inStep
  rcases v.connScript.eq_or_eq_peer t e with rfl | rfl
  · cases hframes : frames e with
    | nil => rfl
    | cons frame more =>
        rw [hframes] at hspoken hwire
        cases hspoken with
        | cons _ hframe _ =>
            have hpos := hframe.length_pos
            rw [List.flatten_cons, List.append_eq_nil_iff] at hwire
            rw [hwire.1] at hpos
            cases hpos
  · exact hempty

theorem Inv.lockStep (h : s.Inv v frames) : s.LockStep v where
  consumes := by
    intro e
    rw [h.history e.peer, Endpoint.peer_peer]
    exact List.prefix_append _ _
  expected := h.heard
  live := by
    intro hall
    have hspeaker : ∀ e, (s.party e).pos.speaker = some e.peer := by
      intro e
      obtain ⟨⟨d, rest, step, hpc, hrole⟩, -⟩ := hall e
      rw [pos_of_pc hpc]
      exact (TalkPos.speaker_talk_peer d rest step e).mpr hrole
    refine h.inStep.not_both_listen (s := Endpoint.connector) (hspeaker .connector)
      (hspeaker .listener) ?_
    exact ⟨h.frames_nil (hall _).2, h.frames_nil (hall _).2⟩
  clean := by
    intro hreturned e
    rw [h.wire, h.inStep.chan_eq_nil ?_ e, List.flatten_nil]
    intro f
    show (s.party f).pos.speaker = none
    rw [Party.pos, hreturned f]
    rfl

/-! ### Runs in which the parties take turns -/

/-- Both parties are at one exchange and nothing is on the wires. -/
structure Both (v : TalkEnv) (s : TalkPair) (d : Dir) (rest : List Dir) (step : TalkStep) : Prop where
  pc : ∀ e, (s.party e).pc = .talk d rest step
  ok : ∀ e, (s.party e).Ok v e
  wire : ∀ e, s.wire e = []

theorem exists_speaker (d : Dir) (step : TalkStep) : ∃ e, d.role e = step.speaker := by
  cases d <;> cases hs : step.speaker
  · exact ⟨.connector, rfl⟩
  · exact ⟨.listener, rfl⟩
  · exact ⟨.listener, rfl⟩
  · exact ⟨.connector, rfl⟩

theorem role_peer (hrole : d.role e = step.speaker) : d.role e.peer ≠ step.speaker := by
  rw [← hrole]
  cases d <;> cases e <;> decide

/-- Any values a party may put into its messages, with a given count. -/
def dataOf (count : UInt32) : TalkData where
  count := count
  latency := 0
  fill := TalkPayload.zero.buf
  fillSize := TalkPayload.zero.bufSize
  time := 0
  weak := false
  report := .zero

/-- The bytes a party puts on the wire with these values. -/
def frameOf (v : TalkEnv) (e : Endpoint) (step : TalkStep) (count : UInt32) : List UInt8 :=
  talkSendBuf (v.hosts e) (v.workerSelf e) step.stage v.size
    (talkSay (v.hosts e) v.iter v.size (dataOf count) step)

/-- The state after a party has sent its message. -/
def spoken (v : TalkEnv) (s : TalkPair) (e : Endpoint) (d : Dir) (rest : List Dir)
    (step : TalkStep) : TalkPair :=
  { s with
    party := Function.update s.party e ((s.party e).advance v e d rest step)
    wire := Function.update s.wire e (s.wire e ++ frameOf v e step (s.party e).count)
    sent := Function.update s.sent e (s.sent e ++ [frameOf v e step (s.party e).count]) }

theorem step_send (errors : List Errno) (hpc : (s.party e).pc = .talk d rest step)
    (hrole : d.role e = step.speaker) : Step v errors s (spoken v s e d rest step) := by
  obtain ⟨script', hsend, -, -⟩ := talkSend_splits e (v.hosts e) (v.workerSelf e) step.stage v.size
    (talkSay (v.hosts e) v.iter v.size (dataOf (s.party e).count) step)
    (splits_replicate _ (talkLen step.stage v.size)) (by simp)
  exact .send e hpc hrole rfl hsend

/-- The state after a party has taken all that was on the wire as one message. -/
def listened (v : TalkEnv) (s : TalkPair) (e : Endpoint) (d : Dir) (rest : List Dir)
    (step : TalkStep) (ret : IoReturn) (pkt : TalkPayload) : TalkPair :=
  { s with
    party := Function.update s.party e ((s.party e).hear v e d rest step ret pkt)
    wire := Function.update s.wire e.peer []
    heard := Function.update s.heard e (s.heard e ++ [⟨step, s.wire e.peer, ret, pkt⟩]) }

theorem step_recv (errors : List Errno) (hpc : (s.party e).pc = .talk d rest step)
    (hrole : d.role e ≠ step.speaker) {tx : Host} {workerSelf : UInt64} {msg : TalkPayload}
    (hwire : s.wire e.peer = talkSendBuf tx workerSelf step.stage v.size msg) :
    ∃ pkt, SameMessage workerSelf step.stage v.size msg pkt ∧
      Step v errors s (listened v s e d rest step
        (if msg.has .forceFail then .err .abort else .ok (talkLen step.stage v.size)) pkt) := by
  obtain ⟨pkt, script', hrecv, hsame, -, -⟩ := talkRecv_message e tx (v.hosts e) workerSelf
    step.stage v.size msg TalkPayload.zero
    (splits_replicate _ (talkLen step.stage v.size)) (by simp)
  rw [List.append_nil, ← hwire] at hrecv
  have hscript := splits_replicate errors (talkLen step.stage v.size)
  exact ⟨pkt, hsame, .recv e hpc hrole (by decide) hscript (List.append_nil _).symm hrecv⟩

/-- One message is sent and received. -/
theorem Both.exchange (errors : List Errno) (h : s.Both v d rest step)
    (hadm : ∀ k, step = .negotiate k → v.counts d k < configTalkCountMax) :
    ∃ s', Relation.ReflTransGen (Step v errors) s s' ∧ (∀ e, s'.wire e = []) ∧
      ∀ e, ∃ p : Party, p.HasCount v d step ∧ s'.party e = p.advance v e d rest step := by
  obtain ⟨e, hrole⟩ := exists_speaker d step
  have hpeer : e.peer ≠ e := e.peer_ne
  have hhas : (s.party e).HasCount v d step := (h.ok e).hasCount (h.pc e) (by
    intro hr k hk
    rw [hk, hr] at hrole
    cases hrole)
  have hneg : ∀ k, step = .negotiate k →
      (s.party e).count = v.counts d k ∧ v.countAsserted k (v.counts d k) = true := by
    rintro k rfl
    exact hhas k rfl
  have hsend := step_send errors (v := v) (h.pc e) hrole
  have hparty : (spoken v s e d rest step).party e.peer = s.party e.peer :=
    Function.update_of_ne hpeer _ _
  have hwire : (spoken v s e d rest step).wire e.peer.peer =
      talkSendBuf (v.hosts e) (v.workerSelf e)
      step.stage v.size (talkSay (v.hosts e) v.iter v.size (dataOf (s.party e).count) step) := by
    simp [spoken, h.wire, frameOf]
  obtain ⟨pkt, hsame, hrecv⟩ := step_recv errors (v := v) (s := spoken v s e d rest step)
    (e := e.peer) (hparty.symm ▸ h.pc e.peer) (role_peer hrole) hwire
  rw [talkSay_forceFail] at hrecv
  refine ⟨_, (Relation.ReflTransGen.single hsend).tail hrecv, ?_, ?_⟩
  · intro f
    rcases v.connScript.eq_or_eq_peer e f with rfl | rfl
    · simp [listened]
    · rw [show v.connScript.peer e = e.peer from rfl]
      simp [listened, spoken, Function.update_of_ne hpeer, h.wire]
  · intro f
    rcases v.connScript.eq_or_eq_peer e f with rfl | rfl
    · refine ⟨_, hhas, ?_⟩
      simp [listened, spoken, Function.update_of_ne hpeer.symm]
    · rw [show v.connScript.peer e = e.peer from rfl]
      refine ⟨(s.party e.peer).store step pkt,
        (h.ok e.peer).hasCount_store (h.pc e.peer) (role_peer hrole) ?_, ?_⟩
      · rintro k rfl
        rw [hsame.count]
        exact hneg k rfl
      · simp only [listened, Function.update_self, hparty]
        exact Party.hear_eq hsame.flags hsame.count (fun k hk => by
          rw [show (dataOf (s.party e).count).count = (s.party e).count from rfl, (hneg k hk).1]
          exact hadm k hk)

/-- After an exchange both parties are at the next one. -/
theorem Both.next (errors : List Errno) (h : s.Both v d rest step) {step' : TalkStep}
    (hadm : ∀ k, step = .negotiate k → v.counts d k < configTalkCountMax)
    (hnext : step.next v.iter (v.counts d) (v.restart d) = some step')
    (hassert : ∀ k, step' = .negotiate k → v.countAsserted k (v.counts d k) = true) :
    ∃ s', Relation.ReflTransGen (Step v errors) s s' ∧ s'.Both v d rest step' := by
  obtain ⟨s', hrun, hwire, hparty⟩ := h.exchange errors hadm
  refine ⟨s', hrun, ?_, ?_, hwire⟩
  · intro e
    obtain ⟨p, hp, heq⟩ := hparty e
    rw [heq, Party.advance, next_congr _ _ (fun k hk => (hp k hk).1), hnext]
    show (p.arrive v e d rest step').pc = _
    unfold Party.arrive
    split
    · rw [if_pos (hassert _ rfl)]
    · rfl
  · intro e
    obtain ⟨p, hp, heq⟩ := hparty e
    rw [heq]
    exact Party.ok_advance hp

/-- The packets of a stream, one after the other. -/
theorem Both.stream (errors : List Errno) {k : Nat} (n : Nat) {i : Nat} {s : TalkPair}
    (hn : (v.counts d k).toNat ≤ i + n) (h : s.Both v d rest (.stream (v.counts d k) k i)) :
    ∃ s', Relation.ReflTransGen (Step v errors) s s' ∧ s'.Both v d rest (.streamEnd k) := by
  induction n generalizing i s with
  | zero =>
      rw [TalkStep.stream, if_neg (by omega)] at h
      exact ⟨s, .refl, h⟩
  | succ n ih =>
      by_cases hi : i < (v.counts d k).toNat
      · rw [TalkStep.stream, if_pos hi] at h
        obtain ⟨s₁, hrun, h₁⟩ := h.next errors
          (fun _ hk => by cases hk) rfl
          (by unfold TalkStep.stream; split <;> exact fun _ hk => by cases hk)
        obtain ⟨s₂, hrun', h₂⟩ := ih (by omega) h₁
        exact ⟨s₂, hrun.trans hrun', h₂⟩
      · rw [TalkStep.stream, if_neg hi] at h
        exact ⟨s, .refl, h⟩

/-- A whole stream, from its negotiation to its end. -/
theorem Both.negotiate (errors : List Errno) {k : Nat} (h : s.Both v d rest (.negotiate k))
    (hadm : v.counts d k < configTalkCountMax) :
    ∃ s', Relation.ReflTransGen (Step v errors) s s' ∧ s'.Both v d rest (.streamEnd k) := by
  obtain ⟨s₁, hrun₁, h₁⟩ := h.next errors
    (by rintro j hj; cases hj; exact hadm) rfl (fun _ hk => by cases hk)
  obtain ⟨s₂, hrun₂, h₂⟩ := h₁.next errors
    (fun _ hk => by cases hk) rfl
    (by unfold TalkStep.stream; split <;> exact fun _ hk => by cases hk)
  obtain ⟨s₃, hrun₃, h₃⟩ := h₂.stream errors (v.counts d k).toNat (by omega)
  exact ⟨s₃, (hrun₁.trans hrun₂).trans hrun₃, h₃⟩

/-- A test with one iteration of the handshake gets to its first negotiation. -/
theorem both_handshake (errors : List Errno) (hiter : v.iter = 1)
    (hrun : processRun v.reverseFirst v.bidirectional v.asynchronous = d :: rest)
    (hassert : v.countAsserted 0 (v.counts d 0) = true) :
    ∃ s : TalkPair, s.Reachable v errors ∧ s.Both v d rest (.negotiate 0) := by
  have hstart : (TalkStep.handshake v.iter 0) = .ping 0 := by
    rw [hiter]
    rfl
  have h₀ : (init v).Both v d rest (.ping 0) := by
    refine ⟨?_, fun e => Party.ok_enter _, fun _ => rfl⟩
    intro e
    simp only [init, hrun, Party.enter, hstart]
    rfl
  obtain ⟨s₁, hrun₁, h₁⟩ := h₀.next errors (fun _ hk => by cases hk) rfl
    (fun _ hk => by cases hk)
  obtain ⟨s₂, hrun₂, h₂⟩ := h₁.next errors (fun _ hk => by cases hk)
    (by rw [hiter]; rfl) (by rintro k hk; cases hk; exact hassert)
  exact ⟨s₂, hrun₁.trans hrun₂, h₂⟩

/-- The state after a party has sent its abort. -/
def abortSent (v : TalkEnv) (s : TalkPair) (e : Endpoint) (stage : Stage) : TalkPair :=
  { s with
    party := Function.update s.party e { s.party e with pc := .aborted stage }
    wire := Function.update s.wire e
      (s.wire e ++ talkSendBuf (v.hosts e) (v.workerSelf e) stage v.size abortPayload)
    sent := Function.update s.sent e
      (s.sent e ++ [talkSendBuf (v.hosts e) (v.workerSelf e) stage v.size abortPayload]) }

theorem step_abort (errors : List Errno) {stage : Stage} (hpc : (s.party e).pc = .abort stage) :
    Step v errors s (abortSent v s e stage) := by
  obtain ⟨script', hsend, -, -⟩ := talkSend_splits e (v.hosts e) (v.workerSelf e) stage v.size
    abortPayload (splits_replicate _ (talkLen stage v.size)) (by simp)
  exact .abort e hpc hsend

/-- What `_talk_send` writes depends on the stage only through the length. -/
theorem talkSendBuf_congr {stage stage' : Stage} (h : Host)
    (workerSelf : UInt64) (pkt : TalkPayload)
    {size : PayloadSize} (hlen : talkLen stage size = talkLen stage' size) :
    talkSendBuf h workerSelf stage size pkt = talkSendBuf h workerSelf stage' size pkt := by
  rw [talkSendBuf_eq, talkSendBuf_eq, hlen]

/-- The receiver aborts on a count it does not admit. -/
theorem hear_turnedDown {h : Host} {x : TalkData} {pkt : TalkPayload} {k n : Nat}
    (hflags : pkt.flags = (talkSay h v.iter v.size x (.negotiate k)).flags)
    (hcount : ¬pkt.count < configTalkCountMax) :
    (p.hear v e d rest (.negotiate k) (.ok n) pkt).pc = .abort .talkNegotiation := by
  have hhas : pkt.has .countReq = true := by
    rw [TalkPayload.has, hflags]
    exact talkSay_has_op h v.iter v.size x (.negotiate k)
  simp [Party.hear, talkCheck, hhas, hcount, Party.fail, TalkStep.stage]

/-- **A count that the receiver turns down.** The receiver aborts, and the sender, which
waits for STREAM START, reads the abort instead. -/
theorem Both.turnedDown (errors : List Errno) {k : Nat} (h : s.Both v d rest (.negotiate k))
    (hcount : ¬v.counts d k < configTalkCountMax) :
    ∃ s', Relation.ReflTransGen (Step v errors) s s' ∧ ¬s'.LockStep v := by
  obtain ⟨e, hrole⟩ := exists_speaker d (.negotiate k)
  have hpeer : e.peer ≠ e := e.peer_ne
  have hhas : (s.party e).count = v.counts d k :=
    ((h.ok e).hasCount (h.pc e) (fun hr => by rw [hr] at hrole; cases hrole) k rfl).1
  -- The count is sent ...
  have hsend := step_send errors (v := v) (h.pc e) hrole
  generalize hs₁ : spoken v s e d rest (.negotiate k) = s₁ at hsend
  have hparty₁ : s₁.party e.peer = s.party e.peer := by
    rw [← hs₁]
    exact Function.update_of_ne hpeer _ _
  have hwire₁ : s₁.wire e = frameOf v e (.negotiate k) (s.party e).count := by
    simp [← hs₁, spoken, h.wire]
  -- ... and turned down ...
  obtain ⟨pkt, hsame, hrecv⟩ := step_recv errors (v := v) (e := e.peer)
    (hparty₁.symm ▸ h.pc e.peer) (role_peer hrole) (by rw [Endpoint.peer_peer]; exact hwire₁)
  rw [talkSay_forceFail] at hrecv
  have hpkt : pkt.count = v.counts d k := hsame.count.trans hhas
  generalize hs₂ : listened v s₁ e.peer d rest (.negotiate k) _ pkt = s₂ at hrecv
  have hpc₂ : (s₂.party e.peer).pc = .abort .talkNegotiation := by
    simp only [← hs₂, listened, Function.update_self]
    exact hear_turnedDown hsame.flags (hpkt ▸ hcount)
  -- ... with an abort ...
  have habort := step_abort errors (v := v) hpc₂
  generalize hs₃ : abortSent v s₂ e.peer .talkNegotiation = s₃ at habort
  have hpc₃ : (s₃.party e).pc = .talk d rest (.streamStart k) := by
    simp only [← hs₃, ← hs₂, ← hs₁, abortSent, listened, spoken, Function.update_of_ne hpeer.symm,
      Function.update_self]
    rfl
  have hwire₃ : s₃.wire e.peer
      = talkSendBuf (v.hosts e.peer) (v.workerSelf e.peer) .talkNegotiation v.size abortPayload := by
    simp [← hs₃, ← hs₂, ← hs₁, abortSent, listened, spoken, Function.update_of_ne hpeer, h.wire]
  -- ... that the sender reads as STREAM START.
  obtain ⟨pkt', -, hfail⟩ := step_recv errors (v := v) hpc₃
    (by rw [hrole]; exact fun hr => by cases hr)
    (hwire₃.trans (talkSendBuf_congr _ _ _ rfl))
  refine ⟨_, (((Relation.ReflTransGen.single hsend).tail hrecv).tail habort).tail hfail, ?_⟩
  intro hlock
  have hret := (hlock.expected e _ (by
    simp only [listened, Function.update_self]
    exact List.mem_append_right _ (List.mem_singleton_self _))).1
  cases hret

end TalkPair

/-- **Lock-step of the talk protocol**, in every reachable state of every run without
timeouts in which the receiver admits the counts. -/
theorem talk_lockStep {v : TalkEnv} (hcounts : v.CountsAdmitted) {s : TalkPair}
    (h : s.Reachable v [.eintr]) : s.LockStep v := by
  obtain ⟨frames, hinv⟩ := h.inv hcounts
  exact hinv.lockStep

/-- Two little-endian hosts with the default sizes, and the counts of `-M 10`. -/
def envMul10 (streams : Nat) : TalkEnv where
  iter := 1
  size := ⟨1432, by decide, by decide⟩
  countDefault := configTalkCountDefault
  countMax := configTalkCountMax
  ndebug := false
  reverseFirst := false
  bidirectional := false
  asynchronous := false
  hosts := fun _ => ⟨.little, .inlineFunction⟩
  workerSelf := fun _ => 1
  counts := fun _ k => UInt32.ofNat (100 * 10 ^ k)
  restart := fun _ k => decide (k < streams)

/-- A test with one stream of 100 packets, run to its end. -/
theorem talk_lockStep_oneStream :
    ∃ s : TalkPair, s.Reachable (envMul10 0) [.eintr] ∧ (∀ e, (s.party e).pc = .returned)
      ∧ s.LockStep (envMul10 0) := by
  obtain ⟨s₀, hrun₀, h₀⟩ := TalkPair.both_handshake (v := envMul10 0) [.eintr]
    (d := .straight) rfl rfl (by decide)
  obtain ⟨s₁, hrun₁, h₁⟩ := h₀.negotiate [.eintr] (by decide)
  obtain ⟨s₂, hrun₂, h₂⟩ := h₁.next [.eintr] (fun _ hk => by cases hk) rfl
    (fun _ hk => by cases hk)
  obtain ⟨s₃, hrun₃, h₃⟩ := h₂.next [.eintr] (fun _ hk => by cases hk) rfl
    (fun _ hk => by cases hk)
  obtain ⟨s₄, hrun₄, -, hparty⟩ := h₃.exchange [.eintr] (fun _ hk => by cases hk)
  have hreach : s₄.Reachable (envMul10 0) [.eintr] :=
    (((hrun₀.trans hrun₁).trans hrun₂).trans hrun₃).trans hrun₄
  refine ⟨s₄, hreach, ?_, talk_lockStep ?_ hreach⟩
  · intro e
    obtain ⟨p, -, heq⟩ := hparty e
    rw [heq]
    rfl
  · intro d _ k hk _
    cases k with
    | zero => exact (by decide : UInt32.ofNat 100 < configTalkCountMax)
    | succ k => cases hk 0 (Nat.succ_pos k)

theorem envMul10_counts (d : Dir) {k : Nat} (hk : k < 7) :
    (envMul10 7).counts d k < configTalkCountMax ∧
      (envMul10 7).countAsserted (k + 1) ((envMul10 7).counts d (k + 1)) = true := by
  have hall : ∀ k < 7, (envMul10 7).counts .straight k < configTalkCountMax ∧
      (envMul10 7).countAsserted (k + 1) ((envMul10 7).counts .straight (k + 1)) = true := by
    decide
  exact hall k hk

/-- Seven weak streams, each with ten times the packets of the one before. -/
theorem envMul10_weak (errors : List Errno) {k : Nat} (hk : k ≤ 7) :
    ∃ s : TalkPair, s.Reachable (envMul10 7) errors ∧
      s.Both (envMul10 7) .straight [] (.negotiate k) := by
  induction k with
  | zero =>
      exact TalkPair.both_handshake (v := envMul10 7) errors (d := .straight) rfl rfl
        (by decide)
  | succ k ih =>
      obtain ⟨s, hrun, h⟩ := ih (Nat.le_of_succ_le hk)
      obtain ⟨hadm, hassert⟩ := envMul10_counts .straight hk
      obtain ⟨s₁, hrun₁, h₁⟩ := h.negotiate errors hadm
      have hrestart : (envMul10 7).restart .straight k = true := decide_eq_true hk
      have hnext : TalkStep.next (envMul10 7).iter ((envMul10 7).counts .straight)
          ((envMul10 7).restart .straight) (.streamEnd k) = some (.negotiate (k + 1)) := by
        simp only [TalkStep.next, hrestart, if_true]
      obtain ⟨s₂, hrun₂, h₂⟩ := h₁.next errors (fun _ hk => by cases hk) hnext
        (by rintro j hj; cases hj; exact hassert)
      exact ⟨s₂, (hrun.trans hrun₁).trans hrun₂, h₂⟩

/-- The eighth stream would have `UBWT_CONFIG_TALK_COUNT_MAX` packets, which the sender's
assertion admits and the receiver does not. -/
theorem talk_lockStep_fails_countMax :
    ∃ s : TalkPair, s.Reachable (envMul10 7) [.eintr] ∧ ¬s.LockStep (envMul10 7) := by
  obtain ⟨s, hrun, h⟩ := envMul10_weak [.eintr] (k := 7) le_rfl
  obtain ⟨s', hrun', hfail⟩ := h.turnedDown [.eintr] (by decide)
  exact ⟨s', hrun.trans hrun', hfail⟩

end Ubwt
