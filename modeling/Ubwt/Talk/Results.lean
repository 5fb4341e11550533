import Mathlib.Algebra.BigOperators.Fin
import Mathlib.Order.Bounds.Defs
import Ubwt.Lib.Wrap
import Ubwt.Report.Totals
import Ubwt.Talk.Ending
import Ubwt.Talk.Records

/-!
# Ubwt.Talk.Results

What a completed test has as its results. **Both workers of every connection of a direction have the
same record**, of the count that follows from the restarts of the direction, with as many packets
and their bytes, and the time of the last stream (`completed_results`). So the two endpoints combine
the same records (`completed_totals`): no packet is missing, and the bytes are exact, while the
count of all connections together is wrapped to its 32 bits. All of this is for tests in which no
message is lost and no call fails, and a recount is the exact product, rounded down.
-/

namespace Ubwt

open Lib Lib.Posix

theorem TalkWorker.of_nextStep_start {v : TestEnv} {d : Dir} {w : TalkWorker} {k : Nat}
    (h : w.nextStep v d = .streamStart k) : w.pc = .streamStart ∧ w.k = k := by
  cases hpc : w.pc <;> simp [nextStep, hpc, TalkStep.handshake, TalkStep.stream] at h ⊢ <;>
    first
      | exact h
      | split at h <;> cases h

namespace TalkTest

variable {v : TestEnv} {cfg : Config} {env : Env} {election : v.Election} {e : Endpoint}
  {c : Fin v.workers} {d : Dir} {rest : List Dir} {s s' : TalkTest v.workers}

/-! ### The count that a receiver has negotiated -/

/-- When the receiver hears the count, the sender waits for the start of the stream. -/
theorem Reachable.negotiates (h : s.Reachable v) {k : Nat} {pkt : TalkPayload}
    {more : List TalkPayload} (hd : (s.worker e c).dirs = d :: rest)
    (hx : (s.worker e c).exchange = some (.negotiate k)) (hrole : d.role e = .receiver)
    (hchan : s.chan c e.peer = pkt :: more) :
    (s.worker e.peer c).dirs = d :: rest ∧ (s.worker e.peer c).pc = .streamStart ∧
      (s.worker e.peer c).k = k ∧ pkt.count = ((s.shared e.peer).count d).toUInt32 := by
  obtain ⟨-, -, hspoken, -⟩ := (h.inv.inStep c).behind (s := e) hchan
  have hnext : v.posNext ((s.worker e c).pos v) pkt = (.talk d rest (.streamStart k), pkt.count) :=
    TalkWorker.posNext_eq pkt hd hx
  have hpeer : d.role e.peer = .sender := by
    cases d <;> cases e <;> first | rfl | cases hrole
  have hsilent : (TalkPos.talk d rest (.streamStart k)).speaker ≠ some e.peer := by
    rw [ne_eq, TalkPos.speaker_talk, hpeer]
    nofun
  obtain ⟨-, hposPeer⟩ := hspoken.of_silent (by
    show (v.posNext ((s.worker e c).pos v) pkt).1.speaker ≠ some e.peer
    rw [hnext]
    exact hsilent)
  have hpos : (s.worker e.peer c).pos v = (.talk d rest (.streamStart k), pkt.count) :=
    hposPeer.symm.trans hnext
  obtain ⟨hdPeer, hstart⟩ := TalkWorker.of_pos_talk (congrArg Prod.fst hpos)
  obtain ⟨hpc, hk⟩ := TalkWorker.of_nextStep_start hstart
  refine ⟨hdPeer, hpc, hk, ?_⟩
  rw [← (h.inv.crew e.peer).count c d rest hdPeer hpeer hpc]
  rw [TalkWorker.pos_eq hdPeer, hstart] at hpos
  exact (congrArg Prod.snd hpos).symm

/-- **The sender negotiates the count of the stream**, and the receiver takes it as it is. -/
theorem Reaches.negotiates (h : s.Reaches cfg election) {k : Nat} {pkt : TalkPayload}
    {more : List TalkPayload} (hd : (s.worker e c).dirs = d :: rest)
    (hx : (s.worker e c).exchange = some (.negotiate k)) (hrole : d.role e = .receiver)
    (hchan : s.chan c e.peer = pkt :: more) {weakTime : Nat → UInt64} {done : Nat}
    (hcounted : Counted v cfg election e.peer d weakTime (s.worker e.peer) (s.shared e.peer) done) :
    k < done ∧ pkt.count.toNat = v.streamCount cfg weakTime d k := by
  obtain ⟨hdPeer, hpc, hk, hcount⟩ := h.reachable.negotiates hd hx hrole hchan
  have hin : (s.worker e.peer c).InStream := ⟨by rw [hpc]; rfl, by rw [hpc]; rfl⟩
  obtain ⟨hdone, hstream⟩ := hcounted.toNat_count hdPeer hin
  have hle := hcounted.asserted c rest hdPeer hin.1
  rw [hk] at hdone hstream hle
  refine ⟨by omega, ?_⟩
  rw [hcount, UInt64.toNat_toUInt32, hstream, Nat.mod_eq_of_lt]
  exact Nat.lt_of_le_of_lt hle (by decide)

/-- The receivers of a direction have the counts that its senders use, after `done` rounds. -/
structure Negotiated (v : TestEnv) (cfg : Config) (d : Dir) (weakTime : Nat → UInt64) (done : Nat)
    (ws : Fin v.workers → TalkWorker) : Prop where
  now : ∀ c rest, (ws c).dirs = d :: rest → (ws c).pc.negotiated = true →
    (ws c).k < done ∧
      ((ws c).report d).talkCount.toNat = v.streamCount cfg weakTime d (ws c).k
  past : ∀ c, d ∈ v.dirs c → d ∉ (ws c).dirs → ∃ K, v.Final d K ∧ K < done ∧
    ((ws c).report d).talkCount.toNat = v.streamCount cfg weakTime d K

/-- Later rounds leave the counts of the streams before them. -/
theorem Negotiated.extends {weakTime weakTime' : Nat → UInt64} {done done' : Nat}
    {ws : Fin v.workers → TalkWorker} (h : Negotiated v cfg d weakTime done ws)
    (hext : Extends weakTime weakTime' done done') : Negotiated v cfg d weakTime' done' ws where
  now := by
    intro c rest hd hpc
    obtain ⟨hk, hcount⟩ := h.now c rest hd hpc
    exact ⟨hk.trans_le hext.le, hcount.trans (hext.streamCount_eq hk).symm⟩
  past := by
    intro c hmem hnot
    obtain ⟨K, hfinal, hK, hcount⟩ := h.past c hmem hnot
    exact ⟨K, hfinal, hK.trans_le hext.le, hcount.trans (hext.streamCount_eq hK).symm⟩

/-- A step of the test. -/
theorem Negotiated.step (hs : s.Reaches cfg election) (hrole : d.role e = .receiver)
    {weakTime : Nat → UInt64} {done : Nat} (h : Negotiated v cfg d weakTime done (s.worker e))
    (hcounted : Counted v cfg election e.peer d weakTime (s.worker e.peer) (s.shared e.peer) done)
    (hstep : Step v s s') : Negotiated v cfg d weakTime done (s'.worker e) where
  now := by
    intro c rest hd hpc
    rcases hstep.own_cases e c with ⟨hsame, -⟩ | ⟨d₁, rest₁, said, hd₁, hmove, -⟩
    · rw [hsame] at hd hpc ⊢
      exact h.now c rest hd hpc
    · rcases hmove.goes with ⟨-, heq⟩ | ⟨hfinish, hdirs, -⟩
      · rw [heq] at hd hpc
        have hrest : rest₁ = d :: rest := hd
        subst hrest
        cases hpc
      · rw [hdirs, hd₁] at hd
        cases hd
        have hcounts := (hs.reachable.accounts e c).now d rest hd₁ hrole
        have hat := ((hs.reachable.inv.crew e).shape c).now d rest hd₁
        rcases (hmove.counts hcounts hat hrole hfinish).2 with
          hkeeps | ⟨pkt, more, hchan, hx, hk, hcount⟩
        · obtain ⟨hbefore, hk, hcount⟩ := hkeeps hpc
          rw [hk, hcount]
          exact h.now c rest hd₁ hbefore
        · rw [hk, hcount]
          exact hs.negotiates hd₁ hx hrole hchan hcounted
  past := by
    intro c hmem hnot
    rcases hstep.own_cases e c with ⟨hsame, -⟩ | ⟨d₁, rest₁, said, hd₁, hmove, -⟩
    · rw [hsame] at hnot ⊢
      exact h.past c hmem hnot
    · rcases hmove.goes with ⟨hpc, heq⟩ | ⟨-, hdirs, hreport⟩
      · rw [heq] at hnot ⊢
        by_cases hd : d = d₁
        · subst hd
          have hat := ((hs.reachable.inv.crew e).shape c).now d rest₁ hd₁
          obtain ⟨hk, hcount⟩ := h.now c rest₁ hd₁ (by rw [hpc]; rfl)
          exact ⟨_, ⟨hat.ran, hat.reports (by rw [hpc]; rfl)⟩, hk, hcount⟩
        · refine h.past c hmem ?_
          rw [hd₁, List.mem_cons, not_or]
          exact ⟨hd, hnot⟩
      · rw [hdirs] at hnot
        rw [hreport d (by
          rintro rfl
          exact hnot (hd₁ ▸ List.mem_cons_self ..))]
        exact h.past c hmem hnot

theorem Reaches.negotiated (hv : v.Configured cfg) (hopt : OptInv env cfg)
    (hrole : d.role e = .receiver) (htested : ∃ c, d ∈ v.dirs c) (h : s.Reaches cfg election) :
    ∃ weakTime done,
      Counted v cfg election e.peer d weakTime (s.worker e.peer) (s.shared e.peer) done ∧
        Negotiated v cfg d weakTime done (s.worker e) := by
  have hpeer : d.role e.peer = .sender := by
    cases d <;> cases e <;> first | rfl | cases hrole
  induction h with
  | refl =>
      refine ⟨fun _ => 0, 0, Counted.zero fun _ _ _ => rfl, ?_⟩
      exact {
        now := fun _ _ _ hpc => by cases hpc
        past := fun _ hmem hnot => absurd hmem hnot }
  | tail hreaches hadvance ih =>
      obtain ⟨weakTime, done, hcounted, hnegotiated⟩ := ih
      obtain ⟨weakTime', done', hext, hcounted'⟩ := counted_step hv hopt
        (Reaches.reachable hreaches).inv hpeer htested hcounted hadvance
      refine ⟨weakTime', done', hcounted', ?_⟩
      exact (hnegotiated.step hreaches hrole hcounted hadvance.step).extends hext

/-! ### Streams that are long enough -/

/-- **A test whose streams are all long enough is completed**: nothing is recounted, so no count is
too large. -/
theorem Reaches.clean_of_long (hv : v.Configured cfg) (hopt : OptInv env cfg)
    (hlong : ∀ c d k, v.weak c d k = false) (h : s.Reaches cfg election)
    (hstuck : ∀ s', ¬Advance cfg election s s') : s.Clean := by
  rcases h.ends hv hopt hstuck with hclean | ⟨e, c, hmax⟩ | ⟨e, c, d, rest, hd, hpc, -⟩
  · exact hclean
  · obtain ⟨d, rest, k, pkt, more, hd, hrole, hx, hchan, hlarge⟩ := hmax
    have hmem := ((h.reachable.inv.crew e).shape c).mem hd
    obtain ⟨weakTime, done, hcounted, -⟩ := h.negotiated hv hopt hrole ⟨c, hmem⟩
    obtain ⟨-, hcount⟩ := h.negotiates hd hx hrole hchan hcounted
    -- It is the first stream.
    obtain rfl : k = 0 := by
      have hk : (s.worker e c).k = k := by
        rw [TalkWorker.exchange, TalkWorker.pc_of_negotiate hx] at hx
        cases hx
        rfl
      by_contra hne
      have hran := (((h.reachable.inv.crew e).shape c).now d rest hd).ran 0 (by omega)
      cases hran.symm.trans (TestEnv.restart_of_long hlong d 0)
    rw [hlarge, TestEnv.streamCount, hv.start hopt] at hcount
    cases hcount
  · have hrecounts := (((h.reachable.inv.crew e).shape c).now d rest hd).recounts (by rw [hpc]; rfl)
    cases hrecounts.symm.trans (TestEnv.restart_of_long hlong d _)

end TalkTest

/-! ### The results of a completed test -/

/-- The result of a connection whose last stream of a direction is stream `K`. -/
structure ConnectionResult (v : TestEnv) (cfg : Config) (weakTime : Nat → UInt64) (d : Dir) (K : Nat)
    (c : Fin v.workers) (r : ReportCollect) : Prop where
  count : r.talkCount.toNat = v.streamCount cfg weakTime d K
  pkts : r.talkStreamRecvPkts = r.talkCount
  bytes : r.talkStreamRecvBytes.toNat = v.streamCount cfg weakTime d K * v.size.val
  duration : r.talkStreamTimeDuration = v.time c d K

theorem Recorded.toNat_bytes {v : TestEnv} {r : ReportCollect} (h : Recorded v r) :
    r.talkStreamRecvBytes.toNat = r.talkCount.toNat * v.size.val := by
  have hsize : v.size.val ≤ 8192 := v.size.max
  have hcount := r.talkCount.toNat_lt
  have hmul : r.talkCount.toNat * v.size.val ≤ 2 ^ 32 * 8192 := Nat.mul_le_mul hcount.le hsize
  rw [h.bytes, UInt64.toNat_ofNat', Nat.mod_eq_of_lt (by omega)]

theorem TalkTest.Reaches.results {v : TestEnv} {cfg : Config} {env : Env} {election : v.Election}
    {s : TalkTest v.workers} {d : Dir} (hv : v.Configured cfg) (hopt : OptInv env cfg)
    (hs : s.Reaches cfg election) (hdone : s.Completed) (hd : ∃ c, d ∈ v.dirs c) :
    ∃ K weakTime, v.Final d K ∧ ∀ c, d ∈ v.dirs c → ∃ r,
      (∀ e, (s.worker e c).report d = r) ∧ ConnectionResult v cfg weakTime d K c r := by
  have hreceiver : d.role d.receiver = .receiver := by cases d <;> rfl
  have hsender : d.role d.receiver.peer = .sender := by cases d <;> rfl
  have hnot : ∀ e c, d ∉ (s.worker e c).dirs := fun e c => by
    rw [hdone e c]
    exact List.not_mem_nil
  obtain ⟨weakTime, done, -, hnegotiated⟩ := hs.negotiated hv hopt hreceiver hd
  obtain ⟨c₀, hc₀⟩ := hd
  obtain ⟨K, hfinal, -, -⟩ := hnegotiated.past c₀ hc₀ (hnot _ _)
  refine ⟨K, weakTime, hfinal, fun c hc => ⟨(s.worker d.receiver c).report d, ?_, ?_⟩⟩
  · intro e
    rcases Endpoint.eq_or_eq_peer d.receiver e with rfl | rfl
    · rfl
    · have hcopied := (hs.reachable.copied _ c d hsender (.inl (hnot _ _)) hc).2
      rwa [Endpoint.peer_peer] at hcopied
  · obtain ⟨L, hfinal', -, hcount⟩ := hnegotiated.past c hc (hnot _ _)
    obtain ⟨M, hfinal'', -, htime⟩ := ((hs.reachable.inv.crew _).shape c).past d hc (hnot _ _)
    have hrecorded := (hs.reachable.accounts d.receiver c).past d hc (hnot _ _) hreceiver
    rw [hfinal'.eq hfinal] at hcount
    rw [hfinal''.eq hfinal] at htime
    exact {
      count := hcount
      pkts := hrecorded.pkts
      bytes := by rw [hrecorded.toNat_bytes, hcount]
      duration := htime hreceiver }

/-- Outside of the latency the combined record is the fold of the records. -/
theorem reportWorkerCombine_fields (asynchronous : Bool) (main : Dir → ReportCollect)
    (workers : List (Dir → ReportCollect)) (d : Dir) :
    let r := (workers.map (· d)).foldl combineCollect (main d)
    let combined := reportWorkerCombine asynchronous main workers d
    combined.talkCount = r.talkCount ∧ combined.talkStreamRecvPkts = r.talkStreamRecvPkts ∧
      combined.talkStreamRecvBytes = r.talkStreamRecvBytes ∧
      combined.talkStreamTimeDuration = r.talkStreamTimeDuration ∧
      combined.talkStreamTimeStart = r.talkStreamTimeStart := by
  unfold reportWorkerCombine
  dsimp only
  split <;> exact ⟨rfl, rfl, rfl, rfl, rfl⟩

/-- The greatest duration is one of them. -/
theorem foldl_combine_duration_mem (main : ReportCollect) (rs : List ReportCollect) :
    (rs.foldl combineCollect main).talkStreamTimeDuration = main.talkStreamTimeDuration ∨
      ∃ r ∈ rs, (rs.foldl combineCollect main).talkStreamTimeDuration = r.talkStreamTimeDuration := by
  induction rs generalizing main with
  | nil => exact .inl rfl
  | cons r rs ih =>
      rcases ih (combineCollect main r) with hmain | ⟨r', hr', heq⟩
      · rw [List.foldl_cons, hmain, combineCollect]
        dsimp only
        split
        · exact .inl rfl
        · exact .inr ⟨r, List.mem_cons_self .., rfl⟩
      · exact .inr ⟨r', List.mem_cons_of_mem r hr', heq⟩

/-- What an endpoint reports for a direction whose last stream is stream `K`. -/
structure DirectionResult (v : TestEnv) (cfg : Config) (weakTime : Nat → UInt64) (d : Dir) (K : Nat)
    (r : ReportCollect) : Prop where
  count : r.talkCount.toNat = v.dirWorkers * v.streamCount cfg weakTime d K % 2 ^ 32
  pkts : r.talkStreamRecvPkts = r.talkCount
  bytes : r.talkStreamRecvBytes.toNat = v.dirWorkers * v.streamCount cfg weakTime d K * v.size.val
  duration : IsGreatest {t | ∃ c, d ∈ v.dirs c ∧ v.time c d K = t} r.talkStreamTimeDuration

/-- A sum over the records of all connections, of which those that do not test the direction add
nothing. -/
theorem sum_records {v : TestEnv} {d : Dir} (hd : ∃ c, d ∈ v.dirs c)
    {record : Fin v.workers → ReportCollect} {field : ReportCollect → Nat} {n : Nat}
    (hin : ∀ c, d ∈ v.dirs c → field (record c) = n)
    (hout : ∀ c, d ∉ v.dirs c → field (record c) = 0) :
    (((List.finRange v.workers).map record).map field).sum = v.dirWorkers * n := by
  have hfield : ∀ c, field (record c) = if decide (d ∈ v.dirs c) = true then n else 0 := by
    intro c
    split
    · exact hin c (of_decide_eq_true ‹_›)
    · exact hout c (of_decide_eq_false (Bool.of_not_eq_true ‹_›))
  rw [List.map_map, ← Fin.sum_univ_def, ← TestEnv.tally_dirs hd, ← sum_ite_tally]
  exact Finset.sum_congr rfl fun c _ => hfield c

theorem TalkTest.Reaches.totals {v : TestEnv} {cfg : Config} {env : Env} {election : v.Election}
    {s : TalkTest v.workers} {d : Dir} (hv : v.Configured cfg) (hopt : OptInv env cfg)
    (hs : s.Reaches cfg election) (hdone : s.Completed) (hd : ∃ c, d ∈ v.dirs c) :
    ∃ K weakTime r, v.Final d K ∧ DirectionResult v cfg weakTime d K r ∧
      ∀ e workers, s.Lists e workers →
        reportWorkerCombine v.asynchronous (fun _ => .zero) workers d = r := by
  obtain ⟨K, weakTime, hfinal, hresults⟩ := hs.results hv hopt hdone hd
  have hnone : ∀ c, d ∉ v.dirs c → ∀ e, (s.worker e c).report d = .zero :=
    fun c hc e => (hs.reachable.accounts e c).other d hc
  -- Both ends of each connection have one record of the direction.
  let record := fun c => (s.worker .listener c).report d
  have hsame : ∀ e c, (s.worker e c).report d = record c := by
    intro e c
    by_cases hc : d ∈ v.dirs c
    · obtain ⟨r, hr, -⟩ := hresults c hc
      exact (hr e).trans (hr .listener).symm
    · exact (hnone c hc e).trans (hnone c hc .listener).symm
  have hresult : ∀ c, d ∈ v.dirs c → ConnectionResult v cfg weakTime d K c (record c) := by
    intro c hc
    obtain ⟨r, hr, hresult⟩ := hresults c hc
    rwa [← hr .listener] at hresult
  have hzero : ∀ c, d ∉ v.dirs c → record c = .zero := fun c hc => hnone c hc .listener
  let workers := (List.finRange v.workers).map fun c => (s.worker .listener c).report
  have hmap : workers.map (· d) = (List.finRange v.workers).map record := by
    rw [List.map_map]
    rfl
  refine ⟨K, weakTime, reportWorkerCombine v.asynchronous (fun _ => .zero) workers d, hfinal, ?_, ?_⟩
  · obtain ⟨hcount, hpkts, hbytes, hduration, -⟩ :=
      reportWorkerCombine_fields v.asynchronous (fun _ => .zero) workers d
    rw [hmap] at hcount hpkts hbytes hduration
    have htotal : ∀ (field : ReportCollect → Nat) {n : Nat},
        (∀ c, d ∈ v.dirs c → field (record c) = n) → field .zero = 0 →
          (((List.finRange v.workers).map record).map field).sum = v.dirWorkers * n :=
      fun _ _ hin hout => sum_records hd hin fun c hc => by rw [hzero c hc, hout]
    have hcounts := htotal (fun r => r.talkCount.toNat) (fun c hc => (hresult c hc).count) rfl
    obtain ⟨c₀, hc₀⟩ := hd
    have hbound : v.dirWorkers * v.streamCount cfg weakTime d K * v.size.val < 2 ^ 64 := by
      have hworkers : v.dirWorkers ≤ 1024 := by
        have hmax := hopt.workers.2
        rw [← hv.workers] at hmax
        unfold TestEnv.dirWorkers
        split <;> omega
      have hstream : v.streamCount cfg weakTime d K ≤ 2 ^ 32 := by
        rw [← (hresult c₀ hc₀).count]
        exact (UInt32.toNat_lt _).le
      have hsize : v.size.val ≤ 8192 := v.size.max
      exact (Nat.mul_le_mul (Nat.mul_le_mul hworkers hstream) hsize).trans_lt (by decide)
    have hle : ∀ c, d ∈ v.dirs c → v.time c d K
        ≤ (((List.finRange v.workers).map record).foldl combineCollect .zero).talkStreamTimeDuration := by
      intro c hc
      rw [← (hresult c hc).duration]
      exact (le_foldl_combine _ _).2 _ (List.mem_map_of_mem (List.mem_finRange c))
    exact {
      count := by
        rw [hcount, foldl_combine_count, wraps_uint32.toNat_foldl_add, hcounts]
        exact congrArg (· % 2 ^ 32) (Nat.zero_add _)
      pkts := by
        rw [hpkts, hcount]
        apply UInt32.toNat_inj.mp
        rw [foldl_combine_pkts, foldl_combine_count, wraps_uint32.toNat_foldl_add,
          wraps_uint32.toNat_foldl_add, hcounts, htotal (fun r => r.talkStreamRecvPkts.toNat)
            (fun c hc => by rw [(hresult c hc).pkts, (hresult c hc).count]) rfl]
        rfl
      bytes := by
        rw [hbytes, foldl_combine_bytes, wraps_uint64.toNat_foldl_add,
          htotal (fun r => r.talkStreamRecvBytes.toNat)
            (fun c hc => (hresult c hc).bytes) rfl, ← Nat.mul_assoc]
        exact (congrArg (· % 2 ^ 64) (Nat.zero_add _)).trans (Nat.mod_eq_of_lt hbound)
      duration := by
        rw [hduration]
        refine ⟨?_, fun t ⟨c, hc, ht⟩ => ht ▸ hle c hc⟩
        -- Where the greatest time is zero, it is the time of every connection.
        have hleast : (((List.finRange v.workers).map record).foldl combineCollect
            .zero).talkStreamTimeDuration = 0 → v.time c₀ d K
              = (((List.finRange v.workers).map record).foldl combineCollect
                .zero).talkStreamTimeDuration := by
          intro hzero
          refine UInt64.le_antisymm (hle c₀ hc₀) ?_
          rw [hzero]
          exact UInt64.zero_le
        rcases foldl_combine_duration_mem .zero ((List.finRange v.workers).map record) with
          hmain | ⟨r, hr, heq⟩
        · exact ⟨c₀, hc₀, hleast hmain⟩
        · obtain ⟨c, -, rfl⟩ := List.mem_map.mp hr
          by_cases hc : d ∈ v.dirs c
          · exact ⟨c, hc, ((hresult c hc).duration.symm.trans heq.symm)⟩
          · rw [hzero c hc] at heq
            exact ⟨c₀, hc₀, hleast heq⟩ }
  · intro e ws hws
    refine reportWorkerCombine_perm _ _ d ?_
    rw [hmap]
    refine (hws.map (· d)).trans ?_
    rw [List.map_map]
    exact .of_eq (List.map_congr_left fun c _ => hsame e c)

/-- The streams of both directions take as long as they have to at once. -/
def envLongEnough : TestEnv := { envBothWays with time := fun _ _ _ => 3100000 }

def electionLongEnough : envLongEnough.Election where
  caller := fun _ d _ => callerBothWays d
  joins := fun _ d _ => joins_callerBothWays d

/-- `ubwt -A -W 2 connector 10.0.0.1`. -/
theorem configured_longEnough :
    ∃ cfg, configInit ⟨false, false, fun _ _ => false⟩
        ["-A".toList, "-W".toList, "2".toList, "connector".toList, "10.0.0.1".toList] = .ok cfg
      ∧ envLongEnough.Configured cfg := ⟨_, rfl, rfl, rfl, rfl, rfl, rfl, rfl, rfl⟩

theorem weak_longEnough (c : Fin envLongEnough.workers) (d : Dir) (k : Nat) :
    envLongEnough.weak c d k = false :=
  (by decide : decide ((3100000 : UInt64) < streamThreshold 3) = false)

theorem exists_completed_longEnough {env : Env} {args : List CString} {cfg : Config}
    (hcfg : configInit env args = .ok cfg) (hv : envLongEnough.Configured cfg) :
    ∃ s, TalkTest.Reaches cfg electionLongEnough s ∧ s.Completed := by
  have hopt := configInit_optInv hcfg
  have hlowers : Lowers (TalkTest.Advance cfg electionLongEnough)
      (TalkTest.Reaches cfg electionLongEnough) _ := TalkTest.lowers hv hopt
  obtain ⟨s, hrun, hstuck⟩ := hlowers.exists_stuck .refl
  exact ⟨s, hrun, (TalkTest.Reaches.clean_of_long hv hopt weak_longEnough hrun hstuck).completed⟩

theorem completed_longEnough :
    ∃ cfg s, configInit ⟨false, false, fun _ _ => false⟩
        ["-A".toList, "-W".toList, "2".toList, "connector".toList, "10.0.0.1".toList] = .ok cfg
      ∧ envLongEnough.Configured cfg ∧ TalkTest.Reaches cfg electionLongEnough s ∧ s.Completed := by
  obtain ⟨cfg, hcfg, hv⟩ := configured_longEnough
  obtain ⟨s, hrun, hdone⟩ := exists_completed_longEnough hcfg hv
  exact ⟨cfg, s, hcfg, hv, hrun, hdone⟩

end Ubwt
