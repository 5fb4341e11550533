import Mathlib.Logic.Function.Basic
import Mathlib.Logic.Relation
import Ubwt.Lib.Tally

/-!
# Ubwt.Lib.Rendezvous

A barrier as its callers see it, and a shared counter that is used in rounds between its
calls.

What a barrier promises is `Meets`: no caller has returned from more calls than any other
has entered. So **two callers that are not in a call have returned from the same number of
them** (`Meets.eq`): the calls cut the run into segments, and all callers work in one. `Calls` is
the machine whose steps the promise allows: callers enter and return, and that is all it shows.

In each round of a `Timetable` the members set the counter to zero in one segment, the
flagged members add one in a later segment, and everybody reads it after that, before the
next resets. `Gathered` says what the counter holds in between, and each thing a caller can do has
a rule.
-/

namespace Lib

variable {ι : Type}

/-! ### The barrier -/

/-- How many calls a caller has entered, from the number it has returned from. -/
def entered (passed : ι → Nat) (waiting : ι → Bool) (i : ι) : Nat := passed i + (waiting i).toNat

/-- No caller in `part` has returned from a call that another has not entered. -/
def Meets (part : ι → Prop) (passed : ι → Nat) (waiting : ι → Bool) : Prop :=
  ∀ i j, part i → part j → passed i ≤ entered passed waiting j

variable {part : ι → Prop} {passed passed' : ι → Nat} {waiting waiting' : ι → Bool} {i j : ι}

theorem meets_zero (part : ι → Prop) (waiting : ι → Bool) : Meets part (fun _ => 0) waiting :=
  fun _ _ _ _ => Nat.zero_le _

/-- A caller that has entered more calls than it has returned from is in one. -/
theorem waiting_of_lt_entered {n : Nat} (h : n < entered passed waiting i) (hle : passed i ≤ n) :
    waiting i = true ∧ passed i = n := by
  cases hw : waiting i with
  | false =>
      simp only [entered, hw, Bool.toNat_false] at h
      omega
  | true =>
      simp only [entered, hw, Bool.toNat_true] at h
      exact ⟨rfl, by omega⟩

/-- A caller that returns has entered as many calls as before. -/
theorem entered_leave (hwaiting : waiting i = true) (hi : passed' i = passed i + 1)
    (hi' : waiting' i = false)
    (hother : ∀ j, j ≠ i → passed' j = passed j ∧ waiting' j = waiting j) (j : ι) :
    entered passed' waiting' j = entered passed waiting j := by
  by_cases hj : j = i
  · subst hj
    simp [entered, hi, hi', hwaiting]
  · simp [entered, hother j hj]

/-- Callers that are not in a call have returned from equally many. -/
theorem Meets.eq (h : Meets part passed waiting) (hi : part i) (hj : part j)
    (hwi : waiting i = false) (hwj : waiting j = false) : passed i = passed j := by
  have hij := h i j hi hj
  have hji := h j i hj hi
  simp only [entered, hwi, hwj, Bool.toNat_false, Nat.add_zero] at hij hji
  exact Nat.le_antisymm hij hji

/-- A caller enters a call. -/
theorem Meets.enter (h : Meets part passed waiting) (hpassed : ∀ j, passed' j = passed j)
    (hwaiting : ∀ j, waiting j = true → waiting' j = true) : Meets part passed' waiting' := by
  intro i j hi hj
  have hle := h i j hi hj
  have hmono : (waiting j).toNat ≤ (waiting' j).toNat := by
    cases hw : waiting j with
    | false => exact Nat.zero_le _
    | true => rw [hwaiting j hw]
  unfold entered at hle ⊢
  rw [hpassed i, hpassed j]
  omega

/-- A caller returns once all have entered. -/
theorem Meets.leave (h : Meets part passed waiting) (hwaiting : waiting i = true)
    (hall : ∀ j, part j → entered passed waiting i ≤ entered passed waiting j)
    (hi : passed' i = passed i + 1) (hi' : waiting' i = false)
    (hother : ∀ j, j ≠ i → passed' j = passed j ∧ waiting' j = waiting j) :
    Meets part passed' waiting' := by
  intro j k hj hk
  rw [entered_leave hwaiting hi hi' hother]
  by_cases hji : j = i
  · subst hji
    have hle := hall k hk
    simp only [entered, hwaiting, Bool.toNat_true] at hle
    rw [hi]
    exact hle
  · rw [(hother j hji).1]
    exact h j k hj hk

/-! ### The barrier as a machine -/

/-- The calls that each caller has returned from, and whether it is in one. -/
@[ext] structure Calls (ι : Type) where
  passed : ι → Nat
  waiting : ι → Bool

namespace Calls

variable [DecidableEq ι] {s s' : Calls ι}

/-- Nobody has called. -/
def start : Calls ι := ⟨fun _ => 0, fun _ => false⟩

def enter (s : Calls ι) (i : ι) : Calls ι := { s with waiting := Function.update s.waiting i true }

def leave (s : Calls ι) (i : ι) : Calls ι :=
  ⟨Function.update s.passed i (s.passed i + 1), Function.update s.waiting i false⟩

theorem passed_leave (s : Calls ι) (i : ι) : (s.leave i).passed i = s.passed i + 1 :=
  Function.update_self ..

theorem leave_other {i j : ι} (hj : j ≠ i) :
    (s.leave i).passed j = s.passed j ∧ (s.leave i).waiting j = s.waiting j :=
  ⟨Function.update_of_ne hj .., Function.update_of_ne hj ..⟩

theorem entered_leave {i : ι} (hw : s.waiting i = true) (j : ι) :
    entered (s.leave i).passed (s.leave i).waiting j = entered s.passed s.waiting j :=
  Lib.entered_leave hw (passed_leave s i) (Function.update_self ..) (fun _ => leave_other) j

/-- A caller enters a call, or returns from one that all callers have entered. -/
inductive Step (part : ι → Prop) : Calls ι → Calls ι → Prop
  | enter {s : Calls ι} (i : ι) (hi : part i) (hin : s.waiting i = false) : Step part s (s.enter i)
  | leave {s : Calls ι} (i : ι) (hi : part i) (hw : s.waiting i = true)
      (hall : ∀ j, part j → entered s.passed s.waiting i ≤ entered s.passed s.waiting j) :
      Step part s (s.leave i)

end Calls

/-! ### Rounds -/

/-- The segments of round `k`: the counter is set to zero in segment `reset k`, added to in
segment `count k` and read in the segments between that one and `reset (k + 1)`. -/
structure Timetable where
  base : Nat
  period : Nat
  lag : Nat
  base_pos : 0 < base
  lag_gt : 1 < lag
  lag_lt : lag + 1 < period

namespace Timetable

variable (T : Timetable)

def reset (k : Nat) : Nat := T.base + T.period * k

def count (k : Nat) : Nat := T.reset k + T.lag

variable {T} {k l : Nat}

theorem reset_pos : 0 < T.reset k := Nat.lt_of_lt_of_le T.base_pos (Nat.le_add_right _ _)

theorem reset_succ : T.reset (k + 1) = T.reset k + T.period := by
  rw [reset, reset, Nat.mul_succ, Nat.add_assoc]

theorem reset_add_period_le (h : k < l) : T.reset k + T.period ≤ T.reset l := by
  have hmul : T.period * (k + 1) ≤ T.period * l := Nat.mul_le_mul_left _ h
  rw [Nat.mul_succ] at hmul
  unfold reset
  omega

/-- A segment of round `k` lies in round `l` only if the rounds are the same. -/
theorem eq_of_between {r : Nat} (hr : r < T.period) (hlt : T.reset l < T.reset k + r)
    (hle : T.reset k + r < T.reset (l + 1)) : l = k ∧ 0 < r := by
  rw [reset_succ] at hle
  rcases Nat.lt_trichotomy k l with hkl | rfl | hkl
  · have := reset_add_period_le (T := T) hkl
    omega
  · exact ⟨rfl, by omega⟩
  · have := reset_add_period_le (T := T) hkl
    omega

end Timetable

/-- A caller that is not in a call, and another one in a round `l`, while the first is in
segment `n`. -/
theorem Meets.round_of_inside {T : Timetable} {n l : Nat} (hmeets : Meets part passed waiting)
    (hi : part i) (hj : part j) (hin : waiting i = false) (hn : passed i = n)
    (hlt : T.reset l < passed j) (hle : entered passed waiting j < T.reset (l + 1)) :
    T.reset l < n ∧ n < T.reset (l + 1) := by
  have hij := hmeets i j hi hj
  have hji := hmeets j i hj hi
  simp only [entered, hin, Bool.toNat_false, Nat.add_zero] at hji
  rw [hn] at hij hji
  exact ⟨Nat.lt_of_lt_of_le hlt hji, Nat.lt_of_le_of_lt hij hle⟩

/-! ### A counter that is used in rounds -/

/-- The member has added its one in round `k`, or will not any more. -/
def counted (T : Timetable) (passed : ι → Nat) (done : ι → Bool) (k : Nat) (i : ι) : Bool :=
  decide (T.count k < passed i) || (decide (passed i = T.count k) && done i)

/-- A member that returns with its part done is as counted as before. -/
theorem counted_leave {T : Timetable} {done done' : ι → Bool} {k : Nat}
    (hdone : passed i = T.count k → done i = true)
    (hpassed : passed' i = passed i + 1) (hidone : done' i = false) :
    counted T passed' done' k i = counted T passed done k i := by
  unfold counted
  rw [hpassed, hidone]
  rcases Nat.lt_trichotomy (passed i) (T.count k) with hlt | heq | hlt
  · simp [Nat.not_lt.mpr (Nat.succ_le_of_lt hlt), Nat.not_lt.mpr hlt.le, hlt.ne]
  · simp [heq, hdone heq]
  · simp [hlt, Nat.lt_succ_of_lt hlt]

/-- What the counter holds: zero from the first reset of a round on, and then, until the
callers enter the call before the next resets, the number of flagged members that have added
their one. `done i` is whether `i` has done its part in the segment it is in, and `live i`
whether it still takes part. -/
structure Gathered [Fintype ι] (T : Timetable) (member : ι → Bool) (flagged : ι → Nat → Bool)
    (passed : ι → Nat) (waiting done live : ι → Bool) (val : Nat) : Prop where
  clear : ∀ i k, member i = true → live i = true → passed i = T.reset k → done i = true → val = 0
  total : ∀ i k, live i = true → T.reset k < passed i →
    entered passed waiting i < T.reset (k + 1) → (∃ m, member m = true) →
    val = tally (fun j => member j && flagged j k && counted T passed done k j)

namespace Gathered

variable [Fintype ι] {T : Timetable} {member : ι → Bool} {flagged : ι → Nat → Bool}
  {done done' live live' : ι → Bool} {val val' : Nat}

/-- Nobody is in a round. -/
theorem of_idle (h : ∀ i, live i = true → passed i = 0) :
    Gathered T member flagged passed waiting done live val where
  clear := by
    intro i k _ hlive hreset _
    have hpos := Timetable.reset_pos (T := T) (k := k)
    rw [← hreset, h i hlive] at hpos
    cases hpos
  total := by
    intro i k hlive hlt _ _
    rw [h i hlive] at hlt
    cases hlt

/-- A step that has no part in the counter. -/
theorem mono (h : Gathered T member flagged passed waiting done live val)
    (hpassed : ∀ i, passed' i = passed i)
    (hwaiting : ∀ i, waiting i = true → waiting' i = true)
    (hlive : ∀ i, live' i = true → live i = true ∨ passed i = 0)
    (hdone : ∀ i, done' i = done i) :
    Gathered T member flagged passed' waiting' done' live' val where
  clear := by
    intro i k hm hl hreset hd
    rw [hpassed] at hreset
    rcases hlive i hl with hl | hzero
    · exact h.clear i k hm hl hreset (hdone i ▸ hd)
    · have hpos := Timetable.reset_pos (T := T) (k := k)
      rw [← hreset, hzero] at hpos
      cases hpos
  total := by
    intro i k hl hlt hle hm
    rw [hpassed] at hlt
    rcases hlive i hl with hl | hzero
    · have hmono : (waiting i).toNat ≤ (waiting' i).toNat := by
        cases hw : waiting i with
        | false => exact Nat.zero_le _
        | true => rw [hwaiting i hw]
      have hle' : entered passed waiting i < T.reset (k + 1) := by
        unfold entered at hle ⊢
        rw [hpassed] at hle
        omega
      rw [h.total i k hl hlt hle' hm]
      congr 1
      funext j
      rw [counted, counted, hpassed j, hdone j]
    · rw [hzero] at hlt
      cases hlt

/-- A member sets the counter to zero. -/
theorem reset {k : Nat} (hmeets : Meets part passed waiting) (hpart : ∀ i, part i)
    (hin : waiting i = false) (hreset : passed i = T.reset k) :
    Gathered T member flagged passed waiting done live 0 where
  clear := fun _ _ _ _ _ _ => rfl
  total := by
    -- Nobody is further in a round than the segment of the resets.
    intro j l _ hlt hle _
    obtain ⟨hlt', hle'⟩ := hmeets.round_of_inside (hpart i) (hpart j) hin hreset hlt hle
    have hlag := T.lag_lt
    exact absurd (Timetable.eq_of_between (r := 0) (by omega) hlt' hle').2 (Nat.lt_irrefl 0)

/-- A flagged member adds its one. -/
theorem add [DecidableEq ι] {k : Nat} (hmeets : Meets part passed waiting) (hpart : ∀ i, part i)
    (h : Gathered T member flagged passed waiting done live val)
    (hin : waiting i = false) (hcount : passed i = T.count k) (hmember : member i = true)
    (hflag : flagged i k = true) (hnot : done i = false) (hi : done' i = true)
    (hother : ∀ j, j ≠ i → done' j = done j) :
    Gathered T member flagged passed waiting done' live (val + 1) where
  clear := by
    intro j l _ _ hreset _
    have hij := hmeets i j (hpart i) (hpart j)
    have hji := hmeets j i (hpart j) (hpart i)
    simp only [entered, hin, Bool.toNat_false, Nat.add_zero] at hji
    have hone : (waiting j).toNat ≤ 1 := Bool.toNat_le _
    have hlag := T.lag_lt
    have hlag' := T.lag_gt
    unfold entered at hij
    rw [hcount, hreset] at hij hji
    unfold Timetable.count at hij hji
    rcases Nat.lt_trichotomy k l with hkl | rfl | hkl
    · have := Timetable.reset_add_period_le (T := T) hkl
      omega
    · omega
    · have := Timetable.reset_add_period_le (T := T) hkl
      omega
  total := by
    intro j l hl hlt hle hm
    -- Everybody in a round is in this one.
    have hkl : l = k := by
      obtain ⟨hlt', hle'⟩ := hmeets.round_of_inside (hpart i) (hpart j) hin hcount hlt hle
      have hlag := T.lag_lt
      exact (Timetable.eq_of_between (by omega) hlt' hle').1
    subst hkl
    rw [h.total j l hl hlt hle hm]
    symm
    refine tally_join i ?_ ?_ ?_
    · simp [counted, hcount, hnot]
    · simp [counted, hcount, hi, hmember, hflag]
    · intro m hm
      simp [counted, hother m hm]

/-- The counter when a caller returns from the call behind the resets: whether or not it is
the first to do so, every member has set the counter to zero. -/
theorem total_of_resets {k : Nat} (hmeets : Meets part passed waiting) (hpart : ∀ i, part i)
    (h : Gathered T member flagged passed waiting done live val)
    (hwaiting : waiting i = true) (hreset : passed i = T.reset k)
    (hall : ∀ j, entered passed waiting i ≤ entered passed waiting j)
    (hmid : ∀ j, passed j = T.reset k + 1 → live j = true)
    (hcleared : ∀ j, member j = true → waiting j = true → passed j = T.reset k →
      done j = true ∧ live j = true) (hm : ∃ m, member m = true) :
    val = tally (fun j => member j && flagged j k && counted T passed done k j) := by
  obtain ⟨m, hmem⟩ := hm
  have henter : entered passed waiting i = T.reset k + 1 := by
    simp [entered, hwaiting, hreset]
  have hle : ∀ x, passed x ≤ T.reset k + 1 := fun x => henter ▸ hmeets x i (hpart x) (hpart i)
  have hmi := hall m
  rw [henter] at hmi
  have hlag := T.lag_gt
  by_cases hpm : passed m = T.reset k + 1
  · refine h.total m k (hmid m hpm) (by omega) ?_ ⟨m, hmem⟩
    have hone : (waiting m).toNat ≤ 1 := Bool.toNat_le _
    have hlag' := T.lag_lt
    rw [Timetable.reset_succ]
    unfold entered
    omega
  · have hpm' : passed m ≤ T.reset k := by
      have := hle m
      omega
    obtain ⟨hwm, hrm⟩ := waiting_of_lt_entered hmi hpm'
    obtain ⟨hdm, hlm⟩ := hcleared m hmem hwm hrm
    rw [h.clear m k hmem hlm hrm hdm]
    symm
    -- Nobody has come as far as the segment in which one is added.
    refine tally_eq_zero.mpr ?_
    intro x
    have hlt : passed x < T.count k := by
      have := hle x
      unfold Timetable.count
      omega
    simp [counted, Nat.not_lt.mpr hlt.le, hlt.ne]

/-- A caller returns from a call. The members that wait have done their part. -/
theorem leave (hmeets : Meets part passed waiting) (hpart : ∀ i, part i)
    (h : Gathered T member flagged passed waiting done live val)
    (hwaiting : waiting i = true)
    (hall : ∀ j, entered passed waiting i ≤ entered passed waiting j)
    (hlive : ∀ j, live' j = live j) (hmid : ∀ j k, passed j = T.reset k + 1 → live j = true)
    (hcleared : ∀ j k, member j = true → waiting j = true → passed j = T.reset k →
      done j = true ∧ live j = true)
    (hadded : ∀ j k, member j = true → flagged j k = true → waiting j = true →
      passed j = T.count k → done j = true)
    (hpassed : passed' i = passed i + 1) (hiw : waiting' i = false) (hidone : done' i = false)
    (hother : ∀ j, j ≠ i → passed' j = passed j ∧ waiting' j = waiting j ∧ done' j = done j) :
    Gathered T member flagged passed' waiting' done' live' val := by
  have htally : ∀ k, (fun j => member j && flagged j k && counted T passed' done' k j)
      = fun j => member j && flagged j k && counted T passed done k j := by
    intro k
    funext j
    cases hm : member j with
    | false => rfl
    | true =>
    cases hf : flagged j k with
    | false => rfl
    | true =>
    by_cases hj : j = i
    · subst hj
      rw [counted_leave (hadded j k hm hf hwaiting) hpassed hidone]
    · unfold counted
      rw [(hother j hj).1, (hother j hj).2.2]
  exact {
    clear := by
      intro j k hm hl hreset hd
      rw [hlive] at hl
      by_cases hj : j = i
      · subst hj
        rw [hidone] at hd
        cases hd
      · rw [(hother j hj).1] at hreset
        rw [(hother j hj).2.2] at hd
        exact h.clear j k hm hl hreset hd
    total := by
      intro j k hl hlt hle hm
      rw [hlive] at hl
      rw [entered_leave hwaiting hpassed hiw
        (fun x hx => ⟨(hother x hx).1, (hother x hx).2.1⟩)] at hle
      rw [htally]
      by_cases hj : j = i
      · subst hj
        rw [hpassed] at hlt
        rcases Nat.lt_succ_iff_lt_or_eq.mp hlt with hlt | heq
        · exact h.total j k hl hlt hle hm
        · exact h.total_of_resets hmeets hpart hwaiting heq.symm hall (fun x => hmid x k)
            (fun x => hcleared x k) hm
      · rw [(hother j hj).1] at hlt
        exact h.total j k hl hlt hle hm }

/-- **What is read**: with every flagged member through with its part, the counter is the
number of the flagged members. -/
theorem val_eq {k : Nat} (hmeets : Meets part passed waiting) (hpart : ∀ i, part i)
    (h : Gathered T member flagged passed waiting done live val) (hlive : live i = true)
    (hin : waiting i = false) (hafter : T.count k < passed i) (hbefore : passed i < T.reset (k + 1))
    (hadded : ∀ j, member j = true → flagged j k = true → waiting j = true →
      passed j = T.count k → done j = true)
    (hm : ∃ m, member m = true) : val = tally (fun j => member j && flagged j k) := by
  have hcount : T.reset k ≤ T.count k := Nat.le_add_right _ _
  rw [h.total i k hlive (Nat.lt_of_le_of_lt hcount hafter) (by simpa [entered, hin] using hbefore)
    hm]
  congr 1
  funext j
  have hij := hmeets i j (hpart i) (hpart j)
  cases hmj : member j with
  | false => rfl
  | true =>
  cases hfj : flagged j k with
  | false => rfl
  | true =>
  suffices hcounted : counted T passed done k j = true by rw [hcounted, Bool.and_true]
  unfold counted
  by_cases hlt : T.count k < passed j
  · simp [hlt]
  · obtain ⟨hwj, heq⟩ := waiting_of_lt_entered (Nat.lt_of_lt_of_le hafter hij) (Nat.not_lt.mp hlt)
    simp [heq, hadded j hmj hfj hwj heq]

end Gathered

end Lib
