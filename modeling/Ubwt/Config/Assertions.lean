import Ubwt.Config.Options

/-!
# Ubwt.Config.Assertions

**Do the checks a user sees imply the assertions?** `usage_check_optarg` and
`_config_consistency` report bad values as errors; the assertions of
`_config_cmdopt_process` and `_config_sanity` are meant never to fail after them.

The question is put by comparing a run with the same run of a build without
assertions (`Env.release`): `AssertsIff P x y` says that the run `x` is the run `y` if
`P` holds, and ends in a failed assertion if not. The answer, `configInit_noAssertion`, is
the exact set of accepted command lines on which no assertion fails.
-/

namespace Ubwt

open Lib.Posix

variable {α β : Type} {env : Env}

/-! ### Comparing a run with the run without assertions -/

/-- The same build with `NDEBUG`. -/
def Env.release (env : Env) : Env := { env with ndebug := true }

/-- The run does not end in a failed assertion. -/
def NoAssertion (y : Except Halt α) : Prop := ∀ expr, y ≠ .error (.assertion expr)

theorem noAssertion_ok (a : α) : NoAssertion (.ok a) := fun _ h => by cases h

theorem NoAssertion.bind {x : Except Halt α} {f : α → Except Halt β} (hx : NoAssertion x)
    (hf : ∀ a, x = .ok a → NoAssertion (f a)) : NoAssertion (x >>= f) := by
  intro expr h
  cases x with
  | error e => exact hx expr (by cases h; rfl)
  | ok a => exact hf a rfl expr h

/-- `x` is a run and `y` the same run without its assertions; no assertion of `x` fails
exactly when `P` holds. -/
structure AssertsIff (P : Prop) (x y : Except Halt α) : Prop where
  same : P → x = y
  fails : ¬ P → ∃ expr, x = .error (.assertion expr)
  release : NoAssertion y

theorem AssertsIff.refl {x : Except Halt α} (h : NoAssertion x) : AssertsIff True x x :=
  ⟨fun _ => rfl, fun h => absurd trivial h, h⟩

theorem AssertsIff.congr {P Q : Prop} {x y : Except Halt α} (h : AssertsIff P x y) (hpq : P ↔ Q) :
    AssertsIff Q x y :=
  ⟨fun q => h.same (hpq.mpr q), fun nq => h.fails (fun p => nq (hpq.mp p)), h.release⟩

/-- Sequencing: the second part counts only where the first one returns. -/
theorem AssertsIff.bind {P : Prop} {Q : α → Prop} {x y : Except Halt α}
    {f g : α → Except Halt β} (h : AssertsIff P x y)
    (hk : ∀ a, y = .ok a → AssertsIff (Q a) (f a) (g a)) :
    AssertsIff (P ∧ ∀ a, y = .ok a → Q a) (x >>= f) (y >>= g) := by
  refine ⟨?_, ?_, h.release.bind (fun a ha => (hk a ha).release)⟩
  · intro ⟨hp, hq⟩
    rw [h.same hp]
    cases y with
    | error e => rfl
    | ok a => exact (hk a rfl).same (hq a rfl)
  · intro hn
    by_cases hp : P
    · rw [h.same hp]
      cases y with
      | error e => exact absurd ⟨hp, by intro a ha; cases ha⟩ hn
      | ok a =>
          refine (hk a rfl).fails (fun hqa => hn ⟨hp, ?_⟩)
          intro b hb
          cases hb
          exact hqa
    · obtain ⟨expr, hx⟩ := h.fails hp
      exact ⟨expr, by rw [hx]; rfl⟩

theorem AssertsIff.noAssertion_iff {P : Prop} {x y : Except Halt α} (h : AssertsIff P x y) :
    NoAssertion x ↔ P := by
  constructor
  · intro hx
    by_contra hp
    obtain ⟨expr, hxe⟩ := h.fails hp
    exact hx expr hxe
  · intro hp
    rw [h.same hp]
    exact h.release

@[simp] theorem cAssert_release (cond : Bool) (expr : String) :
    cAssert env.release cond expr = .ok () := by
  simp [cAssert, Env.release]

theorem cAssert_assertsIff (hd : env.ndebug = false) (cond : Bool) (expr : String) :
    AssertsIff (cond = true) (cAssert env cond expr) (cAssert env.release cond expr) := by
  rw [cAssert_release]
  cases cond with
  | true => exact ⟨fun _ => by simp, fun h => absurd rfl h, noAssertion_ok _⟩
  | false =>
      exact ⟨fun h => Bool.noConfusion h, fun _ => ⟨expr, by simp [cAssert, hd]⟩, noAssertion_ok _⟩

theorem cAsserts_assertsIff (hd : env.ndebug = false) (l : List (Bool × String)) :
    AssertsIff (∀ a ∈ l, a.1 = true) (cAsserts env l) (cAsserts env.release l) := by
  induction l with
  | nil => exact (AssertsIff.refl (noAssertion_ok _)).congr (by simp)
  | cons a l ih =>
      obtain ⟨cond, expr⟩ := a
      refine ((cAssert_assertsIff hd cond expr).bind (fun _ _ => ih)).congr ?_
      simp

/-! ### One option -/

/-- The invariant is about files, not about assertions. -/
theorem OptInv.release {cfg : Config} (h : OptInv env cfg) : OptInv env.release cfg := { h with }

theorem OptInv.ofRelease {cfg : Config} (h : OptInv env.release cfg) : OptInv env cfg := { h with }

theorem OptAccepted.release {cfg : Config} {optarg : CString} {opt : Opt}
    (h : OptAccepted env cfg optarg opt) : OptAccepted env.release cfg optarg opt := by
  cases opt <;> exact h

/-- The options after which nothing is processed. -/
def Opt.exits : Opt → Bool
  | .h | .v => true
  | _ => false

theorem debugUpdate_eq_ok {cfg : Config}
    (h : ∀ file, cfg.debugFile = some file → DebugAccepted env file) :
    debugUpdate env cfg = .ok () := by
  unfold debugUpdate
  split
  · rename_i file _ hfile
    rcases h file hfile with rfl | rfl | hopen
    · rfl
    · rfl
    · rw [if_pos hopen]
      split <;> rfl
  · rfl

/-- The one assertion of the `switch` that the check of its option does not imply. -/
def streamRunInRange (o : Opt × CString) : Prop := o.1 = .T → atoi o.2 < 20

/-- An assertion that holds changes nothing. -/
theorem cAssert_bind_assertsIff {cond : Bool} {expr : String} {k : Unit → Except Halt α}
    (h : cond = true) (hk : NoAssertion (k ())) :
    AssertsIff True (cAssert env cond expr >>= k) (cAssert env.release cond expr >>= k) := by
  rw [h, cAssert_true, cAssert_true]
  exact AssertsIff.refl hk

theorem noAssertion_debugUpdate {cfg : Config} : NoAssertion (debugUpdate env cfg) := by
  intro expr h
  unfold debugUpdate at h
  split at h
  · split at h
    · cases h
    · split at h <;> cases h
  · cases h

/-- With and without assertions, an accepted option does the same, but for the bound
of `-T`. -/
theorem cmdoptCase_assertsIff {cfg : Config} {optarg : CString} {opt : Opt}
    (hd : env.ndebug = false) (hacc : OptAccepted env cfg optarg opt) :
    AssertsIff (streamRunInRange (opt, optarg)) (cmdoptCase env cfg optarg opt)
      (cmdoptCase env.release cfg optarg opt) := by
  have hupdate : ∀ c : Config, NoAssertion (debugUpdate env c >>= fun _ => pure c) :=
    fun c => noAssertion_debugUpdate.bind (fun _ _ => noAssertion_ok c)
  cases opt
  all_goals simp only [cmdoptCase, streamRunInRange, reduceCtorEq, false_imp_iff]
  case T =>
    refine ((cAssert_assertsIff hd _ _).bind fun _ _ =>
      AssertsIff.refl (noAssertion_ok _)).congr ?_
    have h20 : ((configNetTimeoutTalkStreamEnd.toNat : Nat) : Int) = 20 := rfl
    simp [h20, hacc.1]
  case A | b | F | P | R => exact AssertsIff.refl (noAssertion_ok _)
  case h | v | l => exact AssertsIff.refl (fun _ h => by cases h)
  case D => exact AssertsIff.refl (hupdate _)
  case p =>
    rcases hacc with rfl | rfl
    · exact cAssert_bind_assertsIff rfl (noAssertion_ok _)
    · exact cAssert_bind_assertsIff rfl (noAssertion_ok _)
  case d => exact cAssert_bind_assertsIff (decide_eq_true hacc.1) (hupdate _)
  case C | j | r => exact cAssert_bind_assertsIff (decide_eq_true hacc.1) (noAssertion_ok _)
  case W =>
    refine cAssert_bind_assertsIff ?_ (noAssertion_ok _)
    simpa using hacc.1
  case B | I | m | M | N | o | O | s | t | w =>
    refine cAssert_bind_assertsIff ?_ (noAssertion_ok _)
    rw [Bool.and_eq_true, decide_eq_true_iff, decide_eq_true_iff]
    exact hacc

/-! ### The option loop -/

/-- The options up to the first one that ends the program. -/
def processed (opts : List (Opt × CString)) : List (Opt × CString) :=
  opts.takeWhile (fun o => !o.1.exits)

/-- The run does not end in one of the two checks of the user's input. -/
def NotRejected (x : Except Halt α) : Prop :=
  ∀ type origin, x = .error (.error type origin) → type = .configArgv1Invalid

theorem NotRejected.of_bind {x : Except Halt α} {f : α → Except Halt β}
    (h : NotRejected (x >>= f)) : NotRejected x := by
  intro type origin hx
  exact h type origin (by rw [hx]; rfl)

/-- A check of the user's input: it passes, or it rejects. -/
def UserCheck (x : Except Halt Unit) : Prop :=
  x = .ok () ∨ ∃ type origin, x = .error (.error type origin) ∧ type ≠ .configArgv1Invalid

theorem UserCheck.eq_ok {x : Except Halt Unit} (hx : UserCheck x) (hn : NotRejected x) :
    x = .ok () := by
  rcases hx with h | ⟨type, origin, h, hne⟩
  · exact h
  · exact absurd (hn type origin h) hne

theorem UserCheck.bind {x : Except Halt Unit} {f : Unit → Except Halt Unit} (hx : UserCheck x)
    (hf : UserCheck (f ())) : UserCheck (x >>= f) := by
  rcases hx with rfl | ⟨type, origin, rfl, hne⟩
  · exact hf
  · exact .inr ⟨type, origin, rfl, hne⟩

theorem userCheck_rejectIf {bad : Bool} {type : ErrorType} {origin : String}
    (h : type ≠ .configArgv1Invalid) : UserCheck (rejectIf bad type origin) := by
  cases bad with
  | false => exact .inl rfl
  | true => exact .inr ⟨type, origin, rfl, h⟩

theorem userCheck_rejectOptarg {bad : Bool} {what : String} : UserCheck (rejectOptarg bad what) :=
  userCheck_rejectIf (by decide)

theorem userCheck_checkFile {mode : FileMode} {optarg : CString} {empty unopened : String} :
    UserCheck (checkFile env mode optarg empty unopened) :=
  userCheck_rejectOptarg.bind userCheck_rejectOptarg

theorem userCheck_usageCheckOpt {cfg : Config} {optarg : CString} {opt : Opt} :
    UserCheck (usageCheckOpt env cfg optarg opt) := by
  cases opt
  case D | b | F | h | v => exact .inl rfl
  case A | p | W => exact userCheck_rejectOptarg.bind userCheck_rejectOptarg
  case C | j | r => exact userCheck_checkFile
  case d =>
    simp only [usageCheckOpt]
    split
    · exact .inl rfl
    · exact userCheck_checkFile
  case l => exact userCheck_rejectIf (by decide)
  all_goals exact userCheck_rejectOptarg

theorem userCheck_usageCheckOptarg {cfg : Config} {res : OptResult} :
    UserCheck (usageCheckOptarg env cfg res) := by
  cases res with
  | bad c => exact userCheck_rejectIf (by decide)
  | opt c optarg =>
      simp only [usageCheckOptarg]
      split
      · exact userCheck_usageCheckOpt
      · exact userCheck_rejectIf (by decide)

theorem userCheck_configConsistency {cfg : Config} : UserCheck (configConsistency cfg) := by
  have hr : ∀ {bad : Bool} {what : String}, UserCheck (rejectInconsistent bad what) :=
    userCheck_rejectIf (by decide)
  exact hr.bind (hr.bind (hr.bind (hr.bind (hr.bind hr))))

/-- `usage_check_optarg()` has no assertions. -/
theorem usageCheckOptarg_release {cfg : Config} {res : OptResult} :
    usageCheckOptarg env.release cfg res = usageCheckOptarg env cfg res := by
  cases res with
  | bad c => rfl
  | opt c optarg =>
      cases hc : Opt.ofChar c with
      | none => simp [usageCheckOptarg, hc]
      | some opt =>
          simp only [usageCheckOptarg, hc]
          cases opt <;> rfl

/-- Without assertions an accepted option returns, or it ends the program. -/
theorem cmdoptCase_release {cfg : Config} {optarg : CString} {opt : Opt} (hi : OptInv env cfg)
    (hacc : OptAccepted env cfg optarg opt) :
    (opt.exits = true ∧ cmdoptCase env.release cfg optarg opt = .error (.exit true)) ∨
      (opt.exits = false ∧ ∃ cfg', cmdoptCase env.release cfg optarg opt = .ok cfg') := by
  cases opt
  case h | v => exact .inl ⟨rfl, rfl⟩
  case l => exact absurd hacc id
  case d =>
    refine .inr ⟨rfl, ?_⟩
    have hup : debugUpdate env.release
        { cfg with debugFile := some optarg, debug := true } = .ok () :=
      debugUpdate_eq_ok (by intro file h; cases h; exact hacc.2)
    simp only [cmdoptCase, cAssert_release, except_unit_bind_eq_ok, hup, pure, Except.pure]
    simp
  case D =>
    refine .inr ⟨rfl, ?_⟩
    have hup : debugUpdate env.release { cfg with debug := true } = .ok () :=
      debugUpdate_eq_ok hi.debugFile
    simp only [cmdoptCase, except_unit_bind_eq_ok, hup, pure, Except.pure]
    simp
  case p =>
    refine .inr ⟨rfl, ?_⟩
    rcases hacc with rfl | rfl
    · exact ⟨_, rfl⟩
    · exact ⟨_, rfl⟩
  all_goals exact .inr ⟨rfl, _, rfl⟩

/-- One turn of a loop that is not rejected: an accepted option that ends the program,
or one that returns and leaves the rest of the loop to run. -/
theorem cmdoptLoop_cons {res : OptResult} {results : List OptResult} {cfg : Config}
    (hi : OptInv env cfg) (hn : NotRejected (cmdoptLoop env.release (res :: results) cfg)) :
    ∃ opt optarg, optOf res = some (opt, optarg) ∧ OptAccepted env cfg optarg opt ∧
      ((opt.exits = true ∧ cmdoptCase env.release cfg optarg opt = .error (.exit true)) ∨
        (opt.exits = false ∧ ∃ cfg', cmdoptCase env.release cfg optarg opt = .ok cfg' ∧
          OptInv env cfg' ∧ NotRejected (cmdoptLoop env.release results cfg'))) := by
  have hcheck := userCheck_usageCheckOptarg.eq_ok hn.of_bind
  obtain ⟨opt, optarg, hopt, hacc⟩ := usageCheckOptarg_eq_ok.mp hcheck
  refine ⟨opt, optarg, hopt, hacc, ?_⟩
  rcases cmdoptCase_release hi hacc with h | ⟨hex, cfg', hcase⟩
  · exact .inl h
  · have hi' : OptInv env cfg' := by
      rw [cmdoptCase_eq_ok hacc.release hcase]
      exact cmdoptEffect_inv hi hacc
    refine .inr ⟨hex, cfg', hcase, hi', ?_⟩
    have hrun : cmdoptLoop env.release (res :: results) cfg
        = cmdoptLoop env.release results cfg' := by
      rw [cmdoptLoop, hcheck, cmdoptSwitch_eq hopt, hcase]
      rfl
    rwa [hrun] at hn

/-- **The option loop**, with and without assertions. -/
theorem cmdoptLoop_assertsIff (hd : env.ndebug = false) (results : List OptResult) {cfg : Config}
    (hi : OptInv env cfg) (hn : NotRejected (cmdoptLoop env.release results cfg)) :
    AssertsIff (∀ o ∈ processed (cmdoptOpts results), streamRunInRange o)
      (cmdoptLoop env results cfg) (cmdoptLoop env.release results cfg) := by
  induction results generalizing cfg with
  | nil => exact (AssertsIff.refl (noAssertion_ok _)).congr (by simp [cmdoptOpts, processed])
  | cons res results ih =>
      obtain ⟨opt, optarg, hopt, hacc, hcase⟩ := cmdoptLoop_cons hi hn
      have hcheck : usageCheckOptarg env cfg res = .ok () :=
        usageCheckOptarg_eq_ok.mpr ⟨opt, optarg, hopt, hacc⟩
      have hopts : cmdoptOpts (res :: results) = (opt, optarg) :: cmdoptOpts results := by
        simp [cmdoptOpts, hopt]
      rw [hopts, cmdoptLoop, cmdoptLoop, usageCheckOptarg_release, hcheck, cmdoptSwitch_eq hopt,
        cmdoptSwitch_eq hopt]
      have hstep := cmdoptCase_assertsIff hd hacc
      rcases hcase with ⟨hex, hexit⟩ | ⟨hex, cfg', hok, hi', hn'⟩
      · -- The options that follow are not read.
        refine (hstep.bind (Q := fun _ => True) (fun a ha => ?_)).congr ?_
        · rw [hexit] at ha
          cases ha
        · have hrange : streamRunInRange (opt, optarg) := by
            rintro rfl
            cases hex
          simp [processed, hex, hrange]
      · refine (hstep.bind (Q := fun _ => ∀ o ∈ processed (cmdoptOpts results),
          streamRunInRange o) (fun a ha => ?_)).congr ?_
        · rw [hok] at ha
          cases ha
          exact ih hi' hn'
        · simp [processed, hex, hok]

/-! ### _config_sanity -/

/-- The assertions of `_config_sanity()` that neither check implies. -/
theorem sanityAsserts_iff {cfg : Config} (hi : OptInv env cfg)
    (hc : configConsistency (configWorkers cfg) = .ok ()) :
    (∀ a ∈ sanityAsserts (configWorkers cfg), a.1 = true) ↔
      cfg.port.length ≤ 5 ∧ cfg.talkPayloadDefaultSize.toNat ≤ 8192 ∧
        (cfg.netL4ProtoValue = .udp → cfg.asynchronous = false ∧ cfg.workerCount = 1) := by
  obtain ⟨w, ws, wr, heq, hw, heven, hsync⟩ := configWorkers_eq hi
  rw [heq] at hc ⊢
  simp only [configConsistency, rejectInconsistent, except_unit_bind_eq_ok, rejectIf_eq_ok] at hc
  obtain ⟨h1, h2, h3, h4, h5, h6⟩ := hc
  simp only [sanityAsserts, List.forall_mem_cons, List.not_mem_nil, false_imp_iff, implies_true,
    and_true, Bool.and_eq_true, Bool.or_eq_true, decide_eq_true_eq, decide_eq_false_iff_not,
    bne_iff_ne, beq_iff_eq, Bool.not_eq_true', ge_iff_le, gt_iff_lt, UInt16.lt_iff_toNat_lt,
    UInt16.le_iff_toNat_le, UInt32.lt_iff_toNat_lt, UInt32.le_iff_toNat_le, not_le]
      at h1 h2 h3 h4 h5 h6 ⊢
  have hmax : cfg.talkPayloadMaxSize.toNat = 8192 := by rw [hi.sizes.2]; rfl
  have hcur : cfg.talkPayloadCurrentSize.toNat = 1432 := by rw [hi.sizes.1]; rfl
  have hmin : configTalkPayloadMinSize.toNat = 508 := rfl
  obtain ⟨hcc, hcd, hcm⟩ := hi.counts
  constructor
  · rintro ⟨⟨⟨hport, -⟩, -⟩, -, -, -, -, -, -, -, -, -, -, -, -, -, -, -, -, -, -, hsize, -, -, -, -, -,
      hasync, hone⟩
    refine ⟨hport, hmax ▸ hsize, fun hudp => ?_⟩
    have hno := hasync.resolve_left (fun h => h hudp)
    exact ⟨hno, hsync hno ▸ hone.resolve_left (fun h => h hudp)⟩
  · rintro ⟨hport, hsize, hudp⟩
    -- A port that was not cut is the argument that was checked.
    obtain ⟨arg, harg, hlo, hhi⟩ := hi.port
    have hcut : arg.take 7 = arg := by
      apply List.take_of_length_le
      rw [harg, strncpyTo, List.length_take] at hport
      simp only [configPortSize] at hport
      omega
    have hportEq : cfg.port = arg := harg.trans hcut
    refine ⟨⟨⟨hport, by rw [hportEq]; exact hlo⟩, by rw [hportEq]; exact hhi⟩, hi.mtu,
      ⟨hi.timeout, Nat.le_of_lt_succ (UInt16.toNat_lt _)⟩, ⟨hi.streamEnd, h2⟩, ⟨hi.streamRun, h1⟩,
      hi.proto, ⟨hi.reverseDelay, h3⟩, hi.iter, by rw [hcc]; decide, by rw [hcd]; decide,
      by rw [hcm]; decide, ?_, by omega, hi.defaultSize, by omega, ?_, ?_, ?_, by omega, by omega,
      ?_, hi.minimumTime, hw, ?_, ?_, ?_, ?_⟩
    · exact hi.mul.imp (fun h => UInt32.toNat_inj.mp h) id
    · show 32 < _
      omega
    · have := hi.defaultSize
      show 32 < _
      omega
    · show 32 < _
      omega
    · by_cases h0 : cfg.netPayloadBufferSize = 0
      · exact .inl h0
      · simp only [bne_iff_ne, ne_eq, h0, not_false_eq_true, Bool.and_eq_false_imp,
          decide_eq_false_iff_not, not_lt, true_imp_iff] at h6
        exact .inr h6
    · by_cases ha : cfg.asynchronous = false
      · exact .inl ha
      · exact .inr (heven (by simpa using ha))
    · by_cases ha : cfg.asynchronous = false
      · exact .inl ha
      · exact .inr (hi.order (by simpa using ha))
    · by_cases hp : cfg.netL4ProtoValue = .udp
      · exact .inr (hudp hp).1
      · exact .inl hp
    · by_cases hp : cfg.netL4ProtoValue = .udp
      · exact .inr ((hsync (hudp hp).1).trans (hudp hp).2)
      · exact .inl hp

/-- The exact condition under which no assertion of an accepted command line fails,
read off its options and operands. -/
structure AssertionsHold (opts : List (Opt × CString)) (operands : List CString) : Prop where
  /-- No `-T` reaches the default of `-O`. -/
  streamRun : ∀ o ∈ processed opts, streamRunInRange o
  /-- Where the command line is read to its end, its address fits, its last `-P` has at
  most five characters, its last `-s` is not above the maximum, and UDP goes with one
  synchronous worker. -/
  finished : (∀ o ∈ opts, o.1.exits = false) → ∀ role addr, operands = [role, addr] →
    (role = "connector".toList ∨ role = "listener".toList) →
      addr.length < configAddrSize ∧
      (lastArg .P configPortDefault opts).length ≤ 5 ∧
      atoi (lastArg .s "1432".toList opts) ≤ 8192 ∧
      (lastArg .p configNetL4ProtoDefault opts = "udp".toList →
        (∀ o ∈ opts, o.1 ≠ .A) ∧ atoi (lastArg .W "1".toList opts) = 1)

/-- The condition on the finished configuration, read off the options. -/
theorem LoopFields.sane_iff {opts : List (Opt × CString)} {cfg : Config}
    (hf : LoopFields opts cfg) :
    (cfg.port.length ≤ 5 ∧ cfg.talkPayloadDefaultSize.toNat ≤ 8192 ∧
        (cfg.netL4ProtoValue = .udp → cfg.asynchronous = false ∧ cfg.workerCount = 1)) ↔
      ((lastArg .P configPortDefault opts).length ≤ 5 ∧
        atoi (lastArg .s "1432".toList opts) ≤ 8192 ∧
        (lastArg .p configNetL4ProtoDefault opts = "udp".toList →
          (∀ o ∈ opts, o.1 ≠ .A) ∧ atoi (lastArg .W "1".toList opts) = 1)) := by
  obtain ⟨hs0, hs1⟩ := hf.sizeRange
  obtain ⟨hw0, hw1⟩ := hf.workersRange
  have hport : cfg.port.length ≤ 5 ↔ (lastArg .P configPortDefault opts).length ≤ 5 := by
    rw [hf.port, strncpyTo, List.length_take, configPortSize]
    omega
  have hsize : cfg.talkPayloadDefaultSize.toNat ≤ 8192 ↔
      atoi (lastArg .s "1432".toList opts) ≤ 8192 := by
    rw [hf.size, toNat_uint16_ofInt (by omega) hs1]
    omega
  have hudp : cfg.netL4ProtoValue = .udp ↔
      lastArg .p configNetL4ProtoDefault opts = "udp".toList := by
    rw [hf.proto]
    by_cases h : lastArg .p configNetL4ProtoDefault opts = "udp".toList
    · rw [if_pos h]
      exact ⟨fun _ => h, fun _ => rfl⟩
    · rw [if_neg h]
      exact ⟨fun h' => (by cases h'), fun h' => absurd h' h⟩
  have hasync : cfg.asynchronous = false ↔ ∀ o ∈ opts, o.1 ≠ .A := by
    rw [hf.async, List.any_eq_false]
    simp
  have hone : cfg.workerCount = 1 ↔ atoi (lastArg .W "1".toList opts) = 1 := by
    rw [hf.workers, ← UInt32.toNat_inj, toNat_workerCount hw0 hw1]
    show _ = 1 ↔ _
    omega
  rw [hport, hsize, hudp, hasync, hone]

/-! ### config_init -/

theorem cmdoptOperands_assertsIff (hd : env.ndebug = false) (operands : List CString)
    (cfg : Config) :
    AssertsIff (∀ role addr, roleAddr operands role addr → addr.length < configAddrSize)
      (cmdoptOperands env operands cfg) (cmdoptOperands env.release operands cfg) := by
  by_cases h : ∃ role addr, roleAddr operands role addr
  · obtain ⟨role, addr, hra⟩ := h
    rw [cmdoptOperands_roleAddr hra, cmdoptOperands_roleAddr hra]
    refine ((cAssert_assertsIff hd _ _).bind fun _ _ =>
      AssertsIff.refl (noAssertion_ok _)).congr ?_
    obtain ⟨rfl, hrole⟩ := hra
    simp only [decide_eq_true_iff, implies_true, and_true]
    constructor
    · rintro hlen role' addr' ⟨heq, -⟩
      cases heq
      exact hlen
    · intro hall
      exact hall role addr ⟨rfl, hrole⟩
  · have hno : ∀ role addr, ¬ roleAddr operands role addr :=
        fun role addr hra => h ⟨role, addr, hra⟩
    obtain ⟨e, hclean, heq⟩ := cmdoptOperands_other hno cfg
    rw [heq, heq]
    refine (AssertsIff.refl (fun expr he => hclean expr (by cases he; rfl))).congr ?_
    simp [hno]

/-- A loop that is not rejected returns unless an option ends the program. -/
theorem cmdoptLoop_release {results : List OptResult} {cfg : Config} (hi : OptInv env cfg)
    (hn : NotRejected (cmdoptLoop env.release results cfg)) :
    (∃ cfg', cmdoptLoop env.release results cfg = .ok cfg') ↔
      ∀ o ∈ cmdoptOpts results, o.1.exits = false := by
  induction results generalizing cfg with
  | nil => simp [cmdoptLoop, cmdoptOpts]
  | cons res results ih =>
      obtain ⟨opt, optarg, hopt, hacc, hcase⟩ := cmdoptLoop_cons hi hn
      have hcheck : usageCheckOptarg env.release cfg res = .ok () :=
        usageCheckOptarg_eq_ok.mpr ⟨opt, optarg, hopt, hacc.release⟩
      have hopts : cmdoptOpts (res :: results) = (opt, optarg) :: cmdoptOpts results := by
        simp [cmdoptOpts, hopt]
      rw [hopts, List.forall_mem_cons, cmdoptLoop, hcheck, cmdoptSwitch_eq hopt]
      rcases hcase with ⟨hex, hexit⟩ | ⟨hex, cfg', hok, hi', hn'⟩
      · rw [hexit]
        simp [hex, bind, Except.bind]
      · rw [hok]
        simp only [hex, true_and]
        exact ih hi' hn'

/-- The tail of `config_init()`. -/
theorem configTail_assertsIff (hd : env.ndebug = false) {opts : List (Opt × CString)}
    {cfg : Config} (hi : OptInv env cfg) (hf : LoopFields opts cfg)
    (hc : configConsistency (configWorkers cfg) = .ok ()) :
    AssertsIff ((lastArg .P configPortDefault opts).length ≤ 5 ∧
        atoi (lastArg .s "1432".toList opts) ≤ 8192 ∧
        (lastArg .p configNetL4ProtoDefault opts = "udp".toList →
          (∀ o ∈ opts, o.1 ≠ .A) ∧ atoi (lastArg .W "1".toList opts) = 1))
      (do configConsistency (configWorkers cfg)
          configSanity env (configWorkers cfg)
          return configWorkers cfg)
      (do configConsistency (configWorkers cfg)
          configSanity env.release (configWorkers cfg)
          return configWorkers cfg) := by
  rw [hc, ← hf.sane_iff, ← sanityAsserts_iff hi hc]
  refine ((cAsserts_assertsIff hd _).bind fun _ _ => AssertsIff.refl (noAssertion_ok _)).congr ?_
  simp

/-- What is known of a configuration that reaches the tail of a run that is not
rejected. -/
theorem configTail_facts {results : List OptResult} {operands : List CString} {cfg cfg' : Config}
    (hn : NotRejected (cmdoptLoop env.release results configDefault >>= fun cfg =>
      cmdoptOperands env.release operands cfg >>= fun cfg => do
        configConsistency (configWorkers cfg)
        configSanity env.release (configWorkers cfg)
        return configWorkers cfg))
    (hok : cmdoptLoop env.release results configDefault = .ok cfg)
    (hok' : cmdoptOperands env.release operands cfg = .ok cfg') :
    OptInv env cfg' ∧ LoopFields (cmdoptOpts results) cfg' ∧
      configConsistency (configWorkers cfg') = .ok () ∧
      ∃ role addr, roleAddr operands role addr := by
  have hra : ∃ role addr, roleAddr operands role addr := by
    by_contra hno
    obtain ⟨e, -, heq⟩ := cmdoptOperands_other (fun r a h => hno ⟨r, a, h⟩) cfg
    rw [heq] at hok'
    cases hok'
  obtain ⟨role, addr, hra⟩ := hra
  have hcons : configConsistency (configWorkers cfg') = .ok () := by
    simp only [hok, hok', bind, Except.bind] at hn
    exact userCheck_configConsistency.eq_ok (NotRejected.of_bind hn)
  rw [cmdoptOperands_roleAddr hra, cAssert_release] at hok'
  cases hok'
  have hi : OptInv env cfg := (cmdoptLoop_inv optInv_default hok).ofRelease
  exact ⟨roleConfig_optInv _ _ hi, roleConfig_loopFields (cmdoptLoop_fields hok),
    hcons, role, addr, hra⟩

/-- **Which accepted command lines fail an assertion.** For every command line that
`usage_check_optarg` and `_config_consistency` let through, no assertion of
`config_init` fails if and only if `AssertionsHold`. -/
theorem configInit_noAssertion (env : Env) (hd : env.ndebug = false) (args : List CString)
    (hn : NotRejected (configInit env.release args)) :
    NoAssertion (configInit env args) ↔
      AssertionsHold (cmdoptOpts (getopt (cmdoptFlags env.debugBuild) none args).1)
        (getopt (cmdoptFlags env.debugBuild) none args).2 := by
  rw [configInit_eq] at hn ⊢
  have hflags : cmdoptFlags env.release.debugBuild = cmdoptFlags env.debugBuild := rfl
  rw [hflags] at hn
  generalize getopt (cmdoptFlags env.debugBuild) none args = res at hn ⊢
  obtain ⟨results, operands⟩ := res
  dsimp only at hn ⊢
  have hi : OptInv env configDefault := optInv_default
  have hret := cmdoptLoop_release hi hn.of_bind
  refine ((cmdoptLoop_assertsIff hd results hi hn.of_bind).bind fun cfg hok =>
    (cmdoptOperands_assertsIff hd operands cfg).bind fun cfg' hok' =>
      have hfacts := configTail_facts hn hok hok'
      configTail_assertsIff hd hfacts.1 hfacts.2.1 hfacts.2.2.1).noAssertion_iff.trans ?_
  constructor
  · rintro ⟨hrun, hrest⟩
    refine ⟨hrun, fun hex role addr hops hrole => ?_⟩
    obtain ⟨cfg, hok⟩ := hret.mpr hex
    obtain ⟨haddr, hsane⟩ := hrest cfg hok
    refine ⟨haddr role addr ⟨hops, hrole⟩,
      hsane { roleConfig env.release role cfg with addr := strncpyTo configAddrSize addr } ?_⟩
    rw [cmdoptOperands_roleAddr ⟨hops, hrole⟩, cAssert_release]
    rfl
  · rintro ⟨hrun, hfin⟩
    refine ⟨hrun, fun cfg hok => ⟨fun role addr hra => ?_, fun cfg' hok' => ?_⟩⟩
    · exact (hfin (hret.mp ⟨cfg, hok⟩) role addr hra.1 hra.2).1
    · obtain ⟨-, -, -, role, addr, hra⟩ := configTail_facts hn hok hok'
      exact (hfin (hret.mp ⟨cfg, hok⟩) role addr hra.1 hra.2).2

/-- The Linux build on a system where no file opens. -/
def noFiles : Env where
  debugBuild := false
  ndebug := false
  fopen := fun _ _ => false

/-- `ubwt -W 4 -t 10 connector 127.0.0.1` is accepted and fails no assertion. -/
theorem configInit_noAssertion_four_workers :
    NotRejected (configInit noFiles.release
      ["-W".toList, "4".toList, "-t".toList, "10".toList, "connector".toList, "127.0.0.1".toList]) ∧
    NoAssertion (configInit noFiles
      ["-W".toList, "4".toList, "-t".toList, "10".toList,
       "connector".toList, "127.0.0.1".toList]) := by
  have hn : NotRejected (configInit noFiles.release
      ["-W".toList, "4".toList, "-t".toList, "10".toList, "connector".toList,
        "127.0.0.1".toList]) := fun _ _ h => by cases h
  refine ⟨hn, (configInit_noAssertion noFiles rfl _ hn).mpr ⟨?_, ?_⟩⟩
  · intro o ho
    revert o
    unfold streamRunInRange
    decide
  · intro _ role addr hops _
    cases hops
    decide

/-- `ubwt -T 30 -O 40 connector 127.0.0.1` passes both checks, and its three timeouts are
in order, but it ends in a failed assertion. -/
theorem configInit_assertion_streamRun :
    NotRejected (configInit noFiles.release
      ["-T".toList, "30".toList, "-O".toList, "40".toList, "connector".toList,
        "127.0.0.1".toList]) ∧
    ¬ NoAssertion (configInit noFiles
      ["-T".toList, "30".toList, "-O".toList, "40".toList, "connector".toList,
        "127.0.0.1".toList]) :=
  ⟨fun _ _ h => (by cases h), fun h => h _ rfl⟩

/-! ### The time-out of a stream -/

/-- An option that passes its assertion keeps the time-out of a stream below 20 seconds. -/
theorem cmdoptEffect_streamRun {cfg : Config} {optarg : CString} {opt : Opt}
    (hacc : OptAccepted env cfg optarg opt) (hrange : streamRunInRange (opt, optarg))
    (hlt : cfg.netTimeoutTalkStreamRun.toNat < 20) :
    (cmdoptEffect cfg optarg opt).netTimeoutTalkStreamRun.toNat < 20 := by
  cases opt
  case T =>
    have h20 : atoi optarg < 20 := hrange rfl
    change (UInt16.ofInt (atoi optarg)).toNat < 20
    rw [toNat_uint16_ofInt hacc.1.le hacc.2]
    omega
  all_goals exact hlt

theorem cmdoptLoop_streamRun (hd : env.ndebug = false) {results : List OptResult}
    {cfg cfg' : Config} (hrun : cmdoptLoop env results cfg = .ok cfg')
    (hlt : cfg.netTimeoutTalkStreamRun.toNat < 20) : cfg'.netTimeoutTalkStreamRun.toNat < 20 := by
  induction results generalizing cfg with
  | nil =>
      cases hrun
      exact hlt
  | cons res results ih =>
      rw [cmdoptLoop, except_unit_bind_eq_ok, except_bind_eq_ok] at hrun
      obtain ⟨hcheck, cfg₁, hswitch, hrest⟩ := hrun
      obtain ⟨opt, optarg, hopt, hacc⟩ := usageCheckOptarg_eq_ok.mp hcheck
      rw [cmdoptSwitch_eq hopt] at hswitch
      have hrange : streamRunInRange (opt, optarg) := by
        refine (cmdoptCase_assertsIff hd hacc).noAssertion_iff.mp ?_
        rw [hswitch]
        exact noAssertion_ok cfg₁
      obtain rfl := cmdoptCase_eq_ok hacc hswitch
      exact ih hrest (cmdoptEffect_streamRun hacc hrange hlt)

/-- **The time-out of a stream is below 20 seconds**, if assertions are compiled in. -/
theorem configInit_streamRun (hd : env.ndebug = false) {args : List CString} {cfg : Config}
    (h : configInit env args = .ok cfg) : cfg.netTimeoutTalkStreamRun.toNat < 20 := by
  obtain ⟨cfg₀, role, addr, hloop, -, rfl⟩ := configInit_eq_ok h
  have hi := roleConfig_optInv role (strncpyTo configAddrSize addr)
    (cmdoptLoop_inv optInv_default hloop)
  obtain ⟨w, ws, wr, heq, -, -, -⟩ := configWorkers_eq hi
  have hrole : (roleConfig env role cfg₀).netTimeoutTalkStreamRun
      = cfg₀.netTimeoutTalkStreamRun := by
    unfold roleConfig
    split <;> split <;> rfl
  rw [heq]
  change (roleConfig env role cfg₀).netTimeoutTalkStreamRun.toNat < 20
  rw [hrole]
  exact cmdoptLoop_streamRun hd hloop (by decide)

end Ubwt
