import Mathlib.Tactic.NormNum
import Ubwt.Config.Init

/-!
# Ubwt.Config.Options

What a command line does to the configuration.

`OptAccepted` says which options `usage_check_optarg` lets through and `cmdoptEffect`
what an accepted option writes; `cmdoptLoop_foldl` lifts both from one option to the
loop. **After the loop** the configuration keeps the ranges of `OptInv`, and a field that
one option sets holds the argument of the last such option (`cmdoptLoop_lastArg`).
-/

namespace Ubwt

open Lib.Posix

variable {α β : Type} {env : Env}

/-! ### Sequencing -/

theorem except_bind_eq_ok {x : Except Halt α} {f : α → Except Halt β} {b : β} :
    (x >>= f) = .ok b ↔ ∃ a, x = .ok a ∧ f a = .ok b := by
  cases x with
  | error e => simp [bind, Except.bind]
  | ok a => simp [bind, Except.bind]

/-- The same for a part that returns nothing. -/
theorem except_unit_bind_eq_ok {x : Except Halt Unit} {f : Unit → Except Halt β} {b : β} :
    (x >>= f) = .ok b ↔ x = .ok () ∧ f () = .ok b := by
  rw [except_bind_eq_ok]
  exact ⟨fun ⟨_, h⟩ => h, fun h => ⟨(), h⟩⟩

@[simp] theorem rejectIf_eq_ok (bad : Bool) (type : ErrorType) (origin : String) :
    rejectIf bad type origin = .ok () ↔ bad = false := by
  cases bad <;> simp [rejectIf]

/-! ### The options that are accepted -/

/-- The file options ask for a name and for a file that opens. -/
def FileAccepted (env : Env) (mode : FileMode) (optarg : CString) : Prop :=
  0 < optarg.length ∧ env.fopen optarg mode = true

/-- The debug output goes to a stream or to a file that opens. -/
def DebugAccepted (env : Env) (file : CString) : Prop :=
  file = "stderr".toList ∨ file = "stdout".toList ∨ env.fopen file .appendPlus = true

/-- What `usage_check_optarg()` lets through. -/
def OptAccepted (env : Env) (cfg : Config) (optarg : CString) : Opt → Prop
  | .D | .b | .F | .h | .v => True
  | .A => cfg.reverseFirst = false ∧ cfg.netL4ProtoValue ≠ .udp
  | .B => 0 ≤ atol optarg ∧ atol optarg ≤ 2147483647
  | .C => FileAccepted env .read optarg
  | .d => 0 < optarg.length ∧ DebugAccepted env optarg
  | .R => cfg.asynchronous = false
  | .I => 0 ≤ atoi optarg ∧ atoi optarg < 65536
  | .j | .r => FileAccepted env .writePlus optarg
  | .m | .s => 508 ≤ atoi optarg ∧ atoi optarg < 65536
  | .M => 1 < atoi optarg ∧ atoi optarg < 10000000
  | .N | .o | .O | .P | .t | .T | .w => 0 < atoi optarg ∧ atoi optarg < 65536
  | .p => optarg = "tcp".toList ∨ optarg = "udp".toList
  | .W => (0 < atoi optarg ∧ atoi optarg ≤ 1024) ∧ (cfg.netL4ProtoValue = .udp → atoi optarg ≤ 1)
  | .l => False

theorem checkFile_eq_ok {mode : FileMode} {optarg : CString} {empty unopened : String} :
    checkFile env mode optarg empty unopened = .ok () ↔ FileAccepted env mode optarg := by
  simp [checkFile, rejectOptarg, except_unit_bind_eq_ok, FileAccepted, List.length_pos_iff]

theorem usageCheckOpt_eq_ok {cfg : Config} {optarg : CString} {opt : Opt} :
    usageCheckOpt env cfg optarg opt = .ok () ↔ OptAccepted env cfg optarg opt := by
  cases opt
  case d =>
    simp only [usageCheckOpt, OptAccepted, DebugAccepted]
    split <;> rename_i h
    · simp at h
      simp [List.length_pos_iff, h.1]
      rcases h.2 with h | h <;> simp [h]
    · simp at h
      simp only [checkFile_eq_ok, FileAccepted, List.length_pos_iff]
      constructor
      · intro ⟨h1, h2⟩
        exact ⟨h1, .inr (.inr h2)⟩
      · rintro ⟨h1, h2 | h2 | h2⟩
        · exact absurd h2 (h h1).1
        · exact absurd h2 (h h1).2
        · exact ⟨h1, h2⟩
  all_goals
    simp [usageCheckOpt, OptAccepted, rejectOptarg, checkFile_eq_ok, except_unit_bind_eq_ok]
  case m | M | s => exact fun _ => Iff.rfl
  case o | O => exact fun _ => Iff.rfl
  case p =>
    constructor
    · rintro ⟨-, h⟩
      exact or_iff_not_imp_left.mpr h
    · rintro (rfl | rfl)
      · exact ⟨by decide, fun h => absurd rfl h⟩
      · exact ⟨by decide, fun _ => rfl⟩

/-- A result of `getopt()` as the option it is, with its argument. -/
def optOf : OptResult → Option (Opt × CString)
  | .opt c optarg => (Opt.ofChar c).map (·, optarg.getD [])
  | .bad _ => none

/-- A result that is accepted is an option. -/
theorem usageCheckOptarg_eq_ok {cfg : Config} {res : OptResult} :
    usageCheckOptarg env cfg res = .ok () ↔
      ∃ opt optarg, optOf res = some (opt, optarg) ∧ OptAccepted env cfg optarg opt := by
  cases res with
  | bad c => simp [usageCheckOptarg, optOf]
  | opt c optarg =>
      cases hc : Opt.ofChar c with
      | none => simp [usageCheckOptarg, optOf, hc]
      | some opt => simp [usageCheckOptarg, optOf, hc, usageCheckOpt_eq_ok]

/-! ### What an accepted option writes -/

/-- The configuration after an accepted option that returns. -/
def cmdoptEffect (cfg : Config) (optarg : CString) : Opt → Config
  | .A => { cfg with asynchronous := true, bidirectional := true }
  | .b => { cfg with bidirectional := true }
  | .B => { cfg with netPayloadBufferSize := UInt32.ofInt (atol optarg) }
  | .C => { cfg with netPayloadBufferFile := some optarg }
  | .d => { cfg with debugFile := some optarg, debug := true }
  | .D => { cfg with debug := true }
  | .F => { cfg with reportFull := true }
  | .I => { cfg with talkHandshakeInterval := UInt16.ofInt (atoi optarg) }
  | .j => { cfg with reportJsonFile := some optarg }
  | .m => { cfg with netMtu := UInt16.ofInt (atoi optarg) }
  | .M => { cfg with talkCountMul := UInt32.ofInt (atoi optarg) }
  | .N => { cfg with talkHandshakeIter := UInt16.ofInt (atoi optarg) }
  | .o => { cfg with processReverseDelay := UInt16.ofInt (atoi optarg), bidirectional := true }
  | .O => { cfg with netTimeoutTalkStreamEnd := UInt16.ofInt (atoi optarg) }
  | .p => { cfg with
      netL4ProtoName := strncpyTo configL4ProtoNameSize optarg
      netL4ProtoValue := if optarg = "udp".toList then .udp else .tcp }
  | .P => { cfg with port := strncpyTo configPortSize optarg }
  | .r => { cfg with pidFile := some optarg }
  | .R => { cfg with reverseFirst := true }
  | .s => { cfg with talkPayloadDefaultSize := UInt16.ofInt (atoi optarg) }
  | .t => { cfg with talkStreamMinimumTime := UInt16.ofInt (atoi optarg) }
  | .T => { cfg with netTimeoutTalkStreamRun := UInt16.ofInt (atoi optarg) }
  | .w => { cfg with netTimeoutDefault := UInt16.ofInt (atoi optarg) }
  | .W => { cfg with workerCount := UInt32.ofNat (UInt16.ofInt (atoi optarg)).toNat }
  | .h | .v | .l => cfg

theorem cmdoptSwitch_eq {cfg : Config} {res : OptResult} {opt : Opt} {optarg : CString}
    (h : optOf res = some (opt, optarg)) :
    cmdoptSwitch env cfg res = cmdoptCase env cfg optarg opt := by
  cases res with
  | bad c => simp [optOf] at h
  | opt c arg =>
      simp only [optOf, Option.map_eq_some_iff, Prod.mk.injEq] at h
      obtain ⟨_, hc, rfl, rfl⟩ := h
      simp [cmdoptSwitch, hc]

theorem cmdoptCase_eq_ok {cfg cfg' : Config} {optarg : CString} {opt : Opt}
    (hacc : OptAccepted env cfg optarg opt) (hcase : cmdoptCase env cfg optarg opt = .ok cfg') :
    cfg' = cmdoptEffect cfg optarg opt := by
  cases opt
  case h | v | l => cases hcase
  case A | b | F | P | R =>
    cases hcase
    rfl
  case p =>
    simp only [cmdoptCase, except_unit_bind_eq_ok] at hcase
    rcases hacc with rfl | rfl
    · cases hcase.2
      rfl
    · cases hcase.2
      rfl
  case d =>
    simp only [cmdoptCase, except_unit_bind_eq_ok] at hcase
    cases hcase.2.2
    rfl
  all_goals
    simp only [cmdoptCase, except_unit_bind_eq_ok] at hcase
    cases hcase.2
    rfl

/-- The options of the command line, with their arguments. -/
def cmdoptOpts (results : List OptResult) : List (Opt × CString) := results.filterMap optOf

/-- The run rule of the option loop: what the effect of each accepted option does to
`I` along a fold over the options, a loop that returns has done. -/
theorem cmdoptLoop_foldl {σ : Type} (I : σ → Config → Prop) (step : σ → Opt × CString → σ)
    (hstep : ∀ {v cfg opt optarg}, OptAccepted env cfg optarg opt → I v cfg →
      I (step v (opt, optarg)) (cmdoptEffect cfg optarg opt))
    {results : List OptResult} {v : σ} {cfg cfg' : Config}
    (hrun : cmdoptLoop env results cfg = .ok cfg') (hI : I v cfg) :
    I ((cmdoptOpts results).foldl step v) cfg' := by
  induction results generalizing v cfg with
  | nil =>
      cases hrun
      exact hI
  | cons res results ih =>
      rw [cmdoptLoop, except_unit_bind_eq_ok, except_bind_eq_ok] at hrun
      obtain ⟨hcheck, cfg₁, hswitch, hrest⟩ := hrun
      obtain ⟨opt, optarg, hopt, hacc⟩ := usageCheckOptarg_eq_ok.mp hcheck
      rw [cmdoptSwitch_eq hopt] at hswitch
      obtain rfl := cmdoptCase_eq_ok hacc hswitch
      have hopts : cmdoptOpts (res :: results) = (opt, optarg) :: cmdoptOpts results := by
        simp [cmdoptOpts, hopt]
      rw [hopts]
      exact ih hrest (hstep hacc hI)

/-- What every accepted option keeps, the loop keeps. -/
theorem cmdoptLoop_invariant {P : Config → Prop}
    (hopt : ∀ {cfg optarg opt}, OptAccepted env cfg optarg opt → P cfg →
      P (cmdoptEffect cfg optarg opt))
    {results : List OptResult} {cfg cfg' : Config} (hrun : cmdoptLoop env results cfg = .ok cfg')
    (hP : P cfg) : P cfg' :=
  cmdoptLoop_foldl (fun (_ : Unit) c => P c) (fun v _ => v) hopt (v := ()) hrun hP

/-! ### Ranges -/

/-- What holds of the configuration after any number of accepted options. -/
structure OptInv (env : Env) (cfg : Config) : Prop where
  port : ∃ arg, cfg.port = strncpyTo configPortSize arg ∧ 1 ≤ atoi arg ∧ atoi arg ≤ 65535
  mtu : 508 ≤ cfg.netMtu.toNat
  timeout : 0 < cfg.netTimeoutDefault.toNat
  streamEnd : 0 < cfg.netTimeoutTalkStreamEnd.toNat
  streamRun : 0 < cfg.netTimeoutTalkStreamRun.toNat
  proto : cfg.netL4ProtoValue ≠ .unset
  reverseDelay : 0 < cfg.processReverseDelay.toNat
  iter : 0 < cfg.talkHandshakeIter.toNat
  counts : cfg.talkCountCurrent = configTalkCountDefault ∧
    cfg.talkCountDefault = configTalkCountDefault ∧ cfg.talkCountMax = configTalkCountMax
  mul : cfg.talkCountMul.toNat = 0 ∨
    1 < cfg.talkCountMul.toNat ∧ cfg.talkCountMul.toNat < 10000000
  sizes : cfg.talkPayloadCurrentSize = configTalkPayloadDefaultSize ∧
    cfg.talkPayloadMaxSize = configTalkPayloadMaxSize
  defaultSize : 508 ≤ cfg.talkPayloadDefaultSize.toNat
  minimumTime : 0 < cfg.talkStreamMinimumTime.toNat
  workers : 0 < cfg.workerCount.toNat ∧ cfg.workerCount.toNat ≤ 1024
  order : cfg.asynchronous = true → cfg.reverseFirst = false
  debugFile : ∀ file, cfg.debugFile = some file → DebugAccepted env file

theorem optInv_default : OptInv env configDefault where
  port := ⟨configPortDefault, rfl, by decide, by decide⟩
  mtu := by decide
  timeout := by decide
  streamEnd := by decide
  streamRun := by decide
  proto := by decide
  reverseDelay := by decide
  iter := by decide
  counts := ⟨rfl, rfl, rfl⟩
  mul := .inl rfl
  sizes := ⟨rfl, rfl⟩
  defaultSize := by decide
  minimumTime := by decide
  workers := by decide
  order := fun h => Bool.noConfusion h
  debugFile := fun _ h => by cases h

theorem toNat_uint16_ofInt {a : Int} (h0 : 0 ≤ a) (h1 : a < 65536) :
    (UInt16.ofInt a).toNat = a.toNat := by
  have hmod : a % 2 ^ 16 = a := Int.emod_eq_of_lt h0 h1
  rw [UInt16.ofInt, UInt16.toNat_ofNat', hmod]
  omega

theorem toNat_uint32_ofInt {a : Int} (h0 : 0 ≤ a) (h1 : a < 4294967296) :
    (UInt32.ofInt a).toNat = a.toNat := by
  have hmod : a % 2 ^ 32 = a := Int.emod_eq_of_lt h0 h1
  rw [UInt32.ofInt, UInt32.toNat_ofNat', hmod]
  omega

theorem uint16_ofInt_le {a : Int} {n : Nat} (hn : (n : Int) ≤ a) (h1 : a < 65536) :
    n ≤ (UInt16.ofInt a).toNat := by
  rw [toNat_uint16_ofInt (by omega) h1]
  omega

/-- The worker count an accepted `-W` writes. -/
theorem toNat_workerCount {a : Int} (h0 : 0 < a) (h1 : a ≤ 1024) :
    (UInt32.ofNat (UInt16.ofInt a).toNat).toNat = a.toNat := by
  rw [toNat_uint16_ofInt (by omega) (by omega), UInt32.toNat_ofNat']
  omega

/-- An accepted option keeps the invariant. -/
theorem cmdoptEffect_inv {cfg : Config} {optarg : CString} {opt : Opt} (hi : OptInv env cfg)
    (hacc : OptAccepted env cfg optarg opt) : OptInv env (cmdoptEffect cfg optarg opt) := by
  cases opt
  case b | B | C | D | F | h | I | j | l | r | v => exact { hi with }
  case A => exact { hi with order := fun _ => hacc.1 }
  case R => exact { hi with order := fun h => absurd (h.symm.trans hacc) (by decide) }
  case d => exact { hi with debugFile := fun _ h => by cases h; exact hacc.2 }
  case p =>
    refine { hi with proto := ?_ }
    show (if optarg = "udp".toList then L4Proto.udp else .tcp) ≠ .unset
    split
    · exact fun h => by cases h
    · exact fun h => by cases h
  case P => exact { hi with port := ⟨optarg, rfl, hacc.1, Int.le_of_lt_add_one hacc.2⟩ }
  case m => exact { hi with mtu := uint16_ofInt_le hacc.1 hacc.2 }
  case N => exact { hi with iter := uint16_ofInt_le hacc.1 hacc.2 }
  case o => exact { hi with reverseDelay := uint16_ofInt_le hacc.1 hacc.2 }
  case O => exact { hi with streamEnd := uint16_ofInt_le hacc.1 hacc.2 }
  case s => exact { hi with defaultSize := uint16_ofInt_le hacc.1 hacc.2 }
  case t => exact { hi with minimumTime := uint16_ofInt_le hacc.1 hacc.2 }
  case T => exact { hi with streamRun := uint16_ofInt_le hacc.1 hacc.2 }
  case w => exact { hi with timeout := uint16_ofInt_le hacc.1 hacc.2 }
  case M =>
    obtain ⟨hlo, hhi⟩ := hacc
    refine { hi with mul := .inr ?_ }
    show 1 < (UInt32.ofInt (atoi optarg)).toNat ∧ (UInt32.ofInt (atoi optarg)).toNat < 10000000
    rw [toNat_uint32_ofInt (by omega) (by omega)]
    omega
  case W =>
    obtain ⟨⟨hlo, hhi⟩, -⟩ := hacc
    refine { hi with workers := ?_ }
    show 0 < (UInt32.ofNat (UInt16.ofInt (atoi optarg)).toNat).toNat ∧
      (UInt32.ofNat (UInt16.ofInt (atoi optarg)).toNat).toNat ≤ 1024
    rw [toNat_workerCount hlo hhi]
    omega

/-- The configuration after the loop keeps the invariant. -/
theorem cmdoptLoop_inv {results : List OptResult} {cfg cfg' : Config} (hi : OptInv env cfg)
    (hrun : cmdoptLoop env results cfg = .ok cfg') : OptInv env cfg' :=
  cmdoptLoop_invariant (fun hacc hi => cmdoptEffect_inv hi hacc) hrun hi

/-! ### The last option of a kind -/

/-- The argument of the last option of a kind, or what holds without one. -/
def lastArg (opt : Opt) (default : CString) (opts : List (Opt × CString)) : CString :=
  opts.foldl (fun v o => if o.1 = opt then o.2 else v) default

/-- A field that one option sets from its argument holds the last one. -/
theorem cmdoptLoop_lastArg {β : Type} (opt : Opt) (field : Config → β) (value : CString → β)
    (hset : ∀ (cfg : Config) (other : Opt) (optarg : CString),
      field (cmdoptEffect cfg optarg other) = if other = opt then value optarg else field cfg)
    {results : List OptResult} {cfg cfg' : Config} {default : CString}
    (hrun : cmdoptLoop env results cfg = .ok cfg') (hdef : field cfg = value default) :
    field cfg' = value (lastArg opt default (cmdoptOpts results)) := by
  refine cmdoptLoop_foldl (fun v c => field c = value v) _ ?_ hrun hdef
  intro v c other optarg _ hI
  rw [hset, hI]
  by_cases ho : other = opt
  · simp [ho]
  · simp [ho]

/-- What holds of every accepted argument of an option, and of its default, holds of
the last one. -/
theorem cmdoptLoop_lastArg_accepted (opt : Opt) {P : CString → Prop}
    (hP : ∀ {cfg : Config} {optarg : CString}, OptAccepted env cfg optarg opt → P optarg)
    {results : List OptResult} {cfg cfg' : Config} {default : CString}
    (hrun : cmdoptLoop env results cfg = .ok cfg') (hdef : P default) :
    P (lastArg opt default (cmdoptOpts results)) := by
  refine cmdoptLoop_foldl (fun v _ => P v) _ ?_ hrun hdef
  intro v c other optarg hacc hv
  by_cases ho : other = opt
  · subst ho
    simpa using hP hacc
  · simpa [ho] using hv

/-- What a loop that returns leaves in the fields on which later assertions depend,
with the ranges of the arguments that are stored as integers. -/
structure LoopFields (opts : List (Opt × CString)) (cfg : Config) : Prop where
  port : cfg.port = strncpyTo configPortSize (lastArg .P configPortDefault opts)
  size : cfg.talkPayloadDefaultSize = UInt16.ofInt (atoi (lastArg .s "1432".toList opts))
  proto : cfg.netL4ProtoValue
    = if lastArg .p configNetL4ProtoDefault opts = "udp".toList then .udp else .tcp
  workers : cfg.workerCount
    = UInt32.ofNat (UInt16.ofInt (atoi (lastArg .W "1".toList opts))).toNat
  async : cfg.asynchronous = opts.any (fun o => o.1 = Opt.A)
  sizeRange : 508 ≤ atoi (lastArg .s "1432".toList opts) ∧
    atoi (lastArg .s "1432".toList opts) < 65536
  workersRange : 0 < atoi (lastArg .W "1".toList opts) ∧ atoi (lastArg .W "1".toList opts) ≤ 1024

theorem cmdoptLoop_fields {results : List OptResult} {cfg : Config}
    (hrun : cmdoptLoop env results configDefault = .ok cfg) :
    LoopFields (cmdoptOpts results) cfg where
  port := by
    refine cmdoptLoop_lastArg .P Config.port _ ?_ hrun rfl
    intro cfg other optarg
    cases other <;> rfl
  size := by
    refine cmdoptLoop_lastArg .s Config.talkPayloadDefaultSize
      (fun arg => UInt16.ofInt (atoi arg)) ?_ hrun (by decide)
    intro cfg other optarg
    cases other <;> rfl
  proto := by
    refine cmdoptLoop_lastArg .p Config.netL4ProtoValue
      (fun arg => if arg = "udp".toList then .udp else .tcp) ?_ hrun (by decide)
    intro cfg other optarg
    cases other <;> rfl
  workers := by
    refine cmdoptLoop_lastArg .W Config.workerCount
      (fun arg => UInt32.ofNat (UInt16.ofInt (atoi arg)).toNat) ?_ hrun (by decide)
    intro cfg other optarg
    cases other <;> rfl
  async := by
    have hfold : ∀ (opts : List (Opt × CString)) (v : Bool),
        opts.foldl (fun v o => v || decide (o.1 = Opt.A)) v
          = (v || opts.any (fun o => o.1 = Opt.A)) := by
      intro opts
      induction opts with
      | nil => simp
      | cons o opts ih =>
          intro v
          rw [List.foldl_cons, ih, List.any_cons, Bool.or_assoc]
    have hrunA := cmdoptLoop_foldl (fun v (c : Config) => c.asynchronous = v)
      (fun v o => v || decide (o.1 = Opt.A)) ?_ (v := false) hrun rfl
    · rw [hrunA, hfold, Bool.false_or]
    · intro v cfg opt optarg _ hI
      subst hI
      cases opt <;> simp [cmdoptEffect]
  sizeRange := cmdoptLoop_lastArg_accepted .s (P := fun arg => 508 ≤ atoi arg ∧ atoi arg < 65536)
    (fun h => h) hrun (by decide)
  workersRange := cmdoptLoop_lastArg_accepted .W (P := fun arg => 0 < atoi arg ∧ atoi arg ≤ 1024)
    (fun h => h.1) hrun (by decide)

/-! ### The finished configuration -/

theorem uint32_and_one (w : UInt32) : (w &&& 1).toNat = w.toNat % 2 := by
  rw [UInt32.toNat_and]
  exact Nat.and_one_is_mod w.toNat

/-- The worker counts that `config_init()` settles on. -/
theorem configWorkers_eq {cfg : Config} (hi : OptInv env cfg) :
    ∃ w ws wr, configWorkers cfg = { cfg with
        workerCount := w, workerStraightFirstCount := ws, workerReverseFirstCount := wr } ∧
      (0 < w.toNat ∧ w.toNat ≤ 1024) ∧ (cfg.asynchronous = true → w &&& 1 = 0) ∧
      (cfg.asynchronous = false → w = cfg.workerCount) := by
  obtain ⟨hlo, hhi⟩ := hi.workers
  by_cases ha : cfg.asynchronous = true
  · have hno : cfg.asynchronous ≠ false := by simp [ha]
    by_cases hodd : cfg.workerCount &&& 1 = 0
    · refine ⟨cfg.workerCount, cfg.workerCount / 2, cfg.workerCount / 2, ?_, ⟨hlo, hhi⟩,
        fun _ => hodd, fun h => absurd h hno⟩
      simp [configWorkers, ha, hodd]
    · have hmod : cfg.workerCount.toNat % 2 = 1 := by
        have hne : cfg.workerCount.toNat % 2 ≠ 0 := by
          rw [← uint32_and_one]
          exact fun h => hodd (UInt32.toNat_inj.mp h)
        omega
      have hadd : (cfg.workerCount + 1).toNat = cfg.workerCount.toNat + 1 := by
        rw [UInt32.toNat_add]
        exact Nat.mod_eq_of_lt (by simp; omega)
      refine ⟨cfg.workerCount + 1, (cfg.workerCount + 1) / 2, (cfg.workerCount + 1) / 2, ?_,
        ⟨by omega, by omega⟩, fun _ => ?_, fun h => absurd h hno⟩
      · simp [configWorkers, ha, hodd]
      · apply UInt32.toNat_inj.mp
        rw [uint32_and_one, hadd]
        show _ = 0
        omega
  · have hw : ∃ ws wr, configWorkers cfg = { cfg with
        workerCount := cfg.workerCount, workerStraightFirstCount := ws,
        workerReverseFirstCount := wr } := by
      by_cases hr : cfg.reverseFirst = true
      · exact ⟨0, cfg.workerCount, by simp [configWorkers, ha, hr]⟩
      · exact ⟨cfg.workerCount, 0, by simp [configWorkers, ha, hr]⟩
    obtain ⟨ws, wr, heq⟩ := hw
    exact ⟨cfg.workerCount, ws, wr, heq, ⟨hlo, hhi⟩, fun h => absurd h ha, fun _ => rfl⟩

/-- The two operands a command line has to end with. -/
def roleAddr (operands : List CString) (role addr : CString) : Prop :=
  operands = [role, addr] ∧ (role = "connector".toList ∨ role = "listener".toList)

/-- The configuration after the loop, with the role that the first operand gives. -/
def roleConfig (env : Env) (role : CString) (cfg : Config) : Config :=
  let cfg := if env.debugBuild && cfg.debug then { cfg with errorLogMinLevel := .info } else cfg
  if role = "connector".toList then { cfg with imConnector := true }
  else { cfg with imListener := true }

theorem cmdoptOperands_roleAddr {operands : List CString} {role addr : CString}
    (h : roleAddr operands role addr) (cfg : Config) :
    cmdoptOperands env operands cfg = (do
      cAssert env (addr.length < configAddrSize)
        "strlen(argv[optind]) < sizeof(current->config->addr)"
      return { roleConfig env role cfg with addr := strncpyTo configAddrSize addr }) := by
  obtain ⟨rfl, rfl | rfl⟩ := h
  · rfl
  · rfl

theorem cmdoptOperands_other {operands : List CString}
    (h : ∀ role addr, ¬ roleAddr operands role addr) (cfg : Config) :
    ∃ e, (∀ expr, e ≠ .assertion expr) ∧
      ∀ env : Env, cmdoptOperands env operands cfg = .error e := by
  have hexit : ∀ expr, Halt.exit false ≠ .assertion expr := fun _ he => by cases he
  rcases operands with _ | ⟨role, _ | ⟨addr, _ | ⟨extra, rest⟩⟩⟩
  · exact ⟨.exit false, hexit, fun _ => rfl⟩
  · exact ⟨.exit false, hexit, fun _ => rfl⟩
  · have hc : role ≠ "connector".toList := fun hr => h role addr ⟨rfl, .inl hr⟩
    have hl : role ≠ "listener".toList := fun hr => h role addr ⟨rfl, .inr hr⟩
    refine ⟨.error .configArgv1Invalid "config_init()", fun _ he => (by cases he), fun env => ?_⟩
    simp only [cmdoptOperands, if_neg hc, if_neg hl]
    rfl
  · exact ⟨.exit false, hexit, fun _ => rfl⟩

/-- What follows the loop writes fields that no check reads. -/
theorem roleConfig_optInv (role addr : CString) {cfg : Config} (hi : OptInv env cfg) :
    OptInv env { roleConfig env role cfg with addr := addr } := by
  unfold roleConfig
  split <;> split <;> exact { hi with }

theorem roleConfig_loopFields {opts : List (Opt × CString)} {role addr : CString} {cfg : Config}
    (hf : LoopFields opts cfg) :
    LoopFields opts { roleConfig env role cfg with addr := addr } := by
  unfold roleConfig
  split <;> split <;> exact { hf with }

/-- `config_init()` as the three parts it runs one after the other. -/
theorem configInit_eq (env : Env) (args : List CString) :
    configInit env args =
      cmdoptLoop env (getopt (cmdoptFlags env.debugBuild) none args).1 configDefault >>= fun cfg =>
        cmdoptOperands env (getopt (cmdoptFlags env.debugBuild) none args).2 cfg >>= fun cfg => do
          configConsistency (configWorkers cfg)
          configSanity env (configWorkers cfg)
          return configWorkers cfg := by
  rw [configInit, configCmdoptProcess]
  exact bind_assoc _ _ _

/-- **What `config_init` returns**: the configuration of the options, with the role of
the first operand and the worker counts settled. -/
theorem configInit_eq_ok {args : List CString} {cfg' : Config}
    (h : configInit env args = .ok cfg') :
    ∃ cfg role addr, cmdoptLoop env (getopt (cmdoptFlags env.debugBuild) none args).1
        configDefault = .ok cfg ∧
      roleAddr (getopt (cmdoptFlags env.debugBuild) none args).2 role addr ∧
      cfg' = configWorkers { roleConfig env role cfg with addr := strncpyTo configAddrSize addr } := by
  rw [configInit_eq, except_bind_eq_ok] at h
  obtain ⟨cfg, hloop, h⟩ := h
  rw [except_bind_eq_ok] at h
  obtain ⟨cfg₁, hops, h⟩ := h
  rw [except_unit_bind_eq_ok, except_unit_bind_eq_ok] at h
  obtain ⟨-, -, hret⟩ := h
  have hra : ∃ role addr, roleAddr (getopt (cmdoptFlags env.debugBuild) none args).2 role addr := by
    by_contra hno
    obtain ⟨e, -, heq⟩ := cmdoptOperands_other (fun r a h => hno ⟨r, a, h⟩) cfg
    rw [heq] at hops
    cases hops
  obtain ⟨role, addr, hra⟩ := hra
  rw [cmdoptOperands_roleAddr hra, except_unit_bind_eq_ok] at hops
  cases hops.2
  cases hret
  exact ⟨cfg, role, addr, hloop, hra, rfl⟩

/-- The three parts of `config_init()` as a rule: what the defaults have and the options keep is
`P`, and what the role makes of it and the worker counts keep is `Q`. -/
theorem configInit_phases {P Q : Config → Prop} (hdefault : P configDefault)
    (hopt : ∀ {cfg optarg opt}, OptAccepted env cfg optarg opt → P cfg →
      P (cmdoptEffect cfg optarg opt))
    (hrole : ∀ cfg role addr, P cfg → Q { roleConfig env role cfg with addr := addr })
    (hworkers : ∀ cfg w ws wr, 0 < w.toNat ∧ w.toNat ≤ 1024 → Q cfg → Q { cfg with
      workerCount := w, workerStraightFirstCount := ws, workerReverseFirstCount := wr })
    {args : List CString} {cfg : Config} (h : configInit env args = .ok cfg) : Q cfg := by
  obtain ⟨cfg₀, role, addr, hloop, -, rfl⟩ := configInit_eq_ok h
  have hi := roleConfig_optInv role (strncpyTo configAddrSize addr)
    (cmdoptLoop_inv optInv_default hloop)
  obtain ⟨w, ws, wr, heq, hw, -, -⟩ := configWorkers_eq hi
  rw [heq]
  exact hworkers _ w ws wr hw (hrole cfg₀ role _ (cmdoptLoop_invariant hopt hloop hdefault))

/-- What the defaults have, and neither an accepted option nor the role and the worker counts
change, an accepted configuration has. -/
theorem configInit_invariant {P : Config → Prop} (hdefault : P configDefault)
    (hopt : ∀ {cfg optarg opt}, OptAccepted env cfg optarg opt → P cfg →
      P (cmdoptEffect cfg optarg opt))
    (hrole : ∀ cfg role addr, P cfg → P { roleConfig env role cfg with addr := addr })
    (hworkers : ∀ cfg w ws wr, 0 < w.toNat ∧ w.toNat ≤ 1024 → P cfg → P { cfg with
      workerCount := w, workerStraightFirstCount := ws, workerReverseFirstCount := wr })
    {args : List CString} {cfg : Config} (h : configInit env args = .ok cfg) : P cfg :=
  configInit_phases hdefault hopt hrole hworkers h

/-- An accepted configuration keeps the ranges of its options. -/
theorem configInit_optInv {args : List CString} {cfg : Config}
    (h : configInit env args = .ok cfg) : OptInv env cfg :=
  configInit_invariant optInv_default (fun hacc hi => cmdoptEffect_inv hi hacc)
    (fun _ role addr hi => roleConfig_optInv role addr hi)
    (fun _ _ _ _ hw hi => { hi with workers := hw }) h

/-- No option touches the role, and the first operand gives one. -/
theorem configInit_role {args : List CString} {cfg : Config}
    (h : configInit env args = .ok cfg) : cfg.imListener = !cfg.imConnector := by
  refine configInit_phases (P := fun cfg => cfg.imConnector = false ∧ cfg.imListener = false)
    (Q := fun cfg => cfg.imListener = !cfg.imConnector) ⟨rfl, rfl⟩ ?_ ?_
    (fun _ _ _ _ _ hQ => hQ) h
  · intro cfg optarg opt _ hP
    cases opt <;> exact hP
  · intro cfg role addr hP
    unfold roleConfig
    split <;> split <;> simp [hP]

/-- An accepted configuration has at most 1024 workers, exactly one role and a
protocol. -/
theorem configInit_workers_role {args : List CString} {cfg : Config}
    (h : configInit env args = .ok cfg) :
    cfg.workerCount.toNat ≤ 1024 ∧ cfg.imListener = !cfg.imConnector ∧
      cfg.netL4ProtoValue ≠ .unset :=
  have hi := configInit_optInv h
  ⟨hi.workers.2, configInit_role h, hi.proto⟩

/-- How many workers start with each direction. -/
structure WorkersSettled (cfg : Config) : Prop where
  sum : cfg.workerStraightFirstCount.toNat + cfg.workerReverseFirstCount.toNat
    = cfg.workerCount.toNat
  pos : 0 < cfg.workerCount.toNat
  async : cfg.asynchronous = true → cfg.bidirectional = true ∧ cfg.reverseFirst = false ∧
    cfg.workerStraightFirstCount = cfg.workerReverseFirstCount
  sync : cfg.asynchronous = false →
    if cfg.reverseFirst then cfg.workerStraightFirstCount = 0
    else cfg.workerReverseFirstCount = 0

theorem configWorkers_settled {cfg : Config} (hi : OptInv env cfg)
    (hbidir : cfg.asynchronous = true → cfg.bidirectional = true) :
    WorkersSettled (configWorkers cfg) := by
  obtain ⟨w, ws, wr, heq, hw, heven, -⟩ := configWorkers_eq hi
  rw [heq]
  unfold configWorkers at heq
  by_cases ha : cfg.asynchronous = true
  · rw [if_pos ha] at heq
    simp only [Config.mk.injEq, true_and] at heq
    obtain ⟨hcount, rfl, rfl⟩ := heq
    rw [hcount]
    have hmod : w.toNat % 2 = 0 := by
      rw [← uint32_and_one, heven ha]
      rfl
    refine ⟨?_, hw.1, fun _ => ⟨hbidir ha, hi.order ha, rfl⟩,
      fun hf => absurd (ha.symm.trans hf) (by decide)⟩
    show (w / 2).toNat + (w / 2).toNat = w.toNat
    rw [UInt32.toNat_div]
    show w.toNat / 2 + w.toNat / 2 = w.toNat
    omega
  · rw [if_neg ha] at heq
    by_cases hr : cfg.reverseFirst = true
    · rw [if_pos hr] at heq
      simp only [Config.mk.injEq, true_and] at heq
      obtain ⟨rfl, rfl, rfl⟩ := heq
      exact ⟨by simp, hw.1, fun h => absurd h ha, fun _ => by simp [hr]⟩
    · rw [if_neg hr] at heq
      simp only [Config.mk.injEq, true_and] at heq
      obtain ⟨rfl, rfl, rfl⟩ := heq
      exact ⟨by simp, hw.1, fun h => absurd h ha, fun _ => by simp [hr]⟩

/-- The worker counts of an accepted configuration. -/
theorem configInit_settled {args : List CString} {cfg : Config}
    (h : configInit env args = .ok cfg) : WorkersSettled cfg := by
  obtain ⟨cfg₀, role, addr, hloop, -, rfl⟩ := configInit_eq_ok h
  have hi := roleConfig_optInv role (strncpyTo configAddrSize addr)
    (cmdoptLoop_inv optInv_default hloop)
  -- `-A` sets both, and nothing clears them.
  have hbidir : cfg₀.asynchronous = true → cfg₀.bidirectional = true := by
    refine cmdoptLoop_invariant (P := fun c => c.asynchronous = true → c.bidirectional = true)
      ?_ hloop (fun h => by cases h)
    intro cfg optarg opt _ hP
    cases opt <;> first | exact hP | exact fun _ => rfl
  refine configWorkers_settled hi ?_
  simp only [roleConfig]
  split <;> split <;> exact hbidir

end Ubwt
