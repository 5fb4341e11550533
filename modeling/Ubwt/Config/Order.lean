import Mathlib.Data.List.Nodup
import Mathlib.Data.List.Perm.Basic
import Ubwt.Config.Options

/-!
# Ubwt.Config.Order

The order of the options on a command line.

`usage_check_optarg` looks at an option when it is read, so three of its checks depend on
what stands before: `-A` against `-R` and `-p udp`, `-R` against `-A`, `-W` against `-p udp`.
`_config_sanity` asks for the same things of the finished configuration. **So a check
that the wrong order skips is made up for at the end** (`cmdoptLoop_eq_ok_of_sound`), and what
is accepted is a condition on the set of the options (`configInit_commandLine_eq_ok`).
-/

namespace Ubwt

open Lib.Posix

variable {env : Env}

/-! ### Command lines -/

/-- The letter of an option. -/
def Opt.letter : Opt → Char
  | A => 'A' | b => 'b' | B => 'B' | C => 'C' | d => 'd' | D => 'D' | F => 'F' | h => 'h' | I => 'I'
  | j => 'j' | l => 'l' | m => 'm' | M => 'M' | N => 'N' | o => 'o' | O => 'O' | p => 'p' | P => 'P'
  | r => 'r' | R => 'R' | s => 's' | t => 't' | T => 'T' | v => 'v' | w => 'w' | W => 'W'

/-- Is the letter followed by a colon in the option string? -/
def Opt.takesArg : Opt → Bool
  | A | b | D | F | h | R | v => false
  | _ => true

/-- Is the option in the option string of this build? -/
def Opt.known (env : Env) : Opt → Bool
  | d | D => env.debugBuild
  | _ => true

@[simp] theorem Opt.ofChar_letter (opt : Opt) : Opt.ofChar opt.letter = some opt := by
  cases opt <;> rfl

theorem optTakesArg_letter (env : Env) (opt : Opt) :
    optTakesArg opt.letter (cmdoptFlags env.debugBuild)
      = if opt.known env then some opt.takesArg else none := by
  cases hd : env.debugBuild
  · cases opt <;> simp only [Opt.known, hd] <;> decide
  · cases opt <;> simp only [Opt.known, hd] <;> decide

/-- An option as it is written: its argument stands in the next word or, when `attached`,
right behind the letter. -/
structure OptItem where
  opt : Opt
  optarg : CString
  attached : Bool
  deriving Repr, DecidableEq

/-- The words of an option. An empty argument cannot be attached. -/
def OptItem.words (o : OptItem) : List CString :=
  if o.opt.takesArg then
    if o.attached && !o.optarg.isEmpty then ['-' :: o.opt.letter :: o.optarg]
    else [['-', o.opt.letter], o.optarg]
  else [['-', o.opt.letter]]

/-- What `getopt()` returns for an option that it knows. -/
def OptItem.result (o : OptItem) : OptResult :=
  .opt o.opt.letter (if o.opt.takesArg then some o.optarg else none)

/-- The `optarg` that the option loop sees. -/
def OptItem.arg (o : OptItem) : CString := if o.opt.takesArg then o.optarg else []

theorem optOf_result (o : OptItem) : optOf o.result = some (o.opt, o.arg) := by
  unfold OptItem.result OptItem.arg
  cases h : o.opt.takesArg <;> simp [optOf]

/-- The options, then the two positional arguments. -/
def commandLine (opts : List OptItem) (role addr : CString) : List CString :=
  opts.flatMap OptItem.words ++ [role, addr]

/-- The lists of options that are compared: every letter once, none of `-h` and `-v`, and
every file opens. -/
structure Comparable (env : Env) (opts : List OptItem) : Prop where
  distinct : (opts.map OptItem.opt).Nodup
  noExit : ∀ o ∈ opts, o.opt ≠ .h ∧ o.opt ≠ .v
  payloadFile : ∀ o ∈ opts, o.opt = .C → env.fopen o.optarg .read = true
  debugFile : ∀ o ∈ opts, o.opt = .d → DebugAccepted env o.optarg
  reportFile : ∀ o ∈ opts, o.opt = .j → env.fopen o.optarg .writePlus = true
  pidFile : ∀ o ∈ opts, o.opt = .r → env.fopen o.optarg .writePlus = true

theorem Opt.letter_ne_dash (opt : Opt) : opt.letter ≠ '-' := by
  cases opt <;> decide

/-- One word that starts with the letter of an option. -/
theorem getopt_cluster (flags : CString) (opt : Opt) (cs : CString) (rest : List CString) :
    getopt flags none (('-' :: opt.letter :: cs) :: rest)
      = (getopt flags (optCluster flags (opt.letter :: cs)).2 rest).map
          ((optCluster flags (opt.letter :: cs)).1 ++ ·) id := by
  rw [getopt]
  intro h
  exact absurd h opt.letter_ne_dash

/-- `getopt()` reads an option that it knows. -/
theorem getopt_words {o : OptItem} (hk : o.opt.known env = true) (rest : List CString) :
    getopt (cmdoptFlags env.debugBuild) none (o.words ++ rest)
      = (getopt (cmdoptFlags env.debugBuild) none rest).map (o.result :: ·) id := by
  have hletter := optTakesArg_letter env o.opt
  rw [if_pos hk] at hletter
  unfold OptItem.words OptItem.result
  cases ha : o.opt.takesArg with
  | false =>
      rw [ha] at hletter
      simp [getopt_cluster, optCluster, hletter]
  | true =>
      rw [ha] at hletter
      by_cases hc : (o.attached && !o.optarg.isEmpty) = true
      · have hne : o.optarg ≠ [] := by
          intro h
          simp [h] at hc
        simp [hc, getopt_cluster, optCluster, hletter, hne]
      · simp [hc, getopt_cluster, optCluster, hletter, getopt, Prod.map]

/-- `getopt()` stumbles over an option that it does not know. -/
theorem getopt_words_unknown {o : OptItem} (hk : o.opt.known env = false) (rest : List CString) :
    ∃ results, (getopt (cmdoptFlags env.debugBuild) none (o.words ++ rest)).1
      = .bad o.opt.letter :: results := by
  have hletter := optTakesArg_letter env o.opt
  rw [hk] at hletter
  unfold OptItem.words
  split
  · split
    · simp [getopt_cluster, optCluster, hletter]
    · simp [getopt_cluster, optCluster, hletter]
  · simp [getopt_cluster, optCluster, hletter]

/-- What `getopt()` returns for a command line whose options it knows. -/
theorem getopt_commandLine {opts : List OptItem} (hk : ∀ o ∈ opts, o.opt.known env = true)
    (rest : List CString) :
    getopt (cmdoptFlags env.debugBuild) none (opts.flatMap OptItem.words ++ rest)
      = (getopt (cmdoptFlags env.debugBuild) none rest).map (opts.map OptItem.result ++ ·) id := by
  induction opts with
  | nil => simp [Prod.map]
  | cons o opts ih =>
      rw [List.flatMap_cons, List.append_assoc, getopt_words (hk o (List.mem_cons_self ..)),
        ih (fun o ho => hk o (List.mem_cons_of_mem _ ho))]
      simp [Prod.map]

/-- The operands are words of the command line. -/
theorem getopt_operands_length (flags : CString) (pending : Option Char) (args : List CString) :
    (getopt flags pending args).2.length ≤ args.length := by
  induction args generalizing pending with
  | nil => cases pending <;> simp [getopt]
  | cons arg args ih =>
      cases pending with
      | some c => exact Nat.le_succ_of_le (ih none)
      | none =>
          unfold getopt
          split
          · exact Nat.le_succ _
          · exact Nat.le_succ_of_le (ih _)
          · exact Nat.le_refl _

/-- Two positional arguments are left only where both are operands. -/
theorem getopt_operands {flags role addr role' addr' : CString} {results : List OptResult}
    (h : getopt flags none [role, addr] = (results, [role', addr'])) : results = [] := by
  unfold getopt at h
  split at h
  · simp at h
  · -- An option leaves at most one word.
    rename_i c cs _
    have hlen := getopt_operands_length flags (optCluster flags (c :: cs)).2 [addr]
    have htwo := congrArg (fun x => x.2.length) h
    simp only [Prod.map_snd, id_eq, List.length_cons, List.length_nil] at htwo hlen
    omega
  · cases h
    rfl

/-! ### One option -/

/-- The debug output can be opened again. -/
def DebugOpen (env : Env) (cfg : Config) : Prop :=
  ∀ file, cfg.debugFile = some file → DebugAccepted env file

/-- What an option asks of the configuration that the options before it left. -/
def OptMeets (cfg : Config) (optarg : CString) : Opt → Prop
  | .A => cfg.reverseFirst = false ∧ cfg.netL4ProtoValue ≠ .udp
  | .R => cfg.asynchronous = false
  | .W => cfg.netL4ProtoValue = .udp → atoi optarg ≤ 1
  | _ => True

/-- What an option asks of its argument alone: that it is accepted as the first one. -/
def OptFits (env : Env) (optarg : CString) (opt : Opt) : Prop :=
  OptAccepted env configDefault optarg opt ∧
    cmdoptCase env configDefault optarg opt = .ok (cmdoptEffect configDefault optarg opt)

theorem optAccepted_iff {cfg : Config} {optarg : CString} {opt : Opt} :
    OptAccepted env cfg optarg opt ↔
      OptAccepted env configDefault optarg opt ∧ OptMeets cfg optarg opt := by
  cases opt
  case A => exact ⟨fun h => ⟨⟨rfl, fun hu => by cases hu⟩, h⟩, fun h => h.2⟩
  case R => exact ⟨fun h => ⟨rfl, h⟩, fun h => h.2⟩
  case W => exact ⟨fun h => ⟨⟨h.1, fun hu => by cases hu⟩, h.2⟩, fun h => ⟨h.1.1, h.2⟩⟩
  all_goals exact ⟨fun h => ⟨h, trivial⟩, fun h => h.1⟩

theorem debugUpdate_ok (cfg : Config) (hd : DebugOpen env cfg) :
    debugUpdate env cfg = .ok () := by
  unfold debugUpdate
  split
  · rename_i file _ hfile
    rcases hd file hfile with rfl | rfl | hopen
    · rfl
    · rfl
    · simp only [hopen, if_true, ite_self]
  · rfl

/-- What the `switch` does with an option depends on its argument alone. -/
theorem cmdoptCase_eq_ok_iff {cfg : Config} {optarg : CString} {opt : Opt}
    (hd : DebugOpen env cfg) (hacc : OptAccepted env configDefault optarg opt) :
    cmdoptCase env cfg optarg opt = .ok (cmdoptEffect cfg optarg opt) ↔
      cmdoptCase env configDefault optarg opt = .ok (cmdoptEffect configDefault optarg opt) := by
  cases opt
  case A | b | F | P | R | h | v | l => simp [cmdoptCase, cmdoptEffect]
  case D =>
    have hnone : DebugOpen env { configDefault with debug := true } := fun _ h => by cases h
    have h₀ := debugUpdate_ok _ hnone
    have h₁ := debugUpdate_ok { cfg with debug := true } hd
    simp [cmdoptCase, cmdoptEffect, h₀, h₁, bind, Except.bind, pure, Except.pure]
  case d =>
    have hfile : ∀ cfg' : Config,
        DebugOpen env { cfg' with debugFile := some optarg, debug := true } :=
      fun _ _ h => by cases h; exact hacc.2
    have h₀ := debugUpdate_ok _ (hfile configDefault)
    have h₁ := debugUpdate_ok _ (hfile cfg)
    simp [cmdoptCase, cmdoptEffect, except_unit_bind_eq_ok, h₀, h₁, pure, Except.pure]
  case p =>
    rcases hacc with rfl | rfl
    · simp [cmdoptCase, cmdoptEffect, except_unit_bind_eq_ok, pure, Except.pure]
    · simp [cmdoptCase, cmdoptEffect, except_unit_bind_eq_ok, pure, Except.pure]
  all_goals simp [cmdoptCase, cmdoptEffect, except_unit_bind_eq_ok, pure, Except.pure]

theorem cmdoptEffect_debugOpen {cfg : Config} {optarg : CString} {opt : Opt}
    (hd : DebugOpen env cfg) (hacc : OptAccepted env configDefault optarg opt) :
    DebugOpen env (cmdoptEffect cfg optarg opt) := by
  cases opt
  case d =>
    rintro _ ⟨⟩
    exact hacc.2
  all_goals exact hd

/-- One turn of the option loop on an option that `getopt()` knows. -/
theorem cmdoptLoop_cons_eq_ok {o : OptItem} {results : List OptResult} {cfg cfg' : Config}
    (hd : DebugOpen env cfg) :
    cmdoptLoop env (o.result :: results) cfg = .ok cfg' ↔
      (OptFits env o.arg o.opt ∧ OptMeets cfg o.arg o.opt) ∧
        cmdoptLoop env results (cmdoptEffect cfg o.arg o.opt) = .ok cfg' := by
  rw [cmdoptLoop, except_unit_bind_eq_ok, except_bind_eq_ok, cmdoptSwitch_eq (optOf_result o)]
  constructor
  · rintro ⟨hcheck, cfg₁, hcase, hrest⟩
    obtain ⟨opt, optarg, hopt, hacc⟩ := usageCheckOptarg_eq_ok.mp hcheck
    rw [optOf_result] at hopt
    cases hopt
    obtain rfl := cmdoptCase_eq_ok hacc hcase
    obtain ⟨hfirst, hmeets⟩ := optAccepted_iff.mp hacc
    exact ⟨⟨⟨hfirst, (cmdoptCase_eq_ok_iff hd hfirst).mp hcase⟩, hmeets⟩, hrest⟩
  · rintro ⟨⟨⟨hfirst, hcase⟩, hmeets⟩, hrest⟩
    exact ⟨usageCheckOptarg_eq_ok.mpr
        ⟨o.opt, o.arg, optOf_result o, optAccepted_iff.mpr ⟨hfirst, hmeets⟩⟩,
      _, (cmdoptCase_eq_ok_iff hd hfirst).mpr hcase, hrest⟩

/-! ### The loop -/

/-- The configuration that a list of options leaves. -/
def optsConfig (opts : List OptItem) (cfg : Config) : Config :=
  opts.foldl (fun cfg o => cmdoptEffect cfg o.arg o.opt) cfg

theorem optsConfig_cons (o : OptItem) (opts : List OptItem) (cfg : Config) :
    optsConfig (o :: opts) cfg = optsConfig opts (cmdoptEffect cfg o.arg o.opt) := rfl

/-- What each of the options keeps, all of them keep. -/
theorem optsConfig_keeps {opts : List OptItem} (I : Config → Prop)
    (hstep : ∀ o ∈ opts, ∀ cfg, I cfg → I (cmdoptEffect cfg o.arg o.opt)) {cfg : Config}
    (hI : I cfg) : I (optsConfig opts cfg) := by
  induction opts generalizing cfg with
  | nil => exact hI
  | cons o opts ih =>
      exact ih (fun o' ho' => hstep o' (List.mem_cons_of_mem _ ho'))
        (hstep o (List.mem_cons_self ..) cfg hI)

theorem optsConfig_asynchronous (opts : List OptItem) {cfg : Config}
    (h : cfg.asynchronous = true) : (optsConfig opts cfg).asynchronous = true := by
  refine optsConfig_keeps (fun c => c.asynchronous = true) ?_ h
  intro o _ c hc
  cases o.opt <;> first | exact hc | rfl

theorem optsConfig_reverseFirst (opts : List OptItem) {cfg : Config}
    (h : cfg.reverseFirst = true) : (optsConfig opts cfg).reverseFirst = true := by
  refine optsConfig_keeps (fun c => c.reverseFirst = true) ?_ h
  intro o _ c hc
  cases o.opt <;> first | exact hc | rfl

theorem optsConfig_proto {opts : List OptItem} (hp : .p ∉ opts.map OptItem.opt) (cfg : Config) :
    (optsConfig opts cfg).netL4ProtoValue = cfg.netL4ProtoValue := by
  refine optsConfig_keeps (fun c => c.netL4ProtoValue = cfg.netL4ProtoValue) ?_ rfl
  intro o ho c hc
  cases h : o.opt
  case p => exact absurd (List.mem_map.mpr ⟨o, ho, h⟩) hp
  all_goals exact hc

theorem optsConfig_workerCount {opts : List OptItem} (hW : .W ∉ opts.map OptItem.opt)
    (cfg : Config) : (optsConfig opts cfg).workerCount = cfg.workerCount := by
  refine optsConfig_keeps (fun c => c.workerCount = cfg.workerCount) ?_ rfl
  intro o ho c hc
  cases h : o.opt
  case W => exact absurd (List.mem_map.mpr ⟨o, ho, h⟩) hW
  all_goals exact hc

/-- What `_config_sanity()` asks of a configuration that the options could have been
checked for. -/
structure Sound (cfg : Config) : Prop where
  order : cfg.asynchronous = true → cfg.reverseFirst = false
  udpAsync : cfg.netL4ProtoValue = .udp → cfg.asynchronous = false
  udpWorkers : cfg.netL4ProtoValue = .udp → cfg.workerCount = 1

/-- A sound result met every check on the way: no option takes back what `-A`, `-R`,
`-p udp` or `-W` wrote. -/
theorem optMeets_of_sound {o : OptItem} {opts : List OptItem} {cfg : Config}
    (hdist : ((o :: opts).map OptItem.opt).Nodup) (hfits : OptFits env o.arg o.opt)
    (hudp : cfg.netL4ProtoValue = .udp → .p ∉ (o :: opts).map OptItem.opt)
    (hsound : Sound (optsConfig (o :: opts) cfg)) : OptMeets cfg o.arg o.opt := by
  -- The protocol is the one of the end, once it is UDP.
  have hproto : cfg.netL4ProtoValue = .udp →
      (optsConfig (o :: opts) cfg).netL4ProtoValue = .udp := by
    intro hu
    rw [optsConfig_proto (hudp hu), hu]
  rw [List.map_cons, List.nodup_cons] at hdist
  cases ho : o.opt
  case A =>
    have ha : (optsConfig (o :: opts) cfg).asynchronous = true := by
      rw [optsConfig_cons, ho]
      exact optsConfig_asynchronous opts rfl
    constructor
    · by_contra hr
      have hrev := optsConfig_reverseFirst (o :: opts) (eq_true_of_ne_false hr)
      exact absurd (hrev.symm.trans (hsound.order ha)) (by decide)
    · intro hu
      exact absurd (ha.symm.trans (hsound.udpAsync (hproto hu))) (by decide)
  case R =>
    by_contra ha
    have hrev : (optsConfig (o :: opts) cfg).reverseFirst = true := by
      rw [optsConfig_cons, ho]
      exact optsConfig_reverseFirst opts rfl
    have ha' := optsConfig_asynchronous (o :: opts) (eq_true_of_ne_false ha)
    exact absurd (hrev.symm.trans (hsound.order ha')) (by decide)
  case W =>
    intro hu
    have hone := hsound.udpWorkers (hproto hu)
    rw [ho] at hdist hfits
    obtain ⟨⟨⟨hlo, hhi⟩, -⟩, -⟩ := hfits
    have hcount : (optsConfig (o :: opts) cfg).workerCount
        = UInt32.ofNat (UInt16.ofInt (atoi o.arg)).toNat := by
      rw [optsConfig_cons, ho]
      exact optsConfig_workerCount hdist.1 _
    have hnat := toNat_workerCount hlo hhi
    rw [← hcount, hone] at hnat
    have h1 : (1 : UInt32).toNat = 1 := rfl
    omega
  all_goals trivial

/-- The loop accepts what fits and comes out sound. -/
theorem cmdoptLoop_eq_ok_of_sound {opts : List OptItem} {cfg : Config} (hd : DebugOpen env cfg)
    (hdist : (opts.map OptItem.opt).Nodup) (hfits : ∀ o ∈ opts, OptFits env o.arg o.opt)
    (hudp : cfg.netL4ProtoValue = .udp → .p ∉ opts.map OptItem.opt)
    (hsound : Sound (optsConfig opts cfg)) :
    cmdoptLoop env (opts.map OptItem.result) cfg = .ok (optsConfig opts cfg) := by
  induction opts generalizing cfg with
  | nil => rfl
  | cons o opts ih =>
      have hfit := hfits o (List.mem_cons_self ..)
      have hmeets := optMeets_of_sound hdist hfit hudp hsound
      rw [List.map_cons, cmdoptLoop_cons_eq_ok hd]
      refine ⟨⟨hfit, hmeets⟩, ih (cmdoptEffect_debugOpen hd hfit.1) ?_
        (fun o' ho' => hfits o' (List.mem_cons_of_mem _ ho')) ?_ hsound⟩
      · exact (List.nodup_cons.mp hdist).2
      · -- UDP comes from this option or from one before, and never from a later one.
        rw [List.map_cons, List.nodup_cons] at hdist
        intro hu hmem
        cases ho : o.opt
        case p => exact hdist.1 (ho ▸ hmem)
        all_goals
          rw [ho] at hu
          exact hudp hu (List.mem_cons_of_mem _ hmem)

/-- A loop that returns has accepted every option. -/
theorem cmdoptLoop_results_eq_ok {opts : List OptItem} {cfg cfg' : Config}
    (hd : DebugOpen env cfg) (h : cmdoptLoop env (opts.map OptItem.result) cfg = .ok cfg') :
    (∀ o ∈ opts, OptFits env o.arg o.opt) ∧ cfg' = optsConfig opts cfg := by
  induction opts generalizing cfg with
  | nil =>
      cases h
      exact ⟨fun o ho => absurd ho (List.not_mem_nil), rfl⟩
  | cons o opts ih =>
      rw [List.map_cons, cmdoptLoop_cons_eq_ok hd] at h
      obtain ⟨⟨hfit, -⟩, hrest⟩ := h
      obtain ⟨hfits, heq⟩ := ih (cmdoptEffect_debugOpen hd hfit.1) hrest
      refine ⟨?_, heq⟩
      intro o' ho'
      rcases List.mem_cons.mp ho' with rfl | ho'
      · exact hfit
      · exact hfits o' ho'

/-! ### The command line -/

/-- What `config_init()` does after the option loop. -/
def configFinish (env : Env) (operands : List CString) (cfg : Config) : Except Halt Config :=
  cmdoptOperands env operands cfg >>= fun cfg => do
    configConsistency (configWorkers cfg)
    configSanity env (configWorkers cfg)
    return configWorkers cfg

theorem cAssert_eq_ok (hassert : env.ndebug = false) {cond : Bool} {expr : String} :
    cAssert env cond expr = .ok () ↔ cond = true := by
  cases cond <;> simp [cAssert, hassert]

theorem cAsserts_eq_ok (hassert : env.ndebug = false) {asserts : List (Bool × String)}
    (h : cAsserts env asserts = .ok ()) {a : Bool × String} (ha : a ∈ asserts) : a.1 = true := by
  induction asserts with
  | nil => cases ha
  | cons b asserts ih =>
      rw [cAsserts, except_unit_bind_eq_ok, cAssert_eq_ok hassert] at h
      rcases List.mem_cons.mp ha with rfl | ha
      · exact h.1
      · exact ih h.2 ha

/-- The last assertions of `_config_sanity()` make up for the checks that depend on the
order. -/
theorem sound_of_configSanity (hassert : env.ndebug = false) {cfg : Config}
    (h : configSanity env cfg = .ok ()) : Sound cfg where
  order := by
    have ha := cAsserts_eq_ok hassert h
      (a := (!cfg.asynchronous || !cfg.reverseFirst, "!current->config->reverse_first"))
      (by simp [sanityAsserts])
    intro hasync
    simpa [hasync] using ha
  udpAsync := by
    have ha := cAsserts_eq_ok hassert h (a := (cfg.netL4ProtoValue != .udp || !cfg.asynchronous,
      "current->config->net_l4_proto_value == UBWT_NET_PROTO_L4_UDP && !current->config->asynchronous"))
      (by simp [sanityAsserts])
    intro hu
    simpa [hu] using ha
  udpWorkers := by
    have ha := cAsserts_eq_ok hassert h (a := (cfg.netL4ProtoValue != .udp || cfg.workerCount == 1,
      "current->config->net_l4_proto_value == UBWT_NET_PROTO_L4_UDP && current->config->worker_count == 1"))
      (by simp [sanityAsserts])
    intro hu
    simpa [hu] using ha

theorem sound_of_configWorkers {cfg : Config} (h : Sound (configWorkers cfg)) : Sound cfg := by
  have hfields : (configWorkers cfg).asynchronous = cfg.asynchronous ∧
      (configWorkers cfg).reverseFirst = cfg.reverseFirst ∧
      (configWorkers cfg).netL4ProtoValue = cfg.netL4ProtoValue ∧
      (cfg.asynchronous = false → (configWorkers cfg).workerCount = cfg.workerCount) := by
    unfold configWorkers
    split
    · rename_i ha
      exact ⟨rfl, rfl, rfl, fun hf => absurd (ha.symm.trans hf) (by decide)⟩
    · split <;> exact ⟨rfl, rfl, rfl, fun _ => rfl⟩
  obtain ⟨hasync, hrev, hproto, hcount⟩ := hfields
  obtain ⟨horder, hudpAsync, hudpWorkers⟩ := h
  rw [hasync, hrev] at horder
  rw [hproto, hasync] at hudpAsync
  rw [hproto] at hudpWorkers
  exact ⟨horder, hudpAsync, fun hu => (hcount (hudpAsync hu)).symm.trans (hudpWorkers hu)⟩

theorem configFinish_operands {operands : List CString} {cfg cfg' : Config}
    (h : configFinish env operands cfg = .ok cfg') : ∃ role addr, roleAddr operands role addr := by
  by_contra hno
  obtain ⟨e, -, heq⟩ := cmdoptOperands_other (fun r a h => hno ⟨r, a, h⟩) cfg
  rw [configFinish, heq] at h
  cases h

/-- What is finished was sound after the option loop. -/
theorem sound_of_configFinish (hassert : env.ndebug = false) {operands : List CString}
    {cfg cfg' : Config} (h : configFinish env operands cfg = .ok cfg') : Sound cfg := by
  obtain ⟨role, addr, hra⟩ := configFinish_operands h
  rw [configFinish, except_bind_eq_ok] at h
  obtain ⟨cfg₁, hops, h⟩ := h
  rw [except_unit_bind_eq_ok, except_unit_bind_eq_ok] at h
  obtain ⟨-, hsanity, -⟩ := h
  have hs := sound_of_configWorkers (sound_of_configSanity hassert hsanity)
  rw [cmdoptOperands_roleAddr hra, except_unit_bind_eq_ok] at hops
  cases hops.2
  unfold roleConfig at hs
  split at hs <;> split at hs <;> exact { hs with }

theorem configInit_eq_finish (env : Env) (args : List CString) :
    configInit env args =
      cmdoptLoop env (getopt (cmdoptFlags env.debugBuild) none args).1 configDefault >>=
        configFinish env (getopt (cmdoptFlags env.debugBuild) none args).2 :=
  configInit_eq env args

/-- `getopt()` returns '?' for an option that the build does not know. -/
theorem exists_bad_of_unknown {opts : List OptItem} {o : OptItem} (ho : o ∈ opts)
    (hk : o.opt.known env = false) (rest : List CString) :
    ∃ c, .bad c ∈
      (getopt (cmdoptFlags env.debugBuild) none (opts.flatMap OptItem.words ++ rest)).1 := by
  induction opts with
  | nil => cases ho
  | cons o₁ opts ih =>
      rw [List.flatMap_cons, List.append_assoc]
      cases hk₁ : o₁.opt.known env with
      | false =>
          obtain ⟨results, hresults⟩ :=
            getopt_words_unknown hk₁ (opts.flatMap OptItem.words ++ rest)
          rw [hresults]
          exact ⟨_, List.mem_cons_self ..⟩
      | true =>
          rw [getopt_words hk₁]
          rcases List.mem_cons.mp ho with rfl | ho
          · exact absurd (hk.symm.trans hk₁) (by decide)
          · obtain ⟨c, hc⟩ := ih ho
            exact ⟨c, List.mem_cons_of_mem _ hc⟩

/-- The option loop does not get past a '?'. -/
theorem cmdoptLoop_bad {results : List OptResult} {c : Char} (hbad : .bad c ∈ results)
    (cfg cfg' : Config) : cmdoptLoop env results cfg ≠ .ok cfg' := by
  induction results generalizing cfg with
  | nil => cases hbad
  | cons res results ih =>
      intro h
      rw [cmdoptLoop, except_unit_bind_eq_ok, except_bind_eq_ok] at h
      obtain ⟨hcheck, cfg₁, -, hrest⟩ := h
      rcases List.mem_cons.mp hbad with rfl | hbad
      · simp [usageCheckOptarg] at hcheck
      · exact ih hbad cfg₁ hrest

/-- What is accepted has options that the build knows and that fit, and leaves what is
finished. -/
theorem fits_of_configInit {opts : List OptItem} {role addr : CString} {cfg : Config}
    (h : configInit env (commandLine opts role addr) = .ok cfg) :
    (∀ o ∈ opts, o.opt.known env = true ∧ OptFits env o.arg o.opt) ∧
      (getopt (cmdoptFlags env.debugBuild) none [role, addr]).1 = [] ∧
      configFinish env (getopt (cmdoptFlags env.debugBuild) none [role, addr]).2
        (optsConfig opts configDefault) = .ok cfg := by
  have hopen : DebugOpen env configDefault := fun _ h => by cases h
  rw [configInit_eq_finish, commandLine] at h
  have hk : ∀ o ∈ opts, o.opt.known env = true := by
    intro o ho
    by_contra hunknown
    obtain ⟨c, hc⟩ := exists_bad_of_unknown ho (eq_false_of_ne_true hunknown) [role, addr]
    rw [except_bind_eq_ok] at h
    obtain ⟨cfg₁, hloop, -⟩ := h
    exact cmdoptLoop_bad hc _ _ hloop
  rw [getopt_commandLine hk, Prod.map_fst, Prod.map_snd, except_bind_eq_ok] at h
  obtain ⟨cfg₁, hloop, hfinish⟩ := h
  -- Two operands are left, so no option stands behind the list.
  have hnone : (getopt (cmdoptFlags env.debugBuild) none [role, addr]).1 = [] := by
    obtain ⟨role', addr', htwo, -⟩ := configFinish_operands hfinish
    exact getopt_operands (Prod.ext rfl htwo)
  rw [hnone, List.append_nil] at hloop
  obtain ⟨hfits, rfl⟩ := cmdoptLoop_results_eq_ok hopen hloop
  exact ⟨fun o ho => ⟨hk o ho, hfits o ho⟩, hnone, hfinish⟩

/-- **What `config_init` accepts**: every option is known and fits by itself, and the
configuration they leave is finished. -/
theorem configInit_commandLine_eq_ok (hassert : env.ndebug = false) {opts : List OptItem}
    (hdist : (opts.map OptItem.opt).Nodup) {role addr : CString} {cfg : Config} :
    configInit env (commandLine opts role addr) = .ok cfg ↔
      (∀ o ∈ opts, o.opt.known env = true ∧ OptFits env o.arg o.opt) ∧
        (getopt (cmdoptFlags env.debugBuild) none [role, addr]).1 = [] ∧
        configFinish env (getopt (cmdoptFlags env.debugBuild) none [role, addr]).2
          (optsConfig opts configDefault) = .ok cfg := by
  refine ⟨fits_of_configInit, ?_⟩
  rintro ⟨hfits, hnone, hfinish⟩
  have hopen : DebugOpen env configDefault := fun _ h => by cases h
  rw [configInit_eq_finish, commandLine, getopt_commandLine fun o ho => (hfits o ho).1,
    Prod.map_fst, Prod.map_snd, except_bind_eq_ok, hnone, List.append_nil]
  refine ⟨_, cmdoptLoop_eq_ok_of_sound hopen hdist (fun o ho => (hfits o ho).2) ?_
    (sound_of_configFinish hassert hfinish), hfinish⟩
  exact fun hu => by cases hu

/-! ### Permutations -/

/-- Options with different letters write in any order. -/
theorem cmdoptEffect_comm {x y : Opt} (h : x ≠ y) (cfg : Config) (a b : CString) :
    cmdoptEffect (cmdoptEffect cfg a x) b y = cmdoptEffect (cmdoptEffect cfg b y) a x := by
  cases x <;> cases y <;> first | rfl | exact absurd rfl h

theorem optsConfig_perm {opts opts' : List OptItem} (hdist : (opts.map OptItem.opt).Nodup)
    (hperm : opts.Perm opts') (cfg : Config) : optsConfig opts cfg = optsConfig opts' cfg := by
  refine hperm.foldl_eq' ?_ cfg
  intro x hx y hy c
  by_cases hxy : x.opt = y.opt
  · obtain rfl := List.inj_on_of_nodup_map hdist hx hy hxy
    rfl
  · exact cmdoptEffect_comm hxy c x.arg y.arg

/-- **The order of the options does not matter**: a command line and each permutation of
its options are both accepted, with the same configuration, or both rejected. Assertions
are compiled in, as in every build of the repository. -/
theorem configInit_perm (hassert : env.ndebug = false) {opts opts' : List OptItem}
    (hopts : Comparable env opts) (hperm : opts.Perm opts') (role addr : CString) (cfg : Config) :
    configInit env (commandLine opts role addr) = .ok cfg ↔
      configInit env (commandLine opts' role addr) = .ok cfg := by
  have hdist' : (opts'.map OptItem.opt).Nodup := (hperm.map _).nodup_iff.mp hopts.distinct
  rw [configInit_commandLine_eq_ok hassert hopts.distinct,
    configInit_commandLine_eq_ok hassert hdist', optsConfig_perm hopts.distinct hperm]
  have hmem : (∀ o ∈ opts, o.opt.known env = true ∧ OptFits env o.arg o.opt) ↔
      ∀ o ∈ opts', o.opt.known env = true ∧ OptFits env o.arg o.opt := by
    simp only [hperm.mem_iff]
  rw [hmem]

/-- `ubwt -A -W3 -o 4 listener 0.0.0.0` and the same with the options the other way round. -/
theorem configInit_perm_async :
    ∃ cfg, configInit ⟨true, false, fun _ _ => true⟩
        (commandLine [⟨.A, [], false⟩, ⟨.W, "3".toList, true⟩, ⟨.o, "4".toList, false⟩]
          "listener".toList "0.0.0.0".toList) = .ok cfg ∧
      configInit ⟨true, false, fun _ _ => true⟩
        (commandLine [⟨.o, "4".toList, false⟩, ⟨.W, "3".toList, true⟩, ⟨.A, [], false⟩]
          "listener".toList "0.0.0.0".toList) = .ok cfg := by
  refine Exists.imp (fun cfg h => ⟨h, (configInit_perm rfl ?_ ?_ _ _ cfg).mp h⟩) ⟨_, rfl⟩
  · exact ⟨by decide, by decide, by decide, by simp, by decide, by decide⟩
  · decide

end Ubwt
