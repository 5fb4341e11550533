import Ubwt.Config.Basic

/-!
# Ubwt.Config.Init

`config_init`: the checks of the options in `usage_check_optarg`, the option loop of
`_config_cmdopt_process`, the worker counts, `_config_consistency` and `_config_sanity`.

A value that a user gives passes three layers: `usageCheckOptarg` looks at one option
at the moment it is read, `configConsistency` at the finished configuration, and the
assertions (`cAssert`) at both. The first two end in `Halt.error`, the third in
`Halt.assertion`. `malloc` is taken to succeed.
-/

namespace Ubwt

open Lib.Posix

/-! ### usage_check_optarg -/

/-- The checks of `usage_check_optarg()` on a value. -/
def rejectOptarg (bad : Bool) (what : String) : Except Halt Unit :=
  rejectIf bad .configArgvOptargInvalid ("usage_check_optarg(): " ++ what)

/-- A file that has to be named and to open. -/
def checkFile (env : Env) (mode : FileMode) (optarg : CString) (empty unopened : String) :
    Except Halt Unit := do
  rejectOptarg (optarg.length == 0) empty
  rejectOptarg (!env.fopen optarg mode) unopened

/-- `usage_check_optarg()` on an option that `getopt()` knows. -/
def usageCheckOpt (env : Env) (cfg : Config) (optarg : CString) : Opt → Except Halt Unit
  | .D | .b | .F | .h | .v => .ok ()
  | .A => do
      rejectOptarg cfg.reverseFirst "Option -A cannot be used in combination with option -R"
      rejectOptarg (cfg.netL4ProtoValue == .udp)
        "Option -A is not supported when using UDP protocol"
  | .B => rejectOptarg (atol optarg < 0 || atol optarg > 2147483647)
      "Value for -B must be between 0 and 2147483647"
  | .C => checkFile env .read optarg "Value for -C cannot be empty"
      "Value for -C valid file path with read permissions"
  | .d =>
      -- The two streams are not opened.
      if optarg.length != 0 && (optarg == "stderr".toList || optarg == "stdout".toList) then .ok ()
      else checkFile env .appendPlus optarg "Value for -d cannot be empty"
        "Value for -d valid file path with write permissions"
  | .R => rejectOptarg cfg.asynchronous "Option -R cannot be used in combination with option -A"
  | .I => rejectOptarg (atoi optarg < 0 || atoi optarg ≥ 65536)
      "Value for -I must be between 0 and 65535"
  | .j => checkFile env .writePlus optarg "Value for -j cannot be empty"
      "Value for -j valid file path with write permissions"
  | .m => rejectOptarg (atoi optarg < configTalkPayloadMinSize.toNat || atoi optarg ≥ 65536)
      "Value for -m must be between 508 and 65535"
  | .M => rejectOptarg (atoi optarg ≤ 1 || atoi optarg ≥ configTalkCountMulMax.toNat)
      "Value for -M must be greater than 1 and less than 10000000"
  | .N => rejectOptarg (atoi optarg ≤ 0 || atoi optarg ≥ 65536)
      "Value for -N must be between 1 and 65535"
  | .o => rejectOptarg (atoi optarg < 1 || atoi optarg ≥ 65536)
      "Value for -o must be between 1 and 65535"
  | .O => rejectOptarg (atoi optarg < 1 || atoi optarg ≥ 65536)
      "Value for -O must be between 1 and 65535"
  | .p => do
      rejectOptarg (optarg.length ≥ configL4ProtoNameSize)
        "Value for -p is too long. Must be 'tcp' or 'udp'"
      rejectOptarg (optarg != "tcp".toList && optarg != "udp".toList)
        "Value for -p is invalid. Must be 'tcp' or 'udp'"
  | .P => rejectOptarg (atoi optarg ≤ 0 || atoi optarg ≥ 65536)
      "Value for -P must be between 1 and 65535"
  | .r => checkFile env .writePlus optarg "Value for -r cannot be empty"
      "Value for -r valid file path with write permissions"
  | .s => rejectOptarg (atoi optarg < configTalkPayloadMinSize.toNat || atoi optarg ≥ 65536)
      "Value for -s must be between 508 and 65535"
  | .t => rejectOptarg (atoi optarg ≤ 0 || atoi optarg ≥ 65536)
      "Value for -t must be between 1 and 65535"
  | .T => rejectOptarg (atoi optarg ≤ 0 || atoi optarg ≥ 65536)
      "Value for -T must be between 1 and 65535"
  | .w => rejectOptarg (atoi optarg ≤ 0 || atoi optarg ≥ 65536)
      "Value for -w must be between 1 and 65535"
  | .W => do
      rejectOptarg (atoi optarg ≤ 0 || atoi optarg > 1024)
        "Value for -W must be between 1 and 1024"
      rejectOptarg (cfg.netL4ProtoValue == .udp && atoi optarg > 1)
        "Value for -W must be 1 when using UDP protocol"
  -- `-l` is in the option string and nowhere else.
  | .l => rejectIf true .configArgvOptInvalid
      "usage_cehck_optarg(): Unknown value returned by getopt(): 0154"

/-- `usage_check_optarg()`. -/
def usageCheckOptarg (env : Env) (cfg : Config) : OptResult → Except Halt Unit
  | .opt c optarg =>
      match Opt.ofChar c with
      | some opt => usageCheckOpt env cfg (optarg.getD []) opt
      | none => rejectIf true .configArgvOptInvalid
          ("usage_cehck_optarg(): Unknown value returned by getopt(): 0"
            ++ String.ofList (Nat.toDigits 8 c.toNat))
  | .bad optopt => rejectIf true .configArgvOptInvalid
      ("usage_check_optarg(): An unrecognized command-line option was used (-"
        ++ optopt.toString ++ ")")

/-! ### _config_cmdopt_process -/

/-- `debug_update()`. -/
def debugUpdate (env : Env) (cfg : Config) : Except Halt Unit :=
  match cfg.debug, cfg.debugFile with
  | true, some file =>
      if file == "stderr".toList || file == "stdout".toList then .ok ()
      else if env.fopen file .appendPlus then .ok () else .error (.abort "debug_update")
  | _, _ => .ok ()

/-- `strncpy()` into an array of `size` characters that ends in 0. -/
def strncpyTo (size : Nat) (s : CString) : CString := s.take (size - 1)

/-- One turn of the `switch` of `_config_cmdopt_process()`. -/
def cmdoptCase (env : Env) (cfg : Config) (optarg : CString) : Opt → Except Halt Config
  | .A => .ok { cfg with asynchronous := true, bidirectional := true }
  | .b => .ok { cfg with bidirectional := true }
  | .B => do
      cAssert env (atol optarg ≥ 0 && atol optarg ≤ 2147483647)
        "atol(optarg) >= 0 && atol(optarg) <= 2147483647"
      return { cfg with netPayloadBufferSize := UInt32.ofInt (atol optarg) }
  | .C => do
      cAssert env (optarg.length > 0) "strlen(optarg) > 0"
      return { cfg with netPayloadBufferFile := some optarg }
  | .d => do
      cAssert env (optarg.length > 0) "strlen(optarg) > 0"
      let cfg := { cfg with debugFile := some optarg, debug := true }
      debugUpdate env cfg
      return cfg
  | .D => do
      let cfg := { cfg with debug := true }
      debugUpdate env cfg
      return cfg
  | .F => .ok { cfg with reportFull := true }
  | .h => .error (.exit true)
  | .I => do
      cAssert env (atoi optarg ≥ 0 && atoi optarg < 65536)
        "atoi(optarg) >= 0 && atoi(optarg) < 65536"
      return { cfg with talkHandshakeInterval := UInt16.ofInt (atoi optarg) }
  | .j => do
      cAssert env (optarg.length > 0) "strlen(optarg) > 0"
      return { cfg with reportJsonFile := some optarg }
  | .m => do
      cAssert env (atoi optarg ≥ configTalkPayloadMinSize.toNat && atoi optarg < 65536)
        "atoi(optarg) >= UBWT_CONFIG_TALK_PAYLOAD_MIN_SIZE && atoi(optarg) < 65536"
      return { cfg with netMtu := UInt16.ofInt (atoi optarg) }
  | .M => do
      cAssert env (atoi optarg > 1 && atoi optarg < configTalkCountMulMax.toNat)
        "atoi(optarg) > 1 && atoi(optarg) < UBWT_CONFIG_TALK_COUNT_MUL_MAX"
      return { cfg with talkCountMul := UInt32.ofInt (atoi optarg) }
  | .N => do
      cAssert env (atoi optarg > 0 && atoi optarg < 65536)
        "atoi(optarg) > 0 && atoi(optarg) < 65536"
      return { cfg with talkHandshakeIter := UInt16.ofInt (atoi optarg) }
  | .o => do
      cAssert env (atoi optarg > 0 && atoi optarg < 65536)
        "atoi(optarg) > 0 && atoi(optarg) < 65536"
      return { cfg with processReverseDelay := UInt16.ofInt (atoi optarg), bidirectional := true }
  | .O => do
      cAssert env (atoi optarg > 0 && atoi optarg < 65536)
        "atoi(optarg) > 0 && atoi(optarg) < 65536"
      return { cfg with netTimeoutTalkStreamEnd := UInt16.ofInt (atoi optarg) }
  | .p => do
      cAssert env (optarg.length < configL4ProtoNameSize)
        "strlen(optarg) < sizeof(current->config->net_l4_proto_name)"
      let cfg := { cfg with netL4ProtoName := strncpyTo configL4ProtoNameSize optarg }
      if optarg = "tcp".toList then return { cfg with netL4ProtoValue := .tcp }
      else if optarg = "udp".toList then return { cfg with netL4ProtoValue := .udp }
      else .error (.exit false)
  | .P => .ok { cfg with port := strncpyTo configPortSize optarg }
  | .r => do
      cAssert env (optarg.length > 0) "strlen(optarg) > 0"
      return { cfg with pidFile := some optarg }
  | .R => .ok { cfg with reverseFirst := true }
  | .s => do
      cAssert env (atoi optarg ≥ configTalkPayloadMinSize.toNat && atoi optarg < 65536)
        "atoi(optarg) >= UBWT_CONFIG_TALK_PAYLOAD_MIN_SIZE && atoi(optarg) < 65536"
      return { cfg with talkPayloadDefaultSize := UInt16.ofInt (atoi optarg) }
  | .t => do
      cAssert env (atoi optarg > 0 && atoi optarg < 65536)
        "atoi(optarg) > 0 && atoi(optarg) < 65536"
      return { cfg with talkStreamMinimumTime := UInt16.ofInt (atoi optarg) }
  | .T => do
      -- Not the bound of `usage_check_optarg()`: the default of `-O` stands here.
      cAssert env (atoi optarg > 0 && atoi optarg < configNetTimeoutTalkStreamEnd.toNat)
        "atoi(optarg) > 0 && atoi(optarg) < UBWT_CONFIG_NET_TIMEOUT_TALK_STREAM_END"
      return { cfg with netTimeoutTalkStreamRun := UInt16.ofInt (atoi optarg) }
  | .v => .error (.exit true)
  | .w => do
      cAssert env (atoi optarg > 0 && atoi optarg < 65536)
        "atoi(optarg) > 0 && atoi(optarg) < 65536"
      return { cfg with netTimeoutDefault := UInt16.ofInt (atoi optarg) }
  | .W => do
      cAssert env (atoi optarg > 0 && atoi optarg ≤ 1024)
        "atoi(optarg) > 0 && atoi(optarg) <= 1024"
      return { cfg with workerCount := UInt32.ofNat (UInt16.ofInt (atoi optarg)).toNat }
  | .l => .error (.error .configArgvOptInvalid "_config_cmdopt_process()")

/-- The `switch` on any result of `getopt()`. -/
def cmdoptSwitch (env : Env) (cfg : Config) : OptResult → Except Halt Config
  | .opt c optarg =>
      match Opt.ofChar c with
      | some opt => cmdoptCase env cfg (optarg.getD []) opt
      | none => .error (.error .configArgvOptInvalid "_config_cmdopt_process()")
  | .bad _ => .error (.error .configArgvOptInvalid "_config_cmdopt_process()")

/-- The `while` loop of `_config_cmdopt_process()`. -/
def cmdoptLoop (env : Env) : List OptResult → Config → Except Halt Config
  | [], cfg => .ok cfg
  | opt :: opts, cfg => do
      usageCheckOptarg env cfg opt
      let cfg ← cmdoptSwitch env cfg opt
      cmdoptLoop env opts cfg

/-- What follows the loop of `_config_cmdopt_process()`, with `argv` from `optind` on. -/
def cmdoptOperands (env : Env) (operands : List CString) (cfg : Config) : Except Halt Config :=
  let cfg := if env.debugBuild && cfg.debug then { cfg with errorLogMinLevel := .info } else cfg
  match operands with
  | [role, addr] => do
      let cfg ←
        if role = "connector".toList then .ok { cfg with imConnector := true }
        else if role = "listener".toList then .ok { cfg with imListener := true }
        else .error (.error .configArgv1Invalid "config_init()")
      cAssert env (addr.length < configAddrSize)
        "strlen(argv[optind]) < sizeof(current->config->addr)"
      return { cfg with addr := strncpyTo configAddrSize addr }
  | _ => .error (.exit false)

/-- `_config_cmdopt_process()`; `args` is `argv` without the name of the program. -/
def configCmdoptProcess (env : Env) (args : List CString) (cfg : Config) : Except Halt Config := do
  let (opts, operands) := getopt (cmdoptFlags env.debugBuild) none args
  let cfg ← cmdoptLoop env opts cfg
  cmdoptOperands env operands cfg

/-! ### _config_consistency and _config_sanity -/

/-- The checks of `_config_consistency()`. -/
def rejectInconsistent (bad : Bool) (what : String) : Except Halt Unit :=
  rejectIf bad .configConsistencyFailed ("_config_consistency(): " ++ what)

/-- `_config_consistency()`. -/
def configConsistency (cfg : Config) : Except Halt Unit := do
  rejectInconsistent (cfg.netTimeoutTalkStreamRun ≥ cfg.netTimeoutTalkStreamEnd)
    ("The specified stream run timeout value (" ++ toString cfg.netTimeoutTalkStreamRun
      ++ ") cannot be equal or greater than the stream end timeout value ("
      ++ toString cfg.netTimeoutTalkStreamEnd ++ ")")
  rejectInconsistent (cfg.netTimeoutTalkStreamEnd ≥ cfg.netTimeoutDefault)
    ("The specified stream end timeout value (" ++ toString cfg.netTimeoutTalkStreamEnd
      ++ ") cannot be equal or greater than the connection timeout value ("
      ++ toString cfg.netTimeoutDefault ++ ")")
  rejectInconsistent (cfg.processReverseDelay ≥ cfg.netTimeoutTalkStreamEnd)
    ("The specified delay time for process reverse (" ++ toString cfg.processReverseDelay
      ++ ") cannot be equal or greater than the stream end timeout value ("
      ++ toString cfg.netTimeoutTalkStreamEnd ++ ")")
  rejectInconsistent (cfg.netPayloadBufferSize != 0 && cfg.netPayloadBufferFile.isNone)
    ("A payload buffer size was specified (-B " ++ toString cfg.netPayloadBufferSize
      ++ ") without a source file (-C)")
  rejectInconsistent (cfg.netPayloadBufferSize == 0 && cfg.netPayloadBufferFile.isSome)
    ("A source file was specified (-C " ++ String.ofList (cfg.netPayloadBufferFile.getD [])
      ++ ") without a buffer size (-B)")
  rejectInconsistent (cfg.netPayloadBufferSize != 0 &&
      cfg.netPayloadBufferSize.toNat < cfg.talkPayloadDefaultSize.toNat)
    ("The specified buffer size (" ++ toString cfg.netPayloadBufferSize
      ++ ") cannot be smaller than the payload size (" ++ toString cfg.talkPayloadDefaultSize ++ ")")

/-- The assertions of `_config_sanity()`, in order; one that stands under an `if` holds
when the condition does not. -/
def sanityAsserts (cfg : Config) : List (Bool × String) :=
  [ (cfg.port.length ≤ 5 && atoi cfg.port ≥ 1 && atoi cfg.port ≤ 65535,
      "strlen(current->config->port) <= 5 && atoi(current->config->port) >= 1 && (atoi(current->config->port) <= 65535)"),
    (cfg.netMtu ≥ configTalkPayloadMinSize,
      "current->config->net_mtu >= UBWT_CONFIG_TALK_PAYLOAD_MIN_SIZE"),
    (cfg.netTimeoutDefault > 0 && cfg.netTimeoutDefault ≤ 65535,
      "current->config->net_timeout_default > 0 && current->config->net_timeout_default <= 65535"),
    (cfg.netTimeoutTalkStreamEnd > 0 && cfg.netTimeoutTalkStreamEnd < cfg.netTimeoutDefault,
      "current->config->net_timeout_talk_stream_end > 0 && current->config->net_timeout_talk_stream_end < current->config->net_timeout_default"),
    (cfg.netTimeoutTalkStreamRun > 0 && cfg.netTimeoutTalkStreamRun < cfg.netTimeoutTalkStreamEnd,
      "current->config->net_timeout_talk_stream_run > 0 && current->config->net_timeout_talk_stream_run < current->config->net_timeout_talk_stream_end"),
    (cfg.netL4ProtoValue != .unset, "current->config->net_l4_proto_value != 0"),
    (cfg.processReverseDelay > 0 && cfg.processReverseDelay < cfg.netTimeoutTalkStreamEnd,
      "current->config->process_reverse_delay > 0 && current->config->process_reverse_delay < current->config->net_timeout_talk_stream_end"),
    (cfg.talkHandshakeIter > 0, "current->config->talk_handshake_iter > 0"),
    (cfg.talkCountCurrent > 0, "current->config->talk_count_current > 0"),
    (cfg.talkCountDefault > 0, "current->config->talk_count_default > 0"),
    (cfg.talkCountMax > 0, "current->config->talk_count_max > 0"),
    (cfg.talkCountMul == 0 || (cfg.talkCountMul > 1 && cfg.talkCountMul < configTalkCountMulMax),
      "current->config->talk_count_mul > 1 && current->config->talk_count_mul < UBWT_CONFIG_TALK_COUNT_MUL_MAX"),
    (cfg.talkPayloadCurrentSize ≥ configTalkPayloadMinSize,
      "current->config->talk_payload_current_size >= UBWT_CONFIG_TALK_PAYLOAD_MIN_SIZE"),
    (cfg.talkPayloadDefaultSize ≥ configTalkPayloadMinSize,
      "current->config->talk_payload_default_size >= UBWT_CONFIG_TALK_PAYLOAD_MIN_SIZE"),
    (cfg.talkPayloadMaxSize ≥ configTalkPayloadMinSize,
      "current->config->talk_payload_max_size >= UBWT_CONFIG_TALK_PAYLOAD_MIN_SIZE"),
    (cfg.talkPayloadCurrentSize > 32,
      "current->config->talk_payload_current_size > offsetof(ubwt_talk_payload_t, buf)"),
    (cfg.talkPayloadDefaultSize > 32,
      "current->config->talk_payload_default_size > offsetof(ubwt_talk_payload_t, buf)"),
    (cfg.talkPayloadMaxSize > 32,
      "current->config->talk_payload_max_size > offsetof(ubwt_talk_payload_t, buf)"),
    (cfg.talkPayloadMaxSize ≥ cfg.talkPayloadCurrentSize,
      "current->config->talk_payload_max_size >= current->config->talk_payload_current_size"),
    (cfg.talkPayloadMaxSize ≥ cfg.talkPayloadDefaultSize,
      "current->config->talk_payload_max_size >= current->config->talk_payload_default_size"),
    (cfg.netPayloadBufferSize == 0 ||
        cfg.netPayloadBufferSize.toNat ≥ cfg.talkPayloadDefaultSize.toNat,
      "current->config->net_payload_buffer_size >= current->config->talk_payload_default_size"),
    (cfg.talkStreamMinimumTime > 0, "current->config->talk_stream_minimum_time > 0"),
    (cfg.workerCount > 0 && cfg.workerCount ≤ 1024,
      "current->config->worker_count > 0 && current->config->worker_count <= 1024"),
    (!cfg.asynchronous || cfg.workerCount &&& 1 == 0, "!(current->config->worker_count & 1)"),
    (!cfg.asynchronous || !cfg.reverseFirst, "!current->config->reverse_first"),
    (cfg.netL4ProtoValue != .udp || !cfg.asynchronous,
      "current->config->net_l4_proto_value == UBWT_NET_PROTO_L4_UDP && !current->config->asynchronous"),
    (cfg.netL4ProtoValue != .udp || cfg.workerCount == 1,
      "current->config->net_l4_proto_value == UBWT_NET_PROTO_L4_UDP && current->config->worker_count == 1") ]

/-- A sequence of assertions. -/
def cAsserts (env : Env) : List (Bool × String) → Except Halt Unit
  | [] => .ok ()
  | (cond, expr) :: rest => do
      cAssert env cond expr
      cAsserts env rest

/-- `_config_sanity()`. -/
def configSanity (env : Env) (cfg : Config) : Except Halt Unit := cAsserts env (sanityAsserts cfg)

/-! ### config_init -/

/-- The configuration before the command line is read. -/
def configDefault : Config where
  imConnector := false
  imListener := false
  addr := []
  port := strncpyTo configPortSize configPortDefault
  debug := false
  reportFull := false
  bidirectional := false
  asynchronous := false
  reverseFirst := false
  reportJsonFile := none
  pidFile := none
  debugFile := none
  netPayloadBufferFile := none
  errorLogMinLevel := .critical
  netTimeoutDefault := configNetTimeoutDefault
  netTimeoutTalkStreamRun := configNetTimeoutTalkStreamRun
  netTimeoutTalkStreamEnd := configNetTimeoutTalkStreamEnd
  netMtu := configNetMtu
  netL2HdrSize := configNetL2HeaderSize
  netL3Ipv4HdrSize := configNetL3Ipv4HeaderSize
  netL3Ipv6HdrSize := configNetL3Ipv6HeaderSize
  netL4HdrSize := configNetL4TcpHeaderSize
  netL4ProtoName := strncpyTo configL4ProtoNameSize configNetL4ProtoDefault
  netL4ProtoValue := .tcp
  netPayloadBufferSize := 0
  processReverseDelay := configProcessReverseDelaySec
  talkHandshakeInterval := configTalkHandshakeIntervalMsec
  talkHandshakeIter := configTalkHandshakeIter
  talkCountCurrent := configTalkCountDefault
  talkCountDefault := configTalkCountDefault
  talkCountMax := configTalkCountMax
  talkCountMul := 0
  talkPayloadCurrentSize := configTalkPayloadDefaultSize
  talkPayloadDefaultSize := configTalkPayloadDefaultSize
  talkPayloadMaxSize := configTalkPayloadMaxSize
  talkStreamMinimumTime := configTalkStreamMinimumTime
  workerCount := configProcessWorkerCount
  workerStraightFirstCount := 0
  workerReverseFirstCount := 0

/-- The worker counts of each direction, which `config_init()` sets once the options
are known. -/
def configWorkers (cfg : Config) : Config :=
  if cfg.asynchronous then
    -- An odd number of workers is rounded up, for fair asynchronous testing.
    let workerCount := if cfg.workerCount &&& 1 != 0 then cfg.workerCount + 1 else cfg.workerCount
    { cfg with
      workerCount := workerCount
      workerStraightFirstCount := workerCount / 2
      workerReverseFirstCount := workerCount / 2 }
  else if cfg.reverseFirst then
    { cfg with workerStraightFirstCount := 0, workerReverseFirstCount := cfg.workerCount }
  else
    { cfg with workerStraightFirstCount := cfg.workerCount, workerReverseFirstCount := 0 }

/-- `config_init()`. -/
def configInit (env : Env) (args : List CString) : Except Halt Config := do
  let cfg ← configCmdoptProcess env args configDefault
  let cfg := configWorkers cfg
  configConsistency cfg
  configSanity env cfg
  return cfg

end Ubwt
