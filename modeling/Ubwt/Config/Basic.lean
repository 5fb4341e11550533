import Ubwt.Base
import Ubwt.Lib.Posix

/-!
# Ubwt.Config.Basic

`struct ubwt_config`, the constants of `config.h`, the options of the command line
and the ways in which `config_init` can end the program.

The build is the one of `uconf/params/Linux/ccflags`: multi-threaded, with UDP and with
timeouts; `UBWT_CONFIG_DEBUG` may be on or off, and so may `NDEBUG` (`Env`).
-/

namespace Ubwt

open Lib.Posix

/-! ### config.h -/

def configPortDefault : CString := "19991".toList
def configNetTimeoutDefault : UInt16 := 120
def configNetTimeoutTalkStreamRun : UInt16 := 5
def configNetTimeoutTalkStreamEnd : UInt16 := 20
def configNetMtu : UInt16 := 1500
def configNetL2HeaderSize : UInt16 := 26
def configNetL3Ipv4HeaderSize : UInt16 := 20
def configNetL3Ipv6HeaderSize : UInt16 := 40
def configNetL4TcpHeaderSize : UInt16 := 20
def configNetL4ProtoDefault : CString := "tcp".toList
def configProcessWorkerCount : UInt32 := 1
def configProcessReverseDelaySec : UInt16 := 3
def configTalkHandshakeIntervalMsec : UInt16 := 1
def configTalkHandshakeIter : UInt16 := 20
def configTalkCountDefault : UInt32 := 100
def configTalkCountMax : UInt32 := 1000000000
/-- `UBWT_CONFIG_TALK_COUNT_MUL_MAX`: the maximum count over the default one. -/
def configTalkCountMulMax : UInt32 := configTalkCountMax / configTalkCountDefault
def configTalkPayloadDefaultSize : UInt16 := 1432
def configTalkPayloadMinSize : UInt16 := 508
def configTalkPayloadMaxSize : UInt16 := 8192
def configTalkStreamMinimumTime : UInt16 := 3

/-- `sizeof(current->config->addr)`. -/
def configAddrSize : Nat := 1024

/-- `sizeof(current->config->port)`. -/
def configPortSize : Nat := 8

/-- `sizeof(current->config->net_l4_proto_name)`. -/
def configL4ProtoNameSize : Nat := 16

/-- `enum UBWT_NET_PROTO_L4_VALUES`; `unset` is the 0 that `memset` leaves. -/
inductive L4Proto
  | unset
  | tcp
  | udp
  deriving Repr, DecidableEq

/-- `ubwt_error_level_t`. -/
inductive ErrorLevel
  | info
  | warning
  | critical
  | fatal
  deriving Repr, DecidableEq

/-- `struct ubwt_config`. The file names are the contents of the allocated strings. -/
structure Config where
  imConnector : Bool
  imListener : Bool
  addr : CString
  port : CString
  debug : Bool
  reportFull : Bool
  bidirectional : Bool
  asynchronous : Bool
  reverseFirst : Bool
  reportJsonFile : Option CString
  pidFile : Option CString
  debugFile : Option CString
  netPayloadBufferFile : Option CString
  errorLogMinLevel : ErrorLevel
  netTimeoutDefault : UInt16
  netTimeoutTalkStreamRun : UInt16
  netTimeoutTalkStreamEnd : UInt16
  netMtu : UInt16
  netL2HdrSize : UInt16
  netL3Ipv4HdrSize : UInt16
  netL3Ipv6HdrSize : UInt16
  netL4HdrSize : UInt16
  netL4ProtoName : CString
  netL4ProtoValue : L4Proto
  netPayloadBufferSize : UInt32
  processReverseDelay : UInt16
  talkHandshakeInterval : UInt16
  talkHandshakeIter : UInt16
  talkCountCurrent : UInt32
  talkCountDefault : UInt32
  talkCountMax : UInt32
  talkCountMul : UInt32
  talkPayloadCurrentSize : UInt16
  talkPayloadDefaultSize : UInt16
  talkPayloadMaxSize : UInt16
  talkStreamMinimumTime : UInt16
  workerCount : UInt32
  workerStraightFirstCount : UInt32
  workerReverseFirstCount : UInt32
  deriving Repr, DecidableEq

/-! ### The options -/

/-- The letters of the option string. -/
inductive Opt
  | A | b | B | C | d | D | F | h | I | j | l | m | M | N | o | O | p | P | r | R | s | t | T | v | w | W
  deriving Repr, DecidableEq

/-- The option a letter stands for. -/
def Opt.ofChar (c : Char) : Option Opt :=
  [('A', A), ('b', b), ('B', B), ('C', C), ('d', d), ('D', D), ('F', F), ('h', h), ('I', I),
    ('j', j), ('l', l), ('m', m), ('M', M), ('N', N), ('o', o), ('O', O), ('p', p), ('P', P),
    ('r', r), ('R', R), ('s', s), ('t', t), ('T', T), ('v', v), ('w', w), ('W', W)].lookup c

/-- The option string of `_config_cmdopt_process()`. -/
def cmdoptFlags (debugBuild : Bool) : CString :=
  "A".toList ++ "bB:C:".toList ++ (if debugBuild then "d:D".toList else []) ++
    "FhI:j:l:m:M:N:o:".toList ++ "O:".toList ++ "p:".toList ++ "P:r:Rs:t:".toList ++
    "T:".toList ++ "v".toList ++ "w:".toList ++ "W:".toList

/-! ### How config_init can end the program -/

/-- The `ubwt_error_type_t` values used in `config.c` and `usage.c`. -/
inductive ErrorType
  | configArgv1Invalid
  | configArgvOptInvalid
  | configArgvOptargInvalid
  | configConsistencyFailed
  deriving Repr, DecidableEq

/-- The end of the program before `config_init()` returns. -/
inductive Halt
  /-- `usage_show()` and `usage_version()`, with the status they exit with. -/
  | exit (success : Bool)
  /-- `error_handler()` at level FATAL, with the text it is given. -/
  | error (type : ErrorType) (origin : String)
  /-- A failed `assert()`, with the expression. -/
  | assertion (expr : String)
  /-- `error_abort()`. -/
  | abort (func : String)
  deriving Repr, DecidableEq

/-- The modes in which `usage_check_optarg()` and `debug_update()` open files. -/
inductive FileMode
  | read
  | appendPlus
  | writePlus
  deriving Repr, DecidableEq

/-- What `config_init()` depends on besides its arguments: two switches of the build
and which files can be opened. -/
structure Env where
  /-- `UBWT_CONFIG_DEBUG` is defined. -/
  debugBuild : Bool
  /-- `NDEBUG` is defined. -/
  ndebug : Bool
  fopen : CString → FileMode → Bool

/-- `assert()`. -/
def cAssert (env : Env) (cond : Bool) (expr : String) : Except Halt Unit :=
  if env.ndebug || cond then .ok () else .error (.assertion expr)

@[simp] theorem cAssert_true (env : Env) (expr : String) : cAssert env true expr = .ok () := by
  simp [cAssert]

/-- A check of the user's input: a bad value is reported through `error_handler()`. -/
def rejectIf (bad : Bool) (type : ErrorType) (origin : String) : Except Halt Unit :=
  if bad then .error (.error type origin) else .ok ()

end Ubwt
