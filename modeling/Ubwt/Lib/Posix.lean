import Mathlib.Algebra.Group.Int.Defs
import Mathlib.Algebra.Group.Nat.Defs
import Mathlib.Data.Int.Order.Basic

/-!
# Ubwt.Lib.Posix

The parts of the C library a command line goes through, `atoi`, `atol` and `getopt`, and the
numbers of `printf`.

A C string is a list of characters without the terminator. `getopt` is the function
of POSIX, which stops at the first operand; its results are given as one list, since
what it returns next depends on nothing but the arguments.
-/

namespace Lib.Posix

/-- The characters of a C string. -/
abbrev CString := List Char

/-! ### Numbers -/

/-- `isspace()` in the C locale. -/
def isSpace (c : Char) : Bool := c == ' ' || (9 ≤ c.toNat && c.toNat ≤ 13)

/-- The value of a sequence of decimal digits. -/
def digitsVal (ds : CString) : Nat := ds.foldl (fun n c => 10 * n + (c.toNat - 48)) 0

/-- `strtol(s, NULL, 10)` with a 64-bit `long`: white space, an optional sign, then as
many digits as there are; out of range, the nearest value. -/
def strtol (s : CString) : Int :=
  match s.dropWhile isSpace with
  | '-' :: ds => max (-(digitsVal (ds.takeWhile Char.isDigit) : Int)) (-2 ^ 63)
  | '+' :: ds => min (digitsVal (ds.takeWhile Char.isDigit) : Int) (2 ^ 63 - 1)
  | ds => min (digitsVal (ds.takeWhile Char.isDigit) : Int) (2 ^ 63 - 1)

/-- `atol()`. -/
def atol (s : CString) : Int := strtol s

/-- `atoi()`: the `long` cut to a 32-bit `int`. -/
def atoi (s : CString) : Int := (strtol s).bmod (2 ^ 32)

/-! ### printf -/

/-- What `%u` prints, and `PRIu16`, `PRIu32`, `PRIu64` and `%zu`. -/
def printUnsigned (n : Nat) : CString := Nat.toDigits 10 n

/-- A finite number as `%.nf` rounds it. -/
structure Fixed (n : Nat) where
  negative : Bool
  whole : Nat
  fraction : List (Fin 10)
  fractionSize : fraction.length = n

/-- What `%.nf` prints. -/
def printFixed {n : Nat} (x : Fixed n) : CString :=
  (if x.negative then ['-'] else []) ++
    (Nat.toDigits 10 x.whole ++
      if n = 0 then [] else '.' :: x.fraction.map (fun d => Nat.digitChar d.val))

/-! ### getopt -/

/-- What one call of `getopt()` returns: an option, with `optarg` where it takes an
argument, or `'?'` with `optopt`. -/
inductive OptResult
  | opt (c : Char) (optarg : Option CString)
  | bad (optopt : Char)
  deriving Repr, DecidableEq

/-- Is the character an option of `optstring`, and does it take an argument? -/
def optTakesArg (c : Char) : CString → Option Bool
  | [] => none
  | ':' :: rest => optTakesArg c rest
  | o :: rest => if o = c then some (rest.head? = some ':') else optTakesArg c rest

/-- The options of one argument `-xyz`; the second component is an option whose
argument has to be the next element of `argv`. -/
def optCluster (optstring : CString) : List Char → List OptResult × Option Char
  | [] => ([], none)
  | c :: cs =>
      match optTakesArg c optstring with
      | none => ((optCluster optstring cs).map (.bad c :: ·) id)
      | some false => ((optCluster optstring cs).map (.opt c none :: ·) id)
      | some true => if cs = [] then ([], some c) else ([.opt c (some cs)], none)

/-- All results of `getopt()` on these arguments, and the operands that are left when
it returns -1. -/
def getopt (optstring : CString) : Option Char → List CString → List OptResult × List CString
  | none, [] => ([], [])
  | some c, [] => ([.bad c], [])
  | some c, arg :: args => (getopt optstring none args).map (.opt c (some arg) :: ·) id
  | none, arg :: args =>
      match arg with
      | ['-', '-'] => ([], args)
      | '-' :: c :: cs =>
          let (results, pending) := optCluster optstring (c :: cs)
          (getopt optstring pending args).map (results ++ ·) id
      | _ => ([], arg :: args)

end Lib.Posix
