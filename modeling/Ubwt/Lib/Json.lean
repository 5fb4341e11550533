import Mathlib.Data.List.Basic
import Mathlib.Tactic.IntervalCases
import Mathlib.Tactic.NormNum

/-!
# Ubwt.Lib.Json

**A reader for JSON texts**, in two layers: an automaton that cuts a text into tokens, and a
parser of token sequences.

The automaton takes one character at a time, so the tokens of a text that is put together
from pieces are those of the pieces (`Lexes.append`), as long as no token is cut. A number is
as many number characters as there are, and then has to have the shape of a number;
`Lexes.num` is about one that is followed by something else.
-/

namespace Lib.Json

/-! ### Tokens -/

inductive Token
  | lbrace
  | rbrace
  | lbracket
  | rbracket
  | comma
  | colon
  | str (s : List Char)
  | num (s : List Char)
  | word (s : List Char)
  deriving Repr, DecidableEq

/-- Where the automaton is: between tokens, in a string, behind its backslash or in the
digits of its `\u`, in a number, or in a word. -/
inductive LexState
  | idle
  | str (acc : List Char)
  | esc (acc : List Char)
  | hex (acc : List Char) (missing : Nat)
  | num (acc : List Char)
  | word (acc : List Char)
  deriving Repr, DecidableEq

def isSpace (c : Char) : Bool := c = ' ' || c = '\t' || c = '\n' || c = '\r'

/-- The characters that numbers are made of. -/
def isNumChar (c : Char) : Bool :=
  c.isDigit || c = '-' || c = '+' || c = '.' || c = 'e' || c = 'E'

def isHexDigit (c : Char) : Bool :=
  c.isDigit || ('a' ≤ c && c ≤ 'f') || ('A' ≤ c && c ≤ 'F')

/-- An exponent, or nothing. -/
def isExponent : List Char → Bool
  | [] => true
  | e :: '+' :: ds => (e = 'e' || e = 'E') && ds ≠ [] && ds.all Char.isDigit
  | e :: '-' :: ds => (e = 'e' || e = 'E') && ds ≠ [] && ds.all Char.isDigit
  | e :: ds => (e = 'e' || e = 'E') && ds ≠ [] && ds.all Char.isDigit

/-- A fraction, or nothing, and then an exponent. -/
def isFraction : List Char → Bool
  | '.' :: ds => ds.takeWhile Char.isDigit ≠ [] && isExponent (ds.dropWhile Char.isDigit)
  | ds => isExponent ds

/-- An integer without leading zeros, and then a fraction. -/
def isUnsigned (ds : List Char) : Bool :=
  ds.takeWhile Char.isDigit ≠ [] &&
    (ds.takeWhile Char.isDigit = ['0'] || ds.head? ≠ some '0') &&
    isFraction (ds.dropWhile Char.isDigit)

/-- The shape of a number. -/
def isNumber : List Char → Bool
  | '-' :: ds => isUnsigned ds
  | ds => isUnsigned ds

/-- The literal names. -/
def isWord (w : List Char) : Bool :=
  w = "true".toList || w = "false".toList || w = "null".toList

/-- A character between tokens. -/
def lexStart (c : Char) : Option (List Token × LexState) :=
  if isSpace c then some ([], .idle)
  else if c = '{' then some ([.lbrace], .idle)
  else if c = '}' then some ([.rbrace], .idle)
  else if c = '[' then some ([.lbracket], .idle)
  else if c = ']' then some ([.rbracket], .idle)
  else if c = ',' then some ([.comma], .idle)
  else if c = ':' then some ([.colon], .idle)
  else if c = '"' then some ([], .str [])
  else if isNumChar c then some ([], .num [c])
  else if c.isAlpha then some ([], .word [c])
  else none

/-- One character: the tokens it ends, and the state after it. -/
def lexStep : LexState → Char → Option (List Token × LexState)
  | .idle, c => lexStart c
  | .str acc, c =>
      if c = '"' then some ([.str acc], .idle)
      else if c = '\\' then some ([], .esc acc)
      else if c.toNat < 32 then none
      else some ([], .str (acc ++ [c]))
  | .esc acc, c =>
      if c ∈ "\"\\/bfnrt".toList then some ([], .str (acc ++ ['\\', c]))
      else if c = 'u' then some ([], .hex (acc ++ ['\\', 'u']) 4)
      else none
  | .hex acc missing, c =>
      if isHexDigit c then
        if missing ≤ 1 then some ([], .str (acc ++ [c]))
        else some ([], .hex (acc ++ [c]) (missing - 1))
      else none
  | .num acc, c =>
      if isNumChar c then some ([], .num (acc ++ [c]))
      else if isNumber acc then (lexStart c).map (fun r => (.num acc :: r.1, r.2))
      else none
  | .word acc, c =>
      if c.isAlpha then some ([], .word (acc ++ [c]))
      else if isWord acc then (lexStart c).map (fun r => (.word acc :: r.1, r.2))
      else none

/-- The automaton on a text. -/
def lexFrom : LexState → List Char → Option (List Token × LexState)
  | s, [] => some ([], s)
  | s, c :: cs =>
      match lexStep s c with
      | none => none
      | some (toks, s) => (lexFrom s cs).map (fun r => (toks ++ r.1, r.2))

/-- The end of a text may end a token. -/
def lexEnd : LexState → Option (List Token)
  | .idle => some []
  | .num acc => if isNumber acc then some [.num acc] else none
  | .word acc => if isWord acc then some [.word acc] else none
  | _ => none

/-- The tokens of a text. -/
def lex (text : List Char) : Option (List Token) :=
  match lexFrom .idle text with
  | none => none
  | some (toks, s) => (lexEnd s).map (toks ++ ·)

/-! ### Values -/

/-- A JSON value; numbers are kept as they are written, and so are strings. -/
inductive Value
  | word (w : List Char)
  | num (text : List Char)
  | str (s : List Char)
  | arr (items : List Value)
  | obj (members : List (List Char × Value))

mutual

/-- A value at the head of the tokens, and the tokens behind it. -/
def value : Nat → List Token → Option (Value × List Token)
  | 0, _ => none
  | _ + 1, .word w :: ts => some (.word w, ts)
  | _ + 1, .num s :: ts => some (.num s, ts)
  | _ + 1, .str s :: ts => some (.str s, ts)
  | _ + 1, .lbrace :: .rbrace :: ts => some (.obj [], ts)
  | fuel + 1, .lbrace :: ts => (members fuel ts).map (fun r => (.obj r.1, r.2))
  | _ + 1, .lbracket :: .rbracket :: ts => some (.arr [], ts)
  | fuel + 1, .lbracket :: ts => (items fuel ts).map (fun r => (.arr r.1, r.2))
  | _ + 1, _ => none

/-- The members of an object up to its closing brace. -/
def members : Nat → List Token → Option (List (List Char × Value) × List Token)
  | 0, _ => none
  | fuel + 1, .str key :: .colon :: ts =>
      match value fuel ts with
      | some (v, .comma :: ts) => (members fuel ts).map (fun r => ((key, v) :: r.1, r.2))
      | some (v, .rbrace :: ts) => some ([(key, v)], ts)
      | _ => none
  | _ + 1, _ => none

/-- The items of an array up to its closing bracket. -/
def items : Nat → List Token → Option (List Value × List Token)
  | 0, _ => none
  | fuel + 1, ts =>
      match value fuel ts with
      | some (v, .comma :: ts) => (items fuel ts).map (fun r => (v :: r.1, r.2))
      | some (v, .rbracket :: ts) => some ([v], ts)
      | _ => none

end

/-- A sequence of tokens that is one value. -/
def parse (toks : List Token) : Option Value :=
  match value (toks.length + 1) toks with
  | some (v, []) => some v
  | _ => none

/-- A text that is one value. -/
def read (text : List Char) : Option Value := (lex text).bind parse

/-! ### The tokens of pieces -/

/-- The text has these tokens and cuts none. -/
def Lexes (text : List Char) (toks : List Token) : Prop := lexFrom .idle text = some (toks, .idle)

theorem lexFrom_append (s : LexState) (text text' : List Char) :
    lexFrom s (text ++ text')
      = (lexFrom s text).bind (fun r => (lexFrom r.2 text').map (fun r' => (r.1 ++ r'.1, r'.2))) := by
  induction text generalizing s with
  | nil =>
      cases h : lexFrom s text' with
      | none => simp [lexFrom, h]
      | some r => simp [lexFrom, h]
  | cons c cs ih =>
      rw [List.cons_append, lexFrom, lexFrom]
      cases lexStep s c with
      | none => rfl
      | some r =>
          obtain ⟨toks, s'⟩ := r
          simp only [ih]
          cases lexFrom s' cs with
          | none => rfl
          | some r' =>
              obtain ⟨toks', s''⟩ := r'
              cases h : lexFrom s'' text' with
              | none => simp [h]
              | some r'' => simp [h]

theorem Lexes.nil : Lexes [] [] := rfl

theorem Lexes.append {text text' : List Char} {toks toks' : List Token} (h : Lexes text toks)
    (h' : Lexes text' toks') : Lexes (text ++ text') (toks ++ toks') := by
  unfold Lexes at *
  rw [lexFrom_append, h]
  simp [h']

/-- The characters of a number leave the automaton in it. -/
theorem lexFrom_numChars {acc ds : List Char} (hds : ds.all isNumChar = true) :
    lexFrom (.num acc) ds = some ([], .num (acc ++ ds)) := by
  induction ds generalizing acc with
  | nil => simp [lexFrom]
  | cons c ds ih =>
      rw [List.all_cons, Bool.and_eq_true] at hds
      simp [lexFrom, lexStep, hds.1, ih hds.2]

theorem lexStart_numChar {c : Char} (hc : isNumChar c = true) :
    lexStart c = some ([], .num [c]) := by
  have hne : ∀ x : Char, isNumChar x = false → c ≠ x := by
    rintro x hx rfl
    rw [hc] at hx
    cases hx
  have hspace : isSpace c = false := by
    simp [isSpace, hne ' ' (by decide), hne '\t' (by decide), hne '\n' (by decide),
      hne '\r' (by decide)]
  simp [lexStart, hspace, hc, hne '{' (by decide), hne '}' (by decide), hne '[' (by decide),
    hne ']' (by decide), hne ',' (by decide), hne ':' (by decide), hne '"' (by decide)]

/-- A number, followed by something that is not of it. -/
theorem Lexes.num {ds rest : List Char} {c : Char} {toks : List Token}
    (hds : ds.all isNumChar = true)
    (hnum : isNumber ds = true) (hc : isNumChar c = false) (h : Lexes (c :: rest) toks) :
    Lexes (ds ++ c :: rest) (.num ds :: toks) := by
  cases ds with
  | nil => exact absurd hnum (by decide)
  | cons d ds =>
      rw [List.all_cons, Bool.and_eq_true] at hds
      have hin : lexFrom .idle (d :: ds) = some ([], .num (d :: ds)) := by
        simp [lexFrom, lexStep, lexStart_numChar hds.1, lexFrom_numChars hds.2]
      have hout : lexFrom (.num (d :: ds)) (c :: rest)
          = (lexFrom .idle (c :: rest)).map (fun r => (.num (d :: ds) :: r.1, r.2)) := by
        simp only [lexFrom, lexStep, hc, hnum, if_true, Bool.false_eq_true, if_false]
        cases lexStart c with
        | none => rfl
        | some r => simp [Function.comp_def]
      unfold Lexes at *
      rw [lexFrom_append, hin, Option.bind_some, hout, h]
      rfl

/-! ### Decimal numbers -/

/-- A number other than zero is written without a leading zero. -/
theorem head_toDigits {n : Nat} (hn : 0 < n) : (Nat.toDigits 10 n).head? ≠ some '0' := by
  induction n using Nat.strongRecOn with
  | _ n ih =>
      rcases Nat.lt_or_ge n 10 with hlt | hge
      · rw [Nat.toDigits_of_lt_base hlt]
        interval_cases n <;> decide
      · rw [Nat.toDigits_of_base_le (by norm_num) hge, List.head?_append]
        have hhead := ih (n / 10) (by omega) (by omega)
        cases hdigits : (Nat.toDigits 10 (n / 10)).head? with
        | none => exact absurd (List.head?_eq_none_iff.mp hdigits) Nat.toDigits_ne_nil
        | some c =>
            rw [hdigits] at hhead
            simpa using hhead

theorem toDigits_all (n : Nat) : ∀ c ∈ Nat.toDigits 10 n, c.isDigit = true :=
  fun _ hc => Nat.isDigit_of_mem_toDigits (by norm_num) le_rfl hc

/-- The decimal digits of a number, with or without a fraction behind them. -/
theorem isUnsigned_toDigits (n : Nat) {frac : List Char} (hfrac : isFraction frac = true)
    (hhead : ∀ c ∈ frac.head?, c.isDigit = false) :
    isUnsigned (Nat.toDigits 10 n ++ frac) = true := by
  have hall := toDigits_all n
  have htake : (Nat.toDigits 10 n ++ frac).takeWhile Char.isDigit = Nat.toDigits 10 n := by
    rw [List.takeWhile_append_of_pos hall]
    cases frac with
    | nil => simp
    | cons c cs => simp [hhead c rfl]
  have hdrop : (Nat.toDigits 10 n ++ frac).dropWhile Char.isDigit = frac := by
    rw [List.dropWhile_append_of_pos hall]
    cases frac with
    | nil => rfl
    | cons c cs => simp [hhead c rfl]
  have hzero : Nat.toDigits 10 n = ['0'] ∨ (Nat.toDigits 10 n).head? ≠ some '0' := by
    rcases Nat.eq_zero_or_pos n with rfl | hn
    · exact .inl (Nat.toDigits_zero 10)
    · exact .inr (head_toDigits hn)
  rw [isUnsigned, htake, hdrop]
  simp [hfrac, hzero, Nat.toDigits_ne_nil]

/-- The tokens of a whole text. -/
theorem Lexes.lex_eq {text : List Char} {toks : List Token} (h : Lexes text toks) :
    lex text = some toks := by
  unfold Lexes at h
  simp [lex, h, lexEnd]

end Lib.Json
