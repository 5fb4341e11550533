import Mathlib.Algebra.Order.Field.Rat
import Ubwt.Lib.Json
import Ubwt.Lib.Posix

/-!
# Ubwt.Lib.JsonRead

What is read from a JSON text: the tokens of a value, the member at a path, and the numbers.

The tokens of a value are parsed as this value (`parse_tokens`), and a number that `printf` wrote
is read as the number that it was given (`numberVal_printUnsigned`, `numberVal_printFixed`).
-/

namespace Lib.Json

open Lib.Posix

/-! ### The tokens of a value -/

mutual

/-- The tokens of a value. -/
def Value.tokens : Value → List Token
  | .word w => [.word w]
  | .num text => [.num text]
  | .str s => [.str s]
  | .arr vs => .lbracket :: itemsTokens vs
  | .obj ms => .lbrace :: membersTokens ms

/-- The tokens of the items of an array, and its closing bracket. -/
def itemsTokens : List Value → List Token
  | [] => [.rbracket]
  | v :: [] => v.tokens ++ [.rbracket]
  | v :: w :: vs => v.tokens ++ .comma :: itemsTokens (w :: vs)

/-- The tokens of the members of an object, and its closing brace. -/
def membersTokens : List (List Char × Value) → List Token
  | [] => [.rbrace]
  | (key, v) :: [] => .str key :: .colon :: (v.tokens ++ [.rbrace])
  | (key, v) :: m :: ms => .str key :: .colon :: (v.tokens ++ .comma :: membersTokens (m :: ms))

end

/-- The head of the tokens of a value closes nothing. -/
theorem Value.tokens_eq_cons (v : Value) :
    ∃ t ts, v.tokens = t :: ts ∧ t ≠ .rbracket ∧ t ≠ .rbrace := by
  cases v <;> exact ⟨_, _, rfl, Token.noConfusion, Token.noConfusion⟩

theorem itemsTokens_eq_cons (v : Value) (vs : List Value) :
    ∃ t ts, itemsTokens (v :: vs) = t :: ts ∧ t ≠ .rbracket := by
  obtain ⟨t, ts, htokens, hne, -⟩ := v.tokens_eq_cons
  cases vs with
  | nil => exact ⟨t, _, by rw [itemsTokens, htokens, List.cons_append], hne⟩
  | cons w vs => exact ⟨t, _, by rw [itemsTokens, htokens, List.cons_append], hne⟩

theorem membersTokens_eq_cons (m : List Char × Value) (ms : List (List Char × Value)) :
    ∃ key ts, membersTokens (m :: ms) = .str key :: ts := by
  obtain ⟨key, v⟩ := m
  cases ms <;> exact ⟨key, _, rfl⟩

theorem value_lbracket {fuel : Nat} {t : Token} {ts : List Token} (ht : t ≠ .rbracket) :
    value (fuel + 1) (.lbracket :: t :: ts)
      = (items fuel (t :: ts)).map fun r => (.arr r.1, r.2) := by
  cases t <;> first | rfl | exact absurd rfl ht

/-- What the three parsers make of the tokens of a value, of items and of members. -/
structure Parses (fuel : Nat) : Prop where
  value : ∀ (v : Value) (rest : List Token), v.tokens.length ≤ fuel →
    value fuel (v.tokens ++ rest) = some (v, rest)
  items : ∀ (v : Value) (vs : List Value) (rest : List Token),
    (itemsTokens (v :: vs)).length ≤ fuel →
      items fuel (itemsTokens (v :: vs) ++ rest) = some (v :: vs, rest)
  members : ∀ (m : List Char × Value) (ms : List (List Char × Value)) (rest : List Token),
    (membersTokens (m :: ms)).length ≤ fuel →
      members fuel (membersTokens (m :: ms) ++ rest) = some (m :: ms, rest)

namespace Parses

variable {fuel : Nat}

theorem value_succ (h : Parses fuel) (v : Value) (rest : List Token)
    (hv : v.tokens.length ≤ fuel + 1) : Json.value (fuel + 1) (v.tokens ++ rest) = some (v, rest) := by
  cases v with
  | word w => rfl
  | num text => rfl
  | str s => rfl
  | arr vs =>
      cases vs with
      | nil => rfl
      | cons v vs =>
          obtain ⟨t, ts, htokens, hne⟩ := itemsTokens_eq_cons v vs
          have hitems := h.items v vs rest (Nat.le_of_succ_le_succ hv)
          rw [Value.tokens, htokens, List.cons_append, List.cons_append, value_lbracket hne]
          rw [htokens, List.cons_append] at hitems
          rw [hitems, Option.map_some]
  | obj ms =>
      cases ms with
      | nil => rfl
      | cons m ms =>
          obtain ⟨key, ts, htokens⟩ := membersTokens_eq_cons m ms
          have hmembers := h.members m ms rest (Nat.le_of_succ_le_succ hv)
          rw [htokens, List.cons_append] at hmembers
          rw [Value.tokens, htokens, List.cons_append, List.cons_append, Json.value, hmembers,
            Option.map_some]
          simp

theorem items_succ (h : Parses fuel) (v : Value) (vs : List Value) (rest : List Token)
    (hvs : (itemsTokens (v :: vs)).length ≤ fuel + 1) :
    Json.items (fuel + 1) (itemsTokens (v :: vs) ++ rest) = some (v :: vs, rest) := by
  cases vs with
  | nil =>
      rw [itemsTokens, List.length_append, List.length_singleton] at hvs
      have hv := h.value v (.rbracket :: rest) (Nat.le_of_succ_le_succ hvs)
      rw [itemsTokens, List.append_assoc, List.singleton_append, Json.items, hv]
  | cons w vs =>
      rw [itemsTokens, List.length_append, List.length_cons] at hvs
      have hv := h.value v (.comma :: (itemsTokens (w :: vs) ++ rest)) (by omega)
      rw [itemsTokens, List.append_assoc, List.cons_append, Json.items, hv]
      simp only [h.items w vs rest (by omega), Option.map_some]

theorem members_succ (h : Parses fuel) (m : List Char × Value) (ms : List (List Char × Value))
    (rest : List Token) (hms : (membersTokens (m :: ms)).length ≤ fuel + 1) :
    Json.members (fuel + 1) (membersTokens (m :: ms) ++ rest) = some (m :: ms, rest) := by
  obtain ⟨key, v⟩ := m
  cases ms with
  | nil =>
      simp only [membersTokens, List.length_cons, List.length_append] at hms
      have hv := h.value v (.rbrace :: rest) (by omega)
      simp only [membersTokens, List.cons_append, List.append_assoc, List.nil_append, Json.members,
        hv]
  | cons m ms =>
      simp only [membersTokens, List.length_cons, List.length_append] at hms
      have hv := h.value v (.comma :: (membersTokens (m :: ms) ++ rest)) (by omega)
      simp only [membersTokens, List.cons_append, List.append_assoc, Json.members, hv,
        h.members m ms rest (by omega), Option.map_some]

end Parses

/-- By induction on the fuel. -/
theorem parses (fuel : Nat) : Parses fuel := by
  induction fuel with
  | zero =>
      refine ⟨fun v rest h => ?_, fun v vs rest h => ?_, fun m ms rest h => ?_⟩
      · obtain ⟨t, ts, htokens, -⟩ := v.tokens_eq_cons
        rw [htokens] at h
        cases h
      · obtain ⟨t, ts, htokens, -⟩ := itemsTokens_eq_cons v vs
        rw [htokens] at h
        cases h
      · obtain ⟨key, ts, htokens⟩ := membersTokens_eq_cons m ms
        rw [htokens] at h
        cases h
  | succ fuel ih => exact ⟨ih.value_succ, ih.items_succ, ih.members_succ⟩

/-- **The tokens of a value are parsed as this value.** -/
theorem parse_tokens (v : Value) : parse v.tokens = some v := by
  have h := (parses (v.tokens.length + 1)).value v [] (Nat.le_succ _)
  rw [List.append_nil] at h
  rw [parse, h]

/-- A text with the tokens of a value is read as it, whatever its layout. -/
theorem read_of_lexes_tokens {text : List Char} {v : Value} (h : Lexes text v.tokens) :
    read text = some v := by
  rw [read, h.lex_eq, Option.bind_some, parse_tokens]

/-! ### Members -/

/-- The member of an object. -/
def Value.member (key : List Char) : Value → Option Value
  | .obj ms => ms.lookup key
  | _ => none

/-- The value at a path of members. -/
def Value.find : List String → Value → Option Value
  | [], v => some v
  | key :: path, v => (v.member key.toList).bind (Value.find path)

/-! ### Numbers -/

/-- The number that digits and a fraction stand for. -/
def unsignedVal (text : List Char) : Option ℚ :=
  let whole := text.takeWhile Char.isDigit
  match text.dropWhile Char.isDigit with
  | [] => some (Nat.ofDigitChars 10 whole 0)
  | '.' :: frac =>
      if frac.all Char.isDigit then
        some (Nat.ofDigitChars 10 whole 0 + Nat.ofDigitChars 10 frac 0 / 10 ^ frac.length)
      else none
  | _ => none

/-- The number that a text without an exponent stands for. -/
def numberVal : List Char → Option ℚ
  | '-' :: text => (unsignedVal text).map (- ·)
  | text => unsignedVal text

/-- The number that a value is. -/
def Value.number : Value → Option ℚ
  | .num text => numberVal text
  | _ => none

/-- The number at a path of members. -/
def Value.numberAt (path : List String) (v : Value) : Option ℚ := (v.find path).bind Value.number

theorem Value.numberAt_of_find {path : List String} {v w : Value} (h : v.find path = some w) :
    v.numberAt path = w.number := by
  rw [numberAt, h, Option.bind_some]

/-- The digits of a number end where its fraction starts. -/
theorem span_toDigits (n : Nat) (frac : List Char)
    (hhead : ∀ c ∈ frac.head?, c.isDigit = false) :
    (Nat.toDigits 10 n ++ frac).takeWhile Char.isDigit = Nat.toDigits 10 n ∧
      (Nat.toDigits 10 n ++ frac).dropWhile Char.isDigit = frac := by
  have hall := toDigits_all n
  rw [List.takeWhile_append_of_pos hall, List.dropWhile_append_of_pos hall]
  cases frac with
  | nil => simp
  | cons c cs => simp [hhead c rfl]

/-- The sign is looked for at the head only. -/
theorem numberVal_toDigits (n : Nat) (frac : List Char) :
    numberVal (Nat.toDigits 10 n ++ frac) = unsignedVal (Nat.toDigits 10 n ++ frac) := by
  cases hdigits : Nat.toDigits 10 n with
  | nil => exact absurd hdigits Nat.toDigits_ne_nil
  | cons c cs =>
      have hc := toDigits_all n c (by rw [hdigits]; exact List.mem_cons_self ..)
      have hne : c ≠ '-' := by
        rintro rfl
        exact absurd hc (by decide)
      rw [List.cons_append]
      unfold numberVal
      split
      · rename_i heq
        exact absurd (List.cons.inj heq).1 hne
      · rfl

/-- **An integer is read as it was printed.** -/
theorem numberVal_printUnsigned (n : Nat) : numberVal (printUnsigned n) = some (n : ℚ) := by
  obtain ⟨htake, hdrop⟩ := span_toDigits n [] (by simp)
  have hnum := numberVal_toDigits n []
  rw [List.append_nil] at hnum htake hdrop
  rw [printUnsigned, hnum, unsignedVal, htake, hdrop, Nat.ofDigitChars_ten_toDigits]

/-- The number that is printed without its sign. -/
def fixedMagnitude {n : Nat} (x : Fixed n) : ℚ :=
  (x.whole : ℚ) + ((x.fraction.foldl (fun m d => 10 * m + d.val) 0 : Nat) : ℚ) / 10 ^ n

/-- The number that is printed. -/
def fixedVal {n : Nat} (x : Fixed n) : ℚ :=
  if x.negative then -fixedMagnitude x else fixedMagnitude x

theorem ofDigitChars_digits (ds : List (Fin 10)) (m : Nat) :
    Nat.ofDigitChars 10 (ds.map fun d => Nat.digitChar d.val) m
      = ds.foldl (fun m d => 10 * m + d.val) m := by
  induction ds generalizing m with
  | nil => simp
  | cons d ds ih =>
      rw [List.map_cons, Nat.ofDigitChars_cons_digitChar_of_lt_ten d.isLt, ih, List.foldl_cons]

theorem unsignedVal_printFixed {n : Nat} (x : Fixed n) :
    unsignedVal (Nat.toDigits 10 x.whole ++
        if n = 0 then [] else '.' :: x.fraction.map (fun d => Nat.digitChar d.val))
      = some (fixedMagnitude x) := by
  have hsize := x.fractionSize
  by_cases hn : n = 0
  · obtain ⟨htake, hdrop⟩ := span_toDigits x.whole [] (by simp)
    have hfraction : x.fraction = [] := List.length_eq_zero_iff.mp (hsize.trans hn)
    rw [if_pos hn, unsignedVal, htake, hdrop, Nat.ofDigitChars_ten_toDigits, fixedMagnitude,
      hfraction]
    simp
  · have hdigits : (x.fraction.map fun d => Nat.digitChar d.val).all Char.isDigit = true := by
      have hall : ∀ d : Fin 10, (Nat.digitChar d.val).isDigit = true := by decide
      simp [hall]
    obtain ⟨htake, hdrop⟩ := span_toDigits x.whole
      ('.' :: x.fraction.map fun d => Nat.digitChar d.val) (by simp)
    rw [if_neg hn, unsignedVal, htake, hdrop, Nat.ofDigitChars_ten_toDigits, fixedMagnitude]
    simp only [hdigits, if_true, ofDigitChars_digits, List.length_map, hsize]

/-- **A number is read as it was printed**, to its last digit. -/
theorem numberVal_printFixed {n : Nat} (x : Fixed n) :
    numberVal (printFixed x) = some (fixedVal x) := by
  have hval := unsignedVal_printFixed x
  rw [printFixed, fixedVal]
  cases x.negative with
  | true =>
      rw [if_pos rfl, if_pos rfl, List.singleton_append, numberVal, hval, Option.map_some]
  | false =>
      rw [if_neg Bool.false_ne_true, if_neg Bool.false_ne_true, List.nil_append,
        numberVal_toDigits, hval]

end Lib.Json
