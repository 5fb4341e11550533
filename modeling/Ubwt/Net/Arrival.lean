import Mathlib.Data.List.TakeWhile
import Ubwt.Net.Transfer

/-!
# Ubwt.Net.Arrival

What a read loop of `net.c` makes of an arbitrary script.

**The outcome of a call is decided by the results that come before the first failure
it does not retry.** If they bring the whole length, the call takes exactly that and
leaves the rest of the script alone; if not, it fails as that read did, with what they
brought already copied out, and with what the warning made of `errno`; and a script without such
a failure leaves it in its loop.
In particular an end of file, a `read()` that returns 0 from then on, is no way out.
-/

namespace Ubwt

/-- What a call is prepared to copy out. -/
def IoResult.moved : IoResult → Nat
  | .ret n => n
  | .fail _ _ => 0

/-- The read loops go on after this result. -/
def IoResult.retried : IoResult → Bool
  | .ret _ => true
  | .fail e _ => e = .eintr

/-- What the calls of a script are prepared to copy out, together. -/
def delivered (script : List IoResult) : Nat := (script.map IoResult.moved).sum

/-- The results before the first failure that ends a read loop. -/
def untilFailure (script : List IoResult) : List IoResult := script.takeWhile IoResult.retried

/-- The `errno` of the first failure that ends a read loop. -/
def firstFailure (script : List IoResult) : Option Errno :=
  match script.dropWhile IoResult.retried with
  | .fail e _ :: _ => some e
  | _ => none

/-- What `errno` is once the loop has warned of that failure. -/
def errnoLeft (script : List IoResult) : Option Errno :=
  match script.dropWhile IoResult.retried with
  | .fail _ left :: _ => some left
  | _ => none

/-- The bytes of a stream that are copied out before that failure. -/
def arrived (script : List IoResult) (stream : List UInt8) : List UInt8 :=
  stream.take (delivered (untilFailure script))

@[simp] theorem retried_ret (n : Nat) : (IoResult.ret n).retried = true := rfl

@[simp] theorem retried_fail (e left : Errno) :
    (IoResult.fail e left).retried = true ↔ e = .eintr := by
  simp [IoResult.retried]

@[simp] theorem delivered_nil : delivered [] = 0 := rfl

@[simp] theorem delivered_cons (r : IoResult) (script : List IoResult) :
    delivered (r :: script) = r.moved + delivered script := by
  simp [delivered]

@[simp] theorem delivered_append (script script' : List IoResult) :
    delivered (script ++ script') = delivered script + delivered script' := by
  simp [delivered]

@[simp] theorem arrived_nil (stream : List UInt8) : arrived [] stream = [] := rfl

@[simp] theorem arrived_eintr (left : Errno) (script : List IoResult) (stream : List UInt8) :
    arrived (.fail .eintr left :: script) stream = arrived script stream := by
  simp [arrived, untilFailure, IoResult.moved]

@[simp] theorem arrived_fail {e left : Errno} (he : e ≠ .eintr) (script : List IoResult)
    (stream : List UInt8) : arrived (.fail e left :: script) stream = [] := by
  simp [arrived, untilFailure, he]

theorem arrived_ret (n : Nat) (script : List IoResult) (stream : List UInt8) :
    arrived (.ret n :: script) stream = stream.take n ++ arrived script (stream.drop n) := by
  simp [arrived, untilFailure, List.takeWhile_cons, IoResult.moved, List.take_add]

@[simp] theorem firstFailure_nil : firstFailure [] = none := rfl

@[simp] theorem firstFailure_ret (n : Nat) (script : List IoResult) :
    firstFailure (.ret n :: script) = firstFailure script := by
  simp [firstFailure, List.dropWhile_cons]

@[simp] theorem firstFailure_fail {e left : Errno} (he : e ≠ .eintr) (script : List IoResult) :
    firstFailure (.fail e left :: script) = some e := by
  simp [firstFailure, he]

@[simp] theorem errnoLeft_nil : errnoLeft [] = none := rfl

@[simp] theorem errnoLeft_ret (n : Nat) (script : List IoResult) :
    errnoLeft (.ret n :: script) = errnoLeft script := by
  simp [errnoLeft, List.dropWhile_cons]

@[simp] theorem errnoLeft_eintr (left : Errno) (script : List IoResult) :
    errnoLeft (.fail .eintr left :: script) = errnoLeft script := by
  simp [errnoLeft]

@[simp] theorem errnoLeft_fail {e left : Errno} (he : e ≠ .eintr) (script : List IoResult) :
    errnoLeft (.fail e left :: script) = some left := by
  simp [errnoLeft, he]

/-- How a read loop ends that has `len` bytes to get and `got` of them: `none` when it
does not. -/
def readOutcome (len : Nat) (got : List UInt8) (script : List IoResult) (stream : List UInt8) :
    Option (IoReturn × List UInt8 × List UInt8) :=
  if len ≤ got.length + (arrived script stream).length then
    some (.ok len, got ++ stream.take (len - got.length), stream.drop (len - got.length))
  else
    match errnoLeft script with
    | none => none
    | some e =>
      some (.err e, got ++ arrived script stream, stream.drop (arrived script stream).length)

/-- A call that got everything is out, whatever the script still holds. -/
theorem readOutcome_full {len : Nat} {got : List UInt8} (hfull : got.length = len)
    (script : List IoResult) (stream : List UInt8) :
    readOutcome len got script stream = some (.ok len, got, stream) := by
  simp [readOutcome, hfull]

/-- One read that returns: the outcome is that of the rest, with more in the buffer. -/
theorem readOutcome_ret {len : Nat} {got : List UInt8} (hlt : got.length < len) (n : Nat)
    (script : List IoResult) (stream : List UInt8) :
    readOutcome len got (.ret n :: script) stream
      = readOutcome len (got ++ stream.take (min n (len - got.length))) script
          (stream.drop (min n (len - got.length))) := by
  by_cases hn : n < len - got.length
  · -- The read is cut by what the transport gave it.
    rw [Nat.min_eq_left hn.le]
    have hadd : (got ++ stream.take n).length
          + (arrived script (stream.drop n)).length
        = got.length + (arrived (.ret n :: script) stream).length := by
      rw [arrived_ret, List.length_append, List.length_append, Nat.add_assoc]
    unfold readOutcome
    rw [hadd, errnoLeft_ret]
    split
    · rename_i hle
      have hlen : (stream.take n).length = n := by
        by_contra hne
        have hshort : stream.length < n := by
          rw [List.length_take] at hne
          omega
        rw [arrived, List.length_take] at hle
        omega
      rw [List.length_append, hlen, List.append_assoc, List.drop_drop, ← List.take_add]
      have hsum : n + (len - (got.length + n)) = len - got.length := by omega
      rw [hsum]
    · rw [arrived_ret, List.append_assoc, List.length_append, ← List.drop_drop]
      have hdrop : stream.drop (stream.take n).length = stream.drop n := by
        rw [List.length_take]
        rcases Nat.le_total n stream.length with hle | hle
        · rw [Nat.min_eq_left hle]
        · rw [Nat.min_eq_right hle, List.drop_length, List.drop_eq_nil_of_le hle]
      rw [hdrop]
  · -- The read is cut by what was asked for, or by the end of the stream.
    rw [Nat.min_eq_right (by omega)]
    by_cases hs : len - got.length ≤ stream.length
    · have hfull : (got ++ stream.take (len - got.length)).length = len := by
        rw [List.length_append, List.length_take]
        omega
      have harrived : len ≤ got.length + (arrived (.ret n :: script) stream).length := by
        rw [arrived_ret, List.length_append, List.length_take]
        omega
      rw [readOutcome_full hfull, readOutcome, if_pos harrived]
    · have hall : stream.take (len - got.length) = stream := List.take_of_length_le (by omega)
      have hnone : stream.drop (len - got.length) = [] := List.drop_eq_nil_of_le (by omega)
      have harrived : arrived (.ret n :: script) stream = stream := by
        rw [arrived_ret, List.take_of_length_le (by omega), List.drop_eq_nil_of_le (by omega)]
        simp [arrived]
      have hempty : arrived script [] = [] := by simp [arrived]
      have hshort : ¬ len ≤ got.length + stream.length := by omega
      rw [hall, hnone, readOutcome, readOutcome, harrived, hempty, List.length_append]
      simp [hshort]

theorem netRead_outcome {len : Nat} (got : List UInt8) (hg : got.length ≤ len)
    (script : List IoResult) (stream : List UInt8) :
    (netRead len script got stream).map (fun r => (r.1, r.2.1, r.2.2.1))
      = readOutcome len got script stream := by
  induction script generalizing got stream with
  | nil =>
      unfold netRead
      split
      · rename_i hlt
        simp [readOutcome, hlt]
      · have hfull : got.length = len := by omega
        simp [readOutcome_full hfull, hfull]
  | cons r script ih =>
      unfold netRead
      split
      · rename_i hlt
        cases r with
        | ret n =>
            rw [readOutcome_ret hlt]
            exact ih _ (by simp only [List.length_append, List.length_take]; omega) _
        | fail e left =>
            by_cases he : e = .eintr
            · subst he
              simpa [readOutcome] using ih got hg stream
            · have hlt' : ¬ len ≤ got.length := by omega
              cases e <;> simp_all [readOutcome]
      · have hfull : got.length = len := by omega
        simp [readOutcome_full hfull, hfull]

end Ubwt
