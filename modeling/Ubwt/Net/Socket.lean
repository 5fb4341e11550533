import Mathlib.Algebra.Group.Int.Defs
import Mathlib.Algebra.GroupWithZero.Nat
import Ubwt.Net.Transfer

/-!
# Ubwt.Net.Socket

A read loop of `net.c` on either socket, and the time it takes.

A stream socket leaves what a `read()` did not ask for to the next one. A datagram socket drops
it: `recv()` takes one datagram at a time. `net_read_from_connector` and `net_read_from_listener`
are one loop for both. **A loop that returns without a failure has the whole length**
(`Socket.read_ok`), and one whose caller finds `EAGAIN` has waited for the answer
(`Socket.read_eagain`).
-/

namespace Ubwt

/-- The answer to one `recv()` on a datagram socket, as in `IoResult`. -/
inductive DatagramResult
  | datagram (bytes : List UInt8)
  | fail (e : Errno) (left : Errno := e)
  deriving Repr, DecidableEq

/-- The read loop over UDP. -/
def netReadDatagrams (len : Nat) :
    List DatagramResult → List UInt8 → Option (IoReturn × List UInt8 × List DatagramResult)
  | [], got => if got.length < len then none else some (.ok got.length, got, [])
  | r :: script, got =>
    if got.length < len then
      match r with
      | .fail .eintr _ => netReadDatagrams len script got
      | .fail _ left => some (.err left, got, script)
      -- What the datagram has beyond the length is lost.
      | .datagram bytes => netReadDatagrams len script (got ++ bytes.take (len - got.length))
    else some (.ok got.length, got, r :: script)

/-- An answer of the kernel, and the microseconds until it came. -/
structure Timed (α : Type) where
  answer : α
  us : Nat
  deriving Repr, DecidableEq

variable {α : Type}

/-- The time that the calls of a script take. -/
def spent (script : List (Timed α)) : Nat := (script.map Timed.us).sum

/-- The socket of a connection, with the answers to its reads. -/
inductive Socket
  | tcp (script : List (Timed IoResult)) (stream : List UInt8)
  | udp (script : List (Timed DatagramResult))

/-- `net_read_from_connector()`, and `net_read_from_listener()`: what it returns, what is in the
buffer then, and how long it took. -/
def Socket.read (len : Nat) : Socket → Option (IoReturn × List UInt8 × Nat × Socket)
  | .tcp script stream =>
      match netRead len (script.map Timed.answer) [] stream with
      | none => none
      | some (ret, got, stream, rest) =>
          let used := script.length - rest.length
          some (ret, got, spent (script.take used), .tcp (script.drop used) stream)
  | .udp script =>
      match netReadDatagrams len (script.map Timed.answer) [] with
      | none => none
      | some (ret, got, rest) =>
          let used := script.length - rest.length
          some (ret, got, spent (script.take used), .udp (script.drop used))

/-- Every failure that the caller takes for a time-out lasts: `EAGAIN` is what it finds in
`errno`. -/
def Socket.TimeoutsLast (us : Nat) : Socket → Prop
  | .tcp script _ => ∀ t ∈ script, ∀ e, t.answer = .fail e .eagain → us ≤ t.us
  | .udp script => ∀ t ∈ script, ∀ e, t.answer = .fail e .eagain → us ≤ t.us

/-! ### What is left of a script -/

/-- A call that fails has the failure as its last answer. -/
theorem netRead_err {len : Nat} {script rest : List IoResult} {left : Errno}
    {got got' stream stream' : List UInt8}
    (h : netRead len script got stream = some (.err left, got', stream', rest)) :
    ∃ pre e, script = pre ++ .fail e left :: rest := by
  induction script generalizing got stream with
  | nil =>
      unfold netRead at h
      split at h <;> cases h
  | cons r script ih =>
      unfold netRead at h
      split at h
      · split at h
        · obtain ⟨pre, e, rfl⟩ := ih h
          exact ⟨_ :: pre, e, rfl⟩
        · cases h
          exact ⟨[], _, rfl⟩
        · obtain ⟨pre, e, rfl⟩ := ih h
          exact ⟨_ :: pre, e, rfl⟩
      · cases h

theorem netReadDatagrams_err {len : Nat} {script rest : List DatagramResult} {left : Errno}
    {got got' : List UInt8}
    (h : netReadDatagrams len script got = some (.err left, got', rest)) :
    ∃ pre e, script = pre ++ .fail e left :: rest := by
  induction script generalizing got with
  | nil =>
      unfold netReadDatagrams at h
      split at h <;> cases h
  | cons r script ih =>
      unfold netReadDatagrams at h
      split at h
      · split at h
        · obtain ⟨pre, e, rfl⟩ := ih h
          exact ⟨_ :: pre, e, rfl⟩
        · cases h
          exact ⟨[], _, rfl⟩
        · obtain ⟨pre, e, rfl⟩ := ih h
          exact ⟨_ :: pre, e, rfl⟩
      · cases h

/-- A call over UDP that returns a count has the whole length. -/
theorem netReadDatagrams_ok {len n : Nat} {script rest : List DatagramResult}
    {got got' : List UInt8} (hg : got.length ≤ len)
    (h : netReadDatagrams len script got = some (.ok n, got', rest)) : n = len := by
  induction script generalizing got with
  | nil =>
      unfold netReadDatagrams at h
      split at h
      · cases h
      · cases h
        omega
  | cons r script ih =>
      unfold netReadDatagrams at h
      split at h
      · split at h
        · exact ih hg h
        · cases h
        · exact ih (by simp only [List.length_append, List.length_take]; omega) h
      · cases h
        omega

/-- The last answer that a call used is in its script, and is part of its time. -/
theorem us_le_spent {script : List (Timed α)} {pre rest : List α} {r : α}
    (h : script.map Timed.answer = pre ++ r :: rest) :
    ∃ t ∈ script, t.answer = r ∧ t.us ≤ spent (script.take (script.length - rest.length)) := by
  obtain ⟨before, after, rfl, hbefore, hafter⟩ := List.map_eq_append_iff.mp h
  obtain ⟨t, after', rfl, ht, hrest⟩ := List.map_eq_cons_iff.mp hafter
  have hused : (before ++ t :: after').length - rest.length = (before ++ [t]).length := by
    rw [← hrest]
    simp only [List.length_append, List.length_cons, List.length_map, List.length_nil]
    omega
  refine ⟨t, List.mem_append_right _ (List.mem_cons_self ..), ht, ?_⟩
  rw [hused, List.append_cons before t after', List.take_left, spent, List.map_append,
    List.sum_append]
  simp

/-! ### One call -/

namespace Socket

variable {s s' : Socket} {len n us limit : Nat} {ret : IoReturn} {got : List UInt8}

/-- A call is a call of one of the two loops, and uses a part of the script. -/
theorem read_inv (h : s.read len = some (ret, got, us, s')) :
    (∃ script stream stream' rest, s = .tcp script stream
      ∧ netRead len (script.map Timed.answer) [] stream = some (ret, got, stream', rest)
      ∧ us = spent (script.take (script.length - rest.length))
      ∧ s' = .tcp (script.drop (script.length - rest.length)) stream')
    ∨ ∃ script rest, s = .udp script
      ∧ netReadDatagrams len (script.map Timed.answer) [] = some (ret, got, rest)
      ∧ us = spent (script.take (script.length - rest.length))
      ∧ s' = .udp (script.drop (script.length - rest.length)) := by
  cases s with
  | tcp script stream =>
      simp only [read] at h
      split at h
      · cases h
      · rename_i hread
        cases h
        exact .inl ⟨script, stream, _, _, rfl, hread, rfl, rfl⟩
  | udp script =>
      simp only [read] at h
      split at h
      · cases h
      · rename_i hread
        cases h
        exact .inr ⟨script, _, rfl, hread, rfl, rfl⟩

/-- **A count is the whole length.** -/
theorem read_ok (h : s.read len = some (.ok n, got, us, s')) : n = len := by
  obtain ⟨script, stream, stream', rest, -, hread, -, -⟩ | ⟨script, rest, -, hread, -, -⟩ :=
    read_inv h
  · exact (netRead_ok (Nat.zero_le len) hread).1
  · have hnil : ([] : List UInt8).length ≤ len := Nat.zero_le len
    exact netReadDatagrams_ok hnil hread

/-- **A call that its caller takes for a time-out lasts as long as the time-out.** -/
theorem read_eagain (hlast : s.TimeoutsLast limit)
    (h : s.read len = some (.err .eagain, got, us, s')) : limit ≤ us := by
  obtain ⟨script, stream, stream', rest, rfl, hread, rfl, -⟩ | ⟨script, rest, rfl, hread, rfl, -⟩ :=
    read_inv h
  · obtain ⟨pre, e, hpre⟩ := netRead_err hread
    obtain ⟨t, ht, hanswer, hle⟩ := us_le_spent hpre
    exact Nat.le_trans (hlast t ht e hanswer) hle
  · obtain ⟨pre, e, hpre⟩ := netReadDatagrams_err hread
    obtain ⟨t, ht, hanswer, hle⟩ := us_le_spent hpre
    exact Nat.le_trans (hlast t ht e hanswer) hle

/-- The answers that are left were there before. -/
theorem read_timeoutsLast (hlast : s.TimeoutsLast limit)
    (h : s.read len = some (ret, got, us, s')) : s'.TimeoutsLast limit := by
  obtain ⟨script, stream, stream', rest, rfl, -, -, rfl⟩ | ⟨script, rest, rfl, -, -, rfl⟩ :=
    read_inv h
  · exact fun t ht => hlast t (List.mem_of_mem_drop ht)
  · exact fun t ht => hlast t (List.mem_of_mem_drop ht)

end Socket

end Ubwt
