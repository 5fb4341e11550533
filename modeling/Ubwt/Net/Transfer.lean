import Ubwt.Base

/-!
# Ubwt.Net.Transfer

The four transfer loops of `net.c` over TCP: `net_read_from_connector`,
`net_read_from_listener`, `net_write_to_connector` and `net_write_to_listener`.

What the kernel answers to the successive `read()` and `write()` calls of a loop is
a **script** of results. An entry `ret n` is a call that transfers as much as it can
up to `n` bytes: `write()` never takes more than it was given, and `read()` never
returns more than was asked for or has arrived. So every legal sequence of partial
results is a script. A loop that reaches the end of its script has not returned yet
(`none`); a loop that returns leaves the rest of the script for the next call.

A loop that fails calls `error_handler()` before it returns, which reads the clock and prints, and
does not put `errno` back: what the caller finds in it is the second value of the entry `fail`.

The two read loops are the same code, and so are the two write loops; only the texts
of the warnings differ.
-/

namespace Ubwt

/-- The answer to one `read()` or `write()` call. One that fails has an `errno`; `left` is what
`errno` is after the loop has warned of it. -/
inductive IoResult
  | ret (n : Nat)
  | fail (e : Errno) (left : Errno := e)
  deriving Repr, DecidableEq

/-- What a transfer loop returns: its byte count, or a negative result with the `errno` that the
caller finds. -/
inductive IoReturn
  | ok (n : Nat)
  | err (e : Errno)
  deriving Repr, DecidableEq

/-- The common body of the write loops: `count` bytes of `buf` are out, and `wire`
is everything written to the connection so far. -/
def netWrite (buf : List UInt8) :
    List IoResult → Nat → List UInt8 → Option (IoReturn × List UInt8 × List IoResult)
  | [], count, wire => if count < buf.length then none else some (.ok count, wire, [])
  | r :: script, count, wire =>
    if count < buf.length then
      match r with
      | .fail .eintr _ => netWrite buf script count wire
      -- The buffer space is full: `usleep(10)` and retry.
      | .fail .enobufs _ => netWrite buf script count wire
      | .fail _ left => some (.err left, wire, script)
      | .ret n =>
        let k := min n (buf.length - count)
        netWrite buf script (count + k) (wire ++ (buf.drop count).take k)
    else some (.ok count, wire, r :: script)

/-- The common body of the read loops: `got` is what is already in the caller's
buffer, `stream` what is still to be read from the connection. -/
def netRead (len : Nat) :
    List IoResult → List UInt8 → List UInt8 →
      Option (IoReturn × List UInt8 × List UInt8 × List IoResult)
  | [], got, stream =>
    if got.length < len then none else some (.ok got.length, got, stream, [])
  | r :: script, got, stream =>
    if got.length < len then
      match r with
      | .fail .eintr _ => netRead len script got stream
      | .fail _ left => some (.err left, got, stream, script)
      | .ret n =>
        let k := min n (len - got.length)
        netRead len script (got ++ stream.take k) (stream.drop k)
    else some (.ok got.length, got, stream, r :: script)

/-- `net_write_to_listener()`. -/
def netWriteToListener (buf : List UInt8) (script : List IoResult) (wire : List UInt8) :
    Option (IoReturn × List UInt8 × List IoResult) :=
  netWrite buf script 0 wire

/-- `net_write_to_connector()`. -/
def netWriteToConnector (buf : List UInt8) (script : List IoResult) (wire : List UInt8) :
    Option (IoReturn × List UInt8 × List IoResult) :=
  netWrite buf script 0 wire

/-- `net_read_from_listener()`. -/
def netReadFromListener (len : Nat) (script : List IoResult) (stream : List UInt8) :
    Option (IoReturn × List UInt8 × List UInt8 × List IoResult) :=
  netRead len script [] stream

/-- `net_read_from_connector()`. -/
def netReadFromConnector (len : Nat) (script : List IoResult) (stream : List UInt8) :
    Option (IoReturn × List UInt8 × List UInt8 × List IoResult) :=
  netRead len script [] stream

/-! ### Scripts that only split and interrupt -/

/-- A call transferred something. -/
def IoResult.progress : IoResult → Bool
  | .ret n => 0 < n
  | .fail _ _ => false

/-- The `errno` of a call that failed. -/
def IoResult.errno : IoResult → Option Errno
  | .ret _ => none
  | .fail e _ => some e

theorem IoResult.exists_fail {r : IoResult} {e : Errno} (h : r.errno = some e) :
    ∃ left, r = .fail e left := by
  cases r with
  | ret n => cases h
  | fail e' left =>
      cases h
      exact ⟨left, rfl⟩

/-- A script in which every call transfers at least a byte or is one that the loop
retries: the `errno` values in `retried`. -/
def Splits (retried : List Errno) (script : List IoResult) : Prop :=
  ∀ r ∈ script, r.progress ∨ ∃ e ∈ retried, r.errno = some e

theorem Splits.tail {retried : List Errno} {r : IoResult} {script : List IoResult}
    (h : Splits retried (r :: script)) : Splits retried script :=
  fun r' hr' => h r' (List.mem_cons_of_mem r hr')

/-- The number of calls in a script that transferred something. -/
def transfers (script : List IoResult) : Nat := script.countP IoResult.progress

/-- The next call moves something, or it is made again. -/
theorem Splits.head {retried : List Errno} {r : IoResult} {script : List IoResult}
    (h : Splits retried (r :: script)) :
    (∃ n, 0 < n ∧ r = .ret n ∧ transfers (r :: script) = transfers script + 1) ∨
      ∃ e ∈ retried, ∃ left, r = .fail e left ∧ transfers (r :: script) = transfers script := by
  rcases h r (List.mem_cons_self ..) with hp | ⟨e, he, herrno⟩
  · cases r with
    | fail e left => simp [IoResult.progress] at hp
    | ret n =>
        have hn : 0 < n := by simpa [IoResult.progress] using hp
        exact .inl ⟨n, hn, rfl, by simp [transfers, IoResult.progress, hn]⟩
  · obtain ⟨left, rfl⟩ := IoResult.exists_fail herrno
    exact .inr ⟨e, he, left, rfl, by simp [transfers, IoResult.progress]⟩

/-- A transport that moves one byte a call. -/
theorem splits_replicate (retried : List Errno) (n : Nat) :
    Splits retried (List.replicate n (.ret 1)) := by
  intro r hr
  obtain rfl := List.eq_of_mem_replicate hr
  exact Or.inl rfl

@[simp] theorem transfers_replicate (n : Nat) : transfers (List.replicate n (.ret 1)) = n := by
  simp [transfers, List.countP_replicate, IoResult.progress]

/-- **A write loop puts its buffer on the wire**, whole and in order, however the
transport splits it, once the script has as many transfers as there are bytes; it
uses up no more of them than that. -/
theorem netWrite_splits {buf : List UInt8} {script : List IoResult} {count : Nat}
    {wire : List UInt8} (hs : Splits [.eintr, .enobufs] script) (hc : count ≤ buf.length)
    (hfuel : buf.length - count ≤ transfers script) :
    ∃ script', netWrite buf script count wire =
      some (.ok buf.length, wire ++ buf.drop count, script')
      ∧ Splits [.eintr, .enobufs] script'
      ∧ transfers script ≤ transfers script' + (buf.length - count) := by
  induction script generalizing count wire with
  | nil =>
      have hfull : count = buf.length := by
        simp only [transfers, List.countP_nil] at hfuel
        omega
      exact ⟨[], by simp [netWrite, hfull], hs, by simp [transfers]⟩
  | cons r script ih =>
      by_cases hlt : count < buf.length
      · obtain ⟨n, hn, rfl, htr⟩ | ⟨e, he, left, rfl, htr⟩ := hs.head
        · rw [htr] at hfuel
          obtain ⟨script', heq, hs', hle⟩ := @ih (count + min n (buf.length - count))
            (wire ++ (buf.drop count).take (min n (buf.length - count)))
            hs.tail (by omega) (by omega)
          refine ⟨script', ?_, hs', by omega⟩
          rw [netWrite, if_pos hlt]
          simp only [heq, List.append_assoc, ← List.drop_drop, List.take_append_drop]
        · rw [htr] at hfuel ⊢
          obtain ⟨script', heq, hs', hle⟩ := ih hs.tail hc hfuel
          refine ⟨script', ?_, hs', hle⟩
          simp only [List.mem_cons, List.not_mem_nil, or_false] at he
          rcases he with rfl | rfl <;> rw [netWrite, if_pos hlt] <;> exact heq
      · have hfull : count = buf.length := by omega
        exact ⟨r :: script, by simp [netWrite, hfull], hs, by omega⟩

/-- **A read loop takes exactly the next `len` bytes**, however the transport splits
them, once the script has as many transfers as there are bytes to come. -/
theorem netRead_splits {len : Nat} {script : List IoResult} {got stream : List UInt8}
    (hs : Splits [.eintr] script) (hg : got.length ≤ len)
    (hstream : len - got.length ≤ stream.length)
    (hfuel : len - got.length ≤ transfers script) :
    ∃ script', netRead len script got stream
        = some (.ok len, got ++ stream.take (len - got.length),
            stream.drop (len - got.length), script')
      ∧ Splits [.eintr] script'
      ∧ transfers script ≤ transfers script' + (len - got.length) := by
  induction script generalizing got stream with
  | nil =>
      have hfull : got.length = len := by
        simp only [transfers, List.countP_nil] at hfuel
        omega
      exact ⟨[], by simp [netRead, hfull], hs, by simp [transfers]⟩
  | cons r script ih =>
      by_cases hlt : got.length < len
      · obtain ⟨n, hn, rfl, htr⟩ | ⟨e, he, left, rfl, htr⟩ := hs.head
        · rw [htr] at hfuel
          have htake : (stream.take (min n (len - got.length))).length
              = min n (len - got.length) := by
            rw [List.length_take]
            omega
          obtain ⟨script', heq, hs', hle⟩ :=
            @ih (got ++ stream.take (min n (len - got.length)))
              (stream.drop (min n (len - got.length))) hs.tail
              (by rw [List.length_append, htake]; omega)
              (by rw [List.length_append, htake, List.length_drop]; omega)
              (by rw [List.length_append, htake]; omega)
          rw [List.length_append, htake] at heq hle
          refine ⟨script', ?_, hs', by omega⟩
          have hsplit : min n (len - got.length)
              + (len - (got.length + min n (len - got.length))) = len - got.length := by
            omega
          rw [netRead, if_pos hlt]
          simp only [heq, List.append_assoc, List.drop_drop, ← List.take_add, hsplit]
        · rw [htr] at hfuel ⊢
          obtain ⟨script', heq, hs', hle⟩ := ih hs.tail hg hstream hfuel
          refine ⟨script', ?_, hs', hle⟩
          obtain rfl : e = .eintr := by simpa using he
          rw [netRead, if_pos hlt]
          exact heq
      · have hfull : got.length = len := by omega
        exact ⟨r :: script, by simp [netRead, hfull], hs, by omega⟩

/-! ### Calls that returned a byte count

Whatever the script was, a loop that returned a count moved everything. -/

theorem netWrite_ok {buf : List UInt8} {script script' : List IoResult} {count n : Nat}
    {wire wire' : List UInt8} (hc : count ≤ buf.length)
    (h : netWrite buf script count wire = some (.ok n, wire', script')) :
    wire' = wire ++ buf.drop count := by
  induction script generalizing count wire with
  | nil =>
      unfold netWrite at h
      split at h
      · cases h
      · have hfull : buf.length ≤ count := by omega
        cases h
        simp [List.drop_eq_nil_of_le hfull]
  | cons r script ih =>
      unfold netWrite at h
      split at h
      · split at h
        · exact ih hc h
        · exact ih hc h
        · cases h
        · rw [ih (by omega) h, List.append_assoc, ← List.drop_drop, List.take_append_drop]
      · have hfull : buf.length ≤ count := by omega
        cases h
        simp [List.drop_eq_nil_of_le hfull]

theorem netRead_ok {len : Nat} {script script' : List IoResult} {n : Nat}
    {got got' stream stream' : List UInt8} (hg : got.length ≤ len)
    (h : netRead len script got stream = some (.ok n, got', stream', script')) :
    n = len ∧ got'.length = len ∧ got' ++ stream' = got ++ stream := by
  induction script generalizing got stream with
  | nil =>
      unfold netRead at h
      split at h
      · cases h
      · cases h
        exact ⟨by omega, by omega, rfl⟩
  | cons r script ih =>
      unfold netRead at h
      split at h
      · split at h
        · exact ih hg h
        · cases h
        · obtain ⟨hn, hlen, happ⟩ :=
            ih (by simp only [List.length_append, List.length_take]; omega) h
          refine ⟨hn, hlen, ?_⟩
          rw [happ, List.append_assoc, List.take_append_drop]
      · cases h
        exact ⟨by omega, by omega, rfl⟩

/-- A read loop that is only interrupted returns no error. -/
theorem netRead_ret_of_splits {len : Nat} {script script' : List IoResult} {ret : IoReturn}
    {got got' stream stream' : List UInt8} (hs : Splits [.eintr] script) (hg : got.length ≤ len)
    (h : netRead len script got stream = some (ret, got', stream', script')) :
    ret = .ok len := by
  induction script generalizing got stream with
  | nil =>
      unfold netRead at h
      split at h
      · cases h
      · cases h
        congr
        omega
  | cons r script ih =>
      unfold netRead at h
      split at h
      · split at h
        · exact ih hs.tail hg h
        · rename_i e left hne
          rcases hs _ (List.mem_cons_self ..) with hp | ⟨e', he', heq⟩
          · cases hp
          · cases heq
            exact absurd (List.mem_singleton.mp he') hne
        · exact ih hs.tail (by simp only [List.length_append, List.length_take]; omega) h
      · cases h
        congr
        omega

end Ubwt
