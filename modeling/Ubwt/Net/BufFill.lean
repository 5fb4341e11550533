import Ubwt.PayloadSize
import Ubwt.Lib.RoundRobin

/-!
# Ubwt.Net.BufFill

**The payload buffer is handed out in turn.** The calls of `net_buf_fill()` with one length copy
the pieces of that length one after the other, from the first on, and start again after the last
whole piece (`bufFills_roundRobin`).
-/

namespace Ubwt

open Lib

/-- `m` calls of `net_buf_fill()` in a row with one length. -/
def bufFills (env : Env) (cfg : Config) (buf : List UInt8) (count : Nat) :
    Nat → UInt32 → Except Halt (List BufRead × UInt32)
  | 0, bufIdx => .ok ([], bufIdx)
  | m + 1, bufIdx => do
      let (read, bufIdx) ← netBufFill env cfg buf bufIdx count
      let (reads, bufIdx) ← bufFills env cfg buf count m bufIdx
      return (read :: reads, bufIdx)

/-- The send loop of a stream is such a row of calls. -/
theorem streamFills_eq_bufFills (env : Env) (cfg : Config) (buf : List UInt8) (n : Nat)
    (bufIdx : UInt32) :
    streamFills env cfg buf n bufIdx
      = bufFills env cfg buf cfg.talkPayloadCurrentSize.toNat n bufIdx := by
  induction n generalizing bufIdx with
  | zero => rfl
  | succ n ih => simp only [streamFills, bufFills, ih]

/-- What a copy of `count` octets at `start` reads. -/
def BufRead.at (buf : List UInt8) (start count : Nat) : BufRead :=
  ⟨start, count, (buf.drop start).take count⟩

section

variable {env : Env} {cfg : Config} {buf : List UInt8} {count : Nat}

/-- One call is one step of the cursor, whose word does not wrap. -/
theorem netBufFill_eq (env : Env) (buf : List UInt8)
    (hfits : count ≤ cfg.netPayloadBufferSize.toNat) (bufIdx : UInt32) :
    ∃ bufIdx' : UInt32,
      netBufFill env cfg buf bufIdx count
        = .ok (.at buf (RoundRobin.start cfg.netPayloadBufferSize.toNat count bufIdx.toNat) count,
            bufIdx')
      ∧ bufIdx'.toNat = RoundRobin.advance cfg.netPayloadBufferSize.toNat count bufIdx.toNat := by
  have hstart : (if bufIdx.toNat + count > cfg.netPayloadBufferSize.toNat then 0 else bufIdx
        : UInt32).toNat
      = RoundRobin.start cfg.netPayloadBufferSize.toNat count bufIdx.toNat := by
    unfold RoundRobin.start
    split <;> rfl
  have hroom := RoundRobin.start_add_le hfits bufIdx.toNat
  have hword : cfg.netPayloadBufferSize.toNat < UInt32.size := UInt32.toNat_lt _
  refine ⟨UInt32.ofNat (RoundRobin.start cfg.netPayloadBufferSize.toNat count bufIdx.toNat
    + count), ?_, UInt32.toNat_ofNat_of_lt' (by omega)⟩
  rw [← hstart, netBufFill, decide_eq_true hfits, cAssert_true]
  rfl

/-- The calls, from wherever `k` of them left the cursor. -/
theorem bufFills_eq (env : Env) (buf : List UInt8)
    (hfits : count ≤ cfg.netPayloadBufferSize.toNat) (m k : Nat) {bufIdx : UInt32}
    (hidx : bufIdx.toNat = RoundRobin.cursor cfg.netPayloadBufferSize.toNat count k) :
    ∃ bufIdx' : UInt32,
      bufFills env cfg buf count m bufIdx
        = .ok ((List.range' k m).map fun j => .at buf (RoundRobin.start
            cfg.netPayloadBufferSize.toNat count
            (RoundRobin.cursor cfg.netPayloadBufferSize.toNat count j)) count, bufIdx')
      ∧ bufIdx'.toNat = RoundRobin.cursor cfg.netPayloadBufferSize.toNat count (k + m) := by
  induction m generalizing k bufIdx with
  | zero => exact ⟨bufIdx, rfl, hidx⟩
  | succ m ih =>
      obtain ⟨bufIdx₁, hfill, hidx₁⟩ := netBufFill_eq env buf hfits bufIdx
      rw [hidx] at hfill hidx₁
      obtain ⟨bufIdx₂, hrest, hidx₂⟩ := ih (k + 1) hidx₁
      refine ⟨bufIdx₂, ?_, ?_⟩
      · simp only [bufFills, hfill, hrest, bind, Except.bind]
        rfl
      · rw [hidx₂, Nat.add_right_comm, Nat.add_assoc]

/-- **Round robin.** For every buffer, every length from one octet to the whole buffer and every
number of calls from a cursor at the start: no call fails, call `k` copies the piece of index
`k mod ⌊B/n⌋`, which is inside the buffer, and the cursor does not leave the buffer. -/
theorem bufFills_roundRobin (env : Env) (cfg : Config) (buf : List UInt8) (count m : Nat)
    (hbuf : buf.length = cfg.netPayloadBufferSize.toNat) (hpos : 1 ≤ count)
    (hfits : count ≤ buf.length) :
    ∃ reads bufIdx, bufFills env cfg buf count m 0 = .ok (reads, bufIdx)
      ∧ reads.length = m
      ∧ (∀ k read, reads[k]? = some read →
          read.start = k % (buf.length / count) * count ∧ read.count = count
          ∧ read.start + read.count ≤ buf.length
          ∧ read.bytes.length = count
          ∧ ∀ i < count, read.bytes[i]? = buf[k % (buf.length / count) * count + i]?)
      ∧ bufIdx.toNat ≤ buf.length := by
  rw [hbuf] at hfits
  have hzero : (0 : UInt32).toNat = RoundRobin.cursor cfg.netPayloadBufferSize.toNat count 0 := rfl
  obtain ⟨bufIdx, hcalls, hidx⟩ := bufFills_eq env buf hfits m 0 hzero
  refine ⟨_, bufIdx, hcalls, ?_, ?_, ?_⟩
  · rw [List.length_map, List.length_range']
  · intro k read hread
    rw [List.getElem?_map, Option.map_eq_some_iff] at hread
    obtain ⟨j, hj, hread⟩ := hread
    have hjk : j = k := by
      obtain ⟨_, hval⟩ := List.getElem?_eq_some_iff.mp hj
      rw [← hval, List.getElem_range', Nat.zero_add, Nat.one_mul]
    subst hjk
    have hroom := RoundRobin.start_add_le hfits
      (RoundRobin.cursor cfg.netPayloadBufferSize.toNat count j)
    rw [RoundRobin.start_cursor hpos hfits, ← hbuf] at hroom
    rw [RoundRobin.start_cursor hpos hfits, ← hbuf] at hread
    subst hread
    refine ⟨rfl, rfl, hroom, ?_, ?_⟩
    · rw [BufRead.at, List.length_take, List.length_drop]
      omega
    · intro i hi
      rw [BufRead.at, List.getElem?_take_of_lt hi, List.getElem?_drop]
  · rw [hidx, hbuf]
    exact RoundRobin.cursor_le hfits _

/-- A buffer of seven octets in pieces of three, five times: the last octet is never sent. -/
theorem bufFills_roundRobin_seven :
    ∃ reads bufIdx, bufFills ⟨false, false, fun _ _ => false⟩
        { configDefault with netPayloadBufferSize := 7 } [1, 2, 3, 4, 5, 6, 7] 3 5 0
        = .ok (reads, bufIdx)
      ∧ reads.length = 5 ∧ bufIdx.toNat ≤ 7 := by
  obtain ⟨reads, bufIdx, hcalls, hlen, -, hidx⟩ :=
    bufFills_roundRobin ⟨false, false, fun _ _ => false⟩
      { configDefault with netPayloadBufferSize := 7 } [1, 2, 3, 4, 5, 6, 7] 3 5 rfl
      (by decide) (by decide)
  exact ⟨reads, bufIdx, hcalls, hlen, hidx⟩

end

end Ubwt
