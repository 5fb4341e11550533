/-!
# Ubwt.Lib.Memory

C objects as the bytes they consist of, with accesses that are **checked against the size of
the object**: an access beyond its end has no result, and a function written with them has one
exactly if all its accesses are inside.

`load_append` and `store_append` evaluate an access to an object that is given as the
concatenation of its members.
-/

namespace Lib.Memory

/-- Read `len` bytes at `off`. -/
def load (obj : List UInt8) (off len : Nat) : Option (List UInt8) :=
  if off + len ≤ obj.length then some ((obj.drop off).take len) else none

/-- Write `bytes` at `off`. -/
def store (obj : List UInt8) (off : Nat) (bytes : List UInt8) : Option (List UInt8) :=
  if off + bytes.length ≤ obj.length then
    some (obj.take off ++ (bytes ++ obj.drop (off + bytes.length)))
  else none

variable {obj bytes a b c : List UInt8} {off len : Nat}

theorem store_isSome_iff : (store obj off bytes).isSome ↔ off + bytes.length ≤ obj.length := by
  unfold store
  split <;> simp_all

theorem store_outside (h : obj.length < off + bytes.length) : store obj off bytes = none :=
  if_neg (Nat.not_le.mpr h)

/-- Reading a member. -/
theorem load_append (hoff : off = a.length) (hlen : len = b.length) :
    load (a ++ (b ++ c)) off len = some b := by
  subst hoff hlen
  rw [load, if_pos (by simp only [List.length_append]; omega), List.drop_left, List.take_left]

/-- Writing a member. -/
theorem store_append (hoff : off = a.length) (hlen : bytes.length = b.length) :
    store (a ++ (b ++ c)) off bytes = some (a ++ (bytes ++ c)) := by
  subst hoff
  have hend : (a ++ (b ++ c)).drop (a.length + bytes.length) = c := by
    rw [hlen, ← List.append_assoc, ← List.length_append, List.drop_left]
  rw [store, if_pos (by simp only [List.length_append]; omega), List.take_left, hend]

end Lib.Memory
