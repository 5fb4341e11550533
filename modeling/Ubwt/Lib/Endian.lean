import Mathlib.Tactic.Ring
import Mathlib.Tactic.NormNum

/-!
# Ubwt.Lib.Endian

**Memory images of unsigned integers on hosts of either byte order.**

A host stores a `w`-byte integer as a list of `w` bytes; a little-endian host puts
the least significant byte first, a big-endian host the most significant one. The
conversion `hton` (the same function both ways) turns a value into the one whose
memory image is the big-endian image, whatever the host. The two facts clients use
are `store_hton` (what a converted value looks like in memory does not depend on
the host) and `hton_load` (converting back what was loaded reads the big-endian
image), with the round trip `ofBE_toBE`.
-/

namespace Lib

/-- The byte order of a host. -/
inductive ByteOrder
  | little
  | big
  deriving Repr, DecidableEq

namespace Endian

/-- The `w` little-endian bytes of `n`; what does not fit is dropped. -/
def toLE : Nat → Nat → List UInt8
  | 0, _ => []
  | w + 1, n => UInt8.ofNat (n % 256) :: toLE w (n / 256)

/-- The natural number with the given little-endian bytes. -/
def ofLE : List UInt8 → Nat
  | [] => 0
  | b :: bs => b.toNat + 256 * ofLE bs

/-- The `w` big-endian bytes of `n`. -/
def toBE (w n : Nat) : List UInt8 := (toLE w n).reverse

/-- The natural number with the given big-endian bytes. -/
def ofBE (bs : List UInt8) : Nat := ofLE bs.reverse

@[simp] theorem length_toLE (w n : Nat) : (toLE w n).length = w := by
  induction w generalizing n with
  | zero => rfl
  | succ w ih => simp [toLE, ih]

@[simp] theorem length_toBE (w n : Nat) : (toBE w n).length = w := by
  simp [toBE]

theorem ofLE_toLE (w n : Nat) : ofLE (toLE w n) = n % 256 ^ w := by
  induction w generalizing n with
  | zero => simp [toLE, ofLE, Nat.mod_one]
  | succ w ih =>
      have hb : (UInt8.ofNat (n % 256)).toNat = n % 256 := by
        rw [UInt8.toNat_ofNat']
        exact Nat.mod_eq_of_lt (Nat.mod_lt n (by norm_num))
      rw [toLE, ofLE, ih, hb, pow_succ', Nat.mod_mul]

theorem toLE_ofLE (l : List UInt8) : toLE l.length (ofLE l) = l := by
  induction l with
  | nil => rfl
  | cons b bs ih =>
      have hb : b.toNat < 256 := b.toNat_lt
      have hlow : (b.toNat + 256 * ofLE bs) % 256 = b.toNat := by omega
      have hhigh : (b.toNat + 256 * ofLE bs) / 256 = ofLE bs := by omega
      rw [List.length_cons, toLE, ofLE, hlow, hhigh, ih, UInt8.ofNat_toNat]

theorem ofLE_lt (l : List UInt8) : ofLE l < 256 ^ l.length := by
  induction l with
  | nil => simp [ofLE]
  | cons b bs ih =>
      have hb : b.toNat < 256 := b.toNat_lt
      rw [ofLE, List.length_cons, pow_succ]
      omega

theorem ofBE_lt (l : List UInt8) : ofBE l < 256 ^ l.length := by
  simpa [ofBE] using ofLE_lt l.reverse

theorem ofBE_toBE (w n : Nat) : ofBE (toBE w n) = n % 256 ^ w := by
  rw [ofBE, toBE, List.reverse_reverse, ofLE_toLE]

theorem ofBE_toBE_of_lt {w n : Nat} (h : n < 256 ^ w) : ofBE (toBE w n) = n := by
  rw [ofBE_toBE, Nat.mod_eq_of_lt h]

/-- Splitting little-endian bytes at a byte boundary splits the number at the
corresponding power of 256. -/
theorem toLE_add (v w n : Nat) :
    toLE (v + w) n = toLE v n ++ toLE w (n / 256 ^ v) := by
  induction v generalizing n with
  | zero => simp [toLE]
  | succ v ih =>
      rw [show v + 1 + w = (v + w) + 1 by omega, toLE, toLE, ih, List.cons_append,
        Nat.div_div_eq_div_mul, pow_succ']

theorem ofLE_append (l₁ l₂ : List UInt8) :
    ofLE (l₁ ++ l₂) = ofLE l₁ + 256 ^ l₁.length * ofLE l₂ := by
  induction l₁ with
  | nil => simp [ofLE]
  | cons b bs ih =>
      rw [List.cons_append, ofLE, ofLE, ih, List.length_cons, pow_succ]
      ring

theorem toBE_add (v w n : Nat) : toBE (v + w) n = toBE w (n / 256 ^ v) ++ toBE v n := by
  rw [toBE, toLE_add, List.reverse_append, toBE, toBE]

theorem ofBE_append (l₁ l₂ : List UInt8) :
    ofBE (l₁ ++ l₂) = ofBE l₁ * 256 ^ l₂.length + ofBE l₂ := by
  rw [ofBE, List.reverse_append, ofLE_append, List.length_reverse, ofBE, ofBE]
  ring

end Endian

namespace ByteOrder

open Endian

/-- The memory image of the `w`-byte integer `n`. -/
def store : ByteOrder → Nat → Nat → List UInt8
  | little, w, n => toLE w n
  | big, w, n => toBE w n

/-- The integer a memory image stands for. -/
def load : ByteOrder → List UInt8 → Nat
  | little, l => ofLE l
  | big, l => ofBE l

/-- Host to network order and back: the identity on a big-endian host, a byte
reversal on a little-endian one. -/
def hton : ByteOrder → Nat → Nat → Nat
  | little, w, n => ofBE (toLE w n)
  | big, _, n => n

@[simp] theorem length_store (o : ByteOrder) (w n : Nat) : (o.store w n).length = w := by
  cases o <;> simp [store]

theorem load_lt (o : ByteOrder) (l : List UInt8) : o.load l < 256 ^ l.length := by
  cases o with
  | little => exact ofLE_lt l
  | big => exact ofBE_lt l

theorem load_store (o : ByteOrder) (w n : Nat) : o.load (o.store w n) = n % 256 ^ w := by
  cases o with
  | little => exact ofLE_toLE w n
  | big => exact ofBE_toBE w n

/-- **Network order is host independent**: the image of a converted value is the
big-endian image of the value. -/
theorem store_hton (o : ByteOrder) (w n : Nat) : o.store w (o.hton w n) = toBE w n := by
  cases o with
  | little =>
      have himg := toLE_ofLE (toLE w n).reverse
      rwa [List.length_reverse, length_toLE] at himg
  | big => rfl

/-- Converting a loaded value back to host order reads the image as big-endian. -/
theorem hton_load (o : ByteOrder) {w : Nat} {l : List UInt8} (h : l.length = w) :
    o.hton w (o.load l) = ofBE l := by
  subst h
  cases o with
  | little => rw [hton, load, toLE_ofLE]
  | big => rfl

theorem hton_lt (o : ByteOrder) {w n : Nat} (h : n < 256 ^ w) : o.hton w n < 256 ^ w := by
  cases o with
  | little => simpa [hton] using ofBE_lt (toLE w n)
  | big => exact h

theorem store_injective (o : ByteOrder) {w m n : Nat} (hm : m < 256 ^ w) (hn : n < 256 ^ w)
    (h : o.store w m = o.store w n) : m = n := by
  have hload := congrArg o.load h
  rwa [load_store, load_store, Nat.mod_eq_of_lt hm, Nat.mod_eq_of_lt hn] at hload

/-! ### Records -/

/-- The image of a record: its words one after the other, each given as its width and
its value. -/
def storeWords (o : ByteOrder) (words : List (Nat × Nat)) : List UInt8 :=
  words.flatMap (fun w => o.store w.1 w.2)

/-- The pieces of an image that have the given widths. -/
def cutWords : List Nat → List UInt8 → List (List UInt8)
  | [], _ => []
  | w :: ws, l => l.take w :: cutWords ws (l.drop w)

theorem cutWords_flatMap {f : Nat × Nat → List UInt8} (hf : ∀ w, (f w).length = w.1)
    (words : List (Nat × Nat)) :
    cutWords (words.map Prod.fst) (words.flatMap f) = words.map f := by
  induction words with
  | nil => rfl
  | cons w words ih =>
      rw [List.map_cons, List.flatMap_cons, cutWords, List.map_cons, List.take_left' (hf w),
        List.drop_left' (hf w), ih]

/-- Records of one layout have equal images only if their words are equal. -/
theorem storeWords_injective (o : ByteOrder) {ws ws' : List (Nat × Nat)}
    (hlay : ws.map Prod.fst = ws'.map Prod.fst) (hws : ∀ w ∈ ws, w.2 < 256 ^ w.1)
    (hws' : ∀ w ∈ ws', w.2 < 256 ^ w.1) (h : o.storeWords ws = o.storeWords ws') : ws = ws' := by
  induction ws generalizing ws' with
  | nil => simpa using hlay
  | cons w ws ih =>
      cases ws' with
      | nil => simp at hlay
      | cons w' ws' =>
          rw [List.map_cons, List.map_cons, List.cons.injEq] at hlay
          obtain ⟨hwidth, hlay⟩ := hlay
          obtain ⟨hw, hws⟩ := List.forall_mem_cons.mp hws
          obtain ⟨hw', hws'⟩ := List.forall_mem_cons.mp hws'
          simp only [storeWords, List.flatMap_cons] at h
          obtain ⟨hhead, htail⟩ := List.append_inj h (by simp [hwidth])
          rw [hwidth] at hw hhead
          have hval : w.2 = w'.2 := o.store_injective hw hw' hhead
          rw [Prod.ext hwidth hval, ih hlay hws hws' htail]

end ByteOrder

end Lib
