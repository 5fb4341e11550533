import Ubwt.Lib.Endian

/-!
# Ubwt.Lib.Layout

**The layout of a C struct under a packing rule**, and the copy of such a struct from one
host to another.

A struct is the list of the types of its members. Each member starts at the first position
that its alignment allows, and the packing says what that alignment is; the struct is then
filled up to a multiple of its own alignment. `encode` puts the members in network order
into the memory of the struct, `decode` takes them out of such a memory. **If the members
have the same offsets under two packings, each decodes what the other encoded**
(`decode_encode`).
-/

namespace Lib.Layout

open Lib.Endian

/-- The types of members: unsigned integers and arrays of bytes. -/
inductive MemberType
  | uint (w : Nat)
  | array (n : Nat)
  deriving Repr, DecidableEq

/-- `sizeof()`. -/
def MemberType.size : MemberType → Nat
  | uint w => w
  | array n => n

/-- The natural alignment. -/
def MemberType.align : MemberType → Nat
  | uint w => w
  | array _ => 1

/-- How a compiler is told to pack a struct. -/
inductive Packing
  /-- `#pragma pack(n)`: no member is aligned to more than `n`. -/
  | pragmaPack (n : Nat)
  /-- `__attribute__ ((packed, aligned(n)))`: no member is aligned, and the struct is. -/
  | packedAligned (n : Nat)
  deriving Repr, DecidableEq

def Packing.memberAlign : Packing → MemberType → Nat
  | pragmaPack n, m => min m.align n
  | packedAligned _, _ => 1

def Packing.structAlign : Packing → List MemberType → Nat
  | pragmaPack n, ms => ms.foldr (fun m a => max (min m.align n) a) 1
  | packedAligned n, _ => n

/-- The padding that a position needs for an alignment. -/
def padTo (a pos : Nat) : Nat := (a - pos % a) % a

/-- The padding before a member. -/
def Packing.pad (p : Packing) (pos : Nat) (m : MemberType) : Nat := padTo (p.memberAlign m) pos

/-- `offsetof()` of each member, the first one of them being laid out from `pos` on. -/
def Packing.offsets (p : Packing) : Nat → List MemberType → List Nat
  | _, [] => []
  | pos, m :: ms => (pos + p.pad pos m) :: p.offsets (pos + p.pad pos m + m.size) ms

/-- The position behind the last member. -/
def Packing.fin (p : Packing) : Nat → List MemberType → Nat
  | pos, [] => pos
  | pos, m :: ms => p.fin (pos + p.pad pos m + m.size) ms

/-- `sizeof()` of the struct. -/
def Packing.sizeof (p : Packing) (ms : List MemberType) : Nat :=
  p.fin 0 ms + padTo (p.structAlign ms) (p.fin 0 ms)

/-! ### Values -/

inductive MemberVal
  | int (n : Nat)
  | bytes (l : List UInt8)
  deriving Repr, DecidableEq

/-- A value is one of its type. -/
def MemberVal.OfType : MemberVal → MemberType → Prop
  | int n, .uint w => n < 256 ^ w
  | bytes l, .array n => l.length = n
  | _, _ => False

/-- The memory of a member after its conversion to network order. -/
def MemberVal.store (o : ByteOrder) : MemberVal → MemberType → List UInt8
  | int n, .uint w => o.store w (o.hton w n)
  | bytes l, .array _ => l
  | _, _ => []

/-- A member as the memory holds it, after its conversion to host order. -/
def MemberVal.load (o : ByteOrder) (l : List UInt8) : MemberType → MemberVal
  | .uint w => int (o.hton w (o.load l))
  | .array _ => bytes l

/-- The members in memory, each behind its padding. -/
def Packing.image (p : Packing) (o : ByteOrder) : Nat → List MemberType → List MemberVal → List UInt8
  | pos, m :: ms, v :: vs =>
      List.replicate (p.pad pos m) 0 ++ (v.store o m
        ++ p.image o (pos + p.pad pos m + m.size) ms vs)
  | _, _, _ => []

/-- The memory of a struct that was zeroed and then filled in network order. -/
def Packing.encode (p : Packing) (o : ByteOrder) (ms : List MemberType) (vs : List MemberVal) :
    List UInt8 :=
  p.image o 0 ms vs ++ List.replicate (padTo (p.structAlign ms) (p.fin 0 ms)) 0

/-- The members at these offsets, in host order. -/
def decodeAt (o : ByteOrder) (l : List UInt8) : List Nat → List MemberType → List MemberVal
  | offset :: offsets, m :: ms =>
      MemberVal.load o ((l.drop offset).take m.size) m :: decodeAt o l offsets ms
  | _, _ => []

/-- The members of a struct in memory, in host order. -/
def Packing.decode (p : Packing) (o : ByteOrder) (ms : List MemberType) (l : List UInt8) :
    List MemberVal :=
  decodeAt o l (p.offsets 0 ms) ms

variable {p q : Packing} {o o' : ByteOrder} {ms ms' : List MemberType} {vs vs' : List MemberVal}

theorem MemberVal.OfType.length_store {v : MemberVal} {m : MemberType} (h : v.OfType m)
    (o : ByteOrder) : (v.store o m).length = m.size := by
  cases v <;> cases m <;> simp_all [OfType, store, MemberType.size]

/-- A member that is stored on one host and loaded on another keeps its value. -/
theorem MemberVal.OfType.load_store {v : MemberVal} {m : MemberType} (h : v.OfType m)
    (o o' : ByteOrder) : MemberVal.load o' (v.store o m) m = v := by
  cases v with
  | int n =>
      cases m with
      | array _ => exact h.elim
      | uint w =>
          rw [store, load, ByteOrder.store_hton, ByteOrder.hton_load o' (length_toBE w n),
            ofBE_toBE_of_lt h]
  | bytes l =>
      cases m with
      | array n => rfl
      | uint _ => exact h.elim

/-- The value of an integer member, read off its bytes. -/
theorem MemberVal.load_uint (o : ByteOrder) {w : Nat} {l : List UInt8} (hl : l.length = w) :
    MemberVal.load o l (.uint w) = .int (ofBE l) := by
  rw [load, ByteOrder.hton_load o hl]

/-! ### Where the members are -/

theorem Packing.offsets_append (p : Packing) (pos : Nat) (ms ms' : List MemberType) :
    p.offsets pos (ms ++ ms') = p.offsets pos ms ++ p.offsets (p.fin pos ms) ms' := by
  induction ms generalizing pos with
  | nil => rfl
  | cons m ms ih => simp [offsets, fin, ih]

theorem Packing.length_offsets (p : Packing) (pos : Nat) (ms : List MemberType) :
    (p.offsets pos ms).length = ms.length := by
  induction ms generalizing pos with
  | nil => rfl
  | cons m ms ih => simp [offsets, ih]

theorem decodeAt_append {offsets offsets' : List Nat} (hlen : offsets.length = ms.length)
    (o : ByteOrder) (l : List UInt8) :
    decodeAt o l (offsets ++ offsets') (ms ++ ms')
      = decodeAt o l offsets ms ++ decodeAt o l offsets' ms' := by
  induction ms generalizing offsets with
  | nil =>
      obtain rfl := List.length_eq_zero_iff.mp hlen
      rfl
  | cons m ms ih =>
      cases offsets with
      | nil => simp at hlen
      | cons offset offsets =>
          simp only [List.cons_append, decodeAt]
          rw [ih (by simpa using hlen)]

theorem Packing.image_append (hlen : ms.length = vs.length) (pos : Nat) :
    p.image o pos (ms ++ ms') (vs ++ vs')
      = p.image o pos ms vs ++ p.image o (p.fin pos ms) ms' vs' := by
  induction ms generalizing pos vs with
  | nil =>
      obtain rfl := List.length_eq_zero_iff.mp hlen.symm
      rfl
  | cons m ms ih =>
      cases vs with
      | nil => simp at hlen
      | cons v vs =>
          simp only [List.cons_append, image, fin, List.append_assoc]
          rw [ih (by simpa using hlen)]

theorem Packing.length_image (hvs : List.Forall₂ MemberVal.OfType vs ms) (pos : Nat) :
    pos + (p.image o pos ms vs).length = p.fin pos ms := by
  induction hvs generalizing pos with
  | nil => rfl
  | @cons v m vs ms hv _ ih =>
      rw [image, fin, ← ih, List.length_append, List.length_append, List.length_replicate,
        hv.length_store]
      omega

/-- What is stored at the offsets of a packing is found there, with anything before and
behind it. -/
theorem decodeAt_image (hvs : List.Forall₂ MemberVal.OfType vs ms) (o' : ByteOrder)
    (before behind : List UInt8) :
    decodeAt o' (before ++ (p.image o before.length ms vs ++ behind)) (p.offsets before.length ms) ms
      = vs := by
  generalize hpos : before.length = pos
  induction hvs generalizing before pos with
  | nil => rfl
  | @cons v m vs ms hv _ ih =>
      have hstart : (before ++ List.replicate (p.pad pos m) 0).length = pos + p.pad pos m := by
        rw [List.length_append, List.length_replicate, hpos]
      have hbefore : (before ++ List.replicate (p.pad pos m) 0 ++ v.store o m).length
          = pos + p.pad pos m + m.size := by
        rw [List.length_append, hstart, hv.length_store]
      have hrest := ih (before ++ List.replicate (p.pad pos m) 0 ++ v.store o m) _ hbefore
      simp only [Packing.image, Packing.offsets, decodeAt]
      simp only [List.append_assoc] at hrest hstart ⊢
      rw [hrest, ← List.append_assoc before, List.drop_left' (by simpa using hstart),
        List.take_left' (hv.length_store o), hv.load_store]

/-- **Packings that agree on the offsets agree on the struct.** -/
theorem decode_encode (hvs : List.Forall₂ MemberVal.OfType vs ms)
    (hoffsets : p.offsets 0 ms = q.offsets 0 ms) (o o' : ByteOrder) :
    q.decode o' ms (p.encode o ms vs) = vs := by
  rw [Packing.decode, ← hoffsets, Packing.encode]
  exact decodeAt_image hvs o' [] _

end Lib.Layout
