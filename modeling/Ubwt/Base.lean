import Mathlib.Tactic.Ring
import Mathlib.Tactic.NormNum
import Ubwt.Lib.Endian

/-!
# Ubwt.Base

What every part of ubwt uses: the bit operations of `bitops.c`, the stages of
`stage.h`, the `errno` values the code tests or sets, and the byte-order functions
of `net.h`.

The byte order of a host is a parameter (`Host`), and so is the definition of
`net_htonll` its build picked: the inline function, or the macro that is used under
clang. `netHtonll_eq` says that the two agree, on either byte order, with one
eight-byte reversal.
-/

namespace Ubwt

open Lib Lib.Endian

/-! ### bitops.c -/

/-- `bit_flag()`. -/
def bitFlag (n : Nat) : UInt32 := 1 <<< UInt32.ofNat n

/-- `bit_set()`. -/
def bitSet (dword : UInt32) (n : Nat) : UInt32 := dword ||| bitFlag n

/-- `bit_clear()`. -/
def bitClear (dword : UInt32) (n : Nat) : UInt32 := dword &&& ~~~bitFlag n

/-- `bit_test()`, as the truth value its callers use. -/
def bitTest (dword : UInt32) (n : Nat) : Bool := dword &&& bitFlag n != 0

theorem bitTest_bitSet {i j : Nat} (h : bitFlag i &&& bitFlag j = 0) (dword : UInt32) :
    bitTest (bitSet dword i) j = bitTest dword j := by
  have hdistrib : (dword ||| bitFlag i) &&& bitFlag j
      = (dword &&& bitFlag j) ||| (bitFlag i &&& bitFlag j) :=
    UInt32.toBitVec_inj.mp BitVec.and_or_distrib_right
  rw [bitTest, bitSet, hdistrib, h, UInt32.or_zero, bitTest]

theorem bitTest_bitClear {i j : Nat} (h : ~~~bitFlag i &&& bitFlag j = bitFlag j)
    (dword : UInt32) : bitTest (bitClear dword i) j = bitTest dword j := by
  rw [bitTest, bitClear, UInt32.and_assoc, h, bitTest]

/-! ### stage.h -/

/-- `ubwt_stage_state_t`. -/
inductive Stage
  | none
  | initCurrent
  | initConfig
  | initNet
  | initProcess
  | talkHandshake
  | talkNegotiation
  | talkStream
  | talkReportExchange
  | talkFinish
  | reportShow
  | destroyProcess
  | destroyNet
  | destroyConfig
  | destroyCurrent
  deriving Repr, DecidableEq

/-! ### error.h and the `errno` values of POSIX -/

/-- The values of `errno` that the code tests or sets; `abort` is
`UBWT_ERROR_ABORT` (`ECANCELED`), `msgUnexpected` is `UBWT_ERROR_MSG_UNEXPECTED`
(`EBADE`, `ENOMSG` or `EINVAL`, whichever the host has). -/
inductive Errno
  | eintr
  | eagain
  | enobufs
  | einval
  | abort
  | msgUnexpected
  | other (n : Nat)
  deriving Repr, DecidableEq

/-! ### Endpoints (`net_im_connector()`, `net_im_listener()`) -/

/-- The two ends of a test. -/
inductive Endpoint
  | connector
  | listener
  deriving Repr, DecidableEq

/-- The other end. -/
def Endpoint.peer : Endpoint → Endpoint
  | connector => listener
  | listener => connector

@[simp] theorem Endpoint.peer_peer (e : Endpoint) : e.peer.peer = e := by
  cases e <;> rfl

theorem Endpoint.peer_ne (e : Endpoint) : e.peer ≠ e := by
  cases e <;> decide

theorem Endpoint.eq_or_eq_peer (e f : Endpoint) : f = e ∨ f = e.peer := by
  cases e <;> cases f <;> decide

/-! ### Byte order (`net.h`) -/

/-- Which definition of `net_htonll` a build has. -/
inductive HtonllVariant
  | inlineFunction
  | clangMacro
  deriving Repr, DecidableEq

/-- A host together with the build that runs on it, as far as byte order goes. -/
structure Host where
  order : ByteOrder
  htonll : HtonllVariant
  deriving Repr, DecidableEq

/-- `htons()`, and `ntohs()`. -/
def htons (h : Host) (v : UInt16) : UInt16 := UInt16.ofNat (h.order.hton 2 v.toNat)

/-- `htonl()`, and `ntohl()`. -/
def htonl (h : Host) (v : UInt32) : UInt32 := UInt32.ofNat (h.order.hton 4 v.toNat)

/-- The two 32-bit words `ptr[0]` and `ptr[1]` that a 64-bit object is read as. -/
def words32 (h : Host) (v : UInt64) : UInt32 × UInt32 :=
  let image := h.order.store 8 v.toNat
  (UInt32.ofNat (h.order.load (image.take 4)), UInt32.ofNat (h.order.load (image.drop 4)))

/-- `*(unsigned char *) &i` for `unsigned int i = 1`: is the first byte of the image
of 1 set? -/
def firstByteSet (h : Host) : Bool := (h.order.store 4 1).headD 0 != 0

/-- `net_htonll()` as the inline function: swap the two words, each converted. -/
def netHtonllInline (h : Host) (hostlonglong : UInt64) : UInt64 :=
  if firstByteSet h then
    let ptr := words32 h hostlonglong
    let lo := htonl h ptr.2
    let hi := htonl h ptr.1
    UInt64.ofNat (h.order.load (h.order.store 4 lo.toNat ++ h.order.store 4 hi.toNat))
  else hostlonglong

/-- `net_htonll()` as the clang macro: `htonl(ptr[0]) << 32 | htonl(ptr[1])`. -/
def netHtonllMacro (h : Host) (hostlonglong : UInt64) : UInt64 :=
  if firstByteSet h then
    let ptr := words32 h hostlonglong
    ((htonl h ptr.1).toUInt64 <<< 32) ||| (htonl h ptr.2).toUInt64
  else hostlonglong

/-- `net_htonll()`, and `net_ntohll()`. -/
def netHtonll (h : Host) (v : UInt64) : UInt64 :=
  match h.htonll with
  | .inlineFunction => netHtonllInline h v
  | .clangMacro => netHtonllMacro h v

theorem toNat_htons (h : Host) (v : UInt16) : (htons h v).toNat = h.order.hton 2 v.toNat := by
  have hlt := h.order.hton_lt (w := 2) v.toNat_lt
  rw [htons, UInt16.toNat_ofNat']
  exact Nat.mod_eq_of_lt hlt

theorem toNat_htonl (h : Host) (v : UInt32) : (htonl h v).toNat = h.order.hton 4 v.toNat := by
  have hlt := h.order.hton_lt (w := 4) v.toNat_lt
  rw [htonl, UInt32.toNat_ofNat']
  exact Nat.mod_eq_of_lt hlt

theorem words32_little (h : Host) (ho : h.order = .little) (v : UInt64) :
    (words32 h v).1.toNat = v.toNat % 2 ^ 32 ∧ (words32 h v).2.toNat = v.toNat / 2 ^ 32 := by
  have hv : v.toNat < 2 ^ 64 := v.toNat_lt
  have himg : toLE 8 v.toNat = toLE 4 v.toNat ++ toLE 4 (v.toNat / 2 ^ 32) :=
    toLE_add 4 4 v.toNat
  simp only [words32, ho, ByteOrder.store, ByteOrder.load, himg, List.take_left',
    List.drop_left', length_toLE, ofLE_toLE, UInt32.toNat_ofNat']
  omega

theorem netHtonllInline_eq (h : Host) (v : UInt64) :
    (netHtonllInline h v).toNat = h.order.hton 8 v.toNat := by
  cases ho : h.order with
  | big => simp [netHtonllInline, firstByteSet, ho, ByteOrder.store, toBE, toLE, ByteOrder.hton]
  | little =>
      obtain ⟨hlo, hhi⟩ := words32_little h ho v
      have hset : firstByteSet h = true := by
        simp [firstByteSet, ho, ByteOrder.store, toLE]
      have hword : ∀ w : UInt32, toLE 4 (htonl h w).toNat = toBE 4 w.toNat := by
        intro w
        rw [toNat_htonl, ho]
        exact ByteOrder.store_hton .little 4 w.toNat
      have hlow : toLE 4 (v.toNat % 2 ^ 32) = toLE 4 v.toNat := by
        have := toLE_ofLE (toLE 4 v.toNat)
        rwa [ofLE_toLE, length_toLE] at this
      have himg : toBE 4 (v.toNat / 2 ^ 32) ++ toBE 4 (v.toNat % 2 ^ 32) = toBE 8 v.toNat := by
        rw [toBE, toBE, hlow, ← List.reverse_append, toBE]
        exact congrArg List.reverse (toLE_add 4 4 v.toNat).symm
      simp only [netHtonllInline, hset, if_true, ho, ByteOrder.store, ByteOrder.load, hword,
        hlo, hhi, himg, ByteOrder.hton, UInt64.toNat_ofNat']
      rw [toBE, ofBE]
      exact Nat.mod_eq_of_lt (by simpa using ofLE_lt (toLE 8 v.toNat).reverse)

theorem netHtonllMacro_eq_inline (h : Host) (v : UInt64) :
    netHtonllMacro h v = netHtonllInline h v := by
  cases ho : h.order with
  | big => simp [netHtonllMacro, netHtonllInline, firstByteSet, ho, ByteOrder.store, toBE, toLE]
  | little =>
      have hset : firstByteSet h = true := by
        simp [firstByteSet, ho, ByteOrder.store, toLE]
      simp only [netHtonllMacro, netHtonllInline, hset, if_true]
      generalize htonl h (words32 h v).1 = hi
      generalize htonl h (words32 h v).2 = lo
      have hl : lo.toNat < 2 ^ 32 := lo.toNat_lt
      have hh : hi.toNat < 2 ^ 32 := hi.toNat_lt
      apply UInt64.toNat_inj.mp
      -- The words do not overlap, so the disjunction is the sum the image stands for.
      have hor : hi.toNat <<< 32 ||| lo.toNat = hi.toNat * 2 ^ 32 + lo.toNat := by
        rw [Nat.shiftLeft_eq, Nat.mul_comm]
        exact (Nat.two_pow_add_eq_or_of_lt hl hi.toNat).symm
      have hshift : (hi.toUInt64 <<< (32 : UInt64)).toNat = hi.toNat <<< 32 := by
        rw [UInt64.toNat_shiftLeft, UInt32.toNat_toUInt64]
        have : hi.toNat <<< ((32 : UInt64).toNat % 64) = hi.toNat * 2 ^ 32 := by
          rw [Nat.shiftLeft_eq]; rfl
        rw [this, Nat.shiftLeft_eq]
        exact Nat.mod_eq_of_lt (by omega)
      rw [UInt64.toNat_or, hshift, UInt32.toNat_toUInt64, hor]
      simp only [ho, ByteOrder.store, ByteOrder.load, ofLE_append, ofLE_toLE, length_toLE,
        UInt64.toNat_ofNat']
      omega

/-- **One conversion**: both definitions of `net_htonll` are the eight-byte
conversion of the host. -/
theorem netHtonll_eq (h : Host) (v : UInt64) :
    (netHtonll h v).toNat = h.order.hton 8 v.toNat := by
  cases hv : h.htonll with
  | inlineFunction => simp only [netHtonll, hv, netHtonllInline_eq]
  | clangMacro => simp only [netHtonll, hv, netHtonllMacro_eq_inline, netHtonllInline_eq]

/-! ### Reading a word that came in network order -/

theorem htons_load {h : Host} {l : List UInt8} {v : UInt16} (hl : l = toBE 2 v.toNat) :
    htons h (UInt16.ofNat (h.order.load l)) = v := by
  have hlen : l.length = 2 := by simp [hl]
  apply UInt16.toNat_inj.mp
  have hload : h.order.load l < 2 ^ 16 := by simpa [hlen] using h.order.load_lt l
  rw [toNat_htons, UInt16.toNat_ofNat', Nat.mod_eq_of_lt hload, ByteOrder.hton_load _ hlen, hl]
  exact ofBE_toBE_of_lt v.toNat_lt

theorem htonl_load {h : Host} {l : List UInt8} {v : UInt32} (hl : l = toBE 4 v.toNat) :
    htonl h (UInt32.ofNat (h.order.load l)) = v := by
  have hlen : l.length = 4 := by simp [hl]
  apply UInt32.toNat_inj.mp
  have hload : h.order.load l < 2 ^ 32 := by simpa [hlen] using h.order.load_lt l
  rw [toNat_htonl, UInt32.toNat_ofNat', Nat.mod_eq_of_lt hload, ByteOrder.hton_load _ hlen, hl]
  exact ofBE_toBE_of_lt v.toNat_lt

/-- The conversion of a value, as the word that the value makes in network order. -/
theorem hton_eq_load (o : ByteOrder) {w n : Nat} (hn : n < 256 ^ w) :
    o.hton w n = o.load (toBE w n) := by
  rw [← o.store_hton w n, o.load_store, Nat.mod_eq_of_lt (o.hton_lt hn)]

theorem htons_htons (h : Host) (v : UInt16) : htons h (htons h v) = v := by
  have hconv : htons h v = UInt16.ofNat (h.order.load (toBE 2 v.toNat)) := by
    rw [htons, hton_eq_load h.order v.toNat_lt]
  rw [hconv]
  exact htons_load rfl

theorem htonl_htonl (h : Host) (v : UInt32) : htonl h (htonl h v) = v := by
  have hconv : htonl h v = UInt32.ofNat (h.order.load (toBE 4 v.toNat)) := by
    rw [htonl, hton_eq_load h.order v.toNat_lt]
  rw [hconv]
  exact htonl_load rfl

theorem netHtonll_load {h : Host} {l : List UInt8} {v : UInt64} (hl : l = toBE 8 v.toNat) :
    netHtonll h (UInt64.ofNat (h.order.load l)) = v := by
  have hlen : l.length = 8 := by simp [hl]
  apply UInt64.toNat_inj.mp
  have hload : h.order.load l < 2 ^ 64 := by simpa [hlen] using h.order.load_lt l
  rw [netHtonll_eq, UInt64.toNat_ofNat', Nat.mod_eq_of_lt hload, ByteOrder.hton_load _ hlen, hl]
  exact ofBE_toBE_of_lt v.toNat_lt

end Ubwt
