import Mathlib.Algebra.Ring.Int.Defs
import Mathlib.Algebra.Ring.Nat
import Mathlib.Data.Fintype.Card
import Mathlib.Data.Nat.Digits.Defs

/-!
# Integers as bytes

* `leBytes n v` : the `n` lowest bytes of `v`, the lowest one first; `ofLeBytes` reads them back.
* `byteswap n v` : `v` with its `n` bytes in the opposite order.
* `varint v` : `v` in groups of seven bits, the lowest ones first; every byte but the last one has
  its high bit set.
* `zigzag v` : a signed number as an unsigned one, small if its absolute value is small; `unzigzag`
  is its inverse.
* `signed w n` : the value of `n` after the conversion to a signed type of `w` bits.
-/

namespace YXTWebCpp

namespace Codec

/-! ### Fixed width -/

/-- The `n` lowest bytes of `v`, the lowest one first. -/
def leBytes : ℕ → ℕ → List UInt8
  | 0, _ => []
  | n + 1, v => UInt8.ofNat v :: leBytes n (v / 256)

/-- The number with the given bytes, the lowest one first. -/
def ofLeBytes (bytes : List UInt8) : ℕ := Nat.ofDigits 256 (bytes.map UInt8.toNat)

/-- The lowest `n` bytes in the opposite order. -/
def byteswap (n v : ℕ) : ℕ := ofLeBytes (leBytes n v).reverse

@[simp] theorem length_leBytes (n v : ℕ) : (leBytes n v).length = n := by
  induction n generalizing v with
  | zero => rfl
  | succ n ih => rw [leBytes, List.length_cons, ih]

theorem ofLeBytes_cons (byte : UInt8) (bytes : List UInt8) :
    ofLeBytes (byte :: bytes) = byte.toNat + 256 * ofLeBytes bytes := by
  rw [ofLeBytes, List.map_cons, Nat.ofDigits_cons]
  rfl

theorem ofLeBytes_leBytes {n v : ℕ} (h : v < 256 ^ n) : ofLeBytes (leBytes n v) = v := by
  induction n generalizing v with
  | zero =>
    obtain rfl : v = 0 := by simpa using h
    rfl
  | succ n ih =>
    have hdiv : v / 256 < 256 ^ n := by
      rw [Nat.div_lt_iff_lt_mul (by decide), ← Nat.pow_succ]
      exact h
    rw [leBytes, ofLeBytes_cons, ih hdiv, UInt8.toNat_ofNat', Nat.mod_add_div]

/-- Bytes are read back as they were written. -/
theorem leBytes_ofLeBytes (bytes : List UInt8) :
    leBytes bytes.length (ofLeBytes bytes) = bytes := by
  induction bytes with
  | nil => rfl
  | cons byte bytes ih =>
    have hlt := byte.toNat_lt
    have hdiv : (byte.toNat + 256 * ofLeBytes bytes) / 256 = ofLeBytes bytes := by omega
    have hmod : UInt8.ofNat (byte.toNat + 256 * ofLeBytes bytes) = byte := by
      apply UInt8.toNat_inj.1
      rw [UInt8.toNat_ofNat']
      omega
    rw [ofLeBytes_cons, List.length_cons, leBytes, hdiv, hmod, ih]

/-- The bytes of the swapped number are the bytes in the opposite order. -/
theorem leBytes_byteswap (n v : ℕ) : leBytes n (byteswap n v) = (leBytes n v).reverse := by
  have h := leBytes_ofLeBytes (leBytes n v).reverse
  rwa [List.length_reverse, length_leBytes] at h

theorem byteswap_byteswap {n v : ℕ} (h : v < 256 ^ n) : byteswap n (byteswap n v) = v := by
  rw [byteswap, leBytes_byteswap, List.reverse_reverse, ofLeBytes_leBytes h]

theorem ofLeBytes_leBytes_byteswap (n v : ℕ) :
    ofLeBytes (leBytes n (byteswap n v)) = byteswap n v := by
  rw [leBytes_byteswap, byteswap]

/-! ### Variable width -/

/-- `v` in groups of seven bits. -/
def varint (v : ℕ) : List UInt8 :=
  if 0x80 ≤ v then UInt8.ofNat (v &&& 0x7F ||| 0x80) :: varint (v >>> 7) else [UInt8.ofNat v]
termination_by v
decreasing_by
  rw [Nat.shiftRight_eq_div_pow]
  omega

theorem varint_ne_nil (v : ℕ) : varint v ≠ [] := by
  rw [varint]
  split_ifs <;> simp

/-- The low bits of a byte with its high bit set. -/
theorem low_or_high (v : ℕ) : v &&& 0x7F ||| 0x80 = v % 128 + 128 := by
  have h := Nat.shiftLeft_add_eq_or_of_lt (i := 7) (b := v % 128) (by omega) 1
  rw [show (0x7F : ℕ) = 2 ^ 7 - 1 by rfl, Nat.and_two_pow_sub_one_eq_mod, Nat.or_comm]
  exact h.symm.trans (Nat.add_comm _ _)

theorem varint_of_le {v : ℕ} (h : 128 ≤ v) :
    varint v = UInt8.ofNat (v % 128 + 128) :: varint (v / 128) := by
  rw [varint, if_pos h, low_or_high, Nat.shiftRight_eq_div_pow]

theorem varint_of_lt {v : ℕ} (h : v < 128) : varint v = [UInt8.ofNat v] := by
  rw [varint, if_neg (by omega)]

theorem toNat_high (v : ℕ) : (UInt8.ofNat (v % 128 + 128)).toNat = v % 128 + 128 := by
  rw [UInt8.toNat_ofNat']
  omega

theorem toNat_high_and_low (v : ℕ) : (UInt8.ofNat (v % 128 + 128) &&& 0x7F).toNat = v % 128 := by
  rw [UInt8.toNat_and, toNat_high]
  change (v % 128 + 128) &&& (2 ^ 7 - 1) = _
  rw [Nat.and_two_pow_sub_one_eq_mod]
  omega

/-- A group of bits is put in front of bit `i`. -/
theorem or_shiftLeft_mod {r i v w : ℕ} (hr : r < 2 ^ i) (hv : v * 2 ^ i < 2 ^ w) :
    r ||| v <<< i % 2 ^ w = r + v * 2 ^ i := by
  have hor := Nat.shiftLeft_add_eq_or_of_lt hr v
  rw [Nat.shiftLeft_eq] at hor ⊢
  rw [Nat.mod_eq_of_lt hv, Nat.or_comm, ← hor, Nat.add_comm]

/-- A number is its lowest group and the rest. -/
theorem group_add (v i : ℕ) : v % 128 * 2 ^ i + v / 128 * 2 ^ (i + 7) = v * 2 ^ i := by
  rw [Nat.pow_add, Nat.mul_comm (2 ^ i), ← Nat.mul_assoc, ← Nat.add_mul,
    show (2 : ℕ) ^ 7 = 128 by rfl, Nat.mul_comm _ 128, Nat.mod_add_div]

theorem group_lt {r v i : ℕ} (hr : r < 2 ^ i) : r + v % 128 * 2 ^ i < 2 ^ (i + 7) := by
  have h := Nat.mul_le_mul_right (2 ^ i) (show v % 128 ≤ 127 by omega)
  rw [Nat.pow_add]
  omega

/-! ### Signed numbers -/

section Zigzag

variable {w : ℕ}

/-- The sign goes to the lowest bit. -/
def zigzag (v : BitVec w) : BitVec w := v <<< 1 ^^^ v.sshiftRight (w - 1)

/-- The sign comes back from the lowest bit. -/
def unzigzag (v : BitVec w) : BitVec w := v >>> 1 ^^^ -(v &&& 1)

/-- Bit `i` of the sign, spread over all bits. -/
theorem getLsbD_sign (v : BitVec w) {i : ℕ} (hi : i < w) :
    (v.sshiftRight (w - 1)).getLsbD i = v.msb := by
  rw [BitVec.getLsbD_sshiftRight, BitVec.msb_eq_getLsbD_last]
  by_cases h0 : i = 0
  · subst h0
    simp [hi, Nat.ne_of_gt hi]
  · simp [hi, show ¬ w - 1 + i < w by omega]

theorem getLsbD_neg_and_one (v : BitVec w) {i : ℕ} (hi : i < w) :
    (-(v &&& 1)).getLsbD i = v.getLsbD 0 := by
  rw [show (1 : BitVec w) = 1#w by rfl, BitVec.and_one_eq_setWidth_ofBool_getLsbD]
  cases v.getLsbD 0 with
  | false => simp
  | true =>
    have hone : (BitVec.ofBool true).setWidth w = 1#w := by
      apply BitVec.eq_of_toNat_eq
      simp
    rw [hone, BitVec.neg_one_eq_allOnes]
    simp [hi]

theorem unzigzag_zigzag (v : BitVec w) : unzigzag (zigzag v) = v := by
  apply BitVec.eq_of_getLsbD_eq
  intro i hi
  have hsign : (zigzag v).getLsbD 0 = v.msb := by
    rw [zigzag, BitVec.getLsbD_xor, getLsbD_sign v (by omega)]
    simp
  rw [unzigzag, BitVec.getLsbD_xor, getLsbD_neg_and_one _ hi, hsign, BitVec.getLsbD_ushiftRight]
  by_cases hlast : 1 + i < w
  · rw [zigzag, BitVec.getLsbD_xor, getLsbD_sign v hlast, BitVec.getLsbD_shiftLeft]
    simp [hlast]
  · rw [BitVec.getLsbD_of_ge _ _ (by omega), BitVec.msb_eq_getLsbD_last, Bool.false_xor]
    congr 1
    omega

end Zigzag

/-! ### Conversions -/

/-- The conversion to a signed type of `w` bits. -/
def signed (w : ℕ) (n : ℤ) : ℤ := n.bmod (2 ^ w)

theorem signed_lt (w : ℕ) (n : ℤ) : signed (w + 1) n < 2 ^ w := by
  have h := Int.bmod_lt (x := n) (Nat.two_pow_pos (w + 1))
  rw [Nat.pow_succ] at h
  rw [signed, Nat.pow_succ]
  push_cast at h
  omega

theorem signed_of_lt {w : ℕ} {n : ℤ} (h0 : 0 ≤ n) (h : n < 2 ^ w) : signed (w + 1) n = n := by
  rw [signed, Nat.pow_succ]
  refine Int.bmod_eq_of_le ?_ ?_
  · omega
  · push_cast
    omega

end Codec

end YXTWebCpp
