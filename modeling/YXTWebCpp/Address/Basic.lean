import YXTWebCpp.Codec.Bits

/-!
# Addresses

The data of `address.hpp` and `address.cpp` : the `sockaddr` structures in their memory order, on a
little-endian host with an `int` of 32 bits, and the mask that both kinds of address are cut with.

* `SockaddrIn`, `SockaddrIn6` : the structures; their numbers are in network order.
* `byteswapOnLittleEndian16`, `byteswapOnLittleEndian32` : between network and host order.
* `createMask` : `CreateMask<T>`; `createMask_of_le` and `createMask_eq_none` say where its
  arithmetic is defined.
-/

namespace YXTWebCpp

namespace Address

open Codec

/-! ### Structures -/

/-- `AF_INET` -/
def afInet : UInt16 := 2

/-- `AF_INET6` -/
def afInet6 : UInt16 := 10

/-- `sockaddr_in` -/
structure SockaddrIn where
  /-- `sin_family` -/
  family : UInt16
  /-- `sin_port` -/
  port : UInt16
  /-- `sin_addr.s_addr` -/
  addr : UInt32
  deriving DecidableEq

/-- `sockaddr_in6` -/
structure SockaddrIn6 where
  /-- `sin6_family` -/
  family : UInt16
  /-- `sin6_port` -/
  port : UInt16
  /-- `sin6_flowinfo` -/
  flowinfo : UInt32
  /-- `sin6_addr.s6_addr` -/
  addr : Fin 16 → UInt8
  /-- `sin6_scope_id` -/
  scopeId : UInt32
  deriving DecidableEq

/-! ### Byte order -/

/-- `byteswapOnLittleEndian<uint16_t>` -/
def byteswapOnLittleEndian16 (v : UInt16) : UInt16 := UInt16.ofNat (byteswap 2 v.toNat)

/-- `byteswapOnLittleEndian<uint32_t>` -/
def byteswapOnLittleEndian32 (v : UInt32) : UInt32 := UInt32.ofNat (byteswap 4 v.toNat)

theorem toNat_byteswapOnLittleEndian16 (v : UInt16) :
    (byteswapOnLittleEndian16 v).toNat = byteswap 2 v.toNat := by
  rw [byteswapOnLittleEndian16, UInt16.toNat_ofNat']
  exact Nat.mod_eq_of_lt (byteswap_lt 2 v.toNat)

/-- The two orders are swapped back. -/
theorem byteswapOnLittleEndian16_self (v : UInt16) :
    byteswapOnLittleEndian16 (byteswapOnLittleEndian16 v) = v := by
  rw [← UInt16.toNat_inj, toNat_byteswapOnLittleEndian16, toNat_byteswapOnLittleEndian16]
  exact byteswap_byteswap v.toNat_lt

theorem toNat_byteswapOnLittleEndian32 (v : UInt32) :
    (byteswapOnLittleEndian32 v).toNat = byteswap 4 v.toNat := by
  rw [byteswapOnLittleEndian32, UInt32.toNat_ofNat']
  exact Nat.mod_eq_of_lt (byteswap_lt 4 v.toNat)

theorem byteswapOnLittleEndian32_self (v : UInt32) :
    byteswapOnLittleEndian32 (byteswapOnLittleEndian32 v) = v := by
  rw [← UInt32.toNat_inj, toNat_byteswapOnLittleEndian32, toNat_byteswapOnLittleEndian32]
  exact byteswap_byteswap v.toNat_lt

/-! ### Masks -/

/-- `1 << n`, `none` where the shift is as wide as an `int`. -/
def shlOne (n : ℕ) : Option ℤ := if n < 32 then some (signed 32 (2 ^ n)) else none

/-- `a - b` as an `int`, `none` where it overflows. -/
def subInt (a b : ℤ) : Option ℤ :=
  if -2 ^ 31 ≤ a - b ∧ a - b < 2 ^ 31 then some (a - b) else none

/-- The shift of `CreateMask<T>`, computed as a `size_t`, where `T` has `w` bits. -/
def maskShift (w bits : ℕ) : ℕ := (w + 2 ^ 64 - bits) % 2 ^ 64

/-- `CreateMask<T>(bits)`, where `T` has `w` bits. -/
def createMask (w bits : ℕ) : Option ℕ :=
  (shlOne (maskShift w bits)).bind fun s => (subInt s 1).map fun m => (m % 2 ^ w).toNat

theorem maskShift_of_le {w bits : ℕ} (h : bits ≤ w) (hw : w < 2 ^ 64) :
    maskShift w bits = w - bits := by
  unfold maskShift
  omega

/-- The mask has its lowest bits set, as long as neither the shift nor the subtraction reaches the
end of `int`. -/
theorem createMask_of_le {w bits : ℕ} (h : bits ≤ w) (hw : w - bits ≤ 30) (hw' : w ≤ 32) :
    createMask w bits = some (2 ^ (w - bits) - 1) := by
  have hpow : (2 : ℤ) ^ (w - bits) ≤ 2 ^ 30 := pow_le_pow_right₀ (by decide) hw
  have hone : (1 : ℤ) ≤ 2 ^ (w - bits) := one_le_pow₀ (by decide)
  have hsigned : signed 32 (2 ^ (w - bits)) = 2 ^ (w - bits) :=
    signed_of_lt (by omega) (lt_of_le_of_lt hpow (by decide))
  have hlt : (2 : ℤ) ^ (w - bits) ≤ 2 ^ w := pow_le_pow_right₀ (by decide) (by omega)
  rw [createMask, maskShift_of_le h (by omega), shlOne, if_pos (by omega), Option.bind_some,
    hsigned, subInt, if_pos (by omega), Option.map_some, Int.emod_eq_of_lt (by omega) (by omega)]
  have hcast : ((2 ^ (w - bits) : ℕ) : ℤ) = 2 ^ (w - bits) := Nat.cast_pow 2 _
  refine congrArg some ?_
  rw [← hcast]
  omega

/-- With a shift by the width of `int`, or into its sign, it is undefined. -/
theorem createMask_eq_none {bits : ℕ} (h : bits < 2) : createMask 32 bits = none := by
  obtain rfl | rfl : bits = 0 ∨ bits = 1 := by omega
  · decide
  · decide

end Address

end YXTWebCpp
