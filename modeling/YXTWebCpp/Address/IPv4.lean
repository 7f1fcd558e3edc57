import YXTWebCpp.Address.Basic

/-!
# Networks of IPv4 addresses

`IPv4Address::subnetMask`, `networkAddress` and `broadcastAddress` (`address.cpp`).  They work on
numbers in network order; `SockaddrIn.host` is the address in host order.

* `ArithmeticRight` : what the three functions should give for a prefix length.
* `arithmeticRight_iff` : for which prefix lengths they do.
-/

namespace YXTWebCpp

namespace Address

open Codec

namespace SockaddrIn

variable (a mem : SockaddrIn) (prefixLen : ℕ)

/-- The address in host order. -/
def host : ℕ := (byteswapOnLittleEndian32 a.addr).toNat

/-- `IPv4Address::broadcastAddress` -/
def broadcastAddress : Option SockaddrIn :=
  (createMask 32 prefixLen).map fun mask =>
    { a with addr := a.addr ||| byteswapOnLittleEndian32 (UInt32.ofNat mask) }

/-- `IPv4Address::subnetMask`, which leaves the port of its local variable as the memory `mem` has
it. -/
def subnetMask : Option SockaddrIn :=
  (createMask 32 prefixLen).map fun mask =>
    { mem with
      family := afInet
      addr := byteswapOnLittleEndian32 (~~~ UInt32.ofNat mask) }

/-- `IPv4Address::networkAddress` -/
def networkAddress : Option SockaddrIn :=
  (subnetMask mem prefixLen).map fun subnet => { a with addr := a.addr &&& subnet.addr }

end SockaddrIn

/-! ### Host order -/

theorem byteswapOnLittleEndian32_and (v w : UInt32) : byteswapOnLittleEndian32 (v &&& w) =
    byteswapOnLittleEndian32 v &&& byteswapOnLittleEndian32 w := by
  rw [← UInt32.toNat_inj, UInt32.toNat_and, toNat_byteswapOnLittleEndian32,
    toNat_byteswapOnLittleEndian32, toNat_byteswapOnLittleEndian32, UInt32.toNat_and, byteswap_and]

theorem byteswapOnLittleEndian32_or (v w : UInt32) : byteswapOnLittleEndian32 (v ||| w) =
    byteswapOnLittleEndian32 v ||| byteswapOnLittleEndian32 w := by
  rw [← UInt32.toNat_inj, UInt32.toNat_or, toNat_byteswapOnLittleEndian32,
    toNat_byteswapOnLittleEndian32, toNat_byteswapOnLittleEndian32, UInt32.toNat_or, byteswap_or]

/-! ### Networks -/

/-- For this prefix length the mask is defined, the network mask has its highest bits set, the
network address has the bits of the address there and no others, the broadcast address has all
others set, and the address is between them. -/
def ArithmeticRight (a mem : SockaddrIn) (prefixLen : ℕ) : Prop :=
  maskShift 32 prefixLen < 32 ∧
  ∃ mask subnet network broadcast,
    createMask 32 prefixLen = some mask ∧
    SockaddrIn.subnetMask mem prefixLen = some subnet ∧
    a.networkAddress mem prefixLen = some network ∧
    a.broadcastAddress prefixLen = some broadcast ∧
    (∀ i, subnet.host.testBit i = decide (32 - prefixLen ≤ i ∧ i < 32)) ∧
    network.host = a.host &&& subnet.host ∧
    broadcast.host = a.host ||| (2 ^ 32 - 1 - subnet.host) ∧
    network.host ≤ a.host ∧ a.host ≤ broadcast.host

theorem mask_lt (prefixLen : ℕ) : 2 ^ (32 - prefixLen) - 1 < 2 ^ 32 := by
  have hpow : 2 ^ (32 - prefixLen) ≤ 2 ^ 32 :=
    Nat.pow_le_pow_right (by decide) (Nat.sub_le 32 prefixLen)
  exact lt_of_lt_of_le (Nat.sub_lt (Nat.two_pow_pos _) Nat.one_pos) hpow

/-- The complement of the mask has the highest bits set. -/
theorem testBit_complement (prefixLen i : ℕ) :
    (2 ^ 32 - 1 - (2 ^ (32 - prefixLen) - 1)).testBit i =
      decide (32 - prefixLen ≤ i ∧ i < 32) := by
  rw [Nat.sub_sub, Nat.add_comm 1, Nat.testBit_two_pow_sub_succ (mask_lt prefixLen),
    Nat.testBit_two_pow_sub_one, Bool.eq_iff_iff]
  simp only [Bool.and_eq_true, Bool.not_eq_true', decide_eq_true_eq, decide_eq_false_iff_not]
  omega

/-- The three addresses in host order. -/
theorem host_spec (a mem : SockaddrIn) {prefixLen mask : ℕ}
    (h : createMask 32 prefixLen = some mask) (hlt : mask < 2 ^ 32) : ∃ subnet network broadcast,
      SockaddrIn.subnetMask mem prefixLen = some subnet ∧
      a.networkAddress mem prefixLen = some network ∧
      a.broadcastAddress prefixLen = some broadcast ∧
      subnet.host = 2 ^ 32 - 1 - mask ∧
      network.host = a.host &&& subnet.host ∧
      broadcast.host = a.host ||| mask := by
  have hto : (UInt32.ofNat mask).toNat = mask := UInt32.toNat_ofNat_of_lt hlt
  refine ⟨_, _, _, congrArg (Option.map _) h, congrArg (Option.map _) (congrArg (Option.map _) h),
    congrArg (Option.map _) h, ?_, ?_, ?_⟩
  · show (byteswapOnLittleEndian32 (byteswapOnLittleEndian32 (~~~ UInt32.ofNat mask))).toNat = _
    rw [byteswapOnLittleEndian32_self, UInt32.toNat_not, hto]
    rfl
  · show (byteswapOnLittleEndian32 (a.addr &&& _)).toNat = _
    rw [byteswapOnLittleEndian32_and, UInt32.toNat_and]
    rfl
  · show (byteswapOnLittleEndian32 (a.addr ||| byteswapOnLittleEndian32 _)).toNat = _
    rw [byteswapOnLittleEndian32_or, byteswapOnLittleEndian32_self, UInt32.toNat_or, hto]
    rfl

/-- **IPv4 networks**: the arithmetic is right exactly for prefixes of at least two bits; for the
two shorter ones the mask is not defined. -/
theorem arithmeticRight_iff (a mem : SockaddrIn) {prefixLen : ℕ} (h : prefixLen ≤ 32) :
    ArithmeticRight a mem prefixLen ↔ 2 ≤ prefixLen := by
  constructor
  · rintro ⟨-, mask, -, -, -, hmask, -⟩
    by_contra hlt
    rw [createMask_eq_none (Nat.not_le.1 hlt)] at hmask
    cases hmask
  · intro hle
    have hmask := createMask_of_le h (by omega) (Nat.le_refl 32)
    have hshift : maskShift 32 prefixLen < 32 := by
      rw [maskShift_of_le h (by decide)]
      omega
    have hlt := mask_lt prefixLen
    obtain ⟨subnet, network, broadcast, hs, hn, hb, hsubnet, hnetwork, hbroadcast⟩ :=
      host_spec a mem hmask hlt
    refine ⟨hshift, _, subnet, network, broadcast, hmask, hs, hn, hb, fun i => ?_, hnetwork, ?_,
      hnetwork ▸ Nat.and_le_left, hbroadcast ▸ Nat.left_le_or⟩
    · rw [hsubnet, testBit_complement]
    · rw [hbroadcast, hsubnet, Nat.sub_sub_self (Nat.le_sub_one_of_lt hlt)]

/-- `192.168.1.77/24` -/
theorem arithmeticRight_iff_home :
    ArithmeticRight ⟨afInet, 0, 0x4d01a8c0⟩ ⟨0, 0, 0⟩ 24 :=
  (arithmeticRight_iff _ _ (by decide)).2 (by decide)

/-- For the prefix length `0` the shift is by all 32 bits, and the mask is not defined. -/
theorem not_arithmeticRight_zero :
    maskShift 32 0 = 32 ∧ createMask 32 0 = none ∧ createMask 32 1 = none ∧
      ¬ ArithmeticRight ⟨afInet, 0, 0x4d01a8c0⟩ ⟨0, 0, 0⟩ 0 := by
  refine ⟨by decide, by decide, by decide, ?_⟩
  rintro ⟨hshift, -⟩
  exact absurd hshift (by decide)

end Address

end YXTWebCpp
