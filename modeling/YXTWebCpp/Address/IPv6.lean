import Mathlib.Data.Fin.VecNotation
import Mathlib.Data.Fintype.Card
import Mathlib.Data.FinEnum
import YXTWebCpp.Address.Basic

/-!
# Networks of IPv6 addresses

`IPv6Address::subnetMask`, `networkAddress` and `broadcastAddress` (`address.cpp`) work on the
sixteen bytes of an address.  An index outside them is `none`.

* `ArithmeticRight6` : what the three functions should give for a prefix length.
* `arithmeticRight6_iff` : for which prefix lengths they do.
-/

namespace YXTWebCpp

namespace Address

/-! ### Bytes of an address -/

/-- `addr[i] = f(addr[i])`, `none` outside the array. -/
def modifyByte (addr : Fin 16 → UInt8) (i : ℕ) (f : UInt8 → UInt8) : Option (Fin 16 → UInt8) :=
  if h : i < 16 then some (Function.update addr ⟨i, h⟩ (f (addr ⟨i, h⟩))) else none

/-- `for (size_t i = lo; i < hi; ++i) addr[i] = v;` -/
def fillBytes (addr : Fin 16 → UInt8) (lo hi : ℕ) (v : UInt8) : Option (Fin 16 → UInt8) :=
  (List.range' lo (hi - lo)).foldlM (fun addr i => modifyByte addr i fun _ => v) addr

/-- Bit `k` of an address, counted from its first byte and there from the highest bit. -/
def addrBit (addr : Fin 16 → UInt8) (k : ℕ) (h : k < 128) : Bool :=
  (addr ⟨k / 8, by omega⟩).toNat.testBit (7 - k % 8)

namespace SockaddrIn6

variable (a : SockaddrIn6) (prefixLen : ℕ)

/-- `IPv6Address::broadcastAddress` -/
def broadcastAddress : Option SockaddrIn6 :=
  (createMask 8 (prefixLen % 8)).bind fun mask =>
    (modifyByte a.addr (prefixLen / 8) (· ||| UInt8.ofNat mask)).bind fun addr =>
      (fillBytes addr (prefixLen / 8) 16 0xff).map fun addr => { a with addr := addr }

/-- `IPv6Address::networkAddress` -/
def networkAddress : Option SockaddrIn6 :=
  (createMask 8 (prefixLen % 8)).bind fun mask =>
    (modifyByte a.addr (prefixLen / 8) (· &&& ~~~ UInt8.ofNat mask)).bind fun addr =>
      (fillBytes addr (prefixLen / 8) 16 0x00).map fun addr => { a with addr := addr }

/-- `IPv6Address::subnetMask` -/
def subnetMask : Option SockaddrIn6 :=
  let subnet : SockaddrIn6 := ⟨afInet6, 0, 0, fun _ => 0, 0⟩
  (createMask 8 (prefixLen % 8)).bind fun mask =>
    (modifyByte subnet.addr (prefixLen / 8) fun _ => ~~~ UInt8.ofNat mask).bind fun addr =>
      (fillBytes addr 0 (prefixLen / 8) 0xff).map fun addr => { subnet with addr := addr }

end SockaddrIn6

theorem modifyByte_of_lt (addr : Fin 16 → UInt8) {i : ℕ} (h : i < 16) (f : UInt8 → UInt8) :
    modifyByte addr i f = some (Function.update addr ⟨i, h⟩ (f (addr ⟨i, h⟩))) := by
  exact dif_pos h

theorem modifyByte_of_le (addr : Fin 16 → UInt8) {i : ℕ} (h : 16 ≤ i) (f : UInt8 → UInt8) :
    modifyByte addr i f = none := by
  exact dif_neg (Nat.not_lt.2 h)

/-- The loop writes the bytes between its bounds. -/
theorem fillBytes_eq (addr : Fin 16 → UInt8) {lo hi : ℕ} (h : hi ≤ 16) (v : UInt8) :
    fillBytes addr lo hi v = some fun j => if lo ≤ j.val ∧ j.val < hi then v else addr j := by
  unfold fillBytes
  induction hn : hi - lo generalizing lo addr with
  | zero =>
    refine congrArg some ?_
    funext j
    rw [if_neg (by omega)]
  | succ n ih =>
    rw [List.range'_succ, List.foldlM_cons, modifyByte_of_lt addr (by omega)]
    refine (ih _ (by omega)).trans (congrArg some ?_)
    funext j
    rw [Function.update_apply]
    by_cases hj : (j : ℕ) = lo
    · rw [if_neg (by omega), if_pos (Fin.ext hj), if_pos (by omega)]
    · rw [if_neg fun h => hj (congrArg Fin.val h)]
      split_ifs <;> first | rfl | omega

/-! ### Networks -/

/-- For this prefix length no index is outside the arrays, the network mask has its first bits set,
the network address has the bits of the address there and no others, the broadcast address has all
others set, and both keep the port and the family. -/
def ArithmeticRight6 (a : SockaddrIn6) (prefixLen : ℕ) : Prop :=
  ∃ subnet network broadcast,
    SockaddrIn6.subnetMask prefixLen = some subnet ∧
    a.networkAddress prefixLen = some network ∧
    a.broadcastAddress prefixLen = some broadcast ∧
    (∀ k h, addrBit subnet.addr k h = decide (k < prefixLen)) ∧
    (∀ j, network.addr j = a.addr j &&& subnet.addr j) ∧
    (∀ j, broadcast.addr j = a.addr j ||| ~~~ subnet.addr j) ∧
    (network.port = a.port ∧ network.family = a.family) ∧
    (broadcast.port = a.port ∧ broadcast.family = a.family)

theorem createMask_eight (prefixLen : ℕ) :
    createMask 8 (prefixLen % 8) = some (2 ^ (8 - prefixLen % 8) - 1) := by
  exact createMask_of_le (by omega) (by omega) (by decide)

/-- A loop that starts at the byte that was changed overwrites it. -/
theorem fillBytes_update (addr : Fin 16 → UInt8) {i : ℕ} (h : i < 16) (b v : UInt8) :
    fillBytes (Function.update addr ⟨i, h⟩ b) i 16 v =
      some fun j => if i ≤ j.val then v else addr j := by
  rw [fillBytes_eq _ (Nat.le_refl 16)]
  refine congrArg some ?_
  funext j
  by_cases hj : i ≤ j.val
  · rw [if_pos ⟨hj, j.isLt⟩, if_pos hj]
  · have hne : j ≠ ⟨i, h⟩ := fun he => hj (he ▸ Nat.le_refl i)
    rw [if_neg fun h' => hj h'.1, if_neg hj, Function.update_of_ne hne]

section Spec

variable {prefixLen : ℕ} (h : prefixLen / 8 < 16)
include h

theorem networkAddress_eq (a : SockaddrIn6) : a.networkAddress prefixLen =
    some { a with addr := fun j => if prefixLen / 8 ≤ j.val then 0 else a.addr j } := by
  rw [SockaddrIn6.networkAddress, createMask_eight, Option.bind_some, modifyByte_of_lt _ h,
    Option.bind_some, fillBytes_update]
  rfl

theorem broadcastAddress_eq (a : SockaddrIn6) : a.broadcastAddress prefixLen =
    some { a with addr := fun j => if prefixLen / 8 ≤ j.val then 0xff else a.addr j } := by
  rw [SockaddrIn6.broadcastAddress, createMask_eight, Option.bind_some, modifyByte_of_lt _ h,
    Option.bind_some, fillBytes_update]
  rfl

/-- Without a partial byte the mask is whole bytes. -/
theorem subnetMask_eq (hmod : prefixLen % 8 = 0) : SockaddrIn6.subnetMask prefixLen =
    some ⟨afInet6, 0, 0, fun j => if j.val < prefixLen / 8 then 0xff else 0, 0⟩ := by
  have hzero : ~~~ UInt8.ofNat (2 ^ (8 - prefixLen % 8) - 1) = 0 := by
    rw [hmod]
    decide
  rw [SockaddrIn6.subnetMask, createMask_eight, Option.bind_some, hzero, modifyByte_of_lt _ h,
    Option.bind_some, fillBytes_eq _ (Nat.le_of_lt h)]
  refine congrArg some (congrArg (SockaddrIn6.mk afInet6 0 0 · 0) ?_)
  funext j
  rw [Function.update_apply, ite_self]
  simp only [Nat.zero_le, true_and]

end Spec

theorem testBit_ff : ∀ i < 8, (0xff : UInt8).toNat.testBit i = true := by decide

theorem and_ff : ∀ b : UInt8, b &&& 0xff = b ∧ b ||| ~~~ 0xff = b ∧ b &&& 0 = 0 ∧
    b ||| ~~~ 0 = 0xff := by
  decide +kernel

theorem testBit_not : ∀ b : UInt8, (~~~ b).toNat.testBit 7 = !b.toNat.testBit 7 := by
  decide +kernel

/-- A byte cannot be cleared and filled under a mask that keeps its highest bit. -/
theorem not_clear_and_fill {b mask : UInt8} (hmask : mask.toNat.testBit 7 = true)
    (hclear : 0 = b &&& mask) (hfill : 0xff = b ||| ~~~ mask) : False := by
  have hc := congrArg (fun c : UInt8 => c.toNat.testBit 7) hclear
  have hf := congrArg (fun c : UInt8 => c.toNat.testBit 7) hfill
  simp only [UInt8.toNat_and, UInt8.toNat_or, Nat.testBit_and, Nat.testBit_or, testBit_not, hmask,
    Bool.and_true, Bool.not_true, Bool.or_false] at hc hf
  rw [← hc] at hf
  exact absurd hf (by decide)

/-- With the length of the whole address the index is outside it. -/
theorem networkAddress_eq_none (a : SockaddrIn6) {prefixLen : ℕ} (h : 128 ≤ prefixLen) :
    a.networkAddress prefixLen = none := by
  rw [SockaddrIn6.networkAddress, createMask_eight, Option.bind_some,
    modifyByte_of_le _ (by omega), Option.bind_none]

/-- The byte that is cut is cleared, and filled, as a whole. -/
theorem not_arithmeticRight6 (a : SockaddrIn6) {prefixLen : ℕ} (h : prefixLen < 128)
    (hmod : prefixLen % 8 ≠ 0) : ¬ ArithmeticRight6 a prefixLen := by
  rintro ⟨subnet, network, broadcast, -, hn, hb, hbits, hnetwork, hbroadcast, -⟩
  have hq : prefixLen / 8 < 16 := by omega
  have hdiv : 8 * (prefixLen / 8) / 8 = prefixLen / 8 := by omega
  -- the first bit of this byte belongs to the network
  have hbit := hbits (8 * (prefixLen / 8)) (by omega)
  rw [addrBit, decide_eq_true (by omega), Nat.mul_mod_right] at hbit
  simp only [hdiv] at hbit
  have hzero := hnetwork ⟨prefixLen / 8, hq⟩
  have hones := hbroadcast ⟨prefixLen / 8, hq⟩
  rw [networkAddress_eq hq, Option.some.injEq] at hn
  rw [broadcastAddress_eq hq, Option.some.injEq] at hb
  rw [← hn] at hzero
  rw [← hb] at hones
  simp only [Nat.le_refl, ↓reduceIte] at hzero hones
  exact not_clear_and_fill hbit hzero hones

theorem arithmeticRight6_of_whole (a : SockaddrIn6) {prefixLen : ℕ} (h : prefixLen < 128)
    (hmod : prefixLen % 8 = 0) : ArithmeticRight6 a prefixLen := by
  have hq : prefixLen / 8 < 16 := by omega
  refine ⟨_, _, _, subnetMask_eq hq hmod, networkAddress_eq hq a, broadcastAddress_eq hq a,
    fun k hk => ?_, fun j => ?_, fun j => ?_, ⟨rfl, rfl⟩, ⟨rfl, rfl⟩⟩
  · rw [addrBit]
    by_cases hlt : k / 8 < prefixLen / 8
    · simp only [hlt, ↓reduceIte]
      rw [testBit_ff _ (by omega), decide_eq_true (by omega)]
    · simp only [hlt, ↓reduceIte]
      rw [decide_eq_false (by omega)]
      exact Nat.zero_testBit _
  · show (if _ then _ else _) = a.addr j &&& (if _ then _ else _)
    by_cases hj : j.val < prefixLen / 8
    · rw [if_neg (Nat.not_le.2 hj), if_pos hj, (and_ff _).1]
    · rw [if_pos (Nat.not_lt.1 hj), if_neg hj, (and_ff _).2.2.1]
  · show (if _ then _ else _) = a.addr j ||| ~~~ (if _ then _ else _)
    by_cases hj : j.val < prefixLen / 8
    · rw [if_neg (Nat.not_le.2 hj), if_pos hj, (and_ff _).2.1]
    · rw [if_pos (Nat.not_lt.1 hj), if_neg hj, (and_ff _).2.2.2]

/-- **IPv6 networks**: the arithmetic is right exactly for prefixes of whole bytes that leave at
least one byte. -/
theorem arithmeticRight6_iff (a : SockaddrIn6) (prefixLen : ℕ) :
    ArithmeticRight6 a prefixLen ↔ prefixLen < 128 ∧ prefixLen % 8 = 0 := by
  constructor
  · intro hright
    obtain ⟨-, network, -, -, hn, -⟩ := id hright
    have hlt : prefixLen < 128 := by
      by_contra hge
      rw [networkAddress_eq_none a (Nat.not_lt.1 hge)] at hn
      cases hn
    exact ⟨hlt, by_contra fun hmod => not_arithmeticRight6 a hlt hmod hright⟩
  · exact fun ⟨hlt, hmod⟩ => arithmeticRight6_of_whole a hlt hmod

/-- The bytes of `2001:db8::1`. -/
def docAddr : Fin 16 → UInt8 := ![0x20, 0x01, 0x0d, 0xb8, 0, 0, 0, 0, 0, 0, 0, 0, 0, 0, 0, 1]

/-- Under `/4` the network of `2001:db8::1` loses the bits of its first byte, and with `/128` an
index is outside the address. -/
theorem not_arithmeticRight6_partial :
    let a : SockaddrIn6 := ⟨afInet6, 0x5000, 0, docAddr, 0⟩
    ¬ ArithmeticRight6 a 4 ∧ (a.networkAddress 4).map (fun n => n.addr 0) = some 0 ∧
      (SockaddrIn6.subnetMask 4).map (fun s => s.addr 0) = some 0xf0 ∧
      SockaddrIn6.subnetMask 128 = none := by
  have hnetwork : (SockaddrIn6.networkAddress ⟨afInet6, 0x5000, 0, docAddr, 0⟩ 4).map
      (fun n => n.addr 0) = some 0 := by decide +kernel
  have hsubnet : (SockaddrIn6.subnetMask 4).map (fun s => s.addr 0) = some 0xf0 := by
    decide +kernel
  refine ⟨?_, hnetwork, hsubnet, by decide +kernel⟩
  rintro ⟨subnet, network, -, hs, hn, -, -, hand, -⟩
  rw [hs, Option.map_some, Option.some.injEq] at hsubnet
  rw [hn, Option.map_some, Option.some.injEq] at hnetwork
  have hbyte := hand 0
  rw [hnetwork, hsubnet] at hbyte
  exact absurd hbyte (by decide)

end Address

end YXTWebCpp
