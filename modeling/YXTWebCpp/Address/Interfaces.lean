import Mathlib.Data.List.OfFn
import YXTWebCpp.Address.Basic

/-!
# Interfaces of the host

`Address::GetInterfaceAddresses` (`address.cpp`) collects the addresses that `getifaddrs` returns,
each with the length of its netmask.  What a `sockaddr*` points to is bytes, which a cast reads as
one structure or the other.

* `countNumOfOne_eq` : the loop counts the bits that are set.
* `PrefixLengthsRight` : what should be inserted.
* `prefixLengthsRight_iff` : for which interfaces it is.
-/

namespace YXTWebCpp

namespace Address

open Codec

/-! ### Counting ones -/

section Count

variable {w : ℕ}

theorem toNat_zero : (0 : BitVec w).toNat = 0 := Nat.zero_mod _

theorem toNat_ne_zero {value : BitVec w} (h : value ≠ 0) : value.toNat ≠ 0 := by
  exact fun h0 => h (BitVec.eq_of_toNat_eq (h0.trans toNat_zero.symm))

theorem toNat_sub_one {value : BitVec w} (h : value ≠ 0) :
    (value - 1).toNat = value.toNat - 1 := by
  have hpos := toNat_ne_zero h
  have hlt := value.isLt
  have hlt' : 1 < 2 ^ w := by omega
  have hone : (1 : BitVec w).toNat = 1 := Nat.mod_eq_of_lt hlt'
  have hsum : 2 ^ w - 1 + value.toNat = 2 ^ w + (value.toNat - 1) := by omega
  rw [BitVec.toNat_sub, hone, hsum, Nat.add_mod_left]
  exact Nat.mod_eq_of_lt (lt_of_le_of_lt (Nat.sub_le _ 1) hlt)

theorem clear_lt {value : BitVec w} (h : value ≠ 0) :
    (value &&& (value - 1)).toNat < value.toNat := by
  rw [BitVec.toNat_and, toNat_sub_one h]
  exact lt_of_le_of_lt Nat.and_le_right (Nat.sub_one_lt (toNat_ne_zero h))

/-- The loop of `CountNumOfOne<T>`, where `T` has `w` bits. -/
def countLoop (value : BitVec w) (result : UInt32) : UInt32 :=
  if h : value = 0 then result else countLoop (value &&& (value - 1)) (result + 1)
termination_by value.toNat
decreasing_by exact clear_lt h

/-- `CountNumOfOne<T>` -/
def countNumOfOne (value : BitVec w) : UInt32 := countLoop value 0

/-- One round clears one bit and counts it. -/
theorem countLoop_eq (value : BitVec w) (result : UInt32) :
    countLoop value result = result + UInt32.ofNat (ones w value.toNat) := by
  induction hn : value.toNat using Nat.strongRecOn generalizing value result with
  | ind n ih =>
  subst hn
  rw [countLoop]
  split_ifs with h
  · subst h
    rw [toNat_zero, ones_zero]
    exact (UInt32.add_zero result).symm
  · have hclear := ones_clear (toNat_ne_zero h) value.isLt
    rw [← toNat_sub_one h, ← BitVec.toNat_and] at hclear
    rw [ih _ (clear_lt h) _ _ rfl, ← hclear, UInt32.add_assoc, UInt32.ofNat_add, UInt32.add_comm 1]
    rfl

theorem toNat_countNumOfOne (hw : w < 2 ^ 32) (value : BitVec w) :
    (countNumOfOne value).toNat = ones w value.toNat := by
  have hlt : ones w value.toNat < 2 ^ 32 := lt_of_le_of_lt (ones_le w value.toNat) hw
  rw [countNumOfOne, countLoop_eq, UInt32.zero_add, UInt32.toNat_ofNat',
    Nat.mod_eq_of_lt hlt]

end Count

/-! ### Addresses behind a pointer -/

/-- What a `sockaddr*` points to. -/
abbrev Sockaddr := ℕ → UInt8

namespace Sockaddr

variable (m : Sockaddr)

def bytes (offset n : ℕ) : List UInt8 := (List.range' offset n).map m

/-- `sa_family` -/
def family : UInt16 := .ofNat (ofLeBytes (m.bytes 0 2))

/-- `*(sockaddr_in*)m` -/
def toIn : SockaddrIn :=
  ⟨m.family, .ofNat (ofLeBytes (m.bytes 2 2)), .ofNat (ofLeBytes (m.bytes 4 4))⟩

/-- `*(sockaddr_in6*)m` -/
def toIn6 : SockaddrIn6 :=
  ⟨m.family, .ofNat (ofLeBytes (m.bytes 2 2)), .ofNat (ofLeBytes (m.bytes 4 4)),
    fun i => m (8 + i), .ofNat (ofLeBytes (m.bytes 24 4))⟩

end Sockaddr

/-- An `Address`. -/
inductive Addr where
  | ipv4 (addr : SockaddrIn)
  | ipv6 (addr : SockaddrIn6)
  | unknown (addr : Fin 16 → UInt8)

/-- `Address::Create` -/
def create (addr : Sockaddr) : Addr :=
  if addr.family = afInet then .ipv4 addr.toIn
  else if addr.family = afInet6 then .ipv6 addr.toIn6
  else .unknown fun i => addr i

/-! ### The loop over the interfaces -/

/-- `ifaddrs` -/
structure Ifaddrs where
  /-- `ifa_name` -/
  name : List UInt8
  /-- `ifa_addr` -/
  addr : Sockaddr
  /-- `ifa_netmask` -/
  netmask : Sockaddr

/-- `AF_UNSPEC` -/
def afUnspec : ℤ := 0

/-- An address with the length of its netmask, under the name of its interface. -/
abbrev Entry := List UInt8 × Addr × UInt32

/-- The pair that a round of the loop inserts. -/
def interfaceEntry (family : ℤ) (next : Ifaddrs) : Option Entry :=
  let prefixLen : UInt32 := ~~~0
  if family ≠ afUnspec ∧ family ≠ next.addr.family.toNat then none
  else if next.addr.family = afInet then
    some (next.name, create next.addr, countNumOfOne next.netmask.toIn.addr.toBitVec)
  else if next.addr.family = afInet6 then
    some (next.name, create next.addr,
      (List.ofFn next.netmask.toIn6.addr).foldl (fun n b => n + countNumOfOne b.toBitVec) prefixLen)
  else none

/-- `Address::GetInterfaceAddresses`, where `interfaces` is what `getifaddrs` returns and the pairs
of the `multimap` are in the order in which they were inserted. -/
def getInterfaceAddresses (result : List Entry) (family : ℤ) (interfaces : Option (List Ifaddrs)) :
    Bool × List Entry :=
  match interfaces with
  | none => (false, result)
  | some results =>
    let result := results.foldl (fun result next => result ++ (interfaceEntry family next).toList)
      result
    (!result.isEmpty, result)

/-! ### Netmasks -/

namespace Ifaddrs

variable (next : Ifaddrs)

/-- The bytes of the netmask. -/
def netmaskBytes : List UInt8 :=
  if next.addr.family = afInet then next.netmask.bytes 4 4 else next.netmask.bytes 8 16

/-- How many bits of the netmask are set. -/
def netmaskOnes : ℕ := ones (8 * next.netmaskBytes.length) (ofLeBytes next.netmaskBytes)

/-- The address passes the filter, and is of one of the two families. -/
def Passes (family : ℤ) : Prop :=
  (family = afUnspec ∨ family = next.addr.family.toNat) ∧
    (next.addr.family = afInet ∨ next.addr.family = afInet6)

instance (family : ℤ) : Decidable (next.Passes family) := inferInstanceAs (Decidable (_ ∧ _))

end Ifaddrs

/-- The loop counts the bits of every byte and of every number of 32 bits, and for each address that
passes, and no other, one pair is inserted, whose number is the number of bits of the netmask. -/
structure PrefixLengthsRight (family : ℤ) (interfaces : List Ifaddrs) : Prop where
  byte : ∀ value : UInt8, (countNumOfOne value.toBitVec).toNat = ones 8 value.toNat
  word : ∀ value : UInt32, (countNumOfOne value.toBitVec).toNat = ones 32 value.toNat
  inserted : ∀ result, ∃ entries,
    (getInterfaceAddresses result family (some interfaces)).2 = result ++ entries ∧
      entries.map (fun entry => (entry.1, entry.2.1, entry.2.2.toNat)) =
        (interfaces.filter (·.Passes family)).map fun next =>
          (next.name, create next.addr, next.netmaskOnes)

/-- The number that a round inserts. -/
def Ifaddrs.prefixLen (next : Ifaddrs) : UInt32 :=
  if next.addr.family = afInet then countNumOfOne next.netmask.toIn.addr.toBitVec
  else (List.ofFn next.netmask.toIn6.addr).foldl (fun n b => n + countNumOfOne b.toBitVec) (~~~0)

theorem interfaceEntry_eq (family : ℤ) (next : Ifaddrs) : interfaceEntry family next =
    if next.Passes family then some (next.name, create next.addr, next.prefixLen) else none := by
  by_cases hpass : family ≠ afUnspec ∧ family ≠ next.addr.family.toNat
  · rw [interfaceEntry, if_pos hpass, if_neg fun h => h.1.elim hpass.1 hpass.2]
  · have hfilter : family = afUnspec ∨ family = next.addr.family.toNat := by
      rwa [← not_or, not_not] at hpass
    rw [interfaceEntry, if_neg hpass, Ifaddrs.prefixLen]
    by_cases h4 : next.addr.family = afInet
    · rw [if_pos h4, if_pos h4, if_pos ⟨hfilter, Or.inl h4⟩]
    · rw [if_neg h4, if_neg h4]
      by_cases h6 : next.addr.family = afInet6
      · rw [if_pos h6, if_pos ⟨hfilter, Or.inr h6⟩]
      · rw [if_neg h6, if_neg fun h => h.2.elim h4 h6]

theorem getInterfaceAddresses_eq (result : List Entry) (family : ℤ) (interfaces : List Ifaddrs) :
    (getInterfaceAddresses result family (some interfaces)).2 =
      result ++ (interfaces.filter (·.Passes family)).map fun next =>
        (next.name, create next.addr, next.prefixLen) := by
  show interfaces.foldl _ result = _
  induction interfaces generalizing result with
  | nil => exact (List.append_nil result).symm
  | cons next interfaces ih =>
    rw [List.foldl_cons, ih, interfaceEntry_eq]
    by_cases h : next.Passes family
    · rw [if_pos h, List.filter_cons_of_pos (by exact decide_eq_true h), List.map_cons,
        List.append_assoc]
      rfl
    · rw [if_neg h, List.filter_cons_of_neg (by simpa using h)]
      simp

/-- The loop over the bytes adds their bits to the number that it starts with. -/
theorem toNat_foldl_count (bytes : List UInt8) (n : UInt32) :
    (bytes.foldl (fun n b => n + countNumOfOne b.toBitVec) n).toNat =
      (n.toNat + ones (8 * bytes.length) (ofLeBytes bytes)) % 2 ^ 32 := by
  rw [ones_ofLeBytes]
  induction bytes generalizing n with
  | nil => exact (Nat.mod_eq_of_lt n.toNat_lt).symm
  | cons b bytes ih =>
    rw [List.foldl_cons, ih, UInt32.toNat_add, toNat_countNumOfOne (by decide), List.map_cons,
      List.sum_cons, Nat.mod_add_mod, Nat.add_assoc]
    rfl

theorem Sockaddr.length_bytes (m : Sockaddr) (offset n : ℕ) : (m.bytes offset n).length = n := by
  rw [Sockaddr.bytes, List.length_map, List.length_range']

section Netmask

variable {next : Ifaddrs}

theorem toNat_prefixLen_inet (h : next.addr.family = afInet) :
    next.prefixLen.toNat = next.netmaskOnes := by
  have hlt := ofLeBytes_lt (next.netmask.bytes 4 4)
  rw [Sockaddr.length_bytes] at hlt
  have haddr : next.netmask.toIn.addr.toNat = ofLeBytes (next.netmask.bytes 4 4) := by
    exact UInt32.toNat_ofNat_of_lt hlt
  rw [Ifaddrs.prefixLen, if_pos h, toNat_countNumOfOne (by decide), Ifaddrs.netmaskOnes,
    Ifaddrs.netmaskBytes, if_pos h, Sockaddr.length_bytes, UInt32.toNat_toBitVec, haddr]

/-- The loop starts with the largest number and not with zero. -/
theorem toNat_prefixLen_inet6 (h : next.addr.family = afInet6) :
    next.prefixLen.toNat = (2 ^ 32 - 1 + next.netmaskOnes) % 2 ^ 32 := by
  have hne : next.addr.family ≠ afInet := by
    rw [h]
    decide
  have hbytes : List.ofFn next.netmask.toIn6.addr = next.netmask.bytes 8 16 := by
    rfl
  rw [Ifaddrs.prefixLen, if_neg hne, toNat_foldl_count, hbytes, Ifaddrs.netmaskOnes,
    Ifaddrs.netmaskBytes, if_neg hne]
  rfl

theorem netmaskOnes_le (h : next.addr.family = afInet6) : next.netmaskOnes ≤ 128 := by
  have hle := ones_le (8 * next.netmaskBytes.length) (ofLeBytes next.netmaskBytes)
  rw [Ifaddrs.netmaskBytes, if_neg (by rw [h]; decide), Sockaddr.length_bytes] at hle
  rwa [Ifaddrs.netmaskOnes, Ifaddrs.netmaskBytes, if_neg (by rw [h]; decide),
    Sockaddr.length_bytes]

theorem prefixLen_iff (h : next.addr.family = afInet ∨ next.addr.family = afInet6) :
    next.prefixLen.toNat = next.netmaskOnes ↔ next.addr.family ≠ afInet6 := by
  rcases h with h4 | h6
  · rw [toNat_prefixLen_inet h4, h4]
    exact iff_of_true rfl (by decide)
  · have hle := netmaskOnes_le h6
    rw [toNat_prefixLen_inet6 h6]
    refine iff_of_false (fun h => ?_) (fun h => h h6)
    omega

end Netmask

/-- What is inserted is right when every number is. -/
theorem prefixLengthsRight_iff_prefixLen (family : ℤ) (interfaces : List Ifaddrs) :
    PrefixLengthsRight family interfaces ↔
      ∀ next ∈ interfaces, next.Passes family → next.prefixLen.toNat = next.netmaskOnes := by
  constructor
  · intro h next hmem hpass
    obtain ⟨entries, heq, hmap⟩ := h.inserted []
    rw [getInterfaceAddresses_eq, List.nil_append, List.nil_append] at heq
    rw [← heq, List.map_map, List.map_inj_left] at hmap
    have hnext := hmap next (List.mem_filter.2 ⟨hmem, decide_eq_true hpass⟩)
    exact congrArg (fun entry => entry.2.2) hnext
  · intro h
    refine ⟨fun value => toNat_countNumOfOne (by decide) _,
      fun value => toNat_countNumOfOne (by decide) _,
      fun result => ⟨_, getInterfaceAddresses_eq result family interfaces, ?_⟩⟩
    rw [List.map_map, List.map_inj_left]
    intro next hnext
    obtain ⟨hmem, hpass⟩ := List.mem_filter.1 hnext
    show (next.name, create next.addr, next.prefixLen.toNat) = _
    rw [h next hmem (of_decide_eq_true hpass)]

/-- **Prefix lengths**: what is inserted is right exactly when no address of IPv6 passes. -/
theorem prefixLengthsRight_iff (family : ℤ) (interfaces : List Ifaddrs) :
    PrefixLengthsRight family interfaces ↔
      ∀ next ∈ interfaces, next.Passes family → next.addr.family ≠ afInet6 := by
  rw [prefixLengthsRight_iff_prefixLen]
  exact forall_congr' fun next => forall_congr' fun _ => forall_congr' fun hpass =>
    prefixLen_iff hpass.2

/-- The interface `lo` with `::1/128`. -/
def loopback : Ifaddrs where
  name := [108, 111]
  addr := fun k => if k = 0 then 10 else if k = 23 then 1 else 0
  netmask := fun k => if k = 0 then 10 else if 8 ≤ k ∧ k < 24 then 0xff else 0

/-- The length of its netmask is 128, and 127 is inserted. -/
theorem not_prefixLengthsRight_loopback :
    loopback.netmaskOnes = 128 ∧
      (getInterfaceAddresses [] 0 (some [loopback])).2.map (fun entry => entry.2.2.toNat) = [127] ∧
      ¬ PrefixLengthsRight 0 [loopback] := by
  have hones : loopback.netmaskOnes = 128 := by decide +kernel
  have hlen : loopback.prefixLen.toNat = 127 := by
    rw [toNat_prefixLen_inet6 (by decide), hones]
    rfl
  refine ⟨hones, ?_, fun h => ?_⟩
  · rw [getInterfaceAddresses_eq, List.filter_cons_of_pos (by decide)]
    exact congrArg (fun n => [n]) hlen
  · have hright := (prefixLengthsRight_iff_prefixLen 0 [loopback]).1 h loopback
      List.mem_cons_self (by decide)
    rw [hlen, hones] at hright
    exact absurd hright (by decide)

end Address

end YXTWebCpp
