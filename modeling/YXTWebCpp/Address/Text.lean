import Mathlib.Data.List.OfFn
import YXTWebCpp.Address.Basic
import YXTWebCpp.Text.Cut
import YXTWebCpp.Text.Numeral

/-!
# IPv6 addresses as text

`IPv6Address::insert` (`address.cpp`) writes an address and its port; the functions of the standard
library that read a text are in the first section.  Texts are bytes : `:` is 58, `.` is 46, and the
brackets are 91 and 93.

* `inetPton6` : `inet_pton(AF_INET6, …)`.
* `FaithfulText` : the text that is written states the address and the port.
* `faithfulText_iff` : which addresses are written so.
-/

namespace YXTWebCpp

namespace Address

open Codec Text

/-! ### Reading a text -/

/-- A group : one to four hexadecimal digits. -/
def readGroup (s : List UInt8) : Option ℕ := if s.length ≤ 4 then readNumeral 16 s else none

/-- A number of a dotted quad : in decimal, up to 255 and without leading zeros. -/
def readOctet (s : List UInt8) : Option ℕ :=
  (readNumeral 10 s).filter fun n => n ≤ 255 ∧ s = numeral 10 n

/-- A dotted quad stands for two groups. -/
def readQuad (s : List UInt8) : Option (List ℕ) :=
  ((s.splitOn 46).mapM readOctet).bind fun
    | [a, b, c, d] => some [256 * a + b, 256 * c + d]
    | _ => none

/-- Groups, the last one a dotted quad if it has a dot and stands at the end of the text. -/
def readGroups (atEnd : Bool) : List (List UInt8) → Option (List ℕ)
  | [] => some []
  | [s] => if atEnd ∧ 46 ∈ s then readQuad s else (readGroup s).map fun g => [g]
  | s :: ss => (readGroup s).bind fun g => (readGroups atEnd ss).map (g :: ·)

/-- Groups between colons. -/
def readColons (atEnd : Bool) (s : List UInt8) : Option (List ℕ) :=
  if s = [] then some [] else readGroups atEnd (s.splitOn 58)

/-- The eight groups that a text states; two colons stand for one or more groups of zeros. -/
def readAddress (s : List UInt8) : Option (List ℕ) :=
  match cutPair 58 58 s with
  | none => (readColons true s).filter fun l => l.length = 8
  | some (front, back) =>
    (readColons false front).bind fun l => (readColons true back).bind fun r =>
      if l.length + r.length ≤ 7 then
        some (l ++ List.replicate (8 - (l.length + r.length)) 0 ++ r)
      else none

/-- `inet_pton(AF_INET6, s, …)` : the bytes of the address. -/
def inetPton6 (s : List UInt8) : Option (List UInt8) :=
  (readAddress s).map fun groups => groups.flatMap fun g => (leBytes 2 g).reverse

/-! ### Writing an address -/

namespace SockaddrIn6

variable (a : SockaddrIn6)

/-- `((uint16_t*)s6_addr)[i]` -/
def word (i : Fin 8) : UInt16 :=
  UInt16.ofNat (ofLeBytes [a.addr ⟨2 * i, by omega⟩, a.addr ⟨2 * i + 1, by omega⟩])

/-- `IPv6Address::getPort` -/
def getPort : UInt16 := byteswapOnLittleEndian16 a.port

end SockaddrIn6

/-- A group of an address in hexadecimal digits. -/
def hexGroup (w : UInt16) : List UInt8 := numeral 16 (byteswapOnLittleEndian16 w).toNat

/-- The loop of `IPv6Address::insert` over the words that remain, where `prev` is the word in front
of them. -/
def insertWords (prev : Option UInt16) (useZeros : Bool) : List UInt16 → List UInt8
  | [] => []
  | w :: ws =>
    if w = 0 ∧ useZeros = false then insertWords (some w) useZeros ws
    else
      let skipped := prev = some 0 ∧ useZeros = false
      (if skipped then [58] else []) ++ (if prev.isSome then [58] else []) ++ hexGroup w ++
        insertWords (some w) (useZeros || skipped) ws

/-- `IPv6Address::insert` -/
def SockaddrIn6.insert (a : SockaddrIn6) : List UInt8 :=
  [91] ++ insertWords none false (List.ofFn a.word) ++ [93, 58] ++ numeral 10 a.getPort.toNat

/-- `IPv6Address::Create`, where `address` is a text. -/
def createIPv6 (address : List UInt8) (port : UInt16) : SockaddrIn6 :=
  ⟨afInet6, byteswapOnLittleEndian16 port, 0,
    fun i => ((inetPton6 address).getD []).getD i 0, 0⟩

/-- The text is `[A]:P`, where `A` is read as the bytes of the address and `P` is the port in
decimal. -/
def FaithfulText (a : SockaddrIn6) : Prop :=
  ∃ address, a.insert = [91] ++ address ++ [93, 58] ++ numeral 10 a.getPort.toNat ∧
    inetPton6 address = some (List.ofFn a.addr)

/-! ### What was written is read -/

/-- Groups in hexadecimal digits, between colons. -/
def colonText (groups : List ℕ) : List UInt8 := [58].intercalate (groups.map (numeral 16))

theorem numeral_piece (g : ℕ) : numeral 16 g ≠ [] ∧ 58 ∉ numeral 16 g := by
  exact ⟨numeral_ne_nil 16 g, notMem_numeral (by decide) (by decide) (by decide)⟩

theorem pieces_colonText (groups : List ℕ) :
    ∀ p ∈ groups.map (numeral 16), p ≠ [] ∧ 58 ∉ p := by
  intro p hp
  obtain ⟨g, -, rfl⟩ := List.mem_map.1 hp
  exact numeral_piece g

theorem colonText_eq_nil {groups : List ℕ} (h : colonText groups = []) : groups = [] := by
  cases groups with
  | nil => rfl
  | cons g groups =>
    rw [colonText, List.map_cons, intercalate_cons, List.append_eq_nil_iff] at h
    exact absurd h.1 (numeral_ne_nil 16 g)

theorem readGroup_numeral {g : ℕ} (h : g < 2 ^ 16) : readGroup (numeral 16 g) = some g := by
  have hlength : (numeral 16 g).length ≤ 4 := (length_numeral_le_iff (by decide) (by decide)).2 h
  rw [readGroup, if_pos hlength, readNumeral_numeral (by decide) (by decide)]

theorem readGroups_map {groups : List ℕ} (h : ∀ g ∈ groups, g < 2 ^ 16) (atEnd : Bool) :
    readGroups atEnd (groups.map (numeral 16)) = some groups := by
  induction groups with
  | nil => rfl
  | cons g groups ih =>
    have hg := readGroup_numeral (h g List.mem_cons_self)
    have ih := ih fun k hk => h k (List.mem_cons_of_mem _ hk)
    cases groups with
    | nil =>
      -- a number has no dot
      have hdot : 46 ∉ numeral 16 g := notMem_numeral (by decide) (by decide) (by decide)
      rw [List.map_singleton, readGroups, if_neg fun hd => hdot hd.2, hg]
      rfl
    | cons k groups =>
      rw [List.map_cons] at ih
      rw [List.map_cons, List.map_cons, readGroups, hg, Option.bind_some, ih]
      · rfl
      · exact List.cons_ne_nil _ _

theorem readColons_colonText {groups : List ℕ} (h : ∀ g ∈ groups, g < 2 ^ 16) (atEnd : Bool) :
    readColons atEnd (colonText groups) = some groups := by
  by_cases hnil : groups = []
  · subst hnil
    rfl
  · have hsplit : (colonText groups).splitOn 58 = groups.map (numeral 16) :=
      List.splitOn_intercalate 58 (fun p hp => (pieces_colonText groups p hp).2)
        fun hmap => hnil (List.map_eq_nil_iff.1 hmap)
    rw [readColons, if_neg fun ht => hnil (colonText_eq_nil ht), hsplit, readGroups_map h]

/-- Without two colons there are eight groups. -/
theorem readAddress_colonText {groups : List ℕ} (h : ∀ g ∈ groups, g < 2 ^ 16) :
    readAddress (colonText groups) = if groups.length = 8 then some groups else none := by
  have hcut : cutPair 58 58 (colonText groups) = none := by
    have := cutPair_intercalate (pieces_colonText groups) []
    rwa [List.append_nil] at this
  rw [readAddress, hcut]
  show (readColons true (colonText groups)).filter _ = _
  rw [readColons_colonText h, Option.filter_some]
  simp only [decide_eq_true_eq]

/-- Two colons stand for the groups that are missing. -/
theorem readAddress_gap {front back : List ℕ} (hf : ∀ g ∈ front, g < 2 ^ 16)
    (hb : ∀ g ∈ back, g < 2 ^ 16) {z : ℕ} (hz : 0 < z) (h : front.length + z + back.length = 8) :
    readAddress (colonText front ++ 58 :: 58 :: colonText back) =
      some (front ++ List.replicate z 0 ++ back) := by
  have hcut : cutPair 58 58 (colonText front ++ 58 :: 58 :: colonText back) =
      some (colonText front, colonText back) := by
    rw [colonText, cutPair_intercalate (pieces_colonText front), cutPair_pair, Option.map_some,
      List.append_nil]
  rw [readAddress, hcut]
  show (readColons false (colonText front)).bind _ = _
  rw [readColons_colonText hf, Option.bind_some, readColons_colonText hb, Option.bind_some,
    if_pos (by omega), show 8 - (front.length + back.length) = z by omega]

/-! ### Runs of zeros -/

/-- The group that a word is written as. -/
def group (w : UInt16) : ℕ := (byteswapOnLittleEndian16 w).toNat

theorem group_lt (w : UInt16) : group w < 2 ^ 16 := UInt16.toNat_lt _

theorem groups_lt (ws : List UInt16) : ∀ g ∈ ws.map group, g < 2 ^ 16 := by
  intro g hg
  obtain ⟨w, -, rfl⟩ := List.mem_map.1 hg
  exact group_lt w

theorem colonText_cons (w : UInt16) (ws : List UInt16) : colonText ((w :: ws).map group) =
    hexGroup w ++ ws.flatMap fun v => 58 :: hexGroup v := by
  rw [colonText, List.map_map, List.map_cons, intercalate_cons, List.flatMap_map]
  rfl

/-- Every word is zero from the first one that is. -/
def ZerosAtEnd (ws : List UInt16) : Prop := 0 ∈ ws ∧ ws.Pairwise fun v w => v = 0 → w = 0

theorem insertWords_useZeros (v : UInt16) (ws : List UInt16) :
    insertWords (some v) true ws = ws.flatMap fun w => 58 :: hexGroup w := by
  induction ws generalizing v with
  | nil => rfl
  | cons w ws ih => simp [insertWords, ih]

theorem insertWords_zeros (prev : Option UInt16) (z : ℕ) (ws : List UInt16) :
    insertWords prev false (List.replicate (z + 1) 0 ++ ws) = insertWords (some 0) false ws := by
  induction z generalizing prev with
  | zero => simp [insertWords]
  | succ z ih =>
    rw [List.replicate_succ, List.cons_append, insertWords, if_pos ⟨rfl, rfl⟩]
    exact ih (some 0)

/-- Behind zeros that were skipped everything is written. -/
theorem insertWords_gap {w : UInt16} (h : w ≠ 0) (ws : List UInt16) :
    insertWords (some 0) false (w :: ws) = 58 :: 58 :: colonText ((w :: ws).map group) := by
  rw [insertWords, if_neg fun hw => h hw.1, colonText_cons]
  simp [insertWords_useZeros]

/-- In front of the first zero everything is written, too. -/
theorem insertWords_tail {front : List UInt16} (h : 0 ∉ front) {v : UInt16} (hv : v ≠ 0)
    (ws : List UInt16) : ∃ v', v' ≠ 0 ∧ insertWords (some v) false (front ++ ws) =
      (front.flatMap fun w => 58 :: hexGroup w) ++ insertWords (some v') false ws := by
  induction front generalizing v with
  | nil => exact ⟨v, hv, rfl⟩
  | cons w front ih =>
    have hw : w ≠ 0 := fun hw => h (hw ▸ List.mem_cons_self)
    obtain ⟨v', hv', heq⟩ := ih (fun hf => h (List.mem_cons_of_mem _ hf)) hw
    refine ⟨v', hv', ?_⟩
    rw [List.cons_append, insertWords, if_neg fun hw' => hw hw'.1]
    simp [hv, heq]

theorem insertWords_front {front : List UInt16} (h : 0 ∉ front) (ws : List UInt16) :
    ∃ prev, insertWords none false (front ++ ws) =
      colonText (front.map group) ++ insertWords prev false ws := by
  cases front with
  | nil => exact ⟨none, rfl⟩
  | cons w front =>
    have hw : w ≠ 0 := fun hw => h (hw ▸ List.mem_cons_self)
    obtain ⟨v', -, heq⟩ := insertWords_tail (fun hf => h (List.mem_cons_of_mem _ hf)) hw ws
    refine ⟨some v', ?_⟩
    rw [List.cons_append, insertWords, if_neg fun hw' => hw hw'.1, colonText_cons]
    simp [heq]

theorem zerosAtEnd_iff {front back : List UInt16} {z : ℕ} (hfront : 0 ∉ front)
    (hback : back.head? ≠ some 0) :
    ZerosAtEnd (front ++ List.replicate (z + 1) 0 ++ back) ↔ back = [] := by
  have hmem : (0 : UInt16) ∈ front ++ List.replicate (z + 1) 0 :=
    List.mem_append_right _ List.mem_cons_self
  constructor
  · rintro ⟨-, hpair⟩
    cases back with
    | nil => rfl
    | cons w back =>
      have hw := (List.pairwise_append.1 hpair).2.2 0 hmem w List.mem_cons_self rfl
      exact absurd (congrArg some hw) hback
  · rintro rfl
    rw [List.append_nil]
    refine ⟨hmem, List.pairwise_append.2 ⟨?_, ?_, ?_⟩⟩
    · exact List.pairwise_of_forall_mem_list fun v hv _ _ h0 => absurd (h0 ▸ hv) hfront
    · exact List.pairwise_replicate.2 (Or.inr fun _ => rfl)
    · exact fun v hv _ _ h0 => absurd (h0 ▸ hv) hfront

/-- The text states the words that were written, unless zeros at the end were skipped. -/
theorem readAddress_insertWords {ws : List UInt16} (hlength : ws.length = 8) :
    (ZerosAtEnd ws → readAddress (insertWords none false ws) = none) ∧
      (¬ ZerosAtEnd ws → readAddress (insertWords none false ws) = some (ws.map group)) := by
  by_cases hzero : (0 : UInt16) ∈ ws
  · obtain ⟨front, z, back, rfl, hfront, hback⟩ := exists_firstRun hzero
    obtain ⟨prev, heq⟩ := insertWords_front hfront (List.replicate (z + 1) 0 ++ back)
    rw [insertWords_zeros, ← List.append_assoc] at heq
    rw [List.length_append, List.length_append, List.length_replicate] at hlength
    rw [zerosAtEnd_iff hfront hback, heq]
    cases back with
    | nil =>
      -- fewer than eight groups are written
      refine ⟨fun _ => ?_, fun h => absurd rfl h⟩
      rw [insertWords, List.append_nil, readAddress_colonText (groups_lt front), List.length_map,
        if_neg (by rw [List.length_nil] at hlength; omega)]
    | cons w back =>
      have hw : w ≠ 0 := fun hw => hback (congrArg some hw)
      refine ⟨fun h => absurd h (List.cons_ne_nil w back), fun _ => ?_⟩
      rw [insertWords_gap hw, readAddress_gap (groups_lt front) (groups_lt (w :: back))
        (Nat.succ_pos z) (by rw [List.length_map, List.length_map]; exact hlength),
        List.map_append, List.map_append, List.map_replicate]
      rfl
  · obtain ⟨prev, heq⟩ := insertWords_front hzero []
    rw [List.append_nil, insertWords, List.append_nil] at heq
    refine ⟨fun h => absurd h.1 hzero, fun _ => ?_⟩
    rw [heq, readAddress_colonText (groups_lt ws), List.length_map, if_pos hlength]

/-! ### Addresses -/

/-- The bytes of a group are the bytes of the address that its word was read from. -/
theorem bytes_group (a : SockaddrIn6) (i : Fin 8) : (leBytes 2 (group (a.word i))).reverse =
    [a.addr ⟨2 * i, by omega⟩, a.addr ⟨2 * i + 1, by omega⟩] := by
  have hlt : ofLeBytes [a.addr ⟨2 * i, by omega⟩, a.addr ⟨2 * i + 1, by omega⟩] < 2 ^ 16 :=
    lt_of_lt_of_eq (ofLeBytes_lt _) (show 256 ^ 2 = 2 ^ 16 by decide)
  have hread := leBytes_ofLeBytes [a.addr ⟨2 * i, by omega⟩, a.addr ⟨2 * i + 1, by omega⟩]
  have hword : (a.word i).toNat =
      ofLeBytes [a.addr ⟨2 * i, by omega⟩, a.addr ⟨2 * i + 1, by omega⟩] :=
    UInt16.toNat_ofNat_of_lt hlt
  rw [group, toNat_byteswapOnLittleEndian16, hword, leBytes_byteswap, List.reverse_reverse]
  exact hread

theorem bytes_groups (a : SockaddrIn6) :
    ((List.ofFn a.word).map group).flatMap (fun g => (leBytes 2 g).reverse) = List.ofFn a.addr := by
  rw [List.flatMap_map, List.flatMap_def, List.map_ofFn]
  refine Eq.trans ?_ (List.ofFn_mul' (m := 2) (n := 8) a.addr).symm
  refine congrArg List.flatten (congrArg List.ofFn ?_)
  funext i
  exact bytes_group a i

/-- From a text that states the address, and the port, the address is made again. -/
theorem createIPv6_address {a : SockaddrIn6} {address : List UInt8}
    (h : inetPton6 address = some (List.ofFn a.addr)) :
    createIPv6 address a.getPort = ⟨afInet6, a.port, 0, a.addr, 0⟩ := by
  rw [createIPv6, SockaddrIn6.getPort, byteswapOnLittleEndian16_self, h, Option.getD_some]
  refine congrArg (SockaddrIn6.mk afInet6 a.port 0 · 0) ?_
  funext i
  rw [List.getD_eq_getElem _ _ (by rw [List.length_ofFn]; exact i.isLt), List.getElem_ofFn]

theorem faithfulText_iff_inetPton6 (a : SockaddrIn6) : FaithfulText a ↔
    inetPton6 (insertWords none false (List.ofFn a.word)) = some (List.ofFn a.addr) := by
  constructor
  · rintro ⟨address, heq, hread⟩
    rw [SockaddrIn6.insert, List.append_left_inj, List.append_left_inj,
      List.append_right_inj] at heq
    rwa [heq]
  · exact fun hread => ⟨_, rfl, hread⟩

theorem zerosAtEnd_ofFn (a : SockaddrIn6) : ZerosAtEnd (List.ofFn a.word) ↔
    (∃ i, a.word i = 0) ∧ ∀ i j, i < j → a.word i = 0 → a.word j = 0 := by
  rw [ZerosAtEnd, List.mem_ofFn, List.pairwise_ofFn]

/-- **The text of an IPv6 address**: it is faithful exactly when the address has no group of zeros,
or another group behind one. -/
theorem faithfulText_iff (a : SockaddrIn6) : FaithfulText a ↔
    (∀ i, a.word i ≠ 0) ∨ ∃ i j, i < j ∧ a.word i = 0 ∧ a.word j ≠ 0 := by
  have hiff : ((∀ i, a.word i ≠ 0) ∨ ∃ i j, i < j ∧ a.word i = 0 ∧ a.word j ≠ 0) ↔
      ¬ ZerosAtEnd (List.ofFn a.word) := by
    rw [zerosAtEnd_ofFn, not_and_or]
    push Not
    rfl
  obtain ⟨hnone, hsome⟩ := readAddress_insertWords (List.length_ofFn (f := a.word))
  rw [faithfulText_iff_inetPton6, hiff, inetPton6]
  constructor
  · intro hread hzeros
    rw [hnone hzeros] at hread
    cases hread
  · intro hzeros
    rw [hsome hzeros, Option.map_some, bytes_groups]

/-- `1::` with the port `80` is written as `[1]:80`, and `1` is no address. -/
theorem not_faithfulText_trailing :
    let a := createIPv6 [49, 58, 58] 80
    a.insert = [91, 49, 93, 58, 56, 48] ∧ a.addr 1 = 1 ∧ inetPton6 [49] = none ∧
      ¬ FaithfulText a := by
  refine ⟨by decide +kernel, by decide +kernel, by decide +kernel, ?_⟩
  rw [faithfulText_iff_inetPton6]
  decide +kernel

end Address

end YXTWebCpp
