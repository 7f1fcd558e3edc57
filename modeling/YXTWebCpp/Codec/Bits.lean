import Mathlib.Data.Nat.Bitwise
import YXTWebCpp.Codec.Basic

/-!
# Bits of integers and of their bytes

* `testBit_ofLeBytes`, `testBit_byteswap` : where the bits of the bytes are in the number, and where
  the bits of a number are after a byte swap; so bitwise operations can be done on swapped numbers
  (`byteswap_and`, `byteswap_or`).
* `ones w v` : how many of the lowest `w` bits are set; `ones_clear` : clearing the lowest bit that
  is set makes them one fewer.
-/

namespace YXTWebCpp

namespace Codec

/-! ### Bits of bytes -/

theorem testBit_ofLeBytes (bytes : List UInt8) (i : ℕ) :
    (ofLeBytes bytes).testBit i = (bytes[i / 8]?).any fun b => b.toNat.testBit (i % 8) := by
  induction bytes generalizing i with
  | nil => simp [ofLeBytes]
  | cons byte bytes ih =>
    have hbyte : byte.toNat < 2 ^ 8 := byte.toNat_lt
    rw [ofLeBytes_cons, Nat.add_comm, show (256 : ℕ) = 2 ^ 8 by rfl,
      Nat.testBit_two_pow_mul_add _ hbyte]
    split_ifs with h
    · rw [Nat.div_eq_of_lt h, Nat.mod_eq_of_lt h]
      rfl
    · obtain ⟨j, rfl⟩ := Nat.exists_eq_add_of_le (Nat.not_lt.1 h)
      rw [Nat.add_sub_cancel_left, ih, Nat.add_div_left _ (by decide), Nat.add_mod_left,
        List.getElem?_cons_succ]

theorem ofLeBytes_lt (bytes : List UInt8) : ofLeBytes bytes < 256 ^ bytes.length := by
  have hdigits : ∀ d ∈ bytes.map UInt8.toNat, d < 256 := by
    intro d hd
    obtain ⟨b, -, rfl⟩ := List.mem_map.1 hd
    exact b.toNat_lt
  have h := Nat.ofDigits_lt_base_pow_length (by decide) hdigits
  rwa [List.length_map] at h

theorem getElem?_leBytes (n v j : ℕ) :
    (leBytes n v)[j]? = if j < n then some (UInt8.ofNat (v / 256 ^ j)) else none := by
  induction n generalizing v j with
  | zero => rfl
  | succ n ih =>
    cases j with
    | zero => simp [leBytes]
    | succ j =>
      rw [leBytes, List.getElem?_cons_succ, ih, Nat.div_div_eq_div_mul, ← Nat.pow_succ']
      simp only [Nat.succ_lt_succ_iff]

theorem testBit_byte (v j : ℕ) {i : ℕ} (hi : i < 8) :
    (UInt8.ofNat (v / 256 ^ j)).toNat.testBit i = v.testBit (8 * j + i) := by
  rw [UInt8.toNat_ofNat', Nat.testBit_mod_two_pow, decide_eq_true hi, Bool.true_and,
    show (256 : ℕ) = 2 ^ 8 by rfl, ← Nat.pow_mul, Nat.testBit_div_two_pow, Nat.add_comm]

/-- The bits of the bytes in the opposite order. -/
theorem testBit_byteswap (n v i : ℕ) : (byteswap n v).testBit i =
    (decide (i < 8 * n) && v.testBit (8 * (n - 1 - i / 8) + i % 8)) := by
  rw [byteswap, testBit_ofLeBytes]
  by_cases h : i < 8 * n
  · have hdiv : i / 8 < n := Nat.div_lt_of_lt_mul h
    rw [List.getElem?_reverse (by rw [length_leBytes]; exact hdiv), length_leBytes,
      getElem?_leBytes, if_pos (by omega), Option.any_some, decide_eq_true h, Bool.true_and,
      testBit_byte _ _ (Nat.mod_lt _ (by decide))]
  · rw [List.getElem?_eq_none (by rw [List.length_reverse, length_leBytes]; omega),
      decide_eq_false h, Bool.false_and]
    rfl

theorem byteswap_lt (n v : ℕ) : byteswap n v < 2 ^ (8 * n) := by
  refine Nat.lt_pow_two_of_testBit _ fun i hi => ?_
  rw [testBit_byteswap, decide_eq_false (Nat.not_lt.2 hi), Bool.false_and]

theorem byteswap_and (n v w : ℕ) : byteswap n (v &&& w) = byteswap n v &&& byteswap n w := by
  refine Nat.eq_of_testBit_eq fun i => ?_
  rw [Nat.testBit_and, testBit_byteswap, testBit_byteswap, testBit_byteswap, Nat.testBit_and]
  cases decide (i < 8 * n) <;> rfl

theorem byteswap_or (n v w : ℕ) : byteswap n (v ||| w) = byteswap n v ||| byteswap n w := by
  refine Nat.eq_of_testBit_eq fun i => ?_
  rw [Nat.testBit_or, testBit_byteswap, testBit_byteswap, testBit_byteswap, Nat.testBit_or]
  cases decide (i < 8 * n) <;> rfl

/-! ### Counting bits -/

/-- How many of the lowest `w` bits are set. -/
def ones (w v : ℕ) : ℕ := (List.range w).countP fun i => v.testBit i

theorem ones_zero (w : ℕ) : ones w 0 = 0 := by
  simp [ones]

theorem ones_succ (w v : ℕ) : ones (w + 1) v = v % 2 + ones w (v / 2) := by
  rw [ones, ones, List.range_succ_eq_map, List.countP_cons, List.countP_map, Nat.add_comm]
  congr 1
  · rw [Nat.testBit_zero]
    rcases Nat.mod_two_eq_zero_or_one v with h | h <;> simp [h]
  · refine List.countP_congr fun i _ => ?_
    rw [Function.comp_apply, Nat.testBit_succ]

theorem ones_le (w v : ℕ) : ones w v ≤ w := by
  have h := List.countP_le_length (p := fun i => v.testBit i) (l := List.range w)
  rwa [List.length_range] at h

/-- Clearing the lowest bit that is set. -/
theorem ones_clear {w v : ℕ} (hv : v ≠ 0) (hw : v < 2 ^ w) :
    ones w (v &&& (v - 1)) + 1 = ones w v := by
  induction w generalizing v with
  | zero => omega
  | succ w ih =>
    have hdiv : (v &&& (v - 1)) / 2 = v / 2 &&& (v - 1) / 2 := Nat.and_div_two
    -- one of the two numbers is even
    have hmod : (v &&& (v - 1)) % 2 = 0 := by
      rw [← Nat.mod_two_ne_one, Ne, Nat.and_mod_two_eq_one]
      omega
    rw [ones_succ, ones_succ, hdiv, hmod]
    rcases Nat.mod_two_eq_zero_or_one v with h | h
    · have hhalf := ih (v := v / 2) (by omega) (by rw [Nat.pow_succ] at hw; omega)
      rw [show (v - 1) / 2 = v / 2 - 1 by omega, h]
      omega
    · rw [show (v - 1) / 2 = v / 2 by omega, Nat.and_self, h]
      omega

/-- The bits of a number that is put together from two. -/
theorem ones_add_mul {k b : ℕ} (h : b < 2 ^ k) (w v : ℕ) :
    ones (k + w) (b + 2 ^ k * v) = ones k b + ones w v := by
  induction k generalizing b with
  | zero =>
    obtain rfl : b = 0 := by simpa using h
    rw [Nat.zero_add, Nat.zero_add, Nat.pow_zero, Nat.one_mul, ones_zero, Nat.zero_add]
  | succ k ih =>
    have hpow : 2 ^ (k + 1) * v = 2 * (2 ^ k * v) := by rw [Nat.pow_succ', Nat.mul_assoc]
    have hdiv : (b + 2 ^ (k + 1) * v) / 2 = b / 2 + 2 ^ k * v := by omega
    have hmod : (b + 2 ^ (k + 1) * v) % 2 = b % 2 := by omega
    rw [Nat.add_right_comm, ones_succ, hmod, hdiv, ih (by rw [Nat.pow_succ] at h; omega),
      ones_succ, Nat.add_assoc]

/-- The bits of the bytes. -/
theorem ones_ofLeBytes (bytes : List UInt8) : ones (8 * bytes.length) (ofLeBytes bytes) =
    (bytes.map fun b => ones 8 b.toNat).sum := by
  induction bytes with
  | nil => rfl
  | cons b bytes ih =>
    rw [List.length_cons, Nat.mul_succ, Nat.add_comm, ofLeBytes_cons, show (256 : ℕ) = 2 ^ 8 by rfl,
      ones_add_mul b.toNat_lt, ih, List.map_cons, List.sum_cons]

end Codec

end YXTWebCpp
