import YXTWebCpp.Codec.Basic
import Mathlib.Algebra.Order.Floor.Div
import Mathlib.Data.Nat.Size

/-!
# How long a varint is

* `length_varint_le_iff`, `length_varint` : a varint has one byte for seven bits, and at least one.
* `eq_of_varint_isPrefix` : no varint is the beginning of another one.
* `toNat_zigzag` : a signed number goes to twice its absolute value or one less.
* `length_varint_zigzag_le_iff` : the signed numbers of up to `k` bytes.
-/

namespace YXTWebCpp

namespace Codec

/-! ### The length -/

theorem length_varint_pos (v : ℕ) : 0 < (varint v).length := by
  exact List.length_pos_of_ne_nil (varint_ne_nil v)

theorem length_varint_le_iff {v k : ℕ} (hk : 0 < k) :
    (varint v).length ≤ k ↔ v < 2 ^ (7 * k) := by
  induction k, hk using Nat.le_induction generalizing v with
  | base =>
    show _ ↔ v < 128
    by_cases h : 128 ≤ v
    · have hpos := length_varint_pos (v / 128)
      rw [varint_of_le h, List.length_cons]
      exact iff_of_false (by omega) (by omega)
    · rw [varint_of_lt (by omega)]
      exact iff_of_true (Nat.le_refl _) (by omega)
  | succ k hk ih =>
    have hpow : 2 ^ (7 * (k + 1)) = 2 ^ (7 * k) * 128 := by rw [Nat.mul_succ, Nat.pow_add]
    have hone : 1 ≤ 2 ^ (7 * k) := Nat.one_le_two_pow
    rw [hpow]
    by_cases h : 128 ≤ v
    · rw [varint_of_le h, List.length_cons, Nat.add_le_add_iff_right, ih,
        Nat.div_lt_iff_lt_mul (by decide)]
    · rw [varint_of_lt (by omega)]
      exact iff_of_true (by simp) (by omega)

/-- One byte for seven bits. -/
theorem length_varint (v : ℕ) : (varint v).length = max 1 (v.size ⌈/⌉ 7) := by
  refine eq_of_forall_ge_iff fun k => ?_
  rw [max_le_iff, ceilDiv_le_iff_le_mul (by decide), Nat.size_le]
  by_cases hk : 0 < k
  · rw [length_varint_le_iff hk, and_iff_right (Nat.succ_le_of_lt hk)]
  · have hpos := length_varint_pos v
    exact iff_of_false (by omega) fun h => hk h.1

/-! ### Prefixes -/

/-- The last byte of a varint is the only one with its high bit clear. -/
theorem eq_of_varint_isPrefix {a b : ℕ} (h : varint a <+: varint b) : a = b := by
  induction a using Nat.strongRecOn generalizing b with
  | ind a ih =>
    by_cases ha : 128 ≤ a <;> by_cases hb : 128 ≤ b
    · rw [varint_of_le ha, varint_of_le hb, List.cons_prefix_cons] at h
      have hlow := congrArg UInt8.toNat h.1
      rw [toNat_high, toNat_high] at hlow
      have hrest := ih (a / 128) (by omega) h.2
      omega
    · rw [varint_of_le ha, varint_of_lt (Nat.lt_of_not_le hb), List.cons_prefix_cons] at h
      exact absurd (List.prefix_nil.1 h.2) (varint_ne_nil _)
    · rw [varint_of_lt (Nat.lt_of_not_le ha), varint_of_le hb, List.cons_prefix_cons] at h
      have hlow := congrArg UInt8.toNat h.1
      rw [toNat_high, UInt8.toNat_ofNat'] at hlow
      omega
    · rw [varint_of_lt (Nat.lt_of_not_le ha), varint_of_lt (Nat.lt_of_not_le hb),
        List.cons_prefix_cons] at h
      have hlow := congrArg UInt8.toNat h.1
      rw [UInt8.toNat_ofNat', UInt8.toNat_ofNat'] at hlow
      omega

/-! ### Signed numbers -/

section Zigzag

variable {w : ℕ}

/-- The sign turns all bits over. -/
theorem zigzag_eq (v : BitVec w) : zigzag v = if v.msb then ~~~(v <<< 1) else v <<< 1 := by
  apply BitVec.eq_of_getLsbD_eq
  intro i hi
  rw [zigzag, BitVec.getLsbD_xor, getLsbD_sign v hi]
  cases v.msb with
  | false => simp
  | true => simp [hi]

theorem toNat_zigzag (v : BitVec (w + 1)) :
    ((zigzag v).toNat : ℤ) = if v.toInt < 0 then -2 * v.toInt - 1 else 2 * v.toInt := by
  have hlt := v.isLt
  have hpow : 2 ^ (w + 1) = 2 * 2 ^ w := by rw [Nat.pow_succ, Nat.mul_comm]
  have hmsb := BitVec.msb_eq_decide v
  rw [zigzag_eq, BitVec.toInt_eq_msb_cond]
  cases h : v.msb with
  | false =>
    rw [h] at hmsb
    have hsmall : v.toNat < 2 ^ w := by simpa using hmsb
    simp only [Bool.false_eq_true, ↓reduceIte, BitVec.toNat_shiftLeft, Nat.shiftLeft_eq]
    rw [Nat.mod_eq_of_lt (by omega), if_neg (by omega)]
    omega
  | true =>
    rw [h] at hmsb
    have hbig : 2 ^ w ≤ v.toNat := by simpa using hmsb
    simp only [↓reduceIte, BitVec.toNat_not, BitVec.toNat_shiftLeft, Nat.shiftLeft_eq]
    have hmod : v.toNat * 2 ^ 1 % 2 ^ (w + 1) = 2 * v.toNat - 2 ^ (w + 1) := by
      rw [Nat.mod_eq_sub_mod (by omega), Nat.mod_eq_of_lt (by omega)]
      omega
    rw [hmod, hpow]
    split_ifs <;> omega

/-- Up to `k` bytes are written for the numbers of `7 * k` bits. -/
theorem length_varint_zigzag_le_iff (v : BitVec (w + 1)) {k : ℕ} (hk : 0 < k) :
    (varint (zigzag v).toNat).length ≤ k ↔
      -(2 : ℤ) ^ (7 * k - 1) ≤ v.toInt ∧ v.toInt < 2 ^ (7 * k - 1) := by
  have hpow : 2 ^ (7 * k) = 2 * 2 ^ (7 * k - 1) := by
    rw [← Nat.pow_succ', Nat.succ_eq_add_one, Nat.sub_add_cancel (by omega)]
  have hz := toNat_zigzag v
  rw [length_varint_le_iff hk, hpow, ← Nat.cast_ofNat (R := ℤ), ← Nat.cast_pow]
  split_ifs at hz <;> omega

end Zigzag

end Codec

end YXTWebCpp
