import YXTWebCpp.ByteArray.Numbers
import YXTWebCpp.ByteArray.Reachable
import YXTWebCpp.Codec.Varint

/-!
# Varints and their buffers

`writeUint32` and `writeUint64` put the groups of a number into the array `tmp`, of five bytes and
of ten, and write it up to the index `i`.

* `encode` : the loop with its array and its index.
* `encodeUint32`, `encodeUint64` : what is written; `encodeUint32_eq`, `encodeUint64_eq` : the
  varint, without an access behind the end of `tmp`.
* `ReadBack` : a method reads what another one has written.
* `varint_writers` : **the encodings are bounded, minimal and the same for both widths**.
-/

namespace YXTWebCpp

namespace ByteArray

open Codec

/-! ### The loop -/

/-- The loop of `writeUint32` and `writeUint64`, and the line behind it: the groups of `value` go to
`tmp[i]` and behind it.  The result is `tmp` and `i`, and `none` for an access behind the end. -/
def encode {n : ℕ} (value : ℕ) (tmp : Vector UInt8 n) (i : UInt8) :
    Option (Vector UInt8 n × UInt8) :=
  if hi : i.toNat < n then
    if 0x80 ≤ value then
      encode (value >>> 7) (tmp.set i.toNat (UInt8.ofNat (value &&& 0x7F ||| 0x80)) hi) (i + 1)
    else some (tmp.set i.toNat (UInt8.ofNat value) hi, i + 1)
  else none
termination_by value
decreasing_by
  rw [Nat.shiftRight_eq_div_pow]
  omega

/-- The bytes that `writeUint32` hands to `write`, for any bytes that `tmp` has before. -/
def encodeUint32 (tmp : Vector UInt8 5) (value : UInt32) : Option (List UInt8) :=
  (encode value.toNat tmp 0).map fun r => r.1.toList.take r.2.toNat

/-- The bytes that `writeUint64` hands to `write`. -/
def encodeUint64 (tmp : Vector UInt8 10) (value : UInt64) : Option (List UInt8) :=
  (encode value.toNat tmp 0).map fun r => r.1.toList.take r.2.toNat

section Loop

variable {n : ℕ}

/-- What stands in front of the next index after an assignment. -/
theorem take_set (tmp : Vector UInt8 n) {i : ℕ} (hi : i < n) (b : UInt8) :
    (tmp.set i b hi).toList.take (i + 1) = tmp.toList.take i ++ [b] := by
  have hlen : i < tmp.toList.length := by simpa using hi
  rw [Vector.toList_set, List.set_eq_take_append_cons_drop, if_pos hlen, List.take_append,
    List.length_take, Nat.min_eq_left hlen.le, Nat.add_sub_cancel_left, List.take_take,
    Nat.min_eq_right (Nat.le_succ i)]
  rfl

theorem toNat_index {i : UInt8} (hi : i.toNat < n) (hn : n < 256) :
    (i + 1).toNat = i.toNat + 1 := by
  rw [UInt8.toNat_add]
  exact Nat.mod_eq_of_lt (by show i.toNat + 1 < 256; omega)

/-- With room for the varint, the loop comes to its end and has put it behind what was there. -/
theorem encode_spec {value : ℕ} (tmp : Vector UInt8 n) (i : UInt8)
    (hroom : i.toNat + (varint value).length ≤ n) (hn : n < 256) :
    ∃ tmp' j, encode value tmp i = some (tmp', j) ∧
      tmp'.toList.take j.toNat = tmp.toList.take i.toNat ++ varint value := by
  induction value using Nat.strongRecOn generalizing tmp i with
  | ind value ih =>
    have hi : i.toNat < n := by
      have := length_varint_pos value
      omega
    rw [encode, dif_pos hi]
    by_cases hbig : 128 ≤ value
    · rw [varint_of_le hbig, List.length_cons] at hroom
      have hnext := toNat_index hi hn
      rw [if_pos hbig, low_or_high, Nat.shiftRight_eq_div_pow]
      obtain ⟨tmp', j, henc, htake⟩ := ih (value / 128) (by omega)
        (tmp.set i.toNat (UInt8.ofNat (value % 128 + 128)) hi) (i + 1) (by omega)
      refine ⟨tmp', j, henc, ?_⟩
      rw [htake, hnext, take_set, varint_of_le hbig, List.append_assoc]
      rfl
    · rw [if_neg hbig]
      refine ⟨_, _, rfl, ?_⟩
      rw [toNat_index hi hn, take_set, varint_of_lt (by omega)]

/-- An array of `n` bytes has room for the numbers of `7 * n` bits. -/
theorem encode_eq {value : ℕ} (tmp : Vector UInt8 n) (h0 : 0 < n) (hn : n < 256)
    (hvalue : value < 2 ^ (7 * n)) :
    (encode value tmp 0).map (fun r => r.1.toList.take r.2.toNat) = some (varint value) := by
  have hlen := (length_varint_le_iff h0).2 hvalue
  obtain ⟨tmp', j, henc, htake⟩ := encode_spec tmp 0 (by rwa [UInt8.toNat_zero, Nat.zero_add]) hn
  rw [henc, Option.map_some, htake]
  rfl

end Loop

theorem encodeUint32_eq (tmp : Vector UInt8 5) (value : UInt32) :
    encodeUint32 tmp value = some (varint value.toNat) :=
  encode_eq tmp (by decide) (by decide) (Nat.lt_trans value.toNat_lt (by decide))

theorem encodeUint64_eq (tmp : Vector UInt8 10) (value : UInt64) :
    encodeUint64 tmp value = some (varint value.toNat) :=
  encode_eq tmp (by decide) (by decide) (Nat.lt_trans value.toNat_lt (by decide))

/-- What one of the two methods writes. -/
def Encoding (bytes : List UInt8) : Prop :=
  (∃ tmp value, encodeUint32 tmp value = some bytes) ∨
    ∃ tmp value, encodeUint64 tmp value = some bytes

theorem Encoding.eq_varint {bytes : List UInt8} (h : Encoding bytes) :
    ∃ value, bytes = varint value := by
  obtain ⟨tmp, value, henc⟩ | ⟨tmp, value, henc⟩ := h
  · exact ⟨_, Option.some.inj (henc.symm.trans (encodeUint32_eq tmp value))⟩
  · exact ⟨_, Option.some.inj (henc.symm.trans (encodeUint64_eq tmp value))⟩

theorem Encoding.eq_of_isPrefix {bytes bytes' : List UInt8} (h : Encoding bytes)
    (h' : Encoding bytes') (hpre : bytes <+: bytes') : bytes = bytes' := by
  obtain ⟨value, rfl⟩ := h.eq_varint
  obtain ⟨value', rfl⟩ := h'.eq_varint
  rw [eq_of_varint_isPrefix hpre]

/-! ### Reading with the other width -/

/-- What `put` writes in the state `s` is read back by `take` from the same position. -/
def ReadBack {α : Type} (s : ByteArray) (put : M Unit) (take : M α) (a : α) : Prop :=
  ∃ s₁, put s = .ok () s₁ ∧
    ∃ s₂, (do setPosition s.position; take) s₁ = .ok a s₂ ∧ s₂.position = s₁.position

theorem readBack {α : Type} {s : ByteArray} (h : s.Inv) {put : M Unit} {take : M α}
    {bytes : List UInt8} {a : α} (hput : Writes s.endian put bytes)
    (htake : Reads s.endian take bytes a) : ReadBack s put take a := by
  have hs : s.Refines ⟨s.data, s.position⟩ := ⟨h, rfl, rfl⟩
  have hposition := hs.cursor_le
  obtain ⟨s₁, hs₁, hr₁, -, he₁, -⟩ := hput hs rfl
  have hfront : (s.data.take s.position).length = s.position := by
    rw [List.length_take, Nat.min_eq_left hposition]
  have hle : s.position ≤ (Flat.write ⟨s.data, s.position⟩ bytes).data.length := by
    rw [Flat.write, Blocks.overwrite, List.append_assoc, List.length_append, hfront]
    exact Nat.le_add_right _ _
  have hrest : bytes <+: ((Flat.write ⟨s.data, s.position⟩ bytes).seek s.position).rest := by
    rw [Flat.seek, Flat.rest, Flat.write, Blocks.overwrite, List.append_assoc,
      List.drop_left' hfront]
    exact List.prefix_append _ _
  obtain ⟨s₂, hs₂, hr₂, -⟩ := htake (hr₁.seek hle) he₁ hrest
  refine ⟨s₁, hs₁, s₂, ?_, hr₂.position_eq.trans hr₁.position_eq.symm⟩
  rw [bind_ok (hr₁.inv.setPosition_eq (hr₁.size_eq ▸ hle))]
  exact hs₂

/-- A number of 32 bits, written by either method, is read by both. -/
theorem readBack_uint32 {s : ByteArray} (h : s.Inv) (value : UInt32) :
    ReadBack s (writeUint32 value) readUint32 value ∧
      ReadBack s (writeUint32 value) readUint64 value.toUInt64 ∧
      ReadBack s (writeUint64 value.toUInt64) readUint32 value ∧
      ReadBack s (writeUint64 value.toUInt64) readUint64 value.toUInt64 := by
  have hput : Writes s.endian (writeUint32 value) (varint value.toNat) := writes_write _ _
  have hput' : Writes s.endian (writeUint64 value.toUInt64) (varint value.toNat) := by
    rw [← UInt32.toNat_toUInt64]
    exact writes_write _ _
  have htake := reads_readUint32 s.endian value
  have htake' : Reads s.endian readUint64 (varint value.toNat) value.toUInt64 := by
    rw [← UInt32.toNat_toUInt64]
    exact reads_readUint64 _ _
  exact ⟨readBack h hput htake, readBack h hput htake', readBack h hput' htake,
    readBack h hput' htake'⟩

/-! ### The encodings -/

/-- The method calls `write` with the bytes that the loop has left in `tmp`, and `P` is true of
them. -/
def Hands (put : M Unit) (sent : Option (List UInt8)) (P : List UInt8 → Prop) : Prop :=
  ∃ bytes, sent = some bytes ∧ put = write bytes ∧ P bytes

/-- As many bytes as the bits of the value need, seven to a byte, and at least one. -/
def Minimal (value : ℕ) (bytes : List UInt8) : Prop :=
  bytes.length = max 1 (value.size ⌈/⌉ 7)

/-- Up to `k` bytes are enough for the numbers of `7 * k` bits, and for no others. -/
def SignedMinimal (value : ℤ) (bytes : List UInt8) : Prop :=
  ∀ k, 0 < k →
    (bytes.length ≤ k ↔ -(2 : ℤ) ^ (7 * k - 1) ≤ value ∧ value < 2 ^ (7 * k - 1))

/-- **The encodings are bounded, minimal and the same for both widths**: the loops of `writeUint32`
and `writeUint64` come to their end inside of `tmp`, with one byte for seven bits; no encoding is
the beginning of another one; what fits into 32 bits is read back with both widths, in every state
of an array; and `writeInt32` and `writeInt64` take up to `k` bytes for the numbers of `7 * k`
bits. -/
theorem varint_writers :
    (∀ tmp value, Hands (writeUint32 value) (encodeUint32 tmp value) (Minimal value.toNat)) ∧
      (∀ tmp value, Hands (writeUint64 value) (encodeUint64 tmp value) (Minimal value.toNat)) ∧
      (∀ bytes bytes', Encoding bytes → Encoding bytes' → bytes <+: bytes' → bytes = bytes') ∧
      (∀ b s, 1 ≤ b → (calls b).Reachable s → ∀ value : UInt32,
        ReadBack s (writeUint32 value) readUint32 value ∧
          ReadBack s (writeUint32 value) readUint64 value.toUInt64 ∧
          ReadBack s (writeUint64 value.toUInt64) readUint32 value ∧
          ReadBack s (writeUint64 value.toUInt64) readUint64 value.toUInt64) ∧
      (∀ tmp value, Hands (writeInt32 value) (encodeUint32 tmp (encodeZigzag32 value))
        (SignedMinimal value.toInt)) ∧
      (∀ tmp value, Hands (writeInt64 value) (encodeUint64 tmp (encodeZigzag64 value))
        (SignedMinimal value.toInt)) := by
  refine ⟨fun tmp value => ?_, fun tmp value => ?_, fun _ _ h h' => h.eq_of_isPrefix h',
    fun b s hb hs => readBack_uint32 (inv_of_reachable hb hs).1, fun tmp value => ?_,
    fun tmp value => ?_⟩
  · exact ⟨_, encodeUint32_eq tmp value, rfl, length_varint _⟩
  · exact ⟨_, encodeUint64_eq tmp value, rfl, length_varint _⟩
  · exact ⟨_, encodeUint32_eq tmp _, rfl, fun k hk =>
      length_varint_zigzag_le_iff value.toBitVec hk⟩
  · exact ⟨_, encodeUint64_eq tmp _, rfl, fun k hk =>
      length_varint_zigzag_le_iff value.toBitVec hk⟩

end ByteArray

end YXTWebCpp
