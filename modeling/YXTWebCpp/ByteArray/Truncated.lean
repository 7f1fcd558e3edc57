import YXTWebCpp.ByteArray.Reachable

/-!
# Reading what is not all there

A typed read that throws should leave the array as it was, so that it can be tried again when more
has been written.  A read of several bytes in one piece does, but a varint is read byte by byte, and
a string is read after its length: what has been read before the exception stays read.

* `skip` : the array after some bytes have been read.
* `Shape` : a number as it is stored, of fixed width or as a varint; `Shape.head` is the number at
  the front of some bytes, if it is all there.
* `Shape.read_eq` : reading a number, in terms of the bytes that are left.
* `TypedRead`, `Complete` : the typed reads, and when all bytes of the value are there.
* `not_throws_of_complete` : a value that is all there is not refused.
* `Atomic` : `std::out_of_range` is thrown and nothing has changed.
* `atomic_iff` : **which reads of a value that is not all there leave the array as it was.**
-/

namespace YXTWebCpp

namespace ByteArray

open Codec

/-! ### What is left to read -/

/-- The bytes that are left to read. -/
def rest (s : ByteArray) : List UInt8 := s.data.drop s.position

/-- The array after `n` bytes have been read. -/
def skip (s : ByteArray) (n : ℕ) : ByteArray :=
  { s with position := s.position + n, cur := s.pointer ((s.position + n) / s.baseSize) }

section Skip

variable {s : ByteArray} {n : ℕ}

@[simp] theorem rest_skip (s : ByteArray) (n : ℕ) : (s.skip n).rest = s.rest.drop n := by
  rw [rest, rest, List.drop_drop]
  rfl

theorem skip_skip (s : ByteArray) (m n : ℕ) : (s.skip m).skip n = s.skip (m + n) := by
  simp only [skip, Nat.add_assoc]
  rfl

theorem Inv.length_rest (h : s.Inv) : s.rest.length = s.getReadSize := by
  rw [rest, List.length_drop, h.length_data, getReadSize]

theorem Inv.skip_zero (h : s.Inv) : s.skip 0 = s := by
  rw [skip, Nat.add_zero, ← h.cur_eq]

theorem Inv.skip (h : s.Inv) (hn : n ≤ s.getReadSize) : (s.skip n).Inv := by
  have hposition := h.position_le
  rw [getReadSize] at hn
  exact h.move (by omega)

theorem getReadSize_skip (s : ByteArray) (n : ℕ) :
    (s.skip n).getReadSize = s.getReadSize - n := by
  rw [getReadSize, getReadSize, Nat.sub_sub]
  rfl

/-- Something is read, and it is there. -/
theorem Inv.read_skip (h : s.Inv) (hpos : 0 < n) (hn : n ≤ s.getReadSize) :
    read n s = .ok (s.rest.take n) (s.skip n) := by
  have hsize := h.size_le
  refine h.read_eq ?_ hn
  rw [getReadSize] at hn
  omega

end Skip

/-! ### Numbers -/

/-- How a number is stored. -/
inductive Shape where
  /-- In `n` bytes. -/
  | fixed (n : ℕ)
  /-- As a varint, for a type of `w` bits. -/
  | varint (w : ℕ)

/-- The varint at the front of some bytes, its groups from bit `i` on put to `r`: the number, and
how many bytes it has. -/
def takeVarint (w : ℕ) : ℕ → ℕ → List UInt8 → Option (ℕ × ℕ)
  | i, r, [] => if i < w then none else some (r, 0)
  | i, r, b :: bs =>
    if i < w then
      if b < 0x80 then some (r ||| (b.toNat <<< i) % 2 ^ w, 1)
      else (takeVarint w (i + 7) (r ||| ((b &&& 0x7F).toNat <<< i) % 2 ^ w) bs).map
        fun p => (p.1, p.2 + 1)
    else some (r, 0)

namespace Shape

/-- The number at the front of some bytes, and how many of them it has. -/
def head (e : Endian) : Shape → List UInt8 → Option (ℕ × ℕ)
  | fixed n, bytes =>
    let v := ofLeBytes (bytes.take n)
    if n ≤ bytes.length then some (if e = byteOrder then v else byteswap n v, n) else none
  | varint w, bytes => takeVarint w 0 0 bytes

/-- The number is read. -/
def read : Shape → M ℕ
  | fixed n => readFixed n
  | varint w => readVarint w 0 0

/-- How many bytes the first call of `read` asks for. -/
def first : Shape → ℕ
  | fixed n => n
  | varint _ => 1

/-- The number has bytes at all. -/
def Positive : Shape → Prop
  | fixed n => 0 < n
  | varint w => 0 < w

end Shape

section Numbers

variable {s : ByteArray}

theorem takeVarint_le {w i r : ℕ} {bytes : List UInt8} {p : ℕ × ℕ}
    (h : takeVarint w i r bytes = some p) : p.2 ≤ bytes.length := by
  induction bytes generalizing i r p with
  | nil =>
    rw [takeVarint] at h
    split_ifs at h
    cases h
    exact le_rfl
  | cons b bs ih =>
    rw [takeVarint] at h
    split_ifs at h
    · cases h
      exact Nat.le_add_left _ _
    · obtain ⟨p, hp, rfl⟩ := Option.map_eq_some_iff.1 h
      exact Nat.succ_le_succ (ih hp)
    · cases h
      exact Nat.zero_le _

/-- The bytes of a varint are read one after the other, up to the end if there is no last one. -/
theorem readVarint_eq (w i r : ℕ) (h : s.Inv) :
    readVarint w i r s =
      match takeVarint w i r s.rest with
      | some p => .ok p.1 (s.skip p.2)
      | none => .error (.outOfRange "not enough len") (s.skip s.getReadSize) := by
  induction i, r using readVarint.induct w generalizing s with
  | case1 i r hi ih =>
    rw [readVarint, if_pos hi]
    cases hrest : s.rest with
    | nil =>
      have hnone : s.getReadSize = 0 := by rw [← h.length_rest, hrest, List.length_nil]
      have hread : readFuint8 s = .error (.outOfRange "not enough len") s :=
        map_error _ (read_eq_error (by omega))
      rw [bind_error hread, takeVarint, if_pos hi, hnone, h.skip_zero]
    | cons b bs =>
      have hsome : 1 ≤ s.getReadSize := by
        rw [← h.length_rest, hrest, List.length_cons]
        omega
      have hread : readFuint8 s = .ok b (s.skip 1) := by
        have hbyte := map_ok (fun bytes => UInt8.ofNat (ofLeBytes bytes))
          (h.read_skip Nat.one_pos hsome)
        rw [hrest] at hbyte
        rw [readFuint8, hbyte]
        simp [ofLeBytes]
      have hrest' : (s.skip 1).rest = bs := by
        rw [rest_skip, hrest]
        rfl
      rw [bind_ok hread, takeVarint, if_pos hi]
      split_ifs with hb
      · rfl
      · -- the other bytes are read from the next one on
        have hskip : 1 + (s.getReadSize - 1) = s.getReadSize := by omega
        rw [ih b (h.skip hsome), hrest', getReadSize_skip, skip_skip, hskip]
        cases takeVarint w (i + 7) (r ||| (b &&& 127).toNat <<< i % 2 ^ w) bs with
        | none => rfl
        | some p =>
          simp only [Option.map_some, skip_skip, Nat.add_comm 1]
  | case2 i r hi =>
    rw [readVarint, if_neg hi]
    cases hrest : s.rest <;> simp [takeVarint, hi, h.skip_zero] <;> rfl

theorem readFixed_eq {n : ℕ} (h : s.Inv) (hpos : 0 < n) (hn : n ≤ s.getReadSize) :
    readFixed n s =
      .ok (if s.endian = byteOrder then ofLeBytes (s.rest.take n)
        else byteswap n (ofLeBytes (s.rest.take n))) (s.skip n) := by
  rw [readFixed, bind_ok (h.read_skip hpos hn), get_bind]
  rfl

/-- A number that is all there is read.  Otherwise, what there is of a varint is read. -/
theorem Shape.read_eq (h : s.Inv) {shape : Shape} (hpos : shape.Positive) :
    shape.read s =
      match shape.head s.endian s.rest with
      | some p => .ok p.1 (s.skip p.2)
      | none => .error (.outOfRange "not enough len")
          (s.skip (if s.getReadSize < shape.first then 0 else s.getReadSize)) := by
  cases shape with
  | fixed n =>
    by_cases hn : n ≤ s.getReadSize
    · simp only [Shape.read, Shape.head, h.length_rest, if_pos hn, readFixed_eq h hpos hn]
    · have hif : (if s.getReadSize < (Shape.fixed n).first then 0 else s.getReadSize) = 0 :=
        if_pos (not_le.1 hn)
      rw [hif, h.skip_zero, Shape.head, h.length_rest, if_neg hn, Shape.read, readFixed]
      exact bind_error (read_eq_error (not_le.1 hn))
  | varint w =>
    have hif : (if s.getReadSize < (Shape.varint w).first then 0 else s.getReadSize) =
        s.getReadSize := by
      rw [Shape.first]
      split_ifs <;> omega
    rw [hif, Shape.read, Shape.head, readVarint_eq w 0 0 h]

/-- What is at the front has bytes, and they are there. -/
theorem Shape.head_bounds {e : Endian} {shape : Shape} (hpos : shape.Positive)
    {bytes : List UInt8} {p : ℕ × ℕ} (h : shape.head e bytes = some p) :
    0 < p.2 ∧ p.2 ≤ bytes.length := by
  cases shape with
  | fixed n =>
    rw [Shape.head] at h
    split_ifs at h with hn
    · cases h
      exact ⟨hpos, hn⟩
    · cases h
      exact ⟨hpos, hn⟩
  | varint w =>
    refine ⟨?_, takeVarint_le h⟩
    have hpos : 0 < w := hpos
    rw [Shape.head] at h
    cases bytes with
    | nil =>
      rw [takeVarint, if_pos hpos] at h
      cases h
    | cons b bs =>
      rw [takeVarint, if_pos hpos] at h
      split_ifs at h
      · cases h
        exact Nat.one_pos
      · obtain ⟨p, -, rfl⟩ := Option.map_eq_some_iff.1 h
        exact Nat.succ_pos _

/-- If there is less than the first call asks for, nothing is at the front. -/
theorem Shape.head_eq_none {e : Endian} {shape : Shape} (hpos : shape.Positive)
    {bytes : List UInt8} (hfew : bytes.length < shape.first) : shape.head e bytes = none := by
  cases shape with
  | fixed n =>
    rw [Shape.first] at hfew
    rw [Shape.head, if_neg (not_le.2 hfew)]
  | varint w =>
    have hpos : 0 < w := hpos
    have hnil : bytes = [] := List.length_eq_zero_iff.1 (Nat.lt_one_iff.1 hfew)
    rw [Shape.head, hnil, takeVarint, if_pos hpos]

end Numbers

/-! ### The typed reads -/

/-- A typed read. -/
inductive TypedRead where
  | number (k : Kind)
  | string (f : Format)
deriving DecidableEq, Repr

/-- The call. -/
def TypedRead.run : TypedRead → M Unit
  | number k => (fun _ => ()) <$> readValue k
  | string f => (fun _ => ()) <$> readString f

/-- How a type of number is stored. -/
def Kind.shape : Kind → Shape
  | fint8 | fuint8 => .fixed 1
  | fint16 | fuint16 => .fixed 2
  | fint32 | fuint32 | float => .fixed 4
  | fint64 | fuint64 | double => .fixed 8
  | int32 | uint32 => .varint 32
  | int64 | uint64 => .varint 64

/-- How the length of a string is stored. -/
def Format.shape : Format → Shape
  | f16 => .fixed 2
  | f32 => .fixed 4
  | f64 => .fixed 8
  | vint => .varint 64

/-- The number that comes first. -/
def TypedRead.shape : TypedRead → Shape
  | number k => k.shape
  | string f => f.shape

/-- All bytes of the value are among the given ones. -/
def TypedRead.Complete (e : Endian) (bytes : List UInt8) : TypedRead → Prop
  | number k => ∃ p, k.shape.head e bytes = some p
  | string f => ∃ p, f.shape.head e bytes = some p ∧ p.2 + f.narrow p.1 ≤ bytes.length

/-- `std::out_of_range` is thrown, and position, size and contents are as before. -/
def Atomic (s : ByteArray) (op : TypedRead) : Prop :=
  ∃ what s', op.run s = .error (.outOfRange what) s' ∧ s'.getPosition = s.getPosition ∧
    s'.getSize = s.getSize ∧ s'.data = s.data

section TypedRead

variable {b : ℕ} {s : ByteArray}

theorem TypedRead.shape_positive (op : TypedRead) : op.shape.Positive := by
  cases op with
  | number k => cases k <;> exact Nat.succ_pos _
  | string f => cases f <;> exact Nat.succ_pos _

/-- What is done with a number that has been read does not change how the read ends. -/
theorem run_number (k : Kind) :
    (TypedRead.number k).run = (fun _ => ()) <$> k.shape.read := by
  have hfixed : ∀ n, (fun _ => ()) <$> readFixed n = (fun _ => ()) <$> ByteArray.read n := by
    intro n
    rw [readFixed, map_bind]
    funext s
    cases hr : ByteArray.read n s with
    | ok bytes s' => rw [bind_ok hr, map_ok _ hr]; rfl
    | error e s' => rw [bind_error hr, map_error _ hr]
  cases k <;> simp only [TypedRead.run, readValue, Kind.shape, Shape.read, Functor.map_map,
    readFint8, readFuint8, readFint16, readFuint16, readFint32, readFuint32, readFint64,
    readFuint64, readUint32, readUint64, readInt32, readInt64, readFloat, readDouble, hfixed]

/-- The length of a string is read, and then as many bytes as it says. -/
theorem readString_eq_bind (f : Format) :
    readString f = f.shape.read >>= fun v => readBuff (f.narrow v) := by
  cases f with
  | f16 | f32 | f64 | vint =>
    simp only [readString, readStringF16, readStringF32, readStringF64, readStringVint,
      readFuint16, readFuint32, readFuint64, readUint64, bind_map_left, Format.shape, Shape.read]
    rfl

theorem readBuff_error (h : s.Inv) {len : ℕ} {e : Error} {s' : ByteArray}
    (herr : readBuff len s = .error e s') :
    s' = s ∧ (len ≤ s.getReadSize → ∀ what, e ≠ .outOfRange what) := by
  rw [readBuff] at herr
  split_ifs at herr
  · cases herr
    exact ⟨rfl, fun _ _ => by simp⟩
  · obtain ⟨hfew, hr⟩ | ⟨-, -, hr⟩ | ⟨-, -, hr⟩ := h.read_cases len
    · rw [hr] at herr
      cases herr
      exact ⟨rfl, fun hlen => absurd hlen (not_le.2 hfew)⟩
    · rw [hr] at herr
      cases herr
      exact ⟨rfl, fun _ _ => by simp⟩
    · rw [hr] at herr
      cases herr

namespace TypedRead

variable {op : TypedRead}

/-- If the first number is not all there, what there is of it is read. -/
theorem run_of_none (h : s.Inv) (hnone : op.shape.head s.endian s.rest = none) :
    op.run s = .error (.outOfRange "not enough len")
      (s.skip (if s.getReadSize < op.shape.first then 0 else s.getReadSize)) := by
  have hread := Shape.read_eq h op.shape_positive
  rw [hnone] at hread
  cases op with
  | number k =>
    rw [run_number]
    exact map_error _ hread
  | string f =>
    rw [run, readString_eq_bind]
    exact map_error _ (bind_error hread)

/-- If it is there, it has been read when an exception is thrown. -/
theorem error_of_some (h : s.Inv) {p : ℕ × ℕ} (hsome : op.shape.head s.endian s.rest = some p)
    {e : Error} {s' : ByteArray} (herr : op.run s = .error e s') :
    s' = s.skip p.2 ∧ (op.Complete s.endian s.rest → ∀ what, e ≠ .outOfRange what) := by
  have hread := Shape.read_eq h op.shape_positive
  have hbounds := (Shape.head_bounds op.shape_positive hsome).2
  rw [h.length_rest] at hbounds
  rw [hsome] at hread
  cases op with
  | number k =>
    have hread : k.shape.read s = .ok p.1 (s.skip p.2) := hread
    rw [run_number, map_ok _ hread] at herr
    cases herr
  | string f =>
    have hread : f.shape.read s = .ok p.1 (s.skip p.2) := hread
    rw [run] at herr
    have herr := of_map_error herr
    rw [readString_eq_bind, bind_ok hread] at herr
    obtain ⟨hstate, hwhat⟩ := readBuff_error (h.skip hbounds) herr
    refine ⟨hstate, fun hcomplete => hwhat ?_⟩
    obtain ⟨q, hq, hlen⟩ := hcomplete
    obtain rfl := Option.some.inj (hsome.symm.trans hq)
    rw [h.length_rest] at hlen
    rw [getReadSize_skip]
    omega

/-- A value that is all there is not refused as too short. -/
theorem not_throws_of_complete (h : s.Inv) (hcomplete : op.Complete s.endian s.rest)
    (what : String) (s' : ByteArray) : op.run s ≠ .error (.outOfRange what) s' := by
  intro herr
  obtain ⟨p, hp⟩ : ∃ p, op.shape.head s.endian s.rest = some p := by
    cases op with
    | number k => exact hcomplete
    | string f => exact hcomplete.imp fun p hp => hp.1
  exact (error_of_some h hp herr).2 hcomplete what rfl

/-- Nothing has changed exactly if the first call of `read` is the one that throws. -/
theorem atomic_iff_few (h : s.Inv) : s.Atomic op ↔ s.getReadSize < op.shape.first := by
  have hfirst : 0 < op.shape.first := by
    have hpos := op.shape_positive
    cases hshape : op.shape with
    | fixed n =>
      rw [hshape] at hpos
      exact hpos
    | varint w => exact Nat.one_pos
  constructor
  · rintro ⟨what, s', herr, hposition, -, -⟩
    cases hhead : op.shape.head s.endian s.rest with
    | none =>
      rw [run_of_none h hhead] at herr
      cases herr
      change s.position + _ = s.position at hposition
      split_ifs at hposition with hfew
      · exact hfew
      · omega
    | some p =>
      have hpos := (Shape.head_bounds op.shape_positive hhead).1
      obtain ⟨rfl, -⟩ := error_of_some h hhead herr
      change s.position + p.2 = s.position at hposition
      omega
  · intro hfew
    have hnone : op.shape.head s.endian s.rest = none :=
      Shape.head_eq_none op.shape_positive (by rwa [h.length_rest])
    have hrun := run_of_none h hnone
    rw [if_pos hfew, h.skip_zero] at hrun
    exact ⟨_, s, hrun, rfl, rfl, rfl⟩

/-- A number of fixed width is read by one call. -/
theorem complete_or_few (h : s.Inv) {k : Kind} {n : ℕ} (hk : k.shape = .fixed n) :
    (number k).Complete s.endian s.rest ∨ s.getReadSize < (number k).shape.first := by
  rw [Complete, shape, hk, Shape.head, Shape.first, h.length_rest]
  by_cases hn : n ≤ s.getReadSize
  · exact .inl ⟨_, if_pos hn⟩
  · exact .inr (not_le.1 hn)

end TypedRead

/-- Where the value is not all there, the array is left as it was exactly if there are not even the
bytes that the first call of `read` asks for. -/
theorem atomic_iff (hb : 1 ≤ b) (hs : (calls b).Reachable s) (op : TypedRead) :
    (¬ op.Complete s.endian s.rest → s.Atomic op) ↔
      op.Complete s.endian s.rest ∨ s.getReadSize < op.shape.first := by
  rw [TypedRead.atomic_iff_few (inv_of_reachable hb hs).1]
  exact Classical.or_iff_not_imp_left.symm

/-- The first byte of a varint of two, in front of the cursor. -/
def truncated : ByteArray where
  baseSize := 4
  position := 0
  capacity := 4
  size := 1
  endian := .big
  blocks := [[0x80, 0, 0, 0]]
  cur := some 0
  mem := fun _ _ => 0

theorem reachable_truncated : (calls 4).Reachable truncated := by
  have hrun : (calls 4).run (fun _ _ => True) (new 4 fun _ _ => 0)
      [.write [0x80], .setPosition 0] = some truncated := rfl
  exact System.reachableWhen_of_run ⟨_, rfl⟩ hrun

theorem atomic_iff_truncated :
    (¬ (TypedRead.number .uint32).Complete truncated.endian truncated.rest →
        truncated.Atomic (.number .uint32)) ↔
      (TypedRead.number .uint32).Complete truncated.endian truncated.rest ∨
        truncated.getReadSize < (TypedRead.number .uint32).shape.first :=
  atomic_iff (by decide) reachable_truncated (.number .uint32)

/-- The byte that is there is read before the next one is missed. -/
theorem not_atomic_truncated :
    (¬ ∀ b s (op : TypedRead), 1 ≤ b → (calls b).Reachable s →
      ¬ op.Complete s.endian s.rest → s.Atomic op) ∧
      (TypedRead.number .uint32).run truncated =
        .error (.outOfRange "not enough len") (truncated.skip 1) := by
  have hinv := (inv_of_reachable (by decide) reachable_truncated).1
  have hnone : (TypedRead.number .uint32).shape.head truncated.endian truncated.rest = none := rfl
  refine ⟨fun h => ?_, TypedRead.run_of_none hinv hnone⟩
  have hincomplete : ¬ (TypedRead.number .uint32).Complete truncated.endian truncated.rest := by
    rintro ⟨p, hp⟩
    cases hp
  have hatomic := h 4 truncated (.number .uint32) (by decide) reachable_truncated hincomplete
  exact absurd ((TypedRead.atomic_iff_few hinv).1 hatomic) (by decide)

end TypedRead

end ByteArray

end YXTWebCpp
