import Mathlib.Order.Nat
import YXTWebCpp.Blocks.Basic

/-!
# Pieces of blocks

A range of positions of a list that is cut into blocks is handed on as pieces, each of them inside
one block, so that what takes the pieces need not know of the blocks.

* `Piece` : some elements of one block; `Piece.read` are these elements.
* `Tiles b p vs q` : one after the other, the pieces cover the positions from `p` to `q`.
* `Tiles.flatMap_positions`, `Tiles.pairwise_disjoint` : they cover every position once.
* `Tiles.flatMap_read` : what they hold is the range of the contents.
* `scatter`, `Tiles.scatter_eq` : filling the pieces one after the other overwrites the range.
-/

namespace YXTWebCpp

namespace Blocks

variable {α : Type*}

/-- `len` elements of a block, from an offset on. -/
structure Piece where
  block : ℕ
  offset : ℕ
  len : ℕ
deriving DecidableEq, Repr

namespace Piece

/-- The position of the first element. -/
def start (b : ℕ) (v : Piece) : ℕ := v.block * b + v.offset

/-- The positions of the elements. -/
def positions (b : ℕ) (v : Piece) : List ℕ := List.range' (v.start b) v.len

/-- The elements. -/
def read (xss : List (List α)) (v : Piece) : List α :=
  ((xss.getD v.block []).drop v.offset).take v.len

/-- The elements are replaced, as many of them as there are new ones. -/
def write (xss : List (List α)) (v : Piece) (ys : List α) : List (List α) :=
  xss.modify v.block fun xs => overwrite xs v.offset ys

end Piece

/-- One after the other, the pieces cover the positions from `p` to `q`, and none is empty. -/
def Tiles (b : ℕ) : ℕ → List Piece → ℕ → Prop
  | p, [], q => p = q
  | p, v :: vs, q => v.start b = p ∧ v.offset + v.len ≤ b ∧ 0 < v.len ∧ Tiles b (p + v.len) vs q

/-- The elements `ys` are stored in the pieces, one after the other, as far as there is room. -/
def scatter (xss : List (List α)) : List Piece → List α → List (List α)
  | [], _ => xss
  | v :: vs, ys => scatter (v.write xss (ys.take v.len)) vs (ys.drop v.len)

/-! ### One piece -/

section Piece

variable {b : ℕ} {xss : List (List α)} {v : Piece}

@[simp] theorem Piece.length_write (ys : List α) : (v.write xss ys).length = xss.length :=
  List.length_modify _ _ _

/-- What is read from a piece is a range of the contents. -/
theorem Piece.read_eq (hu : Uniform b xss) (hv : v.offset + v.len ≤ b) :
    v.read xss = (xss.flatten.drop (v.start b)).take v.len := by
  rw [Piece.start, ← List.drop_drop, ← hu.flatten_drop, Piece.read, List.getD_eq_getElem?_getD,
    ← List.head?_drop]
  have hu := hu.drop v.block
  cases hblocks : xss.drop v.block with
  | nil => simp
  | cons xs yss =>
    rw [hblocks] at hu
    have hxs := (Uniform.cons_iff.1 hu).1
    rw [List.head?_cons, Option.getD_some, List.flatten_cons,
      List.drop_append_of_le_length (by omega), List.take_append_of_le_length]
    rw [List.length_drop]
    omega

/-- What is stored in a piece overwrites a range of the contents. -/
theorem Piece.write_eq (hu : Uniform b xss) (hblock : v.block < xss.length) (ys : List α)
    (hys : v.offset + ys.length ≤ b) :
    Uniform b (v.write xss ys) ∧
      (v.write xss ys).flatten = overwrite xss.flatten (v.start b) ys := by
  rw [Piece.write, Piece.start]
  generalize v.block = i at hblock
  induction xss generalizing i with
  | nil => exact absurd hblock (Nat.not_lt_zero _)
  | cons xs xss ih =>
    obtain ⟨hxs, hu⟩ := Uniform.cons_iff.1 hu
    cases i with
    | zero =>
      have hroom : v.offset + ys.length ≤ xs.length := by omega
      rw [List.modify_zero_cons, Nat.zero_mul, Nat.zero_add]
      refine ⟨Uniform.cons_iff.2 ⟨?_, hu⟩, ?_⟩
      · rw [length_overwrite hroom, hxs]
      · rw [List.flatten_cons, List.flatten_cons, overwrite_append_left hroom]
    | succ i =>
      obtain ⟨hu', hflat⟩ := ih hu i (Nat.lt_of_succ_lt_succ hblock)
      rw [List.modify_succ_cons]
      refine ⟨Uniform.cons_iff.2 ⟨hxs, hu'⟩, ?_⟩
      -- the block lies in the later ones, whose positions begin at `b`
      rw [List.flatten_cons, List.flatten_cons, hflat, ← overwrite_append_right, hxs, Nat.succ_mul,
        Nat.add_comm (i * b) b, Nat.add_assoc]

end Piece

/-! ### Pieces that cover a range -/

namespace Tiles

variable {b p q : ℕ} {vs : List Piece}

theorem le (h : Tiles b p vs q) : p ≤ q := by
  induction vs generalizing p with
  | nil => exact Nat.le_of_eq h
  | cons v vs ih =>
    obtain ⟨-, -, -, h⟩ := h
    exact Nat.le_of_add_right_le (ih h)

theorem flatMap_positions (h : Tiles b p vs q) :
    vs.flatMap (Piece.positions b) = List.range' p (q - p) := by
  induction vs generalizing p with
  | nil =>
    obtain rfl : p = q := h
    simp
  | cons v vs ih =>
    obtain ⟨hstart, -, -, h⟩ := h
    have hle := h.le
    rw [List.flatMap_cons, ih h, Piece.positions, hstart, List.range'_append_1]
    congr 1
    omega

/-- All of them together are as long as the range. -/
theorem sum_len (h : Tiles b p vs q) : (vs.map Piece.len).sum = q - p := by
  have hlen := congrArg List.length h.flatMap_positions
  simpa [List.length_flatMap, Piece.positions] using hlen

theorem nodup_positions (h : Tiles b p vs q) : (vs.flatMap (Piece.positions b)).Nodup := by
  rw [h.flatMap_positions]
  exact List.nodup_range'

/-- No position is in two of the pieces. -/
theorem pairwise_disjoint (h : Tiles b p vs q) :
    vs.Pairwise fun v w => (v.positions b).Disjoint (w.positions b) :=
  (List.nodup_flatMap.1 h.nodup_positions).2

/-- The pieces are in blocks that exist, if the range is. -/
theorem inside (h : Tiles b p vs q) {count : ℕ} (hq : q ≤ count * b) :
    ∀ v ∈ vs, v.block < count ∧ v.offset + v.len ≤ b ∧ 0 < v.len := by
  induction vs generalizing p with
  | nil => exact List.forall_mem_nil _
  | cons v vs ih =>
    obtain ⟨hstart, hoffset, hlen, h⟩ := h
    refine List.forall_mem_cons.2 ⟨⟨?_, hoffset, hlen⟩, ih h⟩
    have hle := h.le
    rw [Piece.start] at hstart
    exact Nat.lt_of_mul_lt_mul_right (a := b) (by omega)

variable {xss : List (List α)}

theorem flatMap_read (h : Tiles b p vs q) (hu : Uniform b xss) :
    vs.flatMap (Piece.read xss) = (xss.flatten.drop p).take (q - p) := by
  induction vs generalizing p with
  | nil =>
    obtain rfl : p = q := h
    simp
  | cons v vs ih =>
    obtain ⟨hstart, hoffset, -, h⟩ := h
    have hle := h.le
    rw [List.flatMap_cons, ih h, Piece.read_eq hu hoffset, hstart, ← List.drop_drop,
      ← List.take_add, show v.len + (q - (p + v.len)) = q - p by omega]

theorem scatter_eq (h : Tiles b p vs q) (hu : Uniform b xss) (hq : q ≤ xss.flatten.length)
    (ys : List α) (hys : p + ys.length ≤ q) :
    Uniform b (scatter xss vs ys) ∧ (scatter xss vs ys).length = xss.length ∧
      (scatter xss vs ys).flatten = overwrite xss.flatten p ys := by
  -- for all contents: the later pieces are filled in what the first one has left
  induction vs generalizing xss p ys with
  | nil =>
    obtain rfl : p = q := h
    have hnil : ys = [] := List.length_eq_zero_iff.1 (by omega)
    rw [scatter, hnil, overwrite_nil]
    exact ⟨hu, rfl, rfl⟩
  | cons v vs ih =>
    have hblock := (inside h (hu.length_flatten ▸ hq) v List.mem_cons_self).1
    obtain ⟨hstart, hoffset, -, h⟩ := h
    have htake : (ys.take v.len).length = min v.len ys.length := List.length_take
    obtain ⟨hu', hflat⟩ := Piece.write_eq (v := v) hu hblock (ys.take v.len) (by omega)
    have hroom : v.start b + (ys.take v.len).length ≤ xss.flatten.length := by omega
    have hle := h.le
    obtain ⟨hu'', hlength, hflat'⟩ := ih h hu'
      (by rw [hflat, length_overwrite hroom]; exact hq) (ys.drop v.len)
      (by rw [List.length_drop]; omega)
    refine ⟨hu'', by rw [scatter, hlength, Piece.length_write], ?_⟩
    rw [scatter, hflat', hflat, hstart]
    by_cases hlen : v.len ≤ ys.length
    · rw [show p + v.len = p + (ys.take v.len).length by omega, overwrite_overwrite (by omega),
        List.take_append_drop]
    · -- the elements end in this piece
      rw [List.drop_eq_nil_of_le (by omega), overwrite_nil, List.take_of_length_le (by omega)]

end Tiles

end Blocks

end YXTWebCpp
