import Mathlib.Algebra.Ring.Int.Defs
import Mathlib.Algebra.Ring.Nat
import Mathlib.Data.Fintype.Card
import Mathlib.Data.List.Basic

/-!
# Lists that are cut into blocks of one length

A growable buffer that never moves its contents keeps them in blocks of a fixed length `b`.  The
contents are the concatenation of the blocks; position `p` is in block `p / b`, at offset `p % b`.

* `overwrite xs p ys` : `xs` with `ys` written over it from position `p` on, extended where `ys`
  reaches beyond its end.
* `Uniform b xss` : all blocks have length `b`.
* `Uniform.flatten_drop` : the contents from block `i` on are the contents from position `i * b` on.
* `copyOut`, `copyIn`, `seek` : the loops that copy `n` elements from position `p` on out of the
  blocks or into them, and that look for the block of a position.  They go from block to block, and
  stop with `none` where there is no block to go to.
* `copyOut_eq`, `copyIn_eq`, `seek_eq` : what they do to the contents, and how many blocks they
  leave behind.
-/

namespace YXTWebCpp

namespace Blocks

variable {α : Type*}

/-- `xs` with `ys` written over it from position `p` on. -/
def overwrite (xs : List α) (p : ℕ) (ys : List α) : List α :=
  xs.take p ++ ys ++ xs.drop (p + ys.length)

@[simp] theorem overwrite_nil (xs : List α) (p : ℕ) : overwrite xs p [] = xs := by
  simp [overwrite]

theorem length_overwrite {xs : List α} {p : ℕ} {ys : List α} (h : p + ys.length ≤ xs.length) :
    (overwrite xs p ys).length = xs.length := by
  simp only [overwrite, List.length_append, List.length_take, List.length_drop]
  omega

/-- Behind the end there is nothing to overwrite. -/
theorem overwrite_length (xs ys : List α) : overwrite xs xs.length ys = xs ++ ys := by
  simp [overwrite]

theorem overwrite_append_left {xs : List α} {p : ℕ} {ys : List α} (h : p + ys.length ≤ xs.length)
    (zs : List α) : overwrite (xs ++ zs) p ys = overwrite xs p ys ++ zs := by
  simp only [overwrite, List.append_assoc]
  rw [List.take_append_of_le_length (by omega), List.drop_append_of_le_length h]

theorem overwrite_append_right (xs zs : List α) (p : ℕ) (ys : List α) :
    overwrite (xs ++ zs) (xs.length + p) ys = xs ++ overwrite zs p ys := by
  simp only [overwrite, List.append_assoc]
  rw [List.take_length_add_append, Nat.add_assoc, List.drop_length_add_append, List.append_assoc]

/-- What is written in two pieces. -/
theorem overwrite_overwrite {xs : List α} {p : ℕ} (h : p ≤ xs.length) (ys zs : List α) :
    overwrite (overwrite xs p ys) (p + ys.length) zs = overwrite xs p (ys ++ zs) := by
  have hfront : (xs.take p ++ ys).length = p + ys.length := by
    rw [List.length_append, List.length_take, Nat.min_eq_left h]
  have htake : (overwrite xs p ys).take (p + ys.length) = xs.take p ++ ys := by
    rw [overwrite, List.take_append_of_le_length (Nat.le_of_eq hfront.symm), ← hfront,
      List.take_length]
  have hdrop : (overwrite xs p ys).drop (p + ys.length + zs.length) =
      xs.drop (p + (ys.length + zs.length)) := by
    rw [overwrite, ← hfront, List.drop_length_add_append, List.drop_drop, hfront, Nat.add_assoc]
  rw [overwrite, htake, hdrop, overwrite, List.length_append, List.append_assoc (xs.take p)]

/-- Overwriting what ends in `xs` and what begins with `zs` is done one after the other. -/
theorem overwrite_append {xs zs : List α} {p : ℕ} {ys : List α} (h : p ≤ xs.length)
    (h' : xs.length ≤ p + ys.length) :
    overwrite (xs ++ zs) p ys =
      overwrite xs p (ys.take (xs.length - p)) ++ overwrite zs 0 (ys.drop (xs.length - p)) := by
  have hlen : (ys.take (xs.length - p)).length = xs.length - p := by
    rw [List.length_take]
    omega
  have hdrop : (xs ++ zs).drop (p + ys.length) = zs.drop (p + ys.length - xs.length) := by
    rw [List.drop_append, List.drop_eq_nil_of_le h', List.nil_append]
  have hend : xs.drop (p + (xs.length - p)) = [] := List.drop_eq_nil_of_le (by omega)
  simp only [overwrite, hlen, hdrop, hend, List.take_append_of_le_length h, List.append_nil,
    List.take_zero, List.nil_append, List.length_drop, List.append_assoc]
  rw [← List.append_assoc (ys.take _), List.take_append_drop,
    show 0 + (ys.length - (xs.length - p)) = p + ys.length - xs.length by omega]

/-- What is overwritten inside a list is overwritten in its prefix, which grows to hold it. -/
theorem take_overwrite {xs : List α} {n p : ℕ} {ys : List α} (hp : p ≤ n)
    (h : p + ys.length ≤ xs.length) :
    (overwrite xs p ys).take (max n (p + ys.length)) = overwrite (xs.take n) p ys := by
  have hfront : (xs.take p ++ ys).length = p + ys.length := by
    rw [List.length_append, List.length_take]
    omega
  simp only [overwrite]
  rw [List.take_append, List.take_of_length_le (by omega), hfront, List.take_take,
    Nat.min_eq_left hp, List.drop_take]
  congr 2
  omega

/-- All blocks have length `b`. -/
def Uniform (b : ℕ) (xss : List (List α)) : Prop := ∀ xs ∈ xss, xs.length = b

namespace Uniform

variable {b : ℕ} {xss yss : List (List α)} {xs : List α}

theorem cons_iff : Uniform b (xs :: xss) ↔ xs.length = b ∧ Uniform b xss :=
  List.forall_mem_cons

theorem append (h : Uniform b xss) (h' : Uniform b yss) : Uniform b (xss ++ yss) :=
  List.forall_mem_append.2 ⟨h, h'⟩

theorem drop (h : Uniform b xss) (i : ℕ) : Uniform b (xss.drop i) :=
  fun xs hxs => h xs (List.mem_of_mem_drop hxs)

theorem take (h : Uniform b xss) (i : ℕ) : Uniform b (xss.take i) :=
  fun xs hxs => h xs (List.mem_of_mem_take hxs)

theorem length_flatten (h : Uniform b xss) : xss.flatten.length = xss.length * b := by
  induction xss with
  | nil => simp
  | cons xs xss ih =>
    obtain ⟨hxs, h⟩ := cons_iff.1 h
    rw [List.flatten_cons, List.length_append, hxs, ih h, List.length_cons, Nat.succ_mul,
      Nat.add_comm]

/-- The contents from block `i` on. -/
theorem flatten_drop (h : Uniform b xss) (i : ℕ) :
    (xss.drop i).flatten = xss.flatten.drop (i * b) := by
  induction i generalizing xss with
  | zero => simp
  | succ i ih =>
    cases xss with
    | nil => simp
    | cons xs xss =>
      obtain ⟨hxs, h⟩ := cons_iff.1 h
      rw [List.drop_succ_cons, ih h, List.flatten_cons, Nat.succ_mul, Nat.add_comm, ← hxs,
        List.drop_length_add_append]

theorem flatten_take (h : Uniform b xss) (i : ℕ) :
    (xss.take i).flatten = xss.flatten.take (i * b) := by
  have hsplit := List.take_append_drop (i * b) xss.flatten
  rw [← h.flatten_drop i] at hsplit
  have happend : (xss.take i).flatten ++ (xss.drop i).flatten = xss.flatten := by
    rw [← List.flatten_append, List.take_append_drop]
  exact (List.append_cancel_right (hsplit.trans happend.symm)).symm

end Uniform

/-- The loop that copies `n` elements out, from offset `p` of the first block on.  The second
result is the number of blocks that it has left behind: a block whose end is reached is left. -/
def copyOut : List (List α) → ℕ → ℕ → Option (List α × ℕ)
  | [], _, _ => none
  | xs :: xss, p, n =>
    if n = 0 then some ([], 0)
    else if n ≤ xs.length - p then
      -- the last block; it is left if nothing of it remains
      some ((xs.drop p).take n, if xs.length = p + n then 1 else 0)
    else (copyOut xss 0 (n - (xs.length - p))).map fun r => ((xs.drop p) ++ r.1, r.2 + 1)

/-- The loop that copies `ys` in, from offset `p` of the first block on. -/
def copyIn : List (List α) → ℕ → List α → Option (List (List α) × ℕ)
  | [], _, _ => none
  | xs :: xss, p, ys =>
    if ys.length = 0 then some (xs :: xss, 0)
    else if ys.length ≤ xs.length - p then
      some (overwrite xs p ys :: xss, if xs.length = p + ys.length then 1 else 0)
    else (copyIn xss 0 (ys.drop (xs.length - p))).map fun r =>
      (overwrite xs p (ys.take (xs.length - p)) :: r.1, r.2 + 1)

/-- The loop that goes to position `v`: the number of blocks that it leaves behind. -/
def seek : List (List α) → ℕ → Option ℕ
  | [], _ => none
  | xs :: xss, v =>
    if xs.length < v then (seek xss (v - xs.length)).map (· + 1)
    else some (if v = xs.length then 1 else 0)

section Loops

variable {b : ℕ} {xss : List (List α)}

/-- The block of an offset in the first block and of one in the second. -/
theorem div_of_le {p n : ℕ} (hb : 0 < b) (hp : p < b) (h : n ≤ b - p) :
    (p + n) / b = if b = p + n then 1 else 0 := by
  split_ifs with h'
  · rw [← h', Nat.div_self hb]
  · exact Nat.div_eq_of_lt (by omega)

theorem div_of_lt {p n : ℕ} (hb : 0 < b) (hp : p < b) (h : b - p < n) :
    (p + n) / b = (0 + (n - (b - p))) / b + 1 := by
  rw [show p + n = (0 + (n - (b - p))) + b by omega, Nat.add_div_right _ hb]

theorem copyOut_eq (hb : 0 < b) (h : Uniform b xss) (hne : xss ≠ []) {p n : ℕ} (hp : p < b)
    (hn : p + n ≤ xss.flatten.length) :
    copyOut xss p n = some ((xss.flatten.drop p).take n, (p + n) / b) := by
  -- behind the first block the offset is 0, so the induction is for all offsets and lengths
  induction xss generalizing p n with
  | nil => exact absurd rfl hne
  | cons xs xss ih =>
    obtain ⟨hxs, h⟩ := Uniform.cons_iff.1 h
    simp only [List.flatten_cons, List.length_append, hxs] at hn ⊢
    rw [copyOut, hxs, List.drop_append_of_le_length (by omega)]
    by_cases h0 : n = 0
    · rw [if_pos h0, h0, List.take_zero, Nat.add_zero, Nat.div_eq_of_lt hp]
    · rw [if_neg h0]
      by_cases hle : n ≤ b - p
      · rw [if_pos hle, div_of_le hb hp hle, List.take_append_of_le_length]
        rw [List.length_drop, hxs]
        exact hle
      · rw [if_neg hle]
        have hne : xss ≠ [] := by
          rintro rfl
          simp at hn
          omega
        -- the first block from `p` on, and then what is left from the others
        rw [ih h hne hb (by omega), div_of_lt hb hp (by omega), Option.map_some, List.drop_zero,
          List.take_append, List.length_drop, hxs, List.take_of_length_le (i := n)]
        rw [List.length_drop]
        omega

/-- Where there is not enough, the loop runs out of blocks. -/
theorem copyOut_eq_none (h : Uniform b xss) {p n : ℕ} (hp : p ≤ b) (hpos : 0 < n)
    (hn : xss.flatten.length < p + n) : copyOut xss p n = none := by
  induction xss generalizing p n with
  | nil => rfl
  | cons xs xss ih =>
    obtain ⟨hxs, h⟩ := Uniform.cons_iff.1 h
    rw [List.flatten_cons, List.length_append, hxs] at hn
    rw [copyOut, hxs, if_neg (by omega), if_neg (by omega), ih h (Nat.zero_le b) (by omega)
      (by omega), Option.map_none]

theorem copyIn_eq (hb : 0 < b) (h : Uniform b xss) (hne : xss ≠ []) {p : ℕ} (ys : List α)
    (hp : p < b) (hn : p + ys.length ≤ xss.flatten.length) :
    ∃ yss, copyIn xss p ys = some (yss, (p + ys.length) / b) ∧ Uniform b yss ∧
      yss.length = xss.length ∧ yss.flatten = overwrite xss.flatten p ys := by
  induction xss generalizing p ys with
  | nil => exact absurd rfl hne
  | cons xs xss ih =>
    obtain ⟨hxs, h⟩ := Uniform.cons_iff.1 h
    simp only [List.flatten_cons, List.length_append, hxs] at hn ⊢
    rw [copyIn, hxs]
    by_cases h0 : ys.length = 0
    · rw [if_pos h0, h0, Nat.add_zero, Nat.div_eq_of_lt hp, List.length_eq_zero_iff.1 h0,
        overwrite_nil]
      exact ⟨_, rfl, Uniform.cons_iff.2 ⟨hxs, h⟩, rfl, List.flatten_cons⟩
    · rw [if_neg h0]
      by_cases hle : ys.length ≤ b - p
      · rw [if_pos hle, div_of_le hb hp hle]
        have hroom : p + ys.length ≤ xs.length := by omega
        refine ⟨_, rfl, Uniform.cons_iff.2 ⟨?_, h⟩, rfl, ?_⟩
        · rw [length_overwrite hroom, hxs]
        · rw [List.flatten_cons, overwrite_append_left hroom]
      · rw [if_neg hle]
        have hne : xss ≠ [] := by
          rintro rfl
          simp at hn
          omega
        have hlen : (ys.drop (b - p)).length = ys.length - (b - p) := List.length_drop
        obtain ⟨yss, hcopy, hu, hl, hflat⟩ := ih h hne (ys.drop (b - p)) hb (by omega)
        rw [hcopy, Option.map_some, hlen, div_of_lt hb hp (by omega)]
        refine ⟨_, rfl, Uniform.cons_iff.2 ⟨?_, hu⟩, by simp [hl], ?_⟩
        · rw [length_overwrite, hxs]
          rw [List.length_take]
          omega
        · rw [List.flatten_cons, hflat, overwrite_append (by omega) (by omega), hxs]

theorem seek_eq (hb : 0 < b) (h : Uniform b xss) (hne : xss ≠ []) {v : ℕ}
    (hv : v ≤ xss.flatten.length) : seek xss v = some (v / b) := by
  induction xss generalizing v with
  | nil => exact absurd rfl hne
  | cons xs xss ih =>
    obtain ⟨hxs, h⟩ := Uniform.cons_iff.1 h
    simp only [List.flatten_cons, List.length_append, hxs] at hv
    rw [seek, hxs]
    by_cases hlt : b < v
    · have hne : xss ≠ [] := by
        rintro rfl
        simp at hv
        omega
      have hdiv := div_of_lt (n := v) hb hb (by omega)
      rw [Nat.zero_add, Nat.zero_add, Nat.sub_zero] at hdiv
      rw [if_pos hlt, ih h hne (by omega), Option.map_some, hdiv]
    · have hdiv := div_of_le (n := v) hb hb (by omega)
      rw [Nat.zero_add] at hdiv
      rw [if_neg hlt, hdiv]
      simp only [eq_comm]

end Loops

end Blocks

end YXTWebCpp
