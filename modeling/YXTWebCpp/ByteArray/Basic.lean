import YXTWebCpp.Blocks.Pieces

/-!
# The byte array

A `ByteArray` keeps its bytes in a linked list of nodes of `m_baseSize` bytes.  `m_cur` points to
the node of the current position; it is null when the position is the capacity.

* `ByteArray` : the members.  The nodes are a list, and a pointer to a node is its index.
* `M` : what the methods do: they read and change the array, and may throw.  What has been changed
  before an exception is thrown stays changed.
* `write`, `read`, `readAt`, `setPosition`, `clear`, `toString`, `getReadBuffers` : the methods.
* `Inv` : position, size, capacity and `m_cur` fit together.
* `Tight` : there are no more nodes than the bytes need.
* `write_eq`, `read_eq`, `setPosition_eq`, … : what a method does to the bytes that are stored, and
  that it keeps the invariant.

Sizes are natural numbers: the memory is smaller than `2 ^ 64` bytes.
-/

namespace YXTWebCpp

open Blocks

/-- `YXTWebCpp_LITTLE_ENDIAN` and `YXTWebCpp_BIG_ENDIAN`. -/
inductive Endian where
  | little
  | big
deriving DecidableEq, Repr

/-- `ByteArray`. -/
structure ByteArray where
  /-- `m_baseSize` -/
  baseSize : ℕ
  /-- `m_position` -/
  position : ℕ
  /-- `m_capacity` -/
  capacity : ℕ
  /-- `m_size` -/
  size : ℕ
  /-- `m_endian` -/
  endian : Endian
  /-- The nodes from `m_root` on; the `size` of a node is the length of its block. -/
  blocks : List (List UInt8)
  /-- `m_cur` -/
  cur : Option ℕ
  /-- What the memory holds that `new char[]` is going to return, one node after the other. -/
  mem : ℕ → ℕ → UInt8

namespace ByteArray

/-- What ends a call without a result. -/
inductive Error where
  /-- `std::out_of_range` -/
  | outOfRange (what : String)
  /-- `std::length_error` -/
  | lengthError
  /-- A null pointer is dereferenced; the behaviour is undefined. -/
  | nullPointer
deriving DecidableEq, Repr

/-- The methods. -/
abbrev M := EStateM Error ByteArray

/-- The blocks of the next `count` nodes. -/
def newNodes (s : ByteArray) (count : ℕ) : List (List UInt8) :=
  (List.range count).map fun k => (List.range s.baseSize).map (s.mem k)

/-- `ByteArray::ByteArray`, in memory that holds `mem`. -/
def new (baseSize : ℕ) (mem : ℕ → ℕ → UInt8) : ByteArray where
  baseSize := baseSize
  position := 0
  capacity := baseSize
  size := 0
  endian := .big
  blocks := [(List.range baseSize).map (mem 0)]
  cur := some 0
  mem := fun k => mem (k + 1)

/-- `getPosition` -/
def getPosition (s : ByteArray) : ℕ := s.position

/-- `getSize` -/
def getSize (s : ByteArray) : ℕ := s.size

/-- `getReadSize` -/
def getReadSize (s : ByteArray) : ℕ := s.size - s.position

/-- `getCapacity` -/
def getCapacity (s : ByteArray) : ℕ := s.capacity - s.position

/-- The pointer to a node, null behind the last one. -/
def pointer (s : ByteArray) (i : ℕ) : Option ℕ := if i < s.blocks.length then some i else none

/-- The nodes that are reached from `m_cur`. -/
def nodes (s : ByteArray) : List (List UInt8) :=
  match s.cur with
  | none => []
  | some i => s.blocks.drop i

/-- `m_cur` after `m_cur = m_cur->next` has been executed `k` times. -/
def next (s : ByteArray) (k : ℕ) : Option ℕ := s.cur.bind fun i => s.pointer (i + k)

/-- `count` nodes are put behind the last one; a null `m_cur` is set to the first of them. -/
def grow (s : ByteArray) (count : ℕ) : ByteArray :=
  { s with
    capacity := s.capacity + count * s.baseSize
    blocks := s.blocks ++ s.newNodes count
    cur := if s.getCapacity = 0 then some s.blocks.length else s.cur
    mem := fun k => s.mem (k + count) }

/-- `addCapacity`.  The number of nodes is the quotient rounded up. -/
def addCapacity (s : ByteArray) (size : ℕ) : ByteArray :=
  if size = 0 then s
  else if size ≤ s.getCapacity then s
  else s.grow ((size - s.getCapacity + s.baseSize - 1) / s.baseSize)

/-- `write` -/
def write (buf : List UInt8) : M Unit := fun s =>
  if buf.length = 0 then .ok () s
  else
    let s := s.addCapacity buf.length
    -- `m_cur->size` is read before the loop, and again for every node that the loop goes on to
    match copyIn s.nodes (s.position % s.baseSize) buf with
    | none => .error .nullPointer s
    | some (nodes, k) =>
      .ok () { s with
        position := s.position + buf.length
        size := max s.size (s.position + buf.length)
        blocks := s.blocks.take (s.cur.getD 0) ++ nodes
        cur := s.next k }

/-- `read(buf, size)`: the bytes that are copied to `buf`. -/
def read (size : ℕ) : M (List UInt8) := fun s =>
  if s.getReadSize < size then .error (.outOfRange "not enough len") s
  else
    -- there is no test for `size = 0`: `m_cur->size` is read even then
    match copyOut s.nodes (s.position % s.baseSize) size with
    | none => .error .nullPointer s
    | some (bytes, k) => .ok bytes { s with position := s.position + size, cur := s.next k }

/-- `m_size - position`, computed with `size_t`. -/
def remaining (s : ByteArray) (position : ℕ) : ℕ :=
  if position ≤ s.size then s.size - position else s.size + 2 ^ 64 - position

/-- `read(buf, size, position)`.  It starts at `m_cur`, whatever the position. -/
def readAt (size position : ℕ) : M (List UInt8) := fun s =>
  if s.remaining position < size then .error (.outOfRange "not enough len") s
  else
    match copyOut s.nodes (position % s.baseSize) size with
    | none => .error .nullPointer s
    | some (bytes, _) => .ok bytes s

/-- `setPosition` -/
def setPosition (v : ℕ) : M Unit := fun s =>
  if s.capacity < v then .error (.outOfRange "set_position out of range") s
  else
    -- a position behind the size makes what lies between them readable
    let s := { s with position := v, size := max s.size v }
    match seek s.blocks v with
    | none => .error .nullPointer s
    | some k => .ok () { s with cur := s.pointer k }

/-- `clear`: only the first node stays. -/
def clear : M Unit := fun s =>
  .ok () { s with
    position := 0
    size := 0
    capacity := s.baseSize
    blocks := s.blocks.take 1
    cur := some 0 }

/-- `toString` -/
def toString : M (List UInt8) := fun s =>
  if s.getReadSize = 0 then .ok [] s else readAt s.getReadSize s.position s

/-- `struct iovec`: `len` bytes from offset `offset` of a node on. -/
structure IOVec where
  /-- The node, and the offset in it, that `iov_base` points to. -/
  node : ℕ
  offset : ℕ
  /-- `iov_len` -/
  len : ℕ
deriving DecidableEq, Repr

/-- The loop of `getReadBuffers`: the buffers for `len` bytes from offset `npos` of node `i` on. -/
def iovecs : ℕ → List (List UInt8) → ℕ → ℕ → Option (List IOVec)
  | _, [], _, _ => none
  | i, node :: nodes, npos, len =>
    if len = 0 then some []
    else if len ≤ node.length - npos then some [⟨i, npos, len⟩]
    else (iovecs (i + 1) nodes 0 (len - (node.length - npos))).map
      (⟨i, npos, node.length - npos⟩ :: ·)

/-- `getReadBuffers(buffers, len)`: what is pushed to `buffers`, and the result. -/
def getReadBuffers (len : ℕ) : M (List IOVec × ℕ) := fun s =>
  let len := if s.getReadSize < len then s.getReadSize else len
  if len = 0 then .ok ([], 0) s
  else
    match iovecs (s.cur.getD 0) s.nodes (s.position % s.baseSize) len with
    | none => .error .nullPointer s
    | some buffers => .ok (buffers, len) s

/-- The bytes in a buffer. -/
def IOVec.bytes (blocks : List (List UInt8)) (v : IOVec) : List UInt8 :=
  ((blocks.getD v.node []).drop v.offset).take v.len

/-- A buffer is a piece of a block. -/
def IOVec.piece (v : IOVec) : Piece := ⟨v.node, v.offset, v.len⟩

/-- The bytes in some buffers, one after the other. -/
def gather (s : ByteArray) (buffers : List IOVec) : List UInt8 :=
  buffers.flatMap (IOVec.bytes s.blocks)

/-! ### What is stored -/

/-- The bytes that are stored. -/
def data (s : ByteArray) : List UInt8 := s.blocks.flatten.take s.size

/-- Position, size, capacity and `m_cur` fit together. -/
structure Inv (s : ByteArray) : Prop where
  base_pos : 0 < s.baseSize
  uniform : Uniform s.baseSize s.blocks
  capacity_eq : s.capacity = s.blocks.length * s.baseSize
  root : s.blocks ≠ []
  position_le : s.position ≤ s.size
  size_le : s.size ≤ s.capacity
  cur_eq : s.cur = s.pointer (s.position / s.baseSize)

/-- No node is empty, the first one apart. -/
def Tight (s : ByteArray) : Prop := s.capacity = s.baseSize ∨ s.capacity < s.size + s.baseSize

namespace Inv

variable {s : ByteArray}

theorem length_flatten (h : s.Inv) : s.blocks.flatten.length = s.capacity := by
  rw [h.uniform.length_flatten, h.capacity_eq]

@[simp] theorem length_data (h : s.Inv) : s.data.length = s.size := by
  rw [data, List.length_take, h.length_flatten]
  exact Nat.min_eq_left h.size_le

/-- A position is in a node if it is below the capacity. -/
theorem div_lt_iff (h : s.Inv) (p : ℕ) : p / s.baseSize < s.blocks.length ↔ p < s.capacity := by
  rw [Nat.div_lt_iff_lt_mul h.base_pos, h.capacity_eq]

theorem cur_of_lt (h : s.Inv) (hlt : s.position < s.capacity) :
    s.cur = some (s.position / s.baseSize) := by
  rw [h.cur_eq, pointer, if_pos ((h.div_lt_iff _).2 hlt)]

/-- `m_cur` is null exactly if the position is the capacity. -/
theorem cur_eq_none_iff (h : s.Inv) : s.cur = none ↔ s.position = s.capacity := by
  have := h.position_le
  have := h.size_le
  rw [h.cur_eq, pointer]
  by_cases hlt : s.position < s.capacity
  · rw [if_pos ((h.div_lt_iff _).2 hlt)]
    exact iff_of_false nofun (by omega)
  · rw [if_neg (mt (h.div_lt_iff _).1 hlt)]
    exact iff_of_true rfl (by omega)

theorem nodes_of_lt (h : s.Inv) (hlt : s.position < s.capacity) :
    s.nodes = s.blocks.drop (s.position / s.baseSize) := by
  rw [nodes, h.cur_of_lt hlt]

/-- The nodes from `m_cur` on hold what is stored from the position on. -/
theorem flatten_nodes (h : s.Inv) (hlt : s.position < s.capacity) :
    s.nodes.flatten.drop (s.position % s.baseSize) = s.blocks.flatten.drop s.position := by
  rw [h.nodes_of_lt hlt, h.uniform.flatten_drop, List.drop_drop, Nat.mul_comm, Nat.div_add_mod]

theorem nodes_ne_nil (h : s.Inv) (hlt : s.position < s.capacity) : s.nodes ≠ [] := by
  rw [h.nodes_of_lt hlt]
  intro hnil
  have := List.drop_eq_nil_iff.1 hnil
  have := (h.div_lt_iff _).2 hlt
  omega

theorem length_flatten_nodes (h : s.Inv) (hlt : s.position < s.capacity) :
    s.nodes.flatten.length = s.capacity - s.position + s.position % s.baseSize := by
  have hlen := congrArg List.length (h.flatten_nodes hlt)
  rw [List.length_drop, List.length_drop, h.length_flatten] at hlen
  omega

theorem uniform_nodes (h : s.Inv) (hlt : s.position < s.capacity) :
    Uniform s.baseSize s.nodes := by
  rw [h.nodes_of_lt hlt]
  exact h.uniform.drop _

theorem mod_lt (h : s.Inv) : s.position % s.baseSize < s.baseSize := Nat.mod_lt _ h.base_pos

/-- Where `m_cur` is after `n` bytes. -/
theorem next_eq (h : s.Inv) (hlt : s.position < s.capacity) (n : ℕ) :
    s.next ((s.position % s.baseSize + n) / s.baseSize) =
      s.pointer ((s.position + n) / s.baseSize) := by
  have hdiv : (s.position + n) / s.baseSize =
      s.position / s.baseSize + (s.position % s.baseSize + n) / s.baseSize := by
    conv_lhs => rw [← Nat.div_add_mod s.position s.baseSize, Nat.add_assoc]
    rw [Nat.mul_add_div h.base_pos]
  rw [next, h.cur_of_lt hlt, Option.bind_some, hdiv]

/-- Another position, with its node. -/
theorem seek (h : s.Inv) {v : ℕ} (hv : v ≤ s.capacity) :
    ({ s with
      position := v
      size := max s.size v
      cur := s.pointer (v / s.baseSize) } : ByteArray).Inv :=
  { h with
    position_le := Nat.le_max_right _ _
    size_le := Nat.max_le.2 ⟨h.size_le, hv⟩
    cur_eq := rfl }

/-- Another position up to the size, with its node. -/
theorem move (h : s.Inv) {p : ℕ} (hp : p ≤ s.size) :
    ({ s with position := p, cur := s.pointer (p / s.baseSize) } : ByteArray).Inv :=
  { h with position_le := hp, cur_eq := rfl }

end Inv

theorem inv_new {b : ℕ} (hb : 1 ≤ b) (mem : ℕ → ℕ → UInt8) : (new b mem).Inv where
  base_pos := hb
  uniform := by simp [Uniform, new]
  capacity_eq := by simp [new]
  root := by simp [new]
  position_le := le_rfl
  size_le := Nat.zero_le _
  cur_eq := by simp [new, pointer]

@[simp] theorem data_new (b : ℕ) (mem : ℕ → ℕ → UInt8) : (new b mem).data = [] := by
  simp [data, new]

/-! ### Growing -/

section AddCapacity

variable {s : ByteArray} (n : ℕ)

@[simp] theorem addCapacity_baseSize : (s.addCapacity n).baseSize = s.baseSize := by
  rw [addCapacity]
  split_ifs <;> rfl

@[simp] theorem addCapacity_position : (s.addCapacity n).position = s.position := by
  rw [addCapacity]
  split_ifs <;> rfl

@[simp] theorem addCapacity_size : (s.addCapacity n).size = s.size := by
  rw [addCapacity]
  split_ifs <;> rfl

@[simp] theorem addCapacity_endian : (s.addCapacity n).endian = s.endian := by
  rw [addCapacity]
  split_ifs <;> rfl

theorem uniform_newNodes (s : ByteArray) (count : ℕ) : Uniform s.baseSize (s.newNodes count) := by
  intro xs hxs
  obtain ⟨k, -, rfl⟩ := List.mem_map.1 hxs
  simp

@[simp] theorem length_newNodes (s : ByteArray) (count : ℕ) :
    (s.newNodes count).length = count := by
  simp [newNodes]

variable {n}

/-- The quotient that is rounded up: enough, and less than one node too much. -/
theorem ceil_div {b : ℕ} (hb : 0 < b) (n : ℕ) :
    n ≤ (n + b - 1) / b * b ∧ (n + b - 1) / b * b < n + b := by
  have hdiv := Nat.div_add_mod (n + b - 1) b
  have hmod := Nat.mod_lt (n + b - 1) hb
  rw [Nat.mul_comm] at hdiv
  omega

theorem Inv.grow (h : s.Inv) {count : ℕ} (hpos : 0 < count) : (s.grow count).Inv := by
  have hposition := h.position_le
  have hsize := h.size_le
  refine ⟨h.base_pos, h.uniform.append (uniform_newNodes s count), ?_, ?_, hposition, ?_, ?_⟩
  · simp only [ByteArray.grow, List.length_append, length_newNodes, Nat.add_mul, h.capacity_eq]
  · exact List.append_ne_nil_of_left_ne_nil h.root _
  · exact Nat.le_add_right_of_le hsize
  · -- a null `m_cur` is at the end of the old nodes, where the new ones begin
    simp only [ByteArray.grow, pointer, List.length_append, length_newNodes]
    by_cases hcap : s.getCapacity = 0
    · have hend : s.position = s.blocks.length * s.baseSize := by
        rw [← h.capacity_eq]
        rw [getCapacity] at hcap
        omega
      rw [if_pos hcap, hend, Nat.mul_div_cancel _ h.base_pos, if_pos (by omega)]
    · have hlt : s.position < s.capacity := by
        rw [getCapacity] at hcap
        omega
      have hdiv := (h.div_lt_iff _).2 hlt
      rw [if_neg hcap, h.cur_of_lt hlt, if_pos (by omega)]

theorem Inv.addCapacity (h : s.Inv) (n : ℕ) : (s.addCapacity n).Inv := by
  rw [ByteArray.addCapacity]
  split_ifs with h0 hle
  · exact h
  · exact h
  · have := h.base_pos
    exact h.grow (Nat.div_pos (by omega) h.base_pos)

theorem Inv.addCapacity_data (h : s.Inv) (n : ℕ) : (s.addCapacity n).data = s.data := by
  rw [ByteArray.addCapacity]
  split_ifs with h0 hle
  · rfl
  · rfl
  · have hsize := h.size_le
    rw [← h.length_flatten] at hsize
    simp only [data, ByteArray.grow, List.flatten_append]
    rw [List.take_append_of_le_length hsize]

/-- There is room for `n` bytes, and not much more unless there was room before. -/
theorem Inv.addCapacity_capacity (h : s.Inv) (hn : 0 < n) :
    s.position + n ≤ (s.addCapacity n).capacity ∧
      ((s.addCapacity n).capacity = s.capacity ∨
        (s.addCapacity n).capacity < s.position + n + s.baseSize) := by
  have hposition := h.position_le
  have hsize := h.size_le
  rw [ByteArray.addCapacity, if_neg (by omega)]
  by_cases hle : n ≤ s.getCapacity
  · rw [if_pos hle]
    simp only [getCapacity] at hle
    exact ⟨by omega, .inl rfl⟩
  · rw [if_neg hle]
    have hceil := ceil_div h.base_pos (n - s.getCapacity)
    simp only [ByteArray.grow, getCapacity] at hle hceil ⊢
    omega

end AddCapacity

/-! ### The methods -/

section Methods

variable {s : ByteArray}

/-- Where there is room, the loop of `write` overwrites the bytes at the position. -/
theorem Inv.copyIn_eq (h : s.Inv) (buf : List UInt8) (hlt : s.position < s.capacity)
    (hroom : s.position + buf.length ≤ s.capacity) :
    ∃ nodes, copyIn s.nodes (s.position % s.baseSize) buf =
        some (nodes, (s.position % s.baseSize + buf.length) / s.baseSize) ∧
      Uniform s.baseSize (s.blocks.take (s.cur.getD 0) ++ nodes) ∧
      (s.blocks.take (s.cur.getD 0) ++ nodes).length = s.blocks.length ∧
      (s.blocks.take (s.cur.getD 0) ++ nodes).flatten =
        overwrite s.blocks.flatten s.position buf := by
  obtain ⟨nodes, hcopy, hu, hlen, hflat⟩ := Blocks.copyIn_eq h.base_pos
    (h.uniform_nodes hlt) (h.nodes_ne_nil hlt) buf h.mod_lt
    (by rw [h.length_flatten_nodes hlt]; omega)
  rw [h.cur_of_lt hlt, Option.getD_some]
  refine ⟨nodes, hcopy, (h.uniform.take _).append hu, ?_, ?_⟩
  · rw [List.length_append, hlen, h.nodes_of_lt hlt, List.length_take, List.length_drop]
    omega
  · have hfront : (s.blocks.take (s.position / s.baseSize)).flatten.length +
        s.position % s.baseSize = s.position := by
      rw [h.uniform.flatten_take, List.length_take, h.length_flatten,
        Nat.min_eq_left (Nat.le_trans (Nat.div_mul_le_self _ _) hlt.le), Nat.mul_comm,
        Nat.div_add_mod]
    rw [List.flatten_append, hflat, ← overwrite_append_right, hfront, ← List.flatten_append,
      h.nodes_of_lt hlt, List.take_append_drop]

/-- `write` stores the bytes at the position, and moves behind them. -/
theorem Inv.write_eq (h : s.Inv) (buf : List UInt8) :
    ∃ s', write buf s = .ok () s' ∧ s'.Inv ∧ s'.data = overwrite s.data s.position buf ∧
      s'.position = s.position + buf.length ∧ s'.baseSize = s.baseSize ∧ s'.endian = s.endian ∧
      (s.Tight → s'.Tight) := by
  by_cases hnil : buf.length = 0
  · refine ⟨s, by rw [write, if_pos hnil], h, ?_⟩
    simp [List.length_eq_zero_iff.1 hnil]
  · obtain ⟨hroom, htight⟩ := h.addCapacity_capacity (n := buf.length) (by omega)
    have hg := h.addCapacity buf.length
    have hsize := hg.size_le
    have hlt : (s.addCapacity buf.length).position < (s.addCapacity buf.length).capacity := by
      rw [addCapacity_position]
      omega
    obtain ⟨nodes, hcopy, hu, hlen, hflat⟩ :=
      hg.copyIn_eq buf hlt (by rwa [addCapacity_position])
    rw [write, if_neg hnil]
    simp only [hcopy, hg.next_eq hlt]
    -- the invariant, then the bytes, then what does not change
    refine ⟨_, rfl, ⟨hg.base_pos, hu, ?_, ?_, Nat.le_max_right _ _, ?_, ?_⟩, ?_,
      ?_, addCapacity_baseSize _, addCapacity_endian _, ?_⟩
    · simp only [hlen, hg.capacity_eq]
    · exact List.ne_nil_of_length_pos (hlen ▸ List.length_pos_of_ne_nil hg.root)
    · simp only [Nat.max_le, addCapacity_position]
      exact ⟨hsize, hroom⟩
    · simp only [pointer, hlen]
    · simp only [data, hflat]
      rw [take_overwrite hg.position_le]
      · rw [addCapacity_position, ← data, h.addCapacity_data, data]
      · rw [hg.length_flatten, addCapacity_position]
        exact hroom
    · simp only [addCapacity_position]
    · simp only [Tight, addCapacity_position, addCapacity_size, addCapacity_baseSize]
      omega

/-- `read` returns the bytes at the position, and moves behind them. -/
theorem Inv.read_eq (h : s.Inv) (hlt : s.position < s.capacity) {n : ℕ} (hn : n ≤ s.getReadSize) :
    read n s = .ok ((s.data.drop s.position).take n)
      { s with position := s.position + n, cur := s.pointer ((s.position + n) / s.baseSize) } := by
  have hposition := h.position_le
  have hsize := h.size_le
  rw [getReadSize] at hn
  have hcopy := copyOut_eq h.base_pos (h.uniform_nodes hlt) (h.nodes_ne_nil hlt) h.mod_lt
    (n := n) (by rw [h.length_flatten_nodes hlt]; omega)
  rw [read, if_neg (by rw [getReadSize]; omega), hcopy]
  simp only [h.next_eq hlt, h.flatten_nodes hlt, data, List.drop_take, List.take_take,
    Nat.min_eq_left hn]

/-- At the end of the capacity there is no node to read from, not even nothing. -/
theorem Inv.read_zero_eq_error (h : s.Inv) (hend : s.position = s.capacity) :
    read 0 s = .error .nullPointer s := by
  simp [read, nodes, h.cur_eq_none_iff.2 hend, copyOut]

theorem read_eq_error {n : ℕ} (hn : s.getReadSize < n) :
    read n s = .error (.outOfRange "not enough len") s := by
  rw [read, if_pos hn]

/-- Every position up to the capacity can be set; what lies between it and the size is readable
then. -/
theorem Inv.setPosition_ok (h : s.Inv) {v : ℕ} (hv : v ≤ s.capacity) :
    setPosition v s =
      .ok () { s with
        position := v
        size := max s.size v
        cur := s.pointer (v / s.baseSize) } := by
  have hseek := seek_eq h.base_pos h.uniform h.root (v := v) (by rwa [h.length_flatten])
  rw [setPosition, if_neg (Nat.not_lt.2 hv)]
  simp only [hseek]
  rfl

/-- `setPosition` with a position up to the size changes nothing but the position. -/
theorem Inv.setPosition_eq (h : s.Inv) {v : ℕ} (hv : v ≤ s.size) :
    setPosition v s = .ok () { s with position := v, cur := s.pointer (v / s.baseSize) } := by
  rw [h.setPosition_ok (hv.trans h.size_le), Nat.max_eq_left hv]

theorem Inv.setPosition_self (h : s.Inv) : setPosition s.position s = .ok () s := by
  rw [h.setPosition_eq h.position_le, ← h.cur_eq]

theorem Inv.clear_eq (h : s.Inv) :
    ∃ s', clear s = .ok () s' ∧ s'.Inv ∧ s'.data = [] ∧ s'.position = 0 := by
  refine ⟨_, rfl, ⟨h.base_pos, h.uniform.take 1, ?_, ?_, le_rfl, Nat.zero_le _, ?_⟩, ?_, rfl⟩
  · have := List.length_pos_of_ne_nil h.root
    simp only [List.length_take]
    rw [Nat.min_eq_left this, Nat.one_mul]
  · simp [h.root]
  · simp [pointer, h.root]
  · simp [data]

/-- `toString` returns what is left to read. -/
theorem Inv.toString_eq (h : s.Inv) : toString s = .ok (s.data.drop s.position) s := by
  have hposition := h.position_le
  have hsize := h.size_le
  rw [toString]
  by_cases h0 : s.getReadSize = 0
  · rw [if_pos h0, List.drop_eq_nil_of_le]
    rw [h.length_data]
    rw [getReadSize] at h0
    omega
  · rw [if_neg h0]
    rw [getReadSize] at h0
    have hlt : s.position < s.capacity := by omega
    have hcopy := copyOut_eq h.base_pos (h.uniform_nodes hlt) (h.nodes_ne_nil hlt) h.mod_lt
      (n := s.size - s.position) (by rw [h.length_flatten_nodes hlt]; omega)
    rw [readAt, remaining, if_pos hposition, getReadSize, if_neg (lt_irrefl _), hcopy]
    simp only [h.flatten_nodes hlt, data, List.drop_take]

/-- The buffers that the loop of `getReadBuffers` makes cover the range, block by block. -/
theorem iovecs_tiles {b i : ℕ} {nodes : List (List UInt8)} (hb : 0 < b) (hu : Uniform b nodes)
    {npos len : ℕ} (hpos : npos < b) (hpositive : 0 < len)
    (hlen : npos + len ≤ nodes.flatten.length) :
    ∃ buffers, iovecs i nodes npos len = some buffers ∧
      Tiles b (i * b + npos) (buffers.map IOVec.piece) (i * b + npos + len) ∧
      buffers.length = (npos + len - 1) / b + 1 := by
  induction nodes generalizing i npos len with
  | nil =>
    simp at hlen
    omega
  | cons node nodes ih =>
    obtain ⟨hnode, hu⟩ := Uniform.cons_iff.1 hu
    simp only [List.flatten_cons, List.length_append, hnode] at hlen
    rw [iovecs, if_neg (Nat.ne_of_gt hpositive), hnode]
    by_cases hle : len ≤ b - npos
    · rw [if_pos hle]
      refine ⟨_, rfl, ⟨rfl, ?_, hpositive, rfl⟩, ?_⟩
      · simp only [IOVec.piece]
        omega
      · rw [Nat.div_eq_of_lt (by omega)]
        rfl
    · rw [if_neg hle]
      -- the next buffer begins where the next block does
      obtain ⟨buffers, hbuf, htiles, hcount⟩ := ih hu hb (i := i + 1)
        (show 0 < len - (b - npos) by omega) (by omega)
      have hnext : (i + 1) * b + 0 = i * b + npos + (b - npos) := by
        rw [Nat.succ_mul]
        omega
      have hend : (i + 1) * b + 0 + (len - (b - npos)) = i * b + npos + len := by
        rw [hnext]
        omega
      rw [hend, hnext] at htiles
      rw [hbuf]
      refine ⟨_, rfl, ⟨rfl, ?_, ?_, htiles⟩, ?_⟩
      · simp only [IOVec.piece]
        omega
      · simp only [IOVec.piece]
        omega
      · have hdiv : (npos + len - 1) / b = (0 + (len - (b - npos)) - 1) / b + 1 := by
          rw [← Nat.add_div_right _ hb]
          congr 1
          omega
        rw [List.length_cons, hcount, hdiv]

theorem Inv.iovecs_tiles (h : s.Inv) {p len : ℕ} (hpositive : 0 < len)
    (hlen : p + len ≤ s.capacity) :
    ∃ buffers, iovecs (p / s.baseSize) (s.blocks.drop (p / s.baseSize)) (p % s.baseSize) len =
        some buffers ∧
      Tiles s.baseSize p (buffers.map IOVec.piece) (p + len) ∧
      buffers.length = (p % s.baseSize + len - 1) / s.baseSize + 1 := by
  have hsplit : p / s.baseSize * s.baseSize + p % s.baseSize = p := by
    rw [Nat.mul_comm, Nat.div_add_mod]
  have hroom : p % s.baseSize + len ≤ (s.blocks.drop (p / s.baseSize)).flatten.length := by
    rw [h.uniform.flatten_drop, List.length_drop, h.length_flatten]
    omega
  have htiles := ByteArray.iovecs_tiles (i := p / s.baseSize) h.base_pos (h.uniform.drop _)
    (Nat.mod_lt _ h.base_pos) hpositive hroom
  rwa [hsplit] at htiles

/-- What buffers hold that cover a range. -/
theorem Inv.gather_eq (h : s.Inv) {buffers : List IOVec} {p q : ℕ}
    (htiles : Tiles s.baseSize p (buffers.map IOVec.piece) q) (hq : q ≤ s.size) :
    s.gather buffers = (s.data.drop p).take (q - p) := by
  have hread := htiles.flatMap_read h.uniform
  rw [List.flatMap_map] at hread
  rw [data, List.drop_take, List.take_take, Nat.min_eq_left (by omega), ← hread]
  rfl

/-- The buffers of `getReadBuffers` cover what there is of the range at the position. -/
theorem Inv.getReadBuffers_tiles (h : s.Inv) (len : ℕ) (hpos : 0 < min s.getReadSize len) :
    ∃ buffers, getReadBuffers len s = .ok (buffers, min s.getReadSize len) s ∧
      Tiles s.baseSize s.position (buffers.map IOVec.piece)
        (s.position + min s.getReadSize len) ∧
      buffers.length = (s.position % s.baseSize + min s.getReadSize len - 1) / s.baseSize + 1 := by
  have hsize := h.size_le
  have hroom : s.position + min s.getReadSize len ≤ s.capacity := by
    rw [getReadSize] at hpos ⊢
    omega
  obtain ⟨buffers, hbuf, htiles, hcount⟩ := h.iovecs_tiles hpos hroom
  have hlt : s.position < s.capacity := by omega
  refine ⟨buffers, ?_, htiles, hcount⟩
  simp only [getReadBuffers, ← min_def_lt]
  rw [if_neg (Nat.ne_of_gt hpos), h.cur_of_lt hlt, Option.getD_some, h.nodes_of_lt hlt, hbuf]

/-- The buffers of `getReadBuffers` hold the bytes at the position. -/
theorem Inv.getReadBuffers_eq (h : s.Inv) (len : ℕ) :
    ∃ buffers, getReadBuffers len s = .ok (buffers, min s.getReadSize len) s ∧
      s.gather buffers = (s.data.drop s.position).take len := by
  have hposition := h.position_le
  have htake : (s.data.drop s.position).take len =
      (s.data.drop s.position).take (min s.getReadSize len) := by
    rw [List.take_eq_take_iff, List.length_drop, h.length_data, getReadSize]
    omega
  -- both sides are capped by what is left to read
  rw [htake]
  by_cases h0 : min s.getReadSize len = 0
  · simp only [getReadBuffers, ← min_def_lt, h0, if_true]
    exact ⟨[], rfl, by simp [gather]⟩
  · obtain ⟨buffers, hok, htiles, -⟩ := h.getReadBuffers_tiles len (Nat.pos_of_ne_zero h0)
    refine ⟨buffers, hok, ?_⟩
    rw [h.gather_eq htiles (by rw [getReadSize]; omega), Nat.add_sub_cancel_left]

end Methods

end ByteArray

end YXTWebCpp
