import YXTWebCpp.ByteArray.Reachable

/-!
# Reading at a position

`read(buf, size, position)` and `getReadBuffers(buffers, len, position)` are given a position of
their own, and the cursor should not matter to them.  It does: the first one starts at the node of
the cursor, and the second one returns as many bytes as there are behind the cursor.  `read(buf,
size)` reads at the cursor; it looks at the node there even if it is to read nothing.

* `Advances`, `ReadsAt`, `BuffersAt` : what is expected of the three methods.
* `advances_iff` : **when `read` returns.**
* `readsAt_iff` : **when `read` at a position is right.**
* `buffersAt_iff` : **when `getReadBuffers` at a position is right.**
-/

namespace YXTWebCpp

namespace ByteArray

open Blocks

/-- `getReadBuffers(buffers, len, position)`.  What there is to read is counted from the cursor on,
whatever the position. -/
def getReadBuffersAt (len position : ℕ) : M (List IOVec × ℕ) := fun s =>
  let len := if s.getReadSize < len then s.getReadSize else len
  if len = 0 then .ok ([], 0) s
  else
    -- `cur` is `m_root`, and then `cur->next` as often as blocks are to be skipped
    let count := position / s.baseSize
    match iovecs count (s.blocks.drop count) (position % s.baseSize) len with
    | none => .error .nullPointer s
    | some buffers => .ok (buffers, len) s

variable {b : ℕ} {s : ByteArray} {size len position : ℕ}

/-! ### At the cursor -/

/-- `read` returns, and the position is advanced. -/
def Advances (s : ByteArray) (size : ℕ) : Prop :=
  ∃ bytes s', read size s = .ok bytes s' ∧ s'.getPosition = s.getPosition + size

/-- `read` returns if it is to read something, or if there is a node at the cursor. -/
theorem advances_iff (hb : 1 ≤ b) (hs : (calls b).Reachable s) (hsize : size ≤ s.getReadSize) :
    s.Advances size ↔ 0 < size ∨ 0 < s.getCapacity := by
  obtain ⟨h, -⟩ := inv_of_reachable hb hs
  have hposition := h.position_le
  have hcapacity := h.size_le
  rw [getCapacity]
  obtain ⟨hlt, -⟩ | ⟨h0, hend, hr⟩ | ⟨-, hlt, hr⟩ := h.read_cases size
  · exact absurd hlt (not_lt.2 hsize)
  · refine iff_of_false ?_ (by omega)
    rintro ⟨bytes, s', hok, -⟩
    rw [hr] at hok
    cases hok
  · exact iff_of_true ⟨_, _, hr, rfl⟩ (.inr (by omega))

/-- An array of base size 2 after an empty string has been written with `writeStringF16`: the length
fills the only node. -/
def full : ByteArray where
  baseSize := 2
  position := 2
  capacity := 2
  size := 2
  endian := .big
  blocks := [[0, 0]]
  cur := none
  mem := fun _ _ => 0

theorem reachable_full : (calls 2).Reachable full := by
  have hrun : (calls 2).run (fun _ _ => True) (new 2 fun _ _ => 0)
      [.write [0, 0]] = some full := rfl
  exact System.reachableWhen_of_run ⟨_, rfl⟩ hrun

theorem advances_iff_full : full.Advances 0 ↔ 0 < 0 ∨ 0 < full.getCapacity :=
  advances_iff (by decide) reachable_full (by decide)

/-- Nothing is to be read there, and `read` fails; so does the read of the empty string. -/
theorem not_advances_full :
    (¬ ∀ b s size, 1 ≤ b → (calls b).Reachable s → size ≤ s.getReadSize → s.Advances size) ∧
      writeStringF16 [] (new 2 fun _ _ => 0) = .ok () full ∧
      readStringF16 { full with position := 0, cur := some 0 } = .error .nullPointer full := by
  refine ⟨fun h => ?_, rfl, rfl⟩
  obtain ⟨bytes, s', hok, -⟩ := h 2 full 0 (by decide) reachable_full (by decide)
  cases hok

/-! ### `read` at a position -/

/-- `read` at a position returns the bytes from there on, or throws if they are not all there, and
it changes nothing. -/
def ReadsAt (s : ByteArray) (size position : ℕ) : Prop :=
  readAt size position s =
    if s.getSize < position + size then .error (.outOfRange "not enough len") s
    else .ok ((s.data.drop position).take size) s

/-- Where `read` at a position begins: at the right offset of the node of the cursor. -/
def startAt (s : ByteArray) (position : ℕ) : ℕ :=
  s.getPosition / s.baseSize * s.baseSize + position % s.baseSize

theorem startAt_eq (hdiv : position / s.baseSize = s.getPosition / s.baseSize) :
    s.startAt position = position := by
  rw [startAt, ← hdiv, Nat.mul_comm, Nat.div_add_mod]

/-- What `read` at a position does, if its test is passed. -/
theorem Inv.readAt_eq (h : s.Inv) (hlt : s.position < s.capacity)
    (hsize : size ≤ s.remaining position) :
    readAt size position s =
      if size = 0 ∨ s.startAt position + size ≤ s.capacity then
        .ok ((s.blocks.flatten.drop (s.startAt position)).take size) s
      else .error .nullPointer s := by
  have hmod : position % s.baseSize < s.baseSize := Nat.mod_lt _ h.base_pos
  have hflat : s.nodes.flatten.drop (position % s.baseSize) =
      s.blocks.flatten.drop (s.startAt position) := by
    rw [h.nodes_of_lt hlt, h.uniform.flatten_drop, List.drop_drop, startAt, getPosition]
  have hlen : s.nodes.flatten.length = s.capacity - s.position / s.baseSize * s.baseSize := by
    rw [h.nodes_of_lt hlt, h.uniform.flatten_drop, List.length_drop, h.length_flatten]
  -- the node of the cursor is there
  have hnode : s.position / s.baseSize * s.baseSize + s.baseSize ≤ s.capacity := by
    rw [← Nat.succ_mul, h.capacity_eq]
    exact Nat.mul_le_mul_right _ ((h.div_lt_iff _).2 hlt)
  have hstart : s.startAt position =
      s.position / s.baseSize * s.baseSize + position % s.baseSize := rfl
  rw [readAt, if_neg (not_lt.2 hsize)]
  split_ifs with hfits
  · rw [copyOut_eq h.base_pos (h.uniform_nodes hlt) (h.nodes_ne_nil hlt) hmod
      (by rw [hlen]; omega)]
    simp only [hflat]
  · rw [copyOut_eq_none (h.uniform_nodes hlt) hmod.le (by omega) (by rw [hlen]; omega)]

/-- When `read` at a position is right.  If it should throw, the difference of size and position
must not wrap around to a large number.  If it should not, there must be a node at the cursor, and
what is read from there must be what is asked for: the position is in this node, or the bytes are
the same by chance. -/
def ReadableAt (s : ByteArray) (size position : ℕ) : Prop :=
  if s.getSize < position + size then
    position ≤ s.getSize ∨ s.getSize + 2 ^ 64 < position + size
  else
    0 < s.getCapacity ∧
      (size = 0 ∨ position / s.baseSize = s.getPosition / s.baseSize ∨
        (s.blocks.flatten.drop (s.startAt position)).take size = (s.data.drop position).take size)

/-- The exception is thrown exactly if the test fails, with the difference as it is computed. -/
theorem readAt_throws_iff (s : ByteArray) (hposition : position < 2 ^ 64)
    (hshort : s.size < position + size) :
    readAt size position s = .error (.outOfRange "not enough len") s ↔
      position ≤ s.size ∨ s.size + 2 ^ 64 < position + size := by
  have htest : s.remaining position < size ↔
      position ≤ s.size ∨ s.size + 2 ^ 64 < position + size := by
    rw [remaining]
    split_ifs <;> omega
  rw [← htest, readAt]
  split_ifs with hthrows
  · exact iff_of_true rfl hthrows
  · refine iff_of_false ?_ hthrows
    cases copyOut s.nodes (position % s.baseSize) size with
    | none => simp
    | some r => simp

/-- The bytes at the position are returned exactly if there is a node at the cursor and they are
what is read from there. -/
theorem Inv.readAt_ok_iff (h : s.Inv) (hfits : position + size ≤ s.size) :
    readAt size position s = .ok ((s.data.drop position).take size) s ↔
      0 < s.getCapacity ∧
        (size = 0 ∨ position / s.baseSize = s.getPosition / s.baseSize ∨
          (s.blocks.flatten.drop (s.startAt position)).take size =
            (s.data.drop position).take size) := by
  have hcursor := h.position_le
  have hcapacity := h.size_le
  have htest : size ≤ s.remaining position := by
    rw [remaining, if_pos (by omega)]
    omega
  rw [getCapacity, getPosition]
  by_cases hlt : s.position < s.capacity
  · have hwanted : ((s.data.drop position).take size).length = size := by
      rw [List.length_take, List.length_drop, h.length_data]
      omega
    rw [h.readAt_eq hlt htest, and_iff_right (Nat.sub_pos_of_lt hlt)]
    split_ifs with hroom
    · simp only [EStateM.Result.ok.injEq, and_true]
      refine ⟨fun heq => .inr (.inr heq), ?_⟩
      rintro (rfl | hdiv | heq)
      · rw [List.take_zero, List.take_zero]
      · rw [startAt_eq hdiv, data, List.drop_take, List.take_take, Nat.min_eq_left (by omega)]
      · exact heq
    · -- too far behind the cursor: there are not so many bytes as are asked for
      rw [not_or] at hroom
      refine iff_of_false (by simp) ?_
      rintro (h0 | hdiv | heq)
      · exact hroom.1 h0
      · rw [startAt_eq hdiv] at hroom
        omega
      · have hlen := congrArg List.length heq
        rw [hwanted, List.length_take, List.length_drop, h.length_flatten] at hlen
        omega
  · -- there is no node at the cursor
    refine iff_of_false ?_ (by omega)
    have hnone : s.cur = none := h.cur_eq_none_iff.2 (by omega)
    rw [readAt, if_neg (not_lt.2 htest), nodes, hnone]
    simp [copyOut]

theorem readsAt_iff (hb : 1 ≤ b) (hs : (calls b).Reachable s) (hposition : position < 2 ^ 64) :
    s.ReadsAt size position ↔ s.ReadableAt size position := by
  rw [ReadsAt, ReadableAt]
  split_ifs with hshort
  · exact readAt_throws_iff s hposition hshort
  · exact (inv_of_reachable hb hs).1.readAt_ok_iff (not_lt.1 hshort)

/-- Four bytes in two nodes, and the cursor in front of them. -/
def four : ByteArray where
  baseSize := 2
  position := 0
  capacity := 4
  size := 4
  endian := .big
  blocks := [[1, 2], [3, 4]]
  cur := some 0
  mem := fun _ _ => 0

theorem reachable_four : (calls 2).Reachable four := by
  have hrun : (calls 2).run (fun _ _ => True) (new 2 fun _ _ => 0)
      [.write [1, 2, 3, 4], .setPosition 0] = some four := rfl
  exact System.reachableWhen_of_run ⟨_, rfl⟩ hrun

theorem readsAt_iff_four : four.ReadsAt 1 2 ↔ four.ReadableAt 1 2 :=
  readsAt_iff (by decide) reachable_four (by decide)

/-- The third byte is asked for, and the first one is returned. -/
theorem not_readsAt_four :
    (¬ ∀ b s size position, 1 ≤ b → (calls b).Reachable s → size < 2 ^ 64 → position < 2 ^ 64 →
      s.ReadsAt size position) ∧ readAt 1 2 four = .ok [1] four := by
  refine ⟨fun h => ?_, rfl⟩
  have hok := h 2 four 1 2 (by decide) reachable_four (by decide) (by decide)
  have hread : readAt 1 2 four = .ok [1] four := rfl
  rw [ReadsAt, hread, if_neg (by decide)] at hok
  injection hok with hbytes
  exact absurd hbytes (by decide)

/-! ### `getReadBuffers` at a position -/

/-- `getReadBuffers` at a position returns how many of the bytes that are asked for are there, and
the buffers cover them. -/
def BuffersAt (s : ByteArray) (len position : ℕ) : Prop :=
  let n := min len (s.getSize - position)
  ∃ buffers, getReadBuffersAt len position s = .ok (buffers, n) s ∧
    Tiles s.baseSize position (buffers.map IOVec.piece) (position + n) ∧
    s.gather buffers = (s.data.drop position).take n

/-- The result is right at the cursor, and where no more is asked for than is behind either of the
two positions. -/
theorem buffersAt_iff (hb : 1 ≤ b) (hs : (calls b).Reachable s) (hposition : position ≤ s.getSize) :
    s.BuffersAt len position ↔
      position = s.getPosition ∨ len ≤ s.getReadSize ∧ len ≤ s.getSize - position := by
  obtain ⟨h, -⟩ := inv_of_reachable hb hs
  have hcursor := h.position_le
  have hcapacity := h.size_le
  rw [getSize] at hposition
  -- the condition says that both counts are the same
  have hcount : (position = s.getPosition ∨ len ≤ s.getReadSize ∧ len ≤ s.getSize - position) ↔
      min s.getReadSize len = min len (s.size - position) := by
    rw [getPosition, getReadSize, getSize]
    omega
  rw [hcount]
  simp only [BuffersAt, getReadBuffersAt, ← min_def_lt, getSize]
  generalize min s.getReadSize len = n
  constructor
  · rintro ⟨buffers, hok, -, -⟩
    split_ifs at hok with h0
    · simp only [EStateM.Result.ok.injEq, Prod.mk.injEq, and_true] at hok
      omega
    · cases hbuf : iovecs (position / s.baseSize) (s.blocks.drop (position / s.baseSize))
          (position % s.baseSize) n with
      | none =>
        rw [hbuf] at hok
        cases hok
      | some buffers' =>
        rw [hbuf] at hok
        simp only [EStateM.Result.ok.injEq, Prod.mk.injEq, and_true] at hok
        exact hok.2
  · intro hn
    rw [← hn]
    by_cases h0 : n = 0
    · refine ⟨[], by rw [if_pos h0, h0], by rw [h0]; exact rfl, ?_⟩
      rw [h0, List.take_zero]
      rfl
    · obtain ⟨buffers, hbuf, htiles, -⟩ := h.iovecs_tiles (p := position)
        (Nat.pos_of_ne_zero h0) (by omega)
      refine ⟨buffers, by rw [if_neg h0, hbuf], htiles, ?_⟩
      rw [h.gather_eq htiles (by omega), Nat.add_sub_cancel_left]

theorem buffersAt_iff_four :
    four.BuffersAt 4 2 ↔ 2 = four.getPosition ∨ 4 ≤ four.getReadSize ∧ 4 ≤ four.getSize - 2 :=
  buffersAt_iff (by decide) reachable_four (by decide)

/-- Two bytes are there, and the walk goes on behind the last node. -/
theorem not_buffersAt_four :
    (¬ ∀ b s len position, 1 ≤ b → (calls b).Reachable s → position ≤ s.getSize →
      s.BuffersAt len position) ∧ getReadBuffersAt 4 2 four = .error .nullPointer four := by
  refine ⟨fun h => ?_, rfl⟩
  obtain ⟨buffers, hok, -⟩ := h 2 four 4 2 (by decide) reachable_four (by decide)
  cases hok

end ByteArray

end YXTWebCpp
