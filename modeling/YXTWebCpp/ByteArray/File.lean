import YXTWebCpp.ByteArray.Reachable

/-!
# Files

`writeToFile` goes through the nodes and asks for a write for each of them; how many bytes it asks
for is computed from what is left to write, and the offset in the first node is subtracted from
that.  The open file takes the bytes it is given, and gives them back to `readFromFile`.

* `Request`, `writeToFile` : the writes that are asked for.
* `readFromFile` : the contents of a file are written to the array, in pieces of the base size.
* `WritesRest` : the writes are possible, and they are those of the bytes from the position on.
* `writeLoop_eq` : where the loop is right, it asks for pieces that cover the range.
* `readFromFile_eq` : what is read is appended.
* `writesRest_iff` : **when `writeToFile` writes what is left to read.**
-/

namespace YXTWebCpp

namespace ByteArray

open Blocks Codec

/-! ### The methods -/

/-- A call of `ofs.write(cur->ptr + diff, len)`. -/
structure Request where
  /-- The node that `cur` points to. -/
  node : ℕ
  diff : ℤ
  len : ℤ
deriving DecidableEq, Repr

/-- What is written by a request that is possible. -/
def Request.piece (r : Request) : Piece := ⟨r.node, r.diff.toNat, r.len.toNat⟩

theorem Request.positions_piece (b : ℕ) (r : Request) :
    r.piece.positions b = List.range' (r.node * b + r.diff.toNat) r.len.toNat :=
  rfl

/-- The length is not negative, and the memory is inside a node that exists. -/
def Request.Inside (s : ByteArray) (r : Request) : Prop :=
  r.node < s.blocks.length ∧ 0 ≤ r.diff ∧ 0 ≤ r.len ∧ r.diff + r.len ≤ s.baseSize

/-- The loop of `writeToFile`.  `cur` points to the first of the nodes, the one with index `i`; it
is null if there is none. -/
def writeLoop (baseSize : ℕ) : ℕ → List (List UInt8) → ℤ → ℤ → Option (List Request)
  | _, [], readSize, _ => if 0 < readSize then none else some []
  | i, _ :: nodes, readSize, pos =>
    if 0 < readSize then
      let diff := signed 32 (pos % baseSize)
      let len := (if baseSize < readSize then (baseSize : ℤ) else readSize) - diff
      (writeLoop baseSize (i + 1) nodes (readSize - len) (pos + len)).map (⟨i, diff, len⟩ :: ·)
    else some []

/-- `writeToFile`, once the file is open. -/
def writeToFile : M (List Request) := fun s =>
  match writeLoop s.baseSize (s.cur.getD 0) s.nodes s.getReadSize s.position with
  | none => .error .nullPointer s
  | some requests => .ok requests s

/-- `readFromFile`, once the file is open, with what has not been read of the file.  There is no
result after too few turns of the loop. -/
def readFromFile : ℕ → List UInt8 → M (Option Bool)
  | 0, _ => pure none
  | turns + 1, ifs => do
    let s ← get
    write (ifs.take s.baseSize)
    -- `eof` is set by a read that does not find as many bytes as it asks for
    if ifs.length < s.baseSize then return some true
    else readFromFile turns (ifs.drop s.baseSize)

/-! ### Reading a file -/

/-- The loop ends, and what it has read is appended. -/
theorem readFromFile_eq {turns : ℕ} {s : ByteArray} {ifs : List UInt8} (h : s.Inv)
    (hend : s.position = s.size) (hturns : ifs.length < turns * s.baseSize) :
    ∃ s', readFromFile turns ifs s = .ok (some true) s' ∧ s'.data = s.data ++ ifs := by
  induction turns generalizing s ifs with
  | zero => omega
  | succ turns ih =>
    obtain ⟨s₁, hs₁, hinv, hdata, hposition, hbase, -⟩ := h.write_eq (ifs.take s.baseSize)
    rw [hend, ← h.length_data, overwrite_length] at hdata
    have hstep : readFromFile (turns + 1) ifs s =
        (if ifs.length < s.baseSize then pure (some true)
          else readFromFile turns (ifs.drop s.baseSize) : M (Option Bool)) s₁ := by
      rw [readFromFile, get_bind, bind_ok hs₁]
    rw [hstep]
    split_ifs with hlast
    · refine ⟨s₁, rfl, ?_⟩
      rw [hdata, List.take_of_length_le hlast.le]
    · have hend₁ : s₁.position = s₁.size := by
        have hlen := congrArg List.length hdata
        rw [hinv.length_data, List.length_append, h.length_data] at hlen
        rw [hposition, hlen, hend]
      have hturns₁ : (ifs.drop s.baseSize).length < turns * s₁.baseSize := by
        rw [Nat.succ_mul] at hturns
        rw [List.length_drop, hbase]
        omega
      obtain ⟨s', hs', hdata'⟩ := ih hinv hend₁ hturns₁
      exact ⟨s', hs', by rw [hdata', hdata, List.append_assoc, List.take_append_drop]⟩

/-- No other states are reached by it. -/
theorem within_readFromFile {b : ℕ} (turns : ℕ) (ifs : List UInt8) :
    Within b (readFromFile turns ifs) := by
  induction turns generalizing ifs with
  | zero => exact within_pure _
  | succ turns ih =>
    refine within_get.bind fun s => (within_write _).bind fun _ => ?_
    split_ifs
    · exact within_pure _
    · exact ih _

/-! ### Writing a file -/

section WriteLoop

variable {b i d R : ℕ} {nodes : List (List UInt8)}

theorem writeLoop_zero (pos : ℤ) : writeLoop b i nodes 0 pos = some [] := by
  cases nodes <;> rfl

/-- A request for nothing leaves the loop where it is, and it runs out of nodes. -/
theorem writeLoop_stuck {readSize pos : ℤ} (hpos : 0 < readSize)
    (hlen : (if b < readSize then (b : ℤ) else readSize) = signed 32 (pos % b)) :
    writeLoop b i nodes readSize pos = none := by
  induction nodes generalizing i with
  | nil => rw [writeLoop, if_pos hpos]
  | cons node nodes ih =>
    simp only [writeLoop, if_pos hpos, hlen, sub_self, sub_zero, add_zero, ih, Option.map_none]

/-- If the offset in the first node is 0, or if there are as many bytes as a node holds, then the
requests cover the range. -/
theorem writeLoop_eq (hb : 0 < b) (hu : Uniform b nodes) (hd : d < b) (hint : d < 2 ^ 31)
    (hfirst : d = 0 ∨ b ≤ R) (hroom : d + R ≤ nodes.flatten.length) :
    ∃ requests, writeLoop b i nodes R (i * b + d : ℕ) = some requests ∧
      (∀ r ∈ requests, 0 ≤ r.diff ∧ 0 ≤ r.len) ∧
      Tiles b (i * b + d) (requests.map Request.piece) (i * b + d + R) := by
  induction nodes generalizing i d R with
  | nil =>
    obtain ⟨rfl, rfl⟩ : d = 0 ∧ R = 0 := by simpa using hroom
    exact ⟨[], writeLoop_zero _, List.forall_mem_nil _, rfl⟩
  | cons node nodes ih =>
    obtain ⟨hnode, hu⟩ := Uniform.cons_iff.1 hu
    rw [List.flatten_cons, List.length_append, hnode] at hroom
    by_cases hR : R = 0
    · subst hR
      exact ⟨[], writeLoop_zero _, List.forall_mem_nil _, rfl⟩
    · have hmod : ((i * b + d : ℕ) : ℤ) % b = d := by
        norm_cast
        rw [Nat.mul_comm, Nat.mul_add_mod, Nat.mod_eq_of_lt hd]
      have hdiff : signed 32 (((i * b + d : ℕ) : ℤ) % b) = d := by
        rw [hmod, signed_of_lt (by omega) (by exact_mod_cast hint)]
      have hif : (if (b : ℤ) < R then (b : ℤ) else R) = (min b R : ℕ) := by
        split_ifs <;> omega
      -- what is written from this node, and what is left for the others
      obtain ⟨n, hn⟩ : ∃ n, min b R = d + n := Nat.exists_eq_add_of_le (by omega)
      have hrest : ∃ requests, writeLoop b (i + 1) nodes (R - n : ℕ) (i * b + d + n : ℕ) =
            some requests ∧ (∀ r ∈ requests, 0 ≤ r.diff ∧ 0 ≤ r.len) ∧
          Tiles b (i * b + d + n) (requests.map Request.piece) (i * b + d + R) := by
        by_cases hlast : R - n = 0
        · rw [hlast]
          refine ⟨[], writeLoop_zero _, List.forall_mem_nil _, ?_⟩
          rw [show R = n by omega]
          exact rfl
        · have hnext : i * b + d + n = (i + 1) * b + 0 := by
            rw [Nat.succ_mul]
            omega
          have hend : i * b + d + R = (i + 1) * b + 0 + (R - n) := by omega
          rw [hnext, hend]
          exact ih hu hb (by omega) (.inl rfl) (by omega)
      obtain ⟨requests, hloop, hsign, htiles⟩ := hrest
      refine ⟨⟨i, d, n⟩ :: requests, ?_, List.forall_mem_cons.2 ⟨by simp, hsign⟩, ?_⟩
      · have hlen : ((min b R : ℕ) : ℤ) - d = n := by omega
        have hleft : (R : ℤ) - n = (R - n : ℕ) := by omega
        have hpos : ((i * b + d : ℕ) : ℤ) + n = (i * b + d + n : ℕ) := by omega
        have hR' : (0 : ℤ) < R := by omega
        simp only [writeLoop, if_pos hR', hdiff, hif, hlen, hleft, hpos, hloop, Option.map_some]
      · refine ⟨?_, ?_, ?_, ?_⟩
        · simp [Request.piece, Piece.start]
        · simp only [Request.piece, Int.toNat_natCast]
          omega
        · simp only [Request.piece, Int.toNat_natCast]
          omega
        · simpa only [Request.piece, Int.toNat_natCast] using htiles

/-- A range that begins with a range. -/
theorem range'_eq_append {a p m n : ℕ} {rest : List ℕ} (hm : 0 < m)
    (h : List.range' a m ++ rest = List.range' p n) :
    a = p ∧ m ≤ n ∧ rest = List.range' (p + m) (n - m) := by
  have hlen := congrArg List.length h
  simp only [List.length_append, List.length_range'] at hlen
  obtain ⟨n, rfl⟩ := Nat.exists_eq_add_of_le (show m ≤ n by omega)
  rw [← List.range'_append_1] at h
  obtain ⟨hfront, hrest⟩ := List.append_inj h (by simp)
  obtain ⟨m, rfl⟩ := Nat.exists_eq_succ_of_ne_zero (Nat.ne_of_gt hm)
  rw [List.range'_succ, List.range'_succ, List.cons.injEq] at hfront
  refine ⟨hfront.1, Nat.le_add_right _ _, ?_⟩
  rw [Nat.add_sub_cancel_left]
  exact hrest

/-- What the first request is, if the requests are possible and cover the range. -/
theorem writeLoop_first {p : ℕ} {diff : ℤ} {requests : List Request} (hR : 0 < R)
    (hdiff : signed 32 (p % b) = diff) (h : writeLoop b i nodes R p = some requests)
    (hsign : ∀ r ∈ requests, 0 ≤ r.diff ∧ 0 ≤ r.len)
    (hcovers : requests.flatMap (fun r => r.piece.positions b) = List.range' p R) :
    0 ≤ diff ∧ i * b + diff.toNat = p ∧
      ∃ n nodes' rest, n ≤ R ∧ (n : ℤ) = (if (b : ℤ) < R then (b : ℤ) else R) - diff ∧
        writeLoop b (i + 1) nodes' (R - n : ℕ) (p + n : ℕ) = some rest ∧
        (∀ r ∈ rest, 0 ≤ r.diff ∧ 0 ≤ r.len) ∧
        rest.flatMap (fun r => r.piece.positions b) = List.range' (p + n) (R - n) := by
  have hpos : (0 : ℤ) < R := by omega
  by_cases hstuck : (if (b : ℤ) < R then (b : ℤ) else R) = diff
  · rw [writeLoop_stuck hpos (hstuck.trans hdiff.symm)] at h
    cases h
  · cases nodes with
    | nil =>
      rw [writeLoop, if_pos hpos] at h
      cases h
    | cons node nodes =>
      simp only [writeLoop, if_pos hpos, hdiff] at h
      generalize hlen : (if (b : ℤ) < R then (b : ℤ) else R) - diff = len at h
      obtain ⟨rest, hrest, rfl⟩ := Option.map_eq_some_iff.1 h
      obtain ⟨⟨hnonneg, hlength⟩, hsign'⟩ := List.forall_mem_cons.1 hsign
      obtain ⟨n, rfl⟩ := Int.eq_ofNat_of_zero_le hlength
      rw [List.flatMap_cons, Request.positions_piece, Int.toNat_natCast] at hcovers
      obtain ⟨hstart, hle, hcovers⟩ := range'_eq_append (by omega) hcovers
      have hleft : ((R - n : ℕ) : ℤ) = R - n := by omega
      have hnext : ((p + n : ℕ) : ℤ) = p + n := by omega
      refine ⟨hnonneg, hstart, n, nodes, rest, hle, rfl, ?_, hsign', hcovers⟩
      rw [hleft, hnext]
      exact hrest

end WriteLoop

/-! ### What is written -/

/-- What some requests put to the file. -/
def fileContents (s : ByteArray) (requests : List Request) : List UInt8 :=
  requests.flatMap fun r => r.piece.read s.blocks

/-- `writeToFile` ends with requests that are possible, for the bytes from the position on, in
order; and from an array of any base size that has read the file they are read back. -/
def WritesRest (s : ByteArray) : Prop :=
  ∃ requests, writeToFile s = .ok requests s ∧ (∀ r ∈ requests, r.Inside s) ∧
    requests.flatMap (fun r => r.piece.positions s.baseSize) =
      List.range' s.getPosition s.getReadSize ∧
    s.fileContents requests = s.data.drop s.getPosition ∧
    ∀ b mem turns, 1 ≤ b → (s.fileContents requests).length < turns * b →
      ∃ s', readFromFile turns (s.fileContents requests) (new b mem) = .ok (some true) s' ∧
        s'.data = s.data.drop s.getPosition

section WritesRest

variable {b : ℕ} {s : ByteArray}

/-- Where the requests cover the range, everything else follows. -/
theorem Inv.writesRest (h : s.Inv) {requests : List Request}
    (hok : writeToFile s = .ok requests s) (hsign : ∀ r ∈ requests, 0 ≤ r.diff ∧ 0 ≤ r.len)
    (htiles : Tiles s.baseSize s.position (requests.map Request.piece) s.size) :
    s.WritesRest := by
  have hcontents : s.fileContents requests = s.data.drop s.position := by
    have hread := htiles.flatMap_read h.uniform
    rw [List.flatMap_map] at hread
    rw [fileContents, hread, data, List.drop_take]
  refine ⟨requests, hok, fun r hr => ?_, ?_, hcontents, fun b mem turns hb hturns => ?_⟩
  · obtain ⟨hnode, hoffset, -⟩ := htiles.inside (h.capacity_eq ▸ h.size_le) _
      (List.mem_map_of_mem hr)
    obtain ⟨hdiff, hlen⟩ := hsign r hr
    simp only [Request.piece] at hnode hoffset
    exact ⟨hnode, hdiff, hlen, by omega⟩
  · have hpositions := htiles.flatMap_positions
    rwa [List.flatMap_map] at hpositions
  · obtain ⟨s', hs', hdata⟩ := readFromFile_eq (inv_new hb mem) rfl hturns
    exact ⟨s', hs', by rw [hdata, data_new, List.nil_append, hcontents, getPosition]⟩

/-- Nothing is to be written, and no write is asked for. -/
theorem Inv.writesRest_of_empty (h : s.Inv) (h0 : s.getReadSize = 0) : s.WritesRest := by
  have hposition := h.position_le
  have hnone : writeToFile s = .ok [] s := by
    rw [writeToFile, h0]
    simp only [Nat.cast_zero, writeLoop_zero]
  refine h.writesRest hnone (List.forall_mem_nil _) ?_
  rw [getReadSize] at h0
  exact (show s.position = s.size by omega)

theorem Inv.lt_capacity (h : s.Inv) (hpos : 0 < s.getReadSize) : s.position < s.capacity := by
  have hsize := h.size_le
  rw [getReadSize] at hpos
  omega

/-- Where the writes are right, the first of them begins at the position, and there is a second one
only behind a full node. -/
theorem Inv.fits_of_writesRest (h : s.Inv) (hpos : 0 < s.getReadSize) (hw : s.WritesRest) :
    s.position % s.baseSize < 2 ^ 31 ∧
      (s.position % s.baseSize = 0 ∨ s.baseSize ≤ s.getReadSize) := by
  obtain ⟨requests, hok, hinside, hcovers, -, -⟩ := hw
  have hmod := h.mod_lt
  have hsplit : s.position / s.baseSize * s.baseSize + s.position % s.baseSize = s.position := by
    rw [Nat.mul_comm, Nat.div_add_mod]
  rw [writeToFile, h.cur_of_lt (h.lt_capacity hpos), Option.getD_some] at hok
  cases hloop : writeLoop s.baseSize (s.position / s.baseSize) s.nodes s.getReadSize
      s.position with
  | none =>
    rw [hloop] at hok
    cases hok
  | some requests' =>
    rw [hloop] at hok
    cases hok
    -- the first request begins at the position, so the offset is not changed
    generalize hdiff : signed 32 ((s.position : ℤ) % s.baseSize) = diff
    have hbound : diff < 2 ^ 31 := hdiff ▸ signed_lt 31 _
    obtain ⟨hnonneg, hstart, n, nodes, rest, hn, hlen, hrest, hsign, hcovers⟩ :=
      writeLoop_first hpos hdiff hloop
        (fun r hr => ⟨(hinside r hr).2.1, (hinside r hr).2.2.1⟩) hcovers
    have hoffset : diff.toNat = s.position % s.baseSize := by omega
    refine ⟨by omega, Classical.or_iff_not_imp_left.2 fun hne => ?_⟩
    -- if there were fewer bytes, the second request would begin in the next node
    by_contra hfew
    rw [if_neg (by omega)] at hlen
    obtain ⟨-, hstart', -⟩ := writeLoop_first (by omega) rfl hrest hsign hcovers
    have hle := Nat.le.intro hstart'
    rw [Nat.succ_mul] at hle
    clear hstart'
    omega

theorem Inv.writesRest_of_fits (h : s.Inv) (hpos : 0 < s.getReadSize)
    (hint : s.position % s.baseSize < 2 ^ 31)
    (hfirst : s.position % s.baseSize = 0 ∨ s.baseSize ≤ s.getReadSize) : s.WritesRest := by
  have hposition := h.position_le
  have hlt := h.lt_capacity hpos
  have hsplit : s.position / s.baseSize * s.baseSize + s.position % s.baseSize = s.position := by
    rw [Nat.mul_comm, Nat.div_add_mod]
  have hroom : s.position % s.baseSize + s.getReadSize ≤ s.nodes.flatten.length := by
    have hsize := h.size_le
    rw [h.length_flatten_nodes hlt, getReadSize]
    omega
  obtain ⟨requests, hloop, hsign, htiles⟩ := writeLoop_eq (i := s.position / s.baseSize)
    h.base_pos (h.uniform_nodes hlt) h.mod_lt hint hfirst hroom
  rw [hsplit] at hloop htiles
  refine h.writesRest ?_ hsign ?_
  · rw [writeToFile, h.cur_of_lt hlt, Option.getD_some, hloop]
  · rwa [getReadSize, Nat.add_sub_cancel' hposition] at htiles

/-- Nothing is to be written, or the position is at the beginning of a node, or there are as many
bytes as a node holds; and its offset in the node is an `int`. -/
theorem writesRest_iff (hb : 1 ≤ b) (hs : (calls b).Reachable s) :
    s.WritesRest ↔ s.getReadSize = 0 ∨
      s.getPosition % b < 2 ^ 31 ∧ (s.getPosition % b = 0 ∨ b ≤ s.getReadSize) := by
  obtain ⟨h, rfl⟩ := inv_of_reachable hb hs
  by_cases h0 : s.getReadSize = 0
  · exact iff_of_true (h.writesRest_of_empty h0) (.inl h0)
  · have hpos : 0 < s.getReadSize := Nat.pos_of_ne_zero h0
    rw [or_iff_right h0]
    constructor
    · intro hw
      exact h.fits_of_writesRest hpos hw
    · rintro ⟨hint, hfirst⟩
      exact h.writesRest_of_fits hpos hint hfirst

/-- Three bytes in a node of four, and the cursor behind the first one. -/
def three : ByteArray where
  baseSize := 4
  position := 1
  capacity := 4
  size := 3
  endian := .big
  blocks := [[1, 2, 3, 0]]
  cur := some 0
  mem := fun _ _ => 0

theorem reachable_three : (calls 4).Reachable three := by
  have hrun : (calls 4).run (fun _ _ => True) (new 4 fun _ _ => 0)
      [.write [1, 2, 3], .setPosition 1] = some three := rfl
  exact System.reachableWhen_of_run ⟨_, rfl⟩ hrun

theorem writesRest_iff_three :
    three.WritesRest ↔ three.getReadSize = 0 ∨
      three.getPosition % 4 < 2 ^ 31 ∧ (three.getPosition % 4 = 0 ∨ 4 ≤ three.getReadSize) :=
  writesRest_iff (by decide) reachable_three

/-- One byte is asked for instead of two, and for the other one there is no node. -/
theorem not_writesRest_three :
    (¬ ∀ b s, 1 ≤ b → (calls b).Reachable s → s.WritesRest) ∧
      writeToFile three = .error .nullPointer three := by
  have hloop : writeLoop three.baseSize (three.cur.getD 0) three.nodes three.getReadSize
      three.position = none := by decide +kernel
  have hfails : writeToFile three = .error .nullPointer three := by rw [writeToFile, hloop]
  refine ⟨fun h => ?_, hfails⟩
  obtain ⟨requests, hok, -⟩ := h 4 three (by decide) reachable_three
  rw [hfails] at hok
  cases hok

end WritesRest

end ByteArray

end YXTWebCpp
