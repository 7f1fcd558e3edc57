import YXTWebCpp.ByteArray.Positional
import YXTWebCpp.Stream.FixSize

/-!
# A socket stream and the byte array

`SocketStream::read(ba, length)` and `SocketStream::write(ba, length)` (`socket_stream.cpp`) let the
kernel read into the nodes of an array, and from them.  Where a read should hand on the number of
buffers it does so; a write hands on the number of bytes instead.

* `Socket` : what `recvmsg` and `sendmsg` return, call by call.
* `read`, `write`, `writeFixSize` : the methods of the stream.
* `getWriteBuffers_eq_write` : **bytes that are read into the buffers of `getWriteBuffers` are
  written**, as `ByteArray::write` would do it.
* `read_eq_write` : so is what `read` receives.
* `HandsBuffers`, `SendsRest` : what is expected of `write` and of `writeFixSize`.
* `sends_iff` : **when a write is right**: if no buffer has more than one byte.
-/

namespace YXTWebCpp

open Blocks Codec

/-! ### Buffers that are filled -/

namespace ByteArray

section GetWriteBuffers

variable {b : ℕ} {s : ByteArray}

/-- Storing bytes in the buffers, and setting the position behind them, is writing them. -/
theorem Inv.store_eq_write (h : s.Inv) {buffers : List IOVec} {len : ℕ} {bytes : List UInt8}
    (htiles : Tiles s.baseSize s.position (buffers.map IOVec.piece) (s.position + len))
    (hroom : s.position + len ≤ (s.addCapacity len).capacity) (hbytes : bytes.length ≤ len) :
    ∃ s₁ s₂, setPosition (s.position + bytes.length) ((s.addCapacity len).store buffers bytes) =
        .ok () s₁ ∧ write bytes s = .ok () s₂ ∧ s₁.Inv ∧ s₁.data = s₂.data ∧
      s₁.position = s₂.position ∧ s₁.size = s₂.size := by
  have hg := h.addCapacity len
  have hg_position := hg.position_le
  rw [← addCapacity_baseSize (s := s) len] at htiles
  obtain ⟨hinv, hflat⟩ := hg.store htiles hroom bytes (by omega)
  have hv : s.position + bytes.length ≤ ((s.addCapacity len).store buffers bytes).capacity := by
    change _ ≤ (s.addCapacity len).capacity
    omega
  obtain ⟨s₂, hs₂, hinv₂, hdata₂, hposition₂, -⟩ := h.write_eq bytes
  refine ⟨_, s₂, hinv.setPosition_ok hv, hs₂, hinv.seek hv, ?_, hposition₂.symm, ?_⟩
  · -- the bytes that are stored show up when the size has grown
    rw [hdata₂, data, hflat]
    change List.take (max (s.addCapacity len).size (s.position + bytes.length)) _ = _
    rw [take_overwrite]
    · rw [← data, h.addCapacity_data]
    · rwa [addCapacity_position] at hg_position
    · rw [hg.length_flatten]
      omega
  · rw [← hinv₂.length_data, hdata₂]
    change max (s.addCapacity len).size (s.position + bytes.length) = _
    have hposition := h.position_le
    rw [addCapacity_size, overwrite, List.length_append, List.length_append, List.length_take,
      List.length_drop, h.length_data]
    omega

/-- The buffers of `getWriteBuffers` are disjoint pieces of nodes that exist, they cover the
positions that are asked for in order, and nothing that is stored changes.  If the first bytes of
them are filled, and the position is set behind these, then the array is as after `write`. -/
theorem getWriteBuffers_eq_write (hb : 1 ≤ b) (hs : (calls b).Reachable s) {len : ℕ}
    (hlen : 1 ≤ len) :
    ∃ buffers s', getWriteBuffers len s = .ok (buffers, len) s' ∧
      (∀ v ∈ buffers, v.node < s'.blocks.length ∧ v.offset + v.len ≤ b ∧ 0 < v.len) ∧
      buffers.Pairwise (fun v w => (v.piece.positions b).Disjoint (w.piece.positions b)) ∧
      buffers.flatMap (fun v => v.piece.positions b) = List.range' s.getPosition len ∧
      s'.getPosition = s.getPosition ∧ s'.getSize = s.getSize ∧ s'.data = s.data ∧
      ∀ bytes : List UInt8, bytes.length ≤ len →
        ∃ s₁ s₂, setPosition (s'.getPosition + bytes.length) (s'.store buffers bytes) = .ok () s₁ ∧
          write bytes s = .ok () s₂ ∧ s₁.data = s₂.data ∧ s₁.getPosition = s₂.getPosition ∧
          s₁.getSize = s₂.getSize := by
  obtain ⟨h, rfl⟩ := inv_of_reachable hb hs
  have hg := h.addCapacity len
  obtain ⟨buffers, hok, htiles, hroom⟩ := h.getWriteBuffers_eq hlen
  have hq : s.position + len ≤ (s.addCapacity len).blocks.length * s.baseSize := by
    have hcapacity := hg.capacity_eq
    rw [addCapacity_baseSize] at hcapacity
    rwa [← hcapacity]
  refine ⟨buffers, _, hok, fun v hv => ?_, ?_, ?_, addCapacity_position len, addCapacity_size len,
    h.addCapacity_data len, fun bytes hbytes => ?_⟩
  · exact htiles.inside hq v.piece (List.mem_map_of_mem hv)
  · have hdisjoint := htiles.pairwise_disjoint
    rwa [List.pairwise_map] at hdisjoint
  · have hpositions := htiles.flatMap_positions
    rwa [List.flatMap_map, Nat.add_sub_cancel_left] at hpositions
  · obtain ⟨s₁, s₂, hs₁, hs₂, -, hdata, hposition, hsize⟩ := h.store_eq_write htiles hroom hbytes
    refine ⟨s₁, s₂, ?_, hs₂, hdata, hposition, hsize⟩
    rw [getPosition, addCapacity_position]
    exact hs₁

theorem getWriteBuffers_eq_write_new :
    ∃ buffers s', getWriteBuffers 3 (new 2 fun _ _ => 0) = .ok (buffers, 3) s' ∧
      (∀ v ∈ buffers, v.node < s'.blocks.length ∧ v.offset + v.len ≤ 2 ∧ 0 < v.len) ∧
      buffers.Pairwise (fun v w => (v.piece.positions 2).Disjoint (w.piece.positions 2)) ∧
      buffers.flatMap (fun v => v.piece.positions 2) =
        List.range' (new 2 fun _ _ => 0).getPosition 3 ∧
      s'.getPosition = (new 2 fun _ _ => 0).getPosition ∧
      s'.getSize = (new 2 fun _ _ => 0).getSize ∧ s'.data = (new 2 fun _ _ => 0).data ∧
      ∀ bytes : List UInt8, bytes.length ≤ 3 →
        ∃ s₁ s₂, setPosition (s'.getPosition + bytes.length) (s'.store buffers bytes) = .ok () s₁ ∧
          write bytes (new 2 fun _ _ => 0) = .ok () s₂ ∧ s₁.data = s₂.data ∧
          s₁.getPosition = s₂.getPosition ∧ s₁.getSize = s₂.getSize :=
  getWriteBuffers_eq_write (by decide) (.init ⟨_, rfl⟩) (by decide)

end GetWriteBuffers

end ByteArray

/-! ### The methods -/

namespace SocketStream

open YXTWebCpp.ByteArray YXTWebCpp.Stream

/-- `Socket`, as far as the calls of `recvmsg` and `sendmsg` are concerned. -/
structure Socket where
  /-- `m_isConnected` -/
  isConnected : Bool
  /-- What the calls return, one after the other, when they are offered enough. -/
  results : Schedule

/-- `Socket::recv(buffers, length)`, the call after `calls` others: the result, and the bytes of
`incoming` that are received.  There is no result if there are not so many buffers. -/
def Socket.recv (socket : Socket) (calls : ℕ) (incoming : List UInt8) (buffers : List IOVec)
    (length : ℕ) : Option (ℤ × List UInt8) :=
  if socket.isConnected then
    if buffers.length < length then none
    else
      let room := ((buffers.take length).map IOVec.len).sum
      let len := min (socket.results calls).toInt (min room incoming.length : ℕ)
      some (len, incoming.take len.toNat)
  else some (-1, [])

/-- `Socket::send(buffers, length)`: the result, and the bytes that are sent. -/
def Socket.send (socket : Socket) (calls : ℕ) (s : ByteArray) (buffers : List IOVec)
    (length : ℕ) : Option (ℤ × List UInt8) :=
  if socket.isConnected then
    if buffers.length < length then none
    else
      let offered := s.gather (buffers.take length)
      let len := min (socket.results calls).toInt offered.length
      some (len, offered.take len.toNat)
  else some (-1, [])

/-- The state of a method of the array, if it returns. -/
def returned {α : Type} : EStateM.Result Error ByteArray α → Option (α × ByteArray)
  | .ok a s => some (a, s)
  | .error _ _ => none

/-- `ba->setPosition(ba->getPosition() + len)` after something has been transferred. -/
def advance (len : ℤ) (s : ByteArray) : Option ByteArray :=
  if 0 < len then (returned (setPosition (s.getPosition + len.toNat) s)).map Prod.snd else some s

/-- `read(ba, length)`. -/
def read (socket : Socket) (calls : ℕ) (incoming : List UInt8) (length : ℕ) (s : ByteArray) :
    Option (ℤ × ByteArray) := do
  let (r, s) ← returned (getWriteBuffers length s)
  let (len, bytes) ← socket.recv calls incoming r.1 r.1.length
  let s ← advance len (s.store r.1 bytes)
  return (len, s)

/-- What `write(ba, length)` hands to `sendmsg`: the buffers, and how many there are to be.  It
hands on the number of bytes. -/
def handed (length : ℕ) : M (List IOVec × ℕ) := do
  let r ← getReadBuffers length
  return (r.1, length)

/-- What a write has done so far. -/
structure Sending where
  /-- `ba` -/
  array : ByteArray
  /-- The results of the calls of `sendmsg`. -/
  results : List ℤ
  /-- The bytes that have been sent. -/
  sent : List UInt8

/-- `write(ba, length)`. -/
def write (socket : Socket) (length : ℕ) (t : Sending) : Option (ℤ × Sending) := do
  let (r, s) ← returned (handed length t.array)
  let (len, bytes) ← socket.send t.results.length s r.1 r.2
  let s ← advance len s
  return (len, ⟨s, t.results ++ [len], t.sent ++ bytes⟩)

/-- `writeFixSize(ba, length)`. -/
def writeFixSize (socket : Socket) (length : ℕ) (s : ByteArray) : Option (ℤ × Sending) :=
  fixSize (write socket) length ⟨s, [], []⟩

/-- If nothing has been transferred, the position stays where it is. -/
theorem advance_eq {s s' : ByteArray} (h : s.Inv) {len : ℤ}
    (hs' : setPosition (s.position + len.toNat) s = .ok () s') : advance len s = some s' := by
  rw [advance]
  split_ifs with hpos
  · rw [getPosition, hs']
    rfl
  · rw [Int.toNat_of_nonpos (not_lt.1 hpos), Nat.add_zero, h.setPosition_self] at hs'
    cases hs'
    rfl

/-! ### Reading -/

section Read

variable {b length : ℕ} {s : ByteArray} {socket : Socket} {incoming : List UInt8}

/-- What is received fits into the buffers. -/
theorem Socket.recv_eq (socket : Socket) (calls : ℕ) (incoming : List UInt8)
    {buffers : List IOVec}
    (hroom : (buffers.map IOVec.len).sum = length) :
    ∃ len : ℤ, socket.recv calls incoming buffers buffers.length =
        some (len, incoming.take len.toNat) ∧
      (incoming.take len.toNat).length = len.toNat ∧ len.toNat ≤ length := by
  rw [Socket.recv]
  split_ifs with hconn hcount
  · exact absurd hcount (lt_irrefl _)
  · refine ⟨_, rfl, ?_, ?_⟩
    · rw [List.length_take, List.take_length]
      omega
    · rw [List.take_length, hroom]
      omega
  · exact ⟨-1, rfl, by simp, by simp⟩

/-- What `read` receives is written to the array; if it receives nothing, the array holds what it
has held before. -/
theorem read_eq_write (hb : 1 ≤ b) (hs : (calls b).Reachable s) (calls : ℕ)
    (hlength : 1 ≤ length) :
    ∃ len s₁ s₂, read socket calls incoming length s = some (len, s₁) ∧
      ByteArray.write (incoming.take len.toNat) s = .ok () s₂ ∧ s₁.data = s₂.data ∧
      s₁.getPosition = s₂.getPosition ∧ s₁.getSize = s₂.getSize := by
  obtain ⟨h, rfl⟩ := inv_of_reachable hb hs
  obtain ⟨buffers, hok, htiles, hroom⟩ := h.getWriteBuffers_eq hlength
  have hsum := htiles.sum_len
  rw [List.map_map, Nat.add_sub_cancel_left] at hsum
  obtain ⟨len, hrecv, hbytes, hle⟩ :=
    socket.recv_eq calls incoming hsum
  have hstore := ((h.addCapacity length).store
    (by rwa [addCapacity_baseSize]) hroom (incoming.take len.toNat) (by omega)).1
  obtain ⟨s₁, s₂, hs₁, hs₂, -, hdata, hposition, hsize⟩ :=
    h.store_eq_write htiles hroom (show (incoming.take len.toNat).length ≤ length by omega)
  rw [hbytes, ← addCapacity_position (s := s) length] at hs₁
  refine ⟨len, s₁, s₂, ?_, hs₂, hdata, hposition, hsize⟩
  rw [read, hok]
  simp only [returned, Option.bind_eq_bind, Option.bind_some, hrecv, advance_eq hstore hs₁]
  rfl

end Read

/-! ### Writing -/

/-- `write` hands to `sendmsg` the buffers of `getReadBuffers`, and their number. -/
def HandsBuffers (s : ByteArray) (length : ℕ) : Prop :=
  ∃ buffers n, getReadBuffers length s = .ok (buffers, n) s ∧
    handed length s = .ok (buffers, buffers.length) s

/-- `writeFixSize` returns, it has sent the bytes from the position on, and the position has been
advanced by their number; these are all the bytes, unless `sendmsg` has returned at most 0. -/
def SendsRest (socket : Socket) (s : ByteArray) (length : ℕ) : Prop :=
  ∃ ret t, writeFixSize socket length s = some (ret, t) ∧
    let n := (t.results.map Int.toNat).sum
    t.sent = (s.data.drop s.getPosition).take n ∧ t.array.getPosition = s.getPosition + n ∧
      (n = length ∨ ret ≤ 0 ∧ ret ∈ t.results)

/-- Every byte of the range is in a buffer of its own. -/
def Apart (baseSize position length : ℕ) : Prop :=
  baseSize = 1 ∨ length = 1 ∨ length = 2 ∧ position % baseSize = baseSize - 1

instance (b p n : ℕ) : Decidable (Apart b p n) := inferInstanceAs (Decidable (_ ∨ _ ∨ _ ∧ _))

/-- There are as many buffers as bytes exactly if every byte is in a buffer of its own; otherwise
there are fewer. -/
theorem count_cases {b p n : ℕ} (hb : 0 < b) (hn : 0 < n) :
    (p % b + n - 1) / b + 1 ≤ n ∧ ((p % b + n - 1) / b + 1 = n ↔ Apart b p n) := by
  have hmod := Nat.mod_lt p hb
  rw [Apart]
  obtain ⟨c, rfl⟩ := Nat.exists_eq_succ_of_ne_zero (Nat.ne_of_gt hb)
  obtain ⟨k, rfl⟩ := Nat.exists_eq_succ_of_ne_zero (Nat.ne_of_gt hn)
  generalize p % c.succ = d at hmod
  have hle : (d + k.succ - 1) / c.succ ≤ k := by
    rw [← Nat.lt_succ_iff, Nat.div_lt_iff_lt_mul hb, Nat.succ_mul, Nat.mul_succ]
    omega
  have hge : k ≤ (d + k.succ - 1) / c.succ ↔ k * c ≤ d := by
    rw [Nat.le_div_iff_mul_le hb, Nat.mul_succ]
    omega
  have hiff : (d + k.succ - 1) / c.succ + 1 = k.succ ↔ k * c ≤ d := by omega
  refine ⟨by omega, hiff.trans ?_⟩
  match k with
  | 0 => omega
  | 1 => omega
  | k + 2 =>
    -- three bytes or more do not fit into less than three nodes
    have hmul := Nat.mul_le_mul_right c (Nat.le_add_left 2 k)
    constructor
    · omega
    · rintro (hc | hk | ⟨hk, -⟩)
      · rw [Nat.succ.inj hc, Nat.mul_zero]
        exact Nat.zero_le _
      · omega
      · omega

section Write

variable {b length left : ℕ} {s : ByteArray} {t : Sending} {socket : Socket}

/-- What `write` does if it has bytes to write: as many of them are sent as `sendmsg` says, and the
position is advanced; but unless every byte is in a buffer of its own, `sendmsg` is told of more
buffers than there are. -/
theorem write_eq (h : t.array.Inv) (hconn : socket.isConnected = true) (hpos : 0 < left)
    (hleft : left ≤ t.array.getReadSize) :
    ∃ s', write socket left t =
        (if Apart t.array.baseSize t.array.position left then
          let len := min (socket.results t.results.length).toInt left
          some (len, ⟨s', t.results ++ [len],
            t.sent ++ (t.array.data.drop t.array.position).take len.toNat⟩)
        else none) ∧
      s'.Inv ∧ s'.data = t.array.data ∧ s'.baseSize = t.array.baseSize ∧
      s'.position = t.array.position +
        (min (socket.results t.results.length).toInt left).toNat := by
  have hposition := h.position_le
  have hsize := hleft
  rw [getReadSize] at hsize
  have hmin : min t.array.getReadSize left = left := Nat.min_eq_right hleft
  obtain ⟨buffers, hok, htiles, hcount⟩ := h.getReadBuffers_tiles left (by omega)
  rw [hmin] at hok htiles hcount
  obtain ⟨hle, hiff⟩ := count_cases (p := t.array.position) h.base_pos hpos
  rw [← hcount] at hle hiff
  have hgather := h.gather_eq htiles (by omega)
  rw [Nat.add_sub_cancel_left] at hgather
  have hhanded : handed left t.array = .ok (buffers, left) t.array := bind_ok hok
  have hoffered : (t.array.gather buffers).length = left := by
    rw [hgather, List.length_take, List.length_drop, h.length_data]
    omega
  generalize hlen : min (socket.results t.results.length).toInt left = len
  have hadvance : len.toNat ≤ left := by omega
  refine ⟨_, ?_, h.move (p := t.array.position + len.toNat) (by omega), rfl, rfl, rfl⟩
  rw [write, hhanded]
  simp only [returned, Option.bind_eq_bind, Option.bind_some, Socket.send, hconn, if_true]
  by_cases happart : Apart t.array.baseSize t.array.position left
  · have heq := hiff.2 happart
    have hset := h.setPosition_eq (v := t.array.position + len.toNat) (by omega)
    rw [if_pos happart, if_neg (by omega), List.take_of_length_le (Nat.le_of_eq heq), hoffered]
    simp only [hlen, Option.bind_some, advance_eq h hset, hgather, List.take_take,
      Nat.min_eq_left hadvance]
    rfl
  · have hlt := lt_of_le_of_ne hle (mt hiff.1 happart)
    rw [if_neg happart, if_pos hlt]
    rfl

/-- What holds while `writeFixSize` is running. -/
structure Underway (s : ByteArray) (length left : ℕ) (t : Sending) : Prop where
  inv : t.array.Inv
  data_eq : t.array.data = s.data
  base_eq : t.array.baseSize = s.baseSize
  left_eq : (t.results.map Int.toNat).sum + left = length
  position_eq : t.array.position = s.position + (t.results.map Int.toNat).sum
  sent_eq : t.sent = (s.data.drop s.position).take (t.results.map Int.toNat).sum
  apart : 0 < left → Apart t.array.baseSize t.array.position left

/-- What is left to send is left to read. -/
theorem Underway.le_getReadSize (h : s.Inv) (hu : Underway s length left t)
    (hle : length ≤ s.getReadSize) : left ≤ t.array.getReadSize := by
  have hsize : t.array.size = s.size := by rw [← hu.inv.length_data, hu.data_eq, h.length_data]
  have hposition := hu.position_eq
  have hleft := hu.left_eq
  rw [getReadSize] at hle ⊢
  omega

/-- A call of `write`, whatever it returns. -/
theorem Underway.write {t' : Sending} {len : ℤ} (h : s.Inv) (hu : Underway s length left t)
    (hconn : socket.isConnected = true) (hle : length ≤ s.getReadSize) (hpos : 0 < left)
    (hwrite : SocketStream.write socket left t = some (len, t')) :
    Underway s length (left - len.toNat) t' ∧ t'.results = t.results ++ [len] := by
  have hposition := hu.position_eq
  have hleft := hu.left_eq
  have happart := hu.apart hpos
  obtain ⟨s', hs', hinv, hdata, hbase, hposition'⟩ :=
    write_eq hu.inv hconn hpos (hu.le_getReadSize h hle)
  rw [hs', if_pos happart] at hwrite
  simp only [Option.some.injEq, Prod.mk.injEq] at hwrite
  obtain ⟨rfl, rfl⟩ := hwrite
  have hsum : ∀ r : ℤ, ((t.results ++ [r]).map Int.toNat).sum =
      (t.results.map Int.toNat).sum + r.toNat := by simp
  refine ⟨⟨hinv, hdata.trans hu.data_eq, hbase.trans hu.base_eq, ?_, ?_, ?_, fun hmore => ?_⟩, rfl⟩
  · rw [hsum]
    omega
  · rw [hsum, hposition']
    omega
  · rw [hsum, hu.sent_eq, hu.data_eq, hposition, ← List.drop_drop, ← List.take_add]
  · by_cases hlen : 0 < min (socket.results t.results.length).toInt (left : ℤ)
    · -- after the first of two bytes the other one is alone
      rw [hbase]
      obtain hone | hone | ⟨htwo, -⟩ := happart
      · exact .inl hone
      · omega
      · exact .inr (.inl (by omega))
    · rwa [hbase, hposition', Int.toNat_of_nonpos (not_lt.1 hlen)]

/-- A call has a result: `sendmsg` is told of the buffers that there are. -/
theorem Underway.write_ne_none (h : s.Inv) (hu : Underway s length left t)
    (hconn : socket.isConnected = true) (hle : length ≤ s.getReadSize) (hpos : 0 < left) :
    SocketStream.write socket left t ≠ none := by
  obtain ⟨s', hs', -⟩ := write_eq hu.inv hconn hpos (hu.le_getReadSize h hle)
  rw [hs', if_pos (hu.apart hpos)]
  exact Option.some_ne_none _

theorem handsBuffers_iff (h : s.Inv) (hpos : 1 ≤ length) (hle : length ≤ s.getReadSize) :
    HandsBuffers s length ↔ Apart s.baseSize s.position length := by
  have hmin : min s.getReadSize length = length := Nat.min_eq_right hle
  obtain ⟨buffers, hok, -, hcount⟩ := h.getReadBuffers_tiles length (by omega)
  rw [hmin] at hok hcount
  rw [← (count_cases h.base_pos hpos).2, ← hcount]
  have hhanded : handed length s = .ok (buffers, length) s := bind_ok hok
  constructor
  · rintro ⟨buffers', n, hok', hhanded'⟩
    rw [hok] at hok'
    cases hok'
    rw [hhanded] at hhanded'
    simp only [EStateM.Result.ok.injEq, Prod.mk.injEq, true_and, and_true] at hhanded'
    exact hhanded'.symm
  · intro heq
    exact ⟨buffers, length, hok, by rw [hhanded, heq]⟩

theorem sendsRest_iff (h : s.Inv) (hlt : length < 2 ^ 63) (hconn : socket.isConnected = true)
    (hpos : 1 ≤ length) (hle : length ≤ s.getReadSize) :
    SendsRest socket s length ↔ Apart s.baseSize s.position length := by
  rw [SendsRest, writeFixSize, fixSize_of_lt hlt]
  constructor
  · rintro ⟨ret, t, hrun, -⟩
    by_contra hnot
    -- the first call of `sendmsg` is told of buffers that are not there
    obtain ⟨s', hs', -⟩ := write_eq (t := ⟨s, [], []⟩) h hconn hpos hle
    rw [fixLoop, dif_neg (Nat.ne_of_gt hpos), hs'.trans (if_neg hnot)] at hrun
    cases hrun
  · intro happart
    have hu : Underway s length length ⟨s, [], []⟩ :=
      ⟨h, rfl, rfl, Nat.zero_add _, rfl, by simp, fun _ => happart⟩
    obtain ⟨t, hr, hu⟩ | ⟨left, t₁, len, t₂, hleft, hu, hcall, hlen, hr⟩ |
        ⟨left, t₁, hleft, hu, hnone, -⟩ :=
      fixLoop_cases length (Underway s length) hu
        fun left t len t' hleft hu hcall hlen => (hu.write h hconn hle hleft hcall).1
    · exact ⟨_, t, hr, hu.sent_eq, hu.position_eq, .inl hu.left_eq⟩
    · obtain ⟨hu', hresults⟩ := hu.write h hconn hle hleft hcall
      refine ⟨len, t₂, hr, hu'.sent_eq, hu'.position_eq, .inr ⟨hlen, ?_⟩⟩
      rw [hresults]
      exact List.mem_append_right _ (List.mem_singleton_self _)
    · exact absurd hnone (hu.write_ne_none h hconn hle hleft)

/-- `sendmsg` gets the buffers and their number, and all bytes are sent whatever it returns, exactly
if every byte is in a buffer of its own. -/
theorem sends_iff (hb : 1 ≤ b) (hs : (ByteArray.calls b).Reachable s) (hsize : s.getSize < 2 ^ 63)
    (hconn : socket.isConnected = true) (hpos : 1 ≤ length) (hle : length ≤ s.getReadSize) :
    (HandsBuffers s length ↔ Apart b s.getPosition length) ∧
      (SendsRest socket s length ↔ Apart b s.getPosition length) := by
  obtain ⟨h, rfl⟩ := inv_of_reachable hb hs
  have hlt : length < 2 ^ 63 := by
    rw [getSize] at hsize
    rw [getReadSize] at hle
    omega
  exact ⟨handsBuffers_iff h hpos hle, sendsRest_iff h hlt hconn hpos hle⟩

theorem sends_iff_four :
    (HandsBuffers four 4 ↔ Apart 2 four.getPosition 4) ∧
      (SendsRest ⟨true, fun _ => 1⟩ four 4 ↔ Apart 2 four.getPosition 4) :=
  sends_iff (by decide) reachable_four (by decide) rfl (by decide) (by decide)

/-- Four bytes in two buffers: `sendmsg` is told of four buffers, and nothing is defined then. -/
theorem not_sends_four :
    (¬ ∀ b s length (socket : Socket), 1 ≤ b → (ByteArray.calls b).Reachable s →
      socket.isConnected = true → 1 ≤ length → length ≤ s.getReadSize →
        HandsBuffers s length ∧ SendsRest socket s length) ∧
      handed 4 four = .ok ([⟨0, 0, 2⟩, ⟨1, 0, 2⟩], 4) four := by
  have hhanded : handed 4 four = .ok ([⟨0, 0, 2⟩, ⟨1, 0, 2⟩], 4) four := rfl
  refine ⟨fun h => ?_, hhanded⟩
  obtain ⟨⟨buffers, n, -, hbuffers⟩, -⟩ :=
    h 2 four 4 ⟨true, fun _ => 1⟩ (by decide) reachable_four rfl (by decide) (by decide)
  rw [hhanded] at hbuffers
  simp only [EStateM.Result.ok.injEq, Prod.mk.injEq, and_true] at hbuffers
  obtain ⟨rfl, hcount⟩ := hbuffers
  exact absurd hcount (by decide)

end Write

end SocketStream

end YXTWebCpp
