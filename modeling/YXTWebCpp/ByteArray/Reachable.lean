import YXTWebCpp.ByteArray.Strings
import YXTWebCpp.LTS.Basic

/-!
# The states of a byte array

What can be done with an array are calls of its methods.  Most of them change it only through a few
others: these are the actions of a transition system, and what it reaches is what any caller can
bring about, reading until an exception is thrown included.

* `getWriteBuffers`, `store` : buffers for bytes that are to come, and the bytes that come.
* `Call`, `calls b` : the calls that change an array of base size `b`.
* `Keeps` : a method keeps the invariant, also where it throws.
* `inv_of_reachable` : **every state that is reached is well formed**.
* `Within`, `Within.bind` : methods that call these reach no other states.
* `within_readValue`, `within_writeValue`, `within_readString`, `within_writeString` : so it is for
  the typed methods.
-/

namespace YXTWebCpp

namespace ByteArray

open Blocks

/-! ### Buffers for bytes that are to come -/

/-- `getWriteBuffers`: what is pushed to `buffers`, and the result. -/
def getWriteBuffers (len : ℕ) : M (List IOVec × ℕ) := fun s =>
  if len = 0 then .ok ([], 0) s
  else
    let s := s.addCapacity len
    match iovecs (s.cur.getD 0) s.nodes (s.position % s.baseSize) len with
    | none => .error .nullPointer s
    | some buffers => .ok (buffers, len) s

/-- Bytes are stored in the memory that some buffers point to, one buffer after the other. -/
def store (s : ByteArray) (buffers : List IOVec) (bytes : List UInt8) : ByteArray :=
  { s with blocks := scatter s.blocks (buffers.map IOVec.piece) bytes }

section Store

variable {s : ByteArray} {buffers : List IOVec} {p q : ℕ}

/-- Storing changes nothing but the bytes in the range that the buffers cover. -/
theorem Inv.store (h : s.Inv) (htiles : Tiles s.baseSize p (buffers.map IOVec.piece) q)
    (hq : q ≤ s.capacity) (bytes : List UInt8) (hbytes : p + bytes.length ≤ q) :
    (s.store buffers bytes).Inv ∧
      (s.store buffers bytes).blocks.flatten = overwrite s.blocks.flatten p bytes := by
  obtain ⟨hu, hlength, hflat⟩ := htiles.scatter_eq h.uniform (h.length_flatten ▸ hq) bytes hbytes
  refine ⟨⟨h.base_pos, hu, ?_, ?_, h.position_le, h.size_le, ?_⟩, hflat⟩
  · rw [ByteArray.store, hlength]
    exact h.capacity_eq
  · exact List.ne_nil_of_length_pos (hlength ▸ List.length_pos_of_ne_nil h.root)
  · simp only [ByteArray.store, pointer, hlength]
    exact h.cur_eq

/-- `getWriteBuffers` makes room, and the buffers cover it. -/
theorem Inv.getWriteBuffers_eq (h : s.Inv) {len : ℕ} (hlen : 0 < len) :
    ∃ buffers, getWriteBuffers len s = .ok (buffers, len) (s.addCapacity len) ∧
      Tiles s.baseSize s.position (buffers.map IOVec.piece) (s.position + len) ∧
      s.position + len ≤ (s.addCapacity len).capacity := by
  have hroom := (h.addCapacity_capacity hlen).1
  have hg := h.addCapacity len
  have hlt : (s.addCapacity len).position < (s.addCapacity len).capacity := by
    rw [addCapacity_position]
    omega
  obtain ⟨buffers, hbuf, htiles, -⟩ := hg.iovecs_tiles hlen
    (p := (s.addCapacity len).position) (by rwa [addCapacity_position])
  rw [addCapacity_position, addCapacity_baseSize] at htiles
  refine ⟨buffers, ?_, htiles, hroom⟩
  rw [getWriteBuffers, if_neg (Nat.ne_of_gt hlen)]
  simp only [hg.cur_of_lt hlt, hg.nodes_of_lt hlt, Option.getD_some, hbuf]

end Store

/-! ### The calls -/

/-- A call that may change the array. -/
inductive Call where
  | write (buf : List UInt8)
  | read (size : ℕ)
  | setPosition (v : ℕ)
  | clear
  | setIsLittleEndian (val : Bool)
  /-- `getWriteBuffers`, and the bytes that are then stored in the buffers. -/
  | getWriteBuffers (len : ℕ) (bytes : List UInt8)

/-- What a call does. -/
def Call.run : Call → M Unit
  | .write buf => ByteArray.write buf
  | .read size => (fun _ => ()) <$> ByteArray.read size
  | .setPosition v => ByteArray.setPosition v
  | .clear => ByteArray.clear
  | .setIsLittleEndian val => ByteArray.setIsLittleEndian val
  | .getWriteBuffers len bytes => do
    let r ← ByteArray.getWriteBuffers len
    modify fun s => s.store r.1 (bytes.take len)

/-- The state after a method, also if it throws; there is none if a null pointer is dereferenced. -/
def after {α : Type} : EStateM.Result Error ByteArray α → Option ByteArray
  | .ok _ s => some s
  | .error .nullPointer _ => none
  | .error _ s => some s

@[simp] theorem after_map {α β : Type} (f : α → β) (x : M α) (s : ByteArray) :
    after ((f <$> x) s) = after (x s) := by
  change after (EStateM.map f x s) = _
  rw [EStateM.map]
  cases x s with
  | ok a s' => rfl
  | error e s' => cases e <;> rfl

/-- The arrays of base size `b` and their callers. -/
def calls (b : ℕ) : System ByteArray Call where
  init s := ∃ mem, s = new b mem
  step s c := after (c.run s)

/-! ### The invariant -/

/-- `x` keeps the invariant and the base size. -/
def Keeps {α : Type} (x : M α) : Prop :=
  ∀ s s', s.Inv → after (x s) = some s' → s'.Inv ∧ s'.baseSize = s.baseSize

section Keeps

variable {s s' : ByteArray}

theorem keeps_write (buf : List UInt8) : Keeps (write buf) := by
  intro s s' h hafter
  obtain ⟨s₁, hs₁, hinv, -, -, hbase, -⟩ := h.write_eq buf
  rw [hs₁] at hafter
  obtain rfl := Option.some.inj hafter
  exact ⟨hinv, hbase⟩

/-- What a read can end in. -/
theorem Inv.read_cases (h : s.Inv) (n : ℕ) :
    s.getReadSize < n ∧ read n s = .error (.outOfRange "not enough len") s ∨
      n = 0 ∧ s.position = s.capacity ∧ read n s = .error .nullPointer s ∨
      n ≤ s.getReadSize ∧ s.position < s.capacity ∧
        read n s = .ok ((s.data.drop s.position).take n)
          { s with
            position := s.position + n
            cur := s.pointer ((s.position + n) / s.baseSize) } := by
  have hposition := h.position_le
  have hsize := h.size_le
  by_cases hn : s.getReadSize < n
  · exact .inl ⟨hn, read_eq_error hn⟩
  · by_cases hlt : s.position < s.capacity
    · exact .inr (.inr ⟨not_lt.1 hn, hlt, h.read_eq hlt (not_lt.1 hn)⟩)
    · -- at the end of the capacity there is nothing to read
      rw [getReadSize] at hn
      obtain rfl : n = 0 := by omega
      have hend : s.position = s.capacity := by omega
      exact .inr (.inl ⟨rfl, hend, h.read_zero_eq_error hend⟩)

theorem keeps_read (n : ℕ) : Keeps (read n) := by
  intro s s' h hafter
  have hposition := h.position_le
  obtain ⟨-, hr⟩ | ⟨-, -, hr⟩ | ⟨hn, hlt, hr⟩ := h.read_cases n
  · rw [hr] at hafter
    obtain rfl := Option.some.inj hafter
    exact ⟨h, rfl⟩
  · rw [hr] at hafter
    exact absurd hafter (Option.some_ne_none _).symm
  · rw [hr] at hafter
    obtain rfl := Option.some.inj hafter
    rw [getReadSize] at hn
    exact ⟨h.move (by omega), rfl⟩

theorem keeps_setPosition (v : ℕ) : Keeps (setPosition v) := by
  intro s s' h hafter
  by_cases hv : s.capacity < v
  · rw [setPosition, if_pos hv] at hafter
    obtain rfl := Option.some.inj hafter
    exact ⟨h, rfl⟩
  · rw [h.setPosition_ok (not_lt.1 hv)] at hafter
    obtain rfl := Option.some.inj hafter
    exact ⟨h.seek (not_lt.1 hv), rfl⟩

theorem keeps_clear : Keeps clear := by
  intro s s' h hafter
  obtain ⟨s₁, hs₁, hinv, -⟩ := h.clear_eq
  have hbase : s₁.baseSize = s.baseSize := by
    rw [clear] at hs₁
    injection hs₁ with _ hs₁
    rw [← hs₁]
  rw [hs₁] at hafter
  obtain rfl := Option.some.inj hafter
  exact ⟨hinv, hbase⟩

theorem keeps_setIsLittleEndian (val : Bool) : Keeps (setIsLittleEndian val) := by
  intro s s' h hafter
  obtain rfl := Option.some.inj hafter
  exact ⟨{ h with }, rfl⟩

theorem keeps_getWriteBuffers (len : ℕ) (bytes : List UInt8) :
    Keeps (Call.getWriteBuffers len bytes).run := by
  intro s s' h hafter
  rw [Call.run] at hafter
  by_cases hlen : len = 0
  · have hbuf : getWriteBuffers len s = .ok ([], 0) s := by rw [getWriteBuffers, if_pos hlen]
    rw [bind_ok hbuf] at hafter
    obtain rfl := Option.some.inj hafter
    exact ⟨h, rfl⟩
  · obtain ⟨buffers, hbuf, htiles, hroom⟩ := h.getWriteBuffers_eq (Nat.pos_of_ne_zero hlen)
    rw [bind_ok hbuf] at hafter
    obtain rfl := Option.some.inj hafter
    rw [← addCapacity_baseSize (s := s) len] at htiles
    refine ⟨((h.addCapacity len).store htiles hroom _ ?_).1, addCapacity_baseSize len⟩
    rw [List.length_take]
    omega

theorem Call.keeps (c : Call) : Keeps c.run := by
  cases c with
  | write buf => exact keeps_write buf
  | read size =>
    intro s s' h hafter
    rw [Call.run, after_map] at hafter
    exact keeps_read size s s' h hafter
  | setPosition v => exact keeps_setPosition v
  | clear => exact keeps_clear
  | setIsLittleEndian val => exact keeps_setIsLittleEndian val
  | getWriteBuffers len bytes => exact keeps_getWriteBuffers len bytes

end Keeps

/-- Every state that is reached is well formed. -/
theorem inv_of_reachable {b : ℕ} (hb : 1 ≤ b) {s : ByteArray} (h : (calls b).Reachable s) :
    s.Inv ∧ s.baseSize = b := by
  refine h.invariant (I := fun s => s.Inv ∧ s.baseSize = b) ?_ ?_
  · rintro s ⟨mem, rfl⟩
    exact ⟨inv_new hb mem, rfl⟩
  · rintro s c s' - ⟨hinv, hbase⟩ - hstep
    obtain ⟨hinv', hbase'⟩ := c.keeps s s' hinv hstep
    exact ⟨hinv', hbase'.trans hbase⟩

/-! ### The methods that make these calls -/

/-- Where `x` is called in a state that is reached, it ends in one. -/
def Within {α : Type} (b : ℕ) (x : M α) : Prop :=
  ∀ s s', (calls b).Reachable s → after (x s) = some s' → (calls b).Reachable s'

section Within

variable {b : ℕ} {α β : Type}

theorem within_call (c : Call) : Within b c.run :=
  fun _ _ hs hafter => .step hs trivial hafter

theorem within_write (buf : List UInt8) : Within b (write buf) := within_call (.write buf)

theorem within_read (n : ℕ) : Within b (read n) :=
  fun s _ hs hafter => within_call (.read n) s _ hs (by rw [Call.run, after_map, hafter])

theorem within_pure (a : α) : Within b (pure a : M α) := by
  intro s s' hs hafter
  obtain rfl := Option.some.inj hafter
  exact hs

theorem within_throw (e : Error) : Within b (throw e : M α) := by
  intro s s' hs hafter
  cases e with
  | nullPointer => exact absurd hafter (Option.some_ne_none _).symm
  | outOfRange | lengthError =>
    obtain rfl := Option.some.inj hafter
    exact hs

theorem within_get : Within b (get : M ByteArray) := by
  intro s s' hs hafter
  obtain rfl := Option.some.inj hafter
  exact hs

theorem Within.bind {x : M α} {f : α → M β} (hx : Within b x) (hf : ∀ a, Within b (f a)) :
    Within b (x >>= f) := by
  intro s s' hs hafter
  cases hr : x s with
  | ok a s₁ =>
    rw [bind_ok hr] at hafter
    exact hf a s₁ s' (hx s s₁ hs (by rw [hr, after])) hafter
  | error e s₁ =>
    rw [bind_error hr] at hafter
    refine hx s s' hs ?_
    rw [hr, ← hafter]
    cases e <;> rfl

theorem Within.map {x : M α} (f : α → β) (hx : Within b x) : Within b (f <$> x) :=
  fun s _ hs hafter => hx s _ hs (by rw [← hafter, after_map])

theorem within_writeFixed (n v : ℕ) : Within b (writeFixed n v) :=
  fun s => within_write (fixedBytes s.endian n v) s

theorem within_writeValue (v : Value) : Within b (writeValue v) := by
  cases v with
  | fint8 | fuint8 | int32 | uint32 | int64 | uint64 =>
    rw [writeValue]
    exact within_write _
  | float v => exact within_writeFixed 4 v.toNat
  | double v => exact within_writeFixed 8 v.toNat
  | _ =>
    rw [writeValue]
    exact within_writeFixed _ _

theorem within_readFixed (n : ℕ) : Within b (readFixed n) :=
  (within_read n).bind fun _ => within_get.bind fun _ => within_pure _

/-- The loop reads one byte after the other. -/
theorem within_readVarint (w i r : ℕ) : Within b (readVarint w i r) := by
  induction i, r using readVarint.induct w with
  | case1 i r hi ih =>
    rw [readVarint, if_pos hi]
    refine ((within_read 1).map _).bind fun v => ?_
    split_ifs
    · exact within_pure _
    · exact ih v
  | case2 i r hi =>
    rw [readVarint, if_neg hi]
    exact within_pure _

theorem within_readValue (k : Kind) : Within b (readValue k) := by
  cases k with
  | fint8 | fuint8 => exact ((within_read 1).map _).map _
  | uint32 | uint64 => exact ((within_readVarint _ 0 0).map _).map _
  | int32 | int64 => exact (((within_readVarint _ 0 0).map _).map _).map _
  | _ => exact ((within_readFixed _).map _).map _

theorem within_writeString (v : StringValue) : Within b (writeString v) := by
  obtain ⟨format, content, hmax, hshort⟩ := v
  cases format with
  | vint => exact (within_write _).bind fun _ => within_write content
  | _ => exact (within_writeFixed _ _).bind fun _ => within_write content

theorem within_readBuff (len : ℕ) : Within b (readBuff len) := by
  rw [readBuff]
  split_ifs
  · exact within_throw _
  · exact within_read len

theorem within_readString (f : Format) : Within b (readString f) := by
  cases f with
  | vint => exact ((within_readVarint _ 0 0).map _).bind fun _ => within_readBuff _
  | _ => exact ((within_readFixed _).map _).bind fun _ => within_readBuff _

end Within

end ByteArray

end YXTWebCpp
