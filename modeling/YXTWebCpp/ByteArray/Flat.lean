import YXTWebCpp.ByteArray.Basic
import YXTWebCpp.LTS.Object

/-!
# The byte array is a flat buffer

What the blocks are for is to grow without moving the bytes; they are not to be seen.  A flat buffer
is a list of bytes with a cursor.

* `Flat` : the flat buffer, with the operations as one expects them.
* `Op`, `Obs` : the calls, and what is observed of one: what it returns or throws, and what
  `getPosition`, `getSize` and `getReadSize` return afterwards.
* `byteArray`, `flat` : both of them as objects.
* `Refines` : the array holds the bytes of the buffer and stands at its cursor.
* `refines_flat` : **no sequence of calls tells the array from the buffer**, whatever the base size.
-/

namespace YXTWebCpp

namespace ByteArray

open Blocks

/-- A growable array with a cursor. -/
structure Flat where
  /-- The bytes. -/
  data : List UInt8
  /-- The position of the cursor. -/
  cursor : ℕ

namespace Flat

/-- Nothing is stored. -/
def empty : Flat := ⟨[], 0⟩

/-- Overwrite and extend at the cursor. -/
def write (t : Flat) (bytes : List UInt8) : Flat :=
  ⟨overwrite t.data t.cursor bytes, t.cursor + bytes.length⟩

/-- The bytes from the cursor on. -/
def rest (t : Flat) : List UInt8 := t.data.drop t.cursor

/-- The cursor is moved. -/
def seek (t : Flat) (v : ℕ) : Flat := { t with cursor := v }

@[simp] theorem length_rest (t : Flat) : t.rest.length = t.data.length - t.cursor :=
  List.length_drop

theorem rest_seek_add (t : Flat) (n : ℕ) : (t.seek (t.cursor + n)).rest = t.rest.drop n := by
  rw [rest, rest, seek, List.drop_drop]

/-- Bytes that are written one after the other. -/
theorem write_write {t : Flat} (h : t.cursor ≤ t.data.length) (xs ys : List UInt8) :
    (t.write xs).write ys = t.write (xs ++ ys) := by
  simp only [write, List.length_append, Nat.add_assoc, mk.injEq, and_true]
  exact overwrite_overwrite h xs ys

/-- At the end, writing is appending. -/
theorem write_end {t : Flat} (h : t.cursor = t.data.length) (xs : List UInt8) :
    t.write xs = ⟨t.data ++ xs, (t.data ++ xs).length⟩ := by
  rw [write, h, overwrite_length, List.length_append]

end Flat

/-- A call of a method. -/
inductive Op where
  | write (bytes : List UInt8)
  | read (n : ℕ)
  | setPosition (v : ℕ)
  | clear
  | toString
  | getReadBuffers (len : ℕ)

/-- What a call returns or throws. -/
inductive Result where
  /-- A `void` method has returned. -/
  | done
  /-- The bytes of `read` and `toString`. -/
  | bytes (bytes : List UInt8)
  /-- The bytes in the buffers of `getReadBuffers`, and what it returns. -/
  | buffers (bytes : List UInt8) (size : ℕ)
  /-- An exception, or undefined behaviour. -/
  | error (e : Error)
deriving DecidableEq, Repr

/-- What is observed of a call. -/
structure Obs where
  /-- What it returns or throws. -/
  result : Result
  /-- `getPosition()`, `getSize()` and `getReadSize()` afterwards. -/
  position : ℕ
  size : ℕ
  readSize : ℕ
deriving DecidableEq, Repr

/-- What is returned or thrown, and the array afterwards. -/
def outcome {α : Type} (f : α → Result) : EStateM.Result Error ByteArray α → Result × ByteArray
  | .ok a s => (f a, s)
  | .error e s => (.error e, s)

/-- The call of a method. -/
def call (s : ByteArray) : Op → Result × ByteArray
  | .write bytes => outcome (fun _ => .done) (write bytes s)
  | .read n => outcome .bytes (read n s)
  | .setPosition v => outcome (fun _ => .done) (setPosition v s)
  | .clear => outcome (fun _ => .done) (clear s)
  | .toString => outcome .bytes (toString s)
  | .getReadBuffers len =>
    -- the buffers point into the nodes: what is seen of them is the bytes
    outcome (fun r => .buffers (s.gather r.1) r.2) (getReadBuffers len s)

/-- The byte array as an object. -/
def byteArray : Object ByteArray Op Obs where
  step s op :=
    let r := s.call op
    (⟨r.1, r.2.getPosition, r.2.getSize, r.2.getReadSize⟩, r.2)

/-- The calls that the buffer is compared for. -/
def InRange (s : ByteArray) : Op → Prop
  | .read n => 1 ≤ n
  | .setPosition v => v ≤ s.getSize
  | _ => True

instance (s : ByteArray) : ∀ op, Decidable (s.InRange op)
  | .read n => inferInstanceAs (Decidable (1 ≤ n))
  | .setPosition v => inferInstanceAs (Decidable (v ≤ s.getSize))
  | .write _ | .clear | .toString | .getReadBuffers _ => .isTrue trivial

namespace Flat

/-- The call of a method, for the buffer. -/
def call (t : Flat) : Op → Result × Flat
  | .write bytes => (.done, t.write bytes)
  | .read n =>
    if t.rest.length < n then (.error (.outOfRange "not enough len"), t)
    else (.bytes (t.rest.take n), t.seek (t.cursor + n))
  | .setPosition v => (.done, t.seek v)
  | .clear => (.done, empty)
  | .toString => (.bytes t.rest, t)
  | .getReadBuffers len => (.buffers (t.rest.take len) (min t.rest.length len), t)

/-- The flat buffer as an object. -/
def flat : Object Flat Op Obs where
  step t op :=
    let r := t.call op
    (⟨r.1, r.2.cursor, r.2.data.length, r.2.rest.length⟩, r.2)

/-- The calls that the array is compared for. -/
def InRange (t : Flat) : Op → Prop
  | .read n => 1 ≤ n
  | .setPosition v => v ≤ t.data.length
  | _ => True

end Flat

/-- The array holds the bytes of the buffer, and stands at its cursor. -/
structure Refines (s : ByteArray) (t : Flat) : Prop where
  inv : s.Inv
  data_eq : s.data = t.data
  position_eq : s.position = t.cursor

theorem refines_new {b : ℕ} (hb : 1 ≤ b) (mem : ℕ → ℕ → UInt8) : (new b mem).Refines .empty :=
  ⟨inv_new hb mem, data_new b mem, rfl⟩

namespace Refines

variable {s : ByteArray} {t : Flat}

theorem size_eq (h : s.Refines t) : s.size = t.data.length := by
  rw [← h.inv.length_data, h.data_eq]

theorem rest_eq (h : s.Refines t) : s.data.drop s.position = t.rest := by
  rw [h.data_eq, h.position_eq, Flat.rest]

theorem cursor_le (h : s.Refines t) : t.cursor ≤ t.data.length := by
  rw [← h.position_eq, ← h.size_eq]
  exact h.inv.position_le

theorem getReadSize_eq (h : s.Refines t) : s.getReadSize = t.rest.length := by
  rw [getReadSize, h.size_eq, h.position_eq, Flat.length_rest]

/-- The array after the position has been moved. -/
theorem seek (h : s.Refines t) {v : ℕ} (hv : v ≤ t.data.length) :
    ({ s with position := v, cur := s.pointer (v / s.baseSize) } : ByteArray).Refines (t.seek v) :=
  ⟨h.inv.move (h.size_eq ▸ hv), h.data_eq, rfl⟩

theorem write (h : s.Refines t) (bytes : List UInt8) :
    ∃ s', ByteArray.write bytes s = .ok () s' ∧ s'.Refines (t.write bytes) ∧
      s'.baseSize = s.baseSize ∧ s'.endian = s.endian ∧ (s.Tight → s'.Tight) := by
  obtain ⟨s', hs', hinv, hdata, hpos, hframe⟩ := h.inv.write_eq bytes
  refine ⟨s', hs', ⟨hinv, ?_, ?_⟩, hframe⟩
  · rw [hdata, h.data_eq, h.position_eq, Flat.write]
  · rw [hpos, h.position_eq, Flat.write]

theorem read (h : s.Refines t) {n : ℕ} (hn : n ≤ t.rest.length) (hlt : s.position < s.capacity) :
    ∃ s', ByteArray.read n s = .ok (t.rest.take n) s' ∧ s'.Refines (t.seek (t.cursor + n)) ∧
      s'.baseSize = s.baseSize ∧ s'.endian = s.endian ∧ s'.capacity = s.capacity := by
  have hposition := h.inv.position_le
  have hsize := h.size_eq
  rw [h.position_eq] at hposition
  rw [h.inv.read_eq hlt (h.getReadSize_eq ▸ hn), h.rest_eq, h.position_eq]
  refine ⟨_, rfl, h.seek ?_, rfl, rfl, rfl⟩
  rw [Flat.length_rest] at hn
  omega

/-- There is something to read only in front of the capacity. -/
theorem position_lt (h : s.Refines t) (hpos : 0 < t.rest.length) : s.position < s.capacity := by
  have hsize := h.inv.size_le
  rw [← h.getReadSize_eq, getReadSize] at hpos
  omega

end Refines

/-- A call returns the same for the array and for the buffer, and keeps them together. -/
theorem Refines.call {s : ByteArray} {t : Flat} (h : s.Refines t) {op : Op} (hop : t.InRange op) :
    (s.call op).1 = (t.call op).1 ∧ (s.call op).2.Refines (t.call op).2 := by
  cases op with
  | write bytes =>
    obtain ⟨s', hs', hr, -⟩ := h.write bytes
    simp only [ByteArray.call, hs']
    exact ⟨rfl, hr⟩
  | read n =>
    rw [ByteArray.call, Flat.call]
    by_cases hlt : t.rest.length < n
    · rw [if_pos hlt, read_eq_error (h.getReadSize_eq ▸ hlt)]
      exact ⟨rfl, h⟩
    · -- something is read, so there is something to read and `m_cur` is not null
      have hn : 1 ≤ n := hop
      obtain ⟨s', hs', hr, -⟩ := h.read (n := n) (by omega) (h.position_lt (by omega))
      rw [if_neg hlt, hs']
      exact ⟨rfl, hr⟩
  | setPosition v =>
    have hv : v ≤ s.size := h.size_eq ▸ hop
    rw [ByteArray.call, h.inv.setPosition_eq hv]
    exact ⟨rfl, h.seek hop⟩
  | clear =>
    obtain ⟨s', hs', hinv, hdata, hpos⟩ := h.inv.clear_eq
    rw [ByteArray.call, hs']
    exact ⟨rfl, hinv, hdata, hpos⟩
  | toString =>
    rw [ByteArray.call, h.inv.toString_eq, h.rest_eq]
    exact ⟨rfl, h⟩
  | getReadBuffers len =>
    obtain ⟨buffers, hbuf, hbytes⟩ := h.inv.getReadBuffers_eq len
    rw [ByteArray.call, hbuf]
    simp only [outcome, hbytes, h.rest_eq, h.getReadSize_eq]
    exact ⟨rfl, h⟩

theorem simulates_flat : byteArray.Simulates Flat.flat InRange Flat.InRange Refines where
  allowed {s t op} h := by
    cases op with
    | setPosition v => simp only [InRange, Flat.InRange, getSize, h.size_eq]
    | _ => exact Iff.rfl
  observed {s t op} h hop := by
    obtain ⟨hres, hr⟩ := h.call hop
    simp only [byteArray, Flat.flat, getPosition, getSize, hres, hr.position_eq, hr.size_eq,
      hr.getReadSize_eq]
  kept h hop := (h.call hop).2

/-- **No sequence of calls tells the array from a flat buffer**: every call returns or throws the
same, and leaves the same position, size and number of bytes to read.  So arrays with different base
sizes cannot be told apart either. -/
theorem refines_flat {b : ℕ} (hb : 1 ≤ b) (mem : ℕ → ℕ → UInt8) {ops : List Op}
    (hops : byteArray.Allowed InRange (new b mem) ops) :
    byteArray.trace (new b mem) ops = Flat.flat.trace .empty ops ∧
      ∀ b' mem', 1 ≤ b' → byteArray.trace (new b' mem') ops = byteArray.trace (new b mem) ops := by
  have hflat := (simulates_flat.allowed_iff (refines_new hb mem) ops).1 hops
  have htrace := simulates_flat.trace_eq (refines_new hb mem) hflat
  refine ⟨htrace, fun b' mem' hb' => ?_⟩
  rw [htrace, simulates_flat.trace_eq (refines_new hb' mem') hflat]

/-- Bytes are written over the end of a node, read back, overwritten, and read beyond the end. -/
def overNodes : List Op :=
  [.write [1, 2, 3, 4, 5], .setPosition 2, .write [9, 9], .read 1, .read 1, .setPosition 1,
    .getReadBuffers 3, .toString, .setPosition 5, .write [6], .clear, .write [7], .toString]

theorem refines_flat_over_nodes :
    byteArray.trace (new 2 fun _ _ => 0) overNodes =
        [⟨.done, 5, 5, 0⟩, ⟨.done, 2, 5, 3⟩, ⟨.done, 4, 5, 1⟩, ⟨.bytes [5], 5, 5, 0⟩,
          ⟨.error (.outOfRange "not enough len"), 5, 5, 0⟩, ⟨.done, 1, 5, 4⟩,
          ⟨.buffers [2, 9, 9] 3, 1, 5, 4⟩, ⟨.bytes [2, 9, 9, 5], 1, 5, 4⟩, ⟨.done, 5, 5, 0⟩,
          ⟨.done, 6, 6, 0⟩, ⟨.done, 0, 0, 0⟩, ⟨.done, 1, 1, 0⟩, ⟨.bytes [], 1, 1, 0⟩] ∧
      byteArray.trace (new 2 fun _ _ => 0) overNodes = Flat.flat.trace .empty overNodes :=
  ⟨by decide +kernel, (refines_flat (by decide) _ (by decide +kernel)).1⟩

end ByteArray

end YXTWebCpp
