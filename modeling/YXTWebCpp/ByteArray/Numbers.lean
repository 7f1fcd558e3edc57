import YXTWebCpp.ByteArray.Typed

/-!
# Numbers are read back

Numbers of different types are written one after the other, the byte order being changed between
them at will.  Read in the same way from the beginning on, they come back.

* `Value`, `Kind` : a number together with its type, and the type alone.
* `writeValue`, `readValue` : the call of the method for the type.
* `writes_writeValue`, `reads_readValue` : the bytes that a number is written as, and that they are
  read as this number.
* `numbers_read_back` : **all numbers are read back, each from the bytes that it was written to**.
-/

namespace YXTWebCpp

namespace ByteArray

open Codec

/-- A number and the type that it is written with; floating-point numbers are given by their
bits. -/
inductive Value where
  | fint8 (v : Int8)
  | fuint8 (v : UInt8)
  | fint16 (v : Int16)
  | fuint16 (v : UInt16)
  | fint32 (v : Int32)
  | fuint32 (v : UInt32)
  | fint64 (v : Int64)
  | fuint64 (v : UInt64)
  | int32 (v : Int32)
  | uint32 (v : UInt32)
  | int64 (v : Int64)
  | uint64 (v : UInt64)
  | float (v : UInt32)
  | double (v : UInt64)
deriving DecidableEq

/-- The types. -/
inductive Kind where
  | fint8 | fuint8 | fint16 | fuint16 | fint32 | fuint32 | fint64 | fuint64
  | int32 | uint32 | int64 | uint64
  | float | double
deriving DecidableEq, Repr

/-- The type of a number. -/
def Value.kind : Value → Kind
  | .fint8 _ => .fint8
  | .fuint8 _ => .fuint8
  | .fint16 _ => .fint16
  | .fuint16 _ => .fuint16
  | .fint32 _ => .fint32
  | .fuint32 _ => .fuint32
  | .fint64 _ => .fint64
  | .fuint64 _ => .fuint64
  | .int32 _ => .int32
  | .uint32 _ => .uint32
  | .int64 _ => .int64
  | .uint64 _ => .uint64
  | .float _ => .float
  | .double _ => .double

/-- The write method for a number. -/
def writeValue : Value → M Unit
  | .fint8 v => writeFint8 v
  | .fuint8 v => writeFuint8 v
  | .fint16 v => writeFint16 v
  | .fuint16 v => writeFuint16 v
  | .fint32 v => writeFint32 v
  | .fuint32 v => writeFuint32 v
  | .fint64 v => writeFint64 v
  | .fuint64 v => writeFuint64 v
  | .int32 v => writeInt32 v
  | .uint32 v => writeUint32 v
  | .int64 v => writeInt64 v
  | .uint64 v => writeUint64 v
  | .float v => writeFloat v
  | .double v => writeDouble v

/-- The read method for a type. -/
def readValue : Kind → M Value
  | .fint8 => .fint8 <$> readFint8
  | .fuint8 => .fuint8 <$> readFuint8
  | .fint16 => .fint16 <$> readFint16
  | .fuint16 => .fuint16 <$> readFuint16
  | .fint32 => .fint32 <$> readFint32
  | .fuint32 => .fuint32 <$> readFuint32
  | .fint64 => .fint64 <$> readFint64
  | .fuint64 => .fuint64 <$> readFuint64
  | .int32 => .int32 <$> readInt32
  | .uint32 => .uint32 <$> readUint32
  | .int64 => .int64 <$> readInt64
  | .uint64 => .uint64 <$> readUint64
  | .float => .float <$> readFloat
  | .double => .double <$> readDouble

/-- The bytes of a number, with the byte order `e`. -/
def Value.bytes (e : Endian) : Value → List UInt8
  | .fint8 v => leBytes 1 v.toUInt8.toNat
  | .fuint8 v => leBytes 1 v.toNat
  | .fint16 v => fixedBytes e 2 v.toUInt16.toNat
  | .fuint16 v => fixedBytes e 2 v.toNat
  | .fint32 v => fixedBytes e 4 v.toUInt32.toNat
  | .fuint32 v => fixedBytes e 4 v.toNat
  | .fint64 v => fixedBytes e 8 v.toUInt64.toNat
  | .fuint64 v => fixedBytes e 8 v.toNat
  | .int32 v => varint (encodeZigzag32 v).toNat
  | .uint32 v => varint v.toNat
  | .int64 v => varint (encodeZigzag64 v).toNat
  | .uint64 v => varint v.toNat
  | .float v => fixedBytes e 4 v.toNat
  | .double v => fixedBytes e 8 v.toNat

theorem writes_writeValue (e : Endian) (v : Value) : Writes e (writeValue v) (v.bytes e) := by
  cases v with
  | fint8 v => exact writes_write e (leBytes 1 v.toUInt8.toNat)
  | fuint8 v => exact writes_write e (leBytes 1 v.toNat)
  | fint16 v => exact writes_writeFixed e 2 v.toUInt16.toNat
  | fuint16 v => exact writes_writeFixed e 2 v.toNat
  | fint32 v => exact writes_writeFixed e 4 v.toUInt32.toNat
  | fuint32 v | float v => exact writes_writeFixed e 4 v.toNat
  | fint64 v => exact writes_writeFixed e 8 v.toUInt64.toNat
  | fuint64 v | double v => exact writes_writeFixed e 8 v.toNat
  | int32 v => exact writes_write e (varint (encodeZigzag32 v).toNat)
  | int64 v => exact writes_write e (varint (encodeZigzag64 v).toNat)
  | uint32 v | uint64 v => exact writes_write e (varint v.toNat)

theorem leBytes_one (v : UInt8) : leBytes 1 v.toNat = [v] := by
  simp [leBytes]

section Read

variable (e : Endian)

theorem reads_readFint8 (v : Int8) : Reads e readFint8 (leBytes 1 v.toUInt8.toNat) v := by
  have hne : leBytes 1 v.toUInt8.toNat ≠ [] := by simp [leBytes]
  refine (reads_read e hne).map_eq ?_
  rw [ofLeBytes_leBytes v.toUInt8.toNat_lt, UInt8.ofNat_toNat, Int8.toInt8_toUInt8]

theorem reads_readFuint16 (v : UInt16) : Reads e readFuint16 (fixedBytes e 2 v.toNat) v :=
  (reads_readFixed e (by decide) v.toNat_lt).map_eq UInt16.ofNat_toNat

theorem reads_readFuint32 (v : UInt32) : Reads e readFuint32 (fixedBytes e 4 v.toNat) v :=
  (reads_readFixed e (by decide) v.toNat_lt).map_eq UInt32.ofNat_toNat

theorem reads_readFuint64 (v : UInt64) : Reads e readFuint64 (fixedBytes e 8 v.toNat) v :=
  (reads_readFixed e (by decide) v.toNat_lt).map_eq UInt64.ofNat_toNat

theorem reads_readFint16 (v : Int16) :
    Reads e readFint16 (fixedBytes e 2 v.toUInt16.toNat) v :=
  (reads_readFixed e (by decide) v.toUInt16.toNat_lt).map_eq (by simp)

theorem reads_readFint32 (v : Int32) :
    Reads e readFint32 (fixedBytes e 4 v.toUInt32.toNat) v :=
  (reads_readFixed e (by decide) v.toUInt32.toNat_lt).map_eq (by simp)

theorem reads_readFint64 (v : Int64) :
    Reads e readFint64 (fixedBytes e 8 v.toUInt64.toNat) v :=
  (reads_readFixed e (by decide) v.toUInt64.toNat_lt).map_eq (by simp)

/-- A varint of up to `w` bits. -/
theorem reads_varint {w v : ℕ} (hw : 0 < w) (hv : v < 2 ^ w) :
    Reads e (readVarint w 0 0) (varint v) v := by
  have h := reads_readVarint e (r := 0) (v := v) hw Nat.one_pos (by simpa using hv)
  simpa using h

theorem reads_readUint32 (v : UInt32) : Reads e readUint32 (varint v.toNat) v :=
  (reads_varint e (by decide) v.toNat_lt).map_eq UInt32.ofNat_toNat

theorem reads_readUint64 (v : UInt64) : Reads e readUint64 (varint v.toNat) v :=
  (reads_varint e (by decide) v.toNat_lt).map_eq UInt64.ofNat_toNat

theorem decodeZigzag32_encodeZigzag32 (v : Int32) : decodeZigzag32 (encodeZigzag32 v) = v := by
  rw [decodeZigzag32, encodeZigzag32, UInt32.toBitVec_ofBitVec, unzigzag_zigzag]
  rfl

theorem decodeZigzag64_encodeZigzag64 (v : Int64) : decodeZigzag64 (encodeZigzag64 v) = v := by
  rw [decodeZigzag64, encodeZigzag64, UInt64.toBitVec_ofBitVec, unzigzag_zigzag]
  rfl

/-- A number is read from the bytes that it is written as. -/
theorem reads_readValue (v : Value) : Reads e (readValue v.kind) (v.bytes e) v := by
  cases v with
  | fint8 v => exact (reads_readFint8 e v).map _
  | fuint8 v =>
    rw [Value.bytes, leBytes_one]
    exact (reads_byte e v).map _
  | fint16 v => exact (reads_readFint16 e v).map _
  | fuint16 v => exact (reads_readFuint16 e v).map _
  | fint32 v => exact (reads_readFint32 e v).map _
  | fuint32 v => exact (reads_readFuint32 e v).map _
  | fint64 v => exact (reads_readFint64 e v).map _
  | fuint64 v => exact (reads_readFuint64 e v).map _
  | int32 v => exact ((reads_readUint32 e _).map_eq (decodeZigzag32_encodeZigzag32 v)).map _
  | uint32 v => exact (reads_readUint32 e v).map _
  | int64 v => exact ((reads_readUint64 e _).map_eq (decodeZigzag64_encodeZigzag64 v)).map _
  | uint64 v => exact (reads_readUint64 e v).map _
  | float v => exact (reads_readFuint32 e v).map _
  | double v => exact (reads_readFuint64 e v).map _

end Read

/-- **Numbers are read back**: whatever numbers are written into a fresh array, with whatever byte
orders, after `setPosition(0)` calls for the same types with the same byte orders return them, each
behind the position to which it was written, and then there is nothing left to read. -/
theorem numbers_read_back {b : ℕ} (hb : 1 ≤ b) (mem : ℕ → ℕ → UInt8) (writes : List (Cmd Value)) :
    ∃ ps s, writeAll writeValue writes (new b mem) = .ok ps s ∧
      ∀ reads : List (Cmd Kind),
        settings s.endian reads = (settings .big writes).map (Prod.map id Value.kind) →
        ∃ s', (do setPosition 0; readAll readValue reads) s =
            .ok (((settings .big writes).map Prod.snd).zip ps) s' ∧ s'.getReadSize = 0 := by
  have hnew := refines_new hb mem
  obtain ⟨s, hs, hr, -, -⟩ := writeAll_eq writes_writeValue writes hnew rfl
  refine ⟨_, s, hs, fun reads hreads => ?_⟩
  rw [Flat.write_end rfl] at hr
  have hseek := hr.seek (v := 0) (Nat.zero_le _)
  obtain ⟨s', hs', hsize⟩ := readAll_eq reads_readValue reads hseek hreads rfl
  refine ⟨s', ?_, hsize⟩
  rw [bind_ok (hr.inv.setPosition_eq (Nat.zero_le _))]
  exact hs'

/-- Four numbers, two of them little-endian. -/
def mixedWrites : List (Cmd Value) :=
  [.call (.fint16 (-2)), .setIsLittleEndian true, .call (.uint64 300), .call (.fint32 7),
    .setIsLittleEndian false, .call (.double 0x3FF0000000000000)]

def mixedReads : List (Cmd Kind) :=
  [.setIsLittleEndian false, .call .fint16, .setIsLittleEndian true, .call .uint64, .call .fint32,
    .setIsLittleEndian false, .call .double]

theorem numbers_read_back_mixed :
    ∃ ps s s', writeAll writeValue mixedWrites (new 3 fun _ _ => 0) = .ok ps s ∧
      (do setPosition 0; readAll readValue mixedReads) s =
        .ok (([.fint16 (-2), .uint64 300, .fint32 7, .double 0x3FF0000000000000] :
          List Value).zip ps) s' ∧ s'.getReadSize = 0 := by
  obtain ⟨ps, s, hs, h⟩ := numbers_read_back (b := 3) (by decide) (fun _ _ => 0) mixedWrites
  obtain ⟨s', hs', hsize⟩ := h mixedReads rfl
  exact ⟨ps, s, s', hs, hs', hsize⟩

end ByteArray

end YXTWebCpp
