import YXTWebCpp.ByteArray.Flat
import YXTWebCpp.Codec.Basic

/-!
# Typed reads and writes

On top of `write` and `read` there is a pair of methods for every type of number.  Integers of fixed
width are stored in the byte order that has been set, the others as varints; floating-point numbers
are stored as integers with the same bits.

* `writeFint8`, …, `readDouble` : the methods.
* `Writes e x bytes`, `Reads e x bytes a` : with the byte order `e`, the method `x` writes the given
  bytes at the position; if they stand there, the method `x` reads them and returns `a`.
* `Writes.seq`, `Reads.bind`, `Reads.map` : methods that are called one after the other.
* `reads_readFixed`, `reads_readVarint` : integers are read from the bytes that they are written as.
* `Cmd`, `writeAll`, `readAll` : sequences of calls, with calls of `setIsLittleEndian` between them.
* `writeAll_eq`, `readAll_eq` : **what a sequence of calls writes a sequence of calls reads back**,
  if that is so for the single calls.
-/

namespace YXTWebCpp

namespace ByteArray

open Codec

/-! ### The methods -/

/-- `YXTWebCpp_BYTE_ORDER`, on a host that is little-endian. -/
def byteOrder : Endian := .little

/-- `setIsLittleEndian` -/
def setIsLittleEndian (val : Bool) : M Unit := fun s =>
  .ok () { s with endian := if val then .little else .big }

/-- The bytes in memory of an integer with `n` bytes, swapped if the byte order asks for it. -/
def fixedBytes (e : Endian) (n v : ℕ) : List UInt8 :=
  leBytes n (if e ≠ byteOrder then byteswap n v else v)

/-- What the methods for integers of `n` bytes do. -/
def writeFixed (n v : ℕ) : M Unit := fun s => write (fixedBytes s.endian n v) s

def writeFint8 (value : Int8) : M Unit := write (leBytes 1 value.toUInt8.toNat)
def writeFuint8 (value : UInt8) : M Unit := write (leBytes 1 value.toNat)
def writeFint16 (value : Int16) : M Unit := writeFixed 2 value.toUInt16.toNat
def writeFuint16 (value : UInt16) : M Unit := writeFixed 2 value.toNat
def writeFint32 (value : Int32) : M Unit := writeFixed 4 value.toUInt32.toNat
def writeFuint32 (value : UInt32) : M Unit := writeFixed 4 value.toNat
def writeFint64 (value : Int64) : M Unit := writeFixed 8 value.toUInt64.toNat
def writeFuint64 (value : UInt64) : M Unit := writeFixed 8 value.toNat

/-- `EncodeZigzag32` and `EncodeZigzag64` -/
def encodeZigzag32 (v : Int32) : UInt32 := .ofBitVec (zigzag v.toBitVec)
def encodeZigzag64 (v : Int64) : UInt64 := .ofBitVec (zigzag v.toBitVec)

/-- `DecodeZigzag32` and `DecodeZigzag64` -/
def decodeZigzag32 (v : UInt32) : Int32 := .ofBitVec (unzigzag v.toBitVec)
def decodeZigzag64 (v : UInt64) : Int64 := .ofBitVec (unzigzag v.toBitVec)

def writeUint32 (value : UInt32) : M Unit := write (varint value.toNat)
def writeUint64 (value : UInt64) : M Unit := write (varint value.toNat)
def writeInt32 (value : Int32) : M Unit := writeUint32 (encodeZigzag32 value)
def writeInt64 (value : Int64) : M Unit := writeUint64 (encodeZigzag64 value)

/-- `writeFloat` and `writeDouble`, for numbers that are given by their bits. -/
def writeFloat (value : UInt32) : M Unit := writeFuint32 value
def writeDouble (value : UInt64) : M Unit := writeFuint64 value

/-- What the macro `XX` of the methods for integers of `n` bytes does. -/
def readFixed (n : ℕ) : M ℕ := do
  let bytes ← read n
  let s ← get
  return if s.endian = byteOrder then ofLeBytes bytes else byteswap n (ofLeBytes bytes)

def readFuint8 : M UInt8 := (fun bytes => .ofNat (ofLeBytes bytes)) <$> read 1
def readFint8 : M Int8 := (fun bytes => (UInt8.ofNat (ofLeBytes bytes)).toInt8) <$> read 1
def readFint16 : M Int16 := (fun v => (UInt16.ofNat v).toInt16) <$> readFixed 2
def readFuint16 : M UInt16 := UInt16.ofNat <$> readFixed 2
def readFint32 : M Int32 := (fun v => (UInt32.ofNat v).toInt32) <$> readFixed 4
def readFuint32 : M UInt32 := UInt32.ofNat <$> readFixed 4
def readFint64 : M Int64 := (fun v => (UInt64.ofNat v).toInt64) <$> readFixed 8
def readFuint64 : M UInt64 := UInt64.ofNat <$> readFixed 8

/-- The loop of `readUint32` and `readUint64`: the groups from bit `i` on are put to `result`. -/
def readVarint (w i result : ℕ) : M ℕ :=
  if i < w then do
    -- the bits of a group that are beyond the type are lost
    let b ← readFuint8
    if b < 0x80 then return result ||| (b.toNat <<< i) % 2 ^ w
    else readVarint w (i + 7) (result ||| ((b &&& 0x7F).toNat <<< i) % 2 ^ w)
  else return result
termination_by w - i

def readUint32 : M UInt32 := UInt32.ofNat <$> readVarint 32 0 0
def readUint64 : M UInt64 := UInt64.ofNat <$> readVarint 64 0 0
def readInt32 : M Int32 := decodeZigzag32 <$> readUint32
def readInt64 : M Int64 := decodeZigzag64 <$> readUint64
def readFloat : M UInt32 := readFuint32
def readDouble : M UInt64 := readFuint64

/-! ### What a method writes and reads -/

theorem bind_ok {α β : Type} {x : M α} {f : α → M β} {a : α} {s s' : ByteArray}
    (h : x s = .ok a s') : (x >>= f) s = f a s' := by
  change EStateM.bind x f s = _
  rw [EStateM.bind, h]

theorem bind_error {α β : Type} {x : M α} {f : α → M β} {e : Error} {s s' : ByteArray}
    (h : x s = .error e s') : (x >>= f) s = .error e s' := by
  change EStateM.bind x f s = _
  rw [EStateM.bind, h]

theorem get_bind {β : Type} (f : ByteArray → M β) (s : ByteArray) :
    ((get : M ByteArray) >>= f) s = f s s :=
  rfl

theorem setIsLittleEndian_bind {β : Type} (val : Bool) (x : M β) (s : ByteArray) :
    (setIsLittleEndian val >>= fun _ => x) s =
      x { s with endian := if val then .little else .big } :=
  rfl

theorem map_ok {α β : Type} {x : M α} (f : α → β) {a : α} {s s' : ByteArray}
    (h : x s = .ok a s') : (f <$> x) s = .ok (f a) s' := by
  change EStateM.map f x s = _
  rw [EStateM.map, h]

theorem map_error {α β : Type} {x : M α} (f : α → β) {e : Error} {s s' : ByteArray}
    (h : x s = .error e s') : (f <$> x) s = .error e s' := by
  change EStateM.map f x s = _
  rw [EStateM.map, h]

theorem of_map_error {α β : Type} {x : M α} {f : α → β} {e : Error} {s s' : ByteArray}
    (h : (f <$> x) s = .error e s') : x s = .error e s' := by
  cases hx : x s with
  | ok a t =>
    rw [map_ok f hx] at h
    cases h
  | error e t =>
    rw [map_error f hx] at h
    cases h
    rfl

/-- With the byte order `e`, the method writes the given bytes at the position. -/
def Writes (e : Endian) (x : M Unit) (bytes : List UInt8) : Prop :=
  ∀ ⦃s t⦄, s.Refines t → s.endian = e →
    ∃ s', x s = .ok () s' ∧ s'.Refines (t.write bytes) ∧ s'.baseSize = s.baseSize ∧
      s'.endian = e ∧ (s.Tight → s'.Tight)

/-- With the byte order `e`, the method reads the given bytes at the position, and returns `a`. -/
def Reads {α : Type} (e : Endian) (x : M α) (bytes : List UInt8) (a : α) : Prop :=
  ∀ ⦃s t⦄, s.Refines t → s.endian = e → bytes <+: t.rest →
    ∃ s', x s = .ok a s' ∧ s'.Refines (t.seek (t.cursor + bytes.length)) ∧ s'.endian = e ∧
      s'.capacity = s.capacity

section Rules

variable {α β : Type} {e : Endian} {bytes bytes' : List UInt8} {a : α} {b : β}

theorem writes_write (e : Endian) (bytes : List UInt8) : Writes e (write bytes) bytes := by
  intro s t h he
  obtain ⟨s', hs', hr, hb, hend, htight⟩ := h.write bytes
  exact ⟨s', hs', hr, hb, hend.trans he, htight⟩

theorem writes_writeFixed (e : Endian) (n v : ℕ) :
    Writes e (writeFixed n v) (fixedBytes e n v) := by
  intro s t h he
  rw [writeFixed, he]
  exact writes_write e _ h he

theorem Writes.seq {x y : M Unit} (hx : Writes e x bytes) (hy : Writes e y bytes') :
    Writes e (x >>= fun _ => y) (bytes ++ bytes') := by
  intro s t h he
  obtain ⟨s₁, hs₁, hr₁, hb₁, he₁, ht₁⟩ := hx h he
  obtain ⟨s₂, hs₂, hr₂, hb₂, he₂, ht₂⟩ := hy hr₁ he₁
  refine ⟨s₂, (bind_ok hs₁).trans hs₂, ?_, hb₂.trans hb₁, he₂, ht₂ ∘ ht₁⟩
  rw [Flat.write_write h.cursor_le] at hr₂
  exact hr₂

theorem reads_pure (e : Endian) (a : α) : Reads e (pure a) [] a := by
  intro s t h he _
  exact ⟨s, rfl, h, he, rfl⟩

theorem reads_read (e : Endian) (hne : bytes ≠ []) : Reads e (read bytes.length) bytes bytes := by
  intro s t h he hrest
  have hle := hrest.length_le
  have hpos := List.length_pos_of_ne_nil hne
  obtain ⟨s', hs', hr, -, hend, hcap⟩ := h.read hle (h.position_lt (by omega))
  rw [← List.prefix_iff_eq_take.1 hrest] at hs'
  exact ⟨s', hs', hr, hend.trans he, hcap⟩

theorem Reads.bind {x : M α} {f : α → M β} (hx : Reads e x bytes a) (hf : Reads e (f a) bytes' b) :
    Reads e (x >>= f) (bytes ++ bytes') b := by
  intro s t h he hrest
  obtain ⟨more, hmore⟩ := hrest
  rw [List.append_assoc] at hmore
  obtain ⟨s₁, hs₁, hr₁, he₁, hc₁⟩ := hx h he ⟨_, hmore⟩
  have hrest' : bytes' <+: (t.seek (t.cursor + bytes.length)).rest := by
    rw [Flat.rest_seek_add, ← hmore, List.drop_left]
    exact List.prefix_append _ _
  obtain ⟨s₂, hs₂, hr₂, he₂, hc₂⟩ := hf hr₁ he₁ hrest'
  refine ⟨s₂, (bind_ok hs₁).trans hs₂, ?_, he₂, hc₂.trans hc₁⟩
  rw [List.length_append, ← Nat.add_assoc]
  exact hr₂

theorem Reads.map {x : M α} (f : α → β) (hx : Reads e x bytes a) :
    Reads e (f <$> x) bytes (f a) := by
  intro s t h he hrest
  obtain ⟨s', hs', hr⟩ := hx h he hrest
  exact ⟨s', map_ok f hs', hr⟩

/-- A method that returns another name for the value. -/
theorem Reads.map_eq {x : M α} {f : α → β} (hx : Reads e x bytes a) (hf : f a = b) :
    Reads e (f <$> x) bytes b :=
  hf ▸ hx.map f

end Rules

/-! ### Numbers -/

@[simp] theorem length_fixedBytes (e : Endian) (n v : ℕ) : (fixedBytes e n v).length = n :=
  length_leBytes _ _

/-- What is swapped when it is written is swapped back when it is read. -/
theorem reads_readFixed (e : Endian) {n v : ℕ} (hn : 0 < n) (hv : v < 256 ^ n) :
    Reads e (readFixed n) (fixedBytes e n v) v := by
  intro s t h he hrest
  have hne : fixedBytes e n v ≠ [] := List.ne_nil_of_length_pos (by rwa [length_fixedBytes])
  obtain ⟨s', hs', hr, hend, hcap⟩ := reads_read e hne h he hrest
  rw [length_fixedBytes] at hs'
  refine ⟨s', ?_, hr, hend, hcap⟩
  rw [readFixed, bind_ok hs', get_bind, hend]
  change EStateM.Result.ok _ s' = _
  congr 1
  by_cases hsame : e = byteOrder
  · rw [if_pos hsame, fixedBytes, if_neg (not_not.2 hsame), ofLeBytes_leBytes hv]
  · rw [if_neg hsame, fixedBytes, if_pos hsame, ofLeBytes_leBytes_byteswap, byteswap_byteswap hv]

theorem reads_byte (e : Endian) (v : UInt8) :
    Reads e readFuint8 [v] v := by
  refine (reads_read e (List.cons_ne_nil v [])).map_eq ?_
  simp [ofLeBytes]

/-- The groups of a varint are put together from bit `i` on. -/
theorem reads_readVarint (e : Endian) {w i r v : ℕ} (hi : i < w) (hr : r < 2 ^ i)
    (hv : r + v * 2 ^ i < 2 ^ w) : Reads e (readVarint w i r) (varint v) (r + v * 2 ^ i) := by
  -- the groups that are left make up a smaller number, put in front of more bits
  induction v using Nat.strongRecOn generalizing i r with
  | ind v ih =>
    rw [readVarint, if_pos hi]
    by_cases hbig : 128 ≤ v
    · have hgroup := group_add v i
      have hrest : 2 ^ (i + 7) ≤ v / 128 * 2 ^ (i + 7) := Nat.le_mul_of_pos_left _ (by omega)
      -- a group follows, so the loop has not come to the end of the type
      have hlt : i + 7 < w := (Nat.pow_lt_pow_iff_right (by decide : 1 < 2)).1 (by omega)
      have hnext := ih (v / 128) (by omega) hlt (group_lt (v := v) hr) (by omega)
      rw [Nat.add_assoc, hgroup] at hnext
      rw [varint_of_le hbig]
      refine (reads_byte e _).bind ?_
      rw [if_neg (by rw [UInt8.lt_iff_toNat_lt, toNat_high]; simp), toNat_high_and_low,
        or_shiftLeft_mod hr (by omega)]
      exact hnext
    · have hbyte : (UInt8.ofNat v).toNat = v := by
        rw [UInt8.toNat_ofNat']
        omega
      rw [varint_of_lt (by omega)]
      refine Reads.bind (reads_byte e _) (?_ : Reads e _ [] _)
      rw [if_pos (by rw [UInt8.lt_iff_toNat_lt, hbyte]; simpa using hbig), hbyte,
        or_shiftLeft_mod hr (by omega)]
      exact reads_pure e _

/-! ### Sequences of calls -/

/-- A call of a typed method, or of `setIsLittleEndian`. -/
inductive Cmd (α : Type) where
  | setIsLittleEndian (val : Bool)
  | call (a : α)
deriving DecidableEq, Repr

/-- The calls, each with the byte order that is set when it is made; `e` is set before them. -/
def settings {α : Type} : Endian → List (Cmd α) → List (Endian × α)
  | _, [] => []
  | _, .setIsLittleEndian val :: cmds => settings (if val then .little else .big) cmds
  | e, .call a :: cmds => (e, a) :: settings e cmds

/-- All calls of a sequence that writes, and `getPosition()` after each of them. -/
def writeAll {α : Type} (put : α → M Unit) : List (Cmd α) → M (List ℕ)
  | [] => pure []
  | .setIsLittleEndian val :: cmds => do
    setIsLittleEndian val
    writeAll put cmds
  | .call a :: cmds => do
    put a
    let s ← get
    let ps ← writeAll put cmds
    return s.getPosition :: ps

/-- All calls of a sequence that reads, and `getPosition()` after each of them. -/
def readAll {κ β : Type} (take : κ → M β) : List (Cmd κ) → M (List (β × ℕ))
  | [] => pure []
  | .setIsLittleEndian val :: cmds => do
    setIsLittleEndian val
    readAll take cmds
  | .call k :: cmds => do
    let v ← take k
    let s ← get
    let vs ← readAll take cmds
    return (v, s.getPosition) :: vs

/-- Where byte strings end that are put one after the other, from position `p` on. -/
def ends : ℕ → List (List UInt8) → List ℕ
  | _, [] => []
  | p, bytes :: rest => (p + bytes.length) :: ends (p + bytes.length) rest

theorem Refines.setEndian {s : ByteArray} {t : Flat} (h : s.Refines t) (e : Endian) :
    ({ s with endian := e } : ByteArray).Refines t :=
  ⟨{ h.inv with }, h.data_eq, h.position_eq⟩

section Sequences

variable {α κ β : Type}

/-- The calls of a sequence that begins with a call. -/
theorem settings_call_eq_map {kind : α → κ} {e : Endian} {k : κ} {cmds : List (Cmd κ)}
    {vs : List (Endian × α)} (h : settings e (.call k :: cmds) = vs.map (Prod.map id kind)) :
    ∃ a vs', vs = (e, a) :: vs' ∧ kind a = k ∧ settings e cmds = vs'.map (Prod.map id kind) := by
  cases vs with
  | nil => simp [settings] at h
  | cons v vs =>
    obtain ⟨e', a⟩ := v
    simp only [settings, List.map_cons, List.cons.injEq, Prod.map_apply, Prod.mk.injEq,
      id_eq] at h
    obtain ⟨⟨rfl, rfl⟩, hcmds⟩ := h
    exact ⟨a, vs, rfl, rfl, hcmds⟩

/-- A sequence of calls writes the bytes of all of them. -/
theorem writeAll_eq {put : α → M Unit} {bytes : Endian → α → List UInt8}
    (hput : ∀ e a, Writes e (put a) (bytes e a)) (cmds : List (Cmd α)) {s : ByteArray} {t : Flat}
    (h : s.Refines t) (hend : t.cursor = t.data.length) :
    ∃ s', writeAll put cmds s =
        .ok (ends t.cursor ((settings s.endian cmds).map fun x => bytes x.1 x.2)) s' ∧
      s'.Refines (t.write ((settings s.endian cmds).flatMap fun x => bytes x.1 x.2)) ∧
      s'.baseSize = s.baseSize ∧ (s.Tight → s'.Tight) := by
  induction cmds generalizing s t with
  | nil =>
    refine ⟨s, rfl, ?_, rfl, id⟩
    rw [settings, List.flatMap_nil, Flat.write_end hend, List.append_nil, ← hend]
    exact h
  | cons cmd cmds ih =>
    cases cmd with
    | setIsLittleEndian val =>
      obtain ⟨s', hs', hr, hb, ht⟩ := ih (h.setEndian (if val then .little else .big)) hend
      exact ⟨s', (bind_ok rfl).trans hs', hr, hb, ht⟩
    | call a =>
      obtain ⟨s₁, hs₁, hr₁, hb₁, he₁, ht₁⟩ := hput s.endian a h rfl
      have hend₁ : (t.write (bytes s.endian a)).cursor =
          (t.write (bytes s.endian a)).data.length := by
        rw [Flat.write_end hend]
      obtain ⟨s', hs', hr, hb, ht⟩ := ih hr₁ hend₁
      rw [he₁] at hs' hr
      refine ⟨s', ?_, ?_, hb.trans hb₁, ht ∘ ht₁⟩
      · rw [writeAll, bind_ok hs₁, get_bind, bind_ok hs']
        change EStateM.Result.ok (s₁.position :: _) s' = _
        rw [hr₁.position_eq]
        rfl
      · rw [Flat.write_write h.cursor_le] at hr
        exact hr

/-- What a sequence of calls returns whose first call returns `v`. -/
theorem readAll_call_iff {take : κ → M β} {k : κ} {cmds : List (Cmd κ)} {v : β}
    {s s₁ : ByteArray} (h : take k s = .ok v s₁) (P : List (β × ℕ) → ByteArray → Prop) :
    (∃ rs s', readAll take (.call k :: cmds) s = .ok rs s' ∧ P rs s') ↔
      ∃ rs s', readAll take cmds s₁ = .ok rs s' ∧ P ((v, s₁.position) :: rs) s' := by
  rw [readAll, bind_ok h, get_bind]
  cases hc : readAll take cmds s₁ with
  | ok rs s' =>
    rw [bind_ok hc]
    constructor
    · rintro ⟨_, _, heq, hP⟩
      obtain ⟨rfl, rfl⟩ := EStateM.Result.ok.inj heq
      exact ⟨rs, _, rfl, hP⟩
    · rintro ⟨_, _, heq, hP⟩
      obtain ⟨rfl, rfl⟩ := EStateM.Result.ok.inj heq
      exact ⟨_, _, rfl, hP⟩
  | error e s' =>
    rw [bind_error hc]
    constructor
    · rintro ⟨_, _, heq, -⟩
      cases heq
    · rintro ⟨_, _, heq, -⟩
      cases heq

/-- A sequence of calls reads what has been written, with the same byte orders. -/
theorem readAll_eq {take : κ → M α} {kind : α → κ} {bytes : Endian → α → List UInt8}
    (htake : ∀ e a, Reads e (take (kind a)) (bytes e a) a) (cmds : List (Cmd κ)) {s : ByteArray}
    {t : Flat} {vs : List (Endian × α)} (h : s.Refines t)
    (hcmds : settings s.endian cmds = vs.map (Prod.map id kind))
    (hrest : t.rest = vs.flatMap fun x => bytes x.1 x.2) :
    ∃ s', readAll take cmds s =
        .ok ((vs.map Prod.snd).zip (ends t.cursor (vs.map fun x => bytes x.1 x.2))) s' ∧
      s'.getReadSize = 0 := by
  induction cmds generalizing s t vs with
  | nil =>
    obtain rfl : vs = [] := by simpa [settings] using hcmds.symm
    refine ⟨s, rfl, ?_⟩
    rw [h.getReadSize_eq, hrest]
    rfl
  | cons cmd cmds ih =>
    cases cmd with
    | setIsLittleEndian val =>
      obtain ⟨s', hs', hr⟩ := ih (h.setEndian (if val then .little else .big)) hcmds hrest
      exact ⟨s', (bind_ok rfl).trans hs', hr⟩
    | call k =>
      obtain ⟨a, vs, rfl, rfl, hcmds'⟩ := settings_call_eq_map hcmds
      rw [List.flatMap_cons] at hrest
      obtain ⟨s₁, hs₁, hr₁, he₁, -⟩ := htake s.endian a h rfl ⟨_, hrest.symm⟩
      have hrest₁ : (t.seek (t.cursor + (bytes s.endian a).length)).rest =
          vs.flatMap fun x => bytes x.1 x.2 := by
        rw [Flat.rest_seek_add, hrest, List.drop_left]
      obtain ⟨s', hs', hr⟩ := ih hr₁ (by rw [he₁, hcmds']) hrest₁
      refine ⟨s', ?_, hr⟩
      rw [readAll, bind_ok hs₁, get_bind, bind_ok hs']
      change EStateM.Result.ok ((a, s₁.position) :: _) s' = _
      rw [hr₁.position_eq]
      rfl

end Sequences

end ByteArray

end YXTWebCpp
