import YXTWebCpp.ByteArray.Numbers

/-!
# Strings, and when they are read back

A string is written as its length and its bytes.  There are four formats for the length.  Two things
can go wrong when it is read back:

* `writeStringF16` stores the length modulo `2 ^ 16`;
* for an empty string nothing is left to read behind the length, and `read` looks at the node of
  the position even then; if the capacity ends there, there is none.

* `writeStringF16`, …, `readStringVint` : the methods.
* `StringValue` : a string and the format that it is written with.
* `Fits` : the length fits into the format.
* `readAll_strings_iff` : when strings that are stored are read back.
* `strings_read_back` : **when strings are read back**, in terms of what is written.
-/

namespace YXTWebCpp

namespace ByteArray

open Codec

/-! ### The methods -/

/-- `std::string::max_size()` -/
def maxSize : ℕ := 2 ^ 63 - 1

def writeStringF16 (value : List UInt8) : M Unit := do
  writeFuint16 (.ofNat value.length)
  write value

def writeStringF32 (value : List UInt8) : M Unit := do
  writeFuint32 (.ofNat value.length)
  write value

def writeStringF64 (value : List UInt8) : M Unit := do
  writeFuint64 (.ofNat value.length)
  write value

def writeStringVint (value : List UInt8) : M Unit := do
  writeUint64 (.ofNat value.length)
  write value

/-- What the methods do with the length: `buff.resize(len); read(&buff[0], len)`. -/
def readBuff (len : ℕ) : M (List UInt8) :=
  if maxSize < len then throw .lengthError else read len

def readStringF16 : M (List UInt8) := do
  let len ← readFuint16
  readBuff len.toNat

def readStringF32 : M (List UInt8) := do
  let len ← readFuint32
  readBuff len.toNat

def readStringF64 : M (List UInt8) := do
  let len ← readFuint64
  readBuff len.toNat

def readStringVint : M (List UInt8) := do
  let len ← readUint64
  readBuff len.toNat

/-- The formats. -/
inductive Format where
  | f16
  | f32
  | f64
  | vint
deriving DecidableEq, Repr

/-- A string and the format that it is written with.  It is not longer than a string can be, and
with `F32` not longer than the format can say. -/
structure StringValue where
  format : Format
  content : List UInt8
  size_le : content.length ≤ maxSize
  short : format = .f32 → content.length < 2 ^ 32

/-- The write method for a format. -/
def writeString (v : StringValue) : M Unit :=
  match v.format with
  | .f16 => writeStringF16 v.content
  | .f32 => writeStringF32 v.content
  | .f64 => writeStringF64 v.content
  | .vint => writeStringVint v.content

/-- The read method for a format. -/
def readString : Format → M (List UInt8)
  | .f16 => readStringF16
  | .f32 => readStringF32
  | .f64 => readStringF64
  | .vint => readStringVint

/-! ### What is written -/

/-- The length that is stored. -/
def Format.narrow : Format → ℕ → ℕ
  | .f16, len => len % 2 ^ 16
  | .f32, len => len % 2 ^ 32
  | .f64, len | .vint, len => len % 2 ^ 64

/-- The bytes in front of the string. -/
def Format.lengthBytes (e : Endian) (f : Format) (len : ℕ) : List UInt8 :=
  match f with
  | .f16 => fixedBytes e 2 (f.narrow len)
  | .f32 => fixedBytes e 4 (f.narrow len)
  | .f64 => fixedBytes e 8 (f.narrow len)
  | .vint => varint (f.narrow len)

namespace StringValue

/-- The bytes that are written. -/
def bytes (e : Endian) (v : StringValue) : List UInt8 :=
  v.format.lengthBytes e v.content.length ++ v.content

/-- The length fits into the format. -/
def Fits (v : StringValue) : Prop := v.format = .f16 → v.content.length < 2 ^ 16

instance (v : StringValue) : Decidable v.Fits :=
  inferInstanceAs (Decidable (_ → _))

theorem narrow_of_fits {v : StringValue} (h : v.Fits) :
    v.format.narrow v.content.length = v.content.length := by
  have hmax := v.size_le
  rw [maxSize] at hmax
  cases hf : v.format with
  | f16 => exact Nat.mod_eq_of_lt (h hf)
  | f32 => exact Nat.mod_eq_of_lt (v.short hf)
  | f64 | vint => exact Nat.mod_eq_of_lt (by omega)

/-- Only `F16` stores something else than the length. -/
theorem narrow_lt_of_not_fits {v : StringValue} (h : ¬ v.Fits) :
    v.format.narrow v.content.length < v.content.length := by
  obtain ⟨hf, hlen⟩ := Classical.not_imp.1 h
  rw [hf]
  exact lt_of_lt_of_le (Nat.mod_lt _ (by decide)) (not_lt.1 hlen)

theorem narrow_le (v : StringValue) :
    v.format.narrow v.content.length ≤ v.content.length := by
  by_cases h : v.Fits
  · exact le_of_eq (narrow_of_fits h)
  · exact le_of_lt (narrow_lt_of_not_fits h)

end StringValue

theorem lengthBytes_ne_nil (e : Endian) (f : Format) (len : ℕ) : f.lengthBytes e len ≠ [] := by
  cases f with
  | vint => exact varint_ne_nil _
  | _ => exact List.ne_nil_of_length_pos (by simp [Format.lengthBytes])

theorem writes_writeString (e : Endian) (v : StringValue) :
    Writes e (writeString v) (v.bytes e) := by
  obtain ⟨format, content, hmax, hshort⟩ := v
  cases format with
  | f16 => exact (writes_writeFixed e 2 _).seq (writes_write e content)
  | f32 => exact (writes_writeFixed e 4 _).seq (writes_write e content)
  | f64 => exact (writes_writeFixed e 8 _).seq (writes_write e content)
  | vint => exact (writes_write e _).seq (writes_write e content)

/-! ### What is read -/

section Read

variable {s : ByteArray} {t : Flat} {e : Endian} {f : Format}

/-- The length is read first, then as many bytes as it says. -/
theorem readString_eq (f : Format) (len : ℕ) (h : s.Refines t) (he : s.endian = e)
    (hrest : f.lengthBytes e len <+: t.rest) :
    ∃ s₁, readString f s = readBuff (f.narrow len) s₁ ∧
      s₁.Refines (t.seek (t.cursor + (f.lengthBytes e len).length)) ∧ s₁.endian = e ∧
      s₁.capacity = s.capacity := by
  cases f with
  | f16 =>
    obtain ⟨s₁, hs₁, hr⟩ := reads_readFuint16 e (.ofNat len) h he hrest
    exact ⟨s₁, bind_ok hs₁, hr⟩
  | f32 =>
    obtain ⟨s₁, hs₁, hr⟩ := reads_readFuint32 e (.ofNat len) h he hrest
    exact ⟨s₁, bind_ok hs₁, hr⟩
  | f64 =>
    obtain ⟨s₁, hs₁, hr⟩ := reads_readFuint64 e (.ofNat len) h he hrest
    exact ⟨s₁, bind_ok hs₁, hr⟩
  | vint =>
    obtain ⟨s₁, hs₁, hr⟩ := reads_readUint64 e (.ofNat len) h he hrest
    exact ⟨s₁, bind_ok hs₁, hr⟩

/-- What `readString` does at a string that is stored: behind the length it reads as many bytes as
were stored as the length; if there is no node it fails. -/
theorem readString_value {v : StringValue} {more : List UInt8} (h : s.Refines t)
    (he : s.endian = e) (hrest : t.rest = v.bytes e ++ more) :
    if v.content ++ more = [] ∧ t.data.length = s.capacity then
      ∃ s', readString v.format s = .error .nullPointer s'
    else
      ∃ s', readString v.format s =
          .ok (v.content.take (v.format.narrow v.content.length)) s' ∧
        (v.Fits → s'.Refines (t.seek (t.cursor + (v.bytes e).length))) ∧ s'.endian = e ∧
        s'.capacity = s.capacity := by
  rw [StringValue.bytes, List.append_assoc] at hrest
  obtain ⟨s₁, hs₁, hr₁, he₁, hc₁⟩ := readString_eq v.format _ h he ⟨_, hrest.symm⟩
  have hrest₁ := Flat.rest_seek_add t (v.format.lengthBytes e v.content.length).length
  rw [hrest, List.drop_left] at hrest₁
  have hmax : ¬ maxSize < v.format.narrow v.content.length :=
    not_lt.2 (v.narrow_le.trans v.size_le)
  have hlen := congrArg List.length hrest₁
  have hcursor := hr₁.cursor_le
  rw [Flat.length_rest] at hlen
  rw [hs₁, readBuff, if_neg hmax]
  split_ifs with hnull
  · obtain ⟨hnil, hcap⟩ := hnull
    rw [hnil, List.length_nil] at hlen
    have hzero : v.format.narrow v.content.length = 0 := by
      have := v.narrow_le
      rw [(List.append_eq_nil_iff.1 hnil).1] at this ⊢
      exact Nat.le_zero.1 this
    rw [hzero, hr₁.inv.read_zero_eq_error]
    · exact ⟨s₁, rfl⟩
    · have hdata : ∀ p, (t.seek p).data.length = t.data.length := fun _ => rfl
      rw [hdata] at hlen hcursor
      rw [hr₁.position_eq, hc₁]
      omega
  · have hlt : s₁.position < s₁.capacity := by
      by_contra hge
      have hsize := hr₁.inv.size_le
      have hposition := hr₁.inv.position_le
      have hdata := hr₁.size_eq
      have hpos := hr₁.position_eq
      refine hnull ⟨List.length_eq_zero_iff.1 (by omega), ?_⟩
      change s₁.size = t.data.length at hdata
      omega
    have hle : v.format.narrow v.content.length ≤ (v.content ++ more).length := by
      rw [List.length_append]
      exact v.narrow_le.trans (Nat.le_add_right _ _)
    obtain ⟨s₂, hs₂, hr₂, -, he₂, hc₂⟩ := hr₁.read (hrest₁ ▸ hle) hlt
    rw [hrest₁, List.take_append_of_le_length v.narrow_le] at hs₂
    refine ⟨s₂, hs₂, fun hfits => ?_, he₂.trans he₁, hc₂.trans hc₁⟩
    rw [StringValue.narrow_of_fits hfits] at hr₂
    rw [StringValue.bytes, List.length_append, ← Nat.add_assoc]
    exact hr₂

/-- The condition under which the strings of a list are read back, given the number of bytes that
are stored and the capacity. -/
def Readable (size capacity : ℕ) (vs : List StringValue) : Prop :=
  (∀ v ∈ vs, v.Fits) ∧ ∀ v ∈ vs.getLast?, v.content = [] → size ≠ capacity

theorem readable_cons {size capacity : ℕ} {v : StringValue} {vs : List StringValue} :
    Readable size capacity (v :: vs) ↔
      v.Fits ∧ Readable size capacity vs ∧ (v.content = [] → vs = [] → size ≠ capacity) := by
  cases vs with
  | nil => simp [Readable]
  | cons w vs => simp [Readable, List.getLast?_cons_cons, and_assoc]

/-- Strings that are stored are read back exactly if they are readable. -/
theorem readAll_strings_iff (cmds : List (Cmd Format)) {vs : List (Endian × StringValue)}
    (h : s.Refines t) (hcmds : settings s.endian cmds = vs.map (Prod.map id StringValue.format))
    (hrest : t.rest = vs.flatMap fun x => x.2.bytes x.1) :
    (∃ rs s', readAll readString cmds s = .ok rs s' ∧
        rs.map Prod.fst = vs.map (fun x => x.2.content) ∧ s'.getReadSize = 0) ↔
      Readable t.data.length s.capacity (vs.map Prod.snd) := by
  induction cmds generalizing s t vs with
  | nil =>
    obtain rfl : vs = [] := by simpa [settings] using hcmds.symm
    refine iff_of_true ⟨[], s, rfl, rfl, ?_⟩ (by simp [Readable])
    rw [h.getReadSize_eq, hrest]
    rfl
  | cons cmd cmds ih =>
    cases cmd with
    | setIsLittleEndian val =>
      rw [readAll, setIsLittleEndian_bind]
      exact ih (h.setEndian (if val then .little else .big)) hcmds hrest
    | call k =>
      obtain ⟨v, vs, rfl, rfl, hcmds'⟩ := settings_call_eq_map hcmds
      rw [List.flatMap_cons] at hrest
      have hread := readString_value h rfl hrest
      simp only [List.map_cons]
      rw [readable_cons]
      split_ifs at hread with hnull
      · -- the last string is empty, and the capacity ends behind its length
        obtain ⟨s', hs'⟩ := hread
        obtain ⟨hnil, hcap⟩ := hnull
        obtain ⟨hcontent, hmore⟩ := List.append_eq_nil_iff.1 hnil
        have hlast : vs = [] := by
          by_contra hne
          obtain ⟨w, ws, rfl⟩ := List.exists_cons_of_ne_nil hne
          rw [List.flatMap_cons, StringValue.bytes, List.append_assoc] at hmore
          exact lengthBytes_ne_nil _ _ _ (List.append_eq_nil_iff.1 hmore).1
        refine iff_of_false ?_ ?_
        · rintro ⟨rs, s'', hrs, -⟩
          rw [readAll, bind_error hs'] at hrs
          cases hrs
        · rintro ⟨-, -, hne⟩
          exact hne hcontent (by rw [hlast]; rfl) hcap
      · -- a string is returned: the one that was written if its length fits
        obtain ⟨s₁, hs₁, hr₁, he₁, hc₁⟩ := hread
        rw [readAll_call_iff hs₁ fun rs s' =>
          rs.map Prod.fst = v.content :: vs.map (fun x => x.2.content) ∧ s'.getReadSize = 0]
        simp only [List.map_cons, List.cons.injEq, and_assoc]
        by_cases hfits : v.Fits
        · have hrest₁ := Flat.rest_seek_add t (v.bytes s.endian).length
          rw [hrest, List.drop_left] at hrest₁
          have hih := ih (hr₁ hfits) (by rw [he₁, hcmds']) hrest₁
          rw [StringValue.narrow_of_fits hfits, List.take_length]
          simp only [true_and]
          rw [hih, hc₁]
          constructor
          · intro hvs
            refine ⟨hfits, hvs, fun hcontent hlast hcap => hnull ⟨?_, hcap⟩⟩
            obtain rfl := List.map_eq_nil_iff.1 hlast
            rw [hcontent]
            rfl
          · rintro ⟨-, hvs, -⟩
            exact hvs
        · -- what is returned is too short
          refine iff_of_false ?_ ?_
          · rintro ⟨rs, s', -, htake, -⟩
            have hlen := congrArg List.length htake
            have := StringValue.narrow_lt_of_not_fits hfits
            rw [List.length_take] at hlen
            omega
          · rintro ⟨hv, -⟩
            exact hfits hv

end Read

/-- Of the nodes that writing makes, the last one is full exactly if the base size divides the
number of bytes. -/
theorem Inv.size_eq_capacity_iff {s : ByteArray} (h : s.Inv) (ht : s.Tight) (hpos : 0 < s.size) :
    s.size = s.capacity ↔ s.baseSize ∣ s.size := by
  have hle := h.size_le
  have hcap := h.capacity_eq
  constructor
  · intro heq
    rw [heq, hcap]
    exact Dvd.intro_left _ rfl
  · rintro ⟨k, hk⟩
    rw [hk, Nat.mul_comm] at hle hpos ⊢
    -- both are multiples of the base size, and they are less than one base size apart
    have hblocks : k = s.blocks.length := by
      apply Nat.le_antisymm
      · exact Nat.le_of_mul_le_mul_right (hcap ▸ hle) h.base_pos
      · rcases ht with hone | hlt
        · have hlen : s.blocks.length = 1 :=
            Nat.eq_of_mul_eq_mul_right h.base_pos (by rw [← hcap, hone, Nat.one_mul])
          rw [hlen]
          exact Nat.pos_of_mul_pos_right hpos
        · rw [hcap, hk, Nat.mul_comm s.baseSize, ← Nat.succ_mul] at hlt
          exact Nat.lt_succ_iff.1 (Nat.lt_of_mul_lt_mul_right hlt)
    rw [hblocks, hcap]

/-- The bytes that a sequence of calls writes. -/
def written (writes : List (Cmd StringValue)) : List UInt8 :=
  (settings .big writes).flatMap fun x => x.2.bytes x.1

/-- The strings that a sequence of calls writes. -/
def strings (writes : List (Cmd StringValue)) : List StringValue :=
  (settings .big writes).map Prod.snd

/-- **When strings are read back**: if strings are written into a fresh array, then after
`setPosition(0)` the calls for the same formats with the same byte orders return them, and nothing
is left to read, exactly if the lengths of the strings written with `F16` are below `2 ^ 16`, and
the last string is not empty or the base size does not divide the number of bytes that were
written. -/
theorem strings_read_back {b : ℕ} (hb : 1 ≤ b) (mem : ℕ → ℕ → UInt8)
    (writes : List (Cmd StringValue)) :
    ∃ ps s, writeAll writeString writes (new b mem) = .ok ps s ∧
      ∀ reads : List (Cmd Format),
        settings s.endian reads = (settings .big writes).map (Prod.map id StringValue.format) →
        ((∃ rs s', (do setPosition 0; readAll readString reads) s = .ok rs s' ∧
            rs.map Prod.fst = (strings writes).map StringValue.content ∧ s'.getReadSize = 0) ↔
          (∀ v ∈ strings writes, v.format = .f16 → v.content.length < 2 ^ 16) ∧
            ∀ v ∈ (strings writes).getLast?, v.content = [] → ¬ b ∣ (written writes).length) := by
  have hnew := refines_new hb mem
  obtain ⟨s, hs, hr, hbase, htight⟩ := writeAll_eq writes_writeString writes hnew rfl
  refine ⟨_, s, hs, fun reads hreads => ?_⟩
  rw [Flat.write_end rfl] at hr
  have hseek := hr.seek (v := 0) (Nat.zero_le _)
  have hsize : s.size = (written writes).length := hr.size_eq
  have hiff := readAll_strings_iff reads hseek hreads rfl
  rw [bind_ok (hr.inv.setPosition_eq (Nat.zero_le _)), strings, List.map_map]
  refine hiff.trans (and_congr Iff.rfl (forall₂_congr fun v hv => ?_))
  -- there is a last string, so at least its length has been written
  have hpos : 0 < (written writes).length := by
    obtain ⟨x, hx, -⟩ := List.mem_map.1 (List.mem_of_getLast? hv)
    refine List.length_pos_of_ne_nil fun hnil => ?_
    have hbytes := List.flatMap_eq_nil_iff.1 hnil x hx
    exact lengthBytes_ne_nil _ _ _ (List.append_eq_nil_iff.1 hbytes).1
  have hfull := hr.inv.size_eq_capacity_iff (htight (.inl rfl)) (hsize ▸ hpos)
  rw [hsize, hbase] at hfull
  exact imp_congr_right fun _ => not_congr hfull

/-- Three strings, an empty one among them. -/
def threeStrings : List (Cmd StringValue) :=
  [.call ⟨.f16, [97, 98], by decide, nofun⟩, .setIsLittleEndian true,
    .call ⟨.vint, [], by decide, nofun⟩, .call ⟨.f32, [7], by decide, by decide⟩]

theorem strings_read_back_three :
    ∃ ps s rs s', writeAll writeString threeStrings (new 4 fun _ _ => 0) = .ok ps s ∧
      (do setPosition 0; readAll readString [.setIsLittleEndian false, .call .f16,
        .setIsLittleEndian true, .call .vint, .call .f32]) s = .ok rs s' ∧
      rs.map Prod.fst = [[97, 98], [], [7]] ∧ s'.getReadSize = 0 := by
  obtain ⟨ps, s, hs, h⟩ := strings_read_back (b := 4) (by decide) (fun _ _ => 0) threeStrings
  obtain ⟨rs, s', hs', hrs, hsize⟩ := (h [.setIsLittleEndian false, .call .f16,
    .setIsLittleEndian true, .call .vint, .call .f32] rfl).2
    ⟨by decide, by rintro v ⟨⟩ hv; cases hv⟩
  exact ⟨ps, s, rs, s', hs, hs', hrs, hsize⟩

/-- A string of `2 ^ 16` bytes is read back as an empty one. -/
theorem read_long {b : ℕ} (hb : 1 ≤ b) (mem : ℕ → ℕ → UInt8) {v : StringValue}
    (hf : v.format = .f16) (hlen : v.content.length = 2 ^ 16) :
    ∃ ps s p s', writeAll writeString [.call v] (new b mem) = .ok ps s ∧
      (do setPosition 0; readAll readString [.setIsLittleEndian false, .call .f16]) s =
        .ok [([], p)] s' := by
  obtain ⟨s, hs, hr, -, -⟩ :=
    writeAll_eq writes_writeString [.call v] (refines_new hb mem) rfl
  rw [Flat.write_end rfl] at hr
  have hseek := (hr.seek (v := 0) (Nat.zero_le _)).setEndian .big
  have hread := readString_value (v := v) hseek rfl rfl
  have hne : v.content ≠ [] := List.ne_nil_of_length_pos (hlen ▸ by decide)
  rw [if_neg fun h => hne (List.append_eq_nil_iff.1 h.1).1, hf, hlen] at hread
  obtain ⟨s', hs', -⟩ := hread
  refine ⟨_, s, s'.position, s', hs, ?_⟩
  rw [bind_ok (hr.inv.setPosition_eq (Nat.zero_le _)), readAll, setIsLittleEndian_bind, readAll]
  exact (bind_ok hs').trans rfl

/-- A string that is too long for `F16`. -/
def longString : StringValue where
  format := .f16
  content := List.replicate (2 ^ 16) 0
  size_le := by
    rw [List.length_replicate]
    decide
  short := nofun

/-- An empty string fills a node of two bytes with its length; there is no node to read it from.
And a string of `2 ^ 16` bytes is read back as an empty one. -/
theorem strings_not_read_back :
    (∃ ps s s', writeAll writeString [.call ⟨.f16, [], by decide, nofun⟩] (new 2 fun _ _ => 0) =
        .ok ps s ∧
      (do setPosition 0; readAll readString [.setIsLittleEndian false, .call .f16]) s =
        .error .nullPointer s') ∧
    ∃ ps s p s', writeAll writeString [.call longString] (new 4096 fun _ _ => 0) = .ok ps s ∧
      (do setPosition 0; readAll readString [.setIsLittleEndian false, .call .f16]) s =
        .ok [([], p)] s' :=
  ⟨⟨_, _, _, rfl, rfl⟩, read_long (by decide) _ rfl List.length_replicate⟩

end ByteArray

end YXTWebCpp
