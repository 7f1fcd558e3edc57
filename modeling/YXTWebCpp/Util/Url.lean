import Mathlib.Data.Fintype.Card
import Mathlib.Data.FinEnum

/-!
# URL coding

`StringUtil::UrlEncode` and `StringUtil::UrlDecode` (`util.cpp`).  Both walk over the string and
create their result only when they meet the first byte that changes: `none` is a buffer that does
not exist yet, and a string without such a byte is returned as it is.

* `encodeBytes`, `decodeBytes` : the same coding, byte by byte, into a new string.
* `urlEncode_eq`, `urlDecode_eq` : the functions with the late buffer compute it.
* `decodeBytes_encodeBytes` : what is encoded is decoded again.
-/

namespace YXTWebCpp

namespace Util

/-! ### The tables -/

/-- `uri_chars` -/
def uriChars : List UInt8 := [
  0, 0, 0, 0, 0, 0, 0, 0,   0, 0, 0, 0, 0, 0, 0, 0,
  0, 0, 0, 0, 0, 0, 0, 0,   0, 0, 0, 0, 0, 0, 0, 0,
  0, 0, 0, 0, 0, 0, 0, 0,   0, 0, 0, 0, 0, 1, 1, 0,
  1, 1, 1, 1, 1, 1, 1, 1,   1, 1, 0, 0, 0, 1, 0, 0,
  -- 64
  0, 1, 1, 1, 1, 1, 1, 1,   1, 1, 1, 1, 1, 1, 1, 1,
  1, 1, 1, 1, 1, 1, 1, 1,   1, 1, 1, 0, 0, 0, 0, 1,
  0, 1, 1, 1, 1, 1, 1, 1,   1, 1, 1, 1, 1, 1, 1, 1,
  1, 1, 1, 1, 1, 1, 1, 1,   1, 1, 1, 0, 0, 0, 1, 0,
  -- 128
  0, 0, 0, 0, 0, 0, 0, 0,   0, 0, 0, 0, 0, 0, 0, 0,
  0, 0, 0, 0, 0, 0, 0, 0,   0, 0, 0, 0, 0, 0, 0, 0,
  0, 0, 0, 0, 0, 0, 0, 0,   0, 0, 0, 0, 0, 0, 0, 0,
  0, 0, 0, 0, 0, 0, 0, 0,   0, 0, 0, 0, 0, 0, 0, 0,
  -- 192
  0, 0, 0, 0, 0, 0, 0, 0,   0, 0, 0, 0, 0, 0, 0, 0,
  0, 0, 0, 0, 0, 0, 0, 0,   0, 0, 0, 0, 0, 0, 0, 0,
  0, 0, 0, 0, 0, 0, 0, 0,   0, 0, 0, 0, 0, 0, 0, 0,
  0, 0, 0, 0, 0, 0, 0, 0,   0, 0, 0, 0, 0, 0, 0, 0]

/-- `xdigit_chars` -/
def xdigitChars : List UInt8 := [
  0,0,0,0,0,0,0,0,0,0,0,0,0,0,0,0,
  0,0,0,0,0,0,0,0,0,0,0,0,0,0,0,0,
  0,0,0,0,0,0,0,0,0,0,0,0,0,0,0,0,
  0,1,2,3,4,5,6,7,8,9,0,0,0,0,0,0,
  0,10,11,12,13,14,15,0,0,0,0,0,0,0,0,0,
  0,0,0,0,0,0,0,0,0,0,0,0,0,0,0,0,
  0,10,11,12,13,14,15,0,0,0,0,0,0,0,0,0,
  0,0,0,0,0,0,0,0,0,0,0,0,0,0,0,0,
  0,0,0,0,0,0,0,0,0,0,0,0,0,0,0,0,
  0,0,0,0,0,0,0,0,0,0,0,0,0,0,0,0,
  0,0,0,0,0,0,0,0,0,0,0,0,0,0,0,0,
  0,0,0,0,0,0,0,0,0,0,0,0,0,0,0,0,
  0,0,0,0,0,0,0,0,0,0,0,0,0,0,0,0,
  0,0,0,0,0,0,0,0,0,0,0,0,0,0,0,0,
  0,0,0,0,0,0,0,0,0,0,0,0,0,0,0,0,
  0,0,0,0,0,0,0,0,0,0,0,0,0,0,0,0]

/-- `CHAR_IS_UNRESERVED` -/
def charIsUnreserved (c : UInt8) : Bool := uriChars.getD c.toNat 0 != 0

/-- `xdigit_chars[(int)c]`; the code reads it only behind `isxdigit`. -/
def xdigitValue (c : UInt8) : UInt8 := xdigitChars.getD c.toNat 0

/-- `isxdigit` in the C locale; a negative `char` is none. -/
def isxdigit (c : UInt8) : Bool :=
  (48 ≤ c && c ≤ 57) || (65 ≤ c && c ≤ 70) || (97 ≤ c && c ≤ 102)

/-- `hexdigits` -/
def hexdigits : List UInt8 := [48, 49, 50, 51, 52, 53, 54, 55, 56, 57, 65, 66, 67, 68, 69, 70]

/-- `hexdigits[d]` -/
def hexdigit (d : UInt8) : UInt8 := hexdigits.getD d.toNat 0

/-! ### The code -/

section Loops

variable (str : List UInt8) (spaceAsPlus : Bool)

/-- The loop of `StringUtil::UrlEncode`, where `i` is `c - str.c_str()`. -/
def urlEncodeLoop : ℕ → List UInt8 → Option (List UInt8) → Option (List UInt8)
  | _, [], ss => ss
  | i, c :: rest, ss =>
    if charIsUnreserved c then urlEncodeLoop (i + 1) rest (ss.map (· ++ [c]))
    else
      -- the buffer is created with the bytes in front of `c`
      let ss := ss.getD (str.take i)
      if c = 32 ∧ spaceAsPlus then urlEncodeLoop (i + 1) rest (some (ss ++ [43]))
      else urlEncodeLoop (i + 1) rest
        (some (ss ++ [37, hexdigit (c >>> 4), hexdigit (c &&& 0xf)]))

/-- `StringUtil::UrlEncode` -/
def urlEncode : List UInt8 := (urlEncodeLoop str spaceAsPlus 0 str none).getD str

/-- The loop of `StringUtil::UrlDecode`, where `i` is `c - str.c_str()`. -/
def urlDecodeLoop : ℕ → List UInt8 → Option (List UInt8) → Option (List UInt8)
  | _, [], ss => ss
  | i, c :: a :: b :: rest, ss =>
    if c = 43 ∧ spaceAsPlus then
      urlDecodeLoop (i + 1) (a :: b :: rest) (some (ss.getD (str.take i) ++ [32]))
    else if c = 37 ∧ isxdigit a ∧ isxdigit b then
      urlDecodeLoop (i + 3) rest
        (some (ss.getD (str.take i) ++ [xdigitValue a <<< 4 ||| xdigitValue b]))
    else urlDecodeLoop (i + 1) (a :: b :: rest) (ss.map (· ++ [c]))
  -- `c + 2` is not in front of the end
  | i, c :: rest, ss =>
    if c = 43 ∧ spaceAsPlus then
      urlDecodeLoop (i + 1) rest (some (ss.getD (str.take i) ++ [32]))
    else urlDecodeLoop (i + 1) rest (ss.map (· ++ [c]))

/-- `StringUtil::UrlDecode` -/
def urlDecode : List UInt8 := (urlDecodeLoop str spaceAsPlus 0 str none).getD str

end Loops

/-! ### Byte by byte -/

/-- The code of one byte. -/
def encodeByte (spaceAsPlus : Bool) (c : UInt8) : List UInt8 :=
  if charIsUnreserved c then [c]
  else if c = 32 ∧ spaceAsPlus then [43]
  else [37, hexdigit (c >>> 4), hexdigit (c &&& 0xf)]

/-- Every byte is replaced by its code. -/
def encodeBytes (spaceAsPlus : Bool) (s : List UInt8) : List UInt8 :=
  s.flatMap (encodeByte spaceAsPlus)

/-- A byte that starts no escape. -/
def decodeByte (spaceAsPlus : Bool) (c : UInt8) : UInt8 := if c = 43 ∧ spaceAsPlus then 32 else c

/-- Every escape is replaced by the byte it stands for, every other byte stands for itself or for a
space. -/
def decodeBytes (spaceAsPlus : Bool) : List UInt8 → List UInt8
  | [] => []
  | c :: a :: b :: rest =>
    if c = 37 ∧ isxdigit a ∧ isxdigit b then
      (xdigitValue a <<< 4 ||| xdigitValue b) :: decodeBytes spaceAsPlus rest
    else decodeByte spaceAsPlus c :: decodeBytes spaceAsPlus (a :: b :: rest)
  | c :: rest => decodeByte spaceAsPlus c :: decodeBytes spaceAsPlus rest

/-! ### The late buffer -/

theorem getD_map_append {done : List UInt8} (ss : Option (List UInt8)) (c : UInt8) :
    (ss.map (· ++ [c])).getD (done ++ [c]) = ss.getD done ++ [c] := by
  cases ss with
  | none => rfl
  | some ss => rfl

/-- The loop appends the code of what is left to the buffer, or to the bytes it has passed. -/
theorem urlEncodeLoop_eq {str : List UInt8} {f : Bool} {done rest : List UInt8}
    (h : str = done ++ rest) (ss : Option (List UInt8)) :
    (urlEncodeLoop str f done.length rest ss).getD str = ss.getD done ++ encodeBytes f rest := by
  induction rest generalizing done ss with
  | nil => simp [urlEncodeLoop, encodeBytes, h]
  | cons c rest ih =>
    have hstep := @ih (done ++ [c]) (by simp [h])
    have htake : str.take done.length = done := by simp [h]
    rw [List.length_append, List.length_singleton] at hstep
    rw [urlEncodeLoop, encodeBytes, List.flatMap_cons, encodeByte, htake]
    split_ifs with hc hs
    · rw [hstep, getD_map_append, List.append_assoc]
      rfl
    · rw [hstep, Option.getD_some, List.append_assoc]
      rfl
    · rw [hstep, Option.getD_some, List.append_assoc]
      rfl

theorem urlEncode_eq (str : List UInt8) (f : Bool) : urlEncode str f = encodeBytes f str := by
  exact urlEncodeLoop_eq (List.nil_append str).symm none

/-- What a byte that starts no escape does to the buffer. -/
theorem getD_decodeByte (done : List UInt8) (ss : Option (List UInt8)) (f : Bool) (c : UInt8) :
    (if c = 43 ∧ f then some (ss.getD done ++ [32]) else ss.map (· ++ [c])).getD (done ++ [c]) =
      ss.getD done ++ [decodeByte f c] := by
  unfold decodeByte
  split_ifs
  · rfl
  · exact getD_map_append ss c

/-- `c` starts an escape. -/
def Escapes (c : UInt8) (rest : List UInt8) : Prop :=
  ∃ a b rest', rest = a :: b :: rest' ∧ c = 37 ∧ isxdigit a ∧ isxdigit b

theorem urlDecodeLoop_plain {str : List UInt8} {f : Bool} {c : UInt8} {rest : List UInt8}
    (h : ¬ Escapes c rest) (i : ℕ) (ss : Option (List UInt8)) :
    urlDecodeLoop str f i (c :: rest) ss = urlDecodeLoop str f (i + 1) rest
      (if c = 43 ∧ f then some (ss.getD (str.take i) ++ [32]) else ss.map (· ++ [c])) := by
  rcases rest with _ | ⟨a, _ | ⟨b, rest⟩⟩
  · simp [urlDecodeLoop]
  · rw [apply_ite (urlDecodeLoop str f (i + 1) [a])]
    rfl
  · have hc : ¬ (c = 37 ∧ isxdigit a ∧ isxdigit b) := fun hc => h ⟨a, b, rest, rfl, hc⟩
    rw [urlDecodeLoop, if_neg hc, apply_ite (urlDecodeLoop str f (i + 1) (a :: b :: rest))]

theorem decodeBytes_plain {f : Bool} {c : UInt8} {rest : List UInt8} (h : ¬ Escapes c rest) :
    decodeBytes f (c :: rest) = decodeByte f c :: decodeBytes f rest := by
  rcases rest with _ | ⟨a, _ | ⟨b, rest⟩⟩
  · rfl
  · rfl
  · have hc : ¬ (c = 37 ∧ isxdigit a ∧ isxdigit b) := fun hc => h ⟨a, b, rest, rfl, hc⟩
    rw [decodeBytes, if_neg hc]

theorem decodeBytes_escape {f : Bool} {a b : UInt8} (rest : List UInt8) (ha : isxdigit a = true)
    (hb : isxdigit b = true) : decodeBytes f (37 :: a :: b :: rest) =
      (xdigitValue a <<< 4 ||| xdigitValue b) :: decodeBytes f rest := by
  rw [decodeBytes, if_pos ⟨rfl, ha, hb⟩]

/-- The same for decoding; three bytes are passed at an escape.  The induction is on the length of
what is left. -/
theorem urlDecodeLoop_eq {str : List UInt8} {f : Bool} {done rest : List UInt8}
    (h : str = done ++ rest) (ss : Option (List UInt8)) :
    (urlDecodeLoop str f done.length rest ss).getD str = ss.getD done ++ decodeBytes f rest := by
  induction hn : rest.length using Nat.strong_induction_on generalizing done rest ss with
  | _ n ih =>
  subst hn
  have htake : str.take done.length = done := by simp [h]
  cases rest with
  | nil => simp [urlDecodeLoop, decodeBytes, h]
  | cons c rest =>
    by_cases hx : Escapes c rest
    · obtain ⟨a, b, rest, rfl, rfl, ha, hb⟩ := hx
      have hstep := @ih rest.length (by simp only [List.length_cons]; omega)
        (done ++ [37, a, b]) rest (by simp [h])
      rw [List.length_append, show [37, a, b].length = 3 by rfl] at hstep
      have hplus : ¬ ((37 : UInt8) = 43 ∧ f = true) := fun h => absurd h.1 (by decide)
      rw [urlDecodeLoop, if_neg hplus, if_pos ⟨rfl, ha, hb⟩, hstep _ rfl, htake,
        decodeBytes_escape rest ha hb, Option.getD_some, List.append_assoc]
      rfl
    · have hstep := @ih rest.length (by simp) (done ++ [c]) rest (by simp [h])
      rw [List.length_append, List.length_singleton] at hstep
      rw [urlDecodeLoop_plain hx, hstep _ rfl, htake, getD_decodeByte, decodeBytes_plain hx,
        List.append_assoc]
      rfl

theorem urlDecode_eq (str : List UInt8) (f : Bool) : urlDecode str f = decodeBytes f str := by
  exact urlDecodeLoop_eq (List.nil_append str).symm none

/-- Decoding makes nothing longer. -/
theorem length_decodeBytes_le (f : Bool) (s : List UInt8) :
    (decodeBytes f s).length ≤ s.length := by
  induction hn : s.length using Nat.strong_induction_on generalizing s with
  | _ n ih =>
  subst hn
  cases s with
  | nil => exact Nat.le_refl 0
  | cons c rest =>
    by_cases hx : Escapes c rest
    · obtain ⟨a, b, rest, rfl, rfl, ha, hb⟩ := hx
      have hstep := ih rest.length (by simp only [List.length_cons]; omega) rest rfl
      rw [decodeBytes_escape rest ha hb]
      simp only [List.length_cons]
      omega
    · have hstep := ih rest.length (by simp) rest rfl
      rw [decodeBytes_plain hx]
      simp only [List.length_cons]
      omega

/-! ### There and back -/

/-- The two digits of a byte are digits and have its value. -/
theorem xdigit_hexdigit : ∀ c : UInt8, isxdigit (hexdigit (c >>> 4)) = true ∧
    isxdigit (hexdigit (c &&& 0xf)) = true ∧
    xdigitValue (hexdigit (c >>> 4)) <<< 4 ||| xdigitValue (hexdigit (c &&& 0xf)) = c := by
  decide +kernel

/-- The bytes that `decodeBytes` looks for are never written for themselves. -/
theorem not_charIsUnreserved : charIsUnreserved 37 = false ∧ charIsUnreserved 43 = false := by
  decide +kernel

theorem decodeBytes_encodeByte (f : Bool) (c : UInt8) (rest : List UInt8) :
    decodeBytes f (encodeByte f c ++ rest) = c :: decodeBytes f rest := by
  unfold encodeByte
  split_ifs with hc hs
  · have hx : ¬ Escapes c rest := by
      rintro ⟨a, b, rest', -, rfl, -⟩
      exact absurd hc (by simp [not_charIsUnreserved])
    have hplus : c ≠ 43 := by
      rintro rfl
      exact absurd hc (by simp [not_charIsUnreserved])
    rw [List.singleton_append, decodeBytes_plain hx, decodeByte, if_neg fun h => hplus h.1]
  · have hx : ¬ Escapes 43 rest := by
      rintro ⟨a, b, rest', -, h, -⟩
      exact absurd h (by decide)
    rw [List.singleton_append, decodeBytes_plain hx, decodeByte, if_pos ⟨rfl, hs.2⟩, hs.1]
  · obtain ⟨hhigh, hlow, hvalue⟩ := xdigit_hexdigit c
    show decodeBytes f (37 :: hexdigit (c >>> 4) :: hexdigit (c &&& 0xf) :: rest) = _
    rw [decodeBytes_escape rest hhigh hlow, hvalue]

theorem decodeBytes_encodeBytes (f : Bool) (s : List UInt8) :
    decodeBytes f (encodeBytes f s) = s := by
  induction s with
  | nil => rfl
  | cons c s ih => rw [encodeBytes, List.flatMap_cons, decodeBytes_encodeByte, ← encodeBytes, ih]

/-- **URL coding**: what is encoded is decoded again, for either treatment of spaces, and on every
string both functions compute the byte-by-byte coding, although they create their buffer late. -/
theorem urlDecode_urlEncode (s : List UInt8) (f : Bool) : urlDecode (urlEncode s f) f = s ∧
    urlEncode s f = encodeBytes f s ∧ urlDecode s f = decodeBytes f s := by
  refine ⟨?_, urlEncode_eq s f, urlDecode_eq s f⟩
  rw [urlEncode_eq, urlDecode_eq, decodeBytes_encodeBytes]

end Util

end YXTWebCpp
