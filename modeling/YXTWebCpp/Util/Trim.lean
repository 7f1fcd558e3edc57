import YXTWebCpp.Text.Strip

/-!
# Trimming

`StringUtil::Trim`, `StringUtil::TrimLeft` and `StringUtil::TrimRight` (`util.cpp`).

* `trim`, `trimLeft`, `trimRight` : the functions, with the positions that they look for.
* `trim_eq`, `trimLeft_eq`, `trimRight_eq` : what they return; `TrimRight` loses one byte more than
  the delimiters.
* `TrimLaws` : what is expected of the three functions together.
* `trimLaws_iff` : **it holds exactly of the strings of delimiters**.
-/

namespace YXTWebCpp

namespace Util

open Text

/-! ### The functions -/

/-- `str.substr(pos, n)`, up to the end without `n`; `none` is the exception for a position behind
the end. -/
def substr (str : List UInt8) (pos : ℕ) (n : Option ℕ) : Option (List UInt8) :=
  if pos ≤ str.length then some (n.elim (str.drop pos) (str.drop pos).take) else none

/-- `str.find_first_not_of(delimit)`; `none` is `npos`. -/
def findFirstNotOf (str delimit : List UInt8) : Option ℕ := firstNot delimit.contains str

/-- `str.find_last_not_of(delimit)` -/
def findLastNotOf (str delimit : List UInt8) : Option ℕ := lastNot delimit.contains str

/-- `StringUtil::Trim` -/
def trim (str delimit : List UInt8) : Option (List UInt8) :=
  match findFirstNotOf str delimit with
  | none => some []
  | some first =>
    -- with `npos` the number of bytes is greater than that of any string
    substr str first ((findLastNotOf str delimit).map fun last => last - first + 1)

/-- `StringUtil::TrimLeft` -/
def trimLeft (str delimit : List UInt8) : Option (List UInt8) :=
  match findFirstNotOf str delimit with
  | none => some []
  | some first => substr str first none

/-- `StringUtil::TrimRight` -/
def trimRight (str delimit : List UInt8) : Option (List UInt8) :=
  match findLastNotOf str delimit with
  | none => some []
  | some last => substr str 0 (some last)

section

variable (str delimit : List UInt8)

/-! ### What they return -/

theorem trimLeft_eq : trimLeft str delimit = some (str.dropWhile delimit.contains) := by
  rw [trimLeft]
  cases h : findFirstNotOf str delimit with
  | none => rw [List.dropWhile_eq_nil_iff.2 (firstNot_eq_none_iff.1 h)]
  | some first =>
    show substr str first none = _
    rw [substr, if_pos (firstNot_eq_some h).2.le, Option.elim_none, drop_firstNot h]

theorem trim_eq :
    trim str delimit = some ((str.dropWhile delimit.contains).rdropWhile delimit.contains) := by
  rw [trim]
  cases hfirst : findFirstNotOf str delimit with
  | none =>
    rw [List.dropWhile_eq_nil_iff.2 (firstNot_eq_none_iff.1 hfirst)]
    rfl
  | some first =>
    cases hlast : findLastNotOf str delimit with
    | none =>
      -- both functions look for a byte that is no delimiter
      have hnone := firstNot_eq_none_iff.2 (lastNot_eq_none_iff.1 hlast)
      exact absurd (hnone.symm.trans hfirst) (Option.some_ne_none first).symm
    | some last =>
      show substr str first (some (last - first + 1)) = _
      rw [substr, if_pos (firstNot_eq_some hfirst).2.le, Option.elim_some,
        take_drop_firstNot_lastNot hfirst hlast]

/-- The last byte that is no delimiter is lost. -/
theorem trimRight_eq :
    trimRight str delimit = some (str.rdropWhile delimit.contains).dropLast := by
  rw [trimRight]
  cases h : findLastNotOf str delimit with
  | none =>
    rw [List.rdropWhile_eq_nil_iff.2 (lastNot_eq_none_iff.1 h)]
    rfl
  | some last =>
    show substr str 0 (some last) = _
    rw [substr, if_pos (Nat.zero_le _), Option.elim_some, List.drop_zero, List.dropLast_eq_take,
      lastNot_eq_some h, Nat.add_sub_cancel, ← take_lastNot h, List.take_take,
      Nat.min_eq_left (Nat.le_succ last)]

/-! ### What is expected of them -/

/-- The function does nothing to what it has returned. -/
def Settles (f : List UInt8 → Option (List UInt8)) : Prop := (f str).bind f = f str

/-- `TrimLeft` and `TrimRight` remove the longest prefix and the longest suffix of delimiters,
`Trim` does both of it in either order, and nothing changes if it is done again. -/
structure TrimLaws : Prop where
  left : ∃ r, trimLeft str delimit = some r ∧ StripsLeft delimit.contains str r
  right : ∃ r, trimRight str delimit = some r ∧ StripsRight delimit.contains str r
  left_right : trim str delimit = (trimRight str delimit).bind fun s => trimLeft s delimit
  right_left : trim str delimit = (trimLeft str delimit).bind fun s => trimRight s delimit
  settles_trim : Settles str fun s => trim s delimit
  settles_left : Settles str fun s => trimLeft s delimit
  settles_right : Settles str fun s => trimRight s delimit

theorem stripsLeft_trimLeft :
    ∃ r, trimLeft str delimit = some r ∧ StripsLeft delimit.contains str r :=
  ⟨_, trimLeft_eq str delimit, stripsLeft_dropWhile _ str⟩

theorem settles_trimLeft : Settles str fun s => trimLeft s delimit := by
  simp only [Settles, trimLeft_eq, Option.bind_some, List.dropWhile_idempotent]

theorem settles_trim : Settles str fun s => trim s delimit := by
  simp only [Settles, trim_eq, Option.bind_some]
  rw [dropWhile_rdropWhile, List.dropWhile_idempotent, List.rdropWhile_idempotent]

end

variable {str delimit : List UInt8}

theorem forall_contains_iff :
    (∀ c ∈ str, delimit.contains c = true) ↔ ∀ c ∈ str, c ∈ delimit :=
  forall₂_congr fun _ _ => List.contains_iff_mem

/-- `TrimRight` removes the longest suffix of delimiters if this is the whole string. -/
theorem stripsRight_trimRight_iff :
    (∃ r, trimRight str delimit = some r ∧ StripsRight delimit.contains str r) ↔
      ∀ c ∈ str, c ∈ delimit := by
  simp only [trimRight_eq, stripsRight_iff, Option.some.injEq, exists_eq_left']
  rw [← forall_contains_iff, ← List.rdropWhile_eq_nil_iff]
  constructor
  · exact fun h => by_contra fun hne => dropLast_ne_self hne h
  · intro h
    rw [h]
    rfl

/-- `Trim` is `TrimLeft` after `TrimRight` if there is no byte to lose. -/
theorem trim_eq_left_right_iff :
    (trim str delimit = (trimRight str delimit).bind fun s => trimLeft s delimit) ↔
      ∀ c ∈ str, c ∈ delimit := by
  simp only [trim_eq, trimRight_eq, trimLeft_eq, Option.bind_some, Option.some.injEq]
  rw [← forall_contains_iff, ← dropWhile_rdropWhile]
  constructor
  · intro h
    by_contra hne
    have hleft := strip_ne_nil hne
    rw [← dropWhile_rdropWhile] at hleft
    exact dropWhile_dropLast_ne hleft h.symm
  · intro h
    rw [List.rdropWhile_eq_nil_iff.2 h]
    rfl

/-- `Trim` is `TrimRight` after `TrimLeft` under the same condition. -/
theorem trim_eq_right_left_iff :
    (trim str delimit = (trimLeft str delimit).bind fun s => trimRight s delimit) ↔
      ∀ c ∈ str, c ∈ delimit := by
  simp only [trim_eq, trimRight_eq, trimLeft_eq, Option.bind_some, Option.some.injEq]
  rw [← forall_contains_iff]
  constructor
  · exact fun h => by_contra fun hne => dropLast_ne_self (strip_ne_nil hne) h.symm
  · intro h
    rw [List.dropWhile_eq_nil_iff.2 h]
    rfl

/-- The second call of `TrimRight` changes nothing only if the first one has left nothing. -/
theorem settles_trimRight_iff : (Settles str fun s => trimRight s delimit) ↔
    (str.rdropWhile delimit.contains).length ≤ 1 := by
  simp only [Settles, trimRight_eq, Option.bind_some, Option.some.injEq]
  rw [dropLast_rdropWhile_eq_self_iff, ← List.length_eq_zero_iff, List.length_dropLast]
  omega

/-- **Trimming**: the laws hold exactly of the strings of delimiters. -/
theorem trimLaws_iff : TrimLaws str delimit ↔ ∀ c ∈ str, c ∈ delimit := by
  constructor
  · exact fun h => stripsRight_trimRight_iff.1 h.right
  · intro h
    have hnil := List.rdropWhile_eq_nil_iff.2 (forall_contains_iff.2 h)
    exact ⟨stripsLeft_trimLeft str delimit, stripsRight_trimRight_iff.2 h,
      trim_eq_left_right_iff.2 h, trim_eq_right_left_iff.2 h, settles_trim str delimit,
      settles_trimLeft str delimit, settles_trimRight_iff.2 (by rw [hnil]; exact Nat.zero_le _)⟩

/-- The only byte of a string is no delimiter. -/
theorem not_trimLaws_letter :
    trimRight [97] [32] = some [] ∧ trim [97] [32] = some [97] ∧ ¬ TrimLaws [97] [32] := by
  refine ⟨by decide, by decide, fun h => ?_⟩
  have hright := h.left_right
  revert hright
  decide

end Util

end YXTWebCpp
