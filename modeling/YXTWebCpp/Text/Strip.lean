import Mathlib.Data.List.DropRight

/-!
# Stripping the ends of a list

* `StripsLeft p s r`, `StripsRight p s r` : `r` is `s` without its longest prefix, or suffix, of
  elements with `p`.
* `stripsLeft_iff`, `stripsRight_iff` : this is `dropWhile`, or `rdropWhile`.
* `dropWhile_rdropWhile` : the two ends are stripped in either order; `dropWhile_dropLast_ne` : not
  so if the last element is lost before.
* `firstNot`, `lastNot` : the positions of the first and of the last element without `p`;
  `firstNot_eq_some`, `lastNot_eq_some` : where the stripped list begins and ends.
-/

namespace YXTWebCpp

namespace Text

variable {α : Type*} {p : α → Bool} {s r : List α}

/-! ### The longest prefix and the longest suffix -/

/-- `r` is `s` without its longest prefix of elements with `p`. -/
def StripsLeft (p : α → Bool) (s r : List α) : Prop :=
  ∃ q, s = q ++ r ∧ (∀ c ∈ q, p c = true) ∧ ∀ q', q' <+: s → (∀ c ∈ q', p c = true) → q' <+: q

/-- `r` is `s` without its longest suffix of elements with `p`. -/
def StripsRight (p : α → Bool) (s r : List α) : Prop :=
  ∃ q, s = r ++ q ∧ (∀ c ∈ q, p c = true) ∧ ∀ q', q' <:+ s → (∀ c ∈ q', p c = true) → q' <:+ q

theorem forall_takeWhile (s : List α) : ∀ c ∈ s.takeWhile p, p c = true :=
  fun _ hc => List.mem_takeWhile_imp hc

/-- No prefix of elements with `p` is longer than `takeWhile`. -/
theorem isPrefix_takeWhile {q : List α} (h : q <+: s) (hq : ∀ c ∈ q, p c = true) :
    q <+: s.takeWhile p := by
  obtain ⟨t, rfl⟩ := h
  rw [List.takeWhile_append_of_pos hq]
  exact List.prefix_append _ _

theorem stripsLeft_dropWhile (p : α → Bool) (s : List α) : StripsLeft p s (s.dropWhile p) :=
  ⟨s.takeWhile p, List.takeWhile_append_dropWhile.symm, forall_takeWhile s,
    fun _ => isPrefix_takeWhile⟩

theorem stripsLeft_iff : StripsLeft p s r ↔ r = s.dropWhile p := by
  constructor
  · rintro ⟨q, hs, hq, hlong⟩
    -- both prefixes are the longest one
    have hle := hlong _ (List.takeWhile_prefix p) (forall_takeWhile s)
    have hge := isPrefix_takeWhile ⟨r, hs.symm⟩ hq
    have heq : q = s.takeWhile p := hge.eq_of_length_le hle.length_le
    rw [heq] at hs
    exact List.append_cancel_left (hs.symm.trans List.takeWhile_append_dropWhile.symm)
  · rintro rfl
    exact stripsLeft_dropWhile p s

/-- The suffixes of a list are the prefixes of the list in the opposite order. -/
theorem stripsRight_iff_reverse : StripsRight p s r ↔ StripsLeft p s.reverse r.reverse := by
  constructor
  · rintro ⟨q, rfl, hq, hlong⟩
    refine ⟨q.reverse, List.reverse_append, fun c hc => hq c (List.mem_reverse.1 hc),
      fun q' hq' hp => ?_⟩
    rw [← List.reverse_reverse q', List.reverse_prefix] at hq' ⊢
    exact hlong _ hq' fun c hc => hp c (List.mem_reverse.1 hc)
  · rintro ⟨q, hs, hq, hlong⟩
    refine ⟨q.reverse, ?_, fun c hc => hq c (List.mem_reverse.1 hc), fun q' hq' hp => ?_⟩
    · rw [← List.reverse_reverse s, hs, List.reverse_append, List.reverse_reverse]
    · have hlong' := hlong q'.reverse (List.reverse_prefix.2 hq')
        fun c hc => hp c (List.mem_reverse.1 hc)
      rwa [← List.reverse_suffix, List.reverse_reverse] at hlong'

theorem stripsRight_iff : StripsRight p s r ↔ r = s.rdropWhile p := by
  rw [stripsRight_iff_reverse, stripsLeft_iff, List.rdropWhile, ← List.reverse_inj,
    List.reverse_reverse]

/-! ### Both ends -/

theorem dropWhile_ne_nil (h : ¬ ∀ c ∈ s, p c = true) : s.dropWhile p ≠ [] :=
  fun hnil => h (List.dropWhile_eq_nil_iff.1 hnil)

/-- Something of the list is left, and it is left of the end of the list as well. -/
theorem strip_ne_nil (h : ¬ ∀ c ∈ s, p c = true) : (s.dropWhile p).rdropWhile p ≠ [] := by
  intro hnil
  have hpos := List.length_pos_of_ne_nil (dropWhile_ne_nil h)
  exact List.dropWhile_get_zero_not p s hpos
    (List.rdropWhile_eq_nil_iff.1 hnil _ (List.get_mem _ _))

theorem rdropWhile_eq_append (h : ¬ ∀ c ∈ s, p c = true) :
    s.rdropWhile p = s.takeWhile p ++ (s.dropWhile p).rdropWhile p := by
  have hne := strip_ne_nil h
  rw [List.rdropWhile, ne_eq, List.reverse_eq_nil_iff] at hne
  conv_lhs => rw [← List.takeWhile_append_dropWhile (p := p) (l := s)]
  rw [List.rdropWhile, List.reverse_append, List.dropWhile_append,
    if_neg (mt List.isEmpty_iff.1 hne), List.reverse_append, List.reverse_reverse]
  rfl

/-- The two ends are stripped in either order. -/
theorem dropWhile_rdropWhile (p : α → Bool) (s : List α) :
    (s.rdropWhile p).dropWhile p = (s.dropWhile p).rdropWhile p := by
  by_cases h : ∀ c ∈ s, p c = true
  · rw [List.rdropWhile_eq_nil_iff.2 h, List.dropWhile_eq_nil_iff.2 h]
    rfl
  · have hpre := List.rdropWhile_prefix p (s.dropWhile p)
    have hself : ((s.dropWhile p).rdropWhile p).dropWhile p = (s.dropWhile p).rdropWhile p := by
      refine List.dropWhile_eq_self_iff.2 fun hl => ?_
      rw [hpre.getElem hl]
      exact List.dropWhile_get_zero_not p s (hl.trans_le hpre.length_le)
    rw [rdropWhile_eq_append h, List.dropWhile_append_of_pos (forall_takeWhile s), hself]

theorem dropLast_ne_self (h : s ≠ []) : s.dropLast ≠ s := by
  intro heq
  have hpos := List.length_pos_of_ne_nil h
  have hlen := congrArg List.length heq
  rw [List.length_dropLast] at hlen
  omega

/-- To strip the end and to lose one more element changes every list but the empty one. -/
theorem dropLast_rdropWhile_eq_self_iff : (s.rdropWhile p).dropLast = s ↔ s = [] := by
  constructor
  · intro heq
    by_contra hne
    have hpos := List.length_pos_of_ne_nil hne
    have hle := (List.rdropWhile_prefix p s).length_le
    have hlen := congrArg List.length heq
    rw [List.length_dropLast] at hlen
    omega
  · rintro rfl
    rfl

/-- What is left without the last element is shorter. -/
theorem dropWhile_dropLast_ne (h : s.dropWhile p ≠ []) :
    s.dropLast.dropWhile p ≠ s.dropWhile p := by
  intro heq
  have hlast : s.dropLast = s.takeWhile p ++ (s.dropWhile p).dropLast := by
    conv_lhs => rw [← List.takeWhile_append_dropWhile (p := p) (l := s)]
    exact List.dropLast_append_of_ne_nil h
  have hle := (List.dropWhile_suffix p (l := (s.dropWhile p).dropLast)).length_le
  have hpos := List.length_pos_of_ne_nil h
  rw [hlast, List.dropWhile_append_of_pos (forall_takeWhile s)] at heq
  rw [heq, List.length_dropLast] at hle
  omega

/-! ### Positions -/

/-- The position of the first element without `p`. -/
def firstNot (p : α → Bool) (s : List α) : Option ℕ := s.findIdx? fun c => !p c

/-- The position of the last element without `p`, which is looked for from the end. -/
def lastNot (p : α → Bool) (s : List α) : Option ℕ :=
  (firstNot p s.reverse).map fun i => s.length - 1 - i

theorem firstNot_eq_none_iff : firstNot p s = none ↔ ∀ c ∈ s, p c = true := by
  simp [firstNot]

theorem lastNot_eq_none_iff : lastNot p s = none ↔ ∀ c ∈ s, p c = true := by
  rw [lastNot, Option.map_eq_none_iff, firstNot_eq_none_iff]
  simp only [List.mem_reverse]

/-- The first position is behind the elements that are stripped. -/
theorem firstNot_eq_some {i : ℕ} (h : firstNot p s = some i) :
    i = (s.takeWhile p).length ∧ i < s.length := by
  obtain ⟨hlt, rfl⟩ := List.findIdx?_eq_some_iff_findIdx_eq.1 h
  rw [List.takeWhile_eq_take_findIdx_not, List.length_take, Nat.min_eq_left hlt.le]
  exact ⟨rfl, hlt⟩

theorem drop_firstNot {i : ℕ} (h : firstNot p s = some i) : s.drop i = s.dropWhile p := by
  obtain ⟨-, rfl⟩ := List.findIdx?_eq_some_iff_findIdx_eq.1 h
  exact List.dropWhile_eq_drop_findIdx_not.symm

/-- The last position is the last one of the list that is left. -/
theorem lastNot_eq_some {j : ℕ} (h : lastNot p s = some j) :
    (s.rdropWhile p).length = j + 1 := by
  obtain ⟨i, hi, rfl⟩ := Option.map_eq_some_iff.1 h
  obtain ⟨hlen, hlt⟩ := firstNot_eq_some hi
  have hsum := congrArg List.length (List.takeWhile_append_dropWhile (p := p) (l := s.reverse))
  rw [List.length_append, ← hlen, List.length_reverse] at hsum
  rw [List.length_reverse] at hlt
  rw [List.rdropWhile, List.length_reverse]
  omega

theorem take_lastNot {j : ℕ} (h : lastNot p s = some j) :
    s.take (j + 1) = s.rdropWhile p := by
  rw [← lastNot_eq_some h]
  exact (List.prefix_iff_eq_take.1 (List.rdropWhile_prefix p s)).symm

/-- What stands from the first position to the last one. -/
theorem take_drop_firstNot_lastNot {i j : ℕ} (hi : firstNot p s = some i)
    (hj : lastNot p s = some j) :
    (s.drop i).take (j - i + 1) = (s.dropWhile p).rdropWhile p := by
  have h : ¬ ∀ c ∈ s, p c = true := fun hall => by
    rw [firstNot_eq_none_iff.2 hall] at hi
    cases hi
  have hsum := lastNot_eq_some hj
  have hpos := List.length_pos_of_ne_nil (strip_ne_nil h)
  rw [rdropWhile_eq_append h, List.length_append, ← (firstNot_eq_some hi).1] at hsum
  have hlen : ((s.dropWhile p).rdropWhile p).length = j - i + 1 := by omega
  rw [drop_firstNot hi, ← hlen]
  exact (List.prefix_iff_eq_take.1 (List.rdropWhile_prefix p _)).symm

end Text

end YXTWebCpp
