import Mathlib.Data.List.Basic
import Mathlib.Tactic.SplitIfs

/-!
# Cutting at a separator

* `cutAt sep s` : what stands in front of the first `sep`, and what stands behind it, if any.
* `cutAt_of_notMem`, `cutAt_append_cons` : the cut of the two shapes a list can have.
* `sepInduction` : the induction over these shapes.
* `cutPair a b s` : the cut at the first `a` that `b` follows; `cutPair_intercalate` passes over
  joined pieces without a separator.
-/

namespace YXTWebCpp

namespace Text

/-- The separator stands in front of every piece but the first. -/
theorem intercalate_cons {α : Type*} (sep : α) (p : List α) (ps : List (List α)) :
    [sep].intercalate (p :: ps) = p ++ ps.flatMap (sep :: ·) := by
  induction ps generalizing p with
  | nil => simp
  | cons q ps ih => simp [List.intercalate_cons_cons, ih]

variable {α : Type*} [DecidableEq α] {sep : α}

/-- What stands in front of the first separator, and what stands behind it. -/
def cutAt (sep : α) : List α → List α × Option (List α)
  | [] => ([], none)
  | a :: s => if a = sep then ([], some s) else (a :: (cutAt sep s).1, (cutAt sep s).2)

theorem cutAt_of_notMem {s : List α} (h : sep ∉ s) : cutAt sep s = (s, none) := by
  induction s with
  | nil => rfl
  | cons a s ih =>
    have ha : a ≠ sep := fun ha => h (ha ▸ List.mem_cons_self)
    rw [cutAt, if_neg ha, ih fun hs => h (List.mem_cons_of_mem _ hs)]

theorem cutAt_append_cons {a : List α} (h : sep ∉ a) (s : List α) :
    cutAt sep (a ++ sep :: s) = (a, some s) := by
  induction a with
  | nil => rw [List.nil_append, cutAt, if_pos rfl]
  | cons b a ih =>
    have hb : b ≠ sep := fun hb => h (hb ▸ List.mem_cons_self)
    rw [List.cons_append, cutAt, if_neg hb, ih fun ha => h (List.mem_cons_of_mem _ ha)]

theorem cutAt_eq_some {s a t : List α} (h : cutAt sep s = (a, some t)) :
    s = a ++ sep :: t ∧ sep ∉ a := by
  by_cases hs : sep ∈ s
  · obtain ⟨b, u, rfl, hb⟩ := List.eq_append_cons_of_mem hs
    rw [cutAt_append_cons hb] at h
    cases h
    exact ⟨rfl, hb⟩
  · rw [cutAt_of_notMem hs] at h
    cases h

theorem prefix_cutAt (sep : α) (s : List α) : (cutAt sep s).1 <+: s := by
  by_cases hs : sep ∈ s
  · obtain ⟨a, t, rfl, ha⟩ := List.eq_append_cons_of_mem hs
    rw [cutAt_append_cons ha]
    exact List.prefix_append _ _
  · simp [cutAt_of_notMem hs]

/-- A list is a piece without the separator, or such a piece in front of one. -/
@[elab_as_elim]
theorem sepInduction (sep : α) {P : List α → Prop} (last : ∀ s, sep ∉ s → P s)
    (cons : ∀ a s, sep ∉ a → P s → P (a ++ sep :: s)) (s : List α) : P s := by
  induction hn : s.length using Nat.strongRecOn generalizing s with
  | ind n ih =>
  by_cases hs : sep ∈ s
  · obtain ⟨a, t, rfl, ha⟩ := List.eq_append_cons_of_mem hs
    refine cons a t ha (ih t.length ?_ t rfl)
    rw [← hn, List.length_append, List.length_cons]
    omega
  · exact last s hs

/-- The run of an element that a list begins with. -/
theorem exists_leadingRun (a : α) (s : List α) : ∃ z back,
    s = List.replicate z a ++ back ∧ back.head? ≠ some a := by
  induction s with
  | nil => exact ⟨0, [], rfl, Option.some_ne_none a ∘ Eq.symm⟩
  | cons b s ih =>
    by_cases hb : b = a
    · obtain ⟨z, back, rfl, hback⟩ := ih
      exact ⟨z + 1, back, by rw [hb]; rfl, hback⟩
    · exact ⟨0, b :: s, rfl, fun hc => hb (Option.some.inj hc)⟩

/-- The first run of an element in a list. -/
theorem exists_firstRun {a : α} {s : List α} (h : a ∈ s) : ∃ front z back,
    s = front ++ List.replicate (z + 1) a ++ back ∧ a ∉ front ∧ back.head? ≠ some a := by
  obtain ⟨front, t, rfl, hfront⟩ := List.eq_append_cons_of_mem h
  obtain ⟨z, back, rfl, hback⟩ := exists_leadingRun a t
  refine ⟨front, z, back, ?_, hfront, hback⟩
  rw [List.append_assoc]
  rfl

/-! ### Pairs -/

/-- What stands in front of the first `a` that `b` follows, and what stands behind the two. -/
def cutPair (a b : α) : List α → Option (List α × List α)
  | [] => none
  | c :: s =>
    if c = a ∧ s.head? = some b then some ([], s.tail)
    else (cutPair a b s).map fun p => (c :: p.1, p.2)

theorem cutPair_pair (a b : α) (s : List α) : cutPair a b (a :: b :: s) = some ([], s) := by
  exact if_pos ⟨rfl, rfl⟩

theorem cutPair_append_of_notMem {a b : α} {s : List α} (h : a ∉ s) (t : List α) :
    cutPair a b (s ++ t) = (cutPair a b t).map fun p => (s ++ p.1, p.2) := by
  induction s with
  | nil => simp
  | cons c s ih =>
    have hc : c ≠ a := fun hc => h (hc ▸ List.mem_cons_self)
    rw [List.cons_append, cutPair, if_neg fun h => hc h.1,
      ih fun hs => h (List.mem_cons_of_mem _ hs), Option.map_map]
    rfl

/-- There is no pair of separators in joined pieces, and none where they end. -/
theorem cutPair_intercalate {ps : List (List α)} (h : ∀ p ∈ ps, p ≠ [] ∧ sep ∉ p) (t : List α) :
    cutPair sep sep ([sep].intercalate ps ++ t) =
      (cutPair sep sep t).map fun q => ([sep].intercalate ps ++ q.1, q.2) := by
  induction ps with
  | nil => simp
  | cons p ps ih =>
    have hp := (h p List.mem_cons_self).2
    have ih := ih fun q hq => h q (List.mem_cons_of_mem _ hq)
    cases ps with
    | nil => rw [List.intercalate_singleton, cutPair_append_of_notMem hp]
    | cons q ps =>
      -- the separator in front of `q` is not followed by another one
      have hq := h q (List.mem_cons_of_mem _ List.mem_cons_self)
      have hhead : ([sep].intercalate (q :: ps) ++ t).head? ≠ some sep := by
        obtain ⟨c, q', rfl⟩ := List.exists_cons_of_ne_nil hq.1
        rw [intercalate_cons]
        intro hc
        exact hq.2 (Option.some.inj hc ▸ List.mem_cons_self)
      rw [List.intercalate_cons_cons, List.append_assoc, List.append_assoc,
        cutPair_append_of_notMem hp, List.singleton_append, cutPair, if_neg fun hc => hhead hc.2,
        ih, Option.map_map, Option.map_map]
      refine congrArg (Option.map · _) ?_
      funext r
      simp

end Text

end YXTWebCpp
