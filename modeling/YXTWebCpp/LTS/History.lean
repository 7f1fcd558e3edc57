import Mathlib.Data.List.Basic
import Mathlib.Logic.Function.Basic

/-!
# Histories and the last write

What a component answers often depends on the last operation of some kind in its history.  A history
is the list of the operations, the oldest first.

* `LastWrite w h k n v` : the last operation of `h` that writes under the key `k` is the `n`-th one,
  and it writes `v`.
* `lastWrite_snoc_of`, `lastWrite_snoc_of_other`, `lastWrite_snoc_of_none` : what one more operation
  changes.
* `LastWrite.unique` : there is only one last write.
* `update_iff` : a map whose entries are the last writes, after one more.
-/

namespace YXTWebCpp

namespace History

variable {A K V : Type*} {w : A → Option (K × V)} {h : List A} {k : K} {n : ℕ} {v : V} {a : A}

/-- The last operation that writes under `k`, where `w` says what an operation writes and under
which key. -/
def LastWrite (w : A → Option (K × V)) (h : List A) (k : K) (n : ℕ) (v : V) : Prop :=
  (∃ a, h[n]? = some a ∧ w a = some (k, v)) ∧
    ∀ m b, n < m → h[m]? = some b → ∀ v', w b ≠ some (k, v')

theorem not_lastWrite_nil : ¬ LastWrite w [] k n v := by
  rintro ⟨⟨a, ha, -⟩, -⟩
  simp at ha

theorem LastWrite.lt (hl : LastWrite w h k n v) : n < h.length := by
  obtain ⟨⟨a, ha, -⟩, -⟩ := hl
  exact (List.getElem?_eq_some_iff.1 ha).1

/-- There is one last write. -/
theorem LastWrite.unique {n' : ℕ} {v' : V} (hl : LastWrite w h k n v)
    (hl' : LastWrite w h k n' v') : n = n' ∧ v = v' := by
  obtain ⟨⟨a, ha, hw⟩, hlast⟩ := hl
  obtain ⟨⟨a', ha', hw'⟩, hlast'⟩ := hl'
  have hn : n = n' := by
    rcases Nat.lt_trichotomy n n' with hlt | heq | hgt
    · exact absurd hw' (hlast n' a' hlt ha' v')
    · exact heq
    · exact absurd hw (hlast' n a hgt ha v)
  subst hn
  obtain rfl : a = a' := Option.some.inj (ha.symm.trans ha')
  exact ⟨rfl, (Prod.mk.inj (Option.some.inj (hw.symm.trans hw'))).2⟩

/-- An operation that writes under `k` is the last one. -/
theorem lastWrite_snoc_of {v' : V} (ha : w a = some (k, v')) :
    LastWrite w (h ++ [a]) k n v ↔ n = h.length ∧ v = v' := by
  have hnew : LastWrite w (h ++ [a]) k h.length v' := by
    refine ⟨⟨a, by simp, ha⟩, fun m b hm hb => ?_⟩
    have := (List.getElem?_eq_some_iff.1 hb).1
    simp only [List.length_append, List.length_singleton] at this
    omega
  constructor
  · exact fun hl => hl.unique hnew
  · rintro ⟨rfl, rfl⟩
    exact hnew

/-- An operation that does not write under `k` changes nothing. -/
theorem lastWrite_snoc_of_ne (ha : ∀ v', w a ≠ some (k, v')) :
    LastWrite w (h ++ [a]) k n v ↔ LastWrite w h k n v := by
  have hold : ∀ {m : ℕ} {b : A}, h[m]? = some b → (h ++ [a])[m]? = some b := by
    intro m b hb
    rw [List.getElem?_append_left (List.getElem?_eq_some_iff.1 hb).1, hb]
  have hnew : ∀ {m : ℕ} {b : A} {v : V}, (h ++ [a])[m]? = some b → w b = some (k, v) →
      h[m]? = some b := by
    intro m b v hb hw
    by_cases hm : m < h.length
    · rwa [List.getElem?_append_left hm] at hb
    · rw [List.getElem?_append_right (by omega)] at hb
      obtain rfl : b = a := List.mem_singleton.1 (List.mem_of_getElem? hb)
      exact absurd hw (ha v)
  constructor
  · rintro ⟨⟨b, hb, hw⟩, hlast⟩
    exact ⟨⟨b, hnew hb hw, hw⟩, fun m c hm hc v' hw' => hlast m c hm (hold hc) v' hw'⟩
  · rintro ⟨⟨b, hb, hw⟩, hlast⟩
    exact ⟨⟨b, hold hb, hw⟩, fun m c hm hc v' hw' => hlast m c hm (hnew hc hw') v' hw'⟩

theorem lastWrite_snoc_of_other {k' : K} {v' : V} (ha : w a = some (k', v')) (hk : k ≠ k') :
    LastWrite w (h ++ [a]) k n v ↔ LastWrite w h k n v := by
  refine lastWrite_snoc_of_ne fun v'' hw => hk ?_
  exact (Prod.mk.inj (Option.some.inj (hw.symm.trans ha))).1

theorem lastWrite_snoc_of_none (ha : w a = none) :
    LastWrite w (h ++ [a]) k n v ↔ LastWrite w h k n v := by
  refine lastWrite_snoc_of_ne fun v' hw => ?_
  rw [ha] at hw
  cases hw

/-- A map whose entries are the last writes, `none` standing for a deletion, after one more. -/
theorem update_iff [DecidableEq K] {V : Type*} {w : A → Option (K × Option V)} {f : K → Option V}
    (hf : ∀ k v, f k = some v ↔ ∃ n, LastWrite w h k n (some v)) {k : K} {o : Option V}
    (ha : w a = some (k, o)) (k' : K) (v : V) :
    Function.update f k o k' = some v ↔ ∃ n, LastWrite w (h ++ [a]) k' n (some v) := by
  by_cases hk : k' = k
  · subst hk
    rw [Function.update_self]
    constructor
    · rintro rfl
      exact ⟨_, (lastWrite_snoc_of ha).2 ⟨rfl, rfl⟩⟩
    · rintro ⟨n, hl⟩
      exact ((lastWrite_snoc_of ha).1 hl).2.symm
  · rw [Function.update_of_ne hk, hf]
    exact exists_congr fun n => (lastWrite_snoc_of_other ha hk).symm

end History

end YXTWebCpp
