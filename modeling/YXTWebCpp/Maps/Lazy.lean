import Mathlib.Logic.Function.Basic
import Mathlib.Tactic.Common
import YXTWebCpp.LTS.Object

/-!
# Maps that are filled late

A family of maps.  Each of them has a source, from which it is filled at the first call that looks
into it; entries that are there by then stay as they are.  Calls that only write do not fill it.

* `maps src` : the family as an object, and `loadAll` : all maps are filled beforehand.
* `Dropped` : a key was deleted from a map that had not been filled, and not set again.
* `trace_loadAll_eq_iff` : filling late can be told from filling beforehand exactly where a key that
  was dropped and that the source has is looked up.
-/

namespace YXTWebCpp

namespace LazyMaps

variable {ι L V : Type*}

/-- A call on map `i`. -/
inductive Op (ι L V : Type*) where
  | set (i : ι) (x : L) (v : V)
  | del (i : ι) (x : L)
  | get (i : ι) (x : L) (dflt : V)
  | has (i : ι) (x : L)

/-- What a call returns. -/
inductive Result (V : Type*) where
  | done
  | value (v : V)
  | found (v : Option V)
  deriving DecidableEq

/-- The call looks into map `i`. -/
def Op.Reads (i : ι) : Op ι L V → Prop
  | .get j _ _ => j = i
  | .has j _ => j = i
  | _ => False

/-- The call changes key `x` of map `i`. -/
def Op.Writes (i : ι) (x : L) : Op ι L V → Prop
  | .set j y _ => j = i ∧ y = x
  | .del j y => j = i ∧ y = x
  | _ => False

/-- A map, and whether it has been filled. -/
structure Slot (L V : Type*) where
  /-- The map has been filled. -/
  loaded : Bool
  /-- What it holds. -/
  content : L → Option V

/-- The map is filled from its source, once. -/
def Slot.load (src : L → Option V) (s : Slot L V) : Slot L V :=
  if s.loaded then s else ⟨true, fun x => (s.content x).or (src x)⟩

section Family

variable (src : ι → L → Option V)

/-- Map `i` is filled. -/
def look [DecidableEq ι] (s : ι → Slot L V) (i : ι) : ι → Slot L V :=
  Function.update s i ((s i).load (src i))

/-- Key `x` of map `i` is changed; this does not fill it. -/
def put [DecidableEq ι] [DecidableEq L] (s : ι → Slot L V) (i : ι) (x : L) (o : Option V) :
    ι → Slot L V :=
  Function.update s i ⟨(s i).loaded, Function.update (s i).content x o⟩

/-- What a look into map `i` finds. -/
def seen (s : ι → Slot L V) (i : ι) : L → Option V := ((s i).load (src i)).content

/-- The family of maps. -/
def maps [DecidableEq ι] [DecidableEq L] : Object (ι → Slot L V) (Op ι L V) (Result V) where
  step s op := match op with
    | .set i x v => (.done, put s i x (some v))
    | .del i x => (.done, put s i x none)
    | .get i x dflt => (.value ((seen src s i x).getD dflt), look src s i)
    | .has i x => (.found (seen src s i x), look src s i)

/-- All maps are filled. -/
def loadAll (s : ι → Slot L V) : ι → Slot L V := fun i => (s i).load (src i)

/-- Key `x` was deleted from map `i` before the first look into it, and has not been set since. -/
def Dropped (pre : List (Op ι L V)) (i : ι) (x : L) : Prop :=
  ∃ a b, pre = a ++ .del i x :: b ∧ (∀ op ∈ a, ¬ op.Reads i) ∧ ∀ op ∈ b, ¬ op.Writes i x

/-- The call looks up a key that was dropped, and the source has an entry that it could tell from
no entry. -/
def Exposes (pre : List (Op ι L V)) : Op ι L V → Prop
  | .get i x dflt => Dropped pre i x ∧ ∃ v, src i x = some v ∧ v ≠ dflt
  | .has i x => Dropped pre i x ∧ ∃ v, src i x = some v
  | _ => False

end Family

/-! ### Histories -/

theorem forall_split_cons {α : Type*} {a : α} {l : List α} {P : List α → α → Prop} :
    (∀ pre b post, a :: l = pre ++ b :: post → P pre b) ↔
      P [] a ∧ ∀ pre b post, l = pre ++ b :: post → P (a :: pre) b := by
  constructor
  · intro h
    exact ⟨h [] a l rfl, fun pre b post hl => h (a :: pre) b post (by rw [hl, List.cons_append])⟩
  · rintro ⟨h0, h⟩ pre b post hl
    cases pre with
    | nil =>
      cases hl
      exact h0
    | cons c pre =>
      obtain ⟨rfl, hl'⟩ := List.cons.inj hl
      exact h pre b post hl'

/-- A call can tell only after a deletion. -/
theorem Exposes.exists_del {src : ι → L → Option V} {pre : List (Op ι L V)} {op : Op ι L V}
    (h : Exposes src pre op) : ∃ i x, .del i x ∈ pre := by
  cases op with
  | set i x v => exact h.elim
  | del i x => exact h.elim
  | get i x dflt =>
    obtain ⟨⟨a, b, rfl, -⟩, -⟩ := h
    exact ⟨i, x, by simp⟩
  | has i x =>
    obtain ⟨⟨a, b, rfl, -⟩, -⟩ := h
    exact ⟨i, x, by simp⟩

theorem not_dropped_nil {i : ι} {x : L} : ¬ Dropped ([] : List (Op ι L V)) i x := by
  rintro ⟨a, b, h, -⟩
  cases a <;> cases h

theorem dropped_snoc {pre : List (Op ι L V)} {op : Op ι L V} {i : ι} {x : L} :
    Dropped (pre ++ [op]) i x ↔
      (op = .del i x ∧ ∀ op ∈ pre, ¬ op.Reads i) ∨ (¬ op.Writes i x ∧ Dropped pre i x) := by
  constructor
  · rintro ⟨a, b, h, ha, hb⟩
    rcases List.eq_nil_or_concat b with rfl | ⟨b', op', rfl⟩
    · obtain ⟨hpre, hop⟩ := List.append_inj' h rfl
      exact .inl ⟨(List.cons.inj hop).1, hpre ▸ ha⟩
    · rw [List.concat_eq_append] at h hb
      rw [← List.cons_append, ← List.append_assoc] at h
      obtain ⟨hpre, hop⟩ := List.append_inj' h rfl
      rw [(List.cons.inj hop).1]
      exact .inr ⟨hb _ (by simp), a, b', hpre, ha, fun op hop => hb op (by simp [hop])⟩
  · rintro (⟨rfl, hpre⟩ | ⟨hop, a, b, rfl, ha, hb⟩)
    · exact ⟨pre, [], rfl, hpre, by simp⟩
    · refine ⟨a, b ++ [op], by simp, ha, fun op' hop' => ?_⟩
      rcases List.mem_append.1 hop' with h | h
      · exact hb op' h
      · rw [List.mem_singleton.1 h]
        exact hop

/-! ### Filled late and filled beforehand -/

section Compare

variable {src : ι → L → Option V} {s t : ι → Slot L V} {pre : List (Op ι L V)}

theorem load_of_loaded {src : L → Option V} {s : Slot L V} (h : s.loaded = true) :
    s.load src = s := by
  exact if_pos h

theorem loaded_load (src : L → Option V) (s : Slot L V) : (s.load src).loaded = true := by
  unfold Slot.load
  split_ifs with h
  · exact h
  · rfl

theorem seen_apply (s : ι → Slot L V) (i : ι) (x : L) : seen src s i x =
    if (s i).loaded then (s i).content x else ((s i).content x).or (src i x) := by
  unfold seen Slot.load
  split_ifs <;> rfl

theorem seen_of_loaded {i : ι} (h : (s i).loaded = true) : seen src s i = (s i).content := by
  rw [seen, load_of_loaded h]

/-- After the calls `pre`, the family `t` that was filled beforehand differs from `s` in the keys
that were dropped: these `s` still finds in the source. -/
structure Differ (src : ι → L → Option V) (pre : List (Op ι L V)) (s t : ι → Slot L V) : Prop where
  filled : ∀ i, (t i).loaded = true
  loaded : ∀ i, (s i).loaded = true ↔ ∃ op ∈ pre, op.Reads i
  dropped : ∀ i x, Dropped pre i x → seen src s i x = src i x ∧ (t i).content x = none
  kept : ∀ i x, ¬ Dropped pre i x → (t i).content x = seen src s i x

/-- At the start nothing has been dropped. -/
theorem differ_loadAll (hs : ∀ i, (s i).loaded = false) : Differ src [] s (loadAll src s) where
  filled i := loaded_load (src i) (s i)
  loaded i := by simp [hs i]
  dropped i x h := absurd h not_dropped_nil
  kept i x _ := rfl

variable [DecidableEq ι]

theorem seen_look (s : ι → Slot L V) (i : ι) : seen src (look src s i) = seen src s := by
  funext j
  by_cases h : j = i
  · subst h
    rw [seen, look, Function.update_self, load_of_loaded (loaded_load _ _), seen]
  · rw [seen, look, Function.update_of_ne h, seen]

theorem look_of_loaded {i : ι} (h : (s i).loaded = true) : look src s i = s := by
  rw [look, load_of_loaded h, Function.update_eq_self]

theorem loaded_look (src : ι → L → Option V) (s : ι → Slot L V) (i j : ι) :
    (look src s i j).loaded = true ↔ (s j).loaded = true ∨ i = j := by
  by_cases h : j = i
  · subst h
    simp [look, loaded_load]
  · simp [look, h, Ne.symm h]

/-- A look into a map. -/
theorem Differ.look (h : Differ src pre s t) {op : Op ι L V} {i : ι}
    (hreads : ∀ j, op.Reads j ↔ i = j) (hwrites : ∀ j x, ¬ op.Writes j x) :
    Differ src (pre ++ [op]) (LazyMaps.look src s i) (LazyMaps.look src t i) := by
  have hdel : ∀ j x, op ≠ .del j x := fun j x hop => hwrites j x (by rw [hop]; exact ⟨rfl, rfl⟩)
  have hdropped : ∀ j x, Dropped (pre ++ [op]) j x ↔ Dropped pre j x := fun j x => by
    rw [dropped_snoc]
    simp [hdel, hwrites]
  rw [look_of_loaded (h.filled i)]
  refine ⟨h.filled, fun j => ?_, fun j x hd => ?_, fun j x hd => ?_⟩
  · rw [loaded_look, h.loaded]
    simp only [List.mem_append, List.mem_singleton, or_and_right, exists_or, exists_eq_left, hreads]
  · rw [seen_look]
    exact h.dropped j x ((hdropped j x).1 hd)
  · rw [seen_look]
    exact h.kept j x (mt (hdropped j x).2 hd)

variable [DecidableEq L]

theorem loaded_put (s : ι → Slot L V) (i j : ι) (x : L) (o : Option V) :
    (put s i x o j).loaded = (s j).loaded := by
  by_cases h : j = i
  · subst h
    simp [put]
  · simp [put, h]

theorem content_put_self (s : ι → Slot L V) (i : ι) (x : L) (o : Option V) :
    (put s i x o i).content x = o := by
  simp [put]

theorem content_put_of_ne (s : ι → Slot L V) {i j : ι} {x y : L} (o : Option V)
    (h : ¬ (i = j ∧ x = y)) : (put s i x o j).content y = (s j).content y := by
  by_cases hij : j = i
  · subst hij
    have hxy : y ≠ x := fun hxy => h ⟨rfl, hxy.symm⟩
    simp [put, hxy]
  · simp [put, hij]

theorem seen_put_of_ne (s : ι → Slot L V) {i j : ι} {x y : L} (o : Option V)
    (h : ¬ (i = j ∧ x = y)) : seen src (put s i x o) j y = seen src s j y := by
  rw [seen_apply, seen_apply, loaded_put, content_put_of_ne s o h]

theorem seen_put_self (s : ι → Slot L V) (i : ι) (x : L) (o : Option V) :
    seen src (put s i x o) i x = if (s i).loaded then o else o.or (src i x) := by
  rw [seen_apply, loaded_put, content_put_self]

/-- A change of a key: what happens to the key itself is left open. -/
theorem Differ.put (h : Differ src pre s t) {op : Op ι L V} {i : ι} {x : L} {o : Option V}
    (hreads : ∀ j, ¬ op.Reads j) (hwrites : ∀ j y, op.Writes j y ↔ i = j ∧ x = y)
    (hdropped : Dropped (pre ++ [op]) i x →
      seen src (LazyMaps.put s i x o) i x = src i x ∧ o = none)
    (hkept : ¬ Dropped (pre ++ [op]) i x → o = seen src (LazyMaps.put s i x o) i x) :
    Differ src (pre ++ [op]) (LazyMaps.put s i x o) (LazyMaps.put t i x o) := by
  have hother : ∀ j y, ¬ (i = j ∧ x = y) → (Dropped (pre ++ [op]) j y ↔ Dropped pre j y) := by
    intro j y hne
    have hdel : op ≠ .del j y := fun hop => hne ((hwrites j y).1 (by rw [hop]; exact ⟨rfl, rfl⟩))
    rw [dropped_snoc, hwrites]
    simp [hdel, hne]
  refine ⟨fun j => ?_, fun j => ?_, fun j y hd => ?_, fun j y hd => ?_⟩
  · rw [loaded_put]
    exact h.filled j
  · rw [loaded_put, h.loaded]
    simp only [List.mem_append, List.mem_singleton, or_and_right, exists_or, exists_eq_left, hreads,
      or_false]
  · by_cases hxy : i = j ∧ x = y
    · obtain ⟨rfl, rfl⟩ := hxy
      rw [content_put_self]
      exact hdropped hd
    · rw [seen_put_of_ne s o hxy, content_put_of_ne t o hxy]
      exact h.dropped j y ((hother j y hxy).1 hd)
  · by_cases hxy : i = j ∧ x = y
    · obtain ⟨rfl, rfl⟩ := hxy
      rw [content_put_self]
      exact hkept hd
    · rw [seen_put_of_ne s o hxy, content_put_of_ne t o hxy]
      exact h.kept j y (mt (hother j y hxy).2 hd)

theorem Differ.step (h : Differ src pre s t) (op : Op ι L V) :
    Differ src (pre ++ [op]) ((maps src).step s op).2 ((maps src).step t op).2 := by
  cases op with
  | set i x v =>
    have hnot : ¬ Dropped (pre ++ [.set i x v]) i x := by
      rw [dropped_snoc]
      rintro (⟨hop, -⟩ | ⟨hop, -⟩)
      · cases hop
      · exact hop ⟨rfl, rfl⟩
    refine h.put (fun j => id) (fun j y => Iff.rfl) (fun hd => absurd hd hnot) fun _ => ?_
    rw [seen_put_self]
    split_ifs <;> rfl
  | del i x =>
    have hiff : Dropped (pre ++ [.del i x]) i x ↔ (s i).loaded = false := by
      rw [dropped_snoc, ← Bool.not_eq_true, h.loaded]
      simp [Op.Writes]
    refine h.put (fun j => id) (fun j y => Iff.rfl) (fun hd => ?_) fun hd => ?_
    · rw [seen_put_self, hiff.1 hd]
      exact ⟨rfl, rfl⟩
    · rw [hiff, Bool.not_eq_false] at hd
      rw [seen_put_self, if_pos hd]
  | get i x dflt => exact h.look (fun j => Iff.rfl) fun j y => id
  | has i x => exact h.look (fun j => Iff.rfl) fun j y => id

/-- A call returns the same from both unless it looks up a key that was dropped. -/
theorem Differ.observed_iff (h : Differ src pre s t) (op : Op ι L V) :
    ((maps src).step s op).1 = ((maps src).step t op).1 ↔ ¬ Exposes src pre op := by
  have ht : ∀ i x, seen src t i x = (t i).content x := fun i x => by
    rw [seen_of_loaded (h.filled i)]
  cases op with
  | set i x v => exact iff_of_true rfl id
  | del i x => exact iff_of_true rfl id
  | get i x dflt =>
    show Result.value _ = Result.value _ ↔ _
    rw [Result.value.injEq, ht, Exposes]
    by_cases hd : Dropped pre i x
    · obtain ⟨h1, h2⟩ := h.dropped i x hd
      rw [h1, h2]
      cases src i x <;> simp [hd]
    · simp [h.kept i x hd, hd]
  | has i x =>
    show Result.found _ = Result.found _ ↔ _
    rw [Result.found.injEq, ht, Exposes]
    by_cases hd : Dropped pre i x
    · obtain ⟨h1, h2⟩ := h.dropped i x hd
      rw [h1, h2]
      cases src i x <;> simp [hd]
    · simp [h.kept i x hd, hd]

theorem Differ.trace_eq_iff (h : Differ src pre s t) (ops : List (Op ι L V)) :
    (maps src).trace s ops = (maps src).trace t ops ↔
      ∀ a op b, ops = a ++ op :: b → ¬ Exposes src (pre ++ a) op := by
  induction ops generalizing pre s t with
  | nil => simp [Object.trace]
  | cons op ops ih =>
    have hih := ih (h.step op)
    simp only [List.append_assoc, List.singleton_append] at hih
    rw [Object.trace, Object.trace, List.cons.injEq, h.observed_iff op, hih,
      forall_split_cons (P := fun a op => ¬ Exposes src (pre ++ a) op), List.append_nil]

/-- **Filling late**: it can be told from filling beforehand exactly where a key that was dropped,
and that the source has, is looked up. -/
theorem trace_loadAll_eq_iff (hs : ∀ i, (s i).loaded = false) (ops : List (Op ι L V)) :
    (maps src).trace s ops = (maps src).trace (loadAll src s) ops ↔
      ∀ pre op post, ops = pre ++ op :: post → ¬ Exposes src pre op := by
  exact (differ_loadAll hs).trace_eq_iff ops

theorem loaded_step (hs : ∀ i, (s i).loaded = true) (op : Op ι L V) (i : ι) :
    (((maps src).step s op).2 i).loaded = true := by
  cases op with
  | set j x v => exact (loaded_put s j i x _).trans (hs i)
  | del j x => exact (loaded_put s j i x _).trans (hs i)
  | get j x dflt => exact (loaded_look src s j i).2 (.inl (hs i))
  | has j x => exact (loaded_look src s j i).2 (.inl (hs i))

/-- In maps that were filled beforehand, a key is not found right after it was deleted. -/
theorem has_after_del (hs : ∀ i, (s i).loaded = true) (a : List (Op ι L V)) (i : ι) (x : L) :
    ((maps src).trace s (a ++ [.del i x, .has i x])).getLast? = some (.found none) := by
  induction a generalizing s with
  | nil =>
    show some (Result.found (seen src (put s i x none) i x)) = _
    rw [seen_put_self, if_pos (hs i)]
  | cons op a ih =>
    rw [List.cons_append, Object.trace, List.getLast?_cons, ih (loaded_step hs op)]
    rfl

end Compare

end LazyMaps

end YXTWebCpp
