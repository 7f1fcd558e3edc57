import Mathlib.Logic.Function.Basic
import Mathlib.Tactic.SplitIfs

/-!
# Maps kept as sorted entries

An ordered map with a comparator of its own: the entries in iteration order.  The comparator looks
at a view of the keys, so keys with the same view are one key, and the entry keeps the spelling it
was made with.

* `assign`, `insert`, `erase` : `m[key] = val`, `m.insert({key, val})`, which leaves an entry that
  is there alone, and `m.erase(key)`.
* `content` : the map as a function of the views.
* `content_assign`, `content_insert`, `content_erase` : what the operations do to it;
  `content_eq_some_iff` : it is what the entries say.
* `insertAll` : entries inserted one after another; `content_insertAll` : the first one of a key
  wins, behind what the map holds.
* `assignAll` : entries assigned one after another; `content_assignAll` : those of a sorted map
  replace what the map holds.
-/

namespace YXTWebCpp

namespace SortedMap

variable {K L V : Type*}

/-! ### The entries of a key -/

section Content

variable [DecidableEq L] (view : K → L)

/-- `m.erase(key)` -/
def erase (key : K) (m : List (K × V)) : List (K × V) :=
  m.filter fun e => !decide (view e.1 = view key)

/-- The map as a function of the views; the first entry counts where a list holds several. -/
def content (m : List (K × V)) (x : L) : Option V :=
  (m.find? fun e => decide (view e.1 = x)).map Prod.snd

variable {view}

@[simp] theorem content_nil : content view ([] : List (K × V)) = fun _ => none := rfl

theorem content_cons (e : K × V) (m : List (K × V)) :
    content view (e :: m) = Function.update (content view m) (view e.1) (some e.2) := by
  funext x
  rw [content, List.find?_cons, Function.update_apply]
  by_cases h : x = view e.1
  · simp [h]
  · simp [h, Ne.symm h, content]

theorem content_eq_none {m : List (K × V)} {x : L} (h : ∀ e ∈ m, view e.1 ≠ x) :
    content view m x = none := by
  rw [content, List.find?_eq_none.2 fun e he => by simpa using h e he, Option.map_none]

theorem content_erase (key : K) (m : List (K × V)) :
    content view (erase view key m) = Function.update (content view m) (view key) none := by
  induction m with
  | nil => funext x; simp [erase, Function.update_apply]
  | cons e m ih =>
    rw [erase, List.filter_cons, content_cons]
    rw [erase] at ih
    by_cases he : view e.1 = view key
    · rw [if_neg (by simp [he]), ih, he, Function.update_idem]
    · rw [if_pos (by simp [he]), content_cons, ih, Function.update_comm he]

end Content

/-! ### The order of the keys -/

section Order

variable [LT L] (view : K → L)

/-- The entries are in order, and no two keys have the same view. -/
def Sorted (m : List (K × V)) : Prop := m.Pairwise fun e e' => view e.1 < view e'.1

variable {view}

theorem sorted_iff {m : List (K × V)} :
    Sorted view m ↔ (m.map fun e => view e.1).Pairwise (· < ·) := by
  exact List.pairwise_map.symm

theorem Sorted.erase [DecidableEq L] {m : List (K × V)} (hm : Sorted view m) (key : K) :
    Sorted view (SortedMap.erase view key m) := by
  exact List.Pairwise.filter _ hm

variable [DecidableLT L] (view)

/-- `m[key] = val` -/
def assign (key : K) (val : V) : List (K × V) → List (K × V)
  | [] => [(key, val)]
  | e :: m =>
    if view key < view e.1 then (key, val) :: e :: m
    else if view e.1 < view key then e :: assign key val m
    else (e.1, val) :: m

/-- `m.insert({key, val})` -/
def insert (key : K) (val : V) : List (K × V) → List (K × V)
  | [] => [(key, val)]
  | e :: m =>
    if view key < view e.1 then (key, val) :: e :: m
    else if view e.1 < view key then e :: insert key val m
    else e :: m

/-- The entries are inserted one after another. -/
def insertAll (entries : List (K × V)) (m : List (K × V)) : List (K × V) :=
  entries.foldl (fun m e => insert view e.1 e.2 m) m

/-- The entries are assigned one after another. -/
def assignAll (entries : List (K × V)) (m : List (K × V)) : List (K × V) :=
  entries.foldl (fun m e => assign view e.1 e.2 m) m

variable {view}

theorem insertAll_append (entries entries' : List (K × V)) (m : List (K × V)) :
    insertAll view (entries ++ entries') m =
      insertAll view entries' (insertAll view entries m) := by
  exact List.foldl_append

/-- Both operations give the same keys. -/
theorem views_assign (key : K) (val : V) (m : List (K × V)) :
    (assign view key val m).map (fun e => view e.1) =
      (insert view key val m).map fun e => view e.1 := by
  induction m with
  | nil => rfl
  | cons e m ih =>
    rw [assign, insert]
    split_ifs
    · rfl
    · rw [List.map_cons, List.map_cons, ih]
    · rfl

theorem mem_insert {key : K} {val : V} {m : List (K × V)} {e : K × V}
    (h : e ∈ insert view key val m) : e = (key, val) ∨ e ∈ m := by
  induction m with
  | nil => exact .inl (List.mem_singleton.1 h)
  | cons e' m ih =>
    rw [insert] at h
    split_ifs at h
    · exact List.mem_cons.1 h
    · rcases List.mem_cons.1 h with rfl | h
      · exact .inr List.mem_cons_self
      · exact (ih h).imp_right (List.mem_cons_of_mem _)
    · exact .inr h

/-- Assignment changes the value of an entry or adds one. -/
theorem mem_assign {key : K} {val : V} {m : List (K × V)} {e : K × V}
    (h : e ∈ assign view key val m) :
    e = (key, val) ∨ e ∈ m ∨ ∃ e' ∈ m, e = (e'.1, val) := by
  induction m with
  | nil => exact .inl (List.mem_singleton.1 h)
  | cons e' m ih =>
    rw [assign] at h
    split_ifs at h
    · exact (List.mem_cons.1 h).imp_right .inl
    · rcases List.mem_cons.1 h with rfl | h
      · exact .inr (.inl List.mem_cons_self)
      · rcases ih h with rfl | hm | ⟨e'', hm, rfl⟩
        · exact .inl rfl
        · exact .inr (.inl (List.mem_cons_of_mem _ hm))
        · exact .inr (.inr ⟨e'', List.mem_cons_of_mem _ hm, rfl⟩)
    · rcases List.mem_cons.1 h with rfl | h
      · exact .inr (.inr ⟨e', List.mem_cons_self, rfl⟩)
      · exact .inr (.inl (List.mem_cons_of_mem _ h))

variable [LE L] [Std.IsLinearOrder L] [Std.LawfulOrderLT L]

namespace Sorted

variable {m : List (K × V)}

theorem insert (hm : Sorted view m) (key : K) (val : V) :
    Sorted view (SortedMap.insert view key val m) := by
  induction m with
  | nil => exact List.pairwise_singleton _ _
  | cons e m ih =>
    obtain ⟨he, hm'⟩ := List.pairwise_cons.1 hm
    rw [SortedMap.insert]
    split_ifs with hlt hgt
    · refine List.pairwise_cons.2 ⟨fun e' he' => ?_, hm⟩
      rcases List.mem_cons.1 he' with rfl | he'
      · exact hlt
      · exact Std.lt_trans hlt (he e' he')
    · refine List.pairwise_cons.2 ⟨fun e' he' => ?_, ih hm'⟩
      rcases mem_insert he' with rfl | he'
      · exact hgt
      · exact he e' he'
    · exact hm

theorem assign (hm : Sorted view m) (key : K) (val : V) :
    Sorted view (SortedMap.assign view key val m) := by
  rw [sorted_iff, views_assign, ← sorted_iff]
  exact hm.insert key val

theorem insertAll (hm : Sorted view m) (entries : List (K × V)) :
    Sorted view (SortedMap.insertAll view entries m) := by
  induction entries generalizing m with
  | nil => exact hm
  | cons e entries ih => exact ih (hm.insert e.1 e.2)

end Sorted

variable [DecidableEq L]

omit [DecidableLT L] [Std.IsLinearOrder L] in
/-- In a sorted map the entry of a key is the one that counts. -/
theorem content_eq_some_iff {m : List (K × V)} (hm : Sorted view m) {x : L} {v : V} :
    content view m x = some v ↔ ∃ e ∈ m, view e.1 = x ∧ e.2 = v := by
  induction m with
  | nil => simp
  | cons e m ih =>
    obtain ⟨he, hm⟩ := List.pairwise_cons.1 hm
    simp only [content_cons, List.mem_cons, exists_eq_or_imp]
    by_cases hx : x = view e.1
    · subst hx
      have hbehind : ¬ ∃ e' ∈ m, view e'.1 = view e.1 ∧ e'.2 = v := by
        rintro ⟨e', he', heq, -⟩
        exact Std.lt_irrefl (heq ▸ he e' he')
      rw [Function.update_self, Option.some.injEq, or_iff_left hbehind, and_iff_right rfl]
    · rw [Function.update_of_ne hx, ih hm, or_iff_right fun h => hx h.1.symm]

theorem content_assign (key : K) (val : V) (m : List (K × V)) :
    content view (assign view key val m) =
      Function.update (content view m) (view key) (some val) := by
  induction m with
  | nil => rw [assign, content_cons]
  | cons e m ih =>
    rw [assign]
    split_ifs with hlt hgt
    · rw [content_cons]
    · have hne : view key ≠ view e.1 := fun h => Std.lt_irrefl (h ▸ hgt)
      rw [content_cons, ih, content_cons, Function.update_comm hne]
    · have heq : view e.1 = view key := Std.le_antisymm (Std.not_lt.1 hlt) (Std.not_lt.1 hgt)
      rw [content_cons, content_cons, heq, Function.update_idem]

theorem content_insert {m : List (K × V)} (hm : Sorted view m) (key : K) (val : V) :
    content view (insert view key val m) = Function.update (content view m) (view key)
      ((content view m (view key)).or (some val)) := by
  induction m with
  | nil => rw [insert, content_cons, content_nil, Option.none_or]
  | cons e m ih =>
    obtain ⟨he, hm⟩ := List.pairwise_cons.1 hm
    rw [insert]
    split_ifs with hlt hgt
    · -- no entry behind a greater one has this key
      have hnone : content view (e :: m) (view key) = none := by
        refine content_eq_none fun e' he' h => Std.lt_irrefl (a := view key) ?_
        rcases List.mem_cons.1 he' with rfl | he'
        · exact h ▸ hlt
        · exact Std.lt_trans hlt (h ▸ he e' he')
      rw [content_cons, hnone, Option.none_or]
    · have hne : view key ≠ view e.1 := fun h => Std.lt_irrefl (h ▸ hgt)
      rw [content_cons, ih hm, content_cons, Function.update_comm hne,
        Function.update_of_ne hne]
    · have heq : view e.1 = view key := Std.le_antisymm (Std.not_lt.1 hlt) (Std.not_lt.1 hgt)
      rw [content_cons, heq, Function.update_self, Option.some_or, Function.update_idem]

/-- What the map holds stays, and the first of the entries with a key counts. -/
theorem content_insertAll {m : List (K × V)} (hm : Sorted view m) (entries : List (K × V)) :
    content view (insertAll view entries m) =
      fun x => (content view m x).or (content view entries x) := by
  induction entries generalizing m with
  | nil => funext x; simp [insertAll]
  | cons e entries ih =>
    show content view (insertAll view entries (insert view e.1 e.2 m)) = _
    rw [ih (hm.insert e.1 e.2), content_insert hm, content_cons]
    funext x
    by_cases hx : x = view e.1
    · subst hx
      rw [Function.update_self, Function.update_self, Option.or_assoc, Option.some_or]
    · rw [Function.update_of_ne hx, Function.update_of_ne hx]

/-- The entries of a sorted map replace what the map holds. -/
theorem content_assignAll {entries : List (K × V)} (he : Sorted view entries)
    (m : List (K × V)) :
    content view (assignAll view entries m) =
      fun x => (content view entries x).or (content view m x) := by
  induction entries generalizing m with
  | nil => funext x; simp [assignAll]
  | cons e entries ih =>
    obtain ⟨hlt, he⟩ := List.pairwise_cons.1 he
    show content view (assignAll view entries (assign view e.1 e.2 m)) = _
    rw [ih he, content_assign, content_cons]
    funext x
    by_cases hx : x = view e.1
    · subst hx
      have hnone : content view entries (view e.1) = none :=
        content_eq_none fun e' he' h => Std.lt_irrefl (h ▸ hlt e' he')
      rw [Function.update_self, Function.update_self, hnone, Option.none_or, Option.some_or]
    · rw [Function.update_of_ne hx, Function.update_of_ne hx]

end Order

end SortedMap

end YXTWebCpp
