import Mathlib.Data.Multiset.MapFold
import Mathlib.Tactic.SplitIfs
import YXTWebCpp.Maps.Sorted

/-!
# Containers that are filled element by element

What code sees of a container that it writes out and fills again: it goes over the elements in some
order, and it starts with an empty container and adds one element after another.

* `Container` : a type of containers, in which a container that is filled again is the same.
* `Container.build` : the container that is filled with a list.
* `Container.vector` : elements are added at the end.
* `Container.sorted` : the keys are in order, and an element whose key is there is not added.
* `Container.hashed` : the same, with the elements in an order of their own.
* `Container.keys` : maps from keys to nothing are sets.
-/

namespace YXTWebCpp

/-- Containers `C` of elements `E`. -/
structure Container (E C : Type*) where
  empty : C
  insert : C → E → C
  /-- The elements, in the order in which the code goes over them. -/
  items : C → List E
  /-- A container that is filled with its own elements is the same. -/
  rebuild : ∀ c, (items c).foldl insert empty = c

namespace Container

variable {E C K L V : Type*}

/-- The container that is filled with the elements. -/
def build (k : Container E C) (es : List E) : C := es.foldl k.insert k.empty

@[simp] theorem build_items (k : Container E C) (c : C) : k.build (k.items c) = c := k.rebuild c

/-! ### Sequences -/

theorem foldl_concat (es pre : List E) : es.foldl (fun c e => c ++ [e]) pre = pre ++ es := by
  induction es generalizing pre with
  | nil => exact (List.append_nil pre).symm
  | cons e es ih => rw [List.foldl_cons, ih, List.append_assoc, List.singleton_append]

/-- Elements are added at the end. -/
def vector : Container E (List E) where
  empty := []
  insert c e := c ++ [e]
  items c := c
  rebuild c := foldl_concat c []

/-! ### Ordered keys -/

section Sorted

variable [LT L] (view : K → L)

/-- The entries of an ordered map. -/
@[ext] structure SortedEntries (V : Type*) where
  entries : List (K × V)
  sorted : SortedMap.Sorted view entries

variable {view} [DecidableLT L] [LE L] [Std.IsLinearOrder L] [Std.LawfulOrderLT L]

/-- An element whose key is there is not added. -/
def SortedEntries.insert (m : SortedEntries view V) (e : K × V) : SortedEntries view V :=
  ⟨SortedMap.insert view e.1 e.2 m.entries, m.sorted.insert e.1 e.2⟩

/-- An element whose key is behind all others is added at the end. -/
theorem insert_eq_concat {m : List (K × V)} {e : K × V} (h : ∀ e' ∈ m, view e'.1 < view e.1) :
    SortedMap.insert view e.1 e.2 m = m ++ [e] := by
  induction m with
  | nil => rfl
  | cons e' m ih =>
    have he' := h e' List.mem_cons_self
    have hgt : ¬ view e.1 < view e'.1 := fun hlt => Std.lt_irrefl (Std.lt_trans he' hlt)
    rw [SortedMap.insert, if_neg hgt, if_pos he',
      ih fun e'' hm => h e'' (List.mem_cons_of_mem _ hm), List.cons_append]

theorem foldl_insert (es : List (K × V)) : ∀ m : SortedEntries view V,
    SortedMap.Sorted view (m.entries ++ es) →
      (es.foldl SortedEntries.insert m).entries = m.entries ++ es := by
  induction es with
  | nil => exact fun m _ => (List.append_nil m.entries).symm
  | cons e es ih =>
    intro m h
    have hlast : (m.insert e).entries = m.entries ++ [e] :=
      insert_eq_concat fun e' he' => (List.pairwise_append.1 h).2.2 e' he' e List.mem_cons_self
    rw [List.foldl_cons, ih (m.insert e) (by simpa [hlast] using h), hlast, List.append_assoc,
      List.singleton_append]

variable (view)

/-- The keys are in order, and an element whose key is there is not added. -/
def sorted (V : Type*) : Container (K × V) (SortedEntries view V) where
  empty := ⟨[], .nil⟩
  insert := SortedEntries.insert
  items := SortedEntries.entries
  rebuild m := SortedEntries.ext (foldl_insert m.entries ⟨[], .nil⟩ m.sorted)

omit [DecidableLT L] [Std.IsLinearOrder L] in
theorem nodup_sorted (m : SortedEntries view V) : (m.entries.map Prod.fst).Nodup := by
  have hviews : ((m.entries.map Prod.fst).map view).Pairwise (· < ·) := by
    rw [List.map_map]
    exact SortedMap.sorted_iff.1 m.sorted
  refine List.Nodup.of_map view (hviews.imp ?_)
  rintro x _ hlt rfl
  exact Std.lt_irrefl hlt

end Sorted

/-! ### Keys in an order of their own -/

section Hashed

variable [DecidableEq K]

/-- The entries of a map that is not ordered. -/
@[ext] structure HashedEntries (K V : Type*) where
  entries : Multiset (K × V)
  nodup : (entries.map Prod.fst).Nodup

/-- An element whose key is there is not added. -/
def HashedEntries.insert (m : HashedEntries K V) (e : K × V) : HashedEntries K V :=
  if h : e.1 ∈ m.entries.map Prod.fst then m
  else ⟨e ::ₘ m.entries, by rw [Multiset.map_cons]; exact Multiset.nodup_cons.2 ⟨h, m.nodup⟩⟩

theorem foldl_insert_hashed (es : List (K × V)) : ∀ m : HashedEntries K V,
    ((m.entries + es).map Prod.fst).Nodup →
      (es.foldl HashedEntries.insert m).entries = m.entries + es := by
  induction es with
  | nil => exact fun m _ => (Multiset.add_zero m.entries).symm
  | cons e es ih =>
    intro m h
    rw [← Multiset.cons_coe, Multiset.add_cons] at h ⊢
    have hnew : e.1 ∉ m.entries.map Prod.fst := by
      rw [Multiset.map_cons, Multiset.nodup_cons, Multiset.map_add] at h
      exact fun he => h.1 (Multiset.mem_add.2 (.inl he))
    have hinsert : (m.insert e).entries = e ::ₘ m.entries := by
      rw [HashedEntries.insert, dif_neg hnew]
    rw [List.foldl_cons, ih (m.insert e) (by rwa [hinsert, Multiset.cons_add]), hinsert,
      Multiset.cons_add]

/-- Elements are gone over in the order `order`; an element whose key is there is not added. -/
def hashed (order : HashedEntries K V → List (K × V))
    (h : ∀ m, (order m : Multiset _) = m.entries) : Container (K × V) (HashedEntries K V) where
  empty := ⟨0, Multiset.nodup_zero⟩
  insert := HashedEntries.insert
  items := order
  rebuild m := by
    have hnodup : ((0 + (order m : Multiset (K × V))).map Prod.fst).Nodup := by
      rw [Multiset.zero_add, h]
      exact m.nodup
    refine HashedEntries.ext ?_
    rw [foldl_insert_hashed (order m) ⟨0, Multiset.nodup_zero⟩ hnodup,
      Multiset.zero_add, h]

omit [DecidableEq K] in
theorem nodup_hashed {order : HashedEntries K V → List (K × V)}
    (h : ∀ m, (order m : Multiset _) = m.entries) (m : HashedEntries K V) :
    ((order m).map Prod.fst).Nodup := by
  rw [← Multiset.coe_nodup, ← Multiset.map_coe, h]
  exact m.nodup

end Hashed

/-! ### Sets -/

/-- Maps from keys to nothing are sets. -/
def keys (k : Container (K × Unit) C) : Container K C where
  empty := k.empty
  insert c x := k.insert c (x, ())
  items c := (k.items c).map Prod.fst
  rebuild c := by
    rw [List.foldl_map]
    exact k.rebuild c

end Container

end YXTWebCpp
