import YXTWebCpp.Yaml.Node

/-!
# Walks over trees

A walk goes through the maps of a tree in depth-first order and gives every node a name, which is
made of the name of the map and the key.  It does not go below a node whose name is refused.

* `Node.paths` : all nodes of the maps of a tree, each with the keys that lead to it.
* `Node.walk` : the nodes with accepted names.
* `walk_eq` : **if the names above an accepted name are accepted, the walk misses none.**
-/

namespace YXTWebCpp

namespace Yaml

namespace Node

variable {α P : Type*}

mutual

/-- The nodes of the maps of a tree, with the keys that lead to them. -/
def paths : Node α → List (List α × Node α)
  | map es => ([], map es) :: entryPaths es
  | n => [([], n)]

/-- The nodes below the entries of a map. -/
def entryPaths : List (α × Node α) → List (List α × Node α)
  | [] => []
  | (k, n) :: es => (paths n).map (fun e => (k :: e.1, e.2)) ++ entryPaths es

end

section

variable (join : P → α → P) (ok : P → Bool)

mutual

/-- The walk over a tree with the name `p`. -/
def walk (p : P) : Node α → List (P × Node α)
  | map es => if ok p then (p, map es) :: walkEntries p es else []
  | n => if ok p then [(p, n)] else []

/-- The walk over the entries of a map with the name `p`. -/
def walkEntries (p : P) : List (α × Node α) → List (P × Node α)
  | [] => []
  | (k, n) :: es => walk (join p k) n ++ walkEntries p es

end

/-- The name of a node below `p`. -/
def named (p : P) (e : List α × Node α) : P × Node α := (e.1.foldl join p, e.2)

variable {join ok}

/-- The names above an accepted name are accepted. -/
theorem ok_of_ok_foldl (hok : ∀ p k, ok (join p k) = true → ok p = true) (ks : List α) :
    ∀ p, ok (ks.foldl join p) = true → ok p = true := by
  induction ks with
  | nil => exact fun _ h => h
  | cons k ks ih => exact fun p h => hok p k (ih _ h)

theorem walk_leaf {p : P} {n : Node α} (hwalk : walk join ok p n = if ok p then [(p, n)] else [])
    (hpaths : n.paths = [([], n)]) :
    walk join ok p n = (n.paths.map (named join p)).filter fun e => ok e.1 := by
  rw [hwalk, hpaths, List.map_singleton, List.filter_singleton]
  exact (Bool.cond_eq_ite _ _ _).symm

mutual

/-- **What a walk finds**: all nodes whose own name is accepted, in order. -/
theorem walk_eq (hok : ∀ p k, ok (join p k) = true → ok p = true) (p : P) : ∀ n : Node α,
    walk join ok p n = (n.paths.map (named join p)).filter fun e => ok e.1
  | .null => walk_leaf rfl rfl
  | .scalar _ => walk_leaf rfl rfl
  | .seq _ => walk_leaf rfl rfl
  | .map es => by
    by_cases hp : ok p = true
    · rw [walk, if_pos hp, walkEntries_eq hok p es, paths, List.map_cons, List.filter_cons]
      exact (if_pos hp).symm
    · -- the names below are refused with it
      rw [walk, if_neg hp, eq_comm, List.filter_eq_nil_iff]
      intro e he hname
      obtain ⟨q, -, rfl⟩ := List.mem_map.1 he
      exact hp (ok_of_ok_foldl hok q.1 p hname)

theorem walkEntries_eq (hok : ∀ p k, ok (join p k) = true → ok p = true) (p : P) :
    ∀ es : List (α × Node α), walkEntries join ok p es =
      ((entryPaths es).map (named join p)).filter fun e => ok e.1
  | [] => rfl
  | (k, n) :: es => by
    rw [walkEntries, walk_eq hok (join p k) n, walkEntries_eq hok p es, entryPaths,
      List.map_append, List.filter_append, List.map_map]
    rfl

end

end

end Node

end Yaml

end YXTWebCpp
