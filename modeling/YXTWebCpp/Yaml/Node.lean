import Mathlib.Data.List.Basic
import Mathlib.Tactic.SplitIfs

/-!
# Trees of scalars, sequences and maps

* `Node` : a tree; the entries of a map are in the order in which they were made.
* `Node.get`, `Node.set`, `Node.push` : what `[]`, `=` and `push_back` do to it.
* `Node.subscript` : `[]` where it can throw.
* `get_set` : what is found after an entry was set.
-/

namespace YXTWebCpp

namespace Yaml

/-- A tree whose scalars and keys are of type `α`. -/
inductive Node (α : Type*) where
  | null
  | scalar (s : α)
  | seq (nodes : List (Node α))
  | map (entries : List (α × Node α))

/-- What is thrown. -/
inductive YamlError where
  /-- A key of a scalar. -/
  | badSubscript
  /-- A node that is not a scalar is taken for one. -/
  | badConversion
  deriving DecidableEq

namespace Node

variable {α : Type*}

/-- The text of a scalar. -/
def asScalar : Node α → Except YamlError α
  | scalar s => .ok s
  | _ => .error .badConversion

/-- The nodes that `n[0]`, `n[1]`, … give, where `n` is not a map. -/
def nodes : Node α → List (Node α)
  | seq nodes => nodes
  | _ => []

/-- `n.push_back(v)`, where `n` is null or a sequence. -/
def push (n v : Node α) : Node α := seq (n.nodes ++ [v])

/-- The entries of a map. -/
def entries : Node α → List (α × Node α)
  | map entries => entries
  | _ => []

variable [DecidableEq α]

/-- An entry is replaced, or it is the last one from then on. -/
def setEntry (key : α) (v : Node α) : List (α × Node α) → List (α × Node α)
  | [] => [(key, v)]
  | e :: es => if e.1 = key then (key, v) :: es else e :: setEntry key v es

/-- The first entry with the key. -/
def getEntry (key : α) : List (α × Node α) → Option (Node α)
  | [] => none
  | e :: es => if e.1 = key then some e.2 else getEntry key es

/-- `n[key]`, if it is defined. -/
def get (n : Node α) (key : α) : Option (Node α) := getEntry key n.entries

/-- `n[key] = v`, where `n` is null or a map. -/
def set (n : Node α) (key : α) (v : Node α) : Node α := map (setEntry key v n.entries)

/-- `n[key]`, where it can throw. -/
def subscript (n : Node α) (key : α) : Except YamlError (Option (Node α)) :=
  match n with
  | scalar _ => .error .badSubscript
  | n => .ok (n.get key)

theorem getEntry_setEntry (key key' : α) (v : Node α) (es : List (α × Node α)) :
    getEntry key' (setEntry key v es) = if key' = key then some v else getEntry key' es := by
  induction es with
  | nil => simp only [setEntry, getEntry, eq_comm]
  | cons e es ih =>
    by_cases hk : e.1 = key
    · rw [setEntry, if_pos hk, getEntry, getEntry, hk]
      simp only [eq_comm]
      split_ifs <;> rfl
    · rw [setEntry, if_neg hk, getEntry, getEntry, ih]
      by_cases h : e.1 = key'
      · rw [if_pos h, if_neg (h ▸ hk), if_pos h]
      · rw [if_neg h, if_neg h]

@[simp] theorem get_set (n : Node α) (key key' : α) (v : Node α) :
    (n.set key v).get key' = if key' = key then some v else n.get key' :=
  getEntry_setEntry key key' v n.entries

@[simp] theorem get_null (key : α) : (null : Node α).get key = none := rfl

end Node

end Yaml

end YXTWebCpp
