import Mathlib.Logic.Basic

/-!
# Objects and what is observed of them

A sequential component is an object: a state, operations on it, and something that is observed of
every operation.  Two objects cannot be told apart if all sequences of operations give the same
observations.

* `Object S O R` : what an operation does, and what is observed of it.
* `Object.trace` : what is observed of a sequence of operations.
* `Object.Allowed` : every operation of a sequence meets a condition on the state before it.
* `Object.Simulates` : a relation between the states of two objects that is kept by the operations
  that are allowed, and under which they are allowed in both and observed alike.
* `Simulates.trace_eq`, `Simulates.allowed_iff` : then the objects cannot be told apart.
-/

namespace YXTWebCpp

/-- An object with states `S`, operations `O` and observations `R`. -/
structure Object (S O R : Type*) where
  /-- What is observed of an operation, and the state after it. -/
  step : S → O → R × S

namespace Object

variable {S T O R : Type*} (M : Object S O R) (N : Object T O R)

/-- What is observed of a sequence of operations. -/
def trace : S → List O → List R
  | _, [] => []
  | s, op :: ops => (M.step s op).1 :: trace (M.step s op).2 ops

/-- Every operation meets `G` in its turn. -/
def Allowed (G : S → O → Prop) : S → List O → Prop
  | _, [] => True
  | s, op :: ops => G s op ∧ Allowed G (M.step s op).2 ops

/-- The same object under other names of the operations. -/
def comap {P : Type*} (f : P → O) : Object S P R where
  step s op := M.step s (f op)

theorem trace_comap {P : Type*} (f : P → O) (s : S) (ops : List P) :
    (M.comap f).trace s ops = M.trace s (ops.map f) := by
  induction ops generalizing s with
  | nil => rfl
  | cons op ops ih => rw [trace, ih, List.map_cons, trace, comap]

variable {M} in
theorem allowed_of_forall {G : S → O → Prop} (h : ∀ s op, G s op) (s : S) (ops : List O) :
    M.Allowed G s ops := by
  induction ops generalizing s with
  | nil => trivial
  | cons op ops ih => exact ⟨h s op, ih _⟩

instance instDecidableAllowed (G : S → O → Prop) [∀ s op, Decidable (G s op)] :
    ∀ s ops, Decidable (M.Allowed G s ops)
  | _, [] => .isTrue trivial
  | s, op :: ops =>
    have := instDecidableAllowed G (M.step s op).2 ops
    inferInstanceAs (Decidable (G s op ∧ M.Allowed G (M.step s op).2 ops))

/-- The relation `I` is kept, and related states are not told apart. -/
structure Simulates (G : S → O → Prop) (H : T → O → Prop) (I : S → T → Prop) : Prop where
  allowed : ∀ {s t op}, I s t → (G s op ↔ H t op)
  observed : ∀ {s t op}, I s t → H t op → (M.step s op).1 = (N.step t op).1
  kept : ∀ {s t op}, I s t → H t op → I (M.step s op).2 (N.step t op).2

namespace Simulates

variable {M N} {G : S → O → Prop} {H : T → O → Prop} {I : S → T → Prop} {s : S} {t : T}

theorem allowed_iff (h : M.Simulates N G H I) (hI : I s t) (ops : List O) :
    M.Allowed G s ops ↔ N.Allowed H t ops := by
  induction ops generalizing s t with
  | nil => exact Iff.rfl
  | cons op ops ih =>
    rw [Object.Allowed, Object.Allowed, h.allowed hI]
    exact and_congr_right fun hop => ih (h.kept hI hop)

theorem trace_eq (h : M.Simulates N G H I) (hI : I s t) {ops : List O} (hops : N.Allowed H t ops) :
    M.trace s ops = N.trace t ops := by
  induction ops generalizing s t with
  | nil => rfl
  | cons op ops ih =>
    obtain ⟨hop, hops⟩ := hops
    rw [trace, trace, h.observed hI hop, ih (h.kept hI hop) hops]

end Simulates

end Object

end YXTWebCpp
