import YXTWebCpp.LTS.Lock

/-!
# Scoped guards of one thread

A thread that takes a lock in nested calls must not ask for it in a way that its own holding
excludes: it would wait for itself.

* `LockOp` : what a thread does to the lock.
* `LockOp.run` : how it holds the lock afterwards.
* `Disciplined` : it never waits for itself, and gives back what it takes.
* `Locked` : computations with the operations on the lock that they perform; `Locked.guarded` is
  one inside the scope of a guard.
* `run_guarded` : the rule for guards.
-/

universe v

namespace YXTWebCpp

/-- What a thread does to the lock. -/
inductive LockOp where
  /-- `rdlock` or `wrlock` -/
  | acquire (m : Mode)
  /-- `unlock` -/
  | release
  deriving DecidableEq, Repr

namespace LockOp

/-- How the thread holds the lock after some operations, the last acquisition first: `none` if it
asks for the lock in a way that one of its own acquisitions excludes, or releases what it does not
hold. -/
def run : List Mode → List LockOp → Option (List Mode)
  | held, [] => some held
  | held, acquire m :: ops => if ∃ h ∈ held, m.Excludes h then none else run (m :: held) ops
  | _ :: held, release :: ops => run held ops
  | [], release :: _ => none

theorem run_append (held : List Mode) (ops ops' : List LockOp) :
    run held (ops ++ ops') = (run held ops).bind fun held => run held ops' := by
  induction ops generalizing held with
  | nil => rfl
  | cons op ops ih =>
    cases op with
    | acquire m =>
      simp only [List.cons_append, run]
      split_ifs
      · rfl
      · exact ih (m :: held)
    | release =>
      cases held with
      | nil => rfl
      | cons m held => exact ih held

/-- The thread never waits for itself, and releases every acquisition once. -/
def Disciplined (ops : List LockOp) : Prop := run [] ops = some []

instance (ops : List LockOp) : Decidable (Disciplined ops) := inferInstanceAs (Decidable (_ = _))

end LockOp

/-! ### Computations -/

/-- The result of a computation, the state after it, and what the thread has done to the lock. -/
structure Outcome (σ α : Type*) where
  value : α
  state : σ
  ops : List LockOp

/-- A computation of one thread on a state that a lock protects. -/
def Locked (σ α : Type*) := σ → Outcome σ α

namespace Locked

open LockOp

variable {σ : Type*} {α β : Type v}

instance : Monad (Locked σ) where
  pure a s := ⟨a, s, []⟩
  bind x f s :=
    let r := x s
    let r' := f r.value r.state
    ⟨r'.value, r'.state, r.ops ++ r'.ops⟩

/-- An access that does nothing to the lock. -/
def access (f : σ → α × σ) : Locked σ α := fun s => ⟨(f s).1, (f s).2, []⟩

/-- A computation in the scope of a guard. -/
def guarded (m : Mode) (x : Locked σ α) : Locked σ α := fun s =>
  let r := x s
  ⟨r.value, r.state, acquire m :: r.ops ++ [release]⟩

/-- A computation whose value is not used. -/
def ignoring (x : Locked σ α) : Locked σ Unit := fun s => { x s with value := () }

@[simp] theorem bind_value (x : Locked σ α) (f : α → Locked σ β) (s : σ) :
    ((x >>= f) s).value = (f (x s).value (x s).state).value := rfl

@[simp] theorem guarded_access_value (m : Mode) (f : σ → α × σ) (s : σ) :
    (guarded m (access f) s).value = (f s).1 := rfl

@[simp] theorem guarded_access_state (m : Mode) (f : σ → α × σ) (s : σ) :
    (guarded m (access f) s).state = (f s).2 := rfl

@[simp] theorem ignoring_ops (x : Locked σ α) (s : σ) : (ignoring x s).ops = (x s).ops := rfl

/-- A guard is in order where nothing that is held excludes it. -/
theorem run_guarded {held : List Mode} {m : Mode} {x : Locked σ α} {s : σ}
    (hheld : ∀ h ∈ held, ¬ m.Excludes h) (hx : run (m :: held) (x s).ops = some (m :: held)) :
    run held (guarded m x s).ops = some held := by
  have hfree : ¬ ∃ h ∈ held, m.Excludes h := fun ⟨h, hmem, hexcl⟩ => hheld h hmem hexcl
  show run held (acquire m :: (x s).ops ++ [release]) = some held
  rw [List.cons_append, run, if_neg hfree, run_append, hx]
  rfl

/-- A guard around a computation that cannot go on is not in order either. -/
theorem run_guarded_of_none {held : List Mode} {m : Mode} {x : Locked σ α} {s : σ}
    (hx : run (m :: held) (x s).ops = none) : run held (guarded m x s).ops = none := by
  show run held (acquire m :: (x s).ops ++ [release]) = none
  rw [List.cons_append, run, run_append, hx]
  exact ite_self _

/-- One computation after another. -/
theorem run_bind (held : List Mode) (x : Locked σ α) (f : α → Locked σ β) (s : σ) :
    run held ((x >>= f) s).ops =
      (run held (x s).ops).bind fun held => run held (f (x s).value (x s).state).ops :=
  run_append held _ _

end Locked

end YXTWebCpp
