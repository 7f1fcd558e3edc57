import YXTWebCpp.LTS.Basic

/-!
# Interleaved threads

A pool of threads over one shared state, and an environment that changes the shared state too.
Every step is a step of one thread, which sees the shared state and its own, or a step of the
environment.

* `Pool`, `PoolAct` : the states and the actions.
* `interleave` : all interleavings of the steps as a transition system.
* `interleave_cases` : what a step of it is.
* `exists_update` : a property that some thread has is not lost by a step of a thread that keeps it.
-/

namespace YXTWebCpp

/-- A shared state and the states of the threads `ι`. -/
structure Pool (ι G L : Type*) where
  /-- The shared state. -/
  shared : G
  /-- The state of each thread. -/
  thread : ι → L

/-- A step of a thread or of the environment. -/
inductive PoolAct (ι A E : Type*) where
  | thread (i : ι) (a : A)
  | env (e : E)

section

variable {ι G L A E : Type*} [DecidableEq ι]

/-- All interleavings of the steps of the threads and of the environment. -/
def interleave (init : Pool ι G L → Prop) (step : ι → G → L → A → Option (G × L))
    (env : G → E → Option G) : System (Pool ι G L) (PoolAct ι A E) where
  init := init
  step s a :=
    match a with
    | .thread i a =>
      (step i s.shared (s.thread i) a).map fun r => ⟨r.1, Function.update s.thread i r.2⟩
    | .env e => (env s.shared e).map fun g => ⟨g, s.thread⟩

variable {init : Pool ι G L → Prop} {step : ι → G → L → A → Option (G × L)}
  {env : G → E → Option G} {s s' : Pool ι G L} {a : PoolAct ι A E}

theorem interleave_cases (h : (interleave init step env).step s a = some s') :
    (∃ i b g l, a = .thread i b ∧ step i s.shared (s.thread i) b = some (g, l) ∧
      s' = ⟨g, Function.update s.thread i l⟩) ∨
    (∃ e g, a = .env e ∧ env s.shared e = some g ∧ s' = ⟨g, s.thread⟩) := by
  cases a with
  | thread i b =>
    obtain ⟨⟨g, l⟩, hstep, rfl⟩ := Option.map_eq_some_iff.1 h
    exact .inl ⟨i, b, g, l, rfl, hstep, rfl⟩
  | env e =>
    obtain ⟨g, hstep, rfl⟩ := Option.map_eq_some_iff.1 h
    exact .inr ⟨e, g, rfl, hstep, rfl⟩

/-- What some thread has is not lost by a step of a thread that keeps it. -/
theorem exists_update {p : L → Prop} {f : ι → L} {i : ι} {x : L} (h : ∃ j, p (f j))
    (hx : p (f i) → p x) : ∃ j, p (Function.update f i x j) := by
  obtain ⟨j, hj⟩ := h
  by_cases hji : j = i
  · exact ⟨i, by rw [Function.update_self]; exact hx (hji ▸ hj)⟩
  · exact ⟨j, by rw [Function.update_of_ne hji]; exact hj⟩

/-- What all threads have is kept by a step of a thread that keeps it. -/
theorem forall_update {p : L → Prop} {f : ι → L} {i : ι} {x : L} (h : ∀ j, p (f j)) (hx : p x) :
    ∀ j, p (Function.update f i x j) := by
  intro j
  by_cases hji : j = i
  · rw [hji, Function.update_self]
    exact hx
  · rw [Function.update_of_ne hji]
    exact h j

end

end YXTWebCpp
