import Mathlib.Algebra.Ring.Int.Defs
import Mathlib.Algebra.Ring.Nat
import Mathlib.Data.Fintype.Card
import Mathlib.Logic.Function.Basic

/-!
# Transition systems with guarded runs

Threads that share state are modelled as one transition system: a state for all of them, and an
action for every step that one of them takes without being interrupted.

* `System S A` : the initial states, and what an action does in a state.
* `System.ReachableWhen G s` : `s` is reached by a run all of whose steps meet the condition `G` on
  the action and the state before it.
* `System.Reachable s` : `s` is reached by some run.
* `System.Leads G s s'` : such a run goes on from `s` to `s'`.
* `ReachableWhen.simulation` : forward simulation between two systems.
* `System.run` : the state after a list of actions, for runs that are written out.

A family of threads is a function from a finite index type to what is known of each of them;
`card_update` says how a step of one thread changes the number of threads with some property.
-/

namespace YXTWebCpp

/-- A transition system with states `S` and actions `A`. -/
structure System (S A : Type*) where
  /-- The initial states. -/
  init : S → Prop
  /-- The state after an action, `none` if the action cannot happen. -/
  step : S → A → Option S

namespace System

variable {S A : Type*} (M : System S A)

/-- `s` is reached by a run all of whose steps meet `G`. -/
inductive ReachableWhen (G : S → A → Prop) : S → Prop
  | init {s : S} : M.init s → ReachableWhen G s
  | step {s s' : S} {a : A} : ReachableWhen G s → G s a → M.step s a = some s' →
      ReachableWhen G s'

/-- `s` is reached by some run. -/
def Reachable (s : S) : Prop := M.ReachableWhen (fun _ _ => True) s

variable {M}

/-- What holds initially and is kept by every step that meets the condition holds in every state
reached. -/
theorem ReachableWhen.invariant {G : S → A → Prop} {I : S → Prop} {s : S}
    (h : M.ReachableWhen G s) (h₀ : ∀ s, M.init s → I s)
    (hstep : ∀ s a s', M.ReachableWhen G s → I s → G s a → M.step s a = some s' → I s') : I s := by
  induction h with
  | init hs => exact h₀ _ hs
  | step hr hg hst ih => exact hstep _ _ _ hr ih hg hst

theorem ReachableWhen.reachable {G : S → A → Prop} {s : S} (h : M.ReachableWhen G s) :
    M.Reachable s := by
  induction h with
  | init hs => exact .init hs
  | step _ _ hst ih => exact .step ih trivial hst

/-- A run all of whose steps meet `G` goes on from `s` to `s'`. -/
inductive Leads (M : System S A) (G : S → A → Prop) (s : S) : S → Prop
  | refl : Leads M G s s
  | step {s' s'' : S} {a : A} : Leads M G s s' → G s' a → M.step s' a = some s'' → Leads M G s s''

theorem Leads.reachable {G : S → A → Prop} {s s' : S} (h : M.Leads G s s')
    (hs : M.ReachableWhen G s) : M.ReachableWhen G s' := by
  induction h with
  | refl => exact hs
  | step _ hg hst ih => exact .step ih hg hst

/-- A reflexive and transitive relation that every step keeps relates the states of a run. -/
theorem Leads.rel {G : S → A → Prop} {R : S → S → Prop} {s s' : S} (h : M.Leads G s s')
    (hs : M.ReachableWhen G s) (hrefl : ∀ s, R s s) (htrans : ∀ s t u, R s t → R t u → R s u)
    (hstep : ∀ s a s', M.ReachableWhen G s → G s a → M.step s a = some s' → R s s') : R s s' := by
  induction h with
  | refl => exact hrefl s
  | step hl hg hst ih => exact htrans _ _ _ ih (hstep _ _ _ (hl.reachable hs) hg hst)

/-- Forward simulation: if every step of `M` that meets the condition is matched by a step of `N`,
or by none, then every state reached in `M` has a related one that is reached in `N`. -/
theorem ReachableWhen.simulation {T B : Type*} {N : System T B} {R : S → T → Prop}
    {G : S → A → Prop} {s : S} (h : M.ReachableWhen G s)
    (h₀ : ∀ s, M.init s → ∃ t, N.init t ∧ R s t)
    (hstep : ∀ s a s' t, R s t → G s a → M.step s a = some s' →
      R s' t ∨ ∃ b t', N.step t b = some t' ∧ R s' t') : ∃ t, N.Reachable t ∧ R s t := by
  induction h with
  | init hs =>
    obtain ⟨t, ht, hR⟩ := h₀ _ hs
    exact ⟨t, .init ht, hR⟩
  | step _ hg hst ih =>
    obtain ⟨t, ht, hR⟩ := ih
    rcases hstep _ _ _ t hR hg hst with hR' | ⟨b, t', hb, hR'⟩
    · exact ⟨t, ht, hR'⟩
    · exact ⟨t', .step ht trivial hb, hR'⟩

/-- The state after a list of actions, if each of them can happen and meets `G` in its turn. -/
def run (M : System S A) (G : S → A → Prop) [∀ s a, Decidable (G s a)] : S → List A → Option S
  | s, [] => some s
  | s, a :: as => if G s a then (M.step s a).bind fun s' => run M G s' as else none

theorem Leads.run {G : S → A → Prop} [∀ s a, Decidable (G s a)] {s₀ s s' : S}
    (h : M.Leads G s₀ s) : ∀ {as : List A}, M.run G s as = some s' → M.Leads G s₀ s' := by
  intro as
  induction as generalizing s with
  | nil =>
    intro hr
    obtain rfl : s = s' := Option.some.inj hr
    exact h
  | cons a as ih =>
    intro hr
    rw [System.run] at hr
    split_ifs at hr with hg
    obtain ⟨t, ht, hrun⟩ := Option.bind_eq_some_iff.1 hr
    exact ih (.step h hg ht) hrun

/-- A run that is written out. -/
theorem reachableWhen_of_run {G : S → A → Prop} [∀ s a, Decidable (G s a)] {s s' : S}
    {as : List A} (h₀ : M.init s) (h : M.run G s as = some s') : M.ReachableWhen G s' :=
  (Leads.refl.run h).reachable (.init h₀)

end System

/-! ### The threads of a run that is written out

One or two threads are enough for these runs, and they are the numbers of `Fin 1` and `Fin 2`. With
the instances below a numeral of these types is a term without proofs of its own, the same in
every module. -/

instance neZero_one : NeZero 1 := ⟨Nat.succ_ne_zero 0⟩

instance neZero_two : NeZero 2 := ⟨Nat.succ_ne_zero 1⟩

/-! ### Counting threads -/

section

variable {ι α : Type*} [Fintype ι] [DecidableEq ι]

/-- A step of thread `i` changes the number of threads with property `p` by what it changes for
`i`. -/
theorem card_update (p : α → Prop) [DecidablePred p] (f : ι → α) (i : ι) (x : α) :
    (Finset.univ.filter fun j => p (Function.update f i x j)).card + (if p (f i) then 1 else 0) =
      (Finset.univ.filter fun j => p (f j)).card + (if p x then 1 else 0) := by
  have split : ∀ g : ι → α, (Finset.univ.filter fun j => p (g j)).card =
      ((Finset.univ.erase i).filter fun j => p (g j)).card + (if p (g i) then 1 else 0) := by
    intro g
    rw [← Finset.insert_erase (Finset.mem_univ i), Finset.filter_insert]
    split_ifs with hi
    · rw [Finset.card_insert_of_notMem (by simp)]
      simp
    · simp
  have hrest : ((Finset.univ.erase i).filter fun j => p (Function.update f i x j)) =
      (Finset.univ.erase i).filter fun j => p (f j) := by
    refine Finset.filter_congr fun j hj => ?_
    rw [Function.update_of_ne (Finset.ne_of_mem_erase hj)]
  rw [split f, split (Function.update f i x), hrest, Function.update_self]
  omega

end

end YXTWebCpp
