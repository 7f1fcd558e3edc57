import Mathlib.Algebra.Ring.Int.Defs
import Mathlib.Algebra.Ring.Nat
import Mathlib.Data.Finset.Basic
import Mathlib.Data.Fintype.Card
import Mathlib.Data.List.Basic

/-!
# Scanners with registers

A generated scanner is a finite automaton whose edges carry actions.  It is run over a buffer,
one byte at a time, and the actions store positions of the buffer in *registers* and later read
them back to hand a slice of the buffer to a callback.

* `Machine Q B A` : what the automaton does in a state on a byte (`Move`).
* `Machine.exec` : the main loop over a buffer, for an interpretation `act` of the actions.
* `Machine.needs` : the registers that a scan of the given bytes reads before it sets them.
* `Machine.meets` : the scan comes to a state and a byte of a given kind.
* `Machine.emits` : what the actions of a scan hand out.

Two results are used by every scanner that is fed its input piece by piece:

* `Machine.exec_append` : a scan of `xs ++ ys` is a scan of `xs` followed, if that did not stop,
  by a scan of `ys`;
* `Machine.exec_sim` : two scans of the same bytes in different buffers stay related, when their
  memories are related on the registers that the bytes to come need.

For two scanners that differ in some places, `Machine.exec_eq_of_not_meets` and
`Machine.rest_lt_of_meets` say what becomes of bytes that do not meet these places, and of bytes
that do.
-/

namespace YXTWebCpp

namespace Scan

/-- What a scanner does on one byte. -/
inductive Move (Q A : Type*) where
  /-- No edge: the scan stops in front of the byte. -/
  | fail
  /-- Run the actions and go on behind the byte. -/
  | go (acts : List A) (q : Q)
  /-- Run the actions and stop behind the byte. -/
  | brk (acts : List A) (q : Q)

/-- A scanner with states `Q`, bytes `B` and actions `A`. -/
structure Machine (Q B A : Type*) where
  /-- The move in a state on a byte. -/
  move : Q → B → Move Q A
  /-- The state of a scan that has failed. -/
  err : Q

/-- The result of a scan. -/
structure Outcome (Q B σ : Type*) where
  /-- The scan stopped (it failed or broke off) and did not run to the end of its bytes. -/
  stopped : Bool
  /-- The state of the automaton. -/
  state : Q
  /-- The memory the actions work on. -/
  mem : σ
  /-- The bytes that were not consumed. -/
  rest : List B

namespace Machine

variable {Q B A σ ρ : Type*} (M : Machine Q B A)

/-- Run a list of actions at position `p`. -/
def runActs (act : ℕ → A → σ → σ) (p : ℕ) (as : List A) (s : σ) : σ :=
  as.foldl (fun s a => act p a s) s

/-- The main loop: scan the bytes from position `p` on, in state `q` with memory `s`. -/
def exec (act : ℕ → A → σ → σ) : List B → ℕ → Q → σ → Outcome Q B σ
  | [], _, q, s => ⟨false, q, s, []⟩
  | b :: bs, p, q, s =>
    match M.move q b with
    | .fail => ⟨true, M.err, s, b :: bs⟩
    | .brk as q' => ⟨true, q', runActs act p as s, bs⟩
    | .go as q' => exec act bs (p + 1) q' (runActs act p as s)

section

variable {M} (act : ℕ → A → σ → σ) {b : B} {bs : List B} {p : ℕ} {q q' : Q} {s : σ} {as : List A}

theorem exec_of_fail (h : M.move q b = .fail) :
    M.exec act (b :: bs) p q s = ⟨true, M.err, s, b :: bs⟩ := by
  simp [exec, h]

theorem exec_of_brk (h : M.move q b = .brk as q') :
    M.exec act (b :: bs) p q s = ⟨true, q', runActs act p as s, bs⟩ := by
  simp [exec, h]

theorem exec_of_go (h : M.move q b = .go as q') :
    M.exec act (b :: bs) p q s = M.exec act bs (p + 1) q' (runActs act p as s) := by
  simp [exec, h]

end

/-- The first part of a scan decides how it goes on. -/
theorem exec_append (act : ℕ → A → σ → σ) (xs ys : List B) (p : ℕ) (q : Q) (s : σ) :
    M.exec act (xs ++ ys) p q s =
      if (M.exec act xs p q s).stopped then
        { M.exec act xs p q s with rest := (M.exec act xs p q s).rest ++ ys }
      else M.exec act ys (p + xs.length) (M.exec act xs p q s).state (M.exec act xs p q s).mem := by
  induction xs generalizing p q s with
  | nil => simp [exec]
  | cons b bs ih =>
    rw [List.cons_append]
    cases h : M.move q b with
    | fail => simp [exec_of_fail act h]
    | brk as q' => simp [exec_of_brk act h]
    | go as q' =>
      rw [exec_of_go act h, exec_of_go act h, ih, List.length_cons, Nat.add_assoc, Nat.add_comm 1]

/-- What is left over is the end of the input. -/
theorem exec_rest_suffix (act : ℕ → A → σ → σ) (xs : List B) (p : ℕ) (q : Q) (s : σ) :
    (M.exec act xs p q s).rest <:+ xs := by
  induction xs generalizing p q s with
  | nil => simp [exec]
  | cons b bs ih =>
    cases h : M.move q b with
    | fail => rw [exec_of_fail act h]
    | brk as q' => rw [exec_of_brk act h]; exact List.suffix_cons b bs
    | go as q' => rw [exec_of_go act h]; exact (ih _ _ _).trans (List.suffix_cons b bs)

/-- A scan that does not stop consumes everything. -/
theorem exec_rest_of_not_stopped (act : ℕ → A → σ → σ) (xs : List B) (p : ℕ) (q : Q) (s : σ)
    (h : (M.exec act xs p q s).stopped = false) : (M.exec act xs p q s).rest = [] := by
  induction xs generalizing p q s with
  | nil => rfl
  | cons b bs ih =>
    cases hm : M.move q b with
    | fail => simp [exec_of_fail act hm] at h
    | brk as q' => simp [exec_of_brk act hm] at h
    | go as q' =>
      rw [exec_of_go act hm] at h ⊢
      exact ih _ _ _ h

/-- A scan that has not failed ends in the same way on the bytes it has consumed alone. -/
theorem exec_consumed (act : ℕ → A → σ → σ) (xs : List B) (p : ℕ) (q : Q) (s : σ)
    (h : (M.exec act xs p q s).state ≠ M.err) :
    ∃ ys, xs = ys ++ (M.exec act xs p q s).rest ∧
      M.exec act ys p q s = { M.exec act xs p q s with rest := [] } := by
  induction xs generalizing p q s with
  | nil => exact ⟨[], rfl, rfl⟩
  | cons b bs ih =>
    cases hm : M.move q b with
    | fail => simp [exec_of_fail act hm] at h
    | brk as q' =>
      refine ⟨[b], ?_, ?_⟩
      · rw [exec_of_brk act hm, List.singleton_append]
      · rw [exec_of_brk act hm, exec_of_brk act hm]
    | go as q' =>
      rw [exec_of_go act hm] at h ⊢
      obtain ⟨ys, hys, he⟩ := ih (p + 1) q' (runActs act p as s) h
      refine ⟨b :: ys, ?_, ?_⟩
      · rw [List.cons_append, ← hys]
      · rw [exec_of_go act hm, he]

/-- The control part of a scan: the states and bytes it goes through, without a memory. -/
def ctrl (xs : List B) (q : Q) : Outcome Q B Unit := M.exec (fun _ _ s => s) xs 0 q ()

/-- The memory has no influence on the control. -/
theorem exec_ctrl (act : ℕ → A → σ → σ) (xs : List B) : ∀ (p : ℕ) (q : Q) (s : σ),
    (M.exec act xs p q s).stopped = (M.ctrl xs q).stopped ∧
      (M.exec act xs p q s).state = (M.ctrl xs q).state ∧
      (M.exec act xs p q s).rest = (M.ctrl xs q).rest := by
  have key : ∀ (p p' : ℕ) (q : Q) (s : σ) (s' : Unit),
      (M.exec act xs p q s).stopped = (M.exec (fun _ _ s => s) xs p' q s').stopped ∧
        (M.exec act xs p q s).state = (M.exec (fun _ _ s => s) xs p' q s').state ∧
        (M.exec act xs p q s).rest = (M.exec (fun _ _ s => s) xs p' q s').rest := by
    induction xs with
    | nil => intro p p' q s s'; exact ⟨rfl, rfl, rfl⟩
    | cons b bs ih =>
      intro p p' q s s'
      cases h : M.move q b with
      | fail => simp [exec_of_fail _ h]
      | brk as q' => simp [exec_of_brk _ h]
      | go as q' => rw [exec_of_go _ h, exec_of_go _ h]; exact ih _ _ _ _ _
  exact fun p q s => key p 0 q s ()

/-- What every action keeps, a scan keeps. -/
theorem exec_mem {act : ℕ → A → σ → σ} {P : σ → Prop} (hP : ∀ p a s, P s → P (act p a s))
    (xs : List B) : ∀ (p : ℕ) (q : Q) (s : σ), P s → P (M.exec act xs p q s).mem := by
  have hacts : ∀ (as : List A) (p : ℕ) (s : σ), P s → P (runActs act p as s) := by
    intro as
    induction as with
    | nil => intro p s h; exact h
    | cons a as ih => intro p s h; exact ih p _ (hP p a s h)
  induction xs with
  | nil => intro p q s h; exact h
  | cons b bs ih =>
    intro p q s h
    cases hm : M.move q b with
    | fail => rw [exec_of_fail _ hm]; exact h
    | brk as q' => rw [exec_of_brk _ hm]; exact hacts as p s h
    | go as q' => rw [exec_of_go _ hm]; exact ih _ _ _ (hacts as p s h)

/-- A scan that runs to the end is in a state it can enter without stopping. -/
theorem ctrl_state {P : Q → Prop} (hP : ∀ q b as q', M.move q b = .go as q' → P q')
    (xs : List B) : ∀ q, P q → (M.ctrl xs q).stopped = false → P (M.ctrl xs q).state := by
  have key : ∀ (p : ℕ) (q : Q) (s : Unit), P q →
      (M.exec (fun _ _ s => s) xs p q s).stopped = false →
      P (M.exec (fun _ _ s => s) xs p q s).state := by
    induction xs with
    | nil => intro p q s hq _; exact hq
    | cons b bs ih =>
      intro p q s hq h
      cases hm : M.move q b with
      | fail => simp [exec_of_fail _ hm] at h
      | brk as q' => simp [exec_of_brk _ hm] at h
      | go as q' =>
        rw [exec_of_go _ hm] at h ⊢
        exact ih _ _ _ (hP q b as q' hm) h
  exact fun q => key 0 q ()

/-- A scan that stops is in the error state, or in a state that it broke off in. -/
theorem ctrl_state_of_stopped {P : Q → Prop} (herr : P M.err)
    (hP : ∀ q b as q', M.move q b = .brk as q' → P q') (xs : List B) :
    ∀ q, (M.ctrl xs q).stopped = true → P (M.ctrl xs q).state := by
  have key : ∀ (p : ℕ) (q : Q) (s : Unit),
      (M.exec (fun _ _ s => s) xs p q s).stopped = true →
      P (M.exec (fun _ _ s => s) xs p q s).state := by
    induction xs with
    | nil => intro p q s h; simp [exec] at h
    | cons b bs ih =>
      intro p q s h
      cases hm : M.move q b with
      | fail => rw [exec_of_fail _ hm]; exact herr
      | brk as q' => rw [exec_of_brk _ hm]; exact hP q b as q' hm
      | go as q' =>
        rw [exec_of_go _ hm] at h ⊢
        exact ih _ _ _ h
  exact fun q => key 0 q ()

/-! ### Two scanners -/

/-- A scan comes to a state and a byte with `P`. -/
def meets (P : Q → B → Bool) : List B → Q → Bool
  | [], _ => false
  | b :: bs, q =>
    P q b ||
      match M.move q b with
      | .go _ q' => meets P bs q'
      | _ => false

section

variable {M} {P : Q → B → Bool} {N : Machine Q B A}

/-- A scan of `xs ++ ys` meets what the scan of `xs` meets and, if that does not stop, what the
scan of `ys` meets after it. -/
theorem meets_append (xs ys : List B) (q : Q) :
    M.meets P (xs ++ ys) q =
      (M.meets P xs q || (!(M.ctrl xs q).stopped && M.meets P ys (M.ctrl xs q).state)) := by
  induction xs generalizing q with
  | nil => simp [meets, ctrl, exec]
  | cons b bs ih =>
    rw [List.cons_append, meets, meets]
    cases hm : M.move q b with
    | fail => simp [ctrl, exec_of_fail _ hm]
    | brk as q' => simp [ctrl, exec_of_brk _ hm]
    | go as q' =>
      obtain ⟨hst, hstate, -⟩ := M.exec_ctrl (fun _ _ s => s) bs 1 q' ()
      have hctrl : M.ctrl (b :: bs) q = M.exec (fun _ _ s => s) bs 1 q' () :=
        exec_of_go _ hm
      rw [hctrl, hst, hstate]
      simp only [ih, Bool.or_assoc]

/-- States that a scan does not leave, and where it does not meet `P`. -/
theorem meets_eq_false {C : Q → Prop} (hP : ∀ q b, C q → P q b = false)
    (hgo : ∀ q b as q', C q → M.move q b = .go as q' → C q') (xs : List B) :
    ∀ q, C q → M.meets P xs q = false := by
  induction xs with
  | nil => intro q _; rfl
  | cons b bs ih =>
    intro q hq
    rw [meets, hP q b hq, Bool.false_or]
    cases hm : M.move q b with
    | fail => rfl
    | brk as q' => rfl
    | go as q' => exact ih q' (hgo q b as q' hq hm)

/-- Two scanners that differ only where `P` holds do the same on bytes that do not meet `P`. -/
theorem exec_eq_of_not_meets (herr : N.err = M.err)
    (hmove : ∀ q b, P q b = false → N.move q b = M.move q b) (act : ℕ → A → σ → σ) (xs : List B) :
    ∀ (p : ℕ) (q : Q) (s : σ), M.meets P xs q = false →
      N.exec act xs p q s = M.exec act xs p q s := by
  induction xs with
  | nil => intro p q s _; rfl
  | cons b bs ih =>
    intro p q s h
    rw [meets, Bool.or_eq_false_iff] at h
    have hN := hmove q b h.1
    cases hm : M.move q b with
    | fail =>
      rw [hm] at hN
      rw [exec_of_fail _ hm, exec_of_fail _ hN, herr]
    | brk as q' =>
      rw [hm] at hN
      rw [exec_of_brk _ hm, exec_of_brk _ hN]
    | go as q' =>
      rw [hm] at hN h
      rw [exec_of_go _ hm, exec_of_go _ hN]
      exact ih _ _ _ h.2

/-- Where `P` holds the first scanner fails and the second one does not: it consumes more of the
bytes that meet `P`. -/
theorem rest_lt_of_meets (hmove : ∀ q b, P q b = false → N.move q b = M.move q b)
    (hfail : ∀ q b, P q b = true → M.move q b = .fail ∧ N.move q b ≠ .fail)
    (act act' : ℕ → A → σ → σ) (xs : List B) :
    ∀ (p p' : ℕ) (q : Q) (s s' : σ), M.meets P xs q = true →
      (N.exec act' xs p' q s').rest.length < (M.exec act xs p q s).rest.length := by
  induction xs with
  | nil => intro p p' q s s' h; simp [meets] at h
  | cons b bs ih =>
    intro p p' q s s' h
    cases hP : P q b with
    | true =>
      obtain ⟨hm, hN⟩ := hfail q b hP
      rw [exec_of_fail _ hm]
      cases hn : N.move q b with
      | fail => exact absurd hn hN
      | brk as q' =>
        rw [exec_of_brk _ hn]
        simp
      | go as q' =>
        rw [exec_of_go _ hn]
        exact Nat.lt_succ_of_le (N.exec_rest_suffix act' bs _ _ _).length_le
    | false =>
      rw [meets, hP, Bool.false_or] at h
      have hN := hmove q b hP
      cases hm : M.move q b with
      | fail => simp [hm] at h
      | brk as q' => simp [hm] at h
      | go as q' =>
        rw [hm] at hN h
        rw [exec_of_go _ hm, exec_of_go _ hN]
        exact ih _ _ _ _ _ h

end

/-- A relation between memories, indexed by the state, that every edge keeps and that survives a
failure relates the memories of two scans of the same bytes at the end. -/
theorem exec_rel {act₁ act₂ : ℕ → A → σ → σ} {R : Q → σ → σ → Prop}
    (herr : ∀ q s₁ s₂, R q s₁ s₂ → R M.err s₁ s₂)
    (hedge : ∀ q b as q' p s₁ s₂, M.move q b = .go as q' ∨ M.move q b = .brk as q' →
      R q s₁ s₂ → R q' (runActs act₁ p as s₁) (runActs act₂ p as s₂)) (xs : List B) :
    ∀ (p : ℕ) (q : Q) (s₁ s₂ : σ), R q s₁ s₂ →
      R (M.exec act₁ xs p q s₁).state (M.exec act₁ xs p q s₁).mem (M.exec act₂ xs p q s₂).mem := by
  induction xs with
  | nil => intro p q s₁ s₂ h; exact h
  | cons b bs ih =>
    intro p q s₁ s₂ h
    cases hm : M.move q b with
    | fail =>
      rw [exec_of_fail _ hm, exec_of_fail _ hm]
      exact herr q s₁ s₂ h
    | brk as q' =>
      rw [exec_of_brk _ hm, exec_of_brk _ hm]
      exact hedge q b as q' p s₁ s₂ (.inr hm) h
    | go as q' =>
      rw [exec_of_go _ hm, exec_of_go _ hm]
      exact ih _ _ _ _ (hedge q b as q' p s₁ s₂ (.inl hm) h)

/-! ### What a scan hands out -/

section

variable {O : Type*} (act : ℕ → A → σ → σ) (out : ℕ → A → σ → List O)

/-- What a list of actions hands out at position `p`, where `out` says what an action does. -/
def emitActs (p : ℕ) : List A → σ → List O
  | [], _ => []
  | a :: as, s => out p a s ++ emitActs p as (act p a s)

/-- What a scan hands out. -/
def emits : List B → ℕ → Q → σ → List O
  | [], _, _, _ => []
  | b :: bs, p, q, s =>
    match M.move q b with
    | .fail => []
    | .brk as _ => emitActs act out p as s
    | .go as q' => emitActs act out p as s ++ emits bs (p + 1) q' (runActs act p as s)

variable {M} {b : B} {bs : List B} {p : ℕ} {q q' : Q} {s : σ} {as : List A}

theorem emits_of_fail (h : M.move q b = .fail) : M.emits act out (b :: bs) p q s = [] := by
  simp [emits, h]

theorem emits_of_brk (h : M.move q b = .brk as q') :
    M.emits act out (b :: bs) p q s = emitActs act out p as s := by
  simp [emits, h]

theorem emits_of_go (h : M.move q b = .go as q') :
    M.emits act out (b :: bs) p q s =
      emitActs act out p as s ++ M.emits act out bs (p + 1) q' (runActs act p as s) := by
  simp [emits, h]

/-- An invariant of the scan under which an edge at position `p` hands out only what `P p` allows:
the scan hands out only what is allowed at a position of its bytes. -/
theorem emits_forall {act : ℕ → A → σ → σ} {out : ℕ → A → σ → List O} {I : Q → ℕ → σ → Prop}
    {P : ℕ → O → Prop} (hedge : ∀ q b as q' p s, M.move q b = .go as q' ∨ M.move q b = .brk as q' →
      I q p s → (∀ o ∈ emitActs act out p as s, P p o) ∧ I q' (p + 1) (runActs act p as s))
    (xs : List B) : ∀ (p : ℕ) (q : Q) (s : σ), I q p s →
      ∀ o ∈ M.emits act out xs p q s, ∃ k < xs.length, P (p + k) o := by
  induction xs with
  | nil => intro p q s _ o ho; cases ho
  | cons b bs ih =>
    intro p q s hI o ho
    cases hm : M.move q b with
    | fail =>
      rw [emits_of_fail act out hm] at ho
      cases ho
    | brk as q' =>
      rw [emits_of_brk act out hm] at ho
      exact ⟨0, by simp, (hedge q b as q' p s (.inr hm) hI).1 o ho⟩
    | go as q' =>
      rw [emits_of_go act out hm, List.mem_append] at ho
      obtain ⟨hP, hI'⟩ := hedge q b as q' p s (.inl hm) hI
      rcases ho with ho | ho
      · exact ⟨0, by simp, hP o ho⟩
      · obtain ⟨k, hk, hPk⟩ := ih (p + 1) q' _ hI' o ho
        refine ⟨k + 1, by simpa using hk, ?_⟩
        rwa [Nat.add_assoc, Nat.add_comm 1] at hPk

end

/-! ### Registers -/

variable [DecidableEq ρ]

/-- The registers that matter in front of a list of actions, when those of `L` matter behind it:
`reads` are looked at, `writes` are overwritten. -/
def needsActs (reads writes : A → Finset ρ) : List A → Finset ρ → Finset ρ
  | [], L => L
  | a :: as, L => reads a ∪ (needsActs reads writes as L \ writes a)

/-- The registers that a scan of the bytes in state `q` reads before it has set them. -/
def needs (reads writes : A → Finset ρ) : List B → Q → Finset ρ
  | [], _ => ∅
  | b :: bs, q =>
    match M.move q b with
    | .fail => ∅
    | .brk as _ => needsActs reads writes as ∅
    | .go as q' => needsActs reads writes as (needs reads writes bs q')

/-- What may matter in each state, closed under the edges, bounds what does matter. -/
theorem needs_subset (reads writes : A → Finset ρ) (live : Q → Finset ρ)
    (h : ∀ q b as q', M.move q b = .go as q' ∨ M.move q b = .brk as q' →
      needsActs reads writes as (live q') ⊆ live q) (xs : List B) :
    ∀ q, M.needs reads writes xs q ⊆ live q := by
  have mono : ∀ (as : List A) (L L' : Finset ρ), L ⊆ L' →
      needsActs reads writes as L ⊆ needsActs reads writes as L' := by
    intro as
    induction as with
    | nil => intro L L' hL; exact hL
    | cons a as ih =>
      intro L L' hL
      exact Finset.union_subset_union subset_rfl (Finset.sdiff_subset_sdiff (ih L L' hL) subset_rfl)
  induction xs with
  | nil => intro q; exact Finset.empty_subset _
  | cons b bs ih =>
    intro q
    rw [needs]
    cases hm : M.move q b with
    | fail => exact Finset.empty_subset _
    | brk as q' => exact (mono as _ _ (Finset.empty_subset _)).trans (h q b as q' (.inr hm))
    | go as q' => exact (mono as _ _ (ih q')).trans (h q b as q' (.inl hm))

/-- The move in state `q` on `b` runs the actions `as` and enters `q'`. -/
def Edge (q : Q) (b : B) (as : List A) (q' : Q) : Prop :=
  M.move q b = .go as q' ∨ M.move q b = .brk as q'

/-- A family of relations between two memories, indexed by the state, the position in the second
buffer and the registers that matter, is kept by the moves on `b` at position `p`.  The first buffer
holds `k` more bytes in front. -/
def Keeps (reads writes : A → Finset ρ) (Sim : Q → ℕ → Finset ρ → σ → σ → Prop)
    (act₁ act₂ : ℕ → A → σ → σ) (k : ℕ) (b : B) (p : ℕ) : Prop :=
  ∀ q as q', M.Edge q b as q' → ∀ L s₁ s₂, Sim q p (needsActs reads writes as L) s₁ s₂ →
    Sim q' (p + 1) L (runActs act₁ (k + p) as s₁) (runActs act₂ p as s₂)

variable {M} {reads writes : A → Finset ρ} {Sim : Q → ℕ → Finset ρ → σ → σ → Prop}
  {act₁ act₂ : ℕ → A → σ → σ} {k : ℕ}

/-- **Two scans of the same bytes stay related.**  `xs` is scanned in both buffers, `ys` are the
bytes that follow; the memories are related on the registers that `xs ++ ys` needs. -/
theorem exec_sim (xs ys : List B) : ∀ (p : ℕ) (q : Q) (s₁ s₂ : σ),
    (∀ u b v, xs = u ++ b :: v → M.Keeps reads writes Sim act₁ act₂ k b (p + u.length)) →
    Sim q p (M.needs reads writes (xs ++ ys) q) s₁ s₂ →
    let o₁ := M.exec act₁ xs (k + p) q s₁
    let o₂ := M.exec act₂ xs p q s₂
    (o₁.stopped = true → ∃ q' p', Sim q' p' ∅ o₁.mem o₂.mem) ∧
      (o₁.stopped = false →
        Sim o₁.state (p + xs.length) (M.needs reads writes ys o₁.state) o₁.mem o₂.mem) := by
  induction xs with
  | nil => intro p q s₁ s₂ _ hs; exact ⟨fun h => by simp [exec] at h, fun _ => hs⟩
  | cons b bs ih =>
    intro p q s₁ s₂ hk hs
    have hb := hk [] b bs rfl
    simp only [List.length_nil, Nat.add_zero] at hb
    rw [List.cons_append, needs] at hs
    cases hm : M.move q b with
    | fail =>
      simp only [hm] at hs
      rw [exec_of_fail act₁ hm, exec_of_fail act₂ hm]
      exact ⟨fun _ => ⟨q, p, hs⟩, fun h => by simp at h⟩
    | brk as q' =>
      simp only [hm] at hs
      rw [exec_of_brk act₁ hm, exec_of_brk act₂ hm]
      exact ⟨fun _ => ⟨q', p + 1, hb q as q' (.inr hm) ∅ _ _ hs⟩, fun h => by simp at h⟩
    | go as q' =>
      simp only [hm] at hs
      rw [exec_of_go act₁ hm, exec_of_go act₂ hm, List.length_cons, Nat.add_comm bs.length,
        ← Nat.add_assoc]
      refine ih (p + 1) q' _ _ (fun u c v huv => ?_) (hb q as q' (.inl hm) _ _ _ hs)
      have := hk (b :: u) c v (by rw [huv]; rfl)
      simpa [Nat.add_assoc, Nat.add_comm 1] using this

end Machine

end Scan

end YXTWebCpp
