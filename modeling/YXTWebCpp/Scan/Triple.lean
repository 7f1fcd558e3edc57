import YXTWebCpp.Scan.Basic

/-!
# Triples for scanners

A logic for the pieces of a scan.  An assertion speaks of the state of the automaton, of the bytes
that have been consumed and of the memory.  `Passes act R xs R'` says: from wherever `R` holds, the
scan of `xs` goes on to its end without stopping, and `R'` holds then, whatever bytes follow in the
buffer; `Breaks act R xs R'` says that the scan breaks off behind the last byte of `xs`.

* `Passes.append`, `Passes.breaks`, `Passes.weaken` : composition and consequence.
* `passes_one`, `breaks_one` : one edge.
* `passes_silent` : edges without actions; `silent_of_closed` : inside a set of states.
* `Breaks.exec` : what a whole scan does.
* `exec_last` : registers that hold positions hold positions of the buffer.
-/

namespace YXTWebCpp

namespace Scan

namespace Machine

variable {Q B A σ : Type*} (M : Machine Q B A)

/-- The state after edges without actions, `none` if there is another edge on the way. -/
def silent : List B → Q → Option Q
  | [], q => some q
  | b :: bs, q =>
    match M.move q b with
    | .go [] q' => silent bs q'
    | _ => none

/-- What is said of a scan at some point: its state, the bytes consumed and the memory. -/
abbrev Assertion (Q B σ : Type*) := Q → List B → σ → Prop

/-- The scan of `xs` leads from `R` to `R'` and goes on.  `act` is the interpretation of the actions
for a given buffer. -/
def Passes (act : List B → ℕ → A → σ → σ) (R : Assertion Q B σ) (xs : List B)
    (R' : Assertion Q B σ) : Prop :=
  ∀ q pre ys s, R q pre s → ∃ q' s', R' q' (pre ++ xs) s' ∧
    M.exec (act (pre ++ (xs ++ ys))) (xs ++ ys) pre.length q s =
      M.exec (act (pre ++ (xs ++ ys))) ys (pre ++ xs).length q' s'

/-- The scan of `xs` leads from `R` to `R'` and breaks off behind its last byte. -/
def Breaks (act : List B → ℕ → A → σ → σ) (R : Assertion Q B σ) (xs : List B)
    (R' : Assertion Q B σ) : Prop :=
  ∀ q pre ys s, R q pre s → ∃ q' s', R' q' (pre ++ xs) s' ∧
    M.exec (act (pre ++ (xs ++ ys))) (xs ++ ys) pre.length q s = ⟨true, q', s', ys⟩

variable {M} {act : List B → ℕ → A → σ → σ} {R R' R'' S S' : Assertion Q B σ} {xs ys : List B}
  {b : B}

/-! ### Rules -/

theorem passes_nil : M.Passes act R [] R := by
  intro q pre ys s h
  refine ⟨q, s, ?_, ?_⟩
  · rwa [List.append_nil]
  · rw [List.append_nil, List.nil_append]

theorem Passes.append (h : M.Passes act R xs R') (h' : M.Passes act R' ys R'') :
    M.Passes act R (xs ++ ys) R'' := by
  intro q pre zs s hs
  obtain ⟨q', s', hs', he⟩ := h q pre (ys ++ zs) s hs
  obtain ⟨q'', s'', hs'', he'⟩ := h' q' (pre ++ xs) zs s' hs'
  rw [List.append_assoc] at hs''
  refine ⟨q'', s'', hs'', ?_⟩
  rw [List.append_assoc] at he'
  rw [List.append_assoc, he, he', List.append_assoc]

theorem Passes.breaks (h : M.Passes act R xs R') (h' : M.Breaks act R' ys R'') :
    M.Breaks act R (xs ++ ys) R'' := by
  intro q pre zs s hs
  obtain ⟨q', s', hs', he⟩ := h q pre (ys ++ zs) s hs
  obtain ⟨q'', s'', hs'', he'⟩ := h' q' (pre ++ xs) zs s' hs'
  rw [List.append_assoc] at hs''
  refine ⟨q'', s'', hs'', ?_⟩
  rw [List.append_assoc] at he'
  rw [List.append_assoc, he, he']

theorem Passes.weaken (h : M.Passes act R xs R') (hR : ∀ q pre s, S q pre s → R q pre s)
    (hR' : ∀ q pre s, R' q pre s → S' q pre s) : M.Passes act S xs S' := by
  intro q pre ys s hs
  obtain ⟨q', s', hs', he⟩ := h q pre ys s (hR q pre s hs)
  exact ⟨q', s', hR' q' _ s' hs', he⟩

/-- One edge. -/
theorem passes_one (h : ∀ q pre ys s, R q pre s → ∃ as q', M.move q b = .go as q' ∧
    R' q' (pre ++ [b]) (runActs (act (pre ++ b :: ys)) pre.length as s)) :
    M.Passes act R [b] R' := by
  intro q pre ys s hs
  obtain ⟨as, q', hm, hR'⟩ := h q pre ys s hs
  refine ⟨q', _, hR', ?_⟩
  rw [List.singleton_append, exec_of_go _ hm, List.length_append, List.length_singleton]

/-- One edge that leaves the scan. -/
theorem breaks_one (h : ∀ q pre ys s, R q pre s → ∃ as q', M.move q b = .brk as q' ∧
    R' q' (pre ++ [b]) (runActs (act (pre ++ b :: ys)) pre.length as s)) :
    M.Breaks act R [b] R' := by
  intro q pre ys s hs
  obtain ⟨as, q', hm, hR'⟩ := h q pre ys s hs
  refine ⟨q', _, hR', ?_⟩
  rw [List.singleton_append, exec_of_brk _ hm]

/-! ### Edges without actions -/

/-- Edges without actions leave the memory alone. -/
theorem exec_silent {act : ℕ → A → σ → σ} {xs : List B} : ∀ {q q' : Q} {p : ℕ} {s : σ},
    M.silent xs q = some q' → ∀ ys,
      M.exec act (xs ++ ys) p q s = M.exec act ys (p + xs.length) q' s := by
  induction xs with
  | nil =>
    intro q q' p s h ys
    rw [silent, Option.some.injEq] at h
    rw [h, List.nil_append, List.length_nil, Nat.add_zero]
  | cons b bs ih =>
    intro q q' p s h ys
    rw [silent] at h
    cases hm : M.move q b with
    | fail => simp [hm] at h
    | brk as q₁ => simp [hm] at h
    | go as q₁ =>
      cases as with
      | cons a as => simp [hm] at h
      | nil =>
        simp only [hm] at h
        rw [List.cons_append, exec_of_go _ hm, runActs, List.foldl_nil, ih h, List.length_cons,
          Nat.add_assoc, Nat.add_comm 1]

/-- Inside a set of states that every byte of a kind keeps, a text of such bytes is read
silently. -/
theorem silent_of_closed {C : Q → Prop} {P : B → Prop}
    (h : ∀ q b, C q → P b → ∃ q', C q' ∧ M.move q b = .go [] q') {xs : List B} :
    ∀ {q : Q}, C q → (∀ b ∈ xs, P b) → ∃ q', C q' ∧ M.silent xs q = some q' := by
  induction xs with
  | nil => intro q hq _; exact ⟨q, hq, rfl⟩
  | cons b bs ih =>
    intro q hq hxs
    obtain ⟨q', hq', hm⟩ := h q b hq (hxs b List.mem_cons_self)
    obtain ⟨q'', hq'', hs⟩ := ih hq' fun c hc => hxs c (List.mem_cons_of_mem _ hc)
    refine ⟨q'', hq'', ?_⟩
    rw [silent, hm]
    exact hs

/-- A path of edges without actions: what was said before holds of the bytes in front. -/
theorem passes_silent (h : ∀ q pre s, R q pre s → ∃ q', M.silent xs q = some q' ∧
    R' q' (pre ++ xs) s) : M.Passes act R xs R' := by
  intro q pre ys s hs
  obtain ⟨q', hq', hR'⟩ := h q pre s hs
  exact ⟨q', s, hR', by rw [exec_silent hq', List.length_append]⟩

/-- What a scan from the beginning of a buffer does. -/
theorem Breaks.exec (h : M.Breaks act R xs R') {q : Q} {s : σ} (hs : R q [] s) (ys : List B) :
    ∃ q' s', R' q' xs s' ∧ M.exec (act (xs ++ ys)) (xs ++ ys) 0 q s = ⟨true, q', s', ys⟩ := by
  obtain ⟨q', s', hs', he⟩ := h q [] ys s hs
  exact ⟨q', s', by simpa using hs', by simpa using he⟩

/-! ### Positions -/

/-- What the actions at a position keep, and what still holds at the next position, holds at the end
as it does at the last byte. -/
theorem exec_last {act : ℕ → A → σ → σ} {K : ℕ → σ → Prop}
    (hact : ∀ p a s, K p s → K p (act p a s)) (hmono : ∀ p s, K p s → K (p + 1) s) {xs : List B}
    (hxs : xs ≠ []) : ∀ {p : ℕ} {q : Q} {s : σ}, K p s →
      K (p + xs.length - 1) (M.exec act xs p q s).mem := by
  have hacts : ∀ (as : List A) (p : ℕ) (s : σ), K p s → K p (runActs act p as s) := by
    intro as
    induction as with
    | nil => intro p s h; exact h
    | cons a as ih => intro p s h; exact ih p _ (hact p a s h)
  have hlater : ∀ (n p : ℕ) (s : σ), K p s → K (p + n) s := by
    intro n
    induction n with
    | zero => intro p s h; exact h
    | succ n ih => intro p s h; exact hmono _ _ (ih p s h)
  induction xs with
  | nil => exact (hxs rfl).elim
  | cons b bs ih =>
    intro p q s h
    have hlen : p + (b :: bs).length - 1 = p + bs.length := by simp
    rw [hlen]
    cases hm : M.move q b with
    | fail => rw [exec_of_fail _ hm]; exact hlater _ _ _ h
    | brk as q' => rw [exec_of_brk _ hm]; exact hlater _ _ _ (hacts as p s h)
    | go as q' =>
      rw [exec_of_go _ hm]
      have hs := hacts as p s h
      cases bs with
      | nil => exact hs
      | cons c bs =>
        have := ih (by simp) (q := q') (hmono _ _ hs)
        have heq : p + 1 + (c :: bs).length - 1 = p + (c :: bs).length := by omega
        rwa [heq] at this

end Machine

end Scan

end YXTWebCpp
