import YXTWebCpp.LTS.Threads

/-!
# Locks and the sections they protect

A readers-writer lock as explicit state, and threads that enter and leave sections of code.  A
section takes the lock for reading, for writing, or not at all; a mutex is a lock that is taken for
writing only.

* `RWLock` : the number of readers and the writer.
* `RWLock.Held` : the lock agrees with how the threads hold it.
* `Sections` : what the threads enter and leave.
* `Sections.Apart` : no two threads are inside sections that clash.
* `Sections.Moves` : a thread stays where it is, or enters or leaves a section.
* `Sections.Moves.apart_iff` : **when a step keeps the threads apart**: the lock sees to the
  sections that it excludes, and only the others have to be looked at.
-/

namespace YXTWebCpp

/-- How a section takes the lock. -/
inductive Mode where
  /-- Not at all. -/
  | none
  /-- `rdlock` -/
  | shared
  /-- `wrlock`, or `lock` of a mutex -/
  | exclusive
  deriving DecidableEq, Repr

/-- The lock does not let two threads hold it in these ways. -/
def Mode.Excludes : Mode → Mode → Prop
  | .exclusive, .shared | .shared, .exclusive | .exclusive, .exclusive => True
  | _, _ => False

instance : (m n : Mode) → Decidable (m.Excludes n)
  | .exclusive, .shared | .shared, .exclusive | .exclusive, .exclusive =>
    inferInstanceAs (Decidable True)
  | .none, _ | .shared, .none | .shared, .shared | .exclusive, .none =>
    inferInstanceAs (Decidable False)

/-- A readers-writer lock. -/
structure RWLock (ι : Type*) where
  /-- How many threads hold it for reading. -/
  readers : ℕ
  /-- Who holds it for writing. -/
  writer : Option ι

namespace RWLock

variable {ι L : Type*}

/-- Nobody holds the lock. -/
def free : RWLock ι := ⟨0, none⟩

/-- Thread `i` takes the lock: `none` if it has to wait. -/
def acquire (l : RWLock ι) (i : ι) : Mode → Option (RWLock ι)
  | .none => some l
  | .shared => if l.writer.isSome then none else some { l with readers := l.readers + 1 }
  | .exclusive =>
    if l.writer.isSome ∨ l.readers ≠ 0 then none else some { l with writer := some i }

/-- A thread that has taken the lock gives it back. -/
def release (l : RWLock ι) : Mode → RWLock ι
  | .none => l
  | .shared => { l with readers := l.readers - 1 }
  | .exclusive => { l with writer := none }

/-- The lock agrees with how the threads hold it. -/
structure Held [Fintype ι] (l : RWLock ι) (f : ι → Mode) : Prop where
  readers : l.readers = (Finset.univ.filter fun i => f i = .shared).card
  writer : ∀ i, l.writer = some i ↔ f i = .exclusive
  alone : l.writer.isSome = true → l.readers = 0

variable [Fintype ι] [DecidableEq ι] {l l' : RWLock ι} {f : ι → Mode} {i : ι}

omit [DecidableEq ι] in
theorem held_free : (free : RWLock ι).Held fun _ => .none :=
  ⟨by simp [free], fun i => by simp [free], fun _ => rfl⟩

theorem Held.acquire (h : l.Held f) (hi : f i = .none) {m : Mode} (ha : l.acquire i m = some l') :
    l'.Held (Function.update f i m) := by
  have hcard := card_update (fun m => m = Mode.shared) f i m
  simp only [hi, reduceCtorEq, ↓reduceIte, Nat.add_zero] at hcard
  have hother : ∀ j, j ≠ i → (l.writer = some j ↔ Function.update f i m j = .exclusive) := by
    intro j hj
    rw [Function.update_of_ne hj]
    exact h.writer j
  have hself : l.writer ≠ some i := by
    rw [ne_eq, h.writer i, hi]
    exact nofun
  cases m with
  | none =>
    obtain rfl := Option.some.inj ha
    refine ⟨by rw [hcard, h.readers]; rfl, fun j => ?_, h.alone⟩
    by_cases hj : j = i
    · simp [hj, hself]
    · exact hother j hj
  | shared =>
    simp only [RWLock.acquire] at ha
    split_ifs at ha with hw
    obtain rfl := Option.some.inj ha
    refine ⟨by rw [hcard, h.readers]; rfl, fun j => ?_, fun hs => absurd hs hw⟩
    by_cases hj : j = i
    · simp [hj, hself]
    · exact hother j hj
  | exclusive =>
    simp only [RWLock.acquire] at ha
    split_ifs at ha with hw
    obtain ⟨hw, hr⟩ := not_or.1 hw
    obtain rfl := Option.some.inj ha
    refine ⟨by rw [hcard, h.readers]; rfl, fun j => ?_, fun _ => not_not.1 hr⟩
    by_cases hj : j = i
    · simp [hj]
    · rw [Function.update_of_ne hj, ← h.writer j]
      have hnone : l.writer = Option.none := by simpa using hw
      simp [hnone, Ne.symm hj]

theorem Held.release (h : l.Held f) : (l.release (f i)).Held (Function.update f i .none) := by
  have hcard := card_update (fun m => m = Mode.shared) f i Mode.none
  simp only [reduceCtorEq, ↓reduceIte, Nat.add_zero] at hcard
  have hother : ∀ j, j ≠ i →
      (l.writer = some j ↔ Function.update f i Mode.none j = .exclusive) := by
    intro j hj
    rw [Function.update_of_ne hj]
    exact h.writer j
  cases hm : f i with
  | none =>
    rw [← hm, Function.update_eq_self, hm]
    exact h
  | shared =>
    rw [hm, if_pos rfl] at hcard
    have hr := h.readers
    refine ⟨by simp only [RWLock.release]; omega, fun j => ?_, fun hs => ?_⟩
    · by_cases hj : j = i
      · simp [RWLock.release, hj, h.writer i, hm]
      · exact hother j hj
    · have := h.alone hs
      simp only [RWLock.release]
      omega
  | exclusive =>
    rw [hm, if_neg nofun] at hcard
    refine ⟨h.readers.trans hcard.symm, fun j => ?_, nofun⟩
    by_cases hj : j = i
    · simp [RWLock.release, hj]
    · rw [← hother j hj]
      have hi : l.writer = some i := (h.writer i).2 hm
      simp [RWLock.release, hi, Ne.symm hj]

omit [DecidableEq ι] in
/-- Threads that hold the lock do not exclude one another. -/
theorem Held.not_excludes (h : l.Held f) {j : ι} (hij : i ≠ j) : ¬ (f i).Excludes (f j) := by
  have hexcl : ∀ i j, i ≠ j → f i = .exclusive → f j = .none := by
    intro i j hij hi
    have hw := (h.writer i).2 hi
    have hzero := h.alone (by rw [hw]; rfl)
    rw [h.readers, Finset.card_eq_zero, Finset.filter_eq_empty_iff] at hzero
    cases hj : f j with
    | none => rfl
    | shared => exact absurd hj (hzero (Finset.mem_univ j))
    | exclusive =>
      have := (h.writer j).2 hj
      rw [hw] at this
      exact absurd (Option.some.inj this) hij
  intro he
  cases hi : f i with
  | none => rw [hi] at he; exact he
  | exclusive => rw [hexcl i j hij hi, hi] at he; exact he
  | shared =>
    cases hj : f j with
    | exclusive =>
      rw [hexcl j i (Ne.symm hij) hj] at hi
      cases hi
    | _ => rw [hi, hj] at he; exact he

end RWLock

/-! ### Sections -/

/-- Threads with states `L` that enter and leave sections `X`. -/
structure Sections (L X : Type*) where
  /-- The section that a thread is inside. -/
  inside : L → Option X
  /-- How a section takes the lock. -/
  mode : X → Mode
  /-- The sections must not be entered by two threads at once. -/
  clash : X → X → Prop
  symm : ∀ x y, clash x y → clash y x

namespace Sections

variable {ι L X : Type*} (S : Sections L X)

/-- How a thread holds the lock. -/
def held (w : L) : Mode :=
  match S.inside w with
  | some x => S.mode x
  | none => .none

/-- No two threads are inside sections that clash. -/
def Apart (f : ι → L) : Prop :=
  ∀ i j, i ≠ j → ∀ x y, S.inside (f i) = some x → S.inside (f j) = some y → ¬ S.clash x y

/-- Nobody but `i` is inside a section that clashes with `x` and that the lock does not exclude. -/
def Clear (f : ι → L) (i : ι) (x : X) : Prop :=
  ∀ j, j ≠ i → ∀ y, S.inside (f j) = some y → ¬ (S.mode x).Excludes (S.mode y) → ¬ S.clash x y

instance [Fintype ι] [DecidableEq ι] [∀ x y, Decidable (S.clash x y)] (f : ι → L) (i : ι) (x : X) :
    Decidable (S.Clear f i x) :=
  inferInstanceAs (Decidable (∀ j, j ≠ i → ∀ y ∈ S.inside (f j),
    ¬ (S.mode x).Excludes (S.mode y) → ¬ S.clash x y))

variable {S} {f : ι → L} {i : ι} {w : L} [DecidableEq ι]

theorem update_held : (fun j => S.held (Function.update f i w j)) =
    Function.update (fun j => S.held (f j)) i (S.held w) := by
  funext j
  by_cases hj : j = i
  · rw [hj, Function.update_self, Function.update_self]
  · rw [Function.update_of_ne hj, Function.update_of_ne hj]

/-- A step of a thread that stays where it is keeps the threads apart. -/
theorem Apart.stay (h : S.Apart f) (hw : S.inside w = none ∨ S.inside w = S.inside (f i)) :
    S.Apart (Function.update f i w) := by
  have hback : ∀ j x, S.inside (Function.update f i w j) = some x → S.inside (f j) = some x := by
    intro j x hx
    by_cases hj : j = i
    · rw [hj, Function.update_self] at hx
      rcases hw with hw | hw
      · rw [hw] at hx
        cases hx
      · rw [hj, ← hw, hx]
    · rw [Function.update_of_ne hj] at hx
      exact hx
  exact fun j k hjk x y hx hy => h j k hjk x y (hback j x hx) (hback k y hy)

variable [Fintype ι] {l l' : RWLock ι} {x : X}

theorem held_enter (hl : l.Held fun j => S.held (f j)) (hi : S.inside (f i) = none)
    (hw : S.inside w = some x) (ha : l.acquire i (S.mode x) = some l') :
    l'.Held fun j => S.held (Function.update f i w j) := by
  have hx : S.held w = S.mode x := by simp only [held, hw]
  rw [update_held, hx]
  exact hl.acquire (by simp only [held, hi]) ha

theorem held_leave (hl : l.Held fun j => S.held (f j)) (hi : S.inside (f i) = some x)
    (hw : S.inside w = none) :
    (l.release (S.mode x)).Held fun j => S.held (Function.update f i w j) := by
  have hx : S.held (f i) = S.mode x := by simp only [held, hi]
  have hnone : S.held w = .none := by simp only [held, hw]
  rw [update_held, hnone, ← hx]
  exact hl.release

theorem held_stay (hl : l.Held fun j => S.held (f j)) (hw : S.inside w = S.inside (f i)) :
    l.Held fun j => S.held (Function.update f i w j) := by
  have hx : S.held w = S.held (f i) := by simp only [held, hw]
  rw [update_held, hx, Function.update_eq_self]
  exact hl

/-- **When entering a section keeps the threads apart.** -/
theorem Apart.enter_iff (h : S.Apart f) (hl : l.Held fun j => S.held (f j))
    (hi : S.inside (f i) = none) (hw : S.inside w = some x)
    (ha : l.acquire i (S.mode x) = some l') : S.Apart (Function.update f i w) ↔ S.Clear f i x := by
  have hself : S.inside (Function.update f i w i) = some x := by rw [Function.update_self, hw]
  constructor
  · intro hap j hj y hy _
    refine hap i j (Ne.symm hj) x y hself ?_
    rw [Function.update_of_ne hj]
    exact hy
  · intro hclear
    have hnew : ∀ j, j ≠ i → ∀ y, S.inside (f j) = some y → ¬ S.clash x y := by
      intro j hj y hy
      by_cases he : (S.mode x).Excludes (S.mode y)
      · -- the lock would not have been given to both
        refine absurd ?_ ((held_enter hl hi hw ha).not_excludes (Ne.symm hj))
        simpa only [held, hself, Function.update_of_ne hj, hy] using he
      · exact hclear j hj y hy he
    intro j k hjk y z hy hz
    by_cases hj : j = i
    · subst hj
      rw [hself] at hy
      obtain rfl := Option.some.inj hy
      rw [Function.update_of_ne (Ne.symm hjk)] at hz
      exact hnew k (Ne.symm hjk) z hz
    · rw [Function.update_of_ne hj] at hy
      by_cases hk : k = i
      · subst hk
        rw [hself] at hz
        obtain rfl := Option.some.inj hz
        exact fun hc => hnew j hj y hy (S.symm _ _ hc)
      · rw [Function.update_of_ne hk] at hz
        exact h j k hjk y z hy hz

/-- A step of thread `i` keeps it where it is, or enters or leaves a section with the lock. -/
inductive Moves (S : Sections L X) (l l' : RWLock ι) (i : ι) (w w' : L) : Prop
  | stay : S.inside w' = S.inside w → l' = l → Moves S l l' i w w'
  | enter (x : X) : S.inside w = none → S.inside w' = some x → l.acquire i (S.mode x) = some l' →
      Moves S l l' i w w'
  | leave (x : X) : S.inside w = some x → S.inside w' = none → l' = l.release (S.mode x) →
      Moves S l l' i w w'

theorem Moves.held (hm : S.Moves l l' i (f i) w) (hl : l.Held fun j => S.held (f j)) :
    l'.Held fun j => S.held (Function.update f i w j) := by
  cases hm with
  | stay hw hl' => exact hl' ▸ held_stay hl hw
  | enter x hi hw ha => exact held_enter hl hi hw ha
  | leave x hi hw hl' => exact hl' ▸ held_leave hl hi hw

/-- Entering keeps the threads apart exactly if nobody is in the way; nothing else matters. -/
theorem Moves.apart_iff (hm : S.Moves l l' i (f i) w) (hl : l.Held fun j => S.held (f j))
    (h : S.Apart f) :
    S.Apart (Function.update f i w) ↔
      ∀ x, S.inside (f i) = none → S.inside w = some x → S.Clear f i x := by
  cases hm with
  | stay hw hl' =>
    refine iff_of_true (h.stay (.inr hw)) fun x hi hx => ?_
    rw [hw, hi] at hx
    cases hx
  | enter x hi hw ha =>
    rw [h.enter_iff hl hi hw ha]
    refine ⟨fun hc y _ hy => ?_, fun hc => hc x hi hw⟩
    rw [hw] at hy
    exact Option.some.inj hy ▸ hc
  | leave x hi hw hl' =>
    refine iff_of_true (h.stay (.inl hw)) fun y _ hy => ?_
    rw [hw] at hy
    cases hy

end Sections

end YXTWebCpp
