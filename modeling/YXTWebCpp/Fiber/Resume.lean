import YXTWebCpp.Scheduler.Queue

/-!
# Resuming a fiber

A fiber that waits registers itself (`addEvent`, the timer of a hooked sleep, or `schedule` in
`switchTo`) and then calls `YieldToHold`, which stores `HOLD` in its state and switches to the
scheduler's fiber.  Between these steps another worker can dispatch the event or the timer, dequeue
the fiber in `run` and call `swapIn`.

* `Resume` : the states of the fibers, the task queue, who waits, and where each worker stands.
* `Resume.system` : the steps of the workers.
* `AfterYield` : no fiber is dequeued before it has switched away.
* `swapIn_suspended` : **then every fiber that is resumed is suspended**: it is `INIT` or `HOLD`,
  and not current on any thread.
-/

namespace YXTWebCpp

namespace Fiber

open Scheduler

variable {ι F C : Type*}

/-- `Fiber::State` -/
inductive State where
  | init | exec | hold | term
  deriving DecidableEq, Repr

/-- Where a worker stands. -/
inductive Pc (F : Type*) where
  /-- In `run` without a task, or in its idle fiber. -/
  | free
  /-- It has dequeued a task and is about to call `swapIn` on the fiber. -/
  | dequeued (f : F)
  /-- The fiber is running. -/
  | running (f : F)
  /-- The fiber has registered itself, and is about to call `YieldToHold`. -/
  | registered (f : F)
  /-- `YieldToHold` has stored `HOLD`, and is about to switch. -/
  | yielding (f : F)
  /-- The function of the fiber has returned: `TERM` is stored, and the fiber is about to switch. -/
  | finishing (f : F)
  deriving DecidableEq, Repr

namespace Pc

/-- The fiber a worker has in hand. -/
def fiber : Pc F → Option F
  | .free => none
  | .dequeued f | .running f | .registered f | .yielding f | .finishing f => some f

/-- `t_fiber` of the worker, if it is the fiber of a task. -/
def current : Pc F → Option F
  | .free | .dequeued _ => none
  | .running f | .registered f | .yielding f | .finishing f => some f

/-- The fiber in hand has registered itself and is still on its stack. -/
def waits : Pc F → Bool
  | .registered _ | .yielding _ => true
  | _ => false

/-- The worker is in its idle fiber or runs a task, and may schedule another fiber. -/
def mayWake : Pc F → Bool
  | .free | .running _ => true
  | _ => false

/-- The states the fiber in hand may be in. -/
def Fits : Pc F → State → Prop
  | .free, _ => True
  | .dequeued _, st => st = .init ∨ st = .hold
  | .running _, st | .registered _, st => st = .exec
  | .yielding _, st => st = .hold
  | .finishing _, st => st = .term

end Pc

/-- The workers `ι` of a scheduler and their fibers. -/
structure Resume (ι F C : Type*) where
  /-- `m_state` of the fibers. -/
  state : F → State
  /-- `m_fibers` -/
  fibers : List (FiberAndThread F C)
  /-- The fibers that event contexts and timer callbacks hold. -/
  waiting : List F
  /-- The workers. -/
  worker : ι → Pc F

/-- The steps. -/
inductive ResumeAct (ι F C : Type*) where
  /-- Somebody creates a fiber and schedules it. -/
  | spawn (f : F) (thread : ℤ)
  /-- Somebody schedules a callback. -/
  | scheduleCb (c : C) (thread : ℤ)
  /-- Worker `i` takes a task; a callback gets the new fiber `f`. -/
  | dequeue (i : ι) (f : F)
  | swapIn (i : ι)
  /-- The fiber on worker `i` registers itself with `addEvent`, or with `addTimer` in a sleep. -/
  | register (i : ι)
  /-- The fiber on worker `i` schedules itself for another thread in `switchTo`. -/
  | switchTo (i : ι) (thread : ℤ)
  /-- Worker `i` dispatches the event a fiber waits for, or runs the callback of its timer. -/
  | wake (i : ι) (f : F)
  /-- `YieldToHold` stores the state. -/
  | yieldToHold (i : ι)
  /-- The function of the fiber returns. -/
  | finish (i : ι)
  | swapOut (i : ι)

namespace Resume

/-- The fibers that somebody is going to resume: those registered and those queued. -/
def tokens (s : Resume ι F C) : List F := s.waiting ++ s.fibers.filterMap FiberAndThread.fiber

/-- Nobody knows the fiber. -/
def Unused (s : Resume ι F C) (f : F) : Prop := f ∉ s.tokens ∧ ∀ i, (s.worker i).fiber ≠ some f

instance [DecidableEq F] [Fintype ι] (s : Resume ι F C) (f : F) : Decidable (s.Unused f) :=
  inferInstanceAs (Decidable (_ ∧ _))

/-- `swapIn` finds the fiber suspended: its state is `INIT` or `HOLD`, and no thread has it as its
current fiber. -/
def Suspended (s : Resume ι F C) (f : F) : Prop :=
  (s.state f = .init ∨ s.state f = .hold) ∧ ∀ i, (s.worker i).current ≠ some f

instance [DecidableEq F] [Fintype ι] (s : Resume ι F C) (f : F) : Decidable (s.Suspended f) :=
  inferInstanceAs (Decidable (_ ∧ _))

/-- The workers as a transition system; worker `i` is the thread `tid i`.  After `swapIn` on a fiber
that is not suspended nothing is known any more, and the run ends. -/
def system [DecidableEq ι] [DecidableEq F] [Fintype ι] (tid : ι → ℤ) :
    System (Resume ι F C) (ResumeAct ι F C) where
  init s := s.fibers = [] ∧ s.waiting = [] ∧ ∀ i, s.worker i = .free
  step s a :=
    match a with
    | .spawn f thread =>
      if s.Unused f then
        some { s with
          state := Function.update s.state f .init
          fibers := (scheduleNoLock s.fibers (.fiber (some f)) thread).2 }
      else none
    | .scheduleCb c thread =>
      some { s with fibers := (scheduleNoLock s.fibers (.cb (some c)) thread).2 }
    | .dequeue i f =>
      if s.worker i = .free then
        let r := dequeue FiberAndThread.threadID (tid i) s.fibers
        match r.task with
        | none => some { s with fibers := r.fibers }
        | some ft =>
          match ft.fiber with
          | some g => some { s with
              fibers := r.fibers
              worker := Function.update s.worker i (.dequeued g) }
          | none =>
            if s.Unused f then
              some { s with
                state := Function.update s.state f .init
                fibers := r.fibers
                worker := Function.update s.worker i (.dequeued f) }
            else none
      else none
    | .swapIn i =>
      match s.worker i with
      | .dequeued f =>
        if s.Suspended f then
          some { s with
            state := Function.update s.state f .exec
            worker := Function.update s.worker i (.running f) }
        else none
      | _ => none
    | .register i =>
      match s.worker i with
      | .running f => some { s with
          waiting := s.waiting ++ [f]
          worker := Function.update s.worker i (.registered f) }
      | _ => none
    | .switchTo i thread =>
      match s.worker i with
      | .running f =>
        if thread = -1 ∨ thread = tid i then none
        else some { s with
          fibers := (scheduleNoLock s.fibers (.fiber (some f)) thread).2
          worker := Function.update s.worker i (.registered f) }
      | _ => none
    | .wake i f =>
      if (s.worker i).mayWake ∧ f ∈ s.waiting then
        some { s with
          waiting := s.waiting.erase f
          fibers := (scheduleNoLock s.fibers (.fiber (some f)) (-1)).2 }
      else none
    | .yieldToHold i =>
      match s.worker i with
      | .registered f => some { s with
          state := Function.update s.state f .hold
          worker := Function.update s.worker i (.yielding f) }
      | _ => none
    | .finish i =>
      match s.worker i with
      | .running f => some { s with
          state := Function.update s.state f .term
          worker := Function.update s.worker i (.finishing f) }
      | _ => none
    | .swapOut i =>
      match s.worker i with
      | .yielding _ | .finishing _ => some { s with worker := Function.update s.worker i .free }
      | _ => none

/-- No fiber is dequeued while it is still current on the worker on which it has registered
itself. -/
def AfterYield (tid : ι → ℤ) (s : Resume ι F C) : ResumeAct ι F C → Prop
  | .dequeue i _ =>
    ∀ f ∈ (dequeue FiberAndThread.threadID (tid i) s.fibers).task.bind FiberAndThread.fiber,
      ∀ j, (s.worker j).current ≠ some f
  | _ => True

instance [DecidableEq F] [Fintype ι] (tid : ι → ℤ) (s : Resume ι F C) :
    (a : ResumeAct ι F C) → Decidable (AfterYield tid s a)
  | .dequeue i _ => inferInstanceAs (Decidable (∀ f ∈
      (dequeue FiberAndThread.threadID (tid i) s.fibers).task.bind FiberAndThread.fiber,
        ∀ j, (s.worker j).current ≠ some f))
  | .spawn _ _ | .scheduleCb _ _ | .swapIn _ | .register _ | .switchTo _ _ | .wake _ _
  | .yieldToHold _ | .finish _ | .swapOut _ => inferInstanceAs (Decidable True)

/-! ### The invariant -/

/-- Every fiber is in one hand: on one worker, or among those to be resumed, or with nobody. -/
structure Inv (s : Resume ι F C) : Prop where
  nodup : s.tokens.Nodup
  unique : ∀ i j f, (s.worker i).fiber = some f → (s.worker j).fiber = some f → i = j
  token : ∀ i f, (s.worker i).fiber = some f → (f ∈ s.tokens ↔ (s.worker i).waits = true)
  fits : ∀ i f, (s.worker i).fiber = some f → (s.worker i).Fits (s.state f)
  suspended : ∀ f ∈ s.tokens, (∀ i, (s.worker i).fiber ≠ some f) →
    s.state f = .init ∨ s.state f = .hold

section

variable {s s' : Resume ι F C} {tid : ι → ℤ}

/-- A step of worker `i`, which has the fiber `f` in its hand afterwards, and nothing else
before. -/
theorem Inv.move [DecidableEq ι] [DecidableEq F] (hi : s.Inv) {i : ι} {f : F} {p : Pc F}
    {st : State}
    {fibers : List (FiberAndThread F C)} {waiting : List F}
    (hother : ∀ j, j ≠ i → (s.worker j).fiber ≠ some f)
    (hbefore : ∀ g, (s.worker i).fiber = some g → g = f) (hp : p.fiber = some f) (hfits : p.Fits st)
    (hnodup : (waiting ++ fibers.filterMap FiberAndThread.fiber).Nodup)
    (hsame : ∀ g, g ≠ f →
      (g ∈ waiting ++ fibers.filterMap FiberAndThread.fiber ↔ g ∈ s.tokens))
    (htoken : f ∈ waiting ++ fibers.filterMap FiberAndThread.fiber ↔ p.waits = true) :
    Inv (⟨Function.update s.state f st, fibers, waiting, Function.update s.worker i p⟩ :
      Resume ι F C) where
  nodup := hnodup
  unique j k g hj hk := by
    -- whoever else holds a fiber holds another one
    have hne : ∀ j, j ≠ i → (s.worker j).fiber = some g → g ≠ f := by
      rintro j hji hg rfl
      exact hother j hji hg
    simp only [Function.update_apply] at hj hk
    split_ifs at hj hk with hji hki hki
    · rw [hji, hki]
    · exact absurd (Option.some.inj (hj.symm.trans hp)) (hne k hki hk)
    · exact absurd (Option.some.inj (hk.symm.trans hp)) (hne j hji hj)
    · exact hi.unique j k g hj hk
  token j g hj := by
    simp only [Function.update_apply] at hj ⊢
    split_ifs at hj ⊢ with hji
    · obtain rfl : g = f := Option.some.inj (hj.symm.trans hp)
      exact htoken
    · have hgf : g ≠ f := by
        rintro rfl
        exact hother j hji hj
      exact (hsame g hgf).trans (hi.token j g hj)
  fits j g hj := by
    simp only [Function.update_apply] at hj ⊢
    by_cases hji : j = i
    · rw [if_pos hji] at hj ⊢
      obtain rfl : g = f := Option.some.inj (hj.symm.trans hp)
      rwa [if_pos rfl]
    · rw [if_neg hji] at hj ⊢
      have hgf : g ≠ f := by
        rintro rfl
        exact hother j hji hj
      rw [if_neg hgf]
      exact hi.fits j g hj
  suspended g hg hno := by
    simp only [Function.update_apply] at hno ⊢
    have hgf : g ≠ f := by
      rintro rfl
      exact hno i (by rw [if_pos rfl, hp])
    rw [if_neg hgf]
    refine hi.suspended g ((hsame g hgf).1 hg) fun j hj => ?_
    by_cases hji : j = i
    · exact hgf (hbefore g (hji ▸ hj))
    · exact hno j (by rw [if_neg hji, hj])

/-- A worker whose hand holds `f` goes on with it. -/
theorem Inv.advance [DecidableEq ι] [DecidableEq F] (hi : s.Inv) {i : ι} {f : F} {p : Pc F}
    {st : State}
    (hf : (s.worker i).fiber = some f) (hp : p.fiber = some f) (hfits : p.Fits st)
    (hwaits : p.waits = (s.worker i).waits) :
    Inv (⟨Function.update s.state f st, s.fibers, s.waiting, Function.update s.worker i p⟩ :
      Resume ι F C) := by
  refine hi.move (fun j hj h => hj (hi.unique j i f h hf))
    (fun g hg => Option.some.inj (hg.symm.trans hf)) hp hfits hi.nodup (fun _ _ => Iff.rfl) ?_
  rw [hwaits]
  exact hi.token i f hf

/-- Scheduling a fiber makes it one to be resumed. -/
theorem filterMap_schedule_fiber (fibers : List (FiberAndThread F C)) (f : F) (thread : ℤ) :
    (scheduleNoLock fibers (.fiber (some f)) thread).2.filterMap FiberAndThread.fiber =
      fibers.filterMap FiberAndThread.fiber ++ [f] := by
  simp [scheduleNoLock, FiberAndThread.new, FiberAndThread.isTask]

theorem filterMap_schedule_cb (fibers : List (FiberAndThread F C)) (c : C) (thread : ℤ) :
    (scheduleNoLock fibers (.cb (some c)) thread).2.filterMap FiberAndThread.fiber =
      fibers.filterMap FiberAndThread.fiber := by
  simp [scheduleNoLock, FiberAndThread.new, FiberAndThread.isTask]

/-- The fibers to be resumed are the same up to their order. -/
theorem Inv.perm (hi : s.Inv) {fibers : List (FiberAndThread F C)} {waiting : List F}
    (hperm : (waiting ++ fibers.filterMap FiberAndThread.fiber).Perm s.tokens) :
    Inv (⟨s.state, fibers, waiting, s.worker⟩ : Resume ι F C) where
  nodup := hperm.nodup_iff.2 hi.nodup
  unique := hi.unique
  token i f hf := (hperm.mem_iff).trans (hi.token i f hf)
  fits := hi.fits
  suspended f hf := hi.suspended f (hperm.mem_iff.1 hf)

/-- A new fiber is scheduled. -/
theorem Inv.spawn [DecidableEq F] (hi : s.Inv) {f : F} (hf : s.Unused f) (thread : ℤ) :
    Inv (⟨Function.update s.state f .init, (scheduleNoLock s.fibers (.fiber (some f)) thread).2,
      s.waiting, s.worker⟩ : Resume ι F C) := by
  have htokens : s.waiting ++ (scheduleNoLock s.fibers (.fiber (some f)) thread).2.filterMap
      FiberAndThread.fiber = s.tokens ++ [f] := by
    rw [filterMap_schedule_fiber, ← List.append_assoc]
    rfl
  have hmem : ∀ g, g ≠ f → (g ∈ s.tokens ++ [f] ↔ g ∈ s.tokens) := by
    intro g hg
    simp [hg]
  refine ⟨?_, hi.unique, ?_, ?_, ?_⟩
  · unfold tokens
    rw [htokens]
    exact List.nodup_append.2 ⟨hi.nodup, by simp, by
      rintro g hg _ hx rfl
      exact hf.1 (List.mem_singleton.1 hx ▸ hg)⟩
  · rintro i g hg
    have hgf : g ≠ f := by
      rintro rfl
      exact hf.2 i hg
    unfold tokens
    rw [htokens, hmem g hgf]
    exact hi.token i g hg
  · rintro i g hg
    have hgf : g ≠ f := by
      rintro rfl
      exact hf.2 i hg
    simp only [Function.update_of_ne hgf]
    exact hi.fits i g hg
  · rintro g hg hno
    unfold tokens at hg
    rw [htokens] at hg
    by_cases hgf : g = f
    · subst hgf
      exact .inl (Function.update_self ..)
    · simp only [Function.update_of_ne hgf]
      exact hi.suspended g ((hmem g hgf).1 hg) hno

theorem Inv.register [DecidableEq ι] [DecidableEq F] (hi : s.Inv) {i : ι} {f : F}
    (hrun : s.worker i = .running f)
    {fibers : List (FiberAndThread F C)} {waiting : List F}
    (hperm : (waiting ++ fibers.filterMap FiberAndThread.fiber).Perm (f :: s.tokens)) :
    Inv (⟨s.state, fibers, waiting, Function.update s.worker i (.registered f)⟩ :
      Resume ι F C) := by
  have hf : (s.worker i).fiber = some f := by rw [hrun]; rfl
  have hnot : f ∉ s.tokens := by
    rw [hi.token i f hf, hrun]
    simp [Pc.waits]
  have hfits := hi.fits i f hf
  rw [hrun] at hfits
  rw [← Function.update_eq_self f s.state]
  refine hi.move (fun j hj h => hj (hi.unique j i f h hf))
    (fun g hg => Option.some.inj (hg.symm.trans hf)) rfl hfits
    (hperm.nodup_iff.2 (List.nodup_cons.2 ⟨hnot, hi.nodup⟩)) (fun g hg => ?_) ?_
  · rw [hperm.mem_iff]
    simp [hg]
  · rw [hperm.mem_iff]
    simp [Pc.waits]

/-- A worker takes a fiber that nobody has in hand. -/
theorem Inv.take [DecidableEq ι] [DecidableEq F] (hi : s.Inv) {i : ι} {f : F}
    (hfree : s.worker i = .free)
    (hno : ∀ j, (s.worker j).fiber ≠ some f) {fibers : List (FiberAndThread F C)}
    (hperm : (f :: (s.waiting ++ fibers.filterMap FiberAndThread.fiber)).Perm s.tokens) :
    Inv (⟨s.state, fibers, s.waiting, Function.update s.worker i (.dequeued f)⟩ :
      Resume ι F C) := by
  have hnd := List.nodup_cons.1 (hperm.nodup_iff.2 hi.nodup)
  have hst := hi.suspended f (hperm.mem_iff.1 (by simp)) hno
  rw [← Function.update_eq_self f s.state]
  refine hi.move (fun j _ => hno j) (fun g hg => ?_) rfl hst hnd.2 (fun g hg => ?_) ?_
  · rw [hfree] at hg
    cases hg
  · rw [← hperm.mem_iff]
    simp [hg]
  · simpa [Pc.waits] using hnd.1

/-- A worker switches away from its fiber. -/
theorem Inv.swapOut [DecidableEq ι] (hi : s.Inv) {i : ι} {f : F} (hf : (s.worker i).fiber = some f)
    (hst : (s.worker i).waits = true → s.state f = .hold) :
    Inv (⟨s.state, s.fibers, s.waiting, Function.update s.worker i .free⟩ : Resume ι F C) := by
  have hold : ∀ j g, (Function.update s.worker i .free j).fiber = some g →
      j ≠ i ∧ (s.worker j).fiber = some g := by
    rintro j g hj
    by_cases hji : j = i
    · rw [hji, Function.update_self] at hj
      cases hj
    · rw [Function.update_of_ne hji] at hj
      exact ⟨hji, hj⟩
  refine ⟨hi.nodup, ?_, ?_, ?_, ?_⟩
  · rintro j k g hj hk
    exact hi.unique j k g (hold j g hj).2 (hold k g hk).2
  · rintro j g hj
    obtain ⟨hji, hj⟩ := hold j g hj
    simp only [Function.update_of_ne hji]
    exact hi.token j g hj
  · rintro j g hj
    obtain ⟨hji, hj⟩ := hold j g hj
    simp only [Function.update_of_ne hji]
    exact hi.fits j g hj
  · rintro g hg hno
    by_cases hgf : g = f
    · subst hgf
      exact .inr (hst ((hi.token i g hf).1 hg))
    · refine hi.suspended g hg fun j hj => ?_
      by_cases hji : j = i
      · rw [hji, hf] at hj
        exact hgf (Option.some.inj hj).symm
      · exact hno j (by simpa only [Function.update_of_ne hji] using hj)

theorem Inv.dequeue [DecidableEq ι] [DecidableEq F] [Fintype ι] (hi : s.Inv) {i : ι} {f : F}
    (hg : AfterYield tid s (.dequeue i f))
    (hst : (system tid).step s (.dequeue i f) = some s') : s'.Inv := by
  simp only [system] at hst
  by_cases hfree : s.worker i = .free
  swap
  · rw [if_neg hfree] at hst
    cases hst
  rw [if_pos hfree] at hst
  simp only [AfterYield] at hg
  rcases dequeue_cases FiberAndThread.threadID (tid i) s.fibers with
    ⟨before, ft, after, hl, -, -, heq⟩ | ⟨-, heq⟩
  · rw [heq] at hst hg
    cases hft : ft.fiber with
    | some g =>
      simp only [hft] at hst
      obtain rfl := Option.some.inj hst
      have hperm : (g :: (s.waiting ++ (before ++ after).filterMap FiberAndThread.fiber)).Perm
          s.tokens := by
        unfold tokens
        rw [hl, List.filterMap_append, List.filterMap_append, List.filterMap_cons_some hft]
        simp only [← List.append_assoc]
        exact List.perm_middle.symm
      -- the fiber is among those to be resumed, so that only a worker it waits on could hold it
      have hno : ∀ j, (s.worker j).fiber ≠ some g := by
        intro j hj
        have hwaits := (hi.token j g hj).1 (hperm.mem_iff.1 (by simp))
        refine hg g (by simp [hft]) j ?_
        cases hpc : s.worker j <;> rw [hpc] at hj hwaits <;> first | exact hj | cases hwaits
      exact hi.take hfree hno hperm
    | none =>
      simp only [hft] at hst
      split_ifs at hst with hun
      obtain rfl := Option.some.inj hst
      have htokens : s.waiting ++ (before ++ after).filterMap FiberAndThread.fiber = s.tokens := by
        unfold tokens
        rw [hl, List.filterMap_append, List.filterMap_append, List.filterMap_cons_none hft]
      refine hi.move (fun j _ => hun.2 j) (fun g hg => ?_) rfl (.inl rfl)
        (by rw [htokens]; exact hi.nodup) (fun g _ => by rw [htokens]) ?_
      · rw [hfree] at hg
        cases hg
      · rw [htokens]
        simpa [Pc.waits] using hun.1
  · rw [heq] at hst
    obtain rfl := Option.some.inj hst
    exact hi

theorem Inv.step [DecidableEq ι] [DecidableEq F] [Fintype ι] (hi : s.Inv) {a : ResumeAct ι F C}
    (hg : AfterYield tid s a) (hst : (system tid).step s a = some s') : s'.Inv := by
  cases a with
  | spawn f thread =>
    simp only [system] at hst
    split_ifs at hst with hun
    obtain rfl := Option.some.inj hst
    exact hi.spawn hun thread
  | scheduleCb c thread =>
    obtain rfl := Option.some.inj hst
    exact hi.perm (by rw [filterMap_schedule_cb]; exact .refl _)
  | dequeue i f => exact hi.dequeue hg hst
  | swapIn i =>
    simp only [system] at hst
    split at hst
    · rename_i f hpc
      split_ifs at hst with hsus
      obtain rfl := Option.some.inj hst
      exact hi.advance (by rw [hpc]; rfl) rfl rfl (by rw [hpc]; rfl)
    · cases hst
  | register i =>
    simp only [system] at hst
    split at hst
    · rename_i f hpc
      obtain rfl := Option.some.inj hst
      refine hi.register hpc ?_
      unfold tokens
      rw [List.append_assoc]
      exact List.perm_middle
    · cases hst
  | switchTo i thread =>
    simp only [system] at hst
    split at hst
    · rename_i f hpc
      split_ifs at hst
      obtain rfl := Option.some.inj hst
      refine hi.register hpc ?_
      unfold tokens
      rw [filterMap_schedule_fiber, ← List.append_assoc]
      exact List.perm_append_singleton f _
    · cases hst
  | wake i f =>
    simp only [system] at hst
    split_ifs at hst with hw
    obtain rfl := Option.some.inj hst
    refine hi.perm ?_
    rw [filterMap_schedule_fiber, ← List.append_assoc]
    calc (s.waiting.erase f ++ s.fibers.filterMap FiberAndThread.fiber ++ [f]).Perm
          (f :: (s.waiting.erase f ++ s.fibers.filterMap FiberAndThread.fiber)) :=
        List.perm_append_singleton f _
      _ |>.Perm (s.waiting ++ s.fibers.filterMap FiberAndThread.fiber) :=
        (List.perm_cons_erase hw.2).symm.append_right _
  | yieldToHold i =>
    simp only [system] at hst
    split at hst
    · rename_i f hpc
      obtain rfl := Option.some.inj hst
      exact hi.advance (by rw [hpc]; rfl) rfl rfl (by rw [hpc]; rfl)
    · cases hst
  | finish i =>
    simp only [system] at hst
    split at hst
    · rename_i f hpc
      obtain rfl := Option.some.inj hst
      exact hi.advance (by rw [hpc]; rfl) rfl rfl (by rw [hpc]; rfl)
    · cases hst
  | swapOut i =>
    simp only [system] at hst
    split at hst
    · rename_i f hpc
      obtain rfl := Option.some.inj hst
      have hfits := hi.fits i f (by rw [hpc]; rfl)
      rw [hpc] at hfits
      exact hi.swapOut (by rw [hpc]; rfl) fun _ => hfits
    · rename_i f hpc
      obtain rfl := Option.some.inj hst
      exact hi.swapOut (f := f) (by rw [hpc]; rfl) fun h => by rw [hpc] at h; cases h
    · cases hst

theorem inv_init [DecidableEq ι] [DecidableEq F] [Fintype ι] (hs : (system tid).init s) :
    s.Inv := by
  obtain ⟨hfibers, hwaiting, hfree⟩ := hs
  have hno : ∀ i f, (s.worker i).fiber ≠ some f := by
    rintro i f h
    rw [hfree] at h
    cases h
  have htokens : s.tokens = [] := by simp [tokens, hfibers, hwaiting]
  exact ⟨by simp [htokens], fun i _ f h => absurd h (hno i f), fun i f h => absurd h (hno i f),
    fun i f h => absurd h (hno i f), fun f h => by simp [htokens] at h⟩

/-- A fiber that a worker has dequeued is suspended. -/
theorem Inv.suspended_of_dequeued (hi : s.Inv) {i : ι} {f : F} (hpc : s.worker i = .dequeued f) :
    s.Suspended f := by
  have hf : (s.worker i).fiber = some f := by rw [hpc]; rfl
  have hfits := hi.fits i f hf
  rw [hpc] at hfits
  refine ⟨hfits, fun j hj => ?_⟩
  have hfj : (s.worker j).fiber = some f := by
    cases h : s.worker j <;> rw [h] at hj <;> first | exact hj | cases hj
  obtain rfl := hi.unique j i f hfj hf
  rw [hpc] at hj
  cases hj

end

/-- **No fiber is resumed while it is running or after it has finished**, in every run in which no
fiber is dequeued before it has switched away: whenever a worker is about to call `swapIn`, the
state of the fiber is `INIT` or `HOLD`, and the fiber is not current on any thread. -/
theorem swapIn_suspended [DecidableEq ι] [DecidableEq F] [Fintype ι] {tid : ι → ℤ}
    {s : Resume ι F C} (hr : (system tid).ReachableWhen (AfterYield tid) s) {i : ι} {f : F}
    (hpc : s.worker i = .dequeued f) : s.Suspended f :=
  (hr.invariant (fun _ hs => inv_init hs) fun _ _ _ _ hi hg hst =>
    hi.step hg hst : s.Inv).suspended_of_dequeued hpc

/-- No fiber, two workers. -/
def start : Resume (Fin 2) ℕ ℕ := ⟨fun _ => .init, [], [], fun _ => .free⟩

/-- A fiber registers itself on worker 0 and yields; worker 1 wakes it and is about to resume it. -/
theorem swapIn_suspended_wake :
    ∃ s, (system fun i : Fin 2 => (i.val : ℤ)).run (AfterYield fun i => (i.val : ℤ)) start
        [.spawn 7 (-1), .dequeue 0 0, .swapIn 0, .register 0, .yieldToHold 0, .swapOut 0, .wake 1 7,
          .dequeue 1 0] = some s ∧ s.worker 1 = .dequeued 7 ∧ s.Suspended 7 := by
  obtain ⟨s, hrun⟩ : ∃ s, (system fun i : Fin 2 => (i.val : ℤ)).run
      (AfterYield fun i => (i.val : ℤ)) start
      [.spawn 7 (-1), .dequeue 0 0, .swapIn 0, .register 0, .yieldToHold 0, .swapOut 0, .wake 1 7,
        .dequeue 1 0] = some s :=
    Option.isSome_iff_exists.1 (by decide +kernel)
  have hs : ((system fun i : Fin 2 => (i.val : ℤ)).run (AfterYield fun i => (i.val : ℤ)) start
      [.spawn 7 (-1), .dequeue 0 0, .swapIn 0, .register 0, .yieldToHold 0, .swapOut 0, .wake 1 7,
        .dequeue 1 0]).map (fun s => s.worker 1) = some (.dequeued 7) := by
    decide +kernel
  rw [hrun] at hs
  have hpc := Option.some.inj hs
  exact ⟨s, hrun, hpc,
    swapIn_suspended (System.reachableWhen_of_run ⟨rfl, rfl, fun _ => rfl⟩ hrun) hpc⟩

/-- The fiber has registered itself on worker 0 and not yielded yet when worker 1, which has
dispatched its event, is about to resume it. -/
theorem swapIn_running :
    ∃ s : Resume (Fin 2) ℕ ℕ, (system fun i : Fin 2 => (i.val : ℤ)).Reachable s ∧
      s.worker 1 = .dequeued 7 ∧ s.state 7 = .exec ∧ (s.worker 0).current = some 7 ∧
      ¬ s.Suspended 7 := by
  have hs : ((system fun i : Fin 2 => (i.val : ℤ)).run (fun _ _ => True) start
      [.spawn 7 (-1), .dequeue 0 0, .swapIn 0, .register 0, .wake 1 7, .dequeue 1 0]).map
        (fun s => (s.worker 1, s.state 7, (s.worker 0).current)) =
      some (.dequeued 7, .exec, some 7) := by
    decide +kernel
  obtain ⟨s, hrun, hs⟩ := Option.map_eq_some_iff.1 hs
  obtain ⟨h1, h2⟩ := Prod.mk.inj hs
  obtain ⟨h2, h3⟩ := Prod.mk.inj h2
  exact ⟨s, System.reachableWhen_of_run ⟨rfl, rfl, fun _ => rfl⟩ hrun, h1, h2, h3,
    fun h => h.2 0 h3⟩

end Resume

end Fiber

end YXTWebCpp
