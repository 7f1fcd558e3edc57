import YXTWebCpp.IOManager.Workers

/-!
# Stopping the scheduler

`Scheduler::stop` sets `m_stopping`, returns if `stopping` is true at once, tickles the workers,
lets the calling thread work if it is one of the workers (`use_caller`), and joins the threads of
the pool.

* `Stopping` : the workers and the thread that calls `stop`.
* `Stopping.system` : its steps among those of the workers and the other threads.
* `NotIdle` : the first call of `stopping` in `stop` returns false, or every thread of the pool has
  left `run`.
* `stop_waits` : **then no thread of the pool is in `run` when `stop` has returned**, and only then.
-/

namespace YXTWebCpp

namespace IOManager

open Scheduler

variable {ι F C : Type*}

/-- Where `stopping` stands: what it reads next. -/
inductive StopTest where
  | getNextTimer | readPending | schedStopping
  deriving DecidableEq, Repr

/-- The next read in `IOManager::stopping` at clock `now`: where it stands then, or its result. -/
def StopTest.read (g : Shared F C) (now : ℕ) : StopTest → Except Bool StopTest
  | .getNextTimer => if g.tm.getNextTimer now = 2 ^ 64 - 1 then .ok .readPending else .error false
  | .readPending => if g.pending = 0 then .ok .schedStopping else .error false
  | .schedStopping => .error g.schedStopping

/-- Where the thread that calls `stop` stands. -/
inductive StopPc where
  /-- It has not called `stop`. -/
  | before
  /-- In the first call of `stopping`. -/
  | first (t : StopTest)
  /-- About to call `tickle` so many times. -/
  | tickling (k : ℕ)
  /-- In the second call of `stopping`. -/
  | second (t : StopTest)
  /-- In `m_rootFiber->call()`. -/
  | calling
  /-- Joining the threads of the pool. -/
  | joining
  /-- `stop` has returned. -/
  | returned
  deriving DecidableEq, Repr

/-- The workers and the thread that calls `stop`. -/
structure Stopping (ι F C : Type*) where
  /-- The workers. -/
  pool : Pool ι (Shared F C) (Worker F C)
  /-- The thread that calls `stop`. -/
  pc : StopPc

/-- The steps. -/
inductive StopAct (ι F C : Type*) where
  /-- A step of a worker or of another thread. -/
  | pool (a : PoolAct ι (WorkerAct F C) (Outside F C))
  /-- `stop` sets `m_stopping`. -/
  | stop
  /-- The next read in `stopping`. -/
  | read (now : ℕ)
  /-- The next `tickle`, or what comes after the last one. -/
  | tickle
  /-- `run` has returned in the root fiber. -/
  | back
  /-- The threads are joined. -/
  | join

namespace Stopping

/-- Every thread of the pool has left `run`; the calling thread `root` is not of the pool. -/
def AllLeft (root : Option ι) (s : Stopping ι F C) : Prop :=
  ∀ i, root ≠ some i → (s.pool.thread i).pc = .left

instance [Fintype ι] [DecidableEq ι] [DecidableEq F] [DecidableEq C] (root : Option ι)
    (s : Stopping ι F C) : Decidable (s.AllLeft root) :=
  inferInstanceAs (Decidable (∀ i, root ≠ some i → (s.pool.thread i).pc = .left))

/-- With `use_caller` the calling thread is the worker `root`, which works only in
`m_rootFiber->call()`.  Only one thread calls `stop`. -/
def mayStep [DecidableEq ι] (root : Option ι) (pc : StopPc) :
    PoolAct ι (WorkerAct F C) (Outside F C) → Bool
  | .thread i _ => decide (root = some i → pc = .calling)
  | .env .stop => false
  | .env _ => true

/-- `stop` called by a thread among the workers and the other threads. -/
def system [Fintype ι] [DecidableEq ι] [DecidableEq F] [DecidableEq C] (tid : ι → ℤ)
    (root : Option ι) : System (Stopping ι F C) (StopAct ι F C) where
  init s := Started s.pool ∧ s.pc = .before
  step s a :=
    match a with
    | .pool a =>
      if mayStep root s.pc a then ((workers tid).step s.pool a).map fun p => ⟨p, s.pc⟩ else none
    | .stop =>
      match s.pc with
      | .before => ((workers tid).step s.pool (.env .stop)).map fun p => ⟨p, .first .getNextTimer⟩
      | _ => none
    | .read now =>
      match s.pc with
      | .first t =>
        match t.read s.pool.shared now with
        | .ok t => some ⟨s.pool, .first t⟩
        | .error true => some ⟨s.pool, .returned⟩
        | .error false =>
          some ⟨s.pool, .tickling (Finset.univ.filter fun i => root ≠ some i).card⟩
      | .second t =>
        match t.read s.pool.shared now with
        | .ok t => some ⟨s.pool, .second t⟩
        | .error true => some ⟨s.pool, .joining⟩
        | .error false => some ⟨s.pool, .calling⟩
      | _ => none
    | .tickle =>
      match s.pc with
      | .tickling (k + 1) =>
        ((workers tid).step s.pool (.env .tickle)).map fun p => ⟨p, .tickling k⟩
      | .tickling 0 => some ⟨s.pool, if root.isSome then .second .getNextTimer else .joining⟩
      | _ => none
    | .back =>
      if s.pc = .calling ∧ ∀ i, root = some i → (s.pool.thread i).pc = .left then
        some ⟨s.pool, .joining⟩
      else none
    | .join => if s.pc = .joining ∧ s.AllLeft root then some ⟨s.pool, .returned⟩ else none

/-- The last read of the first `stopping` in `stop` finds something to do, unless every thread of
the pool has left `run`. -/
def NotIdle (root : Option ι) (s : Stopping ι F C) : StopAct ι F C → Prop
  | .read _ => s.pc = .first .schedStopping →
    s.pool.shared.schedStopping = false ∨ s.AllLeft root
  | _ => True

instance [Fintype ι] [DecidableEq ι] [DecidableEq F] [DecidableEq C] (root : Option ι)
    (s : Stopping ι F C) : (a : StopAct ι F C) → Decidable (NotIdle root s a)
  | .read _ => inferInstanceAs (Decidable (_ → _ ∨ _))
  | .pool _ | .stop | .tickle | .back | .join => inferInstanceAs (Decidable True)

end Stopping

/-- A worker that has left stays out. -/
theorem WorkerStep.left {tid : ℤ} {g g' : Shared F C} {w w' : Worker F C} {a : WorkerAct F C}
    (h : WorkerStep tid g a w g' w') (hw : w.pc = .left) : w'.pc = .left := by
  cases h with
  | leave => rfl
  | tickleTest => exact hw
  | tickleWrite => exact hw
  | _ => cases hw

namespace Stopping

variable {tid : ι → ℤ} {root : Option ι} {s s' : Stopping ι F C}

theorem AllLeft.pool [DecidableEq ι] (h : s.AllLeft root)
    {a : PoolAct ι (WorkerAct F C) (Outside F C)} {p : Pool ι (Shared F C) (Worker F C)}
    (hst : (workers tid).step s.pool a = some p) (pc : StopPc) : AllLeft root ⟨p, pc⟩ := by
  rcases interleave_cases hst with ⟨i, b, g, w, -, hstep, rfl⟩ | ⟨e, g, -, -, rfl⟩
  · intro j hj
    by_cases hji : j = i
    · subst hji
      simp only [Function.update_self]
      exact (Worker.step_cases hstep).left (h j hj)
    · simp only [Function.update_of_ne hji]
      exact h j hj
  · exact h

variable [Fintype ι] [DecidableEq ι] [DecidableEq F] [DecidableEq C]

/-- `stop` returns early at the last read of its first `stopping`, or after the join. -/
theorem returned_cases {a : StopAct ι F C} (hst : (system tid root).step s a = some s')
    (hpc : s'.pc = .returned) :
    (∃ b, a = .pool b ∧ s.pc = .returned ∧ (workers tid).step s.pool b = some s'.pool) ∨
    (∃ now, a = .read now ∧ s.pc = .first .schedStopping ∧ s.pool.shared.schedStopping = true ∧
      s'.pool = s.pool) ∨
    s'.AllLeft root := by
  cases a with
  | pool b =>
    simp only [system] at hst
    split_ifs at hst
    obtain ⟨p, hp, rfl⟩ := Option.map_eq_some_iff.1 hst
    exact .inl ⟨b, rfl, hpc, hp⟩
  | stop =>
    simp only [system] at hst
    split at hst
    · obtain ⟨p, -, rfl⟩ := Option.map_eq_some_iff.1 hst
      cases hpc
    · cases hst
  | read now =>
    simp only [system] at hst
    split at hst
    · rename_i t ht
      split at hst
      · obtain rfl := Option.some.inj hst
        cases hpc
      · rename_i hread
        obtain rfl := Option.some.inj hst
        cases t with
        | schedStopping =>
          exact .inr (.inl ⟨now, rfl, ht, Except.error.inj hread, rfl⟩)
        | getNextTimer | readPending =>
          simp only [StopTest.read] at hread
          split_ifs at hread
          cases hread
      · obtain rfl := Option.some.inj hst
        cases hpc
    · split at hst
      all_goals
        obtain rfl := Option.some.inj hst
        cases hpc
    · cases hst
  | tickle =>
    simp only [system] at hst
    split at hst
    · obtain ⟨p, -, rfl⟩ := Option.map_eq_some_iff.1 hst
      cases hpc
    · obtain rfl := Option.some.inj hst
      cases root <;> cases hpc
    · cases hst
  | back =>
    simp only [system] at hst
    split_ifs at hst
    obtain rfl := Option.some.inj hst
    cases hpc
  | join =>
    simp only [system] at hst
    split_ifs at hst with hleft
    obtain rfl := Option.some.inj hst
    exact .inr (.inr hleft.2)

theorem allLeft_of_returned (hr : (system tid root).ReachableWhen (NotIdle root) s)
    (hpc : s.pc = .returned) : s.AllLeft root := by
  refine hr.invariant (I := fun s => s.pc = .returned → s.AllLeft root) (fun s hs h => ?_)
    (fun s a s' _ hi hg hst hpc => ?_) hpc
  · rw [hs.2] at h
    cases h
  · rcases returned_cases hst hpc with ⟨b, rfl, hret, hp⟩ | ⟨now, rfl, hfirst, hstop, hpool⟩ | hleft
    · exact (hi hret).pool hp s'.pc
    · rcases hg hfirst with hfalse | hleft
      · rw [hstop] at hfalse
        cases hfalse
      · intro i hi
        rw [hpool]
        exact hleft i hi
    · exact hleft

/-- The last read of the first `stopping`. -/
theorem step_lastRead (hpc : s.pc = .first .schedStopping) {now : ℕ}
    (hst : (system tid root).step s (.read now) = some s') :
    s'.pool = s.pool ∧ (s'.pc = .returned ↔ s.pool.shared.schedStopping = true) := by
  simp only [system, hpc, StopTest.read] at hst
  cases hstop : s.pool.shared.schedStopping with
  | true =>
    rw [hstop] at hst
    obtain rfl := Option.some.inj hst
    exact ⟨rfl, by simp⟩
  | false =>
    rw [hstop] at hst
    obtain rfl := Option.some.inj hst
    exact ⟨rfl, by simp⟩

/-- **`stop` waits for its workers** in every run in which its first `stopping` finds something to
do, unless every thread of the pool has left: when it has returned, no thread of the pool is in
`run`.  And that is what it takes: at the last read of its first `stopping`, the calling thread goes
on correctly exactly if the condition holds. -/
theorem stop_waits (hr : (system tid root).ReachableWhen (NotIdle root) s) :
    (s.pc = .returned → s.AllLeft root) ∧
      ∀ now s', s.pc = .first .schedStopping → (system tid root).step s (.read now) = some s' →
        ((s'.pc = .returned → s'.AllLeft root) ↔ NotIdle root s (.read now)) := by
  refine ⟨allLeft_of_returned hr, fun now s' hpc hst => ?_⟩
  obtain ⟨hpool, hret⟩ := step_lastRead hpc hst
  have hleft : s'.AllLeft root ↔ s.AllLeft root := by
    unfold AllLeft
    rw [hpool]
  rw [hret, hleft]
  constructor
  · rintro h -
    cases hstop : s.pool.shared.schedStopping with
    | true => exact .inr (h hstop)
    | false => exact .inl rfl
  · rintro h hstop
    refine (h hpc).resolve_left ?_
    rw [hstop]
    exact nofun

/-- The workers after `start`, and `stop` not called yet. -/
def running : Stopping ι F C := ⟨started, .before⟩

/-- `stop` finds a task in the queue, tickles the worker and joins it. -/
def stopBusy : List (StopAct (Fin 1) ℕ ℕ) :=
  List.flatten
    [[.pool (.env (.call (.schedule (.cb (some 7)) (-1)))), .stop, .read 1, .read 1, .read 1,
        .tickle, .tickle],
      (steps 0 [.dequeue, .finish, .enterIdle, .getNextTimer 2, .readPending, .schedStopping,
        .leaveIdle, .dequeue, .enterIdle]).map .pool,
      [.join]]

theorem stop_waits_busy :
    ∃ s, (system (fun _ : Fin 1 => (10 : ℤ)) none).run (NotIdle none) running stopBusy = some s ∧
      s.pc = .returned ∧ s.AllLeft none := by
  obtain ⟨s, hrun⟩ : ∃ s, (system (fun _ : Fin 1 => (10 : ℤ)) none).run (NotIdle none) running
      stopBusy = some s :=
    Option.isSome_iff_exists.1 (by decide +kernel)
  have hs : ((system (fun _ : Fin 1 => (10 : ℤ)) none).run (NotIdle none) running stopBusy).map
      (fun s => s.pc) = some .returned := by
    decide +kernel
  rw [hrun] at hs
  have hpc := Option.some.inj hs
  have hr : (system (fun _ : Fin 1 => (10 : ℤ)) none).ReachableWhen (NotIdle none) s :=
    System.reachableWhen_of_run ⟨⟨⟨_, rfl⟩, fun _ => rfl⟩, rfl⟩ hrun
  exact ⟨s, hrun, hpc, (stop_waits hr).1 hpc⟩

/-- The worker waits in `epoll_wait` and there is nothing to do: `stop` returns at once. -/
def stopIdle : List (StopAct (Fin 1) ℕ ℕ) :=
  List.flatten
    [(steps 0 [.dequeue, .enterIdle, .getNextTimer 1, .readPending, .schedStopping]).map .pool,
      [.stop, .read 1, .read 1, .read 1]]

theorem stop_returns_early :
    ∃ s : Stopping (Fin 1) ℕ ℕ, (system (fun _ => (10 : ℤ)) none).Reachable s ∧
      s.pc = .returned ∧ (s.pool.thread 0).pc = .epollWait ∧ ¬ s.AllLeft none := by
  have hs : ((system (fun _ : Fin 1 => (10 : ℤ)) none).run (fun _ _ => True) running stopIdle).map
      (fun s => (s.pc, (s.pool.thread 0).pc)) = some (.returned, .epollWait) := by
    decide +kernel
  obtain ⟨s, hrun, hs⟩ := Option.map_eq_some_iff.1 hs
  obtain ⟨h1, h2⟩ := Prod.mk.inj hs
  refine ⟨s, System.reachableWhen_of_run ⟨⟨⟨_, rfl⟩, fun _ => rfl⟩, rfl⟩ hrun, h1, h2, fun h => ?_⟩
  have := h 0 nofun
  rw [h2] at this
  cases this

end Stopping

end IOManager

end YXTWebCpp
