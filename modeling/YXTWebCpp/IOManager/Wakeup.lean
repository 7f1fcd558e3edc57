import YXTWebCpp.IOManager.Workers

/-!
# Waking a worker for a task

A thread that schedules a task onto an empty queue calls `tickle`, and so does a worker that leaves
tasks behind in the queue.  `tickle` writes to the pipe only if some worker is idle; a worker goes
from every task straight into `epoll_wait`, without looking at the queue again.

* `Stalled` : every worker is in `epoll_wait`, there is a task for one of them, and nothing is going
  to wake it.
* `KeepsAwake` : whoever finds no idle worker in `tickle` finds one that is about to look at the
  queue.
* `not_stalled` : **then no run gets stalled.**
-/

namespace YXTWebCpp

namespace IOManager

open Scheduler

variable {ι F C : Type*}

/-- The queue holds a task that some worker may run. -/
def Runnable (tid : ι → ℤ) (g : Shared F C) : Prop :=
  ∃ ft ∈ g.fibers, ∃ i, ¬ Elsewhere FiberAndThread.threadID (tid i) ft

instance [Fintype ι] (tid : ι → ℤ) (g : Shared F C) : Decidable (Runnable tid g) :=
  inferInstanceAs (Decidable (∃ ft ∈ g.fibers, ∃ i, ¬ Elsewhere FiberAndThread.threadID (tid i) ft))

/-- A lost wake-up: every worker is inside `epoll_wait`, the queue holds a task that some worker may
run, the tickle pipe is empty, and no call of `tickle` is in progress. -/
structure Stalled (tid : ι → ℤ) (s : Pool ι (Shared F C) (Worker F C)) : Prop where
  waiting : ∀ i, (s.thread i).pc = .epollWait ∧ (s.thread i).tick = .none
  runnable : Runnable tid s.shared
  pipe : s.shared.pipe = 0
  testing : s.shared.testing = 0
  writing : s.shared.writing = 0

/-- The step looks at `m_idleThreadCount` in `tickle`. -/
def tests : PoolAct ι (WorkerAct F C) (Outside F C) → Bool
  | .thread _ .tickleTest | .env .tickleTest => true
  | _ => false

/-- The step appends to the queue. -/
def pushes : PoolAct ι (WorkerAct F C) (Outside F C) → Bool
  | .thread _ (.code (.call (.schedule _ _))) | .thread _ (.code .scheduleCbs)
  | .thread _ (.code (.trigger _)) | .env (.call (.schedule _ _)) => true
  | _ => false

/-- Whoever looks for an idle worker while there is a task to run finds one, or there is a worker
that is about to look at the queue; and a task is scheduled behind others only if there is one to
run among them. -/
def KeepsAwake (tid : ι → ℤ) (s : Pool ι (Shared F C) (Worker F C))
    (a : PoolAct ι (WorkerAct F C) (Outside F C)) : Prop :=
  (tests a = true → Runnable tid s.shared →
    0 < s.shared.idle ∨ ∃ i, (s.thread i).pc = .top) ∧
  (pushes a = true → s.shared.fibers ≠ [] → Runnable tid s.shared)

instance [Fintype ι] [DecidableEq F] [DecidableEq C] (tid : ι → ℤ)
    (s : Pool ι (Shared F C) (Worker F C)) (a : PoolAct ι (WorkerAct F C) (Outside F C)) :
    Decidable (KeepsAwake tid s a) :=
  inferInstanceAs (Decidable ((_ → _ → _) ∧ (_ → _ → _)))

/-! ### The invariant -/

/-- From here a worker looks at the queue before it waits. -/
def Pc.looks : Pc F C → Bool
  | .top | .woken | .collected _ | .dispatching | .triggered | .yielded => true
  | _ => false

/-- The worker is going to look at the queue before it waits, or is going to wake another one. -/
def Worker.Alert (w : Worker F C) : Prop := w.tick ≠ .none ∨ w.pc.looks = true

/-- If there is a task to run, somebody is alert, or about to be woken. -/
def Awake (tid : ι → ℤ) (s : Pool ι (Shared F C) (Worker F C)) : Prop :=
  Runnable tid s.shared →
    0 < s.shared.pipe ∨ 0 < s.shared.testing ∨ 0 < s.shared.writing ∨ ∃ i, (s.thread i).Alert

theorem runnable_congr {tid : ι → ℤ} {g g' : Shared F C} (h : g'.fibers = g.fibers) :
    Runnable tid g' ↔ Runnable tid g := by
  unfold Runnable
  rw [h]

section

variable {tid : ι → ℤ} {s : Pool ι (Shared F C) (Worker F C)} {i : ι} {g : Shared F C}
  {w : Worker F C}

/-- A step that takes nothing away from what keeps somebody awake. -/
theorem Awake.mono (h : Awake tid s) {f : ι → Worker F C}
    (hrun : Runnable tid g → Runnable tid s.shared) (hpipe : s.shared.pipe ≤ g.pipe)
    (htest : s.shared.testing ≤ g.testing) (hwrite : s.shared.writing ≤ g.writing)
    (hf : (∃ i, (s.thread i).Alert) → ∃ i, (f i).Alert) : Awake tid ⟨g, f⟩ := by
  intro hr
  rcases h (hrun hr) with hp | ht | hw | ha
  · exact .inl (Nat.lt_of_lt_of_le hp hpipe)
  · exact .inr (.inl (Nat.lt_of_lt_of_le ht htest))
  · exact .inr (.inr (.inl (Nat.lt_of_lt_of_le hw hwrite)))
  · exact .inr (.inr (.inr (hf ha)))

theorem Awake.outside (h : Awake tid s) {a : Outside F C} (hg : KeepsAwake tid s (.env a))
    (hst : s.shared.outside a = some g) : Awake tid ⟨g, s.thread⟩ := by
  rcases Shared.outside_cases hst with
    ⟨c, g', b, rfl, hc, rfl⟩ | ⟨-, rfl⟩ | ⟨rfl, rfl⟩ | ⟨-, rfl⟩ | ⟨-, rfl⟩
  · rcases Shared.call_cases hc with ⟨fc, thread, rfl, rfl, rfl⟩ | hg'
    · -- onto an empty queue it tickles; otherwise there was a task to run before
      by_cases hnil : s.shared.fibers = []
      · exact fun _ => .inr (.inl (by simp [scheduleNoLock, hnil]))
      · exact h.mono (fun _ => hg.2 rfl hnil) le_rfl (Nat.le_add_right _ _) le_rfl id
    · rw [hg']
      exact h.mono (runnable_congr rfl).1 le_rfl (Nat.le_add_right _ _) le_rfl id
  · exact fun _ => .inr (.inl (Nat.succ_pos _))
  · by_cases hidle : 0 < s.shared.idle
    · exact fun _ => .inr (.inr (.inl (by simp [hidle])))
    · rintro hr
      obtain ⟨j, hj⟩ := (hg.1 rfl ((runnable_congr rfl).1 hr)).resolve_left hidle
      exact .inr (.inr (.inr ⟨j, .inr (by simp only; rw [hj]; rfl)⟩))
  · exact fun _ => .inl (Nat.succ_pos _)
  · exact h.mono (runnable_congr rfl).1 le_rfl le_rfl le_rfl id

variable [DecidableEq ι]

theorem Awake.of_alert (hw : w.Alert) : Awake tid ⟨g, Function.update s.thread i w⟩ :=
  fun _ => .inr (.inr (.inr ⟨i, by simpa only [Function.update_self] using hw⟩))

/-- A step of a worker that takes nothing away from what keeps the others awake. -/
theorem Awake.frame (h : Awake tid s) (hrun : Runnable tid g → Runnable tid s.shared)
    (hpipe : s.shared.pipe ≤ g.pipe) (htest : s.shared.testing ≤ g.testing)
    (hwrite : s.shared.writing ≤ g.writing) (hw : (s.thread i).Alert → w.Alert) :
    Awake tid ⟨g, Function.update s.thread i w⟩ :=
  h.mono hrun hpipe htest hwrite fun ha => exists_update ha hw

/-- A worker that takes a task away, or finds none, tickles if it leaves any behind. -/
theorem Awake.of_dequeue {t : ℤ} {l fibers : List (FiberAndThread F C)}
    {task : Option (FiberAndThread F C)} {b : Bool}
    (hd : dequeue FiberAndThread.threadID t l = ⟨task, fibers, b⟩) (hg : g.fibers = fibers)
    (hw : w.tick = .of b) : Awake tid ⟨g, Function.update s.thread i w⟩ := by
  rintro ⟨ft, hft, -⟩
  have hb : b = !fibers.isEmpty := by
    rcases dequeue_cases FiberAndThread.threadID t l with ⟨_, _, _, _, _, _, heq⟩ | ⟨-, heq⟩
    all_goals
      rw [hd] at heq
      obtain ⟨-, rfl, rfl⟩ := Dequeued.mk.inj heq
      rfl
  have hne : fibers ≠ [] := by
    rintro rfl
    simp [hg] at hft
  refine .inr (.inr (.inr ⟨i, .inl ?_⟩))
  simp [hw, hb, Tick.of, hne]

theorem Awake.worker (h : Awake tid s) {a : WorkerAct F C} (hg : KeepsAwake tid s (.thread i a))
    (hst : WorkerStep (tid i) s.shared a (s.thread i) g w) :
    Awake tid ⟨g, Function.update s.thread i w⟩ := by
  generalize hw : s.thread i = w₀ at hst
  cases hst with
  | take hd => exact .of_dequeue hd rfl rfl
  | noTask hd => exact .of_dequeue hd rfl rfl
  | @call e ft c g' b hc =>
    have hno : (s.thread i).Alert → (⟨.exec ft, .of b, e⟩ : Worker F C).Alert := by
      rw [hw]
      rintro (h | h)
      · exact absurd rfl h
      · cases h
    rcases Shared.call_cases hc with ⟨fc, thread, rfl, rfl, rfl⟩ | hg'
    · by_cases hnil : s.shared.fibers = []
      · exact .of_alert (.inl (by simp [Tick.of, scheduleNoLock, hnil]))
      · exact h.frame (fun _ => hg.2 rfl hnil) le_rfl le_rfl le_rfl hno
    · rw [hg']
      exact h.frame (runnable_congr rfl).1 le_rfl le_rfl le_rfl hno
  | @tickleTest pc e =>
    by_cases hidle : 0 < s.shared.idle
    · exact .of_alert (.inl (by simp [hidle]))
    · intro hr
      obtain ⟨j, hj⟩ := (hg.1 rfl hr).resolve_left hidle
      have hlooks : ∃ k, (Function.update s.thread i
          ⟨pc, if 0 < s.shared.idle then .write else .none, e⟩ k).pc.looks = true :=
        exists_update (p := fun w : Worker F C => w.pc.looks = true) ⟨j, by rw [hj]; rfl⟩
          fun hi => by rw [hw] at hi; exact hi
      obtain ⟨k, hk⟩ := hlooks
      exact .inr (.inr (.inr ⟨k, .inr hk⟩))
  | tickleWrite => exact fun _ => .inl (Nat.succ_pos _)
  | wake | collect | scheduleCbs | drain | trigger | decrPending | yield | leaveIdle | stop =>
    exact .of_alert (.inr rfl)
  | _ =>
    -- the worker was not alert, and what the others see of it has not changed
    refine h.frame (runnable_congr rfl).1 le_rfl le_rfl le_rfl ?_
    rw [hw]
    rintro (h | h)
    · exact absurd rfl h
    · cases h

theorem awake_of_keepsAwake (hr : (workers tid).ReachableWhen (KeepsAwake tid) s) :
    Awake tid s := by
  refine hr.invariant (fun s hs => ?_) fun s a s' _ h hg hst => ?_
  · obtain ⟨⟨heap, hs⟩, -⟩ := hs
    rintro ⟨ft, hft, -⟩
    simp [hs] at hft
  · rcases interleave_cases hst with ⟨i, b, g, w, rfl, hstep, rfl⟩ | ⟨e, g, rfl, hstep, rfl⟩
    · exact h.worker hg (Worker.step_cases hstep)
    · exact h.outside hg hstep

/-- **No lost wake-up** in every run in which whoever looks for an idle worker finds one, or one
that is about to look at the queue: no state is reached in which every worker is inside
`epoll_wait`, the queue holds a task that some worker may run, and the tickle pipe holds no unread
byte. -/
theorem not_stalled (hr : (workers tid).ReachableWhen (KeepsAwake tid) s) : ¬ Stalled tid s := by
  intro hs
  rcases awake_of_keepsAwake hr hs.runnable with h | h | h | ⟨i, h⟩
  · exact absurd hs.pipe (by omega)
  · exact absurd hs.testing (by omega)
  · exact absurd hs.writing (by omega)
  · obtain ⟨hpc, htick⟩ := hs.waiting i
    rcases h with h | h
    · exact h htick
    · rw [hpc] at h
      cases h

end

/-- A task is scheduled while the worker waits. -/
def wokenByTask : List (PoolAct (Fin 1) (WorkerAct ℕ ℕ) (Outside ℕ ℕ)) :=
  List.flatten
    [steps 0 [.dequeue, .enterIdle, .getNextTimer 1, .readPending, .schedStopping],
      [.env (.call (.schedule (.cb (some 7)) (-1))), .env .tickleTest, .env .tickleWrite]]

theorem not_stalled_idle :
    ∃ s, (workers fun _ : Fin 1 => (10 : ℤ)).run (KeepsAwake fun _ => 10) started
        wokenByTask = some s ∧
      (s.thread 0).pc = .epollWait ∧ s.shared.fibers = [⟨none, some 7, -1⟩] ∧
      s.shared.pipe = 1 ∧ ¬ Stalled (fun _ => 10) s := by
  obtain ⟨s, hrun⟩ : ∃ s, (workers fun _ : Fin 1 => (10 : ℤ)).run (KeepsAwake fun _ => 10) started
      wokenByTask = some s :=
    Option.isSome_iff_exists.1 (by decide +kernel)
  have hs : ((workers fun _ : Fin 1 => (10 : ℤ)).run (KeepsAwake fun _ => 10) started
      wokenByTask).map (fun s => ((s.thread 0).pc, s.shared.fibers, s.shared.pipe)) =
      some (.epollWait, [⟨none, some 7, -1⟩], 1) := by
    decide +kernel
  rw [hrun] at hs
  obtain ⟨h1, h2⟩ := Prod.mk.inj (Option.some.inj hs)
  obtain ⟨h2, h3⟩ := Prod.mk.inj h2
  exact ⟨s, hrun, h1, h2, h3,
    not_stalled (System.reachableWhen_of_run ⟨⟨_, rfl⟩, fun _ => rfl⟩ hrun)⟩

/-- Two tasks are scheduled while the only worker is not idle.  It takes the first one, finds nobody
to wake for the second one, and after the first one waits in `epoll_wait`. -/
def secondTask : List (PoolAct (Fin 1) (WorkerAct ℕ ℕ) (Outside ℕ ℕ)) :=
  List.flatten
    [[.env (.call (.schedule (.cb (some 7)) (-1))), .env .tickleTest,
        .env (.call (.schedule (.cb (some 8)) (-1)))],
      steps 0 [.dequeue],
      [.thread 0 .tickleTest],
      steps 0 [.finish, .enterIdle, .getNextTimer 1, .readPending, .schedStopping]]

theorem stalled_second_task :
    ∃ s : Pool (Fin 1) (Shared ℕ ℕ) (Worker ℕ ℕ),
      (workers fun _ => (10 : ℤ)).Reachable s ∧ Stalled (fun _ => 10) s := by
  have hs : ((workers fun _ : Fin 1 => (10 : ℤ)).run (fun _ _ => True) started
      secondTask).map
        (fun s =>
          (s.thread 0, s.shared.fibers, s.shared.pipe, s.shared.testing, s.shared.writing)) =
      some (⟨.epollWait, .none, false⟩, [⟨none, some 8, -1⟩], 0, 0, 0) := by
    decide +kernel
  obtain ⟨s, hrun, hs⟩ := Option.map_eq_some_iff.1 hs
  obtain ⟨h1, h2⟩ := Prod.mk.inj hs
  obtain ⟨h2, h3⟩ := Prod.mk.inj h2
  obtain ⟨h3, h4⟩ := Prod.mk.inj h3
  obtain ⟨h4, h5⟩ := Prod.mk.inj h4
  refine ⟨s, System.reachableWhen_of_run ⟨⟨_, rfl⟩, fun _ => rfl⟩ hrun, ?_, ?_, h3, h4, h5⟩
  · intro i
    obtain rfl : i = 0 := Subsingleton.elim _ _
    rw [h1]
    exact ⟨rfl, rfl⟩
  · exact ⟨⟨none, some 8, -1⟩, by simp [h2], 0, fun h => h.1 rfl⟩

end IOManager

end YXTWebCpp
