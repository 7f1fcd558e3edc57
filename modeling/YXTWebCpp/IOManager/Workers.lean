import YXTWebCpp.LTS.Threads
import YXTWebCpp.Scheduler.Queue
import YXTWebCpp.Timer.Basic

/-!
# The workers of an `IOManager`

The loop of `Scheduler::run` with `IOManager::idle`, one step for every access to shared state.  All
workers share the task queue, the counters, the timers and the tickle pipe; other threads schedule
tasks, add timers and events, and stop the scheduler.

* `Shared` : what the workers share.
* `Worker` : where a worker stands, whether it is in `tickle`, and whether its idle fiber has ended.
* `Worker.code` : the steps of `run` and `idle`.
* `workers` : all interleavings of the workers and the other threads.
* `refines_tasks` : **the workers use the task queue as `Tasks` does**, so that its bookkeeping
  holds of them.
-/

namespace YXTWebCpp

namespace IOManager

open Scheduler

variable {ι F C : Type*}

/-- What the workers share. -/
structure Shared (F C : Type*) where
  /-- `m_fibers` -/
  fibers : List (FiberAndThread F C)
  /-- `m_activeThreadCount` -/
  active : ℕ
  /-- `m_idleThreadCount` -/
  idle : ℕ
  /-- `m_stopping` -/
  stopping : Bool
  /-- `m_timers` -/
  tm : TimerManager C
  /-- The number of events that are registered. -/
  registered : ℕ
  /-- `m_pendingEventCount` -/
  pending : ℕ
  /-- The unread bytes in the tickle pipe. -/
  pipe : ℕ
  /-- The other threads that have called `tickle` and not looked at `m_idleThreadCount` yet. -/
  testing : ℕ
  /-- The other threads that are about to write to the pipe. -/
  writing : ℕ

namespace Shared

/-- What a task or another thread calls. -/
inductive Call (F C : Type*) where
  | schedule (fc : Arg F C) (thread : ℤ)
  /-- `addTimer` at clock `now`, the new timer at `p`. -/
  | addTimer (now p ms : ℕ) (cb : C) (recurring : Bool)
  /-- `Timer::cancel` for the timer at `p`. -/
  | cancelTimer (p : ℕ)
  | addEvent
  /-- `delEvent`, or `cancelEvent` before it schedules. -/
  | delEvent

/-- A call up to its `tickle`, and whether it is going to tickle. -/
def call (g : Shared F C) : Call F C → Option (Shared F C × Bool)
  | .schedule fc thread =>
    let r := scheduleNoLock g.fibers fc thread
    some ({ g with fibers := r.2 }, r.1)
  | .addTimer now p ms cb recurring =>
    if p ∈ g.tm.timers then none
    else
      let r := g.tm.addTimer now p ms cb recurring
      some ({ g with tm := r.1 }, r.2)
  | .cancelTimer p => (g.tm.cancel p).map fun r => ({ g with tm := r.2 }, false)
  | .addEvent => some ({ g with registered := g.registered + 1, pending := g.pending + 1 }, false)
  | .delEvent =>
    if g.registered = 0 then none
    else some ({ g with registered := g.registered - 1, pending := g.pending - 1 }, false)

/-- A call schedules a task, or changes only the timers or the events. -/
theorem call_cases {g g' : Shared F C} {c : Call F C} {b : Bool} (h : g.call c = some (g', b)) :
    (∃ fc thread, c = .schedule fc thread ∧ b = (scheduleNoLock g.fibers fc thread).1 ∧
      g' = { g with fibers := (scheduleNoLock g.fibers fc thread).2 }) ∨
    g' = { g with tm := g'.tm, registered := g'.registered, pending := g'.pending } := by
  cases c with
  | schedule fc thread =>
    obtain ⟨rfl, rfl⟩ := Prod.mk.inj (Option.some.inj h)
    exact .inl ⟨fc, thread, rfl, rfl, rfl⟩
  | addTimer now p ms cb recurring =>
    simp only [call] at h
    split_ifs at h
    obtain ⟨rfl, rfl⟩ := Prod.mk.inj (Option.some.inj h)
    exact .inr rfl
  | cancelTimer p =>
    obtain ⟨r, -, hr⟩ := Option.map_eq_some_iff.1 h
    obtain ⟨rfl, rfl⟩ := Prod.mk.inj hr
    exact .inr rfl
  | addEvent =>
    obtain ⟨rfl, rfl⟩ := Prod.mk.inj (Option.some.inj h)
    exact .inr rfl
  | delEvent =>
    simp only [call] at h
    split_ifs at h
    obtain ⟨rfl, rfl⟩ := Prod.mk.inj (Option.some.inj h)
    exact .inr rfl

/-- `Scheduler::stopping` -/
def schedStopping (g : Shared F C) : Bool :=
  g.stopping && g.fibers.isEmpty && decide (g.active = 0)

end Shared

/-- Where a worker stands. -/
inductive Pc (F C : Type*) where
  /-- About to look at the task queue. -/
  | top
  /-- Executing a task. -/
  | exec (ft : FiberAndThread F C)
  /-- The task is done, or there was none: about to look at the state of the idle fiber. -/
  | ran
  /-- In `idle`, about to call `getNextTimer` in `stopping`. -/
  | getNextTimer
  /-- There is no timer: about to read `m_pendingEventCount`. -/
  | readPending
  /-- The counter was 0: about to call `Scheduler::stopping`. -/
  | schedStopping
  /-- In `epoll_wait`. -/
  | epollWait
  /-- About to call `listExpiredCb`. -/
  | woken
  /-- About to schedule the callbacks. -/
  | collected (cbs : List (Option C))
  /-- Going through the events that `epoll_wait` returned. -/
  | dispatching
  /-- An event has been triggered, and the counter is about to be decremented. -/
  | triggered
  /-- Back in `run`, about to decrement `m_idleThreadCount`. -/
  | yielded
  /-- `run` has returned. -/
  | left
  deriving DecidableEq

/-- Where a thread stands in `tickle`. -/
inductive Tick where
  /-- Not in `tickle`. -/
  | none
  /-- About to call `hasIdleThreads`. -/
  | test
  /-- About to write to the pipe. -/
  | write
  deriving DecidableEq, Repr

/-- A call tickles if it has to. -/
def Tick.of (b : Bool) : Tick := if b then .test else .none

/-- A worker. -/
structure Worker (F C : Type*) where
  /-- Where it stands. -/
  pc : Pc F C
  /-- Where it stands in `tickle`, from which it goes on at `pc`. -/
  tick : Tick
  /-- Its idle fiber is in the state `TERM`. -/
  ended : Bool
  deriving DecidableEq

/-- The steps of `run` and `idle`. -/
inductive Code (F C : Type*) where
  | dequeue
  /-- The task calls something. -/
  | call (c : Shared.Call F C)
  | finish
  | enterIdle
  /-- `getNextTimer` at clock `now`. -/
  | getNextTimer (now : ℕ)
  | readPending
  | schedStopping
  /-- `epoll_wait` returns. -/
  | wake
  | collect (now p₀ : ℕ)
  | scheduleCbs
  /-- The event of the tickle pipe: read until it is empty. -/
  | drain
  /-- `triggerEvent`, which schedules what was registered. -/
  | trigger (fc : Arg F C)
  | decrPending
  | yield
  | leaveIdle

/-- The steps of a worker. -/
inductive WorkerAct (F C : Type*) where
  | code (a : Code F C)
  /-- `hasIdleThreads` in `tickle` -/
  | tickleTest
  /-- `write` in `tickle` -/
  | tickleWrite

namespace Worker

/-- A step of `run` or `idle` on the thread `tid`. -/
def code (tid : ℤ) (g : Shared F C) (w : Worker F C) (a : Code F C) :
    Option (Shared F C × Worker F C) :=
  match a, w.pc with
  | .dequeue, .top =>
    let r := dequeue FiberAndThread.threadID tid g.fibers
    match r.task with
    | some ft =>
      some ({ g with fibers := r.fibers, active := g.active + 1 },
        { w with pc := .exec ft, tick := .of r.tickleMe })
    | none => some ({ g with fibers := r.fibers }, { w with pc := .ran, tick := .of r.tickleMe })
  | .call c, .exec _ => (g.call c).map fun r => (r.1, { w with tick := .of r.2 })
  | .finish, .exec _ => some ({ g with active := g.active - 1 }, { w with pc := .ran })
  | .enterIdle, .ran =>
    if w.ended then some (g, { w with pc := .left })
    else some ({ g with idle := g.idle + 1 }, { w with pc := .getNextTimer })
  | .getNextTimer now, .getNextTimer =>
    -- the clock counts from 1970
    if now = 0 then none
    else some (g, { w with
      pc := if g.tm.getNextTimer now = 2 ^ 64 - 1 then .readPending else .epollWait })
  | .readPending, .readPending =>
    some (g, { w with pc := if g.pending = 0 then .schedStopping else .epollWait })
  | .schedStopping, .schedStopping =>
    if g.schedStopping then some (g, { w with pc := .yielded, ended := true })
    else some (g, { w with pc := .epollWait })
  | .wake, .epollWait => some (g, { w with pc := .woken })
  | .collect now p₀, .woken =>
    let r := g.tm.listExpiredCb now p₀
    some ({ g with tm := r.1 }, { w with pc := .collected r.2 })
  | .scheduleCbs, .collected cbs =>
    -- `schedule` is not called for an empty range; it would do nothing
    let r := scheduleRange g.fibers (cbs.map .cb)
    some ({ g with fibers := r.2 }, { w with pc := .dispatching, tick := .of r.1 })
  | .drain, .dispatching => some ({ g with pipe := 0 }, w)
  | .trigger fc, .dispatching =>
    if g.registered = 0 then none
    else
      let r := scheduleNoLock g.fibers fc (-1)
      some ({ g with fibers := r.2, registered := g.registered - 1 },
        { w with pc := .triggered, tick := .of r.1 })
  | .decrPending, .triggered =>
    some ({ g with pending := g.pending - 1 }, { w with pc := .dispatching })
  | .yield, .dispatching => some (g, { w with pc := .yielded })
  | .leaveIdle, .yielded => some ({ g with idle := g.idle - 1 }, { w with pc := .top })
  | _, _ => none

/-- A step of a worker: it finishes its `tickle` before it goes on. -/
def step (tid : ℤ) (g : Shared F C) (w : Worker F C) :
    WorkerAct F C → Option (Shared F C × Worker F C)
  | .code a => if w.tick = .none then w.code tid g a else none
  | .tickleTest =>
    if w.tick = .test then some (g, { w with tick := if 0 < g.idle then .write else .none })
    else none
  | .tickleWrite =>
    if w.tick = .write then some ({ g with pipe := g.pipe + 1 }, { w with tick := .none })
    else none

end Worker

/-- What a step of a worker can do. -/
inductive WorkerStep (tid : ℤ) (g : Shared F C) :
    WorkerAct F C → Worker F C → Shared F C → Worker F C → Prop
  | take {e : Bool} {ft : FiberAndThread F C} {fibers : List (FiberAndThread F C)} {b : Bool} :
      dequeue FiberAndThread.threadID tid g.fibers = ⟨some ft, fibers, b⟩ →
      WorkerStep tid g (.code .dequeue) ⟨.top, .none, e⟩
        { g with fibers := fibers, active := g.active + 1 } ⟨.exec ft, .of b, e⟩
  | noTask {e : Bool} {fibers : List (FiberAndThread F C)} {b : Bool} :
      dequeue FiberAndThread.threadID tid g.fibers = ⟨none, fibers, b⟩ →
      WorkerStep tid g (.code .dequeue) ⟨.top, .none, e⟩ { g with fibers := fibers }
        ⟨.ran, .of b, e⟩
  | call {e : Bool} {ft : FiberAndThread F C} {c : Shared.Call F C} {g' : Shared F C} {b : Bool} :
      g.call c = some (g', b) →
      WorkerStep tid g (.code (.call c)) ⟨.exec ft, .none, e⟩ g' ⟨.exec ft, .of b, e⟩
  | finish {e : Bool} {ft : FiberAndThread F C} :
      WorkerStep tid g (.code .finish) ⟨.exec ft, .none, e⟩ { g with active := g.active - 1 }
        ⟨.ran, .none, e⟩
  | leave : WorkerStep tid g (.code .enterIdle) ⟨.ran, .none, true⟩ g ⟨.left, .none, true⟩
  | enterIdle : WorkerStep tid g (.code .enterIdle) ⟨.ran, .none, false⟩
      { g with idle := g.idle + 1 } ⟨.getNextTimer, .none, false⟩
  | noTimer {e : Bool} {now : ℕ} : 0 < now → g.tm.getNextTimer now = 2 ^ 64 - 1 →
      WorkerStep tid g (.code (.getNextTimer now)) ⟨.getNextTimer, .none, e⟩ g
        ⟨.readPending, .none, e⟩
  | timer {e : Bool} {now : ℕ} : WorkerStep tid g (.code (.getNextTimer now))
      ⟨.getNextTimer, .none, e⟩ g ⟨.epollWait, .none, e⟩
  | noEvent {e : Bool} : g.pending = 0 →
      WorkerStep tid g (.code .readPending) ⟨.readPending, .none, e⟩ g ⟨.schedStopping, .none, e⟩
  | event {e : Bool} :
      WorkerStep tid g (.code .readPending) ⟨.readPending, .none, e⟩ g ⟨.epollWait, .none, e⟩
  | stop {e : Bool} : g.schedStopping = true →
      WorkerStep tid g (.code .schedStopping) ⟨.schedStopping, .none, e⟩ g ⟨.yielded, .none, true⟩
  | goOn {e : Bool} :
      WorkerStep tid g (.code .schedStopping) ⟨.schedStopping, .none, e⟩ g ⟨.epollWait, .none, e⟩
  | wake {e : Bool} :
      WorkerStep tid g (.code .wake) ⟨.epollWait, .none, e⟩ g ⟨.woken, .none, e⟩
  | collect {e : Bool} {now p₀ : ℕ} :
      WorkerStep tid g (.code (.collect now p₀)) ⟨.woken, .none, e⟩
        { g with tm := (g.tm.listExpiredCb now p₀).1 }
        ⟨.collected (g.tm.listExpiredCb now p₀).2, .none, e⟩
  | scheduleCbs {e : Bool} {cbs : List (Option C)} :
      WorkerStep tid g (.code .scheduleCbs) ⟨.collected cbs, .none, e⟩
        { g with fibers := (scheduleRange g.fibers (cbs.map .cb)).2 }
        ⟨.dispatching, .of (scheduleRange g.fibers (cbs.map .cb)).1, e⟩
  | drain {e : Bool} : WorkerStep tid g (.code .drain) ⟨.dispatching, .none, e⟩
      { g with pipe := 0 } ⟨.dispatching, .none, e⟩
  | trigger {e : Bool} {fc : Arg F C} : g.registered ≠ 0 →
      WorkerStep tid g (.code (.trigger fc)) ⟨.dispatching, .none, e⟩
        { g with
          fibers := (scheduleNoLock g.fibers fc (-1)).2
          registered := g.registered - 1 }
        ⟨.triggered, .of (scheduleNoLock g.fibers fc (-1)).1, e⟩
  | decrPending {e : Bool} : WorkerStep tid g (.code .decrPending) ⟨.triggered, .none, e⟩
      { g with pending := g.pending - 1 } ⟨.dispatching, .none, e⟩
  | yield {e : Bool} :
      WorkerStep tid g (.code .yield) ⟨.dispatching, .none, e⟩ g ⟨.yielded, .none, e⟩
  | leaveIdle {e : Bool} : WorkerStep tid g (.code .leaveIdle) ⟨.yielded, .none, e⟩
      { g with idle := g.idle - 1 } ⟨.top, .none, e⟩
  | tickleTest {pc : Pc F C} {e : Bool} : WorkerStep tid g .tickleTest ⟨pc, .test, e⟩ g
      ⟨pc, if 0 < g.idle then .write else .none, e⟩
  | tickleWrite {pc : Pc F C} {e : Bool} : WorkerStep tid g .tickleWrite ⟨pc, .write, e⟩
      { g with pipe := g.pipe + 1 } ⟨pc, .none, e⟩

theorem Worker.step_cases {tid : ℤ} {g g' : Shared F C} {w w' : Worker F C} {a : WorkerAct F C}
    (h : w.step tid g a = some (g', w')) : WorkerStep tid g a w g' w' := by
  obtain ⟨pc, tick, e⟩ := w
  cases a with
  | tickleTest =>
    cases tick with
    | test =>
      obtain ⟨rfl, rfl⟩ := Prod.mk.inj (Option.some.inj h)
      exact .tickleTest
    | _ => cases h
  | tickleWrite =>
    cases tick with
    | write =>
      obtain ⟨rfl, rfl⟩ := Prod.mk.inj (Option.some.inj h)
      exact .tickleWrite
    | _ => cases h
  | code a =>
    obtain rfl : tick = .none := by
      by_contra ht
      simp [Worker.step, ht] at h
    change Worker.code tid g _ a = _ at h
    cases a with
    | dequeue =>
      cases pc with
      | top =>
        simp only [Worker.code] at h
        rcases hd : dequeue FiberAndThread.threadID tid g.fibers with ⟨_ | ft, fibers, b⟩
        · rw [hd] at h
          obtain ⟨rfl, rfl⟩ := Prod.mk.inj (Option.some.inj h)
          exact .noTask hd
        · rw [hd] at h
          obtain ⟨rfl, rfl⟩ := Prod.mk.inj (Option.some.inj h)
          exact .take hd
      | _ => cases h
    | call c =>
      cases pc with
      | exec ft =>
        obtain ⟨⟨g₁, b⟩, hc, hr⟩ := Option.map_eq_some_iff.1 h
        obtain ⟨rfl, rfl⟩ := Prod.mk.inj hr
        exact .call hc
      | _ => cases h
    | finish =>
      cases pc with
      | exec ft =>
        obtain ⟨rfl, rfl⟩ := Prod.mk.inj (Option.some.inj h)
        exact .finish
      | _ => cases h
    | enterIdle =>
      cases pc with
      | ran =>
        cases e with
        | false =>
          obtain ⟨rfl, rfl⟩ := Prod.mk.inj (Option.some.inj h)
          exact .enterIdle
        | true =>
          obtain ⟨rfl, rfl⟩ := Prod.mk.inj (Option.some.inj h)
          exact .leave
      | _ => cases h
    | getNextTimer now =>
      cases pc with
      | getNextTimer =>
        simp only [Worker.code] at h
        by_cases hnow : now = 0
        · rw [if_pos hnow] at h
          cases h
        rw [if_neg hnow] at h
        obtain ⟨rfl, rfl⟩ := Prod.mk.inj (Option.some.inj h)
        by_cases hnext : g.tm.getNextTimer now = 2 ^ 64 - 1
        · rw [if_pos hnext]
          exact .noTimer (Nat.pos_of_ne_zero hnow) hnext
        · rw [if_neg hnext]
          exact .timer
      | _ => cases h
    | readPending =>
      cases pc with
      | readPending =>
        obtain ⟨rfl, rfl⟩ := Prod.mk.inj (Option.some.inj h)
        by_cases hp : g.pending = 0
        · rw [if_pos hp]
          exact .noEvent hp
        · rw [if_neg hp]
          exact .event
      | _ => cases h
    | schedStopping =>
      cases pc with
      | schedStopping =>
        simp only [Worker.code] at h
        by_cases hs : g.schedStopping = true
        · rw [if_pos hs] at h
          obtain ⟨rfl, rfl⟩ := Prod.mk.inj (Option.some.inj h)
          exact .stop hs
        · rw [if_neg hs] at h
          obtain ⟨rfl, rfl⟩ := Prod.mk.inj (Option.some.inj h)
          exact .goOn
      | _ => cases h
    | wake =>
      cases pc with
      | epollWait =>
        obtain ⟨rfl, rfl⟩ := Prod.mk.inj (Option.some.inj h)
        exact .wake
      | _ => cases h
    | collect now p₀ =>
      cases pc with
      | woken =>
        obtain ⟨rfl, rfl⟩ := Prod.mk.inj (Option.some.inj h)
        exact .collect
      | _ => cases h
    | scheduleCbs =>
      cases pc with
      | collected cbs =>
        obtain ⟨rfl, rfl⟩ := Prod.mk.inj (Option.some.inj h)
        exact .scheduleCbs
      | _ => cases h
    | drain =>
      cases pc with
      | dispatching =>
        obtain ⟨rfl, rfl⟩ := Prod.mk.inj (Option.some.inj h)
        exact .drain
      | _ => cases h
    | trigger fc =>
      cases pc with
      | dispatching =>
        simp only [Worker.code] at h
        by_cases hr : g.registered = 0
        · rw [if_pos hr] at h
          cases h
        rw [if_neg hr] at h
        obtain ⟨rfl, rfl⟩ := Prod.mk.inj (Option.some.inj h)
        exact .trigger hr
      | _ => cases h
    | decrPending =>
      cases pc with
      | triggered =>
        obtain ⟨rfl, rfl⟩ := Prod.mk.inj (Option.some.inj h)
        exact .decrPending
      | _ => cases h
    | yield =>
      cases pc with
      | dispatching =>
        obtain ⟨rfl, rfl⟩ := Prod.mk.inj (Option.some.inj h)
        exact .yield
      | _ => cases h
    | leaveIdle =>
      cases pc with
      | yielded =>
        obtain ⟨rfl, rfl⟩ := Prod.mk.inj (Option.some.inj h)
        exact .leaveIdle
      | _ => cases h

/-- The steps of the other threads. -/
inductive Outside (F C : Type*) where
  | call (c : Shared.Call F C)
  /-- `tickle`, called by `stop` -/
  | tickle
  | tickleTest
  | tickleWrite
  /-- `stop` sets `m_stopping`. -/
  | stop

/-- A step of another thread. -/
def Shared.outside (g : Shared F C) : Outside F C → Option (Shared F C)
  | .call c => (g.call c).map fun r => { r.1 with testing := r.1.testing + r.2.toNat }
  | .tickle => some { g with testing := g.testing + 1 }
  | .tickleTest =>
    if g.testing = 0 then none
    else some { g with
      testing := g.testing - 1
      writing := if 0 < g.idle then g.writing + 1 else g.writing }
  | .tickleWrite =>
    if g.writing = 0 then none
    else some { g with writing := g.writing - 1, pipe := g.pipe + 1 }
  | .stop => some { g with stopping := true }

/-- A step of another thread is a call, moves on in `tickle`, or sets `m_stopping`. -/
theorem Shared.outside_cases {g g' : Shared F C} {a : Outside F C} (h : g.outside a = some g') :
    (∃ c g₁ b, a = .call c ∧ g.call c = some (g₁, b) ∧
      g' = { g₁ with testing := g₁.testing + b.toNat }) ∨
    (a = .tickle ∧ g' = { g with testing := g.testing + 1 }) ∨
    (a = .tickleTest ∧ g' = { g with
      testing := g.testing - 1
      writing := if 0 < g.idle then g.writing + 1 else g.writing }) ∨
    (a = .tickleWrite ∧ g' = { g with writing := g.writing - 1, pipe := g.pipe + 1 }) ∨
    (a = .stop ∧ g' = { g with stopping := true }) := by
  cases a with
  | call c =>
    obtain ⟨⟨g₁, b⟩, hc, rfl⟩ := Option.map_eq_some_iff.1 h
    exact .inl ⟨c, g₁, b, rfl, hc, rfl⟩
  | tickle => exact .inr (.inl ⟨rfl, (Option.some.inj h).symm⟩)
  | tickleTest =>
    simp only [Shared.outside] at h
    by_cases ht : g.testing = 0
    · rw [if_pos ht] at h
      cases h
    · rw [if_neg ht] at h
      exact .inr (.inr (.inl ⟨rfl, (Option.some.inj h).symm⟩))
  | tickleWrite =>
    simp only [Shared.outside] at h
    split_ifs at h
    exact .inr (.inr (.inr (.inl ⟨rfl, (Option.some.inj h).symm⟩)))
  | stop => exact .inr (.inr (.inr (.inr ⟨rfl, (Option.some.inj h).symm⟩)))

/-- Nothing has happened since `start`. -/
def Started (s : Pool ι (Shared F C) (Worker F C)) : Prop :=
  (∃ heap, s.shared = ⟨[], 0, 0, false, ⟨heap, [], 0⟩, 0, 0, 0, 0, 0⟩) ∧
    ∀ i, s.thread i = ⟨.top, .none, false⟩

/-- All interleavings of the workers, worker `i` being the thread `tid i`, and the other threads. -/
def workers [DecidableEq ι] (tid : ι → ℤ) :
    System (Pool ι (Shared F C) (Worker F C)) (PoolAct ι (WorkerAct F C) (Outside F C)) :=
  interleave Started (fun i => Worker.step (tid i)) Shared.outside

/-- The workers after `start`. -/
def started : Pool ι (Shared F C) (Worker F C) :=
  ⟨⟨[], 0, 0, false, ⟨fun _ => .new 0 0 none false, [], 0⟩, 0, 0, 0, 0, 0⟩,
    fun _ => ⟨.top, .none, false⟩⟩

/-- Worker `i` takes some steps. -/
def steps (i : ι) (as : List (Code F C)) : List (PoolAct ι (WorkerAct F C) (Outside F C)) :=
  as.map fun a => .thread i (.code a)

/-! ### The task queue -/

/-- The worker is between a dequeue and the end of the task. -/
def Pc.busy : Pc F C → Bool
  | .exec _ => true
  | _ => false

/-- The workers use the task queue as `t` says. -/
structure Uses (s : Pool ι (Shared F C) (Worker F C)) (t : Tasks ι F C) : Prop where
  fibers : t.mFibers = s.shared.fibers
  active : t.active = s.shared.active
  busy : ∀ i, (t.busy i).isSome = (s.thread i).pc.busy

section

variable [DecidableEq ι] {tid : ι → ℤ} {s : Pool ι (Shared F C) (Worker F C)} {t : Tasks ι F C}

/-- A step of a worker that does not touch the queue. -/
theorem Uses.stutter (h : Uses s t) {i : ι} {g : Shared F C} {w : Worker F C}
    (hf : g.fibers = s.shared.fibers) (ha : g.active = s.shared.active)
    (hw : w.pc.busy = (s.thread i).pc.busy) : Uses ⟨g, Function.update s.thread i w⟩ t := by
  refine ⟨h.fibers.trans hf.symm, h.active.trans ha.symm, fun j => ?_⟩
  rw [h.busy j]
  by_cases hji : j = i
  · subst hji
    simp only [Function.update_self, hw]
  · simp only [Function.update_of_ne hji]

/-- A step of a worker that schedules tasks. -/
theorem Uses.schedule {t' : Tasks ι F C} (h : Uses s t) {i : ι} {g : Shared F C} {w : Worker F C}
    (hf : t'.mFibers = g.fibers) (ha : g.active = s.shared.active) (ha' : t'.active = t.active)
    (hb : t'.busy = t.busy) (hw : w.pc.busy = (s.thread i).pc.busy) :
    Uses ⟨g, Function.update s.thread i w⟩ t' := by
  refine ⟨hf, by rw [ha', h.active, ha], fun j => ?_⟩
  rw [hb]
  exact (h.stutter rfl rfl hw).busy j

theorem Uses.worker (h : Uses s t) {i : ι} {a : WorkerAct F C} {g : Shared F C} {w : Worker F C}
    (hst : WorkerStep (tid i) s.shared a (s.thread i) g w) :
    Uses ⟨g, Function.update s.thread i w⟩ t ∨
      ∃ b t', (Tasks.system tid).step t b = some t' ∧
        Uses ⟨g, Function.update s.thread i w⟩ t' := by
  have hbusy := h.busy i
  generalize hw : s.thread i = w₀ at hst hbusy
  cases hst with
  | @take e ft fibers b hd =>
    right
    have hnone : t.busy i = none := by simpa [Pc.busy] using hbusy
    obtain ⟨n, fibers', hstep, hfibers⟩ := Tasks.step_dequeue hnone (h.fibers ▸ hd)
    refine ⟨.dequeue i, _, hstep, hfibers, by simp only [h.active], fun j => ?_⟩
    by_cases hji : j = i
    · subst hji
      simp [Pc.busy]
    · simp only [Function.update_of_ne hji]
      exact h.busy j
  | @noTask e fibers b hd =>
    left
    refine h.stutter ?_ rfl (by rw [hw]; rfl)
    rcases dequeue_cases FiberAndThread.threadID (tid i) s.shared.fibers with
      ⟨_, _, _, _, _, _, heq⟩ | ⟨-, heq⟩
    · rw [hd] at heq
      cases heq
    · rw [hd] at heq
      obtain ⟨-, rfl, -⟩ := Dequeued.mk.inj heq
      rfl
  | @call e ft c g' b hc =>
    rcases Shared.call_cases hc with ⟨fc, thread, -, -, rfl⟩ | hg
    · obtain ⟨ha, hb⟩ := t.scheduleOne_active fc thread
      refine .inr ⟨.schedule fc thread, _, rfl, h.schedule ?_ rfl ha hb (by rw [hw])⟩
      rw [Tasks.mFibers_scheduleOne, h.fibers]
    · exact .inl (h.stutter (by rw [hg]) (by rw [hg]) (by rw [hw]))
  | finish =>
    right
    have hsome : (t.busy i).isSome = true := by simpa [Pc.busy] using hbusy
    have hstep : (Tasks.system tid).step t (.finish i) = some { t with
        active := t.active - 1
        busy := Function.update t.busy i none } := by
      simp only [Tasks.system, hsome, ↓reduceIte]
    refine ⟨.finish i, _, hstep, h.fibers, by simp only [h.active], fun j => ?_⟩
    by_cases hji : j = i
    · subst hji
      simp [Pc.busy]
    · simp only [Function.update_of_ne hji]
      exact h.busy j
  | @scheduleCbs e cbs =>
    obtain ⟨ha, hb⟩ := Tasks.foldl_active (cbs.map Arg.cb) t
    refine .inr ⟨.scheduleRange (cbs.map .cb), _, rfl,
      h.schedule ?_ rfl ha hb (by rw [hw]; rfl)⟩
    rw [Tasks.mFibers_foldl _ _ false, h.fibers]
    rfl
  | @trigger e fc hr =>
    obtain ⟨ha, hb⟩ := t.scheduleOne_active fc (-1)
    refine .inr ⟨.schedule fc (-1), _, rfl, h.schedule ?_ rfl ha hb (by rw [hw]; rfl)⟩
    rw [Tasks.mFibers_scheduleOne, h.fibers]
  | drain | tickleTest | tickleWrite => exact .inl (h.stutter rfl rfl (by rw [hw]))
  | _ => exact .inl (h.stutter rfl rfl (by rw [hw]; rfl))

theorem Uses.outside (h : Uses s t) {a : Outside F C} {g : Shared F C}
    (hst : s.shared.outside a = some g) :
    Uses ⟨g, s.thread⟩ t ∨
      ∃ b t', (Tasks.system tid).step t b = some t' ∧ Uses ⟨g, s.thread⟩ t' := by
  rcases Shared.outside_cases hst with
    ⟨c, g', b, rfl, hc, rfl⟩ | ⟨-, rfl⟩ | ⟨-, rfl⟩ | ⟨-, rfl⟩ | ⟨-, rfl⟩
  · rcases Shared.call_cases hc with ⟨fc, thread, -, -, rfl⟩ | hg
    · obtain ⟨ha, hb⟩ := t.scheduleOne_active fc thread
      refine .inr ⟨.schedule fc thread, _, rfl, ?_, ha.trans h.active, fun i => ?_⟩
      · rw [Tasks.mFibers_scheduleOne, h.fibers]
      · rw [hb]
        exact h.busy i
    · exact .inl ⟨h.fibers.trans (by rw [hg]), h.active.trans (by rw [hg]), h.busy⟩
  -- `tickle` and `stop` do not touch the queue
  all_goals exact .inl ⟨h.fibers, h.active, h.busy⟩

/-- **The workers use the task queue as `Tasks` does.** -/
theorem refines_tasks {P : Pool ι (Shared F C) (Worker F C) →
      PoolAct ι (WorkerAct F C) (Outside F C) → Prop}
    (hr : (workers tid).ReachableWhen P s) : ∃ t, (Tasks.system tid).Reachable t ∧ Uses s t := by
  refine hr.simulation (fun s hs => ?_) fun s a s' t h _ hst => ?_
  · obtain ⟨⟨heap, hg⟩, hw⟩ := hs
    exact ⟨_, rfl, by rw [hg]; rfl, by rw [hg], fun i => by rw [hw]; rfl⟩
  · rcases interleave_cases hst with ⟨i, b, g, w, -, hstep, rfl⟩ | ⟨e, g, -, hstep, rfl⟩
    · exact h.worker (Worker.step_cases hstep)
    · exact h.outside hstep

/-- `m_activeThreadCount` is the number of workers that are executing a task. -/
theorem active_eq [Fintype ι] {P : Pool ι (Shared F C) (Worker F C) →
      PoolAct ι (WorkerAct F C) (Outside F C) → Prop}
    (hr : (workers tid).ReachableWhen P s) :
    s.shared.active = (Finset.univ.filter fun i => (s.thread i).pc.busy = true).card := by
  obtain ⟨t, ht, h⟩ := refines_tasks hr
  rw [← h.active, (Tasks.Inv.of_reachable ht).active]
  simp only [h.busy]

end

end IOManager

end YXTWebCpp
