import YXTWebCpp.LTS.Lock
import YXTWebCpp.Timer.Operations

/-!
# The lock of the timers

Every operation on `m_timers` takes the lock of the `TimerManager`, for reading or for writing.
`addTimer` takes it for reading, although it inserts.

* `TimerSection` : the sections that hold the lock.
* `TimerThread` : where a thread stands in an operation.
* `lockedTimers` : all interleavings of any number of threads in the operations.
* `Unshared` : the lock is not taken for reading by two threads one of which inserts.
* `timers_exclusive` : **then nobody accesses the set while somebody modifies it**, and only then.
-/

namespace YXTWebCpp

variable {Cb : Type*}

/-- The sections that hold the lock. -/
inductive TimerSection where
  /-- `addTimer(val)`: insert the timer at `p`. -/
  | insert (p : ℕ)
  /-- `Timer::cancel` -/
  | cancel (p : ℕ)
  /-- `Timer::refresh` -/
  | refresh (p : ℕ)
  /-- `Timer::reset`: erase the timer. -/
  | resetErase (p ms : ℕ) (fromNow : Bool)
  /-- `getNextTimer` -/
  | getNextTimer
  /-- `listExpiredCb`, called at clock `now`: is the set empty? -/
  | isEmpty (now : ℕ)
  /-- `listExpiredCb`: collect the timers that have expired. -/
  | collect (now : ℕ)
  deriving DecidableEq

namespace TimerSection

/-- How the section takes the lock. -/
def mode : TimerSection → Mode
  | .insert _ | .getNextTimer | .isEmpty _ => .shared
  | .cancel _ | .refresh _ | .resetErase _ _ _ | .collect _ => .exclusive

/-- The section modifies `m_timers`; all of them access it. -/
def modifies : TimerSection → Bool
  | .getNextTimer | .isEmpty _ => false
  | .insert _ | .cancel _ | .refresh _ | .resetErase _ _ _ | .collect _ => true

end TimerSection

/-- Where a thread stands. -/
inductive TimerThread where
  /-- Not in an operation. -/
  | out
  /-- About to take the lock. -/
  | before (x : TimerSection)
  /-- It holds the lock. -/
  | inside (x : TimerSection)
  deriving DecidableEq

/-- The section that the thread enters next. -/
def TimerThread.enters : TimerThread → Option TimerSection
  | .before x => some x
  | _ => none

/-- The threads and the sections of the timers. -/
def timerSections : Sections TimerThread TimerSection where
  inside
    | .inside x => some x
    | _ => none
  mode := TimerSection.mode
  clash x y := x.modifies = true ∨ y.modifies = true
  symm _ _ := Or.symm

instance (x y : TimerSection) : Decidable (timerSections.clash x y) :=
  inferInstanceAs (Decidable (_ ∨ _))

/-- The timers and their lock. -/
structure LockedTimers (ι Cb : Type*) where
  /-- `m_mutex` -/
  lock : RWLock ι
  /-- The timers. -/
  tm : TimerManager Cb
  /-- The address of the next timer. -/
  next : ℕ

/-- The operations. -/
inductive TimerOp (Cb : Type*) where
  /-- `addTimer` at clock `now`; `addConditionTimer` is `addTimer` with another callback. -/
  | addTimer (now ms : ℕ) (cb : Option Cb) (recurring : Bool)
  | cancel (p : ℕ)
  | refresh (p : ℕ)
  | reset (p ms : ℕ) (fromNow : Bool)
  | getNextTimer
  | listExpiredCb (now : ℕ)
  deriving DecidableEq

/-- The steps of a thread. -/
inductive TimerThreadAct (Cb : Type*) where
  /-- It begins an operation. -/
  | call (op : TimerOp Cb)
  /-- It takes the lock. -/
  | lock
  /-- It does what the section does, at clock `now`, and gives the lock back. -/
  | unlock (now p₀ : ℕ)
  deriving DecidableEq

namespace LockedTimers

variable {ι : Type*}

/-- An operation up to its first section. -/
def call (g : LockedTimers ι Cb) : TimerOp Cb → LockedTimers ι Cb × TimerThread
  | .addTimer now ms cb recurring =>
    ({ g with
      tm := { g.tm with heap := Function.update g.tm.heap g.next (.new now ms cb recurring) }
      next := g.next + 1 }, .before (.insert g.next))
  | .cancel p => (g, .before (.cancel p))
  | .refresh p => (g, .before (.refresh p))
  | .reset p ms fromNow =>
    (g, if g.tm.resetSkips p ms fromNow then .out else .before (.resetErase p ms fromNow))
  | .getNextTimer => (g, .before .getNextTimer)
  | .listExpiredCb now => (g, .before (.isEmpty now))

/-- The deadline that `reset` gives the timer that it has erased. -/
def retime (tm : TimerManager Cb) (now p ms : ℕ) (fromNow : Bool) : TimerManager Cb :=
  { tm with heap := (tm.resetAdd now p ms fromNow).1.heap }

/-- What a section does, and where the thread goes on.  An erase of the end iterator is taken to do
nothing. -/
def body (tm : TimerManager Cb) (now p₀ : ℕ) : TimerSection → TimerManager Cb × TimerThread
  | .insert p => ((tm.insert p).1, .out)
  | .cancel p =>
    match tm.cancel p with
    | some r => (r.2, .out)
    | none =>
      ({ tm with heap := Function.update tm.heap p { tm.heap p with cb := none } }, .out)
  | .refresh p => ((tm.refresh now p).2, .out)
  | .resetErase p ms fromNow =>
    let r := tm.resetErase p
    if r.1 then (retime r.2 now p ms fromNow, .before (.insert p)) else (r.2, .out)
  | .getNextTimer => (tm, .out)
  | .isEmpty now => (tm, if tm.timers = [] then .out else .before (.collect now))
  | .collect now => ((tm.listExpiredCb now p₀).1, .out)

/-- A step of thread `i`. -/
def step (i : ι) (g : LockedTimers ι Cb) :
    TimerThread → TimerThreadAct Cb → Option (LockedTimers ι Cb × TimerThread)
  | .out, .call op => some (g.call op)
  | .before x, .lock => (g.lock.acquire i x.mode).map fun l => ({ g with lock := l }, .inside x)
  | .inside x, .unlock now p₀ =>
    let r := body g.tm now p₀ x
    some ({ g with lock := g.lock.release x.mode, tm := r.1 }, r.2)
  | _, _ => none

end LockedTimers

section

variable {ι : Type*} [DecidableEq ι]

/-- All interleavings of the threads `ι` in the operations on timers. -/
def lockedTimers :
    System (Pool ι (LockedTimers ι Cb) TimerThread) (PoolAct ι (TimerThreadAct Cb) Empty) :=
  interleave (fun s => (∃ heap, s.shared = ⟨.free, ⟨heap, [], 0⟩, 0⟩) ∧ ∀ i, s.thread i = .out)
    (fun i g w => g.step i w) fun _ e => nomatch e

/-- A thread that takes the lock finds nobody inside a section that clashes with its own and that
the lock lets in: the lock is not taken for reading by two threads one of which inserts. -/
def Unshared (s : Pool ι (LockedTimers ι Cb) TimerThread) :
    PoolAct ι (TimerThreadAct Cb) Empty → Prop
  | .thread i .lock => ∀ x ∈ (s.thread i).enters, timerSections.Clear s.thread i x
  | _ => True

instance [Fintype ι] (s : Pool ι (LockedTimers ι Cb) TimerThread) :
    (a : PoolAct ι (TimerThreadAct Cb) Empty) → Decidable (Unshared s a)
  | .thread i .lock =>
    inferInstanceAs (Decidable (∀ x ∈ (s.thread i).enters, timerSections.Clear s.thread i x))
  | .thread _ (.call _) | .thread _ (.unlock _ _) => inferInstanceAs (Decidable True)

theorem inside_eq_some {w : TimerThread} {x : TimerSection} :
    timerSections.inside w = some x ↔ w = .inside x := by
  cases w <;> simp [timerSections]

omit [DecidableEq ι] in
/-- The threads are apart if nobody is inside while another thread modifies the set. -/
theorem timersApart_iff {f : ι → TimerThread} : timerSections.Apart f ↔
    ∀ i j x y, i ≠ j → f i = .inside x → f j = .inside y → y.modifies = false := by
  constructor
  · intro h i j x y hij hx hy
    have hno := h i j hij x y (inside_eq_some.2 hx) (inside_eq_some.2 hy)
    exact Bool.eq_false_iff.2 fun hm => hno (.inr hm)
  · intro h i j hij x y hx hy hclash
    have hx := inside_eq_some.1 hx
    have hy := inside_eq_some.1 hy
    rcases hclash with hm | hm
    · rw [h j i y x (Ne.symm hij) hy hx] at hm
      cases hm
    · rw [h i j x y hij hx hy] at hm
      cases hm

omit [DecidableEq ι] in
/-- What a step of a thread does to the lock; a thread enters the section in front of which it
stands. -/
theorem LockedTimers.step_moves {i : ι} {g g' : LockedTimers ι Cb} {w w' : TimerThread}
    {a : TimerThreadAct Cb} (h : g.step i w a = some (g', w')) :
    timerSections.Moves g.lock g'.lock i w w' ∧
      (∀ x, timerSections.inside w = none → timerSections.inside w' = some x →
        a = .lock ∧ w.enters = some x) ∧
      ∀ x, a = .lock → w.enters = some x →
        timerSections.inside w = none ∧ timerSections.inside w' = some x := by
  cases w with
  | out =>
    cases a with
    | call op =>
      obtain ⟨rfl, rfl⟩ := Prod.mk.inj (Option.some.inj h)
      have hout : timerSections.inside (g.call op).2 = none := by
        cases op with
        | reset p ms fromNow => simp only [LockedTimers.call]; split_ifs <;> rfl
        | _ => rfl
      refine ⟨.stay hout (by cases op <;> rfl), fun x _ hx => ?_, nofun⟩
      cases hout.symm.trans hx
    | _ => cases h
  | before x =>
    cases a with
    | lock =>
      obtain ⟨l, hl, heq⟩ := Option.map_eq_some_iff.1 h
      obtain ⟨rfl, rfl⟩ := Prod.mk.inj heq
      exact ⟨.enter x rfl rfl hl, fun y _ hy => ⟨rfl, hy⟩, fun y _ hy => ⟨rfl, hy⟩⟩
    | _ => cases h
  | inside x =>
    cases a with
    | unlock now p₀ =>
      obtain ⟨rfl, rfl⟩ := Prod.mk.inj (Option.some.inj h)
      refine ⟨.leave x rfl ?_ rfl, nofun, nofun⟩
      cases x with
      | cancel p => simp only [LockedTimers.body]; split <;> rfl
      | resetErase p ms fromNow => simp only [LockedTimers.body]; split_ifs <;> rfl
      | isEmpty now => simp only [LockedTimers.body]; split_ifs <;> rfl
      | _ => rfl
    | _ => cases h

variable [Fintype ι] {s s' : Pool ι (LockedTimers ι Cb) TimerThread}

/-- The lock agrees with the threads, in every run. -/
theorem held_of_reachable {G : Pool ι (LockedTimers ι Cb) TimerThread →
      PoolAct ι (TimerThreadAct Cb) Empty → Prop} (hr : lockedTimers.ReachableWhen G s) :
    s.shared.lock.Held fun i => timerSections.held (s.thread i) := by
  refine hr.invariant
    (I := fun s => s.shared.lock.Held fun i => timerSections.held (s.thread i))
    (fun s hs => ?_) fun s a s' _ h _ hst => ?_
  · obtain ⟨⟨heap, hs⟩, hw⟩ := hs
    simp only [hs, hw]
    exact RWLock.held_free
  · rcases interleave_cases hst with ⟨i, b, g, w, rfl, hstep, rfl⟩ | ⟨e, -⟩
    · exact (LockedTimers.step_moves hstep).1.held h
    · exact nomatch e

/-- What a step takes to keep the threads apart. -/
theorem apart_step_iff (hl : s.shared.lock.Held fun i => timerSections.held (s.thread i))
    (h : timerSections.Apart s.thread) {a : PoolAct ι (TimerThreadAct Cb) Empty}
    (hst : lockedTimers.step s a = some s') : timerSections.Apart s'.thread ↔ Unshared s a := by
  rcases interleave_cases hst with ⟨i, b, g, w, rfl, hstep, rfl⟩ | ⟨e, -⟩
  · obtain ⟨hm, henter, henters⟩ := LockedTimers.step_moves hstep
    rw [hm.apart_iff hl h]
    constructor
    · intro hclear
      cases b with
      | lock =>
        intro x hx
        obtain ⟨hnone, hin⟩ := henters x rfl hx
        exact hclear x hnone hin
      | _ => trivial
    · intro hg x hnone hx
      obtain ⟨rfl, hx⟩ := henter x hnone hx
      exact hg x hx
  · exact nomatch e

end

/-- Nobody uses the timers yet. -/
def untouched : Pool (Fin 2) (LockedTimers (Fin 2) ℕ) TimerThread :=
  ⟨⟨.free, ⟨fun _ => .new 0 0 none false, [], 0⟩, 0⟩, fun _ => .out⟩

/-- A thread adds a timer; two threads ask for the next deadline at once. -/
def twoReaders : List (PoolAct (Fin 2) (TimerThreadAct ℕ) Empty) :=
  [.thread 0 (.call (.addTimer 1 100 (some 7) false)), .thread 0 .lock, .thread 0 (.unlock 1 0),
    .thread 0 (.call .getNextTimer), .thread 1 (.call .getNextTimer), .thread 0 .lock,
    .thread 1 .lock]

/-- Two threads insert at once: both take the lock for reading. -/
def twoInserts : List (PoolAct (Fin 2) (TimerThreadAct ℕ) Empty) :=
  [.thread 0 (.call (.addTimer 1 100 (some 7) false)),
    .thread 1 (.call (.addTimer 1 200 (some 8) false)), .thread 0 .lock, .thread 1 .lock]

end YXTWebCpp
