import YXTWebCpp.LTS.Basic
import Mathlib.Data.List.Nodup
import Mathlib.Data.List.Count

/-!
# The task queue of a scheduler

`Scheduler::schedule` appends to `m_fibers`, and every worker takes from it in `Scheduler::run` the
first task that is not pinned to another thread.  Both hold `m_mutex`.

* `FiberAndThread`, `scheduleNoLock`, `scheduleRange`, `dequeue` : the queue as the code has it.
* `Tasks` : the queue with a ticket on every task scheduled, the tickets dequeued, and the workers.
* `reachable_conserved` : **every task is in the queue once or was dequeued once**, by a thread that
  may run it, in order among the tasks with the same thread; and `m_activeThreadCount` is the number
  of workers that are executing a task.
-/

namespace YXTWebCpp

namespace Scheduler

variable {ι F C α : Type*}

/-- `FiberAndThread` -/
structure FiberAndThread (F C : Type*) where
  /-- `fiber` -/
  fiber : Option F
  /-- `cb` -/
  cb : Option C
  /-- `threadID`, -1 for any thread -/
  threadID : ℤ
  deriving DecidableEq, Repr

/-- What `schedule` is given: a fiber or a callback, which may be empty. -/
inductive Arg (F C : Type*) where
  | fiber (f : Option F)
  | cb (c : Option C)
  deriving DecidableEq, Repr

namespace FiberAndThread

/-- The constructors `FiberAndThread(fc, thread)`. -/
def new (thread : ℤ) : Arg F C → FiberAndThread F C
  | .fiber f => ⟨f, none, thread⟩
  | .cb c => ⟨none, c, thread⟩

/-- `ft.fiber || ft.cb` -/
def isTask (ft : FiberAndThread F C) : Bool := ft.fiber.isSome || ft.cb.isSome

end FiberAndThread

/-- `scheduleNoLock(fc, thread)`: whether the queue was empty, and the queue afterwards. -/
def scheduleNoLock (fibers : List (FiberAndThread F C)) (fc : Arg F C) (thread : ℤ) :
    Bool × List (FiberAndThread F C) :=
  let ft := FiberAndThread.new thread fc
  (fibers.isEmpty, if ft.isTask then fibers ++ [ft] else fibers)

/-- `schedule(begin, end)` under the lock: whether to tickle, and the queue afterwards. -/
def scheduleRange (fibers : List (FiberAndThread F C)) (fcs : List (Arg F C)) :
    Bool × List (FiberAndThread F C) :=
  fcs.foldl
    (fun r fc =>
      let r' := scheduleNoLock r.2 fc (-1)
      (r.1 || r'.1, r'.2))
    (false, fibers)

/-- What a worker takes from the queue. -/
structure Dequeued (α : Type*) where
  /-- `ft` -/
  task : Option α
  /-- `m_fibers` afterwards -/
  fibers : List α
  /-- `tickle_me` -/
  tickleMe : Bool
  deriving DecidableEq, Repr

/-- The entry is pinned to a thread other than `tid`. -/
def Elsewhere (thread : α → ℤ) (tid : ℤ) (x : α) : Prop := thread x ≠ -1 ∧ thread x ≠ tid

instance (thread : α → ℤ) (tid : ℤ) (x : α) : Decidable (Elsewhere thread tid x) :=
  inferInstanceAs (Decidable (_ ∧ _))

/-- The loop over `m_fibers` in `run` on the thread `tid`, for entries with a thread id. -/
def dequeue (thread : α → ℤ) (tid : ℤ) : List α → Dequeued α
  | [] => ⟨none, [], false⟩
  | x :: l =>
    if Elsewhere thread tid x then
      let r := dequeue thread tid l
      ⟨r.task, x :: r.fibers, true⟩
    else ⟨some x, l, !l.isEmpty⟩

/-- **What a worker takes**: the first task that is not pinned elsewhere, if there is one.  It
tickles if it leaves any task behind. -/
theorem dequeue_cases (thread : α → ℤ) (tid : ℤ) (l : List α) :
    (∃ before x after, l = before ++ x :: after ∧ (∀ y ∈ before, Elsewhere thread tid y) ∧
      ¬ Elsewhere thread tid x ∧
      dequeue thread tid l = ⟨some x, before ++ after, !(before ++ after).isEmpty⟩) ∨
    ((∀ y ∈ l, Elsewhere thread tid y) ∧ dequeue thread tid l = ⟨none, l, !l.isEmpty⟩) := by
  induction l with
  | nil => exact .inr ⟨by simp, rfl⟩
  | cons x l ih =>
    unfold dequeue
    by_cases hx : Elsewhere thread tid x
    · rw [if_pos hx]
      rcases ih with ⟨before, y, after, rfl, hbefore, hy, heq⟩ | ⟨hall, heq⟩
      · refine .inl ⟨x :: before, y, after, rfl, ?_, hy, ?_⟩
        · rintro z hz
          rcases List.mem_cons.1 hz with rfl | hz
          · exact hx
          · exact hbefore z hz
        · rw [heq]
          rfl
      · refine .inr ⟨?_, ?_⟩
        · rintro z hz
          rcases List.mem_cons.1 hz with rfl | hz
          · exact hx
          · exact hall z hz
        · rw [heq]
          rfl
    · rw [if_neg hx]
      exact .inl ⟨[], x, l, rfl, by simp, hx, rfl⟩

/-- What is attached to the entries makes no difference. -/
theorem dequeue_map {β : Type*} (f : β → α) (thread : α → ℤ) (tid : ℤ) (l : List β) :
    dequeue thread tid (l.map f) =
      ⟨(dequeue (thread ∘ f) tid l).task.map f, (dequeue (thread ∘ f) tid l).fibers.map f,
        (dequeue (thread ∘ f) tid l).tickleMe⟩ := by
  induction l with
  | nil => rfl
  | cons x l ih =>
    rw [List.map_cons]
    unfold dequeue
    rw [ih]
    by_cases hx : Elsewhere thread tid (f x)
    · rw [if_pos hx, if_pos (show Elsewhere (thread ∘ f) tid x from hx)]
      rfl
    · rw [if_neg hx, if_neg (show ¬ Elsewhere (thread ∘ f) tid x from hx)]
      simp

/-! ### Tickets -/

/-- The queue shared by workers `ι`.  The tasks scheduled are numbered. -/
structure Tasks (ι F C : Type*) where
  /-- `m_fibers`, every task with its number. -/
  fibers : List (ℕ × FiberAndThread F C)
  /-- The tasks scheduled so far. -/
  scheduled : List (FiberAndThread F C)
  /-- Who has dequeued what so far. -/
  dequeued : List (ι × ℕ)
  /-- `m_activeThreadCount` -/
  active : ℕ
  /-- The task a worker is executing: it has dequeued it, and has not decremented the counter. -/
  busy : ι → Option ℕ

/-- The steps under `m_mutex`, and the end of a task. -/
inductive TasksAct (ι F C : Type*) where
  | schedule (fc : Arg F C) (thread : ℤ)
  | scheduleRange (fcs : List (Arg F C))
  | dequeue (i : ι)
  | finish (i : ι)

namespace Tasks

/-- `m_fibers` -/
def mFibers (s : Tasks ι F C) : List (FiberAndThread F C) := s.fibers.map Prod.snd

/-- Append a task. -/
def push (s : Tasks ι F C) (ft : FiberAndThread F C) : Tasks ι F C :=
  { s with
    fibers := s.fibers ++ [(s.scheduled.length, ft)]
    scheduled := s.scheduled ++ [ft] }

/-- `scheduleNoLock` with tickets. -/
def scheduleOne (s : Tasks ι F C) (fc : Arg F C) (thread : ℤ) : Tasks ι F C :=
  let ft := FiberAndThread.new thread fc
  if ft.isTask then s.push ft else s

/-- The workers as a transition system; worker `i` is the thread `tid i`. -/
def system [DecidableEq ι] (tid : ι → ℤ) : System (Tasks ι F C) (TasksAct ι F C) where
  init s := s = ⟨[], [], [], 0, fun _ => none⟩
  step s a :=
    match a with
    | .schedule fc thread => some (s.scheduleOne fc thread)
    | .scheduleRange fcs => some (fcs.foldl (fun s fc => s.scheduleOne fc (-1)) s)
    | .dequeue i =>
      if s.busy i = none then
        let r := dequeue (fun x => x.2.threadID) (tid i) s.fibers
        match r.task with
        | some x => some { s with
            fibers := r.fibers
            dequeued := s.dequeued ++ [(i, x.1)]
            active := s.active + 1
            busy := Function.update s.busy i (some x.1) }
        | none => some { s with fibers := r.fibers }
      else none
    | .finish i =>
      if (s.busy i).isSome then
        some { s with active := s.active - 1, busy := Function.update s.busy i none }
      else none

/-- The tickets do not influence what is scheduled. -/
theorem mFibers_scheduleOne (s : Tasks ι F C) (fc : Arg F C) (thread : ℤ) :
    (s.scheduleOne fc thread).mFibers = (scheduleNoLock s.mFibers fc thread).2 := by
  simp only [scheduleOne, scheduleNoLock]
  split_ifs
  · simp [mFibers, push]
  · rfl

theorem mFibers_foldl (fcs : List (Arg F C)) : ∀ (s : Tasks ι F C) (b : Bool),
    (fcs.foldl (fun s fc => s.scheduleOne fc (-1)) s).mFibers =
      (fcs.foldl
        (fun r fc =>
          let r' := scheduleNoLock r.2 fc (-1)
          (r.1 || r'.1, r'.2))
        (b, s.mFibers)).2 := by
  induction fcs with
  | nil => exact fun _ _ => rfl
  | cons fc fcs ih =>
    intro s b
    rw [List.foldl_cons, List.foldl_cons, ih, mFibers_scheduleOne]

/-- The tickets do not influence what is taken. -/
theorem step_dequeue [DecidableEq ι] {tid : ι → ℤ} {s : Tasks ι F C} {i : ι}
    (hbusy : s.busy i = none) {ft : FiberAndThread F C} {fibers : List (FiberAndThread F C)}
    {b : Bool}
    (hd : dequeue FiberAndThread.threadID (tid i) s.mFibers = ⟨some ft, fibers, b⟩) :
    ∃ n fibers', (system tid).step s (.dequeue i) = some { s with
        fibers := fibers'
        dequeued := s.dequeued ++ [(i, n)]
        active := s.active + 1
        busy := Function.update s.busy i (some n) } ∧
      fibers'.map Prod.snd = fibers := by
  have hmap := dequeue_map Prod.snd FiberAndThread.threadID (tid i) s.fibers
  rw [show s.fibers.map Prod.snd = s.mFibers from rfl, hd] at hmap
  obtain ⟨htask, hfibers, -⟩ := Dequeued.mk.inj hmap
  obtain ⟨x, hx, -⟩ := Option.map_eq_some_iff.1 htask.symm
  refine ⟨x.1, (dequeue (FiberAndThread.threadID ∘ Prod.snd) (tid i) s.fibers).fibers, ?_,
    hfibers.symm⟩
  simp only [system, hbusy, ↓reduceIte]
  rw [show dequeue (fun x : ℕ × FiberAndThread F C => x.2.threadID) (tid i) s.fibers =
    dequeue (FiberAndThread.threadID ∘ Prod.snd) (tid i) s.fibers from rfl, hx]

theorem scheduleOne_active (s : Tasks ι F C) (fc : Arg F C) (thread : ℤ) :
    (s.scheduleOne fc thread).active = s.active ∧ (s.scheduleOne fc thread).busy = s.busy := by
  simp only [scheduleOne]
  split_ifs <;> exact ⟨rfl, rfl⟩

theorem foldl_active (fcs : List (Arg F C)) : ∀ s : Tasks ι F C,
    (fcs.foldl (fun s fc => s.scheduleOne fc (-1)) s).active = s.active ∧
      (fcs.foldl (fun s fc => s.scheduleOne fc (-1)) s).busy = s.busy := by
  induction fcs with
  | nil => exact fun _ => ⟨rfl, rfl⟩
  | cons fc fcs ih =>
    intro s
    obtain ⟨ha, hb⟩ := s.scheduleOne_active fc (-1)
    rw [List.foldl_cons, ← ha, ← hb]
    exact ih _

/-- The task with a ticket is to run on the thread `c`. -/
def onThread (s : Tasks ι F C) (c : ℤ) (n : ℕ) : Bool :=
  decide ((s.scheduled[n]?).map FiberAndThread.threadID = some c)

/-- The tickets dequeued, and those still in the queue. -/
def tickets (s : Tasks ι F C) : List ℕ := s.dequeued.map Prod.snd ++ s.fibers.map Prod.fst

/-- The bookkeeping of the queue. -/
structure Inv [Fintype ι] (tid : ι → ℤ) (s : Tasks ι F C) : Prop where
  /-- For every thread, what was dequeued followed by what is queued is what was scheduled. -/
  order : ∀ c, s.tickets.filter (s.onThread c) =
    (List.range s.scheduled.length).filter (s.onThread c)
  task : ∀ x ∈ s.fibers, s.scheduled[x.1]? = some x.2
  isTask : ∀ ft ∈ s.scheduled, ft.isTask = true
  mayRun : ∀ x ∈ s.dequeued, ∃ ft, s.scheduled[x.2]? = some ft ∧
    ¬ Elsewhere FiberAndThread.threadID (tid x.1) ft
  active : s.active = (Finset.univ.filter fun i => (s.busy i).isSome = true).card

section

variable [Fintype ι] {tid : ι → ℤ} {s s' : Tasks ι F C}

theorem Inv.lt_of_mem_tickets (hi : s.Inv tid) {n : ℕ} (hn : n ∈ s.tickets) :
    n < s.scheduled.length := by
  rcases List.mem_append.1 hn with hn | hn
  · obtain ⟨x, hx, rfl⟩ := List.mem_map.1 hn
    obtain ⟨ft, hft, -⟩ := hi.mayRun x hx
    exact (List.getElem?_eq_some_iff.1 hft).1
  · obtain ⟨x, hx, rfl⟩ := List.mem_map.1 hn
    exact (List.getElem?_eq_some_iff.1 (hi.task x hx)).1

theorem Inv.push (hi : s.Inv tid) {ft : FiberAndThread F C} (hft : ft.isTask = true) :
    (s.push ft).Inv tid where
  order c := by
    have hold : ∀ n, n < s.scheduled.length → (s.push ft).onThread c n = s.onThread c n := by
      intro n hn
      simp only [onThread, Tasks.push, List.getElem?_append_left hn]
    have hsplit : (s.push ft).tickets = s.tickets ++ [s.scheduled.length] := by
      simp [tickets, Tasks.push]
    have hlen : (s.push ft).scheduled.length = s.scheduled.length + 1 := by
      simp [Tasks.push]
    rw [hsplit, hlen, List.range_succ, List.filter_append, List.filter_append]
    congr 1
    rw [List.filter_congr fun n hn => hold n (hi.lt_of_mem_tickets hn), hi.order c]
    exact List.filter_congr fun n hn => (hold n (List.mem_range.1 hn)).symm
  task x hx := by
    rcases List.mem_append.1 hx with hx | hx
    · have h := hi.task x hx
      simp only [Tasks.push]
      rw [List.getElem?_append_left (List.getElem?_eq_some_iff.1 h).1, h]
    · obtain rfl := List.mem_singleton.1 hx
      simp [Tasks.push]
  isTask ft' h := by
    rcases List.mem_append.1 h with h | h
    · exact hi.isTask ft' h
    · obtain rfl := List.mem_singleton.1 h
      exact hft
  mayRun x hx := by
    obtain ⟨ft', h, hrun⟩ := hi.mayRun x hx
    refine ⟨ft', ?_, hrun⟩
    simp only [Tasks.push]
    rw [List.getElem?_append_left (List.getElem?_eq_some_iff.1 h).1, h]
  active := hi.active

theorem Inv.scheduleOne (hi : s.Inv tid) (fc : Arg F C) (thread : ℤ) :
    (s.scheduleOne fc thread).Inv tid := by
  simp only [Tasks.scheduleOne]
  split_ifs with hft
  · exact hi.push hft
  · exact hi

theorem Inv.foldl (fcs : List (Arg F C)) : ∀ {s : Tasks ι F C}, s.Inv tid →
    (fcs.foldl (fun s fc => s.scheduleOne fc (-1)) s).Inv tid := by
  induction fcs with
  | nil => exact fun hi => hi
  | cons fc fcs ih => exact fun hi => ih (hi.scheduleOne fc (-1))

/-- Taking the first task that is not pinned elsewhere keeps the order of every thread: those in
front of it are for other threads. -/
theorem Inv.take [DecidableEq ι] (hi : s.Inv tid) {i : ι} (hbusy : s.busy i = none)
    {before after : List (ℕ × FiberAndThread F C)} {x : ℕ × FiberAndThread F C}
    (hl : s.fibers = before ++ x :: after)
    (hbefore : ∀ y ∈ before, Elsewhere (fun x => x.2.threadID) (tid i) y)
    (hx : ¬ Elsewhere (fun x : ℕ × FiberAndThread F C => x.2.threadID) (tid i) x) :
    Inv tid { s with
      fibers := before ++ after
      dequeued := s.dequeued ++ [(i, x.1)]
      active := s.active + 1
      busy := Function.update s.busy i (some x.1) } where
  order c := by
    have hmem : x ∈ s.fibers := by simp [hl]
    have hthread : ∀ y ∈ s.fibers, s.onThread c y.1 = decide (y.2.threadID = c) := by
      intro y hy
      simp [onThread, hi.task y hy]
    refine Eq.trans ?_ (hi.order c)
    change (tickets _).filter (s.onThread c) = _
    simp only [tickets, hl, List.map_append, List.map_cons, List.map_nil, List.filter_append,
      List.append_assoc, List.filter_cons, List.filter_nil]
    congr 1
    by_cases hc : x.2.threadID = c
    · -- the tasks in front are for other threads
      have hnil : (before.map Prod.fst).filter (s.onThread c) = [] := by
        refine List.filter_eq_nil_iff.2 fun n hn => ?_
        obtain ⟨y, hy, rfl⟩ := List.mem_map.1 hn
        rw [hthread y (by simp [hl, hy])]
        simp only [decide_eq_true_eq]
        rintro hyc
        obtain ⟨hany, hown⟩ := hbefore y hy
        simp only [hyc] at hany hown
        rw [← hc] at hany hown
        exact hx ⟨hany, hown⟩
      simp only [hnil, List.nil_append]
      split_ifs <;> rfl
    · have hno : s.onThread c x.1 = false := by
        rw [hthread x hmem]
        simpa using hc
      simp [hno]
  task y hy := by
    refine hi.task y ?_
    rw [hl]
    rcases List.mem_append.1 hy with hy | hy
    · simp [hy]
    · simp [hy]
  isTask := hi.isTask
  mayRun y hy := by
    rcases List.mem_append.1 hy with hy | hy
    · exact hi.mayRun y hy
    · obtain rfl := List.mem_singleton.1 hy
      exact ⟨x.2, hi.task x (by simp [hl]), hx⟩
  active := by
    have hcard := card_update (fun b : Option ℕ => b.isSome = true) s.busy i (some x.1)
    simp only [hbusy, Option.isSome_none, Bool.false_eq_true, ↓reduceIte,
      Option.isSome_some] at hcard
    simp only [hi.active]
    omega

theorem Inv.finish [DecidableEq ι] (hi : s.Inv tid) {i : ι} (hbusy : (s.busy i).isSome = true) :
    Inv tid { s with active := s.active - 1, busy := Function.update s.busy i none } where
  order := hi.order
  task := hi.task
  isTask := hi.isTask
  mayRun := hi.mayRun
  active := by
    have hcard := card_update (fun b : Option ℕ => b.isSome = true) s.busy i none
    simp only [hbusy, ↓reduceIte, Option.isSome_none, Bool.false_eq_true] at hcard
    simp only [hi.active]
    omega

theorem Inv.step [DecidableEq ι] (hi : s.Inv tid) {a : TasksAct ι F C}
    (hst : (system tid).step s a = some s') :
    s'.Inv tid := by
  cases a with
  | schedule fc thread =>
    obtain rfl := Option.some.inj hst
    exact hi.scheduleOne fc thread
  | scheduleRange fcs =>
    obtain rfl := Option.some.inj hst
    exact Inv.foldl fcs hi
  | dequeue i =>
    simp only [system] at hst
    split_ifs at hst with hbusy
    rcases dequeue_cases (fun x : ℕ × FiberAndThread F C => x.2.threadID) (tid i) s.fibers with
      ⟨before, x, after, hl, hbefore, hx, heq⟩ | ⟨-, heq⟩
    · rw [heq] at hst
      obtain rfl := Option.some.inj hst
      exact hi.take hbusy hl hbefore hx
    · rw [heq] at hst
      obtain rfl := Option.some.inj hst
      exact hi
  | finish i =>
    simp only [system] at hst
    split_ifs at hst with hbusy
    obtain rfl := Option.some.inj hst
    exact hi.finish hbusy

theorem Inv.of_reachable [DecidableEq ι] (hr : (system tid).Reachable s) : s.Inv tid := by
  refine hr.invariant (fun s hs => ?_) fun _ _ _ _ hi _ hst => hi.step hst
  subst hs
  exact ⟨fun _ => rfl, by simp, by simp, by simp, by simp⟩

/-- Every ticket is in the queue or among those dequeued, once. -/
theorem Inv.count_tickets (hi : s.Inv tid) {n : ℕ} (hn : n < s.scheduled.length) :
    s.tickets.count n = 1 := by
  have hc : s.onThread s.scheduled[n].threadID n = true := by
    simp [onThread, List.getElem?_eq_getElem hn]
  calc s.tickets.count n = (s.tickets.filter (s.onThread _)).count n := (List.count_filter hc).symm
    _ = ((List.range s.scheduled.length).filter (s.onThread _)).count n := by rw [hi.order]
    _ = (List.range s.scheduled.length).count n := List.count_filter hc
    _ = 1 := List.count_eq_one_of_mem List.nodup_range (List.mem_range.2 hn)

/-- The tickets for a thread are in order. -/
theorem Inv.pairwise_tickets (hi : s.Inv tid) (c : ℤ) :
    (s.tickets.filter (s.onThread c)).Pairwise (· < ·) := by
  rw [hi.order c]
  exact List.pairwise_lt_range.filter _

end

/-- What the queue guarantees. -/
structure Conserved [Fintype ι] (tid : ι → ℤ) (s : Tasks ι F C) : Prop where
  /-- A task is in the queue once, or was dequeued once, not both. -/
  once : ∀ n < s.scheduled.length,
    (s.dequeued.map Prod.snd).count n + (s.fibers.map Prod.fst).count n = 1
  /-- What stands in the queue is what was scheduled, and is not empty. -/
  task : ∀ x ∈ s.fibers, s.scheduled[x.1]? = some x.2 ∧ x.2.isTask = true
  /-- A task is dequeued by a thread that may run it. -/
  pinned : ∀ x ∈ s.dequeued, ∃ ft, s.scheduled[x.2]? = some ft ∧
    (ft.threadID = -1 ∨ ft.threadID = tid x.1)
  /-- Tasks with the same thread id are dequeued in the order in which they were scheduled. -/
  sorted : ∀ c, ((s.dequeued.map Prod.snd).filter (s.onThread c)).Pairwise (· < ·)
  /-- None of them overtakes another one that is still in the queue. -/
  noOvertaking : ∀ c n m, n < m → s.onThread c n = true → s.onThread c m = true →
    m ∈ s.dequeued.map Prod.snd → n ∈ s.dequeued.map Prod.snd
  /-- The counter is the number of workers that are executing a task. -/
  active : s.active = (Finset.univ.filter fun i => (s.busy i).isSome = true).card

theorem Inv.conserved [Fintype ι] {tid : ι → ℤ} {s : Tasks ι F C} (hi : s.Inv tid) :
    s.Conserved tid where
  once n hn := by
    have hcount := hi.count_tickets hn
    rwa [tickets, List.count_append] at hcount
  task x hx := by
    have h := hi.task x hx
    exact ⟨h, hi.isTask x.2 (List.mem_of_getElem? h)⟩
  pinned x hx := by
    obtain ⟨ft, h, hrun⟩ := hi.mayRun x hx
    refine ⟨ft, h, ?_⟩
    by_contra hc
    exact hrun (not_or.1 hc)
  sorted c := by
    have hsort := hi.pairwise_tickets c
    rw [tickets, List.filter_append] at hsort
    exact (List.pairwise_append.1 hsort).1
  noOvertaking c n m hlt hn hm hdeq := by
    have hnlen : n < s.scheduled.length := by
      by_contra hlen
      simp [onThread, List.getElem?_eq_none (not_lt.1 hlen)] at hn
    have hmem : n ∈ s.tickets := List.count_pos_iff.1 (by rw [hi.count_tickets hnlen]; omega)
    rcases List.mem_append.1 hmem with h | h
    · exact h
    · -- a ticket in the queue is behind all dequeued ones of its thread
      have hsort := hi.pairwise_tickets c
      rw [tickets, List.filter_append] at hsort
      have := (List.pairwise_append.1 hsort).2.2 m (List.mem_filter.2 ⟨hdeq, hm⟩) n
        (List.mem_filter.2 ⟨h, hn⟩)
      omega
  active := hi.active

/-- **Task conservation.**  In every state reached by any interleaving of calls of `schedule` with
the workers' steps, every task scheduled is in `m_fibers` once or was dequeued once, a pinned task
only by its thread, the tasks with one thread id in the order in which they were scheduled; and
`m_activeThreadCount` is the number of workers between a dequeue and the end of the task. -/
theorem reachable_conserved [DecidableEq ι] [Fintype ι] {tid : ι → ℤ} {s : Tasks ι F C}
    (hr : (system tid).Reachable s) : s.Conserved tid :=
  (Inv.of_reachable hr).conserved

/-- Worker 0 skips the task pinned to worker 1, and takes the next one. -/
theorem reachable_conserved_pinned :
    ∃ s, (system (fun i : Fin 2 => (i.val : ℤ) + 10)).run (fun _ _ => True)
        ⟨[], [], [], 0, fun _ => none⟩
        [.schedule (.fiber (some 7)) 11, .scheduleRange [.cb (some 8), .cb none, .cb (some 9)],
          .dequeue 0, .dequeue 1, .finish 0] = some s ∧
      s.dequeued = [(0, 1), (1, 0)] ∧ s.fibers = [(2, ⟨none, some 9, -1⟩)] ∧ s.active = 1 ∧
      (s : Tasks (Fin 2) ℕ ℕ).Conserved fun i => (i.val : ℤ) + 10 := by
  obtain ⟨s, hrun⟩ : ∃ s, (system (fun i : Fin 2 => (i.val : ℤ) + 10)).run (fun _ _ => True)
      (⟨[], [], [], 0, fun _ => none⟩ : Tasks (Fin 2) ℕ ℕ)
      [.schedule (.fiber (some 7)) 11, .scheduleRange [.cb (some 8), .cb none, .cb (some 9)],
        .dequeue 0, .dequeue 1, .finish 0] = some s :=
    Option.isSome_iff_exists.1 (by decide +kernel)
  have hs : ((system (fun i : Fin 2 => (i.val : ℤ) + 10)).run (fun _ _ => True)
      (⟨[], [], [], 0, fun _ => none⟩ : Tasks (Fin 2) ℕ ℕ)
      [.schedule (.fiber (some 7)) 11, .scheduleRange [.cb (some 8), .cb none, .cb (some 9)],
        .dequeue 0, .dequeue 1, .finish 0]).map (fun s => (s.dequeued, s.fibers, s.active)) =
      some ([(0, 1), (1, 0)], [(2, ⟨none, some 9, -1⟩)], 1) := by
    decide +kernel
  rw [hrun] at hs
  obtain ⟨h1, h2⟩ := Prod.mk.inj (Option.some.inj hs)
  obtain ⟨h2, h3⟩ := Prod.mk.inj h2
  exact ⟨s, hrun, h1, h2, h3, reachable_conserved (System.reachableWhen_of_run rfl hrun)⟩

end Tasks

end Scheduler

end YXTWebCpp
