import YXTWebCpp.LTS.Basic
import Mathlib.Algebra.BigOperators.Group.List.Basic

/-!
# Starting the threads of a scheduler

`Scheduler::start` (`scheduler.cpp`) makes its threads one after another while it holds `m_mutex`.
The constructor of `Thread` (`thread.cpp`) waits until the new thread has said who it is and has
taken its callback; the callback is `Scheduler::run`, which begins with taking `m_mutex`.

* `Worker` : a thread with its `Thread`, between `pthread_create` and the first task.
* `Starting` : a call of `start`, and the threads that it has made.
* `starting` : all orders of their steps.
* `Begun` : what holds of the threads that `start` has waited for.
* `start_pool` : **`start` returns with the ids of all its threads, none of which has looked for a
  task before, and the threads begin to run**; if a thread cannot be made, a pointer stays null.
-/

namespace YXTWebCpp

namespace Scheduler

/-- Where a new thread is. -/
inductive WorkerPos where
  /-- At the beginning of `Thread::run`. -/
  | started
  /-- `mRealThreadId` is set. -/
  | identified
  /-- The callback is taken. -/
  | swapped
  /-- The semaphore is notified. -/
  | notified
  /-- It has taken `m_mutex` for the first time. -/
  | running
  deriving DecidableEq

/-- A new thread and its `Thread`. -/
structure Worker where
  /-- `GetThreadId()` in the thread. -/
  tid : ℤ
  /-- `mRealThreadId` -/
  realThreadId : ℤ
  /-- `m_cb` is not empty. -/
  cb : Bool
  /-- The value of `m_semaphore`. -/
  semaphore : ℕ
  pos : WorkerPos
  deriving DecidableEq

/-- Where `start` is. -/
inductive Starter where
  /-- At the head of the loop. -/
  | loop
  /-- In the constructor of `Thread`, in front of `m_semaphore.wait()`. -/
  | waiting
  /-- In front of `m_threadIDs.push_back`. -/
  | push
  | returned
  /-- `pthread_create` has failed, and the constructor has thrown. -/
  | threw
  deriving DecidableEq

/-- A call of `start`; it holds `m_mutex` until it has returned or thrown. -/
structure Starting where
  starter : Starter
  /-- The threads that have been made. -/
  workers : List Worker
  /-- `m_threads`: null, or the number of a thread. -/
  threads : List (Option ℕ)
  /-- `m_threadIDs` -/
  threadIDs : List ℤ

/-- The steps. -/
inductive StartAct where
  /-- `pthread_create` makes a thread. -/
  | create (tid : ℤ)
  /-- `pthread_create` fails. -/
  | fail
  /-- `m_semaphore.wait()` returns, and `m_threads[i]` is set. -/
  | wait
  /-- `m_threadIDs.push_back(m_threads[i]->getThreadId())` -/
  | push
  /-- The loop is over. -/
  | finish
  /-- A new thread goes on. -/
  | worker (j : ℕ)

/-- `Thread(cb, name)` with a new thread. -/
def Worker.new (tid : ℤ) : Worker := ⟨tid, -1, true, 0, .started⟩

/-- The next step of a new thread. -/
def Worker.step (free : Bool) (w : Worker) : Option Worker :=
  match w.pos with
  | .started => some { w with realThreadId := w.tid, pos := .identified }
  | .identified => some { w with cb := false, pos := .swapped }
  | .swapped => some { w with semaphore := w.semaphore + 1, pos := .notified }
  | .notified => if free then some { w with pos := .running } else none
  | .running => none

namespace Starting

variable (s : Starting)

/-- `m_mutex` is free. -/
def free : Bool := decide (s.starter = .returned) || decide (s.starter = .threw)

/-- `m_semaphore.wait()` of the last `Thread` returns, and `m_threads[i]` is set. -/
def wait (w : Worker) : Starting :=
  { s with
    starter := .push
    workers := s.workers.dropLast ++ [{ w with semaphore := w.semaphore - 1 }]
    threads := s.threads.set (s.workers.length - 1) (some (s.workers.length - 1)) }

/-- `m_threadIDs.push_back(m_threads[i]->getThreadId())` -/
def push (w : Worker) : Starting :=
  { s with starter := .loop, threadIDs := s.threadIDs ++ [w.realThreadId] }

/-- What a step does in a call of `start` for `n` threads. -/
def step (n : ℕ) : StartAct → Option Starting
  | .create tid =>
    if s.starter = .loop ∧ s.workers.length < n then
      some { s with starter := .waiting, workers := s.workers ++ [.new tid] }
    else none
  | .fail =>
    if s.starter = .loop ∧ s.workers.length < n then some { s with starter := .threw } else none
  | .wait =>
    s.workers.getLast?.bind fun w =>
      if s.starter = .waiting ∧ 0 < w.semaphore then some (s.wait w) else none
  | .push =>
    s.workers.getLast?.bind fun w => if s.starter = .push then some (s.push w) else none
  | .finish =>
    if s.starter = .loop ∧ s.workers.length = n then some { s with starter := .returned } else none
  | .worker j =>
    (s.workers[j]?.bind (Worker.step s.free)).map fun w =>
      { s with workers := s.workers.set j w }

end Starting

/-- The call of `start` and the new threads, when there are `n` threads to make and the ids `ids`
are known already. -/
def starting (n : ℕ) (ids : List ℤ) : System Starting StartAct where
  init s := s = ⟨.loop, [], List.replicate n none, ids⟩
  step s a := s.step n a

/-! ### The new threads -/

namespace Worker

/-- What its `Thread` says of a new thread. -/
structure Told (w : Worker) : Prop where
  tid : w.pos ≠ .started → w.realThreadId = w.tid
  cb : w.pos ≠ .started → w.pos ≠ .identified → w.cb = false

/-- A thread that `start` has waited for; it runs only when `m_mutex` is free. -/
structure Begun (free : Bool) (w : Worker) : Prop where
  told : w.Told
  semaphore : w.semaphore = 0
  pos : w.pos = .notified ∨ free = true ∧ w.pos = .running

/-- A thread that `start` waits for. -/
structure Awaited (w : Worker) : Prop where
  told : w.Told
  semaphore : w.semaphore = if w.pos = .notified then 1 else 0
  pos : w.pos ≠ .running

/-- The steps until a thread runs. -/
def rank (w : Worker) : ℕ :=
  match w.pos with
  | .started => 4
  | .identified => 3
  | .swapped => 2
  | .notified => 1
  | .running => 0

variable {w w' : Worker} {free : Bool}

theorem step_cases (h : w.step free = some w') :
    w.pos = .started ∧ w' = { w with realThreadId := w.tid, pos := .identified } ∨
      w.pos = .identified ∧ w' = { w with cb := false, pos := .swapped } ∨
      w.pos = .swapped ∧ w' = { w with semaphore := w.semaphore + 1, pos := .notified } ∨
      w.pos = .notified ∧ free = true ∧ w' = { w with pos := .running } := by
  rw [step] at h
  cases hp : w.pos <;> rw [hp] at h
  case started => exact .inl ⟨rfl, (Option.some.inj h).symm⟩
  case identified => exact .inr (.inl ⟨rfl, (Option.some.inj h).symm⟩)
  case swapped => exact .inr (.inr (.inl ⟨rfl, (Option.some.inj h).symm⟩))
  case notified =>
    simp only at h
    split_ifs at h with hfree
    exact .inr (.inr (.inr ⟨rfl, hfree, (Option.some.inj h).symm⟩))
  case running => cases h

theorem rank_step (h : w.step free = some w') : w'.rank + 1 = w.rank ∧ w'.tid = w.tid := by
  rcases step_cases h with ⟨hp, rfl⟩ | ⟨hp, rfl⟩ | ⟨hp, rfl⟩ | ⟨hp, -, rfl⟩ <;>
    simp [rank, hp]

theorem Told.step (ht : w.Told) (h : w.step free = some w') : w'.Told := by
  rcases step_cases h with ⟨-, rfl⟩ | ⟨hp, rfl⟩ | ⟨hp, rfl⟩ | ⟨hp, -, rfl⟩
  · exact ⟨fun _ => rfl, fun _ hp => absurd rfl hp⟩
  · exact ⟨fun _ => ht.tid (by rw [hp]; decide), fun _ _ => rfl⟩
  · exact ⟨fun _ => ht.tid (by rw [hp]; decide),
      fun _ _ => ht.cb (by rw [hp]; decide) (by rw [hp]; decide)⟩
  · exact ⟨fun _ => ht.tid (by rw [hp]; decide),
      fun _ _ => ht.cb (by rw [hp]; decide) (by rw [hp]; decide)⟩

theorem Begun.step (hb : w.Begun free) (h : w.step free = some w') : w'.Begun free := by
  rcases step_cases h with ⟨hp, -⟩ | ⟨hp, -⟩ | ⟨hp, -⟩ | ⟨-, hfree, rfl⟩
  · simpa [hp] using hb.pos
  · simpa [hp] using hb.pos
  · simpa [hp] using hb.pos
  · exact ⟨hb.told.step h, hb.semaphore, .inr ⟨hfree, rfl⟩⟩

theorem Begun.mono (hb : w.Begun false) : w.Begun free :=
  ⟨hb.told, hb.semaphore, .inl (hb.pos.resolve_right fun h => Bool.false_ne_true h.1)⟩

/-- A thread begins. -/
theorem Awaited.of_new (tid : ℤ) : (Worker.new tid).Awaited :=
  ⟨⟨fun h => absurd rfl h, fun h => absurd rfl h⟩, rfl, by simp [new]⟩

/-- `m_mutex` is taken while `start` waits. -/
theorem Awaited.step (ha : w.Awaited) (h : w.step false = some w') : w'.Awaited := by
  obtain ⟨htold, hsem, -⟩ := ha
  have htold' := htold.step h
  rcases step_cases h with ⟨hp, rfl⟩ | ⟨hp, rfl⟩ | ⟨hp, rfl⟩ | ⟨-, hfree, -⟩
  · exact ⟨htold', by simpa [hp] using hsem, by simp⟩
  · exact ⟨htold', by simpa [hp] using hsem, by simp⟩
  · exact ⟨htold', by simpa [hp] using hsem, by simp⟩
  · cases hfree

/-- The wait of `start` is over when the thread has notified it. -/
theorem Awaited.wait (ha : w.Awaited) (h : 0 < w.semaphore) :
    Begun false { w with semaphore := w.semaphore - 1 } := by
  obtain ⟨htold, hsem, -⟩ := ha
  have hp : w.pos = .notified := by
    by_contra hn
    rw [hsem, if_neg hn] at h
    exact absurd h (lt_irrefl 0)
  rw [if_pos hp] at hsem
  exact ⟨⟨htold.tid, htold.cb⟩, by simp [hsem], .inl hp⟩

theorem Begun.realThreadId (hb : w.Begun free) : w.realThreadId = w.tid := by
  refine hb.told.tid ?_
  rcases hb.pos with hp | ⟨-, hp⟩ <;> simp [hp]

theorem Begun.cb (hb : w.Begun free) : w.cb = false := by
  refine hb.told.cb ?_ ?_ <;> rcases hb.pos with hp | ⟨-, hp⟩ <;> simp [hp]

/-- Only a thread that runs, or that needs `m_mutex`, has no step. -/
theorem step_eq_none_iff :
    w.step free = none ↔ w.pos = .running ∨ w.pos = .notified ∧ free = false := by
  rw [step]
  cases w.pos <;> cases free <;> simp

end Worker

/-! ### The call of `start` -/

/-- `m_threads` when the first `k` of `n` pointers are set. -/
def slots (n k : ℕ) : List (Option ℕ) :=
  (List.range k).map some ++ List.replicate (n - k) none

theorem slots_set {n k : ℕ} (h : k < n) : (slots n k).set k (some k) = slots n (k + 1) := by
  obtain ⟨m, hm⟩ : ∃ m, n - k = m + 1 := ⟨n - k - 1, by omega⟩
  have hm' : n - (k + 1) = m := by omega
  unfold slots
  rw [hm, hm', List.set_append_right _ _ (by simp), List.range_succ]
  simp [List.replicate_succ]

/-- What is reached: every thread but the one that `start` waits for has begun. -/
inductive Reached (n : ℕ) (l : List ℤ) : Starting → Prop
  | loop {ws : List Worker} : (∀ w ∈ ws, w.Begun false) → ws.length ≤ n →
      Reached n l ⟨.loop, ws, slots n ws.length, l ++ ws.map Worker.tid⟩
  | waiting {ws : List Worker} {w : Worker} : (∀ w ∈ ws, w.Begun false) → w.Awaited →
      ws.length < n →
      Reached n l ⟨.waiting, ws ++ [w], slots n ws.length, l ++ ws.map Worker.tid⟩
  | push {ws : List Worker} {w : Worker} : (∀ w ∈ ws, w.Begun false) → w.Begun false →
      ws.length < n →
      Reached n l ⟨.push, ws ++ [w], slots n (ws.length + 1), l ++ ws.map Worker.tid⟩
  | returned {ws : List Worker} : (∀ w ∈ ws, w.Begun true) → ws.length = n →
      Reached n l ⟨.returned, ws, slots n ws.length, l ++ ws.map Worker.tid⟩
  | threw {ws : List Worker} : (∀ w ∈ ws, w.Begun true) → ws.length < n →
      Reached n l ⟨.threw, ws, slots n ws.length, l ++ ws.map Worker.tid⟩

/-- The thread that takes a step. -/
theorem workers_cases {free : Bool} {ws : List Worker} {j : ℕ} {w' : Worker}
    (h : ws[j]?.bind (Worker.step free) = some w') :
    ∃ pre w post, ws = pre ++ w :: post ∧ w.step free = some w' ∧
      ws.set j w' = pre ++ w' :: post := by
  obtain ⟨w, hw, hstep⟩ := Option.bind_eq_some_iff.1 h
  obtain ⟨hj, rfl⟩ := List.getElem?_eq_some_iff.1 hw
  refine ⟨ws.take j, ws[j], ws.drop (j + 1), ?_, hstep, List.set_eq_take_cons_drop w' hj⟩
  rw [List.getElem_cons_drop, List.take_append_drop]

theorem begun_set {free : Bool} {ws : List Worker} {j : ℕ} {w' : Worker}
    (hws : ∀ w ∈ ws, w.Begun free) (h : ws[j]?.bind (Worker.step free) = some w') :
    (∀ w ∈ ws.set j w', w.Begun free) ∧ (ws.set j w').map Worker.tid = ws.map Worker.tid := by
  obtain ⟨pre, w, post, rfl, hstep, hset⟩ := workers_cases h
  rw [hset]
  constructor
  · intro v hv
    rcases List.mem_append.1 hv with hv | hv
    · exact hws v (List.mem_append_left _ hv)
    · rcases List.mem_cons.1 hv with rfl | hv
      · exact (hws w (by simp)).step hstep
      · exact hws v (List.mem_append_right _ (List.mem_cons_of_mem _ hv))
  · simp [(Worker.rank_step hstep).2]

/-- Either the last thread takes the step or one before it. -/
theorem concat_cases {free : Bool} {ws : List Worker} {w w' : Worker} {j : ℕ}
    (h : (ws ++ [w])[j]?.bind (Worker.step free) = some w') :
    ws[j]?.bind (Worker.step free) = some w' ∧ (ws ++ [w]).set j w' = ws.set j w' ++ [w] ∨
      w.step free = some w' ∧ (ws ++ [w]).set j w' = ws ++ [w'] := by
  by_cases hj : j < ws.length
  · rw [List.getElem?_append_left hj] at h
    exact .inl ⟨h, List.set_append_left _ _ hj⟩
  · obtain ⟨k, rfl⟩ := Nat.exists_eq_add_of_le (Nat.le_of_not_lt hj)
    rw [List.getElem?_append_right (by omega), Nat.add_sub_cancel_left] at h
    rw [List.set_append_right _ _ (by omega), Nat.add_sub_cancel_left]
    cases k with
    | zero => exact .inr ⟨h, rfl⟩
    | succ k => cases h

variable {n : ℕ} {ids : List ℤ} {s s' : Starting}

/-- **What a step can do.** -/
theorem starting_cases {a : StartAct} (h : s.step n a = some s') :
    (∃ tid, s.starter = .loop ∧ s.workers.length < n ∧
        s' = { s with starter := .waiting, workers := s.workers ++ [.new tid] }) ∨
      (s.starter = .loop ∧ s.workers.length < n ∧ s' = { s with starter := .threw }) ∨
      (∃ ws w, s.starter = .waiting ∧ s.workers = ws ++ [w] ∧ 0 < w.semaphore ∧ s' = s.wait w) ∨
      (∃ ws w, s.starter = .push ∧ s.workers = ws ++ [w] ∧ s' = s.push w) ∨
      (s.starter = .loop ∧ s.workers.length = n ∧ s' = { s with starter := .returned }) ∨
      ∃ j w, s.workers[j]?.bind (Worker.step s.free) = some w ∧
        s' = { s with workers := s.workers.set j w } := by
  cases a with
  | create tid =>
    rw [Starting.step] at h
    split_ifs at h with hc
    exact .inl ⟨tid, hc.1, hc.2, (Option.some.inj h).symm⟩
  | fail =>
    rw [Starting.step] at h
    split_ifs at h with hc
    exact .inr (.inl ⟨hc.1, hc.2, (Option.some.inj h).symm⟩)
  | wait =>
    obtain ⟨w, hw, h⟩ := Option.bind_eq_some_iff.1 h
    split_ifs at h with hc
    obtain ⟨ws, hws⟩ := List.getLast?_eq_some_iff.1 hw
    exact .inr (.inr (.inl ⟨ws, w, hc.1, hws, hc.2, (Option.some.inj h).symm⟩))
  | push =>
    obtain ⟨w, hw, h⟩ := Option.bind_eq_some_iff.1 h
    split_ifs at h with hc
    obtain ⟨ws, hws⟩ := List.getLast?_eq_some_iff.1 hw
    exact .inr (.inr (.inr (.inl ⟨ws, w, hc, hws, (Option.some.inj h).symm⟩)))
  | finish =>
    rw [Starting.step] at h
    split_ifs at h with hc
    exact .inr (.inr (.inr (.inr (.inl ⟨hc.1, hc.2, (Option.some.inj h).symm⟩))))
  | worker j =>
    obtain ⟨w, hw, hs'⟩ := Option.map_eq_some_iff.1 h
    exact .inr (.inr (.inr (.inr (.inr ⟨j, w, hw, hs'.symm⟩))))

theorem forall_mem_concat {p : Worker → Prop} {ws : List Worker} {w : Worker}
    (hws : ∀ v ∈ ws, p v) (hw : p w) : ∀ v ∈ ws ++ [w], p v := by
  intro v hv
  rcases List.mem_append.1 hv with hv | hv
  · exact hws v hv
  · obtain rfl := List.mem_singleton.1 hv
    exact hw

/-- A thread goes on. -/
theorem Reached.worker {j : ℕ} {w' : Worker} (hs : Reached n ids s)
    (h : s.workers[j]?.bind (Worker.step s.free) = some w') :
    Reached n ids { s with workers := s.workers.set j w' } := by
  cases hs with
  | @loop ws hws hn =>
    obtain ⟨hws', htid⟩ := begun_set hws h
    simpa [htid] using Reached.loop (l := ids) hws' (by simpa using hn)
  | @waiting ws w hws hw hn =>
    rcases concat_cases h with ⟨hbegun, hset⟩ | ⟨hlast, hset⟩
    · obtain ⟨hws', htid⟩ := begun_set hws hbegun
      simpa [hset, htid] using Reached.waiting (l := ids) hws' hw (by simpa using hn)
    · simpa only [hset] using Reached.waiting hws (hw.step hlast) hn
  | @push ws w hws hw hn =>
    rcases concat_cases h with ⟨hbegun, hset⟩ | ⟨hlast, hset⟩
    · obtain ⟨hws', htid⟩ := begun_set hws hbegun
      simpa [hset, htid] using Reached.push (l := ids) hws' hw (by simpa using hn)
    · simpa only [hset] using Reached.push hws (hw.step hlast) hn
  | @returned ws hws hn =>
    obtain ⟨hws', htid⟩ := begun_set hws h
    simpa [htid] using Reached.returned (l := ids) hws' (by simpa using hn)
  | @threw ws hws hn =>
    obtain ⟨hws', htid⟩ := begun_set hws h
    simpa [htid] using Reached.threw (l := ids) hws' (by simpa using hn)

theorem Reached.step {a : StartAct} (hs : Reached n ids s) (h : s.step n a = some s') :
    Reached n ids s' := by
  rcases starting_cases h with ⟨tid, hloop, hn, rfl⟩ | ⟨hloop, hn, rfl⟩ |
    ⟨ws, w, hwaiting, hws, hsem, rfl⟩ | ⟨ws, w, hpush, hws, rfl⟩ | ⟨hloop, hn, rfl⟩ |
    ⟨j, w, hw, rfl⟩
  · cases hs with
    | loop hbegun _ => exact .waiting hbegun (.of_new tid) hn
    | waiting | push | returned | threw => cases hloop
  · cases hs with
    | loop hbegun _ => exact .threw (fun w hw => (hbegun w hw).mono) hn
    | waiting | push | returned | threw => cases hloop
  · cases hs with
    | @waiting ws v hbegun hv hn =>
      obtain ⟨rfl, hvw⟩ := List.append_inj' hws rfl
      obtain rfl := (List.cons.inj hvw).1
      have hwait := Reached.push (l := ids) hbegun (hv.wait hsem) hn
      rw [← slots_set hn] at hwait
      simpa [Starting.wait] using hwait
    | loop | push | returned | threw => cases hwaiting
  · cases hs with
    | @push ws v hbegun hv hn =>
      obtain ⟨rfl, hvw⟩ := List.append_inj' hws rfl
      obtain rfl := (List.cons.inj hvw).1
      have hloop := Reached.loop (n := n) (l := ids) (forall_mem_concat hbegun hv)
        (by simpa using Nat.succ_le_of_lt hn)
      simpa [Starting.push, hv.realThreadId] using hloop
    | loop | waiting | returned | threw => cases hpush
  · cases hs with
    | loop hbegun _ => exact .returned (fun w hw => (hbegun w hw).mono) hn
    | waiting | push | returned | threw => cases hloop
  · exact hs.worker hw

theorem Reached.of_reachable (h : (starting n ids).Reachable s) : Reached n ids s := by
  refine h.invariant ?_ fun s a s' _ hs _ hstep => hs.step hstep
  rintro s rfl
  have hloop : Reached n ids ⟨.loop, [], slots n 0, ids ++ [].map Worker.tid⟩ :=
    .loop (by simp) (Nat.zero_le n)
  simpa [slots] using hloop

/-! ### The end of `start` -/

/-- The steps that are left. -/
def Starting.rank (n : ℕ) (s : Starting) : ℕ :=
  (n - s.workers.length) * 8 + (s.workers.map Worker.rank).sum +
    match s.starter with
    | .loop => 1
    | .waiting => 3
    | .push => 2
    | .returned | .threw => 0

theorem rank_of_step {a : StartAct} (h : s.step n a = some s') : s'.rank n < s.rank n := by
  rcases starting_cases h with ⟨tid, hloop, hn, rfl⟩ | ⟨hloop, -, rfl⟩ |
    ⟨ws, w, hwaiting, hws, -, rfl⟩ | ⟨ws, w, hpush, -, rfl⟩ | ⟨hloop, -, rfl⟩ | ⟨j, w, hw, rfl⟩
  · have hnew : (Worker.new tid).rank = 4 := rfl
    simp only [Starting.rank, hloop, List.length_append, List.length_singleton, List.map_append,
      List.map_singleton, List.sum_append, List.sum_singleton, hnew]
    omega
  · simp [Starting.rank, hloop]
  · have hrank : Worker.rank { w with semaphore := w.semaphore - 1 } = w.rank := rfl
    simp [Starting.rank, Starting.wait, hwaiting, hws, hrank]
  · simp [Starting.rank, Starting.push, hpush]
  · simp [Starting.rank, hloop]
  · obtain ⟨pre, v, post, hws, hstep, hset⟩ := workers_cases hw
    have hrank := (Worker.rank_step hstep).1
    simp only [Starting.rank, hset]
    simp only [hws, List.map_append, List.map_cons, List.sum_append, List.sum_cons,
      List.length_append, List.length_cons]
    omega

/-- There is a step as long as `start` is not over or a thread does not run. -/
theorem stuck_iff (hs : Reached n ids s) :
    (∀ a, s.step n a = none) ↔ s.free = true ∧ ∀ w ∈ s.workers, w.pos = .running := by
  have hworker : ∀ {w}, w ∈ s.workers → (∀ a, s.step n a = none) → w.step s.free = none := by
    intro w hw h
    obtain ⟨j, hj⟩ := List.mem_iff_getElem?.1 hw
    have := h (.worker j)
    simpa [Starting.step, hj] using this
  constructor
  · intro h
    have hover : s.free = true := by
      cases hs with
      | @loop ws _ hn =>
        rcases Nat.lt_or_eq_of_le hn with hlt | heq
        · simpa [Starting.step, hlt] using h .fail
        · simpa [Starting.step, heq] using h .finish
      | @waiting ws w _ hw _ =>
        have hlast : w ∈ ws ++ [w] := List.mem_append_right _ (List.mem_singleton_self w)
        rcases Worker.step_eq_none_iff.1 (hworker hlast h) with hp | ⟨hp, -⟩
        · exact absurd hp hw.pos
        · have hsem := hw.semaphore
          rw [if_pos hp] at hsem
          simpa [Starting.step, hsem] using h .wait
      | push => simpa [Starting.step] using h .push
      | returned | threw => rfl
    refine ⟨hover, fun w hw => ?_⟩
    refine (Worker.step_eq_none_iff.1 (hworker hw h)).resolve_right fun hp => ?_
    exact Bool.false_ne_true (hp.2.symm.trans hover)
  · rintro ⟨hfree, hrunning⟩ a
    rw [Starting.free, Bool.or_eq_true, decide_eq_true_iff, decide_eq_true_iff] at hfree
    have hnot : s.starter ≠ .loop ∧ s.starter ≠ .waiting ∧ s.starter ≠ .push := by
      rcases hfree with h | h <;> simp [h]
    cases a with
    | create | fail | finish => exact if_neg fun h => hnot.1 h.1
    | wait => simp [Starting.step, hnot.2.1]
    | push => simp [Starting.step, hnot.2.2]
    | worker j =>
      cases hj : s.workers[j]? with
      | none => simp [Starting.step, hj]
      | some w =>
        have hpos := hrunning w (List.mem_of_getElem? hj)
        simp [Starting.step, hj, Worker.step_eq_none_iff.2 (.inl hpos)]

/-- **`start` makes a whole pool, or says that it has not.**  In every state that is reached, no
thread runs before `start` has returned or thrown; when it has returned, `m_threads` holds all `n`
threads, `m_threadIDs` has got their ids in order, and each has taken its callback; when it has
thrown, a pointer in `m_threads` is null.  Every step brings the end nearer, and there is always one
until `start` is over and all the threads run. -/
theorem start_pool {n : ℕ} {ids : List ℤ} {s : Starting} (h : (starting n ids).Reachable s) :
    (s.free = false → ∀ w ∈ s.workers, w.pos ≠ .running) ∧
      (s.starter = .returned → s.workers.length = n ∧ s.threads = (List.range n).map some ∧
        s.threadIDs = ids ++ s.workers.map Worker.tid ∧
        ∀ w ∈ s.workers, w.realThreadId = w.tid ∧ w.cb = false) ∧
      (s.starter = .threw → s.workers.length < n ∧ none ∈ s.threads ∧
        s.threadIDs = ids ++ s.workers.map Worker.tid) ∧
      (∀ a s', (starting n ids).step s a = some s' → s'.rank n < s.rank n) ∧
      ((∀ a, (starting n ids).step s a = none) ↔
        s.free = true ∧ ∀ w ∈ s.workers, w.pos = .running) := by
  have hs := Reached.of_reachable h
  have hbegun : ∀ {w : Worker}, w.Begun false → w.pos ≠ .running := by
    intro w hw hp
    simpa [hp] using hw.pos
  refine ⟨fun hfree => ?_, fun hreturned => ?_, fun hthrew => ?_, fun a s' => rank_of_step,
    stuck_iff hs⟩
  · cases hs with
    | loop hws _ => exact fun w hw => hbegun (hws w hw)
    | waiting hws hlast _ => exact forall_mem_concat (fun w hw => hbegun (hws w hw)) hlast.pos
    | push hws hlast _ => exact forall_mem_concat (fun w hw => hbegun (hws w hw)) (hbegun hlast)
    | returned | threw => cases hfree
  · cases hs with
    | @returned ws hws hn =>
      refine ⟨hn, ?_, rfl, fun w hw => ⟨(hws w hw).realThreadId, (hws w hw).cb⟩⟩
      show slots n ws.length = _
      rw [hn, slots, Nat.sub_self, List.replicate_zero, List.append_nil]
    | loop | waiting | push | threw => cases hreturned
  · cases hs with
    | @threw ws hws hn =>
      refine ⟨hn, List.mem_append_right _ (List.mem_replicate.2 ⟨?_, rfl⟩), rfl⟩
      exact Nat.sub_ne_zero_of_lt hn
    | loop | waiting | push | returned => cases hthrew

/-- One thread is made; it has its callback before `start` returns, and runs afterwards. -/
theorem start_pool_one :
    ∃ s, (starting 1 [7]).Reachable s ∧ s.starter = .returned ∧ s.threadIDs = [7, 8] ∧
      s.threads = [some 0] ∧ ∀ w ∈ s.workers, w.realThreadId = w.tid ∧ w.cb = false := by
  have hrun : ∃ s, (starting 1 [7]).run (fun _ _ => True) ⟨.loop, [], [none], [7]⟩
      [.create 8, .worker 0, .worker 0, .worker 0, .wait, .push, .finish, .worker 0] = some s ∧
        s.starter = .returned ∧ s.workers.map Worker.tid = [8] := ⟨_, rfl, rfl, rfl⟩
  obtain ⟨s, hrun, hreturned, htids⟩ := hrun
  have hreach : (starting 1 [7]).Reachable s := System.reachableWhen_of_run (M := starting 1 [7])
    rfl hrun
  obtain ⟨-, hthreads, hids, hworkers⟩ := (start_pool hreach).2.1 hreturned
  refine ⟨s, hreach, hreturned, ?_, hthreads, hworkers⟩
  rw [hids, htids]
  rfl

end Scheduler

end YXTWebCpp
