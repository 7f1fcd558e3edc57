import YXTWebCpp.IOManager.Workers

/-!
# Shutting down

A worker leaves `run` when its idle fiber has ended, which it does when `stopping` finds no timer,
no event and no task.  It reads these one after the other, and after its idle fiber has ended it
looks for a task once more.

* `Quiet` : once `m_stopping` is set, no other thread schedules anything or adds timers and events.
* `Seen` : a timer or an event is added only while some worker is going to look for it.
* `nothing_stranded` : **then nothing is left when all workers have left `run`.**
-/

namespace YXTWebCpp

namespace IOManager

open Scheduler

variable {ι F C : Type*}

/-- The worker is going to see a timer that is added now. -/
def Worker.SeesTimer (w : Worker F C) : Prop :=
  w.ended = false ∧ w.pc ≠ .readPending ∧ w.pc ≠ .schedStopping

/-- The worker is going to see an event that is added now. -/
def Worker.SeesEvent (w : Worker F C) : Prop := w.ended = false ∧ w.pc ≠ .schedStopping

instance [DecidableEq F] [DecidableEq C] (w : Worker F C) : Decidable w.SeesTimer :=
  inferInstanceAs (Decidable (_ ∧ _ ∧ _))

instance [DecidableEq F] [DecidableEq C] (w : Worker F C) : Decidable w.SeesEvent :=
  inferInstanceAs (Decidable (_ ∧ _))

/-- What a step calls, if it calls something. -/
def calls : PoolAct ι (WorkerAct F C) (Outside F C) → Option (Shared.Call F C)
  | .thread _ (.code (.call c)) | .env (.call c) => some c
  | _ => none

/-- Another thread schedules a task, or adds a timer or an event. -/
def adds : PoolAct ι (WorkerAct F C) (Outside F C) → Bool
  | .env (.call (.schedule _ _)) | .env (.call (.addTimer _ _ _ _ _))
  | .env (.call .addEvent) => true
  | _ => false

/-- Once `m_stopping` is set, no other thread schedules a task or adds a timer or an event. -/
def Quiet (s : Pool ι (Shared F C) (Worker F C)) (a : PoolAct ι (WorkerAct F C) (Outside F C)) :
    Prop :=
  adds a = true → s.shared.stopping = false

instance (s : Pool ι (Shared F C) (Worker F C)) (a : PoolAct ι (WorkerAct F C) (Outside F C)) :
    Decidable (Quiet s a) :=
  inferInstanceAs (Decidable (_ → _))

/-- Somebody is going to see what is added. -/
def SeesCall (s : Pool ι (Shared F C) (Worker F C)) : Option (Shared.Call F C) → Prop
  | some (.addTimer _ _ _ _ _) => ∃ i, (s.thread i).SeesTimer
  | some .addEvent => ∃ i, (s.thread i).SeesEvent
  | _ => True

instance [Fintype ι] [DecidableEq F] [DecidableEq C] (s : Pool ι (Shared F C) (Worker F C)) :
    (c : Option (Shared.Call F C)) → Decidable (SeesCall s c)
  | some (.addTimer _ _ _ _ _) => inferInstanceAs (Decidable (∃ i, (s.thread i).SeesTimer))
  | some .addEvent => inferInstanceAs (Decidable (∃ i, (s.thread i).SeesEvent))
  | none | some (.schedule _ _) | some (.cancelTimer _) | some .delEvent =>
    inferInstanceAs (Decidable True)

/-- A timer is added only while some worker has not ended and is not past its look at the timers,
and an event only while some worker has not ended and is not past its look at the events. -/
def Seen (s : Pool ι (Shared F C) (Worker F C)) (a : PoolAct ι (WorkerAct F C) (Outside F C)) :
    Prop :=
  SeesCall s (calls a)

instance [Fintype ι] [DecidableEq F] [DecidableEq C] (s : Pool ι (Shared F C) (Worker F C))
    (a : PoolAct ι (WorkerAct F C) (Outside F C)) : Decidable (Seen s a) :=
  inferInstanceAs (Decidable (SeesCall s (calls a)))

/-- Out of `idle`: the idle fiber may have ended. -/
def Pc.outOfIdle : Pc F C → Bool
  | .top | .exec _ | .ran | .yielded | .left => true
  | _ => false

/-- The idle fiber of a worker that has left has ended, and a worker whose idle fiber has ended does
not go back to it. -/
structure Worker.Fits (w : Worker F C) : Prop where
  out : w.ended = true → w.pc.outOfIdle = true
  left : w.pc = .left → w.ended = true

theorem Worker.Fits.of_not_ended {w : Worker F C} (he : w.ended = false) (hpc : w.pc ≠ .left) :
    w.Fits :=
  ⟨fun h => absurd (he.symm.trans h) nofun, fun h => absurd h hpc⟩

/-- Whatever is left to do, some worker is going to see it. -/
structure Attended (s : Pool ι (Shared F C) (Worker F C)) : Prop where
  bounded : s.shared.tm.Bounded
  early : s.shared.stopping = false → ∀ i, (s.thread i).ended = false
  fits : ∀ i, (s.thread i).Fits
  task : s.shared.fibers ≠ [] ∨ (∃ i, (s.thread i).pc.busy = true) → ∃ i, (s.thread i).ended = false
  timer : s.shared.tm.timers ≠ [] → ∃ i, (s.thread i).SeesTimer
  event : s.shared.pending ≠ 0 → ∃ i, (s.thread i).SeesEvent

section

variable {tid : ι → ℤ} {s : Pool ι (Shared F C) (Worker F C)} {i : ι} {g : Shared F C}
  {w : Worker F C}

/-- A step of a worker that does not end its idle fiber. -/
theorem Attended.frame [DecidableEq ι] (h : Attended s) (hb : g.tm.Bounded)
    (hs : g.stopping = s.shared.stopping) (he : w.ended = (s.thread i).ended) (hfits : w.Fits)
    (htask : g.fibers ≠ [] ∨ w.pc.busy = true → ∃ j, (s.thread j).ended = false)
    (htimer : g.tm.timers ≠ [] → ∃ j, (Function.update s.thread i w j).SeesTimer)
    (hevent : g.pending ≠ 0 → ∃ j, (Function.update s.thread i w j).SeesEvent) :
    Attended ⟨g, Function.update s.thread i w⟩ := by
  have hended : ∀ j, (Function.update s.thread i w j).ended = (s.thread j).ended := by
    intro j
    by_cases hji : j = i
    · rw [hji, Function.update_self, he]
    · rw [Function.update_of_ne hji]
  refine ⟨hb, fun hst j => ?_, forall_update h.fits hfits, fun hl => ?_, htimer, hevent⟩
  · rw [hended]
    exact h.early (hs ▸ hst) j
  · simp only [hended]
    rcases hl with hl | ⟨j, hj⟩
    · exact htask (.inl hl)
    · by_cases hji : j = i
      · simp only [hji, Function.update_self] at hj
        exact htask (.inr hj)
      · simp only [Function.update_of_ne hji] at hj
        exact h.task (.inr ⟨j, hj⟩)

/-- A step of a worker that does not find timers or events missing either. -/
theorem Attended.keep [DecidableEq ι] (h : Attended s) (hb : g.tm.Bounded)
    (hs : g.stopping = s.shared.stopping) (he : w.ended = (s.thread i).ended) (hfits : w.Fits)
    (hpc : w.pc ≠ .readPending ∧ w.pc ≠ .schedStopping)
    (htask : g.fibers ≠ [] ∨ w.pc.busy = true → ∃ j, (s.thread j).ended = false)
    (htimer : g.tm.timers ≠ [] → ∃ j, (s.thread j).SeesTimer)
    (hevent : g.pending ≠ 0 → ∃ j, (s.thread j).SeesEvent) :
    Attended ⟨g, Function.update s.thread i w⟩ :=
  h.frame hb hs he hfits htask
    (fun ht => exists_update (htimer ht) fun hi => ⟨he.trans hi.1, hpc⟩)
    (fun hp => exists_update (hevent hp) fun hi => ⟨he.trans hi.1, hpc.2⟩)

/-- What a call leaves to do was there before, or somebody is going to see it. -/
theorem Attended.call (h : Attended s) {c : Shared.Call F C} {b : Bool}
    (hc : s.shared.call c = some (g, b)) (hg : SeesCall s (some c)) :
    g.tm.Bounded ∧ (g.tm.timers ≠ [] → ∃ i, (s.thread i).SeesTimer) ∧
      (g.pending ≠ 0 → ∃ i, (s.thread i).SeesEvent) := by
  cases c with
  | schedule fc thread =>
    obtain ⟨rfl, -⟩ := Prod.mk.inj (Option.some.inj hc)
    exact ⟨h.bounded, h.timer, h.event⟩
  | addTimer now p ms cb recurring =>
    simp only [Shared.call] at hc
    split_ifs at hc
    obtain ⟨rfl, -⟩ := Prod.mk.inj (Option.some.inj hc)
    exact ⟨h.bounded.addTimer now p ms cb recurring, fun _ => hg, h.event⟩
  | cancelTimer p =>
    obtain ⟨r, hr, hr'⟩ := Option.map_eq_some_iff.1 hc
    obtain ⟨rfl, -⟩ := Prod.mk.inj hr'
    obtain ⟨hb, hne⟩ := h.bounded.cancel hr
    exact ⟨hb, fun ht => h.timer (hne ht), h.event⟩
  | addEvent =>
    obtain ⟨rfl, -⟩ := Prod.mk.inj (Option.some.inj hc)
    exact ⟨h.bounded, h.timer, fun _ => hg⟩
  | delEvent =>
    simp only [Shared.call] at hc
    split_ifs at hc
    obtain ⟨rfl, -⟩ := Prod.mk.inj (Option.some.inj hc)
    refine ⟨h.bounded, h.timer, fun hp => h.event fun h0 => hp ?_⟩
    simp only [h0]

theorem Shared.call_stopping {g' : Shared F C} {c : Shared.Call F C} {b : Bool}
    (hc : g.call c = some (g', b)) : g'.stopping = g.stopping := by
  rcases Shared.call_cases hc with ⟨_, _, _, _, rfl⟩ | hg'
  · rfl
  · rw [hg']

/-- The idle fiber of a worker ends: there is no task, and none is being executed. -/
theorem Attended.stop [DecidableEq ι] [Fintype ι] (h : Attended s)
    (hactive : s.shared.active = (Finset.univ.filter fun i => (s.thread i).pc.busy = true).card)
    {e : Bool} (hw : s.thread i = ⟨.schedStopping, .none, e⟩)
    (hstop : s.shared.schedStopping = true) :
    Attended ⟨s.shared, Function.update s.thread i ⟨.yielded, .none, true⟩⟩ := by
  obtain ⟨⟨hst, hnil⟩, hzero⟩ : (s.shared.stopping = true ∧ s.shared.fibers = []) ∧
      s.shared.active = 0 := by
    simpa [Shared.schedStopping] using hstop
  have hidle : ∀ j, (s.thread j).pc.busy = false := by
    intro j
    rw [hzero, eq_comm, Finset.card_eq_zero, Finset.filter_eq_empty_iff] at hactive
    simpa using hactive (Finset.mem_univ j)
  refine ⟨h.bounded, fun hf => ?_, forall_update h.fits ⟨fun _ => rfl, fun _ => rfl⟩,
    fun hl => ?_, fun ht => exists_update (h.timer ht) ?_, fun hp => exists_update (h.event hp) ?_⟩
  · simp [hst] at hf
  · rcases hl with hl | ⟨j, hj⟩
    · exact absurd hnil hl
    · exfalso
      by_cases hji : j = i
      · simp [hji, Pc.busy] at hj
      · simp only [Function.update_of_ne hji, hidle] at hj
        cases hj
  · rw [hw]
    rintro ⟨-, -, h⟩
    exact absurd rfl h
  · rw [hw]
    rintro ⟨-, h⟩
    exact absurd rfl h

theorem Attended.worker [DecidableEq ι] [Fintype ι] (h : Attended s)
    (hactive : s.shared.active = (Finset.univ.filter fun i => (s.thread i).pc.busy = true).card)
    {a : WorkerAct F C} (hg : Seen s (.thread i a))
    (hst : WorkerStep (tid i) s.shared a (s.thread i) g w) :
    Attended ⟨g, Function.update s.thread i w⟩ := by
  have hfits := h.fits i
  generalize hw : s.thread i = w₀ at hst hfits
  -- inside `idle` the worker has not ended
  have hidle : w₀.pc.outOfIdle = false → w₀.ended = false := by
    intro hpc
    by_contra he
    rw [hfits.out (by simpa using he)] at hpc
    cases hpc
  cases hst with
  | @take e ft fibers b hd =>
    have hne : s.shared.fibers ≠ [] := by
      rintro hnil
      rw [hnil] at hd
      cases hd
    exact h.keep h.bounded rfl (by rw [hw]) ⟨fun _ => rfl, nofun⟩ ⟨nofun, nofun⟩
      (fun _ => h.task (.inl hne)) h.timer h.event
  | @noTask e fibers b hd =>
    have hsame : fibers = s.shared.fibers := by
      rcases dequeue_cases FiberAndThread.threadID (tid i) s.shared.fibers with
        ⟨_, _, _, _, _, _, heq⟩ | ⟨-, heq⟩
      · rw [hd] at heq
        cases heq
      · rw [hd] at heq
        exact (Dequeued.mk.inj heq).2.1
    exact h.keep h.bounded rfl (by rw [hw]) ⟨fun _ => rfl, nofun⟩ ⟨nofun, nofun⟩
      (fun hl => h.task (.inl (hsame ▸ hl.resolve_right nofun))) h.timer h.event
  | @call e ft c g' b hc =>
    obtain ⟨hb, htimer, hevent⟩ := h.call hc hg
    exact h.keep hb (Shared.call_stopping hc) (by rw [hw]) ⟨fun _ => rfl, nofun⟩ ⟨nofun, nofun⟩
      (fun _ => h.task (.inr ⟨i, by rw [hw]; rfl⟩)) htimer hevent
  | finish =>
    exact h.keep h.bounded rfl (by rw [hw]) ⟨fun _ => rfl, nofun⟩ ⟨nofun, nofun⟩
      (fun hl => h.task (.inl (hl.resolve_right nofun))) h.timer h.event
  | leave =>
    exact h.keep h.bounded rfl (by rw [hw]) ⟨fun _ => rfl, fun _ => rfl⟩ ⟨nofun, nofun⟩
      (fun hl => h.task (.inl (hl.resolve_right nofun))) h.timer h.event
  | noTimer hnow hnext =>
    -- there is no timer that the worker could miss
    exact h.frame h.bounded rfl (by rw [hw]) (.of_not_ended (hidle rfl) nofun)
      (fun hl => h.task (.inl (hl.resolve_right nofun)))
      (fun ht => absurd hnext (h.bounded.getNextTimer_ne ht hnow))
      (fun hp => exists_update (h.event hp) fun _ => ⟨hidle rfl, nofun⟩)
  | noEvent hzero =>
    refine h.frame h.bounded rfl (by rw [hw]) (.of_not_ended (hidle rfl) nofun)
      (fun hl => h.task (.inl (hl.resolve_right nofun)))
      (fun ht => exists_update (h.timer ht) fun hi => ?_) (fun hp => absurd hzero hp)
    rw [hw] at hi
    exact absurd rfl hi.2.1
  | stop hstop => exact h.stop hactive hw hstop
  | @collect e now p₀ =>
    obtain ⟨hb, hne⟩ := h.bounded.listExpiredCb now p₀
    exact h.keep hb rfl (by rw [hw]) (.of_not_ended (hidle rfl) nofun)
      ⟨nofun, nofun⟩ (fun hl => h.task (.inl (hl.resolve_right nofun))) (fun ht => h.timer (hne ht))
      h.event
  | scheduleCbs | trigger =>
    -- the worker itself is going to look at the queue
    exact h.keep h.bounded rfl (by rw [hw]) (.of_not_ended (hidle rfl) nofun)
      ⟨nofun, nofun⟩ (fun _ => ⟨i, by rw [hw]; exact hidle rfl⟩) h.timer h.event
  | decrPending =>
    exact h.keep h.bounded rfl (by rw [hw]) (.of_not_ended (hidle rfl) nofun)
      ⟨nofun, nofun⟩ (fun hl => h.task (.inl (hl.resolve_right nofun))) h.timer
      (fun hp => h.event fun h0 => hp (by simp only [h0]))
  | yield | leaveIdle =>
    exact h.keep h.bounded rfl (by rw [hw]) ⟨fun _ => rfl, nofun⟩ ⟨nofun, nofun⟩
      (fun hl => h.task (.inl (hl.resolve_right nofun))) h.timer h.event
  | enterIdle =>
    exact h.keep h.bounded rfl (by rw [hw]) ⟨nofun, nofun⟩ ⟨nofun, nofun⟩
      (fun hl => h.task (.inl (hl.resolve_right nofun))) h.timer h.event
  | timer | event | goOn | wake | drain =>
    exact h.keep h.bounded rfl (by rw [hw]) (.of_not_ended (hidle rfl) nofun)
      ⟨nofun, nofun⟩ (fun hl => h.task (.inl (hl.resolve_right nofun))) h.timer h.event
  | tickleTest | tickleWrite =>
    refine h.frame h.bounded rfl (by rw [hw]) ⟨hfits.out, hfits.left⟩ (fun hl => h.task ?_)
      (fun ht => exists_update (h.timer ht) fun hi => ?_)
      (fun hp => exists_update (h.event hp) fun hi => ?_)
    · exact hl.imp id fun hbusy => ⟨i, by rw [hw]; exact hbusy⟩
    · rw [hw] at hi
      exact hi
    · rw [hw] at hi
      exact hi

theorem Attended.outside [Nonempty ι] (h : Attended s) {a : Outside F C} (hq : Quiet s (.env a))
    (hg : Seen s (.env a)) (hst : s.shared.outside a = some g) : Attended ⟨g, s.thread⟩ := by
  rcases Shared.outside_cases hst with
    ⟨c, g', b, rfl, hc, rfl⟩ | ⟨-, rfl⟩ | ⟨-, rfl⟩ | ⟨-, rfl⟩ | ⟨-, rfl⟩
  · obtain ⟨hb, htimer, hevent⟩ := h.call hc hg
    refine ⟨hb, fun hs => h.early ((Shared.call_stopping hc) ▸ hs), h.fits, ?_, htimer, hevent⟩
    rcases Shared.call_cases hc with ⟨fc, thread, rfl, -, -⟩ | hg'
    · -- no idle fiber has ended before `m_stopping` is set
      rintro -
      obtain ⟨i⟩ := ‹Nonempty ι›
      exact ⟨i, h.early (hq rfl) i⟩
    · rw [hg']
      exact h.task
  · exact ⟨h.bounded, h.early, h.fits, h.task, h.timer, h.event⟩
  · exact ⟨h.bounded, h.early, h.fits, h.task, h.timer, h.event⟩
  · exact ⟨h.bounded, h.early, h.fits, h.task, h.timer, h.event⟩
  · exact ⟨h.bounded, nofun, h.fits, h.task, h.timer, h.event⟩

theorem attended_of_seen [DecidableEq ι] [Fintype ι] [Nonempty ι]
    (hr : (workers tid).ReachableWhen (fun s a => Quiet s a ∧ Seen s a) s) : Attended s := by
  refine hr.invariant (fun s hs => ?_) fun s a s' hr h hg hst => ?_
  · obtain ⟨⟨heap, hs⟩, hw⟩ := hs
    refine ⟨by simp [hs, TimerManager.Bounded], fun _ i => by rw [hw], fun i => ?_, fun hl => ?_,
      by simp [hs], by simp [hs]⟩
    · rw [hw]
      exact ⟨nofun, nofun⟩
    · obtain ⟨i⟩ := ‹Nonempty ι›
      exact ⟨i, by rw [hw]⟩
  · rcases interleave_cases hst with ⟨i, b, g, w, rfl, hstep, rfl⟩ | ⟨e, g, rfl, hstep, rfl⟩
    · exact h.worker (active_eq hr) hg.2 (Worker.step_cases hstep)
    · exact h.outside hg.1 hg.2 hstep

/-- **Shutdown strands no work** in every run in which a timer or an event is added only while some
worker is going to look for it, and no other thread adds work once `m_stopping` is set: when all
workers have left `run`, the task queue is empty, there is no timer, and no event is pending. -/
theorem nothing_stranded [DecidableEq ι] [Fintype ι] [Nonempty ι]
    (hr : (workers tid).ReachableWhen (fun s a => Quiet s a ∧ Seen s a) s)
    (hleft : ∀ i, (s.thread i).pc = .left) :
    s.shared.fibers = [] ∧ s.shared.tm.timers = [] ∧ s.shared.pending = 0 := by
  have h := attended_of_seen hr
  have hended : ∀ i, (s.thread i).ended = true := fun i => (h.fits i).left (hleft i)
  refine ⟨?_, ?_, ?_⟩
  · by_contra hne
    obtain ⟨i, hi⟩ := h.task (.inl hne)
    rw [hended] at hi
    cases hi
  · by_contra hne
    obtain ⟨i, hi, -⟩ := h.timer hne
    rw [hended] at hi
    cases hi
  · by_contra hne
    obtain ⟨i, hi, -⟩ := h.event hne
    rw [hended] at hi
    cases hi

end

/-- A timer is pending when the scheduler is stopped.  The worker waits until it expires, executes
its callback, and leaves. -/
def lastTimer : List (PoolAct (Fin 1) (WorkerAct ℕ ℕ) (Outside ℕ ℕ)) :=
  List.flatten
    [[.env (.call (.addTimer 1 5 100 7 false)), .env .stop],
      steps 0 [.dequeue, .enterIdle, .getNextTimer 2, .wake, .collect 150 3, .scheduleCbs],
      [.thread 0 .tickleTest, .thread 0 .tickleWrite],
      steps 0 [.yield, .leaveIdle, .dequeue, .finish, .enterIdle, .getNextTimer 151, .readPending,
        .schedStopping, .leaveIdle, .dequeue, .enterIdle]]

theorem nothing_stranded_timer :
    ∃ s, (workers fun _ : Fin 1 => (10 : ℤ)).run (fun s a => Quiet s a ∧ Seen s a) started
        lastTimer = some s ∧
      (s.thread 0).pc = .left ∧
      s.shared.fibers = [] ∧ s.shared.tm.timers = [] ∧ s.shared.pending = 0 := by
  obtain ⟨s, hrun⟩ : ∃ s, (workers fun _ : Fin 1 => (10 : ℤ)).run
      (fun s a => Quiet s a ∧ Seen s a) started lastTimer = some s :=
    Option.isSome_iff_exists.1 (by decide +kernel)
  have hs : ((workers fun _ : Fin 1 => (10 : ℤ)).run (fun s a => Quiet s a ∧ Seen s a) started
      lastTimer).map (fun s => (s.thread 0).pc) = some .left := by
    decide +kernel
  rw [hrun] at hs
  have hpc := Option.some.inj hs
  refine ⟨s, hrun, hpc,
    nothing_stranded (System.reachableWhen_of_run ⟨⟨_, rfl⟩, fun _ => rfl⟩ hrun) fun i => ?_⟩
  obtain rfl : i = 0 := Subsingleton.elim _ _
  exact hpc

/-- Two workers wait when the scheduler is stopped with a timer pending.  Worker 0 has collected the
timer when worker 1 finds nothing left, so that the idle fiber of worker 1 ends; worker 1 then takes
the callback all the same.  The callback adds another timer after worker 0 has looked for timers,
and worker 0 ends, too. -/
def lateTimer : List (PoolAct (Fin 2) (WorkerAct ℕ ℕ) (Outside ℕ ℕ)) :=
  List.flatten
    [[.env (.call (.addTimer 1 5 100 7 false)), .env .stop],
      steps 0 [.dequeue, .enterIdle, .getNextTimer 2, .wake],
      steps 1 [.dequeue, .enterIdle],
      steps 0 [.collect 150 3],
      steps 1 [.getNextTimer 151, .readPending, .schedStopping],
      steps 0 [.scheduleCbs],
      [.thread 0 .tickleTest, .thread 0 .tickleWrite],
      steps 1 [.leaveIdle, .dequeue],
      steps 0 [.yield, .leaveIdle, .dequeue, .enterIdle, .getNextTimer 152, .readPending],
      steps 1 [.call (.addTimer 153 6 100 8 false)],
      [.thread 1 .tickleTest, .thread 1 .tickleWrite],
      steps 1 [.finish, .enterIdle],
      steps 0 [.schedStopping, .leaveIdle, .dequeue, .enterIdle]]

theorem stranded_timer :
    ∃ s : Pool (Fin 2) (Shared ℕ ℕ) (Worker ℕ ℕ),
      (workers fun i => (i.val : ℤ) + 10).ReachableWhen Quiet s ∧ (∀ i, (s.thread i).pc = .left) ∧
        s.shared.tm.timers ≠ [] := by
  have hs : ((workers fun i : Fin 2 => (i.val : ℤ) + 10).run Quiet started lateTimer).map
      (fun s => ((s.thread 0).pc, (s.thread 1).pc, s.shared.tm.timers)) =
      some (.left, .left, [6]) := by
    decide +kernel
  obtain ⟨s, hrun, hs⟩ := Option.map_eq_some_iff.1 hs
  obtain ⟨h0, hs⟩ := Prod.mk.inj hs
  obtain ⟨h1, h2⟩ := Prod.mk.inj hs
  refine ⟨s, System.reachableWhen_of_run ⟨⟨_, rfl⟩, fun _ => rfl⟩ hrun, fun i => ?_, by simp [h2]⟩
  match i with
  | 0 => exact h0
  | 1 => exact h1

end IOManager

end YXTWebCpp
