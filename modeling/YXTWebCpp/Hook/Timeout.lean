import YXTWebCpp.IOManager.Snapshot
import YXTWebCpp.Timer.Basic

/-!
# Timeout and readiness of a blocked call

A hooked I/O call that would block (`do_io`, `connect_with_timeout` in `hook.cpp`) starts a
condition timer, registers its fiber for an event and yields.  It is woken by the dispatch of the
event in `idle`, or by the callback of the timer, which calls `cancelEvent`.  When it resumes
without having been cancelled it cancels the timer.

* `Wait` : the event table, the timers, and what is known of one call.
* `Wait.system` : the steps of the call, of the workers that dispatch, expire timers and run
  callbacks, and of everybody else.
* `InTime` : readiness and timeout do not overlap.
* `scheduled_once` : **then the fiber is scheduled exactly once, and no assertion fails.**
-/

namespace YXTWebCpp

namespace Hook

open IOManager

/-- Whose callback a timer holds. -/
inductive Owner where
  /-- The call, in its `k`-th attempt: the callback holds the `TimerInfo` of that attempt weakly. -/
  | attempt (k : ℕ)
  /-- Somebody else. -/
  | other
  deriving DecidableEq, Repr

/-- Where the call stands. -/
inductive Phase where
  /-- It is running; no `TimerInfo` of it is alive but that of the attempt in progress. -/
  | running
  /-- `addConditionTimer` has returned. -/
  | timerAdded
  /-- `addEvent` has returned, and the fiber has yielded. -/
  | blocked
  /-- It has been resumed and has found `cancelled` unset, and is about to cancel the timer. -/
  | resumed
  deriving DecidableEq, Repr

/-- What goes wrong. -/
inductive Fault where
  /-- An assertion of the event table. -/
  | io (f : IOManager.Fault)
  /-- `Timer::cancel` erases the end iterator. -/
  | eraseEnd
  deriving DecidableEq, Repr

/-- One call among others. -/
structure Wait (F C : Type*) where
  /-- The event table. -/
  io : Table Unit F C
  /-- The timers. -/
  tm : TimerManager Owner
  /-- Where the call stands. -/
  phase : Phase
  /-- The number of the attempt. -/
  attempt : ℕ
  /-- `timer` of the attempt. -/
  timer : ℕ
  /-- `sharedTimerInfo->cancelled` of the attempt is set. -/
  cancelled : Bool
  /-- How often the fiber stands in the task queue. -/
  fiberQueued : ℕ
  /-- How often the callback of the attempt stands in the task queue. -/
  cbQueued : ℕ
  /-- How often the fiber was scheduled in the attempt. -/
  scheduled : ℕ
  /-- What has gone wrong. -/
  fault : Option Fault

/-- The steps. -/
inductive WaitAct (F C : Type*) where
  /-- The call would block: `addConditionTimer`, the new timer at `p`. -/
  | addTimer (now p ms : ℕ)
  /-- `addEvent(fd, event)` and `YieldToHold`. -/
  | addEvent
  /-- `idle` dispatches what `epoll_wait` has returned for the descriptor of the call. -/
  | dispatch (ready : Mask) (err : Bool)
  /-- `idle` collects the timers that have expired and schedules their callbacks. -/
  | expire (now p₀ : ℕ)
  /-- A worker runs the callback of the attempt. -/
  | runCb
  /-- A worker resumes the fiber, which reads `cancelled`. -/
  | resume
  /-- The call cancels its timer and goes on. -/
  | cancelTimer
  /-- Somebody else uses the event table, for another event. -/
  | other (a : Act Unit F C)
  /-- Somebody else starts a timer. -/
  | otherTimer (now p ms : ℕ) (recurring : Bool)

variable {F C : Type*} [DecidableEq F]

/-- The task is the fiber. -/
def isFiber (me : F) : FiberOrCb F C → Bool
  | .fiber f => decide (f = me)
  | .cb _ => false

/-- How often the fiber is among the tasks scheduled. -/
def handed (me : F) (out : List (Event × Unit × FiberOrCb F C)) : ℕ :=
  out.countP fun x => isFiber me x.2.2

/-- An operation of somebody else: it concerns another event, and registers another fiber. -/
def Foreign (fd : ℕ) (e : Event) (me : F) (a : Act Unit F C) : Prop :=
  ¬ (a.fd = fd ∧ a.touches e = true) ∧
    match a with
    | .addEvent _ _ _ cur _ => cur ≠ me
    | _ => True

instance (fd : ℕ) (e : Event) (me : F) : (a : Act Unit F C) → Decidable (Foreign fd e me a)
  | .addEvent _ _ _ _ _ => inferInstanceAs (Decidable (_ ∧ _))
  | .delEvent _ _ | .cancelEvent _ _ | .cancelAll _ | .dispatch _ _ _ =>
    inferInstanceAs (Decidable (_ ∧ True))

namespace Wait

/-- The table and what was scheduled after an operation on it, or the assertion that failed. -/
def after (me : F) (s : Wait F C)
    (r : Except IOManager.Fault (Table Unit F C × List (Event × Unit × FiberOrCb F C))) :
    Wait F C :=
  match r with
  | .ok r => { s with
      io := r.1
      fiberQueued := s.fiberQueued + handed me r.2
      scheduled := s.scheduled + handed me r.2 }
  | .error f => { s with fault := some (.io f) }

/-- The steps of the call for event `e` of descriptor `fd` by the fiber `me`, and of everybody
else.  A fault ends the run. -/
def system (fd : ℕ) (e : Event) (me : F) : System (Wait F C) (WaitAct F C) where
  init s := ∃ heap, s = ⟨.new, ⟨heap, [], 0⟩, .running, 0, 0, false, 0, 0, 0, none⟩
  step s a :=
    if s.fault.isSome then none
    else match a with
      | .addTimer now p ms =>
        if s.phase = .running ∧ p ∉ s.tm.timers then
          some { s with
            tm := (s.tm.addTimer now p ms (.attempt (s.attempt + 1)) false).1
            phase := .timerAdded
            attempt := s.attempt + 1
            timer := p
            cancelled := false
            cbQueued := 0
            scheduled := 0 }
        else none
      | .addEvent =>
        if s.phase = .timerAdded then
          some (after me { s with phase := .blocked }
            ((s.io.addEvent fd e () me none).map fun io => (io, [])))
        else none
      | .dispatch ready err => some (after me s (s.io.dispatch fd ready err))
      | .expire now p₀ =>
        let r := s.tm.listExpiredCb now p₀
        some { s with tm := r.1, cbQueued := s.cbQueued + r.2.count (some (.attempt s.attempt)) }
      | .runCb =>
        if s.cbQueued = 0 then none
        else if s.phase = .running then some { s with cbQueued := s.cbQueued - 1 }
        else
          -- the `TimerInfo` is alive: the attempt is in progress
          some (after me { s with cbQueued := s.cbQueued - 1, cancelled := true }
            ((s.io.cancelEvent fd e).map fun r => r.2))
      | .resume =>
        if s.phase = .blocked ∧ s.fiberQueued ≠ 0 then
          some { s with
            phase := if s.cancelled then .running else .resumed
            fiberQueued := s.fiberQueued - 1 }
        else none
      | .cancelTimer =>
        if s.phase = .resumed then
          match s.tm.cancel s.timer with
          | some r => some { s with tm := r.2, phase := .running }
          | none => some { s with fault := some .eraseEnd }
        else none
      | .other a =>
        if Foreign fd e me a ∧ a.Pre s.io then some (after me s (a.apply s.io)) else none
      | .otherTimer now p ms recurring =>
        if p ∉ s.tm.timers ∧ (s.phase ≠ .running → p ≠ s.timer) then
          some { s with tm := (s.tm.addTimer now p ms .other recurring).1 }
        else none

/-- The event of the call is registered. -/
def armed (fd : ℕ) (e : Event) (s : Wait F C) : Bool := (s.io.events fd).has e

/-- Readiness and timeout do not overlap: the event is not dispatched when the timer of the call has
been collected, the timer is not collected between the dispatch and its cancellation, and the
callback does not run before the event is registered.  Nor is a dispatch half stale. -/
def InTime (fd : ℕ) (e : Event) (s : Wait F C) : WaitAct F C → Prop
  | .dispatch ready err =>
    Snapshot.NotHalfStale s.io ⟨fd, ready, err⟩ ∧
      (s.armed fd e = true → (Table.realEvents (s.io.events fd) ready err).has e = true →
        s.timer ∈ s.tm.timers)
  | .expire now _ =>
    s.phase = .blocked ∨ s.phase = .resumed → s.armed fd e = false → s.timer ∈ s.tm.timers →
      now < (s.tm.heap s.timer).next
  | .runCb => s.phase ≠ .timerAdded
  | _ => True

instance (fd : ℕ) (e : Event) (s : Wait F C) : (a : WaitAct F C) → Decidable (InTime fd e s a)
  | .dispatch _ _ => inferInstanceAs (Decidable (_ ∧ (_ → _ → _)))
  | .expire _ _ => inferInstanceAs (Decidable (_ → _ → _ → _))
  | .runCb => inferInstanceAs (Decidable (_ ≠ _))
  | .addTimer _ _ _ | .addEvent | .resume | .cancelTimer | .other _ | .otherTimer _ _ _ _ =>
    inferInstanceAs (Decidable True)

end Wait

/-! ### The table -/

/-- The fiber is registered for the event of the call only, and whenever that is registered. -/
structure Held (fd : ℕ) (e : Event) (me : F) (io : Table Unit F C) : Prop where
  only : ∀ (i : ℕ) (ctx : FdContext Unit F C) (e' : Event), io.fdContexts[i]? = some ctx →
    (ctx.context e').fiber = some me → i = fd ∧ e' = e
  own : ∀ ctx : FdContext Unit F C, io.fdContexts[fd]? = some ctx → ctx.events.has e = true →
    ctx.registered e = [(e, (), .fiber me)]

section

variable {fd : ℕ} {e : Event} {me : F} {io : Table Unit F C} {i : ℕ} {ctx : FdContext Unit F C}

omit [DecidableEq F] in
theorem held_new : Held fd e me (Table.new : Table Unit F C) where
  only i ctx e' hc hf := by
    rw [Table.new_getElem?] at hc
    split_ifs at hc
    obtain rfl := Option.some.inj hc
    cases e' <;> simp [FdContext.new, FdContext.context, EventContext.reset] at hf
  own ctx hc he := by
    have := Table.events_of_getElem? hc
    rw [Table.new_events] at this
    rw [← this] at he
    simp at he

theorem handed_append (l l' : List (Event × Unit × FiberOrCb F C)) :
    handed me (l ++ l') = handed me l + handed me l' :=
  List.countP_append

/-- An event hands out the fiber only if the fiber is registered for it. -/
theorem handed_registered {e' : Event} (h : (ctx.context e').fiber ≠ some me) :
    handed me (ctx.registered e') = 0 := by
  refine List.countP_eq_zero.2 fun x hx => ?_
  simp only [FdContext.registered, List.mem_flatMap, List.mem_map] at hx
  obtain ⟨-, -, t, ht, rfl⟩ := hx
  cases t with
  | cb c => simp [isFiber]
  | fiber f =>
    have hf : (ctx.context e').fiber = some f := by
      unfold EventContext.task at ht
      split at ht <;> simp_all
    rintro hself
    obtain rfl : f = me := by simpa [isFiber] using hself
    exact h hf

/-- Dropping events hands out the fiber once if the event of the call is among them. -/
theorem Held.handed_tasks (hh : Held fd e me io) (hc : io.fdContexts[i]? = some ctx) {m : Mask}
    (hm : m.Subset ctx.events) :
    handed me (ctx.tasks m) = if i = fd ∧ m.has e = true then 1 else 0 := by
  have hone : ∀ e', handed me (if m.has e' then ctx.registered e' else []) =
      if i = fd ∧ e' = e ∧ m.has e = true then 1 else 0 := by
    intro e'
    by_cases hslot : i = fd ∧ e' = e
    · obtain ⟨rfl, rfl⟩ := hslot
      cases hme : m.has e'
      · simp [handed]
      · rw [if_pos rfl, hh.own ctx hc (hm e' hme)]
        simp [handed, isFiber]
    · have hf : (ctx.context e').fiber ≠ some me := fun hf => hslot (hh.only i ctx e' hc hf)
      have hno : ¬ (i = fd ∧ e' = e ∧ m.has e = true) := fun h => hslot ⟨h.1, h.2.1⟩
      rw [if_neg hno]
      split_ifs
      · exact handed_registered hf
      · rfl
  calc handed me (ctx.tasks m)
      = (if i = fd ∧ Event.read = e ∧ m.has e = true then 1 else 0) +
          if i = fd ∧ Event.write = e ∧ m.has e = true then 1 else 0 := by
        rw [← hone, ← hone]
        exact handed_append _ _
    _ = _ := by cases e <;> simp

omit [DecidableEq F] in
theorem Held.disarm (hh : Held fd e me io) (hc : io.fdContexts[i]? = some ctx) (m : Mask) :
    Held fd e me (io.disarm i ctx m) where
  only j c e' hj hf := by
    by_cases hji : j = i
    · subst hji
      rw [Table.disarm, Table.put_getElem?_self hc] at hj
      obtain rfl := Option.some.inj hj
      rw [FdContext.disarm_context] at hf
      split_ifs at hf
      · simp [EventContext.reset] at hf
      · exact hh.only j ctx e' hc hf
    · rw [Table.disarm, Table.put_getElem?_of_ne hji] at hj
      exact hh.only j c e' hj hf
  own c hj he := by
    by_cases hji : fd = i
    · subst hji
      rw [Table.disarm, Table.put_getElem?_self hc] at hj
      obtain rfl := Option.some.inj hj
      rw [FdContext.disarm_events, Mask.has_diff, Bool.and_eq_true, Bool.not_eq_true'] at he
      rw [FdContext.registered_disarm ctx he.2]
      exact hh.own ctx hc he.1
    · rw [Table.disarm, Table.put_getElem?_of_ne hji] at hj
      exact hh.own c hj he

omit [DecidableEq F] in
/-- New contexts hold nothing. -/
theorem Held.grow (hh : Held fd e me io) (hi : io.Inv) (j : ℕ) :
    Held fd e me (io.grow j) := by
  have hempty : ∀ i ctx, (io.grow j).fdContexts[i]? = some ctx → ¬ i < io.fdContexts.length →
      ctx.events = .none := by
    intro i ctx hc hlt
    rw [← Table.events_of_getElem? hc, Table.grow_events hi]
    simp only [Table.events, List.getElem?_eq_none (not_lt.1 hlt)]
  refine ⟨fun i ctx e' hc hf => ?_, fun ctx hc he => ?_⟩
  · by_cases hlt : i < io.fdContexts.length
    · rw [Table.grow_getElem? hi j hlt] at hc
      exact hh.only i ctx e' hc hf
    · have hidle := ((hi.grow j).ok i ctx hc).idle e' (by simp [hempty i ctx hc hlt])
      simp [hidle, EventContext.reset] at hf
  · by_cases hlt : fd < io.fdContexts.length
    · rw [Table.grow_getElem? hi j hlt] at hc
      exact hh.own ctx hc he
    · simp [hempty fd ctx hc hlt] at he

omit [DecidableEq F] in
/-- Registering: the fiber for the event of the call, something else for another event. -/
theorem Held.arm (hh : Held fd e me io) (hi : io.Inv)
    (hc : (io.grow i).fdContexts[i]? = some ctx) {e' : Event} {t : FiberOrCb F C}
    (ht : if i = fd ∧ e' = e then t = .fiber me else t ≠ .fiber me) :
    Held fd e me (io.arm i ctx e' () t) where
  only j c e'' hj hf := by
    by_cases hji : j = i
    · subst hji
      rw [Table.arm, Table.put_getElem?_self hc] at hj
      obtain rfl := Option.some.inj hj
      by_cases hee : e'' = e'
      · subst hee
        rw [FdContext.arm_context_self] at hf
        by_contra hne
        rw [if_neg hne] at ht
        cases t with
        | fiber f => exact ht (by rw [Option.some.inj hf])
        | cb c => cases hf
      · rw [FdContext.arm_context_of_ne ctx hee] at hf
        exact (hh.grow hi j).only j ctx e'' hc hf
    · rw [Table.arm, Table.put_getElem?_of_ne hji] at hj
      exact (hh.grow hi i).only j c e'' hj hf
  own c hj he := by
    by_cases hji : fd = i
    · subst hji
      rw [Table.arm, Table.put_getElem?_self hc] at hj
      obtain rfl := Option.some.inj hj
      by_cases hee : e' = e
      · rw [if_pos ⟨rfl, hee⟩] at ht
        rw [hee, ht, FdContext.registered_arm_self]
      · rw [FdContext.registered_arm_of_ne ctx (Ne.symm hee)]
        refine (hh.grow hi fd).own ctx hc ?_
        simpa [hee] using he
    · rw [Table.arm, Table.put_getElem?_of_ne hji] at hj
      exact (hh.grow hi i).own c hj he

/-- An operation on the table passes its assertions, hands out the fiber `k` times, and the event of
the call is registered afterwards or not. -/
def Hands (fd : ℕ) (e : Event) (me : F)
    (r : Except IOManager.Fault (Table Unit F C × List (Event × Unit × FiberOrCb F C)))
    (k : ℕ) (armed : Bool) : Prop :=
  ∃ io' out, r = .ok (io', out) ∧ io'.Inv ∧ Held fd e me io' ∧ handed me out = k ∧
    (io'.events fd).has e = armed

/-- Dropping events of the descriptor of the call. -/
theorem Held.hands_disarm (hh : Held fd e me io) (hi : io.Inv)
    (hc : io.fdContexts[i]? = some ctx) {m : Mask} (hm : m.Subset ctx.events) :
    Hands fd e me (.ok (io.disarm i ctx m, ctx.tasks m)) (if i = fd ∧ m.has e = true then 1 else 0)
      ((io.events fd).has e && !(decide (i = fd) && m.has e)) := by
  refine ⟨_, _, rfl, hi.disarm hc hm, hh.disarm hc m, hh.handed_tasks hc hm, ?_⟩
  rw [Table.disarm_events hc]
  split_ifs with hfd
  · subst hfd
    simp [Table.events_of_getElem? hc]
  · simp [Ne.symm hfd]

/-- `addEvent` of the call. -/
theorem Held.hands_addEvent (hh : Held fd e me io) (hi : io.Inv)
    (he : (io.events fd).has e = false) :
    Hands fd e me ((io.addEvent fd e () me none).map fun io => (io, [])) 0 true := by
  obtain ⟨ctx, hc⟩ := hi.exists_context fd
  rw [← Table.grow_events hi fd, Table.events_of_getElem? hc] at he
  rw [hi.addEvent_eq hc he]
  refine ⟨_, _, rfl, hi.arm hc he () _, hh.arm hi hc (by simp [Table.target]), rfl, ?_⟩
  rw [Table.arm_events hi hc, if_pos rfl]
  simp

/-- `cancelEvent` in the callback. -/
theorem Held.hands_cancelEvent (hh : Held fd e me io) (hi : io.Inv)
    (he : (io.events fd).has e = true) :
    Hands fd e me ((io.cancelEvent fd e).map fun r => r.2) 1 false := by
  cases hc : io.fdContexts[fd]? with
  | none => simp [Table.events, hc] at he
  | some ctx =>
    have hec : ctx.events.has e = true := by rwa [Table.events_of_getElem? hc] at he
    have := hh.hands_disarm hi hc (Mask.single_subset hec)
    rw [hi.cancelEvent_eq hc hec]
    simpa [Except.map] using this

/-- The dispatch of the descriptor of the call. -/
theorem Held.hands_dispatch (hh : Held fd e me io) (hi : io.Inv) {ready : Mask} {err : Bool}
    (hns : Snapshot.NotHalfStale io ⟨fd, ready, err⟩) :
    Hands fd e me (io.dispatch fd ready err)
      (if (io.events fd).has e = true ∧ (Table.realEvents (io.events fd) ready err).has e = true
        then 1 else 0)
      ((io.events fd).has e && !(Table.realEvents (io.events fd) ready err).has e) := by
  cases hc : io.fdContexts[fd]? with
  | none =>
    have hev : io.events fd = .none := by simp [Table.events, hc]
    exact ⟨io, [], by simp only [Table.dispatch, hc], hi, hh, by simp [hev, handed], by simp [hev]⟩
  | some ctx =>
    unfold Snapshot.NotHalfStale at hns
    rw [Table.events_of_getElem? hc] at hns ⊢
    by_cases hinter : ctx.events.inter (Table.realEvents ctx.events ready err) = .none
    · -- the event of the call is not both registered and ready
      have hno : ∀ x, ctx.events.has x = true →
          (Table.realEvents ctx.events ready err).has x = false := by
        intro x hx
        have := congrArg (Mask.has · x) hinter
        simpa [hx] using this
      refine ⟨io, [], Table.dispatch_of_inter_eq_none hc hinter, hi, hh, ?_, ?_⟩
      · rw [if_neg fun h => by simp [hno e h.1] at h]
        rfl
      · rw [Table.events_of_getElem? hc]
        cases he : ctx.events.has e
        · rfl
        · simp [hno e he]
    · have hsub := hns.resolve_left hinter
      have hne : Table.realEvents ctx.events ready err ≠ .none := by
        intro hne
        rw [hne] at hinter
        exact hinter (Mask.ext_has fun x => by simp)
      rw [hi.dispatch_eq hc hsub hne]
      have := hh.hands_disarm hi hc hsub
      rw [Table.events_of_getElem? hc] at this
      generalize Table.realEvents ctx.events ready err = real at hsub this ⊢
      cases hr : real.has e
      · simpa [hr] using this
      · simpa [hr, hsub e hr] using this

/-- An operation of somebody else. -/
theorem Held.hands_foreign (hh : Held fd e me io) (hi : io.Inv) {a : Act Unit F C}
    (ha : Foreign fd e me a) (hp : a.Pre io) :
    Hands fd e me (a.apply io) 0 ((io.events fd).has e) := by
  obtain ⟨hslot, hcur⟩ := ha
  rcases Act.apply_cases hi hp with ⟨i, e', sch, cur, cb, ctx, rfl, hc, he, happ⟩ |
    ⟨ctx, m, -, hc, hm, htouch, happ⟩ | ⟨-, happ⟩
  · have hne : ¬ (i = fd ∧ e' = e) := by simpa [Act.fd, Act.touches] using hslot
    have ht : Table.target cur cb ≠ .fiber me := by
      cases cb with
      | none => simpa [Table.target] using hcur
      | some c => simp [Table.target]
    rw [happ]
    refine ⟨_, _, rfl, hi.arm hc he sch _, hh.arm hi hc (by rwa [if_neg hne]), rfl, ?_⟩
    rw [Table.arm_events hi hc]
    split_ifs with hif
    · subst hif
      have hee : e' ≠ e := fun h => hne ⟨rfl, h⟩
      rw [← Table.grow_events hi fd, Table.events_of_getElem? hc]
      simp [hee]
    · rfl
  · -- the event of the call is not among those dropped
    have hno : ¬ (a.fd = fd ∧ m.has e = true) := fun h => hslot ⟨h.1, htouch e h.2⟩
    obtain ⟨io', out, hok, hi', hh', hk, harmed⟩ := hh.hands_disarm hi hc hm
    rw [if_neg hno] at hk
    obtain ⟨rfl, rfl⟩ := Prod.mk.inj (Except.ok.inj hok)
    rw [happ]
    refine ⟨_, _, rfl, hi', hh', ?_, ?_⟩
    · split_ifs
      · rfl
      · exact hk
    · rw [harmed]
      by_cases hfd : a.fd = fd
      · have hme : m.has e = false := by simpa [hfd] using hno
        simp [hme]
      · simp [hfd]
  · rw [happ]
    exact ⟨io, [], rfl, hi, hh, rfl, rfl⟩

end

/-! ### The timer -/

/-- How often a callback is collected that one pending timer holds. -/
theorem count_collected {Cb : Type*} [DecidableEq Cb] {tm : TimerManager Cb} (ht : tm.Sorted)
    (now p₀ p : ℕ) {cb : Cb} (hp : (tm.heap p).cb = some cb)
    (honly : ∀ q ∈ tm.timers, (tm.heap q).cb = some cb → q = p) :
    (tm.listExpiredCb now p₀).2.count (some cb) =
      if p ∈ tm.timers ∧ (tm.heap p).next ≤ now then 1 else 0 := by
  have hpred : ∀ q ∈ tm.timers,
      (((tm.heap q).cb == some cb) && decide ((tm.heap q).next ≤ now)) =
        (q == p && decide ((tm.heap p).next ≤ now)) := by
    intro q hq
    by_cases hqp : q = p
    · simp [hqp, hp]
    · have hne : (tm.heap q).cb ≠ some cb := fun h => hqp (honly q hq h)
      rw [beq_eq_false_iff_ne.2 hqp, beq_eq_false_iff_ne.2 hne, Bool.false_and, Bool.false_and]
  rw [(TimerManager.listExpiredCb_spec ht now p₀).2.1, List.count, List.countP_map,
    List.countP_filter]
  refine (List.countP_congr (q := fun q => q == p && decide ((tm.heap p).next ≤ now))
    fun q hq => Bool.eq_iff_iff.1 (hpred q hq)).trans ?_
  by_cases hdue : (tm.heap p).next ≤ now
  · simp only [hdue, decide_true, Bool.and_true, and_true]
    exact ht.nodup.count
  · simp [hdue]

/-! ### The invariant -/

/-- How the fiber, the event, the timer and the callback of a call fit together in each phase:
whether the event is registered, how often the fiber is queued and was scheduled, whether the call
is cancelled, whether the timer is pending, and how often the callback is queued. -/
def Stage (armed : Bool) (fiberQueued scheduled : ℕ) (cancelled pending : Bool) (cbQueued : ℕ) :
    Phase → Prop
  | .running => armed = false ∧ fiberQueued = 0 ∧ cbQueued = 0
  | .timerAdded => armed = false ∧ fiberQueued = 0 ∧ scheduled = 0 ∧ cancelled = false ∧
    cbQueued = if pending then 0 else 1
  | .blocked =>
    if armed then
      fiberQueued = 0 ∧ scheduled = 0 ∧ cancelled = false ∧ cbQueued = if pending then 0 else 1
    else fiberQueued = 1 ∧ scheduled = 1 ∧ cancelled = !pending ∧ cbQueued = 0
  | .resumed => armed = false ∧ fiberQueued = 0 ∧ scheduled = 1 ∧ cancelled = false ∧
    pending = true ∧ cbQueued = 0

/-- The event is registered only while the call is blocked and nobody has woken it. -/
theorem Stage.of_armed {fiberQueued scheduled cbQueued : ℕ} {cancelled pending : Bool} {p : Phase}
    (h : Stage true fiberQueued scheduled cancelled pending cbQueued p) :
    p = .blocked ∧ fiberQueued = 0 ∧ scheduled = 0 ∧ cancelled = false ∧
      cbQueued = if pending then 0 else 1 := by
  cases p with
  | running => exact absurd h.1 (by simp)
  | timerAdded => exact absurd h.1 (by simp)
  | blocked => exact ⟨rfl, h⟩
  | resumed => exact absurd h.1 (by simp)

namespace Wait

/-- The timer of the call is pending. -/
def pending (s : Wait F C) : Bool := decide (s.timer ∈ s.tm.timers)

/-- What is known of the timers. -/
structure Timers (s : Wait F C) : Prop where
  sorted : s.tm.Sorted
  /-- The callback of an attempt is held by the timer of the attempt in progress only. -/
  only : ∀ q ∈ s.tm.timers, ∀ k, (s.tm.heap q).cb = some (.attempt k) →
    s.phase ≠ .running ∧ q = s.timer
  own : s.phase ≠ .running → (s.tm.heap s.timer).cb = some (.attempt s.attempt) ∧
    (s.tm.heap s.timer).recurring = false

/-- The invariant of the runs in which readiness and timeout do not overlap. -/
structure Inv (fd : ℕ) (e : Event) (me : F) (s : Wait F C) : Prop where
  io : s.io.Inv
  held : Held fd e me s.io
  timers : s.Timers
  fault : s.fault = none
  stage : Stage (s.armed fd e) s.fiberQueued s.scheduled s.cancelled s.pending s.cbQueued s.phase

section

variable {fd : ℕ} {e : Event} {me : F} {s s' : Wait F C}

theorem inv_init (hs : (system fd e me).init s) : s.Inv fd e me := by
  obtain ⟨heap, rfl⟩ := hs
  refine ⟨Table.inv_new, held_new, ⟨List.Pairwise.nil, ?_, ?_⟩, rfl, ?_⟩
  · rintro q hq
    cases hq
  · rintro h
    exact absurd rfl h
  · exact ⟨by simp [armed, Table.new_events], rfl, rfl⟩

/-- After an operation on the table that hands out the fiber `k` times. -/
theorem Inv.after
    {r : Except IOManager.Fault (Table Unit F C × List (Event × Unit × FiberOrCb F C))}
    {k : ℕ} {b : Bool} (hr : Hands fd e me r k b) (ht : s.Timers) (hf : s.fault = none)
    (hstage : Stage b (s.fiberQueued + k) (s.scheduled + k) s.cancelled s.pending s.cbQueued
      s.phase) :
    (after me s r).Inv fd e me := by
  obtain ⟨io', out, rfl, hi, hh, rfl, rfl⟩ := hr
  exact ⟨hi, hh, ⟨ht.sorted, ht.only, ht.own⟩, hf, hstage⟩

theorem Inv.addTimer (hi : s.Inv fd e me) {now p ms : ℕ}
    (hst : (system fd e me).step s (.addTimer now p ms) = some s') : s'.Inv fd e me := by
  have hf := hi.fault
  simp only [system, hf, Option.isSome_none, Bool.false_eq_true, ↓reduceIte] at hst
  split_ifs at hst with hg
  obtain ⟨hrun, hp⟩ := hg
  obtain rfl := Option.some.inj hst
  obtain ⟨harmed, hqueued, -⟩ : s.armed fd e = false ∧ s.fiberQueued = 0 ∧ s.cbQueued = 0 := by
    simpa only [Stage, hrun] using hi.stage
  refine ⟨hi.io, hi.held, ⟨hi.timers.sorted.addTimer hp now ms _ false, ?_, ?_⟩, rfl, ?_⟩
  · rintro q hq k hk
    refine ⟨by simp, ?_⟩
    -- another pending timer holds no callback of an attempt, as the call was running
    rcases (TimerManager.mem_addTimer ..).1 hq with rfl | hq
    · rfl
    · by_contra hne
      rw [TimerManager.addTimer_heap, Function.update_of_ne hne] at hk
      exact (hi.timers.only q hq k hk).1 hrun
  · rintro -
    simp [TimerManager.addTimer_heap, Timer.new]
  · refine ⟨harmed, hqueued, rfl, rfl, ?_⟩
    simp [pending, TimerManager.mem_addTimer]

theorem Inv.addEvent (hi : s.Inv fd e me)
    (hst : (system fd e me).step s .addEvent = some s') : s'.Inv fd e me := by
  have hf := hi.fault
  simp only [system, hf, Option.isSome_none, Bool.false_eq_true, ↓reduceIte] at hst
  split_ifs at hst with hphase
  obtain rfl := Option.some.inj hst
  obtain ⟨harmed, hfq, hsch, hcan, hcb⟩ : s.armed fd e = false ∧ s.fiberQueued = 0 ∧
      s.scheduled = 0 ∧ s.cancelled = false ∧ s.cbQueued = if s.pending then 0 else 1 := by
    simpa only [Stage, hphase] using hi.stage
  have hown := hi.timers.own (by simp [hphase])
  refine Inv.after (hi.held.hands_addEvent hi.io harmed) ⟨hi.timers.sorted, ?_, ?_⟩ rfl ?_
  · rintro q hq k hk
    exact ⟨by simp, (hi.timers.only q hq k hk).2⟩
  · rintro -
    exact hown
  · exact ⟨hfq, hsch, hcan, hcb⟩

theorem Inv.dispatch (hi : s.Inv fd e me) {ready : Mask} {err : Bool}
    (hg : InTime fd e s (.dispatch ready err))
    (hst : (system fd e me).step s (.dispatch ready err) = some s') : s'.Inv fd e me := by
  have hf := hi.fault
  simp only [system, hf, Option.isSome_none, Bool.false_eq_true, ↓reduceIte] at hst
  obtain rfl := Option.some.inj hst
  obtain ⟨hns, htime⟩ := hg
  have hhands := hi.held.hands_dispatch hi.io hns
  have hstage := hi.stage
  by_cases hhit : (s.io.events fd).has e = true ∧
      (Table.realEvents (s.io.events fd) ready err).has e = true
  · -- the event of the call is triggered before the timer has expired
    have hpend : s.pending = true := by simpa [pending] using htime hhit.1 hhit.2
    have harmed : s.armed fd e = true := hhit.1
    rw [harmed] at hstage
    obtain ⟨hphase, hfq, hsch, hcan, hcb⟩ := hstage.of_armed
    rw [if_pos hhit, hhit.1, hhit.2] at hhands
    refine Inv.after hhands hi.timers hi.fault ?_
    rw [hphase, hfq, hsch, hcan, hcb, hpend]
    exact ⟨rfl, rfl, rfl, rfl⟩
  · have hsame : ((s.io.events fd).has e &&
        !(Table.realEvents (s.io.events fd) ready err).has e) = s.armed fd e := by
      unfold armed
      cases harmed : (s.io.events fd).has e
      · rfl
      · have hno : ¬ (Table.realEvents (s.io.events fd) ready err).has e = true :=
          fun h => hhit ⟨harmed, h⟩
        simp [hno]
    rw [if_neg hhit, hsame] at hhands
    exact Inv.after hhands hi.timers hi.fault hstage

omit [DecidableEq F] in
/-- Nothing of a call is collected while it is running. -/
theorem Timers.count_running (ht : s.Timers) (hrun : s.phase = .running) (now p₀ : ℕ) :
    (s.tm.listExpiredCb now p₀).2.count (some (.attempt s.attempt)) = 0 := by
  rw [(TimerManager.listExpiredCb_spec ht.sorted now p₀).2.1]
  refine List.count_eq_zero.2 fun hmem => ?_
  obtain ⟨q, hq, hcb⟩ := List.mem_map.1 hmem
  exact (ht.only q (List.mem_of_mem_filter hq) _ hcb).1 hrun

omit [DecidableEq F] in
/-- Otherwise its callback is collected when its timer is due, which is then not pending any
more. -/
theorem Timers.collect (ht : s.Timers) (hrun : s.phase ≠ .running) (now p₀ : ℕ) :
    (s.pending = true ∧ (s.tm.heap s.timer).next ≤ now ∧
      (s.tm.listExpiredCb now p₀).2.count (some (.attempt s.attempt)) = 1 ∧
      decide (s.timer ∈ (s.tm.listExpiredCb now p₀).1.timers) = false) ∨
    ((s.tm.listExpiredCb now p₀).2.count (some (.attempt s.attempt)) = 0 ∧
      decide (s.timer ∈ (s.tm.listExpiredCb now p₀).1.timers) = s.pending) := by
  obtain ⟨hcb, hrec⟩ := ht.own hrun
  have hmem := (TimerManager.listExpiredCb_spec ht.sorted now p₀).2.2.2 s.timer
  have hcount := count_collected ht.sorted now p₀ s.timer hcb fun q hq h => (ht.only q hq _ h).2
  rw [hrec] at hmem
  by_cases hdue : s.timer ∈ s.tm.timers ∧ (s.tm.heap s.timer).next ≤ now
  · rw [if_pos hdue] at hcount
    refine .inl ⟨by simpa [pending] using hdue.1, hdue.2, hcount, ?_⟩
    rw [decide_eq_false_iff_not, hmem]
    rintro ⟨-, hlt | hfalse⟩
    · omega
    · cases hfalse
  · rw [if_neg hdue] at hcount
    refine .inr ⟨hcount, ?_⟩
    unfold pending
    rw [decide_eq_decide, hmem]
    refine ⟨fun h => h.1, fun h => ⟨h, .inl ?_⟩⟩
    by_contra hlt
    exact hdue ⟨h, by omega⟩

theorem Inv.expire (hi : s.Inv fd e me) {now p₀ : ℕ} (hg : InTime fd e s (.expire now p₀))
    (hst : (system fd e me).step s (.expire now p₀) = some s') : s'.Inv fd e me := by
  have hf := hi.fault
  simp only [system, hf, Option.isSome_none, Bool.false_eq_true, ↓reduceIte] at hst
  obtain rfl := Option.some.inj hst
  obtain ⟨hsorted, -, hheap, hmem⟩ := TimerManager.listExpiredCb_spec hi.timers.sorted now p₀
  refine ⟨hi.io, hi.held, ⟨hsorted, ?_, ?_⟩, rfl, ?_⟩
  · rintro q hq k hk
    rw [(hheap q).1] at hk
    exact hi.timers.only q ((hmem q).1 hq).1 k hk
  · rintro hrun
    rw [(hheap _).1, (hheap _).2]
    exact hi.timers.own hrun
  · have hstage := hi.stage
    by_cases hrun : s.phase = .running
    · simp only [Stage, hrun] at hstage ⊢
      rw [hi.timers.count_running hrun]
      exact hstage
    · rcases hi.timers.collect hrun now p₀ with ⟨hpend, hdue, hcount, hout⟩ | ⟨hcount, hout⟩
      · -- the timer is due: the call still waits for its event
        have hlate : ¬ ((s.phase = .blocked ∨ s.phase = .resumed) ∧ s.armed fd e = false) := by
          rintro ⟨hphase, harmed⟩
          have := hg hphase harmed (by simpa [pending] using hpend)
          omega
        unfold pending armed at *
        simp only [hcount, hout]
        rw [hpend] at hstage
        cases hphase : s.phase with
        | running => exact absurd hphase hrun
        | timerAdded =>
          rw [hphase] at hstage
          obtain ⟨h1, h2, h3, h4, h5⟩ := hstage
          exact ⟨h1, h2, h3, h4, by rw [h5]; rfl⟩
        | blocked =>
          have harmed : (s.io.events fd).has e = true := by
            by_contra h
            exact hlate ⟨.inl hphase, by simpa using h⟩
          rw [hphase, harmed] at hstage
          obtain ⟨h1, h2, h3, h4⟩ := hstage
          rw [harmed]
          exact ⟨h1, h2, h3, by rw [h4]; rfl⟩
        | resumed =>
          rw [hphase] at hstage
          exact absurd ⟨.inr hphase, hstage.1⟩ hlate
      · unfold pending at *
        simp only [hcount, hout]
        exact hstage

theorem Inv.runCb (hi : s.Inv fd e me) (hg : InTime fd e s .runCb)
    (hst : (system fd e me).step s .runCb = some s') : s'.Inv fd e me := by
  have hf := hi.fault
  simp only [system, hf, Option.isSome_none, Bool.false_eq_true, ↓reduceIte] at hst
  split_ifs at hst with hq hrun
  · -- no callback is left when the call goes on
    have hstage := hi.stage
    simp only [Stage, hrun] at hstage
    exact absurd hstage.2.2 hq
  · obtain rfl := Option.some.inj hst
    have hstage := hi.stage
    have hblocked : s.phase = .blocked ∧ s.armed fd e = true := by
      cases hphase : s.phase with
      | running => exact absurd hphase hrun
      | timerAdded => exact absurd hphase hg
      | blocked =>
        refine ⟨rfl, ?_⟩
        by_contra harmed
        simp only [Stage, hphase, harmed] at hstage
        exact hq hstage.2.2.2
      | resumed =>
        simp only [Stage, hphase] at hstage
        exact absurd hstage.2.2.2.2.2 hq
    obtain ⟨hphase, harmed⟩ := hblocked
    rw [harmed] at hstage
    obtain ⟨-, hfq, hsch, -, hcb⟩ := hstage.of_armed
    have hpend : s.pending = false := by
      by_contra h
      rw [Bool.not_eq_false] at h
      rw [h] at hcb
      exact hq hcb
    refine Inv.after (hi.held.hands_cancelEvent hi.io harmed)
      ⟨hi.timers.sorted, hi.timers.only, hi.timers.own⟩ rfl ?_
    unfold pending at hpend hcb
    simp only [Stage, hphase, hfq, hsch, hcb, pending, hpend]
    simp

theorem Inv.resume (hi : s.Inv fd e me)
    (hst : (system fd e me).step s .resume = some s') : s'.Inv fd e me := by
  have hf := hi.fault
  simp only [system, hf, Option.isSome_none, Bool.false_eq_true, ↓reduceIte] at hst
  by_cases hboth : s.phase = .blocked ∧ s.fiberQueued ≠ 0
  swap
  · rw [if_neg hboth] at hst
    cases hst
  rw [if_pos hboth] at hst
  obtain ⟨hphase, hq⟩ := hboth
  obtain rfl := Option.some.inj hst
  have hstage := hi.stage
  have hown := hi.timers.own (by simp [hphase])
  have harmed : s.armed fd e = false := by
    by_contra h
    rw [Bool.not_eq_false] at h
    rw [h] at hstage
    exact hq hstage.of_armed.2.1
  simp only [Stage, hphase, harmed] at hstage
  obtain ⟨hfq, hsch, hcan, hcb⟩ := hstage
  cases hc : s.cancelled with
  | false =>
    have hpend : s.pending = true := by simpa [hc] using hcan.symm
    refine ⟨hi.io, hi.held, ⟨hi.timers.sorted, ?_, fun _ => hown⟩, rfl, ?_⟩
    · rintro q hq k hk
      exact ⟨by simp, (hi.timers.only q hq k hk).2⟩
    · exact ⟨harmed, by simp only [hfq], hsch, rfl, hpend, hcb⟩
  | true =>
    -- the timer has been collected, so that no pending timer is left of the attempt
    have hpend : s.timer ∉ s.tm.timers := by
      have : s.pending = false := by simpa [hc] using hcan.symm
      simpa [pending] using this
    refine ⟨hi.io, hi.held, ⟨hi.timers.sorted, ?_, fun h => absurd rfl h⟩, rfl, ?_⟩
    · rintro q hq k hk
      exact absurd ((hi.timers.only q hq k hk).2 ▸ hq) hpend
    · exact ⟨harmed, by simp only [hfq], hcb⟩

theorem Inv.cancelTimer (hi : s.Inv fd e me)
    (hst : (system fd e me).step s .cancelTimer = some s') : s'.Inv fd e me := by
  have hf := hi.fault
  simp only [system, hf, Option.isSome_none, Bool.false_eq_true, ↓reduceIte] at hst
  split_ifs at hst with hphase
  have hstage := hi.stage
  simp only [Stage, hphase] at hstage
  obtain ⟨harmed, hfq, -, -, hpend, hcb⟩ := hstage
  have hown := hi.timers.own (by simp [hphase])
  rw [TimerManager.cancel_eq (by simpa [pending] using hpend) (by simp [hown.1])] at hst
  obtain rfl := Option.some.inj hst
  refine ⟨hi.io, hi.held, ⟨hi.timers.sorted.erase _ _, ?_, fun h => absurd rfl h⟩, rfl,
    harmed, hfq, hcb⟩
  rintro q hq k hk
  have hne : q ≠ s.timer := (hi.timers.sorted.nodup.mem_erase_iff.1 hq).1
  simp only [Function.update_of_ne hne] at hk
  exact absurd (hi.timers.only q (List.mem_of_mem_erase hq) k hk).2 hne

theorem Inv.other (hi : s.Inv fd e me) {a : Act Unit F C}
    (hst : (system fd e me).step s (.other a) = some s') : s'.Inv fd e me := by
  have hf := hi.fault
  simp only [system, hf, Option.isSome_none, Bool.false_eq_true, ↓reduceIte] at hst
  split_ifs at hst with hp
  obtain rfl := Option.some.inj hst
  exact Inv.after (hi.held.hands_foreign hi.io hp.1 hp.2) hi.timers hi.fault hi.stage

theorem Inv.otherTimer (hi : s.Inv fd e me) {now p ms : ℕ} {recurring : Bool}
    (hst : (system fd e me).step s (.otherTimer now p ms recurring) = some s') :
    s'.Inv fd e me := by
  have hf := hi.fault
  simp only [system, hf, Option.isSome_none, Bool.false_eq_true, ↓reduceIte] at hst
  split_ifs at hst with hp
  obtain ⟨hp, hne⟩ := hp
  obtain rfl := Option.some.inj hst
  refine ⟨hi.io, hi.held, ⟨hi.timers.sorted.addTimer hp now ms _ recurring, ?_, ?_⟩, rfl, ?_⟩
  · rintro q hq k hk
    by_cases hqp : q = p
    · subst hqp
      simp [TimerManager.addTimer_heap, Timer.new] at hk
    · rw [TimerManager.addTimer_heap, Function.update_of_ne hqp] at hk
      exact hi.timers.only q (((TimerManager.mem_addTimer ..).1 hq).resolve_left hqp) k hk
  · rintro hrun
    rw [TimerManager.addTimer_heap, Function.update_of_ne (Ne.symm (hne hrun))]
    exact hi.timers.own hrun
  · have hstage := hi.stage
    by_cases hrun : s.phase = .running
    · simp only [Stage, hrun] at hstage ⊢
      exact hstage
    · have hpend : decide (s.timer ∈ (s.tm.addTimer now p ms .other recurring).1.timers) =
          s.pending := by
        unfold pending
        rw [decide_eq_decide, TimerManager.mem_addTimer]
        exact or_iff_right (Ne.symm (hne hrun))
      unfold pending at hpend ⊢
      simp only [hpend]
      exact hstage

theorem Inv.step (hi : s.Inv fd e me) {a : WaitAct F C} (hg : InTime fd e s a)
    (hst : (system fd e me).step s a = some s') : s'.Inv fd e me := by
  cases a with
  | addTimer now p ms => exact hi.addTimer hst
  | addEvent => exact hi.addEvent hst
  | dispatch ready err => exact hi.dispatch hg hst
  | expire now p₀ => exact hi.expire hg hst
  | runCb => exact hi.runCb hg hst
  | resume => exact hi.resume hst
  | cancelTimer => exact hi.cancelTimer hst
  | other a => exact hi.other hst
  | otherTimer now p ms recurring => exact hi.otherTimer hst

theorem inv_of_inTime (hr : (system fd e me).ReachableWhen (InTime fd e) s) :
    s.Inv fd e me :=
  hr.invariant (fun _ hs => inv_init hs) fun _ _ _ _ hi hg hst => hi.step hg hst

end

/-- The blocked fiber is scheduled exactly once, and no assertion fails. -/
structure Once (fd : ℕ) (e : Event) (s : Wait F C) : Prop where
  /-- No assertion has failed. -/
  fault : s.fault = none
  /-- Until the event is triggered or cancelled the fiber has not been scheduled in the attempt;
  from then on it has been scheduled once. -/
  scheduled : s.phase ≠ .running →
    s.scheduled = if s.phase = .timerAdded ∨ s.armed fd e = true then 0 else 1
  /-- A blocked fiber waits for its event, with its timer pending or its callback queued, or it
  stands in the task queue once. -/
  blocked : s.phase = .blocked →
    if s.armed fd e then s.fiberQueued = 0 ∧ s.cbQueued = (if s.timer ∈ s.tm.timers then 0 else 1)
    else s.fiberQueued = 1
  /-- When the callback is about to run for a blocked call, the event is still registered. -/
  callback : s.cbQueued ≠ 0 → s.phase ≠ .timerAdded → s.phase = .blocked ∧ s.armed fd e = true

variable {fd : ℕ} {e : Event} {me : F}

omit [DecidableEq F] in
theorem Inv.once {s : Wait F C} (hi : s.Inv fd e me) : s.Once fd e := by
  have hstage := hi.stage
  refine ⟨hi.fault, fun hrun => ?_, fun hblocked => ?_, fun hcb hadded => ?_⟩
  · cases hphase : s.phase with
    | running => exact absurd hphase hrun
    | timerAdded =>
      simp only [Stage, hphase] at hstage
      simp [hstage.2.2.1]
    | blocked =>
      cases harmed : s.armed fd e
      all_goals
        simp only [Stage, hphase, harmed] at hstage
        simp [hstage.2.1]
    | resumed =>
      simp only [Stage, hphase] at hstage
      simp [hstage.1, hstage.2.2.1]
  · cases harmed : s.armed fd e
    · simp only [Stage, hblocked, harmed] at hstage
      exact hstage.1
    · rw [harmed] at hstage
      obtain ⟨-, hfq, -, -, hcb⟩ := hstage.of_armed
      exact ⟨hfq, by simpa [pending] using hcb⟩
  · cases hphase : s.phase with
    | running =>
      simp only [Stage, hphase] at hstage
      exact absurd hstage.2.2 hcb
    | timerAdded => exact absurd hphase hadded
    | blocked =>
      refine ⟨rfl, ?_⟩
      by_contra harmed
      simp only [Stage, hphase, harmed] at hstage
      exact hcb hstage.2.2.2
    | resumed =>
      simp only [Stage, hphase] at hstage
      exact absurd hstage.2.2.2.2.2 hcb

/-- **Timeout and readiness.**  In every run in which readiness and timeout do not overlap, the
fiber of a blocked call is scheduled exactly once, and no assertion fails. -/
theorem scheduled_once {s : Wait F C} (hr : (system fd e me).ReachableWhen (InTime fd e) s) :
    s.Once fd e :=
  (inv_of_inTime hr).once

/-- No timer, no event. -/
def start : Wait ℕ ℕ :=
  ⟨.new, ⟨fun _ => .new 0 0 none false, [], 0⟩, .running, 0, 0, false, 0, 0, 0, none⟩

/-- A first attempt is woken by its event, a second one by its timeout. -/
theorem scheduled_once_timeout :
    ∃ s, (system 5 .read 1).run (InTime 5 .read) start
        [.addTimer 0 7 100, .addEvent, .dispatch (.single .read) false, .resume, .cancelTimer,
          .addTimer 50 7 100, .addEvent, .expire 150 3, .runCb] = some s ∧
      s.phase = .blocked ∧ s.cancelled = true ∧ s.scheduled = 1 ∧ s.Once 5 .read := by
  obtain ⟨s, hrun⟩ : ∃ s, (system 5 .read 1).run (InTime 5 .read) start
      [.addTimer 0 7 100, .addEvent, .dispatch (.single .read) false, .resume, .cancelTimer,
        .addTimer 50 7 100, .addEvent, .expire 150 3, .runCb] = some s :=
    Option.isSome_iff_exists.1 (by decide +kernel)
  have hs : ((system 5 .read 1).run (InTime 5 .read) start
      [.addTimer 0 7 100, .addEvent, .dispatch (.single .read) false, .resume, .cancelTimer,
        .addTimer 50 7 100, .addEvent, .expire 150 3, .runCb]).map
        (fun s => (s.phase, s.cancelled, s.scheduled)) = some (.blocked, true, 1) := by
    decide +kernel
  rw [hrun] at hs
  obtain ⟨h1, h2⟩ := Prod.mk.inj (Option.some.inj hs)
  obtain ⟨h2, h3⟩ := Prod.mk.inj h2
  exact ⟨s, hrun, h1, h2, h3, scheduled_once (System.reachableWhen_of_run ⟨_, rfl⟩ hrun)⟩

/-- The timer expires and the event becomes ready in the same round of `idle`: the callback is
queued, the event is dispatched, and the callback then cancels an event that is not registered. -/
theorem timeout_after_dispatch :
    ∃ s, (system 5 .read 1 : System (Wait ℕ ℕ) _).Reachable s ∧
      s.fault = some (.io .missingEvent) ∧ ¬ s.Once 5 .read := by
  have hs : ((system 5 .read 1).run (fun _ _ => True) start
      [.addTimer 0 7 100, .addEvent, .expire 100 3, .dispatch (.single .read) false, .runCb]).map
        (fun s => s.fault) = some (some (.io .missingEvent)) := by
    decide +kernel
  obtain ⟨s, hrun, hf⟩ := Option.map_eq_some_iff.1 hs
  refine ⟨s, System.reachableWhen_of_run ⟨_, rfl⟩ hrun, hf, fun ho => ?_⟩
  have := ho.fault
  rw [hf] at this
  cases this

end Wait

end Hook

end YXTWebCpp
