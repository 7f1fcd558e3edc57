import YXTWebCpp.IOManager.History

/-!
# Dispatching what `epoll_wait` returned

In `idle`, a worker first gets the ready events from `epoll_wait` and later dispatches them one
descriptor after another, each under the lock of its context.  In between, other threads may change
the table.

* `Loop` : the table, what each worker has still to dispatch, and the assertion that has failed.
* `NotHalfStale` : the events of a snapshot are all registered at its dispatch, or none of them is.
* `Table.Inv.dispatch_iff` : a dispatch passes the assertion of `triggerEvent` exactly then.
* `triggerEvent_armed` : **no run of such dispatches fails an assertion.**
-/

namespace YXTWebCpp

namespace IOManager

variable {ι Sch F C : Type*}

/-- An entry of what `epoll_wait` returned. -/
structure Snapshot where
  /-- The descriptor. -/
  fd : ℕ
  /-- `EPOLLIN` and `EPOLLOUT` -/
  ready : Mask
  /-- `EPOLLERR` or `EPOLLHUP` -/
  err : Bool
  deriving DecidableEq, Repr

/-- The event table shared by workers `ι`. -/
structure Loop (ι Sch F C : Type*) where
  /-- The table. -/
  io : Table Sch F C
  /-- The entries a worker has still to dispatch. -/
  snaps : ι → List Snapshot
  /-- The assertion that has aborted the process. -/
  fault : Option Fault

/-- The steps of the threads. -/
inductive LoopAct (ι Sch F C : Type*) where
  /-- Some thread calls `addEvent`, `delEvent`, `cancelEvent` or `cancelAll`. -/
  | call (a : Act Sch F C)
  /-- `epoll_wait` returns to worker `i`. -/
  | wait (i : ι) (snaps : List Snapshot)
  /-- Worker `i` dispatches its next entry. -/
  | dispatch (i : ι)

/-- A call that is not a dispatch. -/
def Act.isCall : Act Sch F C → Bool
  | .dispatch _ _ _ => false
  | _ => true

/-- What `epoll_wait` may return: events within the mask registered in the kernel. -/
def Snapshot.Within (io : Table Sch F C) (x : Snapshot) : Prop :=
  (io.epoll x.fd).any (fun m => decide (x.ready.Subset m)) = true

instance (io : Table Sch F C) (x : Snapshot) : Decidable (x.Within io) :=
  inferInstanceAs (Decidable (_ = true))

namespace Loop

variable [DecidableEq ι]

/-- The threads as a transition system.  A failed assertion ends the run. -/
def system (ι Sch F C : Type*) [DecidableEq ι] : System (Loop ι Sch F C) (LoopAct ι Sch F C) where
  init s := s = ⟨.new, fun _ => [], none⟩
  step s a :=
    if s.fault.isSome then none
    else match a with
      | .call a =>
        if a.isCall ∧ a.Pre s.io then
          match a.apply s.io with
          | .ok r => some { s with io := r.1 }
          | .error f => some { s with fault := some f }
        else none
      | .wait i snaps =>
        if s.snaps i = [] ∧ ∀ x ∈ snaps, x.Within s.io then
          some { s with snaps := Function.update s.snaps i snaps }
        else none
      | .dispatch i =>
        match s.snaps i with
        | [] => none
        | x :: rest =>
          match s.io.dispatch x.fd x.ready x.err with
          | .ok r => some { s with io := r.1, snaps := Function.update s.snaps i rest }
          | .error f => some { s with fault := some f }

end Loop

/-- The events of a snapshot are all registered, or none of them is. -/
def Snapshot.NotHalfStale (io : Table Sch F C) (x : Snapshot) : Prop :=
  let real := Table.realEvents (io.events x.fd) x.ready x.err
  (io.events x.fd).inter real = .none ∨ real.Subset (io.events x.fd)

instance (io : Table Sch F C) (x : Snapshot) : Decidable (x.NotHalfStale io) :=
  inferInstanceAs (Decidable (_ ∨ _))

/-- The condition on a dispatch: its entry is not half stale. -/
def Loop.NotHalfStale (s : Loop ι Sch F C) : LoopAct ι Sch F C → Prop
  | .dispatch i => ∀ x ∈ (s.snaps i).head?, x.NotHalfStale s.io
  | _ => True

instance (s : Loop ι Sch F C) : (a : LoopAct ι Sch F C) → Decidable (s.NotHalfStale a)
  | .dispatch i => inferInstanceAs (Decidable (∀ x ∈ (s.snaps i).head?, x.NotHalfStale s.io))
  | .call _ | .wait _ _ => inferInstanceAs (Decidable True)

/-- `triggerEvent` of an event that is not registered. -/
theorem FdContext.triggerEvent_of_not_has {ctx : FdContext Sch F C} {e : Event}
    (he : ctx.events.has e = false) : ctx.triggerEvent e = .error .notArmed := by
  unfold triggerEvent
  rw [if_pos he]

namespace Table

variable {io : Table Sch F C} {fd : ℕ} {ctx : FdContext Sch F C}

/-- Triggering a set of events of which one is not registered fails. -/
theorem triggerBoth_error (hok : ctx.Ok) {m : Mask} (hm : ¬ m.Subset ctx.events) (n : ℕ) :
    (triggerIf m .read (ctx, n, []) >>= triggerIf m .write) = .error .notArmed := by
  by_cases hread : m.has .read = true → ctx.events.has .read = true
  · -- `READ` is fine, so it is `WRITE` that is not registered
    have hwrite : m.has .write = true ∧ ctx.events.has .write = false := by
      by_contra hc
      refine hm fun e he => ?_
      cases e with
      | read => exact hread he
      | write =>
        by_contra hw
        exact hc ⟨he, by simpa using hw⟩
    rw [triggerIf_eq hok hread]
    change triggerIf m .write _ = _
    unfold triggerIf
    rw [if_pos hwrite.1, FdContext.triggerEvent_of_not_has]
    · rfl
    · split_ifs
      · simp [hwrite.2]
      · exact hwrite.2
  · have hno : m.has .read = true ∧ ctx.events.has .read = false := by
      by_contra hc
      refine hread fun he => ?_
      by_contra hr
      exact hc ⟨he, by simpa using hr⟩
    unfold triggerIf
    rw [if_pos hno.1, FdContext.triggerEvent_of_not_has hno.2]
    rfl

/-- **A dispatch passes its assertions exactly when its entry is not half stale**; if it is, it is
the assertion of `triggerEvent` that fails. -/
theorem Inv.dispatch_iff (hi : io.Inv) (x : Snapshot) :
    (x.NotHalfStale io → ∃ r, io.dispatch x.fd x.ready x.err = .ok r ∧ r.1.Inv) ∧
      (¬ x.NotHalfStale io → io.dispatch x.fd x.ready x.err = .error .notArmed) := by
  unfold Snapshot.NotHalfStale
  cases h : io.fdContexts[x.fd]? with
  | none =>
    have hev : io.events x.fd = .none := by simp [events, h]
    refine ⟨fun _ => ⟨(io, []), by simp only [dispatch, h], hi⟩, fun hns => ?_⟩
    refine absurd (.inl ?_) hns
    rw [hev]
    exact Mask.ext_has fun e => by simp
  | some ctx =>
    rw [events_of_getElem? h]
    by_cases hinter : ctx.events.inter (realEvents ctx.events x.ready x.err) = .none
    · exact ⟨fun _ => ⟨(io, []), dispatch_of_inter_eq_none h hinter, hi⟩,
        fun hns => absurd (.inl hinter) hns⟩
    · by_cases hsub : (realEvents ctx.events x.ready x.err).Subset ctx.events
      · have hne : realEvents ctx.events x.ready x.err ≠ .none := by
          intro hne
          rw [hne] at hinter
          exact hinter (Mask.ext_has fun e => by simp)
        exact ⟨fun _ => ⟨_, hi.dispatch_eq h hsub hne, hi.disarm h hsub⟩,
          fun hns => absurd (.inr hsub) hns⟩
      · refine ⟨fun hns => absurd hns (by simp [hinter, hsub]), fun _ => ?_⟩
        have hev : ctx.events ≠ .none := by
          intro hnone
          rw [hnone] at hinter
          exact hinter (Mask.ext_has fun e => by simp)
        unfold dispatch
        rw [h]
        simp only [hinter, ↓reduceIte, hi.fd x.fd ctx h, hi.epollCtl_ctlOp h hev]
        rw [← bind_assoc, triggerBoth_error (hi.ok x.fd ctx h) hsub]
        rfl

end Table

namespace Loop

variable [DecidableEq ι]

theorem inv_of_reachableWhen {s : Loop ι Sch F C}
    (hr : (system ι Sch F C).ReachableWhen NotHalfStale s) : s.io.Inv ∧ s.fault = none := by
  refine hr.invariant (I := fun s => s.io.Inv ∧ s.fault = none)
    (fun s hs => by subst hs; exact ⟨Table.inv_new, rfl⟩) fun s a s' _ hi hg hst => ?_
  obtain ⟨hi, hf⟩ := hi
  simp only [system, hf, Option.isSome_none, Bool.false_eq_true, ↓reduceIte] at hst
  cases a with
  | call a =>
    simp only at hst
    split_ifs at hst with hp
    -- a call within its precondition registers an event or drops registered ones
    rcases Act.apply_cases hi hp.2 with ⟨_, _, _, _, _, _, _, hc, he, happ⟩ |
      ⟨_, _, _, hc, hm, -, happ⟩ | ⟨_, happ⟩
    · rw [happ] at hst
      obtain rfl := Option.some.inj hst
      exact ⟨hi.arm hc he _ _, rfl⟩
    · rw [happ] at hst
      obtain rfl := Option.some.inj hst
      exact ⟨hi.disarm hc hm, rfl⟩
    · rw [happ] at hst
      obtain rfl := Option.some.inj hst
      exact ⟨hi, rfl⟩
  | wait i snaps =>
    simp only at hst
    split_ifs at hst
    obtain rfl := Option.some.inj hst
    exact ⟨hi, rfl⟩
  | dispatch i =>
    cases hs : s.snaps i with
    | nil => simp [hs] at hst
    | cons x rest =>
      obtain ⟨r, hdisp, hinv⟩ := (hi.dispatch_iff x).1 (hg x (by simp [hs]))
      simp only [hs, hdisp] at hst
      obtain rfl := Option.some.inj hst
      exact ⟨hinv, rfl⟩

/-- **No assertion fails as long as no dispatch is half stale.**  For any number of workers, in
every state reached by calls within their preconditions, returns of `epoll_wait` and dispatches of
entries that are not half stale, no assertion has failed; and the next dispatch fails the assertion
of `triggerEvent` exactly when its entry is half stale. -/
theorem triggerEvent_armed {s : Loop ι Sch F C}
    (hr : (system ι Sch F C).ReachableWhen NotHalfStale s) :
    s.fault = none ∧ ∀ i x rest, s.snaps i = x :: rest →
      (s.io.dispatch x.fd x.ready x.err = .error .notArmed ↔ ¬ x.NotHalfStale s.io) := by
  obtain ⟨hi, hf⟩ := inv_of_reachableWhen hr
  refine ⟨hf, fun i x rest _ => ⟨fun he hns => ?_, (hi.dispatch_iff x).2⟩⟩
  obtain ⟨r, hok, -⟩ := (hi.dispatch_iff x).1 hns
  rw [hok] at he
  cases he

/-- A worker and another thread: both events of descriptor 5 are ready, one of them is deleted
before the worker dispatches the other. -/
def halfStaleRun (del : List (LoopAct (Fin 1) ℕ ℕ ℕ)) : List (LoopAct (Fin 1) ℕ ℕ ℕ) :=
  [.call (.addEvent 5 .read 1 7 none), .call (.addEvent 5 .write 1 8 none),
    .wait 0 [⟨5, ⟨true, true⟩, false⟩]] ++ del ++ [.dispatch 0]

/-- When both events are deleted in between, the dispatch finds nothing to do. -/
theorem triggerEvent_armed_stale :
    ∃ s, (system (Fin 1) ℕ ℕ ℕ).run NotHalfStale ⟨.new, fun _ => [], none⟩
        (halfStaleRun [.call (.delEvent 5 .read), .call (.delEvent 5 .write)]) = some s ∧
      s.fault = none := by
  obtain ⟨s, hrun⟩ : ∃ s, (system (Fin 1) ℕ ℕ ℕ).run NotHalfStale ⟨.new, fun _ => [], none⟩
      (halfStaleRun [.call (.delEvent 5 .read), .call (.delEvent 5 .write)]) = some s :=
    Option.isSome_iff_exists.1 (by decide +kernel)
  exact ⟨s, hrun, (triggerEvent_armed (System.reachableWhen_of_run rfl hrun)).1⟩

/-- When one of them is deleted in between, the assertion of `triggerEvent` aborts the process. -/
theorem dispatch_half_stale :
    ∃ s, (system (Fin 1) ℕ ℕ ℕ).Reachable s ∧ s.fault = some .notArmed := by
  obtain ⟨s, hrun⟩ : ∃ s, (system (Fin 1) ℕ ℕ ℕ).run (fun _ _ => True) ⟨.new, fun _ => [], none⟩
      (halfStaleRun [.call (.delEvent 5 .read)]) = some s :=
    Option.isSome_iff_exists.1 (by decide +kernel)
  have hfault : ((system (Fin 1) ℕ ℕ ℕ).run (fun _ _ => True) ⟨.new, fun _ => [], none⟩
      (halfStaleRun [.call (.delEvent 5 .read)])).map Loop.fault = some (some .notArmed) := by
    decide +kernel
  rw [hrun] at hfault
  exact ⟨s, System.reachableWhen_of_run rfl hrun, Option.some.inj hfault⟩

end Loop

end IOManager

end YXTWebCpp
