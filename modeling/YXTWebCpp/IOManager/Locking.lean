import YXTWebCpp.IOManager.Basic
import YXTWebCpp.LTS.Lock

/-!
# The mutex of an `FdContext`

`addEvent`, `delEvent`, `cancelEvent`, `cancelAll` and the dispatch in `idle` all read the events of
a descriptor, call `epoll_ctl` with what they make of them, and write the events back.  `delEvent`
and `cancelEvent` do so without taking the mutex of the context.

* `FdOp` : the operations on one descriptor.
* `FdThread` : where a thread stands in an operation.
* `lockedFd` : all interleavings of any number of threads in the operations.
* `NoOverlap` : `delEvent` and `cancelEvent` do not overlap with another operation.
* `fd_exclusive` : **then nobody is in an operation while another thread is between its reading and
  its writing**, and only then.
-/

namespace YXTWebCpp

namespace IOManager

variable {Sch F C : Type*}

/-- The operations on one descriptor. -/
inductive FdOp (Sch F C : Type*) where
  | addEvent (e : Event) (sch : Sch) (cur : F) (cb : Option C)
  | delEvent (e : Event)
  | cancelEvent (e : Event)
  | cancelAll
  /-- The dispatch of what `epoll_wait` has returned. -/
  | dispatch (ready : Mask) (err : Bool)
  deriving DecidableEq

/-- How an operation takes the mutex. -/
def FdOp.mode : FdOp Sch F C → Mode
  | .delEvent _ | .cancelEvent _ => .none
  | .addEvent _ _ _ _ | .cancelAll | .dispatch _ _ => .exclusive

/-- Where a thread stands. -/
inductive FdThread (Sch F C : Type*) where
  /-- Not in an operation. -/
  | out
  /-- About to enter the section. -/
  | before (op : FdOp Sch F C)
  /-- It has taken the mutex. -/
  | entered (op : FdOp Sch F C)
  /-- It has read the events, and is about to call `epoll_ctl`. -/
  | hasRead (op : FdOp Sch F C) (events : Mask)
  /-- `epoll_ctl` has returned, and it is about to write the events. -/
  | ctl (op : FdOp Sch F C) (events : Mask)
  deriving DecidableEq

namespace FdThread

/-- The operation that the thread is inside. -/
def inside : FdThread Sch F C → Option (FdOp Sch F C)
  | .entered op | .hasRead op _ | .ctl op _ => some op
  | .out | .before _ => none

/-- The thread is between its reading and its writing of the events. -/
def between : FdThread Sch F C → Bool
  | .hasRead _ _ | .ctl _ _ => true
  | .out | .before _ | .entered _ => false

/-- The operation that the thread enters next. -/
def enters : FdThread Sch F C → Option (FdOp Sch F C)
  | .before op => some op
  | _ => none

end FdThread

/-- A descriptor and its mutex. -/
structure LockedFd (ι Sch F C : Type*) where
  /-- `mutex` -/
  mutex : RWLock ι
  /-- The context. -/
  ctx : FdContext Sch F C
  /-- The interest list of the kernel. -/
  epoll : ℕ → Option Mask
  /-- `m_pendingEventCount` -/
  pending : ℕ
  /-- What has been scheduled. -/
  tasks : List (Event × Sch × FiberOrCb F C)

/-- The steps of a thread. -/
inductive FdThreadAct (Sch F C : Type*) where
  /-- It begins an operation. -/
  | call (op : FdOp Sch F C)
  /-- It takes the mutex, if the operation does, else it reads the events. -/
  | enter
  /-- It reads the events under the mutex. -/
  | read
  /-- `epoll_ctl` -/
  | epollCtl
  /-- It writes the events and the contexts, and gives the mutex back. -/
  | write
  deriving DecidableEq

namespace LockedFd

variable {ι : Type*}

/-- What an operation makes of the events that it has read: `none` if an assertion fails, else
whether it goes on. -/
def goesOn (events : Mask) : FdOp Sch F C → Option Bool
  | .addEvent e _ _ _ => if events.has e then none else some true
  | .delEvent e | .cancelEvent e => if events.has e then some true else none
  | .cancelAll => some (decide (events ≠ .none))
  | .dispatch ready err => some (decide (events.inter (Table.realEvents events ready err) ≠ .none))

/-- Where a thread stands when it has read the events; a section that has nothing to do is left. -/
def reads (g : LockedFd ι Sch F C) (op : FdOp Sch F C) :
    Option (LockedFd ι Sch F C × FdThread Sch F C) :=
  (goesOn g.ctx.events op).map fun b =>
    if b then (g, .hasRead op g.ctx.events)
    else ({ g with mutex := g.mutex.release op.mode }, .out)

/-- The arguments of `epoll_ctl`, from the events that were read. -/
def ctlArgs (events : Mask) : FdOp Sch F C → CtlOp × Mask
  | .addEvent e _ _ _ => (if events = .none then .add else .mod, events.union (.single e))
  | .delEvent e | .cancelEvent e =>
    (Table.ctlOp (events.diff (.single e)), events.diff (.single e))
  | .cancelAll => (.del, .none)
  | .dispatch ready err =>
    let left := events.diff (Table.realEvents events ready err)
    (Table.ctlOp left, left)

/-- What an operation writes, the events that it has read being `events`: `none` if an assertion
fails. -/
def writes (g : LockedFd ι Sch F C) (events : Mask) :
    FdOp Sch F C → Option (FdContext Sch F C × ℕ × List (Event × Sch × FiberOrCb F C))
  | .addEvent e sch cur cb =>
    let c := { g.ctx.context e with scheduler := some sch }
    let c := if cb.isSome then { c with cb := cb } else { c with fiber := some cur }
    let ctx := { g.ctx with events := g.ctx.events.union (.single e) }
    some (ctx.setContext e c, g.pending + 1, [])
  | .delEvent e =>
    -- the new events were computed from those read before
    let ctx := { g.ctx.setContext e .reset with events := events.diff (.single e) }
    some (ctx, g.pending - 1, [])
  | .cancelEvent e =>
    (g.ctx.triggerEvent e).toOption.map fun r => (r.1, g.pending - 1, r.2)
  | .cancelAll => (do
      let s ← Table.triggerIf g.ctx.events .read (g.ctx, g.pending, [])
      Table.triggerIf s.1.events .write s).toOption
  | .dispatch ready err => (do
      let real := Table.realEvents events ready err
      let s ← Table.triggerIf real .read (g.ctx, g.pending, [])
      Table.triggerIf real .write s).toOption

/-- A step of thread `i`.  An assertion that fails ends the run. -/
def step (i : ι) (g : LockedFd ι Sch F C) :
    FdThread Sch F C → FdThreadAct Sch F C → Option (LockedFd ι Sch F C × FdThread Sch F C)
  | .out, .call op => some (g, .before op)
  | .before op, .enter =>
    match op.mode with
    | .none => g.reads op
    | m => (g.mutex.acquire i m).map fun l => ({ g with mutex := l }, .entered op)
  | .entered op, .read => g.reads op
  | .hasRead op events, .epollCtl =>
    let a := ctlArgs events op
    (epollCtl a.1 g.ctx.fd a.2 g.epoll).map fun epoll => ({ g with epoll := epoll }, .ctl op events)
  | .ctl op events, .write =>
    (g.writes events op).map fun r =>
      ({ g with
        mutex := g.mutex.release op.mode
        ctx := r.1
        pending := r.2.1
        tasks := g.tasks ++ r.2.2 }, .out)
  | _, _ => none

end LockedFd

/-- The threads and the operations; any two operations clash. -/
def fdSections : Sections (FdThread Sch F C) (FdOp Sch F C) where
  inside := FdThread.inside
  mode := FdOp.mode
  clash _ _ := True
  symm _ _ _ := trivial

instance (x y : FdOp Sch F C) : Decidable (fdSections.clash x y) := inferInstanceAs (Decidable True)

section

variable {ι : Type*} [DecidableEq ι]

/-- All interleavings of the threads `ι` in the operations on the descriptor `fd`. -/
def lockedFd (fd : ℕ) :
    System (Pool ι (LockedFd ι Sch F C) (FdThread Sch F C))
      (PoolAct ι (FdThreadAct Sch F C) Empty) :=
  interleave (fun s => s.shared = ⟨.free, .new fd, fun _ => none, 0, []⟩ ∧ ∀ i, s.thread i = .out)
    (fun i g w => g.step i w) fun _ e => nomatch e

/-- A thread that enters an operation finds nobody inside whom the mutex does not keep out:
`delEvent` and `cancelEvent` do not overlap with another operation. -/
def NoOverlap (s : Pool ι (LockedFd ι Sch F C) (FdThread Sch F C)) :
    PoolAct ι (FdThreadAct Sch F C) Empty → Prop
  | .thread i .enter => ∀ x ∈ (s.thread i).enters, fdSections.Clear s.thread i x
  | _ => True

instance [Fintype ι] (s : Pool ι (LockedFd ι Sch F C) (FdThread Sch F C)) :
    (a : PoolAct ι (FdThreadAct Sch F C) Empty) → Decidable (NoOverlap s a)
  | .thread i .enter =>
    inferInstanceAs (Decidable (∀ x ∈ (s.thread i).enters, fdSections.Clear s.thread i x))
  | .thread _ (.call _) | .thread _ .read | .thread _ .epollCtl | .thread _ .write =>
    inferInstanceAs (Decidable True)

/-! ### Steps -/

omit [DecidableEq ι] in
/-- A thread that reads goes on to `epoll_ctl`, or leaves. -/
theorem LockedFd.reads_cases {g g' : LockedFd ι Sch F C} {op : FdOp Sch F C}
    {w : FdThread Sch F C} (h : g.reads op = some (g', w)) :
    (g' = g ∧ w = .hasRead op g.ctx.events) ∨
      (g'.mutex = g.mutex.release op.mode ∧ w = .out ∧ op.mode = .exclusive) := by
  obtain ⟨b, hb, heq⟩ := Option.map_eq_some_iff.1 h
  cases b with
  | true =>
    obtain ⟨rfl, rfl⟩ := Prod.mk.inj heq
    exact .inl ⟨rfl, rfl⟩
  | false =>
    obtain ⟨rfl, rfl⟩ := Prod.mk.inj heq
    refine .inr ⟨rfl, rfl, ?_⟩
    cases op with
    | delEvent e | cancelEvent e =>
      simp only [LockedFd.goesOn] at hb
      split_ifs at hb
      cases hb
    | _ => rfl

/-- The thread stands before its reading only if it has taken the mutex. -/
def FdThread.Guarded (w : FdThread Sch F C) : Prop := ∀ op, w = .entered op → op.mode = .exclusive

omit [DecidableEq ι] in
/-- What a step of a thread does to the mutex; a thread enters the operation that it has begun. -/
theorem LockedFd.step_moves {i : ι} {g g' : LockedFd ι Sch F C} {w w' : FdThread Sch F C}
    {a : FdThreadAct Sch F C} (h : g.step i w a = some (g', w')) :
    fdSections.Moves g.mutex g'.mutex i w w' ∧ w'.Guarded ∧
      (∀ x, w.inside = none → w'.inside = some x → a = .enter ∧ w.enters = some x) ∧
      ∀ x, a = .enter → w.enters = some x → w.inside = none ∧ w'.inside = some x := by
  cases w with
  | out =>
    cases a with
    | call op =>
      obtain ⟨rfl, rfl⟩ := Prod.mk.inj (Option.some.inj h)
      exact ⟨.stay rfl rfl, nofun, nofun, nofun⟩
    | _ => cases h
  | before op =>
    cases a with
    | enter =>
      simp only [LockedFd.step] at h
      split at h
      · rename_i hm
        rcases reads_cases h with ⟨rfl, rfl⟩ | ⟨-, -, hm'⟩
        · refine ⟨.enter op rfl rfl ?_, nofun, fun x _ hx => ⟨rfl, hx⟩, fun x _ hx => ⟨rfl, hx⟩⟩
          have : fdSections.mode op = .none := hm
          rw [this]
          rfl
        · rw [hm] at hm'
          cases hm'
      · rename_i hm
        obtain ⟨l, hl, heq⟩ := Option.map_eq_some_iff.1 h
        obtain ⟨rfl, rfl⟩ := Prod.mk.inj heq
        refine ⟨.enter op rfl rfl hl, fun op' hop => ?_, fun x _ hx => ⟨rfl, hx⟩,
          fun x _ hx => ⟨rfl, hx⟩⟩
        obtain rfl := FdThread.entered.inj hop
        cases op with
        | delEvent e | cancelEvent e => exact absurd rfl hm
        | _ => rfl
    | _ => cases h
  | entered op =>
    cases a with
    | read =>
      rcases reads_cases h with ⟨rfl, rfl⟩ | ⟨hmutex, rfl, -⟩
      · exact ⟨.stay rfl rfl, nofun, nofun, nofun⟩
      · exact ⟨.leave op rfl rfl hmutex, nofun, nofun, nofun⟩
    | _ => cases h
  | hasRead op events =>
    cases a with
    | epollCtl =>
      obtain ⟨epoll, -, heq⟩ := Option.map_eq_some_iff.1 h
      obtain ⟨rfl, rfl⟩ := Prod.mk.inj heq
      exact ⟨.stay rfl rfl, nofun, nofun, nofun⟩
    | _ => cases h
  | ctl op events =>
    cases a with
    | write =>
      obtain ⟨r, -, heq⟩ := Option.map_eq_some_iff.1 h
      obtain ⟨rfl, rfl⟩ := Prod.mk.inj heq
      exact ⟨.leave op rfl rfl rfl, nofun, nofun, nofun⟩
    | _ => cases h

/-! ### Runs -/

variable [Fintype ι] {fd : ℕ} {s s' : Pool ι (LockedFd ι Sch F C) (FdThread Sch F C)}

/-- The mutex agrees with the threads. -/
structure FdHeld (s : Pool ι (LockedFd ι Sch F C) (FdThread Sch F C)) : Prop where
  held : s.shared.mutex.Held fun i => fdSections.held (s.thread i)
  guarded : ∀ i, (s.thread i).Guarded

theorem FdHeld.step (h : FdHeld s) {a : PoolAct ι (FdThreadAct Sch F C) Empty}
    (hst : (lockedFd fd).step s a = some s') : FdHeld s' := by
  rcases interleave_cases hst with ⟨i, b, g, w, rfl, hstep, rfl⟩ | ⟨e, -⟩
  · obtain ⟨hm, hguard, -⟩ := LockedFd.step_moves hstep
    exact ⟨hm.held h.held, forall_update h.guarded hguard⟩
  · exact nomatch e

theorem fdHeld_of_reachable {G : Pool ι (LockedFd ι Sch F C) (FdThread Sch F C) →
      PoolAct ι (FdThreadAct Sch F C) Empty → Prop} (hr : (lockedFd fd).ReachableWhen G s) :
    FdHeld s := by
  refine hr.invariant (fun s hs => ?_) fun s a s' _ h _ hst => h.step hst
  refine ⟨?_, fun i => by rw [hs.2 i]; exact nofun⟩
  simp only [hs.1, hs.2]
  exact RWLock.held_free

/-- Nobody is inside an operation while another thread is between its reading and its writing. -/
def FdExclusive (f : ι → FdThread Sch F C) : Prop :=
  ∀ i j, i ≠ j → (f i).between = true → (f j).inside = none

omit [DecidableEq ι] in
/-- Of two threads inside, one has not taken the mutex, and has read the events at once. -/
theorem fdApart_iff (h : FdHeld s) : fdSections.Apart s.thread ↔ FdExclusive s.thread := by
  constructor
  · intro hap i j hij hb
    obtain ⟨x, hx⟩ : ∃ x, (s.thread i).inside = some x := by
      cases hw : s.thread i <;> simp_all [FdThread.between, FdThread.inside]
    by_contra hne
    obtain ⟨y, hy⟩ := Option.ne_none_iff_exists'.1 hne
    exact hap i j hij x y hx hy trivial
  · intro hex i j hij x y (hx : (s.thread i).inside = some x)
      (hy : (s.thread j).inside = some y) _
    have hentered : ∀ i x, (s.thread i).inside = some x → (s.thread i).between = false →
        fdSections.held (s.thread i) = .exclusive := by
      intro i x hx hb
      have hg := h.guarded i
      generalize s.thread i = w at hx hb hg
      cases w with
      | entered op => exact hg op rfl
      | hasRead op events => cases hb
      | ctl op events => cases hb
      | _ => cases hx
    cases hbi : (s.thread i).between with
    | true =>
      rw [hex i j hij hbi] at hy
      cases hy
    | false =>
      cases hbj : (s.thread j).between with
      | true =>
        rw [hex j i (Ne.symm hij) hbj] at hx
        cases hx
      | false =>
        refine h.held.not_excludes hij ?_
        rw [hentered i x hx hbi, hentered j y hy hbj]
        trivial

/-- What a step takes to keep the threads apart. -/
theorem fdApart_step_iff (hl : FdHeld s) (h : fdSections.Apart s.thread)
    {a : PoolAct ι (FdThreadAct Sch F C) Empty} (hst : (lockedFd fd).step s a = some s') :
    fdSections.Apart s'.thread ↔ NoOverlap s a := by
  rcases interleave_cases hst with ⟨i, b, g, w, rfl, hstep, rfl⟩ | ⟨e, -⟩
  · obtain ⟨hm, -, henter, henters⟩ := LockedFd.step_moves hstep
    rw [hm.apart_iff hl.held h]
    constructor
    · intro hclear
      cases b with
      | enter =>
        intro x hx
        obtain ⟨hnone, hin⟩ := henters x rfl hx
        exact hclear x hnone hin
      | _ => trivial
    · intro hg x hnone hx
      obtain ⟨rfl, hx⟩ := henter x hnone hx
      exact hg x hx
  · exact nomatch e

end

/-- Nothing is registered for descriptor 5. -/
def unregistered : Pool (Fin 2) (LockedFd (Fin 2) Unit ℕ ℕ) (FdThread Unit ℕ ℕ) :=
  ⟨⟨.free, .new 5, fun _ => none, 0, []⟩, fun _ => .out⟩

/-- Thread `i` goes through an operation that takes the mutex. -/
def throughMutex (i : Fin 2) (op : FdOp Unit ℕ ℕ) :
    List (PoolAct (Fin 2) (FdThreadAct Unit ℕ ℕ) Empty) :=
  [.thread i (.call op), .thread i .enter, .thread i .read, .thread i .epollCtl, .thread i .write]

/-- Fiber 7 registers for `READ`, a thread deletes that, and fiber 8 begins to register for `WRITE`
afterwards. -/
def delThenAdd : List (PoolAct (Fin 2) (FdThreadAct Unit ℕ ℕ) Empty) :=
  List.flatten
    [throughMutex 0 (.addEvent .read () 7 none),
      [.thread 0 (.call (.delEvent .read)), .thread 0 .enter, .thread 0 .epollCtl, .thread 0 .write,
        .thread 1 (.call (.addEvent .write () 8 none)), .thread 1 .enter, .thread 1 .read]]

/-- Fiber 7 is registered for `READ`.  While a thread is deleting that, fiber 8 registers for
`WRITE`. -/
def addInDel : List (PoolAct (Fin 2) (FdThreadAct Unit ℕ ℕ) Empty) :=
  List.flatten
    [throughMutex 0 (.addEvent .read () 7 none),
      [.thread 0 (.call (.delEvent .read)), .thread 0 .enter,
        .thread 1 (.call (.addEvent .write () 8 none)), .thread 1 .enter, .thread 1 .read]]

/-- Both write what they have made of the events that they have read. -/
def bothWrite : List (PoolAct (Fin 2) (FdThreadAct Unit ℕ ℕ) Empty) :=
  [.thread 1 .epollCtl, .thread 0 .epollCtl, .thread 1 .write, .thread 0 .write]

end IOManager

end YXTWebCpp
