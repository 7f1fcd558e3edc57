import YXTWebCpp.Hook.Timeout
import YXTWebCpp.FdManager.Basic

/-!
# Closing the descriptor of a blocked call

While a fiber is blocked in a hooked I/O call (`do_io` in `hook.cpp`), another one closes the
descriptor.  The hooked `close` cancels the events of the descriptor, which wakes the fiber, deletes
its context from the `FdManager`, and closes it.  Then the kernel may use the number again.  The
fiber that is woken has no timeout to report and makes its system call again, on whatever has the
number by then.

* `Errno`, `SysRet` : what a system call returns.
* `DoIo` : where the call stands.
* `Number` : everything that concerns one descriptor number: the event table, the `FdManager`, what
  the kernel has open under the number, the call, and those who close and open.
* `Number.system` : all interleavings.
* `Settled` : the number is used again only after the call has ended.
* `not_spared` : **the call never ends with `EBADF` without a system call on the number after the
  close**; if the number has been used again when it is woken, that system call reaches the new
  owner.
-/

namespace YXTWebCpp

namespace Hook

open IOManager

/-- `errno` -/
inductive Errno where
  | again
  | intr
  | badf
  | timedOut
  | other (n : ℕ)
  deriving DecidableEq, Repr

/-- What a system call returns: a number that is not negative, or -1 with `errno`. -/
inductive SysRet where
  | ok (n : ℕ)
  | fail (e : Errno)
  deriving DecidableEq, Repr

/-- Where the call stands. -/
inductive DoIo where
  /-- About to call `FdMgr::get`. -/
  | lookup
  /-- The descriptor is not looked after: the system call is made, and that is all. -/
  | through
  /-- In the loop, with the context at `c`, about to make the system call. -/
  | attempt (c : ℕ)
  /-- The system call would block. -/
  | wouldBlock (c : ℕ)
  /-- The timer has been started, if there is to be one. -/
  | timerAdded (c : ℕ)
  /-- `addEvent` has returned, and the fiber has yielded. -/
  | blocked (c : ℕ)
  /-- It has been resumed and has found `cancelled` unset, and is about to cancel the timer. -/
  | resumed (c : ℕ)
  /-- It has returned. -/
  | ended (r : SysRet)
  deriving DecidableEq, Repr

/-- Where the hooked `close` stands. -/
inductive Closer where
  | out
  /-- `get` has returned a context, and `IOManager::GetThis` an I/O manager. -/
  | cancels
  /-- About to call `FdMgr::del`. -/
  | deletes
  /-- About to call `close_f`. -/
  | closes
  deriving DecidableEq, Repr

/-- Where the hooked `socket` or `accept` stands. -/
inductive Opener where
  | out
  /-- The kernel has returned the number. -/
  | opened
  /-- `FdMgr::get(fd, true)` has found no context. -/
  | missed
  deriving DecidableEq, Repr

/-- What concerns one descriptor number. -/
structure Number (F C : Type*) where
  /-- The event table. -/
  io : Table Unit F C
  /-- The contexts of the descriptors. -/
  fds : Fd.FdManager
  /-- What is open under the number: sockets are numbered as they are opened. -/
  owner : Option ℕ
  /-- The next socket. -/
  next : ℕ
  /-- The call. -/
  call : DoIo
  /-- `timeOut` of the attempt. -/
  timeOut : ℕ
  /-- The timer of the attempt has been started, and neither run nor cancelled. -/
  timer : Bool
  /-- `sharedTimerInfo->cancelled` of the attempt is set. -/
  cancelled : Bool
  /-- How often the fiber stands in the task queue. -/
  fiberQueued : ℕ
  /-- The one who closes. -/
  closer : Closer
  /-- The one who opens. -/
  opener : Opener
  /-- The number has been closed. -/
  closed : Bool
  /-- The system calls that the call has made since then, each with the owner of the number. -/
  later : List (Option ℕ)
  /-- The assertion that has failed. -/
  fault : Option IOManager.Fault

/-- The steps. -/
inductive NumberAct (F C : Type*) where
  /-- The call looks up the context, and tests it. -/
  | lookup
  /-- The call makes its system call, which returns `r`. -/
  | sysCall (r : SysRet)
  /-- The call starts the timer, if the context has a timeout. -/
  | addTimer
  /-- The call registers the event, and yields. -/
  | addEvent
  /-- A worker runs the callback of the timer. -/
  | timerCb
  /-- A worker resumes the fiber, which reads `cancelled`. -/
  | resume
  /-- The call cancels its timer and goes round. -/
  | cancelTimer
  /-- `close` looks up the context; `iom` says whether the thread has an I/O manager. -/
  | closeGet (iom : Bool)
  /-- `close` calls `cancelAll`. -/
  | closeCancelAll
  /-- `close` calls `FdMgr::del`. -/
  | closeDel
  /-- `close` calls `close_f`. -/
  | closeSys
  /-- `socket_f` or `accept_f` returns the number. -/
  | openSys
  /-- `FdMgr::get(fd, true)` looks for a context. -/
  | openLookup
  /-- `FdMgr::get(fd, true)` creates one. -/
  | openCreate
  /-- Somebody sets a timeout of a context. -/
  | setTimeout (c type v : ℕ)
  /-- Somebody else uses the event table, or `idle` dispatches events. -/
  | other (a : Act Unit F C)

/-- The result, if the call has ended. -/
def DoIo.result : DoIo → Option SysRet
  | .ended r => some r
  | _ => none

/-- The attempt is in progress: its `TimerInfo` is alive, and its timer may have been started. -/
def DoIo.waiting : DoIo → Bool
  | .timerAdded _ | .blocked _ | .resumed _ => true
  | _ => false

namespace Number

variable {F C : Type*} [DecidableEq F]

/-- The tests in front of the loop. -/
def tests (s : Number F C) (fd : ℕ) : DoIo :=
  match s.fds.lookup fd with
  | none => .through
  | some c =>
    if (s.fds.heap c).isClosed then .ended (.fail .badf)
    else if (s.fds.heap c).isSocket then .attempt c
    else .through

/-- Where the call stands after its system call has returned. -/
def afterCall : DoIo → SysRet → Option DoIo
  | .through, r => some (.ended r)
  | .attempt c, .fail .intr => some (.attempt c)
  | .attempt c, .fail .again => some (.wouldBlock c)
  | .attempt _, r => some (.ended r)
  | _, _ => none

/-- The call goes on elsewhere. -/
def goTo (s : Number F C) (call : DoIo) : Number F C := { s with call := call }

/-- At the beginning of an attempt `timeOut` is set. -/
def readTimeout (s : Number F C) (so : ℕ) : Number F C :=
  match s.call with
  | .attempt c => { s with timeOut := s.fds.getTimeout c so }
  | _ => s

/-- What the kernel may return: `EBADF` if and only if nothing is open under the number. -/
def Answers (owner : Option ℕ) (r : SysRet) : Prop := r = .fail .badf ↔ owner = none

instance (owner : Option ℕ) (r : SysRet) : Decidable (Answers owner r) :=
  inferInstanceAs (Decidable (_ ↔ _))

/-- The table and what was scheduled after an operation on it, or the assertion that failed. -/
def after (me : F) (s : Number F C)
    (r : Except IOManager.Fault (Table Unit F C × List (Event × Unit × FiberOrCb F C))) :
    Number F C :=
  match r with
  | .ok r => { s with io := r.1, fiberQueued := s.fiberQueued + handed me r.2 }
  | .error f => { s with fault := some f }

/-- The steps of a call for event `e` and timeout `so` of descriptor `fd` by the fiber `me`, and of
everybody else.  A fault ends the run. -/
def step (fd : ℕ) (e : Event) (so : ℕ) (me : F) (s : Number F C) (a : NumberAct F C) :
    Option (Number F C) :=
  if s.fault.isSome then none
  else match a with
    | .lookup => if s.call = .lookup then some ((s.goTo (s.tests fd)).readTimeout so) else none
    | .sysCall r =>
      if Answers s.owner r then
        (afterCall s.call r).map fun call => { s with
          call := call
          later := if s.closed then s.later ++ [s.owner] else s.later }
      else none
    | .addTimer =>
      match s.call with
      | .wouldBlock c => some { s with
          call := .timerAdded c
          timer := decide (s.timeOut ≠ 2 ^ 64 - 1)
          cancelled := false }
      | _ => none
    | .addEvent =>
      match s.call with
      | .timerAdded c =>
        some (after me { s with call := .blocked c }
          ((s.io.addEvent fd e () me none).map fun io => (io, [])))
      | _ => none
    | .timerCb =>
      -- the callback cancels by the number, whoever has registered the event
      if s.timer = true ∧ s.call.waiting = true then
        some (after me { s with timer := false, cancelled := true }
          ((s.io.cancelEvent fd e).map fun r => r.2))
      else none
    | .resume =>
      match s.call with
      | .blocked c =>
        if s.fiberQueued = 0 then none
        else some { s with
          call := if s.cancelled then .ended (.fail .timedOut) else .resumed c
          fiberQueued := s.fiberQueued - 1 }
      | _ => none
    | .cancelTimer =>
      match s.call with
      | .resumed c => some (({ s with timer := false }.goTo (.attempt c)).readTimeout so)
      | _ => none
    | .closeGet iom =>
      -- a descriptor that is not looked after is just closed
      if s.closer = .out then
        some { s with closer :=
          if (s.fds.lookup fd).isNone then .closes else if iom then .cancels else .deletes }
      else none
    | .closeCancelAll =>
      if s.closer = .cancels then
        some (after me { s with closer := .deletes } ((s.io.cancelAll fd).map fun r => r.2))
      else none
    | .closeDel =>
      if s.closer = .deletes then some { s with fds := s.fds.del fd, closer := .closes } else none
    | .closeSys =>
      -- the kernel takes a descriptor that is closed out of the interest list
      if s.closer = .closes then
        some { s with
          io := { s.io with epoll := Function.update s.io.epoll fd none }
          owner := none
          closer := .out
          closed := true }
      else none
    | .openSys =>
      if s.owner = none ∧ s.opener = .out then
        some { s with owner := some s.next, next := s.next + 1, opener := .opened }
      else none
    | .openLookup =>
      if s.opener = .opened then
        some { s with opener := if (s.fds.lookup fd).isNone then .missed else .out }
      else none
    | .openCreate =>
      if s.opener = .missed then
        (s.fds.create fd (some true)).map fun fds => { s with fds := fds, opener := .out }
      else none
    | .setTimeout c type v => some { s with fds := s.fds.setTimeout c type v }
    | .other a => some (after me s (a.apply s.io))

/-- At first the number is open, and the call has not begun; contexts are created open. -/
def system (fd : ℕ) (e : Event) (so : ℕ) (me : F) : System (Number F C) (NumberAct F C) where
  init s := ∃ fds, (∀ c, (fds.heap c).isClosed = false) ∧
    s = ⟨.new, fds, some 0, 1, .lookup, 0, false, false, 0, .out, .out, false, [], none⟩
  step := step fd e so me

/-- The number is used again only after the call has ended. -/
def Settled (s : Number F C) : NumberAct F C → Prop
  | .openSys => s.call.result.isSome
  | _ => True

instance (s : Number F C) : ∀ a, Decidable (Settled s a)
  | .openSys => inferInstanceAs (Decidable (s.call.result.isSome = true))
  | .lookup | .sysCall _ | .addTimer | .addEvent | .timerCb | .resume | .cancelTimer
  | .closeGet _ | .closeCancelAll | .closeDel | .closeSys | .openLookup | .openCreate
  | .setTimeout _ _ _ | .other _ => .isTrue trivial

section Fields

variable (me : F) (s : Number F C)
  (r : Except IOManager.Fault (Table Unit F C × List (Event × Unit × FiberOrCb F C)))

@[simp] theorem after_owner : (after me s r).owner = s.owner := by cases r <;> rfl
@[simp] theorem after_closed : (after me s r).closed = s.closed := by cases r <;> rfl
@[simp] theorem after_later : (after me s r).later = s.later := by cases r <;> rfl
@[simp] theorem after_call : (after me s r).call = s.call := by cases r <;> rfl
@[simp] theorem after_fds : (after me s r).fds = s.fds := by cases r <;> rfl

variable (so : ℕ)

omit [DecidableEq F] in
@[simp] theorem readTimeout_eq :
    s.readTimeout so = { s with timeOut := (s.readTimeout so).timeOut } := by
  unfold readTimeout
  split <;> rfl

end Fields

/-- Contexts are created open, and nobody marks them closed. -/
def Fresh (fds : Fd.FdManager) : Prop := ∀ c, (fds.heap c).isClosed = false

theorem Fresh.update {fds : Fd.FdManager} (h : Fresh fds) {c : ℕ} {x : Fd.FdContext}
    (hx : x.isClosed = false) (c' : ℕ) : (Function.update fds.heap c x c').isClosed = false := by
  by_cases hc : c' = c
  · rw [hc, Function.update_self, hx]
  · rw [Function.update_of_ne hc, h]

theorem Fresh.create {fds fds' : Fd.FdManager} {fd : ℕ} {stat : Option Bool} (h : Fresh fds)
    (hc : fds.create fd stat = some fds') : Fresh fds' := by
  simp only [Fd.FdManager.create] at hc
  split_ifs at hc
  obtain rfl := Option.some.inj hc
  exact h.update rfl

theorem Fresh.setTimeout {fds : Fd.FdManager} (h : Fresh fds) (c type v : ℕ) :
    Fresh (fds.setTimeout c type v) := by
  refine h.update ?_
  rw [Fd.FdContext.setTimeout]
  split_ifs <;> exact h c

theorem Fresh.del {fds : Fd.FdManager} (h : Fresh fds) (fd : ℕ) : Fresh (fds.del fd) := by
  intro c
  rw [Fd.FdManager.del]
  split_ifs <;> exact h c

omit [DecidableEq F] in
/-- No call is refused because the descriptor is marked closed. -/
theorem result_tests {s : Number F C} (h : Fresh s.fds) (fd : ℕ) : (s.tests fd).result = none := by
  unfold tests
  split
  · rfl
  · rw [h, if_neg nofun]
    split_ifs <;> rfl

/-- What a step does to the number and to the system calls on it. -/
inductive Effect (s : Number F C) : NumberAct F C → Number F C → Prop
  /-- The call has not ended by this, unless because of the timeout. -/
  | quiet {a : NumberAct F C} {s' : Number F C} : s'.owner = s.owner → s'.closed = s.closed →
      s'.later = s.later →
      (s'.call.result = s.call.result ∨
        s.call.result = none ∧ s'.call.result = some (.fail .timedOut)) → Effect s a s'
  /-- The call makes its system call. -/
  | called {r : SysRet} {s' : Number F C} : Answers s.owner r →
      afterCall s.call r = some s'.call → s'.owner = s.owner → s'.closed = s.closed →
      s'.later = (if s.closed then s.later ++ [s.owner] else s.later) → Effect s (.sysCall r) s'
  | closed {s' : Number F C} : s'.owner = none → s'.closed = true → s'.later = s.later →
      s'.call = s.call → Effect s .closeSys s'
  | opened {s' : Number F C} : s.owner = none → s'.closed = s.closed → s'.later = s.later →
      s'.call = s.call → s'.owner.isSome = true → Effect s .openSys s'

variable {fd : ℕ} {e : Event} {so : ℕ} {me : F} {s s' : Number F C} {a : NumberAct F C}

/-- What a step does, and that contexts stay as they are created. -/
theorem effect_of_step (hf : Fresh s.fds) (h : step fd e so me s a = some s') :
    Effect s a s' ∧ Fresh s'.fds := by
  unfold step at h
  obtain ⟨-, h⟩ := Option.ite_none_left_eq_some.1 h
  cases a with
  | lookup =>
    obtain ⟨hcall, h⟩ := Option.ite_none_right_eq_some.1 h
    obtain rfl := Option.some.inj h
    rw [readTimeout_eq]
    refine ⟨.quiet rfl rfl rfl (.inl ?_), hf⟩
    exact (result_tests hf fd).trans (by rw [hcall]; rfl)
  | sysCall r =>
    obtain ⟨hr, h⟩ := Option.ite_none_right_eq_some.1 h
    obtain ⟨call, hcall, rfl⟩ := Option.map_eq_some_iff.1 h
    exact ⟨.called hr hcall rfl rfl rfl, hf⟩
  | addTimer =>
    dsimp only at h
    split at h
    · next c hcall =>
      obtain rfl := Option.some.inj h
      exact ⟨.quiet rfl rfl rfl (.inl (by rw [hcall]; rfl)), hf⟩
    · cases h
  | addEvent =>
    dsimp only at h
    split at h
    · next c hcall =>
      obtain rfl := Option.some.inj h
      exact ⟨.quiet (by simp) (by simp) (by simp) (.inl (by simp [hcall, DoIo.result])), by simpa⟩
    · cases h
  | timerCb =>
    obtain ⟨-, h⟩ := Option.ite_none_right_eq_some.1 h
    obtain rfl := Option.some.inj h
    exact ⟨.quiet (by simp) (by simp) (by simp) (.inl (by simp)), by simpa⟩
  | resume =>
    dsimp only at h
    split at h
    · next c hcall =>
      obtain ⟨-, h⟩ := Option.ite_none_left_eq_some.1 h
      obtain rfl := Option.some.inj h
      refine ⟨.quiet rfl rfl rfl ?_, hf⟩
      rw [hcall]
      cases s.cancelled with
      | true => exact .inr ⟨rfl, rfl⟩
      | false => exact .inl rfl
    · cases h
  | cancelTimer =>
    dsimp only at h
    split at h
    · next c hcall =>
      obtain rfl := Option.some.inj h
      rw [readTimeout_eq]
      exact ⟨.quiet rfl rfl rfl (.inl (by rw [hcall]; rfl)), hf⟩
    · cases h
  | closeGet iom =>
    obtain ⟨-, h⟩ := Option.ite_none_right_eq_some.1 h
    obtain rfl := Option.some.inj h
    exact ⟨.quiet rfl rfl rfl (.inl rfl), hf⟩
  | closeCancelAll =>
    obtain ⟨-, h⟩ := Option.ite_none_right_eq_some.1 h
    obtain rfl := Option.some.inj h
    exact ⟨.quiet (by simp) (by simp) (by simp) (.inl (by simp)), by simpa⟩
  | closeDel =>
    obtain ⟨-, h⟩ := Option.ite_none_right_eq_some.1 h
    obtain rfl := Option.some.inj h
    exact ⟨.quiet rfl rfl rfl (.inl rfl), hf.del fd⟩
  | closeSys =>
    obtain ⟨-, h⟩ := Option.ite_none_right_eq_some.1 h
    obtain rfl := Option.some.inj h
    exact ⟨.closed rfl rfl rfl rfl, hf⟩
  | openSys =>
    obtain ⟨hopen, h⟩ := Option.ite_none_right_eq_some.1 h
    obtain rfl := Option.some.inj h
    exact ⟨.opened hopen.1 rfl rfl rfl rfl, hf⟩
  | openLookup =>
    obtain ⟨-, h⟩ := Option.ite_none_right_eq_some.1 h
    obtain rfl := Option.some.inj h
    exact ⟨.quiet rfl rfl rfl (.inl rfl), hf⟩
  | openCreate =>
    obtain ⟨-, h⟩ := Option.ite_none_right_eq_some.1 h
    obtain ⟨fds, hfds, rfl⟩ := Option.map_eq_some_iff.1 h
    exact ⟨.quiet rfl rfl rfl (.inl rfl), hf.create hfds⟩
  | setTimeout c type v =>
    obtain rfl := Option.some.inj h
    exact ⟨.quiet rfl rfl rfl (.inl rfl), hf.setTimeout c type v⟩
  | other a =>
    obtain rfl := Option.some.inj h
    exact ⟨.quiet (by simp) (by simp) (by simp) (.inl (by simp)), by simpa⟩

/-! ### Runs -/

theorem result_eq_some_iff {call : DoIo} {r : SysRet} :
    call.result = some r ↔ call = .ended r := by
  cases call <;> simp [DoIo.result]

/-- What a system call ends the call with, and that it was not ended before. -/
theorem afterCall_spec {call call' : DoIo} {r : SysRet} (h : afterCall call r = some call') :
    call.result = none ∧ (∀ r', call' = .ended r' → r' = r) ∧
      (r = .fail .badf → call' = .ended r) := by
  cases call with
  | through =>
    obtain rfl := Option.some.inj h
    exact ⟨rfl, fun r' hr' => (DoIo.ended.inj hr').symm, fun _ => rfl⟩
  | attempt c =>
    refine ⟨rfl, ?_⟩
    rcases r with n | ⟨⟨⟩⟩ <;> obtain rfl := Option.some.inj h <;> simp [eq_comm]
  | _ => cases h

/-- What holds in every run. -/
structure Known (s : Number F C) : Prop where
  fresh : Fresh s.fds
  open_or_closed : s.owner = none → s.closed = true
  badf : s.call = .ended (.fail .badf) → s.later ≠ []

theorem Known.step (hk : Known s) (h : step fd e so me s a = some s') : Known s' := by
  obtain ⟨heff, hfresh⟩ := effect_of_step hk.fresh h
  cases heff with
  | quiet howner hclosed hlater hcall =>
    refine ⟨hfresh, fun hnone => ?_, fun hbadf => ?_⟩
    · rw [hclosed]
      exact hk.open_or_closed (howner ▸ hnone)
    · rw [hlater]
      rw [hbadf] at hcall
      rcases hcall with hcall | ⟨-, hcall⟩
      · exact hk.badf (result_eq_some_iff.1 hcall.symm)
      · cases hcall
  | called hr hcall howner hclosed hlater =>
    refine ⟨hfresh, fun hnone => ?_, fun hbadf => ?_⟩
    · rw [hclosed]
      exact hk.open_or_closed (howner ▸ hnone)
    · -- the kernel says `EBADF` for a number that is closed only
      have hnone := hr.1 ((afterCall_spec hcall).2.1 _ hbadf).symm
      rw [hlater, if_pos (hk.open_or_closed hnone)]
      simp
  | closed howner hclosed hlater hcall =>
    refine ⟨hfresh, fun _ => hclosed, fun hbadf => ?_⟩
    rw [hlater]
    exact hk.badf (hcall ▸ hbadf)
  | opened _ hclosed hlater hcall howner =>
    refine ⟨hfresh, fun hnone => ?_, fun hbadf => ?_⟩
    · rw [hnone] at howner
      cases howner
    · rw [hlater]
      exact hk.badf (hcall ▸ hbadf)

theorem known_of_reachable {G : Number F C → NumberAct F C → Prop}
    (hr : (system fd e so me).ReachableWhen G s) : Known s := by
  refine hr.invariant (fun s hs => ?_) fun s a s' _ hk _ hst => hk.step hst
  obtain ⟨fds, hfresh, rfl⟩ := hs
  exact ⟨hfresh, nofun, nofun⟩

/-- What holds in every run in which the number is not used again before the call has ended. -/
structure Alone (s : Number F C) : Prop where
  gone : s.closed = true → s.call.result = none → s.owner = none
  untouched : ∀ o ∈ s.later, o = none
  ended : s.later ≠ [] → s.call = .ended (.fail .badf)

theorem Alone.step (hs : Alone s) (hk : Known s) (hg : Settled s a)
    (h : step fd e so me s a = some s') : Alone s' := by
  cases (effect_of_step hk.fresh h).1 with
  | quiet howner hclosed hlater hcall =>
    refine ⟨fun hc hres => ?_, hlater ▸ hs.untouched, fun hne => ?_⟩
    · rcases hcall with hcall | ⟨-, hcall⟩
      · rw [howner]
        exact hs.gone (hclosed ▸ hc) (hcall ▸ hres)
      · rw [hres] at hcall
        cases hcall
    · have hended := hs.ended (hlater ▸ hne)
      rw [hended] at hcall
      rcases hcall with hcall | ⟨hcall, -⟩
      · exact result_eq_some_iff.1 hcall
      · cases hcall
  | called hr hcall howner hclosed hlater =>
    obtain ⟨hrun, -, hend⟩ := afterCall_spec hcall
    by_cases hc : s.closed = true
    · -- the number is closed and not in use again, so this ends the call
      have hnone := hs.gone hc hrun
      have hbadf := hr.2 hnone
      rw [if_pos hc, hnone] at hlater
      refine ⟨fun _ _ => howner.trans hnone, fun o ho => ?_, fun _ => hbadf ▸ hend hbadf⟩
      rw [hlater] at ho
      rcases List.mem_append.1 ho with ho | ho
      · exact hs.untouched o ho
      · exact List.mem_singleton.1 ho
    · rw [if_neg hc] at hlater
      refine ⟨fun hc' => absurd (hclosed ▸ hc') hc, hlater ▸ hs.untouched, fun hne => ?_⟩
      rw [hs.ended (hlater ▸ hne)] at hrun
      cases hrun
  | closed howner _ hlater hcall =>
    exact ⟨fun _ _ => howner, hlater ▸ hs.untouched,
      fun hne => hcall.trans (hs.ended (hlater ▸ hne))⟩
  | opened _ _ hlater hcall _ =>
    refine ⟨fun _ hres => ?_, hlater ▸ hs.untouched,
      fun hne => hcall.trans (hs.ended (hlater ▸ hne))⟩
    have hg : s.call.result.isSome = true := hg
    rw [← hcall, hres] at hg
    cases hg

theorem alone_of_settled (hr : (system fd e so me).ReachableWhen Settled s) : Alone s := by
  refine hr.invariant (fun s hs => ?_) fun s a s' hr hs hg hst =>
    hs.step (known_of_reachable hr) hg hst
  obtain ⟨fds, -, rfl⟩ := hs
  exact ⟨nofun, nofun, nofun⟩

section Steps

variable (fd e so me) {c : ℕ} (hfault : s.fault = none)

include hfault

theorem step_resume (hcall : s.call = .blocked c) (hcancelled : s.cancelled = false)
    (hqueued : s.fiberQueued ≠ 0) :
    step fd e so me s .resume =
      some { s with call := .resumed c, fiberQueued := s.fiberQueued - 1 } := by
  simp [step, hfault, hcall, hqueued, hcancelled]

theorem step_cancelTimer (hcall : s.call = .resumed c) :
    step fd e so me s .cancelTimer = some { s with
      call := .attempt c, timer := false, timeOut := s.fds.getTimeout c so } := by
  simp [step, hfault, hcall, goTo, readTimeout]

theorem step_sysCall (hcall : s.call = .attempt c) (hclosed : s.closed = true) {r : SysRet}
    (hr : Answers s.owner r) :
    ∃ call, step fd e so me s (.sysCall r) =
      some { s with call := call, later := s.later ++ [s.owner] } := by
  obtain ⟨call, hafter⟩ : ∃ call, afterCall (.attempt c) r = some call := by
    rcases r with n | ⟨⟨⟩⟩ <;> exact ⟨_, rfl⟩
  exact ⟨call, by simp [step, hfault, hcall, hclosed, hr, hafter]⟩

/-- A fiber that is woken without a timeout makes its system call on whatever has the number. -/
theorem leads_sysCall (hcall : s.call = .blocked c) (hcancelled : s.cancelled = false)
    (hqueued : s.fiberQueued ≠ 0) (hclosed : s.closed = true) {r : SysRet}
    (hr : Answers s.owner r) :
    ∃ s', (system fd e so me).Leads (fun _ _ => True) s s' ∧ s'.later = s.later ++ [s.owner] := by
  have hresume := step_resume fd e so me hfault hcall hcancelled hqueued
  set s₁ : Number F C := { s with call := .resumed c, fiberQueued := s.fiberQueued - 1 }
  have hcancel := step_cancelTimer fd e so me (s := s₁) hfault rfl
  set s₂ : Number F C := { s₁ with
    call := .attempt c, timer := false, timeOut := s₁.fds.getTimeout c so }
  obtain ⟨call, hsys⟩ := step_sysCall fd e so me (s := s₂) hfault rfl hclosed hr
  have h₁ : (system fd e so me).Leads (fun _ _ => True) s s₁ :=
    .step (a := .resume) .refl trivial hresume
  have h₂ : (system fd e so me).Leads (fun _ _ => True) s s₂ :=
    .step (a := .cancelTimer) h₁ trivial hcancel
  exact ⟨_, .step (a := .sysCall r) h₂ trivial hsys, rfl⟩

end Steps

/-- **The call makes a system call on the number after the close, or it does not end with `EBADF`.**
And if the number has been used again when its fiber is woken, that system call reaches the new
owner.  Only if the number is not used again before the call has ended, the new owner is never
reached and the system call fails with `EBADF`. -/
theorem not_spared (hr : (system fd e so me).Reachable s) :
    ¬ (s.call = .ended (.fail .badf) ∧ s.later = []) ∧
      (∀ c f, s.fault = none → s.call = .blocked c → s.cancelled = false → s.fiberQueued ≠ 0 →
        s.closed = true → s.owner = some f → ∃ s',
          (system fd e so me).Leads (fun _ _ => True) s s' ∧ s'.later = s.later ++ [some f]) ∧
      ((system fd e so me).ReachableWhen Settled s →
        (∀ f, some f ∉ s.later) ∧ (s.later ≠ [] → s.call = .ended (.fail .badf))) := by
  refine ⟨fun h => (known_of_reachable hr).badf h.1 h.2, ?_, fun hr => ?_⟩
  · intro c f hfault hcall hcancelled hqueued hclosed howner
    rw [← howner]
    refine leads_sysCall fd e so me (r := .ok 0) hfault hcall hcancelled hqueued hclosed ?_
    simp [Answers, howner]
  · have hs := alone_of_settled hr
    exact ⟨fun f hf => (nomatch hs.untouched _ hf), hs.ended⟩

/-- The number 5 is a socket that is looked after. -/
def socket5 : Number ℕ ℕ :=
  ⟨.new, ⟨(List.replicate 64 none).set 5 (some 0), fun _ => .new 5 (some true), 1⟩, some 0, 1,
    .lookup, 0, false, false, 0, .out, .out, false, [], none⟩

/-- Fiber 7 blocks in a read, and the number is closed. -/
def blockedAndClosed : List (NumberAct ℕ ℕ) :=
  [.lookup, .sysCall (.fail .again), .addTimer, .addEvent, .closeGet true, .closeCancelAll,
    .closeDel, .closeSys]

/-- The number is used again, and then the fiber runs. -/
def usedAgain : List (NumberAct ℕ ℕ) :=
  [.openSys, .openLookup, .openCreate, .resume, .cancelTimer, .sysCall (.ok 3)]

theorem not_spared_closed :
    ∃ s, (system 5 .read Fd.soRcvTimeo 7).run Settled socket5
        (blockedAndClosed ++ [.resume, .cancelTimer, .sysCall (.fail .badf)]) = some s ∧
      s.call = .ended (.fail .badf) ∧ s.later ≠ [] ∧ ∀ f, some f ∉ s.later := by
  obtain ⟨s, hrun⟩ : ∃ s, (system 5 .read Fd.soRcvTimeo 7).run Settled socket5
      (blockedAndClosed ++ [.resume, .cancelTimer, .sysCall (.fail .badf)]) = some s :=
    Option.isSome_iff_exists.1 (by decide +kernel)
  have hs : ((system 5 .read Fd.soRcvTimeo 7).run Settled socket5
      (blockedAndClosed ++ [.resume, .cancelTimer, .sysCall (.fail .badf)])).map
        (fun s => s.call) = some (.ended (.fail .badf)) := by
    decide +kernel
  rw [hrun] at hs
  have hcall := Option.some.inj hs
  have hr : (system 5 .read Fd.soRcvTimeo 7).ReachableWhen Settled s :=
    System.reachableWhen_of_run ⟨_, fun _ => rfl, rfl⟩ hrun
  obtain ⟨hnot, -, hsettled⟩ := not_spared hr.reachable
  exact ⟨s, hrun, hcall, fun hnil => hnot ⟨hcall, hnil⟩, (hsettled hr).1⟩

/-- The read returns data of the new owner. -/
theorem reads_from_next_owner :
    ∃ s : Number ℕ ℕ, (system 5 .read Fd.soRcvTimeo 7).Reachable s ∧ s.owner = some 1 ∧
      s.later = [some 1] ∧ s.call = .ended (.ok 3) := by
  have hs : ((system 5 .read Fd.soRcvTimeo 7).run (fun _ _ => True) socket5
      (blockedAndClosed ++ usedAgain)).map (fun s => (s.owner, s.later, s.call)) =
      some (some 1, [some 1], .ended (.ok 3)) := by
    decide +kernel
  obtain ⟨s, hrun, heq⟩ := Option.map_eq_some_iff.1 hs
  obtain ⟨howner, heq⟩ := Prod.mk.inj heq
  obtain ⟨hlater, hcall⟩ := Prod.mk.inj heq
  exact ⟨s, System.reachableWhen_of_run ⟨_, fun _ => rfl, rfl⟩ hrun, howner, hlater, hcall⟩

end Number

end Hook

end YXTWebCpp
