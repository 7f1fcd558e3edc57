import Mathlib.Algebra.Ring.Int.Defs
import Mathlib.Algebra.Ring.Nat
import Mathlib.Data.Finset.Basic
import Mathlib.Data.Fintype.Card
import Mathlib.Logic.Function.Basic

/-!
# The event table of the I/O manager

`IOManager` (`iomanager.cpp`): one `FdContext` per descriptor with the set of events it waits for
and, for each of them, whom to schedule; a counter of all pending events; and the interest list
of the kernel, which every operation updates through `epoll_ctl`.

The operations are written as in the source, in `Except Fault`: a fault is an assertion that fails,
which aborts the process, or a use of a null pointer.  Each returns, beside the new table, the
tasks it has handed to a scheduler, each with the event it was registered for.

Schedulers, fibers and callbacks are arbitrary types: the table only stores and passes them on.
-/

namespace YXTWebCpp

namespace IOManager

/-- `Event`, without `NONE`: the events that can be registered. -/
inductive Event where
  | read | write
  deriving DecidableEq, Repr

/-- A set of events: the bits `READ` (`EPOLLIN`) and `WRITE` (`EPOLLOUT`). -/
structure Mask where
  /-- `READ` -/
  read : Bool
  /-- `WRITE` -/
  write : Bool
  deriving DecidableEq, Repr

namespace Mask

/-- `NONE` -/
def none : Mask := ⟨false, false⟩

/-- `events & event` -/
def has (m : Mask) : Event → Bool
  | .read => m.read
  | .write => m.write

/-- The set of one event. -/
def single : Event → Mask
  | .read => ⟨true, false⟩
  | .write => ⟨false, true⟩

/-- `m | n` -/
def union (m n : Mask) : Mask := ⟨m.read || n.read, m.write || n.write⟩

/-- `m & n` -/
def inter (m n : Mask) : Mask := ⟨m.read && n.read, m.write && n.write⟩

/-- `m & ~n` -/
def diff (m n : Mask) : Mask := ⟨m.read && !n.read, m.write && !n.write⟩

/-- The number of bits set. -/
def card (m : Mask) : ℕ := m.read.toNat + m.write.toNat

/-- Every bit of `m` is set in `n`. -/
def Subset (m n : Mask) : Prop := ∀ e, m.has e = true → n.has e = true

instance (m n : Mask) : Decidable (Subset m n) :=
  decidable_of_iff ((m.read = true → n.read = true) ∧ (m.write = true → n.write = true))
    ⟨fun h e => by cases e; exacts [h.1, h.2], fun h => ⟨h .read, h .write⟩⟩

end Mask

/-- The assertions of the source, and its uses of pointers that may be null. -/
inductive Fault where
  /-- `addEvent`: the event is not registered yet. -/
  | duplicateEvent
  /-- `delEvent`, `cancelEvent`: the event is registered. -/
  | missingEvent
  /-- `triggerEvent`: the event is registered. -/
  | notArmed
  /-- `epoll_ctl` returns 0. -/
  | epollCtl
  /-- `triggerEvent`: the scheduler is not null. -/
  | nullScheduler
  /-- `addEvent`: the context of the descriptor exists. -/
  | outOfBounds
  deriving DecidableEq, Repr

/-- A task for a scheduler. -/
inductive FiberOrCb (F C : Type*) where
  | fiber (f : F)
  | cb (c : C)
  deriving DecidableEq, Repr

variable {Sch F C : Type*}

/-- `EventContext`: whom to schedule when an event happens. -/
structure EventContext (Sch F C : Type*) where
  /-- `scheduler` -/
  scheduler : Option Sch
  /-- `fiber` -/
  fiber : Option F
  /-- `cb` -/
  cb : Option C
  deriving DecidableEq

/-- `resetEventContext` -/
def EventContext.reset : EventContext Sch F C := ⟨none, none, none⟩

/-- The task a context holds. -/
def EventContext.task (c : EventContext Sch F C) : Option (FiberOrCb F C) :=
  match c.cb with
  | some cb => some (.cb cb)
  | none => c.fiber.map .fiber

/-- `FdContext` -/
structure FdContext (Sch F C : Type*) where
  /-- `fd` -/
  fd : ℕ
  /-- `read` -/
  read : EventContext Sch F C
  /-- `write` -/
  write : EventContext Sch F C
  /-- `events` -/
  events : Mask

namespace FdContext

/-- `new FdContext` with its number. -/
def new (fd : ℕ) : FdContext Sch F C := ⟨fd, .reset, .reset, .none⟩

/-- `getEventContext` -/
def context (ctx : FdContext Sch F C) : Event → EventContext Sch F C
  | .read => ctx.read
  | .write => ctx.write

/-- Assign to `getEventContext(event)`. -/
def setContext (ctx : FdContext Sch F C) (e : Event) (c : EventContext Sch F C) :
    FdContext Sch F C :=
  match e with
  | .read => { ctx with read := c }
  | .write => { ctx with write := c }

/-- `triggerEvent`: the context afterwards and the task scheduled.  Scheduling an empty fiber has no
effect. -/
def triggerEvent (ctx : FdContext Sch F C) (e : Event) :
    Except Fault (FdContext Sch F C × List (Event × Sch × FiberOrCb F C)) :=
  if ctx.events.has e = false then .error .notArmed
  else
    match (ctx.context e).scheduler with
    | none => .error .nullScheduler
    | some sch =>
      let ctx' := { ctx with events := ctx.events.diff (.single e) }
      .ok (ctx'.setContext e .reset, (ctx.context e).task.toList.map fun t => (e, sch, t))

end FdContext

/-! ### The kernel -/

/-- `EPOLL_CTL_ADD`, `EPOLL_CTL_MOD`, `EPOLL_CTL_DEL` -/
inductive CtlOp where
  | add | mod | del
  deriving DecidableEq, Repr

/-- `epoll_ctl` on the interest list: `none` when it fails, because a descriptor to be added is
there already or one to be changed or removed is not. -/
def epollCtl (op : CtlOp) (fd : ℕ) (events : Mask) (epoll : ℕ → Option Mask) :
    Option (ℕ → Option Mask) :=
  match op, epoll fd with
  | .add, none => some (Function.update epoll fd (some events))
  | .mod, some _ => some (Function.update epoll fd (some events))
  | .del, some _ => some (Function.update epoll fd none)
  | _, _ => none

/-! ### Operations -/

/-- The part of `IOManager` that keeps events. -/
structure Table (Sch F C : Type*) where
  /-- `m_fdContexts`: the context of descriptor `i` at index `i`. -/
  fdContexts : List (FdContext Sch F C)
  /-- `m_pendingEventCount` -/
  pendingEventCount : ℕ
  /-- The interest list of `m_epfd`, without the tickle pipe. -/
  epoll : ℕ → Option Mask

/-- `contextResize` -/
def contextResize (size : ℕ) (ctxs : List (FdContext Sch F C)) : List (FdContext Sch F C) :=
  ctxs.take size ++ (List.range' ctxs.length (size - ctxs.length)).map .new

namespace Table

/-- The table after the constructor of `IOManager`. -/
def new : Table Sch F C := ⟨contextResize 32 [], 0, fun _ => none⟩

/-- `addEvent(fd, event, cb)` on a thread of scheduler `sch`, in fiber `cur`. -/
def addEvent (io : Table Sch F C) (fd : ℕ) (e : Event) (sch : Sch) (cur : F) (cb : Option C) :
    Except Fault (Table Sch F C) :=
  let ctxs := if fd < io.fdContexts.length then io.fdContexts
    else contextResize (fd * 3 / 2) io.fdContexts
  match ctxs[fd]? with
  | none => .error .outOfBounds
  | some ctx =>
    if ctx.events.has e then .error .duplicateEvent
    else
      let op := if ctx.events = .none then .add else .mod
      match epollCtl op fd (ctx.events.union (.single e)) io.epoll with
      | none => .error .epollCtl
      | some epoll =>
        let c := { ctx.context e with scheduler := some sch }
        let c := if cb.isSome then { c with cb := cb } else { c with fiber := some cur }
        let ctx := { ctx with events := ctx.events.union (.single e) }
        .ok ⟨ctxs.set fd (ctx.setContext e c), io.pendingEventCount + 1, epoll⟩

/-- The descriptor is taken out of the interest list when no event is left. -/
def ctlOp (left : Mask) : CtlOp := if left = .none then .del else .mod

/-- `delEvent(fd, event)`, and whether it has done anything. -/
def delEvent (io : Table Sch F C) (fd : ℕ) (e : Event) : Except Fault (Bool × Table Sch F C) :=
  match io.fdContexts[fd]? with
  | none => .ok (false, io)
  | some ctx =>
    if ctx.events.has e = false then .error .missingEvent
    else
      let newEvents := ctx.events.diff (.single e)
      match epollCtl (ctlOp newEvents) fd newEvents io.epoll with
      | none => .error .epollCtl
      | some epoll =>
        let ctx := { ctx.setContext e .reset with events := newEvents }
        .ok (true, ⟨io.fdContexts.set fd ctx, io.pendingEventCount - 1, epoll⟩)

/-- `cancelEvent(fd, event)`, whether it has done anything and the task scheduled. -/
def cancelEvent (io : Table Sch F C) (fd : ℕ) (e : Event) :
    Except Fault (Bool × Table Sch F C × List (Event × Sch × FiberOrCb F C)) :=
  match io.fdContexts[fd]? with
  | none => .ok (false, io, [])
  | some ctx =>
    if ctx.events.has e = false then .error .missingEvent
    else
      let newEvents := ctx.events.diff (.single e)
      match epollCtl (ctlOp newEvents) fd newEvents io.epoll with
      | none => .error .epollCtl
      | some epoll => do
        let r ← ctx.triggerEvent e
        .ok (true, ⟨io.fdContexts.set fd r.1, io.pendingEventCount - 1, epoll⟩, r.2)

/-- Trigger an event if its bit is set in `m`, and count it off. -/
def triggerIf (m : Mask) (e : Event)
    (s : FdContext Sch F C × ℕ × List (Event × Sch × FiberOrCb F C)) :
    Except Fault (FdContext Sch F C × ℕ × List (Event × Sch × FiberOrCb F C)) :=
  if m.has e then do
    let r ← s.1.triggerEvent e
    .ok (r.1, s.2.1 - 1, s.2.2 ++ r.2)
  else .ok s

/-- `cancelAll(fd)`, whether it has done anything and the tasks scheduled.  Whether to trigger
`WRITE` is decided after `READ` has been triggered. -/
def cancelAll (io : Table Sch F C) (fd : ℕ) :
    Except Fault (Bool × Table Sch F C × List (Event × Sch × FiberOrCb F C)) :=
  match io.fdContexts[fd]? with
  | none => .ok (false, io, [])
  | some ctx =>
    if ctx.events = .none then .ok (false, io, [])
    else
      match epollCtl .del fd .none io.epoll with
      | none => .error .epollCtl
      | some epoll => do
        let s ← triggerIf ctx.events .read (ctx, io.pendingEventCount, [])
        let s ← triggerIf s.1.events .write s
        .ok (true, ⟨io.fdContexts.set fd s.1, s.2.1, epoll⟩, s.2.2)

/-- `event.events` after `EPOLLERR` or `EPOLLHUP` (`err`) has added the events waited for. -/
def realEvents (armed ready : Mask) (err : Bool) : Mask := if err then ready.union armed else ready

/-- The dispatch in `idle` of what `epoll_wait` returned for a descriptor, and the tasks
scheduled. -/
def dispatch (io : Table Sch F C) (fd : ℕ) (ready : Mask) (err : Bool) :
    Except Fault (Table Sch F C × List (Event × Sch × FiberOrCb F C)) :=
  match io.fdContexts[fd]? with
  | none => .ok (io, [])
  | some ctx =>
    let real := realEvents ctx.events ready err
    if ctx.events.inter real = .none then .ok (io, [])
    else
      let left := ctx.events.diff real
      match epollCtl (ctlOp left) ctx.fd left io.epoll with
      | none => .error .epollCtl
      | some epoll => do
        let s ← triggerIf real .read (ctx, io.pendingEventCount, [])
        let s ← triggerIf real .write s
        .ok (⟨io.fdContexts.set fd s.1, s.2.1, epoll⟩, s.2.2)

end Table

end IOManager

end YXTWebCpp
