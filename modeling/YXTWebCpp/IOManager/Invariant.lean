import YXTWebCpp.IOManager.Basic
import YXTWebCpp.LTS.Basic

/-!
# The bookkeeping invariant of the event table

Counter, bit masks, interest list and event contexts of `Table` stay in step.

* `Table.Inv` : the invariant.
* `Table.arm`, `Table.disarm` : what the operations do to the table, said once: register one event,
  and drop a set of registered events.
* `addEvent_eq`, `delEvent_eq`, `cancelEvent_eq`, `cancelAll_eq`, `dispatch_eq` : under the
  invariant every operation is one of these two, and no assertion fails.
-/

namespace YXTWebCpp

namespace IOManager

/-! ### Masks -/

namespace Mask

theorem ext_has {m n : Mask} (h : ∀ e, m.has e = n.has e) : m = n := by
  obtain ⟨mr, mw⟩ := m
  obtain ⟨nr, nw⟩ := n
  have hr : mr = nr := h .read
  have hw : mw = nw := h .write
  rw [hr, hw]

@[simp] theorem has_none (e : Event) : none.has e = false := by cases e <;> rfl

@[simp] theorem has_union (m n : Mask) (e : Event) : (m.union n).has e = (m.has e || n.has e) := by
  cases e <;> rfl

@[simp] theorem has_inter (m n : Mask) (e : Event) : (m.inter n).has e = (m.has e && n.has e) := by
  cases e <;> rfl

@[simp] theorem has_diff (m n : Mask) (e : Event) : (m.diff n).has e = (m.has e && !n.has e) := by
  cases e <;> rfl

@[simp] theorem has_single (e e' : Event) : (single e).has e' = decide (e = e') := by
  cases e <;> cases e' <;> rfl

theorem single_subset {m : Mask} {e : Event} (h : m.has e = true) : Subset (single e) m := by
  intro e' he'
  rw [has_single, decide_eq_true_eq] at he'
  rwa [← he']

theorem ne_none_of_has {m : Mask} {e : Event} (h : m.has e = true) : m ≠ none := by
  rintro rfl
  simp at h

theorem card_diff {m n : Mask} (h : Subset n m) : (m.diff n).card + n.card = m.card := by
  obtain ⟨mr, mw⟩ := m
  obtain ⟨nr, nw⟩ := n
  have hr : nr = true → mr = true := h .read
  have hw : nw = true → mw = true := h .write
  cases mr <;> cases mw <;> cases nr <;> cases nw <;> simp_all [card, diff]

theorem card_union_single {m : Mask} {e : Event} (h : m.has e = false) :
    (m.union (single e)).card = m.card + 1 := by
  obtain ⟨mr, mw⟩ := m
  cases e <;> simp only [has] at h <;> subst h
  · cases mw <;> rfl
  · cases mr <;> rfl

end Mask

variable {Sch F C : Type*}

/-! ### One context -/

/-- A context that waits for its event: it has a scheduler, and exactly one of a callback and a
fiber. -/
def EventContext.Armed (c : EventContext Sch F C) : Prop :=
  c.scheduler.isSome = true ∧ (c.cb.isSome = true ↔ c.fiber = none)

namespace FdContext

/-- A context is armed for the events in its mask and empty for the others. -/
structure Ok (ctx : FdContext Sch F C) : Prop where
  armed : ∀ e, ctx.events.has e = true → (ctx.context e).Armed
  idle : ∀ e, ctx.events.has e = false → ctx.context e = .reset

/-- Register an event. -/
def arm (ctx : FdContext Sch F C) (e : Event) (sch : Sch) (t : FiberOrCb F C) : FdContext Sch F C :=
  { ctx with events := ctx.events.union (.single e) }.setContext e
    (match t with
      | .fiber f => ⟨some sch, some f, none⟩
      | .cb c => ⟨some sch, none, some c⟩)

/-- Drop the events in `m`. -/
def disarm (ctx : FdContext Sch F C) (m : Mask) : FdContext Sch F C where
  fd := ctx.fd
  read := if m.read then .reset else ctx.read
  write := if m.write then .reset else ctx.write
  events := ctx.events.diff m

/-- The task registered for an event. -/
def registered (ctx : FdContext Sch F C) (e : Event) : List (Event × Sch × FiberOrCb F C) :=
  (ctx.context e).scheduler.toList.flatMap fun sch =>
    (ctx.context e).task.toList.map fun t => (e, sch, t)

/-- The tasks registered for the events in `m`. -/
def tasks (ctx : FdContext Sch F C) (m : Mask) : List (Event × Sch × FiberOrCb F C) :=
  (if m.read then ctx.registered .read else []) ++ (if m.write then ctx.registered .write else [])

theorem ok_new (fd : ℕ) : (FdContext.new fd : FdContext Sch F C).Ok where
  armed e h := by simp [FdContext.new] at h
  idle e _ := by cases e <;> rfl

@[simp] theorem disarm_events (ctx : FdContext Sch F C) (m : Mask) :
    (ctx.disarm m).events = ctx.events.diff m :=
  rfl

theorem disarm_context (ctx : FdContext Sch F C) (m : Mask) (e : Event) :
    (ctx.disarm m).context e = if m.has e then .reset else ctx.context e := by
  cases e <;> rfl

theorem Ok.disarm {ctx : FdContext Sch F C} (h : ctx.Ok) (m : Mask) : (ctx.disarm m).Ok where
  armed e he := by
    simp only [disarm_events, Mask.has_diff, Bool.and_eq_true, Bool.not_eq_true'] at he
    rw [disarm_context, he.2, if_neg (by simp)]
    exact h.armed e he.1
  idle e he := by
    rw [disarm_context]
    by_cases hm : m.has e = true
    · rw [if_pos hm]
    · rw [if_neg hm]
      refine h.idle e ?_
      simpa [hm] using he

@[simp] theorem arm_events (ctx : FdContext Sch F C) (e : Event) (sch : Sch)
    (t : FiberOrCb F C) : (ctx.arm e sch t).events = ctx.events.union (.single e) := by
  cases e <;> rfl

@[simp] theorem arm_fd (ctx : FdContext Sch F C) (e : Event) (sch : Sch) (t : FiberOrCb F C) :
    (ctx.arm e sch t).fd = ctx.fd := by
  cases e <;> rfl

theorem arm_context_self (ctx : FdContext Sch F C) (e : Event) (sch : Sch) (t : FiberOrCb F C) :
    (ctx.arm e sch t).context e =
      match t with
      | .fiber f => ⟨some sch, some f, none⟩
      | .cb c => ⟨some sch, none, some c⟩ := by
  cases e <;> rfl

theorem arm_context_of_ne (ctx : FdContext Sch F C) {e e' : Event} (h : e' ≠ e) (sch : Sch)
    (t : FiberOrCb F C) : (ctx.arm e sch t).context e' = ctx.context e' := by
  cases e <;> cases e' <;> first | exact absurd rfl h | rfl

theorem Ok.arm {ctx : FdContext Sch F C} (h : ctx.Ok) (e : Event) (sch : Sch)
    (t : FiberOrCb F C) : (ctx.arm e sch t).Ok where
  armed e' he' := by
    by_cases hee : e' = e
    · subst hee
      rw [arm_context_self]
      cases t <;> simp [EventContext.Armed]
    · rw [arm_context_of_ne ctx hee]
      refine h.armed e' ?_
      simpa [Ne.symm hee] using he'
  idle e' he' := by
    rw [arm_events, Mask.has_union, Mask.has_single, Bool.or_eq_false_iff,
      decide_eq_false_iff_not] at he'
    rw [arm_context_of_ne ctx (Ne.symm he'.2)]
    exact h.idle e' he'.1

/-- The registered task of an armed event. -/
theorem Ok.exists_registered {ctx : FdContext Sch F C} (h : ctx.Ok) {e : Event}
    (he : ctx.events.has e = true) :
    ∃ sch t, (ctx.context e).scheduler = some sch ∧ (ctx.context e).task = some t ∧
      ctx.registered e = [(e, sch, t)] := by
  obtain ⟨hs, hone⟩ := h.armed e he
  obtain ⟨sch, hsch⟩ := Option.isSome_iff_exists.1 hs
  obtain ⟨t, ht⟩ : ∃ t, (ctx.context e).task = some t := by
    unfold EventContext.task
    cases hcb : (ctx.context e).cb with
    | some c => exact ⟨_, rfl⟩
    | none =>
      obtain ⟨f, hf⟩ := Option.ne_none_iff_exists'.1 fun hf => by simpa [hcb] using hone.2 hf
      exact ⟨.fiber f, by simp [hf]⟩
  exact ⟨sch, t, hsch, ht, by simp [registered, hsch, ht]⟩

theorem registered_arm_of_ne (ctx : FdContext Sch F C) {e e' : Event} (h : e' ≠ e) (sch : Sch)
    (t : FiberOrCb F C) : (ctx.arm e sch t).registered e' = ctx.registered e' := by
  unfold registered
  rw [arm_context_of_ne ctx h]

theorem registered_disarm (ctx : FdContext Sch F C) {m : Mask} {e : Event} (h : m.has e = false) :
    (ctx.disarm m).registered e = ctx.registered e := by
  unfold registered
  rw [disarm_context, h, if_neg (by simp)]

theorem registered_arm_self (ctx : FdContext Sch F C) (e : Event) (sch : Sch)
    (t : FiberOrCb F C) : (ctx.arm e sch t).registered e = [(e, sch, t)] := by
  unfold registered
  rw [arm_context_self]
  cases t <;> simp [EventContext.task]

/-- `triggerEvent` drops the event and schedules what was registered for it. -/
theorem Ok.triggerEvent_eq {ctx : FdContext Sch F C} (h : ctx.Ok) {e : Event}
    (he : ctx.events.has e = true) :
    ctx.triggerEvent e = .ok (ctx.disarm (.single e), ctx.registered e) := by
  obtain ⟨sch, t, hsch, ht, hreg⟩ := h.exists_registered he
  unfold triggerEvent
  rw [if_neg (by simp [he]), hsch, hreg]
  simp only [ht]
  cases e <;> rfl

end FdContext

/-! ### The table -/

namespace Table

/-- The events registered for a descriptor. -/
def events (io : Table Sch F C) (fd : ℕ) : Mask :=
  match io.fdContexts[fd]? with
  | some ctx => ctx.events
  | none => .none

/-- What the interest list should hold for a set of events. -/
def interest (m : Mask) : Option Mask := if m = .none then none else some m

/-- **The bookkeeping invariant.** -/
structure Inv (io : Table Sch F C) : Prop where
  size : 32 ≤ io.fdContexts.length
  fd : ∀ (i : ℕ) (ctx : FdContext Sch F C), io.fdContexts[i]? = some ctx → ctx.fd = i
  ok : ∀ (i : ℕ) (ctx : FdContext Sch F C), io.fdContexts[i]? = some ctx → ctx.Ok
  pending : io.pendingEventCount = (io.fdContexts.map fun ctx => ctx.events.card).sum
  epoll : ∀ fd, io.epoll fd = interest (io.events fd)

theorem events_of_getElem? {io : Table Sch F C} {fd : ℕ} {ctx : FdContext Sch F C}
    (h : io.fdContexts[fd]? = some ctx) : io.events fd = ctx.events := by
  simp [events, h]

/-- Put a context in the place of another, with the counter and the interest list adjusted. -/
def put (io : Table Sch F C) (fd : ℕ) (ctx : FdContext Sch F C) (pending : ℕ) : Table Sch F C :=
  ⟨io.fdContexts.set fd ctx, pending, Function.update io.epoll fd (interest ctx.events)⟩

section

variable {io : Table Sch F C} {fd : ℕ} {ctx : FdContext Sch F C}

theorem lt_length_of_getElem? (h : io.fdContexts[fd]? = some ctx) : fd < io.fdContexts.length :=
  (List.getElem?_eq_some_iff.1 h).1

theorem put_getElem?_self (h : io.fdContexts[fd]? = some ctx) (ctx' : FdContext Sch F C) (n : ℕ) :
    (io.put fd ctx' n).fdContexts[fd]? = some ctx' :=
  List.getElem?_set_self (lt_length_of_getElem? h)

theorem put_getElem?_of_ne {i : ℕ} (hi : i ≠ fd) (ctx' : FdContext Sch F C) (n : ℕ) :
    (io.put fd ctx' n).fdContexts[i]? = io.fdContexts[i]? :=
  List.getElem?_set_ne (Ne.symm hi)

theorem put_events (h : io.fdContexts[fd]? = some ctx) (ctx' : FdContext Sch F C) (n i : ℕ) :
    (io.put fd ctx' n).events i = if i = fd then ctx'.events else io.events i := by
  by_cases hi : i = fd
  · subst hi
    rw [if_pos rfl, events_of_getElem? (put_getElem?_self h ctx' n)]
  · rw [if_neg hi]
    unfold events
    rw [put_getElem?_of_ne hi]

theorem sum_map_set (f : FdContext Sch F C → ℕ) {l : List (FdContext Sch F C)} {i : ℕ}
    {a : FdContext Sch F C} (h : l[i]? = some a) (x : FdContext Sch F C) :
    ((l.set i x).map f).sum + f a = (l.map f).sum + f x := by
  induction l generalizing i with
  | nil => simp at h
  | cons b l ih =>
    cases i with
    | zero =>
      obtain rfl : b = a := by simpa using h
      simp only [List.set_cons_zero, List.map_cons, List.sum_cons]
      omega
    | succ i =>
      have := ih (i := i) (by simpa using h)
      simp only [List.set_cons_succ, List.map_cons, List.sum_cons]
      omega

/-- Putting a well-formed context in its place keeps the invariant. -/
theorem Inv.put (hi : io.Inv) (h : io.fdContexts[fd]? = some ctx) {ctx' : FdContext Sch F C}
    {n : ℕ} (hfd : ctx'.fd = ctx.fd) (hok : ctx'.Ok)
    (hn : n + ctx.events.card = io.pendingEventCount + ctx'.events.card) :
    (io.put fd ctx' n).Inv where
  size := by
    simp only [Table.put, List.length_set]
    exact hi.size
  fd i c hc := by
    by_cases hif : i = fd
    · subst hif
      rw [put_getElem?_self h] at hc
      obtain rfl := Option.some.inj hc
      rw [hfd, hi.fd i ctx h]
    · rw [put_getElem?_of_ne hif] at hc
      exact hi.fd i c hc
  ok i c hc := by
    by_cases hif : i = fd
    · subst hif
      rw [put_getElem?_self h] at hc
      obtain rfl := Option.some.inj hc
      exact hok
    · rw [put_getElem?_of_ne hif] at hc
      exact hi.ok i c hc
  pending := by
    have := sum_map_set (fun ctx => ctx.events.card) h ctx'
    have hp := hi.pending
    simp only [Table.put]
    omega
  epoll i := by
    rw [put_events h]
    by_cases hif : i = fd
    · subst hif
      simp [Table.put]
    · simp [Table.put, hif, hi.epoll i]

/-- Removing or changing a descriptor that has events is valid. -/
theorem Inv.epollCtl_ctlOp (hi : io.Inv) (h : io.fdContexts[fd]? = some ctx)
    (hne : ctx.events ≠ .none) (m : Mask) :
    epollCtl (ctlOp m) fd m io.epoll = some (Function.update io.epoll fd (interest m)) := by
  have he : io.epoll fd = some ctx.events := by
    rw [hi.epoll, events_of_getElem? h, interest, if_neg hne]
  unfold epollCtl ctlOp interest
  rw [he]
  by_cases hm : m = .none
  · simp [hm]
  · simp [hm]

/-- Adding a descriptor without events, and changing one with events, is valid. -/
theorem Inv.epollCtl_add (hi : io.Inv) (he : io.events fd = ctx.events) {m : Mask}
    (hm : m ≠ .none) :
    epollCtl (if ctx.events = .none then .add else .mod) fd m io.epoll =
      some (Function.update io.epoll fd (interest m)) := by
  have hep := hi.epoll fd
  rw [he] at hep
  unfold epollCtl interest at *
  rw [hep]
  by_cases hc : ctx.events = .none
  · simp [hc, hm]
  · simp [hc, hm]

theorem triggerIf_eq (hok : ctx.Ok) {m : Mask} {e : Event}
    (hm : m.has e = true → ctx.events.has e = true) (n : ℕ)
    (out : List (Event × Sch × FiberOrCb F C)) :
    triggerIf m e (ctx, n, out) =
      .ok (if m.has e then ctx.disarm (.single e) else ctx, n - (m.has e).toNat,
        out ++ if m.has e then ctx.registered e else []) := by
  unfold triggerIf
  by_cases he : m.has e = true
  · simp only [he, ↓reduceIte, hok.triggerEvent_eq (hm he)]
    rfl
  · simp [he]

/-- Triggering a set of registered events drops them and schedules what was registered. -/
theorem triggerBoth_eq (hok : ctx.Ok) {m : Mask} (hm : m.Subset ctx.events) (n : ℕ) :
    (triggerIf m .read (ctx, n, []) >>= triggerIf m .write) =
      .ok (ctx.disarm m, n - m.card, ctx.tasks m) := by
  rw [triggerIf_eq hok (hm .read)]
  have hok' : (if m.has .read then ctx.disarm (.single .read) else ctx).Ok := by
    split_ifs
    · exact hok.disarm _
    · exact hok
  have hm' : m.has .write = true →
      (if m.has .read then ctx.disarm (.single .read) else ctx).events.has .write = true := by
    intro hw
    split_ifs
    · simp [hm .write hw]
    · exact hm .write hw
  change triggerIf m .write _ = _
  rw [triggerIf_eq hok' hm']
  obtain ⟨mr, mw⟩ := m
  cases mr <;> cases mw <;> simp [Mask.has, FdContext.tasks, FdContext.disarm, Mask.diff,
    Mask.single, Mask.card, FdContext.registered, FdContext.context]
  omega

/-- The table without the events in `m` of a descriptor. -/
def disarm (io : Table Sch F C) (fd : ℕ) (ctx : FdContext Sch F C) (m : Mask) : Table Sch F C :=
  io.put fd (ctx.disarm m) (io.pendingEventCount - m.card)

theorem card_le_pending (hi : io.Inv) (h : io.fdContexts[fd]? = some ctx) :
    ctx.events.card ≤ io.pendingEventCount := by
  have := sum_map_set (fun ctx => ctx.events.card) h (.new fd)
  have h0 : (FdContext.new fd : FdContext Sch F C).events.card = 0 := rfl
  have hp := hi.pending
  omega

theorem Inv.disarm (hi : io.Inv) (h : io.fdContexts[fd]? = some ctx) {m : Mask}
    (hm : m.Subset ctx.events) : (io.disarm fd ctx m).Inv := by
  have hle := card_le_pending hi h
  have hcard := Mask.card_diff hm
  refine hi.put h rfl ((hi.ok fd ctx h).disarm m) ?_
  rw [FdContext.disarm_events]
  omega

theorem disarm_events (h : io.fdContexts[fd]? = some ctx) (m : Mask) (i : ℕ) :
    (io.disarm fd ctx m).events i = if i = fd then ctx.events.diff m else io.events i := by
  rw [disarm, put_events h, FdContext.disarm_events]

/-- `delEvent` drops the event. -/
theorem Inv.delEvent_eq (hi : io.Inv) (h : io.fdContexts[fd]? = some ctx) {e : Event}
    (he : ctx.events.has e = true) :
    io.delEvent fd e = .ok (true, io.disarm fd ctx (.single e)) := by
  unfold delEvent
  rw [h]
  simp only [he, Bool.true_eq_false, ↓reduceIte,
    hi.epollCtl_ctlOp h (Mask.ne_none_of_has he) (ctx.events.diff (.single e))]
  cases e <;> rfl

/-- `cancelEvent` drops the event and schedules what was registered for it. -/
theorem Inv.cancelEvent_eq (hi : io.Inv) (h : io.fdContexts[fd]? = some ctx) {e : Event}
    (he : ctx.events.has e = true) :
    io.cancelEvent fd e = .ok (true, io.disarm fd ctx (.single e), ctx.tasks (.single e)) := by
  unfold cancelEvent
  rw [h]
  simp only [he, Bool.true_eq_false, ↓reduceIte,
    hi.epollCtl_ctlOp h (Mask.ne_none_of_has he) (ctx.events.diff (.single e)),
    (hi.ok fd ctx h).triggerEvent_eq he]
  cases e
  · simp only [FdContext.tasks, Mask.single, ↓reduceIte, Bool.false_eq_true, List.append_nil]
    rfl
  · simp only [FdContext.tasks, Mask.single, ↓reduceIte, Bool.false_eq_true, List.nil_append]
    rfl

theorem triggerIf_congr {m m' : Mask} {e : Event} (h : m.has e = m'.has e)
    (s : FdContext Sch F C × ℕ × List (Event × Sch × FiberOrCb F C)) :
    triggerIf m e s = triggerIf m' e s := by
  unfold triggerIf
  rw [h]

/-- `cancelAll` drops all events and schedules what was registered for them. -/
theorem Inv.cancelAll_eq (hi : io.Inv) (h : io.fdContexts[fd]? = some ctx)
    (hne : ctx.events ≠ .none) :
    io.cancelAll fd = .ok (true, io.disarm fd ctx ctx.events, ctx.tasks ctx.events) := by
  have hsub : ctx.events.Subset ctx.events := fun _ h => h
  have hboth := triggerBoth_eq (hi.ok fd ctx h) hsub io.pendingEventCount
  have hctl : epollCtl .del fd .none io.epoll =
      some (Function.update io.epoll fd (interest .none)) := hi.epollCtl_ctlOp h hne .none
  have hdiff : ctx.events.diff ctx.events = .none := Mask.ext_has fun e => by simp
  -- the bit of `WRITE` is not touched when `READ` is triggered
  have hread := triggerIf_eq (hi.ok fd ctx h) (hsub .read) io.pendingEventCount []
  rw [hread] at hboth
  unfold cancelAll
  rw [h]
  simp only [hne, ↓reduceIte, hctl, hread]
  have hbit : (if ctx.events.has .read then ctx.disarm (.single .read) else ctx).events.has .write =
      ctx.events.has .write := by
    split_ifs
    · simp
    · rfl
  change (triggerIf _ .write _ >>= fun s => _) = _
  rw [triggerIf_congr hbit]
  change triggerIf ctx.events .write _ = _ at hboth
  rw [hboth]
  change Except.ok _ = Except.ok _
  simp only [Table.disarm, Table.put, FdContext.disarm_events, hdiff]

/-- The dispatch of events that are all registered drops them and schedules what was registered. -/
theorem Inv.dispatch_eq (hi : io.Inv) (h : io.fdContexts[fd]? = some ctx) {ready : Mask}
    {err : Bool} (hsub : (realEvents ctx.events ready err).Subset ctx.events)
    (hne : realEvents ctx.events ready err ≠ .none) :
    io.dispatch fd ready err =
      .ok (io.disarm fd ctx (realEvents ctx.events ready err),
        ctx.tasks (realEvents ctx.events ready err)) := by
  unfold dispatch
  rw [h]
  simp only
  generalize realEvents ctx.events ready err = real at hsub hne
  have hinter : ctx.events.inter real = real := Mask.ext_has fun e => by
    cases he : real.has e
    · simp [he]
    · simp [he, hsub e he]
  have hev : ctx.events ≠ .none := by
    rintro hnone
    refine hne (Mask.ext_has fun e => ?_)
    by_contra hc
    have := hsub e (by simpa using hc)
    rw [hnone] at this
    simp at this
  rw [hinter, if_neg hne, hi.fd fd ctx h, hi.epollCtl_ctlOp h hev]
  have hboth := triggerBoth_eq (hi.ok fd ctx h) hsub io.pendingEventCount
  simp only
  rw [← bind_assoc, hboth]
  rfl

/-- A dispatch that finds none of its events registered does nothing. -/
theorem dispatch_of_inter_eq_none (h : io.fdContexts[fd]? = some ctx) {ready : Mask} {err : Bool}
    (hnone : ctx.events.inter (realEvents ctx.events ready err) = .none) :
    io.dispatch fd ready err = .ok (io, []) := by
  unfold dispatch
  rw [h]
  simp only [hnone, ↓reduceIte]

/-! ### Registering -/

/-- The table with a context for the descriptor. -/
def grow (io : Table Sch F C) (fd : ℕ) : Table Sch F C :=
  if fd < io.fdContexts.length then io
  else { io with fdContexts := contextResize (fd * 3 / 2) io.fdContexts }

theorem contextResize_getElem? {ctxs : List (FdContext Sch F C)} {size : ℕ}
    (hle : ctxs.length ≤ size) (i : ℕ) :
    (contextResize size ctxs)[i]? =
      if i < ctxs.length then ctxs[i]? else if i < size then some (.new i) else none := by
  unfold contextResize
  rw [List.take_of_length_le hle]
  by_cases hi : i < ctxs.length
  · rw [List.getElem?_append_left hi, if_pos hi]
  · rw [List.getElem?_append_right (by omega), List.getElem?_map, if_neg hi]
    by_cases his : i < size
    · rw [List.getElem?_range' (by omega), if_pos his]
      simp only [Option.map_some]
      congr 2
      omega
    · rw [List.getElem?_eq_none (by rw [List.length_range']; omega), if_neg his]
      rfl

/-- New contexts have no events. -/
theorem sum_card_contextResize {ctxs : List (FdContext Sch F C)} {size : ℕ}
    (hle : ctxs.length ≤ size) :
    ((contextResize size ctxs).map fun ctx => ctx.events.card).sum =
      (ctxs.map fun ctx => ctx.events.card).sum := by
  have hzero : ∀ k n, (((List.range' k n).map
      (FdContext.new : ℕ → FdContext Sch F C)).map fun ctx => ctx.events.card).sum = 0 := by
    intro k n
    induction n generalizing k with
    | zero => rfl
    | succ n ih =>
      rw [List.range'_succ, List.map_cons, List.map_cons, List.sum_cons, ih]
      rfl
  rw [contextResize, List.take_of_length_le hle, List.map_append, List.sum_append, hzero,
    Nat.add_zero]

theorem grow_events (hi : io.Inv) (fd i : ℕ) : (io.grow fd).events i = io.events i := by
  unfold grow
  split_ifs with hfd
  · rfl
  · have hsize := hi.size
    unfold events
    simp only
    rw [contextResize_getElem? (by omega)]
    by_cases hil : i < io.fdContexts.length
    · rw [if_pos hil]
    · rw [if_neg hil, List.getElem?_eq_none (by omega)]
      by_cases his : i < fd * 3 / 2
      · simp [his, FdContext.new]
      · simp [his]

theorem Inv.grow (hi : io.Inv) (fd : ℕ) : (io.grow fd).Inv := by
  have hev := grow_events hi fd
  unfold Table.grow at *
  split_ifs at * with hfd
  · exact hi
  · have hsize := hi.size
    have hlen : io.fdContexts.length ≤ fd * 3 / 2 := by omega
    refine ⟨?_, fun i ctx h => ?_, fun i ctx h => ?_, ?_, fun i => ?_⟩
    · simp only [contextResize, List.length_append, List.length_take, List.length_map,
        List.length_range']
      omega
    · simp only at h
      rw [contextResize_getElem? hlen] at h
      split_ifs at h
      · exact hi.fd i ctx h
      · rw [← Option.some.inj h]
        rfl
    · simp only at h
      rw [contextResize_getElem? hlen] at h
      split_ifs at h
      · exact hi.ok i ctx h
      · rw [← Option.some.inj h]
        exact FdContext.ok_new i
    · simp only
      rw [sum_card_contextResize hlen]
      exact hi.pending
    · rw [hev]
      exact hi.epoll i

theorem grow_getElem? (hi : io.Inv) (fd : ℕ) {i : ℕ} (hlt : i < io.fdContexts.length) :
    (io.grow fd).fdContexts[i]? = io.fdContexts[i]? := by
  unfold grow
  split_ifs with hfd
  · rfl
  · have hsize := hi.size
    simp only
    rw [contextResize_getElem? (by omega), if_pos hlt]

theorem Inv.exists_context (hi : io.Inv) (fd : ℕ) :
    ∃ ctx, (io.grow fd).fdContexts[fd]? = some ctx := by
  unfold Table.grow
  split_ifs with hfd
  · exact ⟨io.fdContexts[fd], List.getElem?_eq_getElem hfd⟩
  · have hsize := hi.size
    refine ⟨.new fd, ?_⟩
    rw [contextResize_getElem? (by omega), if_neg hfd, if_pos (by omega)]

/-- What `addEvent` registers: the callback if there is one, else the current fiber. -/
def target (cur : F) (cb : Option C) : FiberOrCb F C :=
  match cb with
  | some c => .cb c
  | none => .fiber cur

/-- The table with an event registered. -/
def arm (io : Table Sch F C) (fd : ℕ) (ctx : FdContext Sch F C) (e : Event) (sch : Sch)
    (t : FiberOrCb F C) : Table Sch F C :=
  (io.grow fd).put fd (ctx.arm e sch t) (io.pendingEventCount + 1)

theorem grow_pending (io : Table Sch F C) (fd : ℕ) :
    (io.grow fd).pendingEventCount = io.pendingEventCount := by
  unfold grow
  split_ifs <;> rfl

theorem Inv.arm (hi : io.Inv) (h : (io.grow fd).fdContexts[fd]? = some ctx) {e : Event}
    (he : ctx.events.has e = false) (sch : Sch) (t : FiberOrCb F C) :
    (io.arm fd ctx e sch t).Inv := by
  refine (hi.grow fd).put h (ctx.arm_fd e sch t) (((hi.grow fd).ok fd ctx h).arm e sch t) ?_
  rw [FdContext.arm_events, Mask.card_union_single he, grow_pending]
  omega

theorem arm_events (hi : io.Inv) (h : (io.grow fd).fdContexts[fd]? = some ctx) (e : Event)
    (sch : Sch) (t : FiberOrCb F C) (i : ℕ) :
    (io.arm fd ctx e sch t).events i =
      if i = fd then ctx.events.union (.single e) else io.events i := by
  rw [Table.arm, put_events h, FdContext.arm_events, grow_events hi]

/-- `addEvent` registers the event. -/
theorem Inv.addEvent_eq (hi : io.Inv) (h : (io.grow fd).fdContexts[fd]? = some ctx) {e : Event}
    (he : ctx.events.has e = false) (sch : Sch) (cur : F) (cb : Option C) :
    io.addEvent fd e sch cur cb = .ok (io.arm fd ctx e sch (target cur cb)) := by
  have hctxs : (if fd < io.fdContexts.length then io.fdContexts
      else contextResize (fd * 3 / 2) io.fdContexts) = (io.grow fd).fdContexts := by
    unfold Table.grow
    split_ifs <;> rfl
  have hepoll : io.epoll = (io.grow fd).epoll := by
    unfold Table.grow
    split_ifs <;> rfl
  have hm : ctx.events.union (.single e) ≠ .none :=
    Mask.ne_none_of_has (e := e) (by simp)
  have hctl := (hi.grow fd).epollCtl_add (events_of_getElem? h) hm
  have hidle := ((hi.grow fd).ok fd ctx h).idle e he
  unfold addEvent
  simp only [hctxs, h, he, Bool.false_eq_true, ↓reduceIte, hepoll, hctl, hidle]
  cases cb with
  | none => cases e <;> rfl
  | some c => cases e <;> rfl

theorem new_getElem? (i : ℕ) : (Table.new : Table Sch F C).fdContexts[i]? =
    if i < 32 then some (.new i) else none := by
  simp only [Table.new]
  rw [contextResize_getElem? (by simp)]
  simp

theorem new_events (fd : ℕ) : (Table.new : Table Sch F C).events fd = .none := by
  unfold events
  rw [new_getElem?]
  split_ifs <;> rfl

theorem inv_new : (Table.new : Table Sch F C).Inv := by
  refine ⟨by simp [Table.new, contextResize], fun i ctx h => ?_, fun i ctx h => ?_, ?_,
    fun i => ?_⟩
  · rw [new_getElem?] at h
    split_ifs at h
    rw [← Option.some.inj h]
    rfl
  · rw [new_getElem?] at h
    split_ifs at h
    rw [← Option.some.inj h]
    exact FdContext.ok_new i
  · have hle : ([] : List (FdContext Sch F C)).length ≤ 32 := Nat.zero_le 32
    exact (sum_card_contextResize hle).symm
  · rw [new_events]
    rfl

end

end Table

end IOManager

end YXTWebCpp
