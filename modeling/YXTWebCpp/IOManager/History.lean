import YXTWebCpp.IOManager.Invariant

/-!
# What becomes of a registered event

The operations of the event table as one transition system, each of them a single step, with a
record of every registration.

* `Act`, `Act.Pre` : the operations, and what their assertions and the kernel promise.
* `History` : the table, the registration behind every bit that is set, how each registration has
  ended, and what the schedulers were given.
* `reachable_bookkeeping` : **the invariant over all runs.**  Every registered event is handed to
  its scheduler exactly once if it is triggered or cancelled, never if it is deleted.
-/

namespace YXTWebCpp

namespace IOManager

variable {Sch F C : Type*}

/-- The operations on the event table. -/
inductive Act (Sch F C : Type*) where
  | addEvent (fd : ℕ) (e : Event) (sch : Sch) (cur : F) (cb : Option C)
  | delEvent (fd : ℕ) (e : Event)
  | cancelEvent (fd : ℕ) (e : Event)
  | cancelAll (fd : ℕ)
  | dispatch (fd : ℕ) (ready : Mask) (err : Bool)

namespace Act

/-- The descriptor of an operation. -/
def fd : Act Sch F C → ℕ
  | .addEvent fd _ _ _ _ | .delEvent fd _ | .cancelEvent fd _ | .cancelAll fd
  | .dispatch fd _ _ => fd

/-- The assertions on the arguments; what `epoll_wait` returns for a descriptor is among the events
registered. -/
def Pre (io : Table Sch F C) : Act Sch F C → Prop
  | .addEvent fd e _ _ _ => (io.events fd).has e = false
  | .delEvent fd e | .cancelEvent fd e =>
    io.fdContexts.length ≤ fd ∨ (io.events fd).has e = true
  | .cancelAll _ => True
  | .dispatch fd ready _ => ready.Subset (io.events fd)

instance (io : Table Sch F C) : (a : Act Sch F C) → Decidable (a.Pre io)
  | .addEvent fd e _ _ _ => inferInstanceAs (Decidable ((io.events fd).has e = false))
  | .delEvent fd e | .cancelEvent fd e =>
    inferInstanceAs (Decidable (io.fdContexts.length ≤ fd ∨ (io.events fd).has e = true))
  | .cancelAll _ => inferInstanceAs (Decidable True)
  | .dispatch fd ready _ => inferInstanceAs (Decidable (ready.Subset (io.events fd)))

/-- Run an operation: the table afterwards and the tasks scheduled. -/
def apply (io : Table Sch F C) :
    Act Sch F C → Except Fault (Table Sch F C × List (Event × Sch × FiberOrCb F C))
  | .addEvent fd e sch cur cb => (io.addEvent fd e sch cur cb).map fun io => (io, [])
  | .delEvent fd e => (io.delEvent fd e).map fun r => (r.2, [])
  | .cancelEvent fd e => (io.cancelEvent fd e).map fun r => r.2
  | .cancelAll fd => (io.cancelAll fd).map fun r => r.2
  | .dispatch fd ready err => io.dispatch fd ready err

end Act

/-- How a registration ends. -/
inductive Fate where
  | triggered | cancelled | deleted
  deriving DecidableEq, Repr

/-- How an operation ends the registrations it drops. -/
def Act.fate : Act Sch F C → Fate
  | .delEvent _ _ => .deleted
  | .cancelEvent _ _ | .cancelAll _ => .cancelled
  | .addEvent _ _ _ _ _ | .dispatch _ _ _ => .triggered

/-- The operation registers an event. -/
def Act.isAdd : Act Sch F C → Bool
  | .addEvent _ _ _ _ _ => true
  | _ => false

/-- The operation may concern an event of its descriptor. -/
def Act.touches (e : Event) : Act Sch F C → Bool
  | .addEvent _ e' _ _ _ | .delEvent _ e' | .cancelEvent _ e' => decide (e' = e)
  | .cancelAll _ => true
  | .dispatch _ ready err => ready.has e || err

/-- Beyond the table there is no context, and a registered event has one. -/
theorem context_of_pre {io : Table Sch F C} {fd : ℕ} {e : Event}
    (h : io.fdContexts.length ≤ fd ∨ (io.events fd).has e = true) :
    io.fdContexts[fd]? = none ∨
      ∃ ctx, io.fdContexts[fd]? = some ctx ∧ ctx.events.has e = true := by
  cases hctx : io.fdContexts[fd]? with
  | none => exact .inl rfl
  | some ctx =>
    rw [Table.events_of_getElem? hctx] at h
    exact .inr ⟨ctx, rfl, h.resolve_left (not_le.2 (List.getElem?_eq_some_iff.1 hctx).1)⟩

/-- Under the invariant and within its precondition, no operation fails an assertion: it registers
an event, or drops registered ones and schedules their tasks unless it deletes, or does nothing. -/
theorem Act.apply_cases {io : Table Sch F C} (hi : io.Inv) {a : Act Sch F C} (hp : a.Pre io) :
    (∃ fd e sch cur cb ctx, a = .addEvent fd e sch cur cb ∧
      (io.grow fd).fdContexts[fd]? = some ctx ∧ ctx.events.has e = false ∧
      a.apply io = .ok (io.arm fd ctx e sch (Table.target cur cb), [])) ∨
    (∃ ctx m, a.isAdd = false ∧ io.fdContexts[a.fd]? = some ctx ∧ m.Subset ctx.events ∧
      (∀ e, m.has e = true → a.touches e = true) ∧
      a.apply io = .ok (io.disarm a.fd ctx m, if a.fate = .deleted then [] else ctx.tasks m)) ∨
    (a.isAdd = false ∧ a.apply io = .ok (io, [])) := by
  cases a with
  | addEvent fd e sch cur cb =>
    obtain ⟨ctx, h⟩ := hi.exists_context fd
    have he : ctx.events.has e = false := by
      have hp' : (io.events fd).has e = false := hp
      rwa [← Table.grow_events hi fd, Table.events_of_getElem? h] at hp'
    refine .inl ⟨fd, e, sch, cur, cb, ctx, rfl, h, he, ?_⟩
    simp only [Act.apply, hi.addEvent_eq h he]
    rfl
  | delEvent fd e =>
    obtain h | ⟨ctx, h, hhas⟩ := context_of_pre hp
    · refine .inr (.inr ⟨rfl, ?_⟩)
      simp only [Act.apply, Table.delEvent, h]
      rfl
    · refine .inr (.inl ⟨ctx, .single e, rfl, h, Mask.single_subset hhas,
        fun e' he' => by simpa [Act.touches] using he', ?_⟩)
      simp only [Act.apply, hi.delEvent_eq h hhas]
      rfl
  | cancelEvent fd e =>
    obtain h | ⟨ctx, h, hhas⟩ := context_of_pre hp
    · refine .inr (.inr ⟨rfl, ?_⟩)
      simp only [Act.apply, Table.cancelEvent, h]
      rfl
    · refine .inr (.inl ⟨ctx, .single e, rfl, h, Mask.single_subset hhas,
        fun e' he' => by simpa [Act.touches] using he', ?_⟩)
      simp only [Act.apply, hi.cancelEvent_eq h hhas]
      rfl
  | cancelAll fd =>
    cases h : io.fdContexts[fd]? with
    | none =>
      refine .inr (.inr ⟨rfl, ?_⟩)
      simp only [Act.apply, Table.cancelAll, h]
      rfl
    | some ctx =>
      by_cases hne : ctx.events = .none
      · refine .inr (.inr ⟨rfl, ?_⟩)
        simp only [Act.apply, Table.cancelAll, h, hne, ↓reduceIte]
        rfl
      · refine .inr (.inl ⟨ctx, ctx.events, rfl, h, fun _ h => h, fun _ _ => rfl, ?_⟩)
        simp only [Act.apply, hi.cancelAll_eq h hne]
        rfl
  | dispatch fd ready err =>
    cases h : io.fdContexts[fd]? with
    | none =>
      refine .inr (.inr ⟨rfl, ?_⟩)
      simp only [Act.apply, Table.dispatch, h]
    | some ctx =>
      have hready : ready.Subset ctx.events := by
        have hp' : ready.Subset (io.events fd) := hp
        rwa [Table.events_of_getElem? h] at hp'
      -- widening by an error keeps within the events registered
      have hsub : (Table.realEvents ctx.events ready err).Subset ctx.events := by
        intro e he
        unfold Table.realEvents at he
        cases err with
        | false => exact hready e (by simpa using he)
        | true =>
          simp only [↓reduceIte, Mask.has_union, Bool.or_eq_true] at he
          exact he.elim (hready e) id
      by_cases hne : Table.realEvents ctx.events ready err = .none
      · refine .inr (.inr ⟨rfl, Table.dispatch_of_inter_eq_none h ?_⟩)
        rw [hne]
        exact Mask.ext_has fun e => by simp
      · refine .inr (.inl ⟨ctx, _, rfl, h, hsub, fun e he => ?_, hi.dispatch_eq h hsub hne⟩)
        cases err with
        | false => simpa [Table.realEvents, Act.touches] using he
        | true => simp [Act.touches]

/-! ### Registrations -/

/-- The table with a record of its registrations, which are numbered in the order of `addEvent`. -/
structure History (Sch F C : Type*) where
  /-- The table. -/
  io : Table Sch F C
  /-- The registration behind an event that is registered now. -/
  reg : ℕ → Event → Option ℕ
  /-- What each registration asked for. -/
  added : List (Sch × FiberOrCb F C)
  /-- The registrations that have ended, and how. -/
  closed : List (ℕ × Fate)
  /-- What schedulers were given, each task with the registration it was given for. -/
  handed : List (Option ℕ × Sch × FiberOrCb F C)

namespace History

/-- Nothing registered yet. -/
def new : History Sch F C := ⟨.new, fun _ _ => none, [], [], []⟩

/-- The event was registered before an operation and is not any more. -/
def gone (io io' : Table Sch F C) (fd : ℕ) (e : Event) : Bool :=
  (io.events fd).has e && !(io'.events fd).has e

/-- Record an operation that dropped events of a descriptor. -/
def close (h : History Sch F C) (fd : ℕ) (fate : Fate) (io : Table Sch F C)
    (out : List (Event × Sch × FiberOrCb F C)) : History Sch F C where
  io := io
  reg i e := if i = fd ∧ gone h.io io fd e then none else h.reg i e
  added := h.added
  closed := h.closed ++ [Event.read, .write].filterMap fun e =>
    if gone h.io io fd e then (h.reg fd e).map fun r => (r, fate) else none
  handed := h.handed ++ out.map fun x => (h.reg fd x.1, x.2)

/-- Record an operation: the table afterwards and the tasks scheduled. -/
def record (h : History Sch F C) (a : Act Sch F C) (io : Table Sch F C)
    (out : List (Event × Sch × FiberOrCb F C)) : History Sch F C :=
  match a with
  | .addEvent fd e sch cur cb =>
    { io := io
      reg := fun i e' => if i = fd ∧ e' = e then some h.added.length else h.reg i e'
      added := h.added ++ [(sch, Table.target cur cb)]
      closed := h.closed
      handed := h.handed ++ out.map fun x => (h.reg fd x.1, x.2) }
  | a => h.close a.fd a.fate io out

/-- The operations as a transition system: each within its precondition, as one step. -/
def system (Sch F C : Type*) : System (History Sch F C) (Act Sch F C) where
  init h := h = .new
  step h a :=
    if a.Pre h.io then
      match a.apply h.io with
      | .ok r => some (h.record a r.1 r.2)
      | .error _ => none
    else none

/-- The record fits the table. -/
structure Inv (h : History Sch F C) : Prop where
  io : h.io.Inv
  isSome : ∀ fd e, (h.reg fd e).isSome = (h.io.events fd).has e
  task : ∀ (fd : ℕ) (e : Event) (r : ℕ) (ctx : FdContext Sch F C), h.reg fd e = some r →
    h.io.fdContexts[fd]? = some ctx →
      ctx.registered e = (h.added[r]?).toList.map fun x => (e, x)
  inj : ∀ fd e fd' e' r, h.reg fd e = some r → h.reg fd' e' = some r → fd = fd' ∧ e = e'
  lt : ∀ fd e r, h.reg fd e = some r → r < h.added.length
  nodup : (h.closed.map Prod.fst).Nodup
  closed_lt : ∀ x ∈ h.closed, x.1 < h.added.length
  closed_reg : ∀ x ∈ h.closed, ∀ fd e, h.reg fd e ≠ some x.1
  total : ∀ r < h.added.length, r ∈ h.closed.map Prod.fst ∨ ∃ fd e, h.reg fd e = some r
  handed : h.handed.map (fun x => (x.1, some x.2)) =
    (h.closed.filter fun x => x.2 ≠ .deleted).map fun x => (some x.1, h.added[x.1]?)

theorem inv_new : (new : History Sch F C).Inv where
  io := Table.inv_new
  isSome fd e := by simp [new, Table.new_events]
  task fd e r ctx h := by simp [new] at h
  inj fd e fd' e' r h := by simp [new] at h
  lt fd e r h := by simp [new] at h
  nodup := by simp [new]
  closed_lt x h := by simp [new] at h
  closed_reg x h := by simp [new] at h
  total r h := by simp [new] at h
  handed := rfl

section

variable {h : History Sch F C} {fd : ℕ} {ctx : FdContext Sch F C}

theorem Inv.lt_length (hi : h.Inv) {e : Event} {r : ℕ} (hr : h.reg fd e = some r) :
    fd < h.io.fdContexts.length := by
  by_contra hge
  have := hi.isSome fd e
  rw [hr, Table.events, List.getElem?_eq_none (by omega)] at this
  simp at this

/-- Registering an event keeps the record in step. -/
theorem Inv.add (hi : h.Inv) (hc : (h.io.grow fd).fdContexts[fd]? = some ctx) {e : Event}
    (he : ctx.events.has e = false) (sch : Sch) (cur : F) (cb : Option C) :
    (h.record (.addEvent fd e sch cur cb) (h.io.arm fd ctx e sch (Table.target cur cb))
      []).Inv where
  io := hi.io.arm hc he sch _
  isSome i e' := by
    simp only [record]
    rw [Table.arm_events hi.io hc]
    by_cases hif : i = fd
    · subst hif
      have hev : h.io.events i = ctx.events := by
        rw [← Table.grow_events hi.io i, Table.events_of_getElem? hc]
      by_cases hee : e' = e
      · simp [hee]
      · simp [hee, Ne.symm hee, hi.isSome, hev]
    · simp [hif, hi.isSome]
  task i e' r c hr hctx := by
    simp only [record] at hr hctx ⊢
    by_cases hif : i = fd
    · subst hif
      rw [Table.arm, Table.put_getElem?_self hc] at hctx
      obtain rfl := Option.some.inj hctx
      by_cases hee : e' = e
      · subst hee
        rw [if_pos ⟨rfl, rfl⟩] at hr
        obtain rfl := Option.some.inj hr
        rw [FdContext.registered_arm_self]
        simp
      · rw [if_neg fun hc => hee hc.2] at hr
        rw [Table.grow_getElem? hi.io i (hi.lt_length hr)] at hc
        rw [FdContext.registered_arm_of_ne ctx hee, hi.task i e' r ctx hr hc,
          List.getElem?_append_left (hi.lt i e' r hr)]
    · rw [if_neg fun hc => hif hc.1] at hr
      rw [Table.arm, Table.put_getElem?_of_ne hif,
        Table.grow_getElem? hi.io fd (hi.lt_length hr)] at hctx
      rw [hi.task i e' r c hr hctx, List.getElem?_append_left (hi.lt i e' r hr)]
  inj i e' i' e'' r hr hr' := by
    simp only [record] at hr hr'
    split_ifs at hr hr' with h1 h2 h2
    · exact ⟨h1.1.trans h2.1.symm, h1.2.trans h2.2.symm⟩
    · have := hi.lt i' e'' r hr'
      have := Option.some.inj hr
      omega
    · have := hi.lt i e' r hr
      have := Option.some.inj hr'
      omega
    · exact hi.inj i e' i' e'' r hr hr'
  lt i e' r hr := by
    simp only [record, List.length_append, List.length_singleton] at hr ⊢
    split_ifs at hr
    · have := Option.some.inj hr
      omega
    · have := hi.lt i e' r hr
      omega
  nodup := hi.nodup
  closed_lt x hx := by
    have := hi.closed_lt x hx
    simp only [record, List.length_append, List.length_singleton]
    omega
  closed_reg x hx i e' hr := by
    simp only [record] at hr
    split_ifs at hr
    · have := hi.closed_lt x hx
      have := Option.some.inj hr
      omega
    · exact hi.closed_reg x hx i e' hr
  total r hr := by
    simp only [record, List.length_append, List.length_singleton] at hr ⊢
    by_cases hlt : r < h.added.length
    · refine (hi.total r hlt).imp id ?_
      rintro ⟨i, e', hr'⟩
      refine ⟨i, e', ?_⟩
      rw [if_neg ?_, hr']
      rintro ⟨rfl, rfl⟩
      have := hi.isSome i e'
      rw [hr', ← Table.grow_events hi.io i, Table.events_of_getElem? hc, he] at this
      simp at this
    · exact .inr ⟨fd, e, by rw [if_pos ⟨rfl, rfl⟩]; congr 1; omega⟩
  handed := by
    simp only [record, List.map_nil, List.append_nil]
    rw [hi.handed]
    refine List.map_congr_left fun x hx => ?_
    have := hi.closed_lt x (List.mem_of_mem_filter hx)
    rw [List.getElem?_append_left this]

theorem gone_disarm (hc : h.io.fdContexts[fd]? = some ctx) {m : Mask} (hm : m.Subset ctx.events)
    (e : Event) : gone h.io (h.io.disarm fd ctx m) fd e = m.has e := by
  unfold gone
  rw [Table.disarm_events hc, if_pos rfl, Table.events_of_getElem? hc, Mask.has_diff]
  cases he : m.has e
  · simp
  · simp [hm e he]

/-- The registrations that end when the events in `m` are dropped. -/
theorem mem_closing (hc : h.io.fdContexts[fd]? = some ctx) {m : Mask}
    (hm : m.Subset ctx.events) (fate : Fate) (x : ℕ × Fate) :
    (x ∈ [Event.read, .write].filterMap fun e =>
      if gone h.io (h.io.disarm fd ctx m) fd e then (h.reg fd e).map fun r => (r, fate) else none) ↔
      ∃ e, m.has e = true ∧ h.reg fd e = some x.1 ∧ x.2 = fate := by
  rw [List.mem_filterMap]
  constructor
  · rintro ⟨e, -, he⟩
    rw [gone_disarm hc hm] at he
    split_ifs at he with hme
    obtain ⟨r, hr, rfl⟩ := Option.map_eq_some_iff.1 he
    exact ⟨e, hme, hr, rfl⟩
  · rintro ⟨e, hme, hr, hf⟩
    refine ⟨e, by cases e <;> simp, ?_⟩
    rw [gone_disarm hc hm, if_pos hme, hr]
    simp [← hf]

/-- Dropping registered events keeps the record in step: their tasks are scheduled unless they are
deleted. -/
theorem Inv.close (hi : h.Inv) (hc : h.io.fdContexts[fd]? = some ctx) {m : Mask}
    (hm : m.Subset ctx.events) (fate : Fate) :
    (h.close fd fate (h.io.disarm fd ctx m) (if fate = .deleted then [] else ctx.tasks m)).Inv where
  io := hi.io.disarm hc hm
  isSome i e := by
    simp only [History.close]
    rw [Table.disarm_events hc]
    by_cases hif : i = fd
    · subst hif
      rw [gone_disarm hc hm]
      cases he : m.has e
      · simp [hi.isSome, Table.events_of_getElem? hc, he]
      · simp [he]
    · simp [hif, hi.isSome]
  task i e r c hr hctx := by
    simp only [History.close] at hr hctx ⊢
    split_ifs at hr with hgone
    by_cases hif : i = fd
    · subst hif
      rw [Table.disarm, Table.put_getElem?_self hc] at hctx
      obtain rfl := Option.some.inj hctx
      rw [gone_disarm hc hm] at hgone
      have hme : m.has e = false := by simpa using hgone
      rw [FdContext.registered_disarm ctx hme]
      exact hi.task i e r ctx hr hc
    · rw [Table.disarm, Table.put_getElem?_of_ne hif] at hctx
      exact hi.task i e r c hr hctx
  inj i e i' e' r hr hr' := by
    simp only [History.close] at hr hr'
    split_ifs at hr hr'
    exact hi.inj i e i' e' r hr hr'
  lt i e r hr := by
    simp only [History.close] at hr ⊢
    split_ifs at hr
    exact hi.lt i e r hr
  nodup := by
    simp only [History.close, List.map_append]
    refine List.nodup_append.2 ⟨hi.nodup, ?_, ?_⟩
    · -- two events of one descriptor have different registrations
      rw [List.map_filterMap]
      refine List.Nodup.filterMap (fun e e' r hr hr' => ?_) (by decide)
      simp only [Option.mem_def, Option.map_eq_some_iff, Option.ite_none_right_eq_some] at hr hr'
      obtain ⟨x, ⟨-, r₁, hr₁, rfl⟩, rfl⟩ := hr
      obtain ⟨y, ⟨-, r₂, hr₂, rfl⟩, rfl⟩ := hr'
      exact (hi.inj fd e fd e' _ hr₁ hr₂).2
    · intro r hr r' hr'
      obtain ⟨x, hx, rfl⟩ := List.mem_map.1 hr
      obtain ⟨y, hy, rfl⟩ := List.mem_map.1 hr'
      obtain ⟨e, -, hreg, -⟩ := (mem_closing hc hm fate y).1 hy
      intro heq
      exact hi.closed_reg x hx fd e (by rw [heq]; exact hreg)
  closed_lt x hx := by
    simp only [History.close, List.mem_append] at hx ⊢
    rcases hx with hx | hx
    · exact hi.closed_lt x hx
    · obtain ⟨e, -, hreg, -⟩ := (mem_closing hc hm fate x).1 hx
      exact hi.lt fd e x.1 hreg
  closed_reg x hx i e hr := by
    simp only [History.close, List.mem_append] at hx hr
    split_ifs at hr with hgone
    rcases hx with hx | hx
    · exact hi.closed_reg x hx i e hr
    · obtain ⟨e', hme, hreg, -⟩ := (mem_closing hc hm fate x).1 hx
      obtain ⟨rfl, rfl⟩ := hi.inj i e fd e' x.1 hr hreg
      exact hgone ⟨rfl, by rw [gone_disarm hc hm]; exact hme⟩
  total r hr := by
    simp only [History.close, List.map_append, List.mem_append] at hr ⊢
    rcases hi.total r hr with hcl | ⟨i, e, hreg⟩
    · exact .inl (.inl hcl)
    · by_cases hgone : i = fd ∧ gone h.io (h.io.disarm fd ctx m) fd e = true
      · obtain ⟨rfl, hgone⟩ := hgone
        rw [gone_disarm hc hm] at hgone
        exact .inl (.inr (List.mem_map.2
          ⟨(r, fate), (mem_closing hc hm fate _).2 ⟨e, hgone, hreg, rfl⟩, rfl⟩))
      · exact .inr ⟨i, e, by rw [if_neg hgone]; exact hreg⟩
  handed := by
    have hpair : ∀ f : Event → Option (ℕ × Fate),
        [Event.read, .write].filterMap f = (f .read).toList ++ (f .write).toList := fun f => by
      cases hr : f .read <;> cases hw : f .write <;> simp [hr, hw]
    simp only [History.close, List.map_append, List.filter_append, hi.handed, hpair]
    congr 1
    by_cases hdel : fate = .deleted
    · have hnil : ∀ e, ((if gone h.io (h.io.disarm fd ctx m) fd e then
          (h.reg fd e).map fun r => (r, fate) else none).toList.filter
            fun x => decide (x.2 ≠ .deleted)) = [] := fun e => by
        split_ifs
        · cases h.reg fd e <;> simp [hdel]
        · rfl
      rw [if_pos hdel, hnil, hnil]
      rfl
    · -- each event in `m` hands over what its registration asked for
      have hone : ∀ e, (if m.has e then ctx.registered e else []).map
          (fun x => (h.reg fd x.1, some x.2)) =
          ((if gone h.io (h.io.disarm fd ctx m) fd e then
            (h.reg fd e).map fun r => (r, fate) else none).toList.filter
              fun x => decide (x.2 ≠ .deleted)).map fun x => (some x.1, h.added[x.1]?) :=
        fun e => by
        rw [gone_disarm hc hm]
        cases hme : m.has e
        · rfl
        · have hsome := hi.isSome fd e
          rw [Table.events_of_getElem? hc, hm e hme] at hsome
          obtain ⟨r, hr⟩ := Option.isSome_iff_exists.1 hsome
          have hlt := hi.lt fd e r hr
          rw [if_pos rfl, hi.task fd e r ctx hr hc, hr, List.getElem?_eq_getElem hlt]
          simp [hdel, hr]
      rw [if_neg hdel, FdContext.tasks, List.map_map, List.map_append, ← hone .read, ← hone .write]
      rfl

theorem record_of_not_isAdd {a : Act Sch F C} (ha : a.isAdd = false) (io : Table Sch F C)
    (out : List (Event × Sch × FiberOrCb F C)) :
    h.record a io out = h.close a.fd a.fate io out := by
  cases a <;> first | rfl | simp [Act.isAdd] at ha

theorem close_self (fd : ℕ) (fate : Fate) : h.close fd fate h.io [] = h := by
  simp [close, gone]

theorem Inv.step (hi : h.Inv) {a : Act Sch F C} {h' : History Sch F C}
    (hst : (system Sch F C).step h a = some h') : h'.Inv := by
  simp only [system] at hst
  split_ifs at hst with hp
  rcases Act.apply_cases hi.io hp with ⟨fd, e, sch, cur, cb, ctx, rfl, hc, he, happ⟩ |
    ⟨ctx, m, ha, hc, hm, -, happ⟩ | ⟨ha, happ⟩
  · rw [happ] at hst
    obtain rfl := Option.some.inj hst
    exact hi.add hc he sch cur cb
  · rw [happ] at hst
    obtain rfl := Option.some.inj hst
    rw [record_of_not_isAdd ha]
    exact hi.close hc hm a.fate
  · rw [happ] at hst
    obtain rfl := Option.some.inj hst
    rw [record_of_not_isAdd ha, close_self]
    exact hi

theorem Inv.of_reachable (hr : (system Sch F C).Reachable h) : h.Inv :=
  hr.invariant (fun _ hs => hs ▸ inv_new) fun _ _ _ _ hi _ hst => hi.step hst

/-- The number of times a registration was handed over. -/
theorem Inv.count_handed (hi : h.Inv) (r : ℕ) :
    (h.handed.map Prod.fst).count (some r) =
      if (r, Fate.triggered) ∈ h.closed ∨ (r, .cancelled) ∈ h.closed then 1 else 0 := by
  have hfst := congrArg (List.map Prod.fst) hi.handed
  simp only [List.map_map] at hfst
  have hlist : h.handed.map Prod.fst =
      ((h.closed.filter fun x => x.2 ≠ .deleted).map Prod.fst).map some := by
    rw [List.map_map]
    exact hfst
  have hnd : ((h.closed.filter fun x => x.2 ≠ .deleted).map Prod.fst).Nodup :=
    hi.nodup.sublist (List.filter_sublist.map _)
  have hmem : r ∈ (h.closed.filter fun x => x.2 ≠ .deleted).map Prod.fst ↔
      (r, Fate.triggered) ∈ h.closed ∨ (r, .cancelled) ∈ h.closed := by
    rw [List.mem_map]
    constructor
    · rintro ⟨⟨r', fate⟩, hx, rfl⟩
      obtain ⟨hx, hf⟩ := List.mem_filter.1 hx
      cases fate with
      | triggered => exact .inl hx
      | cancelled => exact .inr hx
      | deleted => simp at hf
    · rintro (hx | hx)
      · exact ⟨_, List.mem_filter.2 ⟨hx, by simp⟩, rfl⟩
      · exact ⟨_, List.mem_filter.2 ⟨hx, by simp⟩, rfl⟩
  rw [hlist, List.count_map_of_injective _ _ (Option.some_injective _)]
  split_ifs with hcl
  · exact List.count_eq_one_of_mem hnd (hmem.2 hcl)
  · exact List.count_eq_zero_of_not_mem fun hr => hcl (hmem.1 hr)

end

/-- Counter, masks, interest list, contexts and registrations agree. -/
structure Bookkeeping (h : History Sch F C) : Prop where
  /-- The counter is the number of bits set in all masks. -/
  pending : h.io.pendingEventCount = (h.io.fdContexts.map fun ctx => ctx.events.card).sum
  /-- The kernel waits for exactly the events of each mask, and not at all for an empty one. -/
  epoll : ∀ fd, h.io.epoll fd = if h.io.events fd = .none then none else some (h.io.events fd)
  /-- A context holds exactly one of a callback and a fiber when its bit is set. -/
  armed : ∀ (fd : ℕ) (ctx : FdContext Sch F C) (e : Event), h.io.fdContexts[fd]? = some ctx →
    ctx.events.has e = true →
      ((ctx.context e).cb.isSome = true ∧ (ctx.context e).fiber.isSome = false) ∨
        ((ctx.context e).cb.isSome = false ∧ (ctx.context e).fiber.isSome = true)
  /-- It holds neither otherwise. -/
  idle : ∀ (fd : ℕ) (ctx : FdContext Sch F C) (e : Event), h.io.fdContexts[fd]? = some ctx →
    ctx.events.has e = false → (ctx.context e).cb = none ∧ (ctx.context e).fiber = none
  /-- A bit that is set belongs to a registration. -/
  registered : ∀ fd e, (h.reg fd e).isSome = (h.io.events fd).has e
  /-- A registration is behind one bit until it ends. -/
  live : ∀ r < h.added.length, (∃! p : ℕ × Event, h.reg p.1 p.2 = some r) ↔
    r ∉ h.closed.map Prod.fst
  /-- It ends at most once. -/
  once : (h.closed.map Prod.fst).Nodup
  /-- It is handed over once if it was triggered or cancelled, never otherwise. -/
  count : ∀ r, (h.handed.map Prod.fst).count (some r) =
    if (r, Fate.triggered) ∈ h.closed ∨ (r, .cancelled) ∈ h.closed then 1 else 0
  /-- What is handed over is the task of a registration, to the scheduler of that registration. -/
  task : ∀ x ∈ h.handed, ∃ r, x.1 = some r ∧ h.added[r]? = some x.2

theorem Inv.bookkeeping {h : History Sch F C} (hi : h.Inv) : h.Bookkeeping where
  pending := hi.io.pending
  epoll := hi.io.epoll
  armed fd ctx e hc he := by
    obtain ⟨-, hone⟩ := (hi.io.ok fd ctx hc).armed e he
    cases hcb : (ctx.context e).cb with
    | some c => exact .inl ⟨rfl, by simp [hone.1 (by simp [hcb])]⟩
    | none =>
      refine .inr ⟨rfl, ?_⟩
      by_contra hf
      have := hone.2 (by simpa using hf)
      simp [hcb] at this
  idle fd ctx e hc he := by
    rw [(hi.io.ok fd ctx hc).idle e he]
    exact ⟨rfl, rfl⟩
  registered := hi.isSome
  live r hr := by
    constructor
    · rintro ⟨p, hp, -⟩ hcl
      obtain ⟨x, hx, rfl⟩ := List.mem_map.1 hcl
      exact hi.closed_reg x hx p.1 p.2 hp
    · intro hcl
      obtain ⟨fd, e, hreg⟩ := (hi.total r hr).resolve_left hcl
      refine ⟨(fd, e), hreg, fun p hp => ?_⟩
      obtain ⟨h1, h2⟩ := hi.inj p.1 p.2 fd e r hp hreg
      exact Prod.ext h1 h2
  once := hi.nodup
  count := hi.count_handed
  task x hx := by
    have hmem : (x.1, some x.2) ∈ h.handed.map fun x => (x.1, some x.2) :=
      List.mem_map.2 ⟨x, hx, rfl⟩
    rw [hi.handed] at hmem
    obtain ⟨y, -, hy⟩ := List.mem_map.1 hmem
    obtain ⟨h1, h2⟩ := Prod.mk.inj hy
    exact ⟨y.1, h1.symm, h2⟩

end History

end IOManager

end YXTWebCpp
