import YXTWebCpp.Fiber.Resume

/-!
# Switching between fibers

`Fiber` (`fiber.cpp`) on top of `getcontext`, `makecontext` and `swapcontext`, which save and
install continuations.  A fiber is resumed by `call` or by `swapIn`, and it leaves by `back` or by
`swapOut`, to the fiber of its thread or to the fiber of the scheduler.  Which way it leaves is
decided by `m_use_caller` when it yields, and by the function that its context was made for when its
function returns; `reset` makes the context anew.

* `Ref`, `Entry`, `Code` : fibers, the functions that contexts are made for, and continuations.
* `Switch` : the fibers, and where every thread is.
* `Switch.system` : construction, `reset`, `call`, `swapIn`, `YieldToHold`, and the end of a fiber's
  function.
* `Paired` : a fiber built with `use_caller` that has been reset does not run to its end, except on
  a thread whose scheduler runs in the fiber of the thread.
* `returns_to_resumer` : **then control returns to the resumer**, and only then.
-/

namespace YXTWebCpp

namespace Fiber

variable {ι F : Type*}

/-- A `Fiber`: the one of a thread, made by `GetThis`, or one built with a function. -/
inductive Ref (ι F : Type*) where
  | main (i : ι)
  | fiber (f : F)
  deriving DecidableEq

/-- The function that a context is made for. -/
inductive Entry where
  | mainFunc | callMainFunc
  deriving DecidableEq, Repr

/-- What a thread executes, or what a context continues. -/
inductive Code (ι F : Type*) where
  /-- The code of the thread outside of fibers built with a function. -/
  | main (i : ι)
  /-- The beginning of an entry function. -/
  | start (e : Entry)
  /-- The function of a fiber, called by `FunHelper` for an entry function. -/
  | body (cur : Ref ι F) (e : Entry)
  /-- Behind the last switch of an entry function: "never reach". -/
  | dead (cur : Ref ι F)
  /-- A null pointer has been dereferenced. -/
  | null
  deriving DecidableEq

/-- Who has resumed a fiber. -/
structure Resumer (ι F : Type*) where
  /-- The thread. -/
  thread : ι
  /-- The fiber whose context was saved. -/
  ref : Ref ι F
  /-- What was executed there. -/
  code : Code ι F
  deriving DecidableEq

/-- A fiber that is built with a function. -/
structure Obj (ι F : Type*) where
  /-- `m_use_caller` -/
  useCaller : Bool
  /-- `m_state` -/
  state : State
  /-- `m_context` -/
  ctx : Code ι F
  /-- `reset` has been called. -/
  wasReset : Bool
  /-- Who has resumed the fiber last. -/
  resumer : Option (Resumer ι F)
  deriving DecidableEq

/-- The entry function that the context of a fiber was made for last. -/
def Obj.entry (o : Obj ι F) : Entry :=
  if o.useCaller && !o.wasReset then .callMainFunc else .mainFunc

/-- A thread. -/
structure Cpu (ι F : Type*) where
  /-- What it executes. -/
  running : Code ι F
  /-- `t_fiber` -/
  current : Option (Ref ι F)
  /-- `t_threadFiber->m_context` -/
  ctx : Code ι F
  /-- `t_scheduler_fiber` -/
  scheduler : Option (Ref ι F)
  deriving DecidableEq

/-- The threads and the fibers. -/
structure Switch (ι F : Type*) where
  cpu : ι → Cpu ι F
  obj : F → Option (Obj ι F)

/-- The steps. -/
inductive SwitchAct (ι F : Type*) where
  /-- `Fiber(cb, stacksize, use_caller)` -/
  | construct (f : F) (useCaller : Bool)
  /-- `Fiber::reset` -/
  | reset (f : F)
  /-- `Fiber::call` -/
  | call (i : ι) (f : F)
  /-- `Fiber::swapIn` -/
  | swapIn (i : ι) (f : F)
  /-- `Fiber::YieldToHold` -/
  | yieldToHold (i : ι)
  /-- The function of the fiber that runs on the thread returns. -/
  | finish (i : ι)
  /-- The main code of the thread constructs a `Scheduler` with `use_caller`, whose root fiber is
  `f`. -/
  | scheduler (i : ι) (f : F)
  /-- The main code of the thread enters `Scheduler::run`. -/
  | run (i : ι)
  deriving DecidableEq

namespace Switch

/-- `m_context` of a fiber. -/
def ctx (s : Switch ι F) : Ref ι F → Code ι F
  | .main i => (s.cpu i).ctx
  | .fiber f => ((s.obj f).map Obj.ctx).getD .null

/-- An entry function begins with `GetThis`, in `FunHelper`. -/
def enter (current : Option (Ref ι F)) : Code ι F → Code ι F
  | .start e =>
    match current with
    | some cur => .body cur e
    | none => .null
  | c => c

/-- `m_use_caller` of a fiber; it is false for the fiber of a thread. -/
def useCaller (s : Switch ι F) : Ref ι F → Bool
  | .main _ => false
  | .fiber f => ((s.obj f).map Obj.useCaller).getD false

/-- The thread executes the code of the fiber. -/
def Executes (s : Switch ι F) (i : ι) : Ref ι F → Prop
  | .main j => (s.cpu i).running = .main j
  | .fiber f => ∃ e, (s.cpu i).running = .body (.fiber f) e

section

variable [DecidableEq ι] [DecidableEq F]

/-- Change what is stored for a thread. -/
def onCpu (s : Switch ι F) (i : ι) (g : Cpu ι F → Cpu ι F) : Switch ι F :=
  { s with cpu := Function.update s.cpu i (g (s.cpu i)) }

/-- Change what is stored in a fiber that was built with a function. -/
def onObj (s : Switch ι F) (f : F) (g : Obj ι F → Obj ι F) : Switch ι F :=
  { s with obj := Function.update s.obj f ((s.obj f).map g) }

/-- Store a context. -/
def setCtx (s : Switch ι F) (c : Code ι F) : Ref ι F → Switch ι F
  | .main i => s.onCpu i fun t => { t with ctx := c }
  | .fiber f => s.onObj f fun o => { o with ctx := c }

/-- `SetThis` -/
def setThis (s : Switch ι F) (i : ι) (cur : Option (Ref ι F)) : Switch ι F :=
  s.onCpu i fun t => { t with current := cur }

/-- `swapcontext(&old->m_context, &new->m_context)` on thread `i`, which goes on with `c` when it is
resumed. -/
def swapcontext (s : Switch ι F) (i : ι) (old new : Ref ι F) (c : Code ι F) : Switch ι F :=
  let s := s.setCtx c old
  s.onCpu i fun t => { t with running := enter t.current (s.ctx new) }

/-- `swapOut` of the fiber `cur`: to `Scheduler::GetMainFiber()`, which may be null. -/
def swapOut (s : Switch ι F) (i : ι) (cur : Ref ι F) (c : Code ι F) : Switch ι F :=
  let s := s.setThis i (s.cpu i).scheduler
  match (s.cpu i).scheduler with
  | some m => s.swapcontext i cur m c
  | none => s.onCpu i fun t => { t with running := .null }

/-- `back` of the fiber `cur`: to `t_threadFiber`. -/
def back (s : Switch ι F) (i : ι) (cur : Ref ι F) (c : Code ι F) : Switch ι F :=
  (s.setThis i (some (.main i))).swapcontext i cur (.main i) c

/-- Store `m_state`; that of the fiber of a thread is not looked at. -/
def setState (s : Switch ι F) (st : State) : Ref ι F → Switch ι F
  | .main _ => s
  | .fiber f => s.onObj f fun o => { o with state := st }

instance (s : Switch ι F) (i : ι) (r : Ref ι F) : Decidable (s.Executes i r) :=
  match r with
  | .main j => inferInstanceAs (Decidable ((s.cpu i).running = .main j))
  | .fiber f => decidable_of_iff
      ((s.cpu i).running = .body (.fiber f) .mainFunc ∨
        (s.cpu i).running = .body (.fiber f) .callMainFunc)
      ⟨fun h => h.elim (fun h => ⟨_, h⟩) fun h => ⟨_, h⟩,
        fun ⟨e, h⟩ => by cases e <;> simp [h]⟩

/-- `call` and `swapIn`: the fiber `f` becomes current and `EXEC`, and the context of `m` is
saved. -/
def resume (s : Switch ι F) (i : ι) (m : Ref ι F) (f : F) : Switch ι F :=
  let c := (s.cpu i).running
  let s := s.onObj f fun o => { o with state := .exec, resumer := some ⟨i, m, c⟩ }
  (s.setThis i (some (.fiber f))).swapcontext i m (.fiber f) c

/-- The constructor makes the context for the entry function that fits. -/
def construct (s : Switch ι F) (f : F) (useCaller : Bool) : Switch ι F :=
  { s with obj := Function.update s.obj f (some
      ⟨useCaller, .init, .start (if useCaller then .callMainFunc else .mainFunc), false, none⟩) }

/-- The steps.  `call` is called in the main code of the thread, and `swapIn` in the code of the
scheduler's fiber.  Nothing follows an assertion that fails. -/
def system : System (Switch ι F) (SwitchAct ι F) where
  init s := (∀ f, s.obj f = none) ∧
    ∀ i, s.cpu i = ⟨.main i, some (.main i), .main i, none⟩
  step s a :=
    match a with
    | .construct f useCaller =>
      match s.obj f with
      | some _ => none
      | none => some (s.construct f useCaller)
    | .reset f =>
      match s.obj f with
      | some o =>
        if o.state = .term ∨ o.state = .init then
          some (s.onObj f fun o =>
            { o with ctx := .start .mainFunc, state := .init, wasReset := true })
        else none
      | none => none
    | .call i f =>
      match s.obj f with
      | some o =>
        if o.useCaller = true ∧ s.Executes i (.main i) ∧ o.state ≠ .exec then
          some (s.resume i (.main i) f)
        else none
      | none => none
    | .swapIn i f =>
      match s.obj f, (s.cpu i).scheduler with
      | some o, some m =>
        if o.useCaller = false ∧ s.Executes i m ∧ o.state ≠ .exec then some (s.resume i m f)
        else none
      | _, _ => none
    | .yieldToHold i =>
      match (s.cpu i).running, (s.cpu i).current with
      | .body _ _, some cur =>
        let s := s.setState .hold cur
        let c := (s.cpu i).running
        some (if s.useCaller cur then s.back i cur c else s.swapOut i cur c)
      | _, _ => none
    | .finish i =>
      match (s.cpu i).running with
      | .body cur e =>
        let s := s.setState .term cur
        some (match e with
          | .mainFunc => s.swapOut i cur (.dead cur)
          | .callMainFunc => s.back i cur (.dead cur))
      | _ => none
    | .scheduler i f =>
      match s.obj f with
      | some _ => none
      | none =>
        if s.Executes i (.main i) then
          some ((s.construct f true).onCpu i fun t => { t with scheduler := some (.fiber f) })
        else none
    | .run i =>
      if s.Executes i (.main i) then
        some (s.onCpu i fun t => { t with scheduler := t.current })
      else none

/-- The thread runs a fiber that was built with `use_caller` and has been reset. -/
def runsReset (s : Switch ι F) (i : ι) : Bool :=
  match (s.cpu i).running with
  | .body (.fiber f) _ => ((s.obj f).map fun o => o.useCaller && o.wasReset).getD false
  | _ => false

/-- A fiber built with `use_caller` that has been reset runs to its end only where the scheduler's
fiber is the fiber of the thread. -/
def Paired (s : Switch ι F) : SwitchAct ι F → Prop
  | .finish i => s.runsReset i = true → (s.cpu i).scheduler = some (.main i)
  | _ => True

instance (s : Switch ι F) : (a : SwitchAct ι F) → Decidable (s.Paired a)
  | .finish i =>
    inferInstanceAs (Decidable (s.runsReset i = true → (s.cpu i).scheduler = some (.main i)))
  | .construct _ _ | .reset _ | .call _ _ | .swapIn _ _ | .yieldToHold _ | .scheduler _ _
  | .run _ => inferInstanceAs (Decidable True)

/-! ### What the switches do -/

variable {s : Switch ι F} {i : ι} {f r : F} {o o' : Obj ι F} {c : Code ι F} {st : State}

theorem back_eq (ho : s.obj f = some o) :
    (s.setState st (.fiber f)).back i (.fiber f) c =
      ⟨Function.update s.cpu i { s.cpu i with
          running := enter (some (.main i)) (s.cpu i).ctx
          current := some (.main i) },
        Function.update s.obj f (some { o with state := st, ctx := c })⟩ := by
  simp [back, setState, setThis, swapcontext, setCtx, onCpu, onObj, ctx, ho]

theorem swapOut_main_eq (ho : s.obj f = some o) (hm : (s.cpu i).scheduler = some (.main i)) :
    (s.setState st (.fiber f)).swapOut i (.fiber f) c =
      (s.setState st (.fiber f)).back i (.fiber f) c := by
  rw [back_eq ho]
  simp [swapOut, setState, setThis, swapcontext, setCtx, onCpu, onObj, ctx, ho, hm]

theorem swapOut_fiber_eq (ho : s.obj f = some o) (hr : s.obj r = some o') (hne : r ≠ f)
    (hm : (s.cpu i).scheduler = some (.fiber r)) :
    (s.setState st (.fiber f)).swapOut i (.fiber f) c =
      ⟨Function.update s.cpu i { s.cpu i with
          running := enter (some (.fiber r)) o'.ctx
          current := some (.fiber r) },
        Function.update s.obj f (some { o with state := st, ctx := c })⟩ := by
  simp [swapOut, setState, setThis, swapcontext, setCtx, onCpu, onObj, ctx, ho, hm, hne, hr]

theorem resume_main_eq (ho : s.obj f = some o) :
    s.resume i (.main i) f =
      ⟨Function.update s.cpu i { s.cpu i with
          running := enter (some (.fiber f)) o.ctx
          current := some (.fiber f)
          ctx := (s.cpu i).running },
        Function.update s.obj f (some { o with
          state := .exec
          resumer := some ⟨i, .main i, (s.cpu i).running⟩ })⟩ := by
  simp [resume, setThis, swapcontext, setCtx, onCpu, onObj, ctx, ho]

theorem resume_fiber_eq (ho : s.obj f = some o) (hr : s.obj r = some o') (hne : r ≠ f) :
    s.resume i (.fiber r) f =
      ⟨Function.update s.cpu i { s.cpu i with
          running := enter (some (.fiber f)) o.ctx
          current := some (.fiber f) },
        Function.update (Function.update s.obj f (some { o with
          state := .exec
          resumer := some ⟨i, .fiber r, (s.cpu i).running⟩ })) r
            (some { o' with ctx := (s.cpu i).running })⟩ := by
  simp [resume, setThis, swapcontext, setCtx, onCpu, onObj, ctx, ho, hr, hne, hne.symm]

end

/-! ### Where the threads stand -/

/-- What a fiber that nobody runs has stored: its beginning, the place where it has yielded, or its
end. -/
def Parked (f : F) (o : Obj ι F) : Prop :=
  match o.state with
  | .init => o.ctx = .start o.entry
  | .hold => o.ctx = .body (.fiber f) o.entry
  | .term => o.ctx = .dead (.fiber f)
  | .exec => True

/-- A fiber has been resumed on thread `i`, where it runs: the context of `m` was saved with the
code `c`.  A fiber that is resumed after its end only reaches the assertion behind it. -/
structure Runs (s : Switch ι F) (i : ι) (f : F) (o : Obj ι F) (m : Ref ι F) (c : Code ι F) :
    Prop where
  obj : s.obj f = some o
  state : o.state = .exec
  resumer : o.resumer = some ⟨i, m, c⟩
  current : (s.cpu i).current = some (.fiber f)
  running : (s.cpu i).running = .body (.fiber f) o.entry ∨ (s.cpu i).running = .dead (.fiber f)
  ctx : (s.cpu i).ctx = .main i

/-- The fiber `r` has been called on thread `i`, and has swapped another one in. -/
structure Waits (s : Switch ι F) (i : ι) (r : F) (o : Obj ι F) : Prop where
  obj : s.obj r = some o
  useCaller : o.useCaller = true
  state : o.state = .exec
  resumer : o.resumer = some ⟨i, .main i, .main i⟩
  ctx : o.ctx = .body (.fiber r) o.entry

/-- Where a thread stands: in its main code, in a fiber that has been called there, or in a fiber
that the scheduler's fiber has swapped in. -/
inductive Stands (s : Switch ι F) (i : ι) : Prop
  | main : (s.cpu i).running = .main i → (s.cpu i).current = some (.main i) → Stands s i
  | called (f : F) (o : Obj ι F) : s.Runs i f o (.main i) (.main i) → o.useCaller = true →
      Stands s i
  | swappedMain (f : F) (o : Obj ι F) : s.Runs i f o (.main i) (.main i) → o.useCaller = false →
      (s.cpu i).scheduler = some (.main i) → Stands s i
  | swappedFiber (f r : F) (o o' : Obj ι F) : s.Waits i r o' →
      s.Runs i f o (.fiber r) (.body (.fiber r) o'.entry) → o.useCaller = false →
      (s.cpu i).scheduler = some (.fiber r) → Stands s i

/-- Every thread stands somewhere, what does not run is stored, and the scheduler's fiber is the one
of the thread or was built with `use_caller`. -/
structure Inv (s : Switch ι F) : Prop where
  stands : ∀ i, s.Stands i
  parked : ∀ f o, s.obj f = some o → Parked f o
  scheduler : ∀ i m, (s.cpu i).scheduler = some m →
    m = .main i ∨ ∃ r o, m = .fiber r ∧ s.obj r = some o ∧ o.useCaller = true

section

variable {s s' : Switch ι F} {i : ι} {f r : F} {o o' : Obj ι F} {m : Ref ι F}

/-- A fiber that is resumed goes on where it was parked. -/
theorem Parked.enter (h : Parked f o) (hst : o.state ≠ .exec) :
    Switch.enter (some (.fiber f)) o.ctx = .body (.fiber f) o.entry ∨
      Switch.enter (some (.fiber f)) o.ctx = .dead (.fiber f) := by
  unfold Parked at h
  cases hs : o.state with
  | init =>
    rw [hs] at h
    exact .inl (by rw [h]; rfl)
  | hold =>
    rw [hs] at h
    exact .inl (by rw [h]; rfl)
  | term =>
    rw [hs] at h
    exact .inr (by rw [h]; rfl)
  | exec => exact absurd hs hst

/-- A step that leaves a thread and the fibers resumed there alone. -/
theorem Stands.frame {j : ι} (h : s.Stands j) (hcpu : s'.cpu j = s.cpu j)
    (hobj : ∀ g o x, s.obj g = some o → o.state = .exec → o.resumer = some x → x.thread = j →
      s'.obj g = some o) : s'.Stands j := by
  have hruns : ∀ {g o m c}, s.Runs j g o m c → s'.Runs j g o m c := by
    intro g o m c hg
    refine ⟨hobj g o _ hg.obj hg.state hg.resumer rfl, hg.state, hg.resumer, ?_, ?_, ?_⟩
    · rw [hcpu]
      exact hg.current
    · rw [hcpu]
      exact hg.running
    · rw [hcpu]
      exact hg.ctx
  cases h with
  | main hrun hcur => exact .main (by rw [hcpu]; exact hrun) (by rw [hcpu]; exact hcur)
  | called g o hg huse => exact .called g o (hruns hg) huse
  | swappedMain g o hg huse hsch =>
    exact .swappedMain g o (hruns hg) huse (by rw [hcpu]; exact hsch)
  | swappedFiber g r o o' hr hg huse hsch =>
    have hr' : s'.Waits j r o' :=
      ⟨hobj r o' _ hr.obj hr.state hr.resumer rfl, hr.useCaller, hr.state, hr.resumer, hr.ctx⟩
    exact .swappedFiber g r o o' hr' (hruns hg) huse (by rw [hcpu]; exact hsch)

/-- A thread in its main code has its own fiber as `t_fiber`. -/
theorem Inv.current_main (hi : s.Inv) (hrun : (s.cpu i).running = .main i) :
    (s.cpu i).current = some (.main i) := by
  have hne : ∀ {g o m c}, ¬ s.Runs i g o m c := by
    intro g o m c hg
    rcases hg.running with h | h
    · rw [hrun] at h
      cases h
    · rw [hrun] at h
      cases h
  cases hi.stands i with
  | main _ hcur => exact hcur
  | called _ _ hruns => exact absurd hruns hne
  | swappedMain _ _ hruns => exact absurd hruns hne
  | swappedFiber _ _ _ _ _ hruns => exact absurd hruns hne

/-- A fiber built with `use_caller` that runs was called. -/
theorem Inv.runs_scheduler (hi : s.Inv) (hr : s.obj r = some o) (huse : o.useCaller = true)
    {e : Entry} (hrun : (s.cpu i).running = .body (.fiber r) e) :
    s.Runs i r o (.main i) (.main i) ∧ e = o.entry := by
  have hcode : ∀ {g o₁ m c}, s.Runs i g o₁ m c → g = r ∧ o₁ = o ∧ e = o.entry := by
    intro g o₁ m c hg
    rcases hg.running with h | h
    · rw [hrun] at h
      simp only [Code.body.injEq, Ref.fiber.injEq] at h
      obtain ⟨rfl, he⟩ := h
      obtain rfl : o = o₁ := Option.some.inj (hr.symm.trans hg.obj)
      exact ⟨rfl, rfl, he⟩
    · rw [hrun] at h
      cases h
  cases hi.stands i with
  | main hmain _ =>
    rw [hrun] at hmain
    cases hmain
  | called g o₁ hruns _ =>
    obtain ⟨rfl, rfl, he⟩ := hcode hruns
    exact ⟨hruns, he⟩
  | swappedMain g o₁ hruns hno _ =>
    obtain ⟨rfl, rfl, -⟩ := hcode hruns
    exact absurd (huse.symm.trans hno) (by decide)
  | swappedFiber g q o₁ o₂ _ hruns hno _ =>
    obtain ⟨rfl, rfl, -⟩ := hcode hruns
    exact absurd (huse.symm.trans hno) (by decide)

variable [DecidableEq F]

theorem parked_update (hi : s.Inv) (cpu : ι → Cpu ι F) (ho : Parked f o) :
    ∀ g o', (⟨cpu, Function.update s.obj f (some o)⟩ : Switch ι F).obj g = some o' →
      Parked g o' := by
  intro g o' hg
  by_cases hgf : g = f
  · subst hgf
    simp only [Function.update_self, Option.some.injEq] at hg
    exact hg ▸ ho
  · simp only [Function.update_of_ne hgf] at hg
    exact hi.parked g o' hg

theorem Inv.construct (hi : s.Inv) (hf : s.obj f = none) (useCaller : Bool) :
    (s.construct f useCaller).Inv where
  stands j := by
    refine (hi.stands j).frame rfl fun g o x hg _ _ _ => ?_
    have hgf : g ≠ f := fun he => by rw [he, hf] at hg; cases hg
    simpa [Switch.construct, Function.update_of_ne hgf] using hg
  parked := by
    refine parked_update hi s.cpu ?_
    unfold Parked Obj.entry
    cases useCaller <;> rfl
  scheduler j m hm := by
    rcases hi.scheduler j m hm with hmain | ⟨r, o, rfl, hr, huse⟩
    · exact .inl hmain
    · have hrf : r ≠ f := fun he => by rw [he, hf] at hr; cases hr
      exact .inr ⟨r, o, rfl, by simpa [Switch.construct, Function.update_of_ne hrf] using hr, huse⟩

theorem Inv.reset (hi : s.Inv) (hf : s.obj f = some o) (hst : o.state = .term ∨ o.state = .init) :
    (s.onObj f fun o =>
      { o with ctx := .start .mainFunc, state := .init, wasReset := true }).Inv := by
  have hobj : s.onObj f (fun o =>
      { o with ctx := .start .mainFunc, state := .init, wasReset := true }) =
        ⟨s.cpu, Function.update s.obj f
          (some { o with ctx := .start .mainFunc, state := .init, wasReset := true })⟩ := by
    simp [onObj, hf]
  rw [hobj]
  refine ⟨fun j => ?_, parked_update hi s.cpu ?_, ?_⟩
  · refine (hi.stands j).frame rfl fun g o₁ x hg hst₁ _ _ => ?_
    -- a fiber that is reset does not run, so no thread stands in it
    have hgf : g ≠ f := by
      intro he
      subst he
      obtain rfl : o = o₁ := Option.some.inj (hf.symm.trans hg)
      simp [hst₁] at hst
    simpa [Function.update_of_ne hgf] using hg
  · simp [Parked, Obj.entry]
  · intro j m hm
    rcases hi.scheduler j m hm with hmain | ⟨r, o₁, rfl, hr, huse⟩
    · exact .inl hmain
    · by_cases hrf : r = f
      · subst hrf
        obtain rfl : o = o₁ := Option.some.inj (hf.symm.trans hr)
        exact .inr ⟨r, { o with ctx := .start .mainFunc, state := .init, wasReset := true }, rfl,
          Function.update_self .., huse⟩
      · exact .inr ⟨r, o₁, rfl, by simpa [Function.update_of_ne hrf] using hr, huse⟩

variable [DecidableEq ι]

/-- A fiber changes that no thread but `i` has resumed. -/
theorem Inv.frame (hi : s.Inv) {cpu : Cpu ι F} {obj : Option (Obj ι F)} {j : ι} (hj : j ≠ i)
    (hf : ∀ o x, s.obj f = some o → o.state = .exec → o.resumer = some x → x.thread = i) :
    Stands ⟨Function.update s.cpu i cpu, Function.update s.obj f obj⟩ j := by
  refine (hi.stands j).frame (Function.update_of_ne hj _ _) fun g o x hg hst hx hthread => ?_
  have hgf : g ≠ f := by
    intro he
    subst he
    exact hj (hthread.symm.trans (hf o x hg hst hx))
  simpa [Function.update_of_ne hgf] using hg

/-- The scheduler's fibers stay what they are. -/
theorem Inv.scheduler_update (hi : s.Inv) {cpu : Cpu ι F}
    (hcpu : cpu.scheduler = (s.cpu i).scheduler) (hf : s.obj f = some o)
    (huse : o'.useCaller = o.useCaller) :
    ∀ j m, (Function.update s.cpu i cpu j).scheduler = some m →
      m = .main j ∨ ∃ r o, m = .fiber r ∧ Function.update s.obj f (some o') r = some o ∧
        o.useCaller = true := by
  intro j m hm
  have hm' : (s.cpu j).scheduler = some m := by
    by_cases hj : j = i
    · subst hj
      simpa [hcpu] using hm
    · simpa [Function.update_of_ne hj] using hm
  rcases hi.scheduler j m hm' with hmain | ⟨r, o₁, rfl, hr, huse₁⟩
  · exact .inl hmain
  · by_cases hrf : r = f
    · subst hrf
      obtain rfl : o = o₁ := Option.some.inj (hf.symm.trans hr)
      exact .inr ⟨r, o', rfl, by simp, by rw [huse]; exact huse₁⟩
    · exact .inr ⟨r, o₁, rfl, by rw [Function.update_of_ne hrf]; exact hr, huse₁⟩

/-- A fiber that does not run is resumed in the main code of a thread. -/
theorem Inv.resume_main (hi : s.Inv) (hf : s.obj f = some o) (hst : o.state ≠ .exec)
    (hrun : (s.cpu i).running = .main i)
    (hkind : o.useCaller = false → (s.cpu i).scheduler = some (.main i)) :
    (s.resume i (.main i) f).Inv := by
  rw [resume_main_eq hf, hrun]
  refine ⟨fun j => ?_, ?_, ?_⟩
  · by_cases hj : j = i
    · subst hj
      have hruns : Runs ⟨Function.update s.cpu j { s.cpu j with
            running := enter (some (.fiber f)) o.ctx
            current := some (.fiber f)
            ctx := .main j },
          Function.update s.obj f (some { o with
            state := .exec
            resumer := some ⟨j, .main j, .main j⟩ })⟩ j f
          { o with state := .exec, resumer := some ⟨j, .main j, .main j⟩ } (.main j) (.main j) := by
        refine ⟨by simp, rfl, rfl, by simp, ?_, by simp⟩
        simp only [Function.update_self]
        exact (hi.parked f o hf).enter hst
      by_cases huse : o.useCaller = true
      · exact .called f _ hruns huse
      · have huse' : o.useCaller = false := by simpa using huse
        exact .swappedMain f _ hruns huse' (by simpa using hkind huse')
    · -- the fiber did not run, so another thread does not stand in it
      refine hi.frame hj fun o₁ x hg hst₁ _ => ?_
      obtain rfl : o = o₁ := Option.some.inj (hf.symm.trans hg)
      exact absurd hst₁ hst
  · exact parked_update hi _ trivial
  · exact hi.scheduler_update rfl hf rfl

/-- A fiber that was called leaves, or one that was swapped in where the scheduler's fiber is the
one of the thread: the thread is back in its main code. -/
theorem Inv.back (hi : s.Inv) (hruns : s.Runs i f o (.main i) (.main i)) {st : State}
    {c : Code ι F} (hp : Parked f { o with state := st, ctx := c }) :
    ((s.setState st (.fiber f)).back i (.fiber f) c).Inv ∧
      (((s.setState st (.fiber f)).back i (.fiber f) c).cpu i).running = .main i ∧
      (((s.setState st (.fiber f)).back i (.fiber f) c).cpu i).current = some (.main i) := by
  rw [back_eq hruns.obj, hruns.ctx]
  refine ⟨⟨fun j => ?_, parked_update hi _ hp, hi.scheduler_update rfl hruns.obj rfl⟩, ?_, ?_⟩
  · by_cases hj : j = i
    · subst hj
      exact .main (by simp [enter]) (by simp)
    · -- the fiber was resumed on thread `i`, and not on another one
      refine hi.frame hj fun o₁ x hg _ hx => ?_
      obtain rfl : o = o₁ := Option.some.inj (hruns.obj.symm.trans hg)
      rw [hruns.resumer] at hx
      rw [← Option.some.inj hx]
  · simp [enter]
  · simp

/-- A fiber that does not run is swapped in by the scheduler's fiber, which was called. -/
theorem Inv.resume_fiber (hi : s.Inv) (hf : s.obj f = some o) (hst : o.state ≠ .exec)
    (huse : o.useCaller = false) (hruns : s.Runs i r o' (.main i) (.main i))
    (hrun : (s.cpu i).running = .body (.fiber r) o'.entry) (huse' : o'.useCaller = true)
    (hsch : (s.cpu i).scheduler = some (.fiber r)) : (s.resume i (.fiber r) f).Inv := by
  have hne : r ≠ f := by
    intro he
    subst he
    obtain rfl : o' = o := Option.some.inj (hruns.obj.symm.trans hf)
    exact hst hruns.state
  rw [resume_fiber_eq hf hruns.obj hne, hrun]
  refine ⟨fun j => ?_, fun g o₁ hg => ?_, fun j m hm => ?_⟩
  · by_cases hj : j = i
    · -- `r` waits with its context saved, and `f` runs
      subst hj
      refine .swappedFiber f r { o with
          state := .exec, resumer := some ⟨j, .fiber r, .body (.fiber r) o'.entry⟩ }
        { o' with ctx := .body (.fiber r) o'.entry } ?_ ?_ huse (by simpa using hsch)
      · exact ⟨by simp, huse', hruns.state, hruns.resumer, rfl⟩
      · refine ⟨by simp [hne.symm], rfl, rfl, by simp, ?_, by simpa using hruns.ctx⟩
        simp only [Function.update_self]
        exact (hi.parked f o hf).enter hst
    · -- `f` did not run, and `r` ran on thread `i`
      refine (hi.stands j).frame (Function.update_of_ne hj _ _) fun g o₁ x hg hst₁ hx hthread => ?_
      have hgf : g ≠ f := by
        intro he
        subst he
        obtain rfl : o = o₁ := Option.some.inj (hf.symm.trans hg)
        exact hst hst₁
      have hgr : g ≠ r := by
        intro he
        subst he
        obtain rfl : o' = o₁ := Option.some.inj (hruns.obj.symm.trans hg)
        rw [hruns.resumer] at hx
        rw [← Option.some.inj hx] at hthread
        exact hj hthread.symm
      simpa [Function.update_of_ne hgf, Function.update_of_ne hgr] using hg
  · by_cases hgr : g = r
    · subst hgr
      obtain rfl : _ = o₁ := Option.some.inj (by simpa using hg)
      simp [Parked, hruns.state]
    · by_cases hgf : g = f
      · subst hgf
        obtain rfl : _ = o₁ := Option.some.inj (by simpa [hgr] using hg)
        simp [Parked]
      · exact hi.parked g o₁ (by simpa [hgr, hgf] using hg)
  · have hm' : (s.cpu j).scheduler = some m := by
      by_cases hj : j = i
      · subst hj
        simpa using hm
      · simpa [Function.update_of_ne hj] using hm
    rcases hi.scheduler j m hm' with hmain | ⟨q, o₁, rfl, hq, huse₁⟩
    · exact .inl hmain
    · right
      by_cases hqr : q = r
      · subst hqr
        exact ⟨q, { o' with ctx := .body (.fiber q) o'.entry }, rfl, by simp, huse'⟩
      · have hqf : q ≠ f := by
          intro he
          subst he
          obtain rfl : o = o₁ := Option.some.inj (hf.symm.trans hq)
          rw [huse] at huse₁
          cases huse₁
        exact ⟨q, o₁, rfl, by simpa [hqr, hqf] using hq, huse₁⟩

/-- A fiber that was swapped in by the scheduler's fiber leaves: that one runs again. -/
theorem Inv.swapOut_fiber (hi : s.Inv) (hw : s.Waits i r o')
    (hruns : s.Runs i f o (.fiber r) (.body (.fiber r) o'.entry)) (huse : o.useCaller = false)
    (hsch : (s.cpu i).scheduler = some (.fiber r)) {st : State} {c : Code ι F}
    (hp : Parked f { o with state := st, ctx := c }) :
    ((s.setState st (.fiber f)).swapOut i (.fiber f) c).Inv ∧
      (((s.setState st (.fiber f)).swapOut i (.fiber f) c).cpu i).running =
        .body (.fiber r) o'.entry ∧
      (((s.setState st (.fiber f)).swapOut i (.fiber f) c).cpu i).current = some (.fiber r) := by
  -- `r` was built with `use_caller`, and `f` was not
  have hne : r ≠ f := by
    intro he
    subst he
    obtain rfl : o' = o := Option.some.inj (hw.obj.symm.trans hruns.obj)
    exact Bool.false_ne_true (huse.symm.trans hw.useCaller)
  rw [swapOut_fiber_eq hruns.obj hw.obj hne hsch, hw.ctx]
  refine ⟨⟨fun j => ?_, parked_update hi _ hp, hi.scheduler_update rfl hruns.obj rfl⟩, ?_, ?_⟩
  · by_cases hj : j = i
    · subst hj
      refine .called r o' ⟨by simpa [hne] using hw.obj, hw.state, hw.resumer, by simp, .inl ?_, ?_⟩
        hw.useCaller
      · simp [enter]
      · simpa using hruns.ctx
    · refine hi.frame hj fun o₁ x hg _ hx => ?_
      obtain rfl : o = o₁ := Option.some.inj (hruns.obj.symm.trans hg)
      rw [hruns.resumer] at hx
      rw [← Option.some.inj hx]
  · simp [enter]
  · simp

/-- Whatever it does besides, `swapOut` makes `Scheduler::GetMainFiber()` current. -/
theorem swapOut_current (s : Switch ι F) (i : ι) (cur : Ref ι F) (c : Code ι F) :
    ((s.swapOut i cur c).cpu i).current = (s.cpu i).scheduler := by
  cases hm : (s.cpu i).scheduler with
  | none => simp [swapOut, setThis, onCpu, hm]
  | some m =>
    cases cur with
    | main j =>
      by_cases hj : i = j
      · subst hj
        simp [swapOut, setThis, swapcontext, setCtx, onCpu, hm]
      · simp [swapOut, setThis, swapcontext, setCtx, onCpu, hm, hj]
    | fiber f => simp [swapOut, setThis, swapcontext, setCtx, onCpu, onObj, hm]

/-- The thread `i` is back in the context of `m`, with the code that was executed there. -/
structure Returned (s : Switch ι F) (i : ι) (m : Ref ι F) (c : Code ι F) : Prop where
  inv : s.Inv
  running : (s.cpu i).running = c
  current : (s.cpu i).current = some m

/-- What there is to know of a fiber that runs: who has resumed it, and that it gets back there by
`back` if it was built with `use_caller`, and by `swapOut` if not, or if the scheduler's fiber is
the one of the thread. -/
theorem Inv.leave (hi : s.Inv) {cur : Ref ι F} {e : Entry}
    (hrun : (s.cpu i).running = .body cur e) :
    ∃ f o m c, cur = .fiber f ∧ e = o.entry ∧ s.Runs i f o m c ∧
      (o.useCaller = true → m = .main i) ∧
      (o.useCaller = false → (s.cpu i).scheduler = some m) ∧
      ∀ st c', Parked f { o with state := st, ctx := c' } →
        (o.useCaller = true →
          ((s.setState st (.fiber f)).back i (.fiber f) c').Returned i m c) ∧
        (o.useCaller = false ∨ (s.cpu i).scheduler = some (.main i) →
          ((s.setState st (.fiber f)).swapOut i (.fiber f) c').Returned i m c) := by
  have hcode : ∀ {g o m c}, s.Runs i g o m c → cur = .fiber g ∧ e = o.entry := by
    intro g o m c hg
    rcases hg.running with hb | hd
    · rw [hrun] at hb
      simpa using hb
    · rw [hrun] at hd
      cases hd
  cases hi.stands i with
  | main hmain _ =>
    rw [hrun] at hmain
    cases hmain
  | called f o hruns huse =>
    refine ⟨f, o, _, _, (hcode hruns).1, (hcode hruns).2, hruns, fun _ => rfl,
      fun h => absurd (huse.symm.trans h) (by decide), fun st c' hp => ?_⟩
    obtain ⟨hinv, hrun', hcur⟩ := hi.back hruns hp
    refine ⟨fun _ => ⟨hinv, hrun', hcur⟩, fun h => ?_⟩
    -- `swapOut` and `back` do the same where the scheduler's fiber is the one of the thread
    have hsch := h.resolve_left fun h => absurd (huse.symm.trans h) (by decide)
    rw [swapOut_main_eq hruns.obj hsch]
    exact ⟨hinv, hrun', hcur⟩
  | swappedMain f o hruns huse hsch =>
    refine ⟨f, o, _, _, (hcode hruns).1, (hcode hruns).2, hruns, fun _ => rfl, fun _ => hsch,
      fun st c' hp => ?_⟩
    obtain ⟨hinv, hrun', hcur⟩ := hi.back hruns hp
    refine ⟨fun _ => ⟨hinv, hrun', hcur⟩, fun _ => ?_⟩
    rw [swapOut_main_eq hruns.obj hsch]
    exact ⟨hinv, hrun', hcur⟩
  | swappedFiber f r o o' hw hruns huse hsch =>
    refine ⟨f, o, _, _, (hcode hruns).1, (hcode hruns).2, hruns,
      fun h => absurd (huse.symm.trans h) (by decide), fun _ => hsch, fun st c' hp => ?_⟩
    obtain ⟨hinv, hrun', hcur⟩ := hi.swapOut_fiber hw hruns huse hsch hp
    exact ⟨fun h => absurd (huse.symm.trans h) (by decide), fun _ => ⟨hinv, hrun', hcur⟩⟩

/-- A fiber that runs yields to its resumer. -/
theorem Inv.yieldToHold (hi : s.Inv) {cur : Ref ι F} {e : Entry}
    (hrun : (s.cpu i).running = .body cur e) :
    ∃ f o m c s', cur = .fiber f ∧ s.Runs i f o m c ∧ (o.useCaller = true → m = .main i) ∧
      (o.useCaller = false → (s.cpu i).scheduler = some m) ∧
      system.step s (.yieldToHold i) = some s' ∧ s'.Returned i m c := by
  obtain ⟨f, o, m, c, rfl, rfl, hruns, hcall, hswap, hleave⟩ := hi.leave hrun
  obtain ⟨hback, hout⟩ := hleave .hold (.body (.fiber f) o.entry) rfl
  have hstep : system.step s (.yieldToHold i) =
      some (if o.useCaller then
        (s.setState .hold (.fiber f)).back i (.fiber f) (.body (.fiber f) o.entry)
      else (s.setState .hold (.fiber f)).swapOut i (.fiber f) (.body (.fiber f) o.entry)) := by
    simp [system, hrun, hruns.current, setState, onObj, useCaller, hruns.obj]
  refine ⟨f, o, m, c, _, rfl, hruns, hcall, hswap, hstep, ?_⟩
  by_cases huse : o.useCaller = true
  · rw [if_pos huse]
    exact hback huse
  · rw [if_neg huse]
    exact hout (.inl (by simpa using huse))

/-- The function of a fiber that runs returns: that gets the thread back to the resumer exactly if
the step is `Paired`. -/
theorem Inv.finish (hi : s.Inv) {cur : Ref ι F} {e : Entry}
    (hrun : (s.cpu i).running = .body cur e) :
    ∃ f o m c s', cur = .fiber f ∧ s.Runs i f o m c ∧ system.step s (.finish i) = some s' ∧
      (s.Paired (.finish i) → s'.Returned i m c) ∧
      ((s'.cpu i).running = c ∧ (s'.cpu i).current = some m → s.Paired (.finish i)) := by
  obtain ⟨f, o, m, c, rfl, rfl, hruns, hcall, hswap, hleave⟩ := hi.leave hrun
  obtain ⟨hback, hout⟩ := hleave .term (.dead (.fiber f)) rfl
  have hreset : s.runsReset i = (o.useCaller && o.wasReset) := by
    simp [runsReset, hrun, hruns.obj]
  have hstep : system.step s (.finish i) =
      some (match o.entry with
        | .mainFunc => (s.setState .term (.fiber f)).swapOut i (.fiber f) (.dead (.fiber f))
        | .callMainFunc => (s.setState .term (.fiber f)).back i (.fiber f) (.dead (.fiber f))) := by
    simp only [system, hrun]
  refine ⟨f, o, m, c, _, rfl, hruns, hstep, ?_⟩
  simp only [Paired, hreset]
  cases huse : o.useCaller with
  | false =>
    have hentry : o.entry = .mainFunc := by simp [Obj.entry, huse]
    rw [hentry]
    exact ⟨fun _ => hout (.inl huse), fun _ h => absurd h (by simp)⟩
  | true =>
    cases hwas : o.wasReset with
    | false =>
      have hentry : o.entry = .callMainFunc := by simp [Obj.entry, huse, hwas]
      rw [hentry]
      exact ⟨fun _ => hback huse, fun _ h => absurd h (by simp)⟩
    | true =>
      -- built with `use_caller`, but the context was made for `MainFunc`
      have hentry : o.entry = .mainFunc := by simp [Obj.entry, huse, hwas]
      rw [hentry]
      refine ⟨fun hsch => hout (.inr (hsch rfl)), fun hret _ => ?_⟩
      have hcur := swapOut_current (s.setState .term (.fiber f)) i (.fiber f) (.dead (.fiber f))
      rw [hret.2, hcall huse] at hcur
      exact hcur.symm

omit [DecidableEq F] in
/-- The main code of a thread makes another fiber the scheduler's fiber. -/
theorem Inv.setScheduler (hi : s.Inv) (hrun : (s.cpu i).running = .main i) {m : Ref ι F}
    (hm : m = .main i ∨ ∃ r o, m = .fiber r ∧ s.obj r = some o ∧ o.useCaller = true) :
    (s.onCpu i fun t => { t with scheduler := some m }).Inv where
  stands j := by
    by_cases hj : j = i
    · subst hj
      exact .main (by simpa [onCpu] using hrun) (by simpa [onCpu] using hi.current_main hrun)
    · exact (hi.stands j).frame (by simp [onCpu, hj]) fun _ _ _ hg _ _ _ => hg
  parked := hi.parked
  scheduler j m' hm' := by
    by_cases hj : j = i
    · subst hj
      obtain rfl : m = m' := by simpa [onCpu] using hm'
      exact hm
    · exact hi.scheduler j m' (by simpa [onCpu, hj] using hm')

/-- A step of a run keeps the invariant. -/
theorem Inv.step (hi : s.Inv) {a : SwitchAct ι F} (hg : s.Paired a)
    (hs : system.step s a = some s') : s'.Inv := by
  cases a with
  | construct f useCaller =>
    simp only [system] at hs
    split at hs
    · cases hs
    · rename_i hf
      obtain rfl := Option.some.inj hs
      exact hi.construct hf useCaller
  | reset f =>
    simp only [system] at hs
    split at hs
    · rename_i o hf
      split_ifs at hs with hst
      obtain rfl := Option.some.inj hs
      exact hi.reset hf hst
    · cases hs
  | call i f =>
    simp only [system] at hs
    split at hs
    · rename_i o hf
      split_ifs at hs with hc
      obtain ⟨huse, hrun, hst⟩ := hc
      obtain rfl := Option.some.inj hs
      exact hi.resume_main hf hst hrun fun h => absurd (huse.symm.trans h) (by decide)
    · cases hs
  | swapIn i f =>
    simp only [system] at hs
    split at hs
    · rename_i o m hf hm
      split_ifs at hs with hc
      obtain ⟨huse, hrun, hst⟩ := hc
      obtain rfl := Option.some.inj hs
      rcases hi.scheduler i m hm with rfl | ⟨r, o', rfl, hr, huse'⟩
      · -- a worker, whose scheduler runs in the fiber of the thread
        exact hi.resume_main hf hst hrun fun _ => hm
      · -- the caller of the scheduler, which runs in the root fiber
        obtain ⟨e, hbody⟩ := hrun
        obtain ⟨hruns, he⟩ := hi.runs_scheduler hr huse' hbody
        subst he
        exact hi.resume_fiber hf hst huse hruns hbody huse' hm
    · cases hs
  | yieldToHold i =>
    cases hrun : (s.cpu i).running with
    | body cur e =>
      obtain ⟨f, o, m, c, t, -, -, -, -, ht, hret⟩ := hi.yieldToHold hrun
      obtain rfl : t = s' := Option.some.inj (ht.symm.trans hs)
      exact hret.inv
    | main j => simp [system, hrun] at hs
    | start e => simp [system, hrun] at hs
    | dead cur => simp [system, hrun] at hs
    | null => simp [system, hrun] at hs
  | finish i =>
    cases hrun : (s.cpu i).running with
    | body cur e =>
      obtain ⟨f, o, m, c, t, -, -, ht, hret, -⟩ := hi.finish hrun
      obtain rfl : t = s' := Option.some.inj (ht.symm.trans hs)
      exact (hret hg).inv
    | main j => simp [system, hrun] at hs
    | start e => simp [system, hrun] at hs
    | dead cur => simp [system, hrun] at hs
    | null => simp [system, hrun] at hs
  | scheduler i f =>
    simp only [system] at hs
    split at hs
    · cases hs
    · rename_i hf
      split_ifs at hs with hrun
      obtain rfl := Option.some.inj hs
      exact (hi.construct hf true).setScheduler hrun
        (.inr ⟨f, _, rfl, Function.update_self .., rfl⟩)
  | run i =>
    simp only [system] at hs
    split_ifs at hs with hrun
    obtain rfl := Option.some.inj hs
    -- `Scheduler::run` stores `GetThis()`, which is the fiber of the thread in its main code
    have hset : (s.onCpu i fun t => { t with scheduler := t.current }) =
        s.onCpu i fun t => { t with scheduler := some (.main i) } := by
      simp only [onCpu, hi.current_main hrun]
    rw [hset]
    exact hi.setScheduler hrun (.inl rfl)

theorem inv_of_init (h : system.init s) : s.Inv where
  stands i := .main (by rw [h.2]) (by rw [h.2])
  parked f o ho := by
    rw [h.1] at ho
    cases ho
  scheduler i m hm := by
    rw [h.2] at hm
    cases hm

theorem inv_of_reachable (h : system.ReachableWhen Paired s) : s.Inv :=
  h.invariant (fun _ => inv_of_init) fun _ _ _ _ hi hg hs => hi.step hg hs

/-- **Control returns to the resumer.**  In every run in which no fiber built with `use_caller` runs
to its end after a `reset`, except where the scheduler's fiber is the one of the thread: a fiber
that runs is `t_fiber`, and was resumed by the fiber of the thread if it was built with
`use_caller`, and by the scheduler's fiber if not.  When it yields, the thread goes on where it was
resumed, and `t_fiber` is the fiber there.  When its function returns, this happens exactly if the
run meets the condition in this step as well. -/
theorem returns_to_resumer (h : system.ReachableWhen Paired s) {cur : Ref ι F} {e : Entry}
    (hrun : (s.cpu i).running = .body cur e) :
    ∃ f o x, cur = .fiber f ∧ (s.cpu i).current = some (.fiber f) ∧ s.obj f = some o ∧
      o.resumer = some x ∧ x.thread = i ∧ (o.useCaller = true → x.ref = .main i) ∧
      (o.useCaller = false → (s.cpu i).scheduler = some x.ref) ∧
      (∃ s', system.step s (.yieldToHold i) = some s' ∧
        (s'.cpu i).running = x.code ∧ (s'.cpu i).current = some x.ref) ∧
      ∃ s', system.step s (.finish i) = some s' ∧
        ((s'.cpu i).running = x.code ∧ (s'.cpu i).current = some x.ref ↔
          s.Paired (.finish i)) := by
  have hi := inv_of_reachable h
  obtain ⟨f, o, m, c, t, rfl, hruns, hcall, hswap, ht, hret⟩ := hi.yieldToHold hrun
  obtain ⟨g, o', m', c', t', hg, hruns', ht', hret', hexact⟩ := hi.finish hrun
  obtain rfl : f = g := by simpa using hg
  obtain rfl : o = o' := Option.some.inj (hruns.obj.symm.trans hruns'.obj)
  have hx := Option.some.inj (hruns.resumer.symm.trans hruns'.resumer)
  simp only [Resumer.mk.injEq, true_and] at hx
  obtain ⟨rfl, rfl⟩ := hx
  exact ⟨f, o, ⟨i, m, c⟩, rfl, hruns.current, hruns.obj, hruns.resumer, rfl, hcall, hswap,
    ⟨t, ht, hret.running, hret.current⟩,
    ⟨t', ht', hexact, fun hp => ⟨(hret' hp).running, (hret' hp).current⟩⟩⟩

end

/-! ### Runs -/

/-- One thread, which has no fiber yet. -/
def idle : Switch (Fin 1) ℕ := ⟨fun i => ⟨.main i, some (.main i), .main i, none⟩, fun _ => none⟩

theorem idle_init : system.init idle := ⟨fun _ => rfl, fun _ => rfl⟩

/-- The thread becomes the caller of a scheduler with the root fiber 0, and calls it.  The root
fiber swaps fiber 1 in, which runs to its end, is reset, and swapped in again. -/
theorem returns_to_resumer_root :
    ∃ s s', system.run Paired idle [.scheduler 0 0, .call 0 0, .construct 1 false, .swapIn 0 1,
        .yieldToHold 0, .swapIn 0 1, .finish 0, .reset 1, .swapIn 0 1] = some s ∧
      system.step s (.finish 0) = some s' ∧
      (s'.cpu 0).running = .body (.fiber 0) .callMainFunc ∧
      (s'.cpu 0).current = some (.fiber 0) := by
  have hs : (system.run Paired idle [.scheduler 0 0, .call 0 0, .construct 1 false, .swapIn 0 1,
        .yieldToHold 0, .swapIn 0 1, .finish 0, .reset 1, .swapIn 0 1]).map
      (fun s => ((s.cpu 0).running, (s.obj 1).bind Obj.resumer, decide (s.Paired (.finish 0)))) =
        some (.body (.fiber 1) .mainFunc, some ⟨0, .fiber 0, .body (.fiber 0) .callMainFunc⟩,
          true) := by
    decide +kernel
  obtain ⟨s, hrun, hrest⟩ := Option.map_eq_some_iff.1 hs
  simp only [Prod.mk.injEq, decide_eq_true_eq] at hrest
  obtain ⟨hbody, hres, hp⟩ := hrest
  obtain ⟨f, o, x, hf, -, ho, hx, -, -, -, -, s', hs', hiff⟩ :=
    returns_to_resumer (System.reachableWhen_of_run idle_init hrun) hbody
  obtain rfl : 1 = f := by simpa using hf
  obtain rfl : x = ⟨0, .fiber 0, .body (.fiber 0) .callMainFunc⟩ := by
    simpa [ho, hx] using hres
  exact ⟨s, s', hrun, hs', hiff.2 hp⟩

/-- A fiber built with `use_caller` is called on a thread without a scheduler, runs to its end, is
reset and called again.  It was resumed by the fiber of the thread, but its second end dereferences
the null pointer that `Scheduler::GetMainFiber()` is there. -/
theorem not_returns_after_reset :
    ∃ s s', system.run (fun _ _ => True) idle [.construct 0 true, .call 0 0, .finish 0, .reset 0,
        .call 0 0] = some s ∧
      (s.obj 0).bind Obj.resumer = some ⟨0, .main 0, .main 0⟩ ∧
      (s.cpu 0).running = .body (.fiber 0) .mainFunc ∧
      system.step s (.finish 0) = some s' ∧
      (s'.cpu 0).running = .null ∧ (s'.cpu 0).current = none := by
  have hs : ((system.run (fun _ _ => True) idle [.construct 0 true, .call 0 0, .finish 0, .reset 0,
        .call 0 0]).bind fun s => (system.step s (.finish 0)).map fun s' =>
      ((s.obj 0).bind Obj.resumer, (s.cpu 0).running, (s'.cpu 0).running, (s'.cpu 0).current)) =
        some (some ⟨0, .main 0, .main 0⟩, .body (.fiber 0) .mainFunc, .null, none) := by
    decide +kernel
  obtain ⟨s, hrun, hrest⟩ := Option.bind_eq_some_iff.1 hs
  obtain ⟨s', hstep, hvals⟩ := Option.map_eq_some_iff.1 hrest
  simp only [Prod.mk.injEq] at hvals
  exact ⟨s, s', hrun, hvals.1, hvals.2.1, hstep, hvals.2.2.1, hvals.2.2.2⟩

end Switch

end Fiber

end YXTWebCpp
