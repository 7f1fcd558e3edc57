import YXTWebCpp.LTS.Threads
import Mathlib.Data.List.Basic

/-!
# Growing the table of descriptors

`m_fdContexts` is a vector of pointers.  `addEvent` looks its descriptor up under the read lock; if
the vector is too short, it gives the lock up, takes the write lock and calls `contextResize` with
one and a half times its own descriptor, whatever the vector has become in the meantime.

* `FdTable.contextResize` : the vector afterwards, with a new context for every null pointer.
* `Adder` : where a thread stands in `addEvent`.
* `adders` : all interleavings of any number of threads in `addEvent`.
* `Grows` : `contextResize` is not called with less than the length the vector has.
* `contexts_kept` : **then the vector only grows and keeps its contexts**, and only then.
-/

namespace YXTWebCpp

namespace IOManager

/-- `m_fdContexts`: pointers, `none` being null.  A context is never freed while the manager lives,
so the addresses of new ones are counted. -/
structure FdTable where
  /-- `m_fdContexts` -/
  fdContexts : List (Option ℕ)
  /-- The address of the next context. -/
  next : ℕ
  deriving DecidableEq

namespace FdTable

/-- `m_fdContexts.resize(size)` -/
def resize (size : ℕ) (l : List (Option ℕ)) : List (Option ℕ) :=
  l.take size ++ List.replicate (size - l.length) none

/-- The loop of `contextResize`: a new context for every null pointer. -/
def fill : List (Option ℕ) → ℕ → List (Option ℕ) × ℕ
  | [], next => ([], next)
  | some p :: l, next => ((some p :: (fill l next).1), (fill l next).2)
  | none :: l, next => ((some next :: (fill l (next + 1)).1), (fill l (next + 1)).2)

/-- `contextResize` -/
def contextResize (t : FdTable) (size : ℕ) : FdTable :=
  let r := fill (resize size t.fdContexts) t.next
  ⟨r.1, r.2⟩

/-- After the constructor of `IOManager`. -/
def new : FdTable := contextResize ⟨[], 0⟩ 32

end FdTable

/-- Where a thread stands in `addEvent`. -/
inductive Adder where
  /-- Not in `addEvent`. -/
  | out
  /-- The vector was too short for `fd`: about to take the write lock. -/
  | grow (fd : ℕ)
  /-- It has taken `fd_context` out of the vector. -/
  | holds (fd : ℕ) (context : Option ℕ)
  /-- It has accessed the vector out of bounds. -/
  | outOfBounds (fd : ℕ)
  deriving DecidableEq

/-- The steps of a thread. -/
inductive AdderAct where
  /-- `addEvent(fd, _)`: the size test and the lookup under the read lock. -/
  | lookup (fd : ℕ)
  /-- `contextResize` and the lookup under the write lock. -/
  | grow
  /-- The rest of `addEvent`. -/
  | finish
  deriving DecidableEq

/-- `m_fdContexts[fd]` -/
def Adder.access (t : FdTable) (fd : ℕ) : Adder :=
  match t.fdContexts[fd]? with
  | some p => .holds fd p
  | none => .outOfBounds fd

/-- A step of a thread. -/
def Adder.step (t : FdTable) : Adder → AdderAct → Option (FdTable × Adder)
  | .out, .lookup fd =>
    if fd < t.fdContexts.length then some (t, access t fd) else some (t, .grow fd)
  | .grow fd, .grow =>
    -- `fd * 1.5`, cut down to a `size_t`
    let t := t.contextResize (fd * 3 / 2)
    some (t, access t fd)
  | .holds _ _, .finish => some (t, .out)
  | _, _ => none

variable {ι : Type*} [DecidableEq ι]

/-- All interleavings of the threads `ι` in `addEvent`. -/
def adders : System (Pool ι FdTable Adder) (PoolAct ι AdderAct Empty) :=
  interleave (fun s => s.shared = .new ∧ ∀ i, s.thread i = .out)
    (fun _ t w => w.step t) fun _ e => nomatch e

/-- The size with which the thread calls `contextResize` next. -/
def Adder.resizesTo : Adder → Option ℕ
  | .grow fd => some (fd * 3 / 2)
  | _ => none

/-- `contextResize` is called with no less than the length that the vector has. -/
def Grows (s : Pool ι FdTable Adder) : PoolAct ι AdderAct Empty → Prop
  | .thread i .grow => ∀ size ∈ (s.thread i).resizesTo, s.shared.fdContexts.length ≤ size
  | _ => True

instance (s : Pool ι FdTable Adder) : (a : PoolAct ι AdderAct Empty) → Decidable (Grows s a)
  | .thread i .grow =>
    inferInstanceAs (Decidable (∀ size ∈ (s.thread i).resizesTo, s.shared.fdContexts.length ≤ size))
  | .thread _ (.lookup _) | .thread _ .finish => inferInstanceAs (Decidable True)

/-! ### The vector -/

namespace FdTable

theorem length_fill (l : List (Option ℕ)) : ∀ next, (fill l next).1.length = l.length := by
  induction l with
  | nil => exact fun _ => rfl
  | cons p l ih =>
    intro next
    cases p with
    | some p => simp [fill, ih]
    | none => simp [fill, ih]

/-- The loop leaves no null pointer. -/
theorem none_notMem_fill (l : List (Option ℕ)) : ∀ next, none ∉ (fill l next).1 := by
  induction l with
  | nil => exact fun _ => List.not_mem_nil
  | cons p l ih =>
    intro next
    cases p with
    | some p => simp [fill, ih]
    | none => simp [fill, ih]

/-- Contexts that are there stay. -/
theorem fill_append {l : List (Option ℕ)} (h : none ∉ l) (l' : List (Option ℕ)) (next : ℕ) :
    (fill (l ++ l') next).1 = l ++ (fill l' next).1 := by
  induction l with
  | nil => rfl
  | cons p l ih =>
    obtain ⟨hp, hl⟩ := not_or.1 (mt List.mem_cons.2 h)
    cases p with
    | some p => simp [fill, ih hl]
    | none => exact absurd rfl hp

theorem length_contextResize (t : FdTable) (size : ℕ) :
    (t.contextResize size).fdContexts.length = size := by
  simp only [contextResize, length_fill, resize, List.length_append, List.length_take,
    List.length_replicate]
  omega

/-- **When `contextResize` keeps the contexts**: when it does not make the vector shorter. -/
theorem prefix_contextResize_iff {t : FdTable} (h : none ∉ t.fdContexts) (size : ℕ) :
    t.fdContexts <+: (t.contextResize size).fdContexts ↔ t.fdContexts.length ≤ size := by
  constructor
  · intro hp
    simpa only [length_contextResize] using hp.length_le
  · intro hle
    have heq : (t.contextResize size).fdContexts =
        t.fdContexts ++ (fill (List.replicate (size - t.fdContexts.length) none) t.next).1 := by
      simp only [contextResize, resize, List.take_of_length_le hle, fill_append h]
    rw [heq]
    exact List.prefix_append _ _

end FdTable

/-! ### Steps and runs -/

theorem Adder.access_of_lt {t : FdTable} {fd : ℕ} (h : fd < t.fdContexts.length) :
    ∃ p, t.fdContexts[fd]? = some p ∧ access t fd = .holds fd p := by
  refine ⟨t.fdContexts[fd], List.getElem?_eq_getElem h, ?_⟩
  simp only [access, List.getElem?_eq_getElem h]

/-- What a step of a thread can do. -/
theorem Adder.step_cases {t t' : FdTable} {w w' : Adder} {a : AdderAct}
    (h : w.step t a = some (t', w')) :
    (∃ fd, w = .out ∧ t' = t ∧ fd < t.fdContexts.length ∧ w' = access t fd) ∨
    (∃ fd, w = .out ∧ t' = t ∧ t.fdContexts.length ≤ fd ∧ w' = .grow fd) ∨
    (∃ fd, a = .grow ∧ w = .grow fd ∧ t' = t.contextResize (fd * 3 / 2) ∧ w' = access t' fd) ∨
    (a = .finish ∧ t' = t ∧ w' = .out) := by
  cases w with
  | out =>
    cases a with
    | lookup fd =>
      simp only [Adder.step] at h
      by_cases hlt : fd < t.fdContexts.length
      · rw [if_pos hlt] at h
        obtain ⟨rfl, rfl⟩ := Prod.mk.inj (Option.some.inj h)
        exact .inl ⟨fd, rfl, rfl, hlt, rfl⟩
      · rw [if_neg hlt] at h
        obtain ⟨rfl, rfl⟩ := Prod.mk.inj (Option.some.inj h)
        exact .inr (.inl ⟨fd, rfl, rfl, not_lt.1 hlt, rfl⟩)
    | _ => cases h
  | grow fd =>
    cases a with
    | grow =>
      obtain ⟨rfl, rfl⟩ := Prod.mk.inj (Option.some.inj h)
      exact .inr (.inr (.inl ⟨fd, rfl, rfl, rfl, rfl⟩))
    | _ => cases h
  | holds fd p =>
    cases a with
    | finish =>
      obtain ⟨rfl, rfl⟩ := Prod.mk.inj (Option.some.inj h)
      exact .inr (.inr (.inr ⟨rfl, rfl, rfl⟩))
    | _ => cases h
  | outOfBounds fd => cases a <;> cases h

/-- What a thread knows of the vector: it grows only for a descriptor beyond the first 32. -/
structure Adder.Sound (w : Adder) : Prop where
  grow : ∀ fd, w = .grow fd → 32 ≤ fd
  bounds : ∀ fd, w ≠ .outOfBounds fd

/-- There are no null pointers, and every access is in bounds. -/
structure FdTable.Inv (s : Pool ι FdTable Adder) : Prop where
  nonnull : none ∉ s.shared.fdContexts
  length : 32 ≤ s.shared.fdContexts.length
  sound : ∀ i, (s.thread i).Sound

theorem Adder.sound_access {t : FdTable} {fd : ℕ} (h : fd < t.fdContexts.length) :
    (access t fd).Sound := by
  obtain ⟨p, -, hp⟩ := access_of_lt h
  rw [hp]
  exact ⟨nofun, nofun⟩

section

variable {s s' : Pool ι FdTable Adder} {G : Pool ι FdTable Adder → PoolAct ι AdderAct Empty → Prop}

/-- The vector never gets shorter than 32, so `fd * 1.5` is more than `fd` where it is used. -/
theorem FdTable.inv_of_reachable (hr : adders.ReachableWhen G s) : FdTable.Inv s := by
  refine hr.invariant (fun s hs => ?_) fun s a s' _ h _ hst => ?_
  · refine ⟨?_, ?_, fun i => ?_⟩
    · rw [hs.1]
      exact none_notMem_fill _ _
    · rw [hs.1]
      exact (length_contextResize _ _).ge
    · rw [hs.2 i]
      exact ⟨nofun, nofun⟩
  · rcases interleave_cases hst with ⟨i, b, t, w, rfl, hstep, rfl⟩ | ⟨e, -⟩
    · rcases Adder.step_cases hstep with ⟨fd, -, rfl, hlt, rfl⟩ | ⟨fd, -, rfl, hle, rfl⟩ |
        ⟨fd, -, hw, rfl, rfl⟩ | ⟨-, rfl, rfl⟩
      · exact ⟨h.nonnull, h.length, forall_update h.sound (Adder.sound_access hlt)⟩
      · refine ⟨h.nonnull, h.length, forall_update h.sound ⟨fun fd' heq => ?_, nofun⟩⟩
        obtain rfl := Adder.grow.inj heq
        exact h.length.trans hle
      · have hfd := (h.sound i).grow fd hw
        have hlen := length_contextResize s.shared (fd * 3 / 2)
        refine ⟨none_notMem_fill _ _, ?_, forall_update h.sound (Adder.sound_access ?_)⟩
        · rw [hlen]
          omega
        · rw [hlen]
          omega
      · exact ⟨h.nonnull, h.length, forall_update h.sound ⟨nofun, nofun⟩⟩
    · exact nomatch e

theorem prefix_of_step (hi : FdTable.Inv s) {a : PoolAct ι AdderAct Empty} (hg : Grows s a)
    (hst : adders.step s a = some s') : s.shared.fdContexts <+: s'.shared.fdContexts := by
  rcases interleave_cases hst with ⟨i, b, t, w, rfl, hstep, rfl⟩ | ⟨e, -⟩
  · rcases Adder.step_cases hstep with ⟨fd, -, rfl, -, -⟩ | ⟨fd, -, rfl, -, -⟩ |
      ⟨fd, rfl, hw, rfl, -⟩ | ⟨-, rfl, -⟩
    · exact List.prefix_rfl
    · exact List.prefix_rfl
    · refine (FdTable.prefix_contextResize_iff hi.nonnull _).2 (hg _ ?_)
      rw [hw]
      rfl
    · exact List.prefix_rfl
  · exact nomatch e

/-- A context that a thread has taken out of the vector is the one of its descriptor. -/
def Adder.Registered (t : FdTable) (w : Adder) : Prop :=
  ∀ fd p, w = .holds fd p → t.fdContexts[fd]? = some p

omit [DecidableEq ι] in
theorem Adder.Registered.mono {t t' : FdTable} {w : Adder} (h : w.Registered t)
    (ht : t.fdContexts <+: t'.fdContexts) : w.Registered t' := by
  intro fd p hw
  obtain ⟨l, hl⟩ := ht
  have hlt : fd < t.fdContexts.length := (List.getElem?_eq_some_iff.1 (h fd p hw)).1
  rw [← hl, List.getElem?_append_left hlt]
  exact h fd p hw

omit [DecidableEq ι] in
theorem Adder.registered_access (t : FdTable) (fd : ℕ) : (access t fd).Registered t := by
  intro fd' p hw
  simp only [access] at hw
  split at hw
  · rename_i q hq
    obtain ⟨rfl, rfl⟩ := Adder.holds.inj hw
    exact hq
  · cases hw

theorem registered_of_grows (hr : adders.ReachableWhen Grows s) :
    ∀ i, (s.thread i).Registered s.shared := by
  refine hr.invariant (I := fun s => ∀ i, (s.thread i).Registered s.shared)
    (fun s hs i => ?_) fun s a s' hr h hg hst => ?_
  · rw [hs.2 i]
    exact nofun
  · have hpre := prefix_of_step (FdTable.inv_of_reachable hr) hg hst
    rcases interleave_cases hst with ⟨i, b, t, w, rfl, hstep, rfl⟩ | ⟨e, -⟩
    · refine forall_update (fun j => (h j).mono hpre) ?_
      rcases Adder.step_cases hstep with ⟨fd, -, rfl, -, rfl⟩ | ⟨fd, -, rfl, -, rfl⟩ |
        ⟨fd, -, -, rfl, rfl⟩ | ⟨-, rfl, rfl⟩
      · exact Adder.registered_access _ _
      · exact nofun
      · exact Adder.registered_access _ _
      · exact nofun
    · exact nomatch e

/-- **The vector only grows and keeps its contexts** in every run in which `contextResize` is called
with no less than its length: what a state holds is a prefix of what a later one holds, a context
that a thread uses is the one of its descriptor, and every access is in bounds.  And that is what it
takes: a call of `contextResize` keeps the contexts exactly if it meets the condition. -/
theorem contexts_kept (hr : adders.ReachableWhen Grows s) :
    (∀ s', adders.Leads Grows s s' → s.shared.fdContexts <+: s'.shared.fdContexts) ∧
      (∀ i fd p, s.thread i = .holds fd p → s.shared.fdContexts[fd]? = some p) ∧
      (∀ i fd, s.thread i ≠ .outOfBounds fd) ∧
      ∀ i s', adders.step s (.thread i .grow) = some s' →
        (s.shared.fdContexts <+: s'.shared.fdContexts ↔ Grows s (.thread i .grow)) := by
  have hi := FdTable.inv_of_reachable hr
  refine ⟨fun s' hl => ?_, registered_of_grows hr, fun i => (hi.sound i).bounds, fun i s' hst => ?_⟩
  · exact hl.rel (R := fun s s' => s.shared.fdContexts <+: s'.shared.fdContexts) hr
      (fun _ => List.prefix_rfl) (fun _ _ _ => List.IsPrefix.trans)
      fun s a s' hr hg hst => prefix_of_step (FdTable.inv_of_reachable hr) hg hst
  · refine ⟨fun hpre size hsize => ?_, fun hg => prefix_of_step hi hg hst⟩
    rcases interleave_cases hst with ⟨j, b, t, w, hj, hstep, rfl⟩ | ⟨e, -⟩
    · obtain ⟨rfl, rfl⟩ := PoolAct.thread.inj hj
      rcases Adder.step_cases hstep with ⟨fd, hw, -⟩ | ⟨fd, hw, -⟩ |
        ⟨fd, -, hw, rfl, -⟩ | ⟨hb, -⟩
      · rw [hw] at hsize
        cases hsize
      · rw [hw] at hsize
        cases hsize
      · rw [hw] at hsize
        obtain rfl := Option.some.inj hsize
        exact (FdTable.prefix_contextResize_iff hi.nonnull _).1 hpre
      · cases hb
    · exact nomatch e

end

/-- Two threads register descriptors beyond the vector, one after the other. -/
def inOrder : List (PoolAct (Fin 2) AdderAct Empty) :=
  [.thread 0 (.lookup 40), .thread 0 .grow, .thread 1 (.lookup 60), .thread 1 .grow,
    .thread 0 .finish, .thread 0 (.lookup 60)]

theorem contexts_kept_in_order :
    ∃ s : Pool (Fin 2) FdTable Adder,
      adders.run Grows ⟨.new, fun _ => .out⟩ inOrder = some s ∧
        s.thread 0 = s.thread 1 ∧ s.shared.fdContexts[60]? = some (some 60) := by
  obtain ⟨s, hrun⟩ : ∃ s : Pool (Fin 2) FdTable Adder,
      adders.run Grows ⟨.new, fun _ => .out⟩ inOrder = some s :=
    Option.isSome_iff_exists.1 (by decide +kernel)
  have hs : (adders.run Grows (⟨.new, fun _ => .out⟩ : Pool (Fin 2) FdTable Adder) inOrder).map
      (fun s => (s.thread 0, s.thread 1)) = some (.holds 60 (some 60), .holds 60 (some 60)) := by
    decide +kernel
  rw [hrun] at hs
  obtain ⟨h0, h1⟩ := Prod.mk.inj (Option.some.inj hs)
  have hr : adders.ReachableWhen Grows s :=
    System.reachableWhen_of_run ⟨rfl, fun _ => rfl⟩ hrun
  exact ⟨s, hrun, h0.trans h1.symm, (contexts_kept hr).2.1 0 60 _ h0⟩

/-- Both find the vector too short, and the one with the larger descriptor resizes it first. -/
def outOfOrder : List (PoolAct (Fin 2) AdderAct Empty) :=
  [.thread 0 (.lookup 40), .thread 1 (.lookup 60), .thread 1 .grow, .thread 1 .finish]

/-- The other one makes it shorter again. -/
def shrinking : List (PoolAct (Fin 2) AdderAct Empty) := [.thread 0 .grow]

/-- The context of descriptor 60 is lost, and the next `addEvent` gets another one. -/
def replacing : List (PoolAct (Fin 2) AdderAct Empty) := [.thread 1 (.lookup 60), .thread 1 .grow]

theorem contexts_lost :
    ∃ s s' s'' : Pool (Fin 2) FdTable Adder, adders.Reachable s ∧
      adders.Leads (fun _ _ => True) s s' ∧ adders.Leads (fun _ _ => True) s' s'' ∧
      s.shared.fdContexts.length = 90 ∧ s'.shared.fdContexts.length = 60 ∧
      s.shared.fdContexts[60]? = some (some 60) ∧ s''.shared.fdContexts[60]? = some (some 90) := by
  have hrun : ((adders.run (fun _ _ => True)
      (⟨.new, fun _ => .out⟩ : Pool (Fin 2) FdTable Adder) outOfOrder).bind fun s =>
        (adders.run (fun _ _ => True) s shrinking).bind fun s' =>
          (adders.run (fun _ _ => True) s' replacing).map fun s'' =>
            (s.shared.fdContexts.length, s'.shared.fdContexts.length, s.shared.fdContexts[60]?,
              s''.shared.fdContexts[60]?)) = some (90, 60, some (some 60), some (some 90)) := by
    decide +kernel
  obtain ⟨s, hs, hrun⟩ := Option.bind_eq_some_iff.1 hrun
  obtain ⟨s', hs', hrun⟩ := Option.bind_eq_some_iff.1 hrun
  obtain ⟨s'', hs'', hrun⟩ := Option.map_eq_some_iff.1 hrun
  obtain ⟨h1, h2⟩ := Prod.mk.inj hrun
  obtain ⟨h2, h3⟩ := Prod.mk.inj h2
  obtain ⟨h3, h4⟩ := Prod.mk.inj h3
  exact ⟨s, s', s'', System.reachableWhen_of_run ⟨rfl, fun _ => rfl⟩ hs, System.Leads.refl.run hs',
    System.Leads.refl.run hs'', h1, h2, h3, h4⟩

end IOManager

end YXTWebCpp
