import YXTWebCpp.LTS.Threads
import YXTWebCpp.Timer.Operations

/-!
# Timers used by several threads

The sections of `cancel`, `refresh`, `reset` and `listExpiredCb` that hold the lock, interleaved.
`reset` gives the lock up between erasing the timer and adding it again; a `cancel` that comes in
between finds a callback, but no timer in the set, and erases the end iterator.

* `TimerUse` : the timers, and what has happened to each of them.
* `Resetter` : where a thread stands in `reset`.
* `users` : all interleavings of any number of threads.
* `Hits` : `cancel` finds the timer in the set, or finds no callback.
* `cancelled_stays` : **then a cancelled timer stays cancelled**, and only then.

A run is followed past an erase of the end iterator as if it had done nothing, and `undefined` is
set.
-/

namespace YXTWebCpp

variable {Cb : Type*}

/-- The timers and their history.  A timer is named by its address, which no other one gets. -/
structure TimerUse (Cb : Type*) where
  /-- The timers. -/
  tm : TimerManager Cb
  /-- The timers that there have been. -/
  known : ℕ → Bool
  /-- A `cancel` of the timer has returned true. -/
  cancelled : ℕ → Bool
  /-- The timers that were collected after they had been cancelled. -/
  late : List ℕ
  /-- The end iterator was erased. -/
  undefined : Bool

/-- Where a thread stands in `reset`. -/
inductive Resetter where
  /-- Not in `reset`. -/
  | out
  /-- About to take the lock and to erase the timer. -/
  | erasing (p ms : ℕ) (fromNow : Bool)
  /-- It has erased the timer, and is about to add it again. -/
  | adding (p ms : ℕ) (fromNow : Bool)
  deriving DecidableEq

/-- The steps of a thread. -/
inductive TimerStep (Cb : Type*) where
  /-- `addTimer` at clock `now`, the new timer at `p`. -/
  | add (now p ms : ℕ) (cb : Option Cb) (recurring : Bool)
  /-- `cancel` -/
  | cancel (p : ℕ)
  /-- `refresh` -/
  | refresh (now p : ℕ)
  /-- `reset`: the test of the period. -/
  | reset (p ms : ℕ) (fromNow : Bool)
  /-- `reset`: the section that erases the timer. -/
  | erase
  /-- `reset`: the new deadline, and `addTimer`. -/
  | addAgain (now : ℕ)
  /-- `listExpiredCb` -/
  | expire (now p₀ : ℕ)
  deriving DecidableEq

namespace TimerUse

/-- `cancel` -/
def cancel (u : TimerUse Cb) (p : ℕ) : TimerUse Cb :=
  match u.tm.cancel p with
  | some (true, tm) => { u with tm := tm, cancelled := Function.update u.cancelled p true }
  | some (false, _) => u
  | none => { u with
      tm := { u.tm with heap := Function.update u.tm.heap p { u.tm.heap p with cb := none } }
      cancelled := Function.update u.cancelled p true
      undefined := true }

/-- `listExpiredCb` -/
def expire (u : TimerUse Cb) (now p₀ : ℕ) : TimerUse Cb :=
  let collected := u.tm.timers.filter fun q => decide ((u.tm.heap q).next ≤ now)
  { u with
    tm := (u.tm.listExpiredCb now p₀).1
    late := u.late ++ collected.filter u.cancelled }

end TimerUse

/-- A step of a thread. -/
def Resetter.step (u : TimerUse Cb) : Resetter → TimerStep Cb → Option (TimerUse Cb × Resetter)
  | .out, .add now p ms cb recurring =>
    if u.known p then none
    else some ({ u with
      tm := (u.tm.add now p ms cb recurring).1
      known := Function.update u.known p true }, .out)
  | .out, .cancel p => if u.known p then some (u.cancel p, .out) else none
  | .out, .refresh now p =>
    if u.known p then some ({ u with tm := (u.tm.refresh now p).2 }, .out) else none
  | .out, .reset p ms fromNow =>
    if u.known p then
      some (u, if u.tm.resetSkips p ms fromNow then .out else .erasing p ms fromNow)
    else none
  | .erasing p ms fromNow, .erase =>
    let r := u.tm.resetErase p
    some ({ u with tm := r.2 }, if r.1 then .adding p ms fromNow else .out)
  | .adding p ms fromNow, .addAgain now =>
    some ({ u with tm := (u.tm.resetAdd now p ms fromNow).1 }, .out)
  | .out, .expire now p₀ => some (u.expire now p₀, .out)
  | _, _ => none

variable {ι : Type*} [DecidableEq ι]

/-- All interleavings of the threads `ι`. -/
def users : System (Pool ι (TimerUse Cb) Resetter) (PoolAct ι (TimerStep Cb) Empty) :=
  interleave
    (fun s => (∃ heap, s.shared = ⟨⟨heap, [], 0⟩, fun _ => false, fun _ => false, [], false⟩) ∧
      ∀ i, s.thread i = .out)
    (fun _ u w => w.step u) fun _ e => nomatch e

/-- `cancel` finds the timer in the set, or finds no callback. -/
def Hits (s : Pool ι (TimerUse Cb) Resetter) : PoolAct ι (TimerStep Cb) Empty → Prop
  | .thread _ (.cancel p) => (s.shared.tm.heap p).cb.isSome = true → p ∈ s.shared.tm.timers
  | _ => True

instance (s : Pool ι (TimerUse Cb) Resetter) :
    (a : PoolAct ι (TimerStep Cb) Empty) → Decidable (Hits s a)
  | .thread _ (.cancel p) => inferInstanceAs
    (Decidable ((s.shared.tm.heap p).cb.isSome = true → p ∈ s.shared.tm.timers))
  | .thread _ (.add _ _ _ _ _) | .thread _ (.refresh _ _) | .thread _ (.reset _ _ _)
  | .thread _ .erase | .thread _ (.addAgain _) | .thread _ (.expire _ _) =>
    inferInstanceAs (Decidable True)

/-! ### Steps -/

/-- What a step of a thread can do. -/
inductive ResetterStep (u : TimerUse Cb) :
    TimerStep Cb → Resetter → TimerUse Cb → Resetter → Prop
  | add {now p ms : ℕ} {cb : Option Cb} {recurring : Bool} : u.known p = false →
      ResetterStep u (.add now p ms cb recurring) .out
        { u with
          tm := (u.tm.add now p ms cb recurring).1
          known := Function.update u.known p true } .out
  | cancel {p : ℕ} : u.known p = true → ResetterStep u (.cancel p) .out (u.cancel p) .out
  | refresh {now p : ℕ} :
      ResetterStep u (.refresh now p) .out { u with tm := (u.tm.refresh now p).2 } .out
  | reset {p ms : ℕ} {fromNow : Bool} : u.known p = true →
      ResetterStep u (.reset p ms fromNow) .out u
        (if u.tm.resetSkips p ms fromNow then .out else .erasing p ms fromNow)
  | erase {p ms : ℕ} {fromNow : Bool} :
      ResetterStep u .erase (.erasing p ms fromNow) { u with tm := (u.tm.resetErase p).2 }
        (if (u.tm.resetErase p).1 then .adding p ms fromNow else .out)
  | addAgain {p ms now : ℕ} {fromNow : Bool} :
      ResetterStep u (.addAgain now) (.adding p ms fromNow)
        { u with tm := (u.tm.resetAdd now p ms fromNow).1 } .out
  | expire {now p₀ : ℕ} : ResetterStep u (.expire now p₀) .out (u.expire now p₀) .out

theorem Resetter.step_cases {u u' : TimerUse Cb} {w w' : Resetter} {a : TimerStep Cb}
    (h : w.step u a = some (u', w')) : ResetterStep u a w u' w' := by
  cases w with
  | out =>
    cases a with
    | add now p ms cb recurring =>
      simp only [Resetter.step] at h
      split_ifs at h with hp
      obtain ⟨rfl, rfl⟩ := Prod.mk.inj (Option.some.inj h)
      exact .add (Bool.eq_false_iff.2 hp)
    | cancel p =>
      simp only [Resetter.step] at h
      split_ifs at h with hp
      obtain ⟨rfl, rfl⟩ := Prod.mk.inj (Option.some.inj h)
      exact .cancel hp
    | refresh now p =>
      simp only [Resetter.step] at h
      split_ifs at h
      obtain ⟨rfl, rfl⟩ := Prod.mk.inj (Option.some.inj h)
      exact .refresh
    | reset p ms fromNow =>
      simp only [Resetter.step] at h
      by_cases hp : u.known p = true
      · rw [if_pos hp] at h
        obtain ⟨rfl, rfl⟩ := Prod.mk.inj (Option.some.inj h)
        exact .reset hp
      · rw [if_neg hp] at h
        cases h
    | expire now p₀ =>
      obtain ⟨rfl, rfl⟩ := Prod.mk.inj (Option.some.inj h)
      exact .expire
    | erase => cases h
    | addAgain now => cases h
  | erasing p ms fromNow =>
    cases a with
    | erase =>
      obtain ⟨rfl, rfl⟩ := Prod.mk.inj (Option.some.inj h)
      exact .erase
    | _ => cases h
  | adding p ms fromNow =>
    cases a with
    | addAgain now =>
      obtain ⟨rfl, rfl⟩ := Prod.mk.inj (Option.some.inj h)
      exact .addAgain
    | _ => cases h

/-- The timer that the thread is going to add again. -/
def Resetter.adds : Resetter → Option ℕ
  | .adding p _ _ => some p
  | _ => none

/-- The timer that the thread works on is one that there has been. -/
def Resetter.Knows (u : TimerUse Cb) : Resetter → Prop
  | .erasing p _ _ | .adding p _ _ => u.known p = true
  | .out => True

namespace TimerUse

/-- Timers that were cancelled have no callback and are not in the set. -/
structure Inv (u : TimerUse Cb) : Prop where
  sorted : u.tm.Sorted
  known : ∀ p, u.known p = false → p ∉ u.tm.timers ∧ u.cancelled p = false
  cancelled : ∀ p, u.cancelled p = true → (u.tm.heap p).cb = none ∧ p ∉ u.tm.timers
  late : u.late = []
  undefined : u.undefined = false

/-- The timer is not in the set, and has not been cancelled: a thread is going to add it again. -/
structure Waits (u : TimerUse Cb) (p : ℕ) : Prop where
  known : u.known p = true
  notMem : p ∉ u.tm.timers
  cancelled : u.cancelled p = false

variable {u : TimerUse Cb}

/-- A step that leaves the history alone and brings no cancelled timer back. -/
theorem Inv.frame (h : u.Inv) {tm : TimerManager Cb} (hs : tm.Sorted)
    (hmem : ∀ q, q ∈ tm.timers → q ∈ u.tm.timers ∨ u.Waits q)
    (hcb : ∀ q, (tm.heap q).cb = (u.tm.heap q).cb) : Inv { u with tm := tm } where
  sorted := hs
  known q hq := by
    refine ⟨fun hm => ?_, (h.known q hq).2⟩
    rcases hmem q hm with hm | hm
    · exact (h.known q hq).1 hm
    · rw [hm.known] at hq
      cases hq
  cancelled q hq := by
    refine ⟨(hcb q).trans (h.cancelled q hq).1, fun hm => ?_⟩
    rcases hmem q hm with hm | hm
    · exact (h.cancelled q hq).2 hm
    · rw [hm.cancelled] at hq
      cases hq
  late := h.late
  undefined := h.undefined

theorem Inv.add (h : u.Inv) {p : ℕ} (hp : u.known p = false) (now ms : ℕ) (cb : Option Cb)
    (recurring : Bool) :
    Inv { u with
      tm := (u.tm.add now p ms cb recurring).1
      known := Function.update u.known p true } where
  sorted := h.sorted.add (h.known p hp).1 now ms cb recurring
  known q hq := by
    by_cases hqp : q = p
    · simp [hqp] at hq
    · simp only [Function.update_of_ne hqp] at hq
      refine ⟨fun hm => ?_, (h.known q hq).2⟩
      exact (h.known q hq).1 (((TimerManager.mem_setInsert ..).1 hm).resolve_left hqp)
  cancelled q hq := by
    have hqp : q ≠ p := by
      intro hqp
      rw [hqp, (h.known p hp).2] at hq
      cases hq
    refine ⟨?_, fun hm => ?_⟩
    · simp only [TimerManager.add, TimerManager.insert, Function.update_of_ne hqp]
      exact (h.cancelled q hq).1
    · exact (h.cancelled q hq).2 (((TimerManager.mem_setInsert ..).1 hm).resolve_left hqp)
  late := h.late
  undefined := h.undefined

/-- A `cancel` that finds the timer takes it out; one that finds no callback does nothing. -/
theorem cancel_of_hits {p : ℕ} (hhit : (u.tm.heap p).cb.isSome = true → p ∈ u.tm.timers) :
    (p ∈ u.tm.timers ∧ u.cancel p = { u with
        tm := { u.tm with
          heap := Function.update u.tm.heap p { u.tm.heap p with cb := none }
          timers := u.tm.timers.erase p }
        cancelled := Function.update u.cancelled p true }) ∨
      u.cancel p = u := by
  unfold cancel
  by_cases hcb : (u.tm.heap p).cb.isSome = true
  · rw [TimerManager.cancel_eq (hhit hcb) hcb]
    exact .inl ⟨hhit hcb, rfl⟩
  · rw [TimerManager.cancel_of_cb_none (by simpa using hcb)]
    exact .inr rfl

theorem Inv.cancel (h : u.Inv) {p : ℕ} (hp : u.known p = true)
    (hhit : (u.tm.heap p).cb.isSome = true → p ∈ u.tm.timers) : (u.cancel p).Inv := by
  rcases cancel_of_hits hhit with ⟨-, heq⟩ | heq
  · rw [heq]
    refine ⟨h.sorted.erase p _, fun q hq => ?_, fun q hq => ?_, h.late, h.undefined⟩
    · have hqp : q ≠ p := by
        rintro rfl
        simp only [hp] at hq
        cases hq
      simp only [Function.update_of_ne hqp]
      exact ⟨fun hm => (h.known q hq).1 (List.mem_of_mem_erase hm), (h.known q hq).2⟩
    · by_cases hqp : q = p
      · subst hqp
        exact ⟨by simp, h.sorted.notMem_erase q⟩
      · simp only [Function.update_of_ne hqp] at hq ⊢
        exact ⟨(h.cancelled q hq).1, fun hm => (h.cancelled q hq).2 (List.mem_of_mem_erase hm)⟩
  · rw [heq]
    exact h

/-- `listExpiredCb` collects no cancelled timer, since there is none in the set. -/
theorem Inv.expire (h : u.Inv) (now p₀ : ℕ) : (u.expire now p₀).Inv := by
  obtain ⟨hs, -, hheap, hmem⟩ := TimerManager.listExpiredCb_spec h.sorted now p₀
  have hframe := h.frame hs (fun q hq => .inl ((hmem q).1 hq).1) fun q => (hheap q).1
  refine ⟨hframe.sorted, hframe.known, hframe.cancelled, ?_, h.undefined⟩
  simp only [TimerUse.expire, h.late, List.nil_append]
  refine List.filter_eq_nil_iff.2 fun q hq hc => ?_
  exact (h.cancelled q hc).2 (List.mem_of_mem_filter hq)

end TimerUse

/-- What a step of a thread keeps, and what it leaves to the other threads. -/
structure StepKeeps (u u' : TimerUse Cb) (w w' : Resetter) : Prop where
  inv : u'.Inv
  known : ∀ p, u.known p = true → u'.known p = true
  knows : w'.Knows u'
  /-- A timer that another thread is going to add again still waits for that. -/
  waits : ∀ p, u.Waits p → w.adds ≠ some p → u'.Waits p
  /-- A timer that the thread is going to add again was in the set before. -/
  adds : ∀ p, w'.adds = some p → u'.Waits p ∧ p ∈ u.tm.timers

/-- The set has lost some timers, or got one that nobody waits for. -/
theorem StepKeeps.of_tm {u : TimerUse Cb} {tm : TimerManager Cb} {w w' : Resetter}
    (hinv : TimerUse.Inv { u with tm := tm }) (hw : w'.adds = none) (hknows : w'.Knows u)
    (hmem : ∀ q, q ∈ tm.timers → q ∈ u.tm.timers ∨ w.adds = some q) :
    StepKeeps u { u with tm := tm } w w' where
  inv := hinv
  known _ hp := hp
  knows := by cases w' <;> exact hknows
  waits p hp hne := ⟨hp.known, fun hm => (hmem p hm).elim hp.notMem hne, hp.cancelled⟩
  adds p hp := by
    rw [hw] at hp
    cases hp

theorem ResetterStep.keeps {u u' : TimerUse Cb} {w w' : Resetter} {a : TimerStep Cb}
    (hst : ResetterStep u a w u' w') (h : u.Inv) (hknows : w.Knows u)
    (hw : ∀ p, w.adds = some p → u.Waits p)
    (hhit : ∀ p, a = .cancel p → (u.tm.heap p).cb.isSome = true → p ∈ u.tm.timers) :
    StepKeeps u u' w w' := by
  cases hst with
  | @add now p ms cb recurring hp =>
    refine ⟨h.add hp now ms cb recurring, fun q hq => ?_, trivial, fun q hq _ => ?_, nofun⟩
    · by_cases hqp : q = p
      · simp [hqp]
      · simpa [hqp] using hq
    · have hqp : q ≠ p := by
        rintro rfl
        rw [hq.known] at hp
        cases hp
      refine ⟨by simpa [hqp] using hq.known, fun hm => ?_, hq.cancelled⟩
      exact hq.notMem (((TimerManager.mem_setInsert ..).1 hm).resolve_left hqp)
  | @cancel p hp =>
    refine ⟨h.cancel hp (hhit p rfl), ?_, trivial, fun q hq _ => ?_, nofun⟩
    · rcases TimerUse.cancel_of_hits (hhit p rfl) with ⟨-, heq⟩ | heq
      · rw [heq]
        exact fun _ hq => hq
      · rw [heq]
        exact fun _ hq => hq
    · rcases TimerUse.cancel_of_hits (hhit p rfl) with ⟨hmem, heq⟩ | heq
      · rw [heq]
        have hqp : q ≠ p := fun hqp => hq.notMem (hqp ▸ hmem)
        refine ⟨hq.known, fun hm => hq.notMem (List.mem_of_mem_erase hm), ?_⟩
        simp only [Function.update_of_ne hqp]
        exact hq.cancelled
      · rw [heq]
        exact hq
  | @refresh now p =>
    have hspec := TimerManager.refresh_spec u.tm now p
    exact .of_tm (h.frame (h.sorted.refresh now p) (fun q hq => .inl ((hspec q).1.1 hq))
      fun q => (hspec q).2) rfl trivial fun q hq => .inl ((hspec q).1.1 hq)
  | @reset p ms fromNow hp =>
    refine .of_tm h ?_ ?_ fun q hq => .inl hq
    · split_ifs <;> rfl
    · split_ifs
      · trivial
      · exact hp
  | @erase p ms fromNow =>
    have hmem : ∀ q, q ∈ (u.tm.resetErase p).2.timers → q ∈ u.tm.timers :=
      fun q hq => TimerManager.mem_of_mem_resetErase hq
    have hinv : TimerUse.Inv { u with tm := (u.tm.resetErase p).2 } :=
      h.frame (h.sorted.resetErase p) (fun q hq => .inl (hmem q hq))
        fun q => by rw [TimerManager.resetErase_heap]
    by_cases hc : (u.tm.heap p).cb.isSome = true ∧ p ∈ u.tm.timers
    · -- it was in the set, so it has not been cancelled
      rw [TimerManager.resetErase_of_pending hc.1 hc.2] at hinv hmem ⊢
      refine ⟨hinv, fun _ hq => hq, hknows, fun q hq _ =>
        ⟨hq.known, fun hm => hq.notMem (hmem q hm),
        hq.cancelled⟩, fun q hq => ?_⟩
      obtain rfl := Option.some.inj hq
      refine ⟨⟨hknows, h.sorted.notMem_erase p, ?_⟩, hc.2⟩
      by_contra hcan
      exact (h.cancelled p (by simpa using hcan)).2 hc.2
    · rw [TimerManager.resetErase_of_not_pending hc]
      exact .of_tm h rfl trivial fun q hq => .inl hq
  | @addAgain p ms now fromNow =>
    have hwait := hw p rfl
    have hspec := TimerManager.resetAdd_spec u.tm now p ms fromNow
    refine .of_tm (h.frame (h.sorted.resetAdd hwait.notMem now ms fromNow) (fun q hq => ?_)
      fun q => (hspec q).2) rfl trivial fun q hq => ?_
    · rcases (hspec q).1.1 hq with rfl | hq
      · exact .inr hwait
      · exact .inl hq
    · rcases (hspec q).1.1 hq with rfl | hq
      · exact .inr rfl
      · exact .inl hq
  | @expire now p₀ =>
    obtain ⟨-, -, -, hmem⟩ := TimerManager.listExpiredCb_spec h.sorted now p₀
    refine ⟨h.expire now p₀, fun _ hq => hq, trivial, fun q hq _ => ⟨hq.known, fun hm => ?_,
      hq.cancelled⟩, nofun⟩
    exact hq.notMem ((hmem q).1 hm).1

/-! ### Runs -/

/-- A timer waits for at most one thread to add it again. -/
structure UsersInv (s : Pool ι (TimerUse Cb) Resetter) : Prop where
  inv : s.shared.Inv
  knows : ∀ i, (s.thread i).Knows s.shared
  waits : ∀ i p, (s.thread i).adds = some p → s.shared.Waits p
  once : ∀ i j p, (s.thread i).adds = some p → (s.thread j).adds = some p → i = j

section

variable {s s' : Pool ι (TimerUse Cb) Resetter}

theorem UsersInv.step (h : UsersInv s) {i : ι} {u : TimerUse Cb} {w : Resetter}
    (hk : StepKeeps s.shared u (s.thread i) w) :
    UsersInv ⟨u, Function.update s.thread i w⟩ := by
  have hother : ∀ j, j ≠ i → ∀ p, (s.thread j).adds = some p → (s.thread i).adds ≠ some p :=
    fun j hj p hp hi => hj (h.once j i p hp hi)
  have hnew : ∀ j, j ≠ i → ∀ p, (s.thread j).adds = some p → w.adds ≠ some p :=
    fun j hj p hp hw => (h.waits j p hp).notMem (hk.adds p hw).2
  refine ⟨hk.inv, forall_update (fun j => ?_) hk.knows, fun j p hp => ?_, fun j k p hj hk' => ?_⟩
  · have := h.knows j
    cases hj : s.thread j with
    | out => trivial
    | erasing p _ _ =>
      rw [hj] at this
      exact hk.known p this
    | adding p _ _ =>
      rw [hj] at this
      exact hk.known p this
  · by_cases hji : j = i
    · simp only [hji, Function.update_self] at hp
      exact (hk.adds p hp).1
    · simp only [Function.update_of_ne hji] at hp
      exact hk.waits p (h.waits j p hp) (hother j hji p hp)
  · by_cases hji : j = i
    · by_cases hki : k = i
      · rw [hji, hki]
      · simp only [hji, Function.update_self, Function.update_of_ne hki] at hj hk'
        exact absurd hj (hnew k hki p hk')
    · by_cases hki : k = i
      · simp only [hki, Function.update_self, Function.update_of_ne hji] at hj hk'
        exact absurd hk' (hnew j hji p hj)
      · simp only [Function.update_of_ne hji, Function.update_of_ne hki] at hj hk'
        exact h.once j k p hj hk'

theorem usersInv_of_hits (hr : users.ReachableWhen Hits s) : UsersInv s := by
  refine hr.invariant (fun s hs => ?_) fun s a s' _ h hg hst => ?_
  · obtain ⟨⟨heap, hs⟩, hw⟩ := hs
    refine ⟨?_, fun i => by rw [hw i]; trivial, fun i p hp => ?_, fun i j p hp => ?_⟩
    · rw [hs]
      exact ⟨List.Pairwise.nil, fun p _ => ⟨List.not_mem_nil, rfl⟩, nofun, rfl, rfl⟩
    · rw [hw i] at hp
      cases hp
    · rw [hw i] at hp
      cases hp
  · rcases interleave_cases hst with ⟨i, b, u, w, rfl, hstep, rfl⟩ | ⟨e, -⟩
    · refine h.step ((Resetter.step_cases hstep).keeps h.inv (h.knows i) (h.waits i) ?_)
      rintro p rfl
      exact hg
    · exact nomatch e

/-- **A cancelled timer stays cancelled** in every run in which `cancel` finds the timer in the set
or finds no callback: no timer is in the set twice, a timer is not in the set once a `cancel` of it
has returned true, no later `listExpiredCb` collects it, and the end iterator is never erased.  And
that is what it takes: a `cancel` does not erase the end iterator exactly if it meets the
condition. -/
theorem cancelled_stays (hr : users.ReachableWhen Hits s) :
    s.shared.tm.timers.Nodup ∧
      (∀ p, s.shared.cancelled p = true → p ∉ s.shared.tm.timers) ∧
      s.shared.late = [] ∧ s.shared.undefined = false ∧
      ∀ i p s', users.step s (.thread i (.cancel p)) = some s' →
        (s'.shared.undefined = false ↔ Hits s (.thread i (.cancel p))) := by
  have h := usersInv_of_hits hr
  refine ⟨h.inv.sorted.nodup, fun p hp => (h.inv.cancelled p hp).2, h.inv.late, h.inv.undefined,
    fun i p s' hst => ⟨fun hu hcb => ?_, fun hg => ?_⟩⟩
  · by_contra hp
    rcases interleave_cases hst with ⟨j, b, u, w, hj, hstep, rfl⟩ | ⟨e, -⟩
    · obtain ⟨rfl, rfl⟩ := PoolAct.thread.inj hj
      have hst' := Resetter.step_cases hstep
      generalize s.thread i = w₀ at hst'
      cases hst' with
      | cancel hknown => simp [TimerUse.cancel, TimerManager.cancel_eq_none hcb hp] at hu
    · exact nomatch e
  · exact (usersInv_of_hits (hr.step hg hst)).inv.undefined

end

/-- No timer yet. -/
def unusedTimers : Pool (Fin 2) (TimerUse ℕ) Resetter :=
  ⟨⟨⟨fun _ => .new 0 0 none false, [], 0⟩, fun _ => false, fun _ => false, [], false⟩,
    fun _ => .out⟩

/-- A thread resets a timer, and the other one cancels it afterwards; another `reset` does
nothing. -/
def cancelAfterReset : List (PoolAct (Fin 2) (TimerStep ℕ) Empty) :=
  [.thread 0 (.add 1 5 100 (some 7) false), .thread 0 (.reset 5 200 true), .thread 0 .erase,
    .thread 0 (.addAgain 50), .thread 1 (.cancel 5), .thread 0 (.reset 5 300 true),
    .thread 0 .erase, .thread 1 (.expire 400 3)]

theorem cancelled_stays_after_reset :
    ∃ s, users.run Hits unusedTimers cancelAfterReset = some s ∧
      s.shared.cancelled 5 = true ∧ 5 ∉ s.shared.tm.timers ∧ s.shared.late = [] := by
  obtain ⟨s, hrun⟩ : ∃ s, users.run Hits unusedTimers cancelAfterReset = some s :=
    Option.isSome_iff_exists.1 (by decide +kernel)
  have hs : (users.run Hits unusedTimers cancelAfterReset).map (fun s => s.shared.cancelled 5) =
      some true := by
    decide +kernel
  rw [hrun] at hs
  have hc := Option.some.inj hs
  have h := cancelled_stays
    (System.reachableWhen_of_run (M := users) ⟨⟨_, rfl⟩, fun _ => rfl⟩ hrun)
  exact ⟨s, hrun, hc, h.2.1 5 hc, h.2.2.1⟩

/-- A thread cancels a timer that another one has erased to add it again.  The timer comes back, and
is collected. -/
def cancelInReset : List (PoolAct (Fin 2) (TimerStep ℕ) Empty) :=
  [.thread 0 (.add 1 5 100 (some 7) true), .thread 0 (.reset 5 200 true), .thread 0 .erase,
    .thread 1 (.cancel 5), .thread 0 (.addAgain 50), .thread 1 (.expire 300 3)]

theorem cancelled_comes_back :
    ∃ s : Pool (Fin 2) (TimerUse ℕ) Resetter, users.Reachable s ∧ s.shared.cancelled 5 = true ∧
      5 ∈ s.shared.tm.timers ∧ s.shared.late = [5] ∧ s.shared.undefined = true := by
  have hs : (users.run (fun _ _ => True) unusedTimers cancelInReset).map (fun s =>
      (s.shared.cancelled 5, s.shared.tm.timers, s.shared.late, s.shared.undefined)) =
      some (true, [5], [5], true) := by
    decide +kernel
  obtain ⟨s, hrun, hs⟩ := Option.map_eq_some_iff.1 hs
  obtain ⟨h1, h2⟩ := Prod.mk.inj hs
  obtain ⟨h2, h3⟩ := Prod.mk.inj h2
  obtain ⟨h3, h4⟩ := Prod.mk.inj h3
  exact ⟨s, System.reachableWhen_of_run ⟨⟨_, rfl⟩, fun _ => rfl⟩ hrun, h1, by simp [h2], h3, h4⟩

end YXTWebCpp
