import YXTWebCpp.LTS.Basic
import YXTWebCpp.Timer.Basic

/-!
# Refreshing and resetting timers

`Timer::refresh` and `Timer::reset`, and all operations on timers as a transition system, one at a
time.  Whether a timer is pending is kept twice: it is in `m_timers`, and its `m_cb` is not empty.

* `TimerManager.refresh`, `TimerManager.reset` : as in the source; `reset` erases the timer in one
  section, and adds it again in another.
* `TimerManager.Live` : the callback of a timer is not empty exactly when it is pending.
* `Timers.Lasting` : only recurring timers are collected, and every timer has a callback.
* `Timers.live_of_lasting` : **then callbacks and membership agree in every run**, so that `cancel`,
  `refresh` and `reset` tell whether the timer was pending; and only then.
-/

namespace YXTWebCpp

namespace TimerManager

variable {Cb : Type*}

/-- `addTimer(ms, cb, recurring)` at clock `now`, the new timer at address `p`; the function may be
empty. -/
def add (tm : TimerManager Cb) (now p ms : ℕ) (cb : Option Cb) (recurring : Bool) :
    TimerManager Cb × Bool :=
  { tm with heap := Function.update tm.heap p (.new now ms cb recurring) }.insert p

/-- `Timer::refresh` at clock `now`. -/
def refresh (tm : TimerManager Cb) (now p : ℕ) : Bool × TimerManager Cb :=
  if (tm.heap p).cb.isNone then (false, tm)
  else
    match setFind tm.heap p tm.timers with
    | none => (false, tm)
    | some q =>
      let timers := tm.timers.erase q
      let heap := Function.update tm.heap p
        { tm.heap p with next := (now + (tm.heap p).ms) % 2 ^ 64 }
      (true, { tm with heap := heap, timers := setInsert heap p timers })

/-- The section of `Timer::reset` that erases the timer, and whether it has. -/
def resetErase (tm : TimerManager Cb) (p : ℕ) : Bool × TimerManager Cb :=
  if (tm.heap p).cb.isNone then (false, tm)
  else
    match setFind tm.heap p tm.timers with
    | none => (false, tm)
    | some q => (true, { tm with timers := tm.timers.erase q })

/-- The rest of `Timer::reset` at clock `now`: the new deadline, and `addTimer`. -/
def resetAdd (tm : TimerManager Cb) (now p ms : ℕ) (fromNow : Bool) : TimerManager Cb × Bool :=
  let t := tm.heap p
  let start := if fromNow then now else (t.next + 2 ^ 64 - t.ms) % 2 ^ 64
  { tm with
    heap := Function.update tm.heap p { t with ms := ms, next := (start + ms) % 2 ^ 64 } }.insert p

/-- `Timer::reset` does nothing for the period that the timer has. -/
def resetSkips (tm : TimerManager Cb) (p ms : ℕ) (fromNow : Bool) : Bool :=
  decide (ms = (tm.heap p).ms) && !fromNow

/-- `Timer::reset(ms, from_now)` at clock `now`. -/
def reset (tm : TimerManager Cb) (now p ms : ℕ) (fromNow : Bool) : Bool × TimerManager Cb :=
  if tm.resetSkips p ms fromNow then (true, tm)
  else
    let r := tm.resetErase p
    if r.1 then (true, (r.2.resetAdd now p ms fromNow).1) else (false, r.2)

/-! ### What they do -/

theorem addTimer_eq_add (tm : TimerManager Cb) (now p ms : ℕ) (cb : Cb) (recurring : Bool) :
    tm.addTimer now p ms cb recurring = tm.add now p ms (some cb) recurring :=
  rfl

theorem setFind_eq (heap : ℕ → Timer Cb) (p : ℕ) (l : List ℕ) :
    setFind heap p l = if p ∈ l then some p else none := by
  by_cases hp : p ∈ l
  · rw [if_pos hp]
    exact (setFind_eq_some_iff heap p l).2 hp
  · rw [if_neg hp, ← Option.not_isSome_iff_eq_none]
    intro hs
    obtain ⟨q, hq⟩ := Option.isSome_iff_exists.1 hs
    have hmem := List.mem_of_find?_eq_some hq
    have heq := List.find?_some hq
    simp only [Bool.and_eq_true, Bool.not_eq_true'] at heq
    rw [eq_of_not_less heq.1 heq.2] at hp
    exact hp hmem

section

variable {tm : TimerManager Cb} {p : ℕ}

theorem refresh_of_pending (hcb : (tm.heap p).cb.isSome = true) (hp : p ∈ tm.timers) (now : ℕ) :
    tm.refresh now p =
      (true, { tm with
        heap := Function.update tm.heap p
          { tm.heap p with next := (now + (tm.heap p).ms) % 2 ^ 64 }
        timers := setInsert (Function.update tm.heap p
          { tm.heap p with next := (now + (tm.heap p).ms) % 2 ^ 64 }) p (tm.timers.erase p) }) := by
  unfold refresh
  rw [if_neg (by simpa [Option.isSome_iff_ne_none] using hcb), setFind_eq, if_pos hp]

theorem refresh_of_not_pending (h : ¬ ((tm.heap p).cb.isSome = true ∧ p ∈ tm.timers)) (now : ℕ) :
    tm.refresh now p = (false, tm) := by
  unfold refresh
  split_ifs with hcb
  · rfl
  · have hp : p ∉ tm.timers := fun hp => h ⟨by simpa [Option.isSome_iff_ne_none] using hcb, hp⟩
    rw [setFind_eq, if_neg hp]

theorem resetErase_of_pending (hcb : (tm.heap p).cb.isSome = true) (hp : p ∈ tm.timers) :
    tm.resetErase p = (true, { tm with timers := tm.timers.erase p }) := by
  unfold resetErase
  rw [if_neg (by simpa [Option.isSome_iff_ne_none] using hcb), setFind_eq, if_pos hp]

theorem resetErase_of_not_pending (h : ¬ ((tm.heap p).cb.isSome = true ∧ p ∈ tm.timers)) :
    tm.resetErase p = (false, tm) := by
  unfold resetErase
  split_ifs with hcb
  · rfl
  · have hp : p ∉ tm.timers := fun hp => h ⟨by simpa [Option.isSome_iff_ne_none] using hcb, hp⟩
    rw [setFind_eq, if_neg hp]

theorem cancel_of_cb_none (hcb : (tm.heap p).cb = none) : tm.cancel p = some (false, tm) := by
  unfold cancel
  rw [hcb]
  rfl

/-- `cancel` of a timer with a callback that is not in the set erases the end iterator. -/
theorem cancel_eq_none (hcb : (tm.heap p).cb.isSome = true) (hp : p ∉ tm.timers) :
    tm.cancel p = none := by
  unfold cancel
  rw [if_pos hcb]
  simp only [setFind_eq, if_neg hp]

end

/-- Refreshing changes the deadline only. -/
theorem refresh_spec (tm : TimerManager Cb) (now p q : ℕ) :
    (q ∈ (tm.refresh now p).2.timers ↔ q ∈ tm.timers) ∧
      ((tm.refresh now p).2.heap q).cb = (tm.heap q).cb := by
  by_cases hc : (tm.heap p).cb.isSome = true ∧ p ∈ tm.timers
  · rw [refresh_of_pending hc.1 hc.2]
    simp only [mem_setInsert]
    by_cases hq : q = p
    · simp [hq, hc.2]
    · simp [hq, List.mem_erase_of_ne hq]
  · rw [refresh_of_not_pending hc]
    exact ⟨Iff.rfl, rfl⟩

theorem resetErase_heap (tm : TimerManager Cb) (p : ℕ) : (tm.resetErase p).2.heap = tm.heap := by
  by_cases hc : (tm.heap p).cb.isSome = true ∧ p ∈ tm.timers
  · rw [resetErase_of_pending hc.1 hc.2]
  · rw [resetErase_of_not_pending hc]

theorem mem_of_mem_resetErase {tm : TimerManager Cb} {p q : ℕ}
    (h : q ∈ (tm.resetErase p).2.timers) : q ∈ tm.timers := by
  by_cases hc : (tm.heap p).cb.isSome = true ∧ p ∈ tm.timers
  · rw [resetErase_of_pending hc.1 hc.2] at h
    exact List.mem_of_mem_erase h
  · rw [resetErase_of_not_pending hc] at h
    exact h

theorem resetAdd_spec (tm : TimerManager Cb) (now p ms : ℕ) (fromNow : Bool) (q : ℕ) :
    (q ∈ (tm.resetAdd now p ms fromNow).1.timers ↔ q = p ∨ q ∈ tm.timers) ∧
      ((tm.resetAdd now p ms fromNow).1.heap q).cb = (tm.heap q).cb := by
  refine ⟨mem_setInsert _ p q tm.timers, ?_⟩
  by_cases hq : q = p
  · simp [resetAdd, insert, hq]
  · simp [resetAdd, insert, hq]

/-! ### Callbacks and membership -/

/-- The callback of a timer is not empty exactly when the timer is pending. -/
def Live (tm : TimerManager Cb) : Prop := ∀ p, (tm.heap p).cb.isSome = true ↔ p ∈ tm.timers

section

variable {tm : TimerManager Cb}

/-- A timer is put into the set, with what the heap holds of it replaced. -/
theorem Live.put (h : tm.Live) {p : ℕ} {l : List ℕ} (hl : ∀ q, q ≠ p → (q ∈ l ↔ q ∈ tm.timers))
    (t : Timer Cb) :
    Live { tm with
      heap := Function.update tm.heap p t
      timers := setInsert (Function.update tm.heap p t) p l } ↔ t.cb.isSome = true := by
  constructor
  · intro h'
    simpa [mem_setInsert] using (h' p).2
  · intro ht q
    simp only [mem_setInsert]
    by_cases hq : q = p
    · simp [hq, ht]
    · simp only [Function.update_of_ne hq, hq, false_or, hl q hq]
      exact h q

theorem Live.add_iff (h : tm.Live) (now p ms : ℕ) (cb : Option Cb) (recurring : Bool) :
    (tm.add now p ms cb recurring).1.Live ↔ cb.isSome = true :=
  h.put (fun _ _ => Iff.rfl) (.new now ms cb recurring)

theorem Live.cancel (h : tm.Live) (hs : tm.Sorted) (p : ℕ) :
    ∃ r, tm.cancel p = some r ∧ (r.1 = true ↔ p ∈ tm.timers) ∧ (r.1 = false → r.2 = tm) ∧
      r.2.Live := by
  by_cases hp : p ∈ tm.timers
  · refine ⟨_, cancel_eq hp ((h p).2 hp), by simp [hp], nofun, fun q => ?_⟩
    by_cases hq : q = p
    · subst hq
      simp [hs.nodup.mem_erase_iff]
    · simp only [Function.update_of_ne hq, List.mem_erase_of_ne hq]
      exact h q
  · have hcb : (tm.heap p).cb = none := by simpa using mt (h p).1 hp
    exact ⟨_, cancel_of_cb_none hcb, by simp [hp], fun _ => rfl, h⟩

theorem Live.refresh (h : tm.Live) (now p : ℕ) :
    ((tm.refresh now p).1 = true ↔ p ∈ tm.timers) ∧
      ((tm.refresh now p).1 = false → (tm.refresh now p).2 = tm) ∧ (tm.refresh now p).2.Live := by
  by_cases hp : p ∈ tm.timers
  · rw [refresh_of_pending ((h p).2 hp) hp]
    refine ⟨by simp [hp], nofun, ?_⟩
    exact (h.put (fun q hq => List.mem_erase_of_ne hq) _).2 ((h p).2 hp)
  · rw [refresh_of_not_pending fun hc => hp hc.2]
    exact ⟨by simp [hp], fun _ => rfl, h⟩

theorem Live.reset (h : tm.Live) (now p ms : ℕ) (fromNow : Bool) :
    ((tm.reset now p ms fromNow).1 = true ↔
      p ∈ tm.timers ∨ tm.resetSkips p ms fromNow = true) ∧
      ((tm.reset now p ms fromNow).1 = false → (tm.reset now p ms fromNow).2 = tm) ∧
      (tm.reset now p ms fromNow).2.Live := by
  unfold TimerManager.reset
  by_cases hskip : tm.resetSkips p ms fromNow = true
  · rw [if_pos hskip]
    exact ⟨by simp [hskip], nofun, h⟩
  · rw [if_neg hskip]
    by_cases hp : p ∈ tm.timers
    · rw [resetErase_of_pending ((h p).2 hp) hp]
      refine ⟨by simp [hp], nofun, ?_⟩
      exact (h.put (fun q hq => List.mem_erase_of_ne hq) _).2 ((h p).2 hp)
    · rw [resetErase_of_not_pending fun hc => hp hc.2]
      exact ⟨by simp [hp, hskip], fun _ => rfl, h⟩

/-- `listExpiredCb` leaves the callbacks of the timers that it takes out. -/
theorem Live.listExpiredCb_iff (h : tm.Live) (hs : tm.Sorted) (now p₀ : ℕ) :
    (tm.listExpiredCb now p₀).1.Live ↔
      ∀ q ∈ tm.timers, (tm.heap q).next ≤ now → (tm.heap q).recurring = true := by
  obtain ⟨-, -, hheap, hmem⟩ := listExpiredCb_spec hs now p₀
  constructor
  · intro h' q hq hle
    have hq' := (h' q).1 (by rw [(hheap q).1]; exact (h q).2 hq)
    exact ((hmem q).1 hq').2.resolve_left (not_lt.2 hle)
  · intro hrec q
    rw [(hheap q).1, h q, hmem]
    refine ⟨fun hq => ⟨hq, ?_⟩, fun hq => hq.1⟩
    by_cases hle : (tm.heap q).next ≤ now
    · exact .inr (hrec q hq hle)
    · exact .inl (not_le.1 hle)

end

/-! ### The order -/

section

variable {tm : TimerManager Cb} {p : ℕ}

theorem Sorted.notMem_erase (h : tm.Sorted) (p : ℕ) : p ∉ tm.timers.erase p :=
  fun hp => (h.nodup.mem_erase_iff.1 hp).1 rfl

theorem Sorted.add (h : tm.Sorted) (hp : p ∉ tm.timers) (now ms : ℕ) (cb : Option Cb)
    (recurring : Bool) : (tm.add now p ms cb recurring).1.Sorted :=
  pairwise_setInsert (pairwise_update hp _ h)

theorem Sorted.cancel (h : tm.Sorted) {r : Bool × TimerManager Cb} (hr : tm.cancel p = some r) :
    r.2.Sorted := by
  simp only [TimerManager.cancel] at hr
  split_ifs at hr
  · rw [setFind_eq] at hr
    by_cases hp : p ∈ tm.timers
    · rw [if_pos hp] at hr
      obtain rfl := Option.some.inj hr
      exact h.erase p _
    · rw [if_neg hp] at hr
      cases hr
  · obtain rfl := Option.some.inj hr
    exact h

theorem Sorted.refresh (h : tm.Sorted) (now p : ℕ) : (tm.refresh now p).2.Sorted := by
  by_cases hc : (tm.heap p).cb.isSome = true ∧ p ∈ tm.timers
  · rw [refresh_of_pending hc.1 hc.2]
    exact pairwise_setInsert
      (pairwise_update (h.notMem_erase p) _ (h.sublist List.erase_sublist))
  · rw [refresh_of_not_pending hc]
    exact h

theorem Sorted.resetErase (h : tm.Sorted) (p : ℕ) : (tm.resetErase p).2.Sorted := by
  by_cases hc : (tm.heap p).cb.isSome = true ∧ p ∈ tm.timers
  · rw [resetErase_of_pending hc.1 hc.2]
    exact h.sublist List.erase_sublist
  · rw [resetErase_of_not_pending hc]
    exact h

theorem Sorted.resetAdd (h : tm.Sorted) (hp : p ∉ tm.timers) (now ms : ℕ) (fromNow : Bool) :
    (tm.resetAdd now p ms fromNow).1.Sorted :=
  pairwise_setInsert (pairwise_update hp _ h)

theorem Sorted.reset (h : tm.Sorted) (now p ms : ℕ) (fromNow : Bool) :
    (tm.reset now p ms fromNow).2.Sorted := by
  unfold TimerManager.reset
  by_cases hskip : tm.resetSkips p ms fromNow = true
  · rw [if_pos hskip]
    exact h
  · rw [if_neg hskip]
    by_cases hc : (tm.heap p).cb.isSome = true ∧ p ∈ tm.timers
    · rw [resetErase_of_pending hc.1 hc.2]
      have herase : Sorted { tm with timers := tm.timers.erase p } :=
        h.sublist List.erase_sublist
      exact herase.resetAdd (h.notMem_erase p) now ms fromNow
    · rw [resetErase_of_not_pending hc]
      exact h

end

end TimerManager

/-! ### Runs -/

/-- The operations on timers. -/
inductive TimerAct (Cb : Type*) where
  /-- `addTimer` at clock `now`, the new timer at `p`. -/
  | add (now p ms : ℕ) (cb : Option Cb) (recurring : Bool)
  /-- `Timer::cancel` -/
  | cancel (p : ℕ)
  /-- `Timer::refresh` -/
  | refresh (now p : ℕ)
  /-- `Timer::reset` -/
  | reset (now p ms : ℕ) (fromNow : Bool)
  /-- `listExpiredCb` -/
  | expire (now p₀ : ℕ)
  deriving DecidableEq

namespace Timers

variable {Cb : Type*}

/-- The operations, one at a time.  There is no timer at first, and a new one is not where one is
pending.  Nothing follows an erase of the end iterator. -/
def system : System (TimerManager Cb) (TimerAct Cb) where
  init tm := tm.timers = [] ∧ ∀ p, (tm.heap p).cb = none
  step tm a :=
    match a with
    | .add now p ms cb recurring =>
      if p ∈ tm.timers then none else some (tm.add now p ms cb recurring).1
    | .cancel p => (tm.cancel p).map fun r => r.2
    | .refresh now p => some (tm.refresh now p).2
    | .reset now p ms fromNow => some (tm.reset now p ms fromNow).2
    | .expire now p₀ => some (tm.listExpiredCb now p₀).1

/-- A timer has a callback, and a timer that is collected recurs. -/
def Lasting (tm : TimerManager Cb) : TimerAct Cb → Prop
  | .add _ _ _ cb _ => cb.isSome = true
  | .expire now _ => ∀ q ∈ tm.timers, (tm.heap q).next ≤ now → (tm.heap q).recurring = true
  | _ => True

instance (tm : TimerManager Cb) : (a : TimerAct Cb) → Decidable (Lasting tm a)
  | .add _ _ _ cb _ => inferInstanceAs (Decidable (cb.isSome = true))
  | .expire now _ => inferInstanceAs
    (Decidable (∀ q ∈ tm.timers, (tm.heap q).next ≤ now → (tm.heap q).recurring = true))
  | .cancel _ | .refresh _ _ | .reset _ _ _ _ => inferInstanceAs (Decidable True)

variable {tm tm' : TimerManager Cb} {G : TimerManager Cb → TimerAct Cb → Prop}

theorem sorted_of_reachable (hr : system.ReachableWhen G tm) : tm.Sorted := by
  refine hr.invariant (fun tm h => ?_) fun tm a tm' _ h _ hst => ?_
  · unfold TimerManager.Sorted
    rw [h.1]
    exact List.Pairwise.nil
  · cases a with
    | add now p ms cb recurring =>
      simp only [system] at hst
      split_ifs at hst with hp
      obtain rfl := Option.some.inj hst
      exact h.add hp now ms cb recurring
    | cancel p =>
      obtain ⟨r, hr, rfl⟩ := Option.map_eq_some_iff.1 hst
      exact h.cancel hr
    | refresh now p =>
      obtain rfl := Option.some.inj hst
      exact h.refresh now p
    | reset now p ms fromNow =>
      obtain rfl := Option.some.inj hst
      exact h.reset now p ms fromNow
    | expire now p₀ =>
      obtain rfl := Option.some.inj hst
      exact (TimerManager.listExpiredCb_spec h now p₀).1

/-- What a step takes to keep callbacks and membership in agreement. -/
theorem live_step_iff (h : tm.Live) (hs : tm.Sorted) {a : TimerAct Cb}
    (hst : system.step tm a = some tm') : tm'.Live ↔ Lasting tm a := by
  cases a with
  | add now p ms cb recurring =>
    simp only [system] at hst
    split_ifs at hst with hp
    obtain rfl := Option.some.inj hst
    exact h.add_iff now p ms cb recurring
  | cancel p =>
    obtain ⟨r, hr, hr'⟩ := Option.map_eq_some_iff.1 hst
    obtain ⟨r', heq, -, -, hlive⟩ := h.cancel hs p
    obtain rfl := Option.some.inj (heq.symm.trans hr)
    exact iff_of_true (hr' ▸ hlive) trivial
  | refresh now p =>
    obtain rfl := Option.some.inj hst
    exact iff_of_true (h.refresh now p).2.2 trivial
  | reset now p ms fromNow =>
    obtain rfl := Option.some.inj hst
    exact iff_of_true (h.reset now p ms fromNow).2.2 trivial
  | expire now p₀ =>
    obtain rfl := Option.some.inj hst
    exact h.listExpiredCb_iff hs now p₀

/-- **Callbacks and membership agree** in every run in which only recurring timers are collected and
every timer has a callback.  So `cancel` never erases the end iterator, `cancel` and `refresh`
return true exactly when the timer was pending, and so does `reset` unless it is called with the
period that a timer has which is not pending; what returns false changes nothing.  And that is what
it takes: a step keeps the agreement exactly if it meets the condition. -/
theorem live_of_lasting (hr : system.ReachableWhen Lasting tm) :
    tm.Live ∧
      (∀ p, ∃ r, tm.cancel p = some r ∧ (r.1 = true ↔ p ∈ tm.timers) ∧ (r.1 = false → r.2 = tm)) ∧
      (∀ now p, ((tm.refresh now p).1 = true ↔ p ∈ tm.timers) ∧
        ((tm.refresh now p).1 = false → (tm.refresh now p).2 = tm)) ∧
      (∀ now p ms fromNow,
        (((tm.reset now p ms fromNow).1 = true ↔ p ∈ tm.timers) ↔
          (tm.resetSkips p ms fromNow = true → p ∈ tm.timers)) ∧
        ((tm.reset now p ms fromNow).1 = false → (tm.reset now p ms fromNow).2 = tm)) ∧
      ∀ a tm', system.step tm a = some tm' → (tm'.Live ↔ Lasting tm a) := by
  have hs := sorted_of_reachable hr
  have hlive : tm.Live := by
    refine hr.invariant (fun tm h p => ?_) fun tm a tm' hr h hg hst =>
      (live_step_iff h (sorted_of_reachable hr) hst).2 hg
    simp [h.1, h.2 p]
  refine ⟨hlive, fun p => ?_, fun now p => ?_, fun now p ms fromNow => ?_,
    fun a tm' hst => live_step_iff hlive hs hst⟩
  · obtain ⟨r, hr, htrue, hfalse, -⟩ := hlive.cancel hs p
    exact ⟨r, hr, htrue, hfalse⟩
  · obtain ⟨htrue, hfalse, -⟩ := hlive.refresh now p
    exact ⟨htrue, hfalse⟩
  · obtain ⟨htrue, hfalse, -⟩ := hlive.reset now p ms fromNow
    refine ⟨?_, hfalse⟩
    rw [htrue]
    tauto

/-- No timer yet. -/
def noTimers : TimerManager ℕ := ⟨fun _ => .new 0 0 none false, [], 0⟩

theorem live_of_lasting_recurring :
    ∃ tm, system.run Lasting noTimers
        [.add 1 5 100 (some 7) true, .expire 150 3, .reset 160 5 200 true, .refresh 170 5] =
          some tm ∧
      tm.timers = [5] ∧ (tm.heap 5).next = 370 ∧ tm.Live ∧ (tm.cancel 5).isSome = true := by
  obtain ⟨tm, hrun⟩ : ∃ tm, system.run Lasting noTimers
      [.add 1 5 100 (some 7) true, .expire 150 3, .reset 160 5 200 true, .refresh 170 5] =
        some tm :=
    Option.isSome_iff_exists.1 (by decide +kernel)
  have hs : (system.run Lasting noTimers
      [.add 1 5 100 (some 7) true, .expire 150 3, .reset 160 5 200 true, .refresh 170 5]).map
        (fun tm => (tm.timers, (tm.heap 5).next)) = some ([5], 370) := by
    decide +kernel
  rw [hrun] at hs
  obtain ⟨h1, h2⟩ := Prod.mk.inj (Option.some.inj hs)
  have h := live_of_lasting (System.reachableWhen_of_run ⟨rfl, fun _ => rfl⟩ hrun)
  obtain ⟨r, hr, -⟩ := h.2.1 5
  exact ⟨tm, hrun, h1, h2, h.1, by rw [hr]; rfl⟩

/-- A timer that does not recur has been collected: it is not pending, but its callback is still
there.  `cancel` erases the end iterator, and `reset` with the same period returns true. -/
theorem expired_not_live :
    ∃ tm : TimerManager ℕ, system.Reachable tm ∧ 5 ∉ tm.timers ∧ (tm.heap 5).cb = some 7 ∧
      ¬ tm.Live ∧ tm.cancel 5 = none ∧ (tm.reset 160 5 100 false).1 = true := by
  have hs : (system.run (fun _ _ => True) noTimers
      [.add 1 5 100 (some 7) false, .expire 150 3]).map
        (fun tm =>
          (tm.timers, (tm.heap 5).cb, (tm.cancel 5).isNone, (tm.reset 160 5 100 false).1)) =
      some ([], some 7, true, true) := by
    decide +kernel
  obtain ⟨tm, hrun, hs⟩ := Option.map_eq_some_iff.1 hs
  obtain ⟨h1, h2⟩ := Prod.mk.inj hs
  obtain ⟨h2, h3⟩ := Prod.mk.inj h2
  obtain ⟨h3, h4⟩ := Prod.mk.inj h3
  refine ⟨tm, System.reachableWhen_of_run ⟨rfl, fun _ => rfl⟩ hrun, by simp [h1], h2, fun h => ?_,
    Option.isNone_iff_eq_none.1 h3, h4⟩
  have := (h 5).1 (by rw [h2]; rfl)
  simp [h1] at this

end Timers

end YXTWebCpp
