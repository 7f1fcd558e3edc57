import YXTWebCpp.Timer.Operations

/-!
# Deadlines over whole runs

The operations on timers with a clock that never goes back and deadlines that fit into 64 bits.  Of
the operations that put a timer into `m_timers` only `addTimer(val)` looks whether it came to stand
at the front, and calls `onTimerInsertedAtFront` then; `refresh` and the loop of `listExpiredCb`
insert without looking.

* `TimerManager.collects` : the timers whose callbacks `listExpiredCb` collects.
* `TimerAct.announces` : the operation calls `onTimerInsertedAtFront`.
* `Clocked` : the timers, the clock, and what has happened to each timer since it was created.
* `front_announced` : **no earlier deadline goes unannounced.**  No deadline lies further ahead than
  the period of its timer, so what is inserted without looking never comes first.
* `recurring_on_schedule` : **recurring timers neither drift nor skip**, however late they are
  collected.
-/

namespace YXTWebCpp

/-- A timer after it has been collected. -/
def Timer.rearmed {Cb : Type*} (t : Timer Cb) : Timer Cb :=
  if t.recurring then { t with next := (t.next + t.ms) % 2 ^ 64 } else t

namespace TimerManager

variable {Cb : Type*}

/-- The timers whose callbacks `listExpiredCb` collects, in the order of the callbacks. -/
def collects (tm : TimerManager Cb) (now p₀ : ℕ) : List ℕ :=
  match tm.timers with
  | [] => []
  | p :: _ => if now < (tm.heap p).next then [] else tm.expired now p₀

/-- The smallest `m_next` in `m_timers`. -/
def firstDeadline (tm : TimerManager Cb) : Option ℕ :=
  (tm.timers.map fun p => (tm.heap p).next).min?

/-! ### What is collected -/

section

variable {tm : TimerManager Cb}

/-- The three ways through `listExpiredCb` in one equation. -/
theorem listExpiredCb_eq (tm : TimerManager Cb) (now p₀ : ℕ) :
    ∃ t, tm.listExpiredCb now p₀ =
      ((tm.collects now p₀).foldl rearm
          ⟨tm.heap, tm.timers.drop (tm.collects now p₀).length, t⟩,
        (tm.collects now p₀).map fun q => (tm.heap q).cb) := by
  cases ht : tm.timers with
  | nil =>
    refine ⟨tm.previousTime, ?_⟩
    simp only [listExpiredCb, collects, ht, List.foldl_nil, List.map_nil, List.length_nil,
      List.drop_nil]
    rw [← ht]
  | cons p l =>
    refine ⟨now, ?_⟩
    by_cases hnow : now < (tm.heap p).next
    · rw [listExpiredCb_of_lt ht hnow]
      simp [collects, ht, hnow]
    · rw [listExpiredCb_of_le ht (not_lt.1 hnow)]
      simp only [collects, ht, if_neg hnow]

theorem listExpiredCb_snd (tm : TimerManager Cb) (now p₀ : ℕ) :
    (tm.listExpiredCb now p₀).2 = (tm.collects now p₀).map fun q => (tm.heap q).cb := by
  obtain ⟨t, ht⟩ := listExpiredCb_eq tm now p₀
  rw [ht]

theorem Sorted.mem_collects (h : tm.Sorted) (now p₀ q : ℕ) :
    q ∈ tm.collects now p₀ ↔ q ∈ tm.timers ∧ (tm.heap q).next ≤ now := by
  unfold collects
  split
  · rename_i ht
    simp [ht]
  · rename_i p l ht
    split_ifs with hnow
    · simp only [List.not_mem_nil, false_iff, not_and, not_le]
      intro hq
      exact hnow.trans_le (h.head_le ht hq)
    · exact h.mem_expired now p₀ q

theorem Sorted.nodup_collects (h : tm.Sorted) (now p₀ : ℕ) : (tm.collects now p₀).Nodup := by
  unfold collects
  split
  · exact List.nodup_nil
  · split_ifs
    · exact List.nodup_nil
    · rw [h.expired_eq]
      exact h.nodup.sublist (List.takeWhile_sublist _)

/-- A timer is collected at most once by a call, and exactly when its deadline has come. -/
theorem Sorted.count_collects (h : tm.Sorted) {p : ℕ} (hp : p ∈ tm.timers) (now p₀ : ℕ) :
    (tm.collects now p₀).count p = if (tm.heap p).next ≤ now then 1 else 0 := by
  split_ifs with hle
  · exact List.count_eq_one_of_mem (h.nodup_collects now p₀)
      ((h.mem_collects now p₀ p).2 ⟨hp, hle⟩)
  · exact List.count_eq_zero.2 fun hm => hle ((h.mem_collects now p₀ p).1 hm).2

theorem rearm_heap_apply (tm : TimerManager Cb) (p q : ℕ) :
    (tm.rearm p).heap q = if q = p then (tm.heap q).rearmed else tm.heap q := by
  unfold rearm Timer.rearmed
  by_cases hr : (tm.heap p).recurring = true
  · by_cases hq : q = p
    · subst hq
      simp [insert, hr]
    · simp [insert, hr, hq]
  · by_cases hq : q = p
    · subst hq
      simp [hr]
    · simp [hr, hq]

theorem foldl_rearm_heap {l : List ℕ} (hl : l.Nodup) (tm : TimerManager Cb) (q : ℕ) :
    (l.foldl rearm tm).heap q = if q ∈ l then (tm.heap q).rearmed else tm.heap q := by
  induction l generalizing tm with
  | nil => simp
  | cons p l ih =>
    obtain ⟨hp, hl⟩ := List.nodup_cons.1 hl
    rw [List.foldl_cons, ih hl, rearm_heap_apply]
    by_cases hq : q = p
    · subst hq
      simp [hp]
    · simp [hq]

/-- What `listExpiredCb` does to a timer. -/
theorem Sorted.listExpiredCb_heap (h : tm.Sorted) (now p₀ q : ℕ) :
    (tm.listExpiredCb now p₀).1.heap q =
      if q ∈ tm.timers ∧ (tm.heap q).next ≤ now then (tm.heap q).rearmed else tm.heap q := by
  obtain ⟨t, ht⟩ := listExpiredCb_eq tm now p₀
  rw [ht, foldl_rearm_heap (h.nodup_collects now p₀)]
  simp only [h.mem_collects]

end

/-! ### What comes first -/

section

variable {tm tm' : TimerManager Cb}

/-- The smallest deadline has become smaller, or there is one now. -/
def Earlier (tm tm' : TimerManager Cb) : Prop :=
  ∃ d', tm'.firstDeadline = some d' ∧ ∀ d, tm.firstDeadline = some d → d' < d

/-- Nothing comes earlier if every deadline is preceded by one that was there before. -/
theorem not_earlier_of_le
    (h : ∀ r ∈ tm'.timers, ∃ q ∈ tm.timers, (tm.heap q).next ≤ (tm'.heap r).next) :
    ¬ tm.Earlier tm' := by
  rintro ⟨d', hd', hlt⟩
  unfold firstDeadline at hd' hlt
  obtain ⟨r, hr, rfl⟩ := List.mem_map.1 (List.min?_mem hd')
  obtain ⟨q, hq, hle⟩ := h r hr
  have hmem : (tm.heap q).next ∈ tm.timers.map fun p => (tm.heap p).next :=
    List.mem_map.2 ⟨q, hq, rfl⟩
  obtain ⟨d, hd⟩ := Option.isSome_iff_exists.1
    (List.isSome_min?_of_mem hmem)
  have hd_le := (List.min?_eq_some_iff.1 hd).2 _ hmem
  have := hlt d hd
  omega

/-- A timer that is inserted and does not come to stand at the front has another one in front. -/
theorem exists_le_of_head_ne {heap : ℕ → Timer Cb} {p : ℕ} {l : List ℕ} (hp : p ∉ l)
    (h : (setInsert heap p l).head? ≠ some p) :
    ∃ q ∈ l, q ≠ p ∧ (heap q).next ≤ (heap p).next := by
  cases l with
  | nil => simp [setInsert] at h
  | cons q l =>
    have hq : q ≠ p := fun he => hp (by simp [he])
    refine ⟨q, List.mem_cons_self, hq, ?_⟩
    unfold setInsert at h
    by_cases hlt : less (key heap p) (key heap q) = true
    · simp [hlt] at h
    · rw [less_iff] at hlt
      simp only [key] at hlt
      omega

/-- A timer is put into the set again, or a new one is added, and it does not come to stand at the
front. -/
theorem not_earlier_of_head_ne {p : ℕ} {l : List ℕ} (hp : p ∉ l)
    (hl : ∀ q ∈ l, q ∈ tm.timers) (t : Timer Cb)
    (h : (setInsert (Function.update tm.heap p t) p l).head? ≠ some p) (prev : ℕ) :
    ¬ tm.Earlier ⟨Function.update tm.heap p t,
      setInsert (Function.update tm.heap p t) p l, prev⟩ := by
  refine not_earlier_of_le fun r hr => ?_
  obtain ⟨q, hq, hqp, hle⟩ := exists_le_of_head_ne hp h
  rw [Function.update_of_ne hqp] at hle
  rcases (mem_setInsert _ p r l).1 hr with rfl | hr
  · exact ⟨q, hl q hq, hle⟩
  · have hrp : r ≠ p := fun he => hp (he ▸ hr)
    exact ⟨r, hl r hr, by simp [Function.update_of_ne hrp]⟩

end

/-! ### The bound on deadlines -/

/-- No deadline lies further ahead than the period of its timer, and none is smaller than that
period. -/
def Timely (tm : TimerManager Cb) (now : ℕ) : Prop :=
  ∀ p ∈ tm.timers, (tm.heap p).ms ≤ (tm.heap p).next ∧ (tm.heap p).next ≤ now + (tm.heap p).ms

section

variable {tm : TimerManager Cb} {now : ℕ}

theorem Timely.mono (h : tm.Timely now) {now' : ℕ} (hle : now ≤ now') : tm.Timely now' := by
  intro p hp
  have := h p hp
  omega

/-- A timer is put into the set with a deadline of its own. -/
theorem Timely.put (h : tm.Timely now) {p : ℕ} {l : List ℕ} (hl : ∀ q ∈ l, q ∈ tm.timers)
    {t : Timer Cb} (ht : t.ms ≤ t.next ∧ t.next ≤ now + t.ms) (prev : ℕ) :
    Timely ⟨Function.update tm.heap p t, setInsert (Function.update tm.heap p t) p l, prev⟩
      now := by
  intro q hq
  by_cases hqp : q = p
  · subst hqp
    simpa using ht
  · simp only [Function.update_of_ne hqp]
    exact h q (hl q (((mem_setInsert ..).1 hq).resolve_left hqp))

theorem Timely.cancel (h : tm.Timely now) {p : ℕ} {r : Bool × TimerManager Cb}
    (hr : tm.cancel p = some r) : r.2.Timely now ∧ ¬ tm.Earlier r.2 := by
  have hsub : ∀ q ∈ r.2.timers, q ∈ tm.timers ∧ (r.2.heap q).ms = (tm.heap q).ms ∧
      (r.2.heap q).next = (tm.heap q).next := by
    simp only [TimerManager.cancel] at hr
    split_ifs at hr with hcb
    · split at hr
      · obtain rfl := Option.some.inj hr
        intro q hq
        refine ⟨List.mem_of_mem_erase hq, ?_⟩
        by_cases hqp : q = p
        · simp [hqp]
        · simp [hqp]
      · cases hr
    · obtain rfl := Option.some.inj hr
      exact fun q hq => ⟨hq, rfl, rfl⟩
  constructor
  · intro q hq
    obtain ⟨hq', hms, hnext⟩ := hsub q hq
    rw [hms, hnext]
    exact h q hq'
  · refine not_earlier_of_le fun q hq => ?_
    obtain ⟨hq', -, hnext⟩ := hsub q hq
    exact ⟨q, hq', hnext.ge⟩

/-- `refresh` moves a deadline to where it would be for a timer created now, and that is not
earlier. -/
theorem Timely.refresh (h : tm.Timely now) (p : ℕ)
    (hlt : (tm.refresh now p).1 = true → now + (tm.heap p).ms < 2 ^ 64) :
    (tm.refresh now p).2.Timely now ∧ ¬ tm.Earlier (tm.refresh now p).2 := by
  by_cases hc : (tm.heap p).cb.isSome = true ∧ p ∈ tm.timers
  · rw [refresh_of_pending hc.1 hc.2] at hlt ⊢
    have hmod : (now + (tm.heap p).ms) % 2 ^ 64 = now + (tm.heap p).ms := Nat.mod_eq_of_lt (hlt rfl)
    rw [hmod]
    refine ⟨h.put (fun q hq => List.mem_of_mem_erase hq) (by simp) _, ?_⟩
    refine not_earlier_of_le fun r hr => ?_
    by_cases hrp : r = p
    · -- the deadline was `now + ms` at most, by the bound, and is `now + ms` now
      refine ⟨p, hc.2, ?_⟩
      simpa [hrp] using (h p hc.2).2
    · refine ⟨r, List.mem_of_mem_erase (((mem_setInsert ..).1 hr).resolve_left hrp), ?_⟩
      simp [Function.update_of_ne hrp]
  · rw [refresh_of_not_pending hc]
    exact ⟨h, not_earlier_of_le fun r hr => ⟨r, hr, le_rfl⟩⟩

/-- The loop of `listExpiredCb` moves deadlines that have come, by a period. -/
theorem Timely.listExpiredCb (h : tm.Timely now) (hs : tm.Sorted) (p₀ : ℕ)
    (hlt : ∀ q ∈ tm.timers, (tm.heap q).next ≤ now → (tm.heap q).recurring = true →
      (tm.heap q).next + (tm.heap q).ms < 2 ^ 64) :
    (tm.listExpiredCb now p₀).1.Timely now ∧ ¬ tm.Earlier (tm.listExpiredCb now p₀).1 := by
  obtain ⟨-, -, -, hmem⟩ := listExpiredCb_spec hs now p₀
  have hstep : ∀ q ∈ (tm.listExpiredCb now p₀).1.timers, q ∈ tm.timers ∧
      ((tm.listExpiredCb now p₀).1.heap q = tm.heap q ∨
        (tm.heap q).next ≤ now ∧ (tm.listExpiredCb now p₀).1.heap q =
          { tm.heap q with next := (tm.heap q).next + (tm.heap q).ms }) := by
    intro q hq
    obtain ⟨hq, hlater⟩ := (hmem q).1 hq
    refine ⟨hq, ?_⟩
    rw [hs.listExpiredCb_heap]
    by_cases hle : (tm.heap q).next ≤ now
    · -- a collected timer that is still there is a recurring one
      have hrec := hlater.resolve_left (not_lt.2 hle)
      rw [if_pos ⟨hq, hle⟩, Timer.rearmed, if_pos hrec, Nat.mod_eq_of_lt (hlt q hq hle hrec)]
      exact .inr ⟨hle, rfl⟩
    · rw [if_neg fun hc => hle hc.2]
      exact .inl rfl
  constructor
  · intro q hq
    obtain ⟨hq', heq | ⟨hle, heq⟩⟩ := hstep q hq
    · rw [heq]
      exact h q hq'
    · rw [heq]
      simp only
      omega
  · refine not_earlier_of_le fun q hq => ?_
    obtain ⟨hq', heq | ⟨-, heq⟩⟩ := hstep q hq
    · exact ⟨q, hq', by rw [heq]⟩
    · exact ⟨q, hq', by rw [heq]; exact Nat.le_add_right _ _⟩

/-- `reset` of a pending timer, with the start of the period as a number without bounds. -/
theorem reset_of_pending {p : ℕ} (hcb : (tm.heap p).cb.isSome = true) (hp : p ∈ tm.timers)
    (hle : (tm.heap p).ms ≤ (tm.heap p).next) (ms : ℕ) (fromNow : Bool)
    (hlt : (if fromNow then now else (tm.heap p).next - (tm.heap p).ms) + ms < 2 ^ 64) :
    (tm.resetErase p).2.resetAdd now p ms fromNow =
      insert { tm with
        heap := Function.update tm.heap p { tm.heap p with
          ms := ms
          next := (if fromNow then now else (tm.heap p).next - (tm.heap p).ms) + ms }
        timers := tm.timers.erase p } p := by
  rw [resetErase_of_pending hcb hp]
  unfold resetAdd
  cases fromNow with
  | true =>
    simp only [↓reduceIte] at hlt ⊢
    rw [Nat.mod_eq_of_lt hlt]
  | false =>
    simp only [Bool.false_eq_true, ↓reduceIte] at hlt ⊢
    have hstart : ((tm.heap p).next + 2 ^ 64 - (tm.heap p).ms) % 2 ^ 64 =
        (tm.heap p).next - (tm.heap p).ms := by
      rw [show (tm.heap p).next + 2 ^ 64 - (tm.heap p).ms =
        (tm.heap p).next - (tm.heap p).ms + 2 ^ 64 by omega, Nat.add_mod_right,
        Nat.mod_eq_of_lt (by omega)]
    rw [hstart, Nat.mod_eq_of_lt hlt]

end

end TimerManager

/-! ### The clock -/

namespace TimerAct

variable {Cb : Type*}

/-- The clock value that the operation reads, if it reads the clock. -/
def clock : TimerAct Cb → Option ℕ
  | .add now _ _ _ _ | .refresh now _ | .reset now _ _ _ | .expire now _ => some now
  | .cancel _ => none

/-- The operation calls `onTimerInsertedAtFront`: `addTimer(val)` does when the timer came to stand
at the front, and it is called by `addTimer(ms, cb, recurring)` and at the end of `reset`. -/
def announces (tm : TimerManager Cb) : TimerAct Cb → Bool
  | .add now p ms cb recurring => (tm.add now p ms cb recurring).2
  | .reset now p ms fromNow =>
    !tm.resetSkips p ms fromNow && (tm.resetErase p).1 &&
      ((tm.resetErase p).2.resetAdd now p ms fromNow).2
  | .cancel _ | .refresh _ _ | .expire _ _ => false

/-- The deadlines that the operation computes fit into 64 bits. -/
def NoOverflow (tm : TimerManager Cb) : TimerAct Cb → Prop
  | .add now _ ms _ _ => now + ms < 2 ^ 64
  | .cancel _ => True
  | .refresh now p => (tm.refresh now p).1 = true → now + (tm.heap p).ms < 2 ^ 64
  | .reset now p ms fromNow =>
    tm.resetSkips p ms fromNow = false → (tm.resetErase p).1 = true →
      (if fromNow then now else (tm.heap p).next - (tm.heap p).ms) + ms < 2 ^ 64
  | .expire now _ => ∀ q ∈ tm.timers, (tm.heap q).next ≤ now → (tm.heap q).recurring = true →
      (tm.heap q).next + (tm.heap q).ms < 2 ^ 64

instance (tm : TimerManager Cb) : (a : TimerAct Cb) → Decidable (a.NoOverflow tm)
  | .add now _ ms _ _ => inferInstanceAs (Decidable (now + ms < 2 ^ 64))
  | .cancel _ => inferInstanceAs (Decidable True)
  | .refresh now p =>
    inferInstanceAs (Decidable ((tm.refresh now p).1 = true → now + (tm.heap p).ms < 2 ^ 64))
  | .reset now p ms fromNow => inferInstanceAs (Decidable
    (tm.resetSkips p ms fromNow = false → (tm.resetErase p).1 = true →
      (if fromNow then now else (tm.heap p).next - (tm.heap p).ms) + ms < 2 ^ 64))
  | .expire now _ => inferInstanceAs (Decidable
    (∀ q ∈ tm.timers, (tm.heap q).next ≤ now → (tm.heap q).recurring = true →
      (tm.heap q).next + (tm.heap q).ms < 2 ^ 64))

/-- The timer that the operation is about. -/
def subject : TimerAct Cb → Option ℕ
  | .add _ p _ _ _ | .cancel p | .refresh _ p | .reset _ p _ _ => some p
  | .expire _ _ => none

end TimerAct

/-- What has happened to a timer since it was created. -/
structure Life where
  /-- The clock at which it was created. -/
  created : ℕ
  /-- The period it was created with. -/
  ms : ℕ
  /-- It was created as a recurring timer. -/
  recurring : Bool
  /-- It has been cancelled, refreshed or reset. -/
  touched : Bool
  /-- The clock at each collection of its callback by `listExpiredCb`, in order. -/
  collected : List ℕ
  deriving DecidableEq

/-- The timers, and their history. -/
structure Clocked (Cb : Type*) where
  /-- The timers. -/
  tm : TimerManager Cb
  /-- The clock when it was read last. -/
  now : ℕ
  /-- The last operation has called `onTimerInsertedAtFront`. -/
  announced : Bool
  /-- What has happened to the timer at an address. -/
  lives : ℕ → Option Life

namespace Clocked

variable {Cb : Type*}

/-- What an operation adds to the history of the timer at `p`. -/
def live (tm : TimerManager Cb) (p : ℕ) (l : Option Life) : TimerAct Cb → Option Life
  | .add now q ms _ recurring => if q = p then some ⟨now, ms, recurring, false, []⟩ else l
  | .cancel q | .refresh _ q | .reset _ q _ _ =>
    if q = p then l.map fun l => { l with touched := true } else l
  | .expire now p₀ =>
    l.map fun l => { l with
      collected := l.collected ++ List.replicate ((tm.collects now p₀).count p) now }

/-- The operations of `Timers.system`, with the clock and the history. -/
def system : System (Clocked Cb) (TimerAct Cb) where
  init s := Timers.system.init s.tm ∧ ∀ p, s.lives p = none
  step s a := (Timers.system.step s.tm a).map fun tm =>
    { tm := tm
      now := a.clock.getD s.now
      announced := a.announces s.tm
      lives := fun p => live s.tm p (s.lives p) a }

/-- The clock has not gone back, and no deadline overflows. -/
def InRange (s : Clocked Cb) (a : TimerAct Cb) : Prop :=
  (∀ now, a.clock = some now → s.now ≤ now) ∧ a.NoOverflow s.tm

instance (s : Clocked Cb) (a : TimerAct Cb) : Decidable (InRange s a) :=
  inferInstanceAs (Decidable ((∀ now, a.clock = some now → s.now ≤ now) ∧ a.NoOverflow s.tm))

variable {s s' : Clocked Cb} {G : Clocked Cb → TimerAct Cb → Prop}

theorem step_eq {a : TimerAct Cb} (h : system.step s a = some s') :
    Timers.system.step s.tm a = some s'.tm ∧ s'.now = a.clock.getD s.now ∧
      s'.announced = a.announces s.tm ∧ ∀ p, s'.lives p = live s.tm p (s.lives p) a := by
  obtain ⟨tm, htm, rfl⟩ := Option.map_eq_some_iff.1 h
  exact ⟨htm, rfl, rfl, fun _ => rfl⟩

theorem reachable_tm (hr : system.ReachableWhen G s) : Timers.system.Reachable s.tm := by
  induction hr with
  | init hs => exact .init hs.1
  | step _ _ hst ih => exact .step ih trivial (step_eq hst).1

theorem sorted_of_reachable (hr : system.ReachableWhen G s) : s.tm.Sorted :=
  Timers.sorted_of_reachable (reachable_tm hr)

/-! ### Announcing the front -/

/-- A step keeps the bound on deadlines, and announces what comes first. -/
theorem timely_step {tm tm' : TimerManager Cb} {now : ℕ} (h : tm.Timely now) (hs : tm.Sorted)
    {a : TimerAct Cb} (hclock : ∀ t, a.clock = some t → now ≤ t) (hno : a.NoOverflow tm)
    (hst : Timers.system.step tm a = some tm') :
    tm'.Timely (a.clock.getD now) ∧ (tm.Earlier tm' → a.announces tm = true) := by
  cases a with
  | add t p ms cb recurring =>
    simp only [Timers.system] at hst
    split_ifs at hst with hp
    obtain rfl := Option.some.inj hst
    have h' := h.mono (hclock t rfl)
    have hmod : (t + ms) % 2 ^ 64 = t + ms := Nat.mod_eq_of_lt hno
    have hnew : (Timer.new t ms cb recurring).ms ≤ (Timer.new t ms cb recurring).next ∧
        (Timer.new t ms cb recurring).next ≤ t + (Timer.new t ms cb recurring).ms := by
      simp only [Timer.new, hmod]
      omega
    refine ⟨h'.put (fun q hq => hq) hnew _, fun hearlier => ?_⟩
    -- not announced: another timer stands in front, with a deadline that is not later
    by_contra hann
    refine TimerManager.not_earlier_of_head_ne hp (fun q hq => hq) _ (fun hhead => hann ?_) _
      hearlier
    simp only [TimerAct.announces, TimerManager.add, TimerManager.insert, hhead, beq_self_eq_true]
  | cancel p =>
    obtain ⟨r, hr, rfl⟩ := Option.map_eq_some_iff.1 hst
    obtain ⟨htimely, hnot⟩ := h.cancel hr
    exact ⟨htimely, fun hearlier => absurd hearlier hnot⟩
  | refresh t p =>
    obtain rfl := Option.some.inj hst
    obtain ⟨htimely, hnot⟩ := (h.mono (hclock t rfl)).refresh p hno
    exact ⟨htimely, fun hearlier => absurd hearlier hnot⟩
  | reset t p ms fromNow =>
    obtain rfl := Option.some.inj hst
    have h' := h.mono (hclock t rfl)
    have hsame : tm.Timely t ∧ ¬ tm.Earlier tm :=
      ⟨h', TimerManager.not_earlier_of_le fun r hr => ⟨r, hr, le_rfl⟩⟩
    simp only [TimerManager.reset, TimerAct.announces]
    by_cases hskip : tm.resetSkips p ms fromNow = true
    · rw [if_pos hskip]
      exact ⟨hsame.1, fun hearlier => absurd hearlier hsame.2⟩
    · rw [if_neg hskip]
      have hskip' : tm.resetSkips p ms fromNow = false := by simpa using hskip
      by_cases hc : (tm.heap p).cb.isSome = true ∧ p ∈ tm.timers
      · have herase : (tm.resetErase p).1 = true := by
          rw [TimerManager.resetErase_of_pending hc.1 hc.2]
        have hb := h' p hc.2
        have hlt := hno hskip' herase
        rw [if_pos herase, TimerManager.reset_of_pending hc.1 hc.2 hb.1 ms fromNow hlt,
          hskip', herase]
        -- the period starts now or has started before, so the new deadline keeps the bound
        have hstart : (if fromNow then t else (tm.heap p).next - (tm.heap p).ms) ≤ t := by
          split_ifs <;> omega
        refine ⟨h'.put (fun q hq => List.mem_of_mem_erase hq) ?_ _, fun hearlier => ?_⟩
        · simp only
          omega
        · by_contra hann
          refine TimerManager.not_earlier_of_head_ne (hs.notMem_erase p)
            (fun q hq => List.mem_of_mem_erase hq) _ (fun hhead => hann ?_) _ hearlier
          simp only [TimerManager.insert, hhead, beq_self_eq_true, Bool.not_false, Bool.and_self]
      · rw [TimerManager.resetErase_of_not_pending hc]
        exact ⟨hsame.1, fun hearlier => absurd hearlier hsame.2⟩
  | expire t p₀ =>
    obtain rfl := Option.some.inj hst
    obtain ⟨htimely, hnot⟩ := (h.mono (hclock t rfl)).listExpiredCb hs p₀ hno
    exact ⟨htimely, fun hearlier => absurd hearlier hnot⟩

theorem timely_of_reachable (hr : system.ReachableWhen InRange s) : s.tm.Timely s.now := by
  refine hr.invariant (I := fun s => s.tm.Timely s.now) (fun s h => ?_)
    fun s a s' hr h hg hst => ?_
  · intro p hp
    rw [h.1.1] at hp
    cases hp
  · obtain ⟨htm, hnow, -, -⟩ := step_eq hst
    rw [hnow]
    exact (timely_step h (sorted_of_reachable hr) hg.1 hg.2 htm).1

/-- **No earlier deadline goes unannounced.**  In every run with a clock that does not go back and
without overflow, the deadline of a pending timer lies between its period and the clock plus its
period; and an operation after which the smallest deadline is smaller than before it, or after
which there is one for the first time, has called `onTimerInsertedAtFront`. -/
theorem front_announced (hr : system.ReachableWhen InRange s) :
    (∀ p ∈ s.tm.timers, (s.tm.heap p).ms ≤ (s.tm.heap p).next ∧
      (s.tm.heap p).next ≤ s.now + (s.tm.heap p).ms) ∧
    ∀ a s', InRange s a → system.step s a = some s' → s.tm.Earlier s'.tm →
      s'.announced = true := by
  refine ⟨timely_of_reachable hr, fun a s' hg hst hearlier => ?_⟩
  obtain ⟨htm, -, hann, -⟩ := step_eq hst
  rw [hann]
  exact (timely_step (timely_of_reachable hr) (sorted_of_reachable hr) hg.1 hg.2 htm).2 hearlier

/-- No timer yet, and the clock at zero. -/
def idle : Clocked ℕ := ⟨Timers.noTimers, 0, false, fun _ => none⟩

/-- A recurring timer that has been collected late and refreshed, and another one that is reset to
come before it. -/
theorem front_announced_reset :
    ∃ s s', system.run InRange idle [.add 1 5 100 (some 7) true, .expire 250 3,
        .add 260 6 500 (some 8) false, .refresh 270 5] = some s ∧
      system.step s (.reset 280 6 10 true) = some s' ∧ s.tm.firstDeadline = some 370 ∧
      s'.tm.firstDeadline = some 290 ∧ s'.announced = true := by
  have hs : ((system.run InRange idle [.add 1 5 100 (some 7) true, .expire 250 3,
      .add 260 6 500 (some 8) false, .refresh 270 5]).bind fun s =>
        if InRange s (.reset 280 6 10 true) then
          (system.step s (.reset 280 6 10 true)).map fun s' =>
            (s.tm.firstDeadline, s'.tm.firstDeadline)
        else none) = some (some 370, some 290) := by
    decide +kernel
  obtain ⟨s, hrun, hs⟩ := Option.bind_eq_some_iff.1 hs
  split_ifs at hs with hg
  obtain ⟨s', hst, hs⟩ := Option.map_eq_some_iff.1 hs
  obtain ⟨h1, h2⟩ := Prod.mk.inj hs
  have hr : system.ReachableWhen InRange s :=
    System.reachableWhen_of_run ⟨⟨rfl, fun _ => rfl⟩, fun _ => rfl⟩ hrun
  refine ⟨s, s', hrun, hst, h1, h2, (front_announced hr).2 _ s' hg hst ⟨290, h2, fun d hd => ?_⟩⟩
  obtain rfl : 370 = d := Option.some.inj (h1.symm.trans hd)
  decide

/-! ### Recurring timers -/

/-- An operation on a timer leaves the others as they are. -/
theorem step_frame {tm tm' : TimerManager Cb} {a : TimerAct Cb} {p q : ℕ}
    (hst : Timers.system.step tm a = some tm') (hq : a.subject = some q) (hne : p ≠ q) :
    (p ∈ tm'.timers ↔ p ∈ tm.timers) ∧ tm'.heap p = tm.heap p := by
  cases a with
  | add t q' ms cb recurring =>
    obtain rfl := Option.some.inj hq
    simp only [Timers.system] at hst
    split_ifs at hst
    obtain rfl := Option.some.inj hst
    refine ⟨?_, Function.update_of_ne hne _ _⟩
    simp [TimerManager.add, TimerManager.insert, TimerManager.mem_setInsert, hne]
  | cancel q' =>
    obtain rfl := Option.some.inj hq
    obtain ⟨r, hr, rfl⟩ := Option.map_eq_some_iff.1 hst
    simp only [TimerManager.cancel] at hr
    split_ifs at hr
    · rw [TimerManager.setFind_eq] at hr
      split_ifs at hr
      · obtain rfl := Option.some.inj hr
        exact ⟨List.mem_erase_of_ne hne, Function.update_of_ne hne _ _⟩
    · obtain rfl := Option.some.inj hr
      exact ⟨Iff.rfl, rfl⟩
  | refresh t q' =>
    obtain rfl := Option.some.inj hq
    obtain rfl := Option.some.inj hst
    by_cases hc : (tm.heap q').cb.isSome = true ∧ q' ∈ tm.timers
    · rw [TimerManager.refresh_of_pending hc.1 hc.2]
      refine ⟨?_, Function.update_of_ne hne _ _⟩
      rw [TimerManager.mem_setInsert, List.mem_erase_of_ne hne, or_iff_right hne]
    · rw [TimerManager.refresh_of_not_pending hc]
      exact ⟨Iff.rfl, rfl⟩
  | reset t q' ms fromNow =>
    obtain rfl := Option.some.inj hq
    obtain rfl := Option.some.inj hst
    simp only [TimerManager.reset]
    by_cases hskip : tm.resetSkips q' ms fromNow = true
    · rw [if_pos hskip]
      exact ⟨Iff.rfl, rfl⟩
    · rw [if_neg hskip]
      by_cases hc : (tm.heap q').cb.isSome = true ∧ q' ∈ tm.timers
      · rw [TimerManager.resetErase_of_pending hc.1 hc.2]
        refine ⟨?_, Function.update_of_ne hne _ _⟩
        simp only [↓reduceIte, TimerManager.resetAdd, TimerManager.insert]
        rw [TimerManager.mem_setInsert, List.mem_erase_of_ne hne, or_iff_right hne]
      · rw [TimerManager.resetErase_of_not_pending hc]
        exact ⟨Iff.rfl, rfl⟩
  | expire t p₀ => cases hq

/-- The timer at `p` is pending, with the deadline that its creation and the number of its
collections give, and none of these was early. -/
structure OnSchedule (tm : TimerManager Cb) (p : ℕ) (l : Life) : Prop where
  pending : p ∈ tm.timers
  recurring : (tm.heap p).recurring = true
  ms : (tm.heap p).ms = l.ms
  next : (tm.heap p).next = l.created + (l.collected.length + 1) * l.ms
  collected : ∀ n t, l.collected[n]? = some t → l.created + (n + 1) * l.ms ≤ t

theorem OnSchedule.frame {tm tm' : TimerManager Cb} {p : ℕ} {l : Life} (h : OnSchedule tm p l)
    (hmem : p ∈ tm'.timers ↔ p ∈ tm.timers) (hheap : tm'.heap p = tm.heap p) :
    OnSchedule tm' p l where
  pending := hmem.2 h.pending
  recurring := by rw [hheap]; exact h.recurring
  ms := by rw [hheap]; exact h.ms
  next := by rw [hheap]; exact h.next
  collected := h.collected

theorem onSchedule_add {tm : TimerManager Cb} {now p ms : ℕ} {cb : Option Cb}
    (hlt : now + ms < 2 ^ 64) :
    OnSchedule (tm.add now p ms cb true).1 p ⟨now, ms, true, false, []⟩ where
  pending := by simp [TimerManager.add, TimerManager.insert, TimerManager.mem_setInsert]
  recurring := by simp [TimerManager.add, TimerManager.insert, Timer.new]
  ms := by simp [TimerManager.add, TimerManager.insert, Timer.new]
  next := by
    simp only [TimerManager.add, TimerManager.insert, Timer.new, Function.update_self,
      List.length_nil, Nat.zero_add, Nat.one_mul]
    exact Nat.mod_eq_of_lt hlt
  collected := by simp

/-- `listExpiredCb` on a timer that keeps to its schedule. -/
theorem OnSchedule.expire {tm : TimerManager Cb} {p : ℕ} {l : Life} (h : OnSchedule tm p l)
    (hs : tm.Sorted) {now : ℕ} (p₀ : ℕ) (hno : (TimerAct.expire now p₀).NoOverflow tm) :
    OnSchedule (tm.listExpiredCb now p₀).1 p { l with
      collected := l.collected ++ List.replicate ((tm.collects now p₀).count p) now } := by
  obtain ⟨-, -, -, hmem⟩ := TimerManager.listExpiredCb_spec hs now p₀
  have hpending : p ∈ (tm.listExpiredCb now p₀).1.timers := (hmem p).2 ⟨h.pending, .inr h.recurring⟩
  have hheap := hs.listExpiredCb_heap now p₀ p
  rw [hs.count_collects h.pending]
  by_cases hle : (tm.heap p).next ≤ now
  · -- the deadline has come: it moves by a period, whatever the clock says
    have hlt := hno p h.pending hle h.recurring
    rw [if_pos ⟨h.pending, hle⟩, Timer.rearmed, if_pos h.recurring, Nat.mod_eq_of_lt hlt] at hheap
    refine ⟨hpending, by rw [hheap]; exact h.recurring, by rw [hheap]; exact h.ms, ?_,
      fun n t hn => ?_⟩
    · rw [hheap, if_pos hle]
      simp only [List.length_append, List.length_replicate]
      rw [h.next, h.ms, Nat.succ_mul (_ + 1), Nat.add_assoc]
    · rw [if_pos hle, List.replicate_one] at hn
      rcases lt_or_ge n l.collected.length with hlt | hge
      · rw [List.getElem?_append_left hlt] at hn
        exact h.collected n t hn
      · rw [List.getElem?_append_right hge] at hn
        obtain ⟨hidx, ht⟩ := List.getElem?_eq_some_iff.1 hn
        simp only [List.length_singleton] at hidx
        obtain rfl : n = l.collected.length := by omega
        have ht' : now = t := by simpa using ht
        rw [← ht', ← h.next]
        exact hle
  · rw [if_neg fun hc => hle hc.2] at hheap
    rw [if_neg hle, List.replicate_zero, List.append_nil]
    exact h.frame (iff_of_true hpending h.pending) hheap

theorem onSchedule_of_reachable (hr : system.ReachableWhen InRange s) :
    ∀ p l, s.lives p = some l → l.recurring = true → l.touched = false →
      OnSchedule s.tm p l := by
  refine hr.invariant (I := fun s => ∀ p l, s.lives p = some l → l.recurring = true →
    l.touched = false → OnSchedule s.tm p l) (fun s h p l hl => ?_)
    fun s a s' hr h hg hst p l hl hrec htouch => ?_
  · rw [h.2 p] at hl
    cases hl
  · obtain ⟨htm, -, -, hlives⟩ := step_eq hst
    rw [hlives p] at hl
    cases a with
    | add t q ms cb recurring =>
      by_cases hq : q = p
      · subst hq
        simp only [live, ↓reduceIte, Option.some.injEq] at hl
        subst hl
        simp only [Timers.system] at htm
        split_ifs at htm
        rw [← Option.some.inj htm]
        simp only at hrec
        rw [hrec]
        exact onSchedule_add hg.2
      · simp only [live, hq, ↓reduceIte] at hl
        obtain ⟨hmem, hheap⟩ := step_frame htm rfl (Ne.symm hq)
        exact (h p l hl hrec htouch).frame hmem hheap
    | expire t p₀ =>
      obtain ⟨l', hl', rfl⟩ := Option.map_eq_some_iff.1 hl
      rw [← Option.some.inj htm]
      exact (h p l' hl' hrec htouch).expire (sorted_of_reachable hr) p₀ hg.2
    | cancel q | refresh t q | reset t q ms fromNow =>
      by_cases hq : q = p
      · -- the timer is touched now
        simp only [live, hq, ↓reduceIte] at hl
        obtain ⟨l', -, rfl⟩ := Option.map_eq_some_iff.1 hl
        cases htouch
      · simp only [live, hq, ↓reduceIte] at hl
        obtain ⟨hmem, hheap⟩ := step_frame htm rfl (Ne.symm hq)
        exact (h p l hl hrec htouch).frame hmem hheap

/-- **Recurring timers neither drift nor skip.**  Take any run with a clock that does not go back
and without overflow, and a recurring timer that has not been cancelled, refreshed or reset since it
was created.  After `n` collections of its callback its deadline is its creation plus `n + 1`
periods, its `n`-th collection was not early, and `listExpiredCb` collects it once if its
deadline has come, and not at all otherwise. -/
theorem recurring_on_schedule (hr : system.ReachableWhen InRange s) {p : ℕ} {l : Life}
    (hl : s.lives p = some l) (hrec : l.recurring = true) (htouch : l.touched = false) :
    (s.tm.heap p).next = l.created + (l.collected.length + 1) * l.ms ∧
      (∀ n t, l.collected[n]? = some t → l.created + (n + 1) * l.ms ≤ t) ∧
      ∀ now p₀, (s.tm.listExpiredCb now p₀).2 =
          (s.tm.collects now p₀).map (fun q => (s.tm.heap q).cb) ∧
        (s.tm.collects now p₀).count p = if (s.tm.heap p).next ≤ now then 1 else 0 := by
  have h := onSchedule_of_reachable hr p l hl hrec htouch
  refine ⟨h.next, h.collected, fun now p₀ => ⟨TimerManager.listExpiredCb_snd s.tm now p₀, ?_⟩⟩
  exact (sorted_of_reachable hr).count_collects h.pending now p₀

/-- A timer with a period of 100 is collected for the first time after more than four periods: it is
collected once, and again by the next call. -/
theorem recurring_on_schedule_late :
    ∃ s, system.run InRange idle [.add 1 5 100 (some 7) true, .add 2 6 30 (some 8) false,
        .expire 450 3, .expire 451 3] = some s ∧
      s.lives 5 = some ⟨1, 100, true, false, [450, 451]⟩ ∧ (s.tm.heap 5).next = 301 ∧
      (s.tm.collects 452 3).count 5 = 1 := by
  have hs : (system.run InRange idle [.add 1 5 100 (some 7) true, .add 2 6 30 (some 8) false,
      .expire 450 3, .expire 451 3]).map (fun s => s.lives 5) =
        some (some ⟨1, 100, true, false, [450, 451]⟩) := by
    decide +kernel
  obtain ⟨s, hrun, hl⟩ := Option.map_eq_some_iff.1 hs
  obtain ⟨hnext, -, hcount⟩ := recurring_on_schedule
    (System.reachableWhen_of_run ⟨⟨rfl, fun _ => rfl⟩, fun _ => rfl⟩ hrun) hl rfl rfl
  refine ⟨s, hrun, hl, hnext, ?_⟩
  rw [(hcount 452 3).2, hnext]
  decide

end Clocked

end YXTWebCpp
