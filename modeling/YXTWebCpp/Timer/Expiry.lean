import YXTWebCpp.Timer.Deadlines

/-!
# Expiry and the announced wait

`listExpiredCb` cuts `m_timers` with `lower_bound` at a probe that has the deadline `now` and an
address of its own, and goes on over the timers with the same deadline behind it; `getNextTimer`
looks at the first timer only (`timer.cpp`).  In a set that is ordered by deadline and address, the
two agree on what is due.

* `TimerManager.due` : the timers whose deadline has come, in the order of the set.
* `TimerManager.Exact` : what is collected is what is due, and nothing else is touched.
* `TimerManager.Waits` : nothing is collected for some time, and something at its end.
* `TimerManager.expiry_exact` : **expiry is exact and agrees with the announced wait.**
* `TimerManager.Thaws` : a clock that was set back is noticed, and nothing waits for it.
* `TimerManager.not_thaws`, `TimerManager.frozen` : **it never is**, and every timer waits until the
  clock has caught up with its deadline.
-/

namespace YXTWebCpp

namespace TimerManager

variable {Cb : Type*}

/-- The timers whose deadline has come, in the order of the set. -/
def due (tm : TimerManager Cb) (now : ℕ) : List ℕ :=
  tm.timers.filter fun q => decide ((tm.heap q).next ≤ now)

/-- The callbacks of the timers that are due have been collected, each once and in the order of
their deadlines.  Those of these timers that recur are in the set again, a period later, and every
other timer is as it was. -/
structure Exact (tm : TimerManager Cb) (now : ℕ) (r : TimerManager Cb × List (Option Cb)) :
    Prop where
  callbacks : r.2 = (tm.due now).map fun q => (tm.heap q).cb
  once : (tm.due now).Nodup
  ascending : (tm.due now).Pairwise fun p q => (tm.heap p).next ≤ (tm.heap q).next
  sorted : r.1.Sorted
  untouched : ∀ q, q ∉ tm.due now →
    (q ∈ r.1.timers ↔ q ∈ tm.timers) ∧ r.1.heap q = tm.heap q
  again : ∀ q ∈ tm.due now,
    (q ∈ r.1.timers ↔ (tm.heap q).recurring = true) ∧ r.1.heap q = (tm.heap q).rearmed

/-- `listExpiredCb` collects nothing for a time `d` from `now` on, and something at its end. -/
def Waits (tm : TimerManager Cb) (now d : ℕ) : Prop :=
  (∀ t p₀, now ≤ t → t < now + d → (tm.listExpiredCb t p₀).2 = []) ∧
    ∀ p₀, (tm.listExpiredCb (now + d) p₀).2 ≠ []

section

variable {tm : TimerManager Cb} {now : ℕ}

@[simp] theorem mem_due (tm : TimerManager Cb) (now q : ℕ) :
    q ∈ tm.due now ↔ q ∈ tm.timers ∧ (tm.heap q).next ≤ now := by
  rw [due, List.mem_filter, decide_eq_true_eq]

/-- **Expiry is exact.** -/
theorem Sorted.exact (h : tm.Sorted) (now p₀ : ℕ) : tm.Exact now (tm.listExpiredCb now p₀) := by
  obtain ⟨hsorted, hcbs, -, hmem⟩ := listExpiredCb_spec h now p₀
  refine ⟨hcbs, h.nodup.filter _, ?_, hsorted, fun q hq => ?_, fun q hq => ?_⟩
  · -- the set is in ascending order, so every part of it is
    refine (h.filter _).imp fun {p q} hlt => ?_
    have hlt := less_iff.1 hlt
    simp only [key] at hlt
    omega
  · rw [mem_due] at hq
    rw [hmem, h.listExpiredCb_heap, if_neg hq]
    refine ⟨⟨fun hm => hm.1, fun hm => ⟨hm, .inl ?_⟩⟩, rfl⟩
    exact not_le.1 fun hle => hq ⟨hm, hle⟩
  · rw [mem_due] at hq
    rw [hmem, h.listExpiredCb_heap, if_pos hq]
    refine ⟨⟨fun hm => hm.2.resolve_left (not_lt.2 hq.2), fun hrec => ⟨hq.1, .inr hrec⟩⟩, rfl⟩

/-- Something is collected exactly if a deadline has come. -/
theorem Sorted.listExpiredCb_eq_nil_iff (h : tm.Sorted) (now p₀ : ℕ) :
    (tm.listExpiredCb now p₀).2 = [] ↔ ∀ q ∈ tm.timers, now < (tm.heap q).next := by
  rw [(h.exact now p₀).callbacks, List.map_eq_nil_iff, due, List.filter_eq_nil_iff]
  simp only [decide_eq_true_eq, not_le]

/-- The wait for the first timer. -/
theorem getNextTimer_cons {p : ℕ} {l : List ℕ} (ht : tm.timers = p :: l) (now : ℕ) :
    tm.getNextTimer now = (tm.heap p).next - now := by
  simp only [getNextTimer, ht]
  split_ifs <;> omega

/-- The end of the wait is the first deadline, or has come. -/
theorem Sorted.waits_iff (h : tm.Sorted) {p : ℕ} {l : List ℕ} (ht : tm.timers = p :: l)
    (now d : ℕ) : tm.Waits now d ↔ d = (tm.heap p).next - now := by
  have hp : p ∈ tm.timers := by
    rw [ht]
    exact List.mem_cons_self
  have hnone : ∀ t, (∀ q ∈ tm.timers, t < (tm.heap q).next) ↔ t < (tm.heap p).next :=
    fun t => ⟨fun hall => hall p hp, fun hlt q hq => hlt.trans_le (h.head_le ht hq)⟩
  simp only [Waits, ne_eq, h.listExpiredCb_eq_nil_iff, hnone, not_lt]
  constructor
  · rintro ⟨hbefore, hend⟩
    have hend := hend 0
    by_contra hd
    -- the wait is longer than it takes to the first deadline
    have hlt := hbefore (max now (tm.heap p).next) 0 (le_max_left _ _) (by omega)
    omega
  · rintro rfl
    exact ⟨fun t _ hle hlt => by omega, fun _ => by omega⟩

/-- **Expiry is exact and agrees with the announced wait**, in every set of timers that is ordered
by deadline and address, at every clock value and with the probe at every address.
`getNextTimer` returns `0` exactly if a deadline has come and `~0` exactly if there is no timer;
and if there is one, what it returns is the time for which nothing is collected, and at whose end
something is. -/
theorem expiry_exact (h : tm.Sorted) (hnext : ∀ q ∈ tm.timers, (tm.heap q).next < 2 ^ 64 - 1)
    (now : ℕ) :
    (∀ p₀, tm.Exact now (tm.listExpiredCb now p₀)) ∧
      (tm.getNextTimer now = 0 ↔ ∃ q ∈ tm.timers, (tm.heap q).next ≤ now) ∧
      (tm.getNextTimer now = 2 ^ 64 - 1 ↔ tm.timers = []) ∧
      (tm.timers ≠ [] → ∀ d, tm.getNextTimer now = d ↔ tm.Waits now d) := by
  refine ⟨h.exact now, ?_⟩
  cases ht : tm.timers with
  | nil =>
    have hwait : tm.getNextTimer now = 2 ^ 64 - 1 := by simp only [getNextTimer, ht]
    rw [hwait]
    refine ⟨iff_of_false (by decide) ?_, iff_of_true rfl rfl, fun hne => absurd rfl hne⟩
    rintro ⟨q, hq, -⟩
    cases hq
  | cons p l =>
    have hp : p ∈ tm.timers := by
      rw [ht]
      exact List.mem_cons_self
    have hlt := hnext p hp
    rw [getNextTimer_cons ht now, ← ht]
    refine ⟨?_, ?_, fun _ d => ?_⟩
    · constructor
      · intro hzero
        exact ⟨p, hp, by omega⟩
      · rintro ⟨q, hq, hle⟩
        have := h.head_le ht hq
        omega
    · rw [ht]
      exact iff_of_false (by omega) (List.cons_ne_nil p l)
    · rw [h.waits_iff ht]
      exact eq_comm

end

/-- Three timers, two of them with the same deadline, on both sides of the probe. -/
def threeTimers : TimerManager ℕ where
  heap p := ⟨p == 3, 10, if p = 4 then 20 else 12, some p⟩
  timers := [3, 7, 4]
  previousTime := 0

theorem expiry_exact_three :
    threeTimers.Exact 12 (threeTimers.listExpiredCb 12 5) ∧ threeTimers.getNextTimer 12 = 0 ∧
      threeTimers.Waits 5 7 := by
  have h : threeTimers.Sorted := by
    unfold Sorted
    decide
  have hnext : ∀ q ∈ threeTimers.timers, (threeTimers.heap q).next < 2 ^ 64 - 1 := by decide
  obtain ⟨hexact, hzero, -, -⟩ := expiry_exact h hnext 12
  obtain ⟨-, -, -, hwaits⟩ := expiry_exact h hnext 5
  exact ⟨hexact 5, hzero.2 ⟨3, by decide, by decide⟩, (hwaits (by decide) 7).1 (by decide)⟩

/-! ### A clock that is set back -/

/-- The clock is more than an hour below the one of the call before. -/
def SetBack (tm : TimerManager Cb) (now : ℕ) : Prop := now + 60 * 60 * 1000 < tm.previousTime

/-- `listExpiredCb` notices that the clock was set back, and collects every pending timer. -/
def Thaws (tm : TimerManager Cb) (now p₀ : ℕ) : Prop :=
  (tm.detectClockRollover now).1 = true ∧
    (tm.listExpiredCb now p₀).2 = tm.timers.map fun q => (tm.heap q).cb

/-- **A clock that is set back is never noticed**, whatever the timers and the clock are. -/
theorem not_thaws (tm : TimerManager Cb) (now p₀ : ℕ) : ¬ tm.Thaws now p₀ :=
  fun h => Bool.noConfusion h.1

/-- Every timer is collected only if the deadline of every timer has come. -/
theorem Sorted.collects_all_iff {tm : TimerManager Cb} (h : tm.Sorted) (now p₀ : ℕ) :
    (tm.listExpiredCb now p₀).2 = (tm.timers.map fun q => (tm.heap q).cb) ↔
      ∀ q ∈ tm.timers, (tm.heap q).next ≤ now := by
  rw [(h.exact now p₀).callbacks]
  constructor
  · intro hall q hq
    have hlength : (tm.due now).length = tm.timers.length := by
      simpa only [List.length_map] using congrArg List.length hall
    have hdue : tm.due now = tm.timers := List.filter_sublist.eq_of_length hlength
    rw [← hdue] at hq
    exact ((mem_due tm now q).1 hq).2
  · intro hall
    rw [due, List.filter_eq_self.2 fun q hq => decide_eq_true (hall q hq)]

/-- The manager after calls of `listExpiredCb`, one for each clock and address of the probe. -/
def polls (tm : TimerManager Cb) (cs : List (ℕ × ℕ)) : TimerManager Cb :=
  cs.foldl (fun tm c => (tm.listExpiredCb c.1 c.2).1) tm

/-- **A timer is frozen** as long as the clock is below its deadline, and no call collects it. -/
theorem Sorted.frozen {tm : TimerManager Cb} (h : tm.Sorted) {q : ℕ} (hq : q ∈ tm.timers)
    {cs : List (ℕ × ℕ)} (hcs : ∀ c ∈ cs, c.1 < (tm.heap q).next) :
    q ∈ (tm.polls cs).timers ∧ (tm.polls cs).heap q = tm.heap q := by
  induction cs generalizing tm with
  | nil => exact ⟨hq, rfl⟩
  | cons c cs ih =>
    obtain ⟨hc, hcs⟩ := List.forall_mem_cons.1 hcs
    have hexact := h.exact c.1 c.2
    obtain ⟨hmem, hheap⟩ := hexact.untouched q fun hdue =>
      absurd ((mem_due tm c.1 q).1 hdue).2 (not_le.2 hc)
    obtain ⟨hpending, hsame⟩ := ih hexact.sorted (hmem.2 hq) (by rwa [hheap])
    exact ⟨hpending, hsame.trans hheap⟩

/-- Two timers at a clock that is then set back to 0. -/
def twoTimers : TimerManager ℕ where
  heap p := ⟨false, 10, 7200000 + p, some p⟩
  timers := [3, 4]
  previousTime := 7200000

/-- **Two timers freeze**: the clock goes back by two hours, nothing is detected and nothing is
collected, and an hour later neither. -/
theorem not_thaws_twoTimers :
    twoTimers.SetBack 0 ∧ (twoTimers.detectClockRollover 0).1 = false ∧
      (twoTimers.listExpiredCb 0 5).2 = [] ∧ ¬ twoTimers.Thaws 0 5 ∧
      ((twoTimers.listExpiredCb 0 5).1.listExpiredCb 3600000 5).2 = [] := by
  refine ⟨?_, rfl, rfl, ?_, rfl⟩
  · show 0 + 60 * 60 * 1000 < 7200000
    decide
  · rintro ⟨-, hall⟩
    have hnone : [] = [some 3, some 4] := hall
    cases hnone

end TimerManager

end YXTWebCpp
