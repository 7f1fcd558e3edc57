import Mathlib.Algebra.Ring.Int.Defs
import Mathlib.Algebra.Ring.Nat
import Mathlib.Data.Fintype.Card
import Mathlib.Data.List.Basic
import Mathlib.Data.List.TakeWhile
import Mathlib.Logic.Function.Basic

/-!
# Timers

`Timer` and `TimerManager` (`timer.cpp`).  A timer is an object in memory, named by its address;
`m_timers` is the set of pending timers, ordered by deadline and, for equal deadlines, by address.

The clock is a parameter of every operation that reads it, and so is the address of every object
that is allocated.  Deadlines are 64-bit unsigned numbers.
-/

namespace YXTWebCpp

/-- `Timer` -/
structure Timer (Cb : Type*) where
  /-- `m_recurring` -/
  recurring : Bool
  /-- `m_ms` -/
  ms : ℕ
  /-- `m_next` -/
  next : ℕ
  /-- `m_cb` -/
  cb : Option Cb
  deriving DecidableEq, Repr

/-- `Timer(ms, cb, recurring, manager)` at clock `now`. -/
def Timer.new {Cb : Type*} (now ms : ℕ) (cb : Option Cb) (recurring : Bool) : Timer Cb :=
  ⟨recurring, ms, (now + ms) % 2 ^ 64, cb⟩

/-- `TimerManager` -/
structure TimerManager (Cb : Type*) where
  /-- The timer objects by address. -/
  heap : ℕ → Timer Cb
  /-- `m_timers` in iteration order. -/
  timers : List ℕ
  /-- `m_previousTime` -/
  previousTime : ℕ

namespace TimerManager

variable {Cb : Type*}

/-- `Comparator` on a deadline and an address. -/
def less (a b : ℕ × ℕ) : Bool :=
  if a.1 < b.1 then true else if b.1 < a.1 then false else decide (a.2 < b.2)

/-- What the comparator looks at. -/
def key (heap : ℕ → Timer Cb) (p : ℕ) : ℕ × ℕ := ((heap p).next, p)

/-- `m_timers.insert(p)`: nothing is inserted next to an equivalent element. -/
def setInsert (heap : ℕ → Timer Cb) (p : ℕ) : List ℕ → List ℕ
  | [] => [p]
  | q :: l =>
    if less (key heap p) (key heap q) then p :: q :: l
    else if less (key heap q) (key heap p) then q :: setInsert heap p l
    else q :: l

/-- `m_timers.find(p)` -/
def setFind (heap : ℕ → Timer Cb) (p : ℕ) (l : List ℕ) : Option ℕ :=
  l.find? fun q => !less (key heap p) (key heap q) && !less (key heap q) (key heap p)

/-- `addTimer(val)` for the timer at `p`, and whether it came to stand at the front. -/
def insert (tm : TimerManager Cb) (p : ℕ) : TimerManager Cb × Bool :=
  let timers := setInsert tm.heap p tm.timers
  ({ tm with timers := timers }, timers.head? == some p)

/-- `addTimer(ms, cb, recurring)` at clock `now`, the new timer at address `p`. -/
def addTimer (tm : TimerManager Cb) (now p ms : ℕ) (cb : Cb) (recurring : Bool) :
    TimerManager Cb × Bool :=
  { tm with heap := Function.update tm.heap p (.new now ms (some cb) recurring) }.insert p

/-- `Timer::cancel`: `none` when it erases the end iterator, else whether it has done anything. -/
def cancel (tm : TimerManager Cb) (p : ℕ) : Option (Bool × TimerManager Cb) :=
  if (tm.heap p).cb.isSome then
    let heap := Function.update tm.heap p { tm.heap p with cb := none }
    match setFind heap p tm.timers with
    | some q => some (true, { tm with heap := heap, timers := tm.timers.erase q })
    | none => none
  else some (false, tm)

/-- `getNextTimer` at clock `now`. -/
def getNextTimer (tm : TimerManager Cb) (now : ℕ) : ℕ :=
  match tm.timers with
  | [] => 2 ^ 64 - 1
  | p :: _ => if (tm.heap p).next ≤ now then 0 else (tm.heap p).next - now

/-- `detectClockRollover`: the statement that should set the result compares instead. -/
def detectClockRollover (tm : TimerManager Cb) (now : ℕ) : Bool × TimerManager Cb :=
  (false, { tm with previousTime := now })

/-- Put a collected timer back if it recurs. -/
def rearm (tm : TimerManager Cb) (p : ℕ) : TimerManager Cb :=
  if (tm.heap p).recurring then
    let t := tm.heap p
    ({ tm with
      heap := Function.update tm.heap p { t with next := (t.next + t.ms) % 2 ^ 64 } }.insert
      p).1
  else tm

/-- The timers in front of `lower_bound(now_timer)`, `now_timer` being at address `p₀`, and those
with the same deadline behind it. -/
def expired (tm : TimerManager Cb) (now p₀ : ℕ) : List ℕ :=
  let before := fun q => less (key tm.heap q) (now, p₀)
  tm.timers.takeWhile before ++
    (tm.timers.dropWhile before).takeWhile fun q => (tm.heap q).next == now

/-- `listExpiredCb` at clock `now`: the manager afterwards and the callbacks collected. -/
def listExpiredCb (tm : TimerManager Cb) (now p₀ : ℕ) : TimerManager Cb × List (Option Cb) :=
  match tm.timers with
  | [] => (tm, [])
  | p :: _ =>
    let r := tm.detectClockRollover now
    if !r.1 && decide (now < (r.2.heap p).next) then (r.2, [])
    else
      let l := r.2.expired now p₀
      let tm := { r.2 with timers := r.2.timers.drop l.length }
      (l.foldl rearm tm, l.map fun q => (r.2.heap q).cb)

/-! ### The set -/

theorem less_iff {a b : ℕ × ℕ} : less a b = true ↔ a.1 < b.1 ∨ (a.1 = b.1 ∧ a.2 < b.2) := by
  unfold less
  split_ifs with h1 h2
  · simp [h1]
  · simp only [false_iff]
    omega
  · simp only [decide_eq_true_eq]
    omega

theorem less_trans {a b c : ℕ × ℕ} (h : less a b = true) (h' : less b c = true) :
    less a c = true := by
  rw [less_iff] at *
  omega

/-- Only a timer itself is equivalent to it. -/
theorem eq_of_not_less {heap : ℕ → Timer Cb} {p q : ℕ}
    (h : less (key heap p) (key heap q) = false) (h' : less (key heap q) (key heap p) = false) :
    p = q := by
  rw [Bool.eq_false_iff, ne_eq, less_iff] at h h'
  simp only [key] at h h'
  omega

theorem mem_setInsert (heap : ℕ → Timer Cb) (p q : ℕ) (l : List ℕ) :
    q ∈ setInsert heap p l ↔ q = p ∨ q ∈ l := by
  induction l with
  | nil => simp [setInsert]
  | cons r l ih =>
    unfold setInsert
    split_ifs with h1 h2
    · simp
    · simp only [List.mem_cons, ih]
      tauto
    · have := eq_of_not_less (by simpa using h1) (by simpa using h2)
      subst this
      simp

theorem setFind_eq_some_iff (heap : ℕ → Timer Cb) (p : ℕ) (l : List ℕ) :
    setFind heap p l = some p ↔ p ∈ l := by
  have hself : less (key heap p) (key heap p) = false := by
    rw [Bool.eq_false_iff, ne_eq, less_iff]
    omega
  have heq : (fun q => !less (key heap p) (key heap q) && !less (key heap q) (key heap p)) =
      fun q => q == p := by
    funext q
    by_cases hq : q = p
    · subst hq
      simp [hself]
    · rw [beq_eq_false_iff_ne.2 hq, Bool.and_eq_false_iff]
      by_contra hc
      rw [not_or] at hc
      exact hq (eq_of_not_less (by simpa using hc.1) (by simpa using hc.2)).symm
  unfold setFind
  rw [heq]
  induction l with
  | nil => simp
  | cons r l ih =>
    by_cases hr : r = p
    · simp [hr]
    · rw [List.find?_cons_of_neg (by simpa using hr)]
      simpa [Ne.symm hr] using ih

/-- The pending timers are in order. -/
def Sorted (tm : TimerManager Cb) : Prop :=
  tm.timers.Pairwise fun p q => less (key tm.heap p) (key tm.heap q) = true

theorem pairwise_setInsert {heap : ℕ → Timer Cb} {p : ℕ} {l : List ℕ}
    (h : l.Pairwise fun p q => less (key heap p) (key heap q) = true) :
    (setInsert heap p l).Pairwise fun p q => less (key heap p) (key heap q) = true := by
  induction l with
  | nil => simp [setInsert]
  | cons r l ih =>
    obtain ⟨hr, hl⟩ := List.pairwise_cons.1 h
    unfold setInsert
    split_ifs with h1 h2
    · refine List.pairwise_cons.2 ⟨fun q hq => ?_, h⟩
      rcases List.mem_cons.1 hq with rfl | hq
      · exact h1
      · exact less_trans h1 (hr q hq)
    · refine List.pairwise_cons.2 ⟨fun q hq => ?_, ih hl⟩
      rcases (mem_setInsert heap p q l).1 hq with rfl | hq
      · exact h2
      · exact hr q hq
    · exact h

/-- An object outside the set may change. -/
theorem pairwise_update {heap : ℕ → Timer Cb} {p : ℕ} {l : List ℕ} (hp : p ∉ l) (t : Timer Cb)
    (h : l.Pairwise fun p q => less (key heap p) (key heap q) = true) :
    l.Pairwise fun q r => less (key (Function.update heap p t) q)
      (key (Function.update heap p t) r) = true := by
  refine h.imp_of_mem fun {q r} hq hr hlt => ?_
  have hqp : q ≠ p := fun he => hp (he ▸ hq)
  have hrp : r ≠ p := fun he => hp (he ▸ hr)
  simpa [key, hqp, hrp] using hlt

theorem Sorted.nodup {tm : TimerManager Cb} (h : tm.Sorted) : tm.timers.Nodup := by
  refine h.imp fun {p q} hlt heq => ?_
  rw [heq, less_iff] at hlt
  omega

/-! ### Adding and cancelling -/

section

variable {tm : TimerManager Cb} {p : ℕ}

theorem Sorted.addTimer (h : tm.Sorted) (hp : p ∉ tm.timers) (now ms : ℕ) (cb : Cb)
    (recurring : Bool) : (tm.addTimer now p ms cb recurring).1.Sorted :=
  pairwise_setInsert (pairwise_update hp _ h)

theorem mem_addTimer (tm : TimerManager Cb) (now p ms : ℕ) (cb : Cb) (recurring : Bool) (q : ℕ) :
    q ∈ (tm.addTimer now p ms cb recurring).1.timers ↔ q = p ∨ q ∈ tm.timers :=
  mem_setInsert _ p q tm.timers

theorem addTimer_heap (tm : TimerManager Cb) (now p ms : ℕ) (cb : Cb) (recurring : Bool) :
    (tm.addTimer now p ms cb recurring).1.heap =
      Function.update tm.heap p (.new now ms (some cb) recurring) :=
  rfl

/-- Cancelling a pending timer takes it out of the set. -/
theorem cancel_eq (hp : p ∈ tm.timers) (hcb : (tm.heap p).cb.isSome = true) :
    tm.cancel p = some (true, { tm with
      heap := Function.update tm.heap p { tm.heap p with cb := none }
      timers := tm.timers.erase p }) := by
  unfold cancel
  rw [if_pos hcb]
  simp only [(setFind_eq_some_iff _ p tm.timers).2 hp]

theorem Sorted.erase (h : tm.Sorted) (p : ℕ) (t : Timer Cb) :
    Sorted { tm with heap := Function.update tm.heap p t, timers := tm.timers.erase p } := by
  have hnot : p ∉ tm.timers.erase p := fun hp => (h.nodup.mem_erase_iff.1 hp).1 rfl
  exact pairwise_update hnot t (h.sublist List.erase_sublist)

end

/-! ### Expiry -/

theorem takeWhile_eq_of_forall {α : Type*} {P Q : α → Bool} {l : List α}
    (h : ∀ x ∈ l, P x = Q x) : l.takeWhile P = l.takeWhile Q := by
  induction l with
  | nil => rfl
  | cons x l ih =>
    have hx := h x List.mem_cons_self
    have hl := ih fun y hy => h y (List.mem_cons_of_mem _ hy)
    rw [List.takeWhile_cons, List.takeWhile_cons, hx, hl]

/-- In an ordered set, the timers collected are those whose deadline has come. -/
theorem Sorted.expired_eq {tm : TimerManager Cb} (h : tm.Sorted) (now p₀ : ℕ) :
    tm.expired now p₀ = tm.timers.takeWhile fun q => decide ((tm.heap q).next ≤ now) := by
  unfold expired
  unfold Sorted at h
  generalize tm.timers = l at h
  induction l with
  | nil => rfl
  | cons q l ih =>
    obtain ⟨hq, hl⟩ := List.pairwise_cons.1 h
    by_cases hb : less (key tm.heap q) (now, p₀) = true
    · have hle : (tm.heap q).next ≤ now := by
        rw [less_iff] at hb
        simp only [key] at hb
        omega
      have hrest := ih hl
      simp only at hrest ⊢
      rw [List.takeWhile_cons, List.dropWhile_cons, if_pos hb, if_pos hb, List.cons_append, hrest,
        List.takeWhile_cons, if_pos (by simpa using hle)]
    · have hge : ∀ r ∈ q :: l, now ≤ (tm.heap r).next := by
        intro r hr
        rw [less_iff] at hb
        simp only [key] at hb
        rcases List.mem_cons.1 hr with rfl | hr
        · omega
        · have hlt := less_iff.1 (hq r hr)
          simp only [key] at hlt
          omega
      simp only
      rw [List.takeWhile_cons, List.dropWhile_cons, if_neg hb, if_neg hb, List.nil_append]
      refine takeWhile_eq_of_forall fun r hr => ?_
      have := hge r hr
      rw [Bool.eq_iff_iff, beq_iff_eq, decide_eq_true_eq]
      omega

/-- In an ordered list, what has a property that the smaller elements inherit comes first. -/
theorem takeWhile_eq_filter {α : Type*} {R : α → α → Prop} {P : α → Bool} {l : List α}
    (h : l.Pairwise R) (hP : ∀ x y, R x y → P y = true → P x = true) :
    l.takeWhile P = l.filter P := by
  induction l with
  | nil => rfl
  | cons x l ih =>
    obtain ⟨hx, hl⟩ := List.pairwise_cons.1 h
    by_cases hPx : P x = true
    · rw [List.takeWhile_cons_of_pos hPx, List.filter_cons_of_pos hPx, ih hl]
    · rw [List.takeWhile_cons_of_neg hPx, List.filter_cons_of_neg hPx, eq_comm,
        List.filter_eq_nil_iff]
      exact fun y hy hPy => hPx (hP x y (hx y hy) hPy)

theorem Sorted.expired_eq_filter {tm : TimerManager Cb} (h : tm.Sorted) (now p₀ : ℕ) :
    tm.expired now p₀ = tm.timers.filter fun q => decide ((tm.heap q).next ≤ now) := by
  rw [h.expired_eq]
  refine takeWhile_eq_filter h fun q r hlt hle => ?_
  have hlt := less_iff.1 hlt
  simp only [key] at hlt
  rw [decide_eq_true_eq] at hle ⊢
  omega

theorem Sorted.mem_expired {tm : TimerManager Cb} (h : tm.Sorted) (now p₀ q : ℕ) :
    q ∈ tm.expired now p₀ ↔ q ∈ tm.timers ∧ (tm.heap q).next ≤ now := by
  rw [h.expired_eq_filter, List.mem_filter, decide_eq_true_eq]

theorem Sorted.head_le {tm : TimerManager Cb} (h : tm.Sorted) {p : ℕ} {l : List ℕ}
    (ht : tm.timers = p :: l) {q : ℕ} (hq : q ∈ tm.timers) :
    (tm.heap p).next ≤ (tm.heap q).next := by
  unfold Sorted at h
  rw [ht] at h hq
  rcases List.mem_cons.1 hq with rfl | hq
  · exact le_rfl
  · have hlt := less_iff.1 ((List.pairwise_cons.1 h).1 q hq)
    simp only [key] at hlt
    omega

theorem Sorted.timers_eq {tm : TimerManager Cb} (h : tm.Sorted) (now p₀ : ℕ) :
    tm.timers = tm.expired now p₀ ++ tm.timers.drop (tm.expired now p₀).length := by
  have hpre : tm.expired now p₀ <+: tm.timers := by
    rw [h.expired_eq]
    exact List.takeWhile_prefix _
  conv_lhs => rw [← List.take_append_drop (tm.expired now p₀).length tm.timers]
  rw [← List.prefix_iff_eq_take.1 hpre]

/-- What is left in the set when the collected timers have been erased. -/
theorem Sorted.mem_drop_expired {tm : TimerManager Cb} (h : tm.Sorted) (now p₀ q : ℕ) :
    q ∈ tm.timers.drop (tm.expired now p₀).length ↔
      q ∈ tm.timers ∧ now < (tm.heap q).next := by
  have hsplit := h.timers_eq now p₀
  have hnd := h.nodup
  rw [hsplit] at hnd
  obtain ⟨-, -, hdis⟩ := List.nodup_append.1 hnd
  constructor
  · intro hq
    have hq' := List.mem_of_mem_drop hq
    refine ⟨hq', not_le.1 fun hle => ?_⟩
    exact hdis q ((h.mem_expired now p₀ q).2 ⟨hq', hle⟩) q hq rfl
  · rintro ⟨hq, hlt⟩
    rw [hsplit] at hq
    rcases List.mem_append.1 hq with hq | hq
    · exact absurd ((h.mem_expired now p₀ q).1 hq).2 (not_le.2 hlt)
    · exact hq

/-- Putting a timer back changes nothing but its deadline. -/
theorem rearm_heap (tm : TimerManager Cb) (p q : ℕ) :
    ((tm.rearm p).heap q).cb = (tm.heap q).cb ∧
      ((tm.rearm p).heap q).recurring = (tm.heap q).recurring := by
  unfold rearm
  split_ifs
  · by_cases hq : q = p
    · subst hq
      simp [insert]
    · simp [insert, hq]
  · exact ⟨rfl, rfl⟩

theorem mem_rearm (tm : TimerManager Cb) (p q : ℕ) :
    q ∈ (tm.rearm p).timers ↔ q ∈ tm.timers ∨ (q = p ∧ (tm.heap p).recurring = true) := by
  unfold rearm
  split_ifs with h
  · simp only [insert, mem_setInsert, h, and_true]
    exact or_comm
  · simp [h]

theorem Sorted.rearm {tm : TimerManager Cb} (h : tm.Sorted) {p : ℕ} (hp : p ∉ tm.timers) :
    (tm.rearm p).Sorted := by
  unfold TimerManager.rearm
  split_ifs
  · exact pairwise_setInsert (pairwise_update hp _ h)
  · exact h

/-- What the loop over the collected timers leaves: those that recur are in the set again. -/
theorem foldl_rearm (l : List ℕ) : ∀ tm : TimerManager Cb, tm.Sorted → l.Nodup →
    (∀ p ∈ l, p ∉ tm.timers) →
    (l.foldl rearm tm).Sorted ∧
      (∀ q, ((l.foldl rearm tm).heap q).cb = (tm.heap q).cb ∧
        ((l.foldl rearm tm).heap q).recurring = (tm.heap q).recurring) ∧
      ∀ q, q ∈ (l.foldl rearm tm).timers ↔
        q ∈ tm.timers ∨ (q ∈ l ∧ (tm.heap q).recurring = true) := by
  induction l with
  | nil => intro tm h _ _; exact ⟨h, fun _ => ⟨rfl, rfl⟩, fun q => by simp⟩
  | cons p l ih =>
    intro tm h hnd hout
    obtain ⟨hp, hnd⟩ := List.nodup_cons.1 hnd
    have hout' : ∀ q ∈ l, q ∉ (tm.rearm p).timers := by
      intro q hq hm
      rcases (mem_rearm tm p q).1 hm with hm | ⟨rfl, -⟩
      · exact hout q (List.mem_cons_of_mem _ hq) hm
      · exact hp hq
    obtain ⟨hs, hheap, hmem⟩ := ih (tm.rearm p) (h.rearm (hout p List.mem_cons_self)) hnd hout'
    refine ⟨hs, fun q => ?_, fun q => ?_⟩
    · exact ⟨(hheap q).1.trans (rearm_heap tm p q).1, (hheap q).2.trans (rearm_heap tm p q).2⟩
    · rw [List.foldl_cons, hmem, mem_rearm, (rearm_heap tm p q).2, List.mem_cons]
      constructor
      · rintro ((hm | ⟨rfl, hr⟩) | ⟨hm, hr⟩)
        · exact .inl hm
        · exact .inr ⟨.inl rfl, hr⟩
        · exact .inr ⟨.inr hm, hr⟩
      · rintro (hm | ⟨rfl | hm, hr⟩)
        · exact .inl (.inl hm)
        · exact .inl (.inr ⟨rfl, hr⟩)
        · exact .inr ⟨hm, hr⟩

/-- The first deadline has not come. -/
theorem listExpiredCb_of_lt {tm : TimerManager Cb} {p : ℕ} {l : List ℕ} (ht : tm.timers = p :: l)
    {now : ℕ} (hlt : now < (tm.heap p).next) (p₀ : ℕ) :
    tm.listExpiredCb now p₀ = ({ tm with previousTime := now }, []) := by
  unfold listExpiredCb
  simp [ht, detectClockRollover, hlt]

/-- The first deadline has come. -/
theorem listExpiredCb_of_le {tm : TimerManager Cb} {p : ℕ} {l : List ℕ} (ht : tm.timers = p :: l)
    {now : ℕ} (hle : (tm.heap p).next ≤ now) (p₀ : ℕ) :
    tm.listExpiredCb now p₀ =
      ((tm.expired now p₀).foldl rearm
          ⟨tm.heap, tm.timers.drop (tm.expired now p₀).length, now⟩,
        (tm.expired now p₀).map fun q => (tm.heap q).cb) := by
  unfold listExpiredCb
  simp only [ht, detectClockRollover, not_lt.2 hle, decide_false, Bool.and_false,
    Bool.false_eq_true, ↓reduceIte, expired]

/-- **What `listExpiredCb` does**: it collects the callbacks of the timers whose deadline has come
and takes these timers out of the set, except those that recur. -/
theorem listExpiredCb_spec {tm : TimerManager Cb} (h : tm.Sorted) (now p₀ : ℕ) :
    (tm.listExpiredCb now p₀).1.Sorted ∧
      (tm.listExpiredCb now p₀).2 =
        (tm.timers.filter fun q => decide ((tm.heap q).next ≤ now)).map (fun q => (tm.heap q).cb) ∧
      (∀ q, ((tm.listExpiredCb now p₀).1.heap q).cb = (tm.heap q).cb ∧
        ((tm.listExpiredCb now p₀).1.heap q).recurring = (tm.heap q).recurring) ∧
      ∀ q, q ∈ (tm.listExpiredCb now p₀).1.timers ↔
        q ∈ tm.timers ∧ (now < (tm.heap q).next ∨ (tm.heap q).recurring = true) := by
  cases ht : tm.timers with
  | nil =>
    unfold listExpiredCb
    simp [ht, h]
  | cons p l =>
    by_cases hnow : now < (tm.heap p).next
    · have hlater : ∀ q ∈ tm.timers, now < (tm.heap q).next :=
        fun q hq => hnow.trans_le (h.head_le ht hq)
      rw [listExpiredCb_of_lt ht hnow, ← ht]
      refine ⟨h, ?_, fun _ => ⟨rfl, rfl⟩, fun q => ⟨fun hq => ⟨hq, .inl (hlater q hq)⟩, And.left⟩⟩
      rw [List.filter_eq_nil_iff.2, List.map_nil]
      intro q hq
      rw [decide_eq_true_eq]
      exact not_le.2 (hlater q hq)
    · have hnd : (tm.expired now p₀).Nodup := by
        rw [h.expired_eq_filter]
        exact h.nodup.filter _
      have hout : ∀ q ∈ tm.expired now p₀, q ∉ tm.timers.drop (tm.expired now p₀).length := by
        intro q hq hq'
        have hlt := ((h.mem_drop_expired now p₀ q).1 hq').2
        exact absurd ((h.mem_expired now p₀ q).1 hq).2 (not_le.2 hlt)
      obtain ⟨hs, hheap, hmem⟩ := foldl_rearm (tm.expired now p₀)
        ⟨tm.heap, tm.timers.drop (tm.expired now p₀).length, now⟩
        (List.Pairwise.sublist (List.drop_sublist _ _) h) hnd hout
      rw [listExpiredCb_of_le ht (not_lt.1 hnow), ← ht]
      refine ⟨hs, by rw [h.expired_eq_filter], hheap, fun q => ?_⟩
      rw [hmem, h.mem_expired, h.mem_drop_expired]
      constructor
      · rintro (⟨hq, hlt⟩ | ⟨⟨hq, -⟩, hr⟩)
        · exact ⟨hq, .inl hlt⟩
        · exact ⟨hq, .inr hr⟩
      · rintro ⟨hq, hlt | hr⟩
        · exact .inl ⟨hq, hlt⟩
        · rcases lt_or_ge now (tm.heap q).next with hlt | hle
          · exact .inl ⟨hq, hlt⟩
          · exact .inr ⟨⟨hq, hle⟩, hr⟩

/-! ### Deadlines -/

/-- The deadlines of the pending timers are 64-bit numbers. -/
def Bounded (tm : TimerManager Cb) : Prop := ∀ p ∈ tm.timers, (tm.heap p).next < 2 ^ 64

theorem Bounded.addTimer {tm : TimerManager Cb} (h : tm.Bounded) (now p ms : ℕ) (cb : Cb)
    (recurring : Bool) : (tm.addTimer now p ms cb recurring).1.Bounded := by
  intro q hq
  rw [addTimer_heap]
  by_cases hqp : q = p
  · rw [hqp, Function.update_self]
    exact Nat.mod_lt _ (by decide)
  · rw [Function.update_of_ne hqp]
    exact h q (((mem_addTimer ..).1 hq).resolve_left hqp)

theorem Bounded.cancel {tm : TimerManager Cb} (h : tm.Bounded) {p : ℕ}
    {r : Bool × TimerManager Cb} (hr : tm.cancel p = some r) :
    r.2.Bounded ∧ (r.2.timers ≠ [] → tm.timers ≠ []) := by
  simp only [TimerManager.cancel] at hr
  split_ifs at hr with hcb
  · split at hr
    · rename_i q hq
      obtain rfl := Option.some.inj hr
      refine ⟨fun q' hq' => ?_, fun hne hnil => hne (by simp [hnil])⟩
      have hb := h q' (List.mem_of_mem_erase hq')
      by_cases hqp : q' = p
      · subst hqp
        simpa using hb
      · simpa [hqp] using hb
    · cases hr
  · obtain rfl := Option.some.inj hr
    exact ⟨h, id⟩

theorem Bounded.rearm {tm : TimerManager Cb} (h : tm.Bounded) (p : ℕ) : (tm.rearm p).Bounded := by
  intro q hq
  unfold TimerManager.rearm at hq ⊢
  split_ifs at hq ⊢
  · by_cases hqp : q = p
    · subst hqp
      simp only [TimerManager.insert, Function.update_self]
      exact Nat.mod_lt _ (by decide)
    · simp only [TimerManager.insert, Function.update_of_ne hqp]
      exact h q (((mem_setInsert ..).1 hq).resolve_left hqp)
  · exact h q hq

theorem Bounded.listExpiredCb {tm : TimerManager Cb} (h : tm.Bounded) (now p₀ : ℕ) :
    (tm.listExpiredCb now p₀).1.Bounded ∧
      ((tm.listExpiredCb now p₀).1.timers ≠ [] → tm.timers ≠ []) := by
  have hfold : ∀ (l : List ℕ) (tm : TimerManager Cb), tm.Bounded →
      (l.foldl TimerManager.rearm tm).Bounded := by
    intro l
    induction l with
    | nil => exact fun _ h => h
    | cons p l ih => exact fun tm h => ih _ (h.rearm p)
  unfold TimerManager.listExpiredCb
  split
  · exact ⟨h, id⟩
  · rename_i ht
    simp only
    split_ifs
    · exact ⟨h, fun _ => by simp [ht]⟩
    · exact ⟨hfold _ _ fun q hq => h q (List.mem_of_mem_drop hq), fun _ => by simp [ht]⟩

/-- `getNextTimer` returns `~0` only if there is no timer. -/
theorem Bounded.getNextTimer_ne {tm : TimerManager Cb} (h : tm.Bounded) (ht : tm.timers ≠ [])
    {now : ℕ} (hnow : 0 < now) : tm.getNextTimer now ≠ 2 ^ 64 - 1 := by
  unfold TimerManager.getNextTimer
  split
  · rename_i hnil
    exact absurd hnil ht
  · rename_i p l hl
    have hb := h p (by simp [hl])
    split_ifs
    · decide
    · omega

end TimerManager

end YXTWebCpp
