import YXTWebCpp.Timer.Basic
import Mathlib.Algebra.Order.Ring.Int
import Mathlib.Tactic.NormNum

/-!
# Hooked sleeps

`sleep`, `usleep` and `nanosleep` (`hook.cpp`) add a timer that schedules the fiber again, and
yield.  Each of them makes milliseconds of its argument in another type.

* `SleepCall.delay` : the milliseconds that `addTimer` receives.
* `SleepCall.NeverEarly` : they are the duration asked for, rounded up.
* `neverEarly_iff` : **which calls do not return early**.
* `requested_le_deadline` : what this means for the deadline of the timer.
-/

namespace YXTWebCpp

namespace Hook

/-- `timespec` -/
structure Timespec where
  /-- `tv_sec` -/
  sec : Int64
  /-- `tv_nsec` -/
  nsec : Int64

/-- A call with the hook enabled. -/
inductive SleepCall where
  | sleep (seconds : UInt32)
  | usleep (usec : UInt32)
  | nanosleep (req : Timespec)

/-- A value that fits into a `long`. -/
def IsLong (z : ℤ) : Prop := -2 ^ 63 ≤ z ∧ z < 2 ^ 63

instance (z : ℤ) : Decidable (IsLong z) := inferInstanceAs (Decidable (_ ∧ _))

/-- `timeout_ms` of `nanosleep`, `none` where the arithmetic of `long` overflows. -/
def Timespec.timeoutMs (req : Timespec) : Option Int32 :=
  let sec := req.sec.toInt * 1000
  let ms := sec + (req.nsec.toInt.tdiv 1000).tdiv 1000
  if IsLong sec ∧ IsLong ms then some (.ofInt ms) else none

namespace SleepCall

/-- The milliseconds that `addTimer` receives. -/
def delay : SleepCall → Option UInt64
  | sleep seconds => some (seconds * 1000).toUInt64
  | usleep usec => some (usec / 1000).toUInt64
  | nanosleep req => req.timeoutMs.map fun ms => .ofInt ms.toInt

/-- The nanoseconds that are asked for. -/
def requested : SleepCall → ℤ
  | sleep seconds => seconds.toNat * 10 ^ 9
  | usleep usec => usec.toNat * 1000
  | nanosleep req => req.sec.toInt * 10 ^ 9 + req.nsec.toInt

/-- The argument is a duration. -/
def Valid : SleepCall → Prop
  | nanosleep req => 0 ≤ req.sec.toInt ∧ 0 ≤ req.nsec.toInt ∧ req.nsec.toInt < 10 ^ 9
  | _ => True

/-- The timer is at least as long as the duration asked for, and less than a millisecond longer. -/
def NeverEarly (c : SleepCall) : Prop :=
  ∃ ms, c.delay = some ms ∧ c.requested ≤ ms.toNat * 10 ^ 6 ∧
    (ms.toNat * 10 ^ 6 : ℤ) < c.requested + 10 ^ 6

/-- The duration is a number of milliseconds that no conversion on the way changes. -/
def Exact : SleepCall → Prop
  | sleep seconds => seconds.toNat ≤ 4294967
  | usleep usec => 1000 ∣ usec.toNat
  | nanosleep req => 10 ^ 6 ∣ req.nsec.toInt ∧
      req.sec.toInt * 1000 + req.nsec.toInt / 10 ^ 6 < 2 ^ 31

end SleepCall

open SleepCall

theorem neverEarly_sleep_iff (seconds : UInt32) :
    (sleep seconds).NeverEarly ↔ (sleep seconds).Exact := by
  have hdelay : ((seconds * 1000).toUInt64.toNat) = seconds.toNat * 1000 % 2 ^ 32 := by
    rw [UInt32.toNat_toUInt64, UInt32.toNat_mul]
    rfl
  constructor
  · rintro ⟨_, ⟨⟩, hle, -⟩
    rw [hdelay] at hle
    simp only [requested] at hle
    show seconds.toNat ≤ 4294967
    omega
  · intro (h : seconds.toNat ≤ 4294967)
    refine ⟨_, rfl, ?_⟩
    rw [hdelay]
    simp only [requested]
    omega

theorem neverEarly_usleep_iff (usec : UInt32) :
    (usleep usec).NeverEarly ↔ (usleep usec).Exact := by
  have hdelay : ((usec / 1000).toUInt64.toNat) = usec.toNat / 1000 := by
    rw [UInt32.toNat_toUInt64, UInt32.toNat_div]
    rfl
  constructor
  · rintro ⟨_, ⟨⟩, hle, -⟩
    rw [hdelay] at hle
    simp only [requested] at hle
    show 1000 ∣ usec.toNat
    omega
  · intro (h : 1000 ∣ usec.toNat)
    refine ⟨_, rfl, ?_⟩
    rw [hdelay]
    simp only [requested]
    omega

/-- The sum of seconds and nanoseconds in milliseconds. -/
theorem timeoutMs_eq {req : Timespec} (h : (nanosleep req).Valid) : req.timeoutMs =
    if req.sec.toInt * 1000 + req.nsec.toInt / 10 ^ 6 < 2 ^ 63 then
      some (.ofInt (req.sec.toInt * 1000 + req.nsec.toInt / 10 ^ 6))
    else none := by
  obtain ⟨hsec, hnsec, -⟩ := h
  have hms : (req.nsec.toInt.tdiv 1000).tdiv 1000 = req.nsec.toInt / 10 ^ 6 := by
    rw [Int.tdiv_eq_ediv_of_nonneg hnsec, Int.tdiv_eq_ediv_of_nonneg (by omega)]
    omega
  have hdiv : 0 ≤ req.nsec.toInt / 10 ^ 6 := by omega
  rw [Timespec.timeoutMs, hms]
  refine if_congr ?_ rfl rfl
  unfold IsLong
  omega

/-- A `long` as the `uint64_t` that `addTimer` receives, after it was an `int`. -/
theorem toNat_ofInt_int32 (z : ℤ) :
    ((UInt64.ofInt (Int32.ofInt z).toInt).toNat : ℤ) = z.bmod (2 ^ 32) % 2 ^ 64 := by
  have hlt : z.bmod (2 ^ 32) % 2 ^ 64 < 2 ^ 64 := Int.emod_lt_of_pos _ (by decide)
  have hnonneg : 0 ≤ z.bmod (2 ^ 32) % 2 ^ 64 := Int.emod_nonneg _ (by decide)
  have hnat : (UInt64.ofInt (Int32.ofInt z).toInt).toNat =
      (z.bmod (2 ^ 32) % 2 ^ 64).toNat % 2 ^ 64 := by
    rw [UInt64.ofInt, Int32.toInt_ofInt, UInt64.toNat_ofNat']
    rfl
  omega

/-- An `int` holds the numbers below `2 ^ 31`. -/
theorem bmod_emod_of_lt {z : ℤ} (hz : 0 ≤ z) (h : z < 2 ^ 31) :
    z.bmod (2 ^ 32) % 2 ^ 64 = z := by
  rw [Int.bmod_def]
  split_ifs <;> omega

/-- Any other number becomes a smaller one, or by the extension of its sign a much larger one. -/
theorem bmod_emod_of_le {z : ℤ} (hz : 2 ^ 31 ≤ z) (h : z < 2 ^ 63) :
    z.bmod (2 ^ 32) % 2 ^ 64 < z ∨ z + 1 < z.bmod (2 ^ 32) % 2 ^ 64 := by
  rw [Int.bmod_def]
  split_ifs <;> omega

theorem neverEarly_nanosleep_iff {req : Timespec} (h : (nanosleep req).Valid) :
    (nanosleep req).NeverEarly ↔ (nanosleep req).Exact := by
  have htimeout := timeoutMs_eq h
  have hdelay := toNat_ofInt_int32 (req.sec.toInt * 1000 + req.nsec.toInt / 10 ^ 6)
  obtain ⟨hsec, hnsec, hlt⟩ := h
  constructor
  · rintro ⟨ms, hms, hle, hless⟩
    simp only [delay, htimeout] at hms
    split_ifs at hms with hlong
    · obtain rfl := Option.some.inj hms
      rw [hdelay] at hle hless
      simp only [requested] at hle hless
      have hint : req.sec.toInt * 1000 + req.nsec.toInt / 10 ^ 6 < 2 ^ 31 := by
        by_contra hge
        rcases bmod_emod_of_le (not_lt.1 hge) hlong with hsmall | hlarge
        · omega
        · omega
      rw [bmod_emod_of_lt (by omega) hint] at hle
      exact ⟨by omega, hint⟩
    · cases hms
  · rintro ⟨hdvd, hint⟩
    have hlong : req.sec.toInt * 1000 + req.nsec.toInt / 10 ^ 6 < 2 ^ 63 := by omega
    refine ⟨_, by rw [delay, htimeout, if_pos hlong]; rfl, ?_⟩
    rw [hdelay, bmod_emod_of_lt (by omega) hint]
    simp only [requested]
    omega

/-- **Sleeps that do not end early**: the seconds of `sleep` times 1000 fit into 32 bits, the
duration of `usleep` and `nanosleep` is a number of milliseconds, and the one of `nanosleep` fits
into an `int`. -/
theorem neverEarly_iff (c : SleepCall) (h : c.Valid) : c.NeverEarly ↔ c.Exact := by
  cases c with
  | sleep seconds => exact neverEarly_sleep_iff seconds
  | usleep usec => exact neverEarly_usleep_iff usec
  | nanosleep req => exact neverEarly_nanosleep_iff h

theorem neverEarly_iff_half : (nanosleep ⟨1, 500000000⟩).NeverEarly :=
  (neverEarly_iff (nanosleep ⟨1, 500000000⟩)
    ⟨by decide +kernel, by decide +kernel, by decide +kernel⟩).2
      ⟨by decide +kernel, by decide +kernel⟩

/-- **Every one of the three returns early at times**: the milliseconds of `sleep` wrap, `usleep`
drops the microseconds below one millisecond, and `nanosleep` the nanoseconds; with its sign
extended, the milliseconds of `nanosleep` become a timeout of half a billion years. -/
theorem exists_not_neverEarly :
    (sleep 4294968).delay = some 704 ∧ ¬ (sleep 4294968).NeverEarly ∧
      (usleep 999).delay = some 0 ∧ ¬ (usleep 999).NeverEarly ∧
      (nanosleep ⟨0, 999999⟩).delay = some 0 ∧ ¬ (nanosleep ⟨0, 999999⟩).NeverEarly ∧
      (nanosleep ⟨2147483, 648000000⟩).delay = some 18446744071562067968 ∧
      ¬ (nanosleep ⟨2147483, 648000000⟩).NeverEarly := by
  have hnot : ∀ (c : SleepCall) (ms : UInt64), c.delay = some ms →
      (ms.toNat * 10 ^ 6 < c.requested ∨ c.requested + 10 ^ 6 ≤ ms.toNat * 10 ^ 6) →
        ¬ c.NeverEarly := by
    rintro c ms hms hor ⟨ms', hms', hle, hlt⟩
    obtain rfl := Option.some.inj (hms.symm.trans hms')
    omega
  have hsleep : (sleep 4294968).delay = some 704 := by decide +kernel
  have husleep : (usleep 999).delay = some 0 := by decide +kernel
  have hnano : (nanosleep ⟨0, 999999⟩).delay = some 0 := by decide +kernel
  have hsign : (nanosleep ⟨2147483, 648000000⟩).delay = some 18446744071562067968 := by
    decide +kernel
  exact ⟨hsleep, hnot _ _ hsleep (by decide +kernel), husleep, hnot _ _ husleep (by decide +kernel),
    hnano, hnot _ _ hnano (by decide +kernel), hsign, hnot _ _ hsign (by decide +kernel)⟩

/-! ### The timer -/

/-- A hooked sleep at clock `now` until it yields: `schedule` is the callback of the timer at
`p`. -/
def SleepCall.start {Cb : Type*} (c : SleepCall) (tm : TimerManager Cb) (now p : ℕ)
    (schedule : Cb) : Option (TimerManager Cb × Bool) :=
  c.delay.map fun ms => tm.addTimer now p ms.toNat schedule false

/-- The deadline of a sleep that does not end early, in nanoseconds, unless the clock wraps. -/
theorem requested_le_deadline {Cb : Type*} {c : SleepCall} (h : c.NeverEarly)
    {tm tm' : TimerManager Cb} {now p : ℕ} {schedule : Cb} {front : Bool}
    (hstart : c.start tm now p schedule = some (tm', front))
    (hclock : ∀ ms, c.delay = some ms → now + ms.toNat < 2 ^ 64) :
    now * 10 ^ 6 + c.requested ≤ (tm'.heap p).next * 10 ^ 6 := by
  obtain ⟨ms, hms, hle, -⟩ := h
  rw [SleepCall.start, hms] at hstart
  obtain rfl : (tm.addTimer now p ms.toNat schedule false).1 = tm' :=
    congrArg Prod.fst (Option.some.inj hstart)
  rw [TimerManager.addTimer_heap, Function.update_self, Timer.new, Nat.mod_eq_of_lt (hclock ms hms)]
  push_cast
  omega

end Hook

end YXTWebCpp
