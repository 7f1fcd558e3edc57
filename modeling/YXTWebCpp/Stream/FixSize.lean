import YXTWebCpp.Blocks.Basic
import YXTWebCpp.Codec.Basic

/-!
# Transfers of a fixed size

`Stream::readFixSize` and `Stream::writeFixSize` (`stream.cpp`) call `read` or `write` until all
bytes have been transferred, or until a call returns nothing or an error.

* `fixSize` : the loop, for any call that transfers at most as many bytes as it is told.
* `fixLoop_cases` : how it ends, with an invariant on what is left and on what the calls change.
* `Schedule` : what the calls return, one after the other.
* `readFixSize`, `writeFixSize` : the loop with a buffer in memory.
* `Truthful` : what is returned says whether all bytes have been transferred.
* `fixSize_truthful_iff` : when this is so, for reads and writes alike.
* `readFixSize_writeFixSize_truthful_iff` : **when the result is truthful.**
-/

namespace YXTWebCpp

namespace Stream

open Blocks Codec

/-! ### The loop -/

section Loop

variable {σ : Type}

/-- The loop of `readFixSize` and `writeFixSize`.  `transfer` is the call of `read` or `write` for
at most `left` bytes; it changes the state, and it may have no result because its behaviour is
undefined. -/
def fixLoop (transfer : ℕ → σ → Option (ℤ × σ)) (length left : ℕ) (s : σ) : Option (ℤ × σ) :=
  if _ : left = 0 then some (signed 32 length, s)
  else
    match transfer left s with
    | none => none
    | some (len, s') =>
      if _ : len ≤ 0 then some (len, s')
      else fixLoop transfer length (left - len.toNat) s'
termination_by left
decreasing_by omega

/-- `readFixSize` and `writeFixSize`: `int64_t left = length`, and then the loop. -/
def fixSize (transfer : ℕ → σ → Option (ℤ × σ)) (length : ℕ) (s : σ) : Option (ℤ × σ) :=
  fixLoop transfer length (signed 64 length).toNat s

variable {transfer : ℕ → σ → Option (ℤ × σ)} {length left : ℕ} {s : σ}

theorem fixSize_of_lt (h : length < 2 ^ 63) :
    fixSize transfer length s = fixLoop transfer length length s := by
  rw [fixSize, signed_of_lt (by omega) (by exact_mod_cast h), Int.toNat_natCast]

/-- How the loop ends, if every call that returns more than 0 keeps the invariant: all is done, or
the last call has returned at most 0, or it has no result. -/
theorem fixLoop_cases (length : ℕ) (I : ℕ → σ → Prop) (hI : I left s)
    (hstep : ∀ left s len s', 0 < left → I left s → transfer left s = some (len, s') → 0 < len →
      I (left - len.toNat) s') :
    (∃ s', fixLoop transfer length left s = some (signed 32 length, s') ∧ I 0 s') ∨
      (∃ left' s₁ len s₂, 0 < left' ∧ I left' s₁ ∧ transfer left' s₁ = some (len, s₂) ∧ len ≤ 0 ∧
        fixLoop transfer length left s = some (len, s₂)) ∨
      ∃ left' s₁, 0 < left' ∧ I left' s₁ ∧ transfer left' s₁ = none ∧
        fixLoop transfer length left s = none := by
  induction left using Nat.strongRecOn generalizing s with
  | ind left ih =>
    rw [fixLoop]
    by_cases h0 : left = 0
    · rw [dif_pos h0]
      exact .inl ⟨s, rfl, h0 ▸ hI⟩
    · rw [dif_neg h0]
      have hleft := Nat.pos_of_ne_zero h0
      cases hcall : transfer left s with
      | none => exact .inr (.inr ⟨left, s, hleft, hI, hcall, rfl⟩)
      | some r =>
        obtain ⟨len, s'⟩ := r
        by_cases hlen : len ≤ 0
        · simp only [dif_pos hlen]
          exact .inr (.inl ⟨left, s, len, s', hleft, hI, hcall, hlen, rfl⟩)
        · simp only [dif_neg hlen]
          exact ih _ (by omega) (hstep left s len s' hleft hI hcall (not_le.1 hlen))

end Loop

/-! ### Schedules -/

/-- What the calls return, one after the other, when they are offered enough. -/
abbrev Schedule := ℕ → Int32

/-- What has been transferred so far. -/
structure Progress where
  /-- The results of the calls. -/
  results : List ℤ
  /-- `offset` -/
  offset : ℕ
  /-- What has been done with the bytes: the memory that they have been read into, or the bytes that
  have been sent. -/
  bytes : List UInt8
deriving DecidableEq, Repr

/-- A call for at most `left` bytes.  `move` does with the next bytes what is to be done. -/
def call (results : Schedule) (move : ℕ → ℕ → List UInt8 → List UInt8) (left : ℕ) (s : Progress) :
    Option (ℤ × Progress) :=
  let len := min (results s.results.length).toInt left
  some (len, ⟨s.results ++ [len], s.offset + len.toNat, move s.offset len.toNat s.bytes⟩)

/-- The next bytes of the source are stored in memory. -/
def receive (source : ℕ → UInt8) (offset n : ℕ) (memory : List UInt8) : List UInt8 :=
  overwrite memory offset ((List.range' offset n).map source)

/-- The next bytes of the buffer are sent. -/
def emit (buffer : List UInt8) (offset n : ℕ) (sent : List UInt8) : List UInt8 :=
  sent ++ (buffer.drop offset).take n

/-- `readFixSize(buffer, length)`, where `memory` is what is in memory from `buffer` on, and
`source` are the bytes that arrive. -/
def readFixSize (results : Schedule) (source : ℕ → UInt8) (memory : List UInt8) (length : ℕ) :
    Option (ℤ × Progress) :=
  fixSize (call results (receive source)) length ⟨[], 0, memory⟩

/-- `writeFixSize(buffer, length)`. -/
def writeFixSize (results : Schedule) (buffer : List UInt8) (length : ℕ) :
    Option (ℤ × Progress) :=
  fixSize (call results (emit buffer)) length ⟨[], 0, []⟩

/-! ### What the result says -/

/-- The number of bytes that have been transferred. -/
def Progress.transferred (s : Progress) : ℕ := (s.results.map Int.toNat).sum

/-- The result is positive exactly if all bytes have been transferred, and they are where they
belong then; otherwise it is the first result that is not positive. -/
def Truthful (length : ℕ) (expected : List UInt8) (r : Option (ℤ × Progress)) : Prop :=
  ∃ ret s, r = some (ret, s) ∧ (0 < ret ↔ s.transferred = length) ∧
    if s.transferred = length then s.bytes = expected
    else s.results.find? (· ≤ 0) = some ret

/-- As many bytes as the first `n` calls transfer if they are offered enough. -/
def total (results : Schedule) (n : ℕ) : ℕ :=
  ((List.range n).map fun k => (results k).toInt.toNat).sum

/-- A result that is not positive comes before all bytes have been transferred. -/
def StopsBefore (results : Schedule) (length : ℕ) : Prop :=
  ∃ n, (results n).toInt ≤ 0 ∧ total results n < length

theorem total_succ (results : Schedule) (n : ℕ) :
    total results (n + 1) = total results n + (results n).toInt.toNat := by
  rw [total, List.range_succ, List.map_append, List.sum_append]
  simp [total]

theorem total_mono (results : Schedule) {m n : ℕ} (h : m ≤ n) :
    total results m ≤ total results n := by
  induction h with
  | refl => exact Nat.le_refl _
  | step _ ih => exact ih.trans (total_succ results _ ▸ Nat.le_add_right _ _)

section Truthful

variable {results : Schedule} {move : ℕ → ℕ → List UInt8 → List UInt8} {done : ℕ → List UInt8}
  {length : ℕ}

/-- What holds while the loop is running: all results have been positive, the bytes so far are where
they belong, and no call but a last one has been offered less than it could take. -/
structure Running (results : Schedule) (done : ℕ → List UInt8) (length left : ℕ) (s : Progress) :
    Prop where
  left_eq : s.offset + left = length
  bytes_eq : s.bytes = done s.offset
  transferred_eq : s.transferred = s.offset
  results_pos : ∀ r ∈ s.results, 0 < r
  schedule_pos : ∀ k < s.results.length, 0 < (results k).toInt
  total_ge : s.offset ≤ total results s.results.length
  total_eq : 0 < left → total results s.results.length = s.offset

theorem Progress.transferred_append (s : Progress) (r : ℤ) (offset : ℕ) (bytes : List UInt8) :
    (Progress.mk (s.results ++ [r]) offset bytes).transferred = s.transferred + r.toNat := by
  simp [transferred]

theorem Running.step {left : ℕ} {s s' : Progress} {len : ℤ}
    (h : Running results done length left s)
    (hmove : ∀ m n, m + n ≤ length → move m n (done m) = done (m + n)) (hleft : 0 < left)
    (hcall : call results move left s = some (len, s')) (hlen : 0 < len) :
    Running results done length (left - len.toNat) s' := by
  simp only [call, Option.some.injEq, Prod.mk.injEq] at hcall
  obtain ⟨rfl, rfl⟩ := hcall
  have hleft_eq := h.left_eq
  have htotal := h.total_eq hleft
  have hsucc := total_succ results s.results.length
  refine ⟨?_, ?_, ?_, ?_, ?_, ?_, ?_⟩
  · change s.offset + _ + _ = _
    omega
  · change move s.offset _ s.bytes = _
    rw [h.bytes_eq]
    exact hmove _ _ (by omega)
  · rw [Progress.transferred_append, h.transferred_eq]
  · exact List.forall_mem_append.2 ⟨h.results_pos, List.forall_mem_singleton.2 hlen⟩
  · intro k hk
    rw [List.length_append, List.length_singleton] at hk
    obtain hk | rfl := Nat.lt_succ_iff_lt_or_eq.1 hk
    · exact h.schedule_pos k hk
    · omega
  · rw [List.length_append, List.length_singleton, hsucc]
    change s.offset + _ ≤ _
    omega
  · intro hmore
    rw [List.length_append, List.length_singleton, hsucc]
    change _ = s.offset + _
    omega

/-- The result is truthful exactly if a call stops the loop, or if the length is positive as an
`int`. -/
theorem fixSize_truthful_iff (results : Schedule) (hlength : length < 2 ^ 63)
    (hmove : ∀ m n, m + n ≤ length → move m n (done m) = done (m + n)) :
    Truthful length (done length) (fixSize (call results move) length ⟨[], 0, done 0⟩) ↔
      StopsBefore results length ∨ 0 < signed 32 length := by
  have hI : Running results done length length ⟨[], 0, done 0⟩ :=
    ⟨Nat.zero_add _, rfl, rfl, List.forall_mem_nil _, fun _ hk => absurd hk (Nat.not_lt_zero _),
      Nat.zero_le _, fun _ => rfl⟩
  rw [fixSize_of_lt hlength]
  obtain ⟨s, hr, h⟩ | ⟨left, s₁, len, s₂, hleft, h, hcall, hlen, hr⟩ | ⟨left, s₁, -, -, hnone, -⟩ :=
    fixLoop_cases length (Running results done length) hI
      fun left s len s' hleft h hcall hlen => h.step hmove hleft hcall hlen
  · -- all bytes have been transferred, so no call has stopped the loop
    have hall : s.transferred = length := h.transferred_eq.trans h.left_eq
    have hnot : ¬ StopsBefore results length := by
      rintro ⟨n, hstop, hbefore⟩
      have hge := h.total_ge
      have hleft := h.left_eq
      have hn : s.results.length ≤ n := by
        by_contra hlt
        exact absurd (h.schedule_pos n (not_le.1 hlt)) (not_lt.2 hstop)
      have hmono := total_mono results hn
      omega
    rw [or_iff_right hnot, hr]
    constructor
    · rintro ⟨ret, s', heq, hpos, -⟩
      obtain ⟨rfl, rfl⟩ := Prod.mk.inj (Option.some.inj heq)
      exact hpos.2 hall
    · intro hpos
      refine ⟨_, s, rfl, iff_of_true hpos hall, ?_⟩
      rw [if_pos hall, h.bytes_eq]
      exact congrArg done h.left_eq
  · simp only [call, Option.some.injEq, Prod.mk.injEq] at hcall
    obtain ⟨rfl, rfl⟩ := hcall
    have hleft_eq := h.left_eq
    have htotal := h.total_eq hleft
    have hstop : StopsBefore results length := ⟨s₁.results.length, by omega, by omega⟩
    refine iff_of_true ⟨_, _, hr, ?_, ?_⟩ (.inl hstop)
    · rw [Progress.transferred_append, h.transferred_eq]
      exact iff_of_false (not_lt.2 hlen) (by omega)
    · rw [Progress.transferred_append, h.transferred_eq, if_neg (by omega), List.find?_append,
        List.find?_eq_none.2 fun r hr => by simpa using h.results_pos r hr]
      simp [hlen]
  · cases hnone

end Truthful

/-- The bytes that have arrived, stored from the beginning of the memory on. -/
def arrived (source : ℕ → UInt8) (memory : List UInt8) (n : ℕ) : List UInt8 :=
  overwrite memory 0 ((List.range' 0 n).map source)

theorem arrived_add (source : ℕ → UInt8) (memory : List UInt8) (m n : ℕ) :
    receive source m n (arrived source memory m) = arrived source memory (m + n) := by
  have h := overwrite_overwrite (Nat.zero_le memory.length) ((List.range' 0 m).map source)
    ((List.range' m n).map source)
  rw [List.length_map, List.length_range', Nat.zero_add, ← List.map_append] at h
  have happend := List.range'_append_1 (s := 0) (m := m) (n := n)
  rw [Nat.zero_add] at happend
  rw [receive, arrived, arrived, h, happend]

/-- The result of a read and of a write is truthful exactly if a result that is not positive comes
before all bytes have been transferred, or if the lowest 32 bits of the length are a positive
`int`. -/
theorem readFixSize_writeFixSize_truthful_iff (results : Schedule) (source : ℕ → UInt8)
    (memory buffer : List UInt8) {length : ℕ} (hlength : length < 2 ^ 63) :
    (Truthful length (arrived source memory length) (readFixSize results source memory length) ↔
        StopsBefore results length ∨ 0 < signed 32 length) ∧
      (Truthful length (buffer.take length) (writeFixSize results buffer length) ↔
        StopsBefore results length ∨ 0 < signed 32 length) := by
  constructor
  · have h := fixSize_truthful_iff results hlength fun m n _ => arrived_add source memory m n
    rwa [show arrived source memory 0 = memory by simp [arrived]] at h
  · have hemit : ∀ m n, m + n ≤ length → emit buffer m n (buffer.take m) = buffer.take (m + n) :=
      fun m n _ => List.take_add.symm
    have h := fixSize_truthful_iff results hlength hemit
    rwa [List.take_zero] at h

theorem readFixSize_writeFixSize_truthful_iff_two :
    (Truthful 2 (arrived (fun _ => 7) [0, 0] 2) (readFixSize (fun _ => 1) (fun _ => 7) [0, 0] 2) ↔
        StopsBefore (fun _ => 1) 2 ∨ 0 < signed 32 2) ∧
      (Truthful 2 ([1, 2].take 2) (writeFixSize (fun _ => 1) [1, 2] 2) ↔
        StopsBefore (fun _ => 1) 2 ∨ 0 < signed 32 2) :=
  readFixSize_writeFixSize_truthful_iff (fun _ => 1) (fun _ => 7) [0, 0] [1, 2] (by decide)

/-- All of `2 ^ 31` bytes are read, in two halves, and the result is negative. -/
theorem not_readFixSize_truthful :
    ¬ ∀ (results : Schedule) (source : ℕ → UInt8) (memory : List UInt8) (length : ℕ), 1 ≤ length →
      length < 2 ^ 63 →
        Truthful length (arrived source memory length)
          (readFixSize results source memory length) := by
  intro h
  have htruthful := h (fun _ => 2 ^ 30) (fun _ => 0) [] (2 ^ 31) (by decide) (by decide)
  have hiff := fixSize_truthful_iff (fun _ => 2 ^ 30) (show 2 ^ 31 < 2 ^ 63 by decide)
    fun m n _ => arrived_add (fun _ => 0) [] m n
  obtain ⟨n, hstop, -⟩ | hpos := hiff.1 htruthful
  · change (2 ^ 30 : Int32).toInt ≤ 0 at hstop
    exact absurd hstop (by decide)
  · exact absurd hpos (by decide +kernel)

end Stream

end YXTWebCpp
