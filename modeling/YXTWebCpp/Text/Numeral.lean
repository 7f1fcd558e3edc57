import Mathlib.Algebra.Ring.Nat
import Mathlib.Tactic.SplitIfs

/-!
# Numbers as text

* `numeral b n` : `n` in base `b`, at most sixteen, in lower case and without leading zeros.
* `readNumeral b s` : the number that `s` states in base `b`, in either letter case.
* `readNumeral_numeral` : what is written is read again.
* `length_numeral_le_iff` : how many digits a number has.
-/

namespace YXTWebCpp

namespace Text

/-- `n` in base `b`. -/
def numeral (b n : ℕ) : List UInt8 := (Nat.toDigits b n).map fun c => c.toNat.toUInt8

/-- The value of a digit. -/
def digitValue (c : UInt8) : Option ℕ :=
  if 48 ≤ c ∧ c ≤ 57 then some (c.toNat - 48)
  else if 65 ≤ c ∧ c ≤ 70 then some (c.toNat - 55)
  else if 97 ≤ c ∧ c ≤ 102 then some (c.toNat - 87)
  else none

/-- `c` is a digit of base `b`. -/
def isDigit (b : ℕ) (c : UInt8) : Bool := (digitValue c).any (· < b)

/-- The value of a list of digits. -/
def numeralValue (b : ℕ) (s : List UInt8) : ℕ :=
  s.foldl (fun n c => b * n + (digitValue c).getD 0) 0

/-- The number that `s` states: digits, at least one. -/
def readNumeral (b : ℕ) (s : List UInt8) : Option ℕ :=
  if s ≠ [] ∧ s.all (isDigit b) then some (numeralValue b s) else none

variable {b n : ℕ}

theorem digitValue_digitChar : ∀ d < 16, digitValue (Nat.digitChar d).toNat.toUInt8 = some d := by
  decide

theorem isDigit_digitChar (hb : b ≤ 16) {d : ℕ} (hd : d < b) :
    isDigit b (Nat.digitChar d).toNat.toUInt8 = true := by
  rw [isDigit, digitValue_digitChar d (by omega), Option.any_some, decide_eq_true hd]

/-- The first digits are those of the quotient. -/
theorem numeral_eq (hb : 1 < b) (n : ℕ) : numeral b n =
    (if n < b then [] else numeral b (n / b)) ++ [(Nat.digitChar (n % b)).toNat.toUInt8] := by
  rw [numeral, Nat.toDigits_eq_if hb]
  split_ifs with h
  · rw [Nat.mod_eq_of_lt h]
    rfl
  · rw [List.map_append]
    rfl

theorem numeral_ne_nil (b n : ℕ) : numeral b n ≠ [] := by
  rw [numeral, Ne, List.map_eq_nil_iff]
  exact Nat.toDigits_ne_nil

theorem isDigit_of_mem_numeral (hb : 1 < b) (hb' : b ≤ 16) {c : UInt8} (h : c ∈ numeral b n) :
    isDigit b c = true := by
  induction n using Nat.strongRecOn with
  | ind n ih =>
  have hlast := isDigit_digitChar hb' (Nat.mod_lt n (by omega : 0 < b))
  rw [numeral_eq hb] at h
  split_ifs at h with hn
  · rw [List.nil_append, List.mem_singleton] at h
    rw [h, hlast]
  · rcases List.mem_append.1 h with h | h
    · exact ih (n / b) (Nat.div_lt_self (by omega) hb) h
    · rw [List.mem_singleton.1 h, hlast]

theorem numeralValue_append (s : List UInt8) (c : UInt8) :
    numeralValue b (s ++ [c]) = b * numeralValue b s + (digitValue c).getD 0 := by
  rw [numeralValue, List.foldl_append]
  rfl

theorem numeralValue_numeral (hb : 1 < b) (hb' : b ≤ 16) (n : ℕ) :
    numeralValue b (numeral b n) = n := by
  induction n using Nat.strongRecOn with
  | ind n ih =>
  have hdigit := digitValue_digitChar (n % b) (by have := Nat.mod_lt n (by omega : 0 < b); omega)
  rw [numeral_eq hb, numeralValue_append, hdigit, Option.getD_some]
  split_ifs with hn
  · rw [Nat.mod_eq_of_lt hn]
    exact Nat.zero_add n
  · rw [ih (n / b) (Nat.div_lt_self (by omega) hb), Nat.div_add_mod]

theorem readNumeral_numeral (hb : 1 < b) (hb' : b ≤ 16) (n : ℕ) :
    readNumeral b (numeral b n) = some n := by
  have hall : (numeral b n).all (isDigit b) = true :=
    List.all_eq_true.2 fun c hc => isDigit_of_mem_numeral hb hb' hc
  rw [readNumeral, if_pos ⟨numeral_ne_nil b n, hall⟩, numeralValue_numeral hb hb']

theorem length_numeral_le_iff (hb : 1 < b) {k : ℕ} (hk : 0 < k) :
    (numeral b n).length ≤ k ↔ n < b ^ k := by
  rw [numeral, List.length_map]
  exact Nat.length_toDigits_le_iff hb hk

/-- Bytes that are no digits do not occur in a number. -/
theorem notMem_numeral (hb : 1 < b) (hb' : b ≤ 16) {c : UInt8} (hc : digitValue c = none) :
    c ∉ numeral b n := by
  intro h
  have hdigit := isDigit_of_mem_numeral hb hb' h
  rw [isDigit, hc] at hdigit
  exact Bool.false_ne_true hdigit

end Text

end YXTWebCpp
