import Mathlib.Data.List.Basic

/-!
# Hosts and services

`Address::Lookup` (`address.cpp`) splits a string into the node and the service that it passes to
`getaddrinfo`.  A pointer into the string is an offset; the string is bytes, where `:` is 58 and the
brackets are 91 and 93.

* `lookupArgs` : what is passed.
* `SplitRight` : what should be passed for each of the three syntaxes.
* `splitRight_iff` : for which strings it is.
-/

namespace YXTWebCpp

namespace Address

/-! ### Pointers into a string -/

/-- `memchr(s + p, c, s.size() - p)` -/
def memchr (s : List UInt8) (p : ℕ) (c : UInt8) : Option ℕ :=
  ((s.drop p).idxOf? c).map (p + ·)

/-- `s.substr(p, n)` -/
def substr (s : List UInt8) (p n : ℕ) : List UInt8 := (s.drop p).take n

theorem memchr_append {c : UInt8} (p : List UInt8) {a : List UInt8} (h : c ∉ a) (s : List UInt8) :
    memchr (p ++ (a ++ c :: s)) p.length c = some (p.length + a.length) := by
  have hidx : (a ++ c :: s).idxOf? c = some a.length := by
    refine List.idxOf?_eq_some_iff.2 ⟨by simp, by simp, fun j hj hc => h ?_⟩
    rw [List.getElem_append_left hj] at hc
    exact hc ▸ List.getElem_mem hj
  rw [memchr, List.drop_left, hidx]
  rfl

theorem memchr_eq_none {s : List UInt8} {p : ℕ} {c : UInt8} :
    memchr s p c = none ↔ c ∉ s.drop p := by
  rw [memchr, Option.map_eq_none_iff, List.idxOf?_eq_none_iff]

/-! ### The three alternatives -/

/-- Behind a bracket the node is an IPv6 address. -/
def lookupBracket (host : List UInt8) : List UInt8 × Option ℕ :=
  if host.head? = some 91 then
    match memchr host 1 93 with
    | none => ([], none)
    | some endipv6 =>
      (substr host 1 (endipv6 + 1),
        -- behind the last byte of the string there is a zero
        if host.getD (endipv6 + 1) 0 = 58 then some (endipv6 + 2) else none)
  else ([], none)

/-- The node ends in front of the only colon; the service is behind the first one. -/
def lookupColon (host : List UInt8) : List UInt8 × Option ℕ :=
  match memchr host 0 58 with
  | none => ([], none)
  | some service =>
    (if memchr host (service + 1) 58 = none then substr host 0 service else [], some (service + 1))

/-- The node and the service that `Address::Lookup` passes to `getaddrinfo`, which reads both up to
the first zero byte; the service is the rest of the string from its pointer on. -/
def lookupArgs (host : List UInt8) : List UInt8 × Option (List UInt8) :=
  let bracket := lookupBracket host
  let colon := if bracket.1 = [] then lookupColon host else bracket
  (if colon.1 = [] then host else colon.1, colon.2.map host.drop)

/-! ### Syntaxes -/

/-- `[n]` or `[n]:s` -/
def bracketed (n : List UInt8) : Option (List UInt8) → List UInt8
  | none => 91 :: (n ++ [93])
  | some s => 91 :: (n ++ 93 :: 58 :: s)

/-- What is passed is what the string says: `n` for `[n]`, `n` and `s` for `[n]:s` and for `n:s`
with no other colon, and for a bare name or IPv6 address the whole string. -/
structure SplitRight (host : List UInt8) : Prop where
  bracketed : ∀ n s, n ≠ [] → 93 ∉ n → host = bracketed n s → lookupArgs host = (n, s)
  oneColon : ∀ n s, host.head? ≠ some 91 → n ≠ [] → 58 ∉ n → 58 ∉ s → host = n ++ 58 :: s →
    lookupArgs host = (n, some s)
  bare : host ≠ [] → host.head? ≠ some 91 → host.count 58 ≠ 1 → lookupArgs host = (host, none)

/-- The node behind a bracket is two bytes longer than it should be. -/
theorem lookupArgs_bracket {n : List UInt8} (h : 93 ∉ n) (rest : List UInt8) :
    (lookupArgs (91 :: (n ++ 93 :: rest))).1 = n ++ 93 :: rest.take 1 := by
  have hmem := memchr_append [91] h rest
  rw [List.singleton_append, List.length_singleton] at hmem
  have hsub : substr (91 :: (n ++ 93 :: rest)) 1 (1 + n.length + 1) = n ++ 93 :: rest.take 1 := by
    rw [substr, List.drop_one, List.tail_cons, Nat.add_right_comm, Nat.add_comm,
      List.take_length_add_append]
    rfl
  have hne : n ++ 93 :: rest.take 1 ≠ [] :=
    List.append_ne_nil_of_right_ne_nil n (List.cons_ne_nil _ _)
  simp only [lookupArgs, lookupBracket, List.head?_cons, if_true, hmem, hsub, hne, if_false]

theorem lookupArgs_bracketed_ne {n : List UInt8} (h : 93 ∉ n) (s : Option (List UInt8)) :
    (lookupArgs (bracketed n s)).1 ≠ n := by
  obtain ⟨rest, hrest⟩ : ∃ rest, bracketed n s = 91 :: (n ++ 93 :: rest) := by
    cases s with
    | none => exact ⟨_, rfl⟩
    | some s => exact ⟨_, rfl⟩
  intro hargs
  rw [hrest, lookupArgs_bracket h] at hargs
  have hlength := congrArg List.length hargs
  rw [List.length_append, List.length_cons] at hlength
  omega

section NoBracket

variable {host : List UInt8} (h : host.head? ≠ some 91)
include h

theorem lookupArgs_noColon (hcolon : 58 ∉ host) : lookupArgs host = (host, none) := by
  have hmem : memchr host 0 58 = none := memchr_eq_none.2 hcolon
  simp [lookupArgs, lookupBracket, h, lookupColon, hmem]

/-- The service is the part behind the first colon, also when the node is the whole string. -/
theorem lookupArgs_colon {n s : List UInt8} (hn : 58 ∉ n) (heq : host = n ++ 58 :: s) :
    lookupArgs host = (if 58 ∉ s ∧ n ≠ [] then n else host, some s) := by
  have hmem := memchr_append [] hn s
  rw [List.nil_append, ← heq, List.length_nil, Nat.zero_add] at hmem
  have hdrop : host.drop (n.length + 1) = s := by
    rw [heq, List.drop_append, Nat.add_sub_cancel_left, List.drop_succ_cons, List.drop_zero,
      List.drop_eq_nil_of_le (Nat.le_succ _), List.nil_append]
  have hsub : substr host 0 n.length = n := by
    rw [substr, List.drop_zero, heq, List.take_left]
  have hsecond : memchr host (n.length + 1) 58 = none ↔ 58 ∉ s := by
    rw [memchr_eq_none, hdrop]
  simp only [lookupArgs, lookupBracket, h, if_false, if_true, lookupColon, hmem, hsub, hsecond,
    Option.map_some, hdrop]
  by_cases hs : 58 ∈ s
  · simp [hs]
  · by_cases hnil : n = []
    · simp [hs, hnil]
    · simp [hs, hnil]

theorem lookupArgs_service_ne (hcolon : 58 ∈ host) : (lookupArgs host).2 ≠ none := by
  obtain ⟨n, s, heq, hn⟩ := List.eq_append_cons_of_mem hcolon
  rw [lookupArgs_colon h hn heq]
  exact Option.some_ne_none s

end NoBracket

/-- **Hosts and services**: the string is split right exactly when it has no node in brackets, and
is no bare IPv6 address, which has two colons or more. -/
theorem splitRight_iff (host : List UInt8) : SplitRight host ↔
    (∀ n s, n ≠ [] → 93 ∉ n → host ≠ bracketed n s) ∧
      ¬ (host.head? ≠ some 91 ∧ 2 ≤ host.count 58) := by
  constructor
  · intro h
    refine ⟨fun n s hn hmem heq => ?_, fun ⟨hhead, hcount⟩ => ?_⟩
    · have hargs := h.bracketed n s hn hmem heq
      rw [heq] at hargs
      exact lookupArgs_bracketed_ne hmem s (congrArg Prod.fst hargs)
    · have hmem : 58 ∈ host := List.count_pos_iff.1 (by omega)
      have hargs := h.bare (List.ne_nil_of_mem hmem) hhead (by omega)
      exact lookupArgs_service_ne hhead hmem (congrArg Prod.snd hargs)
  · rintro ⟨hbracket, hcolons⟩
    refine ⟨fun n s hn hmem heq => absurd heq (hbracket n s hn hmem), ?_, ?_⟩
    · intro n s hhead hne hn hs heq
      rw [lookupArgs_colon hhead hn heq, if_pos ⟨hs, hne⟩]
    · intro hne hhead hcount
      have hnot : 58 ∉ host := by
        intro hmem
        have hpos := List.count_pos_iff.2 hmem
        exact hcolons ⟨hhead, by omega⟩
      exact lookupArgs_noColon hhead hnot

/-- `[::1]:80` gives the node `::1]:`, and the bare `::1` the service `:1`. -/
theorem not_splitRight_bracketed :
    lookupArgs [91, 58, 58, 49, 93, 58, 56, 48] = ([58, 58, 49, 93, 58], some [56, 48]) ∧
      ¬ SplitRight [91, 58, 58, 49, 93, 58, 56, 48] ∧
      lookupArgs [58, 58, 49] = ([58, 58, 49], some [58, 49]) ∧ ¬ SplitRight [58, 58, 49] := by
  refine ⟨by decide, fun h => ?_, by decide, fun h => ?_⟩
  · exact absurd (h.bracketed [58, 58, 49] (some [56, 48]) (by decide) (by decide) (by decide))
      (by decide)
  · exact absurd (h.bare (by decide) (by decide) (by decide)) (by decide)

end Address

end YXTWebCpp
