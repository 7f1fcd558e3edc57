import YXTWebCpp.Http.Parser

/-!
# Method names

Two functions find a method by its name: `StringToHttpMethod` compares a whole string with the names
of `HTTP_METHOD_MAP`, `CharsToHttpMethod` looks for the first name that stands at a pointer.  The
request parser uses the second one, and does not use the length of the token that it is given.

* `httpMethodMap_prefixFree` : no name is the beginning of another one.
* `charsToHttpMethod_eq_iff` : for which tokens both functions find the same.
* `recognisedAsString_iff` : what this means for `on_request_method`.
-/

namespace YXTWebCpp

namespace Http

/-- `strcmp(a, b) == 0`. -/
def strcmpEq (a b : List UInt8) : Bool := cstr a == cstr b

/-- `StringToHttpMethod` -/
def stringToHttpMethod (m : List UInt8) : HttpMethod :=
  match httpMethodMap.find? fun e => strcmpEq e.2 m with
  | some e => e.1
  | none => .invalidMethod

/-- A byte of a method token: an upper-case letter or a digit. -/
def isMethodByte (c : UInt8) : Bool := (65 ≤ c && c ≤ 90) || (48 ≤ c && c ≤ 57)

theorem isMethodByte_zero : isMethodByte 0 = false := by decide

/-- No name is the beginning of another one. -/
theorem httpMethodMap_prefixFree :
    ∀ e ∈ httpMethodMap, ∀ e' ∈ httpMethodMap, e.2 <+: e'.2 → e = e' := by
  decide +kernel

theorem httpMethodMap_valid : ∀ e ∈ httpMethodMap, e.1 ≠ .invalidMethod := by
  decide +kernel

section Token

variable {tok : List UInt8} (htok : ∀ c ∈ tok, c ≠ 0)
include htok

theorem stringToHttpMethod_eq : stringToHttpMethod tok =
    ((httpMethodMap.find? fun e => e.2 == tok).map Prod.fst).getD .invalidMethod := by
  have htest : ∀ e ∈ httpMethodMap, strcmpEq e.2 tok = (e.2 == tok) := fun e he => by
    rw [strcmpEq, cstr_of_no_nul htok, cstr_of_no_nul fun c hc => (httpMethodMap_names e he c hc).2]
  rw [stringToHttpMethod, List.find?_congr htest]
  cases httpMethodMap.find? fun e => e.2 == tok <;> rfl

theorem charsToHttpMethod_eq (rest : List UInt8) : charsToHttpMethod (tok ++ 32 :: rest) =
    ((httpMethodMap.find? fun e => e.2.isPrefixOf tok).map Prod.fst).getD .invalidMethod := by
  have htest : ∀ e ∈ httpMethodMap,
      strncmpEq e.2 (tok ++ 32 :: rest) e.2.length = e.2.isPrefixOf tok := fun e he => by
    rw [strncmpEq_append_space _ _ _ (httpMethodMap_names e he), cstr_of_no_nul htok]
  rw [charsToHttpMethod, List.find?_congr htest]
  cases httpMethodMap.find? fun e => e.2.isPrefixOf tok <;> rfl

/-- Both functions find the same in a token that is a name, or that no name is the beginning of. -/
theorem charsToHttpMethod_eq_iff (rest : List UInt8) :
    charsToHttpMethod (tok ++ 32 :: rest) = stringToHttpMethod tok ↔
      (∃ e ∈ httpMethodMap, e.2 = tok) ∨ ∀ e ∈ httpMethodMap, ¬ e.2 <+: tok := by
  rw [charsToHttpMethod_eq htok, stringToHttpMethod_eq htok]
  constructor
  · intro h
    by_contra hnot
    rw [not_or] at hnot
    obtain ⟨hname, hprefix⟩ := hnot
    push Not at hname hprefix
    obtain ⟨e, he, hpre⟩ := hprefix
    have hnone : (httpMethodMap.find? fun e => e.2 == tok) = none :=
      List.find?_eq_none.2 fun e he => by simpa using hname e he
    have hsome : (httpMethodMap.find? fun e => e.2.isPrefixOf tok).isSome = true :=
      List.find?_isSome.2 ⟨e, he, List.isPrefixOf_iff_prefix.2 hpre⟩
    obtain ⟨e', he'⟩ := Option.isSome_iff_exists.1 hsome
    rw [hnone, he'] at h
    exact httpMethodMap_valid e' (List.mem_of_find?_eq_some he') h
  · rintro (⟨e, he, rfl⟩ | hnone)
    · -- the only name that the token begins with is the token
      have htest : ∀ e' ∈ httpMethodMap, e'.2.isPrefixOf e.2 = (e'.2 == e.2) := fun e' he' => by
        rw [Bool.eq_iff_iff, List.isPrefixOf_iff_prefix, beq_iff_eq]
        exact ⟨fun h => congrArg Prod.snd (httpMethodMap_prefixFree e' he' e he h),
          fun h => h ▸ List.prefix_rfl⟩
      rw [List.find?_congr htest]
    · have hpre : (httpMethodMap.find? fun e => e.2.isPrefixOf tok) = none :=
        List.find?_eq_none.2 fun e he h => hnone e he (List.isPrefixOf_iff_prefix.1 h)
      have heq : (httpMethodMap.find? fun e => e.2 == tok) = none :=
        List.find?_eq_none.2 fun e he h => hnone e he (beq_iff_eq.1 h ▸ List.prefix_rfl)
      rw [hpre, heq]

end Token

/-- `on_request_method` at a token behind which a space stands does what `StringToHttpMethod` says:
it stores a method exactly if that is the one, and an error exactly if there is none. -/
def RecognisedAsString (s : HttpRequestParser) (tok rest : List UInt8) : Prop :=
  let s' := onRequestMethod s (tok ++ 32 :: rest)
  (∀ m, m ≠ .invalidMethod → (s'.error = 0 ∧ s'.data.method = m ↔ stringToHttpMethod tok = m)) ∧
    (s'.error = 1000 ↔ stringToHttpMethod tok = .invalidMethod)

theorem recognisedAsString_iff_eq {s : HttpRequestParser} (hs : s.error = 0)
    (tok rest : List UInt8) : RecognisedAsString s tok rest ↔
      charsToHttpMethod (tok ++ 32 :: rest) = stringToHttpMethod tok := by
  unfold RecognisedAsString onRequestMethod
  by_cases hc : charsToHttpMethod (tok ++ 32 :: rest) = .invalidMethod
  · simp only [hc, ↓reduceIte, true_iff]
    constructor
    · rintro ⟨-, h⟩
      exact h.symm
    · intro h
      rw [← h]
      exact ⟨fun m hm => iff_of_false (fun h' => absurd h'.1 (by decide)) hm.symm, rfl⟩
  · simp only [hc, ↓reduceIte, hs, true_and]
    constructor
    · rintro ⟨h, -⟩
      exact ((h _ hc).1 rfl).symm
    · intro h
      rw [← h]
      exact ⟨fun m _ => Iff.rfl, iff_of_false (by decide) hc⟩

/-- **Methods at a pointer**: a token of upper-case letters and digits is recognised by
`on_request_method` as `StringToHttpMethod` recognises it if and only if it is a method name, or
does not begin with one. -/
theorem recognisedAsString_iff {s : HttpRequestParser} (hs : s.error = 0) {tok : List UInt8}
    (htok : ∀ c ∈ tok, isMethodByte c = true) (rest : List UInt8) :
    RecognisedAsString s tok rest ↔
      (∃ e ∈ httpMethodMap, e.2 = tok) ∨ ∀ e ∈ httpMethodMap, ¬ e.2 <+: tok := by
  have hnul : ∀ c ∈ tok, c ≠ 0 := fun c hc h => by
    have hbyte := htok c hc
    rw [h, isMethodByte_zero] at hbyte
    exact Bool.false_ne_true hbyte
  rw [recognisedAsString_iff_eq hs]
  exact charsToHttpMethod_eq_iff hnul rest

/-- A parser that starts on `GET / HTTP/1.1`. -/
theorem recognisedAsString_iff_get :
    RecognisedAsString (.new ⟨0, 0, 0, 0, 0, 0, 0, 0, false, false, false⟩) (ascii "GET")
      (ascii "/ HTTP/1.1") := by
  refine (recognisedAsString_iff rfl (by decide +kernel) _).2 (.inl ?_)
  exact ⟨(.get, ascii "GET"), by decide, rfl⟩

/-- `GETX / HTTP/1.1` is taken for a `GET`. -/
theorem not_recognisedAsString_getx :
    (∀ c ∈ ascii "GETX", isMethodByte c = true) ∧
    ¬ RecognisedAsString (.new ⟨0, 0, 0, 0, 0, 0, 0, 0, false, false, false⟩) (ascii "GETX")
      (ascii "/ HTTP/1.1") := by
  refine ⟨by decide +kernel, fun h => ?_⟩
  have herror := h.2.2 (by decide +kernel)
  revert herror
  decide +kernel

end Http

end YXTWebCpp
