import YXTWebCpp.Http.Split

/-!
# What the parser does not initialise

`HttpRequestParser` constructs its `http_parser` in memory with arbitrary contents.
`http_parser_init` and every call of `http_parser_execute` set the fields of the struct except two:
`query_start`, which is always stored before it is read, and `uri_relaxed`, which the states of the
URI test at the bytes `^`, `{` and `}`.

* `HttpRequestParser.feed` : what is seen of a parser that is fed one buffer after another.
* `asksRelaxed` : the places of the automaton where `uri_relaxed` is tested.
* `Alike` : two parsers that differ in what is not initialised.
* `feed_independent_iff` : **what is seen depends on the bytes alone** exactly if they do not
  come to such a place.
-/

namespace YXTWebCpp

namespace Http

/-- What is seen of a parser after a call of `execute`. -/
structure Observed where
  /-- The number of bytes consumed. -/
  consumed : ℕ
  /-- `isFinished()` -/
  isFinished : Bool
  /-- `hasError()` -/
  hasError : Bool
  /-- A callback has thrown. -/
  thrown : Bool
  /-- `getData()` -/
  data : HttpRequest
  deriving DecidableEq

/-- What is seen after each of a sequence of calls of `execute`. -/
def HttpRequestParser.feed (s : HttpRequestParser) : List (List UInt8) → List Observed
  | [] => []
  | buf :: bufs =>
    let r := s.execute buf
    ⟨r.2.1, r.1.isFinished, r.1.hasError, r.1.thrown, r.1.data⟩ :: r.1.feed bufs

/-- The bytes for which `_widec` depends on `uri_relaxed`, in the states that compute it. -/
def asksRelaxed (cs : ℕ) (b : UInt8) : Bool :=
  (b == 94 || b == 123 || b == 125) && (rows.find? fun r => r.cs == cs).any Row.wide

/-! ### The strict and the relaxed automaton -/

theorem ranges_wide :
    ∀ r ∈ rows, r.wide = true →
      (r.label false 94 = none ∧ (r.label true 94).isSome = true) ∧
      (r.label false 123 = none ∧ (r.label true 123).isSome = true) ∧
      r.label false 125 = none ∧ (r.label true 125).isSome = true := by
  decide +kernel

/-- In the other places the automaton does not depend on `uri_relaxed`. -/
theorem move_eq_of_not_asksRelaxed (cs : ℕ) (b : UInt8) (h : asksRelaxed cs b = false) :
    (machine true).move cs b = (machine false).move cs b := by
  have hgoto : gotoLabel true cs b = gotoLabel false cs b := by
    unfold gotoLabel
    cases hr : rows.find? fun r => r.cs == cs with
    | none => rw [Option.bind_none, Option.bind_none]
    | some r =>
      simp only [asksRelaxed, hr, Option.any_some, Bool.and_eq_false_iff, Bool.or_eq_false_iff,
        beq_eq_false_iff_ne] at h
      simp only [Option.bind_some, Row.label]
      rcases h with ⟨⟨h₁, h₂⟩, h₃⟩ | hw
      · -- another byte, whose `_widec` is the byte itself
        have hc : ∀ u, widec u b.toNat = b.toNat := by
          intro u
          have hne : ¬ (b.toNat = 94 ∨ b.toNat = 123 ∨ b.toNat = 125) := by
            rintro (hb | hb | hb)
            · exact h₁ (UInt8.toNat_inj.1 hb)
            · exact h₂ (UInt8.toNat_inj.1 hb)
            · exact h₃ (UInt8.toNat_inj.1 hb)
          rw [widec, if_neg hne]
        rw [hc, hc]
      · simp [hw]
  simp only [machine, hgoto]

/-- There the strict automaton fails and the relaxed one goes on. -/
theorem move_of_asksRelaxed (cs : ℕ) (b : UInt8) (h : asksRelaxed cs b = true) :
    (machine false).move cs b = .fail ∧ (machine true).move cs b ≠ .fail := by
  cases hr : rows.find? fun r => r.cs == cs with
  | none => simp [asksRelaxed, hr] at h
  | some r =>
    simp only [asksRelaxed, hr, Option.any_some, Bool.and_eq_true, Bool.or_eq_true,
      beq_iff_eq] at h
    obtain ⟨hb, hw⟩ := h
    have hrow := ranges_wide r (List.mem_of_find?_eq_some hr) hw
    have hlabel : r.label false b = none ∧ (r.label true b).isSome = true := by
      rcases hb with (rfl | rfl) | rfl
      · exact hrow.1
      · exact hrow.2.1
      · exact hrow.2.2
    obtain ⟨hstrict, hrelaxed⟩ := hlabel
    obtain ⟨l, hl⟩ := Option.isSome_iff_exists.1 hrelaxed
    constructor
    · simp [machine, gotoLabel, hr, hstrict]
    · simp only [machine, gotoLabel, hr, Option.bind_some, hl]
      split_ifs <;> simp

/-- The states behind the request line. -/
def inHeader (cs : ℕ) : Bool := [0, 13, 14, 15, 16, 17, 18, 348, 349].contains cs

theorem ranges_inHeader :
    ∀ r ∈ rows, (inHeader r.cs = true → r.wide = false) ∧
      ∀ e ∈ r.ranges, inHeader r.cs = true ∨ Action.done ∈ e.2.2.acts →
        inHeader e.2.2.next = true := by
  decide +kernel

/-- A header does not come to a place where `uri_relaxed` is tested. -/
theorem meets_of_inHeader (xs : List UInt8) {cs : ℕ} (h : inHeader cs = true) :
    (machine false).meets asksRelaxed xs cs = false := by
  refine Scan.Machine.meets_eq_false (C := fun cs => inHeader cs = true) ?_ ?_ xs cs h
  · intro cs b hcs
    cases hr : rows.find? fun r => r.cs == cs with
    | none => simp [asksRelaxed, hr]
    | some r =>
      have hrcs : r.cs = cs := by simpa using List.find?_some hr
      have := (ranges_inHeader r (List.mem_of_find?_eq_some hr)).1 (by rw [hrcs]; exact hcs)
      simp [asksRelaxed, hr, this]
  · intro cs b as cs' hcs hgo
    obtain ⟨r, hr, e, he, rfl, hl, -⟩ := mem_rows_of_edge (.inl hgo)
    have := (ranges_inHeader r hr).2 e he (.inl hcs)
    rwa [hl] at this

/-- A scan that stops has left the request line. -/
theorem inHeader_of_stopped {uriRelaxed : Bool} (xs : List UInt8) (cs : ℕ)
    (h : ((machine uriRelaxed).ctrl xs cs).stopped = true) :
    inHeader ((machine uriRelaxed).ctrl xs cs).state = true := by
  refine (machine uriRelaxed).ctrl_state_of_stopped (P := fun cs => inHeader cs = true) rfl
    (fun cs b as cs' hbrk => ?_) xs cs h
  obtain ⟨r, hr, e, he, rfl, hl, -⟩ := mem_rows_of_edge (.inr hbrk)
  have := (ranges_inHeader r hr).2 e he (.inr (by rw [hl]; exact done_mem_of_brk hbrk))
  rwa [hl] at this

/-- Whether the bytes of several buffers come to such a place is decided buffer by buffer. -/
theorem meets_buffers (buf rest : List UInt8) (cs : ℕ) :
    (machine false).meets asksRelaxed (buf ++ rest) cs =
      ((machine false).meets asksRelaxed buf cs ||
        (machine false).meets asksRelaxed rest ((machine false).ctrl buf cs).state) := by
  rw [Scan.Machine.meets_append]
  cases hst : ((machine false).ctrl buf cs).stopped with
  | false => simp
  | true => simp [meets_of_inHeader rest (inHeader_of_stopped buf cs hst)]

/-! ### Parsers that differ in what is not initialised -/

/-- The parser without what is not initialised. -/
def HttpRequestParser.init (s : HttpRequestParser) : HttpRequestParser :=
  { s with parser := { s.parser with queryStart := 0, uriRelaxed := false } }

/-- Two parsers differ at most in what is not initialised; they agree on `query_start` if that is
among the positions in `L`. -/
structure Alike (L : Finset Reg) (s₁ s₂ : HttpRequestParser) : Prop where
  init : s₁.init = s₂.init
  queryStart : .queryStart ∈ L → s₁.parser.queryStart = s₂.parser.queryStart

theorem act_queryStart (buf : List UInt8) (p : ℕ) (a : Action) (s : HttpRequestParser) :
    (act buf p a s).parser.queryStart = if a = .startQuery then p else s.parser.queryStart := by
  cases a <;> simp only [act, onRequestMethod, onRequestFragment, onRequestPath, onRequestQuery,
    onRequestVersion, onRequestHttpField, HttpRequestParser.store, reduceCtorEq, ↓reduceIte] <;>
    (try split_ifs) <;> (try split) <;> rfl

/-- No action reads `uri_relaxed`, and only one reads `query_start`. -/
theorem act_init (buf : List UInt8) (p : ℕ) (a : Action) (s : HttpRequestParser)
    (ha : a ≠ .queryString) : (act buf p a s).init = (act buf p a s.init).init := by
  cases a <;> simp only [act, onRequestMethod, onRequestFragment, onRequestPath, onRequestVersion,
    onRequestHttpField, HttpRequestParser.store, HttpRequestParser.init] <;>
    (try split_ifs) <;> (try split) <;> simp_all

theorem act_queryString_init (buf : List UInt8) (p : ℕ) (s : HttpRequestParser) :
    (act buf p .queryString s).init =
      onRequestQuery s.init (buf.drop s.parser.queryStart) (lenTo s.parser.queryStart p) := by
  simp only [act, onRequestQuery, HttpRequestParser.store, HttpRequestParser.init]
  split <;> rfl

theorem Alike.act {L : Finset Reg} {a : Action} {s₁ s₂ : HttpRequestParser}
    (h : Alike (reads a ∪ (L \ writes a)) s₁ s₂) (buf : List UInt8) (p : ℕ) :
    Alike L (Http.act buf p a s₁) (Http.act buf p a s₂) where
  init := by
    by_cases ha : a = .queryString
    · subst ha
      rw [act_queryString_init, act_queryString_init, h.init, h.queryStart (by simp [reads])]
    · rw [act_init buf p a s₁ ha, act_init buf p a s₂ ha, h.init]
  queryStart hL := by
    rw [act_queryStart, act_queryStart]
    split_ifs with ha
    · rfl
    · refine h.queryStart ?_
      have : Reg.queryStart ∉ writes a := by cases a <;> simp_all [writes]
      simp [hL, this]

theorem Alike.runActs (buf : List UInt8) (p : ℕ) (as : List Action) :
    ∀ (L : Finset Reg) (s₁ s₂ : HttpRequestParser),
      Alike (Scan.Machine.needsActs reads writes as L) s₁ s₂ →
      Alike L (Scan.Machine.runActs (Http.act buf) p as s₁)
        (Scan.Machine.runActs (Http.act buf) p as s₂) := by
  induction as with
  | nil => intro L s₁ s₂ h; exact h
  | cons a as ih => intro L s₁ s₂ h; exact ih L _ _ (Alike.act h buf p)

theorem Alike.mono {L L' : Finset Reg} {s₁ s₂ : HttpRequestParser} (h : Alike L s₁ s₂)
    (hL : L' ⊆ L) : Alike L' s₁ s₂ :=
  ⟨h.init, fun hq => h.queryStart (hL hq)⟩

/-- A scan does the same to two parsers that are alike. -/
theorem Alike.exec {cs : ℕ} {s₁ s₂ : HttpRequestParser} (h : Alike (mayNeed cs) s₁ s₂)
    (uriRelaxed : Bool) (buf xs : List UInt8) (p : ℕ) :
    Alike (mayNeed ((machine uriRelaxed).exec (Http.act buf) xs p cs s₁).state)
      ((machine uriRelaxed).exec (Http.act buf) xs p cs s₁).mem
      ((machine uriRelaxed).exec (Http.act buf) xs p cs s₂).mem := by
  refine (machine uriRelaxed).exec_rel (R := fun cs => Alike (mayNeed cs)) ?_ ?_ xs p cs s₁ s₂ h
  · have hnot : Reg.queryStart ∉ mayNeed httpParserError := by decide
    exact fun cs s₁ s₂ h => ⟨h.init, fun hq => absurd hq hnot⟩
  · intro cs b as cs' p s₁ s₂ he h
    obtain ⟨r, hr, e, hre, rfl, hl, -⟩ := mem_rows_of_edge he
    have hsub := ranges_mayNeed r hr e hre
    rw [hl] at hsub
    exact Alike.runActs buf p as _ _ _ (h.mono hsub)

/-! ### Calls of `execute` -/

/-- The state of the automaton after a call. -/
theorem execute_cs (s : HttpRequestParser) (buf : List UInt8) :
    (s.execute buf).1.parser.cs = ((machine s.parser.uriRelaxed).ctrl buf s.parser.cs).state := by
  simp only [HttpRequestParser.execute, httpParserExecute]
  cases buf with
  | nil => rfl
  | cons b bs =>
    simp only [reduceCtorEq, ↓reduceIte]
    by_cases herr : httpParserHasError s.parser = true
    · have hcs : s.parser.cs = httpParserError := by simpa [httpParserHasError] using herr
      have hfail : (machine s.parser.uriRelaxed).move httpParserError b = .fail := rfl
      rw [if_pos herr, hcs, Scan.Machine.ctrl, Scan.Machine.exec_of_fail _ hfail]
      rfl
    · rw [if_neg herr]
      exact ((machine s.parser.uriRelaxed).exec_ctrl _ _ _ _ _).2.1

/-- A call leaves `uri_relaxed` alone. -/
theorem execute_relaxed (s : HttpRequestParser) (buf : List UInt8) :
    (s.execute buf).1.parser.uriRelaxed = s.parser.uriRelaxed := by
  have hmem : (execBuf s buf).mem.parser.uriRelaxed = s.parser.uriRelaxed :=
    Scan.Machine.exec_mem _ (P := fun t => t.parser.uriRelaxed = s.parser.uriRelaxed)
      (fun p a t ht => (act_keeps buf p a t).1.trans ht) buf 0 s.parser.cs
      { s with parser := resetMarks s.parser } rfl
  simp only [HttpRequestParser.execute, httpParserExecute]
  split_ifs
  · rfl
  · exact hmem
  · exact hmem

/-- On bytes that do not come to a place where `uri_relaxed` is tested, its value does not
matter. -/
theorem exec_relaxed {buf : List UInt8} {cs : ℕ}
    (h : (machine false).meets asksRelaxed buf cs = false) (uriRelaxed : Bool) {σ : Type}
    (act : ℕ → Action → σ → σ) (p : ℕ) (s : σ) :
    (machine uriRelaxed).exec act buf p cs s = (machine false).exec act buf p cs s := by
  cases uriRelaxed with
  | false => rfl
  | true =>
    exact Scan.Machine.exec_eq_of_not_meets (M := machine false) (N := machine true) rfl
      move_eq_of_not_asksRelaxed act buf p cs s h

theorem Alike.cs {L : Finset Reg} {s₁ s₂ : HttpRequestParser} (h : Alike L s₁ s₂) :
    s₁.parser.cs = s₂.parser.cs :=
  congrArg (fun s => s.parser.cs) h.init

/-- The positions that a call resets are the same. -/
theorem Alike.resetMarks {L : Finset Reg} {s₁ s₂ : HttpRequestParser} (h : Alike L s₁ s₂) :
    Alike L { s₁ with parser := Http.resetMarks s₁.parser }
      { s₂ with parser := Http.resetMarks s₂.parser } where
  init := congrArg (fun s => { s with parser := Http.resetMarks s.parser }) h.init
  queryStart := h.queryStart

/-- **One call** on bytes that do not come to such a place. -/
theorem Alike.execute {s₁ s₂ : HttpRequestParser} (h : Alike (mayNeed s₁.parser.cs) s₁ s₂)
    {buf : List UInt8} (hm : (machine false).meets asksRelaxed buf s₁.parser.cs = false) :
    (s₁.execute buf).2.1 = (s₂.execute buf).2.1 ∧
      Alike (mayNeed (s₁.execute buf).1.parser.cs) (s₁.execute buf).1 (s₂.execute buf).1 := by
  rw [execute_cs, Scan.Machine.ctrl, exec_relaxed hm]
  simp only [HttpRequestParser.execute, httpParserExecute]
  by_cases hbuf : buf = []
  · subst hbuf
    exact ⟨rfl, h⟩
  · have he₁ : execBuf s₁ buf = (machine false).exec (Http.act buf) buf 0 s₁.parser.cs
        { s₁ with parser := Http.resetMarks s₁.parser } := exec_relaxed hm _ _ _ _
    have he₂ : execBuf s₂ buf = (machine false).exec (Http.act buf) buf 0 s₁.parser.cs
        { s₂ with parser := Http.resetMarks s₂.parser } := by
      rw [execBuf, ← h.cs, exec_relaxed hm]
    have hmem := h.resetMarks.exec false buf buf 0
    rw [← he₁, ← he₂] at hmem
    have hrest : (execBuf s₂ buf).rest = (execBuf s₁ buf).rest := by
      rw [he₁, he₂]
      exact ((machine false).exec_ctrl _ _ _ _ _).2.2.trans
        ((machine false).exec_ctrl _ _ _ _ _).2.2.symm
    have hstate : (execBuf s₂ buf).state = (execBuf s₁ buf).state := by
      rw [he₁, he₂]
      exact ((machine false).exec_ctrl _ _ _ _ _).2.1.trans
        ((machine false).exec_ctrl _ _ _ _ _).2.1.symm
    have hctrl : ((machine false).exec (fun _ _ s => s) buf 0 s₁.parser.cs ()).state =
        (execBuf s₁ buf).state := by
      rw [he₁]
      exact ((machine false).exec_ctrl _ _ _ _ _).2.1.symm
    have herr : httpParserHasError s₂.parser = httpParserHasError s₁.parser := by
      rw [httpParserHasError, ← h.cs, httpParserHasError]
    rw [if_neg hbuf, if_neg hbuf, hrest, hstate, herr, hctrl, ← h.cs]
    refine ⟨rfl, ?_, hmem.queryStart⟩
    exact congrArg (fun s => { s with parser := { s.parser with
      cs := if httpParserHasError s₁.parser = true then s₁.parser.cs else (execBuf s₁ buf).state
      nread := buf.length - (execBuf s₁ buf).rest.length } }) hmem.init

/-- What is seen of two parsers that are alike is the same. -/
theorem Alike.observed {L : Finset Reg} {s₁ s₂ : HttpRequestParser} (h : Alike L s₁ s₂) (n : ℕ) :
    (⟨n, s₁.isFinished, s₁.hasError, s₁.thrown, s₁.data⟩ : Observed) =
      ⟨n, s₂.isFinished, s₂.hasError, s₂.thrown, s₂.data⟩ :=
  congrArg (fun s => (⟨n, s.isFinished, s.hasError, s.thrown, s.data⟩ : Observed)) h.init

/-- **A sequence of calls** on bytes that do not come to such a place. -/
theorem Alike.feed (bufs : List (List UInt8)) : ∀ {s₁ s₂ : HttpRequestParser},
    Alike (mayNeed s₁.parser.cs) s₁ s₂ →
    (machine false).meets asksRelaxed bufs.flatten s₁.parser.cs = false →
    s₁.feed bufs = s₂.feed bufs := by
  induction bufs with
  | nil => intro s₁ s₂ _ _; rfl
  | cons buf bufs ih =>
    intro s₁ s₂ h hm
    rw [List.flatten_cons, meets_buffers, Bool.or_eq_false_iff] at hm
    obtain ⟨hn, halike⟩ := h.execute hm.1
    have hcs : (s₁.execute buf).1.parser.cs = ((machine false).ctrl buf s₁.parser.cs).state := by
      rw [execute_cs, Scan.Machine.ctrl, exec_relaxed hm.1, Scan.Machine.ctrl]
    rw [HttpRequestParser.feed, HttpRequestParser.feed, hn, halike.observed,
      ih halike (by rw [hcs]; exact hm.2)]

/-- A strict and a relaxed parser differ in the number of bytes that they consume in the call that
comes to such a place. -/
theorem Alike.feed_ne (bufs : List (List UInt8)) : ∀ {s₁ s₂ : HttpRequestParser},
    Alike (mayNeed s₁.parser.cs) s₁ s₂ → s₁.parser.uriRelaxed = false →
    s₂.parser.uriRelaxed = true →
    (machine false).meets asksRelaxed bufs.flatten s₁.parser.cs = true →
    s₁.feed bufs ≠ s₂.feed bufs := by
  induction bufs with
  | nil => intro s₁ s₂ _ _ _ hm; simp [Scan.Machine.meets] at hm
  | cons buf bufs ih =>
    intro s₁ s₂ h hstrict hrelaxed hm
    rw [List.flatten_cons, meets_buffers] at hm
    rw [HttpRequestParser.feed, HttpRequestParser.feed]
    simp only [ne_eq, List.cons.injEq, Observed.mk.injEq, not_and]
    intro hsame
    cases hbuf : (machine false).meets asksRelaxed buf s₁.parser.cs with
    | false =>
      -- not in this call: the parsers are alike after it
      rw [hbuf, Bool.false_or] at hm
      obtain ⟨-, halike⟩ := h.execute hbuf
      refine ih halike ((execute_relaxed s₁ buf).trans hstrict)
        ((execute_relaxed s₂ buf).trans hrelaxed) ?_
      rw [execute_cs, hstrict]
      exact hm
    | true =>
      -- in this call: the strict parser stops there, and the relaxed one consumes the byte
      have hne : buf ≠ [] := by
        rintro rfl
        simp [Scan.Machine.meets] at hbuf
      have hlt := Scan.Machine.rest_lt_of_meets move_eq_of_not_asksRelaxed move_of_asksRelaxed
        (Http.act buf) (Http.act buf) buf 0 0 s₁.parser.cs
        { s₁ with parser := Http.resetMarks s₁.parser }
        { s₂ with parser := Http.resetMarks s₂.parser } hbuf
      have hle := ((machine false).exec_rest_suffix (Http.act buf) buf 0 s₁.parser.cs
        { s₁ with parser := Http.resetMarks s₁.parser }).length_le
      have hn := hsame.1
      simp only [HttpRequestParser.execute, httpParserExecute, if_neg hne, execBuf, hstrict,
        hrelaxed, ← h.cs] at hn
      omega

/-- Two fresh parsers are alike. -/
theorem alike_new (mem mem' : HttpParser) :
    Alike (mayNeed httpParserStart) (.new mem) (.new mem') where
  init := rfl
  queryStart hq := absurd hq (by decide)

/-- **What is seen of a parser is a function of the bytes it receives**, whatever the memory held
that it was constructed in and however the bytes are handed to it, exactly if these bytes have no
`^`, `{` or `}` at a place where the automaton tests `uri_relaxed`. -/
theorem feed_independent_iff (bufs : List (List UInt8)) :
    (∀ mem mem' : HttpParser, (HttpRequestParser.new mem).feed bufs =
        (HttpRequestParser.new mem').feed bufs) ↔
      (machine false).meets asksRelaxed bufs.flatten httpParserStart = false := by
  constructor
  · intro h
    by_contra hm
    have hmem : ∃ mem mem' : HttpParser, mem.uriRelaxed = false ∧ mem'.uriRelaxed = true :=
      ⟨⟨0, 0, 0, 0, 0, 0, 0, 0, false, false, false⟩, ⟨0, 0, 0, 0, 0, 0, 0, 0, false, false, true⟩,
        rfl, rfl⟩
    obtain ⟨mem, mem', hstrict, hrelaxed⟩ := hmem
    exact (alike_new mem mem').feed_ne bufs hstrict hrelaxed (Bool.eq_true_of_not_eq_false hm)
      (h mem mem')
  · intro hm mem mem'
    exact (alike_new mem mem').feed bufs hm

/-- The URI `/{` is accepted or refused, depending on the memory that the parser was constructed
in. -/
theorem feed_depends_on_memory :
    (HttpRequestParser.new ⟨0, 0, 0, 0, 0, 0, 0, 0, false, false, false⟩).feed
        [ascii "GET /\x7b HTTP/1.1\r\n\r\n"] ≠
      (HttpRequestParser.new ⟨0, 0, 0, 0, 0, 0, 0, 0, false, false, true⟩).feed
        [ascii "GET /\x7b HTTP/1.1\r\n\r\n"] := by
  decide +kernel

end Http

end YXTWebCpp
