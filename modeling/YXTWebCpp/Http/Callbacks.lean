import YXTWebCpp.Http.Split

/-!
# The slices that callbacks are given

The actions of the automaton give the callbacks of the parser a pointer into the buffer of the
current call and a length, which is the distance from a stored position to the scan pointer.  Every
call resets the positions `mark`, `field_start` and `field_len`, but not `query_start`: a query that
began in the buffer of an earlier call is measured from a position of that buffer.

* `handed` : the slices that an action hands to a callback.
* `HttpRequestParser.callbacks` : those of a call of `execute`.
* `queryEnd` : where a query that is open at the beginning of a buffer is handed over.
* `callbacks_inside_iff` : **the callbacks of all calls stay inside their buffers** exactly if no
  open query is handed over in front of `query_start`.
-/

namespace YXTWebCpp

namespace Http

/-- The slices that an action at position `p` hands to a callback: start and length. -/
def handed (p : ℕ) (a : Action) (s : HttpRequestParser) : List (ℕ × ℕ) :=
  let h := s.parser
  match a with
  | .writeValue => [(h.fieldStart, h.fieldLen), (h.mark, lenTo h.mark p)]
  | .requestMethod | .requestUri | .fragment | .httpVersion | .requestPath =>
    [(h.mark, lenTo h.mark p)]
  | .queryString => [(h.queryStart, lenTo h.queryStart p)]
  | _ => []

/-- The slices that the callbacks get during a call of `execute`. -/
def HttpRequestParser.callbacks (s : HttpRequestParser) (buf : List UInt8) : List (ℕ × ℕ) :=
  (machine s.parser.uriRelaxed).emits (act buf) handed buf 0 s.parser.cs
    { s with parser := resetMarks s.parser }

/-- Successive calls of `execute`: the parser before each of them, and its buffer. -/
def HttpRequestParser.executes (s : HttpRequestParser) :
    List (List UInt8) → List (HttpRequestParser × List UInt8)
  | [] => []
  | buf :: bufs => (s, buf) :: (s.execute buf).1.executes bufs

/-- The position at which a query that is open in state `cs` is handed over, if it is. -/
def queryEnd (uriRelaxed : Bool) : List UInt8 → ℕ → ℕ → Option ℕ
  | [], _, _ => none
  | b :: bs, p, cs =>
    if inQuery cs then
      match (machine uriRelaxed).move cs b with
      | .go as cs' =>
        if Action.queryString ∈ as then some p else queryEnd uriRelaxed bs (p + 1) cs'
      | _ => none
    else none

/-! ### One action -/

/-- What an action does to the positions. -/
def actParser (p : ℕ) (a : Action) (h : HttpParser) : HttpParser :=
  match a with
  | .mark | .startValue => { h with mark := p }
  | .startField => { h with fieldStart := p }
  | .writeField => { h with fieldLen := lenTo h.fieldStart p }
  | .startQuery => { h with queryStart := p }
  | .done =>
    if h.xmlSent || h.jsonSent then
      { h with bodyStart := h.mark, contentLen := (p : ℤ) - h.mark + 1 }
    else { h with bodyStart := p + 1 }
  | .xml => { h with xmlSent := true }
  | .json => { h with jsonSent := true }
  | _ => h

/-- The callbacks leave the positions alone. -/
theorem act_parser_eq (buf : List UInt8) (p : ℕ) (a : Action) (s : HttpRequestParser) :
    (act buf p a s).parser = actParser p a s.parser := by
  cases a <;> simp only [act, actParser, onRequestMethod, onRequestFragment, onRequestPath,
    onRequestQuery, onRequestVersion, onRequestHttpField, HttpRequestParser.store] <;>
    (try split_ifs) <;> (try split) <;> rfl

/-- `query_start` is known not to lie behind the scan pointer (`w`), and stays so while the actions
are run; `query_string` asks for it. -/
def queryReady (w : Bool) : List Action → Option Bool
  | [] => some w
  | .startQuery :: as => queryReady true as
  | .queryString :: as => if w then queryReady w as else none
  | _ :: as => queryReady w as

/-- The grammar reads `query_start` only inside a query. -/
theorem ranges_queryReady :
    ∀ r ∈ rows, ∀ e ∈ r.ranges, (queryReady (inQuery r.cs) e.2.2.acts).isSome ∧
      (inQuery e.2.2.next → queryReady (inQuery r.cs) e.2.2.acts = some true) := by
  decide +kernel

/-- Inside a query nothing happens until it is handed over. -/
theorem ranges_inQuery :
    ∀ r ∈ rows, inQuery r.cs = true → ∀ e ∈ r.ranges, e.2.2.acts = [] ∨
      (e.2.2.acts = [.queryString, .requestUri] ∧ inQuery e.2.2.next = false) := by
  decide +kernel

/-- The positions do not lie behind the scan pointer at `p`, as far as that is known: the field
slice if `v`, and `query_start` if `w`. -/
structure Marks (v w : Bool) (p : ℕ) (h : HttpParser) : Prop where
  mark : h.mark ≤ p
  fieldStart : h.fieldStart ≤ p
  field : v = true → h.fieldStart + h.fieldLen ≤ p
  query : w = true → h.queryStart ≤ p

theorem Marks.mono {v w : Bool} {p q : ℕ} {h : HttpParser} (hm : Marks v w p h) (hq : p ≤ q) :
    Marks v w q h :=
  ⟨hm.mark.trans hq, hm.fieldStart.trans hq, fun hv => (hm.field hv).trans hq,
    fun hw => (hm.query hw).trans hq⟩

theorem add_lenTo {m p : ℕ} (h : m ≤ p) : m + lenTo m p = p := by
  rw [lenTo_of_le h]
  omega

/-- An action hands out what lies in front of the scan pointer. -/
theorem Marks.act {v w : Bool} {p : ℕ} {a : Action} {as : List Action} {s : HttpRequestParser}
    (hm : Marks v w p s.parser) (hv : (fieldReady v (a :: as)).isSome)
    (hw : (queryReady w (a :: as)).isSome) (buf : List UInt8) :
    (∀ x ∈ handed p a s, x.1 + x.2 ≤ p) ∧
      ∃ v' w', fieldReady v (a :: as) = fieldReady v' as ∧
        queryReady w (a :: as) = queryReady w' as ∧ Marks v' w' p (Http.act buf p a s).parser := by
  have hmark : ∀ x ∈ [(s.parser.mark, lenTo s.parser.mark p)], x.1 + x.2 ≤ p := by
    intro x hx
    rw [List.mem_singleton.1 hx]
    exact (add_lenTo hm.mark).le
  have hnone : ∀ x ∈ ([] : List (ℕ × ℕ)), x.1 + x.2 ≤ p := List.forall_mem_nil _
  rw [act_parser_eq]
  cases a with
  | mark | startValue =>
    exact ⟨hnone, v, w, rfl, rfl, ⟨le_rfl, hm.fieldStart, hm.field, hm.query⟩⟩
  | startField =>
    exact ⟨hnone, false, w, rfl, rfl, ⟨hm.mark, le_rfl, fun h => absurd h Bool.false_ne_true,
      hm.query⟩⟩
  | writeField =>
    exact ⟨hnone, true, w, rfl, rfl, ⟨hm.mark, hm.fieldStart,
      fun _ => (add_lenTo hm.fieldStart).le, hm.query⟩⟩
  | startQuery =>
    exact ⟨hnone, v, true, rfl, rfl, ⟨hm.mark, hm.fieldStart, hm.field, fun _ => le_rfl⟩⟩
  | writeValue =>
    cases v with
    | false => simp [fieldReady] at hv
    | true =>
      refine ⟨fun x hx => ?_, true, w, rfl, rfl, hm⟩
      rcases List.mem_cons.1 hx with rfl | hx
      · exact hm.field rfl
      · exact hmark x hx
  | queryString =>
    cases w with
    | false => simp [queryReady] at hw
    | true =>
      refine ⟨fun x hx => ?_, v, true, rfl, rfl, hm⟩
      rw [List.mem_singleton.1 hx]
      exact (add_lenTo (hm.query rfl)).le
  | requestMethod | requestUri | fragment | httpVersion | requestPath =>
    exact ⟨hmark, v, w, rfl, rfl, hm⟩
  | done =>
    refine ⟨hnone, v, w, rfl, rfl, ?_⟩
    unfold actParser
    split_ifs
    · exact ⟨hm.mark, hm.fieldStart, hm.field, hm.query⟩
    · exact ⟨hm.mark, hm.fieldStart, hm.field, hm.query⟩
  | xml | json => exact ⟨hnone, v, w, rfl, rfl, ⟨hm.mark, hm.fieldStart, hm.field, hm.query⟩⟩

theorem Marks.runActs (buf : List UInt8) (p : ℕ) (as : List Action) :
    ∀ {v w : Bool} {s : HttpRequestParser}, Marks v w p s.parser → (fieldReady v as).isSome →
      (queryReady w as).isSome →
      (∀ x ∈ Scan.Machine.emitActs (Http.act buf) handed p as s, x.1 + x.2 ≤ p) ∧
        ∃ v' w', fieldReady v as = some v' ∧ queryReady w as = some w' ∧
          Marks v' w' p (Scan.Machine.runActs (Http.act buf) p as s).parser := by
  induction as with
  | nil => intro v w s hm _ _; exact ⟨nofun, v, w, rfl, rfl, hm⟩
  | cons a as ih =>
    intro v w s hm hv hw
    obtain ⟨hhanded, v', w', hv', hw', hm'⟩ := hm.act hv hw buf
    obtain ⟨hrest, v'', w'', hv'', hw'', hm''⟩ := ih hm' (hv' ▸ hv) (hw' ▸ hw)
    refine ⟨fun x hx => ?_, v'', w'', hv'.trans hv'', hw'.trans hw'', hm''⟩
    rcases List.mem_append.1 hx with hx | hx
    · exact hhanded x hx
    · exact hrest x hx

/-! ### One call -/

/-- A scan from a state where all positions are known to lie in front of the scan pointer. -/
theorem Marks.emits (uriRelaxed : Bool) (buf xs : List UInt8) {p cs : ℕ} {s : HttpRequestParser}
    (hm : Marks (inField cs) (inQuery cs) p s.parser) :
    ∀ x ∈ (machine uriRelaxed).emits (Http.act buf) handed xs p cs s,
      x.1 + x.2 ≤ p + xs.length := by
  intro x hx
  have hedge : ∀ cs b as cs' p (s : HttpRequestParser),
      (machine uriRelaxed).move cs b = .go as cs' ∨ (machine uriRelaxed).move cs b = .brk as cs' →
      Marks (inField cs) (inQuery cs) p s.parser →
      (∀ x ∈ Scan.Machine.emitActs (Http.act buf) handed p as s, x.1 + x.2 ≤ p) ∧
        Marks (inField cs') (inQuery cs') (p + 1)
          (Scan.Machine.runActs (Http.act buf) p as s).parser := by
    intro cs b as cs' p s he hm
    obtain ⟨r, hr, e, hre, rfl, hl, -⟩ := mem_rows_of_edge he
    have hfield := ranges_fieldReady r hr e hre
    have hquery := ranges_queryReady r hr e hre
    rw [hl] at hfield hquery
    obtain ⟨hout, v, w, hv, hw, hm'⟩ := hm.runActs buf p as hfield.1 hquery.1
    have hm'' := hm'.mono (Nat.le_succ p)
    refine ⟨hout, hm''.mark, hm''.fieldStart, fun h => hm''.field ?_, fun h => hm''.query ?_⟩
    · exact Option.some.inj (hv.symm.trans (hfield.2 h))
    · exact Option.some.inj (hw.symm.trans (hquery.2 h))
  obtain ⟨k, hk, hle⟩ := Scan.Machine.emits_forall
    (I := fun cs p s => Marks (inField cs) (inQuery cs) p s.parser)
    (P := fun p x => x.1 + x.2 ≤ p) hedge xs p cs s hm x hx
  omega

/-- A slice that is measured from `m` to `p` is inside a buffer exactly if `m` does not lie behind
`p`: otherwise its length wraps around. -/
theorem add_lenTo_le_iff {m p n : ℕ} (hp : p ≤ n) (hn : n < 2 ^ 64) :
    m + lenTo m p ≤ n ↔ m ≤ p := by
  unfold lenTo
  split_ifs with h
  · omega
  · omega

/-- A scan that may begin inside a query: all slices are inside the buffer exactly if the query is
not handed over in front of `query_start`. -/
theorem emits_inside_iff (uriRelaxed : Bool) (buf xs : List UInt8) :
    ∀ {p cs : ℕ} {s : HttpRequestParser}, Marks (inField cs) false p s.parser →
      p + xs.length < 2 ^ 64 →
      ((∀ x ∈ (machine uriRelaxed).emits (act buf) handed xs p cs s,
          x.1 + x.2 ≤ p + xs.length) ↔
        ∀ k, queryEnd uriRelaxed xs p cs = some k → s.parser.queryStart ≤ k) := by
  induction xs with
  | nil => intro p cs s _ _; exact ⟨fun _ => nofun, fun _ => nofun⟩
  | cons b bs ih =>
    intro p cs s hm hlen
    cases hq : inQuery cs with
    | false =>
      -- a query that begins later stores its own `query_start`
      have hend : queryEnd uriRelaxed (b :: bs) p cs = none := by simp [queryEnd, hq]
      rw [hend]
      exact ⟨fun _ => nofun, fun _ => Marks.emits uriRelaxed buf (b :: bs) (by rw [hq]; exact hm)⟩
    | true =>
      rw [queryEnd, if_pos hq]
      cases hmove : (machine uriRelaxed).move cs b with
      | fail =>
        rw [Scan.Machine.emits_of_fail _ _ hmove]
        exact ⟨fun _ => nofun, fun _ => nofun⟩
      | brk as cs' =>
        obtain ⟨r, hr, e, hre, rfl, hl, -⟩ := mem_rows_of_edge (.inr hmove)
        have hacts := ranges_inQuery r hr hq e hre
        have hdone := done_mem_of_brk hmove
        rw [hl] at hacts
        -- the header does not end inside a query
        rcases hacts with rfl | ⟨rfl, -⟩
        · cases hdone
        · simp at hdone
      | go as cs' =>
        obtain ⟨r, hr, e, hre, rfl, hl, -⟩ := mem_rows_of_edge (.inl hmove)
        have hacts := ranges_inQuery r hr hq e hre
        have hfield := ranges_fieldReady r hr e hre
        rw [hl] at hacts hfield
        rw [Scan.Machine.emits_of_go _ _ hmove]
        have hn : p + (b :: bs).length = p + 1 + bs.length := by
          rw [List.length_cons]
          omega
        rw [hn] at hlen ⊢
        have hm' := hm.mono (Nat.le_succ p)
        rcases hacts with rfl | ⟨rfl, hnext⟩
        · -- still inside the query
          have hkeep : Marks (inField cs') false (p + 1) s.parser :=
            ⟨hm'.mark, hm'.fieldStart, fun h => hm'.field (Option.some.inj (hfield.2 h)), nofun⟩
          simpa [Scan.Machine.emitActs, Scan.Machine.runActs] using ih hkeep hlen
        · -- the query is handed over
          have hparser : (Scan.Machine.runActs (act buf) p [.queryString, .requestUri] s).parser =
              s.parser := by
            simp only [Scan.Machine.runActs, List.foldl_cons, List.foldl_nil, act_parser_eq,
              actParser]
          have hkeep : Marks (inField cs') (inQuery cs') (p + 1)
              (Scan.Machine.runActs (act buf) p [.queryString, .requestUri] s).parser := by
            rw [hparser, hnext]
            exact ⟨hm'.mark, hm'.fieldStart, fun h => hm'.field (Option.some.inj (hfield.2 h)),
              nofun⟩
          have hrest := Marks.emits uriRelaxed buf bs hkeep
          have hhanded : Scan.Machine.emitActs (act buf) handed p [.queryString, .requestUri] s =
              [(s.parser.queryStart, lenTo s.parser.queryStart p),
                (s.parser.mark, lenTo s.parser.mark p)] := by
            simp only [Scan.Machine.emitActs, handed, act_parser_eq, actParser, List.append_nil,
              List.singleton_append]
          have hquery := add_lenTo_le_iff (m := s.parser.queryStart) (p := p)
            (n := p + 1 + bs.length) (by omega) hlen
          have hmark : s.parser.mark + lenTo s.parser.mark p ≤ p + 1 + bs.length := by
            rw [add_lenTo hm.mark]
            omega
          rw [hhanded]
          simp only [List.mem_cons, List.mem_append, List.not_mem_nil, or_false, true_or,
            ↓reduceIte, Option.some.injEq, forall_eq']
          constructor
          · intro h
            exact hquery.1 (h _ (.inl (.inl rfl)))
          · rintro h x ((rfl | rfl) | hx)
            · exact hquery.2 h
            · exact hmark
            · exact hrest x hx

/-- **The slices of one call.** -/
theorem callback_inside_iff (s : HttpRequestParser) {buf : List UInt8}
    (hbuf : buf.length < 2 ^ 64) :
    (∀ x ∈ s.callbacks buf, x.1 + x.2 ≤ buf.length) ↔
      ∀ k, queryEnd s.parser.uriRelaxed buf 0 s.parser.cs = some k → s.parser.queryStart ≤ k := by
  have hmarks : Marks (inField s.parser.cs) false 0
      { s with parser := resetMarks s.parser }.parser :=
    ⟨le_rfl, le_rfl, fun _ => le_rfl, nofun⟩
  have h := emits_inside_iff s.parser.uriRelaxed buf buf hmarks (by rwa [Nat.zero_add])
  rwa [Nat.zero_add] at h

theorem mem_executes {bufs : List (List UInt8)} : ∀ {s : HttpRequestParser}
    {c : HttpRequestParser × List UInt8}, c ∈ s.executes bufs → c.2 ∈ bufs := by
  induction bufs with
  | nil => intro s c h; cases h
  | cons buf bufs ih =>
    intro s c h
    rcases List.mem_cons.1 h with rfl | h
    · exact List.mem_cons_self
    · exact List.mem_cons_of_mem _ (ih h)

/-- **The callbacks stay inside the buffer.**  A fresh parser is fed a byte stream in any way: the
slices that callbacks get lie in the buffer of their call, for all calls, exactly if no call hands a
query that was open before it over at a position in front of `query_start`. -/
theorem callbacks_inside_iff (mem : HttpParser) (bufs : List (List UInt8))
    (hlen : ∀ buf ∈ bufs, buf.length < 2 ^ 64) :
    (∀ c ∈ (HttpRequestParser.new mem).executes bufs, ∀ x ∈ c.1.callbacks c.2,
        x.1 + x.2 ≤ c.2.length) ↔
      ∀ c ∈ (HttpRequestParser.new mem).executes bufs,
        ∀ k, queryEnd c.1.parser.uriRelaxed c.2 0 c.1.parser.cs = some k →
          c.1.parser.queryStart ≤ k :=
  forall₂_congr fun c hc => callback_inside_iff c.1 (hlen c.2 (mem_executes hc))

/-- A query in two buffers that is handed over behind the position at which it began: the callback
is given bytes of the second buffer. -/
theorem callbacks_inside_iff_two :
    ∃ c ∈ (HttpRequestParser.new ⟨0, 0, 0, 0, 0, 0, 0, 0, false, false, false⟩).executes
        [ascii "GET /?a", ascii "=12345678 HTTP/1.1\r\n\r\n"],
      (6, 3) ∈ c.1.callbacks c.2 ∧ ∀ x ∈ c.1.callbacks c.2, x.1 + x.2 ≤ c.2.length := by
  have hquery : ∃ c ∈ (HttpRequestParser.new
      ⟨0, 0, 0, 0, 0, 0, 0, 0, false, false, false⟩).executes
        [ascii "GET /?a", ascii "=12345678 HTTP/1.1\r\n\r\n"], (6, 3) ∈ c.1.callbacks c.2 := by
    decide +kernel
  obtain ⟨c, hc, hx⟩ := hquery
  exact ⟨c, hc, hx, (callbacks_inside_iff _ _ (by decide +kernel)).2 (by decide +kernel) c hc⟩

/-- A query in two buffers that is handed over in front of the position at which it began: the
callback is given a length of nearly `2^64`. -/
theorem callback_outside :
    ∃ c ∈ (HttpRequestParser.new ⟨0, 0, 0, 0, 0, 0, 0, 0, false, false, false⟩).executes
        [ascii "GET /?a", ascii "=1 HTTP/1.1\r\n\r\n"],
      ∃ x ∈ c.1.callbacks c.2, x = (6, 2 ^ 64 - 4) ∧ ¬ x.1 + x.2 ≤ c.2.length := by
  decide +kernel

end Http

end YXTWebCpp
