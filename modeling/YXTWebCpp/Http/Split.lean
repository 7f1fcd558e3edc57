import YXTWebCpp.Http.Stream

/-!
# Reading a request piece by piece

The parser keeps positions of the current buffer while it is inside a token, and every call of
`execute` gets a new buffer.  A request survives being cut into several reads as long as no read
ends inside a token: between the byte at which the parser stores a position and the callback that
reads it back.

* `openRegs` : the positions that the parser still needs when a header is cut at a given place.
* `Sim` : the parser in the middle of the header, on one large buffer and on the buffer of the
  current read.  The positions it still needs differ by the number of bytes read before.
* `Reached.execute_more`, `Reached.execute_last` : what a call of `execute` does on a read that ends
  inside the header and on the read that brings the end of it.
-/

namespace YXTWebCpp

namespace Http

/-- The positions of `http_parser` that actions store and read. -/
inductive Reg where
  | mark | fieldStart | fieldLen | queryStart
  deriving DecidableEq, Repr

/-- The positions an action hands to a callback or computes with. -/
def reads : Action → Finset Reg
  | .writeField => {.fieldStart}
  | .writeValue => {.fieldStart, .fieldLen, .mark}
  | .requestMethod | .fragment | .httpVersion | .requestPath => {.mark}
  | .queryString => {.queryStart}
  | _ => ∅

/-- The position an action stores. -/
def writes : Action → Finset Reg
  | .mark | .startValue => {.mark}
  | .startField => {.fieldStart}
  | .writeField => {.fieldLen}
  | .startQuery => {.queryStart}
  | _ => ∅

/-- The positions stored while the first `k` bytes of the header were scanned that a callback on the
remaining bytes reads: the token that is open there. -/
def openRegs (uriRelaxed : Bool) (head : List UInt8) (k : ℕ) : Finset Reg :=
  (machine uriRelaxed).needs reads writes (head.drop k)
    ((machine uriRelaxed).ctrl (head.take k) httpParserStart).state

/-- No segment that ends inside the header ends inside a token. -/
def NoOpenToken (uriRelaxed : Bool) (head : List UInt8) (segs : Segments) : Prop :=
  ∀ i ≤ segs.length, 0 < cut segs i → cut segs i < head.length →
    openRegs uriRelaxed head (cut segs i) = ∅

/-! ### One action -/

theorem lenTo_add (k m p : ℕ) : lenTo (k + m) (k + p) = lenTo m p := by
  unfold lenTo
  split_ifs <;> omega

theorem lenTo_of_le {m p : ℕ} (h : m ≤ p) : lenTo m p = p - m := by
  simp [lenTo, h]

theorem take_cstr (m : List UInt8) (n : ℕ) : (cstr m).take n = cstr (m.take n) :=
  List.take_takeWhile

/-- The field slice `field_start`, `field_len` is one that `write_field` has measured (`v`), and
stays so while the actions are run; `write_value` asks for it. -/
def fieldReady (v : Bool) : List Action → Option Bool
  | [] => some v
  | .startField :: as => fieldReady false as
  | .writeField :: as => fieldReady true as
  | .writeValue :: as => if v then fieldReady v as else none
  | _ :: as => fieldReady v as

/-- The states between the name of a header field and the end of its value. -/
def inField (cs : ℕ) : Bool := cs == 15 || cs == 16

/-- The grammar reads a field slice only after measuring it. -/
theorem ranges_fieldReady :
    ∀ r ∈ rows, ∀ e ∈ r.ranges, (fieldReady (inField r.cs) e.2.2.acts).isSome ∧
      (inField e.2.2.next → fieldReady (inField r.cs) e.2.2.acts = some true) := by
  decide +kernel

/-- The parser on a large buffer (`s₁`) and on a buffer that starts `k` bytes later (`s₂`), both in
front of position `p` of the latter, agree on the request and on the positions in `L`. -/
structure Sim (k : ℕ) (v : Bool) (p : ℕ) (L : Finset Reg) (s₁ s₂ : HttpRequestParser) : Prop where
  data : s₁.data = s₂.data
  error : s₁.error = s₂.error
  thrown : s₁.thrown = s₂.thrown
  relaxed : s₁.parser.uriRelaxed = s₂.parser.uriRelaxed
  mark : .mark ∈ L → s₁.parser.mark = k + s₂.parser.mark ∧ s₂.parser.mark ≤ p
  fieldStart : .fieldStart ∈ L →
    s₁.parser.fieldStart = k + s₂.parser.fieldStart ∧ s₂.parser.fieldStart ≤ p
  queryStart : .queryStart ∈ L →
    s₁.parser.queryStart = k + s₂.parser.queryStart ∧ s₂.parser.queryStart ≤ p
  field : v = true → .fieldLen ∈ L → s₁.parser.fieldLen = s₂.parser.fieldLen ∧
    s₂.parser.fieldStart + s₂.parser.fieldLen ≤ p

/-- Two buffers with the same bytes up to position `p` of the second and the same byte there. -/
structure SameBytes (k : ℕ) (b : UInt8) (p : ℕ) (buf₁ buf₂ : List UInt8) : Prop where
  split : ∃ pre u v₁ v₂, pre.length = k ∧ u.length = p ∧
    buf₁ = pre ++ (u ++ b :: v₁) ∧ buf₂ = u ++ b :: v₂

variable {k p : ℕ} {b : UInt8} {buf₁ buf₂ : List UInt8}

/-- A slice that ends in front of the current byte is the same in both buffers. -/
theorem SameBytes.take_drop (hb : SameBytes k b p buf₁ buf₂) {m n : ℕ} (h : m + n ≤ p) :
    (buf₁.drop (k + m)).take n = (buf₂.drop m).take n := by
  obtain ⟨pre, u, v₁, v₂, rfl, rfl, rfl, rfl⟩ := hb.split
  have hd : ∀ v, ((u ++ b :: v).drop m).take n = (u.drop m).take n := fun v => by
    rw [List.drop_append_of_le_length (by omega),
      List.take_append_of_le_length (by rw [List.length_drop]; omega)]
  rw [← List.drop_drop, List.drop_left, hd, hd]

theorem SameBytes.drop_eq (hb : SameBytes k b p buf₁ buf₂) {m : ℕ} (h : m ≤ p) :
    ∃ tok v₁ v₂, buf₁.drop (k + m) = tok ++ b :: v₁ ∧ buf₂.drop m = tok ++ b :: v₂ := by
  obtain ⟨pre, u, v₁, v₂, rfl, rfl, rfl, rfl⟩ := hb.split
  refine ⟨u.drop m, v₁, v₂, ?_, ?_⟩
  · rw [← List.drop_drop, List.drop_left, List.drop_append_of_le_length h]
  · rw [List.drop_append_of_le_length h]

/-- `std::string` of a token that ends in front of the current byte. -/
theorem SameBytes.stdString_eq (hb : SameBytes k b p buf₁ buf₂) {m : ℕ} (h : m ≤ p) :
    stdString (buf₁.drop (k + m)) (lenTo (k + m) (k + p)) =
      stdString (buf₂.drop m) (lenTo m p) := by
  rw [lenTo_add, lenTo_of_le h]
  unfold stdString
  rw [hb.take_drop (by omega)]

theorem SameBytes.strncmpEq_eq (hb : SameBytes k b p buf₁ buf₂) {m : ℕ} (h : m ≤ p)
    (name : List UInt8) :
    strncmpEq (buf₁.drop (k + m)) name (lenTo (k + m) (k + p)) =
      strncmpEq (buf₂.drop m) name (lenTo m p) := by
  rw [lenTo_add, lenTo_of_le h]
  unfold strncmpEq
  rw [take_cstr, take_cstr (buf₂.drop m), hb.take_drop (by omega)]

theorem Sim.store {v : Bool} {L : Finset Reg} {s₁ s₂ : HttpRequestParser}
    (hs : Sim k v p L s₁ s₂) {at₁ at₂ : List UInt8} {n₁ n₂ : ℕ}
    (h : stdString at₁ n₁ = stdString at₂ n₂) (set : HttpRequest → List UInt8 → HttpRequest) :
    Sim k v p L (s₁.store at₁ n₁ set) (s₂.store at₂ n₂ set) := by
  unfold HttpRequestParser.store
  rw [h]
  cases stdString at₂ n₂ with
  | some x => exact { hs with data := by rw [hs.data] }
  | none => exact { hs with thrown := rfl }

theorem Sim.mono {v : Bool} {q : ℕ} {L L' : Finset Reg} {s₁ s₂ : HttpRequestParser}
    (hs : Sim k v p L s₁ s₂) (hL : L' ⊆ L) (hq : p ≤ q) : Sim k v q L' s₁ s₂ where
  data := hs.data
  error := hs.error
  thrown := hs.thrown
  relaxed := hs.relaxed
  mark h := ⟨(hs.mark (hL h)).1, (hs.mark (hL h)).2.trans hq⟩
  fieldStart h := ⟨(hs.fieldStart (hL h)).1, (hs.fieldStart (hL h)).2.trans hq⟩
  queryStart h := ⟨(hs.queryStart (hL h)).1, (hs.queryStart (hL h)).2.trans hq⟩
  field hv h := ⟨(hs.field hv (hL h)).1, (hs.field hv (hL h)).2.trans hq⟩

/-- An action that stores no position keeps the relation on everything it does not read. -/
theorem Sim.of_reads {v : Bool} {a : Action} {L : Finset Reg} {s₁ s₂ : HttpRequestParser}
    (hs : Sim k v p (reads a ∪ (L \ writes a)) s₁ s₂) (ha : writes a = ∅) :
    Sim k v p L s₁ s₂ :=
  hs.mono (by rw [ha, Finset.sdiff_empty]; exact Finset.subset_union_right) le_rfl

/-- **Each action keeps the relation**: in front of the same byte, it reads the same slices in both
buffers. -/
theorem Sim.act (hb : SameBytes k b p buf₁ buf₂) {v : Bool} {a : Action} {as : List Action}
    (hm : a = .requestMethod → b = 32) (hv : (fieldReady v (a :: as)).isSome)
    {L : Finset Reg} {s₁ s₂ : HttpRequestParser}
    (hs : Sim k v p (reads a ∪ (L \ writes a)) s₁ s₂) :
    ∃ v', fieldReady v (a :: as) = fieldReady v' as ∧
      Sim k v' p L (Http.act buf₁ (k + p) a s₁) (Http.act buf₂ p a s₂) := by
  cases a with
  | mark | startValue =>
    refine ⟨v, rfl, { hs with
      mark := fun _ => ⟨rfl, le_rfl⟩, fieldStart := ?_, queryStart := ?_, field := ?_ }⟩
    · exact fun h => hs.fieldStart (by simp [writes, h])
    · exact fun h => hs.queryStart (by simp [writes, h])
    · exact fun hv h => hs.field hv (by simp [writes, h])
  | startField =>
    refine ⟨false, rfl, { hs with
      mark := ?_, fieldStart := fun _ => ⟨rfl, le_rfl⟩, queryStart := ?_,
      field := fun h => by simp at h }⟩
    · exact fun h => hs.mark (by simp [writes, h])
    · exact fun h => hs.queryStart (by simp [writes, h])
  | writeField =>
    obtain ⟨hf, hle⟩ := hs.fieldStart (by simp [reads])
    refine ⟨true, rfl, { hs with
      mark := ?_, fieldStart := fun _ => ⟨hf, hle⟩, queryStart := ?_, field := fun _ _ => ?_ }⟩
    · exact fun h => hs.mark (by simp [writes, h])
    · exact fun h => hs.queryStart (by simp [writes, h])
    · simp only [Http.act, hf, lenTo_add, lenTo_of_le hle, true_and]
      omega
  | writeValue =>
    cases v with
    | false => simp [fieldReady] at hv
    | true =>
      obtain ⟨hf, -⟩ := hs.fieldStart (by simp [reads])
      obtain ⟨hl, hfl⟩ := hs.field rfl (by simp [reads])
      obtain ⟨hmk, hmle⟩ := hs.mark (by simp [reads])
      refine ⟨true, rfl, ?_⟩
      have hs' := hs.of_reads rfl
      have hname : stdString (buf₁.drop s₁.parser.fieldStart) s₁.parser.fieldLen =
          stdString (buf₂.drop s₂.parser.fieldStart) s₂.parser.fieldLen := by
        unfold stdString
        rw [hf, hl, hb.take_drop hfl]
      have hval := hb.stdString_eq hmle
      simp only [Http.act, onRequestHttpField]
      rw [hname, hl, hmk, hval]
      split_ifs
      · exact { hs' with error := rfl }
      · split
        · exact { hs' with data := by rw [hs.data] }
        · exact { hs' with thrown := rfl }
  | requestMethod =>
    obtain ⟨hmk, hmle⟩ := hs.mark (by simp [reads])
    obtain ⟨tok, v₁, v₂, h₁, h₂⟩ := hb.drop_eq hmle
    have hs' := hs.of_reads rfl
    refine ⟨v, rfl, ?_⟩
    have hmeth : charsToHttpMethod (buf₁.drop s₁.parser.mark) =
        charsToHttpMethod (buf₂.drop s₂.parser.mark) := by
      rw [hmk, h₁, h₂, hm rfl, charsToHttpMethod_append_space tok v₁ v₂]
    simp only [Http.act, onRequestMethod, hmeth]
    split_ifs
    · exact { hs' with error := rfl }
    · exact { hs' with data := by rw [hs.data] }
  | requestUri => exact ⟨v, rfl, hs.of_reads rfl⟩
  | fragment =>
    obtain ⟨hmk, hmle⟩ := hs.mark (by simp [reads])
    refine ⟨v, rfl, ?_⟩
    simp only [Http.act, onRequestFragment, hmk]
    exact (hs.of_reads rfl).store (hb.stdString_eq hmle) _
  | startQuery =>
    refine ⟨v, rfl, { hs with
      mark := ?_, fieldStart := ?_, queryStart := fun _ => ⟨rfl, le_rfl⟩, field := ?_ }⟩
    · exact fun h => hs.mark (by simp [writes, h])
    · exact fun h => hs.fieldStart (by simp [writes, h])
    · exact fun hv h => hs.field hv (by simp [writes, h])
  | queryString =>
    obtain ⟨hmk, hmle⟩ := hs.queryStart (by simp [reads])
    refine ⟨v, rfl, ?_⟩
    simp only [Http.act, onRequestQuery, hmk]
    exact (hs.of_reads rfl).store (hb.stdString_eq hmle) _
  | httpVersion =>
    obtain ⟨hmk, hmle⟩ := hs.mark (by simp [reads])
    have hs' := hs.of_reads rfl
    refine ⟨v, rfl, ?_⟩
    simp only [Http.act, onRequestVersion, hmk, hb.strncmpEq_eq hmle]
    split_ifs
    · exact { hs' with data := by rw [hs.data] }
    · exact { hs' with data := by rw [hs.data] }
    · exact { hs' with error := rfl }
  | requestPath =>
    obtain ⟨hmk, hmle⟩ := hs.mark (by simp [reads])
    refine ⟨v, rfl, ?_⟩
    simp only [Http.act, onRequestPath, hmk]
    exact (hs.of_reads rfl).store (hb.stdString_eq hmle) _
  | done =>
    have hs' := hs.of_reads rfl
    refine ⟨v, rfl, ?_⟩
    simp only [Http.act]
    split_ifs
    all_goals exact { hs' with }
  | xml => exact ⟨v, rfl, { hs.of_reads rfl with }⟩
  | json => exact ⟨v, rfl, { hs.of_reads rfl with }⟩

theorem Sim.runActs (hb : SameBytes k b p buf₁ buf₂) : ∀ (as : List Action) (v : Bool),
    (.requestMethod ∈ as → b = 32) → (fieldReady v as).isSome →
    ∀ (L : Finset Reg) (s₁ s₂ : HttpRequestParser),
      Sim k v p (Scan.Machine.needsActs reads writes as L) s₁ s₂ →
      ∃ v', fieldReady v as = some v' ∧
        Sim k v' p L (Scan.Machine.runActs (Http.act buf₁) (k + p) as s₁)
          (Scan.Machine.runActs (Http.act buf₂) p as s₂) := by
  intro as
  induction as with
  | nil => intro v _ _ L s₁ s₂ hs; exact ⟨v, rfl, hs⟩
  | cons a as ih =>
    intro v hm hv L s₁ s₂ hs
    have hma : a = .requestMethod → b = 32 := fun h => hm (h ▸ List.mem_cons_self)
    obtain ⟨v', hv', hs'⟩ := Sim.act hb hma hv hs
    obtain ⟨w, hw, hs''⟩ := ih v' (fun h => hm (List.mem_cons_of_mem _ h)) (hv' ▸ hv) L _ _ hs'
    exact ⟨w, hv'.trans hw, hs''⟩

/-- The edges of the automaton keep the relation, with the field slice measured in the states
`inField`. -/
theorem keeps_sim (uriRelaxed : Bool) (hb : SameBytes k b p buf₁ buf₂) :
    (machine uriRelaxed).Keeps reads writes (fun cs p L => Sim k (inField cs) p L)
      (act buf₁) (act buf₂) k b p := by
  intro cs as cs' he L s₁ s₂ hs
  obtain ⟨r, hr, e, hre, rfl, hl, -⟩ := mem_rows_of_edge he
  obtain ⟨hv, hv'⟩ := ranges_fieldReady r hr e hre
  rw [hl] at hv hv'
  obtain ⟨v', hfr, hs'⟩ :=
    Sim.runActs hb as _ (fun hm => eq_space_of_edge_requestMethod he hm) hv L s₁ s₂ hs
  have hs'' := hs'.mono subset_rfl (Nat.le_succ p)
  refine { hs'' with field := fun hcs h => hs''.field ?_ h }
  have := hv' hcs
  rw [hfr] at this
  exact Option.some.inj this

/-! ### One call of `execute` -/

/-- The states inside a query. -/
def inQuery (cs : ℕ) : Bool := cs == 30 || cs == 31 || cs == 32

/-- The positions that may be needed in a state: `query_start` only inside a query. -/
def mayNeed (cs : ℕ) : Finset Reg :=
  {.mark, .fieldStart, .fieldLen} ∪ if inQuery cs then {.queryStart} else ∅

theorem ranges_mayNeed :
    ∀ r ∈ rows, ∀ e ∈ r.ranges,
      Scan.Machine.needsActs reads writes e.2.2.acts (mayNeed e.2.2.next) ⊆ mayNeed r.cs := by
  decide +kernel

/-- A fresh parser does not look at the uninitialised `query_start`. -/
theorem queryStart_notMem_needs (uriRelaxed : Bool) (xs : List UInt8) :
    Reg.queryStart ∉ (machine uriRelaxed).needs reads writes xs httpParserStart := by
  have hsub := (machine uriRelaxed).needs_subset reads writes mayNeed
    (fun cs b as cs' he => by
      obtain ⟨r, hr, e, hre, rfl, hl, -⟩ := mem_rows_of_edge he
      have := ranges_mayNeed r hr e hre
      rwa [hl] at this) xs httpParserStart
  intro h
  have := hsub h
  revert this
  decide

/-- The parser at the start of the scan of a first buffer. -/
def startOf (mem : HttpParser) : HttpRequestParser :=
  { HttpRequestParser.new mem with parser := resetMarks (httpParserInit mem) }

/-- The parser after a scan of `pre`, the beginning of the header, in one large buffer. -/
def single (mem : HttpParser) (head pre : List UInt8) : HttpRequestParser :=
  ((machine mem.uriRelaxed).exec (act head) pre 0 httpParserStart (startOf mem)).mem

/-- The parser `s` has been fed `pre`, the beginning of the header, in several buffers; it is about
to scan the next one. -/
structure Reached (mem : HttpParser) (head pre : List UInt8) (s : HttpRequestParser) : Prop where
  cs : s.parser.cs = ((machine mem.uriRelaxed).ctrl pre httpParserStart).state
  sim : Sim pre.length (inField s.parser.cs) 0
    ((machine mem.uriRelaxed).needs reads writes (head.drop pre.length) s.parser.cs)
    (single mem head pre) { s with parser := resetMarks s.parser }

theorem reached_new (mem : HttpParser) (head : List UInt8) :
    Reached mem head [] (.new mem) where
  cs := rfl
  sim := by
    refine ⟨rfl, rfl, rfl, rfl, fun _ => ⟨rfl, le_rfl⟩, fun _ => ⟨rfl, le_rfl⟩, fun h => ?_,
      fun h => ?_⟩
    · exact absurd h (queryStart_notMem_needs _ _)
    · exact absurd (show inField httpParserStart = true from h) (by decide)

/-- What no action changes, and what it never takes back. -/
theorem act_keeps (buf : List UInt8) (p : ℕ) (a : Action) (s : HttpRequestParser) :
    (act buf p a s).parser.uriRelaxed = s.parser.uriRelaxed ∧
      (s.error ≠ 0 → (act buf p a s).error ≠ 0) ∧
      (s.thrown = true → (act buf p a s).thrown = true) := by
  cases a <;> simp only [act, onRequestMethod, onRequestFragment, onRequestPath, onRequestQuery,
    onRequestVersion, onRequestHttpField, HttpRequestParser.store] <;>
    (try split_ifs) <;> (try split) <;> simp_all

section Complete

variable {mem : HttpParser} {head : List UInt8}

/-- One call of `execute` on the whole of `head` ends the header with the last byte of it. -/
structure IsHead (mem : HttpParser) (head : List UInt8) : Prop where
  finished : ((HttpRequestParser.new mem).execute head).1.isFinished = true
  noError : ((HttpRequestParser.new mem).execute head).1.hasError = false
  noThrow : ((HttpRequestParser.new mem).execute head).1.thrown = false
  consumed : ((HttpRequestParser.new mem).execute head).2.1 = head.length

theorem IsHead.ne_nil (h : IsHead mem head) : head ≠ [] := by
  intro he
  have := h.finished
  rw [he] at this
  revert this
  simp [HttpRequestParser.execute, httpParserExecute, HttpRequestParser.isFinished,
    httpParserFinish, httpParserHasError, httpParserIsFinished, HttpRequestParser.new,
    httpParserInit, httpParserStart, httpParserError, httpParserFirstFinal]

theorem execBuf_new (mem : HttpParser) (head : List UInt8) :
    execBuf (.new mem) head =
      (machine mem.uriRelaxed).exec (act head) head 0 httpParserStart (startOf mem) :=
  rfl

/-- A call of `execute` on a parser that has not failed. -/
theorem execute_eq {s : HttpRequestParser} {buf : List UInt8} (hbuf : buf ≠ [])
    (hs : httpParserHasError s.parser = false) :
    s.execute buf =
      ({ (execBuf s buf).mem with
          parser := { (execBuf s buf).mem.parser with
            cs := (execBuf s buf).state, nread := buf.length - (execBuf s buf).rest.length } },
        buf.length - (execBuf s buf).rest.length, (execBuf s buf).rest) := by
  have hsuf : (execBuf s buf).rest <:+ buf := Scan.Machine.exec_rest_suffix _ _ _ _ _ _
  simp only [HttpRequestParser.execute, httpParserExecute, hbuf, ↓reduceIte, hs,
    Bool.false_eq_true, Prod.mk.injEq, true_and]
  exact (List.suffix_iff_eq_drop.1 hsuf).symm

theorem hasError_new (mem : HttpParser) :
    httpParserHasError (HttpRequestParser.new mem).parser = false :=
  rfl

/-- The state of a scan that goes on: neither failed nor final. -/
theorem state_of_not_stopped {uriRelaxed : Bool} {pre : List UInt8}
    (h : ((machine uriRelaxed).ctrl pre httpParserStart).stopped = false) :
    ((machine uriRelaxed).ctrl pre httpParserStart).state ≠ httpParserError ∧
      ((machine uriRelaxed).ctrl pre httpParserStart).state < httpParserFirstFinal :=
  (machine uriRelaxed).ctrl_state
    (P := fun cs => cs ≠ httpParserError ∧ cs < httpParserFirstFinal)
    (fun _ _ _ _ hgo => go_next hgo) pre httpParserStart (by decide) h

theorem IsHead.spec (h : IsHead mem head) :
    ((machine mem.uriRelaxed).ctrl head httpParserStart).stopped = true ∧
      ((machine mem.uriRelaxed).ctrl head httpParserStart).rest = [] ∧
      httpParserFirstFinal ≤ ((machine mem.uriRelaxed).ctrl head httpParserStart).state ∧
      (single mem head head).error = 0 ∧ (single mem head head).thrown = false := by
  have heq := execute_eq h.ne_nil (hasError_new mem)
  rw [execBuf_new] at heq
  obtain ⟨hst, hstate, hrest⟩ :=
    (machine mem.uriRelaxed).exec_ctrl (act head) head 0 httpParserStart (startOf mem)
  have hfin := h.finished
  have herr := h.noError
  have hthr := h.noThrow
  have hcon := h.consumed
  rw [heq] at hfin herr hthr hcon
  simp only [HttpRequestParser.hasError, Bool.or_eq_false_iff, bne_eq_false_iff_eq,
    httpParserHasError, hstate] at herr
  simp only [HttpRequestParser.isFinished, httpParserFinish, httpParserHasError, herr.2, hstate,
    httpParserIsFinished] at hfin
  have hle : httpParserFirstFinal ≤
      ((machine mem.uriRelaxed).ctrl head httpParserStart).state := by
    by_contra hlt
    simp [hlt] at hfin
  refine ⟨?_, ?_, hle, herr.1, hthr⟩
  · by_contra hns
    have hlt := (state_of_not_stopped (Bool.eq_false_iff.2 hns)).2
    omega
  · have hlen : 0 < head.length := List.length_pos_iff.2 h.ne_nil
    rw [← hrest]
    simp only at hcon
    exact List.length_eq_zero_iff.1 (by omega)

/-- The scan does not stop inside the header. -/
theorem IsHead.not_stopped (h : IsHead mem head) {pre rest : List UInt8}
    (hhead : head = pre ++ rest) (hrest : rest ≠ []) :
    ((machine mem.uriRelaxed).ctrl pre httpParserStart).stopped = false := by
  by_contra hst
  have hst' : ((machine mem.uriRelaxed).ctrl pre httpParserStart).stopped = true := by
    simpa using hst
  have := h.spec.2.1
  simp only [Scan.Machine.ctrl] at this hst'
  rw [hhead, Scan.Machine.exec_append, if_pos hst'] at this
  simp only [List.append_eq_nil_iff] at this
  exact hrest this.2

theorem single_append {pre : List UInt8} (xs : List UInt8)
    (h : ((machine mem.uriRelaxed).ctrl pre httpParserStart).stopped = false) :
    single mem head (pre ++ xs) =
      ((machine mem.uriRelaxed).exec (act head) xs pre.length
        ((machine mem.uriRelaxed).ctrl pre httpParserStart).state (single mem head pre)).mem := by
  obtain ⟨hst, hstate, -⟩ :=
    (machine mem.uriRelaxed).exec_ctrl (act head) pre 0 httpParserStart (startOf mem)
  unfold single
  rw [Scan.Machine.exec_append, hst, h]
  simp [hstate]

/-- No error has been reported in the middle of a header that ends without one. -/
theorem IsHead.single_ok (h : IsHead mem head) {pre rest : List UInt8}
    (hhead : head = pre ++ rest) (hrest : rest ≠ []) :
    (single mem head pre).error = 0 ∧ (single mem head pre).thrown = false := by
  obtain ⟨-, -, -, herr, hthr⟩ := h.spec
  have happ : single mem head head = _ :=
    (congrArg (single mem head) hhead).trans (single_append rest (h.not_stopped hhead hrest))
  rw [happ] at herr hthr
  constructor
  · by_contra hne
    exact Scan.Machine.exec_mem _ (P := fun s => s.error ≠ 0)
      (fun p a s => (act_keeps head p a s).2.1) rest _ _ _ hne herr
  · by_contra hne
    have := Scan.Machine.exec_mem (machine mem.uriRelaxed) (P := fun s => s.thrown = true)
      (fun p a s => (act_keeps head p a s).2.2) rest pre.length
      ((machine mem.uriRelaxed).ctrl pre httpParserStart).state _ (by simpa using hne)
    rw [hthr] at this
    exact Bool.false_ne_true this

theorem single_relaxed (mem : HttpParser) (head pre : List UInt8) :
    (single mem head pre).parser.uriRelaxed = mem.uriRelaxed :=
  Scan.Machine.exec_mem _ (P := fun s => s.parser.uriRelaxed = mem.uriRelaxed)
    (fun p a s hs => (act_keeps head p a s).1.trans hs) pre 0 _ _ rfl

/-- The scan of the next bytes in the buffer of the current read follows the scan in one large
buffer. -/
theorem Reached.exec_sim {pre xs ys x : List UInt8} {s : HttpRequestParser}
    (hr : Reached mem head pre s) (hhead : head = pre ++ (xs ++ ys)) :
    let o₁ := (machine mem.uriRelaxed).exec (act head) xs pre.length s.parser.cs
      (single mem head pre)
    let o₂ := (machine mem.uriRelaxed).exec (act (xs ++ x)) xs 0 s.parser.cs
      { s with parser := resetMarks s.parser }
    o₁.mem.data = o₂.mem.data ∧ o₁.mem.error = o₂.mem.error ∧ o₁.mem.thrown = o₂.mem.thrown := by
  have hkeeps : ∀ u b v, xs = u ++ b :: v → (machine mem.uriRelaxed).Keeps reads writes
      (fun cs p L => Sim pre.length (inField cs) p L) (act head) (act (xs ++ x)) pre.length b
      (0 + u.length) := by
    intro u b v huv
    refine keeps_sim _ ⟨pre, u, v ++ ys, v ++ x, rfl, by simp, ?_, ?_⟩
    · rw [hhead, huv]; simp
    · rw [huv]; simp
  have hsim := hr.sim
  rw [hhead, List.drop_left] at hsim
  obtain ⟨hstop, hrun⟩ := Scan.Machine.exec_sim xs ys 0 s.parser.cs (single mem head pre)
    { s with parser := resetMarks s.parser } hkeeps (by rw [hhead]; exact hsim)
  rw [Nat.add_zero] at hstop hrun
  intro o₁ o₂
  cases hst : o₁.stopped with
  | true => obtain ⟨q, p, hs⟩ := hstop hst; exact ⟨hs.data, hs.error, hs.thrown⟩
  | false => have hs := hrun hst; exact ⟨hs.data, hs.error, hs.thrown⟩

theorem Reached.relaxed {pre : List UInt8} {s : HttpRequestParser}
    (hr : Reached mem head pre s) : s.parser.uriRelaxed = mem.uriRelaxed :=
  hr.sim.relaxed.symm.trans (single_relaxed mem head pre)

theorem Reached.hasError {pre rest : List UInt8} {s : HttpRequestParser}
    (h : IsHead mem head) (hr : Reached mem head pre s) (hhead : head = pre ++ rest)
    (hrest : rest ≠ []) : httpParserHasError s.parser = false := by
  have hne := (state_of_not_stopped (h.not_stopped hhead hrest)).1
  rw [← hr.cs] at hne
  simpa [httpParserHasError] using hne

/-- The control of a scan goes on where it stopped. -/
theorem ctrl_append {pre : List UInt8} (xs : List UInt8)
    (h : ((machine mem.uriRelaxed).ctrl pre httpParserStart).stopped = false) :
    ∀ {σ : Type} (act : ℕ → Action → σ → σ) (p : ℕ) (s : σ),
      let o := (machine mem.uriRelaxed).exec act xs p
        ((machine mem.uriRelaxed).ctrl pre httpParserStart).state s
      o.stopped = ((machine mem.uriRelaxed).ctrl (pre ++ xs) httpParserStart).stopped ∧
        o.state = ((machine mem.uriRelaxed).ctrl (pre ++ xs) httpParserStart).state ∧
        o.rest = ((machine mem.uriRelaxed).ctrl (pre ++ xs) httpParserStart).rest := by
  intro σ act p s
  have happ : (machine mem.uriRelaxed).ctrl (pre ++ xs) httpParserStart =
      (machine mem.uriRelaxed).exec (fun _ _ s => s) xs (0 + pre.length)
        ((machine mem.uriRelaxed).ctrl pre httpParserStart).state () := by
    simp only [Scan.Machine.ctrl] at h ⊢
    rw [Scan.Machine.exec_append, h]
    simp
  obtain ⟨h1, h2, h3⟩ := (machine mem.uriRelaxed).exec_ctrl act xs p
    ((machine mem.uriRelaxed).ctrl pre httpParserStart).state s
  obtain ⟨g1, g2, g3⟩ := (machine mem.uriRelaxed).exec_ctrl (fun _ _ s => s) xs (0 + pre.length)
    ((machine mem.uriRelaxed).ctrl pre httpParserStart).state ()
  rw [happ]
  exact ⟨h1.trans g1.symm, h2.trans g2.symm, h3.trans g3.symm⟩

/-- **A read that ends inside the header**, and not inside a token: everything is consumed, the
header goes on. -/
theorem Reached.execute_more (h : IsHead mem head) {pre got rest : List UInt8}
    {s : HttpRequestParser} (hr : Reached mem head pre s)
    (hhead : head = pre ++ (got ++ rest)) (hgot : got ≠ []) (hrest : rest ≠ [])
    (hopen : openRegs mem.uriRelaxed head (pre ++ got).length = ∅) :
    (s.execute got).2.2 = [] ∧ (s.execute got).1.thrown = false ∧
      (s.execute got).1.hasError = false ∧ (s.execute got).1.isFinished = false ∧
      Reached mem head (pre ++ got) (s.execute got).1 := by
  have hhead' : head = (pre ++ got) ++ rest := by rw [hhead, List.append_assoc]
  have hns := h.not_stopped hhead (by simp [hgot])
  have hns' := h.not_stopped hhead' hrest
  have hexec : execBuf s got = (machine mem.uriRelaxed).exec (act got) got 0
      ((machine mem.uriRelaxed).ctrl pre httpParserStart).state
      { s with parser := resetMarks s.parser } := by
    rw [execBuf, hr.relaxed, hr.cs]
  obtain ⟨hst, hstate, hrest'⟩ := ctrl_append got hns (act got) 0
    { s with parser := resetMarks s.parser }
  rw [← hexec] at hst hstate hrest'
  have hcons : (execBuf s got).rest = [] := by
    rw [hexec] at hst ⊢
    exact Scan.Machine.exec_rest_of_not_stopped _ _ _ _ _ _ (hst.trans hns')
  have hsim := hr.exec_sim (x := []) hhead
  dsimp only at hsim
  rw [List.append_nil, hr.cs, ← single_append got hns, ← hexec] at hsim
  obtain ⟨hdata, herr, hthr⟩ := hsim
  obtain ⟨herr0, hthr0⟩ := h.single_ok hhead' hrest
  have hcs := state_of_not_stopped hns'
  rw [← hstate] at hcs
  rw [execute_eq hgot (hr.hasError h hhead (by simp [hgot]))]
  refine ⟨hcons, by rw [← hthr0, hthr], ?_, ?_, hstate, ?_⟩
  · simp [HttpRequestParser.hasError, httpParserHasError, ← herr, herr0, hcs.1]
  · simp [HttpRequestParser.isFinished, httpParserFinish, httpParserHasError, httpParserIsFinished,
      hcs.1, hcs.2]
  · rw [hstate]
    simp only [openRegs, hhead', List.drop_left, List.take_left] at hopen ⊢
    rw [hopen]
    refine ⟨?_, ?_, ?_, ?_, by simp, by simp, by simp, by simp⟩
    · rw [← hhead']; exact hdata
    · rw [← hhead']; exact herr
    · rw [← hhead']; exact hthr
    · rw [single_relaxed]
      have := Scan.Machine.exec_mem (machine mem.uriRelaxed)
        (P := fun s => s.parser.uriRelaxed = mem.uriRelaxed)
        (fun p a s hs => (act_keeps got p a s).1.trans hs) got 0
        ((machine mem.uriRelaxed).ctrl pre httpParserStart).state
        { s with parser := resetMarks s.parser } hr.relaxed
      rw [← hexec] at this
      exact this.symm

/-- **The read that brings the end of the header**: the scan stops there and leaves the bytes that
follow. -/
theorem Reached.execute_last (h : IsHead mem head) {pre rest x : List UInt8}
    {s : HttpRequestParser} (hr : Reached mem head pre s) (hhead : head = pre ++ rest)
    (hrest : rest ≠ []) :
    (s.execute (rest ++ x)).2.2 = x ∧ (s.execute (rest ++ x)).1.thrown = false ∧
      (s.execute (rest ++ x)).1.hasError = false ∧ (s.execute (rest ++ x)).1.isFinished = true ∧
      (s.execute (rest ++ x)).1.data = (single mem head head).data := by
  have hns := h.not_stopped hhead hrest
  obtain ⟨hstop, hnil, hfin, herr0, hthr0⟩ := h.spec
  obtain ⟨hst, hstate, hrest'⟩ := ctrl_append rest hns (act (rest ++ x)) 0
    { s with parser := resetMarks s.parser }
  have hexec : execBuf s (rest ++ x) =
      { (machine mem.uriRelaxed).exec (act (rest ++ x)) rest 0
        ((machine mem.uriRelaxed).ctrl pre httpParserStart).state
        { s with parser := resetMarks s.parser } with rest := x } := by
    rw [execBuf, hr.relaxed, hr.cs, Scan.Machine.exec_append, if_pos (by rw [hst, ← hhead, hstop]),
      hrest', ← hhead, hnil, List.nil_append]
  have hhead' : head = pre ++ (rest ++ []) := by rw [List.append_nil]; exact hhead
  have hsim := hr.exec_sim (x := x) hhead'
  dsimp only at hsim
  rw [hr.cs, ← single_append rest hns, ← hhead] at hsim
  obtain ⟨hdata, herr, hthr⟩ := hsim
  rw [← hhead] at hstate
  have hne : httpParserError ≠ ((machine mem.uriRelaxed).ctrl head httpParserStart).state := by
    intro he
    rw [← he] at hfin
    exact absurd hfin (by decide)
  rw [execute_eq (by simp [hrest]) (hr.hasError h hhead hrest), hexec]
  refine ⟨rfl, by rw [← hthr0, hthr], ?_, ?_, hdata.symm⟩
  · simp [HttpRequestParser.hasError, httpParserHasError, ← herr, herr0, hstate, hne.symm]
  · simp [HttpRequestParser.isFinished, httpParserFinish, httpParserHasError, httpParserIsFinished,
      hstate, hne.symm, hfin]

end Complete

end Http

end YXTWebCpp
