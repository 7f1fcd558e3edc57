import YXTWebCpp.Http.Memory
import YXTWebCpp.Http.Receive
import YXTWebCpp.Stream.FixSize

/-!
# The body of a request

The last read of the header loop of `HttpStream::recvRequest` (`httpstream.cpp`) may bring a part
of the body, the whole body or more than the body.  What is missing is read by
`Stream::readFixSize` (`stream.cpp`), in as many reads as it takes.

* `IsHeader` : the grammar ends at the last byte.
* `arriving` : the bytes that come before a read returns nothing.
* `recvHead_header` : the header loop has read a header, however its bytes were split.
* `readFixLoop_arriving` : `readFixSize` succeeds exactly if enough bytes arrive.
* `fixSize_readCall` : it is the loop of the byte streams.
* `recvRequest_body` : **the body is what follows the header**, or the stream is closed.
-/

namespace YXTWebCpp

namespace Http

/-- The grammar accepts `head`, and not before its last byte. -/
def IsHeader (uriRelaxed : Bool) (head : List UInt8) : Prop :=
  httpParserFirstFinal ≤ ((machine uriRelaxed).ctrl head httpParserStart).state ∧
    ((machine uriRelaxed).ctrl head httpParserStart).rest = []

/-- The bytes that come before a read returns nothing. -/
def arriving : Segments → List UInt8
  | [] => []
  | seg :: segs => if seg = [] then [] else seg ++ arriving segs

/-! ### The header -/

/-- The parser `s` has been fed `pre` and the header is not complete. -/
structure Fed (uriRelaxed : Bool) (pre : List UInt8) (s : HttpRequestParser) : Prop where
  relaxed : s.parser.uriRelaxed = uriRelaxed
  cs : s.parser.cs = ((machine uriRelaxed).ctrl pre httpParserStart).state
  running : ((machine uriRelaxed).ctrl pre httpParserStart).stopped = false

theorem fed_new (mem : HttpParser) : Fed mem.uriRelaxed [] (.new mem) :=
  ⟨rfl, rfl, rfl⟩

variable {mem : HttpParser} {pre got : List UInt8} {s : HttpRequestParser}

/-- `isFinished` of a parser that has not failed. -/
theorem isFinished_iff (herr : s.hasError = false) :
    s.parser.cs ≠ httpParserError ∧ (s.isFinished = true ↔ httpParserFirstFinal ≤ s.parser.cs) := by
  have hne : s.parser.cs ≠ httpParserError := by
    simp only [HttpRequestParser.hasError, Bool.or_eq_false_iff, httpParserHasError,
      beq_eq_false_iff_ne] at herr
    exact herr.2
  refine ⟨hne, ?_⟩
  simp [HttpRequestParser.isFinished, httpParserFinish, httpParserHasError, hne,
    httpParserIsFinished]

theorem Fed.noError (h : Fed mem.uriRelaxed pre s) : httpParserHasError s.parser = false := by
  have hne := (state_of_not_stopped h.running).1
  rw [← h.cs] at hne
  simpa [httpParserHasError] using hne

/-- A call of `execute` goes on with the grammar where the previous one has stopped. -/
theorem Fed.execute (h : Fed mem.uriRelaxed pre s) (hgot : got ≠ []) :
    (s.execute got).1.parser.cs =
        ((machine mem.uriRelaxed).ctrl (pre ++ got) httpParserStart).state ∧
      (s.execute got).2.2 = ((machine mem.uriRelaxed).ctrl (pre ++ got) httpParserStart).rest := by
  obtain ⟨-, hstate, hrest⟩ := ctrl_append got h.running (fun _ _ s => s) 0 ()
  refine ⟨?_, ?_⟩
  · rw [execute_cs, h.relaxed, h.cs]
    exact hstate
  · rw [execute_eq hgot h.noError]
    simp only [execBuf]
    rw [((machine _).exec_ctrl _ _ _ _ _).2.2, h.relaxed, h.cs]
    exact hrest

/-- A call of `execute` after which the header is not complete has consumed everything. -/
theorem Fed.more (h : Fed mem.uriRelaxed pre s) (hgot : got ≠ [])
    (herr : (s.execute got).1.hasError = false) (hfin : (s.execute got).1.isFinished = false) :
    Fed mem.uriRelaxed (pre ++ got) (s.execute got).1 ∧ (s.execute got).2.2 = [] := by
  obtain ⟨hcs, hrest⟩ := h.execute hgot
  obtain ⟨hne, hiff⟩ := isFinished_iff herr
  have hlt : ¬ httpParserFirstFinal ≤ (s.execute got).1.parser.cs := fun hle => by
    rw [hiff.2 hle] at hfin
    cases hfin
  have hrun : ((machine mem.uriRelaxed).ctrl (pre ++ got) httpParserStart).stopped = false := by
    -- a scan that stops has failed or is in a final state
    by_contra hst
    have hend := (machine mem.uriRelaxed).ctrl_state_of_stopped
      (P := fun cs => cs = httpParserError ∨ httpParserFirstFinal ≤ cs) (.inl rfl)
      (fun _ _ _ _ hbrk => .inr (brk_next hbrk)) (pre ++ got) httpParserStart (by simpa using hst)
    rw [← hcs] at hend
    omega
  refine ⟨⟨?_, hcs, hrun⟩, ?_⟩
  · rw [execute_relaxed, h.relaxed]
  · rw [hrest]
    exact Scan.Machine.exec_rest_of_not_stopped _ _ _ _ _ _ hrun

/-- A call of `execute` that completes the header leaves what follows it. -/
theorem Fed.last (h : Fed mem.uriRelaxed pre s) (hgot : got ≠ [])
    (herr : (s.execute got).1.hasError = false) (hfin : (s.execute got).1.isFinished = true) :
    ∃ head, IsHeader mem.uriRelaxed head ∧ pre ++ got = head ++ (s.execute got).2.2 := by
  obtain ⟨hcs, hrest⟩ := h.execute hgot
  obtain ⟨hne, hiff⟩ := isFinished_iff herr
  have hle := hiff.1 hfin
  rw [hcs] at hne hle
  obtain ⟨head, hhead, hend⟩ := (machine mem.uriRelaxed).exec_consumed (fun _ _ s => s)
    (pre ++ got) 0 httpParserStart () hne
  refine ⟨head, ⟨?_, ?_⟩, ?_⟩
  · rw [Scan.Machine.ctrl, hend]
    exact hle
  · rw [Scan.Machine.ctrl, hend]
  · rw [hrest]
    exact hhead

/-- **The header loop has read a header**, in whatever pieces it came; the buffer holds what came
with its end.  `pre` is what previous turns have read. -/
theorem recvHead_header {buffSize : ℕ} : ∀ {fuel : ℕ} {pre : List UInt8} {s s' : HttpRequestParser}
    {data : List UInt8} {segs rest : Segments}, Fed mem.uriRelaxed pre s →
    recvHead buffSize fuel s [] segs = .finished s' data rest →
    ∃ head, IsHeader mem.uriRelaxed head ∧
      pre ++ segs.flatten = head ++ (data ++ rest.flatten) := by
  intro fuel
  induction fuel with
  | zero => intro pre s s' data segs rest _ h; simp [recvHead] at h
  | succ fuel ih =>
    intro pre s s' data segs rest hs h
    rw [← read_flatten buffSize segs, ← List.append_assoc]
    rw [recvHead, List.length_nil, Nat.sub_zero, List.nil_append] at h
    by_cases hgot : (read buffSize segs).1 = []
    · simp [hgot] at h
    · simp only [hgot, ↓reduceIte] at h
      split_ifs at h with hthr herr hfull hfin
      · obtain ⟨-, rfl, rfl⟩ := HeadResult.finished.inj h
        obtain ⟨head, hhead, he⟩ := hs.last hgot (by simpa using herr) hfin
        exact ⟨head, hhead, by rw [he, List.append_assoc]⟩
      · -- nothing is left in the buffer, and the next turn reads into all of it
        obtain ⟨hs', hnil⟩ := hs.more hgot (by simpa using herr) (by simpa using hfin)
        rw [hnil] at h
        exact ih hs' h

/-! ### The body -/

/-- A read that returns nothing is the end of what arrives. -/
theorem arriving_eq_nil {max : ℕ} {segs : Segments} (hmax : 0 < max)
    (h : (read max segs).1 = []) : arriving segs = [] := by
  cases segs with
  | nil => rfl
  | cons seg segs =>
    by_cases hseg : seg = []
    · rw [arriving, if_pos hseg]
    · rw [read_cons] at h
      split_ifs at h
      · exact absurd h hseg
      · rcases List.take_eq_nil_iff.1 h with hz | hs
        · omega
        · exact absurd hs hseg

theorem read_arriving {max : ℕ} {segs : Segments} (h : (read max segs).1 ≠ []) :
    (read max segs).1 ++ arriving (read max segs).2 = arriving segs := by
  cases segs with
  | nil => exact absurd rfl h
  | cons seg segs =>
    have hseg : seg ≠ [] := fun he => h (by simp [read_cons, he])
    rw [read_cons, arriving, if_neg hseg]
    split_ifs with hle
    · rfl
    · have hdrop : seg.drop max ≠ [] := fun he => hle (List.drop_eq_nil_iff.1 he)
      rw [arriving, if_neg hdrop, ← List.append_assoc, List.take_append_drop]

theorem arriving_prefix (segs : Segments) : arriving segs <+: segs.flatten := by
  induction segs with
  | nil => exact List.prefix_rfl
  | cons seg segs ih =>
    rw [arriving, List.flatten_cons]
    split_ifs
    · exact List.nil_prefix
    · exact (List.prefix_append_right_inj seg).2 ih

/-- **The loop of `readFixSize`** reads exactly the bytes asked for if they arrive, and fails if
they do not. -/
theorem readFixLoop_arriving : ∀ (fuel left : ℕ) (got : List UInt8) (segs : Segments),
    left < fuel →
    (left ≤ (arriving segs).length → ∃ rest,
      readFixLoop fuel left got segs = (true, got ++ (arriving segs).take left, rest)) ∧
    ((arriving segs).length < left → (readFixLoop fuel left got segs).1 = false) := by
  intro fuel
  induction fuel with
  | zero => intro left got segs h; omega
  | succ fuel ih =>
    intro left got segs h
    by_cases hl : left = 0
    · subst hl
      exact ⟨fun _ => ⟨segs, by simp [readFixLoop]⟩, fun hlt => absurd hlt (Nat.not_lt_zero _)⟩
    · by_cases hread : (read left segs).1 = []
      · rw [arriving_eq_nil (Nat.pos_of_ne_zero hl) hread]
        refine ⟨fun hle => absurd (Nat.le_zero.1 hle) hl, fun _ => ?_⟩
        simp [readFixLoop, hl, hread]
      · have hpos := List.length_pos_iff.2 hread
        have hle := read_length_le left segs
        obtain ⟨hall, hfew⟩ := ih (left - (read left segs).1.length) (got ++ (read left segs).1)
          (read left segs).2 (by omega)
        have hstep : readFixLoop (fuel + 1) left got segs =
            readFixLoop fuel (left - (read left segs).1.length) (got ++ (read left segs).1)
              (read left segs).2 := by
          simp [readFixLoop, hl, hread]
        -- what is asked for and what arrives have become smaller by the same number
        rw [hstep, ← read_arriving hread, List.length_append]
        refine ⟨fun hlen => ?_, fun hlt => hfew (by omega)⟩
        obtain ⟨rest, hrest⟩ := hall (by omega)
        refine ⟨rest, ?_⟩
        rw [hrest, List.take_append, List.take_of_length_le hle, List.append_assoc]

/-- A read as a call in the loop of `readFixSize`: the bytes so far, and what remains. -/
def readCall (left : ℕ) (s : List UInt8 × Segments) : Option (ℤ × List UInt8 × Segments) :=
  let r := read left s.2
  some (r.1.length, s.1 ++ r.1, r.2)

theorem fixLoop_readCall (length : ℕ) : ∀ (fuel left : ℕ) (got : List UInt8) (segs : Segments),
    left < fuel → Stream.fixLoop readCall length left (got, segs) =
      some (if (readFixLoop fuel left got segs).1 then toInt32 length else 0,
        (readFixLoop fuel left got segs).2) := by
  intro fuel
  induction fuel with
  | zero => intro left got segs h; omega
  | succ fuel ih =>
    intro left got segs h
    rw [Stream.fixLoop]
    by_cases hl : left = 0
    · simp only [readFixLoop, hl, ↓reduceIte, ↓reduceDIte]
      rfl
    · by_cases hread : (read left segs).1 = []
      · -- nothing is read, and `0` is returned
        simp [readFixLoop, readCall, hl, hread]
      · have hpos := List.length_pos_iff.2 hread
        have hlen : ¬ (((read left segs).1.length : ℕ) : ℤ) ≤ 0 := by omega
        simp only [readFixLoop, readCall, hl, hread, hlen, ↓reduceIte, ↓reduceDIte,
          Int.toNat_natCast]
        exact ih _ _ _ (by omega)

/-- What is received of the body is received by the loop that reads and writes share. -/
theorem fixSize_readCall {length : ℕ} (h : length < 2 ^ 63) (segs : Segments) :
    Stream.fixSize readCall length ([], segs) = some (readFixSize length segs) := by
  rw [Stream.fixSize_of_lt h, fixLoop_readCall length (length + 1) length [] segs
    (Nat.lt_succ_self _), readFixSize]

theorem toInt64_of_lt {n : ℕ} (h : n < 2 ^ 63) : toInt64 n = n := by
  unfold toInt64
  exact Int.bmod_eq_of_le (by omega) (by omega)

variable {cast : List UInt8 → Option ℕ} {data : List UInt8} {segs : Segments} {n : ℕ}

/-- The body is put together from the bytes behind the header and those that arrive.  `readFixSize`
returns the number of bytes that it has read as an `int`. -/
theorem recvBody_arriving (hlen : s.getContentLength cast = n) (hpos : 1 ≤ n) (hn : n < 2 ^ 62) :
    (recvBody cast s data segs).1 =
      if n ≤ data.length + (arriving segs).length ∧
          (n ≤ data.length ∨ 0 < toInt32 (n - data.length)) then
        .request { s.data with body := (data ++ arriving segs).take n }.init
      else .nullptr := by
  have hlength : toInt64 (s.getContentLength cast) = n := by rw [hlen, toInt64_of_lt (by omega)]
  simp only [recvBody, hlength, Int.toNat_natCast]
  rw [if_pos (by omega), if_neg (by omega)]
  by_cases hmore : 0 < (n : ℤ) - data.length
  · -- the rest of the body is read
    have hleft : ((n : ℤ) - data.length).toNat = n - data.length := by omega
    rw [if_pos hmore, hleft]
    obtain ⟨hall, hfew⟩ := readFixLoop_arriving (n - data.length + 1) (n - data.length) [] segs
      (Nat.lt_succ_self _)
    by_cases harr : n ≤ data.length + (arriving segs).length
    · obtain ⟨rest, hrest⟩ := hall (by omega)
      simp only [readFixSize, hrest, ↓reduceIte, List.nil_append]
      by_cases hint : 0 < toInt32 (n - data.length)
      · rw [if_neg (not_le.2 hint), if_pos ⟨harr, .inr hint⟩, List.take_append]
      · rw [if_pos (not_lt.1 hint), if_neg]
        rintro ⟨-, hle | hint'⟩
        · omega
        · exact hint hint'
    · have hfail := hfew (by omega)
      simp only [readFixSize, hfail, Bool.false_eq_true, ↓reduceIte, le_refl]
      rw [if_neg fun hand => harr hand.1]
  · -- the whole body came with the header
    rw [if_neg hmore, if_pos ⟨by omega, .inl (by omega)⟩,
      List.take_append_of_le_length (by omega)]

/-- **The body is what follows the header.**  The header loop has ended with a header that
announces `n` bytes: what was sent is a header, the bytes that came with its end (`data`), and the
bytes that are still to be read.  If the first `n` bytes behind the header arrive, in reads of
whatever size, they are the body of the request that is returned; if a read returns nothing
before, the stream is closed. -/
theorem recvRequest_body {buffSize : ℕ} {rest : Segments}
    (hhead : recvHead buffSize (segs.flatten.length + 1) (.new mem) [] segs =
      .finished s data rest)
    (hlen : s.getContentLength cast = n) (hpos : 1 ≤ n) (hn : n < 2 ^ 31) :
    ∃ head, IsHeader mem.uriRelaxed head ∧
      segs.flatten = head ++ (data ++ rest.flatten) ∧
      (n ≤ data.length + (arriving rest).length →
        (recvRequest cast buffSize mem segs).1 =
          .request { s.data with body := (data ++ rest.flatten).take n }.init) ∧
      (data.length + (arriving rest).length < n →
        (recvRequest cast buffSize mem segs).1 = .nullptr) := by
  obtain ⟨head, hheader, hsegs⟩ := recvHead_header (fed_new mem) hhead
  rw [recvRequest_of_finished hhead, recvBody_arriving hlen hpos (by omega)]
  refine ⟨head, hheader, hsegs, fun hle => ?_, fun hlt => if_neg fun hand => by omega⟩
  obtain ⟨more, hmore⟩ := arriving_prefix rest
  have htake : (data ++ rest.flatten).take n = (data ++ arriving rest).take n := by
    rw [← hmore, ← List.append_assoc]
    exact List.take_append_of_le_length (by rw [List.length_append]; exact hle)
  have hint : toInt32 (n - data.length) = (n - data.length : ℕ) := toInt32_of_lt (by omega)
  rw [if_pos ⟨hle, by omega⟩, htake]

/-- A body of five bytes, two of which come with the header, in three reads. -/
theorem recvRequest_body_five :
    ∃ r, (recvRequest decimal 4096 zeroed
      [ascii "POST /a HTTP/1.1\r\ncontent-length: 5\r\n\r\nhe", ascii "l", ascii "lo",
        ascii "GET"]).1 = .request r ∧ r.body = ascii "hello" := by
  obtain ⟨-, -, -, hbody, -⟩ := @recvRequest_body zeroed
    ((HttpRequestParser.new zeroed).execute
      (ascii "POST /a HTTP/1.1\r\ncontent-length: 5\r\n\r\nhe")).1
    decimal (ascii "he")
    [ascii "POST /a HTTP/1.1\r\ncontent-length: 5\r\n\r\nhe", ascii "l", ascii "lo",
      ascii "GET"]
    5 4096 [ascii "l", ascii "lo", ascii "GET"] (by decide +kernel) (by decide +kernel) (by decide)
    (by decide)
  exact ⟨_, hbody (by decide +kernel), by decide +kernel⟩

end Http

end YXTWebCpp
