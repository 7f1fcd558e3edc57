import YXTWebCpp.Http.Split

/-!
# What `recvRequest` returns

`recvRequest` on a connection whose segments do not end inside a token of the header.

* `IsRequest` : a well-formed request, a header followed by its body.
* `headBytes` : the number of bytes that the reads of the header loop take.
* `recvHead_eq` : the header loop ends with the read that brings the last byte of the header.
* `recvRequest_eq` : **what `recvRequest` returns and leaves to be read.**
-/

namespace YXTWebCpp

namespace Http

/-- A well-formed request: `head` is a complete header, and `body` is as long as it announces. -/
structure IsRequest (cast : List UInt8 → Option ℕ) (mem : HttpParser) (head body : List UInt8) :
    Prop where
  isHead : IsHead mem head
  length : (body.length : ℤ) =
    max 0 (toInt64 (((HttpRequestParser.new mem).execute head).1.getContentLength cast))

/-- The request that a header and a body stand for. -/
def requestOf (mem : HttpParser) (head body : List UInt8) : HttpRequest :=
  { ((HttpRequestParser.new mem).execute head).1.data with body := body }.init

/-- The number of bytes that have been read when the `n` bytes still missing of the header have
come, by reads of at most `buffSize` bytes. -/
def headBytes (buffSize : ℕ) : ℕ → Segments → ℕ
  | _, [] => 0
  | n, seg :: segs =>
    if seg.length < n then seg.length + headBytes buffSize (n - seg.length) segs
    else min buffSize seg.length

theorem headBytes_le (buffSize n : ℕ) (segs : Segments) :
    headBytes buffSize n segs ≤ segs.flatten.length := by
  induction segs generalizing n with
  | nil => simp [headBytes]
  | cons seg segs ih =>
    rw [headBytes, List.flatten_cons, List.length_append]
    split_ifs
    · have := ih (n - seg.length)
      omega
    · omega

theorem le_headBytes {buffSize n : ℕ} {segs : Segments} (hn : n ≤ buffSize)
    (hle : n ≤ segs.flatten.length) : n ≤ headBytes buffSize n segs := by
  induction segs generalizing n with
  | nil => simpa [headBytes] using hle
  | cons seg segs ih =>
    rw [List.flatten_cons, List.length_append] at hle
    rw [headBytes]
    split_ifs with hs
    · have := ih (n := n - seg.length) (by omega) (by omega)
      omega
    · omega

theorem cut_le_length (segs : Segments) (i : ℕ) : ∃ j ≤ segs.length, cut segs j = cut segs i := by
  by_cases hi : i ≤ segs.length
  · exact ⟨i, hi, rfl⟩
  · refine ⟨segs.length, le_rfl, ?_⟩
    rw [cut, cut, List.take_length, List.take_of_length_le (by omega)]

theorem NoOpenToken.apply {uriRelaxed : Bool} {head : List UInt8} {segs : Segments}
    (h : NoOpenToken uriRelaxed head segs) (i : ℕ) (hpos : 0 < cut segs i)
    (hlt : cut segs i < head.length) : openRegs uriRelaxed head (cut segs i) = ∅ := by
  obtain ⟨j, hj, he⟩ := cut_le_length segs i
  rw [← he] at hpos hlt ⊢
  exact h j hj hpos hlt

section

variable {mem : HttpParser} {head : List UInt8} {buffSize : ℕ}

theorem toInt32_of_lt {n : ℕ} (h : n < 2 ^ 31) : toInt32 n = n := by
  unfold toInt32
  exact Int.bmod_eq_of_le (by omega) (by omega)

/-- A turn of the header loop in which nothing goes wrong. -/
theorem recvHead_turn {fuel : ℕ} {s : HttpRequestParser} {segs segs' : Segments}
    {got : List UInt8} (hread : read buffSize segs = (got, segs')) (hgot : got ≠ [])
    (hthr : (s.execute got).1.thrown = false) (herr : (s.execute got).1.hasError = false)
    (hlt : (s.execute got).2.2.length < buffSize) (hbuf : buffSize < 2 ^ 31) :
    recvHead buffSize (fuel + 1) s [] segs =
      if (s.execute got).1.isFinished then .finished (s.execute got).1 (s.execute got).2.2 segs'
      else recvHead buffSize fuel (s.execute got).1 (s.execute got).2.2 segs' := by
  have hne : ((s.execute got).2.2.length : ℤ) ≠ toInt32 buffSize := by
    rw [toInt32_of_lt hbuf]
    omega
  rw [recvHead, List.length_nil, Nat.sub_zero, hread]
  simp [hgot, hthr, herr, hne]

/-- **The header loop**: it ends with the read that brings the last byte of the header, with the
request scanned in one large buffer.  `pre` is what previous turns have read. -/
theorem recvHead_eq (h : IsHead mem head) (hfit : head.length ≤ buffSize)
    (hbuf : buffSize < 2 ^ 31) : ∀ (segs : Segments) (fuel : ℕ) (pre rest more : List UInt8)
      (s : HttpRequestParser), Reached mem head pre s → head = pre ++ rest → rest ≠ [] →
      [] ∉ segs → segs.flatten = rest ++ more →
      (∀ i, 0 < cut segs i → pre.length + cut segs i < head.length →
        openRegs mem.uriRelaxed head (pre.length + cut segs i) = ∅) →
      segs.flatten.length < fuel →
      ∃ s', s'.data = (single mem head head).data ∧
        recvHead buffSize fuel s [] segs =
          .finished s' ((segs.flatten.take (headBytes buffSize rest.length segs)).drop rest.length)
            (dropBytes (headBytes buffSize rest.length segs) segs) := by
  intro segs
  induction segs with
  | nil =>
    intro fuel pre rest more s _ _ hrest _ hflat
    exact absurd (List.append_eq_nil_iff.1 hflat.symm).1 hrest
  | cons seg segs ih =>
    intro fuel pre rest more s hr hhead hrest hne hflat hopen hfuel
    obtain ⟨fuel, rfl⟩ : ∃ f, fuel = f + 1 := ⟨fuel - 1, by omega⟩
    have htl : [] ∉ segs := fun hm => hne (List.mem_cons_of_mem _ hm)
    have hseg : seg ≠ [] := fun he => hne (by simp [he])
    have hpos := List.length_pos_iff.2 hseg
    have hlen := congrArg List.length hhead
    rw [List.length_append] at hlen
    rw [List.flatten_cons] at hflat hfuel
    rw [List.length_append] at hfuel
    rw [headBytes]
    by_cases hlt : seg.length < rest.length
    · -- the read ends inside the header
      obtain ⟨rest', rfl⟩ : ∃ rest', rest = seg ++ rest' := by
        have hp : seg <+: rest ++ more := hflat ▸ List.prefix_append _ _
        obtain ⟨rest', he⟩ := List.prefix_of_prefix_length_le hp (List.prefix_append _ _) hlt.le
        exact ⟨rest', he.symm⟩
      rw [List.append_assoc] at hflat
      have hflat' := List.append_cancel_left hflat
      rw [List.length_append] at hlt hlen
      have hrest' : rest' ≠ [] := fun he => by simp [he] at hlt
      have hcut : cut (seg :: segs) 1 = seg.length := by simp [cut]
      have ho := hopen 1 (by omega) (by omega)
      rw [hcut, ← List.length_append] at ho
      obtain ⟨hdata, hthr, herr, hfin, hr'⟩ := hr.execute_more h hhead hseg hrest' ho
      have hread : read buffSize (seg :: segs) = (seg, segs) := by
        rw [read_cons, if_pos (by omega)]
      obtain ⟨s', hs', heq⟩ := ih fuel (pre ++ seg) rest' more _ hr'
        (by rw [List.append_assoc]; exact hhead) hrest' htl hflat'
        (fun i hi hlt => by
          have := hopen (i + 1) (by rw [cut_cons_succ]; omega)
            (by rw [cut_cons_succ]; rw [List.length_append] at hlt; omega)
          rw [cut_cons_succ, ← Nat.add_assoc] at this
          rw [List.length_append]
          exact this) (by omega)
      refine ⟨s', hs', ?_⟩
      rw [recvHead_turn hread hseg hthr herr (by rw [hdata, List.length_nil]; omega) hbuf, hfin,
        hdata, if_neg (by simp), heq, if_pos (by rw [List.length_append]; exact hlt),
        List.length_append, Nat.add_sub_cancel_left]
      congr 1
      · rw [List.flatten_cons, List.take_length_add_append, List.drop_length_add_append]
      · rw [dropBytes, if_pos (by omega), Nat.add_sub_cancel_left]
    · -- the read brings the end of the header
      rw [if_neg hlt]
      have hrd := read_flatten buffSize (seg :: segs)
      have hrl : (read buffSize (seg :: segs)).1.length = min buffSize seg.length := by
        rw [read_cons]
        split_ifs
        · simp only
          omega
        · rw [List.length_take]
      have hrds := read_dropBytes buffSize hne
      have hrt := read_take buffSize (seg :: segs)
      rw [hrl] at hrds hrt
      generalize hgot : (read buffSize (seg :: segs)).1 = got at *
      obtain ⟨x, rfl⟩ : ∃ x, got = rest ++ x := by
        have hp : rest <+: got ++ (read buffSize (seg :: segs)).2.flatten := by
          rw [hrd, List.flatten_cons, hflat]
          exact List.prefix_append _ _
        obtain ⟨x, he⟩ := List.prefix_of_prefix_length_le hp (List.prefix_append _ _) (by omega)
        exact ⟨x, he.symm⟩
      obtain ⟨hdata, hthr, herr, hfin, hd⟩ := hr.execute_last h hhead hrest (x := x)
      have hrpos := List.length_pos_iff.2 hrest
      rw [List.length_append] at hrl
      refine ⟨_, hd, ?_⟩
      have hread : read buffSize (seg :: segs) =
          (rest ++ x, dropBytes (min buffSize seg.length) (seg :: segs)) := Prod.ext hgot hrds
      rw [recvHead_turn hread (by simp [hrest]) hthr herr (by rw [hdata]; omega) hbuf, hfin,
        if_pos rfl, hdata, ← hrt, List.drop_left]

/-- The parser fills in everything but the body. -/
theorem act_body (buf : List UInt8) (p : ℕ) (a : Action) (s : HttpRequestParser) :
    (act buf p a s).data.body = s.data.body := by
  cases a <;> simp only [act, onRequestMethod, onRequestFragment, onRequestPath, onRequestQuery,
    onRequestVersion, onRequestHttpField, HttpRequestParser.store, HttpRequest.setHeader] <;>
    (try split_ifs) <;> (try split) <;> simp_all

theorem single_body (mem : HttpParser) (head pre : List UInt8) :
    (single mem head pre).data.body = [] :=
  Scan.Machine.exec_mem (machine mem.uriRelaxed)
    (P := fun s : HttpRequestParser => s.data.body = [])
    (fun p a s hs => (act_body head p a s).trans hs) pre 0 httpParserStart (startOf mem) rfl

theorem execute_body (s : HttpRequestParser) (buf : List UInt8) :
    (s.execute buf).1.data.body = s.data.body := by
  by_cases hbuf : buf = []
  · simp only [HttpRequestParser.execute, httpParserExecute, if_pos hbuf]
  · simp only [HttpRequestParser.execute, httpParserExecute, if_neg hbuf]
    exact Scan.Machine.exec_mem (machine s.parser.uriRelaxed)
      (P := fun s' : HttpRequestParser => s'.data.body = s.data.body)
      (fun p a s' hs => (act_body buf p a s').trans hs) buf 0 s.parser.cs _ rfl

/-- No body has been put into the request when the header is complete. -/
theorem recvHead_finished_body : ∀ {fuel : ℕ} {s s' : HttpRequestParser}
    {data data' : List UInt8} {segs rest : Segments},
    recvHead buffSize fuel s data segs = .finished s' data' rest →
      s'.data.body = s.data.body := by
  intro fuel
  induction fuel with
  | zero => intro s s' data data' segs rest h; simp [recvHead] at h
  | succ fuel ih =>
    intro s s' data data' segs rest h
    rw [recvHead] at h
    by_cases hgot : (read (buffSize - data.length) segs).1 = []
    · simp [hgot] at h
    · simp only [hgot, ↓reduceIte] at h
      split_ifs at h
      · obtain ⟨rfl, -, -⟩ := HeadResult.finished.inj h
        exact execute_body s _
      · exact (ih h).trans (execute_body s _)

theorem IsHead.execute_data (h : IsHead mem head) :
    ((HttpRequestParser.new mem).execute head).1.data = (single mem head head).data := by
  rw [execute_eq h.ne_nil (hasError_new mem), execBuf_new]
  rfl

variable {cast : List UInt8 → Option ℕ} {body more : List UInt8} {segs : Segments}

/-- The body: what stands behind the header in the buffer, and the rest read afterwards. -/
theorem recvBody_eq {s : HttpRequestParser} {data : List UInt8}
    (hlen : (body.length : ℤ) = max 0 (toInt64 (s.getContentLength cast)))
    (hbody : body.length < 2 ^ 31) (hs : s.data.body = []) (hne : [] ∉ segs)
    (hflat : data ++ segs.flatten = body ++ more) :
    recvBody cast s data segs =
      (.request { s.data with body := body }.init, dropBytes (body.length - data.length) segs) := by
  unfold recvBody
  by_cases hpos : 0 < toInt64 (s.getContentLength cast)
  · have hlen' : toInt64 (s.getContentLength cast) = body.length := by omega
    by_cases hmore : 0 < (body.length : ℤ) - data.length
    · -- the buffer holds only the beginning of the body
      obtain ⟨b, rfl⟩ : ∃ b, body = data ++ b := by
        have hp : data <+: body ++ more := hflat ▸ List.prefix_append _ _
        obtain ⟨b, he⟩ := List.prefix_of_prefix_length_le hp (List.prefix_append _ _) (by omega)
        exact ⟨b, he.symm⟩
      rw [List.append_assoc] at hflat
      have hflat' := List.append_cancel_left hflat
      have hb : ((data ++ b).length : ℤ) - data.length = b.length := by
        rw [List.length_append]
        omega
      rw [hb] at hmore
      have hfix := readFixSize_eq b.length hne (by rw [hflat']; simp)
      rw [toInt32_of_lt (by rw [List.length_append] at hbody; omega), hflat',
        List.take_left] at hfix
      have htake : data.take (data ++ b).length = data := List.take_of_length_le (by simp)
      simp only [hlen', hb, Int.toNat_natCast, hfix, htake]
      rw [if_pos (by rw [List.length_append]; omega), if_neg (by omega), if_pos hmore,
        if_neg (by omega),
        List.length_append, Nat.add_sub_cancel_left]
    · -- the whole body came with the header
      have htake : data.take body.length = body := by
        have := congrArg (List.take body.length) hflat
        rwa [List.take_append_of_le_length (by omega), List.take_left] at this
      simp only [hlen', hmore, ↓reduceIte, Int.toNat_natCast, htake]
      rw [if_pos (by omega), if_neg (by omega), show body.length - data.length = 0 by omega,
        dropBytes_zero hne]
  · have hnil : body = [] := List.length_eq_zero_iff.1 (by omega)
    rw [if_neg hpos, hnil, List.length_nil, Nat.zero_sub, dropBytes_zero hne, ← hs]

/-- **What `recvRequest` returns and leaves to be read.**  It has read the bytes of the request, or
more if the read that brought the end of the header brought more. -/
theorem recvRequest_eq (hr : IsRequest cast mem head body) (hfit : head.length ≤ buffSize)
    (hbuf : buffSize < 2 ^ 31) (hbody : body.length < 2 ^ 31) (hne : [] ∉ segs)
    (hflat : segs.flatten = head ++ (body ++ more))
    (hopen : NoOpenToken mem.uriRelaxed head segs) :
    recvRequest cast buffSize mem segs =
      (.request (requestOf mem head body),
        dropBytes (max (headBytes buffSize head.length segs) (head.length + body.length))
          segs) := by
  obtain ⟨s, hs, heq⟩ := recvHead_eq hr.isHead hfit hbuf segs (segs.flatten.length + 1) [] head
    (body ++ more) _ (reached_new mem head) rfl hr.isHead.ne_nil hne hflat
    (fun i hi hlt => by
      simp only [List.length_nil, Nat.zero_add] at hlt ⊢
      exact hopen.apply i hi hlt) (Nat.lt_succ_self _)
  have hle : head.length ≤ headBytes buffSize head.length segs :=
    le_headBytes hfit (by rw [hflat]; simp)
  have hle' := headBytes_le buffSize head.length segs
  generalize headBytes buffSize head.length segs = n at *
  have hdata := hr.isHead.execute_data
  have hlen : (((segs.flatten.take n).drop head.length).length) = n - head.length := by
    rw [List.length_drop, List.length_take]
    omega
  have hmax : n + (body.length - (n - head.length)) = max n (head.length + body.length) := by omega
  have hcontent : (body.length : ℤ) = max 0 (toInt64 (s.getContentLength cast)) := by
    rw [hr.length, HttpRequestParser.getContentLength, HttpRequestParser.getContentLength, hs,
      hdata]
  have hbytes : (segs.flatten.take n).drop head.length ++ (dropBytes n segs).flatten =
      body ++ more := by
    rw [dropBytes_flatten, ← List.drop_append_of_le_length (by rw [List.length_take]; omega),
      List.take_append_drop, hflat, List.drop_left]
  rw [recvRequest_of_finished heq, recvBody_eq hcontent hbody (by rw [hs, single_body])
    (nil_notMem_dropBytes n hne) hbytes, hs, hlen, dropBytes_add _ _ hne, hmax, requestOf, hdata]

theorem noOpenToken_singleton (uriRelaxed : Bool) (head body : List UInt8) :
    NoOpenToken uriRelaxed head [head ++ body] := by
  intro i _ hpos hlt
  cases i with
  | zero => simp [cut] at hpos
  | succ i =>
    simp only [cut, List.take_succ_cons, List.take_nil, List.flatten_cons, List.flatten_nil,
      List.length_append, List.length_nil] at hlt
    omega

/-- **A request that is not cut inside a token is received as if it came in one read.**  The sizes
are those of an `int`: `recvRequest` compares the buffer size as one and `readFixSize` returns
the length of the body as one. -/
theorem recvRequest_eq_single_read (hr : IsRequest cast mem head body)
    (hfit : head.length ≤ buffSize) (hbuf : buffSize < 2 ^ 31) (hbody : body.length < 2 ^ 31)
    (hne : [] ∉ segs) (hflat : segs.flatten = head ++ body)
    (hopen : NoOpenToken mem.uriRelaxed head segs) :
    (recvRequest cast buffSize mem segs).1 = .request (requestOf mem head body) ∧
      (recvRequest cast buffSize mem segs).1 =
        (recvRequest cast buffSize mem [head ++ body]).1 := by
  have hflat' : segs.flatten = head ++ (body ++ []) := by rw [List.append_nil]; exact hflat
  have hone : [head ++ body].flatten = head ++ (body ++ []) := by simp
  have hmulti := recvRequest_eq hr hfit hbuf hbody hne hflat' hopen
  have hsingle := recvRequest_eq hr hfit hbuf hbody (by simp [hr.isHead.ne_nil]) hone
    (noOpenToken_singleton _ _ _)
  rw [hmulti, hsingle]
  exact ⟨rfl, rfl⟩

end

/-- `boost::lexical_cast<uint64_t>` on a text of digits. -/
def decimal (v : List UInt8) : Option ℕ :=
  if v ≠ [] ∧ v.all (fun c => decide (48 ≤ c) && decide (c ≤ 57)) then
    let n := v.foldl (fun n c => 10 * n + (c.toNat - 48)) 0
    if n < 2 ^ 64 then some n else none
  else none

/-- Memory of zeros. -/
def zeroed : HttpParser := ⟨0, 0, 0, 0, 0, 0, 0, 0, false, false, false⟩

/-- A request in four reads: the first ends behind the request line, the second behind a header
field, the third inside the body. -/
theorem recvRequest_eq_single_read_post :
    (recvRequest decimal 4096 zeroed [ascii "POST /a HTTP/1.1\r\n", ascii "content-length: 2\r\n",
      ascii "\r\nh", ascii "i"]).1 =
    (recvRequest decimal 4096 zeroed
      [ascii "POST /a HTTP/1.1\r\ncontent-length: 2\r\n\r\n" ++ ascii "hi"]).1 := by
  have hr : IsRequest decimal zeroed
      (ascii "POST /a HTTP/1.1\r\ncontent-length: 2\r\n\r\n") (ascii "hi") :=
    ⟨⟨by decide +kernel, by decide +kernel, by decide +kernel, by decide +kernel⟩,
      by decide +kernel⟩
  exact (recvRequest_eq_single_read hr (by decide +kernel) (by decide) (by decide)
    (by decide +kernel) (by decide +kernel) (by unfold NoOpenToken; decide +kernel)).2

/-- The method cut in two: the position where it starts is lost with the first buffer, and the
second read is refused. -/
theorem recvRequest_cut_method :
    IsRequest decimal zeroed (ascii "GET / HTTP/1.1\r\n\r\n") [] ∧
      (recvRequest decimal 4096 zeroed [ascii "GET / HTTP/1.1\r\n\r\n"]).1 =
        .request (requestOf zeroed (ascii "GET / HTTP/1.1\r\n\r\n") []) ∧
      [ascii "GE", ascii "T / HTTP/1.1\r\n\r\n"].flatten = ascii "GET / HTTP/1.1\r\n\r\n" ∧
      (recvRequest decimal 4096 zeroed [ascii "GE", ascii "T / HTTP/1.1\r\n\r\n"]).1 =
        .nullptr := by
  refine ⟨⟨⟨?_, ?_, ?_, ?_⟩, ?_⟩, ?_, ?_, ?_⟩
  all_goals decide +kernel

end Http

end YXTWebCpp
