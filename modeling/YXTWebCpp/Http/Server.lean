import YXTWebCpp.Http.Receive

/-!
# Requests on a keep-alive connection

`HttpServer::handleClient` (`httpserver.cpp`) calls `recvRequest` again and again on one connection.
`recvRequest` has a buffer of its own: bytes that the read of a header brings beyond the request are
gone when it returns.

* `calls` : successive calls of `recvRequest`.
* `handleClient` : the requests that the server answers.
* `ReadsApart` : the read that completes a header never reaches into the next request.
* `keepAlive_iff` : **nothing is lost between requests exactly when the reads keep them apart.**
-/

namespace YXTWebCpp

namespace Http

/-- A request on the wire: a header and a body. -/
structure Message where
  /-- The header, up to the empty line. -/
  head : List UInt8
  /-- The body. -/
  body : List UInt8
  deriving DecidableEq, Repr

/-- The bytes of a request. -/
def Message.wire (m : Message) : List UInt8 := m.head ++ m.body

/-- Requests sent back to back. -/
def wire (ms : List Message) : List UInt8 := ms.flatMap Message.wire

/-! ### The server -/

/-- `n` calls of `recvRequest`: what each of them returns, and the bytes unread after it.  The
parser of the `i`-th call is constructed in the memory `mems i`. -/
def calls (cast : List UInt8 → Option ℕ) (buffSize : ℕ) : (ℕ → HttpParser) → ℕ → Segments →
    List (Received × List UInt8)
  | _, 0, _ => []
  | mems, n + 1, segs =>
    let r := recvRequest cast buffSize (mems 0) segs
    (r.1, r.2.flatten) :: calls cast buffSize (fun i => mems (i + 1)) n r.2

/-- The loop of `handleClient`, at most `fuel` turns of it: the requests answered. -/
def handleLoop (cast : List UInt8 → Option ℕ) (buffSize : ℕ) (keepalive : Bool) :
    ℕ → (ℕ → HttpParser) → Segments → List HttpRequest
  | 0, _, _ => []
  | fuel + 1, mems, segs =>
    match recvRequest cast buffSize (mems 0) segs with
    | (.request r, rest) =>
      r :: if !keepalive || r.close then []
        else handleLoop cast buffSize keepalive fuel (fun i => mems (i + 1)) rest
    | (.nullptr, _) => []
    | (.lengthError, _) => []

/-- `HttpServer::handleClient`: the requests that get a response, in order.  Every turn of the loop
reads a byte (`handleLoop_fuel`). -/
def handleClient (cast : List UInt8 → Option ℕ) (buffSize : ℕ) (keepalive : Bool)
    (mems : ℕ → HttpParser) (segs : Segments) : List HttpRequest :=
  handleLoop cast buffSize keepalive (segs.flatten.length + 1) mems segs

theorem read_flatten_le (max : ℕ) (segs : Segments) :
    (read max segs).2.flatten.length ≤ segs.flatten.length := by
  have := congrArg List.length (read_flatten max segs)
  rw [List.length_append] at this
  omega

/-- The header loop has read a byte when it ends with a complete header. -/
theorem recvHead_finished_lt (buffSize : ℕ) : ∀ (fuel : ℕ) (s s' : HttpRequestParser)
    (data data' : List UInt8) (segs segs' : Segments),
    recvHead buffSize fuel s data segs = .finished s' data' segs' →
      segs'.flatten.length < segs.flatten.length := by
  intro fuel
  induction fuel with
  | zero => intro s s' data data' segs segs' h; simp [recvHead] at h
  | succ fuel ih =>
    intro s s' data data' segs segs' h
    have hr := congrArg List.length (read_flatten (buffSize - data.length) segs)
    rw [List.length_append] at hr
    rw [recvHead] at h
    by_cases hg : (read (buffSize - data.length) segs).1 = []
    · simp [hg] at h
    · have hpos := List.length_pos_iff.2 hg
      simp only [hg, ↓reduceIte] at h
      split_ifs at h
      · obtain ⟨-, -, rfl⟩ := HeadResult.finished.inj h
        omega
      · have := ih _ _ _ _ _ _ h
        omega

theorem readFixLoop_flatten_le : ∀ (fuel left : ℕ) (got : List UInt8) (segs : Segments),
    (readFixLoop fuel left got segs).2.2.flatten.length ≤ segs.flatten.length := by
  intro fuel
  induction fuel with
  | zero => intro left got segs; exact le_rfl
  | succ fuel ih =>
    intro left got segs
    have hr := read_flatten_le left segs
    simp only [readFixLoop]
    split_ifs
    · exact le_rfl
    · exact hr
    · exact (ih _ _ _).trans hr

theorem readFixSize_flatten_le (length : ℕ) (segs : Segments) :
    (readFixSize length segs).2.2.flatten.length ≤ segs.flatten.length :=
  readFixLoop_flatten_le (length + 1) length [] segs

theorem recvBody_flatten_le {cast : List UInt8 → Option ℕ} {s : HttpRequestParser}
    {data : List UInt8} {segs rest : Segments} {r : Received}
    (h : recvBody cast s data segs = (r, rest)) :
    rest.flatten.length ≤ segs.flatten.length := by
  simp only [recvBody] at h
  split_ifs at h
  · rw [← (Prod.mk.inj h).2]
  · rw [← (Prod.mk.inj h).2]
    exact readFixSize_flatten_le _ _
  · rw [← (Prod.mk.inj h).2]
    exact readFixSize_flatten_le _ _
  · rw [← (Prod.mk.inj h).2]
  · rw [← (Prod.mk.inj h).2]

/-- A call that returns a request has read a byte. -/
theorem recvRequest_flatten_lt {cast : List UInt8 → Option ℕ} {buffSize : ℕ} {mem : HttpParser}
    {segs rest : Segments} {r : HttpRequest}
    (h : recvRequest cast buffSize mem segs = (.request r, rest)) :
    rest.flatten.length < segs.flatten.length := by
  unfold recvRequest at h
  split at h
  · simp at h
  · simp at h
  · simp at h
  · rename_i s data segs' heq
    have hlt := recvHead_finished_lt _ _ _ _ _ _ _ _ heq
    exact (recvBody_flatten_le h).trans_lt hlt

/-- As many turns as there are bytes are enough. -/
theorem handleLoop_fuel (cast : List UInt8 → Option ℕ) (buffSize : ℕ) (keepalive : Bool) :
    ∀ (fuel fuel' : ℕ) (mems : ℕ → HttpParser) (segs : Segments),
      segs.flatten.length < fuel → segs.flatten.length < fuel' →
      handleLoop cast buffSize keepalive fuel mems segs =
        handleLoop cast buffSize keepalive fuel' mems segs := by
  intro fuel
  induction fuel with
  | zero => intro fuel' mems segs h; omega
  | succ fuel ih =>
    intro fuel' mems segs h h'
    obtain ⟨fuel', rfl⟩ : ∃ f, fuel' = f + 1 := ⟨fuel' - 1, by omega⟩
    rw [handleLoop, handleLoop]
    split
    · rename_i r rest heq
      have := recvRequest_flatten_lt heq
      rw [ih fuel' _ rest (by omega) (by omega)]
    · rfl
    · rfl

/-! ### Back to back -/

/-- A request that `recvRequest` can receive: its header fits into the buffer, and its length is
an `int`. -/
structure Receivable (cast : List UInt8 → Option ℕ) (buffSize : ℕ) (mem : HttpParser)
    (m : Message) : Prop where
  isRequest : IsRequest cast mem m.head m.body
  fits : m.head.length ≤ buffSize
  length : m.body.length < 2 ^ 31

/-- No segment ends inside a token of the header of one of the requests. -/
def NoTokenCut (mems : ℕ → HttpParser) (ms : List Message) (segs : Segments) : Prop :=
  ∀ j m, ms[j]? = some m → ∀ i ≤ segs.length,
    (wire (ms.take j)).length < cut segs i →
    cut segs i < (wire (ms.take j)).length + m.head.length →
    openRegs (mems j).uriRelaxed m.head (cut segs i - (wire (ms.take j)).length) = ∅

/-- The requests that `ms` stand for. -/
def requests : (ℕ → HttpParser) → List Message → List HttpRequest
  | _, [] => []
  | mems, m :: ms =>
    requestOf (mems 0) m.head m.body :: requests (fun i => mems (i + 1)) ms

/-- What a lossless sequence of calls returns: the requests in order, each call leaving exactly the
bytes of the requests that follow. -/
def lossless : (ℕ → HttpParser) → List Message → List (Received × List UInt8)
  | _, [] => []
  | mems, m :: ms =>
    (.request (requestOf (mems 0) m.head m.body), wire ms) ::
      lossless (fun i => mems (i + 1)) ms

/-- The reads keep the requests apart: the read that brings the last byte of a header brings no byte
behind the body. -/
def ReadsApart (buffSize : ℕ) : List Message → Segments → Prop
  | [], _ => True
  | m :: ms, segs =>
    headBytes buffSize m.head.length segs ≤ m.wire.length ∧
      ReadsApart buffSize ms (dropBytes m.wire.length segs)

section

variable {cast : List UInt8 → Option ℕ} {buffSize : ℕ} {mems : ℕ → HttpParser} {m : Message}
  {ms : List Message} {segs : Segments}

/-- The hypotheses of this section: `ms` are sent back to back, in `segs`. -/
structure Sent (cast : List UInt8 → Option ℕ) (buffSize : ℕ) (mems : ℕ → HttpParser)
    (ms : List Message) (segs : Segments) : Prop where
  receivable : ∀ j m, ms[j]? = some m → Receivable cast buffSize (mems j) m
  nonempty : [] ∉ segs
  bytes : segs.flatten = wire ms
  noCut : NoTokenCut mems ms segs

theorem Sent.noOpenToken (h : Sent cast buffSize mems (m :: ms) segs) :
    NoOpenToken (mems 0).uriRelaxed m.head segs := by
  intro i hi hpos hlt
  have := h.noCut 0 m rfl i hi
  simpa [wire] using this (by simpa [wire] using hpos) (by simpa [wire] using hlt)

/-- When the first request has been read, the others are left. -/
theorem Sent.tail (h : Sent cast buffSize mems (m :: ms) segs) :
    Sent cast buffSize (fun i => mems (i + 1)) ms (dropBytes m.wire.length segs) where
  receivable j m' hj := h.receivable (j + 1) m' (by simpa using hj)
  nonempty := nil_notMem_dropBytes _ h.nonempty
  bytes := by
    rw [dropBytes_flatten, h.bytes, wire, List.flatMap_cons, List.drop_left]
    rfl
  noCut := by
    intro j m' hj i _ hlo hhi
    have hle : m.wire.length ≤ segs.flatten.length := by
      rw [h.bytes, wire, List.flatMap_cons, List.length_append]
      omega
    -- a cut behind the first request is a cut of the whole
    obtain ⟨i', hi'⟩ := exists_cut_dropBytes m.wire.length segs hle i (by omega)
    obtain ⟨i'', hle'', hi''⟩ := cut_le_length segs i'
    have hw : (wire ((m :: ms).take (j + 1))).length =
        m.wire.length + (wire (ms.take j)).length := by
      simp [wire]
    have := h.noCut (j + 1) m' (by simpa using hj) i'' hle'' (by omega) (by omega)
    rwa [hi'', hi', hw, Nat.add_sub_add_left] at this

/-- What the next call returns and leaves. -/
theorem Sent.recvRequest_eq (h : Sent cast buffSize mems (m :: ms) segs)
    (hbuf : buffSize < 2 ^ 31) :
    recvRequest cast buffSize (mems 0) segs =
      (.request (requestOf (mems 0) m.head m.body),
        dropBytes (max (headBytes buffSize m.head.length segs) m.wire.length) segs) := by
  obtain ⟨hreq, hfit, hlen⟩ := h.receivable 0 m rfl
  have hflat : segs.flatten = m.head ++ (m.body ++ wire ms) := by
    rw [h.bytes, wire, List.flatMap_cons, Message.wire, List.append_assoc]
    rfl
  have := Http.recvRequest_eq hreq hfit hbuf hlen h.nonempty hflat h.noOpenToken
  rwa [← List.length_append] at this

theorem Sent.calls_of_readsApart : ∀ (ms : List Message) (mems : ℕ → HttpParser) (segs : Segments),
    Sent cast buffSize mems ms segs → buffSize < 2 ^ 31 → ReadsApart buffSize ms segs →
    calls cast buffSize mems ms.length segs = lossless mems ms := by
  intro ms
  induction ms with
  | nil => intro mems segs _ _ _; rfl
  | cons m ms ih =>
    intro mems segs h hbuf hapart
    have hrest := ih _ _ h.tail hbuf hapart.2
    rw [List.length_cons, calls, h.recvRequest_eq hbuf, max_eq_right hapart.1, lossless]
    simp only
    rw [hrest, h.tail.bytes]

theorem Sent.readsApart_of_calls : ∀ (ms : List Message) (mems : ℕ → HttpParser) (segs : Segments),
    Sent cast buffSize mems ms segs → buffSize < 2 ^ 31 →
    calls cast buffSize mems ms.length segs = lossless mems ms → ReadsApart buffSize ms segs := by
  intro ms
  induction ms with
  | nil => intro mems segs _ _ _; trivial
  | cons m ms ih =>
    intro mems segs h hbuf hcalls
    rw [List.length_cons, calls, h.recvRequest_eq hbuf, lossless] at hcalls
    obtain ⟨hhead, htail⟩ := List.cons.inj hcalls
    have hle := headBytes_le buffSize m.head.length segs
    have hbytes := congrArg List.length (Prod.mk.inj hhead).2
    have hall := congrArg List.length h.bytes
    rw [dropBytes_flatten, List.length_drop] at hbytes
    rw [wire, List.flatMap_cons, List.length_append, ← wire] at hall
    -- nothing of what follows is missing, so the read did not go beyond the request
    have hapart : headBytes buffSize m.head.length segs ≤ m.wire.length := by omega
    simp only [max_eq_right hapart] at htail
    exact ⟨hapart, ih _ _ h.tail hbuf htail⟩

theorem Sent.handleLoop_of_readsApart : ∀ (ms : List Message) (mems : ℕ → HttpParser)
    (segs : Segments) (fuel : ℕ), Sent cast buffSize mems ms segs → buffSize < 2 ^ 31 →
    ReadsApart buffSize ms segs → segs.flatten.length < fuel →
    (∀ j m, ms[j]? = some m → j + 1 < ms.length →
      (requestOf (mems j) m.head m.body).close = false) →
    handleLoop cast buffSize true fuel mems segs = requests mems ms := by
  intro ms
  induction ms with
  | nil =>
    intro mems segs fuel h _ _ hfuel _
    obtain ⟨fuel, rfl⟩ : ∃ f, fuel = f + 1 := ⟨fuel - 1, by omega⟩
    have hnil : segs = [] := by
      cases segs with
      | nil => rfl
      | cons seg segs =>
        have := h.bytes
        rw [List.flatten_cons] at this
        exact absurd (by simp [(List.append_eq_nil_iff.1 this).1]) h.nonempty
    subst hnil
    rfl
  | cons m ms ih =>
    intro mems segs fuel h hbuf hapart hfuel hkeep
    obtain ⟨fuel, rfl⟩ : ∃ f, fuel = f + 1 := ⟨fuel - 1, by omega⟩
    have hrecv := h.recvRequest_eq hbuf
    rw [max_eq_right hapart.1] at hrecv
    have hlt := recvRequest_flatten_lt hrecv
    have hrest := ih _ _ fuel h.tail hbuf hapart.2 (by omega)
      (fun j m' hj hlt => hkeep (j + 1) m' (by simpa using hj) (by simpa using hlt))
    rw [handleLoop, hrecv, requests]
    simp only [Bool.not_true, Bool.false_or]
    rw [hrest]
    cases ms with
    | nil => simp [requests]
    | cons m' ms => rw [hkeep 0 m rfl (by simp)]; simp

/-- **Nothing is lost between requests exactly when the reads keep them apart.**  Requests that ask
to keep the connection (the last one may close it) are sent back to back, and no token of them is
cut.  Successive calls of `recvRequest` return them in order, leave exactly the bytes that follow,
and `handleClient` answers each of them once, if and only if no read that completes a header
reaches beyond its request. -/
theorem keepAlive_iff (h : Sent cast buffSize mems ms segs) (hbuf : buffSize < 2 ^ 31)
    (hkeep : ∀ j m, ms[j]? = some m → j + 1 < ms.length →
      (requestOf (mems j) m.head m.body).close = false) :
    (calls cast buffSize mems ms.length segs = lossless mems ms ∧
      handleClient cast buffSize true mems segs = requests mems ms) ↔
        ReadsApart buffSize ms segs := by
  constructor
  · rintro ⟨hcalls, -⟩
    exact Sent.readsApart_of_calls ms mems segs h hbuf hcalls
  · intro hapart
    exact ⟨Sent.calls_of_readsApart ms mems segs h hbuf hapart,
      Sent.handleLoop_of_readsApart ms mems segs _ h hbuf hapart (Nat.lt_succ_self _) hkeep⟩

end

/-- A request that keeps the connection. -/
def ping : Message where
  head := ascii "GET / HTTP/1.1\r\nconnection: keep-alive\r\n\r\n"
  body := []

theorem receivable_ping : Receivable decimal 4096 zeroed ping :=
  ⟨⟨⟨by decide +kernel, by decide +kernel, by decide +kernel, by decide +kernel⟩,
    by decide +kernel⟩, by decide +kernel, by decide +kernel⟩

theorem sent_pings {segs : Segments} (hne : [] ∉ segs) (hbytes : segs.flatten = wire [ping, ping])
    (hcut : NoTokenCut (fun _ => zeroed) [ping, ping] segs) :
    Sent decimal 4096 (fun _ => zeroed) [ping, ping] segs := by
  refine ⟨fun j m hj => ?_, hne, hbytes, hcut⟩
  have hm : m = ping := by simpa using List.mem_of_getElem? hj
  rw [hm]
  exact receivable_ping

/-- Two requests in a read each: both are answered. -/
theorem keepAlive_iff_two_reads :
    handleClient decimal 4096 true (fun _ => zeroed) [ping.head, ping.head] =
      requests (fun _ => zeroed) [ping, ping] := by
  have hsent : Sent decimal 4096 (fun _ => zeroed) [ping, ping] [ping.head, ping.head] := by
    refine sent_pings (by decide +kernel) (by decide +kernel) fun j m hj => ?_
    match j, hj with
    | 0, hj => cases hj; decide +kernel
    | 1, hj => cases hj; decide +kernel
    | j + 2, hj => simp at hj
  refine ((keepAlive_iff hsent (by decide) fun j m hj _ => ?_).2
    ⟨by decide +kernel, by decide +kernel, trivial⟩).2
  have hm : m = ping := by simpa using List.mem_of_getElem? hj
  rw [hm]
  decide +kernel

/-- Two requests in one read: the second one is gone, and the next call finds the connection at its
end. -/
theorem calls_two_in_one_read :
    Sent decimal 4096 (fun _ => zeroed) [ping, ping] [ping.head ++ ping.head] ∧
      calls decimal 4096 (fun _ => zeroed) 2 [ping.head ++ ping.head] =
        [(.request (requestOf zeroed ping.head ping.body), []), (.nullptr, [])] ∧
      handleClient decimal 4096 true (fun _ => zeroed) [ping.head ++ ping.head] =
        [requestOf zeroed ping.head ping.body] ∧
      handleClient decimal 4096 true (fun _ => zeroed) [ping.head ++ ping.head] ≠
        requests (fun _ => zeroed) [ping, ping] := by
  refine ⟨sent_pings (by decide +kernel) (by decide +kernel) fun j m hj => ?_, by decide +kernel,
    by decide +kernel, by decide +kernel⟩
  match j, hj with
  | 0, hj => cases hj; decide +kernel
  | 1, hj => cases hj; decide +kernel
  | j + 2, hj => simp at hj

end Http

end YXTWebCpp
