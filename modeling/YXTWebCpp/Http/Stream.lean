import YXTWebCpp.Http.Parser

/-!
# Receiving a request

`HttpStream::recvRequest` (`httpstream.cpp`) with `Stream::readFixSize` (`stream.cpp`), on a
connection given by the byte strings that the kernel hands out one after another.

A read of at most `max` bytes returns the first of these strings, cut off at `max`; what is cut off
stays first in line.  Reading nothing stands for a result `<= 0`: the peer has closed, or the
read has failed.
-/

namespace YXTWebCpp

namespace Http

/-- What is still to be read from a connection. -/
abbrev Segments := List (List UInt8)

/-- `read(buffer, max)`: the bytes stored in the buffer and what remains to be read. -/
def read (max : ℕ) : Segments → List UInt8 × Segments
  | [] => ([], [])
  | seg :: segs =>
    if seg.length ≤ max then (seg, segs) else (seg.take max, seg.drop max :: segs)

/-- The conversion of a 64-bit unsigned value to `int`. -/
def toInt32 (n : ℕ) : ℤ := (n : ℤ).bmod (2 ^ 32)

/-- The conversion of a 64-bit unsigned value to `int64_t`. -/
def toInt64 (n : ℕ) : ℤ := (n : ℤ).bmod (2 ^ 64)

/-- The loop of `readFixSize` with `left` bytes to go: whether all of them came, the bytes read and
what remains. -/
def readFixLoop : ℕ → ℕ → List UInt8 → Segments → Bool × List UInt8 × Segments
  | 0, _, got, segs => (false, got, segs)
  | fuel + 1, left, got, segs =>
    if left = 0 then (true, got, segs)
    else
      let r := read left segs
      if r.1 = [] then (false, got, r.2)
      else readFixLoop fuel (left - r.1.length) (got ++ r.1) r.2

/-- `readFixSize(buffer, length)`: the value returned, the bytes read and what remains.  Every turn
of the loop reads a byte, so `length + 1` turns are enough. -/
def readFixSize (length : ℕ) (segs : Segments) : ℤ × List UInt8 × Segments :=
  let r := readFixLoop (length + 1) length [] segs
  (if r.1 then toInt32 length else 0, r.2)

/-- The end of the header loop of `recvRequest`. -/
inductive HeadResult where
  /-- The loop is still running. -/
  | running
  /-- The stream was closed and `nullptr` returned. -/
  | refused (segs : Segments)
  /-- A callback has thrown. -/
  | threw (segs : Segments)
  /-- The header is complete; `data` is what stands in the buffer behind it. -/
  | finished (s : HttpRequestParser) (data : List UInt8) (segs : Segments)
  deriving DecidableEq

/-- The header loop of `recvRequest`, at most `fuel` turns of it.  `data` holds the `offset` bytes
at the head of the buffer. -/
def recvHead (buffSize : ℕ) : ℕ → HttpRequestParser → List UInt8 → Segments → HeadResult
  | 0, _, _, _ => .running
  | fuel + 1, s, data, segs =>
    let r := read (buffSize - data.length) segs
    if r.1 = [] then .refused r.2
    else
      let e := s.execute (data ++ r.1)
      if e.1.thrown then .threw r.2
      else if e.1.hasError then .refused r.2
      else if (e.2.2.length : ℤ) = toInt32 buffSize then .refused r.2
      else if e.1.isFinished then .finished e.1 e.2.2 r.2
      else recvHead buffSize fuel e.1 e.2.2 r.2

/-- What `recvRequest` returns. -/
inductive Received where
  /-- A request. -/
  | request (r : HttpRequest)
  /-- `nullptr`; the stream is closed. -/
  | nullptr
  /-- It does not return: `std::length_error` leaves a callback or `resize`. -/
  | lengthError
  deriving DecidableEq, Repr

/-- The end of `recvRequest`: `data` is what stands in the buffer behind the header.  The string for
the body is made with `resize`, which throws when the length exceeds `max_size`. -/
def recvBody (cast : List UInt8 → Option ℕ) (s : HttpRequestParser) (data : List UInt8)
    (segs : Segments) : Received × Segments :=
  let length := toInt64 (s.getContentLength cast)
  if 0 < length then
    if 2 ^ 62 ≤ length then (.lengthError, segs)
    else
      let body := data.take length.toNat
      if 0 < length - data.length then
        let r := readFixSize (length - data.length).toNat segs
        if r.1 ≤ 0 then (.nullptr, r.2.2)
        else (.request { s.data with body := body ++ r.2.1 }.init, r.2.2)
      else (.request { s.data with body := body }.init, segs)
  else (.request s.data.init, segs)

/-- `HttpStream::recvRequest`: what it returns and what remains to be read.  `mem` is the memory the
parser is constructed in.  Every turn of the header loop reads a byte, so it ends
(`recvHead_ne_running`). -/
def recvRequest (cast : List UInt8 → Option ℕ) (buffSize : ℕ) (mem : HttpParser)
    (segs : Segments) : Received × Segments :=
  match recvHead buffSize (segs.flatten.length + 1) (.new mem) [] segs with
  | .running => (.nullptr, segs)
  | .refused segs => (.nullptr, segs)
  | .threw segs => (.lengthError, segs)
  | .finished s data segs => recvBody cast s data segs

theorem recvRequest_of_finished {cast : List UInt8 → Option ℕ} {buffSize : ℕ} {mem : HttpParser}
    {segs rest : Segments} {s : HttpRequestParser} {data : List UInt8}
    (h : recvHead buffSize (segs.flatten.length + 1) (.new mem) [] segs = .finished s data rest) :
    recvRequest cast buffSize mem segs = recvBody cast s data rest := by
  unfold recvRequest
  rw [h]

/-! ### Reads -/

theorem read_cons (max : ℕ) (seg : List UInt8) (segs : Segments) :
    read max (seg :: segs) =
      if seg.length ≤ max then (seg, segs) else (seg.take max, seg.drop max :: segs) :=
  rfl

theorem read_flatten (max : ℕ) (segs : Segments) :
    (read max segs).1 ++ (read max segs).2.flatten = segs.flatten := by
  cases segs with
  | nil => rfl
  | cons seg segs => rw [read_cons]; split_ifs <;> simp [← List.append_assoc]

theorem read_length_le (max : ℕ) (segs : Segments) : (read max segs).1.length ≤ max := by
  cases segs with
  | nil => simp [read]
  | cons seg segs =>
    rw [read_cons]
    split_ifs with h
    · exact h
    · simp

theorem nil_notMem_read {max : ℕ} {segs : Segments} (h : [] ∉ segs) : [] ∉ (read max segs).2 := by
  cases segs with
  | nil => simp [read]
  | cons seg segs =>
    rw [read_cons]
    split_ifs with hs
    · exact fun hm => h (List.mem_cons_of_mem _ hm)
    · intro hm
      rcases List.mem_cons.1 hm with he | hm
      · have := congrArg List.length he
        simp only [List.length_nil, List.length_drop] at this
        omega
      · exact h (List.mem_cons_of_mem _ hm)

/-- A read into a buffer with room returns something, unless the peer has closed. -/
theorem read_ne_nil {max : ℕ} {segs : Segments} (hmax : 0 < max) (h : [] ∉ segs)
    (hs : segs.flatten ≠ []) : (read max segs).1 ≠ [] := by
  cases segs with
  | nil => simp at hs
  | cons seg segs =>
    have hseg : seg ≠ [] := fun he => h (by simp [he])
    rw [read_cons]
    split_ifs with hl
    · exact hseg
    · intro he
      have := congrArg List.length he
      simp only [List.length_take, List.length_nil] at this
      omega

/-- Every turn of the header loop reads a byte: as many turns as there are bytes are enough. -/
theorem recvHead_ne_running (buffSize : ℕ) : ∀ (fuel : ℕ) (s : HttpRequestParser)
    (data : List UInt8) (segs : Segments), segs.flatten.length < fuel →
      recvHead buffSize fuel s data segs ≠ .running := by
  intro fuel
  induction fuel with
  | zero => intro s data segs h; omega
  | succ fuel ih =>
    intro s data segs h
    have hr := congrArg List.length (read_flatten (buffSize - data.length) segs)
    rw [List.length_append] at hr
    unfold recvHead
    by_cases hg : (read (buffSize - data.length) segs).1 = []
    · simp [hg]
    · have := List.length_pos_iff.2 hg
      simp only [hg, ↓reduceIte]
      split_ifs
      all_goals first | exact ih _ _ _ (by omega) | simp

/-! ### Bytes read -/

/-- What remains to be read when `n` bytes have been taken. -/
def dropBytes : ℕ → Segments → Segments
  | _, [] => []
  | n, seg :: segs =>
    if seg.length ≤ n then dropBytes (n - seg.length) segs else seg.drop n :: segs

/-- The number of bytes in the first `i` segments: the place of the `i`-th cut. -/
def cut (segs : Segments) (i : ℕ) : ℕ := (segs.take i).flatten.length

theorem cut_cons_succ (seg : List UInt8) (segs : Segments) (i : ℕ) :
    cut (seg :: segs) (i + 1) = seg.length + cut segs i := by
  simp [cut]

theorem dropBytes_zero {segs : Segments} (h : [] ∉ segs) : dropBytes 0 segs = segs := by
  cases segs with
  | nil => rfl
  | cons seg segs =>
    have hseg : seg ≠ [] := fun he => h (by simp [he])
    simp [dropBytes, hseg]

theorem dropBytes_flatten (n : ℕ) (segs : Segments) :
    (dropBytes n segs).flatten = segs.flatten.drop n := by
  induction segs generalizing n with
  | nil => simp [dropBytes]
  | cons seg segs ih =>
    unfold dropBytes
    split_ifs with hs
    · rw [ih, List.flatten_cons, List.drop_append, List.drop_of_length_le hs, List.nil_append]
    · rw [List.flatten_cons, List.flatten_cons, List.drop_append_of_le_length (by omega)]

theorem nil_notMem_dropBytes (n : ℕ) {segs : Segments} (h : [] ∉ segs) :
    [] ∉ dropBytes n segs := by
  induction segs generalizing n with
  | nil => simp [dropBytes]
  | cons seg segs ih =>
    have htl : [] ∉ segs := fun hm => h (List.mem_cons_of_mem _ hm)
    unfold dropBytes
    split_ifs with hs
    · exact ih _ htl
    · intro hm
      rcases List.mem_cons.1 hm with he | hm
      · have := congrArg List.length he
        simp only [List.length_nil, List.length_drop] at this
        omega
      · exact htl hm

theorem dropBytes_add (m n : ℕ) {segs : Segments} (h : [] ∉ segs) :
    dropBytes n (dropBytes m segs) = dropBytes (m + n) segs := by
  induction segs generalizing m with
  | nil => simp [dropBytes]
  | cons seg segs ih =>
    have htl : [] ∉ segs := fun hm => h (List.mem_cons_of_mem _ hm)
    rw [dropBytes]
    split_ifs with hs
    · rw [ih _ htl, dropBytes, if_pos (by omega), Nat.sub_add_comm hs]
    · simp only [dropBytes, List.length_drop, List.drop_drop]
      split_ifs <;> first | omega | rfl | (congr 1; omega)

/-- A cut of what remains is a cut of the whole. -/
theorem exists_cut_dropBytes (n : ℕ) (segs : Segments) (hn : n ≤ segs.flatten.length) (i : ℕ)
    (hi : 0 < cut (dropBytes n segs) i) :
    ∃ j, cut segs j = n + cut (dropBytes n segs) i := by
  induction segs generalizing n i with
  | nil => simp [dropBytes, cut] at hi
  | cons seg segs ih =>
    rw [List.flatten_cons, List.length_append] at hn
    rw [dropBytes] at hi ⊢
    split_ifs at hi ⊢ with hs
    · obtain ⟨j, hj⟩ := ih (n - seg.length) (by omega) i hi
      exact ⟨j + 1, by rw [cut_cons_succ, hj]; omega⟩
    · cases i with
      | zero => simp [cut] at hi
      | succ i =>
        refine ⟨i + 1, ?_⟩
        rw [cut_cons_succ, cut_cons_succ, List.length_drop]
        omega

theorem read_dropBytes (max : ℕ) {segs : Segments} (h : [] ∉ segs) :
    (read max segs).2 = dropBytes (read max segs).1.length segs := by
  cases segs with
  | nil => rfl
  | cons seg segs =>
    have htl : [] ∉ segs := fun hm => h (List.mem_cons_of_mem _ hm)
    rw [read_cons]
    split_ifs with hs
    · simp [dropBytes, dropBytes_zero htl]
    · have hlt : ¬ seg.length ≤ max ⊓ seg.length := by omega
      simp only [dropBytes, List.length_take, hlt, ↓reduceIte]
      rw [Nat.min_eq_left (by omega)]

theorem read_take (max : ℕ) (segs : Segments) :
    (read max segs).1 = segs.flatten.take (read max segs).1.length := by
  conv_rhs => rw [← read_flatten max segs]
  rw [List.take_left]

/-- `readFixSize` reads exactly the bytes asked for when there are enough of them. -/
theorem readFixLoop_eq : ∀ (fuel left : ℕ) (got : List UInt8) (segs : Segments),
    left < fuel → [] ∉ segs → left ≤ segs.flatten.length →
    readFixLoop fuel left got segs =
      (true, got ++ segs.flatten.take left, dropBytes left segs) := by
  intro fuel
  induction fuel with
  | zero => intro left got segs h; omega
  | succ fuel ih =>
    intro left got segs hf hne hle
    by_cases hl : left = 0
    · simp [readFixLoop, hl, dropBytes_zero hne]
    · have hlen := read_length_le left segs
      have hgot : (read left segs).1 ≠ [] :=
        read_ne_nil (by omega) hne (fun h => by rw [h] at hle; simp at hle; omega)
      have hpos := List.length_pos_iff.2 hgot
      have hflat := read_flatten left segs
      have hlen' := congrArg List.length hflat
      rw [List.length_append] at hlen'
      have hstep := ih (left - (read left segs).1.length) (got ++ (read left segs).1)
        (read left segs).2 (by omega) (nil_notMem_read hne) (by omega)
      simp only [readFixLoop, hl, hgot, ↓reduceIte, hstep, Prod.mk.injEq, true_and]
      constructor
      · rw [← hflat, List.take_append, List.take_of_length_le hlen, List.append_assoc]
      · rw [read_dropBytes left hne, dropBytes_add _ _ hne]
        congr 1
        omega

theorem readFixSize_eq (length : ℕ) {segs : Segments} (hne : [] ∉ segs)
    (hle : length ≤ segs.flatten.length) :
    readFixSize length segs =
      (toInt32 length, segs.flatten.take length, dropBytes length segs) := by
  simp [readFixSize, readFixLoop_eq (length + 1) length [] segs (by omega) hne hle]

end Http

end YXTWebCpp
