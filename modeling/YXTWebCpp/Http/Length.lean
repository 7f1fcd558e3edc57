import YXTWebCpp.Http.Body

/-!
# The length of a body

The `content-length` header is a text under the control of the client.  `getContentLength`
(`http_parser.cpp`) converts it with `boost::lexical_cast<uint64_t>` and takes `0` when this throws;
`recvRequest` (`httpstream.cpp`) converts the number to `int64_t`, makes a string of that size and
compares the `int` that `readFixSize` returns with `0`.  It does not ask
`GetHttpRequestMaxBodySize`.

* `stated` : the number that a text of decimal digits states.
* `LexicalCast` : what is relied on of `boost::lexical_cast<uint64_t>`, and `lexicalCast`, which
  is one.
* `Honoured` : the request has the body that the header states, or the stream is closed.
* `recvBody_honoured_iff` : the end of `recvRequest`, for a length that is converted.
* `recvRequest_length_iff` : **which values of the header are honoured or refused.**
-/

namespace YXTWebCpp

namespace Http

/-! ### Texts and numbers -/

/-- The number that a text of decimal digits states. -/
def stated (v : List UInt8) : Option ℕ :=
  if v ≠ [] ∧ v.all (fun c => decide (48 ≤ c) && decide (c ≤ 57)) then
    some (v.foldl (fun n c => 10 * n + (c.toNat - 48)) 0)
  else none

/-- `boost::lexical_cast<uint64_t>`, `none` when it throws: a number is converted if there is room
for it, a minus sign negates it modulo `2 ^ 64`, and what is not a number behind at most one sign
is rejected. -/
structure LexicalCast (cast : List UInt8 → Option ℕ) : Prop where
  digits {v : List UInt8} {m : ℕ} : stated v = some m →
    cast v = if m < 2 ^ 64 then some m else none
  minus {v : List UInt8} {m : ℕ} : stated v = some m →
    cast (45 :: v) = if m < 2 ^ 64 then some ((2 ^ 64 - m) % 2 ^ 64) else none
  rejects {v : List UInt8} : stated v = none → (∀ w, v = 45 :: w ∨ v = 43 :: w → stated w = none) →
    cast v = none
  lt {v : List UInt8} {n : ℕ} : cast v = some n → n < 2 ^ 64

/-- `boost::lexical_cast<uint64_t>` on any text. -/
def lexicalCast : List UInt8 → Option ℕ
  | [] => none
  | c :: v =>
    if c = 45 then (decimal v).map fun n => (2 ^ 64 - n) % 2 ^ 64
    else if c = 43 then decimal v
    else decimal (c :: v)

theorem decimal_eq (v : List UInt8) :
    decimal v = (stated v).bind fun n => if n < 2 ^ 64 then some n else none := by
  rw [decimal, stated]
  split_ifs <;> rfl

theorem decimal_lt {v : List UInt8} {n : ℕ} (h : decimal v = some n) : n < 2 ^ 64 := by
  rw [decimal_eq] at h
  obtain ⟨m, -, hm⟩ := Option.bind_eq_some_iff.1 h
  split_ifs at hm with hlt
  · cases hm
    exact hlt

/-- No sign is a digit. -/
theorem stated_sign {c : UInt8} {v : List UInt8} (hc : c = 45 ∨ c = 43) :
    stated (c :: v) = none := by
  rw [stated, if_neg]
  rintro ⟨-, hall⟩
  rw [List.all_cons, Bool.and_eq_true] at hall
  rcases hc with rfl | rfl <;> exact absurd hall.1 (by decide)

theorem lexicalCast_spec : LexicalCast lexicalCast where
  digits := by
    intro v m hm
    cases v with
    | nil => cases hm
    | cons c v =>
      have hc : c ≠ 45 ∧ c ≠ 43 := by
        refine ⟨fun h => ?_, fun h => ?_⟩
        · rw [stated_sign (.inl h)] at hm
          cases hm
        · rw [stated_sign (.inr h)] at hm
          cases hm
      rw [lexicalCast, if_neg hc.1, if_neg hc.2, decimal_eq, hm, Option.bind_some]
  minus := by
    intro v m hm
    rw [lexicalCast, if_pos rfl, decimal_eq, hm, Option.bind_some]
    split_ifs <;> rfl
  rejects := by
    intro v hv hsign
    cases v with
    | nil => rfl
    | cons c v =>
      rw [lexicalCast]
      split_ifs with hminus hplus
      · rw [decimal_eq, hsign v (.inl (by rw [hminus]))]
        rfl
      · rw [decimal_eq, hsign v (.inr (by rw [hplus]))]
        rfl
      · rw [decimal_eq, hv]
        rfl
  lt := by
    intro v n hn
    cases v with
    | nil => cases hn
    | cons c v =>
      rw [lexicalCast] at hn
      split_ifs at hn
      · obtain ⟨m, -, rfl⟩ := Option.map_eq_some_iff.1 hn
        exact Nat.mod_lt _ (by decide)
      · exact decimal_lt hn
      · exact decimal_lt hn

/-- What is converted without being a number has a sign in front of one. -/
theorem LexicalCast.sign {cast : List UInt8 → Option ℕ} (h : LexicalCast cast) {v : List UInt8}
    {n : ℕ} (hv : stated v = none) (hn : cast v = some n) :
    ∃ w m, stated w = some m ∧
      (v = 45 :: w ∧ m < 2 ^ 64 ∧ n = (2 ^ 64 - m) % 2 ^ 64 ∨ v = 43 :: w) := by
  by_contra hno
  have hsign : ∀ w, v = 45 :: w ∨ v = 43 :: w → stated w = none := by
    intro w hw
    by_contra hsome
    obtain ⟨m, hm⟩ := Option.ne_none_iff_exists'.1 hsome
    refine hno ⟨w, m, hm, ?_⟩
    rcases hw with rfl | hw
    · have hcast := h.minus hm
      rw [hn] at hcast
      split_ifs at hcast with hlt
      exact .inl ⟨rfl, hlt, Option.some.inj hcast⟩
    · exact .inr hw
  rw [h.rejects hv hsign] at hn
  cases hn

section Converted

variable {cast : List UInt8 → Option ℕ} {v : List UInt8}

theorem LexicalCast.getD_lt (h : LexicalCast cast) (v : List UInt8) :
    (cast v).getD 0 < 2 ^ 64 := by
  cases hv : cast v with
  | none => decide
  | some n => exact h.lt hv

theorem LexicalCast.getD_of_stated (h : LexicalCast cast) {m : ℕ} (hm : stated v = some m) :
    (cast v).getD 0 = if m < 2 ^ 64 then m else 0 := by
  rw [h.digits hm]
  split_ifs <;> rfl

/-- What a text says if the number that it is converted to is small and is the one that it states,
or is positive and has the property `Q`. -/
theorem LexicalCast.converted_iff (h : LexicalCast cast) (limit : ℕ) (Q : ℕ → Prop) :
    ((cast v).getD 0 < 2 ^ 62 ∧ (cast v).getD 0 ≤ limit ∧
        (stated v = some ((cast v).getD 0) ∨ 0 < (cast v).getD 0 ∧ Q ((cast v).getD 0))) ↔
      (∃ m, stated v = some m ∧ m ≤ limit ∧ m < 2 ^ 62) ∨
      (stated v = none ∧ ∃ n, cast v = some n ∧ 0 < n ∧ n ≤ limit ∧ n < 2 ^ 62 ∧ Q n) := by
  cases hv : stated v with
  | some m =>
    -- the text is a number, and converted if it is an `uint64_t`
    rw [h.getD_of_stated hv]
    constructor
    · rintro ⟨hlt, hle, hsome | ⟨hpos, -⟩⟩
      · split_ifs at hlt hle hsome with hm
        · exact .inl ⟨m, rfl, hle, hlt⟩
        · cases hsome
          exact absurd (by decide) hm
      · split_ifs at hlt hle hpos with hm
        · exact .inl ⟨m, rfl, hle, hlt⟩
        · exact absurd hpos (lt_irrefl 0)
    · rintro (⟨n, hn, hle, hlt⟩ | ⟨hnone, -⟩)
      · cases hn
        rw [if_pos (by omega)]
        exact ⟨hlt, hle, .inl rfl⟩
      · cases hnone
  | none =>
    constructor
    · rintro ⟨hlt, hle, hsome | ⟨hpos, hQ⟩⟩
      · cases hsome
      · cases hc : cast v with
        | none =>
          rw [hc] at hpos
          exact absurd hpos (lt_irrefl 0)
        | some n =>
          rw [hc] at hlt hle hpos hQ
          exact .inr ⟨rfl, n, rfl, hpos, hle, hlt, hQ⟩
    · rintro (⟨m, hm, -⟩ | ⟨-, n, hc, hpos, hle, hlt, hQ⟩)
      · cases hm
      · rw [hc]
        exact ⟨hlt, hle, .inr ⟨hpos, hQ⟩⟩

end Converted

/-! ### The length of what is returned -/

/-- The request has a body of the length that the text states, and no more than `limit` allows, or
the stream is closed. -/
def Honoured (limit : ℕ) (v : List UInt8) (r : Received) : Prop :=
  r = .nullptr ∨ ∃ q m, r = .request q ∧ stated v = some m ∧ m ≤ limit ∧ q.body.length = m

/-- The size that the string for the body is given by `resize`. -/
def bodyBuffer (cast : List UInt8 → Option ℕ) (s : HttpRequestParser) : ℕ :=
  (toInt64 (s.getContentLength cast)).toNat

/-- A body of `n` bytes is not received: it does not come with the header, and either a read
returns nothing before its end or what `readFixSize` returns is not positive as an `int`. -/
def Missing (n : ℕ) (data : List UInt8) (rest : Segments) : Prop :=
  data.length < n ∧
    (data.length + (arriving rest).length < n ∨ toInt32 (n - data.length) ≤ 0)

section

variable {cast : List UInt8 → Option ℕ} {s : HttpRequestParser} {data v : List UInt8}
  {rest : Segments} {n limit : ℕ}

theorem toInt64_of_le (h : 2 ^ 63 ≤ n) (hlt : n < 2 ^ 64) : toInt64 n = n - (2 ^ 64 : ℕ) := by
  unfold toInt64
  exact (Int.sub_bmod_right _ _).symm.trans (Int.bmod_eq_of_le (by omega) (by omega))

theorem init_body (q : HttpRequest) : q.init.body = q.body := by
  rw [HttpRequest.init]
  split_ifs <;> rfl

/-- There is no body where the length is not positive as an `int64_t`. -/
theorem recvBody_nonpos (h : toInt64 (s.getContentLength cast) ≤ 0) :
    (recvBody cast s data rest).1 = .request s.data.init := by
  simp only [recvBody, if_neg (not_lt.2 h)]

/-- A string as long as `max_size` is not made. -/
theorem recvBody_throws (h : 2 ^ 62 ≤ toInt64 (s.getContentLength cast)) :
    (recvBody cast s data rest).1 = .lengthError := by
  have hpos : 0 < toInt64 (s.getContentLength cast) := by omega
  simp only [recvBody, if_pos hpos, if_pos h]

/-- The stream is closed exactly if the body is not received.  Otherwise it is as long as the
number that has been converted. -/
theorem recvBody_cases (data : List UInt8) (rest : Segments)
    (hlen : s.getContentLength cast = n) (hpos : 1 ≤ n) (hn : n < 2 ^ 62) :
    Missing n data rest ∧ (recvBody cast s data rest).1 = .nullptr ∨
    ¬ Missing n data rest ∧ ∃ q, (recvBody cast s data rest).1 = .request q ∧
      q.body.length = n := by
  rw [recvBody_arriving hlen hpos hn]
  by_cases hmissing : Missing n data rest
  · obtain ⟨hmore, hfew⟩ := hmissing
    refine .inl ⟨⟨hmore, hfew⟩, if_neg ?_⟩
    rintro ⟨harr, hle | hint⟩ <;> omega
  · refine .inr ⟨hmissing, _, if_pos ?_, ?_⟩
    · rw [Missing] at hmissing
      omega
    · rw [Missing] at hmissing
      rw [init_body, List.length_take, List.length_append]
      omega

theorem honoured_request {q : HttpRequest} :
    Honoured limit v (.request q) ↔ ∃ m, stated v = some m ∧ m ≤ limit ∧ q.body.length = m := by
  constructor
  · rintro (hnull | ⟨q', m, hq, hm⟩)
    · cases hnull
    · cases hq
      exact ⟨m, hm⟩
  · rintro ⟨m, hm⟩
    exact .inr ⟨q, m, rfl, hm⟩

theorem not_honoured_lengthError : ¬ Honoured limit v .lengthError := by
  rintro (h | ⟨q, m, h, -⟩) <;> cases h

/-- **The end of `recvRequest`**, where the text has been converted to `n`.  The cases are those of
the conversions: no body, a body, a string that is not made, and a negative `int64_t`. -/
theorem recvBody_honoured_iff (hlen : s.getContentLength cast = n) (hn : n < 2 ^ 64)
    (hstated : ∀ m, stated v = some m → n = if m < 2 ^ 64 then m else 0)
    (hbody : s.data.body = []) :
    (Honoured limit v (recvBody cast s data rest).1 ∧ bodyBuffer cast s ≤ limit) ↔
      n < 2 ^ 62 ∧ n ≤ limit ∧ (stated v = some n ∨ 0 < n ∧ Missing n data rest) := by
  have hempty : toInt64 n ≤ 0 →
      (Honoured limit v (recvBody cast s data rest).1 ↔ stated v = some 0) := by
    intro hle
    rw [recvBody_nonpos (by rwa [hlen]), honoured_request, init_body, hbody]
    constructor
    · rintro ⟨m, hm, -, rfl⟩
      exact hm
    · intro hzero
      exact ⟨0, hzero, Nat.zero_le _, rfl⟩
  rw [bodyBuffer, hlen]
  by_cases hbig : 2 ^ 63 ≤ n
  · -- the `int64_t` is negative, so the request has no body; the text does not state zero
    have hneg : toInt64 n ≤ 0 := by rw [toInt64_of_le hbig hn]; omega
    rw [hempty hneg]
    constructor
    · rintro ⟨hzero, -⟩
      have := hstated 0 hzero
      rw [if_pos (by decide)] at this
      omega
    · rintro ⟨hlt, -⟩
      omega
  · have hint : toInt64 n = n := toInt64_of_lt (not_le.1 hbig)
    rw [hint, Int.toNat_natCast]
    by_cases hmax : 2 ^ 62 ≤ n
    · -- `resize` throws
      rw [recvBody_throws (by rw [hlen, hint]; omega)]
      constructor
      · rintro ⟨h, -⟩
        exact absurd h not_honoured_lengthError
      · rintro ⟨hlt, -⟩
        omega
    · obtain rfl | hpos := Nat.eq_zero_or_pos n
      · rw [hempty (by rw [hint]; rfl)]
        constructor
        · rintro ⟨hzero, hle⟩
          exact ⟨by decide, hle, .inl hzero⟩
        · rintro ⟨-, hle, hzero | ⟨hpos, -⟩⟩
          · exact ⟨hzero, hle⟩
          · exact absurd hpos (lt_irrefl 0)
      · -- a string of `n` bytes is made
        obtain ⟨hmissing, hnull⟩ | ⟨hmissing, q, hq, hqlen⟩ :=
          recvBody_cases data rest hlen hpos (not_le.1 hmax)
        · rw [hnull]
          exact ⟨fun h => ⟨not_le.1 hmax, h.2, .inr ⟨hpos, hmissing⟩⟩, fun h => ⟨.inl rfl, h.2.1⟩⟩
        · rw [hq, honoured_request, hqlen]
          constructor
          · rintro ⟨⟨m, hm, -, rfl⟩, hle⟩
            exact ⟨not_le.1 hmax, hle, .inl hm⟩
          · rintro ⟨-, hle, hsome | ⟨-, hmiss⟩⟩
            · exact ⟨⟨n, hsome, hle, rfl⟩, hle⟩
            · exact absurd hmiss hmissing

variable {buffSize : ℕ} {mem : HttpParser} {segs : Segments}

/-- **Which values of the header are honoured or refused.**  The header loop has ended with a
header in which `content-length` has the value `v`; bodies of at most `limit` bytes are allowed.
The request has a body of the length stated, or the stream is closed, and the string for the body
is not larger than the limit, exactly if the text states a number that is not larger than the limit
and that a string can have as its length, or is such a number with a sign, and this many bytes do
not come. -/
theorem recvRequest_length_iff (hcast : LexicalCast cast)
    (hhead : recvHead buffSize (segs.flatten.length + 1) (.new mem) [] segs =
      .finished s data rest)
    (hvalue : mapFind (ascii "content-length") s.data.headers = some v) :
    (Honoured limit v (recvRequest cast buffSize mem segs).1 ∧ bodyBuffer cast s ≤ limit) ↔
      (∃ m, stated v = some m ∧ m ≤ limit ∧ m < 2 ^ 62) ∨
      (stated v = none ∧ ∃ n, cast v = some n ∧ 0 < n ∧ n ≤ limit ∧ n < 2 ^ 62 ∧
        Missing n data rest) := by
  have hlen : s.getContentLength cast = (cast v).getD 0 := by
    rw [HttpRequestParser.getContentLength, getAs, hvalue]
  rw [recvRequest_of_finished hhead, recvBody_honoured_iff hlen (hcast.getD_lt v)
    (fun m => hcast.getD_of_stated) (recvHead_finished_body hhead)]
  exact hcast.converted_iff limit fun n => Missing n data rest

/-- A body of five bytes, two of which come with the header. -/
theorem recvRequest_length_iff_five :
    Honoured (64 * 1024 * 1024) (ascii "5") (recvRequest lexicalCast 4096 zeroed
      [ascii "POST /a HTTP/1.1\r\ncontent-length: 5\r\n\r\nhe", ascii "llo"]).1 :=
  ((@recvRequest_length_iff lexicalCast
    ((HttpRequestParser.new zeroed).execute
      (ascii "POST /a HTTP/1.1\r\ncontent-length: 5\r\n\r\nhe")).1
    (ascii "he") (ascii "5") [ascii "llo"] (64 * 1024 * 1024) 4096 zeroed
    [ascii "POST /a HTTP/1.1\r\ncontent-length: 5\r\n\r\nhe", ascii "llo"] lexicalCast_spec
    (by decide +kernel) (by decide +kernel)).2
      (.inl ⟨5, by decide +kernel, by decide, by decide⟩)).1

/-- A length that is not a number is taken for none. -/
theorem not_honoured_abc :
    (¬ ∀ (cast : List UInt8 → Option ℕ) (limit buffSize : ℕ) (mem : HttpParser)
      (segs rest : Segments) (s : HttpRequestParser) (data v : List UInt8), LexicalCast cast →
      recvHead buffSize (segs.flatten.length + 1) (.new mem) [] segs = .finished s data rest →
      mapFind (ascii "content-length") s.data.headers = some v →
      Honoured limit v (recvRequest cast buffSize mem segs).1 ∧ bodyBuffer cast s ≤ limit) ∧
    (recvRequest lexicalCast 4096 zeroed
        [ascii "POST /a HTTP/1.1\r\ncontent-length: abc\r\n\r\n"]).1 =
      .request ((HttpRequestParser.new zeroed).execute
        (ascii "POST /a HTTP/1.1\r\ncontent-length: abc\r\n\r\n")).1.data.init := by
  have hrecv : (recvRequest lexicalCast 4096 zeroed
      [ascii "POST /a HTTP/1.1\r\ncontent-length: abc\r\n\r\n"]).1 =
      .request ((HttpRequestParser.new zeroed).execute
        (ascii "POST /a HTTP/1.1\r\ncontent-length: abc\r\n\r\n")).1.data.init := by
    decide +kernel
  refine ⟨fun h => ?_, hrecv⟩
  have hhonoured := (h lexicalCast (64 * 1024 * 1024) 4096 zeroed
    [ascii "POST /a HTTP/1.1\r\ncontent-length: abc\r\n\r\n"] []
    ((HttpRequestParser.new zeroed).execute
      (ascii "POST /a HTTP/1.1\r\ncontent-length: abc\r\n\r\n")).1 [] (ascii "abc")
    lexicalCast_spec (by decide +kernel) (by decide +kernel)).1
  rw [hrecv, honoured_request] at hhonoured
  obtain ⟨m, hm, -⟩ := hhonoured
  have hnone : stated (ascii "abc") = none := by decide +kernel
  rw [hnone] at hm
  cases hm

end

end Http

end YXTWebCpp
