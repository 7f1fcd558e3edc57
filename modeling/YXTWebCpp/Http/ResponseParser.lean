import YXTWebCpp.Http.Parser
import YXTWebCpp.Http.Response
import YXTWebCpp.Http.HttpclientParser
import YXTWebCpp.Scan.Triple
import YXTWebCpp.Text.Numeral

/-!
# The response parser

`httpclient_parser` with `httpclient_parser_init` and `httpclient_parser_execute`
(`httpclient_parser.cpp`), the callbacks `on_response_*` and `HttpResponseParser`
(`http_parser.cpp`).

Two things are different from the request parser.  `httpclient_parser_execute` stores the state
it comes to in any case, and the `switch` of the generated program has no `case` for the error
state: a call in the error state falls through to the code that stores state 2.  And
`httpclient_parser_execute` returns `-1` when a position lies behind the buffer, which
`HttpResponseParser::execute` takes for a number of bytes.

* `strtol`, `atoi` : the C functions.
* `HttpResponseParser.execute` : `none` stands for the call that returns `-1`.
* `execute_result` : **that call is the one with the empty buffer, and an error is forgotten by the
  next call.**
-/

namespace YXTWebCpp

namespace Http

namespace Client

open Scan Text

/-! ### Numbers -/

/-- `isspace` in the C locale. -/
def isSpace (c : UInt8) : Bool := c == 32 || (9 ≤ c && c ≤ 13)

/-- The prefix `0x` that `strtol` skips in base 16 if a digit follows it. -/
def skipHex : List UInt8 → List UInt8
  | 48 :: x :: d :: s =>
    if (x == 120 || x == 88) && isDigit 16 d then d :: s else 48 :: x :: d :: s
  | s => s

/-- `strtol(s, NULL, base)` for a `long` of 64 bits. -/
def strtol (base : ℕ) (m : List UInt8) : ℤ :=
  let s := m.dropWhile isSpace
  let negative := s.head? == some 45
  let s := if s.head? == some 45 || s.head? == some 43 then s.tail else s
  let s := if base = 16 then skipHex s else s
  let n : ℤ := numeralValue base (s.takeWhile (isDigit base))
  if negative then max (-(2 ^ 63)) (-n) else min (2 ^ 63 - 1) n

/-- A `long` stored in an `int`. -/
def toInt (n : ℤ) : ℤ := n.bmod (2 ^ 32)

/-- `atoi` -/
def atoi (m : List UInt8) : ℤ := toInt (strtol 10 m)

/-! ### The parser -/

/-- `httpclient_parser`, without the callbacks. -/
structure HttpclientParser where
  /-- `cs` -/
  cs : ℕ
  /-- `body_start` -/
  bodyStart : ℕ
  /-- `content_len` -/
  contentLen : ℤ
  /-- `status` -/
  status : ℤ
  /-- `chunked` is not zero. -/
  chunked : Bool
  /-- `chunks_done` is not zero. -/
  chunksDone : Bool
  /-- `close` is not zero. -/
  close : Bool
  /-- `nread` -/
  nread : ℕ
  /-- `mark` -/
  mark : ℕ
  /-- `field_start` -/
  fieldStart : ℕ
  /-- `field_len` -/
  fieldLen : ℕ
  deriving DecidableEq, Repr

/-- `httpclient_parser_init`, which leaves `status` alone. -/
def httpclientParserInit (h : HttpclientParser) : HttpclientParser :=
  { h with
    cs := httpclientParserStart
    bodyStart := 0
    contentLen := -1
    chunked := false
    chunksDone := false
    mark := 0
    nread := 0
    fieldLen := 0
    fieldStart := 0
    close := false }

/-- `httpclient_parser_has_error` -/
def httpclientParserHasError (h : HttpclientParser) : Bool := h.cs == httpclientParserError

/-- `httpclient_parser_is_finished` -/
def httpclientParserIsFinished (h : HttpclientParser) : Bool :=
  h.cs == httpclientParserFirstFinal

/-- `httpclient_parser_finish` -/
def httpclientParserFinish (h : HttpclientParser) : ℤ :=
  if httpclientParserHasError h then -1 else if httpclientParserIsFinished h then 1 else 0

/-- `HttpResponseParser` -/
structure HttpResponseParser where
  /-- `m_parser` -/
  parser : HttpclientParser
  /-- `m_data`, but for the status. -/
  data : HttpResponse
  /-- `m_data->getStatus()` as a number: `on_response_status` casts any number to `HttpStatus`. -/
  status : ℤ
  /-- `m_error` -/
  error : ℕ
  /-- A callback has thrown `std::length_error`; whatever it would have done is lost. -/
  thrown : Bool
  deriving DecidableEq

/-- `HttpResponseParser()` -/
def HttpResponseParser.new (mem : HttpclientParser) : HttpResponseParser where
  parser := httpclientParserInit mem
  data := .new 0x11 true
  status := HttpStatus.ok.code
  error := 0
  thrown := false

namespace HttpResponseParser

/-- `HttpResponseParser::hasError` -/
def hasError (s : HttpResponseParser) : Bool :=
  s.error != 0 || httpclientParserHasError s.parser

/-- `HttpResponseParser::isFinished` -/
def isFinished (s : HttpResponseParser) : ℤ := httpclientParserFinish s.parser

/-- `HttpResponseParser::getContentLength` -/
def getContentLength (cast : List UInt8 → Option ℕ) (s : HttpResponseParser) : ℕ :=
  getAs cast s.data.headers (ascii "content-length") 0

/-! ### Callbacks -/

/-- `on_response_reason` -/
def onReason (s : HttpResponseParser) (at_ : List UInt8) (length : ℕ) : HttpResponseParser :=
  match stdString at_ length with
  | some v => { s with data := { s.data with reason := v } }
  | none => { s with thrown := true }

/-- `on_response_status` -/
def onStatus (s : HttpResponseParser) (at_ : List UInt8) : HttpResponseParser :=
  { s with status := atoi at_ }

/-- `on_response_version` -/
def onVersion (s : HttpResponseParser) (at_ : List UInt8) (length : ℕ) : HttpResponseParser :=
  if strncmpEq at_ (ascii "HTTP/1.1") length then
    { s with data := { s.data with version := 0x11 } }
  else if strncmpEq at_ (ascii "HTTP/1.0") length then
    { s with data := { s.data with version := 0x10 } }
  else { s with error := 1001 }

/-- `on_response_http_field` -/
def onHttpField (s : HttpResponseParser) (field : List UInt8) (flen : ℕ) (value : List UInt8)
    (vlen : ℕ) : HttpResponseParser :=
  if flen = 0 then { s with error := 1002 }
  else match stdString field flen, stdString value vlen with
    | some k, some v => { s with data := s.data.setHeader k v }
    | _, _ => { s with thrown := true }

end HttpResponseParser

/-! ### Actions -/

/-- The actions of the grammar, at position `p` of the buffer.  The callbacks `chunk_size`,
`last_chunk` and `header_done` do nothing. -/
def act (buf : List UInt8) (p : ℕ) (a : Action) (s : HttpResponseParser) : HttpResponseParser :=
  let h := s.parser
  match a with
  | .mark => { s with parser := { h with mark := p } }
  | .startField => { s with parser := { h with fieldStart := p } }
  | .writeField => { s with parser := { h with fieldLen := lenTo h.fieldStart p } }
  | .startValue => { s with parser := { h with mark := p } }
  | .writeContentLen =>
    { s with parser := { h with contentLen := toInt (strtol 10 (buf.drop h.mark)) } }
  | .writeConnectionClose => { s with parser := { h with close := true } }
  | .writeValue =>
    s.onHttpField (buf.drop h.fieldStart) h.fieldLen (buf.drop h.mark) (lenTo h.mark p)
  | .reasonPhrase => s.onReason (buf.drop h.mark) (lenTo h.mark p)
  | .statusCode =>
    { s with parser := { h with status := toInt (strtol 10 (buf.drop h.mark)) } }.onStatus
      (buf.drop h.mark)
  | .httpVersion => s.onVersion (buf.drop h.mark) (lenTo h.mark p)
  | .chunkSize =>
    let n := toInt (strtol 16 (buf.drop h.mark))
    { s with parser := { h with chunked := true, contentLen := n, chunksDone := decide (n ≤ 0) } }
  | .transChunked => { s with parser := { h with chunked := true } }
  | .done => { s with parser := { h with bodyStart := p + 1 } }

/-! ### Execution -/

/-- The positions that every call of `httpclient_parser_execute` resets. -/
def resetMarks (h : HttpclientParser) : HttpclientParser :=
  { h with nread := 0, mark := 0, fieldLen := 0, fieldStart := 0 }

/-- The generated program on a buffer.  No `case` is for the error state. -/
def execBuf (s : HttpResponseParser) (buf : List UInt8) :
    Scan.Outcome ℕ UInt8 HttpResponseParser :=
  let s := { s with parser := resetMarks s.parser }
  if buf ≠ [] ∧ s.parser.cs = httpclientParserError then ⟨true, 2, s, buf⟩
  else machine.exec (act buf) buf 0 s.parser.cs s

/-- `httpclient_parser_execute(&m_parser, data, len, 0)`: the parser afterwards and the number of
bytes consumed, or `none` for `-1`.  A NUL has to stand behind the buffer. -/
def httpclientParserExecute (s : HttpResponseParser) (buf : List UInt8) :
    HttpResponseParser × Option ℕ :=
  let o := execBuf s buf
  let n := buf.length - o.rest.length
  let h := o.mem.parser
  ({ o.mem with parser := { h with cs := o.state, nread := n } },
    if h.mark < buf.length ∧ h.fieldLen ≤ buf.length ∧ h.fieldStart < buf.length then some n
    else none)

/-- `HttpResponseParser::execute`: the parser afterwards, the number of bytes consumed and the bytes
that `memmove` leaves at the head of the buffer; `none` if `memmove` is called with the offset
`-1`, which is undefined. -/
def HttpResponseParser.execute (s : HttpResponseParser) (buf : List UInt8) (chunck : Bool) :
    Option (HttpResponseParser × ℕ × List UInt8) :=
  let s := if chunck then { s with parser := httpclientParserInit s.parser } else s
  let r := httpclientParserExecute s buf
  r.2.map fun n => (r.1, n, buf.drop n)

/-! ### Calls with a result, and errors -/

/-- The registers hold positions up to `p`. -/
structure Marked (p : ℕ) (s : HttpResponseParser) : Prop where
  mark : s.parser.mark ≤ p
  start : s.parser.fieldStart ≤ p
  len : s.parser.fieldLen ≤ p

theorem Marked.act {buf : List UInt8} {p : ℕ} {a : Action} {s : HttpResponseParser}
    (h : Marked p s) : Marked p (act buf p a s) := by
  obtain ⟨hmark, hstart, hlen⟩ := h
  have hfield : ∀ f n v m, (s.onHttpField f n v m).parser = s.parser := by
    intro f n v m
    rw [HttpResponseParser.onHttpField]
    split_ifs
    · rfl
    · split <;> rfl
  have hreason : ∀ v m, (s.onReason v m).parser = s.parser := by
    intro v m
    rw [HttpResponseParser.onReason]
    split <;> rfl
  have hversion : ∀ v m, (s.onVersion v m).parser = s.parser := by
    intro v m
    rw [HttpResponseParser.onVersion]
    split_ifs <;> rfl
  cases a with
  | mark => exact ⟨le_rfl, hstart, hlen⟩
  | startField => exact ⟨hmark, le_rfl, hlen⟩
  | writeField =>
    refine ⟨hmark, hstart, ?_⟩
    show lenTo s.parser.fieldStart p ≤ p
    rw [lenTo, if_pos hstart]
    omega
  | startValue => exact ⟨le_rfl, hstart, hlen⟩
  | writeValue =>
    refine ⟨?_, ?_, ?_⟩ <;> rw [Client.act, hfield] <;> assumption
  | reasonPhrase =>
    refine ⟨?_, ?_, ?_⟩ <;> rw [Client.act, hreason] <;> assumption
  | httpVersion =>
    refine ⟨?_, ?_, ?_⟩ <;> rw [Client.act, hversion] <;> assumption
  | writeContentLen => exact ⟨hmark, hstart, hlen⟩
  | writeConnectionClose => exact ⟨hmark, hstart, hlen⟩
  | statusCode => exact ⟨hmark, hstart, hlen⟩
  | chunkSize => exact ⟨hmark, hstart, hlen⟩
  | transChunked => exact ⟨hmark, hstart, hlen⟩
  | done => exact ⟨hmark, hstart, hlen⟩

/-- The positions stay inside a buffer that is not empty. -/
theorem execBuf_marked (s : HttpResponseParser) {buf : List UInt8} (hbuf : buf ≠ []) :
    Marked (buf.length - 1) (execBuf s buf).mem := by
  have hzero : Marked 0 { s with parser := resetMarks s.parser } := ⟨le_rfl, le_rfl, le_rfl⟩
  have hmono : ∀ p s, Marked p s → Marked (p + 1) s := fun p s h =>
    ⟨Nat.le_succ_of_le h.mark, Nat.le_succ_of_le h.start, Nat.le_succ_of_le h.len⟩
  rw [execBuf]
  split_ifs
  · exact ⟨Nat.zero_le _, Nat.zero_le _, Nat.zero_le _⟩
  · have hact : ∀ p a s, Marked p s → Marked p (act buf p a s) := fun _ _ _ h => h.act
    have := machine.exec_last (K := Marked) (q := s.parser.cs) hact hmono hbuf hzero
    rwa [Nat.zero_add] at this

/-- What `execute` returns for a buffer that is not empty. -/
theorem execute_eq (s : HttpResponseParser) {buf : List UInt8} (hbuf : buf ≠ []) :
    s.execute buf false = some
      ((httpclientParserExecute s buf).1, buf.length - (execBuf s buf).rest.length,
        buf.drop (buf.length - (execBuf s buf).rest.length)) := by
  obtain ⟨hmark, hstart, hlen⟩ := execBuf_marked s hbuf
  have hpos := List.length_pos_iff.2 hbuf
  rw [HttpResponseParser.execute, if_neg Bool.false_ne_true]
  simp only [httpclientParserExecute]
  rw [if_pos ⟨by omega, by omega, by omega⟩, Option.map_some]

end Client

end Http

end YXTWebCpp
