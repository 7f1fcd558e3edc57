import YXTWebCpp.Http.Request
import YXTWebCpp.Http.Http11Parser

/-!
# The request parser

`http_parser` with `http_parser_init` and `http_parser_execute` (`http11_parser.cpp`), the
callbacks `on_request_*` and `HttpRequestParser` (`http_parser.cpp`).

The state number `cs` survives between calls of `execute`, the positions `mark`, `field_start` and
`field_len` are reset by every call, and `query_start` and `uri_relaxed` are never initialised:
they start with whatever the memory of the struct held.

Positions are relative to the buffer of the current call.  A callback gets a pointer into that
buffer, which is modelled by the bytes from there on, and a length of type `size_t`.
-/

namespace YXTWebCpp

namespace Http

/-- `http_parser`, without the callbacks. -/
structure HttpParser where
  /-- `cs` -/
  cs : ℕ
  /-- `body_start` -/
  bodyStart : ℕ
  /-- `content_len` -/
  contentLen : ℤ
  /-- `nread` -/
  nread : ℕ
  /-- `mark` -/
  mark : ℕ
  /-- `field_start` -/
  fieldStart : ℕ
  /-- `field_len` -/
  fieldLen : ℕ
  /-- `query_start` -/
  queryStart : ℕ
  /-- `xml_sent` -/
  xmlSent : Bool
  /-- `json_sent` -/
  jsonSent : Bool
  /-- `uri_relaxed` is not zero. -/
  uriRelaxed : Bool
  deriving DecidableEq, Repr

/-- `http_parser_init`, on the memory the struct was constructed in. -/
def httpParserInit (mem : HttpParser) : HttpParser :=
  { mem with
    cs := httpParserStart
    bodyStart := 0
    contentLen := 0
    mark := 0
    nread := 0
    fieldLen := 0
    fieldStart := 0
    xmlSent := false
    jsonSent := false }

/-- `http_parser_has_error` -/
def httpParserHasError (h : HttpParser) : Bool := h.cs == httpParserError

/-- `http_parser_is_finished` -/
def httpParserIsFinished (h : HttpParser) : Bool := decide (httpParserFirstFinal ≤ h.cs)

/-- `http_parser_finish` -/
def httpParserFinish (h : HttpParser) : ℤ :=
  if httpParserHasError h then -1 else if httpParserIsFinished h then 1 else 0

/-- `HttpRequestParser` -/
structure HttpRequestParser where
  /-- `m_parser` -/
  parser : HttpParser
  /-- `m_data` -/
  data : HttpRequest
  /-- `m_error` -/
  error : ℕ
  /-- A callback has thrown `std::length_error`; whatever it would have done is lost. -/
  thrown : Bool
  deriving DecidableEq, Repr

/-- `HttpRequestParser()` -/
def HttpRequestParser.new (mem : HttpParser) : HttpRequestParser where
  parser := httpParserInit mem
  data := .new
  error := 0
  thrown := false

/-- `HttpRequestParser::hasError` -/
def HttpRequestParser.hasError (s : HttpRequestParser) : Bool :=
  s.error != 0 || httpParserHasError s.parser

/-- `HttpRequestParser::isFinished`, used as a condition. -/
def HttpRequestParser.isFinished (s : HttpRequestParser) : Bool := httpParserFinish s.parser != 0

/-- `HttpRequestParser::getContentLength` -/
def HttpRequestParser.getContentLength (cast : List UInt8 → Option ℕ) (s : HttpRequestParser) :
    ℕ :=
  getAs cast s.data.headers (ascii "content-length") 0

/-! ### Callbacks -/

/-- `std::string(at, length)`: it throws when the length exceeds `max_size`. -/
def stdString (at_ : List UInt8) (length : ℕ) : Option (List UInt8) :=
  if length < 2 ^ 62 then some (at_.take length) else none

/-- Store a string built from a callback's arguments. -/
def HttpRequestParser.store (s : HttpRequestParser) (at_ : List UInt8) (length : ℕ)
    (set : HttpRequest → List UInt8 → HttpRequest) : HttpRequestParser :=
  match stdString at_ length with
  | some v => { s with data := set s.data v }
  | none => { s with thrown := true }

/-- `on_request_method` -/
def onRequestMethod (s : HttpRequestParser) (at_ : List UInt8) : HttpRequestParser :=
  let m := charsToHttpMethod at_
  if m = .invalidMethod then { s with error := 1000 }
  else { s with data := { s.data with method := m } }

/-- `on_request_fragment` -/
def onRequestFragment (s : HttpRequestParser) (at_ : List UInt8) (length : ℕ) :
    HttpRequestParser :=
  s.store at_ length fun d v => { d with fragment := v }

/-- `on_request_path` -/
def onRequestPath (s : HttpRequestParser) (at_ : List UInt8) (length : ℕ) : HttpRequestParser :=
  s.store at_ length fun d v => { d with path := v }

/-- `on_request_query` -/
def onRequestQuery (s : HttpRequestParser) (at_ : List UInt8) (length : ℕ) : HttpRequestParser :=
  s.store at_ length fun d v => { d with query := v }

/-- `on_request_version` -/
def onRequestVersion (s : HttpRequestParser) (at_ : List UInt8) (length : ℕ) :
    HttpRequestParser :=
  if strncmpEq at_ (ascii "HTTP/1.1") length then
    { s with data := { s.data with version := 0x11 } }
  else if strncmpEq at_ (ascii "HTTP/1.0") length then
    { s with data := { s.data with version := 0x10 } }
  else { s with error := 1001 }

/-- `on_request_http_field` -/
def onRequestHttpField (s : HttpRequestParser) (field : List UInt8) (flen : ℕ)
    (value : List UInt8) (vlen : ℕ) : HttpRequestParser :=
  if flen = 0 then { s with error := 1002 }
  else match stdString field flen, stdString value vlen with
    | some k, some v => { s with data := s.data.setHeader k v }
    | _, _ => { s with thrown := true }

/-! ### Actions -/

/-- `LEN(AT, FPC)`: the distance from `at_` to `p` as a `size_t`. -/
def lenTo (at_ p : ℕ) : ℕ := if at_ ≤ p then p - at_ else 2 ^ 64 - (at_ - p)

/-- The actions of the grammar, at position `p` of the buffer.  The callbacks `request_uri` and
`header_done` do nothing. -/
def act (buf : List UInt8) (p : ℕ) (a : Action) (s : HttpRequestParser) : HttpRequestParser :=
  let h := s.parser
  match a with
  | .mark => { s with parser := { h with mark := p } }
  | .startField => { s with parser := { h with fieldStart := p } }
  | .writeField => { s with parser := { h with fieldLen := lenTo h.fieldStart p } }
  | .startValue => { s with parser := { h with mark := p } }
  | .writeValue =>
    onRequestHttpField s (buf.drop h.fieldStart) h.fieldLen (buf.drop h.mark) (lenTo h.mark p)
  | .requestMethod => onRequestMethod s (buf.drop h.mark)
  | .requestUri => s
  | .fragment => onRequestFragment s (buf.drop h.mark) (lenTo h.mark p)
  | .startQuery => { s with parser := { h with queryStart := p } }
  | .queryString => onRequestQuery s (buf.drop h.queryStart) (lenTo h.queryStart p)
  | .httpVersion => onRequestVersion s (buf.drop h.mark) (lenTo h.mark p)
  | .requestPath => onRequestPath s (buf.drop h.mark) (lenTo h.mark p)
  | .done =>
    if h.xmlSent || h.jsonSent then
      { s with parser := { h with bodyStart := h.mark, contentLen := (p : ℤ) - h.mark + 1 } }
    else { s with parser := { h with bodyStart := p + 1 } }
  | .xml => { s with parser := { h with xmlSent := true } }
  | .json => { s with parser := { h with jsonSent := true } }

/-! ### Execution -/

/-- The positions that every call of `http_parser_execute` resets. -/
def resetMarks (h : HttpParser) : HttpParser :=
  { h with nread := 0, mark := 0, fieldLen := 0, fieldStart := 0 }

/-- The main loop of `http_parser_execute` on a buffer. -/
def execBuf (s : HttpRequestParser) (buf : List UInt8) :
    Scan.Outcome ℕ UInt8 HttpRequestParser :=
  (machine s.parser.uriRelaxed).exec (act buf) buf 0 s.parser.cs
    { s with parser := resetMarks s.parser }

/-- `http_parser_execute(&m_parser, data, len, 0)`: the parser afterwards and the number of bytes
consumed.  The error flag is tested on the old state, so the new state is lost only when the parser
had failed before. -/
def httpParserExecute (s : HttpRequestParser) (buf : List UInt8) : HttpRequestParser × ℕ :=
  if buf = [] then (s, 0)
  else
    let o := execBuf s buf
    let n := buf.length - o.rest.length
    let cs := if httpParserHasError s.parser then s.parser.cs else o.state
    ({ o.mem with parser := { o.mem.parser with cs := cs, nread := n } }, n)

/-- `HttpRequestParser::execute`: the parser afterwards, the number of bytes consumed and the bytes
that `memmove` leaves at the head of the buffer. -/
def HttpRequestParser.execute (s : HttpRequestParser) (buf : List UInt8) :
    HttpRequestParser × ℕ × List UInt8 :=
  let r := httpParserExecute s buf
  (r.1, r.2, buf.drop r.2)

end Http

end YXTWebCpp
