import YXTWebCpp.Http.Request

/-!
# HTTP responses

`HttpResponse` (`http.hpp`, `http.cpp`): what a servlet fills in, and the text that `dump` writes of
it.  The text is kept as the list of lines that `dump` writes one after another, and the body.

* `HttpResponse` : the response, `HttpResponse.new` as the server constructs it.
* `HttpResponse.lines`, `HttpResponse.dump` : the lines of the head, and the whole text.
* `connection_mem_lines` : which `connection` line is among them.
-/

namespace YXTWebCpp

namespace Http

/-- `HttpStatus` -/
inductive HttpStatus where
  | continue_ | switchingProtocols | processing | ok | created | accepted
  | nonAuthoritativeInformation | noContent | resetContent | partialContent | multiStatus
  | alreadyReported | imUsed | multipleChoices | movedPermanently | found | seeOther
  | notModified | useProxy | temporaryRedirect | permanentRedirect | badRequest | unauthorized
  | paymentRequired | forbidden | notFound | methodNotAllowed | notAcceptable
  | proxyAuthenticationRequired | requestTimeout | conflict | gone | lengthRequired
  | preconditionFailed | payloadTooLarge | uriTooLong | unsupportedMediaType
  | rangeNotSatisfiable | expectationFailed | misdirectedRequest | unprocessableEntity | locked
  | failedDependency | upgradeRequired | preconditionRequired | tooManyRequests
  | requestHeaderFieldsTooLarge | unavailableForLegalReasons | internalServerError
  | notImplemented | badGateway | serviceUnavailable | gatewayTimeout | httpVersionNotSupported
  | variantAlsoNegotiates | insufficientStorage | loopDetected | notExtended
  | networkAuthenticationRequired
  deriving DecidableEq, Repr

/-- `HTTP_STATUS_MAP`: the status codes with their numbers and texts, in the order of the source. -/
def httpStatusMap : List (HttpStatus × ℕ × List UInt8) := [
  (.continue_, 100, ascii "Continue"), (.switchingProtocols, 101, ascii "Switching Protocols"),
  (.processing, 102, ascii "Processing"), (.ok, 200, ascii "OK"),
  (.created, 201, ascii "Created"), (.accepted, 202, ascii "Accepted"),
  (.nonAuthoritativeInformation, 203, ascii "Non-Authoritative Information"),
  (.noContent, 204, ascii "No Content"), (.resetContent, 205, ascii "Reset Content"),
  (.partialContent, 206, ascii "Partial Content"), (.multiStatus, 207, ascii "Multi-Status"),
  (.alreadyReported, 208, ascii "Already Reported"), (.imUsed, 226, ascii "IM Used"),
  (.multipleChoices, 300, ascii "Multiple Choices"),
  (.movedPermanently, 301, ascii "Moved Permanently"), (.found, 302, ascii "Found"),
  (.seeOther, 303, ascii "See Other"), (.notModified, 304, ascii "Not Modified"),
  (.useProxy, 305, ascii "Use Proxy"), (.temporaryRedirect, 307, ascii "Temporary Redirect"),
  (.permanentRedirect, 308, ascii "Permanent Redirect"), (.badRequest, 400, ascii "Bad Request"),
  (.unauthorized, 401, ascii "Unauthorized"), (.paymentRequired, 402, ascii "Payment Required"),
  (.forbidden, 403, ascii "Forbidden"), (.notFound, 404, ascii "Not Found"),
  (.methodNotAllowed, 405, ascii "Method Not Allowed"),
  (.notAcceptable, 406, ascii "Not Acceptable"),
  (.proxyAuthenticationRequired, 407, ascii "Proxy Authentication Required"),
  (.requestTimeout, 408, ascii "Request Timeout"), (.conflict, 409, ascii "Conflict"),
  (.gone, 410, ascii "Gone"), (.lengthRequired, 411, ascii "Length Required"),
  (.preconditionFailed, 412, ascii "Precondition Failed"),
  (.payloadTooLarge, 413, ascii "Payload Too Large"), (.uriTooLong, 414, ascii "URI Too Long"),
  (.unsupportedMediaType, 415, ascii "Unsupported Media Type"),
  (.rangeNotSatisfiable, 416, ascii "Range Not Satisfiable"),
  (.expectationFailed, 417, ascii "Expectation Failed"),
  (.misdirectedRequest, 421, ascii "Misdirected Request"),
  (.unprocessableEntity, 422, ascii "Unprocessable Entity"), (.locked, 423, ascii "Locked"),
  (.failedDependency, 424, ascii "Failed Dependency"),
  (.upgradeRequired, 426, ascii "Upgrade Required"),
  (.preconditionRequired, 428, ascii "Precondition Required"),
  (.tooManyRequests, 429, ascii "Too Many Requests"),
  (.requestHeaderFieldsTooLarge, 431, ascii "Request Header Fields Too Large"),
  (.unavailableForLegalReasons, 451, ascii "Unavailable For Legal Reasons"),
  (.internalServerError, 500, ascii "Internal Server Error"),
  (.notImplemented, 501, ascii "Not Implemented"), (.badGateway, 502, ascii "Bad Gateway"),
  (.serviceUnavailable, 503, ascii "Service Unavailable"),
  (.gatewayTimeout, 504, ascii "Gateway Timeout"),
  (.httpVersionNotSupported, 505, ascii "HTTP Version Not Supported"),
  (.variantAlsoNegotiates, 506, ascii "Variant Also Negotiates"),
  (.insufficientStorage, 507, ascii "Insufficient Storage"),
  (.loopDetected, 508, ascii "Loop Detected"), (.notExtended, 510, ascii "Not Extended"),
  (.networkAuthenticationRequired, 511, ascii "Network Authentication Required")]

/-- The number of a status. -/
def HttpStatus.code (s : HttpStatus) : ℕ :=
  match httpStatusMap.find? fun e => e.1 == s with
  | some e => e.2.1
  | none => 0

/-- `HttpStatusToString` -/
def httpStatusToString (s : HttpStatus) : List UInt8 :=
  match httpStatusMap.find? fun e => e.1 == s with
  | some e => e.2.2
  | none => ascii "<unknown>"

/-- Every status is in the table. -/
theorem httpStatusMap_complete (s : HttpStatus) :
    (httpStatusMap.find? fun e => e.1 == s).isSome = true := by
  cases s <;> rfl

/-- `HttpResponse` -/
structure HttpResponse where
  /-- `m_status` -/
  status : HttpStatus
  /-- `m_version` -/
  version : UInt8
  /-- `m_close` -/
  close : Bool
  /-- `m_websocket` -/
  websocket : Bool
  /-- `m_body` -/
  body : List UInt8
  /-- `m_reason` -/
  reason : List UInt8
  /-- `m_headers` -/
  headers : MapType
  /-- `m_cookies` -/
  cookies : List (List UInt8)
  deriving DecidableEq

/-- `HttpResponse(version, close)` -/
def HttpResponse.new (version : UInt8) (close : Bool) : HttpResponse where
  status := .ok
  version := version
  close := close
  websocket := false
  body := []
  reason := []
  headers := []
  cookies := []

/-- `HttpResponse::setHeader` -/
def HttpResponse.setHeader (r : HttpResponse) (key val : List UInt8) : HttpResponse :=
  { r with headers := mapAssign key val r.headers }

/-! ### The text -/

/-- A number as `operator<<` writes it. -/
def digits (n : ℕ) : List UInt8 := ascii (toString n)

/-- A line with a name and a value. -/
def headerLine (name value : List UInt8) : List UInt8 := name ++ ascii ": " ++ value

/-- The value that `dump` writes behind `connection: `. -/
def connectionValue (close : Bool) : List UInt8 :=
  if close then ascii "close" else ascii "keep-alive"

/-- The first line. -/
def HttpResponse.statusLine (r : HttpResponse) : List UInt8 :=
  ascii "HTTP/" ++ digits (r.version >>> 4).toNat ++ ascii "." ++
    digits (r.version &&& 0x0F).toNat ++ ascii " " ++ digits r.status.code ++ ascii " " ++
    (if r.reason = [] then httpStatusToString r.status else r.reason)

/-- The lines that the loop over `m_headers` writes. -/
def HttpResponse.headerLines (r : HttpResponse) : List (List UInt8) :=
  (r.headers.filter fun e => !(!r.websocket && strcasecmpEq e.1 (ascii "connection"))).map
    fun e => headerLine e.1 e.2

/-- The lines that `HttpResponse::dump` writes in front of the empty line. -/
def HttpResponse.lines (r : HttpResponse) : List (List UInt8) :=
  [r.statusLine] ++ r.headerLines ++ r.cookies.map (headerLine (ascii "Set-Cookie")) ++
    (if r.websocket then [] else [headerLine (ascii "connection") (connectionValue r.close)]) ++
    (if r.body = [] then [] else [headerLine (ascii "content-length") (digits r.body.length)])

/-- `HttpResponse::dump` -/
def HttpResponse.dump (r : HttpResponse) : List UInt8 :=
  r.lines.flatMap (fun line => line ++ ascii "\r\n") ++ ascii "\r\n" ++ r.body

/-- The name of a line is what stands in front of its only colon. -/
theorem headerLine_name {name name' value value' : List UInt8} (hname : 58 ∉ name)
    (hvalue : 58 ∉ value) (h : headerLine name value = headerLine name' value') :
    name = name' := by
  have hsplit : ∀ n v : List UInt8, headerLine n v = n ++ 58 :: (32 :: v) := by
    intro n v
    have hsep : ascii ": " = [58, 32] := by decide
    rw [headerLine, hsep, List.append_assoc]
    rfl
  rw [hsplit, hsplit] at h
  have hvalue' : (58 : UInt8) ∉ 32 :: value := by
    simp only [List.mem_cons, not_or]
    exact ⟨by decide, hvalue⟩
  exact ((List.append_cons_inj_of_notMem hname hvalue').1 h).1

theorem connectionValue_inj {c c' : Bool} : connectionValue c = connectionValue c' ↔ c = c' := by
  cases c <;> cases c' <;> decide

/-- **Which `connection` line the text has**: the one for `m_close` and no other, whatever headers,
cookies, reason and body the response has. -/
theorem connection_mem_lines {r : HttpResponse} (hw : r.websocket = false) (c : Bool) :
    headerLine (ascii "connection") (connectionValue c) ∈ r.lines ↔ r.close = c := by
  have hname : (58 : UInt8) ∉ ascii "connection" := by decide
  have hvalue : (58 : UInt8) ∉ connectionValue c := by cases c <;> decide
  constructor
  · intro h
    simp only [HttpResponse.lines, hw, Bool.false_eq_true, ↓reduceIte, List.mem_append,
      List.mem_singleton] at h
    rcases h with (((hs | hh) | hc) | hv) | hl
    · -- the first line starts with another letter
      have := congrArg (List.take 1) hs
      simp only [HttpResponse.statusLine, headerLine, List.append_assoc] at this
      rw [List.take_append_of_le_length (by decide), List.take_append_of_le_length (by decide)]
        at this
      exact absurd this (by decide)
    · -- the loop skips headers of this name
      simp only [HttpResponse.headerLines, List.mem_map, List.mem_filter, hw] at hh
      obtain ⟨e, ⟨-, hskip⟩, he⟩ := hh
      rw [← headerLine_name hname hvalue he.symm] at hskip
      exact absurd hskip (by decide)
    · -- the lines of cookies have another name, and so has the one for the length
      obtain ⟨x, -, hx⟩ := List.mem_map.1 hc
      exact absurd (headerLine_name hname hvalue hx.symm) (by decide)
    · exact (connectionValue_inj.1 (List.append_cancel_left hv)).symm
    · by_cases hb : r.body = []
      · simp [hb] at hl
      · rw [if_neg hb, List.mem_singleton] at hl
        exact absurd (headerLine_name hname hvalue hl) (by decide)
  · rintro rfl
    simp [HttpResponse.lines, hw]

end Http

end YXTWebCpp
