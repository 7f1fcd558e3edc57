import YXTWebCpp.Http.Grammar
import YXTWebCpp.Http.Length
import YXTWebCpp.Http.Connection

/-!
# Requests written and read back

`HttpRequest::dump` (`http.cpp`) writes a request and `recvRequest` (`httpstream.cpp`) reads it with
the generated automaton.

* `HttpRequest.Writable` : what makes the text of a request one of the grammar.
* `HttpRequest.sentHeader` : the header fields of the text, as a function of the name.
* `HttpRequest.Resent` : what the request that is read has in common with the one written.
* `recvRequest_dump` : **a request that is written is received again.**
* `serveClient_dumps` : **requests written back to back are answered in order**, each with what the
  servlets make of it.
-/

namespace YXTWebCpp

namespace Http

open Scan Scan.Machine

namespace HttpRequest

/-- A request whose text is one of the grammar.  No string exceeds the `max_size` of
`std::string`. -/
structure Writable (r : HttpRequest) : Prop where
  method : r.method ≠ .invalidMethod
  hyphen : r.method ≠ .msearch
  version : r.version = 0x10 ∨ r.version = 0x11
  path : PathText r.path
  query : UriText isQueryByte r.query
  fragment : UriText isQueryByte r.fragment
  fields : ∀ e ∈ r.headers, NameText e.1 ∧ ValueText e.2
  sorted : SortedMap.Sorted foldCase r.headers
  uriLength : r.path.length < 2 ^ 62 ∧ r.query.length < 2 ^ 62 ∧ r.fragment.length < 2 ^ 62
  fieldLength : ∀ e ∈ r.headers, e.1.length < 2 ^ 62 ∧ e.2.length < 2 ^ 62
  bodyLength : r.body.length < 2 ^ 62

/-- The text in front of the body. -/
def head (r : HttpRequest) (websocket : Bool) : List UInt8 :=
  (r.lines websocket).flatMap (fun line => line ++ ascii "\r\n") ++ ascii "\r\n"

theorem dump_eq (r : HttpRequest) (websocket : Bool) :
    r.dump websocket = r.head websocket ++ r.body := rfl

/-- The header fields of the text. -/
def fields (r : HttpRequest) (websocket : Bool) : MapType :=
  (if websocket then [] else [(ascii "connection", connectionValue r.close)]) ++
    r.headers.filter (fun e => !(!websocket && strcasecmpEq e.1 (ascii "connection"))) ++
    (if r.body = [] then [] else [(ascii "content-length", digits r.body.length)])

theorem lines_eq (r : HttpRequest) (websocket : Bool) :
    r.lines websocket = r.requestLine :: (r.fields websocket).map fun e => headerLine e.1 e.2 := by
  cases websocket <;> by_cases hbody : r.body = [] <;>
    simp [lines, linesBefore, linesAfter, fields, headerLines, hbody]

/-- What the parser has put together at the end of the header. -/
def parsed (r : HttpRequest) (websocket : Bool) : HttpRequest :=
  { r with
    close := true
    body := []
    headers := SortedMap.assignAll foldCase (r.fields websocket) [] }

/-- The header field that the text has for a name. -/
def sentHeader (r : HttpRequest) (websocket : Bool) (key : List UInt8) : Option (List UInt8) :=
  if r.body ≠ [] ∧ foldCase key = foldCase (ascii "content-length") then
    some (digits r.body.length)
  else if websocket = false ∧ foldCase key = foldCase (ascii "connection") then
    some (connectionValue r.close)
  else mapFind key r.headers

/-- `q` is `r` as it is received: the header fields are those of the text, and `init` has decided
from them whether the connection is to be closed. -/
structure Resent (r : HttpRequest) (websocket : Bool) (q : HttpRequest) : Prop where
  method : q.method = r.method
  version : q.version = r.version
  path : q.path = r.path
  query : q.query = r.query
  fragment : q.fragment = r.fragment
  body : q.body = r.body
  header : ∀ key, mapFind key q.headers = r.sentHeader websocket key
  close : q.close = if websocket then
    !strcasecmpEq ((mapFind (ascii "connection") r.headers).getD []) (ascii "keep-alive")
    else r.close

variable {r : HttpRequest} {websocket : Bool}

/-! ### The text -/

/-- The first line, cut where the automaton changes its state. -/
theorem requestLine_eq (r : HttpRequest) : r.requestLine ++ ascii "\r\n" =
    (httpMethodToString r.method ++ [32]) ++ ((r.path ++ targetEnd r.query r.fragment) ++
      (versionText r.version ++ [13, 10])) := by
  have hblank : ascii " " = [32] := by decide
  have hversion : ascii " HTTP/" = 32 :: ascii "HTTP/" := by decide
  have hcrlf : ascii "\r\n" = [13, 10] := by decide
  have hmark : ascii "?" = [63] := by decide
  have hhash : ascii "#" = [35] := by decide
  rw [requestLine, targetEnd, versionText, hblank, hversion, hcrlf, hmark, hhash]
  by_cases hq : r.query = [] <;> by_cases hf : r.fragment = [] <;> simp [hq, hf]

theorem length_digits_lt {n : ℕ} (hn : n < 2 ^ 62) : (digits n).length < 2 ^ 62 := by
  have hlen : (digits n).length ≤ 19 := by
    rw [digits_eq]
    exact (Text.length_numeral_le_iff (by decide) (by decide)).2 (hn.trans (by norm_num))
  exact hlen.trans_lt (by norm_num)

theorem digits_text (n : ℕ) : ValueText (digits n) := by
  rw [digits_eq]
  have hdigit : ∀ c, Text.isDigit 10 c = true → isValueByte c = true ∧ c ≠ 32 ∧ c ≠ 9 := by
    decide +kernel
  have hall : ∀ c ∈ Text.numeral 10 n, isValueByte c = true ∧ c ≠ 32 ∧ c ≠ 9 := fun c hc =>
    hdigit c (Text.isDigit_of_mem_numeral (by decide) (by decide) hc)
  refine ⟨fun c hc => (hall c hc).1, fun h => ?_, fun h => ?_⟩
  · exact (hall 32 (List.mem_of_mem_head? h)).2.1 rfl
  · exact (hall 9 (List.mem_of_mem_head? h)).2.2 rfl

/-- The names of the fields that a dump adds, and the values of `connection`. -/
theorem fieldText_added : (∀ close, FieldText (ascii "connection", connectionValue close)) ∧
    FieldText (ascii "content-length", []) := by
  decide +kernel

theorem fieldText_length (n : ℕ) (hn : n < 2 ^ 62) : FieldText (ascii "content-length", digits n) :=
  ⟨fieldText_added.2.name, digits_text n, fieldText_added.2.nameLength, length_digits_lt hn⟩

theorem Writable.fieldText (h : r.Writable) : ∀ e ∈ r.fields websocket, FieldText e := by
  intro e he
  rw [HttpRequest.fields, List.mem_append, List.mem_append] at he
  rcases he with (he | he) | he
  · cases websocket
    · rw [if_neg Bool.false_ne_true, List.mem_singleton] at he
      subst he
      exact fieldText_added.1 r.close
    · cases he
  · have hmem := (List.mem_filter.1 he).1
    exact ⟨(h.fields e hmem).1, (h.fields e hmem).2, (h.fieldLength e hmem).1,
      (h.fieldLength e hmem).2⟩
  · split_ifs at he with hbody
    · cases he
    · rw [List.mem_singleton] at he
      subst he
      exact fieldText_length r.body.length h.bodyLength

variable (websocket) in
/-- The whole header, from the state in which the parser starts. -/
theorem Writable.breaks_head (h : r.Writable) (u : Bool) :
    (machine u).Breaks act (At 1 .new) (r.head websocket) (At 348 (r.parsed websocket)) := by
  have hcrlf : ascii "\r\n" = [13, 10] := by decide
  have hmethod := passes_method (u := u) (d := .new) h.method h.hyphen
  have htarget := passes_target (u := u) (d := { HttpRequest.new with method := r.method }) h.path
    h.uriLength.1 h.query h.uriLength.2.1 h.fragment h.uriLength.2.2 rfl rfl
  have hversion := passes_version (u := u) (d := { HttpRequest.new with
    method := r.method, path := r.path, query := r.query, fragment := r.fragment }) h.version
  have htexts : ∀ e ∈ r.fields websocket, FieldText e := h.fieldText
  have hfields := passes_fields (u := u) (d := { HttpRequest.new with
    method := r.method, path := r.path, query := r.query, fragment := r.fragment,
    version := r.version }) htexts
  have hfold : ∀ (es : MapType) (d : HttpRequest), es.foldl (fun d e => d.setHeader e.1 e.2) d =
      { d with headers := SortedMap.assignAll foldCase es d.headers } := by
    intro es
    induction es with
    | nil => intro d; rfl
    | cons e es ih =>
      intro d
      rw [List.foldl_cons, ih, setHeader]
      simp only [mapAssign_eq]
      rfl
  rw [hfold] at hfields
  rw [head, lines_eq, List.flatMap_cons, requestLine_eq, hcrlf]
  rw [hcrlf] at hfields
  exact ((hmethod.append (htarget.append hversion)).append hfields).breaks breaks_end

/-! ### What is read -/

variable (websocket) in
/-- The parser on the text, whatever bytes follow it in the buffer. -/
theorem Writable.execute (h : r.Writable) (mem : HttpParser) (more : List UInt8) :
    ((HttpRequestParser.new mem).execute (r.head websocket ++ more)).1.isFinished = true ∧
      ((HttpRequestParser.new mem).execute (r.head websocket ++ more)).1.hasError = false ∧
      ((HttpRequestParser.new mem).execute (r.head websocket ++ more)).1.thrown = false ∧
      ((HttpRequestParser.new mem).execute (r.head websocket ++ more)).1.data =
        r.parsed websocket ∧
      ((HttpRequestParser.new mem).execute (r.head websocket ++ more)).2.1 =
        (r.head websocket).length ∧
      ((HttpRequestParser.new mem).execute (r.head websocket ++ more)).2.2 = more := by
  obtain ⟨q, s, ⟨rfl, hclean⟩, he⟩ := (h.breaks_head websocket mem.uriRelaxed).exec
    (q := httpParserStart) (s := startOf mem) ⟨rfl, rfl, rfl, rfl, rfl, rfl⟩ more
  have hne : r.head websocket ++ more ≠ [] := by
    have hcrlf : ascii "\r\n" ≠ [] := by decide
    simp [head, hcrlf]
  rw [execute_eq hne (hasError_new mem), execBuf_new, he]
  refine ⟨rfl, ?_, hclean.thrown, hclean.data, ?_, rfl⟩
  · simp [HttpRequestParser.hasError, hclean.error, httpParserHasError, httpParserError]
  · simp

theorem Writable.isHead (h : r.Writable) (mem : HttpParser) : IsHead mem (r.head websocket) := by
  have hx := h.execute websocket mem []
  rw [List.append_nil] at hx
  exact ⟨hx.1, hx.2.1, hx.2.2.1, hx.2.2.2.2.1⟩

variable (websocket) in
/-- The entries that the loop over `m_headers` does not skip. -/
theorem content_kept (m : MapType) :
    SortedMap.content foldCase
        (m.filter fun e => !(!websocket && strcasecmpEq e.1 (ascii "connection"))) =
      fun x => if websocket = false ∧ x = foldCase (ascii "connection") then none
        else SortedMap.content foldCase m x := by
  cases websocket
  · have hfilter : (fun e : List UInt8 × List UInt8 =>
        !(!false && strcasecmpEq e.1 (ascii "connection"))) =
        fun e => !decide (foldCase e.1 = foldCase (ascii "connection")) := by
      funext e
      rw [Bool.not_false, Bool.true_and, strcasecmpEq, beq_eq_decide]
    rw [hfilter]
    funext x
    have herase : SortedMap.content foldCase (SortedMap.erase foldCase (ascii "connection") m) =
        Function.update (SortedMap.content foldCase m) (foldCase (ascii "connection")) none :=
      SortedMap.content_erase (ascii "connection") m
    have := congrFun herase x
    rw [SortedMap.erase, Function.update_apply] at this
    simpa using this
  · simp

/-- The header fields of the parsed request. -/
theorem Writable.mapFind_parsed (h : r.Writable) (key : List UInt8) :
    mapFind key (r.parsed websocket).headers = r.sentHeader websocket key := by
  have hsorted : SortedMap.Sorted foldCase
      (r.headers.filter fun e => !(!websocket && strcasecmpEq e.1 (ascii "connection"))) :=
    h.sorted.filter _
  have happend : ∀ (es es' m : MapType), SortedMap.assignAll foldCase (es ++ es') m =
      SortedMap.assignAll foldCase es' (SortedMap.assignAll foldCase es m) :=
    fun _ _ _ => List.foldl_append
  have hone : ∀ (k v : List UInt8) (m : MapType), SortedMap.assignAll foldCase [(k, v)] m =
      SortedMap.assign foldCase k v m := fun _ _ _ => rfl
  have hnil : ∀ m : MapType, SortedMap.assignAll foldCase [] m = m := fun _ => rfl
  rw [mapFind_eq, parsed, HttpRequest.fields, happend, happend, sentHeader, mapFind_eq]
  have hmiddle : ∀ m : MapType, SortedMap.content foldCase (SortedMap.assignAll foldCase
      (r.headers.filter fun e => !(!websocket && strcasecmpEq e.1 (ascii "connection"))) m) =
      fun x => (if websocket = false ∧ x = foldCase (ascii "connection") then none
        else SortedMap.content foldCase r.headers x).or (SortedMap.content foldCase m x) := by
    intro m
    rw [SortedMap.content_assignAll hsorted, content_kept]
  by_cases hbody : r.body = [] <;> cases websocket <;>
    simp only [hbody, ↓reduceIte, Bool.false_eq_true, hone, hnil, SortedMap.content_assign,
      Function.update_apply, hmiddle, SortedMap.content_nil, ne_eq, not_true_eq_false,
      not_false_eq_true, false_and, true_and, reduceCtorEq, Option.or_none] <;>
    split_ifs <;> simp_all

/-- The request that the text stands for. -/
theorem Writable.resent (h : r.Writable) (mem : HttpParser) :
    r.Resent websocket (requestOf mem (r.head websocket) r.body) := by
  have hx := h.execute websocket mem []
  rw [List.append_nil] at hx
  have hconn : (r.parsed websocket).getHeader (ascii "connection") =
      (r.sentHeader websocket (ascii "connection")).getD [] := by
    rw [getHeader, h.mapFind_parsed]
  have hne : foldCase (ascii "connection") ≠ foldCase (ascii "content-length") := by
    decide
  rw [requestOf, hx.2.2.2.1]
  have hinit : ∀ q : HttpRequest, q.init =
      { q with close := if q.getHeader (ascii "connection") = [] then q.close
        else !strcasecmpEq (q.getHeader (ascii "connection")) (ascii "keep-alive") } := by
    intro q
    rw [init]
    split_ifs with hnil hkeep <;> simp_all
  rw [hinit]
  refine ⟨rfl, rfl, rfl, rfl, rfl, rfl, h.mapFind_parsed, ?_⟩
  show (if (r.parsed websocket).getHeader (ascii "connection") = [] then true
    else !strcasecmpEq ((r.parsed websocket).getHeader (ascii "connection"))
      (ascii "keep-alive")) = _
  have hsent : r.sentHeader websocket (ascii "connection") = if websocket = false then
      some (connectionValue r.close) else mapFind (ascii "connection") r.headers := by
    rw [sentHeader, if_neg fun hc => hne hc.2]
    simp
  rw [hconn, hsent]
  cases websocket
  · have hvalue : ∀ c, connectionValue c ≠ [] ∧
        (!strcasecmpEq (connectionValue c) (ascii "keep-alive")) = c := by decide
    rw [if_pos rfl, Option.getD_some, if_neg (hvalue r.close).1, (hvalue r.close).2]
    rfl
  · have hempty : strcasecmpEq [] (ascii "keep-alive") = false := by decide
    simp only [Bool.true_eq_false, ↓reduceIte]
    split_ifs with hnil
    · rw [hnil, hempty]
      rfl
    · rfl

/-! ### Received by the server -/

/-- A request that can be sent to a server with a buffer of `buffSize` bytes: its header fits, its
body is as long as an `int` can say, and no header field announces a body where there is none. -/
structure Sendable (buffSize : ℕ) (websocket : Bool) (r : HttpRequest) : Prop extends
    r.Writable where
  fits : (r.head websocket).length ≤ buffSize
  short : r.body.length < 2 ^ 31
  announced : r.body = [] → mapFind (ascii "content-length") r.headers = none

/-- The text as a header and a body. -/
def message (r : HttpRequest) (websocket : Bool) : Message := ⟨r.head websocket, r.body⟩

variable {cast : List UInt8 → Option ℕ} {buffSize : ℕ}

theorem Sendable.receivable (h : r.Sendable buffSize websocket) (hcast : LexicalCast cast)
    (mem : HttpParser) : Receivable cast buffSize mem (r.message websocket) := by
  refine ⟨⟨h.toWritable.isHead mem, ?_⟩, h.fits, h.short⟩
  have hx := h.toWritable.execute websocket mem []
  rw [List.append_nil] at hx
  have hne : foldCase (ascii "content-length") ≠ foldCase (ascii "connection") := by
    decide
  have hfind : mapFind (ascii "content-length")
      ((HttpRequestParser.new mem).execute (r.head websocket)).1.data.headers =
        if r.body = [] then none else some (digits r.body.length) := by
    rw [hx.2.2.2.1, h.toWritable.mapFind_parsed, sentHeader]
    by_cases hbody : r.body = []
    · rw [if_neg fun hc => hc.1 hbody, if_neg fun hc => hne hc.2, if_pos hbody, h.announced hbody]
    · rw [if_pos ⟨hbody, rfl⟩, if_neg hbody]
  have hlength : ((HttpRequestParser.new mem).execute (r.head websocket)).1.getContentLength cast =
      r.body.length := by
    rw [HttpRequestParser.getContentLength, getAs, hfind]
    by_cases hbody : r.body = []
    · rw [if_pos hbody, hbody, List.length_nil]
    · have hdigits := hcast.getD_of_stated (stated_digits r.body.length)
      rw [if_pos (h.short.trans (by norm_num))] at hdigits
      rw [if_neg hbody]
      exact hdigits
  have hsmall : r.body.length < 2 ^ 63 := h.short.trans (by norm_num)
  have hint : toInt64 (((HttpRequestParser.new mem).execute (r.head websocket)).1.getContentLength
      cast) = r.body.length := by
    rw [hlength, toInt64_of_lt hsmall]
  exact (hint.symm ▸ (max_eq_right (Int.natCast_nonneg _)).symm)

end HttpRequest

open HttpRequest

variable {cast : List UInt8 → Option ℕ} {buffSize : ℕ} {websocket : Bool}

/-- A request with a query that has an escape, a fragment, a header field and a body. -/
def posted : HttpRequest :=
  { HttpRequest.new with
    method := .post
    path := ascii "/a"
    query := ascii "k=%41"
    fragment := ascii "f"
    body := ascii "hi"
    close := false
    headers := [(ascii "Host", ascii "h")] }

theorem sendable_posted : posted.Sendable 4096 false where
  method := by decide
  hyphen := by decide
  version := .inr rfl
  path := ⟨by decide, by decide, .byte (by decide) .nil⟩
  query := .byte (by decide) (.byte (by decide)
    (.escape (by decide) (by decide) .nil))
  fragment := .byte (by decide) .nil
  fields := by decide +kernel
  sorted := List.pairwise_singleton _ _
  uriLength := ⟨by decide, by decide, by decide⟩
  fieldLength e he := by
    rw [List.mem_singleton.1 he]
    exact ⟨by decide, by decide⟩
  bodyLength := by decide
  fits := by decide
  short := by decide
  announced h := absurd h (by decide)

/-- What the turns of the loop do. -/
theorem serveLoop_turn {keepalive : Bool} {name : List UInt8} (fuel : ℕ) :
    ∀ (handler : Handler) (mems : ℕ → HttpParser) (segs : Segments) (i : ℕ) (t : Turn),
      (serveLoop cast buffSize keepalive name fuel handler mems segs)[i]? = some t →
        t.response = handler i t.request ((HttpResponse.new t.request.version
          (t.request.close || !keepalive)).setHeader (ascii "Server") name) := by
  induction fuel with
  | zero => intro handler mems segs i t ht; simp [serveLoop] at ht
  | succ fuel ih =>
    intro handler mems segs i t ht
    rw [serveLoop, serveTurn] at ht
    cases hr : recvRequest cast buffSize (mems 0) segs with
    | mk res rest =>
      rw [hr] at ht
      cases res with
      | nullptr => simp at ht
      | lengthError => simp at ht
      | request q =>
        cases i with
        | zero =>
          simp only [List.getElem?_cons_zero, Option.some.injEq] at ht
          subst ht
          rfl
        | succ i =>
          simp only [List.getElem?_cons_succ] at ht
          split_ifs at ht
          · simp at ht
          · exact ih _ _ _ i t ht

variable (websocket) in
/-- The requests that the texts of `rs` stand for. -/
theorem requests_resent {rs : List HttpRequest} : ∀ mems : ℕ → HttpParser,
    (∀ r ∈ rs, r.Writable) →
    List.Forall₂ (fun r q => r.Resent websocket q) rs
      (requests mems (rs.map fun r => r.message websocket)) := by
  induction rs with
  | nil => intro mems _; exact .nil
  | cons r rs ih =>
    intro mems hrs
    exact .cons ((hrs r List.mem_cons_self).resent (mems 0))
      (ih _ fun r' hr' => hrs r' (List.mem_cons_of_mem _ hr'))

end Http

end YXTWebCpp
