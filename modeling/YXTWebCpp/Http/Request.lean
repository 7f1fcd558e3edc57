import Mathlib.Algebra.Ring.Int.Defs
import Mathlib.Algebra.Ring.Nat
import Mathlib.Data.Fintype.Card
import Mathlib.Data.List.Find
import Mathlib.Data.List.TakeWhile

/-!
# HTTP requests

The data of `http.hpp` and `http.cpp` that the request parser fills in: request methods, the
case-insensitive header map and the request itself.  Strings are lists of bytes.

The C functions that the code calls on strings are defined here by what they are documented to
compute: `strncmpEq` and `strcasecmpEq` say when `strncmp` and `strcasecmp` return `0`.
`boost::lexical_cast<uint64_t>` is a parameter wherever it is used: it is not part of the
repository.
-/

namespace YXTWebCpp

namespace Http

/-- The bytes of an ASCII text. -/
def ascii (s : String) : List UInt8 := s.toList.map fun c => c.toNat.toUInt8

/-- The C string that starts at a given place of memory: it ends in front of the first NUL. -/
def cstr (m : List UInt8) : List UInt8 := m.takeWhile (· != 0)

/-- `strncmp(a, b, n) == 0`. -/
def strncmpEq (a b : List UInt8) (n : ℕ) : Bool := (cstr a).take n == (cstr b).take n

/-- `tolower` in the C locale. -/
def toLower (c : UInt8) : UInt8 := if 65 ≤ c ∧ c ≤ 90 then c + 32 else c

/-- What `strcasecmp` looks at: the C string in lower case. -/
def foldCase (s : List UInt8) : List UInt8 := (cstr s).map toLower

/-- `strcasecmp(a, b) == 0`. -/
def strcasecmpEq (a b : List UInt8) : Bool := foldCase a == foldCase b

/-! ### Methods -/

/-- `HttpMethod`. -/
inductive HttpMethod where
  | delete | get | head | post | put
  | connect | options | trace
  | copy | lock | mkcol | move | propfind | proppatch | search | unlock | bind | rebind | unbind
  | acl
  | report | mkactivity | checkout | merge
  | msearch | notify | subscribe | unsubscribe
  | patch | purge
  | mkcalendar
  | link | unlink
  | source
  | invalidMethod
  deriving DecidableEq, Repr

/-- `HTTP_METHOD_MAP`: the methods with their names, in the order of the source. -/
def httpMethodMap : List (HttpMethod × List UInt8) := [
  (.delete, ascii "DELETE"), (.get, ascii "GET"), (.head, ascii "HEAD"), (.post, ascii "POST"),
  (.put, ascii "PUT"),
  (.connect, ascii "CONNECT"), (.options, ascii "OPTIONS"), (.trace, ascii "TRACE"),
  (.copy, ascii "COPY"), (.lock, ascii "LOCK"), (.mkcol, ascii "MKCOL"), (.move, ascii "MOVE"),
  (.propfind, ascii "PROPFIND"), (.proppatch, ascii "PROPPATCH"), (.search, ascii "SEARCH"),
  (.unlock, ascii "UNLOCK"), (.bind, ascii "BIND"), (.rebind, ascii "REBIND"),
  (.unbind, ascii "UNBIND"), (.acl, ascii "ACL"),
  (.report, ascii "REPORT"), (.mkactivity, ascii "MKACTIVITY"), (.checkout, ascii "CHECKOUT"),
  (.merge, ascii "MERGE"),
  (.msearch, ascii "M-SEARCH"), (.notify, ascii "NOTIFY"), (.subscribe, ascii "SUBSCRIBE"),
  (.unsubscribe, ascii "UNSUBSCRIBE"),
  (.patch, ascii "PATCH"), (.purge, ascii "PURGE"),
  (.mkcalendar, ascii "MKCALENDAR"),
  (.link, ascii "LINK"), (.unlink, ascii "UNLINK"),
  (.source, ascii "SOURCE")]

/-- `CharsToHttpMethod`: the first method whose name stands at the pointer. -/
def charsToHttpMethod (m : List UInt8) : HttpMethod :=
  match httpMethodMap.find? fun e => strncmpEq e.2 m e.2.length with
  | some e => e.1
  | none => .invalidMethod

/-! ### Header maps -/

/-- `CaseInsensitiveLess`. -/
def caseInsensitiveLess (lhs rhs : List UInt8) : Bool := decide (foldCase lhs < foldCase rhs)

/-- `std::map<std::string, std::string, CaseInsensitiveLess>`: its entries in iteration order. -/
abbrev MapType := List (List UInt8 × List UInt8)

/-- `m[key] = val`: an entry with an equivalent key keeps its key. -/
def mapAssign (key val : List UInt8) : MapType → MapType
  | [] => [(key, val)]
  | e :: m =>
    if caseInsensitiveLess key e.1 then (key, val) :: e :: m
    else if caseInsensitiveLess e.1 key then e :: mapAssign key val m
    else (e.1, val) :: m

/-- `m.find(key)`. -/
def mapFind (key : List UInt8) (m : MapType) : Option (List UInt8) :=
  (m.find? fun e => !caseInsensitiveLess e.1 key && !caseInsensitiveLess key e.1).map Prod.snd

/-- `getAs<uint64_t>(m, key, def)`, where `cast` is `boost::lexical_cast<uint64_t>`, `none` when
it throws. -/
def getAs (cast : List UInt8 → Option ℕ) (m : MapType) (key : List UInt8) (dflt : ℕ) : ℕ :=
  match mapFind key m with
  | none => dflt
  | some v => (cast v).getD dflt

/-! ### Requests -/

/-- `HttpRequest`, without the lazily parsed parameters and cookies. -/
structure HttpRequest where
  /-- `m_method` -/
  method : HttpMethod
  /-- `m_version` -/
  version : UInt8
  /-- `m_close` -/
  close : Bool
  /-- `m_path` -/
  path : List UInt8
  /-- `m_query` -/
  query : List UInt8
  /-- `m_fragment` -/
  fragment : List UInt8
  /-- `m_body` -/
  body : List UInt8
  /-- `m_headers` -/
  headers : MapType
  deriving DecidableEq, Repr

/-- `HttpRequest()`, with the default arguments of the constructor. -/
def HttpRequest.new : HttpRequest where
  method := .get
  version := 0x11
  close := true
  path := ascii "/"
  query := []
  fragment := []
  body := []
  headers := []

/-- `HttpRequest::getHeader` with the default `""`. -/
def HttpRequest.getHeader (r : HttpRequest) (key : List UInt8) : List UInt8 :=
  (mapFind key r.headers).getD []

/-- `HttpRequest::setHeader` -/
def HttpRequest.setHeader (r : HttpRequest) (key val : List UInt8) : HttpRequest :=
  { r with headers := mapAssign key val r.headers }

/-- `HttpRequest::init`: the `connection` header decides `m_close`. -/
def HttpRequest.init (r : HttpRequest) : HttpRequest :=
  let conn := r.getHeader (ascii "connection")
  if conn = [] then r
  else if strcasecmpEq conn (ascii "keep-alive") then { r with close := false }
  else { r with close := true }

/-! ### Method names -/

/-- No method name holds a space or a NUL. -/
theorem httpMethodMap_names :
    ∀ e ∈ httpMethodMap, ∀ c ∈ e.2, c ≠ 32 ∧ c ≠ 0 := by
  decide +kernel

theorem cstr_of_no_nul {s : List UInt8} (h : ∀ c ∈ s, c ≠ 0) : cstr s = s := by
  exact List.takeWhile_eq_self_iff.2 fun c hc => by simpa using h c hc

theorem cstr_append_cons (tok r : List UInt8) {c : UInt8} (hc : c ≠ 0) :
    cstr (tok ++ c :: r) = cstr tok ∨ ∃ r', cstr (tok ++ c :: r) = cstr tok ++ c :: r' := by
  unfold cstr
  rw [List.takeWhile_append]
  split_ifs with h
  · refine .inr ⟨r.takeWhile (· != 0), ?_⟩
    have ht : tok.takeWhile (· != 0) = tok :=
      (List.takeWhile_prefix _).eq_of_length h
    rw [ht, List.takeWhile_cons_of_pos (by simpa using hc)]
  · exact .inl rfl

/-- Comparing a name without spaces does not look behind a space. -/
theorem strncmpEq_append_space (name tok r : List UInt8) (hn : ∀ c ∈ name, c ≠ 32 ∧ c ≠ 0) :
    strncmpEq name (tok ++ 32 :: r) name.length = (name.isPrefixOf (cstr tok)) := by
  have hname : (cstr name).take name.length = name := by
    rw [cstr_of_no_nul fun c hc => (hn c hc).2, List.take_length]
  have key : name = (cstr (tok ++ 32 :: r)).take name.length ↔ name <+: cstr tok := by
    rcases cstr_append_cons tok r (c := 32) (by decide) with h | ⟨r', h⟩
    · rw [h, List.prefix_iff_eq_take]
    · rw [h]
      constructor
      · intro he
        by_contra hp
        have hlt : (cstr tok).length < name.length := by
          by_contra hle
          rw [List.take_append_of_le_length (by omega)] at he
          exact hp (List.prefix_iff_eq_take.2 he)
        obtain ⟨k, hk⟩ := Nat.exists_eq_add_of_lt hlt
        rw [List.take_append, hk, List.take_of_length_le (by omega)] at he
        have h32 : (32 : UInt8) ∈ name := by
          rw [he, show (cstr tok).length + k + 1 - (cstr tok).length = k + 1 by omega]
          simp
        exact (hn 32 h32).1 rfl
      · intro hp
        rw [List.take_append_of_le_length hp.length_le]
        exact List.prefix_iff_eq_take.1 hp
  rw [Bool.eq_iff_iff, strncmpEq, hname, beq_iff_eq, key, List.isPrefixOf_iff_prefix]

/-- The method found at a pointer depends only on the bytes in front of the next space. -/
theorem charsToHttpMethod_append_space (tok r r' : List UInt8) :
    charsToHttpMethod (tok ++ 32 :: r) = charsToHttpMethod (tok ++ 32 :: r') := by
  have : ∀ e ∈ httpMethodMap, strncmpEq e.2 (tok ++ 32 :: r) e.2.length =
      strncmpEq e.2 (tok ++ 32 :: r') e.2.length := fun e he => by
    rw [strncmpEq_append_space _ _ _ (httpMethodMap_names e he),
      strncmpEq_append_space _ _ _ (httpMethodMap_names e he)]
  unfold charsToHttpMethod
  rw [List.find?_congr this]

end Http

end YXTWebCpp
