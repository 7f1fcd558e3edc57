import YXTWebCpp.Http.Delimited
import YXTWebCpp.LTS.History
import Mathlib.Data.List.Induction
import Mathlib.Order.Defs.Unbundled

/-!
# Maps of headers

The headers of a request and of a response are maps whose keys `CaseInsensitiveLess` compares with
`strcasecmp` (`http.cpp`).

* `strcasecmp` : the loop over the bytes; `strcasecmp_spec` says what it compares.
* `HeaderCall` : a call of `setHeader` or `delHeader`.
* `HttpRequest.dump` : the text of a request.
* `Reflects` : what is found and printed is what the last calls say.
* `headers_reflect` : **the keys are compared without regard to case, and the last writer wins**.
-/

namespace YXTWebCpp

namespace Http

open History

/-! ### The comparison -/

/-- `strcasecmp`: the bytes are compared in lower case up to the first difference or NUL.  A NUL
stands behind the last byte of either string. -/
def strcasecmp : List UInt8 → List UInt8 → ℤ
  | [], b => 0 - (toLower (b.headD 0)).toNat
  | c :: a, b =>
    let result : ℤ := (toLower c).toNat - (toLower (b.headD 0)).toNat
    if result = 0 then if c = 0 then 0 else strcasecmp a b.tail else result

theorem toLower_eq_zero_iff {c : UInt8} : toLower c = 0 ↔ c = 0 := by
  unfold toLower
  split_ifs with h
  · obtain ⟨hlo, hhi⟩ := h
    rw [UInt8.le_iff_toNat_le] at hlo hhi
    have hadd : (c + 32).toNat = c.toNat + 32 := by
      rw [UInt8.toNat_add]
      exact Nat.mod_eq_of_lt (Nat.lt_of_le_of_lt (Nat.add_le_add_right hhi 32) (by decide))
    refine iff_of_false (fun h0 => ?_) fun h0 => ?_
    · rw [h0] at hadd
      exact absurd hadd (by simp)
    · rw [h0] at hlo
      exact absurd hlo (by decide)
  · exact Iff.rfl

theorem foldCase_nil : foldCase [] = [] := rfl

theorem foldCase_cons (c : UInt8) (a : List UInt8) :
    foldCase (c :: a) = if c = 0 then [] else toLower c :: foldCase a := by
  by_cases hc : c = 0
  · simp [foldCase, cstr, hc]
  · simp [foldCase, cstr, hc]

theorem toLower_pos {c : UInt8} (hc : c ≠ 0) : 0 < (toLower c).toNat := by
  refine Nat.pos_of_ne_zero fun h => hc (toLower_eq_zero_iff.1 ?_)
  exact UInt8.toNat_inj.1 h

theorem foldCase_eq_nil_iff {a : List UInt8} : foldCase a = [] ↔ a.headD 0 = 0 := by
  cases a with
  | nil => simp [foldCase_nil]
  | cons c a => simp [foldCase_cons]

/-- The comparison of a string that ends here. -/
theorem strcasecmp_nil_spec (b : List UInt8) :
    (strcasecmp [] b < 0 ↔ [] < foldCase b) ∧ (strcasecmp [] b = 0 ↔ [] = foldCase b) := by
  rw [strcasecmp]
  by_cases hb : b.headD 0 = 0
  · rw [foldCase_eq_nil_iff.2 hb, hb]
    decide
  · have hpos := toLower_pos hb
    obtain ⟨x, l, hl⟩ := List.exists_cons_of_ne_nil (mt foldCase_eq_nil_iff.1 hb)
    rw [hl]
    exact ⟨iff_of_true (by omega) (List.nil_lt_cons x l), iff_of_false (by omega) nofun⟩

/-- A NUL ends the string. -/
theorem strcasecmp_nul_cons (a b : List UInt8) : strcasecmp (0 :: a) b = strcasecmp [] b := by
  simp only [strcasecmp]
  split_ifs with h
  · exact h.symm
  · rfl

/-- The comparison with a string that ends earlier. -/
theorem strcasecmp_cons_pos {c : UInt8} {a b : List UInt8} (hc : c ≠ 0) (hb : b.headD 0 = 0) :
    0 < strcasecmp (c :: a) b := by
  have hpos := toLower_pos hc
  have hzero : (toLower 0).toNat = 0 := by decide
  rw [strcasecmp, hb, hzero, if_neg (by omega)]
  omega

theorem strcasecmp_cons_cons {c d : UInt8} {a b : List UInt8} (hc : c ≠ 0) :
    strcasecmp (c :: a) (d :: b) =
      if (toLower c).toNat = (toLower d).toNat then strcasecmp a b
      else (toLower c).toNat - (toLower d).toNat := by
  show (if ((toLower c).toNat : ℤ) - (toLower d).toNat = 0 then
    if c = 0 then 0 else strcasecmp a b else _) = _
  rw [if_neg hc]
  exact if_congr (by omega) rfl rfl

/-- The result has the sign of the comparison of the strings in lower case. -/
theorem strcasecmp_spec (a b : List UInt8) :
    (strcasecmp a b < 0 ↔ foldCase a < foldCase b) ∧
      (strcasecmp a b = 0 ↔ foldCase a = foldCase b) := by
  induction a generalizing b with
  | nil => exact strcasecmp_nil_spec b
  | cons c a ih =>
    rw [foldCase_cons]
    split_ifs with hc
    · rw [hc, strcasecmp_nul_cons]
      exact strcasecmp_nil_spec b
    · by_cases hb : b.headD 0 = 0
      · have hpos := strcasecmp_cons_pos (a := a) hc hb
        rw [foldCase_eq_nil_iff.2 hb]
        exact ⟨iff_of_false (by omega) (List.not_lt_nil _), iff_of_false (by omega) nofun⟩
      · obtain ⟨d, b, rfl⟩ : ∃ d b', b = d :: b' :=
          List.exists_cons_of_ne_nil fun h => hb (by rw [h]; rfl)
        have hd : d ≠ 0 := hb
        have hinj : toLower c = toLower d ↔ (toLower c).toNat = (toLower d).toNat :=
          UInt8.toNat_inj.symm
        rw [strcasecmp_cons_cons hc, foldCase_cons, if_neg hd, List.cons_lt_cons_iff,
          List.cons.injEq, UInt8.lt_iff_toNat_lt, hinj]
        by_cases h : (toLower c).toNat = (toLower d).toNat
        · rw [if_pos h, (ih b).1, (ih b).2]
          simp [h]
        · rw [if_neg h]
          refine ⟨?_, iff_of_false (by omega) fun heq => h heq.1⟩
          simp only [h, false_and, or_false]
          omega

/-- `CaseInsensitiveLess` as the source has it. -/
theorem caseInsensitiveLess_eq (lhs rhs : List UInt8) :
    caseInsensitiveLess lhs rhs = decide (strcasecmp lhs rhs < 0) :=
  decide_eq_decide.2 (strcasecmp_spec lhs rhs).1.symm

/-- Neither key is before the other one. -/
def Equivalent (lhs rhs : List UInt8) : Prop :=
  ¬ caseInsensitiveLess lhs rhs = true ∧ ¬ caseInsensitiveLess rhs lhs = true

theorem equivalent_iff {a b : List UInt8} : Equivalent a b ↔ foldCase a = foldCase b := by
  rw [Equivalent, caseInsensitiveLess_iff, caseInsensitiveLess_iff]
  constructor
  · rintro ⟨h, h'⟩
    exact Std.le_antisymm (Std.not_lt.1 h') (Std.not_lt.1 h)
  · intro h
    rw [h]
    exact ⟨Std.lt_irrefl, Std.lt_irrefl⟩

theorem isStrictWeakOrder_less :
    IsStrictWeakOrder (List UInt8) fun a b => caseInsensitiveLess a b = true where
  irrefl _ h := Std.lt_irrefl (caseInsensitiveLess_iff.1 h)
  trans _ _ _ hab hbc := caseInsensitiveLess_iff.2
    (Std.lt_trans (caseInsensitiveLess_iff.1 hab) (caseInsensitiveLess_iff.1 hbc))
  incomp_trans _ _ _ hab hbc :=
    equivalent_iff.2 ((equivalent_iff.1 hab).trans (equivalent_iff.1 hbc))

/-! ### Calls on the headers -/

/-- A call on the headers of a request or of a response. -/
inductive HeaderCall where
  | setHeader (key val : List UInt8)
  | delHeader (key : List UInt8)

/-- What a call writes, and under which key without regard to case. -/
def HeaderCall.write : HeaderCall → Option (List UInt8 × Option (List UInt8))
  | .setHeader key val => some (foldCase key, some val)
  | .delHeader key => some (foldCase key, none)

/-- What a call does to `m_headers`. -/
def HeaderCall.apply (m : MapType) : HeaderCall → MapType
  | .setHeader key val => mapAssign key val m
  | .delHeader key => SortedMap.erase foldCase key m

/-- The lines that the loop over `m_headers` prints, in `dump` of either class. -/
def headerLines (websocket : Bool) (m : MapType) : List (List UInt8) :=
  (m.filter fun e => !(!websocket && strcasecmpEq e.1 (ascii "connection"))).map
    fun e => headerLine e.1 e.2

namespace HttpRequest

/-- `HttpRequest::delHeader` -/
def delHeader (r : HttpRequest) (key : List UInt8) : HttpRequest :=
  { r with headers := SortedMap.erase foldCase key r.headers }

/-- `HttpRequest::getHeader` with any default. -/
def getHeaderOr (r : HttpRequest) (key dflt : List UInt8) : List UInt8 :=
  (mapFind key r.headers).getD dflt

/-- `HttpRequest::hasHeader`, with what it writes to `*val` if it returns `true`. -/
def hasHeader (r : HttpRequest) (key : List UInt8) : Option (List UInt8) := mapFind key r.headers

/-- One call. -/
def headerCall (r : HttpRequest) : HeaderCall → HttpRequest
  | .setHeader key val => r.setHeader key val
  | .delHeader key => r.delHeader key

end HttpRequest

namespace HttpResponse

/-- `HttpResponse::getHeader` -/
def getHeaderOr (r : HttpResponse) (key dflt : List UInt8) : List UInt8 :=
  (mapFind key r.headers).getD dflt

/-- One call. -/
def headerCall (r : HttpResponse) : HeaderCall → HttpResponse
  | .setHeader key val => r.setHeader key val
  | .delHeader key => r.delHeader key

end HttpResponse

/-! ### The text of a request -/

/-- `HttpMethodToString` -/
def httpMethodToString (m : HttpMethod) : List UInt8 :=
  match httpMethodMap.find? fun e => e.1 == m with
  | some e => e.2
  | none => ascii "<unknown>"

namespace HttpRequest

/-- The first line. -/
def requestLine (r : HttpRequest) : List UInt8 :=
  httpMethodToString r.method ++ ascii " " ++ r.path ++ (if r.query = [] then [] else ascii "?") ++
    r.query ++ (if r.fragment = [] then [] else ascii "#") ++ r.fragment ++ ascii " HTTP/" ++
    digits (r.version >>> 4).toNat ++ ascii "." ++ digits (r.version &&& 0x0F).toNat

/-- The lines in front of the loop over `m_headers`; `websocket` is `m_websocket`. -/
def linesBefore (r : HttpRequest) (websocket : Bool) : List (List UInt8) :=
  [r.requestLine] ++
    (if websocket then [] else [headerLine (ascii "connection") (connectionValue r.close)])

/-- The lines behind it. -/
def linesAfter (r : HttpRequest) : List (List UInt8) :=
  if r.body = [] then [] else [headerLine (ascii "content-length") (digits r.body.length)]

/-- The lines that `HttpRequest::dump` writes in front of the empty line. -/
def lines (r : HttpRequest) (websocket : Bool) : List (List UInt8) :=
  r.linesBefore websocket ++ headerLines websocket r.headers ++ r.linesAfter

/-- `HttpRequest::dump` -/
def dump (r : HttpRequest) (websocket : Bool) : List UInt8 :=
  (r.lines websocket).flatMap (fun line => line ++ ascii "\r\n") ++ ascii "\r\n" ++ r.body

end HttpRequest

/-! ### The last calls -/

/-- The map holds what the last call for each key has written. -/
structure Tracked (calls : List HeaderCall) (m : MapType) : Prop where
  sorted : SortedMap.Sorted foldCase m
  content : ∀ x v, SortedMap.content foldCase m x = some v ↔
    ∃ n, LastWrite HeaderCall.write calls x n (some v)

theorem tracked_nil : Tracked [] [] where
  sorted := List.Pairwise.nil
  content x v := by simp [SortedMap.content, not_lastWrite_nil]

theorem Tracked.apply {calls : List HeaderCall} {m : MapType} (h : Tracked calls m)
    (c : HeaderCall) : Tracked (calls ++ [c]) (c.apply m) := by
  cases c with
  | setHeader key val =>
    rw [HeaderCall.apply, mapAssign_eq]
    refine ⟨h.sorted.assign key val, ?_⟩
    rw [SortedMap.content_assign]
    exact update_iff h.content rfl
  | delHeader key =>
    refine ⟨h.sorted.erase key, ?_⟩
    rw [HeaderCall.apply, SortedMap.content_erase]
    exact update_iff h.content rfl

theorem tracked_foldl (calls : List HeaderCall) :
    Tracked calls (calls.foldl HeaderCall.apply []) := by
  induction calls using List.reverseRecOn with
  | nil => exact tracked_nil
  | append_singleton calls c ih =>
    rw [List.foldl_append]
    exact ih.apply c

/-- What an object answers and prints is what the last calls say: `getHeader` is its function, and
`lines` are the lines of its `dump`, of which the loop over `m_headers` writes those between
`before` and `after`. -/
structure Reflects (calls : List HeaderCall) (getHeader : List UInt8 → List UInt8 → List UInt8)
    (lines before after : Bool → List (List UInt8)) : Prop where
  set : ∀ key n v, LastWrite HeaderCall.write calls (foldCase key) n (some v) →
    ∀ dflt, getHeader key dflt = v
  unset : ∀ key, (∀ n v, ¬ LastWrite HeaderCall.write calls (foldCase key) n (some v)) →
    ∀ dflt, getHeader key dflt = dflt
  printed : ∀ websocket, ∃ es : MapType,
    lines websocket = before websocket ++ (es.map fun e => headerLine e.1 e.2) ++ after websocket ∧
      es.Pairwise (fun e e' => ¬ Equivalent e.1 e'.1) ∧
      ∀ key v, (∃ e ∈ es, Equivalent e.1 key ∧ e.2 = v) ↔
        (∃ n, LastWrite HeaderCall.write calls (foldCase key) n (some v)) ∧
          (websocket = true ∨ ¬ Equivalent key (ascii "connection"))

namespace Tracked

variable {calls : List HeaderCall} {m : MapType}

theorem mapFind_iff (h : Tracked calls m) (key v : List UInt8) : mapFind key m = some v ↔
    ∃ n, LastWrite HeaderCall.write calls (foldCase key) n (some v) := by
  rw [mapFind_eq]
  exact h.content (foldCase key) v

/-- An entry stands in the map if the last call of its key has set it. -/
theorem mem_iff (h : Tracked calls m) (key v : List UInt8) :
    (∃ e ∈ m, Equivalent e.1 key ∧ e.2 = v) ↔
      ∃ n, LastWrite HeaderCall.write calls (foldCase key) n (some v) := by
  rw [← h.content, SortedMap.content_eq_some_iff h.sorted]
  simp only [equivalent_iff]

/-- An entry is skipped or not with all the keys that are equivalent to its own. -/
theorem skipped_iff {websocket : Bool} {e : List UInt8 × List UInt8} {key : List UInt8}
    (he : Equivalent e.1 key) :
    (!(!websocket && strcasecmpEq e.1 (ascii "connection"))) = true ↔
      websocket = true ∨ ¬ Equivalent key (ascii "connection") := by
  rw [equivalent_iff] at he
  rw [equivalent_iff, strcasecmpEq, he]
  cases websocket <;> simp

theorem reflects (h : Tracked calls m) {getHeader : List UInt8 → List UInt8 → List UInt8}
    {lines before after : Bool → List (List UInt8)}
    (hget : ∀ key dflt, getHeader key dflt = (mapFind key m).getD dflt)
    (hlines : ∀ websocket,
      lines websocket = before websocket ++ headerLines websocket m ++ after websocket) :
    Reflects calls getHeader lines before after where
  set key n v hl dflt := by
    rw [hget, (h.mapFind_iff key v).2 ⟨n, hl⟩, Option.getD_some]
  unset key hno dflt := by
    have hnone : mapFind key m = none := Option.eq_none_iff_forall_ne_some.2 fun v hv => by
      obtain ⟨n, hl⟩ := (h.mapFind_iff key v).1 hv
      exact hno n v hl
    rw [hget, hnone, Option.getD_none]
  printed websocket := by
    refine ⟨_, hlines websocket, ?_, fun key v => ?_⟩
    · refine (h.sorted.imp fun hlt heq => ?_).filter _
      rw [equivalent_iff.1 heq] at hlt
      exact Std.lt_irrefl hlt
    · rw [← h.mem_iff]
      constructor
      · rintro ⟨e, he, hkey, hv⟩
        obtain ⟨hmem, hkept⟩ := List.mem_filter.1 he
        exact ⟨⟨e, hmem, hkey, hv⟩, (skipped_iff hkey).1 hkept⟩
      · rintro ⟨⟨e, hmem, hkey, hv⟩, hkept⟩
        exact ⟨e, List.mem_filter.2 ⟨hmem, (skipped_iff hkey).2 hkept⟩, hkey, hv⟩

end Tracked

/-! ### Requests and responses -/

namespace HttpRequest

theorem headers_foldl (calls : List HeaderCall) (r : HttpRequest) :
    (calls.foldl headerCall r).headers = calls.foldl HeaderCall.apply r.headers := by
  refine (List.foldl_hom headers fun r c => ?_).symm
  cases c <;> rfl

end HttpRequest

namespace HttpResponse

/-- The lines behind the loop over `m_headers`. -/
def linesAfter (r : HttpResponse) (websocket : Bool) : List (List UInt8) :=
  r.cookies.map (headerLine (ascii "Set-Cookie")) ++
    (if websocket then [] else [headerLine (ascii "connection") (connectionValue r.close)]) ++
    (if r.body = [] then [] else [headerLine (ascii "content-length") (digits r.body.length)])

theorem headers_foldl (calls : List HeaderCall) (r : HttpResponse) :
    (calls.foldl headerCall r).headers = calls.foldl HeaderCall.apply r.headers := by
  refine (List.foldl_hom headers fun r c => ?_).symm
  cases c <;> rfl

theorem lines_eq_headerLines (r : HttpResponse) (websocket : Bool) :
    { r with websocket := websocket }.lines =
      [r.statusLine] ++ Http.headerLines websocket r.headers ++ r.linesAfter websocket := by
  simp only [linesAfter, List.append_assoc]
  rw [lines, List.append_assoc, List.append_assoc, List.append_assoc]
  rfl

end HttpResponse

/-- **Keys are compared without regard to case, and the last writer wins**: `CaseInsensitiveLess`
is a strict weak order, and keys are equivalent in it if the parts in front of the first NUL are
equal up to the case of letters; after any calls of `setHeader` and `delHeader`, `getHeader`,
`hasHeader` and `dump` of a request, and `getHeader` and `dump` of a response, show what the last
call of an equivalent key has written. -/
theorem headers_reflect :
    IsStrictWeakOrder (List UInt8) (fun a b => caseInsensitiveLess a b = true) ∧
      (∀ a b, caseInsensitiveLess a b = decide (strcasecmp a b < 0)) ∧
      (∀ a b, Equivalent a b ↔ (cstr a).map toLower = (cstr b).map toLower) ∧
      ∀ (version : UInt8) (close : Bool) (calls : List HeaderCall),
        (let r := calls.foldl HttpRequest.headerCall
            { HttpRequest.new with version := version, close := close };
          Reflects calls r.getHeaderOr r.lines r.linesBefore (fun _ => r.linesAfter) ∧
            ∀ key v, r.hasHeader key = some v ↔
              ∃ n, LastWrite HeaderCall.write calls (foldCase key) n (some v)) ∧
        (let r := calls.foldl HttpResponse.headerCall (.new version close);
          Reflects calls r.getHeaderOr (fun w => { r with websocket := w }.lines)
            (fun _ => [r.statusLine]) r.linesAfter) := by
  refine ⟨isStrictWeakOrder_less, caseInsensitiveLess_eq, fun a b => equivalent_iff,
    fun version close calls => ⟨?_, ?_⟩⟩
  · intro r
    have htracked : Tracked calls r.headers := by
      rw [HttpRequest.headers_foldl]
      exact tracked_foldl calls
    exact ⟨htracked.reflects (fun _ _ => rfl) fun _ => rfl, htracked.mapFind_iff⟩
  · intro r
    have htracked : Tracked calls r.headers := by
      rw [HttpResponse.headers_foldl]
      exact tracked_foldl calls
    exact htracked.reflects (fun _ _ => rfl) r.lines_eq_headerLines

end Http

end YXTWebCpp
