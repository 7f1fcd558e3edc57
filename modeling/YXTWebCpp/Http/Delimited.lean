import YXTWebCpp.Http.Length
import YXTWebCpp.Http.Param
import YXTWebCpp.Http.Response
import YXTWebCpp.Text.Numeral

/-!
# Where a response ends

The text of a response on a kept-alive connection, as a client reads it: lines up to the first empty
one, and a body whose length the `content-length` line states.

* `readHead` : the lines and what follows them; `readHead_dump` : they are the ones that
  `HttpResponse::dump` writes.
* `ResponseCall`, `HttpResponse.run` : what a servlet does to a response.
* `SelfDelimiting` : exactly one line states the length of the body.
* `selfDelimiting_iff` : which responses are written so.
-/

namespace YXTWebCpp

namespace Http

open Text

/-! ### Reading a head -/

/-- The line up to the first CR LF, and what stands behind it. -/
def readLine : List UInt8 → Option (List UInt8 × List UInt8)
  | [] => none
  | c :: rest =>
    if c = 13 ∧ rest.head? = some 10 then some ([], rest.tail)
    else (readLine rest).map fun p => (c :: p.1, p.2)

theorem readLine_append {line : List UInt8} (h : 13 ∉ line) (rest : List UInt8) :
    readLine (line ++ 13 :: 10 :: rest) = some (line, rest) := by
  induction line with
  | nil => rfl
  | cons c line ih =>
    have hc : c ≠ 13 := fun hc => h (hc ▸ List.mem_cons_self)
    rw [List.cons_append, readLine, if_neg fun h => hc h.1,
      ih fun hl => h (List.mem_cons_of_mem _ hl), Option.map_some]

theorem readLine_lt {s line rest : List UInt8} (h : readLine s = some (line, rest)) :
    rest.length < s.length := by
  induction s generalizing line with
  | nil => cases h
  | cons c s ih =>
    rw [readLine] at h
    split_ifs at h with hc
    · cases h
      rw [List.length_cons, List.length_tail]
      omega
    · obtain ⟨p, hp, heq⟩ := Option.map_eq_some_iff.1 h
      cases heq
      exact Nat.lt_succ_of_lt (ih hp)

/-- The lines up to the first empty one, and what stands behind it. -/
def readHead (s : List UInt8) : Option (List (List UInt8) × List UInt8) :=
  match _h : readLine s with
  | none => none
  | some (line, rest) =>
    if line = [] then some ([], rest) else (readHead rest).map fun p => (line :: p.1, p.2)
termination_by s.length
decreasing_by exact readLine_lt _h

theorem readHead_of_readLine {s line rest : List UInt8} (h : readLine s = some (line, rest)) :
    readHead s = if line = [] then some ([], rest)
      else (readHead rest).map fun p => (line :: p.1, p.2) := by
  rw [readHead]
  split
  · rename_i h'
    rw [h] at h'
    cases h'
  · rename_i line' rest' h'
    rw [h] at h'
    cases h'
    rfl

/-- Lines without line breaks are read as they were written. -/
theorem readHead_lines {lines : List (List UInt8)} (h : ∀ line ∈ lines, line ≠ [] ∧ 13 ∉ line)
    (body : List UInt8) :
    readHead (lines.flatMap (fun line => line ++ ascii "\r\n") ++ ascii "\r\n" ++ body) =
      some (lines, body) := by
  have hcrlf : ascii "\r\n" = [13, 10] := by decide
  rw [hcrlf]
  induction lines with
  | nil => exact readHead_of_readLine (readLine_append (List.not_mem_nil) body)
  | cons line lines ih =>
    obtain ⟨hne, hcr⟩ := h line List.mem_cons_self
    have hline := readLine_append hcr
      (lines.flatMap (fun line => line ++ [13, 10]) ++ [13, 10] ++ body)
    rw [List.flatMap_cons, List.append_assoc, List.append_assoc, List.append_assoc]
    rw [List.append_assoc] at hline
    refine (readHead_of_readLine hline).trans ?_
    rw [if_neg hne, ← List.append_assoc, ih fun l hl => h l (List.mem_cons_of_mem _ hl)]
    rfl

/-! ### Fields -/

/-- The name of a field, in lower case. -/
def fieldName (line : List UInt8) : List UInt8 := (cutAt 58 line).1.map toLower

/-- The value of a field, without the blanks around it. -/
def fieldValue (line : List UInt8) : List UInt8 :=
  trimBytes (ascii " \t") ((cutAt 58 line).2.getD [])

/-- The line states the length of the body. -/
def isLengthField (line : List UInt8) : Bool := fieldName line == ascii "content-length"

/-- The text ends where it says: among the lines behind the first one, exactly one is named
`content-length`, and its value is the number of bytes behind the empty line. -/
def SelfDelimiting (text : List UInt8) : Prop :=
  ∃ first fields body line, readHead text = some (first :: fields, body) ∧
    fields.filter isLengthField = [line] ∧ stated (fieldValue line) = some body.length

theorem headerLine_eq (name value : List UInt8) :
    headerLine name value = name ++ 58 :: 32 :: value := by
  have hsep : ascii ": " = [58, 32] := by decide
  rw [headerLine, hsep, List.append_assoc]
  rfl

/-- The name of a line that is written for an entry. -/
theorem fieldName_headerLine (name value : List UInt8) :
    fieldName (headerLine name value) = fieldName name := by
  rw [headerLine_eq]
  by_cases h : 58 ∈ name
  · obtain ⟨a, t, rfl, ha⟩ := List.eq_append_cons_of_mem h
    rw [List.append_assoc, List.cons_append, fieldName, fieldName, cutAt_append_cons ha,
      cutAt_append_cons ha]
  · rw [fieldName, fieldName, cutAt_of_notMem h, cutAt_append_cons h]

/-! ### What a servlet does to a response -/

/-- A call on a response. -/
inductive ResponseCall where
  | setHeader (key val : List UInt8)
  | delHeader (key : List UInt8)
  | setCookie (key val : List UInt8) (expired : ℤ) (path domain : List UInt8) (secure : Bool)
  | setStatus (v : HttpStatus)
  | setReason (v : List UInt8)
  | setBody (v : List UInt8)

namespace HttpResponse

/-- `HttpResponse::delHeader` -/
def delHeader (r : HttpResponse) (key : List UInt8) : HttpResponse :=
  { r with headers := SortedMap.erase foldCase key r.headers }

/-- `HttpResponse::setCookie`, where `time2Str` is `Time2Str` with the format that it passes. -/
def setCookie (time2Str : ℤ → List UInt8) (r : HttpResponse) (key val : List UInt8) (expired : ℤ)
    (path domain : List UInt8) (secure : Bool) : HttpResponse :=
  let ss := key ++ ascii "=" ++ val ++
    (if 0 < expired then ascii ";expires=" ++ time2Str expired ++ ascii " GMT" else []) ++
    (if domain ≠ [] then ascii ";domain=" ++ domain else []) ++
    (if path ≠ [] then ascii ";path=" ++ path else []) ++
    (if secure then ascii ";secure" else [])
  { r with cookies := r.cookies ++ [ss] }

/-- One call. -/
def call (time2Str : ℤ → List UInt8) (r : HttpResponse) : ResponseCall → HttpResponse
  | .setHeader key val => r.setHeader key val
  | .delHeader key => r.delHeader key
  | .setCookie key val expired path domain secure =>
    r.setCookie time2Str key val expired path domain secure
  | .setStatus v => { r with status := v }
  | .setReason v => { r with reason := v }
  | .setBody v => { r with body := v }

/-- Calls one after another. -/
def run (time2Str : ℤ → List UInt8) (r : HttpResponse) (calls : List ResponseCall) :
    HttpResponse :=
  calls.foldl (call time2Str) r

end HttpResponse

/-- No CR and no LF. -/
def NoBreak (s : List UInt8) : Prop := 13 ∉ s ∧ 10 ∉ s

instance (s : List UInt8) : Decidable (NoBreak s) := inferInstanceAs (Decidable (_ ∧ _))

/-- The names and values of a call have no line breaks; a body may have any bytes. -/
def ResponseCall.NoBreaks : ResponseCall → Prop
  | .setHeader key val => NoBreak key ∧ NoBreak val
  | .delHeader key => NoBreak key
  | .setCookie key val _ path domain _ =>
    NoBreak key ∧ NoBreak val ∧ NoBreak path ∧ NoBreak domain
  | .setStatus _ => True
  | .setReason v => NoBreak v
  | .setBody _ => True

theorem NoBreak.append {a b : List UInt8} (ha : NoBreak a) (hb : NoBreak b) : NoBreak (a ++ b) := by
  simp only [NoBreak, List.mem_append, not_or]
  exact ⟨⟨ha.1, hb.1⟩, ha.2, hb.2⟩

theorem NoBreak.ite {a b : List UInt8} {P : Prop} [Decidable P] (ha : NoBreak a) (hb : NoBreak b) :
    NoBreak (if P then a else b) := by
  split_ifs
  · exact ha
  · exact hb

theorem noBreak_nil : NoBreak [] := by decide

/-- Everything that `dump` writes as a line has no line breaks. -/
structure HttpResponse.Lined (r : HttpResponse) : Prop where
  websocket : r.websocket = false
  headers : ∀ e ∈ r.headers, NoBreak e.1 ∧ NoBreak e.2
  cookies : ∀ c ∈ r.cookies, NoBreak c
  reason : NoBreak r.reason

namespace HttpResponse.Lined

variable {time2Str : ℤ → List UInt8} {r : HttpResponse}

theorem new (version : UInt8) (close : Bool) : (HttpResponse.new version close).Lined where
  websocket := rfl
  headers _ h := by cases h
  cookies _ h := by cases h
  reason := noBreak_nil

theorem call (htime : ∀ t, NoBreak (time2Str t)) (h : r.Lined) {c : ResponseCall}
    (hc : c.NoBreaks) : (r.call time2Str c).Lined := by
  cases c with
  | setHeader key val =>
    refine ⟨h.websocket, fun e he => ?_, h.cookies, h.reason⟩
    rw [HttpResponse.call, HttpResponse.setHeader, mapAssign_eq] at he
    rcases SortedMap.mem_assign he with rfl | hm | ⟨e', hm, rfl⟩
    · exact hc
    · exact h.headers e hm
    · exact ⟨(h.headers e' hm).1, hc.2⟩
  | delHeader key =>
    exact ⟨h.websocket, fun e he => h.headers e (List.mem_of_mem_filter he), h.cookies, h.reason⟩
  | setCookie key val expired path domain secure =>
    obtain ⟨hkey, hval, hpath, hdomain⟩ := hc
    refine ⟨h.websocket, h.headers, fun c hmem => ?_, h.reason⟩
    rcases List.mem_append.1 hmem with hmem | hmem
    · exact h.cookies c hmem
    · rw [List.mem_singleton.1 hmem]
      have hexpires : NoBreak (ascii ";expires=" ++ time2Str expired ++ ascii " GMT") :=
        ((by decide : NoBreak (ascii ";expires=")).append (htime expired)).append (by decide)
      exact ((((((hkey.append (by decide)).append hval).append
        (hexpires.ite noBreak_nil)).append
        ((NoBreak.append (by decide) hdomain).ite noBreak_nil)).append
        ((NoBreak.append (by decide) hpath).ite noBreak_nil)).append
        (NoBreak.ite (by decide) noBreak_nil))
  | setStatus v => exact ⟨h.websocket, h.headers, h.cookies, h.reason⟩
  | setReason v => exact ⟨h.websocket, h.headers, h.cookies, hc⟩
  | setBody v => exact ⟨h.websocket, h.headers, h.cookies, h.reason⟩

theorem run (htime : ∀ t, NoBreak (time2Str t)) (h : r.Lined) {calls : List ResponseCall}
    (hcalls : ∀ c ∈ calls, c.NoBreaks) : (r.run time2Str calls).Lined := by
  induction calls generalizing r with
  | nil => exact h
  | cons c calls ih =>
    exact ih (h.call htime (hcalls c List.mem_cons_self))
      fun c' hc' => hcalls c' (List.mem_cons_of_mem _ hc')

end HttpResponse.Lined

/-! ### The lines of a response -/

theorem digits_eq (n : ℕ) : digits n = numeral 10 n := by
  rw [digits, ascii, Nat.toString_eq_repr, Nat.toList_repr]
  rfl

theorem isDigit_ten : ∀ c : UInt8, isDigit 10 c = (decide (48 ≤ c) && decide (c ≤ 57)) ∧
    (isDigit 10 c = true → (digitValue c).getD 0 = c.toNat - 48) := by
  decide +kernel

theorem stated_digits (n : ℕ) : stated (digits n) = some n := by
  have hread := readNumeral_numeral (b := 10) (by decide) (by decide) n
  have hdigit : ∀ c ∈ numeral 10 n, isDigit 10 c = true := fun c =>
    isDigit_of_mem_numeral (by decide) (by decide)
  have hall : (numeral 10 n).all (fun c => decide (48 ≤ c) && decide (c ≤ 57)) = true :=
    List.all_eq_true.2 fun c hc => (isDigit_ten c).1 ▸ hdigit c hc
  have hfold : ∀ m, (numeral 10 n).foldl (fun n c => 10 * n + (c.toNat - 48)) m =
      (numeral 10 n).foldl (fun n c => 10 * n + (digitValue c).getD 0) m := fun m =>
    List.foldl_ext _ _ m fun k c hc => by rw [(isDigit_ten c).2 (hdigit c hc)]
  rw [digits_eq, stated, if_pos ⟨numeral_ne_nil 10 n, hall⟩, hfold]
  exact congrArg some (numeralValue_numeral (by decide) (by decide) n)

theorem noBreak_digits (n : ℕ) : NoBreak (digits n) := by
  rw [digits_eq]
  exact ⟨notMem_numeral (by decide) (by decide) (by decide),
    notMem_numeral (by decide) (by decide) (by decide)⟩

theorem noBreak_headerLine {name value : List UInt8} (hname : NoBreak name)
    (hvalue : NoBreak value) : NoBreak (headerLine name value) := by
  exact (hname.append (by decide)).append hvalue

theorem headerLine_ne_nil (name value : List UInt8) : headerLine name value ≠ [] := by
  simp [headerLine_eq]

theorem noBreak_httpStatusToString (s : HttpStatus) : NoBreak (httpStatusToString s) := by
  cases s <;> decide +kernel

namespace HttpResponse.Lined

variable {r : HttpResponse}

theorem statusLine (h : r.Lined) : r.statusLine ≠ [] ∧ NoBreak r.statusLine := by
  constructor
  · intro hnil
    have := congrArg (List.take 1) hnil
    simp only [HttpResponse.statusLine, List.append_assoc] at this
    rw [List.take_append_of_le_length (by decide)] at this
    exact absurd this (by decide)
  · have hreason : NoBreak (if r.reason = [] then httpStatusToString r.status else r.reason) :=
      NoBreak.ite (noBreak_httpStatusToString r.status) h.reason
    exact (((((((by decide : NoBreak (ascii "HTTP/")).append (noBreak_digits _)).append
      (by decide)).append (noBreak_digits _)).append (by decide)).append
      (noBreak_digits _)).append (by decide)).append hreason

theorem lines (h : r.Lined) : ∀ line ∈ r.lines, line ≠ [] ∧ 13 ∉ line := by
  intro line hline
  rw [HttpResponse.lines, h.websocket] at hline
  simp only [List.mem_append, List.mem_singleton, Bool.false_eq_true, ↓reduceIte] at hline
  rcases hline with (((rfl | hl) | hl) | rfl) | hl
  · exact ⟨h.statusLine.1, h.statusLine.2.1⟩
  · obtain ⟨e, he, rfl⟩ := List.mem_map.1 hl
    obtain ⟨hname, hvalue⟩ := h.headers e (List.mem_of_mem_filter he)
    exact ⟨headerLine_ne_nil _ _, (noBreak_headerLine hname hvalue).1⟩
  · obtain ⟨c, hc, rfl⟩ := List.mem_map.1 hl
    exact ⟨headerLine_ne_nil _ _, (noBreak_headerLine (by decide) (h.cookies c hc)).1⟩
  · refine ⟨headerLine_ne_nil _ _, (noBreak_headerLine (by decide) ?_).1⟩
    cases r.close <;> decide
  · by_cases hb : r.body = []
    · simp [hb] at hl
    · rw [if_neg hb, List.mem_singleton] at hl
      rw [hl]
      exact ⟨headerLine_ne_nil _ _, (noBreak_headerLine (by decide) (noBreak_digits _)).1⟩

/-- A client reads the lines and the body that were written. -/
theorem readHead_dump (h : r.Lined) : readHead r.dump = some (r.lines, r.body) := by
  exact readHead_lines h.lines r.body

end HttpResponse.Lined

/-- The headers of a response that are written as lines of this name. -/
def HttpResponse.lengthHeaders (r : HttpResponse) : MapType :=
  r.headers.filter fun e => isLengthField e.1

theorem isLengthField_headerLine (name value : List UInt8) :
    isLengthField (headerLine name value) = isLengthField name := by
  rw [isLengthField, isLengthField, fieldName_headerLine]

/-- The loop skips no such header. -/
theorem not_connection_of_isLengthField {name : List UInt8} (h : isLengthField name = true) :
    strcasecmpEq name (ascii "connection") = false := by
  rw [isLengthField, beq_iff_eq, fieldName] at h
  rw [← Bool.not_eq_true, strcasecmpEq, beq_iff_eq, foldCase]
  intro h'
  have hlong : ascii "content-length" <+: name.map toLower :=
    h ▸ (prefix_cutAt 58 name).map toLower
  have hshort : ascii "connection" <+: name.map toLower := by
    have hfold : foldCase (ascii "connection") = ascii "connection" := by decide
    rw [hfold] at h'
    exact h' ▸ (List.takeWhile_prefix (· != 0)).map toLower
  exact absurd (List.prefix_of_prefix_length_le hshort hlong (by decide)) (by decide)

theorem filter_headerLines (r : HttpResponse) : r.headerLines.filter isLengthField =
    r.lengthHeaders.map fun e => headerLine e.1 e.2 := by
  rw [HttpResponse.headerLines, HttpResponse.lengthHeaders, List.filter_map, List.filter_filter]
  congr 1
  refine List.filter_congr fun e _ => ?_
  show (isLengthField (headerLine e.1 e.2) && _) = _
  rw [isLengthField_headerLine]
  by_cases h : isLengthField e.1 = true
  · rw [h, not_connection_of_isLengthField h, Bool.and_false]
    rfl
  · rw [Bool.not_eq_true] at h
    rw [h, Bool.false_and]

/-- The lines behind the first one. -/
def HttpResponse.fields (r : HttpResponse) : List (List UInt8) :=
  r.headerLines ++ r.cookies.map (headerLine (ascii "Set-Cookie")) ++
    [headerLine (ascii "connection") (connectionValue r.close)] ++
    (if r.body = [] then [] else [headerLine (ascii "content-length") (digits r.body.length)])

theorem HttpResponse.lines_eq {r : HttpResponse} (h : r.websocket = false) :
    r.lines = r.statusLine :: r.fields := by
  simp only [HttpResponse.lines, HttpResponse.fields, h, Bool.false_eq_true, ↓reduceIte,
    List.append_assoc, List.nil_append, List.cons_append]

/-- Lines that state a length come from the headers and from a body. -/
theorem filter_fields (r : HttpResponse) : r.fields.filter isLengthField =
    (r.lengthHeaders.map fun e => headerLine e.1 e.2) ++
      if r.body = [] then [] else [headerLine (ascii "content-length") (digits r.body.length)] := by
  have hcookies : (r.cookies.map (headerLine (ascii "Set-Cookie"))).filter isLengthField = [] := by
    refine List.filter_eq_nil_iff.2 fun line hline => ?_
    obtain ⟨c, -, rfl⟩ := List.mem_map.1 hline
    rw [isLengthField_headerLine]
    decide
  have hconnection : isLengthField
      (headerLine (ascii "connection") (connectionValue r.close)) = false := by
    rw [isLengthField_headerLine]
    decide
  have hlength : isLengthField
      (headerLine (ascii "content-length") (digits r.body.length)) = true := by
    rw [isLengthField_headerLine]
    decide
  rw [HttpResponse.fields, List.filter_append, List.filter_append, List.filter_append,
    filter_headerLines, hcookies, List.filter_cons, hconnection, List.append_nil]
  split_ifs <;> simp_all

theorem dropWhile_eq_self {p : UInt8 → Bool} {s : List UInt8} (h : ∀ c ∈ s, p c = false) :
    s.dropWhile p = s := by
  cases s with
  | nil => rfl
  | cons c s => rw [List.dropWhile_cons_of_neg (by simp [h c List.mem_cons_self])]

theorem trimBytes_cons {delimit s : List UInt8} {b : UInt8} (hb : b ∈ delimit)
    (hs : ∀ c ∈ s, c ∉ delimit) : trimBytes delimit (b :: s) = s := by
  have hnot : ∀ c ∈ s, delimit.contains c = false := fun c hc => by
    rw [← Bool.not_eq_true, List.contains_iff_mem]
    exact hs c hc
  rw [trimBytes, List.dropWhile_cons_of_pos (List.contains_iff_mem.2 hb), dropWhile_eq_self hnot,
    dropWhile_eq_self fun c hc => hnot c (List.mem_reverse.1 hc), List.reverse_reverse]

theorem fieldValue_digits {name : List UInt8} (hname : 58 ∉ name) (n : ℕ) :
    fieldValue (headerLine name (digits n)) = digits n := by
  rw [fieldValue, headerLine_eq, cutAt_append_cons hname, Option.getD_some]
  refine trimBytes_cons (by decide) fun c hc hblank => ?_
  rw [digits_eq] at hc
  have hdigit := isDigit_of_mem_numeral (by decide) (by decide) hc
  have hnone : ∀ c ∈ ascii " \t", isDigit 10 c = false := by decide +kernel
  rw [hnone c hblank] at hdigit
  exact Bool.false_ne_true hdigit

/-- Either the body is not empty and no header is named `content-length`, or it is empty and one
header of this name states `0`. -/
def LengthStated (r : HttpResponse) : Prop :=
  (r.body ≠ [] ∧ r.lengthHeaders = []) ∨
    (r.body = [] ∧ ∃ e, r.lengthHeaders = [e] ∧ stated (fieldValue (headerLine e.1 e.2)) = some 0)

theorem HttpResponse.Lined.selfDelimiting_iff {r : HttpResponse} (h : r.Lined) :
    SelfDelimiting r.dump ↔ LengthStated r := by
  have hread : SelfDelimiting r.dump ↔ ∃ line, r.fields.filter isLengthField = [line] ∧
      stated (fieldValue line) = some r.body.length := by
    rw [SelfDelimiting, h.readHead_dump, HttpResponse.lines_eq h.websocket]
    constructor
    · rintro ⟨first, fields, body, line, heq, hline⟩
      cases heq
      exact ⟨line, hline⟩
    · rintro ⟨line, hline⟩
      exact ⟨_, _, _, line, rfl, hline⟩
  rw [hread, filter_fields, LengthStated]
  by_cases hb : r.body = []
  · simp only [hb, ↓reduceIte, List.append_nil, ne_eq, not_true_eq_false, false_and, false_or,
      true_and, List.length_nil, List.map_eq_singleton_iff]
    constructor
    · rintro ⟨line, ⟨e, he, rfl⟩, hstated⟩
      exact ⟨e, he, hstated⟩
    · rintro ⟨e, he, hstated⟩
      exact ⟨_, ⟨e, he, rfl⟩, hstated⟩
  · simp only [hb, ↓reduceIte, ne_eq, not_false_eq_true, true_and, false_and, or_false]
    constructor
    · rintro ⟨line, hline, -⟩
      have hlen := congrArg List.length hline
      rw [List.length_append, List.length_map] at hlen
      exact List.eq_nil_of_length_eq_zero (by simpa using hlen)
    · intro hnil
      rw [hnil]
      exact ⟨_, rfl, by rw [fieldValue_digits (by decide), stated_digits]⟩

/-- **Kept-alive responses**: whatever a servlet does, the text of the response states where it ends
if and only if there is a body and no header of the servlet's own states its length, or there is no
body and the servlet states so. -/
theorem selfDelimiting_run_iff {time2Str : ℤ → List UInt8} (htime : ∀ t, NoBreak (time2Str t))
    (version : UInt8) {calls : List ResponseCall} (hcalls : ∀ c ∈ calls, c.NoBreaks) :
    SelfDelimiting ((HttpResponse.new version false).run time2Str calls).dump ↔
      LengthStated ((HttpResponse.new version false).run time2Str calls) := by
  exact ((HttpResponse.Lined.new version false).run htime hcalls).selfDelimiting_iff

/-- The answer of the server's test, with a body. -/
theorem selfDelimiting_run_iff_body :
    SelfDelimiting ((HttpResponse.new 0x11 false).run (fun _ => ascii "Thu, 01 Jan 1970 00:00:01")
      [.setHeader (ascii "X-X") (ascii "yxt"), .setBody (ascii "hello"),
        .setCookie (ascii "k") (ascii "v") 1 [] [] false]).dump := by
  refine (selfDelimiting_run_iff (fun _ => by decide) 0x11 ?_).2 (.inl ⟨by decide, by decide⟩)
  simp only [List.mem_cons, List.not_mem_nil, or_false, forall_eq_or_imp, forall_eq]
  exact ⟨⟨by decide, by decide⟩, trivial, by decide, by decide, by decide, by decide⟩

/-- A response without a body does not say so. -/
theorem not_selfDelimiting_empty :
    let r := (HttpResponse.new 0x11 false).run (fun _ => []) [.setHeader (ascii "A") (ascii "b")]
    r.status = .ok ∧ readHead r.dump = some ([ascii "HTTP/1.1 200 OK", ascii "A: b",
      ascii "connection: keep-alive"], []) ∧ ¬ SelfDelimiting r.dump := by
  intro r
  have hread : readHead r.dump = some ([ascii "HTTP/1.1 200 OK", ascii "A: b",
      ascii "connection: keep-alive"], []) := by decide +kernel
  refine ⟨rfl, hread, ?_⟩
  rintro ⟨first, fields, body, line, heq, hline, -⟩
  rw [hread] at heq
  cases heq
  have hnone : [ascii "A: b", ascii "connection: keep-alive"].filter isLengthField = [] := by
    decide
  rw [hnone] at hline
  cases hline

end Http

end YXTWebCpp
