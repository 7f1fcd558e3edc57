import YXTWebCpp.Http.Request
import YXTWebCpp.Maps.Sorted
import YXTWebCpp.Text.Cut
import YXTWebCpp.Util.Trim
import YXTWebCpp.Util.Url

/-!
# Parameters and cookies of a request

The part of `HttpRequest` that is parsed late: `m_params` and `m_cookies` are filled from the query,
the body and the `cookie` header when they are first needed (`http.cpp`).

* `parseParam` : the entries that `PARSE_PARAM` inserts, in their order.
* `ParamState`, `initQueryParam`, `initBodyParam`, `initCookies` : the maps and how they are filled.
* `formEntries` : what form-urlencoded data means.
* `parseParam_eq_formEntries_iff`, `insertsForm_iff` : when the scanner reads it so.
-/

namespace YXTWebCpp

namespace Http

open Text Util

/-! ### The scanner -/

/-- `StringUtil::Trim(str, delimit)` -/
def trimBytes (delimit str : List UInt8) : List UInt8 :=
  ((str.dropWhile fun c => delimit.contains c).reverse.dropWhile
    fun c => delimit.contains c).reverse

/-- The positions that `Trim` looks for are the ends of what is left. -/
theorem trimBytes_eq (delimit str : List UInt8) :
    Util.trim str delimit = some (trimBytes delimit str) :=
  trim_eq str delimit

/-- `StringUtil::Trim` with its default delimiters. -/
def trim (str : List UInt8) : List UInt8 := trimBytes (ascii " \t\r\n") str

/-- `PARSE_PARAM(str, m, flag, trim)` from `pos` on, where `rest` stands: the entries that it passes
to `m.insert`.  Both separators are looked for with `find`, the second one from the equals sign on,
which is not `flag`. -/
def parseParam (flag : UInt8) (trim : List UInt8 → List UInt8) (rest : List UInt8) :
    List (List UInt8 × List UInt8) :=
  match _hkey : cutAt 61 rest with
  | (_, none) => []
  | (key, some tail) =>
    match _hval : cutAt flag tail with
    | (val, none) => [(trim key, urlDecode val true)]
    | (val, some rest') => (trim key, urlDecode val true) :: parseParam flag trim rest'
termination_by rest.length
decreasing_by
  rw [(cutAt_eq_some _hkey).1, (cutAt_eq_some _hval).1]
  simp only [List.length_append, List.length_cons]
  omega

/-- `strcasestr(haystack, needle) != nullptr` -/
def strcasestr (haystack needle : List UInt8) : Bool :=
  decide (foldCase needle <:+: foldCase haystack)

/-! ### The maps -/

/-- The members of `HttpRequest` that are filled late. -/
structure ParamState where
  /-- `m_parserParamFlag` -/
  parserParamFlag : UInt8
  /-- `m_params` -/
  params : MapType
  /-- `m_cookies` -/
  cookies : MapType
  deriving DecidableEq

/-- The members as the constructor leaves them. -/
def ParamState.new : ParamState := ⟨0, [], []⟩

namespace HttpRequest

variable (r : HttpRequest)

/-- What `initQueryParam` passes to `m_params.insert`. -/
def queryEntries : List (List UInt8 × List UInt8) := parseParam 38 id r.query

/-- The test of `initBodyParam` on the content type. -/
def hasFormBody : Bool :=
  strcasestr (r.getHeader (ascii "content-type")) (ascii "application/x-www-form-urlencoded")

/-- What `initBodyParam` passes to `m_params.insert`. -/
def bodyEntries : List (List UInt8 × List UInt8) :=
  if r.hasFormBody then parseParam 38 id r.body else []

/-- What `initCookies` passes to `m_cookies.insert`. -/
def cookieEntries : List (List UInt8 × List UInt8) :=
  let cookie := r.getHeader (ascii "cookie")
  if cookie = [] then [] else parseParam 59 trim cookie

/-- `HttpRequest::initQueryParam` -/
def initQueryParam (p : ParamState) : ParamState :=
  if p.parserParamFlag &&& 0x1 ≠ 0 then p
  else { p with
    params := SortedMap.insertAll foldCase r.queryEntries p.params
    parserParamFlag := p.parserParamFlag ||| 0x1 }

/-- `HttpRequest::initBodyParam` -/
def initBodyParam (p : ParamState) : ParamState :=
  if p.parserParamFlag &&& 0x2 ≠ 0 then p
  else { p with
    params := SortedMap.insertAll foldCase r.bodyEntries p.params
    parserParamFlag := p.parserParamFlag ||| 0x2 }

/-- `HttpRequest::initCookies` -/
def initCookies (p : ParamState) : ParamState :=
  if p.parserParamFlag &&& 0x4 ≠ 0 then p
  else { p with
    cookies := SortedMap.insertAll foldCase r.cookieEntries p.cookies
    parserParamFlag := p.parserParamFlag ||| 0x4 }

/-- `HttpRequest::initParam` -/
def initParam (p : ParamState) : ParamState :=
  r.initCookies (r.initBodyParam (r.initQueryParam p))

end HttpRequest

/-! ### What a scan finds -/

section Scan

variable {flag : UInt8} {t : List UInt8 → List UInt8}

theorem parseParam_of_notMem {s : List UInt8} (h : 61 ∉ s) : parseParam flag t s = [] := by
  rw [parseParam]
  split
  · rfl
  · rename_i key tail hkey
    rw [cutAt_of_notMem h] at hkey
    cases hkey

/-- One turn of the loop. -/
theorem parseParam_turn {key : List UInt8} (hkey : 61 ∉ key) (tail : List UInt8) :
    parseParam flag t (key ++ 61 :: tail) = (t key, urlDecode (cutAt flag tail).1 true) ::
      (cutAt flag tail).2.elim [] (parseParam flag t) := by
  have hcut := cutAt_append_cons hkey tail
  rw [parseParam]
  split
  · rename_i key' h
    rw [hcut] at h
    cases h
  · rename_i key' tail' h
    rw [hcut] at h
    cases h
    split
    · rename_i val h
      rw [h, Option.elim_none]
    · rename_i val rest' h
      rw [h, Option.elim_some]

theorem parseParam_last {key val : List UInt8} (hkey : 61 ∉ key) (hval : flag ∉ val) :
    parseParam flag t (key ++ 61 :: val) = [(t key, urlDecode val true)] := by
  rw [parseParam_turn hkey, cutAt_of_notMem hval, Option.elim_none]

theorem parseParam_cons {key val : List UInt8} (hkey : 61 ∉ key) (hval : flag ∉ val)
    (s : List UInt8) : parseParam flag t (key ++ 61 :: (val ++ flag :: s)) =
      (t key, urlDecode val true) :: parseParam flag t s := by
  rw [parseParam_turn hkey, cutAt_append_cons hval, Option.elim_some]

/-- A piece without an equals sign becomes part of the next key. -/
theorem parseParam_valueless {a : List UInt8} (ha : 61 ∉ a) (hflag : flag ≠ 61)
    (s : List UInt8) : parseParam flag id (a ++ flag :: s) =
      (parseParam flag id s).modifyHead fun e => (a ++ flag :: e.1, e.2) := by
  by_cases hs : 61 ∈ s
  · obtain ⟨key, tail, rfl, hkey⟩ := List.eq_append_cons_of_mem hs
    have hlong : 61 ∉ a ++ flag :: key := by
      simp only [List.mem_append, List.mem_cons, not_or]
      exact ⟨ha, hflag.symm, hkey⟩
    rw [parseParam_turn hkey, List.modifyHead_cons, ← List.cons_append, ← List.append_assoc,
      parseParam_turn hlong]
    rfl
  · have hnone : 61 ∉ a ++ flag :: s := by
      simp only [List.mem_append, List.mem_cons, not_or]
      exact ⟨ha, hflag.symm, hs⟩
    rw [parseParam_of_notMem hs, parseParam_of_notMem hnone, List.modifyHead_nil]

end Scan

/-! ### Form-urlencoded data -/

/-- What one piece means: its key and its value if it has an equals sign. -/
def formEntry (piece : List UInt8) : Option (List UInt8 × List UInt8) :=
  match cutAt 61 piece with
  | (_, none) => none
  | (key, some val) => some (urlDecode key true, urlDecode val true)

/-- What form-urlencoded data means: the pieces between the ampersands, each of its own. -/
def formEntries (s : List UInt8) : List (List UInt8 × List UInt8) :=
  (s.splitOn 38).filterMap formEntry

/-- The first value of a key. -/
def firstEntry (key : List UInt8) (entries : List (List UInt8 × List UInt8)) :
    Option (List UInt8) :=
  (entries.find? fun e => strcasecmpEq e.1 key).map Prod.snd

/-- The pieces with an equals sign come first, and their keys have nothing to decode. -/
def PlainForm (s : List UInt8) : Prop :=
  (s.splitOn 38).Pairwise (fun p q => 61 ∈ q → 61 ∈ p) ∧
    ∀ p ∈ s.splitOn 38, 61 ∈ p → urlDecode (cutAt 61 p).1 true = (cutAt 61 p).1

theorem formEntry_of_notMem {a : List UInt8} (h : 61 ∉ a) : formEntry a = none := by
  rw [formEntry, cutAt_of_notMem h]

theorem formEntry_append_cons {key : List UInt8} (h : 61 ∉ key) (val : List UInt8) :
    formEntry (key ++ 61 :: val) = some (urlDecode key true, urlDecode val true) := by
  rw [formEntry, cutAt_append_cons h]

theorem formEntries_last {a : List UInt8} (h : 38 ∉ a) :
    formEntries a = (formEntry a).toList := by
  rw [formEntries, List.splitOn_eq_singleton h, List.filterMap_cons, List.filterMap_nil]
  cases formEntry a <;> rfl

theorem formEntries_cons {a : List UInt8} (h : 38 ∉ a) (s : List UInt8) :
    formEntries (a ++ 38 :: s) = (formEntry a).toList ++ formEntries s := by
  rw [formEntries, List.splitOn_append_cons_self_of_not_mem h, List.filterMap_cons]
  cases formEntry a <;> rfl

theorem mem_splitOn {c : UInt8} (sep : UInt8) (hc : c ≠ sep) (s : List UInt8) :
    (∃ q ∈ s.splitOn sep, c ∈ q) ↔ c ∈ s := by
  induction s using sepInduction sep with
  | last a ha => simp [List.splitOn_eq_singleton ha]
  | cons a s ha ih =>
    rw [List.splitOn_append_cons_self_of_not_mem ha]
    simp only [List.mem_cons, or_and_right, exists_or, exists_eq_left, ih, List.mem_append, hc,
      false_or]

theorem plainForm_last {a : List UInt8} (h : 38 ∉ a) :
    PlainForm a ↔ (61 ∈ a → urlDecode (cutAt 61 a).1 true = (cutAt 61 a).1) := by
  rw [PlainForm, List.splitOn_eq_singleton h]
  simp

theorem plainForm_cons {a : List UInt8} (h : 38 ∉ a) (s : List UInt8) :
    PlainForm (a ++ 38 :: s) ↔ (61 ∈ s → 61 ∈ a) ∧
      (61 ∈ a → urlDecode (cutAt 61 a).1 true = (cutAt 61 a).1) ∧ PlainForm s := by
  have hmem := mem_splitOn (c := 61) 38 (by decide) s
  rw [PlainForm, PlainForm, List.splitOn_append_cons_self_of_not_mem h, List.pairwise_cons,
    List.forall_mem_cons, ← hmem]
  constructor
  · rintro ⟨⟨h1, h2⟩, h3, h4⟩
    exact ⟨fun ⟨q, hq, hmem⟩ => h1 q hq hmem, h3, h2, h4⟩
  · rintro ⟨h1, h3, h2, h4⟩
    exact ⟨⟨fun q hq hmem => h1 ⟨q, hq, hmem⟩, h2⟩, h3, h4⟩

theorem formEntries_of_notMem {s : List UInt8} (h : 61 ∉ s) : formEntries s = [] := by
  refine List.filterMap_eq_nil_iff.2 fun p hp => formEntry_of_notMem fun hmem => h ?_
  exact (mem_splitOn 38 (by decide) s).1 ⟨p, hp, hmem⟩

/-- The scanner's first key is at least as long as the one that is meant. -/
theorem length_key_le {s : List UInt8} (h : 61 ∈ s) : ∃ e es e' es',
    formEntries s = e :: es ∧ parseParam 38 id s = e' :: es' ∧ e.1.length ≤ e'.1.length := by
  have hle : ∀ key, (urlDecode key true).length ≤ key.length := fun key => by
    rw [urlDecode_eq]
    exact length_decodeBytes_le true key
  induction s using sepInduction (38 : UInt8) with
  | last a ha =>
    obtain ⟨key, val, rfl, hkey⟩ := List.eq_append_cons_of_mem h
    have hval : 38 ∉ val := fun hv => ha (by simp [hv])
    rw [formEntries_last ha, formEntry_append_cons hkey, parseParam_last hkey hval]
    exact ⟨_, _, _, _, rfl, rfl, hle key⟩
  | cons a s ha ih =>
    rw [formEntries_cons ha]
    by_cases hmem : 61 ∈ a
    · obtain ⟨key, val, rfl, hkey⟩ := List.eq_append_cons_of_mem hmem
      have hval : 38 ∉ val := fun hv => ha (by simp [hv])
      rw [formEntry_append_cons hkey, List.append_assoc, List.cons_append,
        parseParam_cons hkey hval]
      exact ⟨_, _, _, _, rfl, rfl, hle key⟩
    · have hs : 61 ∈ s := by simpa [hmem] using h
      obtain ⟨e, es, e', es', hform, hparse, hlen⟩ := ih hs
      rw [formEntry_of_notMem hmem, parseParam_valueless hmem (by decide), hform, hparse]
      refine ⟨e, es, _, _, rfl, rfl, ?_⟩
      simp only [List.length_append, List.length_cons]
      omega

/-- **When the scanner reads form-urlencoded data**: the entries are the ones that are meant if and
only if no piece without an equals sign stands in front of one with it, and no key is encoded. -/
theorem parseParam_eq_formEntries_iff (s : List UInt8) :
    parseParam 38 id s = formEntries s ↔ PlainForm s := by
  induction s using sepInduction (38 : UInt8) with
  | last a ha =>
    rw [formEntries_last ha, plainForm_last ha]
    by_cases hmem : 61 ∈ a
    · obtain ⟨key, val, rfl, hkey⟩ := List.eq_append_cons_of_mem hmem
      have hval : 38 ∉ val := fun hv => ha (by simp [hv])
      rw [formEntry_append_cons hkey, parseParam_last hkey hval, cutAt_append_cons hkey]
      simp [eq_comm]
    · simp [formEntry_of_notMem hmem, parseParam_of_notMem hmem, hmem]
  | cons a s ha ih =>
    rw [formEntries_cons ha, plainForm_cons ha, ← ih]
    by_cases hmem : 61 ∈ a
    · obtain ⟨key, val, rfl, hkey⟩ := List.eq_append_cons_of_mem hmem
      have hval : 38 ∉ val := fun hv => ha (by simp [hv])
      rw [formEntry_append_cons hkey, List.append_assoc, List.cons_append,
        parseParam_cons hkey hval, cutAt_append_cons hkey]
      simp [eq_comm]
    · rw [formEntry_of_notMem hmem, parseParam_valueless hmem (by decide)]
      by_cases hs : 61 ∈ s
      · -- the key of the scanner is too long
        obtain ⟨e, es, e', es', hform, hparse, hlen⟩ := length_key_le hs
        have hne : (38 :: e'.1).length + a.length ≠ e.1.length := by
          rw [List.length_cons]
          omega
        refine iff_of_false (fun h => hne ?_) fun h => hmem (h.1 hs)
        rw [hform, hparse] at h
        have hkey := congrArg (fun e : List UInt8 × List UInt8 => e.1.length) (List.cons.inj h).1
        simp only [List.length_append] at hkey
        omega
      · simp [parseParam_of_notMem hs, formEntries_of_notMem hs, hs, hmem]

/-! ### The first entry of a key wins -/

theorem caseInsensitiveLess_iff {a b : List UInt8} :
    caseInsensitiveLess a b = true ↔ foldCase a < foldCase b := by
  exact decide_eq_true_iff

theorem mapAssign_eq (key val : List UInt8) (m : MapType) :
    mapAssign key val m = SortedMap.assign foldCase key val m := by
  induction m with
  | nil => rfl
  | cons e m ih => simp only [mapAssign, SortedMap.assign, caseInsensitiveLess_iff, ih]

theorem mapFind_eq (key : List UInt8) (m : MapType) :
    mapFind key m = SortedMap.content foldCase m (foldCase key) := by
  have htest : ∀ e ∈ m, (!caseInsensitiveLess e.1 key && !caseInsensitiveLess key e.1) =
      decide (foldCase e.1 = foldCase key) := fun e _ => by
    rw [Bool.eq_iff_iff, Bool.and_eq_true, Bool.not_eq_true', Bool.not_eq_true',
      ← Bool.not_eq_true, ← Bool.not_eq_true, caseInsensitiveLess_iff, caseInsensitiveLess_iff,
      decide_eq_true_iff]
    constructor
    · rintro ⟨h, h'⟩
      exact Std.le_antisymm (Std.not_lt.1 h') (Std.not_lt.1 h)
    · intro h
      rw [h]
      exact ⟨Std.lt_irrefl, Std.lt_irrefl⟩
  rw [mapFind, SortedMap.content, List.find?_congr htest]

theorem firstEntry_eq (key : List UInt8) (entries : List (List UInt8 × List UInt8)) :
    firstEntry key entries = SortedMap.content foldCase entries (foldCase key) := by
  have htest : ∀ e ∈ entries, strcasecmpEq e.1 key = decide (foldCase e.1 = foldCase key) :=
    fun e _ => by rw [Bool.eq_iff_iff, strcasecmpEq, beq_iff_eq, decide_eq_true_iff]
  rw [firstEntry, SortedMap.content, List.find?_congr htest]

theorem mapFind_insertAll {m : MapType} (hm : SortedMap.Sorted foldCase m)
    (entries : List (List UInt8 × List UInt8)) (key : List UInt8) :
    mapFind key (SortedMap.insertAll foldCase entries m) =
      (mapFind key m).or (firstEntry key entries) := by
  rw [mapFind_eq, mapFind_eq, firstEntry_eq, SortedMap.content_insertAll hm]

/-- `init` fills `m_params` with the form-urlencoded data `s` by inserting `entries`, once: the
entries are the ones that `s` means, and the first one of a key, in any letter case, counts. -/
def InsertsForm (entries : List (List UInt8 × List UInt8)) (init : ParamState → ParamState)
    (flag : UInt8) (s : List UInt8) : Prop :=
  entries = formEntries s ∧
    ∀ p : ParamState, p.parserParamFlag &&& flag = 0 → SortedMap.Sorted foldCase p.params →
      ∀ key, mapFind key (init p).params =
        (mapFind key p.params).or (firstEntry key (formEntries s))

instance (s : List UInt8) : Decidable (PlainForm s) := inferInstanceAs (Decidable (_ ∧ _))

/-- **Form-urlencoded data**: the query and a body of this type are read as such if and only if they
are plain. -/
theorem insertsForm_iff (r : HttpRequest) :
    (InsertsForm r.queryEntries r.initQueryParam 0x1 r.query ↔ PlainForm r.query) ∧
    (r.hasFormBody = true →
      (InsertsForm r.bodyEntries r.initBodyParam 0x2 r.body ↔ PlainForm r.body)) := by
  have hquery : r.queryEntries = parseParam 38 id r.query := rfl
  refine ⟨?_, fun hform => ?_⟩
  · rw [← parseParam_eq_formEntries_iff, ← hquery]
    refine ⟨And.left, fun h => ⟨h, fun p hflag hp key => ?_⟩⟩
    rw [HttpRequest.initQueryParam, if_neg (not_not.2 hflag), ← h]
    exact mapFind_insertAll hp _ key
  · have hbody : r.bodyEntries = parseParam 38 id r.body := if_pos hform
    rw [← parseParam_eq_formEntries_iff, ← hbody]
    refine ⟨And.left, fun h => ⟨h, fun p hflag hp key => ?_⟩⟩
    rw [HttpRequest.initBodyParam, if_neg (not_not.2 hflag), ← h]
    exact mapFind_insertAll hp _ key

/-- `POST /?a=1 HTTP/1.1` with a form of two fields. -/
def formRequest : HttpRequest := { HttpRequest.new with
  query := ascii "a=1"
  body := ascii "b=2&c=x+y"
  headers := [(ascii "Content-Type", ascii "application/x-www-form-urlencoded")] }

theorem insertsForm_iff_form : formRequest.hasFormBody = true ∧
    InsertsForm formRequest.queryEntries formRequest.initQueryParam 0x1 formRequest.query ∧
    InsertsForm formRequest.bodyEntries formRequest.initBodyParam 0x2 formRequest.body :=
  ⟨by decide +kernel, (insertsForm_iff formRequest).1.2 (by decide +kernel),
    ((insertsForm_iff formRequest).2 (by decide +kernel)).2 (by decide +kernel)⟩

/-- The parameter `b` of the query `a&b=1` is filed under `a&b`. -/
theorem not_insertsForm_valueless :
    let r : HttpRequest := { HttpRequest.new with query := ascii "a&b=1" }
    ¬ InsertsForm r.queryEntries r.initQueryParam 0x1 r.query ∧
      firstEntry (ascii "b") (formEntries r.query) = some (ascii "1") ∧
      mapFind (ascii "b") (r.initQueryParam .new).params = none ∧
      mapFind (ascii "a&b") (r.initQueryParam .new).params = some (ascii "1") := by
  intro r
  exact ⟨fun h => absurd h.1 (by decide +kernel), by decide +kernel, by decide +kernel,
    by decide +kernel⟩

end Http

end YXTWebCpp
