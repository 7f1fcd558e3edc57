import YXTWebCpp.Scan.Token
import YXTWebCpp.Http.Split
import YXTWebCpp.Http.Headers

/-!
# The grammar of requests, piece by piece

What the generated automaton does on the pieces of a request that is written as `http11_parser.rl`
has it: the method, the path, the query, the fragment, the version and the header fields each lead
from one state to another, and the callbacks of `HttpRequestParser` store what stands there.

* `UriText`, `NameText`, `ValueText` : the texts of the pieces.
* `Clean` : the parser holds a request, and nothing has gone wrong.
* `At`, `Holds` : a place in the program where the parser holds a given request.
* `passes_method`, `passes_target`, `passes_version`, `passes_fields`,
  `breaks_end` : **the pieces**.
-/

namespace YXTWebCpp

namespace Http

open Scan Scan.Machine Text

/-! ### Edges of the program -/

section

variable {u : Bool} {cs : ℕ} {b : UInt8} {l : Label}

theorem move_of_label (h : gotoLabel u cs b = some l) (hd : Action.done ∉ l.acts) :
    (machine u).move cs b = .go l.acts l.next := by
  simp only [machine, h, if_neg hd]

theorem move_of_label_done (h : gotoLabel u cs b = some l) (hd : Action.done ∈ l.acts) :
    (machine u).move cs b = .brk l.acts l.next := by
  simp only [machine, h, if_pos hd]

end

/-- The bytes of a path that are not part of an escape. -/
def isPathByte (b : UInt8) : Bool :=
  b == 33 || b == 36 || (38 ≤ b && b ≤ 59) || b == 61 || (64 ≤ b && b ≤ 90) || b == 95 ||
    (97 ≤ b && b ≤ 122) || b == 126 || 128 ≤ b

/-- The bytes of a query and of a fragment that are not part of an escape. -/
def isQueryByte (b : UInt8) : Bool := isPathByte b || b == 63

/-- The bytes of a header name. -/
def isTokenByte (b : UInt8) : Bool :=
  b == 33 || (35 ≤ b && b ≤ 39) || b == 42 || b == 43 || b == 45 || b == 46 ||
    (48 ≤ b && b ≤ 57) || (65 ≤ b && b ≤ 90) || (94 ≤ b && b ≤ 122) || b == 124 || b == 126

/-- The bytes of a header value. -/
def isValueByte (b : UInt8) : Bool := b != 0 && b != 10 && b != 13 && b != 127

/-- Texts of bytes of a kind and of escapes. -/
inductive UriText (ok : UInt8 → Bool) : List UInt8 → Prop
  | nil : UriText ok []
  | byte {b : UInt8} {s : List UInt8} (hb : ok b = true) (hs : UriText ok s) : UriText ok (b :: s)
  | escape {h l : UInt8} {s : List UInt8} (hh : isDigit 16 h = true) (hl : isDigit 16 l = true)
      (hs : UriText ok s) : UriText ok (37 :: h :: l :: s)

/-- A state that loops on the bytes of a kind and goes through two more states for an escape. -/
@[mk_iff]
structure UriLoop (u : Bool) (ok : UInt8 → Bool) (q q₁ q₂ : ℕ) : Prop where
  byte : ∀ b, ok b = true → gotoLabel u q b = some (st q)
  percent : gotoLabel u q 37 = some (st q₁)
  high : ∀ b, isDigit 16 b = true → gotoLabel u q₁ b = some (st q₂)
  low : ∀ b, isDigit 16 b = true → gotoLabel u q₂ b = some (st q)

instance (u : Bool) (ok : UInt8 → Bool) (q q₁ q₂ : ℕ) : Decidable (UriLoop u ok q q₁ q₂) :=
  decidable_of_iff _ (uriLoop_iff u ok q q₁ q₂).symm

theorem silent_cons {u : Bool} {cs cs' : ℕ} {b : UInt8} (h : gotoLabel u cs b = some (st cs'))
    (s : List UInt8) : (machine u).silent (b :: s) cs = (machine u).silent s cs' := by
  rw [silent, move_of_label h (by simp [st])]
  rfl

theorem UriLoop.silent {u : Bool} {ok : UInt8 → Bool} {q q₁ q₂ : ℕ} (h : UriLoop u ok q q₁ q₂)
    {s : List UInt8} (hs : UriText ok s) : (machine u).silent s q = some q := by
  induction hs with
  | nil => rfl
  | byte hb _ ih => rw [silent_cons (h.byte _ hb), ih]
  | escape hh hl _ ih =>
    rw [silent_cons h.percent, silent_cons (h.high _ hh), silent_cons (h.low _ hl), ih]

theorem uriLoops : ∀ u, UriLoop u isPathByte 26 27 28 ∧ UriLoop u isQueryByte 30 31 32 ∧
    UriLoop u isQueryByte 21 22 23 := by
  decide +kernel

/-- Where the bytes of a kind lead from the states in front of a token and in it. -/
@[mk_iff]
structure ByteEdges (u : Bool) (b : UInt8) : Prop where
  -- state 33 treats a second slash differently, and everything else as state 26 does
  path : isPathByte b = true → b ≠ 47 → gotoLabel u 33 b = some (st 26)
  query : isQueryByte b = true → gotoLabel u 29 b = some ⟨[.startQuery], 30⟩
  fragment : isQueryByte b = true → gotoLabel u 20 b = some ⟨[.mark], 21⟩
  name : isTokenByte b = true → gotoLabel u 13 b = some ⟨[.startField], 14⟩
  inName : isTokenByte b = true → gotoLabel u 14 b = some (st 14)
  value : isValueByte b = true → b ≠ 32 → b ≠ 9 → gotoLabel u 15 b = some tr28
  inValue : isValueByte b = true → gotoLabel u 16 b = some (st 16)

instance (u : Bool) (b : UInt8) : Decidable (ByteEdges u b) :=
  decidable_of_iff _ (byteEdges_iff u b).symm

theorem byteEdges : ∀ u b, ByteEdges u b := by
  decide +kernel

/-- The first byte of a text runs the actions `as`, and the rest of it is read in the loop. -/
theorem UriLoop.enter {u : Bool} {ok : UInt8 → Bool} {e q q₁ q₂ : ℕ} {as : List Action}
    (h : UriLoop u ok q q₁ q₂) (hbyte : ∀ b, ok b = true → gotoLabel u e b = some ⟨as, q⟩)
    (hpercent : gotoLabel u e 37 = some ⟨as, q₁⟩) {b : UInt8} {s : List UInt8}
    (hs : UriText ok (b :: s)) :
    ∃ q', gotoLabel u e b = some ⟨as, q'⟩ ∧ (machine u).silent s q' = some q := by
  cases hs with
  | byte hb hs => exact ⟨q, hbyte b hb, h.silent hs⟩
  | escape hh hl hs =>
    refine ⟨q₁, hpercent, ?_⟩
    rw [silent_cons (h.high _ hh), silent_cons (h.low _ hl), h.silent hs]

/-! ### Places -/

/-- The parser holds the request `d`, and nothing has gone wrong. -/
structure Clean (d : HttpRequest) (s : HttpRequestParser) : Prop where
  data : s.data = d
  error : s.error = 0
  thrown : s.thrown = false
  xml : s.parser.xmlSent = false
  json : s.parser.jsonSent = false

/-- In state `q`, with the request `d`. -/
def Holds (q : ℕ) (d : HttpRequest) : ℕ → HttpRequestParser → Prop :=
  fun q' s => q' = q ∧ Clean d s

/-- A place in the program. -/
abbrev At (q : ℕ) (d : HttpRequest) : Assertion ℕ UInt8 HttpRequestParser := Always (Holds q d)

/-- The registers for a header field. -/
def fieldRegs : Registers HttpRequestParser where
  start s := s.parser.fieldStart
  len s := s.parser.fieldLen
  mark s := s.parser.mark

/-- A token as a string. -/
theorem stdString_token {m w rest : List UInt8} (hm : m = w ++ rest) (hw : w.length < 2 ^ 62) :
    stdString m w.length = some w := by
  rw [stdString, if_pos hw, hm, List.take_left]

theorem lenTo_add_self (m n : ℕ) : lenTo m (m + n) = n := by
  rw [lenTo_of_le (Nat.le_add_right m n), Nat.add_sub_cancel_left]

theorem Clean.store {d : HttpRequest} {s : HttpRequestParser} (h : Clean d s)
    {at_ v : List UInt8} {n : ℕ} (hv : stdString at_ n = some v)
    (set : HttpRequest → List UInt8 → HttpRequest) : Clean (set d v) (s.store at_ n set) := by
  rw [HttpRequestParser.store, hv, ← h.data]
  exact ⟨rfl, h.error, h.thrown, h.xml, h.json⟩

section Pieces

variable {u : Bool} {d : HttpRequest} {q q₁ q₂ : ℕ} {b : UInt8} {w s : List UInt8}

/-- The registers that the actions `mark`, `startQuery` and `startField` point at a token. -/
inductive Pointer : Action → (HttpRequestParser → ℕ) → Prop
  | mark : Pointer .mark fun s => s.parser.mark
  | query : Pointer .startQuery fun s => s.parser.queryStart
  | field : Pointer .startField fun s => s.parser.fieldStart

/-- A token, from the state in front of it. -/
theorem passes_pointed {a : Action} {reg : HttpRequestParser → ℕ} (ha : Pointer a reg)
    (hb : gotoLabel u q b = some ⟨[a], q₁⟩) (hs : (machine u).silent s q₁ = some q₂) :
    (machine u).Passes act (At q d) (b :: s) (Behind (Holds q₂ d) reg (b :: s)) := by
  have hfirst : (machine u).Passes act (At q d) [b] (Behind (Holds q₁ d) reg [b]) := by
    refine passes_point fun q' s' hs' => ?_
    obtain ⟨rfl, hclean⟩ := hs'
    have hne : Action.done ∉ [a] := by cases ha <;> decide
    refine ⟨[a], q₁, move_of_label hb hne, fun buf p => ?_⟩
    cases ha <;>
      exact ⟨⟨rfl, hclean.data, hclean.error, hclean.thrown, hclean.xml, hclean.json⟩, rfl⟩
  have hrest : (machine u).Passes act (Behind (Holds q₁ d) reg [b]) s
      (Behind (Holds q₂ d) reg (b :: s)) :=
    passes_behind fun q' s' hs' => ⟨q₂, by rw [hs'.1, hs], rfl, hs'.2⟩
  exact hfirst.append hrest

/-- The byte behind a token, where a callback stores it. -/
theorem passes_stored {reg : HttpRequestParser → ℕ} {as : List Action} {d' : HttpRequest}
    (hb : gotoLabel u q b = some ⟨as, q₁⟩) (hd : Action.done ∉ as)
    (hact : ∀ buf p ys s', Clean d s' → buf.drop (reg s') = w ++ b :: ys →
      p = reg s' + w.length → Clean d' (runActs (act buf) p as s')) :
    (machine u).Passes act (Behind (Holds q d) reg w) [b] (At q₁ d') := by
  refine passes_store fun q' s' hs' => ?_
  obtain ⟨rfl, hclean⟩ := hs'
  exact ⟨as, q₁, move_of_label hb hd, fun buf p ys hbuf hp =>
    ⟨rfl, hact buf p ys s' hclean hbuf hp⟩⟩

/-- An edge without actions. -/
theorem passes_edge (hb : gotoLabel u q b = some (st q₁)) :
    (machine u).Passes act (At q d) [b] (At q₁ d) := by
  refine passes_step fun q' s' hs' => ?_
  obtain ⟨rfl, hclean⟩ := hs'
  exact ⟨[], q₁, move_of_label hb (by simp [st]), fun _ _ => ⟨rfl, hclean⟩⟩

/-! ### The request line -/

/-- The names of the methods lead through the first states to a space.  State 2 has no edge for
the hyphen of `M-SEARCH`. -/
theorem method_edges : ∀ u, ∀ e ∈ httpMethodMap, e.1 ≠ .msearch →
    e.2 ≠ [] ∧ gotoLabel u 1 (e.2.headD 0) = some tr0 ∧
      ((machine u).silent e.2.tail 2).bind (fun q => gotoLabel u q 32) = some tr4 := by
  decide

theorem charsToHttpMethod_names : ∀ e ∈ httpMethodMap, charsToHttpMethod (e.2 ++ [32]) = e.1 := by
  decide

theorem httpMethodToString_spec {m : HttpMethod} (hm : m ≠ .invalidMethod) :
    ∃ e ∈ httpMethodMap, e.1 = m ∧ httpMethodToString m = e.2 := by
  have hsome : (httpMethodMap.find? fun e => e.1 == m).isSome = true := by
    cases m <;> first | rfl | exact absurd rfl hm
  obtain ⟨e, he⟩ := Option.isSome_iff_exists.1 hsome
  exact ⟨e, List.mem_of_find?_eq_some he, by simpa using List.find?_some he, by
    rw [httpMethodToString, he]⟩

theorem passes_method {m : HttpMethod} (hm : m ≠ .invalidMethod) (hsearch : m ≠ .msearch) :
    (machine u).Passes act (At 1 d) (httpMethodToString m ++ [32])
      (At 3 { d with method := m }) := by
  obtain ⟨⟨m', name⟩, he, rfl, hname⟩ := httpMethodToString_spec hm
  obtain ⟨hne, hfirst, hrest⟩ := method_edges u _ he hsearch
  obtain ⟨q, hq, hspace⟩ := Option.bind_eq_some_iff.1 hrest
  simp only at hne hfirst hq hname
  obtain ⟨c, name, rfl⟩ := List.exists_cons_of_ne_nil hne
  rw [List.headD_cons] at hfirst
  rw [List.tail_cons] at hq
  rw [hname]
  refine (passes_pointed .mark hfirst hq).append
    (passes_stored hspace (by decide) fun buf p ys s' hs' hbuf hp => ?_)
  have hchars : charsToHttpMethod (c :: name ++ 32 :: ys) = m' :=
    (charsToHttpMethod_append_space _ _ []).trans (charsToHttpMethod_names _ he)
  show Clean _ (onRequestMethod s' (buf.drop s'.parser.mark))
  rw [hbuf, onRequestMethod, hchars, if_neg hm, ← hs'.data]
  exact ⟨rfl, hs'.error, hs'.thrown, hs'.xml, hs'.json⟩

/-- The edges out of the states of the path. -/
theorem path_edges : ∀ u : Bool, ∀ q ∈ [26, 33], gotoLabel u q 32 = some tr37 ∧
    gotoLabel u q 35 = some tr39 ∧ gotoLabel u q 63 = some tr42 := by
  decide

/-- A path: a slash, and what follows does not begin with another one. -/
structure PathText (s : List UInt8) : Prop where
  slash : s.head? = some 47
  single : s.tail.head? ≠ some 47
  text : UriText isPathByte s.tail

theorem passes_path (hw : PathText w) :
    ∃ q ∈ [26, 33], (machine u).Passes act (At 3 d) w
      (Behind (Holds q d) (fun s => s.parser.mark) w) := by
  obtain ⟨hslash, hsingle, htext⟩ := hw
  obtain ⟨s, rfl⟩ : ∃ s, w = 47 :: s := by
    cases w with
    | nil => simp at hslash
    | cons c s => exact ⟨s, by simpa using hslash⟩
  have hfirst : gotoLabel u 3 47 = some ⟨[.mark], 33⟩ := by cases u <;> decide
  rw [List.tail_cons] at hsingle htext
  cases s with
  | nil => exact ⟨33, by decide, passes_pointed .mark hfirst rfl⟩
  | cons c s =>
    have hc : c ≠ 47 := by simpa using hsingle
    have hpercent : gotoLabel u 33 37 = some (st 27) := by cases u <;> decide
    refine ⟨26, by decide, passes_pointed .mark hfirst ?_⟩
    cases htext with
    | byte hb hs =>
      rw [silent_cons ((byteEdges u c).path hb hc), (uriLoops u).1.silent hs]
    | escape hh hl hs =>
      rw [silent_cons hpercent, silent_cons ((uriLoops u).1.high _ hh),
        silent_cons ((uriLoops u).1.low _ hl), (uriLoops u).1.silent hs]

theorem passes_query (hw : UriText isQueryByte w) (hne : w ≠ []) :
    (machine u).Passes act (At 29 d) w (Behind (Holds 30 d) (fun s => s.parser.queryStart) w) := by
  obtain ⟨c, s, rfl⟩ := List.exists_cons_of_ne_nil hne
  obtain ⟨q, hq, hs⟩ :=
    (uriLoops u).2.1.enter (fun b => (byteEdges u b).query) (by cases u <;> decide) hw
  exact passes_pointed .query hq hs

theorem passes_fragment (hw : UriText isQueryByte w) (hne : w ≠ []) :
    (machine u).Passes act (At 20 d) w (Behind (Holds 21 d) (fun s => s.parser.mark) w) := by
  obtain ⟨c, s, rfl⟩ := List.exists_cons_of_ne_nil hne
  obtain ⟨q, hq, hs⟩ :=
    (uriLoops u).2.2.enter (fun b => (byteEdges u b).fragment) (by cases u <;> decide) hw
  exact passes_pointed .mark hq hs

/-- What follows a path: the query and the fragment, each behind its mark, and a space. -/
def targetEnd (query fragment : List UInt8) : List UInt8 :=
  (if query = [] then [] else 63 :: query) ++ (if fragment = [] then [] else 35 :: fragment) ++ [32]

/-- The callback for the path. -/
theorem clean_path (hw : w.length < 2 ^ 62) {buf ys : List UInt8} {p : ℕ}
    {s' : HttpRequestParser} (hs' : Clean d s') (hbuf : buf.drop s'.parser.mark = w ++ ys)
    (hp : p = s'.parser.mark + w.length) :
    Clean { d with path := w }
      (onRequestPath s' (buf.drop s'.parser.mark) (lenTo s'.parser.mark p)) := by
  rw [hp, lenTo_add_self]
  exact hs'.store (stdString_token hbuf hw) fun d v => { d with path := v }

theorem clean_query (hw : w.length < 2 ^ 62) {buf ys : List UInt8} {p : ℕ}
    {s' : HttpRequestParser} (hs' : Clean d s') (hbuf : buf.drop s'.parser.queryStart = w ++ ys)
    (hp : p = s'.parser.queryStart + w.length) :
    Clean { d with query := w }
      (onRequestQuery s' (buf.drop s'.parser.queryStart) (lenTo s'.parser.queryStart p)) := by
  rw [hp, lenTo_add_self]
  exact hs'.store (stdString_token hbuf hw) fun d v => { d with query := v }

theorem clean_fragment (hw : w.length < 2 ^ 62) {buf ys : List UInt8} {p : ℕ}
    {s' : HttpRequestParser} (hs' : Clean d s') (hbuf : buf.drop s'.parser.mark = w ++ ys)
    (hp : p = s'.parser.mark + w.length) :
    Clean { d with fragment := w }
      (onRequestFragment s' (buf.drop s'.parser.mark) (lenTo s'.parser.mark p)) := by
  rw [hp, lenTo_add_self]
  exact hs'.store (stdString_token hbuf hw) fun d v => { d with fragment := v }

/-- A fragment, and the space behind it. -/
theorem passes_fragment_end (hw : UriText isQueryByte w) (hne : w ≠ []) (hlen : w.length < 2 ^ 62) :
    (machine u).Passes act (At 20 d) (w ++ [32]) (At 4 { d with fragment := w }) := by
  have hspace : gotoLabel u 21 32 = some tr47 := by cases u <;> decide
  exact (passes_fragment hw hne).append
    (passes_stored hspace (by decide) fun _ _ _ _ hs' => clean_fragment hlen hs')

/-- A query, and what follows it. -/
theorem passes_query_end {f : List UInt8} (hw : UriText isQueryByte w) (hne : w ≠ [])
    (hlen : w.length < 2 ^ 62) (hf : UriText isQueryByte f) (hflen : f.length < 2 ^ 62)
    (hd : d.fragment = []) :
    (machine u).Passes act (At 29 d) (w ++ targetEnd [] f)
      (At 4 { d with query := w, fragment := f }) := by
  have hspace : gotoLabel u 30 32 = some tr58 := by cases u <;> decide
  have hhash : gotoLabel u 30 35 = some tr59 := by cases u <;> decide
  have hquery := passes_query (u := u) (d := d) hw hne
  by_cases hfne : f = []
  · subst hfne
    have heq : { d with query := w, fragment := [] } = { d with query := w } := by rw [hd]
    rw [heq]
    exact hquery.append (passes_stored hspace (by decide) fun _ _ _ _ hs' =>
      clean_query hlen hs')
  · rw [targetEnd, if_pos rfl, if_neg hfne, List.nil_append, List.cons_append]
    exact hquery.append ((passes_stored hhash (by decide) fun _ _ _ _ hs' =>
      clean_query hlen hs').append (passes_fragment_end hf hfne hflen))

/-- A path, and what follows it. -/
theorem passes_target {query f : List UInt8} (hw : PathText w) (hlen : w.length < 2 ^ 62)
    (hq : UriText isQueryByte query) (hqlen : query.length < 2 ^ 62)
    (hf : UriText isQueryByte f) (hflen : f.length < 2 ^ 62) (hdq : d.query = [])
    (hdf : d.fragment = []) :
    (machine u).Passes act (At 3 d) (w ++ targetEnd query f)
      (At 4 { d with path := w, query := query, fragment := f }) := by
  obtain ⟨q, hmem, hpath⟩ := passes_path (u := u) (d := d) hw
  obtain ⟨hspace, hhash, hmark⟩ := path_edges u q hmem
  by_cases hqne : query = []
  · subst hqne
    by_cases hfne : f = []
    · subst hfne
      have heq : { d with path := w, query := [], fragment := [] } = { d with path := w } := by
        rw [hdq, hdf]
      rw [heq]
      exact hpath.append (passes_stored hspace (by decide) fun _ _ _ _ hs' =>
        clean_path hlen hs')
    · have heq : { d with path := w, query := [], fragment := f } =
          { d with path := w, fragment := f } := by rw [hdq]
      rw [targetEnd, if_pos rfl, if_neg hfne, List.nil_append, List.cons_append, heq]
      exact hpath.append ((passes_stored hhash (by decide) fun _ _ _ _ hs' =>
        clean_path hlen hs').append (passes_fragment_end hf hfne hflen))
  · have htext : targetEnd query f = [63] ++ (query ++ targetEnd [] f) := by
      rw [targetEnd, targetEnd, if_neg hqne, if_pos rfl]
      simp
    rw [htext]
    exact hpath.append ((passes_stored hmark (by decide) fun _ _ _ _ hs' =>
      clean_path hlen hs').append (passes_query_end hq hqne hqlen hf hflen hdf))

/-- The versions, with their texts. -/
def versionText (v : UInt8) : List UInt8 :=
  ascii "HTTP/" ++ digits (v >>> 4).toNat ++ ascii "." ++ digits (v &&& 0x0F).toNat

theorem passes_version {v : UInt8} (hv : v = 0x10 ∨ v = 0x11) :
    (machine u).Passes act (At 4 d) (versionText v ++ [13, 10])
      (At 13 { d with version := v }) := by
  have htext : versionText v = 72 :: (versionText v).tail ∧
      (machine u).silent (versionText v).tail 5 = some 12 := by
    rcases hv with rfl | rfl <;> cases u <;> decide
  have hfirst : gotoLabel u 4 72 = some ⟨[.mark], 5⟩ := by cases u <;> decide
  have hcr : gotoLabel u 12 13 = some tr22 := by cases u <;> decide
  have hlf : gotoLabel u 17 10 = some (st 13) := by cases u <;> decide
  have height : (versionText v).length = 8 := by rcases hv with rfl | rfl <;> decide
  have htoken := passes_pointed (d := d) .mark hfirst htext.2
  rw [← htext.1] at htoken
  have hstored : (machine u).Passes act
      (Behind (Holds 12 d) (fun s => s.parser.mark) (versionText v)) [13]
      (At 17 { d with version := v }) := by
    refine passes_stored hcr (by decide) fun buf p ys s' hs' hbuf hp => ?_
    have hcmp : ∀ name, strncmpEq (versionText v ++ 13 :: ys) name 8 =
        ((cstr (versionText v)).take 8 == (cstr name).take 8) := fun name => by
      rw [strncmpEq, take_cstr, ← height, List.take_left, take_cstr (versionText v),
        List.take_length]
    show Clean _ (onRequestVersion s' (buf.drop s'.parser.mark) (lenTo s'.parser.mark p))
    rw [hbuf, hp, lenTo_add_self, height, onRequestVersion, hcmp, hcmp]
    rcases hv with rfl | rfl
    · rw [if_neg (by decide), if_pos (by decide), ← hs'.data]
      exact ⟨rfl, hs'.error, hs'.thrown, hs'.xml, hs'.json⟩
    · rw [if_pos (by decide), ← hs'.data]
      exact ⟨rfl, hs'.error, hs'.thrown, hs'.xml, hs'.json⟩
  exact htoken.append (hstored.append (passes_edge hlf))

/-! ### Header fields -/

/-- A header name: bytes of a token, one at least. -/
def NameText (k : List UInt8) : Prop := k ≠ [] ∧ ∀ b ∈ k, isTokenByte b = true

instance (k : List UInt8) : Decidable (NameText k) := inferInstanceAs (Decidable (_ ∧ _))

/-- A header value: it does not begin with a blank. -/
def ValueText (v : List UInt8) : Prop :=
  (∀ b ∈ v, isValueByte b = true) ∧ v.head? ≠ some 32 ∧ v.head? ≠ some 9

instance (v : List UInt8) : Decidable (ValueText v) := inferInstanceAs (Decidable (_ ∧ _))

/-- A state that loops on the bytes of a kind. -/
theorem silent_loop {P : UInt8 → Bool} (h : ∀ b, P b = true → gotoLabel u q b = some (st q))
    (hw : ∀ b ∈ w, P b = true) : (machine u).silent w q = some q := by
  obtain ⟨q', rfl, hs⟩ := silent_of_closed (M := machine u) (C := fun q' => q' = q)
    (P := fun b => P b = true) (fun q' b hq hb => ⟨q, rfl, by
      rw [hq]; exact move_of_label (h b hb) (by simp [st])⟩) rfl hw
  exact hs

/-- The name, the colon and the blank behind it. -/
theorem passes_fieldName {k : List UInt8} (hk : NameText k) :
    (machine u).Passes act (At 13 d) (k ++ [58, 32]) (Named fieldRegs (Holds 15 d) k) := by
  obtain ⟨hne, hall⟩ := hk
  obtain ⟨c, k, rfl⟩ := List.exists_cons_of_ne_nil hne
  have hcolon : gotoLabel u 14 58 = some tr27 := by cases u <;> decide
  have hblank : gotoLabel u 15 32 = some tr29 := by cases u <;> decide
  have htoken := passes_pointed (d := d) .field ((byteEdges u c).name (hall c List.mem_cons_self))
    (silent_loop (fun b => (byteEdges u b).inName) fun b hb => hall b (List.mem_cons_of_mem _ hb))
  have hwrite : (machine u).Passes act (Behind (Holds 14 d) fieldRegs.start (c :: k)) [58]
      (Named fieldRegs (Holds 15 d) (c :: k)) := by
    refine passes_name fun q s hs => ?_
    obtain ⟨rfl, hclean⟩ := hs
    refine ⟨_, _, move_of_label hcolon (by decide), fun buf p hp => ⟨⟨rfl, ?_⟩, rfl, ?_⟩⟩
    · exact ⟨hclean.data, hclean.error, hclean.thrown, hclean.xml, hclean.json⟩
    · exact lenTo_of_le hp
  have hstart : (machine u).Passes act (Named fieldRegs (Holds 15 d) (c :: k)) [32]
      (InField fieldRegs (Holds 15 d) (c :: k) [32]) := by
    refine passes_mark fun q s hs => ?_
    obtain ⟨rfl, hclean⟩ := hs
    exact ⟨_, _, move_of_label hblank (by decide), fun buf p =>
      ⟨⟨rfl, hclean.data, hclean.error, hclean.thrown, hclean.xml, hclean.json⟩, rfl, rfl, rfl⟩⟩
  exact htoken.append (hwrite.append (hstart.weaken (fun _ _ _ h => h) fun _ _ _ h => h.named))

/-- The callback for a field. -/
theorem clean_field {k v at₁ at₂ xs ys : List UInt8} (hk : k ≠ []) (hklen : k.length < 2 ^ 62)
    (hvlen : v.length < 2 ^ 62) {s' : HttpRequestParser} (hs' : Clean d s')
    (hfield : at₁ = k ++ xs) (hvalue : at₂ = v ++ ys) :
    Clean (d.setHeader k v) (onRequestHttpField s' at₁ k.length at₂ v.length) := by
  rw [onRequestHttpField, if_neg (by simpa using hk), stdString_token hfield hklen,
    stdString_token hvalue hvlen, ← hs'.data]
  exact ⟨rfl, hs'.error, hs'.thrown, hs'.xml, hs'.json⟩

/-- The value and the end of the line. -/
theorem passes_fieldValue {k v : List UInt8} (hk : k ≠ []) (hklen : k.length < 2 ^ 62)
    (hv : ValueText v) (hvlen : v.length < 2 ^ 62) :
    (machine u).Passes act (Named fieldRegs (Holds 15 d) k) (v ++ [13, 10])
      (At 13 (d.setHeader k v)) := by
  have hlf : gotoLabel u 17 10 = some (st 13) := by cases u <;> decide
  cases v with
  | nil =>
    have hcr : gotoLabel u 15 13 = some tr31 := by cases u <;> decide
    have hstored : (machine u).Passes act (Named fieldRegs (Holds 15 d) k) [13]
        (At 17 (d.setHeader k [])) := by
      refine passes_field_empty fun q s hs => ?_
      obtain ⟨rfl, hclean⟩ := hs
      refine ⟨_, _, move_of_label hcr (by decide), fun buf p xs hbuf hlen => ⟨rfl, ?_⟩⟩
      -- the value is the empty text in front of the line break
      show Clean _ (onRequestHttpField { s with parser := { s.parser with mark := p } }
        (buf.drop s.parser.fieldStart) s.parser.fieldLen (buf.drop p) (lenTo p (p + 0)))
      rw [lenTo_add_self, show s.parser.fieldLen = k.length from hlen]
      exact clean_field hk hklen hvlen
        ⟨hclean.data, hclean.error, hclean.thrown, hclean.xml, hclean.json⟩ hbuf
        (List.nil_append _).symm
    exact hstored.append (passes_edge hlf)
  | cons c v =>
    have hc := hv.1 c List.mem_cons_self
    have hc32 : c ≠ 32 := by simpa using hv.2.1
    have hc9 : c ≠ 9 := by simpa using hv.2.2
    have hfirst := (byteEdges u c).value hc hc32 hc9
    have hcr : gotoLabel u 16 13 = some tr34 := by cases u <;> decide
    have hstart : (machine u).Passes act (Named fieldRegs (Holds 15 d) k) [c]
        (InField fieldRegs (Holds 16 d) k [c]) := by
      refine passes_mark fun q s hs => ?_
      obtain ⟨rfl, hclean⟩ := hs
      exact ⟨_, _, move_of_label hfirst (by decide), fun buf p =>
        ⟨⟨rfl, hclean.data, hclean.error, hclean.thrown, hclean.xml, hclean.json⟩, rfl, rfl, rfl⟩⟩
    have hread : (machine u).Passes act (InField fieldRegs (Holds 16 d) k [c]) v
        (InField fieldRegs (Holds 16 d) k (c :: v)) :=
      passes_inField fun q s hs => ⟨16, by
        rw [hs.1]
        exact silent_loop (fun b => (byteEdges u b).inValue) fun b hb =>
          hv.1 b (List.mem_cons_of_mem _ hb), rfl, hs.2⟩
    have hstored : (machine u).Passes act (InField fieldRegs (Holds 16 d) k (c :: v)) [13]
        (At 17 (d.setHeader k (c :: v))) := by
      refine passes_field fun q s hs => ?_
      obtain ⟨rfl, hclean⟩ := hs
      refine ⟨_, _, move_of_label hcr (by decide), fun buf p xs ys hbuf hlen hvalue hp =>
        ⟨rfl, ?_⟩⟩
      show Clean _ (onRequestHttpField s (buf.drop s.parser.fieldStart) s.parser.fieldLen
        (buf.drop s.parser.mark) (lenTo s.parser.mark p))
      rw [hp, show s.parser.fieldLen = k.length from hlen]
      exact (congrArg (fun n => Clean (d.setHeader k (c :: v)) (onRequestHttpField s
        (buf.drop s.parser.fieldStart) k.length (buf.drop s.parser.mark) n))
        (lenTo_add_self _ _)).mpr (clean_field hk hklen hvlen hclean hbuf hvalue)
    exact hstart.append (hread.append (hstored.append (passes_edge hlf)))

/-- What a line of a header field has to be. -/
@[mk_iff]
structure FieldText (e : List UInt8 × List UInt8) : Prop where
  name : NameText e.1
  value : ValueText e.2
  nameLength : e.1.length < 2 ^ 62
  valueLength : e.2.length < 2 ^ 62

instance (e : List UInt8 × List UInt8) : Decidable (FieldText e) :=
  decidable_of_iff _ (fieldText_iff e).symm

/-- The fields of a header, one after another. -/
theorem passes_fields {es : MapType} : ∀ {d : HttpRequest}, (∀ e ∈ es, FieldText e) →
    (machine u).Passes act (At 13 d)
      ((es.map fun e => headerLine e.1 e.2).flatMap fun line => line ++ ascii "\r\n")
      (At 13 (es.foldl (fun d e => d.setHeader e.1 e.2) d)) := by
  induction es with
  | nil => intro d _; exact passes_nil
  | cons e es ih =>
    intro d hes
    have he := hes e List.mem_cons_self
    have htext : headerLine e.1 e.2 ++ ascii "\r\n" = (e.1 ++ [58, 32]) ++ (e.2 ++ [13, 10]) := by
      have hsep : ascii ": " = [58, 32] := by decide
      have hcrlf : ascii "\r\n" = [13, 10] := by decide
      rw [headerLine, hsep, hcrlf, List.append_assoc, List.append_assoc]
    rw [List.map_cons, List.flatMap_cons, htext]
    exact ((passes_fieldName he.name).append (passes_fieldValue he.name.1 he.nameLength
      he.value he.valueLength)).append (ih fun e' he' => hes e' (List.mem_cons_of_mem _ he'))

/-- The empty line ends the header. -/
theorem breaks_end : (machine u).Breaks act (At 13 d) [13, 10] (At 348 d) := by
  have hcr : gotoLabel u 13 13 = some tr25 := by cases u <;> decide
  have hlf : gotoLabel u 18 10 = some tr36 := by cases u <;> decide
  have hfirst : (machine u).Passes act (At 13 d) [13] (At 18 d) := by
    refine passes_step fun q s hs => ?_
    obtain ⟨rfl, hclean⟩ := hs
    exact ⟨_, _, move_of_label hcr (by decide), fun buf p =>
      ⟨rfl, hclean.data, hclean.error, hclean.thrown, hclean.xml, hclean.json⟩⟩
  have hlast : (machine u).Breaks act (At 18 d) [10] (At 348 d) := by
    refine breaks_step fun q s hs => ?_
    obtain ⟨rfl, hclean⟩ := hs
    refine ⟨_, _, move_of_label_done hlf (by decide), fun buf p => ⟨rfl, ?_⟩⟩
    show Clean d (act buf p .done s)
    simp only [act, hclean.xml, hclean.json, Bool.or_self, Bool.false_eq_true, ↓reduceIte]
    exact ⟨hclean.data, hclean.error, hclean.thrown, rfl, rfl⟩
  exact hfirst.breaks hlast

end Pieces

end Http

end YXTWebCpp
