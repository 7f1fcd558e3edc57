import Mathlib.Data.List.Chain
import YXTWebCpp.Log.Formatter
import YXTWebCpp.Text.Cut

/-!
# Writing log patterns

A pattern that is written for a list of items, and what `LogFormatter::init` (`log.cpp`) makes of
it.

* `PatternItem` : a text or a specifier, as it is written (`PatternItem.write`).
* `WellFormed` : lists of items that a pattern can be written for.
* `parsedFaithfully_iff` : **the items are read back** exactly when no text has a percent sign.
-/

namespace YXTWebCpp

namespace Log

open Http (ascii)

/-- The letter of a specifier. -/
def FormatKind.letter : FormatKind → UInt8
  | .message => 109
  | .level => 112
  | .elapse => 114
  | .name => 99
  | .threadId => 116
  | .newLine => 110
  | .dateTime => 100
  | .filename => 102
  | .line => 108
  | .tab => 84
  | .fiberId => 70
  | .threadName => 78

/-- An item of a pattern, as it is written. -/
inductive PatternItem where
  /-- Text that stands for itself. -/
  | text (str : List UInt8)
  /-- A specifier, with its format if it has one. -/
  | spec (kind : FormatKind) (fmt : Option (List UInt8))
  deriving DecidableEq

/-- Every percent sign is written twice. -/
def double (str : List UInt8) : List UInt8 := str.flatMap fun c => if c = 37 then [37, 37] else [c]

/-- A format is written in braces. -/
def braces : Option (List UInt8) → List UInt8
  | none => []
  | some fmt => 123 :: (fmt ++ [125])

/-- What may follow the name of a specifier that has no format. -/
def EndsName (rest : List UInt8) : Prop :=
  ∀ c ∈ rest.head?, isalpha c = false ∧ c ≠ 123 ∧ c ≠ 125

namespace PatternItem

/-- The text of an item in a pattern. -/
def write : PatternItem → List UInt8
  | text str => double str
  | spec kind fmt => 37 :: kind.letter :: braces fmt

/-- What the item should be read as. -/
def item : PatternItem → FormatItem
  | text str => .string str
  | spec kind fmt => .spec kind (fmt.getD [])

/-- Texts are not empty, and formats have no closing brace. -/
def Ok : PatternItem → Prop
  | text str => str ≠ []
  | spec _ fmt => ∀ f ∈ fmt, 125 ∉ f

/-- The second item may stand behind the first one. -/
def Follows : PatternItem → PatternItem → Prop
  | text _, text _ => False
  | spec _ none, text str => EndsName str
  | _, _ => True

instance : DecidablePred Ok
  | text str => inferInstanceAs (Decidable (str ≠ []))
  | spec _ fmt => inferInstanceAs (Decidable (∀ f ∈ fmt, 125 ∉ f))

instance (rest : List UInt8) : Decidable (EndsName rest) :=
  inferInstanceAs (Decidable (∀ c ∈ rest.head?, isalpha c = false ∧ c ≠ 123 ∧ c ≠ 125))

instance : DecidableRel Follows
  | text _, text _ => isFalse id
  | spec _ none, text str => inferInstanceAs (Decidable (EndsName str))
  | spec _ (some _), _ => isTrue trivial
  | spec _ none, spec _ _ => isTrue trivial
  | text _, spec _ _ => isTrue trivial

end PatternItem

/-- The text of a list of items. -/
def writePattern (items : List PatternItem) : List UInt8 := items.flatMap PatternItem.write

/-- A pattern can be written for the items. -/
structure WellFormed (items : List PatternItem) : Prop where
  ok : ∀ i ∈ items, i.Ok
  follows : items.IsChain PatternItem.Follows

/-- The pattern that is written for the items is read as these items, and has no error. -/
def ParsedFaithfully (items : List PatternItem) : Prop :=
  LogFormatter.items ⟨writePattern items⟩ = items.map PatternItem.item ∧
    LogFormatter.isError ⟨writePattern items⟩ = false

instance (items : List PatternItem) : Decidable (ParsedFaithfully items) :=
  inferInstanceAs (Decidable (_ ∧ _))

/-! ### The inner loop -/

theorem lookup_letter (kind : FormatKind) : formatItems.lookup [kind.letter] = some kind := by
  cases kind <;> decide +kernel

theorem isalpha_letter (kind : FormatKind) : isalpha kind.letter = true ∧ kind.letter ≠ 37 ∧
    kind.letter ≠ 123 := by
  cases kind <;> decide

theorem scanFormat_append {fmt : List UInt8} (h : 125 ∉ fmt) (str acc rest : List UInt8) :
    scanFormat str acc (fmt ++ 125 :: rest) = .spec str (acc ++ fmt) rest := by
  induction fmt generalizing acc with
  | nil => rw [List.nil_append, scanFormat, if_pos rfl, List.append_nil]
  | cons c fmt ih =>
    have hc : c ≠ 125 := fun hc => h (hc ▸ List.mem_cons_self)
    rw [List.cons_append, scanFormat, if_neg hc, ih fun hf => h (List.mem_cons_of_mem _ hf),
      List.append_assoc, List.singleton_append]

theorem scanName_end {rest : List UInt8} (h : EndsName rest) (str : List UInt8) :
    scanName str rest = .spec str [] rest := by
  cases rest with
  | nil => rfl
  | cons c rest =>
    obtain ⟨halpha, hopen, hclose⟩ := h c rfl
    rw [scanName, if_pos]
    simp [halpha, hopen, hclose]

/-- A specifier is read with its format, up to its end. -/
theorem scanName_spec (kind : FormatKind) {fmt : Option (List UInt8)} (hfmt : ∀ f ∈ fmt, 125 ∉ f)
    {rest : List UInt8} (hrest : fmt = none → EndsName rest) :
    scanName [] (kind.letter :: (braces fmt ++ rest)) = .spec [kind.letter] (fmt.getD []) rest := by
  obtain ⟨halpha, -, hopen⟩ := isalpha_letter kind
  rw [scanName, if_neg (by simp [halpha]), if_neg hopen, List.nil_append]
  cases fmt with
  | none => exact scanName_end (hrest rfl) _
  | some f =>
    rw [braces, List.cons_append, scanName, if_neg (by decide), if_pos rfl, List.append_assoc]
    exact scanFormat_append (hfmt f rfl) _ _ _

/-! ### The outer loop -/

theorem initLoop_skip (nstr a cs : List UInt8) :
    initLoop a.length nstr (a ++ cs) = initLoop 0 nstr cs := by
  induction a with
  | nil => rfl
  | cons c a ih => exact ih

theorem initLoop_text {t : List UInt8} (h : 37 ∉ t) (nstr cs : List UInt8) :
    initLoop 0 nstr (t ++ cs) = initLoop 0 (nstr ++ t) cs := by
  induction t generalizing nstr with
  | nil => rw [List.nil_append, List.append_nil]
  | cons c t ih =>
    have hc : c ≠ 37 := fun hc => h (hc ▸ List.mem_cons_self)
    rw [List.cons_append, initLoop, if_pos hc, ih fun ht => h (List.mem_cons_of_mem _ ht),
      List.append_assoc, List.singleton_append]

theorem initLoop_spec (kind : FormatKind) {fmt : Option (List UInt8)} (hfmt : ∀ f ∈ fmt, 125 ∉ f)
    {rest : List UInt8} (hrest : fmt = none → EndsName rest) (nstr : List UInt8) :
    initLoop 0 nstr (37 :: kind.letter :: (braces fmt ++ rest)) =
      (flush nstr ++ .spec [kind.letter] (fmt.getD []) :: (initLoop 0 [] rest).1,
        (initLoop 0 [] rest).2) := by
  have hskip := initLoop_skip [] (kind.letter :: braces fmt) rest
  have hlength : (kind.letter :: (braces fmt ++ rest)).length - rest.length =
      (kind.letter :: braces fmt).length := by
    rw [← List.cons_append, List.length_append, Nat.add_sub_cancel]
  rw [List.cons_append] at hskip
  have hhead : (kind.letter :: (braces fmt ++ rest)).head? ≠ some 37 := fun h =>
    (isalpha_letter kind).2.1 (Option.some.inj h)
  rw [initLoop, if_neg (fun h => h rfl), if_neg hhead, scanName_spec kind hfmt hrest]
  simp only [hlength, hskip]

/-- All percent signs but the last of a run are taken for text. -/
theorem initLoop_percents (k : ℕ) (nstr cs : List UInt8) :
    initLoop 0 nstr (37 :: (List.replicate k 37 ++ cs)) =
      initLoop 0 (nstr ++ List.replicate k 37) (37 :: cs) := by
  induction k generalizing nstr with
  | zero => rw [List.replicate_zero, List.nil_append, List.append_nil]
  | succ k ih =>
    rw [List.replicate_succ, List.cons_append, initLoop, if_neg fun h => h rfl,
      if_pos (List.head?_cons), ih, List.append_assoc, List.singleton_append]

/-! ### What was read -/

/-- The entries stand for the items, and there is no error. -/
def Read (r : List Entry × Bool) (items : List FormatItem) : Prop :=
  (r.1.map fun e => e.item.1) = items ∧ (r.2 || r.1.any fun e => e.item.2) = false

/-- The item for the text that has been collected, if any. -/
def pending (nstr : List UInt8) : List FormatItem := if nstr = [] then [] else [.string nstr]

theorem read_flush (nstr : List UInt8) (r : List Entry × Bool) (items : List FormatItem) :
    Read (flush nstr ++ r.1, r.2) (pending nstr ++ items) ↔ Read r items := by
  by_cases hn : nstr = []
  · rw [flush, pending, if_pos hn, if_pos hn]
    rfl
  · rw [flush, pending, if_neg hn, if_neg hn]
    simp [Read, Entry.item]

theorem read_spec (kind : FormatKind) (fmt : List UInt8) (r : List Entry × Bool)
    (items : List FormatItem) :
    Read (.spec [kind.letter] fmt :: r.1, r.2) (.spec kind fmt :: items) ↔ Read r items := by
  simp [Read, Entry.item, lookup_letter]

/-- A percent sign behind which no other follows ends the text in front of it, or is an error. -/
theorem read_percent {nstr cs : List UInt8} (hcs : cs.head? ≠ some 37) (hn : nstr ≠ [])
    {items : List FormatItem} (h : Read (initLoop 0 nstr (37 :: cs)) items) :
    items.head? = some (.string nstr) ∧ cs ≠ [] := by
  rw [initLoop, if_neg fun h => h rfl, if_neg hcs] at h
  obtain ⟨hitems, herror⟩ := h
  cases hscan : scanName [] cs with
  | unclosed =>
    simp only [hscan] at herror
    cases herror
  | spec str fmt rest =>
    simp only [hscan, flush, if_neg hn] at hitems herror
    refine ⟨hitems ▸ rfl, ?_⟩
    rintro rfl
    cases hscan
    -- a specifier without a name is unknown
    have hitem : (Entry.spec [] []).item.2 = true := by decide +kernel
    simp [hitem] at herror

/-! ### Patterns -/

theorem double_cons (c : UInt8) (str : List UInt8) :
    double (c :: str) = (if c = 37 then [37, 37] else [c]) ++ double str := List.flatMap_cons

theorem double_append (a b : List UInt8) : double (a ++ b) = double a ++ double b :=
  List.flatMap_append

theorem double_of_notMem {str : List UInt8} (h : 37 ∉ str) : double str = str := by
  induction str with
  | nil => rfl
  | cons c str ih =>
    have hc : c ≠ 37 := fun hc => h (hc ▸ List.mem_cons_self)
    rw [double_cons, if_neg hc, ih fun hs => h (List.mem_cons_of_mem _ hs), List.singleton_append]

theorem double_replicate (k : ℕ) : double (List.replicate k 37) = List.replicate (k + k) 37 := by
  induction k with
  | zero => rfl
  | succ k ih =>
    rw [List.replicate_succ, double_cons, if_pos rfl, ih, Nat.add_add_add_comm, Nat.add_comm]
    rfl

theorem head?_double (str : List UInt8) : (double str).head? = str.head? := by
  cases str with
  | nil => rfl
  | cons c str =>
    rw [double_cons]
    split_ifs with hc
    · rw [hc]
      rfl
    · rfl

theorem writePattern_cons (i : PatternItem) (items : List PatternItem) :
    writePattern (i :: items) = i.write ++ writePattern items := List.flatMap_cons

theorem WellFormed.tail {i : PatternItem} {items : List PatternItem}
    (h : WellFormed (i :: items)) : WellFormed items :=
  ⟨fun j hj => h.ok j (List.mem_cons_of_mem _ hj), h.follows.tail⟩

/-- What stands behind a specifier without format ends its name. -/
theorem WellFormed.endsName {kind : FormatKind} {items : List PatternItem}
    (h : WellFormed (.spec kind none :: items)) : EndsName (writePattern items) := by
  intro c hc
  cases items with
  | nil => cases hc
  | cons i items =>
    rw [writePattern_cons] at hc
    cases i with
    | spec kind' fmt =>
      cases hc
      decide
    | text str =>
      have hfollows : EndsName str := (List.isChain_cons_cons.1 h.follows).1
      have hne : double str ≠ [] := fun hnil => by
        have hok := h.ok _ (List.mem_cons_of_mem _ List.mem_cons_self)
        rw [← List.head?_eq_none_iff, head?_double, List.head?_eq_none_iff] at hnil
        exact hok hnil
      rw [PatternItem.write, List.head?_append_of_ne_nil _ hne, head?_double] at hc
      exact hfollows c hc

/-- A text with a percent sign is not read back. -/
theorem not_read_percent {a b : List UInt8} {rest : List PatternItem}
    (h : WellFormed (.text (a ++ 37 :: b) :: rest)) {items : List FormatItem} :
    ¬ Read (initLoop 0 a (37 :: 37 :: (double b ++ writePattern rest)))
      (.string (a ++ 37 :: b) :: items) := by
  intro hread
  obtain ⟨k, cs, hrun, hcs⟩ := Text.exists_leadingRun 37 (double b ++ writePattern rest)
  have hloop := initLoop_percents (k + 1) a cs
  rw [List.replicate_succ, List.cons_append, ← hrun] at hloop
  rw [hloop] at hread
  obtain ⟨hhead, hne⟩ := read_percent hcs (by simp) hread
  -- the text that was read ends where the text that was written does only for a single sign
  have hb : b = List.replicate k 37 := by
    simpa using hhead
  rw [hb, double_replicate, List.replicate_add, List.append_assoc, List.append_cancel_left_eq]
    at hrun
  cases k with
  | succ k =>
    rw [← hrun] at hcs
    exact hcs rfl
  | zero =>
    rw [List.replicate_zero, List.nil_append] at hrun
    subst hrun
    cases rest with
    | nil => exact hne rfl
    | cons i rest =>
      cases i with
      | text str => exact (List.isChain_cons_cons.1 h.follows).1
      | spec kind fmt => exact hcs rfl

/-- What is read of the items, behind text that has been collected already. -/
theorem read_iff {items : List PatternItem} (h : WellFormed items) (nstr : List UInt8)
    (hn : nstr ≠ [] → ∀ str, items.head? ≠ some (.text str)) :
    Read (initLoop 0 nstr (writePattern items)) (pending nstr ++ items.map PatternItem.item) ↔
      ∀ str, .text str ∈ items → 37 ∉ str := by
  induction items generalizing nstr with
  | nil =>
    refine iff_of_true ?_ fun str hs => absurd hs List.not_mem_nil
    have hread := (read_flush nstr ([], false) []).2 ⟨rfl, rfl⟩
    rw [List.append_nil] at hread
    exact hread
  | cons i items ih =>
    rw [writePattern_cons]
    cases i with
    | spec kind fmt =>
      have hrest : fmt = none → EndsName (writePattern items) := fun hf => by
        subst hf
        exact h.endsName
      have hread := ih h.tail [] fun hnil => absurd rfl hnil
      rw [PatternItem.write, List.cons_append, List.cons_append,
        initLoop_spec kind (h.ok _ List.mem_cons_self) hrest, List.map_cons]
      refine (read_flush nstr (_ :: _, _) _).trans ((read_spec kind _ _ _).trans (hread.trans ?_))
      simp
    | text str =>
      have hnil : nstr = [] := by
        by_contra hne
        exact hn hne str rfl
      subst hnil
      have hstr : str ≠ [] := h.ok _ List.mem_cons_self
      by_cases hp : 37 ∈ str
      · obtain ⟨a, b, rfl, ha⟩ := List.eq_append_cons_of_mem hp
        refine iff_of_false ?_ fun hall => hall _ List.mem_cons_self hp
        rw [PatternItem.write, double_append, double_cons, if_pos rfl, double_of_notMem ha,
          List.append_assoc, initLoop_text ha]
        exact not_read_percent h
      · have hhead : ∀ str', items.head? ≠ some (.text str') := fun str' hs => by
          cases items with
          | nil => cases hs
          | cons i items =>
            cases hs
            exact (List.isChain_cons_cons.1 h.follows).1
        have hread := ih h.tail str fun _ => hhead
        rw [pending, if_neg hstr] at hread
        rw [PatternItem.write, double_of_notMem hp, initLoop_text hp]
        refine hread.trans ?_
        simp [hp]

/-- **Log patterns**: the items are read back exactly when no text has a percent sign. -/
theorem parsedFaithfully_iff {items : List PatternItem} (h : WellFormed items) :
    ParsedFaithfully items ↔ ∀ str, .text str ∈ items → 37 ∉ str :=
  read_iff h [] fun hn => absurd rfl hn

/-- `[%p]%d\x7b%H:%M\x7d` -/
theorem parsedFaithfully_iff_level : ParsedFaithfully [.text (ascii "["), .spec .level none,
    .text (ascii "]"), .spec .dateTime (some (ascii "%H:%M"))] :=
  (parsedFaithfully_iff ⟨by decide +kernel, by decide +kernel⟩).2 (by simp [ascii])

/-- The second of two percent signs begins a specifier. -/
theorem not_parsedFaithfully_percent :
    let items : List PatternItem := [.text (ascii "100%")]
    WellFormed items ∧ ¬ ParsedFaithfully items ∧
      LogFormatter.items ⟨writePattern items⟩ =
        [.string (ascii "100%"), .string (ascii "<<error_format %>>")] := by
  refine ⟨⟨by decide +kernel, by decide +kernel⟩, by decide +kernel, by decide +kernel⟩

end Log

end YXTWebCpp
