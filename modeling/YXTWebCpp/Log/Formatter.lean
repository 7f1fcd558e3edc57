import YXTWebCpp.Http.Request

/-!
# Log patterns

`LogFormatter` (`log.cpp`) reads a pattern of literal text and specifiers such as `%m` or
`%d{%H:%M}`, once, in its constructor: the items and the error flag are functions of the
pattern.

* `scanName`, `scanFormat` : the inner loop of `LogFormatter::init`, which reads a specifier.
* `initLoop` : the outer loop.
* `LogFormatter` : a pattern, with `LogFormatter.items` and `LogFormatter.isError`.
-/

namespace YXTWebCpp

namespace Log

open Http (ascii)

/-- `isalpha` in the C locale. -/
def isalpha (c : UInt8) : Bool := (65 ≤ c && c ≤ 90) || (97 ≤ c && c ≤ 122)

/-- The `FormatItem`s that specifiers stand for. -/
inductive FormatKind where
  | message | level | elapse | name | threadId | newLine | dateTime | filename | line | tab
  | fiberId | threadName
  deriving DecidableEq, Repr

/-- `s_format_items` -/
def formatItems : List (List UInt8 × FormatKind) := [
  (ascii "m", .message), (ascii "p", .level), (ascii "r", .elapse), (ascii "c", .name),
  (ascii "t", .threadId), (ascii "n", .newLine), (ascii "d", .dateTime), (ascii "f", .filename),
  (ascii "l", .line), (ascii "T", .tab), (ascii "F", .fiberId), (ascii "N", .threadName)]

/-- A `FormatItem`. -/
inductive FormatItem where
  /-- `StringFormatItem` -/
  | string (str : List UInt8)
  /-- The item of a specifier, with its format. -/
  | spec (kind : FormatKind) (fmt : List UInt8)
  deriving DecidableEq

/-- What the inner loop of `init` finds behind a `%`. -/
inductive Scanned where
  /-- `fmt_status` is 0: a specifier, its format, and what follows. -/
  | spec (str fmt rest : List UInt8)
  /-- `fmt_status` is 1: a brace is not closed. -/
  | unclosed
  deriving DecidableEq

/-- The inner loop with `fmt_status` 1: `fmt` lies behind the brace. -/
def scanFormat (str : List UInt8) : List UInt8 → List UInt8 → Scanned
  | _, [] => .unclosed
  | fmt, c :: cs => if c = 125 then .spec str fmt cs else scanFormat str (fmt ++ [c]) cs

/-- The inner loop with `fmt_status` 0: `str` lies behind the `%`.  A closing brace is taken for
part of it. -/
def scanName : List UInt8 → List UInt8 → Scanned
  | str, [] => .spec str [] []
  | str, c :: cs =>
    if !isalpha c && c != 123 && c != 125 then .spec str [] (c :: cs)
    else if c = 123 then scanFormat str [] cs
    else scanName (str ++ [c]) cs

/-- An entry of `vec`. -/
inductive Entry where
  /-- The last component is 0. -/
  | text (str : List UInt8)
  /-- The last component is 1. -/
  | spec (str fmt : List UInt8)
  deriving DecidableEq

/-- The text that has been collected, if any. -/
def flush (nstr : List UInt8) : List Entry := if nstr = [] then [] else [.text nstr]

/-- The outer loop of `init` on the rest of the pattern: the entries of `vec` and whether a brace is
not closed.  `skip` bytes belong to the specifier that was read last, and `nstr` is the text
collected since. -/
def initLoop : ℕ → List UInt8 → List UInt8 → List Entry × Bool
  | _, nstr, [] => (flush nstr, false)
  | skip + 1, nstr, _ :: cs => initLoop skip nstr cs
  | 0, nstr, c :: cs =>
    if c ≠ 37 then initLoop 0 (nstr ++ [c]) cs
    else if cs.head? = some 37 then initLoop 0 (nstr ++ [37]) cs
    else
      match scanName [] cs with
      | .spec str fmt rest =>
        let r := initLoop (cs.length - rest.length) [] cs
        (flush nstr ++ .spec str fmt :: r.1, r.2)
      | .unclosed =>
        let r := initLoop 0 nstr cs
        (.text (ascii "<<pattern_error>>") :: r.1, true)

/-- The item of an entry, and whether the specifier is unknown. -/
def Entry.item : Entry → FormatItem × Bool
  | .text str => (.string str, false)
  | .spec str fmt =>
    match formatItems.lookup str with
    | some kind => (.spec kind fmt, false)
    | none => (.string (ascii "<<error_format %" ++ str ++ ascii ">>"), true)

/-- `LogFormatter`, by its pattern. -/
structure LogFormatter where
  /-- `m_pattern` -/
  pattern : List UInt8
  deriving DecidableEq

namespace LogFormatter

/-- `m_items` -/
def items (f : LogFormatter) : List FormatItem :=
  (initLoop 0 [] f.pattern).1.map fun e => e.item.1

/-- `isError()` -/
def isError (f : LogFormatter) : Bool :=
  (initLoop 0 [] f.pattern).2 || (initLoop 0 [] f.pattern).1.any fun e => e.item.2

/-- The default of the constructor, which every `Logger` begins with. -/
def default : LogFormatter :=
  ⟨ascii "%d\x7b%Y-%m-%d %H:%M:%S\x7d%T%t%T%N%T%F%T[%p]%T[%c]%T%f:%l%T%m%n"⟩

/-- The default pattern has no error. -/
theorem isError_default : default.isError = false := by decide +kernel

end LogFormatter

end Log

end YXTWebCpp
