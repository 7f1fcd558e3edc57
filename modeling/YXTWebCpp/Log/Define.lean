import YXTWebCpp.Log.Config
import YXTWebCpp.Yaml.Node

/-!
# Definitions of loggers as text

`LexicalCast<LogDefine, std::string>` and `LexicalCast<std::string, LogDefine>` (`log.cpp`) write a
definition as YAML and read it again.

* `YamlCpp` : the functions of the library that the two use.
* `LogDefine.toYaml`, `LogDefine.ofYaml` : the two conversions, on trees.
* `LogDefine.Survives` : a definition is read back as it was.
* `survives_iff` : which definitions are.
-/

namespace YXTWebCpp

namespace Log

open Http (ascii)
open Yaml

/-! ### Levels -/

/-- `LogLevel::ToString` -/
def LogLevel.toString : LogLevel → List UInt8
  | .debug => ascii "DEBUG"
  | .info => ascii "INFO"
  | .warn => ascii "WARN"
  | .error => ascii "ERROR"
  | .fatal => ascii "FATAL"
  | .unknow => ascii "UNKNOW"

/-- The comparisons of `LogLevel::FromString`. -/
def logLevels : List (List UInt8 × LogLevel) := [
  (ascii "debug", .debug), (ascii "info", .info), (ascii "warn", .warn), (ascii "error", .error),
  (ascii "fatal", .fatal), (ascii "DEBUG", .debug), (ascii "INFO", .info), (ascii "WARN", .warn),
  (ascii "ERROR", .error), (ascii "FATAL", .fatal)]

/-- `LogLevel::FromString` -/
def LogLevel.fromString (str : List UInt8) : LogLevel := (logLevels.lookup str).getD .unknow

theorem fromString_toString (level : LogLevel) :
    LogLevel.fromString level.toString = level := by
  cases level <;> decide +kernel

theorem fromString_nil : LogLevel.fromString [] = .unknow := by decide +kernel

/-! ### The conversions -/

/-- A tree whose scalars are bytes. -/
abbrev YamlNode := Node (List UInt8)

/-- What the conversions use of yaml-cpp. -/
structure YamlCpp where
  /-- `YAML::Load` -/
  load : List UInt8 → YamlNode
  /-- `os << n` -/
  emit : YamlNode → List UInt8

/-- The node of an appender. -/
def LogAppenderDefine.toYaml (y : YamlCpp) (a : LogAppenderDefine) : YamlNode :=
  let na : YamlNode := .null
  let na :=
    if a.type = 1 then
      (na.set (ascii "type") (y.load (ascii "FileLogAppender"))).set (ascii "file") (y.load a.file)
    else if a.type = 2 then na.set (ascii "type") (y.load (ascii "StdoutLogAppender"))
    else na
  let na := if a.level ≠ .unknow then na.set (ascii "level") (.scalar a.level.toString) else na
  if a.formatter ≠ [] then na.set (ascii "formatter") (.scalar a.formatter) else na

/-- `n["appenders"].push_back(na)` -/
def pushAppender (y : YamlCpp) (n : YamlNode) (a : LogAppenderDefine) : YamlNode :=
  n.set (ascii "appenders") (((n.get (ascii "appenders")).getD .null).push (a.toYaml y))

/-- The entries of the node of a definition in front of its appenders. -/
def LogDefine.header (y : YamlCpp) (i : LogDefine) : YamlNode :=
  let n : YamlNode := Node.null.set (ascii "name") (y.load i.name)
  let n := if i.level ≠ .unknow then n.set (ascii "level") (y.load i.level.toString) else n
  if i.formatter ≠ [] then n.set (ascii "formatter") (y.load i.formatter) else n

/-- The tree that `LexicalCast<LogDefine, std::string>` writes. -/
def LogDefine.toYaml (y : YamlCpp) (i : LogDefine) : YamlNode :=
  i.appenders.foldl (pushAppender y) (i.header y)

/-- What `LexicalCast<std::string, LogDefine>` throws. -/
inductive CastError where
  /-- `std::logic_error("log config name is null")` -/
  | nameNull
  /-- An exception of yaml-cpp. -/
  | yaml (e : YamlError)
  deriving DecidableEq

/-- `n[key].as<std::string>()`, if it is defined. -/
def textAt (n : YamlNode) (key : List UInt8) : Except CastError (Option (List UInt8)) :=
  match n.subscript key with
  | .error e => .error (.yaml e)
  | .ok none => .ok none
  | .ok (some v) =>
    match v.asScalar with
    | .error e => .error (.yaml e)
    | .ok s => .ok (some s)

/-- One round of the loop over the appenders, `none` where it goes on with the next one. -/
def LogAppenderDefine.ofYaml (a : YamlNode) : Except CastError (Option LogAppenderDefine) := do
  let some type ← textAt a (ascii "type") | return none
  if type = ascii "FileLogAppender" then
    let some file ← textAt a (ascii "file") | return none
    let formatter ← textAt a (ascii "formatter")
    return some ⟨1, .unknow, formatter.getD [], file⟩
  else if type = ascii "StdoutLogAppender" then
    let formatter ← textAt a (ascii "formatter")
    return some ⟨2, .unknow, formatter.getD [], []⟩
  else return none

/-- What `LexicalCast<std::string, LogDefine>` makes of a tree.  A map of appenders, which has no
numbers for keys, has no appender. -/
def LogDefine.ofYaml (n : YamlNode) : Except CastError LogDefine := do
  let some name ← textAt n (ascii "name") | throw .nameNull
  let level ← textAt n (ascii "level")
  let formatter ← textAt n (ascii "formatter")
  let appenders ← ((n.get (ascii "appenders")).getD .null).nodes.mapM LogAppenderDefine.ofYaml
  return ⟨name, .fromString (level.getD []), formatter.getD [], appenders.reduceOption⟩

/-- `LexicalCast<LogDefine, std::string>` -/
def LogDefine.toText (y : YamlCpp) (i : LogDefine) : List UInt8 := y.emit (i.toYaml y)

/-- `LexicalCast<std::string, LogDefine>` -/
def LogDefine.ofText (y : YamlCpp) (v : List UInt8) : Except CastError LogDefine :=
  LogDefine.ofYaml (y.load v)

/-- A definition is read back as it was written. -/
def LogDefine.Survives (y : YamlCpp) (i : LogDefine) : Prop :=
  LogDefine.ofText y (i.toText y) = .ok i

/-- The texts that are loaded as scalars. -/
def LogDefine.texts (i : LogDefine) : List (List UInt8) :=
  i.name :: (if i.level ≠ .unknow then [i.level.toString] else []) ++
    (if i.formatter ≠ [] then [i.formatter] else []) ++
    i.appenders.flatMap fun a =>
      if a.type = 1 then [ascii "FileLogAppender", a.file]
      else if a.type = 2 then [ascii "StdoutLogAppender"]
      else []

/-- What is emitted for the definition is loaded as it was, and its texts as scalars. -/
structure YamlCpp.Loads (y : YamlCpp) (i : LogDefine) : Prop where
  tree : y.load (y.emit (i.toYaml y)) = i.toYaml y
  text : ∀ t ∈ i.texts, y.load t = .scalar t

/-! ### One appender -/

theorem textAt_eq {n : YamlNode} (h : ∀ s, n ≠ .scalar s) (key : List UInt8)
    {o : Option (List UInt8)} (hget : n.get key = o.map .scalar) : textAt n key = .ok o := by
  have hsub : n.subscript key = .ok (n.get key) := by
    cases n with
    | scalar s => exact absurd rfl (h s)
    | _ => rfl
  rw [textAt, hsub, hget]
  cases o <;> rfl

theorem get_ite_set (c : Prop) [Decidable c] (n : YamlNode) (key key' : List UInt8) (v : YamlNode) :
    (if c then n.set key v else n).get key' =
      if c ∧ key' = key then some v else n.get key' := by
  by_cases h : c <;> simp [h]

theorem ite_set_ne_scalar (c : Prop) [Decidable c] {n : YamlNode} (h : ∀ s, n ≠ .scalar s)
    (key : List UInt8) (v : YamlNode) (s : List UInt8) :
    (if c then n.set key v else n) ≠ .scalar s := by
  split_ifs
  · rintro ⟨⟩
  · exact h s

section Appender

variable {y : YamlCpp} (a : LogAppenderDefine)

/-- The name of the type of an appender. -/
def LogAppenderDefine.typeName : Option (List UInt8) :=
  if a.type = 1 then some (ascii "FileLogAppender")
  else if a.type = 2 then some (ascii "StdoutLogAppender")
  else none

theorem toYaml_ne_scalar (s : List UInt8) : a.toYaml y ≠ .scalar s := by
  refine ite_set_ne_scalar _ (ite_set_ne_scalar _ ?_ _ _) _ _ s
  intro s
  split_ifs <;> rintro ⟨⟩

theorem textAt_type
    (h1 : a.type = 1 → y.load (ascii "FileLogAppender") = .scalar (ascii "FileLogAppender"))
    (h2 : a.type = 2 → y.load (ascii "StdoutLogAppender") = .scalar (ascii "StdoutLogAppender")) :
    textAt (a.toYaml y) (ascii "type") = .ok a.typeName := by
  have hfmt : ascii "type" ≠ ascii "formatter" := by decide
  have hlevel : ascii "type" ≠ ascii "level" := by decide
  have hfilename : ascii "type" ≠ ascii "file" := by decide
  refine textAt_eq (toYaml_ne_scalar a) _ ?_
  simp only [LogAppenderDefine.toYaml, get_ite_set, hfmt, hlevel, and_false, if_false,
    LogAppenderDefine.typeName]
  split_ifs with h h'
  · simp [hfilename, h1 h]
  · simp [h2 h']
  · rfl

theorem textAt_file (hfile : a.type = 1 → y.load a.file = .scalar a.file) :
    textAt (a.toYaml y) (ascii "file") = .ok (if a.type = 1 then some a.file else none) := by
  have hfmt : ascii "file" ≠ ascii "formatter" := by decide
  have hlevel : ascii "file" ≠ ascii "level" := by decide
  have htype : ascii "file" ≠ ascii "type" := by decide
  refine textAt_eq (toYaml_ne_scalar a) _ ?_
  simp only [LogAppenderDefine.toYaml, get_ite_set, hfmt, hlevel, and_false, if_false]
  split_ifs with h
  · simp [hfile h]
  · simp [htype]
  · rfl

theorem textAt_formatter : textAt (a.toYaml y) (ascii "formatter") =
    .ok (if a.formatter ≠ [] then some a.formatter else none) := by
  have hlevel : ascii "formatter" ≠ ascii "level" := by decide
  have htype : ascii "formatter" ≠ ascii "type" := by decide
  have hfilename : ascii "formatter" ≠ ascii "file" := by decide
  refine textAt_eq (toYaml_ne_scalar a) _ ?_
  simp only [LogAppenderDefine.toYaml, get_ite_set, hlevel, and_false, and_true, if_false]
  split_ifs <;> simp [htype, hfilename]

theorem getD_ite_ne_nil (s : List UInt8) : (if s ≠ [] then some s else none).getD [] = s := by
  split_ifs with h
  · rfl
  · exact (not_not.1 h).symm

/-- What is read of an appender : its level never is. -/
def LogAppenderDefine.read : Option LogAppenderDefine :=
  if a.type = 1 then some ⟨1, .unknow, a.formatter, a.file⟩
  else if a.type = 2 then some ⟨2, .unknow, a.formatter, []⟩
  else none

theorem ofYaml_toYaml
    (h1 : a.type = 1 → y.load (ascii "FileLogAppender") = .scalar (ascii "FileLogAppender"))
    (h2 : a.type = 2 → y.load (ascii "StdoutLogAppender") = .scalar (ascii "StdoutLogAppender"))
    (hfile : a.type = 1 → y.load a.file = .scalar a.file) :
    LogAppenderDefine.ofYaml (a.toYaml y) = .ok a.read := by
  have hne : ascii "StdoutLogAppender" ≠ ascii "FileLogAppender" := by decide
  have hfmt := getD_ite_ne_nil a.formatter
  rw [LogAppenderDefine.ofYaml, textAt_type a h1 h2, textAt_file a hfile, textAt_formatter a,
    LogAppenderDefine.typeName, LogAppenderDefine.read]
  generalize (if a.formatter ≠ [] then some a.formatter else none) = o at hfmt ⊢
  rw [← hfmt]
  by_cases h : a.type = 1
  · rw [if_pos h, if_pos h, if_pos h]
    rfl
  · rw [if_neg h, if_neg h, if_neg h]
    by_cases h' : a.type = 2
    · rw [if_pos h', if_pos h']
      simp only [bind, Except.bind, pure, Except.pure, if_neg hne, if_true]
    · rw [if_neg h', if_neg h']
      rfl

/-- An appender is read as it was written when it is of a type that there is, and has nothing that
is not read. -/
theorem read_eq_some_iff : a.read = some a ↔
    (a.type = 1 ∨ a.type = 2) ∧ a.level = .unknow ∧ (a.type = 2 → a.file = []) := by
  obtain ⟨type, level, formatter, file⟩ := a
  rw [LogAppenderDefine.read]
  split_ifs with h h' <;> simp_all [eq_comm]

end Appender

/-! ### The whole definition -/

theorem get_foldl_push (y : YamlCpp) (as : List LogAppenderDefine) (n : YamlNode) :
    (((as.foldl (pushAppender y) n).get (ascii "appenders")).getD .null).nodes =
      ((n.get (ascii "appenders")).getD .null).nodes ++ as.map (LogAppenderDefine.toYaml y) := by
  induction as generalizing n with
  | nil => exact (List.append_nil _).symm
  | cons a as ih =>
    rw [List.foldl_cons, ih, pushAppender, Node.get_set, if_pos rfl, Option.getD_some]
    exact List.append_assoc _ [_] _

theorem get_foldl_push_of_ne (y : YamlCpp) (as : List LogAppenderDefine) (n : YamlNode)
    {key : List UInt8} (h : key ≠ ascii "appenders") :
    (as.foldl (pushAppender y) n).get key = n.get key := by
  induction as generalizing n with
  | nil => rfl
  | cons a as ih => rw [List.foldl_cons, ih, pushAppender, Node.get_set, if_neg h]

theorem foldl_push_ne_scalar (y : YamlCpp) (as : List LogAppenderDefine) {n : YamlNode}
    (h : ∀ s, n ≠ .scalar s) (s : List UInt8) : as.foldl (pushAppender y) n ≠ .scalar s := by
  induction as generalizing n with
  | nil => exact h s
  | cons a as ih => exact ih fun s => by rintro ⟨⟩

theorem filterMap_eq_self_iff {α : Type*} {f : α → Option α} {l : List α} :
    l.filterMap f = l ↔ ∀ a ∈ l, f a = some a := by
  induction l with
  | nil => simp
  | cons a l ih =>
    cases hf : f a with
    | none =>
      have hlength : (l.filterMap f).length ≤ l.length := List.length_filterMap_le f l
      refine iff_of_false (fun h => ?_) fun h => ?_
      · rw [List.filterMap_cons_none hf] at h
        rw [h, List.length_cons] at hlength
        omega
      · exact Option.some_ne_none a ((h a List.mem_cons_self).symm.trans hf)
    | some b =>
      rw [List.filterMap_cons_some hf, List.cons.injEq, ih, List.forall_mem_cons, hf,
        Option.some.injEq]

section Define

variable {y : YamlCpp} {i : LogDefine} (hy : y.Loads i)
include hy

theorem mapM_ofYaml :
    (i.appenders.map (LogAppenderDefine.toYaml y)).mapM LogAppenderDefine.ofYaml =
      .ok (i.appenders.map LogAppenderDefine.read) := by
  have hread : ∀ a ∈ i.appenders, LogAppenderDefine.ofYaml (a.toYaml y) = .ok a.read := by
    intro a ha
    have htext : ∀ t ∈ (if a.type = 1 then [ascii "FileLogAppender", a.file]
        else if a.type = 2 then [ascii "StdoutLogAppender"] else []), y.load t = .scalar t :=
      fun t ht => hy.text t (List.mem_append_right _ (List.mem_flatMap.2 ⟨a, ha, ht⟩))
    refine ofYaml_toYaml a (fun h => htext _ ?_) (fun h => htext _ ?_) fun h => htext _ ?_
    · simp [h]
    · simp [h]
    · simp [h]
  clear hy
  generalize i.appenders = as at hread ⊢
  induction as with
  | nil => rfl
  | cons a as ih =>
    rw [List.map_cons, List.mapM_cons, hread a List.mem_cons_self,
      ih fun b hb => hread b (List.mem_cons_of_mem _ hb)]
    rfl

omit hy in
/-- An entry in front of the appenders is read from the tree as it was set. -/
theorem textAt_toYaml {key : List UInt8} (hkey : key ≠ ascii "appenders") {o : Option (List UInt8)}
    (hget : (i.header y).get key = o.map .scalar) : textAt (i.toYaml y) key = .ok o := by
  refine textAt_eq (foldl_push_ne_scalar y i.appenders ?_) key ?_
  · refine ite_set_ne_scalar _ (ite_set_ne_scalar _ ?_ _ _) _ _
    rintro s ⟨⟩
  · exact (get_foldl_push_of_ne y i.appenders _ hkey).trans hget

theorem textAt_name : textAt (i.toYaml y) (ascii "name") = .ok (some i.name) := by
  have hlevel : ascii "name" ≠ ascii "level" := by decide
  have hfmt : ascii "name" ≠ ascii "formatter" := by decide
  refine textAt_toYaml (by decide) ?_
  simp only [LogDefine.header, get_ite_set, hlevel, hfmt, and_false, if_false]
  simp [hy.text i.name (by simp [LogDefine.texts])]

theorem textAt_level : textAt (i.toYaml y) (ascii "level") =
    .ok (if i.level ≠ .unknow then some i.level.toString else none) := by
  have hname : ascii "level" ≠ ascii "name" := by decide
  have hfmt : ascii "level" ≠ ascii "formatter" := by decide
  refine textAt_toYaml (by decide) ?_
  simp only [LogDefine.header, get_ite_set, hfmt, and_false, and_true, if_false]
  split_ifs with h
  · simp [hy.text i.level.toString (by simp [LogDefine.texts, h])]
  · simp [hname]

theorem textAt_logFormatter : textAt (i.toYaml y) (ascii "formatter") =
    .ok (if i.formatter ≠ [] then some i.formatter else none) := by
  have hname : ascii "formatter" ≠ ascii "name" := by decide
  have hlevel : ascii "formatter" ≠ ascii "level" := by decide
  refine textAt_toYaml (by decide) ?_
  simp only [LogDefine.header, get_ite_set, hlevel, and_false, and_true, if_false]
  split_ifs with h
  · simp [hy.text i.formatter (by simp [LogDefine.texts, h])]
  · simp [hname]

omit hy in
theorem nodes_toYaml : (((i.toYaml y).get (ascii "appenders")).getD .null).nodes =
    i.appenders.map (LogAppenderDefine.toYaml y) := by
  have hheader : (i.header y).get (ascii "appenders") = none := by
    have hname : ascii "appenders" ≠ ascii "name" := by decide
    have hlevel : ascii "appenders" ≠ ascii "level" := by decide
    have hfmt : ascii "appenders" ≠ ascii "formatter" := by decide
    simp only [LogDefine.header, get_ite_set, hlevel, hfmt, and_false, if_false]
    simp [hname]
  rw [LogDefine.toYaml, get_foldl_push, hheader]
  rfl

omit hy in
theorem fromString_getD (level : LogLevel) : LogLevel.fromString
    ((if level ≠ .unknow then some level.toString else none).getD []) = level := by
  split_ifs with h
  · exact fromString_toString level
  · exact fromString_nil.trans (not_not.1 h).symm

/-- What is read of a definition. -/
theorem LogDefine.ofYaml_toYaml : LogDefine.ofYaml (i.toYaml y) =
    .ok { i with appenders := i.appenders.filterMap LogAppenderDefine.read } := by
  have hread : (i.appenders.map LogAppenderDefine.read).reduceOption =
      i.appenders.filterMap LogAppenderDefine.read :=
    List.filterMap_map
  rw [LogDefine.ofYaml, textAt_name hy, textAt_level hy, textAt_logFormatter hy, nodes_toYaml,
    mapM_ofYaml hy]
  simp only [bind, Except.bind, pure, Except.pure, fromString_getD, getD_ite_ne_nil, hread]

/-- **Definitions as text**: a definition survives exactly when its appenders are of the types that
there are and have no level, and those on the standard output no file. -/
theorem survives_iff : i.Survives y ↔ ∀ a ∈ i.appenders,
    (a.type = 1 ∨ a.type = 2) ∧ a.level = .unknow ∧ (a.type = 2 → a.file = []) := by
  rw [LogDefine.Survives, LogDefine.ofText, LogDefine.toText, hy.tree, LogDefine.ofYaml_toYaml hy,
    Except.ok.injEq]
  have hsame : ({ i with appenders := i.appenders.filterMap LogAppenderDefine.read } : LogDefine) =
      i ↔ i.appenders.filterMap LogAppenderDefine.read = i.appenders :=
    ⟨fun h => congrArg LogDefine.appenders h, fun h => by rw [h]⟩
  rw [hsame, filterMap_eq_self_iff]
  exact forall₂_congr fun a _ => read_eq_some_iff a

end Define

/-- A library for one definition: `text` is what is emitted for it, and any other text is a
scalar. -/
def YamlCpp.single (i : LogDefine) (text : List UInt8) : YamlCpp :=
  let tree := i.toYaml ⟨.scalar, fun _ => text⟩
  ⟨fun t => if t = text then tree else .scalar t, fun _ => text⟩

theorem YamlCpp.loads_single {i : LogDefine} {text : List UInt8}
    (htree : i.toYaml (.single i text) = i.toYaml ⟨.scalar, fun _ => text⟩)
    (htext : text ∉ i.texts) : (YamlCpp.single i text).Loads i where
  tree := (if_pos rfl).trans htree.symm
  text t ht := if_neg fun (h : t = text) => htext (h ▸ ht)

/-- A logger that writes to the standard output. -/
def stdoutDefine : LogDefine := ⟨ascii "root", .info, [], [⟨2, .unknow, ascii "%m%n", []⟩]⟩

/-- What is emitted for `stdoutDefine`. -/
def stdoutText : List UInt8 := ascii
  "name: root\nlevel: INFO\nappenders:\n  - type: StdoutLogAppender\n    formatter: \"%m%n\""

theorem survives_iff_stdoutDefine : (YamlCpp.single stdoutDefine stdoutText).Loads stdoutDefine ∧
    stdoutDefine.Survives (YamlCpp.single stdoutDefine stdoutText) := by
  have hy : (YamlCpp.single stdoutDefine stdoutText).Loads stdoutDefine :=
    YamlCpp.loads_single rfl (by decide +kernel)
  refine ⟨hy, (survives_iff hy).2 ?_⟩
  decide

/-- A file appender with a level of its own. -/
def fileDefine : LogDefine :=
  ⟨ascii "root", .debug, [], [⟨1, .error, [], ascii "log.text"⟩]⟩

/-- What is emitted for `fileDefine`. -/
def fileText : List UInt8 := ascii
  ("name: root\nlevel: DEBUG\nappenders:\n" ++
    "  - type: FileLogAppender\n    file: log.text\n    level: ERROR")

/-- **The level of an appender is lost**: it is written and never read. -/
theorem not_survives_fileDefine : ∃ y : YamlCpp, y.Loads fileDefine ∧
    LogDefine.ofText y (fileDefine.toText y) =
      .ok { fileDefine with appenders := [⟨1, .unknow, [], ascii "log.text"⟩] } ∧
    ¬ fileDefine.Survives y := by
  have hy : (YamlCpp.single fileDefine fileText).Loads fileDefine :=
    YamlCpp.loads_single rfl (by decide +kernel)
  have hread := LogDefine.ofYaml_toYaml hy
  rw [← hy.tree] at hread
  refine ⟨_, hy, hread, fun h => ?_⟩
  have hsame := Except.ok.inj (hread.symm.trans h)
  exact absurd hsame (by decide +kernel)

end Log

end YXTWebCpp
