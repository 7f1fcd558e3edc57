import YXTWebCpp.Http.Response
import YXTWebCpp.Log.Define

/-!
# What is written for an event

`Logger::log` (`log.cpp`) hands an event to the appenders of a logger, or to the root logger if
there are none, and each appender writes the text that its formatter makes of the event.

* `LogEvent`, `FormatItem.format`, `LogFormatter.format` : the text of an event.
* `LogAppender.log`, `Logger.log`, `LoggerManager.log` : what is written where.
* `LogDefine.written` : what a definition asks for.
* `Idle` : what is known of the loggers that `logs` does not define.
* `Routed.log` : **events go where `logs` says**, and those of loggers that it does not define go to
  the root logger.
-/

namespace YXTWebCpp

namespace Log

open Http (ascii digits)

/-! ### The text of an event -/

/-- `LogLevel::Level` as a number. -/
def LogLevel.num : LogLevel → ℕ
  | .unknow => 0
  | .debug => 1
  | .info => 2
  | .warn => 3
  | .error => 4
  | .fatal => 5

/-- `LogEvent`, with the name of its logger. -/
structure LogEvent where
  file : List UInt8
  line : Int32
  elapse : UInt32
  threadId : UInt32
  fiberId : UInt32
  time : UInt64
  threadName : List UInt8
  content : List UInt8
  logger : List UInt8
  deriving DecidableEq

section

variable (strftime : List UInt8 → UInt64 → List UInt8)

/-- `FormatItem::format`; `strftime` is what it puts into the buffer for a format and a time. -/
def FormatItem.format (level : LogLevel) (event : LogEvent) : FormatItem → List UInt8
  | .string str => str
  | .spec .message _ => event.content
  | .spec .level _ => level.toString
  | .spec .elapse _ => digits event.elapse.toNat
  | .spec .name _ => event.logger
  | .spec .threadId _ => digits event.threadId.toNat
  | .spec .newLine _ => [10]
  | .spec .dateTime fmt => strftime fmt event.time
  | .spec .filename _ => event.file
  | .spec .line _ => ascii (toString event.line.toInt)
  | .spec .tab _ => [9]
  | .spec .fiberId _ => digits event.fiberId.toNat
  | .spec .threadName _ => event.threadName

/-- `LogFormatter::format` -/
def LogFormatter.format (f : LogFormatter) (level : LogLevel) (event : LogEvent) : List UInt8 :=
  f.items.flatMap fun i => i.format strftime level event

/-! ### Loggers -/

/-- Texts and where they are written, in order. -/
abbrev Written := List (Target × List UInt8)

/-- `LogAppender::log`, `none` if there is no formatter. -/
def LogAppender.log (a : LogAppender) (level : LogLevel) (event : LogEvent) : Option Written :=
  if a.level.num ≤ level.num then
    a.formatter.map fun f => [(a.target, f.format strftime level event)]
  else some []

/-- `Logger::log`; `root` is what `m_root->log` writes, nothing if `m_root` is null. -/
def Logger.log (l : Logger) (root : Option Written) (level : LogLevel) (event : LogEvent) :
    Option Written :=
  if l.level.num ≤ level.num then
    if l.appenders ≠ [] then
      (l.appenders.mapM fun a : LogAppender => a.log strftime level event).map List.flatten
    else root
  else some []

/-- `Logger::log` of the root logger. -/
def LoggerManager.logRoot (m : LoggerManager) (level : LogLevel) (event : LogEvent) :
    Option Written :=
  (m.getLogger (ascii "root")).log strftime (some []) level event

/-- `Logger::log` of the logger that `getLogger(name)` returns. -/
def LoggerManager.log (m : LoggerManager) (name : List UInt8) (level : LogLevel)
    (event : LogEvent) : Option Written :=
  if name = ascii "root" then m.logRoot strftime level event
  else (m.getLogger name).log strftime (m.logRoot strftime level event) level event

/-! ### Definitions -/

/-- The pattern of an appender of a definition. -/
def LogDefine.patternOf (d : LogDefine) (a : LogAppenderDefine) : LogFormatter :=
  if a.formatter ≠ [] then ⟨a.formatter⟩ else d.formatterOn .default

/-- What the appenders of a definition write. -/
def LogDefine.written (d : LogDefine) (level : LogLevel) (event : LogEvent) : Written :=
  d.appenders.flatMap fun a =>
    if a.level.num ≤ level.num then
      [(if a.type = 1 then .file a.file else .stdout, (d.patternOf a).format strftime level event)]
    else []

/-- What a value of `logs` says about the events of a logger; `root` is what the root logger
writes. -/
def LogDefines.written (v : LogDefines) (root : Option Written) (name : List UInt8)
    (level : LogLevel) (event : LogEvent) : Option Written :=
  match v.find name with
  | some d =>
    if d.level.num ≤ level.num then
      if d.appenders ≠ [] then some (d.written strftime level event) else root
    else some []
  | none => root

variable {strftime} {level : LogLevel} {event : LogEvent}

/-- An appender as a definition has made it. -/
theorem log_made {a : LogAppenderDefine} (hfmt : LogFormatter.isError ⟨a.formatter⟩ = false)
    (d : LogDefine) : (a.made (d.formatterOn .default)).log strftime level event =
      some (if a.level.num ≤ level.num then
        [(if a.type = 1 then .file a.file else .stdout,
          (d.patternOf a).format strftime level event)] else []) := by
  have hmade : a.made (d.formatterOn .default) = ⟨if a.type = 1 then .file a.file else .stdout,
      a.level, decide (a.formatter ≠ []), some (d.patternOf a)⟩ := by
    unfold LogAppenderDefine.made LogAppenderDefine.dress LogDefine.patternOf
    by_cases h : a.formatter ≠ []
    · simp [h, hfmt, LogAppender.setFormatter, LogAppender.setLevel, LogAppender.new]
    · simp [h, LogAppender.setLevel, LogAppender.new]
  rw [hmade, LogAppender.log]
  split_ifs <;> rfl

/-- A logger as a definition has made it. -/
theorem log_fresh {d : LogDefine} (hfmt : LogFormatter.isError ⟨d.formatter⟩ = false)
    (happenders : ∀ a ∈ d.appenders, (a.type = 1 ∨ a.type = 2) ∧
      LogFormatter.isError ⟨a.formatter⟩ = false) {l : Logger} (hl : d.fresh = some l)
    (root : Option Written) : l.log strftime root level event =
      if d.level.num ≤ level.num then
        if d.appenders ≠ [] then some (d.written strftime level event) else root
      else some [] := by
  rw [LogDefine.fresh, configure_eq hfmt fun a ha => (happenders a ha).1] at hl
  obtain rfl := Option.some.inj hl
  have hloop : ((d.appenders.map (LogAppenderDefine.made (d.formatterOn .default))).mapM
      fun a : LogAppender => a.log strftime level event).map List.flatten =
      some (d.written strftime level event) := by
    unfold LogDefine.written
    clear hl
    generalize d.appenders = as at happenders
    induction as with
    | nil => rfl
    | cons a as ih =>
      have ih := ih fun b hb => happenders b (List.mem_cons_of_mem _ hb)
      rw [List.map_cons, List.mapM_cons, log_made (happenders a List.mem_cons_self).2,
        List.flatMap_cons]
      obtain ⟨ws, hws, hflat⟩ := Option.map_eq_some_iff.1 ih
      rw [hws, ← hflat]
      rfl
  rw [Logger.log]
  simp only [Logger.new, ne_eq, List.map_eq_nil_iff] at hloop ⊢
  rw [hloop]

end

/-! ### Loggers that are not defined -/

/-- A logger whose name is gone. -/
def Logger.Retired (l : Logger) : Prop := l.level = .unknow ∧ l.appenders = []

/-- The loggers that `logs` does not define are retired or as they were at first. -/
def Idle (s : LogState) : Prop :=
  ∀ name, s.var.value.find name = none →
    (s.loggers.getLogger name).Retired ∨
      s.loggers.getLogger name = LoggerManager.new.getLogger name

/-- One turn of the second loop of the listener. -/
def retireLogger (new : LogDefines) (m : LoggerManager) (d : LogDefine) : LoggerManager :=
  if (new.find d.name).isSome then m else m.setLogger d.name (m.getLogger d.name).retire

theorem retireLogger_of_ne (new : LogDefines) (m : LoggerManager) {d : LogDefine}
    {name : List UInt8} (h : name ≠ d.name) :
    (retireLogger new m d).getLogger name = m.getLogger name := by
  unfold retireLogger
  split_ifs
  · rfl
  · rw [LoggerManager.getLogger_setLogger, if_neg h]

theorem retired_retireLogger {new : LogDefines} (m : LoggerManager) {d : LogDefine}
    (h : new.find d.name = none) : ((retireLogger new m d).getLogger d.name).Retired := by
  unfold retireLogger
  simp only [h, Option.isSome_none, Bool.false_eq_true, ↓reduceIte,
    LoggerManager.getLogger_setLogger]
  exact ⟨rfl, rfl⟩

/-- The second loop leaves the names alone that are not in the old value. -/
theorem foldl_retireLogger_of_ne (new : LogDefines) (ds : List LogDefine) {name : List UInt8} :
    ∀ m : LoggerManager, (∀ d ∈ ds, name ≠ d.name) →
      (ds.foldl (retireLogger new) m).getLogger name = m.getLogger name := by
  induction ds with
  | nil => exact fun m _ => rfl
  | cons d ds ih =>
    intro m h
    rw [List.foldl_cons, ih _ fun e he => h e (List.mem_cons_of_mem _ he),
      retireLogger_of_ne new m (h d List.mem_cons_self)]

/-- The second loop retires the names of the old value that are gone. -/
theorem retired_foldl_retireLogger {new : LogDefines} {name : List UInt8}
    (hnew : new.find name = none) (ds : List LogDefine) : ∀ m : LoggerManager,
    (m.getLogger name).Retired ∨ (∃ d ∈ ds, name = d.name) →
      ((ds.foldl (retireLogger new) m).getLogger name).Retired := by
  induction ds with
  | nil => exact fun m h => h.resolve_right fun ⟨_, hd, _⟩ => List.not_mem_nil hd
  | cons d ds ih =>
    intro m h
    rw [List.foldl_cons]
    refine ih _ ?_
    by_cases hd : name = d.name
    · subst hd
      exact .inl (retired_retireLogger m hnew)
    · rw [retireLogger_of_ne new m hd]
      refine h.imp_right fun ⟨e, he, hname⟩ => ⟨e, ?_, hname⟩
      exact (List.mem_cons.1 he).resolve_left fun heq => hd (heq ▸ hname)

theorem LogDefines.find_eq_none {s : LogDefines} {name : List UInt8} :
    s.find name = none ↔ ∀ d ∈ s.defs, name ≠ d.name := by
  rw [LogDefines.find, List.find?_eq_none]
  exact forall₂_congr fun d _ => by simp [eq_comm]

/-- **What the listener does** to the loggers that the new value does not name. -/
theorem listener_other {old new : LogDefines} {m m' : LoggerManager} (hm : m.Named)
    (hv : new.Valid) (h : LogIniter.listener false old new m = some m') {name : List UInt8}
    (hnew : new.find name = none) :
    if (old.find name).isSome then (m'.getLogger name).Retired
    else m'.getLogger name = m.getLogger name := by
  obtain ⟨m₁, h₁, -, hother, -⟩ := addLoggers old new.defs hm new.names_ne fun d hd =>
    ⟨(hv d hd).1, fun a ha => ((hv d hd).2 a ha).1⟩
  have hm' : m' = old.defs.foldl (retireLogger new) m₁ := by
    rw [LogIniter.listener, h₁] at h
    exact (Option.some.inj h).symm
  subst hm'
  cases hold : old.find name with
  | some d =>
    obtain ⟨hmem, hname⟩ := LogDefines.find_eq_some hold
    exact retired_foldl_retireLogger hnew _ _ (.inr ⟨d, hmem, hname.symm⟩)
  | none =>
    show (old.defs.foldl (retireLogger new) m₁).getLogger name = m.getLogger name
    rw [foldl_retireLogger_of_ne new _ _ (LogDefines.find_eq_none.1 hold),
      hother name (LogDefines.find_eq_none.1 hnew)]

/-! ### Any value of `logs` -/

/-- The loggers are what `logs` defines, and the others are idle. -/
structure Routed (s : LogState) : Prop extends Configured s where
  valid : s.var.value.Valid
  idle : Idle s

theorem routed_logStart : Routed logStart where
  cbs := rfl
  named name := (LoggerManager.getLogger_new name).1
  fresh d hd := by cases hd
  valid d hd := by cases hd
  idle name _ := .inr rfl

/-- **One assignment.** -/
theorem Routed.assign {s : LogState} (hr : Routed s) {v : LogDefines} (hv : Converging s v) :
    ∃ s', (logSystem false).step s v = some s' ∧ Routed s' := by
  obtain ⟨s', hs, hcbs, hnamed, hvalue, hiff⟩ := hr.toConfigured.assign hv.1
  refine ⟨s', hs, ?_⟩
  by_cases heq : (s.var.value == v) = true
  · have hsame : s' = s := by
      simp only [logSystem, ConfigVar.setValue, heq, ↓reduceIte, Option.map_some,
        Option.some.injEq] at hs
      exact hs.symm
    rw [hsame]
    exact hr
  · obtain ⟨m, hm, hs'⟩ : ∃ m, LogIniter.listener false s.var.value v s.loggers = some m ∧
        s' = ⟨{ s.var with value := v }, m⟩ := by
      simp only [logSystem, ConfigVar.setValue, heq, Bool.false_eq_true, ↓reduceIte,
        ConfigVar.notify, hr.cbs, List.foldl_cons, List.foldl_nil, Option.bind_some,
        Option.map_eq_some_iff] at hs
      obtain ⟨m, hm, rfl⟩ := hs
      exact ⟨m, hm, by simp only [hr.cbs]⟩
    subst hs'
    refine ⟨⟨hcbs.trans hr.cbs, hnamed, hiff.2 hv.2⟩, hv.1, fun name hname => ?_⟩
    have hother := listener_other hr.named hv.1 hm hname
    cases hold : s.var.value.find name with
    | some d =>
      rw [hold] at hother
      exact .inl hother
    | none =>
      rw [hold] at hother
      have hkept : m.getLogger name = s.loggers.getLogger name := hother
      rw [hkept]
      exact hr.idle name hold

section

variable (strftime : List UInt8 → UInt64 → List UInt8) {s : LogState} {level : LogLevel}

/-- What a logger that is not defined writes. -/
theorem Routed.log_idle (hr : Routed s) {name : List UInt8} (hname : s.var.value.find name = none)
    (hlevel : level ≠ .unknow) (root : Option Written) (event : LogEvent) :
    (s.loggers.getLogger name).log strftime root level event = root ∨
      name = ascii "root" ∧ (s.loggers.getLogger name).log strftime root level event =
        some [(.stdout, LogFormatter.default.format strftime level event)] := by
  have hdebug : 1 ≤ level.num := by
    cases level with
    | unknow => exact absurd rfl hlevel
    | _ => decide
  rcases hr.idle name hname with ⟨hunknow, hnil⟩ | hnew
  · left
    rw [Logger.log, hunknow, hnil]
    exact (if_pos (Nat.zero_le _)).trans (if_neg fun h => h rfl)
  · rw [hnew, LoggerManager.new, LoggerManager.getLogger_setLogger]
    by_cases hroot : name = ascii "root"
    · right
      refine ⟨hroot, ?_⟩
      have happender :
          LogAppender.log strftime ⟨.stdout, .debug, false, some .default⟩ level event =
            some [(.stdout, LogFormatter.default.format strftime level event)] := if_pos hdebug
      have hlog : Logger.log strftime
          ⟨ascii "root", .debug, [⟨.stdout, .debug, false, some .default⟩], .default⟩ root level
            event = ([⟨.stdout, .debug, false, some .default⟩].mapM fun a : LogAppender =>
              a.log strftime level event).map List.flatten :=
        (if_pos hdebug).trans (if_pos (List.cons_ne_nil _ _))
      rw [if_pos hroot]
      refine hlog.trans ?_
      rw [List.mapM_cons, happender]
      rfl
    · left
      rw [if_neg hroot]
      exact (if_pos hdebug).trans (if_neg fun h => h rfl)

/-- **Where events go.**  The events of a logger that `logs` defines are written by the appenders of
the definition, or by the root logger if it has none; those of the other loggers are written by the
root logger.  The root logger itself writes to the console as long as it has never been defined. -/
theorem Routed.log (hr : Routed s) (hlevel : level ≠ .unknow) (event : LogEvent) :
    (∀ name, name ≠ ascii "root" → s.loggers.log strftime name level event =
      s.var.value.written strftime (s.loggers.logRoot strftime level event) name level event) ∧
    (s.loggers.logRoot strftime level event =
        s.var.value.written strftime (some []) (ascii "root") level event ∨
      s.var.value.find (ascii "root") = none ∧ s.loggers.logRoot strftime level event =
        some [(.stdout, LogFormatter.default.format strftime level event)]) := by
  have hdefined : ∀ name d, s.var.value.find name = some d → ∀ root,
      (s.loggers.getLogger name).log strftime root level event =
        s.var.value.written strftime root name level event := by
    intro name d hfind root
    obtain ⟨hmem, rfl⟩ := LogDefines.find_eq_some hfind
    rw [LogDefines.written, hfind]
    exact log_fresh (hr.valid d hmem).1 (hr.valid d hmem).2 (hr.fresh d hmem) root
  have hidle : ∀ name, s.var.value.find name = none → ∀ root,
      s.var.value.written strftime root name level event = root := by
    intro name hfind root
    rw [LogDefines.written, hfind]
  constructor
  · intro name hname
    rw [LoggerManager.log, if_neg hname]
    cases hfind : s.var.value.find name with
    | some d => exact hdefined name d hfind _
    | none =>
      rw [hidle name hfind]
      exact (hr.log_idle strftime hfind hlevel _ event).resolve_right fun h => hname h.1
  · cases hfind : s.var.value.find (ascii "root") with
    | some d => exact .inl (hdefined _ d hfind _)
    | none =>
      rw [hidle _ hfind]
      exact (hr.log_idle strftime hfind hlevel _ event).imp_right fun h => ⟨rfl, h.2⟩

end

end Log

end YXTWebCpp
