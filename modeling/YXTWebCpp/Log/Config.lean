import YXTWebCpp.Config.Basic
import YXTWebCpp.Log.Logger

/-!
# Configuration of the loggers

The variable `logs` (`log.cpp`) holds a set of definitions of loggers, ordered by name.  When
another value is assigned to it, its listener configures the loggers whose names are new and retires
those whose names are gone.

* `LogDefine`, `LogDefines` : the definitions, with the comparisons that the set and the variable
  use.
* `LogDefine.configure` : what the listener does to a logger whose name is new; `LogDefine.fresh` is
  the logger that a definition makes of a new one.
* `LogIniter.listener` : the listener.
* `logSystem` : assignments of one value after another.
* `Reconfigurable` : the names that are kept are defined as before, and the names that are new are
  defined with a formatter or still have the default one.
* `reconfiguration_converges` : **the loggers become what the value defines**, exactly then.
-/

namespace YXTWebCpp

namespace Log

open Http (ascii)

/-- `LogAppenderDefine` -/
structure LogAppenderDefine where
  /-- 1 File, 2 Stdout -/
  type : ℕ
  level : LogLevel
  formatter : List UInt8
  file : List UInt8
  deriving DecidableEq

/-- `LogDefine` -/
structure LogDefine where
  name : List UInt8
  level : LogLevel
  formatter : List UInt8
  appenders : List LogAppenderDefine
  deriving DecidableEq

/-- `LogDefine::operator==`; the appenders are compared with themselves. -/
instance : BEq LogDefine where
  beq d oth := decide (d.name = oth.name) && decide (d.level = oth.level) &&
    decide (d.formatter = oth.formatter) && decide (d.appenders = d.appenders)

/-- `std::set<LogDefine>`, which `LogDefine::operator<` orders by name. -/
structure LogDefines where
  /-- The elements in order. -/
  defs : List LogDefine
  /-- No two of them have the same name. -/
  sorted : defs.Pairwise fun d e => d.name < e.name

namespace LogDefines

/-- `operator==` of sets: the same number of elements, and equal ones in order. -/
instance : BEq LogDefines where
  beq a b := a.defs.length == b.defs.length && (a.defs.zip b.defs).all fun p => p.1 == p.2

/-- The empty set. -/
def empty : LogDefines := ⟨[], .nil⟩

/-- `find`, which looks for an element with the same name. -/
def find (s : LogDefines) (name : List UInt8) : Option LogDefine :=
  s.defs.find? fun d => decide (d.name = name)

end LogDefines

/-! ### The listener -/

/-- The level and the formatter of an appender that has been made for its definition. -/
def LogAppenderDefine.dress (a : LogAppenderDefine) (ap : LogAppender) : LogAppender :=
  let ap := ap.setLevel a.level
  if a.formatter ≠ [] then
    if LogFormatter.isError ⟨a.formatter⟩ = false then ap.setFormatter (some ⟨a.formatter⟩) else ap
  else ap

/-- The loop over the appenders of a definition; `hasD` is `EnvMgr::GetInstance()->has("d")`, and
`none` that a null pointer is dereferenced. -/
def LogAppenderDefine.add (hasD : Bool) (l : Logger) (a : LogAppenderDefine) : Option Logger :=
  if a.type = 1 then some (l.addAppender (a.dress (.new (.file a.file))))
  else if a.type = 2 then
    if !hasD then some (l.addAppender (a.dress (.new .stdout))) else some l
  else none

/-- What the listener does to a logger whose name is new. -/
def LogDefine.configure (hasD : Bool) (d : LogDefine) (l : Logger) : Option Logger :=
  let l := l.setLevel d.level
  let l := if d.formatter ≠ [] then l.setPattern d.formatter else l
  d.appenders.foldlM (LogAppenderDefine.add hasD) l.clearAppenders

/-- What the listener does to a logger whose name is gone. -/
def Logger.retire (l : Logger) : Logger := (l.setLevel .unknow).clearAppenders

/-- The listener of `LogIniter`. -/
def LogIniter.listener (hasD : Bool) (old new : LogDefines) (m : LoggerManager) :
    Option LoggerManager :=
  (new.defs.foldlM (fun m d =>
    if (old.find d.name).isSome then some m
    else (d.configure hasD (m.getLogger d.name)).map (m.setLogger d.name)) m).map fun m =>
  old.defs.foldl (fun m d =>
    if (new.find d.name).isSome then m
    else m.setLogger d.name (m.getLogger d.name).retire) m

/-- The variable `logs` and the loggers. -/
structure LogState where
  /-- `g_log_defines` -/
  var : ConfigVar LogDefines (Option LoggerManager)
  /-- The loggers. -/
  loggers : LoggerManager

/-- One value after another is assigned to `logs`.  At first `logs` is empty and the loggers that
there are have the default formatter. -/
def logSystem (hasD : Bool) : System LogState LogDefines where
  init s := s.var = ⟨.empty, [fun old new m => m.bind (LogIniter.listener hasD old new)]⟩ ∧
    ∀ name, (s.loggers.getLogger name).name = name ∧
      (s.loggers.getLogger name).formatter = .default
  step s v :=
    let r := s.var.setValue v (some s.loggers)
    r.2.map fun m => ⟨r.1, m⟩

/-- The logger that a definition makes of a new one. -/
def LogDefine.fresh (d : LogDefine) : Option Logger := d.configure false (.new d.name)

/-- The patterns have no error, and the appenders are of the types that there are. -/
def LogDefines.Valid (v : LogDefines) : Prop :=
  ∀ d ∈ v.defs, LogFormatter.isError ⟨d.formatter⟩ = false ∧
    ∀ a ∈ d.appenders, (a.type = 1 ∨ a.type = 2) ∧ LogFormatter.isError ⟨a.formatter⟩ = false

/-- A name that is in the variable already is defined as there, and a name that is not is defined
with a formatter, or its logger still has the default one. -/
def Reconfigurable (s : LogState) (v : LogDefines) : Prop :=
  ∀ d ∈ v.defs, (∀ d₀ ∈ s.var.value.find d.name, d₀.fresh = d.fresh) ∧
    (s.var.value.find d.name = none →
      d.formatter ≠ [] ∨ (s.loggers.getLogger d.name).formatter = .default)

/-! ### One definition -/

/-- The appender that a definition adds to a logger with the formatter `fmt`. -/
def LogAppenderDefine.made (fmt : LogFormatter) (a : LogAppenderDefine) : LogAppender :=
  let ap := a.dress (.new (if a.type = 1 then .file a.file else .stdout))
  if ap.formatter.isNone then { ap with formatter := some fmt } else ap

/-- The formatter that a definition leaves a logger with. -/
def LogDefine.formatterOn (d : LogDefine) (fmt : LogFormatter) : LogFormatter :=
  if d.formatter ≠ [] then ⟨d.formatter⟩ else fmt

theorem foldlM_add (as : List LogAppenderDefine) : ∀ l : Logger,
    (∀ a ∈ as, a.type = 1 ∨ a.type = 2) →
    as.foldlM (LogAppenderDefine.add false) l =
      some { l with appenders := l.appenders ++ as.map (LogAppenderDefine.made l.formatter) } := by
  induction as with
  | nil => intro l _; simp
  | cons a as ih =>
    intro l htypes
    have hadd : LogAppenderDefine.add false l a =
        some { l with appenders := l.appenders ++ [a.made l.formatter] } := by
      rcases htypes a List.mem_cons_self with h | h
      · simp [LogAppenderDefine.add, LogAppenderDefine.made, Logger.addAppender, h]
      · simp [LogAppenderDefine.add, LogAppenderDefine.made, Logger.addAppender, h]
    rw [List.foldlM_cons, hadd]
    simp only [Option.bind_eq_bind, Option.bind_some]
    rw [ih _ fun b hb => htypes b (List.mem_cons_of_mem _ hb)]
    simp

/-- **What a definition makes of a logger**: all of it but the name, and the formatter if there is
none in the definition. -/
theorem configure_eq {d : LogDefine} (hfmt : LogFormatter.isError ⟨d.formatter⟩ = false)
    (htypes : ∀ a ∈ d.appenders, a.type = 1 ∨ a.type = 2) (l : Logger) :
    d.configure false l =
      some ⟨l.name, d.level, d.appenders.map (LogAppenderDefine.made (d.formatterOn l.formatter)),
        d.formatterOn l.formatter⟩ := by
  unfold LogDefine.configure
  rw [foldlM_add _ _ htypes]
  by_cases hf : d.formatter ≠ []
  · simp [hf, Logger.setPattern, hfmt, Logger.setFormatter, Logger.setLevel, Logger.clearAppenders,
      LogDefine.formatterOn]
  · simp [hf, Logger.setLevel, Logger.clearAppenders, LogDefine.formatterOn]

/-- A logger that a definition is applied to becomes what the definition says, exactly if its
formatter is given or still the default one. -/
theorem configure_eq_fresh {d : LogDefine} (hfmt : LogFormatter.isError ⟨d.formatter⟩ = false)
    (htypes : ∀ a ∈ d.appenders, a.type = 1 ∨ a.type = 2) {l : Logger} (hname : l.name = d.name) :
    d.configure false l = d.fresh ↔ d.formatter ≠ [] ∨ l.formatter = .default := by
  rw [LogDefine.fresh, configure_eq hfmt htypes, configure_eq hfmt htypes, hname]
  simp only [Logger.new, Option.some.injEq, Logger.mk.injEq, true_and]
  by_cases hf : d.formatter ≠ []
  · simp [LogDefine.formatterOn, hf]
  · constructor
    · intro h
      right
      simpa [LogDefine.formatterOn, hf] using h.2
    · rintro (h | h)
      · exact absurd h hf
      · rw [h]
        exact ⟨rfl, rfl⟩

/-! ### The loops of the listener -/

theorem LogDefines.find_eq_some {s : LogDefines} {name : List UInt8} {d : LogDefine}
    (h : s.find name = some d) : d ∈ s.defs ∧ d.name = name := by
  have hname := List.find?_some h
  exact ⟨List.mem_of_find?_eq_some h, by simpa using hname⟩

theorem LogDefines.isSome_find {s : LogDefines} {d : LogDefine} (h : d ∈ s.defs) :
    (s.find d.name).isSome = true := by
  rw [LogDefines.find, List.find?_isSome]
  exact ⟨d, h, by simp⟩

theorem LogDefines.names_ne (s : LogDefines) :
    s.defs.Pairwise fun d e => d.name ≠ e.name := by
  refine s.sorted.imp fun {d e} hlt heq => ?_
  rw [heq] at hlt
  exact List.lt_irrefl _ hlt

/-- Every logger has the name that it is found under. -/
def LoggerManager.Named (m : LoggerManager) : Prop := ∀ name, (m.getLogger name).name = name

theorem LoggerManager.Named.setLogger {m : LoggerManager} (hm : m.Named) {name : List UInt8}
    {l : Logger} (hl : l.name = name) : (m.setLogger name l).Named := by
  intro name'
  rw [getLogger_setLogger]
  split_ifs with h
  · rw [h, hl]
  · exact hm name'

/-- The step of the first loop. -/
theorem addLogger (old : LogDefines) {d : LogDefine} {m : LoggerManager} (hm : m.Named)
    (hfmt : LogFormatter.isError ⟨d.formatter⟩ = false)
    (htypes : ∀ a ∈ d.appenders, a.type = 1 ∨ a.type = 2) :
    ∃ m', (if (old.find d.name).isSome then some m
        else (d.configure false (m.getLogger d.name)).map (m.setLogger d.name)) = some m' ∧
      m'.Named ∧ (∀ name, name ≠ d.name → m'.getLogger name = m.getLogger name) ∧
      if (old.find d.name).isSome then m'.getLogger d.name = m.getLogger d.name
      else d.configure false (m.getLogger d.name) = some (m'.getLogger d.name) := by
  by_cases hold : (old.find d.name).isSome = true
  · simp only [hold, ↓reduceIte]
    exact ⟨m, rfl, hm, fun _ _ => rfl, rfl⟩
  · simp only [hold, Bool.false_eq_true, ↓reduceIte]
    rw [configure_eq hfmt htypes]
    refine ⟨_, rfl, hm.setLogger (hm _), fun name hne => ?_, ?_⟩
    · rw [LoggerManager.getLogger_setLogger, if_neg hne]
    · rw [LoggerManager.getLogger_setLogger, if_pos rfl]

/-- The first loop: every name of the new value that is not in the old one is configured, and
nothing else. -/
theorem addLoggers (old : LogDefines) (ds : List LogDefine) : ∀ {m : LoggerManager}, m.Named →
    ds.Pairwise (fun d e => d.name ≠ e.name) →
    (∀ d ∈ ds, LogFormatter.isError ⟨d.formatter⟩ = false ∧
      ∀ a ∈ d.appenders, a.type = 1 ∨ a.type = 2) →
    ∃ m', ds.foldlM (fun m d =>
        if (old.find d.name).isSome then some m
        else (d.configure false (m.getLogger d.name)).map (m.setLogger d.name)) m = some m' ∧
      m'.Named ∧ (∀ name, (∀ d ∈ ds, name ≠ d.name) → m'.getLogger name = m.getLogger name) ∧
      ∀ d ∈ ds, if (old.find d.name).isSome then m'.getLogger d.name = m.getLogger d.name
        else d.configure false (m.getLogger d.name) = some (m'.getLogger d.name) := by
  induction ds with
  | nil => intro m hm _ _; exact ⟨m, rfl, hm, fun _ _ => rfl, nofun⟩
  | cons d ds ih =>
    intro m hm hne hvalid
    rw [List.pairwise_cons] at hne
    obtain ⟨hfmt, htypes⟩ := hvalid d List.mem_cons_self
    obtain ⟨m₁, h₁, hm₁, hother₁, hd₁⟩ := addLogger old hm hfmt htypes
    obtain ⟨m₂, h₂, hm₂, hother₂, hds⟩ := ih hm₁ hne.2 fun e he =>
      hvalid e (List.mem_cons_of_mem _ he)
    refine ⟨m₂, ?_, hm₂, fun name hname => ?_, fun e he => ?_⟩
    · rw [List.foldlM_cons, h₁]
      exact h₂
    · rw [hother₂ name fun e he => hname e (List.mem_cons_of_mem _ he),
        hother₁ name (hname d List.mem_cons_self)]
    · -- the names differ, so each turn of the loop is about a logger of its own
      rcases List.mem_cons.1 he with rfl | he'
      · rw [hother₂ _ hne.1]
        exact hd₁
      · rw [← hother₁ _ (hne.1 e he').symm]
        exact hds e he'

/-- The second loop leaves the names of the new value alone. -/
theorem retireLoggers (new : LogDefines) (ds : List LogDefine) : ∀ {m : LoggerManager}, m.Named →
    (ds.foldl (fun m d => if (new.find d.name).isSome then m
        else m.setLogger d.name (m.getLogger d.name).retire) m).Named ∧
      ∀ d ∈ new.defs, (ds.foldl (fun m d => if (new.find d.name).isSome then m
        else m.setLogger d.name (m.getLogger d.name).retire) m).getLogger d.name =
          m.getLogger d.name := by
  induction ds with
  | nil => intro m hm; exact ⟨hm, fun _ _ => rfl⟩
  | cons e ds ih =>
    intro m hm
    rw [List.foldl_cons]
    by_cases hnew : (new.find e.name).isSome = true
    · simp only [hnew, ↓reduceIte]
      exact ih hm
    · simp only [hnew, Bool.false_eq_true, ↓reduceIte]
      have hm' : (m.setLogger e.name (m.getLogger e.name).retire).Named := hm.setLogger (hm e.name)
      refine ⟨(ih hm').1, fun d hd => ?_⟩
      -- `e` is not a name of the new value, and `d` is
      have hne : d.name ≠ e.name := by
        intro heq
        rw [← heq] at hnew
        exact hnew (LogDefines.isSome_find hd)
      rw [(ih hm').2 d hd, LoggerManager.getLogger_setLogger, if_neg hne]

/-- **What the listener does** to the loggers of the new value. -/
theorem listener_eq (old : LogDefines) {new : LogDefines} {m : LoggerManager} (hm : m.Named)
    (hv : new.Valid) :
    ∃ m', LogIniter.listener false old new m = some m' ∧ m'.Named ∧
      ∀ d ∈ new.defs, if (old.find d.name).isSome then m'.getLogger d.name = m.getLogger d.name
        else d.configure false (m.getLogger d.name) = some (m'.getLogger d.name) := by
  obtain ⟨m₁, h₁, hm₁, -, hds⟩ := addLoggers old new.defs hm new.names_ne fun d hd =>
    ⟨(hv d hd).1, fun a ha => ((hv d hd).2 a ha).1⟩
  obtain ⟨hm₂, hkeep⟩ := retireLoggers new old.defs hm₁
  refine ⟨_, by rw [LogIniter.listener, h₁]; rfl, hm₂, fun d hd => ?_⟩
  rw [hkeep d hd]
  exact hds d hd

/-! ### Assignments -/

/-- Equal sets have the same names. -/
theorem LogDefines.isSome_find_of_beq {a b : LogDefines} (h : (a == b) = true) {d : LogDefine}
    (hd : d ∈ b.defs) : (a.find d.name).isSome = true := by
  have hbeq : (a.defs.length == b.defs.length && (a.defs.zip b.defs).all fun p => p.1 == p.2) =
      true := h
  simp only [Bool.and_eq_true, beq_iff_eq, List.all_eq_true] at hbeq
  obtain ⟨hlen, hall⟩ := hbeq
  obtain ⟨i, hi, rfl⟩ := List.getElem_of_mem hd
  have hia : i < a.defs.length := by omega
  have hpair : (a.defs[i], b.defs[i]) ∈ a.defs.zip b.defs := by
    rw [← List.getElem_zip (h := by simp; omega)]
    exact List.getElem_mem _
  have heq : (decide (a.defs[i].name = b.defs[i].name) &&
      decide (a.defs[i].level = b.defs[i].level) &&
      decide (a.defs[i].formatter = b.defs[i].formatter) &&
      decide (a.defs[i].appenders = a.defs[i].appenders)) = true := hall _ hpair
  simp only [Bool.and_eq_true, decide_eq_true_eq] at heq
  rw [← heq.1.1.1]
  exact LogDefines.isSome_find (List.getElem_mem hia)

/-- The loggers are what the variable defines. -/
structure Configured (s : LogState) : Prop where
  cbs : s.var.cbs = [fun old new m => m.bind (LogIniter.listener false old new)]
  named : s.loggers.Named
  fresh : ∀ d ∈ s.var.value.defs, d.fresh = some (s.loggers.getLogger d.name)

/-- A name that is in the variable already, and whose logger is left alone. -/
theorem Configured.kept {s : LogState} (hc : Configured s) {d d₀ : LogDefine}
    (hfind : s.var.value.find d.name = some d₀) {m : LoggerManager}
    (hm : m.getLogger d.name = s.loggers.getLogger d.name) :
    d.fresh = some (m.getLogger d.name) ↔ d₀.fresh = d.fresh := by
  obtain ⟨hmem, hname⟩ := LogDefines.find_eq_some hfind
  rw [hm, ← hname, ← hc.fresh d₀ hmem]
  exact eq_comm

/-- **One assignment.** -/
theorem Configured.assign {s : LogState} (hc : Configured s) {v : LogDefines} (hv : v.Valid) :
    ∃ s', (logSystem false).step s v = some s' ∧ s'.var.cbs = s.var.cbs ∧ s'.loggers.Named ∧
      (s'.var.value = v ∨ s' = s) ∧
      ((∀ d ∈ v.defs, d.fresh = some (s'.loggers.getLogger d.name)) ↔ Reconfigurable s v) := by
  by_cases heq : (s.var.value == v) = true
  · -- the variable takes the values for equal: nothing happens
    refine ⟨s, by simp [logSystem, ConfigVar.setValue, heq], rfl, hc.named, .inr rfl,
      forall₂_congr fun d hd => ?_⟩
    obtain ⟨d₀, hfind⟩ := Option.isSome_iff_exists.1 (LogDefines.isSome_find_of_beq heq hd)
    simpa [hfind] using hc.kept hfind rfl
  · obtain ⟨m, hm, hnamed, hds⟩ := listener_eq s.var.value hc.named hv
    refine ⟨⟨{ s.var with value := v }, m⟩, ?_, rfl, hnamed, .inl rfl,
      forall₂_congr fun d hd => ?_⟩
    · simp [logSystem, ConfigVar.setValue, heq, ConfigVar.notify, hc.cbs, hm]
    · have hd' := hds d hd
      cases hfind : s.var.value.find d.name with
      | some d₀ =>
        -- the listener skips the name
        rw [hfind] at hd'
        simpa using hc.kept hfind (by simpa using hd')
      | none =>
        -- the definition is applied to a logger that may have been configured and retired before
        rw [hfind] at hd'
        simp only [Option.isSome_none, Bool.false_eq_true, ↓reduceIte] at hd'
        rw [← hd', eq_comm]
        simpa using configure_eq_fresh (hv d hd).1 (fun a ha => ((hv d hd).2 a ha).1)
          (hc.named d.name)

/-- The values that are assigned are valid, and meet the condition. -/
def Converging (s : LogState) (v : LogDefines) : Prop := v.Valid ∧ Reconfigurable s v

instance (v : LogDefines) : Decidable v.Valid :=
  inferInstanceAs (Decidable (∀ d ∈ v.defs, _ ∧ ∀ a ∈ d.appenders, _))

instance (s : LogState) (v : LogDefines) : Decidable (Reconfigurable s v) :=
  inferInstanceAs (Decidable (∀ d ∈ v.defs, _ ∧ _))

instance (s : LogState) (v : LogDefines) : Decidable (Converging s v) :=
  inferInstanceAs (Decidable (_ ∧ _))

theorem configured_of_reachable {s : LogState}
    (h : (logSystem false).ReachableWhen Converging s) : Configured s := by
  refine h.invariant (I := Configured) ?_ ?_
  · rintro s ⟨hvar, hloggers⟩
    refine ⟨by rw [hvar], fun name => (hloggers name).1, fun d hd => ?_⟩
    rw [hvar] at hd
    cases hd
  · intro s v s' _ hc hg hs
    obtain ⟨t, ht, hcbs, hnamed, hvalue, hiff⟩ := hc.assign hg.1
    obtain rfl : t = s' := Option.some.inj (ht.symm.trans hs)
    rcases hvalue with hvalue | rfl
    · exact ⟨hcbs.trans hc.cbs, hnamed, by rw [hvalue]; exact hiff.2 hg.2⟩
    · exact hc

/-- **Reconfiguration converges.**  After any sequence of assignments of valid values that meet the
condition, the next valid value can be assigned, and every logger that it names then is what it
makes of a new logger, exactly if it meets the condition too. -/
theorem reconfiguration_converges {s : LogState}
    (h : (logSystem false).ReachableWhen Converging s) {v : LogDefines} (hv : v.Valid) :
    ∃ s', (logSystem false).step s v = some s' ∧
      ((∀ d ∈ v.defs, d.fresh = some (s'.loggers.getLogger d.name)) ↔ Reconfigurable s v) := by
  obtain ⟨s', hs, -, -, -, hiff⟩ := (configured_of_reachable h).assign hv
  exact ⟨s', hs, hiff⟩

/-! ### Runs -/

/-- The variable and the loggers at the start of the program. -/
def logStart : LogState :=
  ⟨⟨.empty, [fun old new m => m.bind (LogIniter.listener false old new)]⟩, .new⟩

theorem logStart_init : (logSystem false).init logStart := ⟨rfl, LoggerManager.getLogger_new⟩

/-- A definition of the logger `system`, which writes to the console. -/
def systemDefine (level : LogLevel) : LogDefine :=
  ⟨ascii "system", level, ascii "%m%n", [⟨2, .debug, [], []⟩]⟩

/-- The value that defines `system` only. -/
def systemOnly (level : LogLevel) : LogDefines :=
  ⟨[systemDefine level], List.pairwise_singleton _ _⟩

/-- The value that defines `root` too. -/
def systemAndRoot : LogDefines :=
  ⟨[⟨ascii "root", .warn, [], [⟨1, .info, ascii "%p %m%n", ascii "log.text"⟩]⟩,
    systemDefine .info], by decide⟩

/-- A definition is kept and another one added. -/
theorem reconfiguration_converges_add :
    ∃ s s', (logSystem false).run Converging logStart [systemOnly .info] = some s ∧
      (logSystem false).step s systemAndRoot = some s' ∧
      ∀ d ∈ systemAndRoot.defs, d.fresh = some (s'.loggers.getLogger d.name) := by
  have hs : ((logSystem false).run Converging logStart [systemOnly .info]).map
      (fun s => decide (Reconfigurable s systemAndRoot)) = some true := by
    decide +kernel
  obtain ⟨s, hrun, hcond⟩ := Option.map_eq_some_iff.1 hs
  obtain ⟨s', hstep, hiff⟩ := reconfiguration_converges
    (System.reachableWhen_of_run logStart_init hrun) (v := systemAndRoot) (by decide +kernel)
  exact ⟨s, s', hrun, hstep, hiff.2 (of_decide_eq_true hcond)⟩

/-- Another level is assigned to a name that is kept: the logger keeps the old one. -/
theorem reconfiguration_loses_level :
    (systemOnly .info).Valid ∧ (systemOnly .error).Valid ∧
      ∃ s, (logSystem false).run (fun _ _ => True) logStart [systemOnly .info, systemOnly .error] =
          some s ∧
        (s.loggers.getLogger (ascii "system")).level = .info ∧
        (systemDefine .error).fresh.map Logger.level = some .error := by
  refine ⟨by decide +kernel, by decide +kernel, ?_⟩
  have hs : ((logSystem false).run (fun _ _ => True) logStart
      [systemOnly .info, systemOnly .error]).map
        (fun s => (s.loggers.getLogger (ascii "system")).level) = some .info := by
    decide +kernel
  obtain ⟨s, hrun, hlevel⟩ := Option.map_eq_some_iff.1 hs
  exact ⟨s, hrun, hlevel, by decide +kernel⟩

end Log

end YXTWebCpp
