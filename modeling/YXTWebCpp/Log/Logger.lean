import YXTWebCpp.Log.Formatter
import Mathlib.Logic.Function.Basic

/-!
# Loggers

`Logger`, `LogAppender` and `LoggerManager` (`log.hpp`, `log.cpp`): a logger has a level, a
formatter and a list of appenders.  An appender that has no formatter of its own gets the
one of its logger.

* `LogAppender`, `Logger` : the objects, with the operations on them.
* `LoggerManager` : the loggers by name; a logger is made when it is first asked for.
-/

namespace YXTWebCpp

namespace Log

open Http (ascii)

/-- `LogLevel::Level`, in increasing order. -/
inductive LogLevel where
  | unknow | debug | info | warn | error | fatal
  deriving DecidableEq, Repr

/-- Where an appender writes. -/
inductive Target where
  /-- `FileLogAppender` -/
  | file (filename : List UInt8)
  /-- `StdoutLogAppender` -/
  | stdout
  deriving DecidableEq

/-- `LogAppender` -/
structure LogAppender where
  /-- The kind of appender. -/
  target : Target
  /-- `m_level` -/
  level : LogLevel
  /-- `m_hasFormatter` -/
  hasFormatter : Bool
  /-- `m_formatter` -/
  formatter : Option LogFormatter
  deriving DecidableEq

namespace LogAppender

/-- An appender as it is constructed. -/
def new (target : Target) : LogAppender := ⟨target, .debug, false, none⟩

/-- `LogAppender::setLevel` -/
def setLevel (a : LogAppender) (val : LogLevel) : LogAppender := { a with level := val }

/-- `LogAppender::setFormatter` -/
def setFormatter (a : LogAppender) (val : Option LogFormatter) : LogAppender :=
  { a with formatter := val, hasFormatter := val.isSome }

end LogAppender

/-- `Logger`, without the pointer to the root logger. -/
structure Logger where
  /-- `m_name` -/
  name : List UInt8
  /-- `m_level` -/
  level : LogLevel
  /-- `m_appenders` -/
  appenders : List LogAppender
  /-- `m_formatter` -/
  formatter : LogFormatter
  deriving DecidableEq

namespace Logger

/-- `Logger(name)` -/
def new (name : List UInt8) : Logger := ⟨name, .debug, [], .default⟩

/-- `Logger::setLevel` -/
def setLevel (l : Logger) (val : LogLevel) : Logger := { l with level := val }

/-- `Logger::setFormatter` with a formatter: the appenders without one of their own get it too. -/
def setFormatter (l : Logger) (val : LogFormatter) : Logger :=
  { l with
    formatter := val
    appenders := l.appenders.map fun a =>
      if !a.hasFormatter then { a with formatter := some val } else a }

/-- `Logger::setFormatter` with a pattern, which does nothing if the pattern has an error. -/
def setPattern (l : Logger) (val : List UInt8) : Logger :=
  if LogFormatter.isError ⟨val⟩ then l else l.setFormatter ⟨val⟩

/-- `Logger::addAppender` -/
def addAppender (l : Logger) (appender : LogAppender) : Logger :=
  { l with appenders := l.appenders ++
    [if appender.formatter.isNone then { appender with formatter := some l.formatter }
      else appender] }

/-- `Logger::clearAppenders` -/
def clearAppenders (l : Logger) : Logger := { l with appenders := [] }

end Logger

/-- `LoggerManager`: `m_loggers`. -/
structure LoggerManager where
  loggers : List UInt8 → Option Logger

namespace LoggerManager

/-- `LoggerManager::getLogger`, the logger that it returns. -/
def getLogger (m : LoggerManager) (name : List UInt8) : Logger :=
  (m.loggers name).getD (.new name)

/-- A change of the logger that `getLogger` returns; it is in the map from then on. -/
def setLogger (m : LoggerManager) (name : List UInt8) (l : Logger) : LoggerManager :=
  ⟨Function.update m.loggers name (some l)⟩

/-- `LoggerManager()` -/
def new : LoggerManager :=
  (⟨fun _ => none⟩ : LoggerManager).setLogger (ascii "root")
    ((Logger.new (ascii "root")).addAppender (.new .stdout))

theorem getLogger_setLogger (m : LoggerManager) (name name' : List UInt8) (l : Logger) :
    (m.setLogger name l).getLogger name' = if name' = name then l else m.getLogger name' := by
  unfold getLogger setLogger
  by_cases h : name' = name
  · subst h
    simp
  · simp [h]

/-- At first every logger has its name and the default formatter. -/
theorem getLogger_new (name : List UInt8) :
    (new.getLogger name).name = name ∧ (new.getLogger name).formatter = .default := by
  rw [new, getLogger_setLogger]
  split_ifs with h
  · exact ⟨h.symm, rfl⟩
  · exact ⟨rfl, rfl⟩

end LoggerManager

end Log

end YXTWebCpp
