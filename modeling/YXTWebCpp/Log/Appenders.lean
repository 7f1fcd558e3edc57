import YXTWebCpp.LTS.Basic
import YXTWebCpp.Log.Logger

/-!
# Appenders and their formatters

Loggers hold appenders by pointers (`log.hpp`, `log.cpp`), so that an appender can be changed while
it is attached, and attached again after it was detached.

* `Logs` : the loggers and the appenders, with the calls on them.
* `Logs.Inherits` : every attached appender has a formatter, its own one or that of its logger.
* `logger_setFormatter`, `logger_addAppender` : the calls do to a logger what they do to a `Logger`
  with appenders of its own.
* `inherits_step_iff` : which calls keep the formatters.
* `inherits_of_reachable` : **it holds in every state of a run of such calls**.
-/

namespace YXTWebCpp

namespace Log

open Http (ascii)

/-- The loggers `L` and the appenders `A` that are pointed to.  A formatter does not change once it
has been made, and is a value here. -/
structure Logs (L A : Type*) where
  /-- `Logger::m_formatter` -/
  formatter : L → LogFormatter
  /-- `Logger::m_appenders` -/
  appenders : L → List A
  /-- The appenders themselves. -/
  appender : A → LogAppender
  /-- What `LogAppender::setFormatter` was last called with; `none` is `nullptr`. -/
  given : A → Option LogFormatter

/-- A call on a logger or on an appender. -/
inductive LogCall (L A : Type*) where
  /-- `Logger::addAppender` -/
  | addAppender (l : L) (a : A)
  /-- `Logger::delAppender` -/
  | delAppender (l : L) (a : A)
  /-- `Logger::clearAppenders` -/
  | clearAppenders (l : L)
  /-- `Logger::setFormatter` with a formatter -/
  | setFormatter (l : L) (val : LogFormatter)
  /-- `Logger::setFormatter` with a pattern -/
  | setPattern (l : L) (val : List UInt8)
  /-- `LogAppender::setFormatter` -/
  | setAppenderFormatter (a : A) (val : Option LogFormatter)

namespace LogAppender

/-- The formatter of the logger, for an appender that is added without one. -/
def adopt (val : LogFormatter) (a : LogAppender) : LogAppender :=
  if a.formatter.isNone then { a with formatter := some val } else a

/-- The formatter of the logger, for an appender that has none of its own. -/
def inherit (val : LogFormatter) (a : LogAppender) : LogAppender :=
  if !a.hasFormatter then { a with formatter := some val } else a

@[simp] theorem adopt_hasFormatter (val : LogFormatter) (a : LogAppender) :
    (a.adopt val).hasFormatter = a.hasFormatter := by
  unfold adopt
  split_ifs <;> rfl

@[simp] theorem adopt_formatter (val : LogFormatter) (a : LogAppender) :
    (a.adopt val).formatter = some (a.formatter.getD val) := by
  unfold adopt
  cases h : a.formatter with
  | none => rfl
  | some f => simpa using h

@[simp] theorem inherit_hasFormatter (val : LogFormatter) (a : LogAppender) :
    (a.inherit val).hasFormatter = a.hasFormatter := by
  unfold inherit
  split_ifs <;> rfl

theorem inherit_formatter (val : LogFormatter) (a : LogAppender) : (a.inherit val).formatter =
    if a.hasFormatter then a.formatter else some val := by
  unfold inherit
  cases a.hasFormatter <;> rfl

theorem inherit_inherit (val : LogFormatter) (a : LogAppender) :
    (a.inherit val).inherit val = a.inherit val := by
  unfold inherit
  cases h : a.hasFormatter <;> simp [h]

end LogAppender

namespace Logs

variable {L A : Type*} [DecidableEq L] [DecidableEq A]

/-- `Logger::addAppender` -/
def addAppender (s : Logs L A) (l : L) (a : A) : Logs L A :=
  { s with
    appender := Function.update s.appender a ((s.appender a).adopt (s.formatter l))
    appenders := Function.update s.appenders l (s.appenders l ++ [a]) }

/-- `Logger::delAppender` erases the first pointer to the appender. -/
def delAppender (s : Logs L A) (l : L) (a : A) : Logs L A :=
  { s with appenders := Function.update s.appenders l ((s.appenders l).erase a) }

/-- `Logger::clearAppenders` -/
def clearAppenders (s : Logs L A) (l : L) : Logs L A :=
  { s with appenders := Function.update s.appenders l [] }

/-- `Logger::setFormatter` with a formatter. -/
def setFormatter (s : Logs L A) (l : L) (val : LogFormatter) : Logs L A :=
  { s with
    formatter := Function.update s.formatter l val
    appender := (s.appenders l).foldl
      (fun appender i => Function.update appender i ((appender i).inherit val)) s.appender }

/-- `Logger::setFormatter` with a pattern. -/
def setPattern (s : Logs L A) (l : L) (val : List UInt8) : Logs L A :=
  if LogFormatter.isError ⟨val⟩ then s else s.setFormatter l ⟨val⟩

/-- `LogAppender::setFormatter` -/
def setAppenderFormatter (s : Logs L A) (a : A) (val : Option LogFormatter) : Logs L A :=
  { s with
    appender := Function.update s.appender a ((s.appender a).setFormatter val)
    given := Function.update s.given a val }

/-- The state after a call. -/
def step (s : Logs L A) : LogCall L A → Logs L A
  | .addAppender l a => s.addAppender l a
  | .delAppender l a => s.delAppender l a
  | .clearAppenders l => s.clearAppenders l
  | .setFormatter l val => s.setFormatter l val
  | .setPattern l val => s.setPattern l val
  | .setAppenderFormatter a val => s.setAppenderFormatter a val

omit [DecidableEq L] [DecidableEq A] in
/-- Loggers and appenders as they are constructed. -/
def Init (s : Logs L A) : Prop :=
  (∀ l, s.formatter l = .default ∧ s.appenders l = []) ∧
    ∀ a, (∃ target, s.appender a = .new target) ∧ s.given a = none

/-- An appender is added only if no other logger has it. -/
def Exclusive (s : Logs L A) : LogCall L A → Prop
  | .addAppender l a => ∀ l', a ∈ s.appenders l' → l' = l
  | _ => True

/-- An appender without a formatter of its own is not added with a formatter that its logger does
not have, and the formatter of an attached appender is not taken away. -/
def Inheriting (s : Logs L A) : LogCall L A → Prop
  | .addAppender l a => (s.appender a).hasFormatter = true ∨ (s.appender a).formatter = none ∨
      (s.appender a).formatter = some (s.formatter l)
  | .setAppenderFormatter a val => val ≠ none ∨ ∀ l, a ∉ s.appenders l
  | _ => True

/-- Every attached appender has a formatter: the one that it was last given, otherwise the one of
its logger. -/
def Inherits (s : Logs L A) : Prop :=
  ∀ l a, a ∈ s.appenders l → (s.appender a).formatter = some ((s.given a).getD (s.formatter l))

/-! ### What an appender knows -/

/-- `m_hasFormatter` says whether the appender has a formatter of its own, and no two loggers have
the same appender. -/
structure Sound (s : Logs L A) : Prop where
  flag : ∀ a, (s.appender a).hasFormatter = (s.given a).isSome
  kept : ∀ a f, s.given a = some f → (s.appender a).formatter = some f
  once : ∀ l l' a, a ∈ s.appenders l → a ∈ s.appenders l' → l = l'

omit [DecidableEq L] [DecidableEq A] in
theorem sound_of_init {s : Logs L A} (h : s.Init) : s.Sound where
  flag a := by
    obtain ⟨⟨target, ha⟩, hg⟩ := h.2 a
    rw [ha, hg]
    rfl
  kept a f hf := by
    rw [(h.2 a).2] at hf
    cases hf
  once l l' a ha := by
    rw [(h.1 l).2] at ha
    cases ha

omit [DecidableEq L] [DecidableEq A] in
theorem inherits_of_init {s : Logs L A} (h : s.Init) : s.Inherits := by
  intro l a ha
  rw [(h.1 l).2] at ha
  cases ha

/-! ### The calls on the appenders -/

@[simp] theorem addAppender_appender (s : Logs L A) (l : L) (a b : A) :
    (s.addAppender l a).appender b =
      if b = a then (s.appender a).adopt (s.formatter l) else s.appender b :=
  Function.update_apply ..

theorem mem_addAppender {s : Logs L A} {l l' : L} {a b : A} :
    b ∈ (s.addAppender l a).appenders l' ↔ (l' = l ∧ b = a) ∨ b ∈ s.appenders l' := by
  show b ∈ Function.update s.appenders l (s.appenders l ++ [a]) l' ↔ _
  by_cases hl : l' = l
  · subst hl
    simp [or_comm]
  · simp [hl]

omit [DecidableEq A] in
theorem mem_of_mem_detach {s : Logs L A} {l l' : L} {as : List A} {a : A}
    (has : as ⊆ s.appenders l) (h : a ∈ Function.update s.appenders l as l') :
    a ∈ s.appenders l' := by
  by_cases hl : l' = l
  · subst hl
    rw [Function.update_self] at h
    exact has h
  · rwa [Function.update_of_ne hl] at h

@[simp] theorem setFormatter_appender (s : Logs L A) (l : L) (val : LogFormatter) (a : A) :
    (s.setFormatter l val).appender a =
      if a ∈ s.appenders l then (s.appender a).inherit val else s.appender a := by
  show (s.appenders l).foldl _ s.appender a = _
  generalize s.appender = appender
  induction s.appenders l generalizing appender with
  | nil => simp
  | cons i as ih =>
    rw [List.foldl_cons, ih]
    by_cases hi : a = i
    · subst hi
      simp [LogAppender.inherit_inherit]
    · simp [hi]

omit [DecidableEq L] in
@[simp] theorem setAppenderFormatter_appender (s : Logs L A) (a b : A) (val : Option LogFormatter) :
    (s.setAppenderFormatter a val).appender b =
      if b = a then (s.appender a).setFormatter val else s.appender b :=
  Function.update_apply ..

omit [DecidableEq L] in
@[simp] theorem setAppenderFormatter_given (s : Logs L A) (a b : A) (val : Option LogFormatter) :
    (s.setAppenderFormatter a val).given b = if b = a then val else s.given b :=
  Function.update_apply ..

/-! ### One logger by itself -/

section Single

variable (s : Logs L A) (name : List UInt8) (level : LogLevel) (l : L)

omit [DecidableEq L] [DecidableEq A] in
/-- A logger with the appenders that it points to. -/
def logger : Logger := ⟨name, level, (s.appenders l).map s.appender, s.formatter l⟩

theorem logger_addAppender {a : A} (ha : a ∉ s.appenders l) :
    (s.addAppender l a).logger name level l =
      (s.logger name level l).addAppender (s.appender a) := by
  have hold : ∀ b ∈ s.appenders l, (s.addAppender l a).appender b = s.appender b := by
    intro b hb
    rw [addAppender_appender, if_neg fun hba : b = a => ha (hba ▸ hb)]
  have happenders : (s.addAppender l a).appenders l = s.appenders l ++ [a] :=
    Function.update_self ..
  rw [logger, happenders, List.map_append, List.map_congr_left hold, List.map_singleton,
    addAppender_appender, if_pos rfl]
  rfl

omit [DecidableEq A] in
theorem logger_clearAppenders : (s.clearAppenders l).logger name level l =
    (s.logger name level l).clearAppenders := by
  simp [logger, clearAppenders, Logger.clearAppenders]

theorem logger_setFormatter (val : LogFormatter) : (s.setFormatter l val).logger name level l =
    (s.logger name level l).setFormatter val := by
  have hmap : (s.appenders l).map (s.setFormatter l val).appender =
      ((s.appenders l).map s.appender).map (LogAppender.inherit val) := by
    rw [List.map_map]
    refine List.map_congr_left fun a ha => ?_
    rw [setFormatter_appender, if_pos ha]
    rfl
  have hformatter : (s.setFormatter l val).formatter l = val := Function.update_self ..
  rw [logger, hformatter]
  exact congrArg (Logger.mk name level · val) hmap

theorem logger_setPattern (val : List UInt8) : (s.setPattern l val).logger name level l =
    (s.logger name level l).setPattern val := by
  rw [setPattern, Logger.setPattern]
  split_ifs
  · rfl
  · exact logger_setFormatter s name level l _

end Single

section Step

variable {s : Logs L A} (hs : s.Sound)
include hs

theorem sound_addAppender {l : L} {a : A} (hex : s.Exclusive (.addAppender l a)) :
    (s.addAppender l a).Sound where
  flag b := by
    rw [addAppender_appender]
    split_ifs with hb
    · rw [LogAppender.adopt_hasFormatter, hs.flag a, hb]
      rfl
    · exact hs.flag b
  kept b f hf := by
    have hkept := hs.kept b f hf
    rw [addAppender_appender]
    split_ifs with hb
    · rw [LogAppender.adopt_formatter, ← hb, hkept]
      rfl
    · exact hkept
  once l₁ l₂ b h₁ h₂ := by
    rw [mem_addAppender] at h₁ h₂
    rcases h₁ with ⟨rfl, rfl⟩ | h₁
    · rcases h₂ with ⟨rfl, -⟩ | h₂
      · rfl
      · exact (hex l₂ h₂).symm
    · rcases h₂ with ⟨rfl, rfl⟩ | h₂
      · exact hex l₁ h₁
      · exact hs.once l₁ l₂ b h₁ h₂

omit [DecidableEq A] in
theorem sound_detach {l : L} {as : List A} (has : as ⊆ s.appenders l) :
    ({ s with appenders := Function.update s.appenders l as } : Logs L A).Sound where
  flag := hs.flag
  kept := hs.kept
  once l₁ l₂ a h₁ h₂ := hs.once l₁ l₂ a (mem_of_mem_detach has h₁) (mem_of_mem_detach has h₂)

theorem sound_setFormatter (l : L) (val : LogFormatter) : (s.setFormatter l val).Sound where
  flag a := by
    rw [setFormatter_appender]
    split_ifs
    · exact (LogAppender.inherit_hasFormatter ..).trans (hs.flag a)
    · exact hs.flag a
  kept a f hf := by
    have hflag : (s.appender a).hasFormatter = true := by
      rw [hs.flag a, show s.given a = some f from hf]
      rfl
    rw [setFormatter_appender]
    split_ifs
    · rw [LogAppender.inherit_formatter, if_pos hflag]
      exact hs.kept a f hf
    · exact hs.kept a f hf
  once := hs.once

omit [DecidableEq L] in
theorem sound_setAppenderFormatter (a : A) (val : Option LogFormatter) :
    (s.setAppenderFormatter a val).Sound where
  flag b := by
    rw [setAppenderFormatter_appender, setAppenderFormatter_given]
    split_ifs
    · rfl
    · exact hs.flag b
  kept b f hf := by
    rw [setAppenderFormatter_given] at hf
    rw [setAppenderFormatter_appender]
    split_ifs at hf ⊢
    · exact hf
    · exact hs.kept b f hf
  once := hs.once

theorem sound_step {c : LogCall L A} (hex : s.Exclusive c) : (s.step c).Sound := by
  cases c with
  | addAppender l a => exact sound_addAppender hs hex
  | delAppender l a => exact sound_detach hs List.erase_subset
  | clearAppenders l => exact sound_detach hs (List.nil_subset _)
  | setFormatter l val => exact sound_setFormatter hs l val
  | setPattern l val =>
    show (s.setPattern l val).Sound
    rw [setPattern]
    split_ifs
    · exact hs
    · exact sound_setFormatter hs l _
  | setAppenderFormatter a val => exact sound_setAppenderFormatter hs a val

/-! ### Which calls keep the formatters -/

variable (hi : s.Inherits)
include hi

theorem inherits_addAppender_iff {l : L} {a : A} (hex : s.Exclusive (.addAppender l a)) :
    (s.addAppender l a).Inherits ↔ s.Inheriting (.addAppender l a) := by
  have hnew : ((s.appender a).adopt (s.formatter l)).formatter =
      some ((s.given a).getD (s.formatter l)) ↔ s.Inheriting (.addAppender l a) := by
    rw [LogAppender.adopt_formatter, Inheriting, hs.flag a]
    cases hg : s.given a with
    | some f => simp [hs.kept a f hg]
    | none => cases (s.appender a).formatter <;> simp
  constructor
  · intro h
    have := h l a (mem_addAppender.2 (.inl ⟨rfl, rfl⟩))
    rw [addAppender_appender, if_pos rfl] at this
    exact hnew.1 this
  · intro h l' b hb
    rw [addAppender_appender]
    split_ifs with hba
    · have hl : l' = l := by
        rcases mem_addAppender.1 hb with ⟨hl, -⟩ | hmem
        · exact hl
        · exact hex l' (hba ▸ hmem)
      rw [hba, hl]
      exact hnew.2 h
    · rcases mem_addAppender.1 hb with ⟨-, hba'⟩ | hmem
      · exact absurd hba' hba
      · exact hi l' b hmem

omit hs [DecidableEq A] in
theorem inherits_detach {l : L} {as : List A} (has : as ⊆ s.appenders l) :
    ({ s with appenders := Function.update s.appenders l as } : Logs L A).Inherits :=
  fun l' a ha => hi l' a (mem_of_mem_detach has ha)

theorem inherits_setFormatter (l : L) (val : LogFormatter) : (s.setFormatter l val).Inherits := by
  intro l' a (ha : a ∈ s.appenders l')
  show ((s.setFormatter l val).appender a).formatter =
    some ((s.given a).getD (Function.update s.formatter l val l'))
  rw [setFormatter_appender]
  by_cases hl : l' = l
  · subst hl
    rw [if_pos ha, LogAppender.inherit_formatter, Function.update_self, hs.flag a]
    cases hg : s.given a with
    | some f => exact hs.kept a f hg
    | none => rfl
  · -- the appenders of another logger are not the ones of this one
    rw [if_neg fun ha' => hl (hs.once l' l a ha ha'), Function.update_of_ne hl]
    exact hi l' a ha

omit hs [DecidableEq L] in
theorem inherits_setAppenderFormatter_iff (a : A) (val : Option LogFormatter) :
    (s.setAppenderFormatter a val).Inherits ↔
      s.Inheriting (.setAppenderFormatter a val) := by
  constructor
  · intro h
    refine or_iff_not_imp_left.2 fun hval l ha => ?_
    have := h l a ha
    rw [setAppenderFormatter_appender, if_pos rfl, not_not.1 hval] at this
    exact Option.some_ne_none _ this.symm
  · intro h l b (hb : b ∈ s.appenders l)
    rw [setAppenderFormatter_appender, setAppenderFormatter_given]
    split_ifs with hba
    · obtain ⟨f, rfl⟩ : ∃ f, val = some f :=
        Option.ne_none_iff_exists'.1 (h.resolve_right fun hno => hno l (hba ▸ hb))
      rfl
    · exact hi l b hb

/-- A call keeps the formatters exactly when it meets the condition. -/
theorem inherits_step_iff {c : LogCall L A} (hex : s.Exclusive c) :
    (s.step c).Inherits ↔ s.Inheriting c := by
  cases c with
  | addAppender l a => exact inherits_addAppender_iff hs hi hex
  | delAppender l a => exact iff_of_true (inherits_detach hi List.erase_subset) trivial
  | clearAppenders l => exact iff_of_true (inherits_detach hi (List.nil_subset _)) trivial
  | setFormatter l val => exact iff_of_true (inherits_setFormatter hs hi l val) trivial
  | setPattern l val =>
    refine iff_of_true ?_ trivial
    show (s.setPattern l val).Inherits
    rw [setPattern]
    split_ifs
    · exact hi
    · exact inherits_setFormatter hs hi l _
  | setAppenderFormatter a val => exact inherits_setAppenderFormatter_iff hi a val

end Step

/-! ### Runs -/

variable (L A) in
/-- Loggers and appenders as they are constructed, and the calls on them. -/
def system : System (Logs L A) (LogCall L A) where
  init := Init
  step s c := some (s.step c)

theorem reachableWhen_step {G : Logs L A → LogCall L A → Prop} {s : Logs L A}
    (h : (system L A).ReachableWhen G s) (c : LogCall L A) (hc : G s c) :
    (system L A).ReachableWhen G (s.step c) :=
  .step h hc rfl

/-- **Appenders have the formatters of their loggers** in every state of a run in which no stale
formatter is attached and none is taken away. -/
theorem inherits_of_reachable {s : Logs L A}
    (h : (system L A).ReachableWhen (fun s c => s.Exclusive c ∧ s.Inheriting c) s) :
    s.Inherits ∧
      ∀ l val, LogFormatter.isError ⟨val⟩ = true → s.step (.setPattern l val) = s := by
  refine ⟨And.right (h.invariant (I := fun s => s.Sound ∧ s.Inherits) ?_ ?_), fun l val hval => ?_⟩
  · exact fun s hs => ⟨sound_of_init hs, inherits_of_init hs⟩
  · rintro s c - - ⟨hs, hi⟩ ⟨hex, hc⟩ ⟨⟩
    exact ⟨sound_step hs hex, (inherits_step_iff hs hi hex).2 hc⟩
  · exact if_pos hval

/-- One logger, and one appender that writes to the standard output. -/
def single : Logs Unit Unit :=
  ⟨fun _ => .default, fun _ => [], fun _ => .new .stdout, fun _ => none⟩

theorem init_single : single.Init :=
  ⟨fun _ => ⟨rfl, rfl⟩, fun _ => ⟨⟨.stdout, rfl⟩, rfl⟩⟩

theorem inherits_of_reachable_single :
    ((single.step (.addAppender () ())).step (.setPattern () (ascii "%m%n"))).Inherits :=
  have hadd := reachableWhen_step (.init init_single) (.addAppender () ())
    ⟨fun _ _ => rfl, .inr (.inl rfl)⟩
  (inherits_of_reachable (reachableWhen_step hadd (.setPattern () (ascii "%m%n"))
    ⟨trivial, trivial⟩)).1

/-- **Two ways to a wrong formatter**: `nullptr` for an attached appender leaves it without one, and
an appender that is detached, and attached again after its logger got another formatter, keeps the
old one. -/
theorem exists_not_inherits :
    (∃ s, (system Unit Unit).ReachableWhen Exclusive s ∧ () ∈ s.appenders () ∧
      (s.appender ()).formatter = none ∧ ¬ s.Inherits) ∧
    ∃ s, (system Unit Unit).ReachableWhen Exclusive s ∧ () ∈ s.appenders () ∧
      s.given () = none ∧ (s.appender ()).formatter = some .default ∧
      s.formatter () = ⟨ascii "%m%n"⟩ ∧ ¬ s.Inherits := by
  have hadd : (system Unit Unit).ReachableWhen Exclusive (single.step (.addAppender () ())) :=
    reachableWhen_step (.init init_single) _ fun _ _ => rfl
  constructor
  · refine ⟨_, reachableWhen_step hadd (.setAppenderFormatter () none) trivial,
      List.mem_singleton_self _, rfl, fun h => ?_⟩
    exact Option.some_ne_none _ (h () () (List.mem_singleton_self _)).symm
  · have hdel := reachableWhen_step hadd (.delAppender () ()) trivial
    have hset := reachableWhen_step hdel (.setFormatter () ⟨ascii "%m%n"⟩) trivial
    refine ⟨_, reachableWhen_step hset (.addAppender () ()) fun _ _ => rfl,
      List.mem_singleton_self _, rfl, rfl, rfl, fun h => ?_⟩
    have hsame := Option.some.inj (h () () (List.mem_singleton_self _))
    exact absurd hsame (by decide +kernel)

end Logs

end Log

end YXTWebCpp
