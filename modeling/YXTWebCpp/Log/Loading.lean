import YXTWebCpp.Config.Loading
import YXTWebCpp.Log.Output

/-!
# Loggers from documents

A document that is loaded assigns to `logs` what stands under that name, and the listener of `logs`
configures the loggers.

* `LogDefines.ofYaml`, `LogDefines.ofText` : `LexicalCast<std::string, std::set<LogDefine>>`.
* `LogVars` : the types of the variables, of which the one of `logs` is known.
* `documents` : documents are loaded one after another.
* `DocConverging` : the values that a document assigns to `logs` meet the condition under which
  reconfiguration converges.
* `log_of_loaded` : **events go where the documents say**.
-/

namespace YXTWebCpp

namespace Log

open Http (ascii)
open Yaml

/-! ### Sets of definitions -/

/-- The place of a definition in a set; a name that is there already stays as it is. -/
def insertDefine (d : LogDefine) : List LogDefine → List LogDefine
  | [] => [d]
  | e :: es =>
    if d.name < e.name then d :: e :: es
    else if e.name < d.name then e :: insertDefine d es
    else e :: es

theorem mem_insertDefine {d e : LogDefine} {es : List LogDefine} (h : e ∈ insertDefine d es) :
    e = d ∨ e ∈ es := by
  induction es with
  | nil => exact .inl (List.mem_singleton.1 h)
  | cons f es ih =>
    rw [insertDefine] at h
    split_ifs at h
    · exact List.mem_cons.1 h
    · rcases List.mem_cons.1 h with rfl | h
      · exact .inr List.mem_cons_self
      · exact (ih h).imp_right (List.mem_cons_of_mem _)
    · exact .inr h

theorem pairwise_insertDefine (d : LogDefine) {es : List LogDefine}
    (h : es.Pairwise fun d e => d.name < e.name) :
    (insertDefine d es).Pairwise fun d e => d.name < e.name := by
  induction es with
  | nil => exact List.pairwise_singleton _ _
  | cons e es ih =>
    obtain ⟨he, hes⟩ := List.pairwise_cons.1 h
    rw [insertDefine]
    split_ifs with hlt hgt
    · refine List.pairwise_cons.2 ⟨fun f hf => ?_, h⟩
      rcases List.mem_cons.1 hf with rfl | hf
      · exact hlt
      · exact List.lt_trans hlt (he f hf)
    · refine List.pairwise_cons.2 ⟨fun f hf => ?_, ih hes⟩
      rcases mem_insertDefine hf with rfl | hf
      · exact hgt
      · exact he f hf
    · exact h

/-- `std::set<LogDefine>::insert` -/
def LogDefines.insert (s : LogDefines) (d : LogDefine) : LogDefines :=
  ⟨insertDefine d s.defs, pairwise_insertDefine d s.sorted⟩

/-- What `LexicalCast<std::string, std::set<LogDefine>>` makes of a tree.  The entries of a map,
which has no numbers for keys, are looked for under numbers, and there is no name. -/
def LogDefines.ofYaml (y : YamlCpp) : YamlNode → Except CastError LogDefines
  | .map (_ :: _) => .error .nameNull
  | n => n.nodes.foldlM (fun s v => (LogDefine.ofText y (y.emit v)).map s.insert) .empty

/-- `LexicalCast<std::string, std::set<LogDefine>>` -/
def LogDefines.ofText (y : YamlCpp) (v : List UInt8) : Except CastError LogDefines :=
  LogDefines.ofYaml y (y.load v)

/-! ### Documents -/

/-- The types of the variables; `none` is the one of `logs`. -/
abbrev LogVars {Ty : Type*} (V : Ty → Type) : Option Ty → Type
  | none => LogDefines
  | some t => V t

instance {Ty : Type*} (V : Ty → Type) [∀ t, BEq (V t)] : ∀ o, BEq (LogVars V o)
  | none => inferInstanceAs (BEq LogDefines)
  | some t => inferInstanceAs (BEq (V t))

section

variable {Ty : Type*} {V : Ty → Type} [∀ t, BEq (V t)]
  (fromStr : ∀ t, List UInt8 → Option (V t)) (y : YamlCpp)

/-- The conversions. -/
def logFromStr : ∀ o, List UInt8 → Option (LogVars V o)
  | none => fun v => (LogDefines.ofText y v).toOption
  | some t => fromStr t

/-- The variables and the loggers. -/
abbrev Loaded (V : Ty → Type) := Config (LogVars V) (Option LoggerManager) × LoggerManager

/-- One document after another is loaded.  The listeners of the variables other than `logs` do not
touch the loggers. -/
def documents : System (Loaded V) YamlNode where
  init s := s.1.datas (ascii "logs") = some ⟨none, logStart.var⟩ ∧ s.1.Silent (ascii "logs") ∧
    s.2 = .new
  step s root :=
    let r := Config.LoadFromYaml (logFromStr fromStr y) y.emit root (s.1, some s.2)
    r.2.map fun m => (r.1, m)

/-- The values that a document assigns to `logs`. -/
def assigned (root : YamlNode) : List LogDefines :=
  ((valuesAt root (ascii "logs")).map (nodeText y.emit)).filterMap fun v =>
    (LogDefines.ofText y v).toOption

/-- The values that the document assigns to `logs` can be assigned one after another. -/
def DocConverging (s : Loaded V) (root : YamlNode) : Prop :=
  ∃ var, s.1.datas (ascii "logs") = some ⟨none, var⟩ ∧
    ((logSystem false).run Converging ⟨var, s.2⟩ (assigned y root)).isSome = true

/-- The loggers are what `logs` defines. -/
def LoadedRouted (s : Loaded V) : Prop :=
  s.1.Silent (ascii "logs") ∧
    ∃ var, s.1.datas (ascii "logs") = some ⟨none, var⟩ ∧ Routed ⟨var, s.2⟩

variable {y}

/-- The values of a run that converges, assigned with the listener of `logs`. -/
theorem setValues_of_run (vs : List LogDefines) : ∀ {s s' : LogState}, Routed s →
    (logSystem false).run Converging s vs = some s' →
      s.var.setValues vs (some s.loggers) = (s'.var, some s'.loggers) ∧ Routed s' := by
  induction vs with
  | nil =>
    intro s s' hr h
    obtain rfl : s = s' := Option.some.inj h
    exact ⟨rfl, hr⟩
  | cons v vs ih =>
    intro s s' hr h
    rw [System.run] at h
    split_ifs at h with hv
    obtain ⟨t, ht, hrun⟩ := Option.bind_eq_some_iff.1 h
    obtain ⟨t', ht', hrt⟩ := hr.assign hv
    obtain rfl : t = t' := Option.some.inj (ht.symm.trans ht')
    obtain ⟨hvalues, hrs'⟩ := ih hrt hrun
    refine ⟨?_, hrs'⟩
    obtain ⟨m, hm, rfl⟩ := Option.map_eq_some_iff.1 ht
    have hset : s.var.setValue v (some s.loggers) =
        ((s.var.setValue v (some s.loggers)).1, some m) := Prod.ext rfl hm
    rw [ConfigVar.setValues, List.foldl_cons]
    show vs.foldl _ (s.var.setValue v (some s.loggers)) = _
    rw [hset]
    exact hvalues

/-- **One document.** -/
theorem LoadedRouted.load {s : Loaded V} (hs : LoadedRouted s) {root : YamlNode}
    (hroot : DocConverging y s root) :
    ∃ s', (documents fromStr y).step s root = some s' ∧ LoadedRouted s' := by
  obtain ⟨hsilent, var, hvar, hr⟩ := hs
  obtain ⟨var', hvar', hrun⟩ := hroot
  obtain rfl : var' = var := by simpa using hvar'.symm.trans hvar
  obtain ⟨t, ht⟩ := Option.isSome_iff_exists.1 hrun
  obtain ⟨hvalues, hrt⟩ := setValues_of_run _ hr ht
  have hkept := loadFromYaml_snd (logFromStr fromStr y) y.emit root (s := (s.1, some s.2)) hsilent
    hvar
  obtain ⟨hsilent', henv⟩ := hkept
  have hdatas : (Config.LoadFromYaml (logFromStr fromStr y) y.emit root
      (s.1, some s.2)).1.datas (ascii "logs") = some ⟨none, t.var⟩ := by
    rw [loadFromYaml_datas, hvar]
    have htakes : ConfigVar.takes (T := LogDefines) var' (assigned y root) = t.var :=
      (setValues_fst _ _ _).symm.trans (congrArg Prod.fst hvalues)
    exact congrArg (fun v => some (⟨none, v⟩ : ConfigVarBase (LogVars V) _)) htakes
  refine ⟨((Config.LoadFromYaml (logFromStr fromStr y) y.emit root (s.1, some s.2)).1, t.loggers),
    ?_, hsilent', t.var, hdatas, hrt⟩
  show (Config.LoadFromYaml (logFromStr fromStr y) y.emit root (s.1, some s.2)).2.map _ = _
  rw [henv]
  exact congrArg (fun r : _ × Option LoggerManager => r.2.map _) hvalues

variable {fromStr}

theorem routed_of_loaded {s : Loaded V}
    (h : (documents fromStr y).ReachableWhen (DocConverging y) s) : LoadedRouted s := by
  refine h.invariant (I := LoadedRouted) ?_ ?_
  · rintro s ⟨hvar, hsilent, hnew⟩
    refine ⟨hsilent, logStart.var, hvar, ?_⟩
    rw [hnew]
    exact routed_logStart
  · intro s root s' _ hs hroot hstep
    obtain ⟨t, ht, hrt⟩ := hs.load fromStr hroot
    obtain rfl : t = s' := Option.some.inj (ht.symm.trans hstep)
    exact hrt

/-- **Events go where the documents say.**  After any sequence of documents whose values of `logs`
converge, the next such document can be loaded, and every event is written by the appenders that
the variable `logs` defines for its logger, as the definition says; the events of the other loggers
are written by the root logger. -/
theorem log_of_loaded (strftime : List UInt8 → UInt64 → List UInt8) {s : Loaded V}
    (h : (documents fromStr y).ReachableWhen (DocConverging y) s) :
    (∀ root, DocConverging y s root → ∃ s', (documents fromStr y).step s root = some s') ∧
      ∃ var : ConfigVar LogDefines (Option LoggerManager),
        s.1.datas (ascii "logs") = some ⟨none, var⟩ ∧
          ∀ level event, level ≠ .unknow →
            (∀ name, name ≠ ascii "root" → s.2.log strftime name level event =
              var.value.written strftime (s.2.logRoot strftime level event) name level event) ∧
            (s.2.logRoot strftime level event =
                var.value.written strftime (some []) (ascii "root") level event ∨
              var.value.find (ascii "root") = none ∧ s.2.logRoot strftime level event =
                some [(.stdout, LogFormatter.default.format strftime level event)]) := by
  have hs := routed_of_loaded h
  refine ⟨fun root hroot => ?_, ?_⟩
  · obtain ⟨s', hs', -⟩ := hs.load fromStr hroot
    exact ⟨s', hs'⟩
  · obtain ⟨-, var, hvar, hr⟩ := hs
    exact ⟨var, hvar, fun level event hlevel => hr.log strftime hlevel event⟩

end

/-! ### A document -/

/-- The definition of a logger. -/
def systemTree : YamlNode :=
  .map [(ascii "name", .scalar (ascii "system")), (ascii "level", .scalar (ascii "info")),
    (ascii "appenders", .seq [.map [(ascii "type", .scalar (ascii "StdoutLogAppender")),
      (ascii "formatter", .scalar (ascii "%m%n"))]])]

/-- A document with the definition. -/
def systemDocument : YamlNode := .map [(ascii "logs", .seq [systemTree])]

/-- What is emitted for the definition. -/
def systemText : List UInt8 := ascii
  ("name: system\nlevel: info\nappenders:\n" ++
    "  - type: StdoutLogAppender\n    formatter: \"%m%n\"")

/-- What is emitted for the sequence of this definition. -/
def systemsText : List UInt8 := ascii
  ("- name: system\n  level: info\n  appenders:\n" ++
    "    - type: StdoutLogAppender\n      formatter: \"%m%n\"")

/-- A library for this document. -/
def systemYaml : YamlCpp where
  load v :=
    if v = systemText then systemTree
    else if v = systemsText then .seq [systemTree]
    else .scalar v
  emit n := match n with
    | .map _ => systemText
    | .seq _ => systemsText
    | .scalar s => s
    | .null => ascii "~"

/-- Only `logs` is registered. -/
def onlyLogs : Loaded fun _ : Unit => ℕ :=
  (⟨fun name => if name = ascii "logs" then some ⟨none, logStart.var⟩ else none⟩, .new)

/-- The conversion of the other variables, of which there are none. -/
def noConversion : Unit → List UInt8 → Option ℕ := fun _ _ => none

/-- The definition that the document stands for. -/
def systemConsole : LogDefine := ⟨ascii "system", .info, [], [⟨2, .unknow, ascii "%m%n", []⟩]⟩

theorem written_systemConsole (strftime : List UInt8 → UInt64 → List UInt8) {v : LogDefines}
    (hv : v.defs = [systemConsole]) (root : Option Written) (event : LogEvent) :
    v.written strftime root (ascii "system") .info event =
      some [(.stdout, event.content ++ [10])] := by
  have hitems : (⟨ascii "%m%n"⟩ : LogFormatter).items = [.spec .message [], .spec .newLine []] := by
    decide +kernel
  have hformat : (⟨ascii "%m%n"⟩ : LogFormatter).format strftime .info event =
      event.content ++ [10] := by
    rw [LogFormatter.format, hitems]
    simp [FormatItem.format]
  have hfind : v.find (ascii "system") = some systemConsole := by
    rw [LogDefines.find, hv]
    decide +kernel
  rw [← hformat, LogDefines.written, hfind]
  rfl

/-- The document is loaded, and an event of `system` is written to the console. -/
theorem log_of_loaded_system : ∃ s : Loaded fun _ : Unit => ℕ,
    (documents noConversion systemYaml).ReachableWhen (DocConverging systemYaml) s ∧
      ∀ strftime event, s.2.log strftime (ascii "system") .info event =
        some [(.stdout, event.content ++ [10])] := by
  have hlogs : onlyLogs.1.datas (ascii "logs") = some ⟨none, logStart.var⟩ := by
    simp [onlyLogs]
  have hinit : (documents noConversion systemYaml).init onlyLogs := by
    refine ⟨hlogs, fun key x hkey hx => ?_, rfl⟩
    simp [onlyLogs, hkey] at hx
  have hdoc : DocConverging systemYaml onlyLogs systemDocument :=
    ⟨logStart.var, hlogs, by decide +kernel⟩
  obtain ⟨s, hs⟩ := (log_of_loaded (fun _ _ => []) (.init hinit)).1 _ hdoc
  have hreach := System.ReachableWhen.step (.init hinit) hdoc hs
  refine ⟨s, hreach, fun strftime event => ?_⟩
  obtain ⟨-, var, hvar, hlog⟩ := log_of_loaded strftime hreach
  have hdefs : var.value.defs = [systemConsole] := by
    have hmap : (Config.LoadFromYaml (logFromStr noConversion systemYaml) systemYaml.emit
        systemDocument (onlyLogs.1, some onlyLogs.2)).2.map (fun m => (_, m)) = some s := hs
    obtain ⟨m, -, rfl⟩ := Option.map_eq_some_iff.1 hmap
    rw [loadFromYaml_datas, hlogs] at hvar
    have hload : (⟨none, ConfigVar.takes (T := LogDefines) logStart.var
        (assigned systemYaml systemDocument)⟩ : ConfigVarBase (LogVars fun _ : Unit => ℕ) _) =
          ⟨none, var⟩ := Option.some.inj hvar
    have hvalue : ConfigVar.takes (T := LogDefines) logStart.var
        (assigned systemYaml systemDocument) = var := by
      simpa only [ConfigVarBase.mk.injEq, heq_eq_eq, true_and] using hload
    rw [← hvalue]
    decide +kernel
  rw [(hlog .info event (by decide)).1 (ascii "system") (by decide)]
  exact written_systemConsole strftime hdefs _ event

end Log

end YXTWebCpp
