import YXTWebCpp.Http.Request
import Mathlib.Data.List.Nodup

/-!
# The command line

`Env::init` (`env.cpp`) reads options `-key` or `-key value` from the command line.  It stops at a
word that is neither part of an option nor the beginning of one.

* `Env`, `Env.init` : the environment, and the loop over the words.
* `Opt`, `Opt.words` : an option, and how it is written.
* `Refused` : the words at which the loop stops behind some options.
* `init_options` : **a command line is accepted exactly if it is written from options, each key has
  the value of its last option, and otherwise the options in front of the refused word are kept**,
  but for one that still waits for a value.
* `nodup_helps` : the list of `printHelp` has one line for each key.
-/

namespace YXTWebCpp

open Http (ascii)

/-- `Env` -/
structure Env where
  /-- `m_args` -/
  args : List UInt8 → Option (List UInt8)
  /-- `m_helps` -/
  helps : List (List UInt8 × List UInt8)
  /-- `m_exe` -/
  exe : List UInt8
  /-- `m_cwd` -/
  cwd : List UInt8
  /-- `m_program` -/
  program : List UInt8

namespace Env

/-- `Env::add` -/
def add (s : Env) (key val : List UInt8) : Env :=
  { s with args := Function.update s.args key (some val) }

/-- `Env::has` -/
def has (s : Env) (key : List UInt8) : Bool := (s.args key).isSome

/-- `Env::del` -/
def del (s : Env) (key : List UInt8) : Env := { s with args := Function.update s.args key none }

/-- `Env::get` -/
def get (s : Env) (key dflt : List UInt8) : List UInt8 := (s.args key).getD dflt

/-- `Env::removeHelp` -/
def removeHelp (s : Env) (key : List UInt8) : Env :=
  { s with helps := s.helps.filter fun e => !decide (e.1 = key) }

/-- `Env::addHelp` -/
def addHelp (s : Env) (key desc : List UInt8) : Env :=
  { s.removeHelp key with helps := (s.removeHelp key).helps ++ [(key, desc)] }

/-- `Env::getAbsolutePath` -/
def getAbsolutePath (s : Env) (path : List UInt8) : List UInt8 :=
  if path = [] then ascii "/" else if path.head? = some 47 then path else s.cwd ++ path

/-- `Env::getAbsoluteWorkPath`; `workPath` is the variable `server.work_path`, and `none` that a
null pointer is dereferenced. -/
def getAbsoluteWorkPath (workPath : Option (List UInt8)) (path : List UInt8) :
    Option (List UInt8) :=
  if path = [] then some (ascii "/")
  else if path.head? = some 47 then some path
  else workPath.map fun work => work ++ ascii "/" ++ path

/-- `Env::getConfigPath` -/
def getConfigPath (s : Env) : List UInt8 := s.getAbsolutePath (s.get (ascii "c") (ascii "conf"))

/-- `m_exe.substr(0, m_exe.find_last_of("/")) + "/"` -/
def directory (exe : List UInt8) : List UInt8 :=
  (if 47 ∈ exe then (exe.reverse.dropWhile (· != 47)).tail.reverse else exe) ++ ascii "/"

/-- A key without a value, if there is one, is added with an empty value. -/
def flush (s : Env) : Option (List UInt8) → Env
  | some key => s.add key []
  | none => s

/-- The loop of `init` over the words, with `now_key`. -/
def initLoop (s : Env) (nowKey : Option (List UInt8)) : List (List UInt8) → Bool × Env
  | [] => (true, s.flush nowKey)
  | w :: ws =>
    if w.head? = some 45 then
      if 1 < w.length then initLoop (s.flush nowKey) (some w.tail) ws else (false, s)
    else
      match nowKey with
      | some key => initLoop (s.add key w) none ws
      | none => (false, s)

/-- `Env::init`; `exe` is what `readlink` returns, and `ws` what follows the name of the program. -/
def init (s : Env) (exe program : List UInt8) (ws : List (List UInt8)) : Bool × Env :=
  initLoop { s with exe := exe, cwd := directory exe, program := program } none ws

/-! ### Options -/

/-- An option of a command line. -/
structure Opt where
  key : List UInt8
  val : Option (List UInt8)
  key_ne : key ≠ []
  /-- A value does not begin with `-`. -/
  plain : ∀ v ∈ val, v.head? ≠ some 45

/-- An option as it is written. -/
def Opt.words (o : Opt) : List (List UInt8) := (45 :: o.key) :: o.val.toList

/-- The value of an option. -/
def Opt.value (o : Opt) : List UInt8 := o.val.getD []

/-- Options are added one after another. -/
def addAll (s : Env) (opts : List Opt) : Env := opts.foldl (fun s o => s.add o.key o.value) s

/-- The key of the last option, if it waits for a value. -/
def waiting (opts : List Opt) : Option (List UInt8) :=
  opts.getLast?.bind fun o => if o.val = none then some o.key else none

/-- The loop stops at the word `w` behind the options: it is `-` alone, or no value is waited for
and it does not begin with `-`. -/
def Refused (opts : List Opt) (w : List UInt8) : Prop :=
  w = [45] ∨ w.head? ≠ some 45 ∧ waiting opts = none

/-- The options that have been added behind the words of `opts`. -/
def added (opts : List Opt) : List Opt := if waiting opts = none then opts else opts.dropLast

/-! ### The loop -/

variable (s : Env) (opts : List Opt)

theorem addAll_append (as bs : List Opt) : s.addAll (as ++ bs) = (s.addAll as).addAll bs :=
  List.foldl_append

/-- The last option of a key counts. -/
theorem get_addAll (key dflt : List UInt8) : (s.addAll opts).get key dflt =
    ((opts.filter fun o => decide (o.key = key)).getLast?.map Opt.value).getD (s.get key dflt) := by
  induction opts using List.reverseRecOn with
  | nil => rfl
  | append_singleton opts o ih =>
    have hargs : (s.addAll (opts ++ [o])).args =
        Function.update (s.addAll opts).args o.key (some o.value) := by
      rw [addAll_append]
      rfl
    rw [get, hargs, Function.update_apply, List.filter_append]
    by_cases hkey : o.key = key
    · simp [hkey]
    · rw [if_neg (Ne.symm hkey), List.filter_cons_of_neg (by simpa using hkey), List.filter_nil,
        List.append_nil]
      exact ih

theorem waiting_snoc (o : Opt) :
    waiting (opts ++ [o]) = if o.val = none then some o.key else none := by
  rw [waiting, List.getLast?_append, List.getLast?_singleton]
  rfl

/-- An option that waits is the last one. -/
theorem exists_of_waiting {key : List UInt8} (h : waiting opts = some key) :
    ∃ front o, opts = front ++ [o] ∧ o.val = none ∧ o.key = key := by
  rcases List.eq_nil_or_concat opts with rfl | ⟨front, o, rfl⟩
  · cases h
  · rw [List.concat_eq_append, waiting_snoc] at h
    split_ifs at h with hval
    exact ⟨front, o, List.concat_eq_append, hval, Option.some.inj h⟩

theorem flush_added : (s.addAll (added opts)).flush (waiting opts) = s.addAll opts := by
  cases hwait : waiting opts with
  | none => rw [added, if_pos hwait]; rfl
  | some key =>
    obtain ⟨front, o, rfl, hval, rfl⟩ := exists_of_waiting opts hwait
    rw [added, if_neg (by rw [hwait]; simp), List.dropLast_concat, addAll_append]
    show _ = (s.addAll front).add o.key o.value
    rw [Opt.value, hval]
    rfl

/-- A key. -/
theorem initLoop_key (now : Option (List UInt8)) {key : List UInt8} (hkey : key ≠ [])
    (ws : List (List UInt8)) :
    initLoop s now ((45 :: key) :: ws) = initLoop (s.flush now) (some key) ws := by
  have hlength : 1 < (45 :: key).length := Nat.succ_lt_succ (List.length_pos_iff.2 hkey)
  rw [initLoop.eq_def]
  exact (if_pos List.head?_cons).trans (if_pos hlength)

/-- A word that does not begin with `-`. -/
theorem initLoop_plain (now : Option (List UInt8)) {w : List UInt8} (hw : w.head? ≠ some 45)
    (ws : List (List UInt8)) : initLoop s now (w :: ws) =
      match now with
      | some key => initLoop (s.add key w) none ws
      | none => (false, s) := by
  rw [initLoop.eq_def]
  exact if_neg hw

/-- The loop behind the words of some options. -/
theorem initLoop_words (ws : List (List UInt8)) :
    initLoop s none (opts.flatMap Opt.words ++ ws) =
      initLoop (s.addAll (added opts)) (waiting opts) ws := by
  induction opts using List.reverseRecOn generalizing ws with
  | nil => rfl
  | append_singleton opts o ih =>
    have hwords : (opts ++ [o]).flatMap Opt.words ++ ws =
        opts.flatMap Opt.words ++ ((45 :: o.key) :: (o.val.toList ++ ws)) := by
      simp [Opt.words]
    rw [hwords, ih, initLoop_key _ _ o.key_ne, flush_added, added, waiting_snoc]
    cases hval : o.val with
    | none =>
      rw [if_pos rfl, if_neg (Option.some_ne_none _), List.dropLast_concat]
      rfl
    | some v =>
      rw [if_neg (Option.some_ne_none _), if_pos rfl, Option.toList_some, List.singleton_append,
        initLoop_plain _ _ (o.plain v hval), addAll_append]
      show _ = initLoop ((s.addAll opts).add o.key o.value) none ws
      rw [Opt.value, hval]
      rfl

/-- The loop stops. -/
theorem initLoop_refused {w : List UInt8} (h : Refused opts w) (rest : List (List UInt8)) :
    initLoop s (waiting opts) (w :: rest) = (false, s) := by
  rcases h with rfl | ⟨hhead, hwait⟩
  · rfl
  · rw [initLoop_plain _ _ hhead, hwait]

/-- **A list of words is written from options, or there is a refused word behind some.** -/
theorem options_or_refused (ws : List (List UInt8)) :
    (∃ opts : List Opt, ws = opts.flatMap Opt.words) ∨
      ∃ (opts : List Opt) (w : List UInt8) (rest : List (List UInt8)),
        ws = opts.flatMap Opt.words ++ w :: rest ∧ Refused opts w := by
  induction ws using List.reverseRecOn with
  | nil => exact .inl ⟨[], rfl⟩
  | append_singleton ws w ih =>
    rcases ih with ⟨opts, rfl⟩ | ⟨opts, v, rest, rfl, hv⟩
    · by_cases hdash : w.head? = some 45
      · obtain ⟨key, rfl⟩ : ∃ key, w = 45 :: key := by
          cases w with
          | nil => cases hdash
          | cons c key => exact ⟨key, by rw [Option.some.inj hdash]⟩
        by_cases hkey : key = []
        · exact .inr ⟨opts, _, [], rfl, .inl (by rw [hkey])⟩
        · exact .inl ⟨opts ++ [⟨key, none, hkey, by simp⟩], by simp [Opt.words]⟩
      · cases hwait : waiting opts with
        | none => exact .inr ⟨opts, w, [], rfl, .inr ⟨hdash, hwait⟩⟩
        | some key =>
          -- the word is the value of the last option
          obtain ⟨front, o, rfl, hval, -⟩ := exists_of_waiting opts hwait
          refine .inl ⟨front ++ [⟨o.key, some w, o.key_ne, ?_⟩], by simp [Opt.words, hval]⟩
          rintro v ⟨⟩
          exact hdash
    · exact .inr ⟨opts, v, rest ++ [w], by simp, hv⟩

/-- **What `init` makes of a command line.**  A line that is written from options is accepted, and
the value of a key is that of its last option.  Any other line is refused at some word, and the
options in front of it have been added, but for one that still waits for a value. -/
theorem init_options (s : Env) (exe program : List UInt8) :
    (∀ opts : List Opt, ∃ s', s.init exe program (opts.flatMap Opt.words) = (true, s') ∧
      ∀ key dflt, s'.get key dflt = ((opts.filter fun o => decide (o.key = key)).getLast?.map
        Opt.value).getD (s.get key dflt)) ∧
      ∀ ws, (∀ opts : List Opt, ws ≠ opts.flatMap Opt.words) →
        ∃ opts w rest s', ws = opts.flatMap Opt.words ++ w :: rest ∧ Refused opts w ∧
          s.init exe program ws = (false, s') ∧
          ∀ key dflt, s'.get key dflt = (((added opts).filter fun o =>
            decide (o.key = key)).getLast?.map Opt.value).getD (s.get key dflt) := by
  constructor
  · intro opts
    refine ⟨_, ?_, get_addAll { s with exe := exe, cwd := directory exe, program := program } opts⟩
    have hloop := initLoop_words { s with exe := exe, cwd := directory exe, program := program }
      opts []
    rw [List.append_nil] at hloop
    rw [init, hloop, initLoop, flush_added]
  · intro ws hws
    rcases options_or_refused ws with ⟨opts, hopts⟩ | ⟨opts, w, rest, rfl, hw⟩
    · exact absurd hopts (hws opts)
    · refine ⟨opts, w, rest, _, rfl, hw, ?_,
        get_addAll { s with exe := exe, cwd := directory exe, program := program } (added opts)⟩
      rw [init, initLoop_words, initLoop_refused _ opts hw]

/-! ### The other members -/

/-- Behind any calls, the list of `printHelp` has one line for each key. -/
theorem nodup_helps {s : Env} (h : (s.helps.map Prod.fst).Nodup) (key desc : List UInt8) :
    ((s.removeHelp key).helps.map Prod.fst).Nodup ∧
      ((s.addHelp key desc).helps.map Prod.fst).Nodup := by
  have hremove : ((s.removeHelp key).helps.map Prod.fst).Nodup :=
    h.sublist (List.filter_sublist.map _)
  refine ⟨hremove, ?_⟩
  rw [addHelp, List.map_append]
  refine hremove.append (List.nodup_singleton _) (List.disjoint_singleton.2 fun hmem => ?_)
  obtain ⟨e, he, hkey⟩ := List.mem_map.1 hmem
  simpa [hkey] using (List.mem_filter.1 he).2

end Env

end YXTWebCpp
