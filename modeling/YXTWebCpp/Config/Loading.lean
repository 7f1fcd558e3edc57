import YXTWebCpp.Config.Basic
import YXTWebCpp.Http.Request
import YXTWebCpp.Yaml.Walk
import Mathlib.Tactic.ByCases

/-!
# Loading a configuration

`Config::LoadFromYaml` (`config.cpp`) lists the nodes of a document under dotted names and hands the
text of each to the variable that is registered under its name.

* `ConfigVarBase`, `Config` : variables of different types, and those that are registered.
* `ListAllMember` : the nodes of a document with valid names.
* `Config.LoadFromYaml` : the loop over them.
* `valuesAt` : the nodes of a document under a name, whatever lies around them.
* `loadFromYaml_datas` : the variables after a document has been loaded.
* `loadFromYaml_snd` : what the listeners of a variable do meanwhile, if no other listener
  interferes.
* `document_loads` : **every variable takes the values of the nodes under its own name, in the order
  of the document**, and no other.
-/

namespace YXTWebCpp

open Http (ascii toLower)
open Yaml

variable {T E X Ty : Type*} {V : Ty → Type*}

/-! ### Variables -/

/-- `ConfigVar::fromString`, with what it returns and the state of the listeners; `fromStr` is
`none` if the conversion throws. -/
def ConfigVar.fromString [BEq T] (fromStr : X → Option T) (c : ConfigVar T E) (val : X) (env : E) :
    Bool × ConfigVar T E × E :=
  match fromStr val with
  | some v => (true, c.setValue v env)
  | none => (false, c, env)

/-- `ConfigVarBase`: a variable of one of the types. -/
structure ConfigVarBase (V : Ty → Type*) (E : Type*) where
  type : Ty
  var : ConfigVar (V type) E

/-- `Config`, whose functions are static. -/
structure Config (V : Ty → Type*) (E : Type*) where
  /-- `getDatas()` -/
  datas : List UInt8 → Option (ConfigVarBase V E)

/-- `Config::LookupBase` -/
def Config.LookupBase (s : Config V E) (name : List UInt8) : Option (ConfigVarBase V E) :=
  s.datas name

/-! ### The nodes of a document -/

/-- The characters of a name; the digit 9 is not one of them. -/
def nameChars : List UInt8 := ascii "abcdefghikjlmnopqrstuvwxyz._012345678"

/-- `name.find_first_not_of(nameChars) == npos` -/
def validName (name : List UInt8) : Bool := name.all fun c => nameChars.contains c

/-- The name of an entry of a map. -/
def memberName (pre key : List UInt8) : List UInt8 :=
  if pre = [] then key else pre ++ ascii "." ++ key

/-- `ListAllMember` -/
def ListAllMember (pre : List UInt8) (root : Node (List UInt8)) :
    List (List UInt8 × Node (List UInt8)) :=
  root.walk memberName validName pre

section

variable [∀ t, BEq (V t)] (fromStr : ∀ t, List UInt8 → Option (V t))
  (emit : Node (List UInt8) → List UInt8)

/-- The text that is handed to `fromString`; `emit` is `os << n`. -/
def nodeText (n : Node (List UInt8)) : List UInt8 :=
  match n with
  | .scalar s => s
  | n => emit n

/-- `var->fromString(val)`, where `x` is what `var` points to, registered under `key`. -/
def Config.change (s : Config V E × E) (key : List UInt8) (x : ConfigVarBase V E)
    (val : List UInt8) : Config V E × E :=
  let r := x.var.fromString (fromStr x.type) val s.2
  (⟨Function.update s.1.datas key (some ⟨x.type, r.2.1⟩)⟩, r.2.2)

/-- One round of the loop of `LoadFromYaml`. -/
def Config.loadNode (s : Config V E × E) (i : List UInt8 × Node (List UInt8)) : Config V E × E :=
  if i.1 = [] then s
  else
    match s.1.LookupBase (i.1.map toLower) with
    | none => s
    | some x => Config.change fromStr s (i.1.map toLower) x (nodeText emit i.2)

/-- `Config::LoadFromYaml`, with the state of the listeners. -/
def Config.LoadFromYaml (root : Node (List UInt8)) (s : Config V E × E) : Config V E × E :=
  (ListAllMember [] root).foldl (Config.loadNode fromStr emit) s

end

/-! ### What is loaded -/

/-- The name of a node in a document. -/
def pathName (ks : List (List UInt8)) : List UInt8 := ks.foldl memberName []

/-- The nodes of a document whose name is `name`, in order; there are none for a name that is not
valid. -/
def valuesAt (root : Node (List UInt8)) (name : List UInt8) : List (Node (List UInt8)) :=
  if name ≠ [] ∧ validName name = true then
    (root.paths.filter fun e => pathName e.1 = name).map Prod.snd
  else []

/-- The variable after values have been assigned to it. -/
def ConfigVar.takes [BEq T] (c : ConfigVar T E) (vs : List T) : ConfigVar T E :=
  { c with value := vs.foldl (fun x v => if x == v then x else v) c.value }

/-- Each of the values is assigned, and the listeners are called. -/
def ConfigVar.setValues [BEq T] (c : ConfigVar T E) (vs : List T) (env : E) : ConfigVar T E × E :=
  vs.foldl (fun r v => r.1.setValue v r.2) (c, env)

theorem validName_append (a b : List UInt8) :
    validName (a ++ b) = (validName a && validName b) := List.all_append

/-- The name of a map is a part of the names of its entries. -/
theorem validName_of_memberName (pre key : List UInt8)
    (h : validName (memberName pre key) = true) : validName pre = true := by
  rw [memberName] at h
  split_ifs at h with hpre
  · rw [hpre]
    rfl
  · rw [validName_append, validName_append, Bool.and_eq_true, Bool.and_eq_true] at h
    exact h.1.1

/-- **The listing misses no valid name**, although it does not look below an invalid one. -/
theorem listAllMember_eq (root : Node (List UInt8)) : ListAllMember [] root =
    (root.paths.map fun e => (pathName e.1, e.2)).filter fun e => validName e.1 :=
  Node.walk_eq validName_of_memberName [] root

theorem validName_of_listed (root : Node (List UInt8)) :
    ∀ i ∈ ListAllMember [] root, validName i.1 = true := by
  intro i hi
  rw [listAllMember_eq] at hi
  exact (List.mem_filter.1 hi).2

/-- The nodes that are listed under a name. -/
theorem listAllMember_filter (root : Node (List UInt8)) (name : List UInt8) :
    ((ListAllMember [] root).filter fun i => i.1 = name ∧ name ≠ []).map Prod.snd =
      valuesAt root name := by
  rw [listAllMember_eq, List.filter_filter, List.filter_map, List.map_map, valuesAt]
  have hsnd : (Prod.snd ∘ fun e : List (List UInt8) × Node (List UInt8) => (pathName e.1, e.2)) =
      Prod.snd := rfl
  rw [hsnd]
  split_ifs with h
  · congr 1
    refine List.filter_congr fun e _ => ?_
    by_cases he : pathName e.1 = name
    · simp [he, h.1, h.2]
    · simp [he]
  · rw [List.map_eq_nil_iff, List.filter_eq_nil_iff]
    intro e _ he
    simp only [Function.comp_apply, Bool.decide_and, Bool.and_eq_true, decide_eq_true_eq] at he
    exact h ⟨he.1.2, he.1.1 ▸ he.2⟩

/-- A valid name has no capital letters. -/
theorem map_toLower {name : List UInt8} (h : validName name = true) : name.map toLower = name := by
  have hchar : ∀ c ∈ nameChars, toLower c = c := by decide +kernel
  have hmap : name.map toLower = name.map id := List.map_congr_left fun c hc =>
    hchar c (by simpa using List.all_eq_true.1 h c hc)
  rw [hmap, List.map_id]

/-! ### Assignments -/

section

variable [BEq T] (c : ConfigVar T E)

theorem takes_takes (vs ws : List T) : (c.takes vs).takes ws = c.takes (vs ++ ws) := by
  rw [ConfigVar.takes, ConfigVar.takes, ConfigVar.takes, List.foldl_append]

/-- With a comparison that is right, the last value counts. -/
theorem takes_value [LawfulBEq T] (vs : List T) :
    (c.takes vs).value = vs.getLast?.getD c.value := by
  induction vs using List.reverseRecOn with
  | nil => rfl
  | append_singleton vs v _ =>
    rw [ConfigVar.takes, List.foldl_append, List.getLast?_concat, Option.getD_some]
    show (if _ == v then _ else v) = v
    split_ifs with h
    · exact eq_of_beq h
    · rfl

theorem setValue_fst (v : T) (env : E) : (c.setValue v env).1 = c.takes [v] := by
  unfold ConfigVar.setValue ConfigVar.takes
  rw [List.foldl_cons, List.foldl_nil]
  split_ifs <;> rfl

theorem fromString_fst (fromStr : X → Option T) (val : X) (env : E) :
    (c.fromString fromStr val env).2.1 = c.takes (fromStr val).toList := by
  unfold ConfigVar.fromString
  cases fromStr val with
  | none => rfl
  | some v => exact setValue_fst c v env

theorem fromString_snd (fromStr : X → Option T) (val : X) (env : E) :
    (c.fromString fromStr val env).2 = c.setValues (fromStr val).toList env := by
  unfold ConfigVar.fromString
  cases fromStr val <;> rfl

theorem setValues_append (vs ws : List T) (env : E) : c.setValues (vs ++ ws) env =
    (c.setValues vs env).1.setValues ws (c.setValues vs env).2 := by
  unfold ConfigVar.setValues
  rw [List.foldl_append]

theorem setValues_fst (vs : List T) : ∀ (c : ConfigVar T E) (env : E),
    (c.setValues vs env).1 = c.takes vs := by
  induction vs with
  | nil => exact fun c env => rfl
  | cons v vs ih =>
    intro c env
    have h := ih (c.setValue v env).1 (c.setValue v env).2
    rw [setValue_fst, takes_takes] at h
    rw [← setValue_fst c v env] at h
    exact h

/-- The listeners of a variable change nothing. -/
def ConfigVar.Silent (c : ConfigVar T E) : Prop :=
  ∀ cb ∈ c.cbs, ∀ old new env, cb old new env = env

variable {c}

omit [BEq T] in
theorem Silent.notify (hc : c.Silent) (v : T) (env : E) : c.notify v env = env := by
  unfold ConfigVar.notify
  unfold ConfigVar.Silent at hc
  generalize c.cbs = cbs at hc
  induction cbs with
  | nil => rfl
  | cons cb cbs ih =>
    rw [List.foldl_cons, hc cb List.mem_cons_self]
    exact ih fun cb' h => hc cb' (List.mem_cons_of_mem _ h)

theorem Silent.fromString (hc : c.Silent) (fromStr : X → Option T) (val : X) (env : E) :
    (c.fromString fromStr val env).2.2 = env := by
  unfold ConfigVar.fromString ConfigVar.setValue
  cases fromStr val with
  | none => rfl
  | some v =>
    show (if c.value == v then (c, env) else ({ c with value := v }, c.notify v env)).2 = env
    split_ifs
    · rfl
    · exact Silent.notify hc v env

end

/-! ### The loop -/

section

variable [∀ t, BEq (V t)] (fromStr : ∀ t, List UInt8 → Option (V t))
  (emit : Node (List UInt8) → List UInt8)

/-- A variable after texts have been handed to it. -/
def ConfigVarBase.load (fromStr : ∀ t, List UInt8 → Option (V t)) (vals : List (List UInt8))
    (x : ConfigVarBase V E) : ConfigVarBase V E :=
  ⟨x.type, x.var.takes (vals.filterMap (fromStr x.type))⟩

/-- The texts of the listed nodes with a name. -/
def textsOf (emit : Node (List UInt8) → List UInt8) (name : List UInt8)
    (l : List (List UInt8 × Node (List UInt8))) : List (List UInt8) :=
  (l.filter fun i => i.1 = name ∧ name ≠ []).map fun i => nodeText emit i.2

theorem textsOf_cons (name : List UInt8) (i : List UInt8 × Node (List UInt8))
    (l : List (List UInt8 × Node (List UInt8))) : textsOf emit name (i :: l) =
      (if i.1 = name ∧ name ≠ [] then [nodeText emit i.2] else []) ++ textsOf emit name l := by
  unfold textsOf
  by_cases hi : i.1 = name ∧ name ≠ []
  · rw [if_pos hi, List.filter_cons_of_pos (by simpa using hi)]
    rfl
  · rw [if_neg hi, List.filter_cons_of_neg (by simpa using hi)]
    rfl

theorem textsOf_listAllMember (root : Node (List UInt8)) (name : List UInt8) :
    textsOf emit name (ListAllMember [] root) = (valuesAt root name).map (nodeText emit) := by
  rw [← listAllMember_filter, List.map_map]
  rfl

theorem load_load (vals vals' : List (List UInt8)) (x : ConfigVarBase V E) :
    (x.load fromStr vals).load fromStr vals' = x.load fromStr (vals ++ vals') := by
  unfold ConfigVarBase.load
  rw [List.filterMap_append, ← takes_takes]

theorem map_load_nil (o : Option (ConfigVarBase V E)) : o.map (.load fromStr []) = o := by
  cases o <;> rfl

theorem change_datas (s : Config V E × E) (key : List UInt8) {x : ConfigVarBase V E}
    (val : List UInt8) (name : List UInt8) : (Config.change fromStr s key x val).1.datas name =
      if name = key then some (x.load fromStr [val]) else s.1.datas name := by
  unfold Config.change ConfigVarBase.load
  simp only [fromString_fst, Function.update_apply]
  cases hval : fromStr x.type val <;> simp [hval]

/-- One round. -/
theorem loadNode_datas (s : Config V E × E) {i : List UInt8 × Node (List UInt8)}
    (hi : validName i.1 = true) (name : List UInt8) :
    (Config.loadNode fromStr emit s i).1.datas name = (s.1.datas name).map
      (.load fromStr (if i.1 = name ∧ name ≠ [] then [nodeText emit i.2] else [])) := by
  unfold Config.loadNode Config.LookupBase
  rw [map_toLower hi]
  by_cases hnil : i.1 = []
  · rw [if_pos hnil, if_neg fun h => h.2 (h.1.symm.trans hnil), map_load_nil]
  · rw [if_neg hnil]
    by_cases hname : i.1 = name
    · subst hname
      rw [if_pos ⟨rfl, hnil⟩]
      cases hx : s.1.datas i.1 with
      | none => exact hx
      | some x => exact (change_datas fromStr s i.1 _ i.1).trans (if_pos rfl)
    · rw [if_neg fun h => hname h.1, map_load_nil]
      cases hx : s.1.datas i.1 with
      | none => rfl
      | some x => exact (change_datas fromStr s i.1 _ name).trans (if_neg (Ne.symm hname))

/-- The loop over nodes with valid names. -/
theorem foldl_loadNode_datas (l : List (List UInt8 × Node (List UInt8))) (name : List UInt8) :
    ∀ s : Config V E × E, (∀ i ∈ l, validName i.1 = true) →
      (l.foldl (Config.loadNode fromStr emit) s).1.datas name = (s.1.datas name).map
        (.load fromStr (textsOf emit name l)) := by
  induction l with
  | nil => exact fun s _ => (map_load_nil fromStr _).symm
  | cons i l ih =>
    intro s hl
    rw [List.foldl_cons, ih _ fun j hj => hl j (List.mem_cons_of_mem _ hj),
      loadNode_datas fromStr emit s (hl i List.mem_cons_self), Option.map_map]
    refine congrFun (congrArg Option.map (funext fun x => ?_)) _
    rw [Function.comp_apply, load_load, textsOf_cons]

/-- The listeners of all variables but the one at `name` change nothing. -/
def Config.Silent (s : Config V E) (name : List UInt8) : Prop :=
  ∀ key x, key ≠ name → s.datas key = some x → x.var.Silent

/-- One round, and what becomes of the state of the listeners. -/
theorem loadNode_snd {s : Config V E × E} {name : List UInt8} (hs : s.1.Silent name)
    {i : List UInt8 × Node (List UInt8)} (hi : validName i.1 = true) {x : ConfigVarBase V E}
    (hx : s.1.datas name = some x) :
    (Config.loadNode fromStr emit s i).1.Silent name ∧
      (Config.loadNode fromStr emit s i).2 =
        (x.var.setValues ((if i.1 = name ∧ name ≠ [] then [nodeText emit i.2] else []).filterMap
          (fromStr x.type)) s.2).2 := by
  constructor
  · intro key y hkey hy
    rw [loadNode_datas fromStr emit s hi, Option.map_eq_some_iff] at hy
    obtain ⟨z, hz, rfl⟩ := hy
    exact hs key z hkey hz
  · unfold Config.loadNode Config.LookupBase
    rw [map_toLower hi]
    by_cases hnil : i.1 = []
    · rw [if_pos hnil, if_neg fun h => h.2 (h.1.symm.trans hnil)]
      rfl
    · rw [if_neg hnil]
      by_cases hname : i.1 = name
      · subst hname
        rw [if_pos ⟨rfl, hnil⟩, hx]
        show (x.var.fromString (fromStr x.type) (nodeText emit i.2) s.2).2.2 = _
        rw [fromString_snd]
        cases hval : fromStr x.type (nodeText emit i.2) <;> simp [hval]
      · rw [if_neg fun h => hname h.1]
        cases hy : s.1.datas i.1 with
        | none => rfl
        | some y => exact Silent.fromString (hs i.1 y hname hy) _ _ _

theorem foldl_loadNode_snd {name : List UInt8} (l : List (List UInt8 × Node (List UInt8))) :
    ∀ {s : Config V E × E}, s.1.Silent name → (∀ i ∈ l, validName i.1 = true) →
      ∀ {x : ConfigVarBase V E}, s.1.datas name = some x →
        (l.foldl (Config.loadNode fromStr emit) s).2 =
          (x.var.setValues ((textsOf emit name l).filterMap (fromStr x.type)) s.2).2 := by
  induction l with
  | nil => exact fun _ _ _ _ => rfl
  | cons i l ih =>
    intro s hs hl x hx
    have hi := hl i List.mem_cons_self
    obtain ⟨hsilent, henv⟩ := loadNode_snd fromStr emit hs hi hx
    have hx' := loadNode_datas fromStr emit s hi name
    rw [hx, Option.map_some] at hx'
    rw [List.foldl_cons, ih hsilent (fun j hj => hl j (List.mem_cons_of_mem _ hj)) hx', henv,
      textsOf_cons, List.filterMap_append, setValues_append, setValues_fst]
    rfl

/-- The variables that are registered are the same as before, and each has taken the values of the
nodes under its name. -/
theorem loadFromYaml_datas (root : Node (List UInt8)) (s : Config V E × E) (name : List UInt8) :
    (Config.LoadFromYaml fromStr emit root s).1.datas name = (s.1.datas name).map
      (.load fromStr ((valuesAt root name).map (nodeText emit))) := by
  rw [Config.LoadFromYaml, foldl_loadNode_datas _ _ _ _ _ (validName_of_listed root),
    textsOf_listAllMember]

/-- What becomes of the state of the listeners if only those of the variable at `name` change it:
they are called for one value after another. -/
theorem loadFromYaml_snd (root : Node (List UInt8)) {s : Config V E × E} {name : List UInt8}
    (hs : s.1.Silent name) {x : ConfigVarBase V E} (hx : s.1.datas name = some x) :
    (Config.LoadFromYaml fromStr emit root s).1.Silent name ∧
      (Config.LoadFromYaml fromStr emit root s).2 = (x.var.setValues
        (((valuesAt root name).map (nodeText emit)).filterMap (fromStr x.type)) s.2).2 := by
  refine ⟨fun key y hkey hy => ?_, ?_⟩
  · rw [loadFromYaml_datas, Option.map_eq_some_iff] at hy
    obtain ⟨z, hz, rfl⟩ := hy
    exact hs key z hkey hz
  · rw [Config.LoadFromYaml, foldl_loadNode_snd _ _ _ hs (validName_of_listed root) hx,
      textsOf_listAllMember]

/-- **A document is loaded into the variables it names.**  A variable takes the convertible values
of the nodes whose dotted keys are its own name, in the order of the document, wherever they stand;
no variable is added or removed.  If the listeners of the other variables change nothing, its own
are called for these values, one after another. -/
theorem document_loads (root : Node (List UInt8)) (s : Config V E × E) (name : List UInt8) :
    (Config.LoadFromYaml fromStr emit root s).1.datas name = (s.1.datas name).map
        (.load fromStr ((valuesAt root name).map (nodeText emit))) ∧
      ∀ x, s.1.datas name = some x → s.1.Silent name →
        (Config.LoadFromYaml fromStr emit root s).2 = (x.var.setValues
          (((valuesAt root name).map (nodeText emit)).filterMap (fromStr x.type)) s.2).2 :=
  ⟨loadFromYaml_datas fromStr emit root s name, fun _ hx hs =>
    (loadFromYaml_snd fromStr emit root hs hx).2⟩

end

end YXTWebCpp
