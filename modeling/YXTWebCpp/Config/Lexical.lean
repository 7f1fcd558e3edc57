import YXTWebCpp.Config.Loading
import YXTWebCpp.Log.Loading
import YXTWebCpp.Maps.Container

/-!
# Values as text

The templates of `LexicalCast` (`config.hpp`) write a container as YAML and read it again.  They
call each other for the elements: each element becomes a text, and the text is loaded to be a node
of the container; to be read, each node is emitted as a text of its own.

* `YamlText` : the functions of yaml-cpp that the templates use.
* `LexicalCast` : the two conversions of a type.
* `CastType` : the types for which there are templates, over types that are converted by other
  means; `CastType.cast` : the conversions that the templates make.
* `LexicalCast.reread` : a value that goes through a text and a node.
* `reread_seq`, `reread_map` : a container is read as the container of what its elements are read
  as.
* `CastType.Leaves` : every value in the containers is read as it was.
* `configVar_reads_back` : **then the containers are**, however they are nested.
* `Log.leaves_iff_survives` : the definitions of loggers that are read as they were in the variable
  `logs`.
-/

namespace YXTWebCpp

open Yaml

/-- What the templates use of yaml-cpp. -/
structure YamlText where
  /-- `YAML::Load`, `none` if it throws. -/
  load : List UInt8 → Option (Node (List UInt8))
  /-- `os << n` -/
  emit : Node (List UInt8) → List UInt8
  /-- `key.as<size_t>()` for the scalar of a key, `none` if it is not a number. -/
  index : List UInt8 → Option ℕ

/-- `LexicalCast<T, std::string>` and `LexicalCast<std::string, T>`, `none` if they throw. -/
structure LexicalCast (T : Type) where
  toString : T → Option (List UInt8)
  fromString : List UInt8 → Option T

/-! ### The templates -/

namespace YamlText

variable (y : YamlText) {T C : Type}

/-- `ss << node[i]` for `i < node.size()`, where a key that is missing gives nothing. -/
def elementTexts : Node (List UInt8) → List (List UInt8)
  | .seq nodes => nodes.map y.emit
  | .map entries => (List.range entries.length).map fun i =>
    match entries.find? fun e => y.index e.1 = some i with
    | some e => y.emit e.2
    | none => []
  | _ => []

/-- `it->first.Scalar()` and `ss << it->second` for all `it`; the items of a sequence have no key,
which throws. -/
def entryTexts : Node (List UInt8) → Option (List (List UInt8 × List UInt8))
  | .map entries => some (entries.map fun e => (e.1, y.emit e.2))
  | .seq (_ :: _) => none
  | _ => some []

/-- `YAML::Load(LexicalCast<T, std::string>()(x))` -/
def node (c : LexicalCast T) (x : T) : Option (Node (List UInt8)) := (c.toString x).bind y.load

/-- The node that is written for a sequence or a set. -/
def seqNode (k : Container T C) (c : LexicalCast T) (v : C) : Option (Node (List UInt8)) :=
  ((k.items v).mapM (y.node c)).map .seq

/-- `LexicalCast` for `std::vector<T>`, `std::list<T>`, `std::set<T>` and
`std::unordered_set<T>`. -/
def seqCast (k : Container T C) (c : LexicalCast T) : LexicalCast C where
  toString v := (y.seqNode k c v).map y.emit
  fromString s := (y.load s).bind fun n => ((y.elementTexts n).mapM c.fromString).map k.build

/-- `node[i.first] = YAML::Load(LexicalCast<T, std::string>()(i.second))` -/
def setNode (c : LexicalCast T) (n : Node (List UInt8)) (i : List UInt8 × T) :
    Option (Node (List UInt8)) :=
  (y.node c i.2).map (n.set i.1)

/-- The node that is written for a map. -/
def mapNode (k : Container (List UInt8 × T) C) (c : LexicalCast T) (v : C) :
    Option (Node (List UInt8)) :=
  (k.items v).foldlM (y.setNode c) (.map [])

/-- `LexicalCast` for `std::map<std::string, T>` and `std::unordered_map<std::string, T>`. -/
def mapCast (k : Container (List UInt8 × T) C) (c : LexicalCast T) : LexicalCast C where
  toString v := (y.mapNode k c v).map y.emit
  fromString s := (y.load s).bind fun n => (y.entryTexts n).bind fun es =>
    (es.mapM fun e => (c.fromString e.2).map (e.1, ·)).map k.build

end YamlText

/-- The types of values. -/
inductive CastType : Type → Type 1
  /-- A type that is no container. -/
  | plain {T : Type} (c : LexicalCast T) : CastType T
  /-- A sequence or a set. -/
  | seq {T C : Type} (k : Container T C) (t : CastType T) : CastType C
  /-- A map, in which no key is there twice. -/
  | map {T C : Type} (k : Container (List UInt8 × T) C)
      (nodup : ∀ v, ((k.items v).map Prod.fst).Nodup) (t : CastType T) : CastType C

namespace CastType

variable {T : Type}

/-- `std::vector<T>` and `std::list<T>` -/
def vector (t : CastType T) : CastType (List T) := .seq .vector t

section

variable {L : Type} [LT L] [DecidableLT L] [LE L] [Std.IsLinearOrder L] [Std.LawfulOrderLT L]

/-- `std::set<T>`, where `view` is what `operator<` compares. -/
def set (view : T → L) (t : CastType T) : CastType (Container.SortedEntries view Unit) :=
  .seq (.keys (.sorted view Unit)) t

/-- `std::map<std::string, T>` -/
def stdMap (t : CastType T) :
    CastType (Container.SortedEntries (fun key : List UInt8 => key) T) :=
  .map (.sorted _ T) (Container.nodup_sorted _) t

end

/-- `std::unordered_set<T>`, whose elements come in the order `order`. -/
def unorderedSet [DecidableEq T] (order : Container.HashedEntries T Unit → List (T × Unit))
    (h : ∀ m, (order m : Multiset _) = m.entries) (t : CastType T) :
    CastType (Container.HashedEntries T Unit) :=
  .seq (.keys (.hashed order h)) t

/-- `std::unordered_map<std::string, T>`, whose elements come in the order `order`. -/
def unorderedMap
    (order : Container.HashedEntries (List UInt8) T → List (List UInt8 × T))
    (h : ∀ m, (order m : Multiset _) = m.entries) (t : CastType T) :
    CastType (Container.HashedEntries (List UInt8) T) :=
  .map (.hashed order h) (Container.nodup_hashed h) t

/-- The conversions that the templates make. -/
def cast (y : YamlText) {T : Type} : CastType T → LexicalCast T
  | plain c => c
  | seq k t => y.seqCast k (t.cast y)
  | map k _ t => y.mapCast k (t.cast y)

/-- `T` is a container. -/
def IsContainer {T : Type} : CastType T → Prop
  | plain _ => False
  | seq _ _ | map _ _ _ => True

end CastType

/-- A value becomes a text, which is loaded, emitted again and read. -/
def LexicalCast.reread {T : Type} (y : YamlText) (c : LexicalCast T) (x : T) : Option T :=
  (y.node c x).bind fun n => c.fromString (y.emit n)

/-! ### Lists -/

section

variable {A B D : Type}

theorem mapM_mapM (f : A → Option B) (g : B → Option D) (xs : List A) :
    (xs.mapM f).bind (fun ys => ys.mapM g) = xs.mapM fun x => (f x).bind g := by
  induction xs with
  | nil => rfl
  | cons x xs ih =>
    rw [List.mapM_cons, List.mapM_cons, ← ih]
    cases f x with
    | none => rfl
    | some y =>
      cases xs.mapM f with
      | none => cases hg : g y <;> simp [hg]
      | some ys => simp

theorem mapM_congr {f g : A → Option B} {xs : List A} (h : ∀ x ∈ xs, f x = g x) :
    xs.mapM f = xs.mapM g := by
  induction xs with
  | nil => rfl
  | cons x xs ih =>
    rw [List.mapM_cons, List.mapM_cons, h x List.mem_cons_self,
      ih fun x' hx => h x' (List.mem_cons_of_mem _ hx)]

theorem mapM_eq_some {f : A → Option A} {xs : List A} (h : ∀ x ∈ xs, f x = some x) :
    xs.mapM f = some xs := by
  induction xs with
  | nil => rfl
  | cons x xs ih =>
    rw [List.mapM_cons, h x List.mem_cons_self, ih fun x' hx => h x' (List.mem_cons_of_mem _ hx)]
    rfl

end

/-! ### One container -/

namespace YamlText

variable {y : YamlText} {T C : Type} {c : LexicalCast T}

@[simp] theorem toString_seqCast (k : Container T C) (v : C) :
    (y.seqCast k c).toString v = (y.seqNode k c v).map y.emit := rfl

@[simp] theorem toString_mapCast (k : Container (List UInt8 × T) C) (v : C) :
    (y.mapCast k c).toString v = (y.mapNode k c v).map y.emit := rfl

/-- What is written for a container is loaded as it was. -/
theorem node_of_written {d : LexicalCast C} {v : C} {o : Option (Node (List UInt8))}
    (hd : d.toString v = o.map y.emit) (hl : ∀ n, o = some n → y.load (y.emit n) = some n) :
    y.node d v = o := by
  rw [node, hd]
  cases o with
  | none => rfl
  | some n => exact hl n rfl

theorem bind_fromString {d : LexicalCast C} {v : C} {o : Option (Node (List UInt8))}
    (hd : d.toString v = o.map y.emit) (hl : ∀ n, o = some n → y.load (y.emit n) = some n) :
    (d.toString v).bind d.fromString = d.reread y v := by
  rw [LexicalCast.reread, node_of_written hd hl, hd]
  cases o <;> rfl

/-- A sequence is read as the sequence of what its elements are read as. -/
theorem reread_seq {k : Container T C} {v : C}
    (hl : ∀ n, y.seqNode k c v = some n → y.load (y.emit n) = some n) :
    (y.seqCast k c).reread y v = ((k.items v).mapM (c.reread y)).map k.build := by
  have helements : (k.items v).mapM (c.reread y) = ((k.items v).mapM (y.node c)).bind fun ns =>
      ns.mapM fun n => c.fromString (y.emit n) := (mapM_mapM _ _ _).symm
  rw [LexicalCast.reread, node_of_written (toString_seqCast k v) hl, helements]
  cases h : (k.items v).mapM (y.node c) with
  | none => rw [seqNode, h]; rfl
  | some ns =>
    have hn : y.seqNode k c v = some (.seq ns) := by rw [seqNode, h]; rfl
    rw [hn, Option.bind_some, Option.bind_some]
    show (y.load (y.emit (.seq ns))).bind _ = _
    rw [hl _ hn, Option.bind_some, elementTexts, List.mapM_map]
    rfl

/-- A key that is new is the last one. -/
theorem setEntry_eq_concat {key : List UInt8} {n : Node (List UInt8)}
    {es : List (List UInt8 × Node (List UInt8))} (h : key ∉ es.map Prod.fst) :
    Node.setEntry key n es = es ++ [(key, n)] := by
  induction es with
  | nil => rfl
  | cons e es ih =>
    rw [List.map_cons, List.mem_cons, not_or] at h
    rw [Node.setEntry, if_neg (Ne.symm h.1), ih h.2, List.cons_append]

/-- The entries of a map are set one after another. -/
theorem foldlM_setNode (es : List (List UInt8 × T)) :
    ∀ pre : List (List UInt8 × Node (List UInt8)),
      (pre.map Prod.fst ++ es.map Prod.fst).Nodup →
        es.foldlM (y.setNode c) (.map pre) =
          (es.mapM fun e => (y.node c e.2).map (e.1, ·)).map fun ns => .map (pre ++ ns) := by
  induction es with
  | nil => exact fun pre _ => congrArg (fun ns => some (Node.map ns)) (List.append_nil pre).symm
  | cons e es ih =>
    intro pre h
    rw [List.foldlM_cons, List.mapM_cons]
    cases hn : y.node c e.2 with
    | none => simp [setNode, hn]
    | some n =>
      have hnew : e.1 ∉ pre.map Prod.fst := fun hmem =>
        (List.nodup_append.1 h).2.2 _ hmem _ List.mem_cons_self rfl
      have hset : y.setNode c (.map pre) e = some (.map (pre ++ [(e.1, n)])) := by
        rw [setNode, hn, Option.map_some, Node.set, Node.entries, setEntry_eq_concat hnew]
      have hrest := ih (pre ++ [(e.1, n)]) (by simpa using h)
      rw [hset]
      show es.foldlM (y.setNode c) _ = _
      rw [hrest]
      cases es.mapM fun e => (y.node c e.2).map (e.1, ·) <;> simp

theorem mapNode_eq {k : Container (List UInt8 × T) C} {v : C}
    (hk : ((k.items v).map Prod.fst).Nodup) : y.mapNode k c v =
      ((k.items v).mapM fun e => (y.node c e.2).map (e.1, ·)).map .map :=
  foldlM_setNode (k.items v) [] hk

/-- A map is read as the map of what its values are read as. -/
theorem reread_map {k : Container (List UInt8 × T) C} {v : C}
    (hk : ((k.items v).map Prod.fst).Nodup)
    (hl : ∀ n, y.mapNode k c v = some n → y.load (y.emit n) = some n) :
    (y.mapCast k c).reread y v =
      ((k.items v).mapM fun e => (c.reread y e.2).map (e.1, ·)).map k.build := by
  have hvalues : ((k.items v).mapM fun e => (c.reread y e.2).map (e.1, ·)) =
      ((k.items v).mapM fun e => (y.node c e.2).map (e.1, ·)).bind fun ns =>
        ns.mapM fun e => (c.fromString (y.emit e.2)).map (e.1, ·) := by
    rw [mapM_mapM]
    congr 1
    funext e
    rw [LexicalCast.reread]
    cases y.node c e.2 <;> rfl
  rw [LexicalCast.reread, node_of_written (toString_mapCast k v) hl, hvalues]
  have hnode := mapNode_eq (y := y) (c := c) hk
  cases h : (k.items v).mapM fun e => (y.node c e.2).map (e.1, ·) with
  | none => rw [hnode, h]; rfl
  | some ns =>
    have hn : y.mapNode k c v = some (.map ns) := by rw [hnode, h]; rfl
    rw [hn, Option.bind_some, Option.bind_some]
    show (y.load (y.emit (.map ns))).bind _ = _
    rw [hl _ hn, Option.bind_some, entryTexts, Option.bind_some, List.mapM_map]
    rfl

end YamlText

/-! ### Nested containers -/

namespace CastType

variable (y : YamlText)

/-- What a value is read as: the containers are made again of what the other values in them are read
as. -/
def read {T : Type} : CastType T → T → Option T
  | plain c, x => c.reread y x
  | seq k t, v => ((k.items v).mapM t.read).map k.build
  | map k _ t, v => ((k.items v).mapM fun e => (t.read e.2).map (e.1, ·)).map k.build

/-- Every value in the containers is read as it was. -/
def Leaves {T : Type} : CastType T → T → Prop
  | plain c, x => c.reread y x = some x
  | seq k t, v => ∀ x ∈ k.items v, t.Leaves x
  | map k _ t, v => ∀ e ∈ k.items v, t.Leaves e.2

/-- What is emitted for each container is loaded as it was. -/
def Loads {T : Type} : CastType T → T → Prop
  | plain _, _ => True
  | seq k t, v => (∀ x ∈ k.items v, t.Loads x) ∧
    ∀ n, y.seqNode k (t.cast y) v = some n → y.load (y.emit n) = some n
  | map k _ t, v => (∀ e ∈ k.items v, t.Loads e.2) ∧
    ∀ n, y.mapNode k (t.cast y) v = some n → y.load (y.emit n) = some n

variable {y}

/-- The way through texts makes of a value what it is read as. -/
theorem reread_eq_read {T : Type} (t : CastType T) :
    ∀ v, t.Loads y v → (t.cast y).reread y v = t.read y v := by
  induction t with
  | plain c => exact fun _ _ => rfl
  | seq k t ih =>
    rintro v ⟨helements, hl⟩
    rw [cast, YamlText.reread_seq hl, read,
      mapM_congr fun x hx => ih x (helements x hx)]
  | map k nodup t ih =>
    rintro v ⟨hvalues, hl⟩
    rw [cast, YamlText.reread_map (nodup v) hl, read,
      mapM_congr fun e he => by rw [ih e.2 (hvalues e he)]]

theorem read_of_leaves {T : Type} (t : CastType T) :
    ∀ v, t.Leaves y v → t.read y v = some v := by
  induction t with
  | plain c => exact fun _ h => h
  | seq k t ih =>
    intro v h
    rw [read, mapM_eq_some fun x hx => ih x (h x hx), Option.map_some, Container.build_items]
  | map k nodup t ih =>
    intro v h
    rw [read, mapM_eq_some fun e he => by rw [ih e.2 (h e he)]; rfl, Option.map_some,
      Container.build_items]

/-- The text of a container is read as the container itself is. -/
theorem fromString_toString {T : Type} {t : CastType T} (ht : t.IsContainer) {v : T}
    (hl : t.Loads y v) :
    ((t.cast y).toString v).bind (t.cast y).fromString = t.read y v := by
  rw [← reread_eq_read t v hl]
  cases t with
  | plain c => exact ht.elim
  | seq k t => exact YamlText.bind_fromString (YamlText.toString_seqCast k v) hl.2
  | map k nodup t => exact YamlText.bind_fromString (YamlText.toString_mapCast k v) hl.2

end CastType

/-! ### Variables -/

/-- `LexicalCast<std::string, std::string>` -/
def LexicalCast.text : LexicalCast (List UInt8) := ⟨some, some⟩

/-- A string is read as it was where yaml-cpp would emit it for some node. -/
theorem reread_text {y : YamlText} {x : List UInt8} :
    LexicalCast.text.reread y x = some x ↔ ∃ n, y.load x = some n ∧ y.emit n = x := by
  show (y.load x).bind (fun n => some (y.emit n)) = some x ↔ _
  simp [Option.bind_eq_some_iff]

/-- `ConfigVar::toString`, which gives nothing if the conversion throws. -/
def ConfigVar.toString {T : Type} {E : Type*} (toStr : T → Option (List UInt8))
    (c : ConfigVar T E) : List UInt8 :=
  (toStr c.value).getD []

/-- **Containers as text.**  If what is emitted for the containers is loaded as it was, then a
variable takes from the text of another one of its type the containers that are made again of what
the values in them are read as: the same value, if each of them is read as it was. -/
theorem configVar_reads_back {T : Type} {E : Type*} [BEq T] [LawfulBEq T] {y : YamlText}
    {t : CastType T} (ht : t.IsContainer) {c : ConfigVar T E} (hl : t.Loads y c.value) :
    (∀ w, t.read y c.value = some w → ∀ (c' : ConfigVar T E) (env : E),
      c'.fromString (t.cast y).fromString (c.toString (t.cast y).toString) env =
        (true, { c' with value := w }, if c'.value == w then env else c'.notify w env)) ∧
      (t.Leaves y c.value → t.read y c.value = some c.value) := by
  refine ⟨fun w hw c' env => ?_, t.read_of_leaves c.value⟩
  have hread := CastType.fromString_toString ht hl
  rw [hw] at hread
  obtain ⟨s, hs, hs'⟩ := Option.bind_eq_some_iff.1 hread
  rw [ConfigVar.toString, hs, Option.getD_some, ConfigVar.fromString, hs']
  show (true, c'.setValue w env) = _
  rw [ConfigVar.setValue]
  split_ifs with h
  · rw [← eq_of_beq h]
  · rfl

/-- Two numbers in a vector of vectors, with what yaml-cpp emits for them. -/
def rowsYaml : YamlText :=
  let row : Node (List UInt8) := .seq [.scalar [49], .scalar [50]]
  { load := fun s =>
      some (if s = [45, 32, 49, 10, 45, 32, 50] then row
        else if s = [45, 10, 32, 32, 45, 32, 49, 10, 32, 32, 45, 32, 50] then .seq [row]
        else .scalar s)
    emit := fun
      | .seq (.seq _ :: _) => [45, 10, 32, 32, 45, 32, 49, 10, 32, 32, 45, 32, 50]
      | .seq _ => [45, 32, 49, 10, 45, 32, 50]
      | .scalar s => s
      | _ => [126]
    index := fun _ => none }

/-- Vectors of vectors of strings. -/
def rowsType : CastType (List (List (List UInt8))) := .vector (.vector (.plain .text))

/-- A variable with the vector of vectors, and no listener. -/
def rowsVar : ConfigVar (List (List (List UInt8))) ℕ := ⟨[[[49], [50]]], []⟩

/-- A variable that is empty, and whose listener counts. -/
def emptyRows : ConfigVar (List (List (List UInt8))) ℕ := ⟨[], [fun _ _ env => env + 1]⟩

/-- The vector of vectors is read back. -/
theorem configVar_reads_back_rows :
    emptyRows.fromString (rowsType.cast rowsYaml).fromString
        (rowsVar.toString (rowsType.cast rowsYaml).toString) 0 =
      (true, { emptyRows with value := [[[49], [50]]] }, 1) := by
  have hloads : rowsType.Loads rowsYaml rowsVar.value := by
    refine ⟨fun x hx => ⟨fun _ _ => trivial, fun n hn => ?_⟩, fun n hn => ?_⟩
    · obtain rfl := List.mem_singleton.1 hx
      obtain rfl := Option.some.inj hn
      rfl
    · obtain rfl := Option.some.inj hn
      rfl
  have hleaves : rowsType.Leaves rowsYaml rowsVar.value := by
    intro row hrow x hx
    obtain rfl := List.mem_singleton.1 hrow
    rcases List.mem_pair.1 hx with rfl | rfl <;> rfl
  have hread := configVar_reads_back (t := rowsType) (c := rowsVar) trivial hloads
  exact hread.1 rowsVar.value (hread.2 hleaves) emptyRows 0

/-! ### Definitions of loggers -/

namespace Log

/-- The library for the templates. -/
def YamlCpp.text (y : YamlCpp) (index : List UInt8 → Option ℕ) : YamlText :=
  ⟨fun s => some (y.load s), y.emit, index⟩

/-- The two conversions of a definition. -/
def LogDefine.lexicalCast (y : YamlCpp) : LexicalCast LogDefine :=
  ⟨fun i => some (i.toText y), fun s => (LogDefine.ofText y s).toOption⟩

/-- In a set of definitions, each of those that survive is read as it was. -/
theorem leaves_iff_survives {y : YamlCpp} {i : LogDefine} (hy : y.Loads i)
    (index : List UInt8 → Option ℕ) :
    (CastType.plain (LogDefine.lexicalCast y)).Leaves (y.text index) i ↔ i.Survives y := by
  show (LogDefine.ofText y (y.emit (y.load (i.toText y)))).toOption = some i ↔ _
  rw [LogDefine.toText, hy.tree, LogDefine.Survives, LogDefine.toText]
  cases LogDefine.ofText y (y.emit (i.toYaml y)) <;> simp [Except.toOption]

end Log

end YXTWebCpp
