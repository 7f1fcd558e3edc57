import YXTWebCpp.Http.Param
import YXTWebCpp.Maps.Lazy

/-!
# Late parsing of parameters and cookies

The calls on the parameters and cookies of a request (`http.cpp`).  `getParam` and `hasParam` parse
the query and the body first, `getCookie` and `hasCookie` the `cookie` header; `setParam`,
`delParam`, `setCookie` and `delCookie` act on the maps as they are.

* `lateParams r` : these calls on the late members of a request `r` as an object.
* `LateTracks`, `simulates` : it is a family of two maps that are filled late.
* `unobservable_iff` : when the results are those of a request that was parsed beforehand.
-/

namespace YXTWebCpp

namespace Http

open LazyMaps

/-! ### The calls -/

/-- A call on the parameters or cookies. -/
inductive ParamCall where
  | setParam (key val : List UInt8)
  | delParam (key : List UInt8)
  | getParam (key dflt : List UInt8)
  | hasParam (key : List UInt8)
  | setCookie (key val : List UInt8)
  | delCookie (key : List UInt8)
  | getCookie (key dflt : List UInt8)
  | hasCookie (key : List UInt8)

namespace HttpRequest

variable (r : HttpRequest) (p : ParamState) (key : List UInt8)

/-- `HttpRequest::setParam` -/
def setParam (val : List UInt8) : ParamState := { p with params := mapAssign key val p.params }

/-- `HttpRequest::delParam` -/
def delParam : ParamState := { p with params := SortedMap.erase foldCase key p.params }

/-- `HttpRequest::getParam` -/
def getParam (dflt : List UInt8) : List UInt8 × ParamState :=
  let p := r.initBodyParam (r.initQueryParam p)
  ((mapFind key p.params).getD dflt, p)

/-- `HttpRequest::hasParam`, with what it writes to `*val` if it returns `true`. -/
def hasParam : Option (List UInt8) × ParamState :=
  let p := r.initBodyParam (r.initQueryParam p)
  (mapFind key p.params, p)

/-- `HttpRequest::setCookie` -/
def setCookie (val : List UInt8) : ParamState := { p with cookies := mapAssign key val p.cookies }

/-- `HttpRequest::delCookie` -/
def delCookie : ParamState := { p with cookies := SortedMap.erase foldCase key p.cookies }

/-- `HttpRequest::getCookie` -/
def getCookie (dflt : List UInt8) : List UInt8 × ParamState :=
  let p := r.initCookies p
  ((mapFind key p.cookies).getD dflt, p)

/-- `HttpRequest::hasCookie` -/
def hasCookie : Option (List UInt8) × ParamState :=
  let p := r.initCookies p
  (mapFind key p.cookies, p)

end HttpRequest

/-- The calls on a request whose query, body and headers stay as they are. -/
def lateParams (r : HttpRequest) : Object ParamState ParamCall (Result (List UInt8)) where
  step p call := match call with
    | .setParam key val => (.done, HttpRequest.setParam p key val)
    | .delParam key => (.done, HttpRequest.delParam p key)
    | .getParam key dflt => ((r.getParam p key dflt).map .value id)
    | .hasParam key => ((r.hasParam p key).map .found id)
    | .setCookie key val => (.done, HttpRequest.setCookie p key val)
    | .delCookie key => (.done, HttpRequest.delCookie p key)
    | .getCookie key dflt => ((r.getCookie p key dflt).map .value id)
    | .hasCookie key => ((r.hasCookie p key).map .found id)

/-! ### Two maps that are filled late -/

/-- The two maps. -/
inductive Part where
  | params | cookies
  deriving DecidableEq

/-- A call as one on the family of maps; keys in any letter case are one key. -/
def ParamCall.op : ParamCall → Op Part (List UInt8) (List UInt8)
  | .setParam key val => .set .params (foldCase key) val
  | .delParam key => .del .params (foldCase key)
  | .getParam key dflt => .get .params (foldCase key) dflt
  | .hasParam key => .has .params (foldCase key)
  | .setCookie key val => .set .cookies (foldCase key) val
  | .delCookie key => .del .cookies (foldCase key)
  | .getCookie key dflt => .get .cookies (foldCase key) dflt
  | .hasCookie key => .has .cookies (foldCase key)

/-- A map of the request. -/
def ParamState.part (p : ParamState) : Part → MapType
  | .params => p.params
  | .cookies => p.cookies

/-- The entries that have not been inserted yet, by the flags. -/
def HttpRequest.pending (r : HttpRequest) (p : ParamState) : Part → MapType
  | .params => (if p.parserParamFlag &&& 0x1 ≠ 0 then [] else r.queryEntries) ++
      if p.parserParamFlag &&& 0x2 ≠ 0 then [] else r.bodyEntries
  | .cookies => if p.parserParamFlag &&& 0x4 ≠ 0 then [] else r.cookieEntries

/-- Raising one flag leaves the others alone. -/
theorem flags_or : ∀ f : UInt8,
    ((f ||| 1) &&& 1 ≠ 0 ∧ (f ||| 1) &&& 2 = f &&& 2 ∧ (f ||| 1) &&& 4 = f &&& 4) ∧
    ((f ||| 2) &&& 1 = f &&& 1 ∧ (f ||| 2) &&& 2 ≠ 0 ∧ (f ||| 2) &&& 4 = f &&& 4) ∧
    ((f ||| 4) &&& 1 = f &&& 1 ∧ (f ||| 4) &&& 2 = f &&& 2 ∧ (f ||| 4) &&& 4 ≠ 0) := by
  decide +kernel

/-- The map `i` is replaced. -/
def ParamState.setPart (p : ParamState) : Part → MapType → ParamState
  | .params, m => { p with params := m }
  | .cookies, m => { p with cookies := m }

/-- What a look into map `i` does first. -/
def HttpRequest.fill (r : HttpRequest) (p : ParamState) : Part → ParamState
  | .params => r.initBodyParam (r.initQueryParam p)
  | .cookies => r.initCookies p

section Fill

variable (r : HttpRequest) (p : ParamState)

theorem initQueryParam_spec :
    (r.initQueryParam p).params = SortedMap.insertAll foldCase
      (if p.parserParamFlag &&& 0x1 ≠ 0 then [] else r.queryEntries) p.params ∧
    (r.initQueryParam p).cookies = p.cookies ∧
    (r.initQueryParam p).parserParamFlag &&& 1 ≠ 0 ∧
    (r.initQueryParam p).parserParamFlag &&& 2 = p.parserParamFlag &&& 2 ∧
    (r.initQueryParam p).parserParamFlag &&& 4 = p.parserParamFlag &&& 4 := by
  unfold HttpRequest.initQueryParam
  split_ifs with h
  · exact ⟨rfl, rfl, h, rfl, rfl⟩
  · exact ⟨rfl, rfl, (flags_or _).1⟩

theorem initBodyParam_spec :
    (r.initBodyParam p).params = SortedMap.insertAll foldCase
      (if p.parserParamFlag &&& 0x2 ≠ 0 then [] else r.bodyEntries) p.params ∧
    (r.initBodyParam p).cookies = p.cookies ∧
    (r.initBodyParam p).parserParamFlag &&& 1 = p.parserParamFlag &&& 1 ∧
    (r.initBodyParam p).parserParamFlag &&& 2 ≠ 0 ∧
    (r.initBodyParam p).parserParamFlag &&& 4 = p.parserParamFlag &&& 4 := by
  unfold HttpRequest.initBodyParam
  split_ifs with h
  · exact ⟨rfl, rfl, rfl, h, rfl⟩
  · exact ⟨rfl, rfl, (flags_or _).2.1⟩

theorem initCookies_spec :
    (r.initCookies p).params = p.params ∧
    (r.initCookies p).cookies = SortedMap.insertAll foldCase
      (if p.parserParamFlag &&& 0x4 ≠ 0 then [] else r.cookieEntries) p.cookies ∧
    (r.initCookies p).parserParamFlag &&& 1 = p.parserParamFlag &&& 1 ∧
    (r.initCookies p).parserParamFlag &&& 2 = p.parserParamFlag &&& 2 ∧
    (r.initCookies p).parserParamFlag &&& 4 ≠ 0 := by
  unfold HttpRequest.initCookies
  split_ifs with h
  · exact ⟨rfl, rfl, rfl, rfl, h⟩
  · exact ⟨rfl, rfl, (flags_or _).2.2⟩

/-- The entries that are missing are inserted, and then none are missing. -/
theorem fill_self (i : Part) :
    (r.fill p i).part i = SortedMap.insertAll foldCase (r.pending p i) (p.part i) ∧
      r.pending (r.fill p i) i = [] := by
  cases i with
  | params =>
    obtain ⟨hp, -, h1, h2, -⟩ := initQueryParam_spec r p
    obtain ⟨hp', -, h1', h2', -⟩ := initBodyParam_spec r (r.initQueryParam p)
    constructor
    · show (r.initBodyParam (r.initQueryParam p)).params = _
      rw [hp', hp, h2, HttpRequest.pending, SortedMap.insertAll_append]
      rfl
    · show (if (r.initBodyParam _).parserParamFlag &&& 1 ≠ 0 then [] else r.queryEntries) ++
        (if (r.initBodyParam _).parserParamFlag &&& 2 ≠ 0 then [] else r.bodyEntries) = []
      rw [if_pos h2', h1', if_pos h1, List.append_nil]
  | cookies =>
    obtain ⟨-, hp, -, -, h4⟩ := initCookies_spec r p
    exact ⟨hp, if_pos h4⟩

/-- The other map is left alone. -/
theorem fill_of_ne {i j : Part} (h : j ≠ i) :
    (r.fill p i).part j = p.part j ∧ r.pending (r.fill p i) j = r.pending p j := by
  cases i <;> cases j
  · exact absurd rfl h
  · obtain ⟨-, hp, -, -, h4⟩ := initQueryParam_spec r p
    obtain ⟨-, hp', -, -, h4'⟩ := initBodyParam_spec r (r.initQueryParam p)
    refine ⟨hp'.trans hp, ?_⟩
    simp only [HttpRequest.pending, HttpRequest.fill, h4', h4]
  · obtain ⟨hp, -, h1, h2, -⟩ := initCookies_spec r p
    refine ⟨hp, ?_⟩
    simp only [HttpRequest.pending, HttpRequest.fill, h1, h2]
  · exact absurd rfl h

theorem initParam_eq : r.initParam p = r.fill (r.fill p .params) .cookies := rfl

end Fill

/-! ### The simulation -/

/-- The entries that are missing in `p₀`, as the sources of the two maps. -/
def HttpRequest.source (r : HttpRequest) (p₀ : ParamState) (i : Part) :
    List UInt8 → Option (List UInt8) := SortedMap.content foldCase (r.pending p₀ i)

/-- The members `p` are the maps `s`, which are filled from what is missing in `p₀`. -/
structure LateTracks (r : HttpRequest) (p₀ p : ParamState)
    (s : Part → Slot (List UInt8) (List UInt8)) : Prop where
  sorted : ∀ i, SortedMap.Sorted foldCase (p.part i)
  content : ∀ i, (s i).content = SortedMap.content foldCase (p.part i)
  unloaded : ∀ i, (s i).loaded = false → r.pending p i = r.pending p₀ i
  loaded : ∀ i, (s i).loaded = true → r.pending p i = []

namespace LateTracks

variable {r : HttpRequest} {p₀ p : ParamState} {s : Part → Slot (List UInt8) (List UInt8)}

/-- What a look finds is what the map holds once it has been filled. -/
theorem seen_eq (h : LateTracks r p₀ p s) (i : Part) :
    seen (r.source p₀) s i = SortedMap.content foldCase ((r.fill p i).part i) := by
  funext x
  rw [seen_apply, (fill_self r p i).1, SortedMap.content_insertAll (h.sorted i), h.content]
  split_ifs with hl
  · rw [h.loaded i hl, SortedMap.content_nil]
    exact Option.or_none.symm
  · rw [h.unloaded i (Bool.not_eq_true _ ▸ hl)]
    rfl

theorem fill (h : LateTracks r p₀ p s) (i : Part) :
    LateTracks r p₀ (r.fill p i) (look (r.source p₀) s i) := by
  have hself : (look (r.source p₀) s i i).content = seen (r.source p₀) s i := by
    rw [look, Function.update_self]
    rfl
  have hloaded : (look (r.source p₀) s i i).loaded = true := (loaded_look _ s i i).2 (.inr rfl)
  have hne : ∀ j, j ≠ i → look (r.source p₀) s i j = s j := fun j hj =>
    Function.update_of_ne hj _ _
  refine ⟨fun j => ?_, fun j => ?_, fun j hj => ?_, fun j hj => ?_⟩ <;> by_cases hji : j = i
  · subst hji
    rw [(fill_self r p j).1]
    exact (h.sorted j).insertAll _
  · rw [(fill_of_ne r p hji).1]
    exact h.sorted j
  · subst hji
    rw [hself, h.seen_eq]
  · rw [hne j hji, (fill_of_ne r p hji).1, h.content]
  · subst hji
    rw [hloaded] at hj
    cases hj
  · rw [hne j hji] at hj
    rw [(fill_of_ne r p hji).2]
    exact h.unloaded j hj
  · subst hji
    exact (fill_self r p j).2
  · rw [hne j hji] at hj
    rw [(fill_of_ne r p hji).2]
    exact h.loaded j hj

theorem put (h : LateTracks r p₀ p s) (i : Part) {m : MapType} {x : List UInt8}
    {o : Option (List UInt8)} (hm : SortedMap.Sorted foldCase m)
    (hcontent : SortedMap.content foldCase m =
      Function.update (SortedMap.content foldCase (p.part i)) x o) :
    LateTracks r p₀ (p.setPart i m) (LazyMaps.put s i x o) := by
  have hself : (p.setPart i m).part i = m := by cases i <;> rfl
  have hne : ∀ j, j ≠ i → (p.setPart i m).part j = p.part j := fun j hj => by
    cases i <;> cases j <;> first | rfl | exact absurd rfl hj
  have hpending : ∀ j, r.pending (p.setPart i m) j = r.pending p j := fun j => by
    cases i <;> cases j <;> rfl
  refine ⟨fun j => ?_, fun j => ?_, fun j hj => ?_, fun j hj => ?_⟩
  · by_cases hji : j = i
    · subst hji
      rw [hself]
      exact hm
    · rw [hne j hji]
      exact h.sorted j
  · by_cases hji : j = i
    · subst hji
      rw [hself, hcontent, ← h.content, LazyMaps.put, Function.update_self]
    · rw [hne j hji, ← h.content, LazyMaps.put, Function.update_of_ne hji]
  · rw [loaded_put] at hj
    rw [hpending]
    exact h.unloaded j hj
  · rw [loaded_put] at hj
    rw [hpending]
    exact h.loaded j hj

/-- What is found in a member is what a look finds. -/
theorem mapFind_fill (h : LateTracks r p₀ p s) (i : Part) (key : List UInt8) :
    mapFind key ((r.fill p i).part i) = seen (r.source p₀) s i (foldCase key) := by
  rw [h.seen_eq, mapFind_eq]

theorem assign (h : LateTracks r p₀ p s) (i : Part) (key val : List UInt8) :
    LateTracks r p₀ (p.setPart i (mapAssign key val (p.part i)))
      (LazyMaps.put s i (foldCase key) (some val)) := by
  rw [mapAssign_eq]
  exact h.put i ((h.sorted i).assign key val) (SortedMap.content_assign key val _)

theorem erase (h : LateTracks r p₀ p s) (i : Part) (key : List UInt8) :
    LateTracks r p₀ (p.setPart i (SortedMap.erase foldCase key (p.part i)))
      (LazyMaps.put s i (foldCase key) none) := by
  exact h.put i ((h.sorted i).erase key) (SortedMap.content_erase key _)

end LateTracks

/-- The maps of a request, none of them filled. -/
def ParamState.slots (p : ParamState) : Part → Slot (List UInt8) (List UInt8) :=
  fun i => ⟨false, SortedMap.content foldCase (p.part i)⟩

theorem lateTracks_slots (r : HttpRequest) {p : ParamState}
    (hp : ∀ i, SortedMap.Sorted foldCase (p.part i)) : LateTracks r p p p.slots where
  sorted := hp
  content _ := rfl
  unloaded _ _ := rfl
  loaded _ h := absurd h Bool.false_ne_true

theorem lateTracks_initParam (r : HttpRequest) {p : ParamState}
    (hp : ∀ i, SortedMap.Sorted foldCase (p.part i)) :
    LateTracks r p (r.initParam p) (loadAll (r.source p) p.slots) := by
  have h := ((lateTracks_slots r hp).fill .params).fill .cookies
  have hall : look (r.source p) (look (r.source p) p.slots .params) .cookies =
      loadAll (r.source p) p.slots := by
    funext i
    cases i <;> rfl
  rw [initParam_eq, ← hall]
  exact h

/-- The calls on a request are those on the two maps. -/
theorem simulates (r : HttpRequest) (p₀ : ParamState) :
    (lateParams r).Simulates ((maps (r.source p₀)).comap ParamCall.op) (fun _ _ => True)
      (fun _ _ => True) (LateTracks r p₀) where
  allowed _ := Iff.rfl
  observed := by
    intro p s call h _
    cases call with
    | setParam key val => rfl
    | delParam key => rfl
    | getParam key dflt =>
      exact congrArg (fun o => Result.value (o.getD dflt)) (h.mapFind_fill .params key)
    | hasParam key => exact congrArg Result.found (h.mapFind_fill .params key)
    | setCookie key val => rfl
    | delCookie key => rfl
    | getCookie key dflt =>
      exact congrArg (fun o => Result.value (o.getD dflt)) (h.mapFind_fill .cookies key)
    | hasCookie key => exact congrArg Result.found (h.mapFind_fill .cookies key)
  kept := by
    intro p s call h _
    cases call with
    | setParam key val => exact h.assign .params key val
    | delParam key => exact h.erase .params key
    | getParam key dflt => exact h.fill .params
    | hasParam key => exact h.fill .params
    | setCookie key val => exact h.assign .cookies key val
    | delCookie key => exact h.erase .cookies key
    | getCookie key dflt => exact h.fill .cookies
    | hasCookie key => exact h.fill .cookies

theorem LateTracks.trace_eq {r : HttpRequest} {p₀ p : ParamState}
    {s : Part → Slot (List UInt8) (List UInt8)} (h : LateTracks r p₀ p s) (calls : List ParamCall) :
    (lateParams r).trace p calls = (maps (r.source p₀)).trace s (calls.map ParamCall.op) := by
  rw [(simulates r p₀).trace_eq h (Object.allowed_of_forall (fun _ _ => trivial) s calls),
    Object.trace_comap]

/-! ### Parsed late and parsed beforehand -/

/-- A deletion, and a look for the key right behind it. -/
def delThenHas (i : Part) (key : List UInt8) : List ParamCall :=
  match i with
  | .params => [.delParam key, .hasParam key]
  | .cookies => [.delCookie key, .hasCookie key]

/-- The calls return what they return after `initParam`, and a key is not found right after it was
deleted. -/
def Unobservable (r : HttpRequest) (p : ParamState) (calls : List ParamCall) : Prop :=
  (lateParams r).trace p calls = (lateParams r).trace (r.initParam p) calls ∧
    ∀ a i key b, calls = a ++ delThenHas i key ++ b →
      ((lateParams r).trace p (a ++ delThenHas i key)).getLast? = some (.found none)

/-- After the calls `pre`, the call looks up a key that was deleted from a map which had not been
filled, and not set again, while there is an entry for it in the part of the request that had not
been parsed in `p`; a `get` only where its value is not the default. -/
def AsksForDropped (r : HttpRequest) (p : ParamState) (pre : List ParamCall) (call : ParamCall) :
    Prop :=
  Exposes (r.source p) (pre.map ParamCall.op) call.op

theorem map_split_iff {calls : List ParamCall}
    {P : List (Op Part (List UInt8) (List UInt8)) → Op Part (List UInt8) (List UInt8) → Prop} :
    (∀ pre op post, calls.map ParamCall.op = pre ++ op :: post → P pre op) ↔
      ∀ pre call post, calls = pre ++ call :: post → P (pre.map ParamCall.op) call.op := by
  constructor
  · rintro h pre call post rfl
    exact h _ _ (post.map ParamCall.op) (by rw [List.map_append, List.map_cons])
  · intro h pre op post hops
    obtain ⟨pre, rest, rfl, rfl, hrest⟩ := List.map_eq_append_iff.1 hops
    obtain ⟨call, post, rfl, rfl, rfl⟩ := List.map_eq_cons_iff.1 hrest
    exact h pre call post rfl

theorem trace_initParam_iff (r : HttpRequest) {p : ParamState}
    (hp : ∀ i, SortedMap.Sorted foldCase (p.part i)) (calls : List ParamCall) :
    (lateParams r).trace p calls = (lateParams r).trace (r.initParam p) calls ↔
      ∀ pre call post, calls = pre ++ call :: post → ¬ AsksForDropped r p pre call := by
  rw [(lateTracks_slots r hp).trace_eq, (lateTracks_initParam r hp).trace_eq,
    trace_loadAll_eq_iff fun _ => rfl]
  exact map_split_iff

/-- **Late parsing**: it cannot be told from `initParam` at the start exactly if no call looks up a
key that was deleted too early. -/
theorem unobservable_iff (r : HttpRequest) {p : ParamState}
    (hp : ∀ i, SortedMap.Sorted foldCase (p.part i)) (calls : List ParamCall) :
    Unobservable r p calls ↔
      ∀ pre call post, calls = pre ++ call :: post → ¬ AsksForDropped r p pre call := by
  rw [← trace_initParam_iff r hp]
  refine ⟨And.left, fun h => ⟨h, ?_⟩⟩
  rintro a i key b rfl
  -- what holds of all calls holds of those up to the look
  have hearly : (lateParams r).trace p (a ++ delThenHas i key) =
      (lateParams r).trace (r.initParam p) (a ++ delThenHas i key) := by
    rw [trace_initParam_iff r hp] at h ⊢
    intro pre call post hsplit
    exact h pre call (post ++ b) (by rw [hsplit, List.append_assoc, List.cons_append])
  rw [hearly, (lateTracks_initParam r hp).trace_eq, List.map_append]
  cases i with
  | params => exact has_after_del (fun i => loaded_load _ _) _ Part.params (foldCase key)
  | cookies => exact has_after_del (fun i => loaded_load _ _) _ Part.cookies (foldCase key)

/-- A form that is changed before it is read. -/
theorem unobservable_iff_set :
    Unobservable formRequest .new [.setParam (ascii "a") (ascii "5"), .hasParam (ascii "A"),
      .getCookie (ascii "c") (ascii "")] := by
  refine (unobservable_iff formRequest (fun i => ?_) _).2 fun pre call post h hasks => ?_
  · cases i <;> exact List.Pairwise.nil
  · obtain ⟨i, x, hdel⟩ := hasks.exists_del
    obtain ⟨call', hmem, hop⟩ := List.mem_map.1 hdel
    have hin := List.mem_append_left (call :: post) hmem
    rw [← h] at hin
    simp only [List.mem_cons, List.not_mem_nil, or_false] at hin
    rcases hin with rfl | rfl | rfl <;> cases hop

/-- Parameter `a` is found right after it was deleted. -/
theorem not_unobservable_delParam :
    ¬ Unobservable formRequest .new [.delParam (ascii "a"), .hasParam (ascii "a")] := by
  intro h
  have hfound := h.2 [] .params (ascii "a") [] rfl
  revert hfound
  decide +kernel

end Http

end YXTWebCpp
