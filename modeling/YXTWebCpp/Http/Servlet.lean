import YXTWebCpp.LTS.History
import Mathlib.Data.List.Induction
import Mathlib.Logic.Function.Basic

/-!
# Servlet dispatch

`ServletDispatch` (`servlet.cpp`) finds the servlet for a path: in the map of exact paths, in the
list of patterns, which is searched from the front with `fnmatch`, or the default.  A pattern that
is registered again moves to the end of the list.

* `ServletDispatch` : the map, the list and the default, with the operations on them.
* `ServletAct` : the calls that change it; `ServletDispatch.run` is the state after a history of
  calls.
* `Selected` : the servlet that a history selects for a path, in terms of the last registrations.
* `getMatchedServlet_iff` : **this servlet is found**, and every pattern is in the list once.
-/

namespace YXTWebCpp

namespace Http

open History

variable {U C S : Type*}

/-- `ServletDispatch`, for paths `U` and servlets `S`. -/
structure ServletDispatch (U S : Type*) where
  /-- `m_datas` -/
  datas : U → Option S
  /-- `m_globs` -/
  globs : List (U × S)
  /-- `m_default` -/
  default : S

namespace ServletDispatch

section

variable [DecidableEq U]

/-- `ServletDispatch()`, with the servlet for paths that are not found. -/
def new (notFoundServlet : S) : ServletDispatch U S := ⟨fun _ => none, [], notFoundServlet⟩

/-- `addServlet` -/
def addServlet (d : ServletDispatch U S) (uri : U) (slt : S) : ServletDispatch U S :=
  { d with datas := Function.update d.datas uri (some slt) }

/-- `delServlet` -/
def delServlet (d : ServletDispatch U S) (uri : U) : ServletDispatch U S :=
  { d with datas := Function.update d.datas uri none }

/-- `delGlobServlet`: the loop erases the first entry with the pattern and ends. -/
def delGlobServlet (d : ServletDispatch U S) (uri : U) : ServletDispatch U S :=
  { d with globs := d.globs.eraseP fun e => decide (e.1 = uri) }

/-- `addGlobServlet` -/
def addGlobServlet (d : ServletDispatch U S) (uri : U) (slt : S) : ServletDispatch U S :=
  let d := d.delGlobServlet uri
  { d with globs := d.globs ++ [(uri, slt)] }

/-- `setDefault` -/
def setDefault (d : ServletDispatch U S) (slt : S) : ServletDispatch U S :=
  { d with default := slt }

end

/-- `getServlet` -/
def getServlet (d : ServletDispatch U S) (uri : U) : Option S := d.datas uri

/-- `getGlobServlet`, where `fnmatch pattern uri` says that the pattern matches. -/
def getGlobServlet (fnmatch : U → U → Bool) (d : ServletDispatch U S) (uri : U) : Option S :=
  (d.globs.find? fun e => fnmatch e.1 uri).map Prod.snd

/-- `getMatchedServlet` -/
def getMatchedServlet (fnmatch : U → U → Bool) (d : ServletDispatch U S) (uri : U) : S :=
  match d.getServlet uri with
  | some slt => slt
  | none =>
    match d.getGlobServlet fnmatch uri with
    | some slt => slt
    | none => d.default

end ServletDispatch

/-- The calls that change a `ServletDispatch`. -/
inductive ServletAct (U C S : Type*) where
  | addServlet (uri : U) (slt : S)
  /-- `addServlet` with a function, which is wrapped in a `FunctionServlet`. -/
  | addFunction (uri : U) (cb : C)
  | addGlobServlet (uri : U) (slt : S)
  | delServlet (uri : U)
  | delGlobServlet (uri : U)
  | setDefault (slt : S)
  deriving DecidableEq

section

variable [DecidableEq U] (functionServlet : C → S) (notFoundServlet : S)

/-- What a call does. -/
def ServletDispatch.call (d : ServletDispatch U S) : ServletAct U C S → ServletDispatch U S
  | .addServlet uri slt => d.addServlet uri slt
  | .addFunction uri cb => d.addServlet uri (functionServlet cb)
  | .addGlobServlet uri slt => d.addGlobServlet uri slt
  | .delServlet uri => d.delServlet uri
  | .delGlobServlet uri => d.delGlobServlet uri
  | .setDefault slt => d.setDefault slt

/-- The state after a history of calls. -/
def ServletDispatch.run (h : List (ServletAct U C S)) : ServletDispatch U S :=
  h.foldl (ServletDispatch.call functionServlet) (.new notFoundServlet)

end

/-! ### What a history selects -/

section

variable (functionServlet : C → S) (notFoundServlet : S)

/-- What a call registers for a path, `none` for a deletion. -/
def ServletAct.data : ServletAct U C S → Option (U × Option S)
  | .addServlet uri slt => some (uri, some slt)
  | .addFunction uri cb => some (uri, some (functionServlet cb))
  | .delServlet uri => some (uri, none)
  | _ => none

/-- What a call registers for a pattern, `none` for a deletion. -/
def ServletAct.glob : ServletAct U C S → Option (U × Option S)
  | .addGlobServlet uri slt => some (uri, some slt)
  | .delGlobServlet uri => some (uri, none)
  | _ => none

/-- What a call makes the default. -/
def ServletAct.dflt : ServletAct U C S → Option (Unit × S)
  | .setDefault slt => some ((), slt)
  | _ => none

/-- `slt` was the last to be registered for exactly this path, and was not deleted since. -/
def Exact (h : List (ServletAct U C S)) (uri : U) (slt : S) : Prop :=
  ∃ n, LastWrite (ServletAct.data functionServlet) h uri n (some slt)

/-- `slt` was the last to be registered for this pattern, by the `n`-th call, and was not deleted
since. -/
def Glob (h : List (ServletAct U C S)) (n : ℕ) (pat : U) (slt : S) : Prop :=
  LastWrite ServletAct.glob h pat n (some slt)

/-- `slt` was made the default last, or it is the default from the beginning. -/
def Default (h : List (ServletAct U C S)) (slt : S) : Prop :=
  (∃ n, LastWrite ServletAct.dflt h () n slt) ∨
    (∀ n slt', ¬ LastWrite ServletAct.dflt h () n slt') ∧ slt = notFoundServlet

/-- The servlet that a history selects for a path. -/
inductive Selected (fnmatch : U → U → Bool) (h : List (ServletAct U C S)) (uri : U) (slt : S) : Prop
  /-- The one registered for exactly this path. -/
  | exact : Exact functionServlet h uri slt → Selected fnmatch h uri slt
  /-- If there is none, the one of the matching pattern whose last registration is the earliest. -/
  | glob (n : ℕ) (pat : U) : (∀ slt', ¬ Exact functionServlet h uri slt') → Glob h n pat slt →
      fnmatch pat uri = true →
      (∀ n' pat' slt', Glob h n' pat' slt' → fnmatch pat' uri = true → n ≤ n') →
      Selected fnmatch h uri slt
  /-- If no pattern matches, the default. -/
  | default : (∀ slt', ¬ Exact functionServlet h uri slt') →
      (∀ n pat slt', Glob h n pat slt' → fnmatch pat uri = false) → Default notFoundServlet h slt →
      Selected fnmatch h uri slt

end

/-! ### One more call -/

section

variable {functionServlet : C → S} {notFoundServlet : S} {h : List (ServletAct U C S)}
  {a : ServletAct U C S} {uri u : U} {slt : S}

theorem exact_snoc_of_none (ha : a.data functionServlet = none) :
    Exact functionServlet (h ++ [a]) uri slt ↔ Exact functionServlet h uri slt :=
  exists_congr fun _ => lastWrite_snoc_of_none ha

theorem default_snoc_of_none (ha : a.dflt = none) :
    Default notFoundServlet (h ++ [a]) slt ↔ Default notFoundServlet h slt := by
  simp only [Default, lastWrite_snoc_of_none ha]

/-- The entries of `m_globs` are the patterns that are registered, in the order of their last
registrations. -/
def Timed (h : List (ServletAct U C S)) (globs : List (U × S)) : Prop :=
  ∃ l : List (ℕ × U × S), l.map Prod.snd = globs ∧ l.Pairwise (fun x y => x.1 < y.1) ∧
    ∀ n pat slt, (n, pat, slt) ∈ l ↔ Glob h n pat slt

theorem Timed.snoc_of_none {globs : List (U × S)} (ht : Timed h globs) (ha : a.glob = none) :
    Timed (h ++ [a]) globs := by
  obtain ⟨l, hl, hsort, hmem⟩ := ht
  refine ⟨l, hl, hsort, fun n pat slt => (hmem n pat slt).trans ?_⟩
  exact (lastWrite_snoc_of_none ha).symm

/-- Two entries have different patterns. -/
theorem Timed.patterns {l : List (ℕ × U × S)} (hsort : l.Pairwise (fun x y => x.1 < y.1))
    (hmem : ∀ n pat slt, (n, pat, slt) ∈ l ↔ Glob h n pat slt) :
    l.Pairwise fun x y => x.2.1 ≠ y.2.1 := by
  refine hsort.imp_of_mem fun {x y} hx hy hlt heq => ?_
  obtain ⟨n, pat, slt⟩ := x
  obtain ⟨n', pat', slt'⟩ := y
  obtain rfl : pat = pat' := heq
  have := (((hmem n pat slt).1 hx).unique ((hmem n' pat slt').1 hy)).1
  exact absurd this (Nat.ne_of_lt hlt)

theorem Timed.nodup {globs : List (U × S)} (ht : Timed h globs) :
    (globs.map Prod.fst).Nodup := by
  obtain ⟨l, rfl, hsort, hmem⟩ := ht
  rw [List.map_map, List.nodup_iff_pairwise_ne, List.pairwise_map]
  exact Timed.patterns hsort hmem

/-- What `getGlobServlet` finds. -/
theorem Timed.find {globs : List (U × S)} (ht : Timed h globs) (fnmatch : U → U → Bool) (uri : U) :
    (∀ slt, (globs.find? fun e => fnmatch e.1 uri).map Prod.snd = some slt →
        ∃ n pat, Glob h n pat slt ∧ fnmatch pat uri = true ∧
          ∀ n' pat' slt', Glob h n' pat' slt' → fnmatch pat' uri = true → n ≤ n') ∧
      ((globs.find? fun e => fnmatch e.1 uri).map Prod.snd = none →
        ∀ n pat slt, Glob h n pat slt → fnmatch pat uri = false) := by
  obtain ⟨l, rfl, hsort, hmem⟩ := ht
  rw [List.find?_map]
  constructor
  · intro slt hfind
    simp only [Option.map_map, Option.map_eq_some_iff] at hfind
    obtain ⟨⟨n, pat, s⟩, hx, hs⟩ := hfind
    obtain ⟨hmatch, l₁, l₂, hl, hbefore⟩ := List.find?_eq_some_iff_append.1 hx
    refine ⟨n, pat, ?_, hmatch, fun n' pat' slt' hg hm => ?_⟩
    · obtain rfl : s = slt := hs
      exact (hmem n pat s).1 (by rw [hl]; simp)
    · -- what stands in front does not match, and what stands behind was registered later
      have hin := (hmem n' pat' slt').2 hg
      rw [hl, List.mem_append, List.mem_cons] at hin
      rcases hin with hin | heq | hin
      · have hno := hbefore _ hin
        simp [hm] at hno
      · exact (Prod.mk.inj heq).1 ▸ Nat.le_refl _
      · rw [hl, List.pairwise_append, List.pairwise_cons] at hsort
        exact Nat.le_of_lt (hsort.2.1.1 _ hin)
  · intro hfind n pat slt hg
    simp only [Option.map_map, Option.map_eq_none_iff] at hfind
    simpa using List.find?_eq_none.1 hfind _ ((hmem n pat slt).2 hg)

/-! ### What the state holds -/

/-- The state is the one that the history says. -/
structure Tracks (functionServlet : C → S) (notFoundServlet : S) (h : List (ServletAct U C S))
    (d : ServletDispatch U S) : Prop where
  datas : ∀ uri slt, d.datas uri = some slt ↔ Exact functionServlet h uri slt
  globs : Timed h d.globs
  default : ∀ slt, d.default = slt ↔ Default notFoundServlet h slt

/-- The servlet that is found is one that the history selects. -/
theorem Tracks.selected {d : ServletDispatch U S} (ht : Tracks functionServlet notFoundServlet h d)
    (fnmatch : U → U → Bool) (uri : U) :
    Selected functionServlet notFoundServlet fnmatch h uri (d.getMatchedServlet fnmatch uri) := by
  unfold ServletDispatch.getMatchedServlet ServletDispatch.getServlet
  obtain ⟨hsome, hnone⟩ := ht.globs.find fnmatch uri
  cases hd : d.datas uri with
  | some slt => exact .exact ((ht.datas uri slt).1 hd)
  | none =>
    have hno : ∀ slt, ¬ Exact functionServlet h uri slt := by
      intro slt hex
      rw [← ht.datas, hd] at hex
      cases hex
    cases hg : d.getGlobServlet fnmatch uri with
    | some slt =>
      obtain ⟨n, pat, hglob, hmatch, hfirst⟩ := hsome slt hg
      exact .glob n pat hno hglob hmatch hfirst
    | none => exact .default hno (hnone hg) ((ht.default _).1 rfl)

/-- A history selects one servlet for a path. -/
theorem Tracks.unique {d : ServletDispatch U S} (ht : Tracks functionServlet notFoundServlet h d)
    {fnmatch : U → U → Bool} {slt' : S}
    (hs : Selected functionServlet notFoundServlet fnmatch h uri slt)
    (hs' : Selected functionServlet notFoundServlet fnmatch h uri slt') : slt = slt' := by
  cases hs with
  | exact hex =>
    cases hs' with
    | exact hex' =>
      exact Option.some.inj (((ht.datas uri slt).2 hex).symm.trans ((ht.datas uri slt').2 hex'))
    | glob n' pat' hno' => exact absurd hex (hno' slt)
    | default hno' => exact absurd hex (hno' slt)
  | glob n pat hno hglob hmatch hfirst =>
    cases hs' with
    | exact hex' => exact absurd hex' (hno slt')
    | glob n' pat' _ hglob' hmatch' hfirst' =>
      have hn : n = n' := Nat.le_antisymm (hfirst n' pat' slt' hglob' hmatch')
        (hfirst' n pat slt hglob hmatch)
      subst hn
      -- the same call registers the same servlet
      obtain ⟨⟨a, ha, hw⟩, -⟩ := hglob
      obtain ⟨⟨a', ha', hw'⟩, -⟩ := hglob'
      obtain rfl : a = a' := Option.some.inj (ha.symm.trans ha')
      have := (Prod.mk.inj (Option.some.inj (hw.symm.trans hw'))).2
      exact Option.some.inj this
    | default _ hnone' => exact absurd hmatch (by simp [hnone' n pat slt hglob])
  | default hno hnone hdflt =>
    cases hs' with
    | exact hex' => exact absurd hex' (hno slt')
    | glob n' pat' _ hglob' hmatch' => exact absurd hmatch' (by simp [hnone n' pat' slt' hglob'])
    | default _ _ hdflt' => exact ((ht.default slt).2 hdflt).symm.trans ((ht.default slt').2 hdflt')

/-! ### What a call does -/

theorem tracks_new : Tracks functionServlet notFoundServlet ([] : List (ServletAct U C S))
    (.new notFoundServlet) where
  datas uri slt := by simp [ServletDispatch.new, Exact, not_lastWrite_nil]
  globs := ⟨[], rfl, .nil, fun n pat slt => by simp [Glob, not_lastWrite_nil]⟩
  default slt := by simp [ServletDispatch.new, Default, not_lastWrite_nil, eq_comm]

/-- A call that changes the list of patterns. -/
theorem Tracks.glob {d : ServletDispatch U S} (ht : Tracks functionServlet notFoundServlet h d)
    {globs : List (U × S)} (hglobs : Timed (h ++ [a]) globs)
    (hdata : a.data functionServlet = none) (hdflt : a.dflt = none) :
    Tracks functionServlet notFoundServlet (h ++ [a]) { d with globs := globs } where
  datas uri slt := by rw [exact_snoc_of_none hdata]; exact ht.datas uri slt
  globs := hglobs
  default slt := by rw [default_snoc_of_none hdflt]; exact ht.default slt

/-- Erasing the first entry of a kind erases all of them, if there is one at most. -/
theorem eraseP_eq_filter {α : Type*} {p : α → Bool} (l : List α)
    (hl : l.Pairwise fun x y => ¬ (p x = true ∧ p y = true)) :
    l.eraseP p = l.filter fun x => !p x := by
  induction l with
  | nil => rfl
  | cons x l ih =>
    rw [List.pairwise_cons] at hl
    cases hx : p x with
    | true =>
      have hrest : l.filter (fun y => !p y) = l := by
        refine List.filter_eq_self.2 fun y hy => ?_
        simpa [hx] using hl.1 y hy
      rw [List.eraseP_cons_of_pos hx, List.filter_cons_of_neg (by simp [hx]), hrest]
    | false =>
      rw [List.eraseP_cons_of_neg (by simp [hx]), List.filter_cons_of_pos (by simp [hx]), ih hl.2]

variable [DecidableEq U]

/-- The list without the entry of a pattern. -/
theorem Timed.erase {globs : List (U × S)} (ht : Timed h globs) (u : U) :
    ∃ l : List (ℕ × U × S), l.map Prod.snd = globs.eraseP (fun e => decide (e.1 = u)) ∧
      l.Pairwise (fun x y => x.1 < y.1) ∧
      ∀ n pat slt, (n, pat, slt) ∈ l ↔ Glob h n pat slt ∧ pat ≠ u := by
  obtain ⟨l, rfl, hsort, hmem⟩ := ht
  refine ⟨l.filter fun e => !decide (e.2.1 = u), ?_, hsort.filter _, fun n pat slt => ?_⟩
  · rw [eraseP_eq_filter, List.filter_map]
    · rfl
    · -- there is one entry for the pattern at most
      rw [List.pairwise_map]
      refine (Timed.patterns hsort hmem).imp fun {x y} hne hxy => ?_
      simp only [decide_eq_true_eq] at hxy
      exact hne (hxy.1.trans hxy.2.symm)
  · simp [hmem]

theorem glob_snoc_of_some {v : Option S} (ha : a.glob = some (u, v)) {n : ℕ} {pat : U} :
    Glob (h ++ [a]) n pat slt ↔
      (pat = u ∧ n = h.length ∧ v = some slt) ∨ (Glob h n pat slt ∧ pat ≠ u) := by
  by_cases hu : pat = u
  · subst hu
    simp [Glob, lastWrite_snoc_of ha, eq_comm]
  · simp [Glob, lastWrite_snoc_of_other ha hu, hu]

/-- `delGlobServlet` -/
theorem Timed.snoc_delete {globs : List (U × S)} (ht : Timed h globs)
    (ha : a.glob = some (u, none)) :
    Timed (h ++ [a]) (globs.eraseP fun e => decide (e.1 = u)) := by
  obtain ⟨l, hl, hsort, hmem⟩ := ht.erase u
  refine ⟨l, hl, hsort, fun n pat slt => ?_⟩
  rw [hmem, glob_snoc_of_some ha]
  simp

/-- `addGlobServlet` -/
theorem Timed.snoc_register {globs : List (U × S)} (ht : Timed h globs)
    (ha : a.glob = some (u, some slt)) :
    Timed (h ++ [a]) ((globs.eraseP fun e => decide (e.1 = u)) ++ [(u, slt)]) := by
  obtain ⟨l, hl, hsort, hmem⟩ := ht.erase u
  refine ⟨l ++ [(h.length, u, slt)], by rw [List.map_append, hl]; rfl, ?_, fun n pat slt' => ?_⟩
  · -- the entry at the end was registered by the last call, and the others before
    refine List.pairwise_append.2 ⟨hsort, List.pairwise_singleton _ _, fun x hx y hy => ?_⟩
    obtain ⟨n, pat, s⟩ := x
    rw [List.mem_singleton.1 hy]
    exact ((hmem n pat s).1 hx).1.lt
  · rw [List.mem_append, hmem, glob_snoc_of_some ha, or_comm]
    simp only [List.mem_singleton, Prod.mk.injEq, Option.some.injEq]
    refine or_congr ⟨?_, ?_⟩ Iff.rfl
    · rintro ⟨hn, hpat, hs⟩
      exact ⟨hpat, hn, hs.symm⟩
    · rintro ⟨hpat, hn, hs⟩
      exact ⟨hn, hpat, hs.symm⟩

/-- A call that registers or deletes under an exact path. -/
theorem Tracks.data {d : ServletDispatch U S} (ht : Tracks functionServlet notFoundServlet h d)
    {v : Option S} (hdata : a.data functionServlet = some (u, v)) (hglob : a.glob = none)
    (hdflt : a.dflt = none) :
    Tracks functionServlet notFoundServlet (h ++ [a])
      { d with datas := Function.update d.datas u v } where
  datas := update_iff ht.datas hdata
  globs := ht.globs.snoc_of_none hglob
  default slt := by rw [default_snoc_of_none hdflt]; exact ht.default slt

theorem Tracks.call {d : ServletDispatch U S} (ht : Tracks functionServlet notFoundServlet h d)
    (a : ServletAct U C S) :
    Tracks functionServlet notFoundServlet (h ++ [a]) (d.call functionServlet a) := by
  cases a with
  | addServlet uri slt => exact ht.data rfl rfl rfl
  | addFunction uri cb => exact ht.data rfl rfl rfl
  | delServlet uri => exact ht.data rfl rfl rfl
  | addGlobServlet uri slt => exact ht.glob (ht.globs.snoc_register rfl) rfl rfl
  | delGlobServlet uri => exact ht.glob (ht.globs.snoc_delete rfl) rfl rfl
  | setDefault slt =>
    refine ⟨fun uri s => ?_, ht.globs.snoc_of_none rfl, fun s => ?_⟩
    · rw [exact_snoc_of_none rfl]
      exact ht.datas uri s
    · have hlast : ∀ n v, LastWrite ServletAct.dflt (h ++ [.setDefault slt]) () n v ↔
          n = h.length ∧ v = slt := fun n v => lastWrite_snoc_of rfl
      simp only [ServletDispatch.call, ServletDispatch.setDefault, Default, hlast]
      constructor
      · rintro rfl
        exact .inl ⟨_, rfl, rfl⟩
      · rintro (⟨n, -, rfl⟩ | ⟨hno, -⟩)
        · rfl
        · exact absurd ⟨rfl, rfl⟩ (hno h.length slt)

theorem tracks_run (functionServlet : C → S) (notFoundServlet : S)
    (h : List (ServletAct U C S)) :
    Tracks functionServlet notFoundServlet h
      (ServletDispatch.run functionServlet notFoundServlet h) := by
  induction h using List.reverseRecOn with
  | nil => exact tracks_new
  | append_singleton h a ih =>
    rw [ServletDispatch.run, List.foldl_append]
    exact ih.call a

end

/-- **Servlet dispatch.**  After every history of calls and for every path, `getMatchedServlet`
returns the servlet that was last registered for exactly this path and not deleted since, otherwise
that of the first matching pattern in the order of the last registrations, otherwise the default;
and no two entries of `m_globs` have the same pattern. -/
theorem getMatchedServlet_iff [DecidableEq U] (functionServlet : C → S) (notFoundServlet : S)
    (fnmatch : U → U → Bool) (h : List (ServletAct U C S)) :
    (∀ uri slt, (ServletDispatch.run functionServlet notFoundServlet h).getMatchedServlet
        fnmatch uri = slt ↔ Selected functionServlet notFoundServlet fnmatch h uri slt) ∧
      ((ServletDispatch.run functionServlet notFoundServlet h).globs.map Prod.fst).Nodup := by
  have ht := tracks_run functionServlet notFoundServlet h
  refine ⟨fun uri slt => ⟨?_, fun hs => ?_⟩, ht.globs.nodup⟩
  · rintro rfl
    exact ht.selected fnmatch uri
  · exact ht.unique (ht.selected fnmatch uri) hs

/-- Paths and patterns are numbers here, and a pattern matches its multiples.  The pattern 3 is
registered again and so comes behind 2. -/
example : (ServletDispatch.run (id : ℕ → ℕ) 404 [.addGlobServlet 3 1, .addGlobServlet 2 5,
      .addGlobServlet 3 7, .addFunction 12 9, .delServlet 12]).getMatchedServlet
        (fun pat uri => uri % pat == 0) 12 = 5 := by
  decide

end Http

end YXTWebCpp
