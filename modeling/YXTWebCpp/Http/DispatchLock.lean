import YXTWebCpp.Http.Servlet
import YXTWebCpp.LTS.Guard

/-!
# The lock of the servlet dispatch

The operations of `ServletDispatch` (`servlet.cpp`) hold `m_mutex` in scoped guards, and some of
them call one another.

* `Dispatch.addServlet`, … : the operations with their guards.
* `DispatchCall` : what a thread calls, the calls of the servlets included.
* `DispatchCall.disciplined_iff` : **the lock is never entered again**, exactly where nobody
  registers a function for a pattern.
-/

namespace YXTWebCpp

namespace Http

open LockOp Locked

variable {U C S : Type} [DecidableEq U]

namespace Dispatch

/-! ### The operations -/

/-- `addServlet` -/
def addServlet (uri : U) (slt : S) : Locked (ServletDispatch U S) Unit :=
  guarded .exclusive (access fun d => ((), d.addServlet uri slt))

/-- `delServlet` -/
def delServlet (uri : U) : Locked (ServletDispatch U S) Unit :=
  guarded .exclusive (access fun d => ((), d.delServlet uri))

/-- `delGlobServlet` -/
def delGlobServlet (uri : U) : Locked (ServletDispatch U S) Unit :=
  guarded .exclusive (access fun d => ((), d.delGlobServlet uri))

/-- `addGlobServlet` with a servlet. -/
def addGlobServlet (uri : U) (slt : S) : Locked (ServletDispatch U S) Unit := do
  delGlobServlet uri
  guarded .exclusive (access fun d => ((), { d with globs := d.globs ++ [(uri, slt)] }))

/-- `addGlobServlet` with a function. -/
def addGlobFunction (functionServlet : C → S) (uri : U) (cb : C) :
    Locked (ServletDispatch U S) Unit :=
  guarded .exclusive (addGlobServlet uri (functionServlet cb))

omit [DecidableEq U]

/-- `getServlet` -/
def getServlet (uri : U) : Locked (ServletDispatch U S) (Option S) :=
  guarded .shared (access fun d => (d.getServlet uri, d))

/-- `getGlobServlet` -/
def getGlobServlet (fnmatch : U → U → Bool) (uri : U) : Locked (ServletDispatch U S) (Option S) :=
  guarded .shared (access fun d => (d.getGlobServlet fnmatch uri, d))

/-- `getMatchedServlet` -/
def getMatchedServlet (fnmatch : U → U → Bool) (uri : U) : Locked (ServletDispatch U S) S := do
  match ← getServlet uri with
  | some slt => return slt
  | none =>
    match ← getGlobServlet fnmatch uri with
    | some slt => return slt
    | none => guarded .shared (access fun d => (d.default, d))

end Dispatch

/-- What a thread calls. -/
inductive DispatchCall (U C S : Type) where
  | addServlet (uri : U) (slt : S)
  /-- `addServlet` with a function. -/
  | addFunction (uri : U) (cb : C)
  | addGlobServlet (uri : U) (slt : S)
  /-- `addGlobServlet` with a function. -/
  | addGlobFunction (uri : U) (cb : C)
  | delServlet (uri : U)
  | delGlobServlet (uri : U)
  | getServlet (uri : U)
  | getGlobServlet (uri : U)
  | getMatchedServlet (uri : U)
  /-- `handle` for a path, whose servlet makes the calls `servlet`. -/
  | handle (path : U) (servlet : DispatchCall U C S)
  /-- A servlet that calls nothing. -/
  | nothing
  /-- Two calls, one after the other. -/
  | andThen (first second : DispatchCall U C S)

namespace DispatchCall

section

variable (functionServlet : C → S) (fnmatch : U → U → Bool)

/-- The call, with all the calls that it makes. -/
def perform : DispatchCall U C S → Locked (ServletDispatch U S) Unit
  | addServlet uri slt => Dispatch.addServlet uri slt
  | addFunction uri cb => Dispatch.addServlet uri (functionServlet cb)
  | addGlobServlet uri slt => Dispatch.addGlobServlet uri slt
  | addGlobFunction uri cb => Dispatch.addGlobFunction functionServlet uri cb
  | delServlet uri => Dispatch.delServlet uri
  | delGlobServlet uri => Dispatch.delGlobServlet uri
  | getServlet uri => ignoring (Dispatch.getServlet uri)
  | getGlobServlet uri => ignoring (Dispatch.getGlobServlet fnmatch uri)
  | getMatchedServlet uri => ignoring (Dispatch.getMatchedServlet fnmatch uri)
  | handle path servlet => do
    ignoring (Dispatch.getMatchedServlet fnmatch path)
    perform servlet
  | nothing => return
  | andThen first second => do
    perform first
    perform second

end

/-- Nobody registers a function for a pattern. -/
def Plain : DispatchCall U C S → Prop
  | addGlobFunction _ _ => False
  | handle _ servlet => servlet.Plain
  | andThen first second => first.Plain ∧ second.Plain
  | _ => True

end DispatchCall

/-! ### What the operations do -/

section

variable (fnmatch : U → U → Bool) (d : ServletDispatch U S) (uri : U)

theorem state_addGlobServlet (slt : S) :
    (Dispatch.addGlobServlet uri slt d).state = d.addGlobServlet uri slt := rfl

omit [DecidableEq U] in
theorem value_getMatchedServlet : (Dispatch.getMatchedServlet fnmatch uri d).value =
    d.getMatchedServlet fnmatch uri := by
  simp only [Dispatch.getMatchedServlet, ServletDispatch.getMatchedServlet, Dispatch.getServlet,
    bind_value, guarded_access_value, guarded_access_state]
  cases d.getServlet uri with
  | some slt => rfl
  | none =>
    simp only [Dispatch.getGlobServlet, bind_value, guarded_access_value, guarded_access_state]
    cases d.getGlobServlet fnmatch uri <;> rfl

end

/-! ### What they do to the lock -/

section

variable {d : ServletDispatch U S}

omit [DecidableEq U] in
/-- A guard around one access. -/
theorem run_section {α : Type} (m : Mode)
    (f : ServletDispatch U S → α × ServletDispatch U S) :
    run [] (guarded m (access f) d).ops = some [] :=
  run_guarded (fun _ hmem => absurd hmem List.not_mem_nil) rfl

theorem run_addGlobServlet (uri : U) (slt : S) :
    run [] (Dispatch.addGlobServlet uri slt d).ops = some [] := by
  rw [Dispatch.addGlobServlet, run_bind, Dispatch.delGlobServlet, run_section]
  exact run_section _ _

/-- The lock is held for writing when `delGlobServlet` asks for it. -/
theorem run_addGlobFunction (functionServlet : C → S) (uri : U) (cb : C) :
    run [] (Dispatch.addGlobFunction functionServlet uri cb d).ops = none :=
  run_guarded_of_none (if_pos ⟨.exclusive, List.mem_singleton_self _, trivial⟩)

omit [DecidableEq U] in
theorem run_getMatchedServlet (fnmatch : U → U → Bool) (uri : U) :
    run [] (Dispatch.getMatchedServlet fnmatch uri d).ops = some [] := by
  rw [Dispatch.getMatchedServlet, run_bind, Dispatch.getServlet, run_section, Option.bind_some,
    guarded_access_value, guarded_access_state]
  cases d.getServlet uri with
  | some slt => rfl
  | none =>
    show run [] ((Dispatch.getGlobServlet fnmatch uri >>= _) d).ops = some []
    rw [run_bind, Dispatch.getGlobServlet, run_section, Option.bind_some, guarded_access_value,
      guarded_access_state]
    cases d.getGlobServlet fnmatch uri with
    | some slt => rfl
    | none => exact run_section _ _

end

namespace DispatchCall

variable (functionServlet : C → S) (fnmatch : U → U → Bool)

/-- A call is in order, or the thread comes to wait for itself. -/
theorem run_perform (call : DispatchCall U C S) (d : ServletDispatch U S) :
    (call.Plain → run [] (call.perform functionServlet fnmatch d).ops = some []) ∧
      (¬ call.Plain → run [] (call.perform functionServlet fnmatch d).ops = none) := by
  induction call generalizing d with
  | addServlet uri slt => exact ⟨fun _ => run_section _ _, fun h => absurd trivial h⟩
  | addFunction uri cb => exact ⟨fun _ => run_section _ _, fun h => absurd trivial h⟩
  | addGlobServlet uri slt => exact ⟨fun _ => run_addGlobServlet uri slt, fun h => absurd trivial h⟩
  | addGlobFunction uri cb =>
    exact ⟨False.elim, fun _ => run_addGlobFunction functionServlet uri cb⟩
  | delServlet uri => exact ⟨fun _ => run_section _ _, fun h => absurd trivial h⟩
  | delGlobServlet uri => exact ⟨fun _ => run_section _ _, fun h => absurd trivial h⟩
  | getServlet uri =>
    exact ⟨fun _ => run_section .shared fun d => (d.getServlet uri, d), fun h => absurd trivial h⟩
  | getGlobServlet uri =>
    exact ⟨fun _ => run_section .shared fun d => (d.getGlobServlet fnmatch uri, d),
      fun h => absurd trivial h⟩
  | getMatchedServlet uri =>
    exact ⟨fun _ => run_getMatchedServlet fnmatch uri, fun h => absurd trivial h⟩
  | handle path servlet ih =>
    have hmatched : run [] ((handle path servlet).perform functionServlet fnmatch d).ops =
        run [] (servlet.perform functionServlet fnmatch
          (Dispatch.getMatchedServlet fnmatch path d).state).ops := by
      rw [perform, run_bind, ignoring_ops, run_getMatchedServlet]
      rfl
    rw [hmatched]
    exact ih _
  | nothing => exact ⟨fun _ => rfl, fun h => absurd trivial h⟩
  | andThen first second ih₁ ih₂ =>
    obtain ⟨hfirst, hfirst'⟩ := ih₁ d
    obtain ⟨hsecond, hsecond'⟩ := ih₂ (first.perform functionServlet fnmatch d).state
    rw [perform, run_bind]
    by_cases h : first.Plain
    · rw [hfirst h, Option.bind_some]
      exact ⟨fun hplain => hsecond hplain.2, fun hplain => hsecond' fun hs => hplain ⟨h, hs⟩⟩
    · rw [hfirst' h]
      exact ⟨fun hplain => absurd hplain.1 h, fun _ => rfl⟩

/-- **The lock of the dispatch** is never entered again by a thread that holds it, and is released
as often as it is taken, exactly if no function is registered for a pattern. -/
theorem disciplined_iff (call : DispatchCall U C S) (d : ServletDispatch U S) :
    Disciplined (call.perform functionServlet fnmatch d).ops ↔ call.Plain := by
  obtain ⟨hplain, hnot⟩ := run_perform functionServlet fnmatch call d
  refine ⟨fun h => ?_, hplain⟩
  by_contra hcall
  exact Option.some_ne_none _ (h.symm.trans (hnot hcall))

/-- **A thread waits for itself**: `addGlobServlet` with a function holds the lock for writing when
`delGlobServlet` asks for it. -/
theorem not_disciplined_addGlobFunction :
    ((addGlobFunction 3 7 : DispatchCall ℕ ℕ ℕ).perform id (fun pat uri => uri % pat == 0)
      (.new 404)).ops = [.acquire .exclusive, .acquire .exclusive, .release, .acquire .exclusive,
        .release, .release] ∧
    ¬ Disciplined ((addGlobFunction 3 7 : DispatchCall ℕ ℕ ℕ).perform id
      (fun pat uri => uri % pat == 0) (.new 404)).ops := by
  refine ⟨rfl, ?_⟩
  show ¬ Disciplined [.acquire .exclusive, .acquire .exclusive, .release, .acquire .exclusive,
    .release, .release]
  decide

end DispatchCall

end Http

end YXTWebCpp
