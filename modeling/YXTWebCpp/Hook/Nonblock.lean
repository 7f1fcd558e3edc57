import YXTWebCpp.Hook.Setsockopt
import YXTWebCpp.LTS.Basic

/-!
# Calls that do not block the thread

A hooked I/O call (`do_io` in `hook.cpp`) suspends its fiber when the original function says that it
would block.  That function must not block the thread, so `FdContext::init` makes the sockets that
the `FdManager` looks after non-blocking.  The hooks of `socket`, `accept`, `close` and `ioctl` have
to keep the contexts and the flags of the kernel in step; `fcntl` and the other functions that open
descriptors are not hooked.

* `File`, `Descriptors` : what the kernel and the `FdManager` know of the descriptors.
* `descriptors` : calls of the functions that open, close and change descriptors, one after another.
* `Descriptors.route` : what `do_io` does with a descriptor.
* `Spared` : the calls on a descriptor that is a socket are suspended and do not block.
* `Hooked` : sockets are opened and closed with the hooks, and stay non-blocking.
* `no_call_blocks` : **then no hooked call blocks the thread**; any other action can lead to one
  that is not spared.
-/

namespace YXTWebCpp

namespace Hook

open Fd

/-- What the kernel knows of an open descriptor. -/
structure File where
  isSocket : Bool
  /-- `O_NONBLOCK` -/
  nonblock : Bool
  deriving DecidableEq

/-- The descriptors of a process. -/
structure Descriptors where
  /-- The open descriptors. -/
  kernel : ℕ → Option File
  /-- `FdMgr` -/
  manager : FdManager

/-- The calls. -/
inductive DescriptorAct where
  /-- `socket`, in a thread with or without hooks; the kernel returns `fd`, and `nonblock` says
  whether `SOCK_NONBLOCK` is given. -/
  | socket (hook : Bool) (fd : ℕ) (nonblock : Bool)
  /-- `accept`; the kernel returns `fd`. -/
  | accept (fd : ℕ)
  /-- A descriptor is opened by a function that is not hooked. -/
  | openFile (fd : ℕ) (file : File)
  /-- `close`, in a thread with or without hooks. -/
  | close (hook : Bool) (fd : ℕ)
  /-- `ioctl(fd, FIONBIO, &arg)`; the hook does not ask whether the thread has hooks. -/
  | ioctl (fd : ℕ) (arg : Bool)
  /-- `fcntl(fd, F_SETFL, flags)`; `Socket::accept` clears the flag in a thread without hooks. -/
  | fcntl (fd : ℕ) (nonblock : Bool)

/-- What `do_io` does. -/
inductive Route where
  /-- It calls the original function, and that is all. -/
  | original
  /-- It returns `EBADF`. -/
  | badf
  /-- It calls the original function in a loop, and suspends the fiber on `EAGAIN`. -/
  | loop
  deriving DecidableEq

namespace Descriptors

variable (s : Descriptors)

/-- The start of `do_io`, in a thread with hooks. -/
def route (fd : ℕ) : Route :=
  match s.manager.lookup fd with
  | none => .original
  | some c =>
    if (s.manager.heap c).isClosed then .badf
    else if !(s.manager.heap c).isSocket then .original
    else .loop

/-- What `fstat` says. -/
def fstat (fd : ℕ) : Option Bool := (s.kernel fd).map File.isSocket

/-- `O_NONBLOCK` of a descriptor is set to `v`. -/
def setNonblock (fd : ℕ) (v : Bool) : Descriptors :=
  { s with
    kernel := Function.update s.kernel fd ((s.kernel fd).map fun f => { f with nonblock := v }) }

/-- `FdContext::init` of a new context: a socket is made non-blocking. -/
def initFlags (fd : ℕ) : Descriptors :=
  if s.fstat fd = some true then s.setNonblock fd true else s

/-- `FdMgr::get(fd, true)`; `none` if `m_datas[fd]` is out of bounds. -/
def getOrCreate (fd : ℕ) : Option Descriptors :=
  match s.manager.lookup fd with
  | some _ => some s
  | none =>
    (s.manager.create fd (s.fstat fd)).map fun m => { s.initFlags fd with manager := m }

/-- The kernel opens a descriptor. -/
def opened (fd : ℕ) (file : File) : Descriptors :=
  { s with kernel := Function.update s.kernel fd (some file) }

/-- The hook of `close`. -/
def close (hook : Bool) (fd : ℕ) : Descriptors where
  kernel := Function.update s.kernel fd none
  manager := if hook = true ∧ s.manager.lookup fd ≠ none then s.manager.del fd else s.manager

/-- `setUserNonblock` of the context at `c`. -/
def setUserNonblock (c : ℕ) (v : Bool) : Descriptors :=
  { s with
    manager.heap := Function.update s.manager.heap c { s.manager.heap c with userNonblock := v } }

/-- The hook of `ioctl` with `FIONBIO`. -/
def ioctl (fd : ℕ) (arg : Bool) : Descriptors :=
  match s.manager.lookup fd with
  | none => s.setNonblock fd arg
  | some c =>
    if (s.manager.heap c).isClosed ∨ (s.manager.heap c).isSocket = false then s.setNonblock fd arg
    else (s.setUserNonblock c arg).setNonblock fd arg

/-- What a call does; the kernel returns descriptors that are not open. -/
def step : DescriptorAct → Option Descriptors
  | .socket hook fd nonblock =>
    if s.kernel fd ≠ none then none
    else if hook then (s.opened fd ⟨true, nonblock⟩).getOrCreate fd
    else some (s.opened fd ⟨true, nonblock⟩)
  | .accept fd =>
    if s.kernel fd ≠ none then none else (s.opened fd ⟨true, false⟩).getOrCreate fd
  | .openFile fd file => if s.kernel fd ≠ none then none else some (s.opened fd file)
  | .close hook fd => if s.kernel fd = none then none else some (s.close hook fd)
  | .ioctl fd arg => if s.kernel fd = none then none else some (s.ioctl fd arg)
  | .fcntl fd nonblock => if s.kernel fd = none then none else some (s.setNonblock fd nonblock)

/-- A call on the descriptor is suspended instead of blocking the thread, if it is a socket. -/
def Spared (fd : ℕ) : Prop :=
  ∀ f, s.kernel fd = some f → f.isSocket = true → s.route fd = .loop ∧ f.nonblock = true

end Descriptors

/-- Calls one after another.  At first no socket is open, and nothing is looked after. -/
def descriptors : System Descriptors DescriptorAct where
  init s := (∀ fd f, s.kernel fd = some f → f.isSocket = false) ∧ ∃ heap, s.manager = .new heap
  step s a := s.step a

/-- The sockets are opened and closed with the hooks, and are not made blocking. -/
def Hooked (s : Descriptors) : DescriptorAct → Prop
  | .socket hook _ _ => hook = true
  | .accept _ => True
  | .openFile _ file => file.isSocket = false
  | .close hook fd => hook = true ∨ s.manager.lookup fd = none
  | .ioctl fd v | .fcntl fd v => v = true ∨ s.fstat fd = some false

/-! ### Contexts and flags -/

/-- The contexts are those of the open sockets, which are non-blocking. -/
structure Guarded (s : Descriptors) : Prop where
  length : 64 ≤ s.manager.datas.length
  fresh : ∀ fd c, s.manager.lookup fd = some c → c < s.manager.next
  owned : ∀ fd c, s.manager.lookup fd = some c → s.fstat fd = some true ∧
    (s.manager.heap c).isSocket = true ∧ (s.manager.heap c).isClosed = false
  flagged : ∀ fd f, s.kernel fd = some f → f.isSocket = true →
    s.manager.lookup fd ≠ none ∧ f.nonblock = true

theorem kernel_setNonblock (s : Descriptors) (fd : ℕ) (v : Bool) (fd' : ℕ) :
    (s.setNonblock fd v).kernel fd' =
      if fd' = fd then (s.kernel fd).map fun f => { f with nonblock := v } else s.kernel fd' :=
  Function.update_apply _ _ _ _

theorem kernel_opened (s : Descriptors) (fd : ℕ) (file : File) (fd' : ℕ) :
    (s.opened fd file).kernel fd' = if fd' = fd then some file else s.kernel fd' :=
  Function.update_apply _ _ _ _

theorem kernel_close (s : Descriptors) (hook : Bool) (fd fd' : ℕ) :
    (s.close hook fd).kernel fd' = if fd' = fd then none else s.kernel fd' :=
  Function.update_apply _ _ _ _

theorem fstat_eq_some {s : Descriptors} {fd : ℕ} {b : Bool} :
    s.fstat fd = some b ↔ ∃ f, s.kernel fd = some f ∧ f.isSocket = b := Option.map_eq_some_iff

theorem fstat_setNonblock (s : Descriptors) (fd : ℕ) (v : Bool) (fd' : ℕ) :
    (s.setNonblock fd v).fstat fd' = s.fstat fd' := by
  rw [Descriptors.fstat, kernel_setNonblock, Descriptors.fstat]
  split_ifs with hfd
  · rw [hfd, Option.map_map]
    rfl
  · rfl

theorem heap_create {m m' : FdManager} {fd : ℕ} {stat : Option Bool}
    (h : m.create fd stat = some m') : m'.heap = Function.update m.heap m.next (.new fd stat) := by
  unfold FdManager.create at h
  simp only at h
  split_ifs at h
  rw [← Option.some.inj h]

namespace Guarded

variable {s s' : Descriptors} {fd : ℕ}

theorem spared (h : Guarded s) (fd : ℕ) : s.Spared fd := by
  intro f hf hsocket
  obtain ⟨hlookup, hnonblock⟩ := h.flagged fd f hf hsocket
  refine ⟨?_, hnonblock⟩
  rw [Descriptors.route]
  cases hc : s.manager.lookup fd with
  | none => exact absurd hc hlookup
  | some c =>
    obtain ⟨-, hcontext, hclosed⟩ := h.owned fd c hc
    simp only [hcontext, hclosed, Bool.not_true, Bool.false_eq_true, if_false]

/-- A descriptor that is not open has no context. -/
theorem lookup_eq_none (h : Guarded s) (hfd : s.kernel fd = none) :
    s.manager.lookup fd = none := by
  cases hc : s.manager.lookup fd with
  | none => rfl
  | some c =>
    have := (h.owned fd c hc).1
    rw [Descriptors.fstat, hfd] at this
    cases this

/-- A new socket gets a context, and is made non-blocking. -/
theorem socket (h : Guarded s) (hfd : s.kernel fd = none) {nonblock : Bool}
    (hs : (s.opened fd ⟨true, nonblock⟩).getOrCreate fd = some s') : Guarded s' := by
  have hnone : (s.opened fd ⟨true, nonblock⟩).manager.lookup fd = none := h.lookup_eq_none hfd
  have hstat : (s.opened fd ⟨true, nonblock⟩).fstat fd = some true := by
    rw [Descriptors.fstat, kernel_opened, if_pos rfl]
    rfl
  obtain ⟨m, hm, hlength, hnext, hlookup⟩ := FdManager.create_eq h.length fd (some true)
  have hm' : (s.opened fd ⟨true, nonblock⟩).manager.create fd (some true) = some m := hm
  rw [Descriptors.getOrCreate, hnone, hstat] at hs
  simp only [hm', Option.map_some, Option.some.injEq] at hs
  subst hs
  have hkernel : ∀ fd', ((s.opened fd ⟨true, nonblock⟩).initFlags fd).kernel fd' =
      if fd' = fd then some ⟨true, true⟩ else s.kernel fd' := by
    intro fd'
    rw [Descriptors.initFlags, if_pos hstat, kernel_setNonblock, kernel_opened, kernel_opened,
      if_pos rfl]
    split_ifs <;> rfl
  have hheap := heap_create hm
  refine ⟨hlength, fun fd' c hc => ?_, fun fd' c hc => ?_, fun fd' f hf hsocket => ?_⟩
  · rw [hlookup] at hc
    rw [hnext]
    split_ifs at hc
    · rw [← Option.some.inj hc]
      exact Nat.lt_succ_self _
    · exact (h.fresh fd' c hc).trans (Nat.lt_succ_self _)
  · rw [fstat_eq_some]
    simp only [hkernel, hheap]
    rw [hlookup] at hc
    split_ifs at hc ⊢ with hfd'
    · obtain rfl := Option.some.inj hc
      rw [Function.update_self]
      exact ⟨⟨_, rfl, rfl⟩, rfl, rfl⟩
    · rw [Function.update_of_ne (h.fresh fd' c hc).ne]
      exact ⟨fstat_eq_some.1 (h.owned fd' c hc).1, (h.owned fd' c hc).2⟩
  · simp only [hkernel] at hf
    show m.lookup fd' ≠ none ∧ _
    rw [hlookup]
    split_ifs at hf ⊢
    · rw [← Option.some.inj hf]
      exact ⟨Option.some_ne_none _, rfl⟩
    · exact h.flagged fd' f hf hsocket

theorem setNonblock (h : Guarded s) {v : Bool} (hv : v = true ∨ s.fstat fd = some false) :
    Guarded (s.setNonblock fd v) := by
  refine ⟨h.length, h.fresh, fun fd' c hc => ?_, fun fd' f hf hsocket => ?_⟩
  · rw [fstat_setNonblock]
    exact h.owned fd' c hc
  · by_cases hfd : fd' = fd
    · subst hfd
      rw [kernel_setNonblock, if_pos rfl, Option.map_eq_some_iff] at hf
      obtain ⟨g, hg, rfl⟩ := hf
      refine ⟨(h.flagged fd' g hg hsocket).1, hv.resolve_right fun hstat => ?_⟩
      rw [Descriptors.fstat, hg, Option.map_some] at hstat
      exact Bool.false_ne_true ((Option.some.inj hstat).symm.trans hsocket)
    · rw [kernel_setNonblock, if_neg hfd] at hf
      exact h.flagged fd' f hf hsocket

theorem setUserNonblock (h : Guarded s) (c : ℕ) (v : Bool) : Guarded (s.setUserNonblock c v) := by
  refine ⟨h.length, h.fresh, fun fd' c' hc' => ?_, h.flagged⟩
  obtain ⟨hstat, hsocket, hclosed⟩ := h.owned fd' c' hc'
  show _ ∧ (Function.update s.manager.heap c _ c').isSocket = true ∧
    (Function.update s.manager.heap c _ c').isClosed = false
  rw [Function.update_apply]
  split_ifs with hcc
  · subst hcc
    exact ⟨hstat, hsocket, hclosed⟩
  · exact ⟨hstat, hsocket, hclosed⟩

theorem close (h : Guarded s) {hook : Bool} (hhook : hook = true ∨ s.manager.lookup fd = none) :
    Guarded (s.close hook fd) := by
  have hlookup : ∀ fd', (s.close hook fd).manager.lookup fd' =
      if fd' = fd then none else s.manager.lookup fd' := by
    intro fd'
    rw [Descriptors.close]
    by_cases hdel : hook = true ∧ s.manager.lookup fd ≠ none
    · rw [if_pos hdel, FdManager.lookup_del]
    · have hnone : s.manager.lookup fd = none :=
        hhook.elim (fun ht => not_not.1 fun hn => hdel ⟨ht, hn⟩) id
      rw [if_neg hdel]
      split_ifs with hfd
      · rw [hfd, hnone]
      · rfl
  have hmanager : (s.close hook fd).manager.heap = s.manager.heap ∧
      (s.close hook fd).manager.next = s.manager.next ∧
      (s.close hook fd).manager.datas.length = s.manager.datas.length := by
    rw [Descriptors.close]
    split_ifs
    · refine ⟨?_, FdManager.next_del _ _, FdManager.length_del _ _⟩
      unfold FdManager.del
      split_ifs <;> rfl
    · exact ⟨rfl, rfl, rfl⟩
  obtain ⟨hheap, hnext, hlength⟩ := hmanager
  refine ⟨hlength.symm ▸ h.length, fun fd' c hc => ?_, fun fd' c hc => ?_,
    fun fd' f hf hsocket => ?_⟩
  · rw [hlookup] at hc
    split_ifs at hc
    rw [hnext]
    exact h.fresh fd' c hc
  · rw [hlookup] at hc
    split_ifs at hc with hfd
    rw [Descriptors.fstat, kernel_close, if_neg hfd, hheap]
    exact h.owned fd' c hc
  · rw [kernel_close] at hf
    rw [hlookup]
    split_ifs at hf ⊢
    exact h.flagged fd' f hf hsocket

theorem step (h : Guarded s) {a : DescriptorAct} (ha : Hooked s a) (hs : s.step a = some s') :
    Guarded s' := by
  cases a with
  | socket hook fd nonblock =>
    obtain rfl : hook = true := ha
    rw [Descriptors.step, if_pos rfl] at hs
    split_ifs at hs with hfd
    exact h.socket (not_not.1 hfd) hs
  | accept fd =>
    rw [Descriptors.step] at hs
    split_ifs at hs with hfd
    exact h.socket (not_not.1 hfd) hs
  | openFile fd file =>
    rw [Descriptors.step] at hs
    split_ifs at hs with hfd
    obtain rfl := Option.some.inj hs
    have hnone : s.manager.lookup fd = none := h.lookup_eq_none (not_not.1 hfd)
    refine ⟨h.length, h.fresh, fun fd' c hc => ?_, fun fd' f hf hsocket => ?_⟩
    · have hne : fd' ≠ fd := fun heq => by
        rw [heq] at hc
        exact Option.some_ne_none c (hc.symm.trans hnone)
      rw [Descriptors.fstat, kernel_opened, if_neg hne]
      exact h.owned fd' c hc
    · rw [kernel_opened] at hf
      split_ifs at hf
      · rw [← Option.some.inj hf] at hsocket
        exact absurd (hsocket.symm.trans ha) Bool.true_eq_false.mp
      · exact h.flagged fd' f hf hsocket
  | close hook fd =>
    rw [Descriptors.step] at hs
    split_ifs at hs
    obtain rfl := Option.some.inj hs
    exact h.close ha
  | ioctl fd arg =>
    rw [Descriptors.step] at hs
    split_ifs at hs
    obtain rfl := Option.some.inj hs
    unfold Descriptors.ioctl
    cases s.manager.lookup fd with
    | none => exact h.setNonblock ha
    | some c =>
      show Guarded (if _ then s.setNonblock fd arg
        else (s.setUserNonblock c arg).setNonblock fd arg)
      split_ifs
      · exact h.setNonblock ha
      · exact (h.setUserNonblock c arg).setNonblock ha
  | fcntl fd nonblock =>
    rw [Descriptors.step] at hs
    split_ifs at hs
    obtain rfl := Option.some.inj hs
    exact h.setNonblock ha

/-- A socket that has been opened without a context is not spared. -/
theorem not_spared_opened (h : Guarded s) (hfd : s.kernel fd = none) {file : File}
    (hfile : file.isSocket = true) : ¬ (s.opened fd file).Spared fd := by
  intro hspared
  have hroute := (hspared file (by rw [kernel_opened, if_pos rfl]) hfile).1
  have hnone : (s.opened fd file).manager.lookup fd = none := h.lookup_eq_none hfd
  rw [Descriptors.route, hnone] at hroute
  cases hroute

end Guarded

theorem guarded_of_reachable {s : Descriptors} (h : descriptors.ReachableWhen Hooked s) :
    Guarded s := by
  refine h.invariant (I := Guarded) ?_ fun _ _ _ _ hg ha hs => hg.step ha hs
  rintro s ⟨hkernel, heap, hmanager⟩
  have hlookup : ∀ fd, s.manager.lookup fd = none := by
    intro fd
    rw [hmanager, FdManager.lookup, FdManager.new, List.getElem?_replicate]
    split_ifs <;> rfl
  refine ⟨?_, fun fd c hc => ?_, fun fd c hc => ?_, fun fd f hf hsocket => ?_⟩
  · rw [hmanager]
    exact (List.length_replicate).ge
  · rw [hlookup] at hc
    cases hc
  · rw [hlookup] at hc
    cases hc
  · exact absurd (hsocket.symm.trans (hkernel fd f hf)) Bool.true_eq_false.mp

/-- A socket that is blocking. -/
theorem not_spared_blocking {s : Descriptors} {fd : ℕ} {f : File} (hf : s.kernel fd = some f)
    (hsocket : f.isSocket = true) (hblock : f.nonblock = false) : ¬ s.Spared fd := fun h =>
  absurd ((h f hf hsocket).2.symm.trans hblock) Bool.true_eq_false.mp

/-- `O_NONBLOCK` of a socket is cleared. -/
theorem not_spared_setNonblock {s : Descriptors} {fd : ℕ} {v : Bool} (hopen : s.kernel fd ≠ none)
    (hv : ¬ (v = true ∨ s.fstat fd = some false)) : ¬ (s.setNonblock fd v).Spared fd := by
  obtain ⟨f, hf⟩ := Option.ne_none_iff_exists'.1 hopen
  have hsocket : f.isSocket = true := by
    rw [Descriptors.fstat, hf] at hv
    simpa using fun hfalse => hv (.inr (congrArg some hfalse))
  refine not_spared_blocking (f := { f with nonblock := v }) ?_ hsocket ?_
  · rw [kernel_setNonblock, if_pos rfl, hf]
    rfl
  · simpa using fun htrue => hv (.inl htrue)

/-- **No hooked call blocks the thread** as long as sockets are opened and closed with the hooks and
stay non-blocking: a call on a socket is always suspended instead.  Any other action leads to a
socket for which this does not hold, at once or when the kernel uses the number of a descriptor
again that was closed behind the back of the `FdManager`. -/
theorem no_call_blocks :
    (∀ s, descriptors.ReachableWhen Hooked s → ∀ fd, s.Spared fd) ∧
      ∀ s a s', descriptors.ReachableWhen Hooked s → descriptors.step s a = some s' →
        ¬ Hooked s a → ∃ s'' fd, descriptors.Leads Hooked s' s'' ∧ ¬ s''.Spared fd := by
  refine ⟨fun s h fd => (guarded_of_reachable h).spared fd, fun s a s' h hs ha => ?_⟩
  replace h := guarded_of_reachable h
  replace hs : s.step a = some s' := hs
  cases a with
  | socket hook fd nonblock =>
    obtain rfl : hook = false := Bool.eq_false_iff.2 ha
    rw [Descriptors.step, if_neg Bool.false_ne_true] at hs
    split_ifs at hs with hfd
    obtain rfl := Option.some.inj hs
    exact ⟨_, fd, .refl, h.not_spared_opened (not_not.1 hfd) rfl⟩
  | accept fd => exact absurd trivial ha
  | openFile fd file =>
    rw [Descriptors.step] at hs
    split_ifs at hs with hfd
    obtain rfl := Option.some.inj hs
    exact ⟨_, fd, .refl, h.not_spared_opened (not_not.1 hfd) (Bool.eq_true_of_not_eq_false ha)⟩
  | close hook fd =>
    rw [Descriptors.step] at hs
    split_ifs at hs
    obtain rfl := Option.some.inj hs
    have hdel : ¬ (hook = true ∧ s.manager.lookup fd ≠ none) := fun hdel => ha (.inl hdel.1)
    have hlookup : (s.close hook fd).manager.lookup fd = s.manager.lookup fd := by
      rw [Descriptors.close, if_neg hdel]
    -- the next socket finds the context of the last one
    have hstep : descriptors.step (s.close hook fd) (.socket true fd false) =
        some ((s.close hook fd).opened fd ⟨true, false⟩) := by
      have hclosed : (s.close hook fd).kernel fd = none := by rw [kernel_close, if_pos rfl]
      obtain ⟨c, hc⟩ := Option.ne_none_iff_exists'.1 fun hnone => ha (.inr hnone)
      have hc' : ((s.close hook fd).opened fd ⟨true, false⟩).manager.lookup fd = some c :=
        hlookup.trans hc
      show (s.close hook fd).step (.socket true fd false) = _
      rw [Descriptors.step, if_neg (not_not.2 hclosed), if_pos rfl, Descriptors.getOrCreate, hc']
    exact ⟨_, fd, .step (a := .socket true fd false) .refl rfl hstep,
      not_spared_blocking (by rw [kernel_opened, if_pos rfl]) rfl rfl⟩
  | ioctl fd arg =>
    rw [Descriptors.step] at hs
    split_ifs at hs with hopen
    obtain rfl := Option.some.inj hs
    refine ⟨_, fd, .refl, ?_⟩
    unfold Descriptors.ioctl
    cases s.manager.lookup fd with
    | none => exact not_spared_setNonblock hopen ha
    | some c =>
      show ¬ Descriptors.Spared (if _ then s.setNonblock fd arg
        else (s.setUserNonblock c arg).setNonblock fd arg) fd
      split_ifs
      · exact not_spared_setNonblock hopen ha
      · exact not_spared_setNonblock (s := s.setUserNonblock c arg) hopen ha
  | fcntl fd nonblock =>
    rw [Descriptors.step] at hs
    split_ifs at hs with hopen
    obtain rfl := Option.some.inj hs
    exact ⟨_, fd, .refl, not_spared_setNonblock hopen ha⟩

end Hook

end YXTWebCpp
