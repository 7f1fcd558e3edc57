import YXTWebCpp.FdManager.Basic
import YXTWebCpp.Hook.Sleep

/-!
# Hooked setsockopt

`setsockopt` (`hook.cpp`) remembers the timeouts that are set for a descriptor that the hooks take
care of, and calls the original `setsockopt`.  Its first test assigns `SOL_SOCKET` to `level`.

* `setsockopt` : the contexts afterwards, and the arguments of the original call.
* `timeoutOf` : what `do_io` obtains from `getTimeout`.
* `Transparent` : the arguments are passed on, and no other timeout changes than the one set.
* `transparent_iff` : **this holds exactly for the options of `SOL_SOCKET`**, where the timeout can
  be read.
-/

namespace YXTWebCpp

namespace Fd

/-! ### Contexts are not shared -/

/-- `get(fd)`, which creates nothing: `none` if `m_datas[fd]` is out of bounds, `some none` for
null. -/
def FdManager.get (m : FdManager) (fd : ℤ) : Option (Option ℕ) :=
  if fd = -1 then some none else if fd < 0 then none else some (m.lookup fd.toNat)

/-- No two descriptors have the same context. -/
def FdManager.Distinct (m : FdManager) : Prop :=
  ∀ fd fd' c, m.lookup fd = some c → m.lookup fd' = some c → fd = fd'

namespace FdManager.Distinct

variable {m m' : FdManager}

/-- The new context is at an address that none of the old ones has. -/
theorem create (h : m.Distinct) {fd : ℕ} (hnew : ∀ fd', m.lookup fd' ≠ some m.next)
    (hlookup : ∀ fd', m'.lookup fd' = if fd' = fd then some m.next else m.lookup fd') :
    m'.Distinct := by
  intro fd₁ fd₂ c h₁ h₂
  rw [hlookup] at h₁ h₂
  split_ifs at h₁ h₂ with he₁ he₂ he₂
  · rw [he₁, he₂]
  · exact absurd (h₂.trans h₁.symm) (hnew fd₂)
  · exact absurd (h₁.trans h₂.symm) (hnew fd₁)
  · exact h fd₁ fd₂ c h₁ h₂

theorem del (h : m.Distinct) (fd : ℕ) : (m.del fd).Distinct := by
  intro fd₁ fd₂ c h₁ h₂
  rw [lookup_del] at h₁ h₂
  split_ifs at h₁ h₂
  exact h fd₁ fd₂ c h₁ h₂

end FdManager.Distinct

theorem distinct_of_reachable {ι : Type*} [DecidableEq ι] {s : Pool ι Calls Getter}
    {G : Pool ι Calls Getter → PoolAct ι GetterAct Empty → Prop}
    (hr : getters.ReachableWhen G s) : s.shared.manager.Distinct := by
  refine hr.invariant (I := fun s => s.shared.manager.Distinct) (fun s hs => ?_)
    fun s a s' hr h _ hst => ?_
  · obtain ⟨⟨heap, hs⟩, -⟩ := hs
    rw [hs]
    intro fd fd' c hl
    simp only [FdManager.new, FdManager.lookup, List.getElem?_replicate] at hl
    split_ifs at hl <;> cases hl
  · have hinv := (inv_of_reachable hr).1
    rcases interleave_cases hst with ⟨i, b, t, w, rfl, hstep, rfl⟩ | ⟨e, -⟩
    · have hst' := Getter.step_cases hstep
      generalize s.thread i = w₀ at hst'
      cases hst' with
      | found hl => exact h
      | missing hl => exact h
      | @create fd stat m hc =>
        obtain ⟨m', hm', -, -, hlookup⟩ := FdManager.create_eq hinv.length fd stat
        obtain rfl := Option.some.inj (hc.symm.trans hm')
        have hnew : ∀ fd', s.shared.manager.lookup fd' ≠ some s.shared.manager.next :=
          fun fd' hl => lt_irrefl _ (hinv.fresh _ (hinv.current fd' _ hl))
        exact FdManager.Distinct.create h hnew hlookup
      | outOfBounds hc => exact h
      | @del fd => exact FdManager.Distinct.del h fd
      | setTimeout => exact h
    · exact e.elim

end Fd

namespace Hook

open Fd

/-- `SOL_SOCKET` -/
def solSocket : ℤ := 1

/-- `timeval` -/
structure Timeval where
  /-- `tv_sec` -/
  sec : Int64
  /-- `tv_usec` -/
  usec : Int64

/-- The arguments of `setsockopt`; `optval` is an address. -/
structure SockoptArgs where
  sockfd : ℤ
  level : ℤ
  optname : ℤ
  optval : ℕ
  optlen : ℕ
  deriving DecidableEq

/-- `v->tv_sec * 1000 + v->tv_usec / 1000` -/
def Timeval.ms (v : Timeval) : ℤ := v.sec.toInt * 1000 + v.usec.toInt.tdiv 1000

/-- The milliseconds as `setTimeout` receives them, `none` where the arithmetic of `long`
overflows. -/
def Timeval.timeout (v : Timeval) : Option ℕ :=
  if IsLong (v.sec.toInt * 1000) ∧ IsLong v.ms then some (v.ms % 2 ^ 64).toNat else none

/-- The options that are remembered. -/
def IsTimeout (optname : ℤ) : Prop := optname = soRcvTimeo ∨ optname = soSndTimeo

instance (optname : ℤ) : Decidable (IsTimeout optname) := inferInstanceAs (Decidable (_ ∨ _))

/-- `setsockopt` with the hook enabled: the contexts afterwards, and the arguments of the original
call; `none` where the behaviour is undefined.  `mem` is the `timeval` that can be read at an
address. -/
def setsockopt (mem : ℕ → Option Timeval) (m : FdManager) (a : SockoptArgs) :
    Option (FdManager × SockoptArgs) := do
  -- the test of the level is an assignment, whose value is not 0
  let a := { a with level := solSocket }
  if IsTimeout a.optname then
    match ← m.get a.sockfd with
    | none => return (m, a)
    | some context =>
      let v ← mem a.optval
      let ms ← v.timeout
      return (m.setTimeout context a.optname.toNat ms, a)
  else return (m, a)

/-! ### What is promised -/

/-- The operations that wait for data, and those that wait for room. -/
inductive Direction where
  | read
  | write
  deriving DecidableEq

/-- The `timeout_so` of the operations of a direction. -/
def Direction.so : Direction → ℕ
  | .read => soRcvTimeo
  | .write => soSndTimeo

/-- What `do_io` obtains from `getTimeout`, if the descriptor has a context. -/
def timeoutOf (m : FdManager) (fd : ℕ) (d : Direction) : Option ℕ :=
  (m.lookup fd).map fun c => m.getTimeout c d.so

/-- The call sets the timeout of a direction of a descriptor. -/
def SockoptArgs.Sets (a : SockoptArgs) (m : FdManager) (fd : ℕ) (d : Direction) : Prop :=
  a.level = solSocket ∧ a.optname = d.so ∧ a.sockfd = fd ∧ m.lookup fd ≠ none

/-- The original `setsockopt` receives the arguments of the caller, and only the timeout that is set
changes. -/
def Transparent (mem : ℕ → Option Timeval) (m : FdManager) (a : SockoptArgs) : Prop :=
  ∃ m', setsockopt mem m a = some (m', a) ∧ ∀ fd d,
    (a.Sets m fd d → ∃ v, mem a.optval = some v ∧
      timeoutOf m' fd d = some (v.ms % 2 ^ 64).toNat) ∧
    (¬ a.Sets m fd d → timeoutOf m' fd d = timeoutOf m fd d)

/-- The descriptor of a timeout option can be looked up, and if it has a context then the timeout
can be read and fits into a `long`. -/
def Readable (mem : ℕ → Option Timeval) (m : FdManager) (a : SockoptArgs) : Prop :=
  IsTimeout a.optname → -1 ≤ a.sockfd ∧ ∀ fd : ℕ, a.sockfd = fd → m.lookup fd ≠ none →
    ∃ v, mem a.optval = some v ∧ IsLong (v.sec.toInt * 1000) ∧ IsLong v.ms

/-! ### Timeouts -/

theorem isTimeout_iff {optname : ℤ} : IsTimeout optname ↔ ∃ d : Direction, optname = d.so := by
  constructor
  · rintro (h | h)
    · exact ⟨.read, h⟩
    · exact ⟨.write, h⟩
  · rintro ⟨d, h⟩
    cases d with
    | read => exact .inl h
    | write => exact .inr h

theorem Direction.so_inj {d d' : Direction} : d.so = d'.so ↔ d = d' := by
  cases d <;> cases d' <;> decide

/-- What the other direction obtains from `getTimeout` does not change. -/
theorem getTimeout_setTimeout (c : FdContext) (d d' : Direction) (v : ℕ) :
    (c.setTimeout d.so v).getTimeout d'.so = if d' = d then v else c.getTimeout d'.so := by
  cases d <;> cases d' <;> rfl

theorem timeoutOf_setTimeout {m : FdManager} (hm : m.Distinct) {fd c : ℕ}
    (hl : m.lookup fd = some c) (d : Direction) (v fd' : ℕ) (d' : Direction) :
    timeoutOf (m.setTimeout c d.so v) fd' d' =
      if fd' = fd ∧ d' = d then some v else timeoutOf m fd' d' := by
  show (m.lookup fd').map _ = _
  by_cases hfd : fd' = fd
  · subst hfd
    simp only [timeoutOf, hl, Option.map_some, FdManager.getTimeout, FdManager.setTimeout,
      Function.update_self, getTimeout_setTimeout, true_and]
    split_ifs <;> rfl
  · rw [if_neg fun h => hfd h.1, timeoutOf]
    cases hl' : m.lookup fd' with
    | none => rfl
    | some c' =>
      have hc : c' ≠ c := fun hc => hfd (hm fd' fd c (hc ▸ hl') hl)
      simp only [Option.map_some, FdManager.getTimeout, FdManager.setTimeout,
        Function.update_of_ne hc]

/-! ### Three ways through the call -/

section

variable {mem : ℕ → Option Timeval} {m : FdManager} {a : SockoptArgs}

theorem setsockopt_of_not_isTimeout (h : ¬ IsTimeout a.optname) :
    setsockopt mem m a = some (m, { a with level := solSocket }) :=
  if_neg h

theorem setsockopt_of_get_none (h : m.get a.sockfd = some none) :
    setsockopt mem m a = some (m, { a with level := solSocket }) := by
  unfold setsockopt
  simp only [h]
  exact ite_self _

theorem setsockopt_of_get {c : ℕ} (ht : IsTimeout a.optname) (h : m.get a.sockfd = some (some c)) :
    setsockopt mem m a = ((mem a.optval).bind Timeval.timeout).map fun ms =>
      (m.setTimeout c a.optname.toNat ms, { a with level := solSocket }) := by
  unfold setsockopt
  simp only [h, if_pos ht]
  cases mem a.optval with
  | none => rfl
  | some v =>
    show (v.timeout.bind fun ms => _) = v.timeout.map _
    cases v.timeout <;> rfl

/-- Whatever the call does, the original one is for `SOL_SOCKET`. -/
theorem level_of_setsockopt {m' : FdManager} {a' : SockoptArgs}
    (h : setsockopt mem m a = some (m', a')) : a'.level = solSocket := by
  by_cases ht : IsTimeout a.optname
  · cases hget : m.get a.sockfd with
    | none =>
      unfold setsockopt at h
      simp only [hget, if_pos ht] at h
      cases h
    | some o =>
      cases o with
      | none =>
        rw [setsockopt_of_get_none hget] at h
        cases h
        rfl
      | some c =>
        rw [setsockopt_of_get ht hget] at h
        obtain ⟨ms, -, hms⟩ := Option.map_eq_some_iff.1 h
        cases hms
        rfl
  · rw [setsockopt_of_not_isTimeout ht] at h
    cases h
    rfl

theorem get_of_eq {fd : ℕ} (h : a.sockfd = fd) : m.get a.sockfd = some (m.lookup fd) := by
  rw [FdManager.get, h, if_neg (by omega), if_neg (by omega), Int.toNat_natCast]

/-- A defined call on a descriptor with a context has read the timeout. -/
theorem readable_of_setsockopt {r : FdManager × SockoptArgs} (h : setsockopt mem m a = some r) :
    Readable mem m a := by
  intro ht
  constructor
  · by_contra hneg
    have hget : m.get a.sockfd = none := by
      rw [FdManager.get, if_neg (by omega), if_pos (by omega)]
    unfold setsockopt at h
    simp only [hget, if_pos ht] at h
    cases h
  · intro fd hfd hl
    obtain ⟨c, hc⟩ := Option.ne_none_iff_exists'.1 hl
    rw [setsockopt_of_get ht ((get_of_eq hfd).trans (congrArg some hc))] at h
    obtain ⟨ms, hms, -⟩ := Option.map_eq_some_iff.1 h
    obtain ⟨v, hv, htimeout⟩ := Option.bind_eq_some_iff.1 hms
    unfold Timeval.timeout at htimeout
    split_ifs at htimeout with hlong
    exact ⟨v, hv, hlong⟩

/-- A call that leaves the contexts as they are is transparent, if it has nothing to set. -/
theorem transparent_of_eq (hlevel : a.level = solSocket)
    (h : setsockopt mem m a = some (m, { a with level := solSocket }))
    (hsets : ∀ fd d, ¬ a.Sets m fd d) : Transparent mem m a := by
  refine ⟨m, by rw [h, ← hlevel], fun fd d => ⟨fun hs => absurd hs (hsets fd d), fun _ => rfl⟩⟩

/-- With a context, the timeout that is set is remembered for this descriptor and this direction. -/
theorem transparent_of_context (hm : m.Distinct) (hlevel : a.level = solSocket) {fd c : ℕ}
    {d : Direction} {v : Timeval} (hd : a.optname = d.so) (hfd : a.sockfd = fd)
    (hl : m.lookup fd = some c) (hv : mem a.optval = some v)
    (hms : v.timeout = some (v.ms % 2 ^ 64).toNat) : Transparent mem m a := by
  have hget := get_of_eq (m := m) hfd
  rw [hl] at hget
  refine ⟨m.setTimeout c d.so (v.ms % 2 ^ 64).toNat, ?_, fun fd' d' => ?_⟩
  · rw [setsockopt_of_get (isTimeout_iff.2 ⟨d, hd⟩) hget, hv, Option.bind_some, hms,
      Option.map_some, hd, Int.toNat_natCast, ← hlevel, ← hd]
  · rw [timeoutOf_setTimeout hm hl]
    constructor
    · rintro ⟨-, hso, hfd', -⟩
      have hsamefd : fd' = fd := by exact_mod_cast hfd'.symm.trans hfd
      have hsameso : d' = d := Direction.so_inj.1 (by exact_mod_cast hso.symm.trans hd)
      exact ⟨v, hv, if_pos ⟨hsamefd, hsameso⟩⟩
    · refine fun hs => if_neg ?_
      rintro ⟨rfl, rfl⟩
      exact hs ⟨hlevel, hd, hfd, by rw [hl]; exact Option.some_ne_none c⟩

theorem transparent_of_readable (hm : m.Distinct) (hlevel : a.level = solSocket)
    (hr : Readable mem m a) : Transparent mem m a := by
  by_cases ht : IsTimeout a.optname
  · obtain ⟨hfd, hread⟩ := hr ht
    rcases hfd.eq_or_lt with hfd | hfd
    · -- `get(-1)` is null
      have hget : m.get a.sockfd = some none := if_pos hfd.symm
      refine transparent_of_eq hlevel (setsockopt_of_get_none hget) fun fd d hs => ?_
      have := hs.2.2.1
      omega
    · obtain ⟨fd, hfd⟩ := Int.eq_ofNat_of_zero_le (show 0 ≤ a.sockfd by omega)
      cases hl : m.lookup fd with
      | none =>
        have hget := get_of_eq (m := m) hfd
        rw [hl] at hget
        refine transparent_of_eq hlevel (setsockopt_of_get_none hget) fun fd' d hs => ?_
        obtain rfl : fd' = fd := by exact_mod_cast hs.2.2.1.symm.trans hfd
        exact hs.2.2.2 hl
      | some c =>
        obtain ⟨v, hv, hlong⟩ := hread fd hfd (by rw [hl]; exact Option.some_ne_none c)
        obtain ⟨d, hd⟩ := isTimeout_iff.1 ht
        exact transparent_of_context hm hlevel hd hfd hl hv (if_pos hlong)
  · refine transparent_of_eq hlevel (setsockopt_of_not_isTimeout ht) fun fd d hs => ht ?_
    exact isTimeout_iff.2 ⟨d, hs.2.1⟩

end

/-- **A transparent `setsockopt`**: exactly for the options of `SOL_SOCKET`, and where a timeout
that is remembered can be read.  The options of every other level are passed on as ones of
`SOL_SOCKET`. -/
theorem transparent_iff {ι : Type*} [DecidableEq ι] {s : Pool ι Calls Getter}
    (hr : getters.Reachable s) (mem : ℕ → Option Timeval) (a : SockoptArgs) :
    Transparent mem s.shared.manager a ↔
      a.level = solSocket ∧ Readable mem s.shared.manager a := by
  constructor
  · rintro ⟨m', h, -⟩
    exact ⟨level_of_setsockopt h, readable_of_setsockopt h⟩
  · rintro ⟨hlevel, hread⟩
    exact transparent_of_readable (distinct_of_reachable hr) hlevel hread

/-- A thread creates the context of descriptor 5. -/
def managed : List (PoolAct (Fin 2) GetterAct Empty) :=
  [.thread 0 (.get 5 true), .thread 0 (.create (some true))]

theorem exists_managed : ∃ s : Pool (Fin 2) Calls Getter, getters.Reachable s ∧
    s.shared.manager.lookup 5 = some 0 := by
  have hs : (getters.run (fun _ _ => True) unused managed).map
      (fun s => s.shared.manager.lookup 5) = some (some 0) := by
    decide +kernel
  obtain ⟨s, hrun, hs⟩ := Option.map_eq_some_iff.1 hs
  exact ⟨s, System.reachableWhen_of_run ⟨⟨_, rfl⟩, fun _ => rfl⟩ hrun, hs⟩

/-- Two and a half seconds stand at address 1000. -/
def memory (p : ℕ) : Option Timeval := if p = 1000 then some ⟨2, 500000⟩ else none

theorem transparent_iff_managed : ∃ s : Pool (Fin 2) Calls Getter, getters.Reachable s ∧
    s.shared.manager.lookup 5 = some 0 ∧
      Transparent memory s.shared.manager ⟨5, solSocket, soRcvTimeo, 1000, 16⟩ := by
  obtain ⟨s, hr, hl⟩ := exists_managed
  refine ⟨s, hr, hl, (transparent_iff hr memory ⟨5, solSocket, soRcvTimeo, 1000, 16⟩).2
    ⟨rfl, fun _ => ⟨by decide, fun fd hfd _ => ⟨⟨2, 500000⟩, rfl, ?_, ?_⟩⟩⟩⟩
  · decide +kernel
  · decide +kernel

/-- **Options of other levels are lost**: `TCP_NODELAY` of `IPPROTO_TCP`, which `Socket::initSock`
sets, is passed on as an option of `SOL_SOCKET`; option 20 of `IPPROTO_IPV6`, which joins a group,
changes the timeout besides. -/
theorem exists_not_transparent : ∃ s : Pool (Fin 2) Calls Getter, getters.Reachable s ∧
    setsockopt memory s.shared.manager ⟨5, 6, 1, 1000, 4⟩ =
      some (s.shared.manager, ⟨5, 1, 1, 1000, 4⟩) ∧
    ¬ Transparent memory s.shared.manager ⟨5, 6, 1, 1000, 4⟩ ∧
    setsockopt memory s.shared.manager ⟨5, 41, 20, 1000, 20⟩ =
      some (s.shared.manager.setTimeout 0 soRcvTimeo 2500, ⟨5, 1, 20, 1000, 20⟩) ∧
    ¬ Transparent memory s.shared.manager ⟨5, 41, 20, 1000, 20⟩ := by
  obtain ⟨s, hr, hl⟩ := exists_managed
  have hnot : ∀ a : SockoptArgs, a.level ≠ solSocket → ¬ Transparent memory s.shared.manager a := by
    rintro a hlevel ⟨m', h, -⟩
    exact hlevel (level_of_setsockopt h)
  refine ⟨s, hr, rfl, hnot _ (by decide), ?_, hnot _ (by decide)⟩
  have hget : s.shared.manager.get 5 = some (some 0) :=
    (get_of_eq (a := ⟨5, 41, 20, 1000, 20⟩) rfl).trans (congrArg some hl)
  rw [setsockopt_of_get (.inl rfl) hget]
  have hms : ((memory 1000).bind Timeval.timeout) = some 2500 := by decide +kernel
  rw [hms]
  rfl

end Hook

end YXTWebCpp
