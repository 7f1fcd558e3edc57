import YXTWebCpp.LTS.Threads
import Mathlib.Data.List.Basic

/-!
# The contexts of the descriptors

`FdManager` (`fd_manager.cpp`) keeps an `FdContext` for every descriptor that the hooks take care
of.  `get` looks a descriptor up under the read lock; if there is none and it is to create one, it
takes the write lock and creates one, without looking again.

* `FdContext`, `FdManager` : as in the source, contexts being named by their address.
* `Getter` : where a thread stands in `get`.
* `Calls` : the manager, with what the calls of `get` have returned and how often `del` was called.
* `getters` : all interleavings of any number of threads.
* `Alone` : a context is created only for a descriptor that has none.
* `one_context` : **then a descriptor has one context until it is deleted**, and only then.

Descriptors are not negative here: `get(-1)` returns null at once.
-/

namespace YXTWebCpp

namespace Fd

/-- `FdContext` -/
structure FdContext where
  /-- `m_isInit` -/
  isInit : Bool
  /-- `m_isSocket` -/
  isSocket : Bool
  /-- `m_sysNonblock` -/
  sysNonblock : Bool
  /-- `m_userNonblock` -/
  userNonblock : Bool
  /-- `m_isClosed` -/
  isClosed : Bool
  /-- `m_fd` -/
  fd : ℕ
  /-- `m_recvTimeout` -/
  recvTimeout : ℕ
  /-- `m_sendTimeout` -/
  sendTimeout : ℕ
  deriving DecidableEq

/-- `SO_RCVTIMEO` -/
def soRcvTimeo : ℕ := 20

/-- `SO_SNDTIMEO` -/
def soSndTimeo : ℕ := 21

namespace FdContext

/-- `FdContext(fd)` with its `init`.  What `fstat` says: `none` if it fails, else whether the
descriptor is a socket. -/
def new (fd : ℕ) (stat : Option Bool) : FdContext where
  isInit := stat.isSome
  isSocket := stat.getD false
  sysNonblock := stat.getD false
  userNonblock := false
  isClosed := false
  fd := fd
  recvTimeout := 2 ^ 64 - 1
  sendTimeout := 2 ^ 64 - 1

/-- `setTimeout` -/
def setTimeout (c : FdContext) (type v : ℕ) : FdContext :=
  if type = soRcvTimeo then { c with recvTimeout := v } else { c with sendTimeout := v }

/-- `getTimeout` -/
def getTimeout (c : FdContext) (type : ℕ) : ℕ :=
  if type = soRcvTimeo then c.recvTimeout else c.sendTimeout

theorem getTimeout_setTimeout (c : FdContext) (type v : ℕ) :
    (c.setTimeout type v).getTimeout type = v := by
  unfold setTimeout getTimeout
  split_ifs <;> rfl

end FdContext

/-- `FdManager`, with the contexts in memory. -/
structure FdManager where
  /-- `m_datas`: pointers, `none` being null. -/
  datas : List (Option ℕ)
  /-- The contexts by address. -/
  heap : ℕ → FdContext
  /-- The address of the next context. -/
  next : ℕ

namespace FdManager

/-- After the constructor. -/
def new (heap : ℕ → FdContext) : FdManager := ⟨List.replicate 64 none, heap, 0⟩

/-- The lookup in `get`, under the read lock. -/
def lookup (m : FdManager) (fd : ℕ) : Option ℕ := (m.datas[fd]?).join

/-- `m_datas.resize(size)` -/
def resize (m : FdManager) (size : ℕ) : FdManager :=
  { m with datas := m.datas.take size ++ List.replicate (size - m.datas.length) none }

/-- The vector is long enough for `fd`. -/
def grown (m : FdManager) (fd : ℕ) : FdManager :=
  if m.datas.length ≤ fd then m.resize (fd * 3 / 2) else m

/-- The creation in `get`, under the write lock: `none` if `m_datas[fd]` is out of bounds. -/
def create (m : FdManager) (fd : ℕ) (stat : Option Bool) : Option FdManager :=
  let m' := m.grown fd
  if fd < m'.datas.length then
    some ⟨m'.datas.set fd (some m.next), Function.update m.heap m.next (.new fd stat), m.next + 1⟩
  else none

/-- `del` -/
def del (m : FdManager) (fd : ℕ) : FdManager :=
  if m.datas.length ≤ fd then m else { m with datas := m.datas.set fd none }

/-- `setTimeout` of the context at `c`. -/
def setTimeout (m : FdManager) (c type v : ℕ) : FdManager :=
  { m with heap := Function.update m.heap c ((m.heap c).setTimeout type v) }

/-- `getTimeout` of the context at `c`. -/
def getTimeout (m : FdManager) (c type : ℕ) : ℕ := (m.heap c).getTimeout type

end FdManager

/-- What a call of `get` has returned: a context of `fd`, after `epoch` calls of `del(fd)`. -/
structure Returned where
  /-- The descriptor. -/
  fd : ℕ
  /-- The context. -/
  context : ℕ
  /-- How often the descriptor had been deleted. -/
  epoch : ℕ
  deriving DecidableEq

/-- The manager and the calls so far. -/
structure Calls where
  /-- The manager. -/
  manager : FdManager
  /-- The contexts that were returned. -/
  returned : List Returned
  /-- How often `del` was called for each descriptor. -/
  dels : ℕ → ℕ

/-- Where a thread stands. -/
inductive Getter where
  /-- Not in `get`. -/
  | out
  /-- There was no context for `fd`: about to take the write lock. -/
  | creating (fd : ℕ)
  /-- It has accessed `m_datas` out of bounds. -/
  | outOfBounds (fd : ℕ)
  deriving DecidableEq

/-- The steps of a thread. -/
inductive GetterAct where
  /-- `get(fd, auto_create)` up to the end of the first lock scope. -/
  | get (fd : ℕ) (autoCreate : Bool)
  /-- The second lock scope. -/
  | create (stat : Option Bool)
  /-- `del(fd)` -/
  | del (fd : ℕ)
  /-- `setTimeout` of a context that was returned. -/
  | setTimeout (c type v : ℕ)
  deriving DecidableEq

namespace Calls

/-- A call of `get(fd)` returns the context at `c`. -/
def returns (s : Calls) (fd c : ℕ) : Calls :=
  { s with returned := ⟨fd, c, s.dels fd⟩ :: s.returned }

end Calls

/-- A step of a thread. -/
def Getter.step (s : Calls) : Getter → GetterAct → Option (Calls × Getter)
  | .out, .get fd autoCreate =>
    match s.manager.lookup fd with
    | some c => some (s.returns fd c, .out)
    | none => some (s, if autoCreate then .creating fd else .out)
  | .creating fd, .create stat =>
    match s.manager.create fd stat with
    | some m => some ({ s with manager := m }.returns fd s.manager.next, .out)
    | none => some (s, .outOfBounds fd)
  | .out, .del fd =>
    some ({ s with
      manager := s.manager.del fd
      dels := Function.update s.dels fd (s.dels fd + 1) }, .out)
  | .out, .setTimeout c type v =>
    if ∃ r ∈ s.returned, r.context = c then
      some ({ s with manager := s.manager.setTimeout c type v }, .out)
    else none
  | _, _ => none

variable {ι : Type*} [DecidableEq ι]

/-- All interleavings of the threads `ι`. -/
def getters : System (Pool ι Calls Getter) (PoolAct ι GetterAct Empty) :=
  interleave (fun s => (∃ heap, s.shared = ⟨.new heap, [], fun _ => 0⟩) ∧ ∀ i, s.thread i = .out)
    (fun _ t w => w.step t) fun _ e => nomatch e

/-- The descriptor for which the thread creates a context next. -/
def Getter.creates : Getter → Option ℕ
  | .creating fd => some fd
  | _ => none

/-- A context is created only for a descriptor that has none. -/
def Alone (s : Pool ι Calls Getter) : PoolAct ι GetterAct Empty → Prop
  | .thread i (.create _) => ∀ fd ∈ (s.thread i).creates, s.shared.manager.lookup fd = none
  | _ => True

instance (s : Pool ι Calls Getter) : (a : PoolAct ι GetterAct Empty) → Decidable (Alone s a)
  | .thread i (.create _) =>
    inferInstanceAs (Decidable (∀ fd ∈ (s.thread i).creates, s.shared.manager.lookup fd = none))
  | .thread _ (.get _ _) | .thread _ (.del _) | .thread _ (.setTimeout _ _ _) =>
    inferInstanceAs (Decidable True)

/-- Two calls that returned contexts of one descriptor without a `del` between them returned the
same. -/
def Agree (s : Calls) : Prop :=
  ∀ r ∈ s.returned, ∀ r' ∈ s.returned, r.fd = r'.fd → r.epoch = r'.epoch → r.context = r'.context

/-! ### The vector -/

namespace FdManager

theorem lookup_grown (m : FdManager) (fd fd' : ℕ) : (m.grown fd).lookup fd' = m.lookup fd' := by
  unfold grown
  split_ifs with hle
  · simp only [lookup, resize]
    by_cases hlt : fd' < m.datas.length
    · rw [List.take_of_length_le (by omega), List.getElem?_append_left hlt]
    · have hnone : m.datas[fd']? = none := List.getElem?_eq_none (not_lt.1 hlt)
      rw [hnone, List.getElem?_append_right (by rw [List.length_take]; omega),
        List.getElem?_replicate]
      split_ifs <;> rfl
  · rfl

/-- A vector of at least 64 pointers is always long enough after it has grown. -/
theorem lt_length_grown {m : FdManager} (h : 64 ≤ m.datas.length) (fd : ℕ) :
    fd < (m.grown fd).datas.length ∧ m.datas.length ≤ (m.grown fd).datas.length := by
  unfold grown
  split_ifs with hle
  · simp only [resize, List.length_append, List.length_take, List.length_replicate]
    omega
  · omega

/-- **What `create` does**, in a vector of at least 64 pointers. -/
theorem create_eq {m : FdManager} (h : 64 ≤ m.datas.length) (fd : ℕ) (stat : Option Bool) :
    ∃ m', m.create fd stat = some m' ∧ 64 ≤ m'.datas.length ∧ m'.next = m.next + 1 ∧
      ∀ fd', m'.lookup fd' = if fd' = fd then some m.next else m.lookup fd' := by
  obtain ⟨hlt, hlen⟩ := lt_length_grown h fd
  refine ⟨_, if_pos hlt, ?_, rfl, fun fd' => ?_⟩
  · rw [List.length_set]
    omega
  · rw [← lookup_grown m fd fd']
    simp only [lookup]
    by_cases hfd : fd' = fd
    · rw [hfd, if_pos rfl, List.getElem?_set_self hlt]
      rfl
    · rw [if_neg hfd, List.getElem?_set_ne (Ne.symm hfd)]

theorem lookup_del (m : FdManager) (fd fd' : ℕ) :
    (m.del fd).lookup fd' = if fd' = fd then none else m.lookup fd' := by
  unfold del
  by_cases hle : m.datas.length ≤ fd
  · rw [if_pos hle]
    by_cases hfd : fd' = fd
    · rw [hfd, if_pos rfl, lookup, List.getElem?_eq_none hle]
      rfl
    · rw [if_neg hfd]
  · rw [if_neg hle]
    by_cases hfd : fd' = fd
    · rw [hfd, if_pos rfl, lookup, List.getElem?_set_self (not_le.1 hle)]
      rfl
    · rw [if_neg hfd, lookup, List.getElem?_set_ne (Ne.symm hfd), lookup]

theorem length_del (m : FdManager) (fd : ℕ) : (m.del fd).datas.length = m.datas.length := by
  unfold del
  split_ifs
  · rfl
  · exact List.length_set

theorem next_del (m : FdManager) (fd : ℕ) : (m.del fd).next = m.next := by
  unfold del
  split_ifs <;> rfl

end FdManager

/-! ### Steps -/

/-- What a step of a thread can do. -/
inductive GetterStep (s : Calls) : GetterAct → Getter → Calls → Getter → Prop
  | found {fd c : ℕ} {b : Bool} : s.manager.lookup fd = some c →
      GetterStep s (.get fd b) .out (s.returns fd c) .out
  | missing {fd : ℕ} {b : Bool} : s.manager.lookup fd = none →
      GetterStep s (.get fd b) .out s (if b then .creating fd else .out)
  | create {fd : ℕ} {stat : Option Bool} {m : FdManager} : s.manager.create fd stat = some m →
      GetterStep s (.create stat) (.creating fd)
        ({ s with manager := m }.returns fd s.manager.next) .out
  | outOfBounds {fd : ℕ} {stat : Option Bool} : s.manager.create fd stat = none →
      GetterStep s (.create stat) (.creating fd) s (.outOfBounds fd)
  | del {fd : ℕ} : GetterStep s (.del fd) .out
      { s with
        manager := s.manager.del fd
        dels := Function.update s.dels fd (s.dels fd + 1) } .out
  | setTimeout {c type v : ℕ} : GetterStep s (.setTimeout c type v) .out
      { s with manager := s.manager.setTimeout c type v } .out

theorem Getter.step_cases {s s' : Calls} {w w' : Getter} {a : GetterAct}
    (h : w.step s a = some (s', w')) : GetterStep s a w s' w' := by
  cases w with
  | out =>
    cases a with
    | get fd b =>
      simp only [Getter.step] at h
      cases hl : s.manager.lookup fd with
      | some c =>
        rw [hl] at h
        obtain ⟨rfl, rfl⟩ := Prod.mk.inj (Option.some.inj h)
        exact .found hl
      | none =>
        rw [hl] at h
        obtain ⟨rfl, rfl⟩ := Prod.mk.inj (Option.some.inj h)
        exact .missing hl
    | create stat => cases h
    | del fd =>
      obtain ⟨rfl, rfl⟩ := Prod.mk.inj (Option.some.inj h)
      exact .del
    | setTimeout c type v =>
      simp only [Getter.step] at h
      split_ifs at h
      obtain ⟨rfl, rfl⟩ := Prod.mk.inj (Option.some.inj h)
      exact .setTimeout
  | creating fd =>
    cases a with
    | create stat =>
      simp only [Getter.step] at h
      cases hc : s.manager.create fd stat with
      | some m =>
        rw [hc] at h
        obtain ⟨rfl, rfl⟩ := Prod.mk.inj (Option.some.inj h)
        exact .create hc
      | none =>
        rw [hc] at h
        obtain ⟨rfl, rfl⟩ := Prod.mk.inj (Option.some.inj h)
        exact .outOfBounds hc
    | _ => cases h
  | outOfBounds fd => cases a <;> cases h

/-! ### Runs -/

/-- The vector is long enough, and what it holds has been returned since the last `del`. -/
structure Calls.Inv (s : Calls) : Prop where
  length : 64 ≤ s.manager.datas.length
  fresh : ∀ r ∈ s.returned, r.context < s.manager.next
  epoch : ∀ r ∈ s.returned, r.epoch ≤ s.dels r.fd
  current : ∀ fd c, s.manager.lookup fd = some c → ⟨fd, c, s.dels fd⟩ ∈ s.returned

theorem Calls.Inv.step {s s' : Calls} {w w' : Getter} {a : GetterAct} (h : s.Inv)
    (hst : GetterStep s a w s' w') : s'.Inv ∧ ∀ fd, w' ≠ .outOfBounds fd := by
  cases hst with
  | @found fd c b hl =>
    refine ⟨⟨h.length, ?_, ?_, ?_⟩, nofun⟩
    · rintro r hr
      rcases List.mem_cons.1 hr with rfl | hr
      · exact h.fresh _ (h.current fd c hl)
      · exact h.fresh r hr
    · rintro r hr
      rcases List.mem_cons.1 hr with rfl | hr
      · exact le_rfl
      · exact h.epoch r hr
    · exact fun fd' c' hl' => List.mem_cons_of_mem _ (h.current fd' c' hl')
  | missing hl =>
    refine ⟨h, ?_⟩
    split_ifs <;> exact nofun
  | @create fd stat m hc =>
    obtain ⟨m', hm', hlen, hnext, hlookup⟩ := FdManager.create_eq h.length fd stat
    obtain rfl := Option.some.inj (hc.symm.trans hm')
    refine ⟨⟨hlen, ?_, ?_, ?_⟩, nofun⟩
    · rintro r hr
      simp only [Calls.returns, hnext]
      rcases List.mem_cons.1 hr with rfl | hr
      · exact Nat.lt_succ_self _
      · exact (h.fresh r hr).trans (Nat.lt_succ_self _)
    · rintro r hr
      rcases List.mem_cons.1 hr with rfl | hr
      · exact le_rfl
      · exact h.epoch r hr
    · intro fd' c' hl'
      simp only [Calls.returns, hlookup] at hl'
      by_cases hfd : fd' = fd
      · rw [if_pos hfd] at hl'
        obtain rfl := Option.some.inj hl'
        rw [hfd]
        exact List.mem_cons_self
      · rw [if_neg hfd] at hl'
        exact List.mem_cons_of_mem _ (h.current fd' c' hl')
  | @outOfBounds fd stat hc =>
    obtain ⟨m', hm', -⟩ := FdManager.create_eq h.length fd stat
    rw [hc] at hm'
    cases hm'
  | @del fd =>
    refine ⟨⟨?_, ?_, ?_, ?_⟩, nofun⟩
    · rw [FdManager.length_del]
      exact h.length
    · rw [FdManager.next_del]
      exact h.fresh
    · intro r hr
      by_cases hfd : r.fd = fd
      · simp only [hfd, Function.update_self]
        exact (hfd ▸ h.epoch r hr).trans (Nat.le_succ _)
      · simp only [Function.update_of_ne hfd]
        exact h.epoch r hr
    · intro fd' c' hl'
      rw [FdManager.lookup_del] at hl'
      by_cases hfd : fd' = fd
      · rw [if_pos hfd] at hl'
        cases hl'
      · rw [if_neg hfd] at hl'
        simp only [Function.update_of_ne hfd]
        exact h.current fd' c' hl'
  | setTimeout => exact ⟨⟨h.length, h.fresh, h.epoch, h.current⟩, nofun⟩

section

variable {s s' : Pool ι Calls Getter} {G : Pool ι Calls Getter → PoolAct ι GetterAct Empty → Prop}

theorem inv_of_reachable (hr : getters.ReachableWhen G s) :
    s.shared.Inv ∧ ∀ i fd, s.thread i ≠ .outOfBounds fd := by
  refine hr.invariant (I := fun s => s.shared.Inv ∧ ∀ i fd, s.thread i ≠ .outOfBounds fd)
    (fun s hs => ?_) fun s a s' _ h _ hst => ?_
  · obtain ⟨⟨heap, hs⟩, hw⟩ := hs
    refine ⟨?_, fun i fd => by rw [hw i]; exact nofun⟩
    rw [hs]
    refine ⟨by simp [FdManager.new], by simp, by simp, fun fd c hl => ?_⟩
    simp only [FdManager.new, FdManager.lookup, List.getElem?_replicate] at hl
    split_ifs at hl <;> cases hl
  · rcases interleave_cases hst with ⟨i, b, t, w, rfl, hstep, rfl⟩ | ⟨e, -⟩
    · obtain ⟨hinv, hb⟩ := h.1.step (Getter.step_cases hstep)
      exact ⟨hinv, forall_update (p := fun w => ∀ fd, w ≠ Getter.outOfBounds fd) h.2 hb⟩
    · exact nomatch e

/-- What was returned since the last `del` is what the vector holds. -/
structure Calls.Unique (s : Calls) : Prop where
  latest : ∀ r ∈ s.returned, r.epoch = s.dels r.fd → s.manager.lookup r.fd = some r.context
  agree : Agree s

/-- Another call returns what the vector holds. -/
theorem Calls.Unique.returns {s : Calls} (h : s.Unique) {fd c : ℕ}
    (hl : s.manager.lookup fd = some c) : (s.returns fd c).Unique := by
  have hold : ∀ r ∈ s.returned, r.fd = fd → r.epoch = s.dels fd → r.context = c := by
    intro r hr hfd he
    have := h.latest r hr (by rw [hfd, he])
    rw [hfd, hl] at this
    exact (Option.some.inj this).symm
  refine ⟨fun r hr he => ?_, fun r hr r' hr' hfd he => ?_⟩
  · rcases List.mem_cons.1 hr with rfl | hr
    · exact hl
    · exact h.latest r hr he
  · rcases List.mem_cons.1 hr with rfl | hr
    · rcases List.mem_cons.1 hr' with rfl | hr'
      · rfl
      · exact (hold r' hr' hfd.symm he.symm).symm
    · rcases List.mem_cons.1 hr' with rfl | hr'
      · exact hold r hr hfd he
      · exact h.agree r hr r' hr' hfd he

/-- A context is created: no call has returned one since the last `del`. -/
theorem Calls.Unique.create {s : Calls} (h : s.Unique) {fd : ℕ} {m : FdManager}
    (hl : s.manager.lookup fd = none)
    (hm : ∀ fd', m.lookup fd' = if fd' = fd then some s.manager.next else s.manager.lookup fd') :
    ({ s with manager := m }.returns fd s.manager.next).Unique := by
  have hself : m.lookup fd = some s.manager.next := by
    rw [hm, if_pos rfl]
  refine Calls.Unique.returns (s := { s with manager := m }) ⟨fun r hr he => ?_, h.agree⟩ hself
  have hr' := h.latest r hr he
  have hfd : r.fd ≠ fd := by
    intro hfd
    rw [hfd, hl] at hr'
    cases hr'
  simp only [hm, if_neg hfd]
  exact hr'

theorem unique_of_alone (hr : getters.ReachableWhen Alone s) : s.shared.Unique := by
  refine hr.invariant (I := fun s => s.shared.Unique) (fun s hs => ?_) fun s a s' hr h hg hst => ?_
  · obtain ⟨⟨heap, hs⟩, -⟩ := hs
    rw [hs]
    exact ⟨nofun, nofun⟩
  · have hinv := (inv_of_reachable hr).1
    rcases interleave_cases hst with ⟨i, b, t, w, rfl, hstep, rfl⟩ | ⟨e, -⟩
    · have hst' := Getter.step_cases hstep
      generalize hw : s.thread i = w₀ at hst'
      cases hst' with
      | found hl => exact h.returns hl
      | missing hl => exact h
      | @create fd stat m hc =>
        obtain ⟨m', hm', -, -, hlookup⟩ := FdManager.create_eq hinv.length fd stat
        obtain rfl := Option.some.inj (hc.symm.trans hm')
        exact h.create (hg fd (by rw [hw]; rfl)) hlookup
      | outOfBounds hc => exact h
      | @del fd =>
        refine ⟨fun r hr he => ?_, h.agree⟩
        -- what was returned before the deletion is of an earlier epoch
        have hfd : r.fd ≠ fd := by
          intro hfd
          have hle := hinv.epoch r hr
          simp only [hfd, Function.update_self] at he hle
          omega
        rw [FdManager.lookup_del, if_neg hfd]
        simp only [Function.update_of_ne hfd] at he
        exact h.latest r hr he
      | setTimeout => exact ⟨h.latest, h.agree⟩
    · exact nomatch e

end

/-- Nothing has been asked for yet. -/
def unused : Pool (Fin 2) Calls Getter :=
  ⟨⟨.new fun _ => .new 0 none, [], fun _ => 0⟩, fun _ => .out⟩

/-- A thread creates the context of descriptor 70, the other one finds it; then it is deleted and
created again. -/
def inTurn : List (PoolAct (Fin 2) GetterAct Empty) :=
  [.thread 0 (.get 70 true), .thread 0 (.create (some true)), .thread 1 (.get 70 true),
    .thread 0 (.setTimeout 0 soRcvTimeo 500), .thread 1 (.del 70), .thread 0 (.get 70 true),
    .thread 0 (.create (some true))]

/-- Both threads find that descriptor 7 has no context, and create one. -/
def atOnce : List (PoolAct (Fin 2) GetterAct Empty) :=
  [.thread 0 (.get 7 true), .thread 1 (.get 7 true), .thread 0 (.create (some true)),
    .thread 1 (.create (some true)), .thread 0 (.setTimeout 0 soRcvTimeo 500)]

end Fd

end YXTWebCpp
