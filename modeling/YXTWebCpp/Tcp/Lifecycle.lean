import YXTWebCpp.LTS.Basic
import Mathlib.Data.List.Nodup

/-!
# Starting and stopping a server

`TCPServer` (`tcpserver.cpp`) runs `startAccept` for each of its listening sockets on the accept
worker, and `stop` schedules a task there that closes the sockets.

* `Serving` : a server, its calls of `startAccept`, and the connections that wait to be accepted.
* `serving` : all orders of the steps of the accept worker, of calls of `start` and `stop`, and of
  clients that connect.
* `connections_in_order` : **connections are accepted once, in the order in which they come**.
* `shutdown_ends` : **after `stop` every call of `startAccept` ends**, when the task has run.
* `CleanStart` : nothing of the last run is left when the server is started again.
* `restarts_sound` : **then no call spins on a closed socket and none aborts the program**; any
  other restart can make one spin until `stop` is called.
-/

namespace YXTWebCpp

namespace Tcp

/-- Where a call of `startAccept` is. -/
inductive Phase where
  /-- Scheduled on the accept worker. -/
  | queued
  /-- In front of the test of `isStop`. -/
  | head
  /-- In `accept`. -/
  | calling
  /-- In `accept`, where the fiber waits for a connection. -/
  | waiting
  | done
  deriving DecidableEq

/-- A call of `startAccept`. -/
structure Acceptor where
  sock : ℕ
  phase : Phase
  deriving DecidableEq

/-- How a call of `accept` on an open socket ends. -/
inductive Accepted where
  /-- With a new socket. -/
  | taken
  /-- The connection is taken, and `init` fails. -/
  | dropped
  /-- With an error, and the connection stays where it is. -/
  | failed
  deriving DecidableEq

/-- A server whose listening sockets have numbers, with connections of type `C`. -/
structure Serving (C : Type*) where
  isStop : Bool
  /-- `m_sockets`; a socket is open as long as it is one of them. -/
  sockets : List ℕ
  /-- The sockets that have been made so far. -/
  made : ℕ
  /-- The connections that wait at a socket. -/
  backlog : ℕ → List C
  /-- The calls of `startAccept`. -/
  acceptors : List Acceptor
  /-- The tasks of `stop` that have not run yet. -/
  closing : ℕ
  /-- The calls of `handleClient` that have been scheduled. -/
  scheduled : List (ℕ × C)
  /-- An assertion has failed. -/
  aborted : Bool
  /-- All connections of a socket. -/
  arrived : ℕ → List C

/-- What happens. -/
inductive ServeAct (C : Type*) where
  /-- A socket is bound. -/
  | bind
  /-- A client connects. -/
  | connect (sock : ℕ) (c : C)
  | start
  | stop
  /-- A task of `stop` runs. -/
  | close
  /-- A call of `startAccept` goes on. -/
  | turn (j : ℕ) (r : Accepted)
  /-- A call of `accept` times out. -/
  | timeout (j : ℕ)

namespace Serving

variable {C : Type*} (s : Serving C)

/-- The event of a socket wakes the fibers that wait for it. -/
def wake (p : ℕ → Prop) [DecidablePred p] (a : Acceptor) : Acceptor :=
  if a.phase = .waiting ∧ p a.sock then { a with phase := .calling } else a

/-- A socket is bound and listens. -/
def bind : Serving C := { s with sockets := s.sockets ++ [s.made], made := s.made + 1 }

/-- A client connects to an open socket. -/
def connect (sock : ℕ) (c : C) : Serving C :=
  { s with
    backlog := Function.update s.backlog sock (s.backlog sock ++ [c])
    arrived := Function.update s.arrived sock (s.arrived sock ++ [c])
    acceptors := s.acceptors.map (wake (· = sock)) }

/-- `TCPServer::start` -/
def start : Serving C :=
  if !s.isStop then s
  else { s with
    isStop := false
    acceptors := s.acceptors ++ s.sockets.map (⟨·, .queued⟩) }

/-- `TCPServer::stop` -/
def stop : Serving C := { s with isStop := true, closing := s.closing + 1 }

/-- The task of `stop`: `cancelAll` and `close` of every socket, and `clear`. -/
def close : Serving C :=
  { s with
    sockets := []
    backlog := fun k => if k ∈ s.sockets then [] else s.backlog k
    acceptors := s.acceptors.map (wake (· ∈ s.sockets))
    closing := s.closing - 1 }

/-- The call at `j` is in another phase. -/
def put (j : ℕ) (a : Acceptor) (phase : Phase) : Serving C :=
  { s with acceptors := s.acceptors.set j { a with phase := phase } }

/-- A connection leaves the backlog of a socket. -/
def pop (sock : ℕ) (c : C) (cs : List C) (accepted : Bool) : Serving C :=
  { s with
    backlog := Function.update s.backlog sock cs
    scheduled := s.scheduled ++ if accepted then [(sock, c)] else [] }

/-- The call `a` at `j` finds no connection, and `addEvent` asserts that no other fiber waits. -/
def await (j : ℕ) (a : Acceptor) : Serving C :=
  if ⟨a.sock, .waiting⟩ ∈ s.acceptors then { s with aborted := true } else s.put j a .waiting

/-- `accept` of the call `a` at `j`; a closed socket is an error. -/
def accept (j : ℕ) (a : Acceptor) (r : Accepted) : Serving C :=
  if a.sock ∉ s.sockets ∨ r = .failed then s.put j a .head
  else
    match s.backlog a.sock with
    | [] => s.await j a
    | c :: cs => (s.pop a.sock c cs (decide (r = .taken))).put j a .head

/-- The next step of the call at `j`. -/
def turn (j : ℕ) (r : Accepted) : Option (Serving C) :=
  match s.acceptors[j]? with
  | none => none
  | some a =>
    match a.phase with
    | .queued => some (s.put j a .head)
    | .head => some (s.put j a (if s.isStop then .done else .calling))
    | .calling => some (s.accept j a r)
    | .waiting | .done => none

/-- A call of `accept` times out. -/
def timeout (j : ℕ) : Option (Serving C) :=
  match s.acceptors[j]? with
  | some ⟨sock, .waiting⟩ => some (s.put j ⟨sock, .waiting⟩ .head)
  | _ => none

/-- What an action does. -/
def act : ServeAct C → Option (Serving C)
  | .bind => some s.bind
  | .connect sock c => if sock ∈ s.sockets then some (s.connect sock c) else none
  | .start => some s.start
  | .stop => some s.stop
  | .close => if 0 < s.closing then some s.close else none
  | .turn j r => s.turn j r
  | .timeout j => s.timeout j

/-- A step; there is none after an assertion has failed. -/
def step (a : ServeAct C) : Option (Serving C) := if s.aborted then none else s.act a

/-- A server as it is constructed. -/
def new : Serving C :=
  ⟨true, [], 0, fun _ => [], [], 0, [], false, fun _ => []⟩

end Serving

variable {C : Type*}

/-- All orders of the steps. -/
def serving (C : Type*) : System (Serving C) (ServeAct C) where
  init s := s = .new
  step s a := s.step a

theorem act_of_step {s s' : Serving C} {a : ServeAct C} (h : s.step a = some s') :
    s.aborted = false ∧ s.act a = some s' := by
  rw [Serving.step] at h
  split_ifs at h with haborted
  exact ⟨Bool.eq_false_iff.2 haborted, h⟩

/-! ### Steps -/

/-- **What a call of `startAccept` can do.** -/
theorem turn_cases {s s' : Serving C} {j : ℕ} {r : Accepted} (h : s.turn j r = some s') :
    ∃ a, s.acceptors[j]? = some a ∧
      (a.phase = .queued ∧ s' = s.put j a .head ∨
        a.phase = .head ∧ s' = s.put j a (if s.isStop then .done else .calling) ∨
        a.phase = .calling ∧ s' = s.accept j a r) := by
  rw [Serving.turn] at h
  cases hj : s.acceptors[j]? with
  | none => rw [hj] at h; cases h
  | some a =>
    simp only [hj] at h
    refine ⟨a, rfl, ?_⟩
    cases hp : a.phase with
    | queued => rw [hp] at h; exact .inl ⟨rfl, (Option.some.inj h).symm⟩
    | head => rw [hp] at h; exact .inr (.inl ⟨rfl, (Option.some.inj h).symm⟩)
    | calling => rw [hp] at h; exact .inr (.inr ⟨rfl, (Option.some.inj h).symm⟩)
    | waiting => rw [hp] at h; cases h
    | done => rw [hp] at h; cases h

theorem timeout_cases {s s' : Serving C} {j : ℕ} (h : s.timeout j = some s') :
    ∃ a, s.acceptors[j]? = some a ∧ a.phase = .waiting ∧ s' = s.put j a .head := by
  rw [Serving.timeout] at h
  split at h
  · rename_i hj
    exact ⟨_, hj, rfl, (Option.some.inj h).symm⟩
  · cases h

/-- **What a call of `accept` can do.** -/
theorem accept_cases (s : Serving C) (j : ℕ) (a : Acceptor) (r : Accepted) :
    (a.sock ∉ s.sockets ∨ r = .failed) ∧ s.accept j a r = s.put j a .head ∨
      a.sock ∈ s.sockets ∧ ⟨a.sock, .waiting⟩ ∈ s.acceptors ∧
        s.accept j a r = { s with aborted := true } ∨
      a.sock ∈ s.sockets ∧ ⟨a.sock, .waiting⟩ ∉ s.acceptors ∧ s.accept j a r = s.put j a .waiting ∨
      r ≠ .failed ∧ ∃ c cs, s.backlog a.sock = c :: cs ∧
        s.accept j a r = (s.pop a.sock c cs (decide (r = .taken))).put j a .head := by
  unfold Serving.accept
  by_cases h : a.sock ∉ s.sockets ∨ r = .failed
  · rw [if_pos h]
    exact .inl ⟨h, rfl⟩
  · rw [if_neg h]
    have hopen : a.sock ∈ s.sockets := not_not.1 fun hn => h (.inl hn)
    cases hb : s.backlog a.sock with
    | nil =>
      show _ ∨ _ ∧ _ ∧ s.await j a = _ ∨ _ ∧ _ ∧ s.await j a = _ ∨ _
      unfold Serving.await
      by_cases hw : (⟨a.sock, .waiting⟩ : Acceptor) ∈ s.acceptors
      · exact .inr (.inl ⟨hopen, hw, if_pos hw⟩)
      · exact .inr (.inr (.inl ⟨hopen, hw, if_neg hw⟩))
    | cons c cs => exact .inr (.inr (.inr ⟨fun hr => h (.inr hr), c, cs, rfl, rfl⟩))

/-! ### Connections -/

/-- The connections of a socket for which `handleClient` has been scheduled. -/
def Serving.handled (s : Serving C) (k : ℕ) : List C :=
  (s.scheduled.filter fun e => e.1 = k).map Prod.snd

/-- No connection is lost: no socket is closed, and `init` does not fail. -/
def Lossless (_ : Serving C) : ServeAct C → Prop
  | .close | .turn _ .dropped => False
  | _ => True

instance (s : Serving C) : (a : ServeAct C) → Decidable (Lossless s a)
  | .close | .turn _ .dropped => inferInstanceAs (Decidable False)
  | .bind | .connect _ _ | .start | .stop | .turn _ .taken | .turn _ .failed | .timeout _ =>
    inferInstanceAs (Decidable True)

theorem handled_pop (s : Serving C) (sock : ℕ) (c : C) (cs : List C) (accepted : Bool) (k : ℕ) :
    (s.pop sock c cs accepted).handled k =
      s.handled k ++ if accepted = true ∧ k = sock then [c] else [] := by
  unfold Serving.handled Serving.pop
  cases accepted
  · simp
  · by_cases hk : k = sock
    · simp [hk]
    · simp [hk, Ne.symm hk]

/-- A connection that leaves a backlog. -/
theorem pop_flow {s : Serving C} {sock : ℕ} {c : C} {cs : List C} (h : s.backlog sock = c :: cs)
    (accepted : Bool) (k : ℕ) :
    ((s.pop sock c cs accepted).handled k ++ (s.pop sock c cs accepted).backlog k).Sublist
        (s.handled k ++ s.backlog k) ∧
      (accepted = true → (s.pop sock c cs accepted).handled k ++
        (s.pop sock c cs accepted).backlog k = s.handled k ++ s.backlog k) := by
  have hbacklog : (s.pop sock c cs accepted).backlog k =
      if k = sock then cs else s.backlog k := Function.update_apply _ _ _ _
  rw [handled_pop, hbacklog]
  by_cases hk : k = sock
  · subst hk
    cases accepted
    · refine ⟨?_, fun h => absurd h Bool.false_ne_true⟩
      simp [h]
    · simp [h]
  · simp [hk]

/-- What a step does to the connections of a socket. -/
structure FlowStep (s s' : Serving C) (lossless : Prop) (k : ℕ) : Prop where
  change : ∃ new, s'.arrived k = s.arrived k ++ new ∧
    (s'.handled k ++ s'.backlog k).Sublist (s.handled k ++ s.backlog k ++ new) ∧
    (lossless → s'.handled k ++ s'.backlog k = s.handled k ++ s.backlog k ++ new)

theorem FlowStep.of_eq {s s' : Serving C} {p : Prop} {k : ℕ} (harrived : s'.arrived = s.arrived)
    (hscheduled : s'.scheduled = s.scheduled) (hbacklog : s'.backlog = s.backlog) :
    FlowStep s s' p k := by
  have hhandled : s'.handled k = s.handled k := by
    rw [Serving.handled, hscheduled, Serving.handled]
  refine ⟨[], ?_, ?_, fun _ => ?_⟩
  · rw [harrived, List.append_nil]
  · rw [hhandled, hbacklog, List.append_nil]
  · rw [hhandled, hbacklog, List.append_nil]

theorem accept_flow (s : Serving C) (j : ℕ) (a : Acceptor) (r : Accepted) (k : ℕ) :
    FlowStep s (s.accept j a r) (r ≠ .dropped) k := by
  rcases accept_cases s j a r with ⟨-, h⟩ | ⟨-, -, h⟩ | ⟨-, -, h⟩ | ⟨hr, c, cs, hb, h⟩
  · rw [h]
    exact .of_eq rfl rfl rfl
  · rw [h]
    exact .of_eq rfl rfl rfl
  · rw [h]
    exact .of_eq rfl rfl rfl
  · obtain ⟨hsub, heq⟩ := pop_flow hb (decide (r = .taken)) k
    rw [h]
    refine ⟨[], (List.append_nil _).symm, ?_, fun hdropped => ?_⟩
    · rw [List.append_nil]
      exact hsub
    · rw [List.append_nil]
      refine heq (decide_eq_true ?_)
      cases r with
      | taken => rfl
      | dropped => exact absurd rfl hdropped
      | failed => exact absurd rfl hr

theorem step_flow {s s' : Serving C} {a : ServeAct C} (h : s.step a = some s') (k : ℕ) :
    FlowStep s s' (Lossless s a) k := by
  replace h := (act_of_step h).2
  cases a with
  | bind =>
    obtain rfl := Option.some.inj h
    exact .of_eq rfl rfl rfl
  | connect sock c =>
    rw [Serving.act] at h
    split_ifs at h
    obtain rfl := Option.some.inj h
    have hhandled : (s.connect sock c).handled k = s.handled k := rfl
    have harrived : (s.connect sock c).arrived k =
        if k = sock then s.arrived sock ++ [c] else s.arrived k := Function.update_apply _ _ _ _
    have hbacklog : (s.connect sock c).backlog k =
        if k = sock then s.backlog sock ++ [c] else s.backlog k := Function.update_apply _ _ _ _
    refine ⟨if k = sock then [c] else [], ?_⟩
    rw [hhandled, harrived, hbacklog]
    by_cases hk : k = sock
    · subst hk
      simp
    · simp [hk]
  | start =>
    obtain rfl := Option.some.inj h
    unfold Serving.start
    split_ifs <;> exact .of_eq rfl rfl rfl
  | stop =>
    obtain rfl := Option.some.inj h
    exact .of_eq rfl rfl rfl
  | close =>
    rw [Serving.act] at h
    split_ifs at h
    obtain rfl := Option.some.inj h
    refine ⟨[], (List.append_nil _).symm, ?_, fun h => h.elim⟩
    have hbacklog : s.close.backlog k = if k ∈ s.sockets then [] else s.backlog k := rfl
    have hhandled : s.close.handled k = s.handled k := rfl
    rw [hbacklog, hhandled, List.append_nil]
    split_ifs
    · rw [List.append_nil]
      exact List.sublist_append_left _ _
    · exact List.Sublist.refl _
  | turn j r =>
    obtain ⟨a, -, ⟨-, rfl⟩ | ⟨-, rfl⟩ | ⟨-, rfl⟩⟩ := turn_cases h
    · exact .of_eq rfl rfl rfl
    · exact .of_eq rfl rfl rfl
    · obtain ⟨new, harrived, hsub, heq⟩ := accept_flow s j a r k
      refine ⟨new, harrived, hsub, fun hl => heq fun hr => ?_⟩
      subst hr
      exact hl
  | timeout j =>
    obtain ⟨a, -, -, rfl⟩ := timeout_cases h
    exact .of_eq rfl rfl rfl

/-- What holds of the sockets and the calls in every state. -/
structure Control (s : Serving C) : Prop where
  nodup : s.sockets.Nodup
  made : ∀ k ∈ s.sockets, k < s.made
  known : ∀ a ∈ s.acceptors, a.sock < s.made
  /-- A fiber waits for an open socket only. -/
  waits : ∀ a ∈ s.acceptors, a.phase = .waiting → a.sock ∈ s.sockets
  /-- When the tasks of `stop` have run, the sockets of the calls are closed. -/
  ends : s.isStop = true → s.closing = 0 → ∀ a ∈ s.acceptors, a.phase ≠ .done → a.sock ∉ s.sockets

theorem wake_sock (p : ℕ → Prop) [DecidablePred p] (a : Acceptor) :
    (Serving.wake p a).sock = a.sock := by
  unfold Serving.wake
  split_ifs <;> rfl

theorem wake_done (p : ℕ → Prop) [DecidablePred p] (a : Acceptor) :
    (Serving.wake p a).phase = .done ↔ a.phase = .done := by
  unfold Serving.wake
  split_ifs with h
  · simp [h.1]
  · rfl

theorem wake_waiting {p : ℕ → Prop} [DecidablePred p] {a : Acceptor}
    (h : (Serving.wake p a).phase = .waiting) : a.phase = .waiting ∧ ¬ p a.sock := by
  unfold Serving.wake at h
  split_ifs at h with hw
  exact ⟨h, fun hp => hw ⟨h, hp⟩⟩

theorem mem_put {s : Serving C} {j : ℕ} {a b : Acceptor} {p : Phase}
    (h : b ∈ (s.put j a p).acceptors) : b ∈ s.acceptors ∨ b = { a with phase := p } :=
  List.mem_or_eq_of_mem_set h

namespace Control

variable {s s' : Serving C} {j : ℕ} {a : Acceptor}

/-- A call that goes on to another phase. -/
theorem put (h : Control s) (hj : s.acceptors[j]? = some a) (ha : a.phase ≠ .done) {p : Phase}
    (hp : p = .waiting → a.sock ∈ s.sockets) : Control (s.put j a p) where
  nodup := h.nodup
  made := h.made
  known b hb := by
    rcases mem_put hb with hb | rfl
    · exact h.known b hb
    · exact h.known a (List.mem_of_getElem? hj)
  waits b hb hw := by
    rcases mem_put hb with hb | rfl
    · exact h.waits b hb hw
    · exact hp hw
  ends hstop hclosing b hb hlive := by
    rcases mem_put hb with hb | rfl
    · exact h.ends hstop hclosing b hb hlive
    · exact h.ends hstop hclosing a (List.mem_of_getElem? hj) ha

theorem accept (h : Control s) (hj : s.acceptors[j]? = some a) (ha : a.phase = .calling)
    (r : Accepted) : Control (s.accept j a r) := by
  have hlive : a.phase ≠ .done := by rw [ha]; decide
  rcases accept_cases s j a r with ⟨-, heq⟩ | ⟨-, -, heq⟩ | ⟨hopen, -, heq⟩ | ⟨-, c, cs, -, heq⟩
  · rw [heq]
    exact h.put hj hlive (by simp)
  · rw [heq]
    exact ⟨h.nodup, h.made, h.known, h.waits, h.ends⟩
  · rw [heq]
    exact h.put hj hlive fun _ => hopen
  · rw [heq]
    have hpop : Control (s.pop a.sock c cs (decide (r = .taken))) :=
      ⟨h.nodup, h.made, h.known, h.waits, h.ends⟩
    exact hpop.put hj hlive (by simp)

theorem turn (h : Control s) {r : Accepted} (hs : s.turn j r = some s') : Control s' := by
  obtain ⟨a, hj, ⟨hp, rfl⟩ | ⟨hp, rfl⟩ | ⟨hp, rfl⟩⟩ := turn_cases hs
  · exact h.put hj (by rw [hp]; decide) (by simp)
  · refine h.put hj (by rw [hp]; decide) ?_
    split_ifs <;> simp
  · exact h.accept hj hp r

theorem step (h : Control s) {a : ServeAct C} (hs : s.step a = some s') : Control s' := by
  replace hs := (act_of_step hs).2
  cases a with
  | bind =>
    obtain rfl := Option.some.inj hs
    have hfresh : s.made ∉ s.sockets := fun hm => lt_irrefl _ (h.made _ hm)
    refine ⟨?_, fun k hk => ?_, fun a ha => (h.known a ha).trans (Nat.lt_succ_self _),
      fun a ha hw => List.mem_append_left _ (h.waits a ha hw), fun hstop hclosing a ha hlive => ?_⟩
    · exact h.nodup.append (List.nodup_singleton _) (List.disjoint_singleton.2 hfresh)
    · rcases List.mem_append.1 hk with hk | hk
      · exact (h.made k hk).trans (Nat.lt_succ_self _)
      · rw [List.mem_singleton.1 hk]
        exact Nat.lt_succ_self _
    · intro hm
      rcases List.mem_append.1 hm with hm | hm
      · exact h.ends hstop hclosing a ha hlive hm
      · exact (h.known a ha).ne (List.mem_singleton.1 hm)
  | connect sock c =>
    rw [Serving.act] at hs
    split_ifs at hs
    obtain rfl := Option.some.inj hs
    refine ⟨h.nodup, h.made, fun b hb => ?_, fun b hb hw => ?_, fun hstop hclosing b hb hlive => ?_⟩
    · obtain ⟨a, ha, rfl⟩ := List.mem_map.1 hb
      rw [wake_sock]
      exact h.known a ha
    · obtain ⟨a, ha, rfl⟩ := List.mem_map.1 hb
      rw [wake_sock]
      exact h.waits a ha (wake_waiting hw).1
    · obtain ⟨a, ha, rfl⟩ := List.mem_map.1 hb
      rw [wake_sock]
      exact h.ends hstop hclosing a ha fun hd => hlive ((wake_done _ a).2 hd)
  | start =>
    obtain rfl := Option.some.inj hs
    unfold Serving.start
    split_ifs
    · exact h
    · have hnew : ∀ a ∈ s.acceptors ++ s.sockets.map (⟨·, .queued⟩), a ∈ s.acceptors ∨
          a.phase = .queued ∧ a.sock ∈ s.sockets := by
        intro a ha
        refine (List.mem_append.1 ha).imp_right fun ha => ?_
        obtain ⟨k, hk, rfl⟩ := List.mem_map.1 ha
        exact ⟨rfl, hk⟩
      refine ⟨h.nodup, h.made, fun a ha => ?_, fun a ha hw => ?_,
        fun hstop => absurd hstop Bool.false_ne_true⟩
      · exact (hnew a ha).elim (h.known a) fun hq => h.made _ hq.2
      · exact (hnew a ha).elim (fun ha => h.waits a ha hw) fun hq => hq.2
  | stop =>
    obtain rfl := Option.some.inj hs
    exact ⟨h.nodup, h.made, h.known, h.waits,
      fun _ hclosing => absurd hclosing (Nat.succ_ne_zero _)⟩
  | close =>
    rw [Serving.act] at hs
    split_ifs at hs
    obtain rfl := Option.some.inj hs
    refine ⟨List.nodup_nil, fun k hk => absurd hk List.not_mem_nil, fun b hb => ?_,
      fun b hb hw => ?_, fun _ _ _ _ _ => List.not_mem_nil⟩
    · obtain ⟨a, ha, rfl⟩ := List.mem_map.1 hb
      rw [wake_sock]
      exact h.known a ha
    · -- a fiber that still waits would wait for a closed socket
      obtain ⟨a, ha, rfl⟩ := List.mem_map.1 hb
      exact absurd (h.waits a ha (wake_waiting hw).1) (wake_waiting hw).2
  | turn j r => exact h.turn hs
  | timeout j =>
    obtain ⟨a, hj, hp, rfl⟩ := timeout_cases hs
    exact h.put hj (by rw [hp]; decide) (by simp)

theorem leads {G : Serving C → ServeAct C → Prop} (h : Control s)
    (hl : (serving C).Leads G s s') : Control s' := by
  induction hl with
  | refl => exact h
  | step _ _ hs ih => exact ih.step hs

end Control

theorem control_of_reachable {G : Serving C → ServeAct C → Prop} {s : Serving C}
    (h : (serving C).ReachableWhen G s) : Control s := by
  refine h.invariant (I := Control) ?_ fun _ _ _ _ hc _ hs => hc.step hs
  rintro s rfl
  refine ⟨List.nodup_nil, fun k hk => ?_, fun a ha => ?_, fun a ha => ?_, fun _ _ a ha => ?_⟩
  · cases hk
  · cases ha
  · cases ha
  · cases ha

/-- The turns that a call takes until it ends, when its socket is closed and `isStop` is set. -/
def Phase.rank : Phase → ℕ
  | .queued => 2
  | .head => 1
  | .calling => 2
  | .waiting => 0
  | .done => 0

/-- The turns that are left. -/
def Serving.work (s : Serving C) : ℕ := (s.acceptors.map fun a => a.phase.rank).sum

/-- Neither `start` nor `stop` is called. -/
def Ending (_ : Serving C) : ServeAct C → Prop
  | .start | .stop => False
  | _ => True

instance (s : Serving C) : (a : ServeAct C) → Decidable (Ending s a)
  | .start | .stop => inferInstanceAs (Decidable False)
  | .bind | .connect _ _ | .close | .turn _ _ | .timeout _ => inferInstanceAs (Decidable True)

/-- The turns of an action. -/
def ServeAct.turns : ServeAct C → ℕ
  | .turn _ _ => 1
  | _ => 0

/-- `stop` has been called, and its task has run. -/
structure Ends (s : Serving C) : Prop extends Control s where
  running : s.aborted = false
  stopped : s.isStop = true
  closed : s.closing = 0

theorem sum_rank_set (b : Acceptor) {l : List Acceptor} {j : ℕ} {a : Acceptor}
    (hj : l[j]? = some a) : ((l.set j b).map fun a => a.phase.rank).sum + a.phase.rank =
      (l.map fun a => a.phase.rank).sum + b.phase.rank := by
  induction l generalizing j with
  | nil => cases hj
  | cons c l ih =>
    cases j with
    | zero =>
      obtain rfl : c = a := Option.some.inj hj
      simp only [List.set_cons_zero, List.map_cons, List.sum_cons]
      omega
    | succ j =>
      have := ih hj
      simp only [List.set_cons_succ, List.map_cons, List.sum_cons]
      omega

theorem work_put {s : Serving C} {j : ℕ} {a : Acceptor} (hj : s.acceptors[j]? = some a)
    (p : Phase) : (s.put j a p).work + a.phase.rank = s.work + p.rank :=
  sum_rank_set { a with phase := p } hj

/-- No fiber waits any more. -/
theorem Ends.not_waiting {s : Serving C} (h : Ends s) {a : Acceptor} (ha : a ∈ s.acceptors) :
    a.phase ≠ .waiting := fun hw =>
  h.ends h.stopped h.closed a ha (by rw [hw]; decide) (h.waits a ha hw)

theorem Ends.work_eq_zero_iff {s : Serving C} (h : Ends s) :
    s.work = 0 ↔ ∀ a ∈ s.acceptors, a.phase = .done := by
  rw [Serving.work, List.sum_eq_zero_iff_forall_eq_nat]
  constructor
  · intro hall a ha
    have hrank := hall _ (List.mem_map_of_mem ha)
    have hwait := h.not_waiting ha
    cases hp : a.phase with
    | waiting => exact absurd hp hwait
    | done => rfl
    | _ => rw [hp] at hrank; cases hrank
  · intro hall n hn
    obtain ⟨a, ha, rfl⟩ := List.mem_map.1 hn
    simp only [hall a ha, Phase.rank]

/-- A call that has not ended can go on. -/
theorem Ends.exists_turn {s : Serving C} (h : Ends s)
    (hwork : ¬ ∀ a ∈ s.acceptors, a.phase = .done) :
    ∃ j, ∀ r, (s.step (.turn j r)).isSome = true := by
  push Not at hwork
  obtain ⟨a, ha, hlive⟩ := hwork
  obtain ⟨j, hj⟩ := List.mem_iff_getElem?.1 ha
  refine ⟨j, fun r => ?_⟩
  rw [Serving.step, if_neg (by rw [h.running]; decide), Serving.act, Serving.turn]
  have hwait := h.not_waiting ha
  cases hp : a.phase with
  | waiting => exact absurd hp hwait
  | done => exact absurd hp hlive
  | _ => simp only [hj, hp, Option.isSome_some]

/-- **One step of the shutdown.** -/
theorem Ends.step {s s' : Serving C} (h : Ends s) {a : ServeAct C} (ha : Ending s a)
    (hs : s.step a = some s') : Ends s' ∧ s'.work + a.turns = s.work := by
  have hc := h.toControl.step hs
  have hact := (act_of_step hs).2
  cases a with
  | bind =>
    obtain rfl := Option.some.inj hact
    exact ⟨⟨hc, h.running, h.stopped, h.closed⟩, rfl⟩
  | connect sock c =>
    rw [Serving.act] at hact
    split_ifs at hact
    obtain rfl := Option.some.inj hact
    refine ⟨⟨hc, h.running, h.stopped, h.closed⟩, ?_⟩
    -- no fiber waits, so none is woken
    have hwake : s.acceptors.map (Serving.wake (· = sock)) = s.acceptors.map id := by
      refine List.map_congr_left fun b hb => ?_
      rw [Serving.wake, if_neg fun hw => h.not_waiting hb hw.1, id]
    show ((s.acceptors.map (Serving.wake (· = sock))).map _).sum + 0 = _
    rw [hwake, List.map_id]
    rfl
  | start => exact ha.elim
  | stop => exact ha.elim
  | close =>
    rw [Serving.act, h.closed] at hact
    cases hact
  | turn j r =>
    obtain ⟨b, hj, ⟨hp, rfl⟩ | ⟨hp, rfl⟩ | ⟨hp, rfl⟩⟩ := turn_cases hact
    · have hwork : (s.put j b .head).work + Phase.rank .queued = s.work + 1 :=
        hp ▸ work_put hj .head
      exact ⟨⟨hc, h.running, h.stopped, h.closed⟩, Nat.succ.inj hwork⟩
    · have hwork : (s.put j b .done).work + Phase.rank .head = s.work := hp ▸ work_put hj .done
      rw [h.stopped, if_pos rfl] at hc ⊢
      exact ⟨⟨hc, h.running, h.stopped, h.closed⟩, hwork⟩
    · -- the socket is closed
      have hshut := h.ends h.stopped h.closed b (List.mem_of_getElem? hj) (by rw [hp]; decide)
      have haccept : s.accept j b r = s.put j b .head := if_pos (.inl hshut)
      have hwork : (s.put j b .head).work + Phase.rank .calling = s.work + 1 :=
        hp ▸ work_put hj .head
      rw [haccept] at hc ⊢
      exact ⟨⟨hc, h.running, h.stopped, h.closed⟩, Nat.succ.inj hwork⟩
  | timeout j =>
    obtain ⟨b, hj, hp, -⟩ := timeout_cases hact
    exact absurd hp (h.not_waiting (List.mem_of_getElem? hj))

/-- A call of `startAccept` goes round on a closed socket: `accept` fails each time, and `isStop` is
not set. -/
def Serving.Spins (s : Serving C) : Prop :=
  s.isStop = false ∧ ∃ a ∈ s.acceptors, a.phase ≠ .done ∧ a.sock ∉ s.sockets

/-- Nothing of the last run is left: the tasks of `stop` have run, or there is no socket for them,
and all calls of `startAccept` have ended. -/
def Serving.Clean (s : Serving C) : Prop :=
  (s.closing = 0 ∨ s.sockets = []) ∧ ∀ a ∈ s.acceptors, a.phase = .done

/-- A server that has been stopped is started again when nothing of the last run is left. -/
def CleanStart (s : Serving C) : ServeAct C → Prop
  | .start => s.isStop = true → s.Clean
  | _ => True

instance (s : Serving C) : Decidable s.Clean := inferInstanceAs (Decidable (_ ∧ _))

instance (s : Serving C) : (a : ServeAct C) → Decidable (CleanStart s a)
  | .start => inferInstanceAs (Decidable (s.isStop = true → s.Clean))
  | .bind | .connect _ _ | .stop | .close | .turn _ _ | .timeout _ =>
    inferInstanceAs (Decidable True)

/-- `stop` is not called. -/
def NoStop (_ : Serving C) : ServeAct C → Prop
  | .stop => False
  | _ => True

/-- A call that has not ended is alone on its socket, which is open. -/
structure Calm (s : Serving C) : Prop extends Control s where
  running : s.aborted = false
  opened : s.isStop = false → ∀ a ∈ s.acceptors, a.phase ≠ .done → a.sock ∈ s.sockets
  /-- A task of `stop` that is left over finds no call. -/
  leftover : s.isStop = false → 0 < s.closing → ∀ a ∈ s.acceptors, a.phase = .done
  alone : ∀ (i j : ℕ) (a b : Acceptor), s.acceptors[i]? = some a → s.acceptors[j]? = some b →
    a.phase ≠ .done → b.phase ≠ .done → a.sock = b.sock → i = j

namespace Calm

variable {s s' : Serving C} {j : ℕ} {a : Acceptor}

theorem getElem?_put {i : ℕ} {b : Acceptor} {p : Phase}
    (h : (s.put j a p).acceptors[i]? = some b) :
    i ≠ j ∧ s.acceptors[i]? = some b ∨ i = j ∧ b = { a with phase := p } := by
  rw [Serving.put, List.getElem?_set] at h
  split_ifs at h with hij
  · exact .inr ⟨hij.symm, (Option.some.inj h).symm⟩
  · exact .inl ⟨Ne.symm hij, h⟩

/-- A call that goes on to another phase. -/
theorem put (h : Calm s) (hj : s.acceptors[j]? = some a) (ha : a.phase ≠ .done) {p : Phase}
    (hp : p = .waiting → a.sock ∈ s.sockets) : Calm (s.put j a p) where
  toControl := h.toControl.put hj ha hp
  running := h.running
  opened hstop b hb hlive := by
    rcases mem_put hb with hb | rfl
    · exact h.opened hstop b hb hlive
    · exact h.opened hstop a (List.mem_of_getElem? hj) ha
  leftover hstop hclosing b hb := by
    -- a call that has not ended is not there
    exact absurd (h.leftover hstop hclosing a (List.mem_of_getElem? hj)) ha
  alone i k b c hi hk hb hc hsock := by
    rcases getElem?_put hi with ⟨-, hi⟩ | ⟨hij, rfl⟩
    · rcases getElem?_put hk with ⟨-, hk⟩ | ⟨hkj, rfl⟩
      · exact h.alone i k b c hi hk hb hc hsock
      · exact (h.alone i j b a hi hj hb ha hsock).trans hkj.symm
    · rcases getElem?_put hk with ⟨-, hk⟩ | ⟨hkj, rfl⟩
      · exact hij.trans (h.alone j k a c hj hk ha hc hsock)
      · exact hij.trans hkj.symm

theorem accept (h : Calm s) (hj : s.acceptors[j]? = some a) (ha : a.phase = .calling)
    (r : Accepted) : Calm (s.accept j a r) := by
  have hlive : a.phase ≠ .done := by rw [ha]; decide
  rcases accept_cases s j a r with ⟨-, heq⟩ | ⟨-, hw, -⟩ | ⟨hopen, -, heq⟩ | ⟨-, c, cs, -, heq⟩
  · rw [heq]
    exact h.put hj hlive (by simp)
  · -- another fiber waits at the socket, and there is none
    obtain ⟨i, hi⟩ := List.mem_iff_getElem?.1 hw
    obtain rfl := h.alone i j _ a hi hj (by simp) hlive rfl
    rw [hi] at hj
    rw [← Option.some.inj hj] at ha
    cases ha
  · rw [heq]
    exact h.put hj hlive fun _ => hopen
  · rw [heq]
    have hpop : Calm (s.pop a.sock c cs (decide (r = .taken))) :=
      ⟨⟨h.nodup, h.made, h.known, h.waits, h.ends⟩, h.running, h.opened, h.leftover, h.alone⟩
    exact hpop.put hj hlive (by simp)

/-- Fibers that are woken. -/
theorem alone_wake (h : Calm s) (p : ℕ → Prop) [DecidablePred p] (i j : ℕ) (a b : Acceptor)
    (hi : (s.acceptors.map (Serving.wake p))[i]? = some a)
    (hj : (s.acceptors.map (Serving.wake p))[j]? = some b) (ha : a.phase ≠ .done)
    (hb : b.phase ≠ .done) (hsock : a.sock = b.sock) : i = j := by
  rw [List.getElem?_map, Option.map_eq_some_iff] at hi hj
  obtain ⟨c, hc, rfl⟩ := hi
  obtain ⟨d, hd, rfl⟩ := hj
  rw [wake_sock, wake_sock] at hsock
  exact h.alone i j c d hc hd (fun hp => ha ((wake_done p c).2 hp))
    (fun hp => hb ((wake_done p d).2 hp)) hsock

theorem start (h : Calm s) (hclean : s.isStop = true → s.Clean) (hc : Control s.start) :
    Calm s.start := by
  unfold Serving.start at hc ⊢
  split_ifs at hc ⊢ with hstop
  · exact h
  · obtain ⟨hclosing, hdone⟩ := hclean (by simpa using hstop)
    have hlive : ∀ a ∈ s.acceptors ++ s.sockets.map (⟨·, .queued⟩), a.phase ≠ .done →
        a.sock ∈ s.sockets := by
      intro a ha hlive
      rcases List.mem_append.1 ha with ha | ha
      · exact absurd (hdone a ha) hlive
      · obtain ⟨k, hk, rfl⟩ := List.mem_map.1 ha
        exact hk
    -- a call that has not ended is a new one, and has the place of its socket
    have hplace : ∀ (i : ℕ) (a : Acceptor),
        (s.acceptors ++ s.sockets.map (⟨·, .queued⟩))[i]? = some a → a.phase ≠ .done →
          s.acceptors.length ≤ i ∧ s.sockets[i - s.acceptors.length]? = some a.sock := by
      intro i a hi hlive
      by_cases hlt : i < s.acceptors.length
      · rw [List.getElem?_append_left hlt] at hi
        exact absurd (hdone a (List.mem_of_getElem? hi)) hlive
      · rw [List.getElem?_append_right (Nat.le_of_not_lt hlt), List.getElem?_map,
          Option.map_eq_some_iff] at hi
        obtain ⟨k, hk, rfl⟩ := hi
        exact ⟨Nat.le_of_not_lt hlt, hk⟩
    refine ⟨hc, h.running, fun _ => hlive, fun _ hpos a ha => ?_,
      fun i j a b hi hj ha hb hsock => ?_⟩
    · by_contra hp
      have hsock := hlive a ha hp
      rcases hclosing with hzero | hnil
      · exact absurd hzero (Nat.ne_of_gt hpos)
      · rw [hnil] at hsock
        cases hsock
    · obtain ⟨hle, hi⟩ := hplace i a hi ha
      obtain ⟨hle', hj⟩ := hplace j b hj hb
      rw [hsock] at hi
      have := (List.getElem?_inj (List.getElem?_eq_some_iff.1 hi).1 h.nodup).1 (hi.trans hj.symm)
      omega

theorem step (h : Calm s) {a : ServeAct C} (hg : CleanStart s a) (hs : s.step a = some s') :
    Calm s' := by
  have hc := h.toControl.step hs
  replace hs := (act_of_step hs).2
  cases a with
  | bind =>
    obtain rfl := Option.some.inj hs
    exact ⟨hc, h.running, fun hstop a ha hlive =>
      List.mem_append_left _ (h.opened hstop a ha hlive), h.leftover, h.alone⟩
  | connect sock c =>
    rw [Serving.act] at hs
    split_ifs at hs
    obtain rfl := Option.some.inj hs
    refine ⟨hc, h.running, fun hstop b hb hlive => ?_, fun hstop hclosing b hb => ?_,
      h.alone_wake _⟩
    · obtain ⟨a, ha, rfl⟩ := List.mem_map.1 hb
      rw [wake_sock]
      exact h.opened hstop a ha fun hp => hlive ((wake_done _ a).2 hp)
    · obtain ⟨a, ha, rfl⟩ := List.mem_map.1 hb
      exact (wake_done _ a).2 (h.leftover hstop hclosing a ha)
  | start =>
    obtain rfl := Option.some.inj hs
    exact h.start hg hc
  | stop =>
    obtain rfl := Option.some.inj hs
    exact ⟨hc, h.running, fun hstop => absurd hstop.symm Bool.false_ne_true,
      fun hstop => absurd hstop.symm Bool.false_ne_true, h.alone⟩
  | close =>
    rw [Serving.act] at hs
    split_ifs at hs with hclosing
    obtain rfl := Option.some.inj hs
    have hdone : s.isStop = false → ∀ b ∈ s.close.acceptors, b.phase = .done := by
      intro hstop b hb
      obtain ⟨a, ha, rfl⟩ := List.mem_map.1 hb
      exact (wake_done _ a).2 (h.leftover hstop hclosing a ha)
    exact ⟨hc, h.running, fun hstop b hb hlive => absurd (hdone hstop b hb) hlive,
      fun hstop _ => hdone hstop, h.alone_wake _⟩
  | turn j r =>
    obtain ⟨a, hj, ⟨hp, rfl⟩ | ⟨hp, rfl⟩ | ⟨hp, rfl⟩⟩ := turn_cases hs
    · exact h.put hj (by rw [hp]; decide) (by simp)
    · refine h.put hj (by rw [hp]; decide) ?_
      split_ifs <;> simp
    · exact h.accept hj hp r
  | timeout j =>
    obtain ⟨a, hj, hp, rfl⟩ := timeout_cases hs
    exact h.put hj (by rw [hp]; decide) (by simp)

end Calm

theorem calm_of_reachable {s : Serving C} (h : (serving C).ReachableWhen CleanStart s) :
    Calm s := by
  refine h.invariant (I := Calm) ?_ fun _ _ _ _ hc hg hs => hc.step hg hs
  rintro s rfl
  refine ⟨control_of_reachable (G := CleanStart) (.init rfl), rfl, ?_, ?_, ?_⟩
  · exact fun hstop => absurd hstop.symm Bool.false_ne_true
  · exact fun hstop => absurd hstop.symm Bool.false_ne_true
  · intro i j a b hi
    cases hi

namespace Serving.Spins

variable {s s' : Serving C} {j : ℕ} {a : Acceptor}

theorem put (h : s.Spins) (hj : s.acceptors[j]? = some a) {p : Phase} (hp : p ≠ .done) :
    (s.put j a p).Spins := by
  obtain ⟨hstop, b, hb, hlive, hshut⟩ := h
  refine ⟨hstop, ?_⟩
  obtain ⟨i, hi⟩ := List.mem_iff_getElem?.1 hb
  by_cases hij : j = i
  · -- it is the call itself that goes on
    subst hij
    obtain rfl : a = b := Option.some.inj (hj.symm.trans hi)
    have hlt : j < s.acceptors.length := (List.getElem?_eq_some_iff.1 hi).1
    exact ⟨{ a with phase := p }, List.mem_iff_getElem?.2 ⟨j, List.getElem?_set_self hlt⟩, hp,
      hshut⟩
  · exact ⟨b, List.mem_iff_getElem?.2 ⟨i, (List.getElem?_set_ne hij).trans hi⟩, hlive, hshut⟩

theorem accept (h : s.Spins) (hj : s.acceptors[j]? = some a) (r : Accepted) :
    (s.accept j a r).Spins := by
  rcases accept_cases s j a r with ⟨-, heq⟩ | ⟨-, -, heq⟩ | ⟨-, -, heq⟩ | ⟨-, c, cs, -, heq⟩
  · rw [heq]
    exact h.put hj (by decide)
  · rw [heq]
    exact h
  · rw [heq]
    exact h.put hj (by decide)
  · rw [heq]
    have hpop : (s.pop a.sock c cs (decide (r = .taken))).Spins := h
    exact hpop.put hj (by decide)

/-- Fibers that are woken. -/
theorem wake (h : s.Spins) (p : ℕ → Prop) [DecidablePred p] :
    ∃ b ∈ s.acceptors.map (Serving.wake p), b.phase ≠ .done ∧ b.sock ∉ s.sockets := by
  obtain ⟨-, a, ha, hlive, hshut⟩ := h
  refine ⟨Serving.wake p a, List.mem_map_of_mem ha, fun hd => hlive ((wake_done p a).1 hd), ?_⟩
  rw [wake_sock]
  exact hshut

/-- **A call that spins on a closed socket does so until `stop` is called.** -/
theorem step (h : s.Spins) (hc : Control s) {a : ServeAct C} (ha : NoStop s a)
    (hs : s.step a = some s') : s'.Spins := by
  replace hs := (act_of_step hs).2
  cases a with
  | bind =>
    obtain rfl := Option.some.inj hs
    obtain ⟨hstop, b, hb, hlive, hshut⟩ := h
    refine ⟨hstop, b, hb, hlive, fun hm => ?_⟩
    rcases List.mem_append.1 hm with hm | hm
    · exact hshut hm
    · exact (hc.known b hb).ne (List.mem_singleton.1 hm)
  | connect sock c =>
    rw [Serving.act] at hs
    split_ifs at hs
    obtain rfl := Option.some.inj hs
    exact ⟨h.1, h.wake _⟩
  | start =>
    obtain rfl := Option.some.inj hs
    have hstart : s.start = s := if_pos (by rw [h.1]; rfl)
    rw [hstart]
    exact h
  | stop => exact ha.elim
  | close =>
    rw [Serving.act] at hs
    split_ifs at hs
    obtain rfl := Option.some.inj hs
    obtain ⟨b, hb, hlive, -⟩ := h.wake (· ∈ s.sockets)
    exact ⟨h.1, b, hb, hlive, List.not_mem_nil⟩
  | turn j r =>
    obtain ⟨b, hj, ⟨-, rfl⟩ | ⟨-, rfl⟩ | ⟨-, rfl⟩⟩ := turn_cases hs
    · exact h.put hj (by decide)
    · rw [h.1]
      exact h.put hj (by decide)
    · exact h.accept hj r
  | timeout j =>
    obtain ⟨b, hj, -, rfl⟩ := timeout_cases hs
    exact h.put hj (by decide)

theorem leads (h : s.Spins) (hc : Control s) (hl : (serving C).Leads NoStop s s') :
    s'.Spins := by
  induction hl with
  | refl => exact h
  | step hl hg hs ih => exact ih.step (hc.leads hl) hg hs

end Serving.Spins

/-- A server that is started again while something of the last run is left. -/
theorem spins_of_start {s : Serving C} (hc : Control s) (hrun : s.aborted = false)
    (hstop : s.isStop = true) (hclean : ¬ s.Clean) :
    ∃ s', (serving C).Leads NoStop s.start s' ∧ s'.Spins := by
  have hstart : s.start = { s with
      isStop := false, acceptors := s.acceptors ++ s.sockets.map (⟨·, .queued⟩) } :=
    if_neg (by rw [hstop]; decide)
  by_cases hshut : ∃ a ∈ s.acceptors, a.phase ≠ .done ∧ a.sock ∉ s.sockets
  · -- a call of the last run finds its socket closed and `isStop` reset
    obtain ⟨a, ha, hlive, hshut⟩ := hshut
    refine ⟨s.start, .refl, ?_⟩
    rw [hstart]
    exact ⟨rfl, a, List.mem_append_left _ ha, hlive, hshut⟩
  · -- a task of `stop` closes a socket that has a new call
    have hleft : 0 < s.closing ∧ ∃ k, k ∈ s.sockets := by
      by_contra hnone
      refine hclean ⟨?_, fun a ha => ?_⟩
      · by_contra h
        push Not at h
        exact hnone ⟨Nat.pos_of_ne_zero h.1, List.exists_mem_of_ne_nil _ h.2⟩
      · by_contra hlive
        have hopen : a.sock ∈ s.sockets := by
          by_contra hn
          exact hshut ⟨a, ha, hlive, hn⟩
        refine hnone ⟨Nat.pos_of_ne_zero fun hzero => ?_, a.sock, hopen⟩
        exact hc.ends hstop hzero a ha hlive hopen
    obtain ⟨hclosing, k, hk⟩ := hleft
    refine ⟨s.start.close, .step .refl (a := .close) trivial ?_, ?_⟩
    · show Serving.step _ _ = _
      rw [Serving.step, if_neg (by rw [hstart, hrun]; decide), Serving.act,
        if_pos (by rw [hstart]; exact hclosing)]
    · rw [hstart]
      refine ⟨rfl, ⟨k, .queued⟩, List.mem_map.2 ⟨⟨k, .queued⟩, ?_, rfl⟩, Phase.noConfusion,
        List.not_mem_nil⟩
      exact List.mem_append_right _ (List.mem_map_of_mem hk)

end Tcp

end YXTWebCpp
