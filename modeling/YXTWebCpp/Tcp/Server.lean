import Mathlib.Data.List.ReduceOption
import Mathlib.Tactic.SplitIfs

/-!
# Binding a server to its addresses

`TCPServer::bind` (`tcpserver.cpp`) makes a listening socket for each of a list of addresses.

* `Net` : the calls of the system, which can fail at any time.
* `TCPServer.bind` : the loop over the addresses, and what is done when some of them failed.
* `outcomes` : the sockets that listen in the end, address by address.
* `AllOrNothing` : a call binds all the addresses, or names the ones that failed and leaves the
  server as it was.
* `allOrNothing_iff` : **this holds exactly when no address fails**.
-/

namespace YXTWebCpp

namespace Tcp

/-- The calls of the system, which depend on its state and change it. -/
structure Net (Addr K : Type*) where
  /-- `Address::getFamily` -/
  family : Addr → ℕ
  /-- `socket`, which `Socket::bind` asserts to give a descriptor. -/
  socket : ℕ → K → ℕ × K
  /-- `bind` returns 0 -/
  bind : ℕ → Addr → K → Bool × K
  /-- `listen` returns 0 -/
  listen : ℕ → K → Bool × K
  /-- `close` -/
  close : ℕ → K → K

variable {Addr K : Type*} (net : Net Addr K)

/-! ### Sockets -/

/-- `Socket` -/
structure Socket where
  /-- `m_family` -/
  family : ℕ
  /-- `m_sock`, `none` for -1 -/
  sock : Option ℕ
  deriving DecidableEq

namespace Socket

/-- `Socket::CreateTCP` -/
def createTCP (address : Addr) : Socket := ⟨net.family address, none⟩

/-- `Socket::newSock` -/
def newSock (s : Socket) (k : K) : Socket × K :=
  let r := net.socket s.family k
  ({ s with sock := some r.1 }, r.2)

/-- `Socket::bind` -/
def bind (s : Socket) (addr : Addr) (k : K) : Bool × Socket × K :=
  let (s, k) := if s.sock.isNone then s.newSock net k else (s, k)
  if net.family addr ≠ s.family then (false, s, k)
  else match s.sock with
    | none => (false, s, k)
    | some fd =>
      let r := net.bind fd addr k
      (r.1, s, r.2)

/-- `Socket::listen` -/
def listen (s : Socket) (k : K) : Bool × K :=
  match s.sock with
  | none => (false, k)
  | some fd => net.listen fd k

/-- `Socket::~Socket` -/
def destroy (s : Socket) (k : K) : K :=
  match s.sock with
  | none => k
  | some fd => net.close fd k

end Socket

/-! ### The loop -/

/-- The socket that is made for an address, if it listens; otherwise it is destroyed again. -/
def attempt (addr : Addr) (k : K) : Option Socket × K :=
  let (bound, sock, k) := (Socket.createTCP net addr).bind net addr k
  if !bound then (none, sock.destroy net k)
  else
    let (listening, k) := sock.listen net k
    if !listening then (none, sock.destroy net k) else (some sock, k)

/-- What the loop of `TCPServer::bind` changes. -/
structure Binding (Addr K : Type*) where
  /-- `m_sockets` -/
  sockets : List Socket
  failaddrs : List Addr
  kernel : K

/-- One round of the loop. -/
def Binding.round (b : Binding Addr K) (addr : Addr) : Binding Addr K :=
  match attempt net addr b.kernel with
  | (none, k) => { b with failaddrs := b.failaddrs ++ [addr], kernel := k }
  | (some sock, k) => { b with sockets := b.sockets ++ [sock], kernel := k }

/-- `TCPServer` -/
structure TCPServer where
  /-- `m_sockets` -/
  sockets : List Socket

/-- What a call of `TCPServer::bind` leaves to its caller. -/
structure BindResult (Addr : Type*) where
  /-- The value returned. -/
  ret : Bool
  /-- The server. -/
  server : TCPServer
  /-- The vector of the caller. -/
  fails : List Addr

/-- `TCPServer::bind`, which gets a copy of the vector `fails`. -/
def TCPServer.bind (s : TCPServer) (addrs fails : List Addr) (k : K) : BindResult Addr :=
  let b := addrs.foldl (Binding.round net) ⟨s.sockets, fails, k⟩
  if b.failaddrs ≠ [] then ⟨false, ⟨[]⟩, fails⟩ else ⟨true, ⟨b.sockets⟩, fails⟩

/-! ### What happens to the addresses -/

/-- The sockets that listen in the end, address by address. -/
def outcomes : List Addr → K → List (Option Socket)
  | [], _ => []
  | addr :: addrs, k => (attempt net addr k).1 :: outcomes addrs (attempt net addr k).2

/-- The addresses that failed. -/
def failing (addrs : List Addr) (os : List (Option Socket)) : List Addr :=
  (addrs.zip os).filterMap fun p => if p.2.isNone then some p.1 else none

/-- A call with an empty vector binds every address, or names the ones that failed and leaves the
server as it was. -/
structure AllOrNothing (s : TCPServer) (addrs : List Addr) (k : K) : Prop where
  ret : (s.bind net addrs [] k).ret = true ↔ ∀ o ∈ outcomes net addrs k, o ≠ none
  bound : (s.bind net addrs [] k).ret = true → ∃ added, outcomes net addrs k = added.map some ∧
    (s.bind net addrs [] k).server.sockets = s.sockets ++ added
  failed : (s.bind net addrs [] k).ret = false →
    (s.bind net addrs [] k).fails = failing addrs (outcomes net addrs k) ∧
      (s.bind net addrs [] k).server.sockets = s.sockets

/-- The loop adds the sockets that listen, and the addresses of the others. -/
theorem foldl_round (addrs : List Addr) (b : Binding Addr K) :
    (addrs.foldl (Binding.round net) b).sockets =
        b.sockets ++ (outcomes net addrs b.kernel).reduceOption ∧
      (addrs.foldl (Binding.round net) b).failaddrs =
        b.failaddrs ++ failing addrs (outcomes net addrs b.kernel) := by
  induction addrs generalizing b with
  | nil => exact ⟨(List.append_nil _).symm, (List.append_nil _).symm⟩
  | cons addr addrs ih =>
    rw [List.foldl_cons, outcomes, failing, List.zip_cons_cons]
    obtain ⟨hsockets, hfails⟩ := ih (b.round net addr)
    rw [hsockets, hfails, Binding.round]
    rcases h : attempt net addr b.kernel with ⟨_ | sock, k⟩
    · exact ⟨rfl, List.append_assoc _ [addr] _⟩
    · exact ⟨List.append_assoc _ [sock] _, rfl⟩

theorem length_outcomes (addrs : List Addr) (k : K) :
    (outcomes net addrs k).length = addrs.length := by
  induction addrs generalizing k with
  | nil => rfl
  | cons addr addrs ih => rw [outcomes, List.length_cons, ih, List.length_cons]

theorem failing_eq_nil_iff {addrs : List Addr} {os : List (Option Socket)}
    (h : os.length = addrs.length) : failing addrs os = [] ↔ ∀ o ∈ os, o ≠ none := by
  induction addrs generalizing os with
  | nil => simp [failing, List.length_eq_zero_iff.1 h]
  | cons addr addrs ih =>
    obtain ⟨o, os, rfl⟩ := List.exists_cons_of_length_eq_add_one h
    have htail := ih (Nat.succ.inj h)
    rw [List.forall_mem_cons, ← htail, failing, List.zip_cons_cons, failing]
    cases o with
    | none => simp
    | some sock => simp

theorem map_some_reduceOption {os : List (Option Socket)} (h : ∀ o ∈ os, o ≠ none) :
    os.reduceOption.map some = os := by
  induction os with
  | nil => rfl
  | cons o os ih =>
    obtain ⟨ho, hos⟩ := List.forall_mem_cons.1 h
    obtain ⟨sock, rfl⟩ := Option.ne_none_iff_exists'.1 ho
    rw [List.reduceOption_cons_of_some, List.map_cons, ih hos]

section Bind

variable {net} {addrs : List Addr} {k : K}

/-- A call all of whose addresses succeed. -/
theorem bind_of_forall (s : TCPServer) (h : ∀ o ∈ outcomes net addrs k, o ≠ none) :
    s.bind net addrs [] k =
      ⟨true, ⟨s.sockets ++ (outcomes net addrs k).reduceOption⟩, []⟩ := by
  obtain ⟨hsockets, hfails⟩ := foldl_round net addrs ⟨s.sockets, [], k⟩
  have hnil := (failing_eq_nil_iff (length_outcomes net addrs k)).2 h
  rw [TCPServer.bind, hfails, hsockets, hnil]
  rfl

/-- A call one of whose addresses fails. -/
theorem bind_of_not_forall (s : TCPServer) (h : ¬ ∀ o ∈ outcomes net addrs k, o ≠ none) :
    s.bind net addrs [] k = ⟨false, ⟨[]⟩, []⟩ := by
  obtain ⟨-, hfails⟩ := foldl_round net addrs ⟨s.sockets, [], k⟩
  have hnil := mt (failing_eq_nil_iff (length_outcomes net addrs k)).1 h
  rw [TCPServer.bind, hfails]
  exact if_pos hnil

end Bind

/-- **All or nothing**: exactly when no address fails.  The addresses that failed never come back to
the caller, and with them the server loses every socket that it had. -/
theorem allOrNothing_iff (s : TCPServer) (addrs : List Addr) (k : K) :
    AllOrNothing net s addrs k ↔ ∀ o ∈ outcomes net addrs k, o ≠ none := by
  constructor
  · intro hall
    by_contra h
    have hfails := (hall.failed (by rw [bind_of_not_forall s h])).1
    rw [bind_of_not_forall s h] at hfails
    exact h ((failing_eq_nil_iff (length_outcomes net addrs k)).1 hfails.symm)
  · intro h
    have hbind := bind_of_forall s h
    refine ⟨?_, fun _ => ?_, fun hret => ?_⟩
    · rw [hbind]
      exact iff_of_true rfl h
    · rw [hbind]
      exact ⟨_, (map_some_reduceOption h).symm, rfl⟩
    · rw [hbind] at hret
      cases hret

/-- A system in which `listen` fails for every descriptor. -/
def deafNet : Net ℕ Unit where
  family _ := 2
  socket _ k := (4, k)
  bind _ _ k := (true, k)
  listen _ k := (false, k)
  close _ k := k

/-- **A server that listens loses its sockets**: for one more address on which it cannot listen it
drops the one that it had, and the caller does not learn which address failed. -/
theorem not_allOrNothing_deafNet :
    TCPServer.bind deafNet ⟨[⟨2, some 3⟩]⟩ [8999] [] () = ⟨false, ⟨[]⟩, []⟩ ∧
      failing [8999] (outcomes deafNet [8999] ()) = [8999] ∧
      ¬ AllOrNothing deafNet ⟨[⟨2, some 3⟩]⟩ [8999] () := by
  refine ⟨rfl, rfl, fun h => ?_⟩
  have hfails : [] = [8999] := (h.failed rfl).1
  cases hfails

end Tcp

end YXTWebCpp
