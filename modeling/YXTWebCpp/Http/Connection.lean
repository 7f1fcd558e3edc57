import YXTWebCpp.Http.Response
import YXTWebCpp.Http.Server

/-!
# What a response says of its connection

`HttpServer::handleClient` (`httpserver.cpp`) decides twice whether a connection is kept: when it
constructs the response, whose flag `m_close` the servlet may change before `dump` writes it
as the `connection` line, and when it leaves its loop or not.

* `Turn` : one turn of the loop.
* `serveTurn`, `serveLoop`, `serveClient` : the loop with the responses; `serveClient_requests` says
  that it answers the requests of `handleClient`.
* `announced_iff` : **the lines and the loop agree** exactly if the servlets leave the flag as it
  is.
-/

namespace YXTWebCpp

namespace Http

/-- A servlet, by what it does to the response.  The number is that of the turn, so that it may
change its behaviour. -/
abbrev Handler := ℕ → HttpRequest → HttpResponse → HttpResponse

/-- A turn of the loop of `handleClient` that has got a request. -/
structure Turn where
  /-- The request. -/
  request : HttpRequest
  /-- The response as the server has constructed it. -/
  built : HttpResponse
  /-- The response as it is sent. -/
  response : HttpResponse
  /-- The loop is left after this turn. -/
  stops : Bool

variable (cast : List UInt8 → Option ℕ) (buffSize : ℕ) (keepalive : Bool) (name : List UInt8)

/-- One turn of the loop: `none` when there is no request any more, and otherwise what the turn does
and what is left to read. -/
def serveTurn (handler : HttpRequest → HttpResponse → HttpResponse) (mem : HttpParser)
    (segs : Segments) : Option (Turn × Segments) :=
  match recvRequest cast buffSize mem segs with
  | (.request res, rest) =>
    let rsp := (HttpResponse.new res.version (res.close || !keepalive)).setHeader (ascii "Server")
      name
    some (⟨res, rsp, handler res rsp, !keepalive || res.close⟩, rest)
  | (.nullptr, _) => none
  | (.lengthError, _) => none

/-- The loop of `handleClient`, at most `fuel` turns of it. -/
def serveLoop : ℕ → Handler → (ℕ → HttpParser) → Segments → List Turn
  | 0, _, _, _ => []
  | fuel + 1, handler, mems, segs =>
    match serveTurn cast buffSize keepalive name (handler 0) (mems 0) segs with
    | some (t, rest) =>
      t :: if t.stops then []
        else serveLoop fuel (fun i => handler (i + 1)) (fun i => mems (i + 1)) rest
    | none => []

/-- `HttpServer::handleClient` with the responses it sends. -/
def serveClient (handler : Handler) (mems : ℕ → HttpParser) (segs : Segments) : List Turn :=
  serveLoop cast buffSize keepalive name (segs.flatten.length + 1) handler mems segs

variable {cast buffSize keepalive name}

theorem serveLoop_requests (fuel : ℕ) : ∀ (handler : Handler) (mems : ℕ → HttpParser)
    (segs : Segments),
    (serveLoop cast buffSize keepalive name fuel handler mems segs).map Turn.request =
      handleLoop cast buffSize keepalive fuel mems segs := by
  induction fuel with
  | zero => intro handler mems segs; rfl
  | succ fuel ih =>
    intro handler mems segs
    rw [serveLoop, handleLoop, serveTurn]
    cases hr : recvRequest cast buffSize (mems 0) segs with
    | mk res rest =>
      cases res with
      | nullptr => rfl
      | lengthError => rfl
      | request r =>
        simp only [List.map_cons]
        split_ifs
        · rfl
        · rw [ih]

/-- The turns answer the requests that the server answers. -/
theorem serveClient_requests (handler : Handler) (mems : ℕ → HttpParser) (segs : Segments) :
    (serveClient cast buffSize keepalive name handler mems segs).map Turn.request =
      handleClient cast buffSize keepalive mems segs :=
  serveLoop_requests _ _ _ _

/-- What a turn does. -/
theorem serveTurn_eq {handler : HttpRequest → HttpResponse → HttpResponse} {mem : HttpParser}
    {segs rest : Segments} {t : Turn}
    (h : serveTurn cast buffSize keepalive name handler mem segs = some (t, rest)) :
    t.built.close = (t.request.close || !keepalive) ∧ t.built.websocket = false ∧
      t.response = handler t.request t.built ∧ t.stops = (!keepalive || t.request.close) := by
  unfold serveTurn at h
  cases hr : recvRequest cast buffSize mem segs with
  | mk res rest' =>
    rw [hr] at h
    cases res with
    | nullptr => cases h
    | lengthError => cases h
    | request r =>
      obtain ⟨rfl, -⟩ := Prod.mk.inj (Option.some.inj h)
      exact ⟨rfl, rfl, rfl, rfl⟩

/-- What holds of every turn holds of the turns of the loop. -/
theorem serveLoop_forall {P : Turn → Prop} {Q : (HttpRequest → HttpResponse → HttpResponse) → Prop}
    (hP : ∀ handler mem segs t rest, Q handler →
      serveTurn cast buffSize keepalive name handler mem segs = some (t, rest) → P t) (fuel : ℕ) :
    ∀ (handler : Handler) (mems : ℕ → HttpParser) (segs : Segments), (∀ i, Q (handler i)) →
      ∀ t ∈ serveLoop cast buffSize keepalive name fuel handler mems segs, P t := by
  induction fuel with
  | zero => intro handler mems segs _ t ht; cases ht
  | succ fuel ih =>
    intro handler mems segs hQ t ht
    rw [serveLoop] at ht
    cases hr : serveTurn cast buffSize keepalive name (handler 0) (mems 0) segs with
    | none => simp [hr] at ht
    | some x =>
      obtain ⟨t', rest⟩ := x
      simp only [hr, List.mem_cons] at ht
      rcases ht with rfl | ht
      · exact hP _ _ _ _ _ (hQ 0) hr
      · split_ifs at ht
        · cases ht
        · exact ih _ _ _ (fun i => hQ (i + 1)) t ht

/-- The line of the response and the loop agree in a turn. -/
def Turn.Announced (t : Turn) : Prop :=
  (t.stops = true ↔ headerLine (ascii "connection") (ascii "close") ∈ t.response.lines) ∧
    (t.stops = false ↔ headerLine (ascii "connection") (ascii "keep-alive") ∈ t.response.lines)

instance : DecidablePred Turn.Announced := fun _ => inferInstanceAs (Decidable (_ ∧ _))

/-- A turn whose servlet leaves the websocket flag alone. -/
theorem serveTurn_announced {handler : HttpRequest → HttpResponse → HttpResponse}
    {mem : HttpParser} {segs rest : Segments} {t : Turn}
    (hw : ∀ req rsp, rsp.websocket = false → (handler req rsp).websocket = false)
    (h : serveTurn cast buffSize keepalive name handler mem segs = some (t, rest)) :
    t.Announced ↔ t.response.close = t.built.close := by
  obtain ⟨hbuilt, hwb, hrsp, hstops⟩ := serveTurn_eq h
  have hwr : t.response.websocket = false := by
    rw [hrsp]
    exact hw _ _ hwb
  have hclose : headerLine (ascii "connection") (ascii "close") ∈ t.response.lines ↔
      t.response.close = true := connection_mem_lines hwr true
  have hkeep : headerLine (ascii "connection") (ascii "keep-alive") ∈ t.response.lines ↔
      t.response.close = false := connection_mem_lines hwr false
  -- the loop tests again what the server has constructed the response with
  have hagree : t.stops = t.built.close := by rw [hstops, hbuilt, Bool.or_comm]
  rw [Turn.Announced, hclose, hkeep, hagree]
  cases t.built.close <;> cases t.response.close <;> decide

/-- **Announced and actual connection handling agree**: whatever is received on a connection, and
whatever the servlets do to the responses besides setting the websocket flag, the loop is left after
a response with the line `connection: close` and goes on after one with `connection: keep-alive`,
exactly if no servlet changes `m_close`. -/
theorem announced_iff (handler : Handler) (mems : ℕ → HttpParser) (segs : Segments)
    (hw : ∀ i req rsp, rsp.websocket = false → (handler i req rsp).websocket = false) :
    (∀ t ∈ serveClient cast buffSize keepalive name handler mems segs, t.Announced) ↔
      ∀ t ∈ serveClient cast buffSize keepalive name handler mems segs,
        t.response.close = t.built.close := by
  have hturn : ∀ t ∈ serveClient cast buffSize keepalive name handler mems segs,
      (t.Announced ↔ t.response.close = t.built.close) :=
    serveLoop_forall (fun handler _ _ _ _ (hQ : ∀ req rsp, rsp.websocket = false →
      (handler req rsp).websocket = false) h => serveTurn_announced hQ h) _ _ _ _ hw
  exact forall₂_congr hturn

/-- A servlet that reports an error and leaves the connection as it is. -/
def notFound : Handler := fun _ _ rsp => { rsp with status := .notFound, body := ascii "404" }

/-- Two requests on a connection that is kept. -/
theorem announced_iff_notFound :
    (serveClient decimal 4096 true (ascii "yuxintao/httpserver") notFound (fun _ => zeroed)
        [ping.head, ping.head]).length = 2 ∧
      ∀ t ∈ serveClient decimal 4096 true (ascii "yuxintao/httpserver") notFound (fun _ => zeroed)
        [ping.head, ping.head], t.Announced :=
  ⟨by decide +kernel, (announced_iff notFound _ _ fun _ _ _ h => h).2 (by decide +kernel)⟩

/-- A servlet that ends the connection with its response. -/
def endConnection : Handler := fun _ _ rsp => { rsp with close := true }

/-- The first of two requests gets a response with the line `connection: close`, but the server
reads on and answers the second one as well. -/
theorem not_announced_setClose :
    ∃ t t', serveClient decimal 4096 true (ascii "yuxintao/httpserver") endConnection
        (fun _ => zeroed) [ping.head, ping.head] = [t, t'] ∧
      headerLine (ascii "connection") (ascii "close") ∈ t.response.lines ∧ t.stops = false ∧
      ¬ t.Announced := by
  have hlen : ((serveClient decimal 4096 true (ascii "yuxintao/httpserver") endConnection
      (fun _ => zeroed) [ping.head, ping.head]).map fun t =>
        (decide (headerLine (ascii "connection") (ascii "close") ∈ t.response.lines), t.stops)) =
      [(true, false), (true, false)] := by
    decide +kernel
  obtain ⟨t, l, heq, ht, hl⟩ := List.map_eq_cons_iff.1 hlen
  obtain ⟨t', l', rfl, -, hl'⟩ := List.map_eq_cons_iff.1 hl
  obtain rfl := List.map_eq_nil_iff.1 hl'
  simp only [Prod.mk.injEq, decide_eq_true_eq] at ht
  refine ⟨t, t', heq, ht.1, ht.2, fun h => ?_⟩
  exact absurd (ht.2.symm.trans (h.1.2 ht.1)) (by decide)

end Http

end YXTWebCpp
