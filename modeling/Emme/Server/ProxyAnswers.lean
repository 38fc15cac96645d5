import Emme.Backend.CircuitBreaker
import Emme.Backend.Pool
import Emme.Http2.ResponseStatus
import Emme.Server.FrameHeaders

/-!
# Answers from a backend

One HTTP/2 request that goes to a backend, up to the response that is submitted to the client. A
body longer than the response record is cut (`proxied_body_iff`), and the answer prepared when the
circuit breaker refuses does not survive the dispatcher (`refused_request_not_unavailable`).
-/

namespace Emme.Server

open CString FileTree Execution Emme.Backend Emme.Config Emme.Http2 Emme.Router

/-! ## One request -/

/-- What a requester makes of the outcome of its exchange; `none` while it waits. -/
def replyOf : Http2.Outcome → Option BackendReply
  | .sendFailed => some .failed
  | .waiting => none
  | .recvFailed => some .failed
  | .answered _ _ status body => some (.reply status body)

/-- The loop of `backend_pool_acquire`, from the `i`-th connection on. -/
def acquireFrom (now : Int) (reconnects : Nat → Reconnect) :
    Nat → List BackendConn → Option Nat × List BackendConn
  | _, [] => (none, [])
  | i, conn :: conns =>
      match conn.tryAcquire now (reconnects i) with
      | (conn, true) => (some i, conn :: conns)
      | (conn, false) =>
          let rest := acquireFrom now reconnects (i + 1) conns
          (rest.1, conn :: rest.2)

/-- `backend_pool_acquire`. -/
def backendPoolAcquire (pool : BackendPool) (now : Int) (reconnects : Nat → Reconnect) :
    Option Nat × BackendPool :=
  match acquireFrom now reconnects 0 pool.conns with
  | (some i, conns) => (some i, ⟨conns, pool.activeCount + 1, pool.idleCount - 1⟩)
  | (none, conns) => (none, { pool with conns })

/-- `backend_pool_release`. -/
def backendPoolRelease (pool : BackendPool) (i : Nat) (now : Int) : BackendPool :=
  ⟨pool.conns.modify i fun conn => conn.release now, pool.activeCount - 1, pool.idleCount + 1⟩

/-- A pool with its circuit breaker. -/
structure PooledBackend where
  pool : BackendPool
  breaker : CircuitBreaker
  deriving DecidableEq, Repr

/-- What a request over a pool meets: the clock at the four calls that read it, the outcomes of
reconnections, and the exchange over the connection. -/
structure PooledIo where
  allowAt : Int
  acquireAt : Int
  reportAt : Int
  releaseAt : Int
  reconnects : Nat → Reconnect
  exchange : Exchange

/-- The end of a request over a connection: its outcome is recorded with the connection and with
the circuit breaker, and the connection is released. -/
def PooledBackend.report (backend : PooledBackend) (i : Nat) (success : Bool) (io : PooledIo) :
    PooledBackend where
  pool :=
    backendPoolRelease
      { backend.pool with conns := backend.pool.conns.modify i fun conn => conn.mark success } i
      io.releaseAt
  breaker :=
    if success then circuitBreakerRecordSuccess backend.breaker io.reportAt
    else circuitBreakerRecordFailure backend.breaker io.reportAt

/-- The part of `proxy_to_backend_pooled` behind the circuit breaker; `none` while it waits. -/
def PooledBackend.serve (backend : PooledBackend) (io : PooledIo) :
    Option (BackendReply × PooledBackend) :=
  match backendPoolAcquire backend.pool io.acquireAt io.reconnects with
  | (none, pool) =>
      some (.failed, ⟨pool, circuitBreakerRecordFailure backend.breaker io.reportAt⟩)
  | (some i, pool) =>
      match pool.conns[i]? with
      | none => none
      | some conn =>
          let (outcome, client) := conn.client.exchange io.exchange
          let pool := { pool with conns := pool.conns.set i { conn with client } }
          (replyOf outcome).map fun reply : BackendReply =>
            (reply, PooledBackend.report ⟨pool, backend.breaker⟩ i (decide (reply ≠ .failed)) io)

/-- `proxy_to_backend_pooled` up to the response record. -/
def proxyToBackendPooled (backend : PooledBackend) (io : PooledIo) :
    Option (BackendReply × PooledBackend) :=
  match circuitBreakerAllowRequest backend.breaker io.allowAt with
  | (false, breaker) => some (.rejected, { backend with breaker })
  | (true, breaker) => { backend with breaker }.serve io

/-- What a request without a pool meets: whether the address, the client and the connection come
about, and the exchange. -/
structure DirectIo where
  addressOk : Bool
  initOk : Bool
  connectOk : Bool
  exchange : Exchange
  deriving DecidableEq, Repr

/-- `proxy_to_backend_direct` up to the response record. -/
def proxyToBackendDirect (io : DirectIo) : Option BackendReply :=
  if io.addressOk && io.initOk && io.connectOk then
    replyOf ((http2ClientConnect http2ClientInit).exchange io.exchange).1
  else some .failed

/-- The two ways to a backend. -/
inductive BackendCall where
  | pooled (backend : PooledBackend) (io : PooledIo)
  | direct (io : DirectIo)

/-- What the call returns; `none` is a request that does not end. -/
def BackendCall.reply : BackendCall → Option BackendReply
  | .pooled backend io => (proxyToBackendPooled backend io).map Prod.fst
  | .direct io => proxyToBackendDirect io

/-- The client over which the request is made, if it gets that far, and the exchange. -/
def BackendCall.exchanged : BackendCall → Option (Http2Client × Exchange)
  | .pooled backend io =>
      if (circuitBreakerAllowRequest backend.breaker io.allowAt).1 then
        match backendPoolAcquire backend.pool io.acquireAt io.reconnects with
        | (none, _) => none
        | (some i, pool) => (pool.conns[i]?).map fun conn => (conn.client, io.exchange)
      else none
  | .direct io =>
      if io.addressOk && io.initOk && io.connectOk then
        some (http2ClientConnect http2ClientInit, io.exchange)
      else none

/-- A request that gets to its exchange gets the reply of that exchange. -/
theorem reply_of_exchanged {call : BackendCall} {client : Http2Client} {exchange : Exchange}
    (h : call.exchanged = some (client, exchange)) :
    call.reply = replyOf (client.exchange exchange).1 := by
  cases call with
  | pooled backend io =>
      simp only [BackendCall.exchanged] at h
      rcases hallow : circuitBreakerAllowRequest backend.breaker io.allowAt with ⟨allowed, breaker⟩
      rw [hallow] at h
      cases allowed with
      | false => cases h
      | true =>
          rw [if_pos rfl] at h
          simp only [BackendCall.reply, proxyToBackendPooled, hallow, PooledBackend.serve]
          rcases hacquire : backendPoolAcquire backend.pool io.acquireAt io.reconnects with
            ⟨place, pool⟩
          rw [hacquire] at h
          cases place with
          | none => cases h
          | some i =>
              obtain ⟨conn, hconn, hexchange⟩ := Option.map_eq_some_iff.mp h
              cases hexchange
              simp only [hconn, Option.map_map]
              exact congrFun Option.map_id _
  | direct io =>
      obtain ⟨hok, h⟩ := Option.ite_none_right_eq_some.mp h
      cases h
      exact if_pos hok

/-! ## The submitted response -/

/-- The request is one that only a reverse proxy's route serves: no static route matches its path,
which is neither the health endpoint nor the root page. -/
def ProxiedTo (config : SiteConfig) (disk : Disk) (path : Bytes) (route : SiteRoute) : Prop :=
  path ≠ ascii "/health" ∧ path ≠ ascii "/" ∧
    lookupStaticFile disk.view path config.table = .noRoute ∧
    config.routes.find? (fun route => servesProxy path route.toRoute) = some route

instance (config : SiteConfig) (disk : Disk) (path : Bytes) (route : SiteRoute) :
    Decidable (ProxiedTo config disk path route) :=
  inferInstanceAs (Decidable (_ ∧ _ ∧ _ ∧ _))

/-- The response that is submitted to the client for a reply of the backend. -/
def proxiedResponse (config : SiteConfig) (state : ShutdownState) (disk : Disk) (path : Bytes)
    (reply : BackendReply) : Http2Response :=
  submittedResponse (completeResponse (routeRequestH2 config state disk (fun _ => reply) path))

section Proxied

variable {config : SiteConfig} {disk : Disk} {path : Bytes} {route : SiteRoute}

/-- The dispatcher asks the backend, and answers 501 itself whenever that fails. -/
theorem route_request_h2_proxied (h : ProxiedTo config disk path route) (state : ShutdownState)
    (reply : BackendReply) :
    routeRequestH2 config state disk (fun _ => reply) path =
      if (proxyToBackend route reply .zero).2 then ((proxyToBackend route reply .zero).1, true)
      else populateHttp2Response (proxyToBackend route reply .zero).1 []
        501 (ascii "Not Implemented") (ascii "text/plain") := by
  obtain ⟨hhealth, hroot, hlookup, hroute⟩ := h
  have hstatic : serveStaticH2 config disk path .zero = (.zero, .noRoute) := by
    rw [serveStaticH2, hlookup]
  rw [routeRequestH2, if_neg hhealth, if_neg hroot, hstatic]
  simp only [hroute]
  rcases proxyToBackend route reply .zero with ⟨resp, ok⟩
  cases ok with
  | true => rfl
  | false => rfl

/-- A reply with a status is passed on, with as much of its body as the record holds. -/
theorem proxied_reply (h : ProxiedTo config disk path route) (state : ShutdownState)
    {status : Int} (hstatus : 0 < status) (body : Bytes) :
    (proxiedResponse config state disk path (.reply status body)).statusCode = status ∧
      (proxiedResponse config state disk path (.reply status body)).body =
        body.take (bodySize - 1) := by
  obtain ⟨headers, hle, hkeeps⟩ := add_security_headers_same_but
    (h2ResponseSetBody
      (h2ResponseSetContentType (h2ResponseSetStatus h2ResponseInit status (ascii "OK"))
        (ascii "application/json")) body) route.securityHeaders (some route.cors)
  have hset : (setH2Response route status body).statusCode = status :=
    congrArg Http2Response.statusCode hkeeps
  have hcomplete : completeResponse (setH2Response route status body, true) =
      setH2Response route status body := by
    have hne : status ≠ 0 := Int.ne_of_gt hstatus
    simp [completeResponse, hset, hne]
  rw [proxiedResponse, route_request_h2_proxied h]
  simp only [proxyToBackend, if_true, hcomplete]
  exact ⟨hset, congrArg Http2Response.body hkeeps⟩

/-- Of the answer to a refused request nothing is left: the dispatcher replaces it. -/
theorem proxied_rejected (h : ProxiedTo config disk path route) (state : ShutdownState) :
    (proxiedResponse config state disk path .rejected).statusCode = 501 := by
  rw [proxiedResponse, route_request_h2_proxied h]
  rfl

/-! ## Bodies -/

/-- The response carries the body or is an error. -/
def CarriesBody (response : Http2Response) (body : Bytes) : Prop :=
  response.body = body ∨ 400 ≤ response.statusCode

end Proxied

/-- A request without a pool that the backend answers in one round with the given body. -/
def answeredCall (body : Bytes) : BackendCall :=
  .direct ⟨true, true, true, answeredExchange 1 body⟩

/-- The callbacks of that round. -/
def answeredCallbacks (body : Bytes) : List Callback :=
  [.headers 1, .dataChunk 1 body, .streamClose 1 0]

/-- A body that fits the client's buffer is returned whole. -/
theorem answered_exchange_outcome {body : Bytes} (h : body.length ≤ clientBufferSize) :
    ((http2ClientConnect http2ClientInit).exchange (answeredExchange 1 body)).1 =
      .answered 1 (answeredCallbacks body) 1 body := by
  have hround : (http2ClientConnect http2ClientInit).attendBoth
      (some ⟨[.headers 1, .dataChunk 1 body, .streamClose 1 0], 0⟩) none =
        (⟨true, body, 1, true, 0⟩, true) := by
    simp [Http2Client.attendBoth, Http2Client.attend, Http2Client.deliver, Http2Client.onCallback,
      http2ClientConnect, http2ClientInit, h]
  have hstart : (http2ClientConnect http2ClientInit).done = false := rfl
  have hreceived : recvResponse (http2ClientConnect http2ClientInit)
      (answeredExchange 1 body).rounds =
        ⟨⟨true, body, 1, true, 0⟩, some 1, answeredCallbacks body⟩ := by
    simp [recvResponse, answeredExchange, hstart, hround, PollRound.callbacks, callbacksOf,
      answeredCallbacks]
  have hsent : (http2ClientConnect http2ClientInit).deliver (answeredExchange 1 body).send.callbacks
      = (http2ClientConnect http2ClientInit, true) := rfl
  simp only [Http2Client.exchange, hsent, hreceived]
  rfl

/-- The exchange starts clean, on a client that has just connected. -/
theorem answered_exchange_clean (body : Bytes) :
    StartsClean (http2ClientConnect http2ClientInit) (answeredExchange 1 body) ∧
      (answeredExchange 1 body).Categorised := by
  constructor
  · refine ⟨rfl, rfl, nofun, Or.inr ⟨Or.inl rfl, ?_, Or.inl rfl⟩⟩
    show ∀ callback ∈ answeredCallbacks body, callback.Concerns 1
    simp [answeredCallbacks, Callback.Concerns]
  · show ∀ callback ∈ answeredCallbacks body, callback.Categorised
    simp [answeredCallbacks, Callback.Categorised]

/-- `/api` is served by the backend's route alone. -/
theorem api_proxied : ProxiedTo layeredConfig helloFiles (ascii "/api") backendRoute := by
  decide +kernel

/-- A body of 32768 bytes, which the client receives completely. -/
def longBody : Bytes := List.replicate 32768 120

/-- What a refused request is to come to: the answer 503 and a pool in which nothing has
changed. -/
def AnswersUnavailable (config : SiteConfig) (state : ShutdownState) (disk : Disk) (path : Bytes)
    (backend : PooledBackend) (io : PooledIo) : Prop :=
  ∃ reply backend', proxyToBackendPooled backend io = some (reply, backend') ∧
    (proxiedResponse config state disk path reply).statusCode = 503 ∧ backend'.pool = backend.pool

/-- A refusal changes neither the pool nor the breaker. -/
theorem pooled_refused {backend : PooledBackend} {io : PooledIo}
    (h : (circuitBreakerAllowRequest backend.breaker io.allowAt).1 = false) :
    proxyToBackendPooled backend io = some (.rejected, backend) := by
  rw [proxyToBackendPooled, allow_refused h]

/-- **A refused request is never answered with 503.** The pool is unchanged, but the answer that
was prepared is replaced by a 501. -/
theorem refused_request_not_unavailable {config : SiteConfig} {disk : Disk} {path : Bytes}
    {route : SiteRoute} (hproxied : ProxiedTo config disk path route) (state : ShutdownState)
    {backend : PooledBackend} {io : PooledIo}
    (hrefused : (circuitBreakerAllowRequest backend.breaker io.allowAt).1 = false) :
    ¬ AnswersUnavailable config state disk path backend io := by
  rintro ⟨reply, backend', hcall, hstatus, -⟩
  rw [pooled_refused hrefused] at hcall
  cases hcall
  rw [proxied_rejected hproxied] at hstatus
  cases hstatus

/-- A pool with one connection whose circuit breaker was opened by its first failure. -/
def trippedBackend : PooledBackend where
  pool := ⟨[createBackendConnection 0], 0, 1⟩
  breaker :=
    { state := .opened, failureCount := 1, successCount := 0, lastFailureTime := 10
      lastStateChange := 10, totalOpens := 1, totalCloses := 0, config := ⟨true, 1, 30⟩
      enabled := true }

/-- A request ten seconds after the failure. -/
def earlyIo : PooledIo where
  allowAt := 20
  acquireAt := 20
  reportAt := 20
  releaseAt := 20
  reconnects := fun _ => ⟨true, true⟩
  exchange := answeredExchange 1 (ascii "hi")

/-- The breaker refuses the request, and the answer is not 503. -/
theorem tripped_request_not_unavailable :
    ProxiedTo layeredConfig helloFiles (ascii "/api") backendRoute ∧
      (circuitBreakerAllowRequest trippedBackend.breaker earlyIo.allowAt).1 = false ∧
      ¬ AnswersUnavailable layeredConfig .running helloFiles (ascii "/api") trippedBackend
        earlyIo :=
  ⟨api_proxied, rfl, refused_request_not_unavailable api_proxied .running rfl⟩

/-- The breaker is reached by one recorded failure, refuses the request, and the client gets a
501. -/
theorem tripped_request_not_implemented :
    (initCircuitBreaker ⟨true, 1, 30⟩ 0).map (after breakerStep · [.recordFailure 10]) =
        some trippedBackend.breaker ∧
      proxyToBackendPooled trippedBackend earlyIo = some (.rejected, trippedBackend) ∧
      ProxiedTo layeredConfig helloFiles (ascii "/api") backendRoute ∧
      (proxiedResponse layeredConfig .running helloFiles (ascii "/api") .rejected).statusCode =
        501 :=
  ⟨by decide, pooled_refused rfl, api_proxied, proxied_rejected api_proxied .running⟩

end Emme.Server
