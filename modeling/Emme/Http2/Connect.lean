import Emme.Http2.Client
import Emme.Lib.Resources

/-!
# The resources of the HTTP/2 client

`http2_client_connect` obtains a socket, a TLS context, a TLS object and a session one after
another. The error exits between the context and the session close and free without clearing the
fields, and the `http2_client_cleanup` that follows does it again (`client_log_clean_iff`).
-/

namespace Emme.Http2

open Resources

/-! ## Outcomes -/

/-- What a client obtains. The context is the reference that `SSL_CTX_new` returns; the one that
the TLS object takes is given back by `SSL_free`. -/
inductive Resource where
  | socket
  | ssl
  | context
  | session
  | callbacks
  deriving DecidableEq, Repr

/-- What a client does to its resources, in order. -/
abbrev ResourceLog := List (Event Resource)

/-- The fields of `http2_client_t` that hold resources: whether the pointer is not `NULL`, and
whether `socket_fd` is not negative. -/
structure ClientHandles where
  ssl : Bool
  socketFd : Bool
  session : Bool
  callbacks : Bool
  deriving DecidableEq, Repr

/-- How `connect_to_backend` ends. -/
inductive SocketResult where
  | noSocket
  | unresolved
  | refused
  | connected
  deriving DecidableEq, Repr

/-- How the loop around `SSL_connect` ends. -/
inductive HandshakeResult where
  | completed
  | timedOut
  | failed
  deriving DecidableEq, Repr

/-- What the calls of `http2_client_connect` return. `retries` are the rounds of the handshake in
which `poll` reports the socket as ready; `alpn` says that the peer chose `h2`. -/
structure ConnectSteps where
  socket : SocketResult
  context : Bool
  sslObject : Bool
  retries : Nat
  handshake : HandshakeResult
  alpn : Bool
  session : Bool
  settings : Bool
  preface : Bool
  deriving DecidableEq, Repr

/-- A step of `http2_client_connect`. -/
inductive Step where
  | socket
  | context
  | sslObject
  | handshake
  | alpn
  | session
  | settings
  | preface
  deriving DecidableEq, Repr

/-- The step at which `http2_client_connect` gives up. -/
def ConnectSteps.failedStep (steps : ConnectSteps) : Option Step :=
  if steps.socket ≠ .connected then some .socket
  else if !steps.context then some .context
  else if !steps.sslObject then some .sslObject
  else if steps.handshake ≠ .completed then some .handshake
  else if !steps.alpn then some .alpn
  else if !steps.session then some .session
  else if !steps.settings then some .settings
  else if !steps.preface then some .preface
  else none

/-! ## The functions -/

/-- `http2_client_init`: the `memset`, -1 for the descriptor, and the callbacks object, which
`init_client_callbacks` creates and fills in if `created`. -/
def ClientHandles.http2ClientInit (created : Bool) : ResourceLog × ClientHandles :=
  if created then
    (.acquire .callbacks :: uses [.callbacks], ⟨false, false, false, true⟩)
  else ([], ⟨false, false, false, false⟩)

/-- `http2_client_cleanup`. -/
def ClientHandles.http2ClientCleanup (handles : ClientHandles) : ResourceLog × ClientHandles :=
  ((if handles.session then [.release .session] else []) ++
    ((if handles.callbacks then [.release .callbacks] else []) ++
      ((if handles.ssl then [.use .ssl, .release .ssl, .release .context] else []) ++
        (if handles.socketFd then [.release .socket] else []))),
    ⟨false, false, false, false⟩)

/-- `connect_to_backend`, with whether it returns a descriptor. -/
def connectToBackend : SocketResult → ResourceLog × Bool
  | .noSocket => ([], false)
  -- two calls of `fcntl`, and `connect` where it comes to that
  | .unresolved => (.acquire .socket :: uses [.socket, .socket] ++ [.release .socket], false)
  | .refused =>
      (.acquire .socket :: uses [.socket, .socket, .socket] ++ [.release .socket], false)
  | .connected => (.acquire .socket :: uses [.socket, .socket, .socket], true)

/-- `create_http2_client_ssl_ctx`: the protocols, the verification mode and, with verification,
the default paths are set on the new context. -/
def createHttp2ClientSslCtx (tlsVerify : Bool) : ResourceLog :=
  .acquire .context :: uses (.context :: .context :: if tlsVerify then [.context] else [])

/-- `SSL_set_fd`, `SSL_set_connect_state` and the loop around `SSL_connect`. A round that is retried
looks at the error and polls the socket; the last one does the first of these if the handshake fails
and both if it times out. -/
def handshakeUses (retries : Nat) (result : HandshakeResult) : List Resource :=
  [.ssl, .ssl, .ssl, .socket] ++
    ((List.replicate retries [.ssl, .socket, .ssl, .socket]).flatten ++
      match result with
      | .completed => []
      | .timedOut => [.ssl, .socket]
      | .failed => [.ssl])

/-- What the exits between the TLS object and the session do, without a change of the fields. -/
def abandonTls : ResourceLog := [.release .ssl, .release .context, .release .socket]

/-- What a call of `http2_client_connect` leaves behind. -/
structure ConnectResult where
  log : ResourceLog
  handles : ClientHandles
  ok : Bool
  deriving DecidableEq, Repr

/-- The result of going on after `log`. -/
def ConnectResult.after (log : ResourceLog) (result : ConnectResult) : ConnectResult :=
  { result with log := log ++ result.log }

/-- `http2_client_connect` from `nghttp2_submit_settings` on. -/
def ClientHandles.startSession (handles : ClientHandles) (steps : ConnectSteps) : ConnectResult :=
  let cleaned := handles.http2ClientCleanup
  if !steps.settings then ⟨uses [.session] ++ cleaned.1, cleaned.2, false⟩
  else if !steps.preface then
    ⟨uses [.session, .session, .ssl, .socket] ++ cleaned.1, cleaned.2, false⟩
  else ⟨uses [.session, .session, .ssl, .socket], handles, true⟩

/-- `http2_client_connect` from `nghttp2_session_client_new2` on. -/
def ClientHandles.openSession (handles : ClientHandles) (steps : ConnectSteps) : ConnectResult :=
  .after (uses [.callbacks]) <|
    if !steps.session then ⟨abandonTls, handles, false⟩
    else .after [.acquire .session] <| { handles with session := true }.startSession steps

/-- `http2_client_connect` from `create_http2_client_ssl_ctx` on. -/
def ClientHandles.openTls (handles : ClientHandles) (tlsVerify : Bool) (steps : ConnectSteps) :
    ConnectResult :=
  if !steps.context then ⟨[.release .socket], handles, false⟩
  else .after (createHttp2ClientSslCtx tlsVerify ++ uses [.context]) <|
    if !steps.sslObject then ⟨[.release .context, .release .socket], handles, false⟩
    else
      let handles := { handles with ssl := true }
      .after (.acquire .ssl :: uses (handshakeUses steps.retries steps.handshake)) <|
        if steps.handshake ≠ .completed then ⟨abandonTls, handles, false⟩
        else .after (uses [.ssl]) <|
          if !steps.alpn then ⟨abandonTls, handles, false⟩
          else handles.openSession steps

/-- `http2_client_connect`. -/
def ClientHandles.http2ClientConnect (handles : ClientHandles) (tlsVerify : Bool)
    (steps : ConnectSteps) : ConnectResult :=
  let connected := connectToBackend steps.socket
  let handles := { handles with socketFd := connected.2 }
  .after connected.1 <|
    if !connected.2 then ⟨[], handles, false⟩ else handles.openTls tlsVerify steps

/-! The session field behind `http2_client_connect`, from its last part to its first. -/

/-- An earlier part of the log does not change the fields. -/
@[simp] theorem after_handles (log : ResourceLog) (result : ConnectResult) :
    (result.after log).handles = result.handles := rfl

/-- Nor the result. -/
@[simp] theorem after_ok (log : ResourceLog) (result : ConnectResult) :
    (result.after log).ok = result.ok := rfl

variable {handles : ClientHandles} {steps : ConnectSteps}

/-- The session is ended by the cleanup when the settings or the preface cannot be sent. -/
theorem start_session_session (h : handles.session = true) (steps : ConnectSteps) :
    (handles.startSession steps).handles.session = (handles.startSession steps).ok := by
  unfold ClientHandles.startSession
  split_ifs
  · rfl
  · rfl
  · exact h

/-- Without a session the field stays as it was. -/
theorem open_session_session (h : handles.session = false) (steps : ConnectSteps) :
    (handles.openSession steps).handles.session = (handles.openSession steps).ok := by
  unfold ClientHandles.openSession
  split_ifs
  · exact h
  · simp only [after_handles, after_ok]
    exact start_session_session rfl steps

/-- Up to the session no step sets the field. -/
theorem open_tls_session (h : handles.session = false) (tlsVerify : Bool) (steps : ConnectSteps) :
    (handles.openTls tlsVerify steps).handles.session =
      (handles.openTls tlsVerify steps).ok := by
  unfold ClientHandles.openTls
  split_ifs <;> simp only [after_handles, after_ok]
  · exact h
  · exact h
  · exact h
  · exact h
  · refine open_session_session ?_ steps
    exact h

/-- A client without a session has one behind `http2_client_connect` exactly if the function returns
0. So on the fields that decide about responses a connect is `Http2.http2ClientConnect` if it
returns 0, and otherwise nothing. -/
theorem connect_session (h : handles.session = false) {client : Http2Client}
    (hclient : client.session = handles.session) (tlsVerify : Bool) (steps : ConnectSteps) :
    (handles.http2ClientConnect tlsVerify steps).handles.session =
      (if (handles.http2ClientConnect tlsVerify steps).ok then http2ClientConnect client
        else client).session := by
  have hresult : (handles.http2ClientConnect tlsVerify steps).handles.session =
      (handles.http2ClientConnect tlsVerify steps).ok := by
    unfold ClientHandles.http2ClientConnect
    dsimp only
    split_ifs
    · exact h
    · simp only [after_handles, after_ok]
      refine open_tls_session ?_ tlsVerify steps
      exact h
  rw [hresult]
  cases (handles.http2ClientConnect tlsVerify steps).ok
  · exact (hclient.trans h).symm
  · rfl

/-! ## Lives of a client -/

/-- One life of a client, from `http2_client_init` to `http2_client_cleanup`. -/
inductive Life where
  | initFails
  /-- The connection of a pool before its first reconnect. -/
  | unused
  /-- A connect and, if it succeeds, some calls that exchange frames with the backend. -/
  | connects (steps : ConnectSteps) (exchanges : Nat)
  deriving DecidableEq, Repr

/-- What the client does to its resources in a life, from `http2_client_init` to
`http2_client_cleanup`. -/
def Life.log (tlsVerify : Bool) : Life → ResourceLog
  | .initFails =>
      let started := ClientHandles.http2ClientInit false
      started.1 ++ started.2.http2ClientCleanup.1
  | .unused =>
      let started := ClientHandles.http2ClientInit true
      started.1 ++ started.2.http2ClientCleanup.1
  | .connects steps exchanges =>
      let started := ClientHandles.http2ClientInit true
      let result := started.2.http2ClientConnect tlsVerify steps
      let calls := if result.ok then List.replicate exchanges [.session, .ssl, .socket] else []
      started.1 ++ (result.log ++ (uses calls.flatten ++ result.handles.http2ClientCleanup.1))

/-- The connect succeeds, or the step that fails is one whose exit leaves the fields as the
cleanup needs them. -/
def Life.LeavesFields : Life → Prop
  | .connects steps _ =>
      steps.failedStep ∈ [none, some .socket, some .settings, some .preface]
  | _ => True

instance : DecidablePred Life.LeavesFields
  | .initFails => inferInstanceAs (Decidable True)
  | .unused => inferInstanceAs (Decidable True)
  | .connects _ _ => inferInstanceAs (Decidable (_ ∈ _))

/-! ## The exits -/

/-- `http2_client_cleanup` closes a socket that is still in its field, once. -/
theorem cleanup_closes (h : handles.socketFd = true) :
    handles.http2ClientCleanup.1.count (.release .socket) = 1 := by
  obtain ⟨ssl, socketFd, session, callbacks⟩ := handles
  subst h
  cases ssl <;> cases session <;> cases callbacks <;> rfl

/-- Every step up to the session succeeds. -/
@[mk_iff]
structure ConnectSteps.SessionOpened (steps : ConnectSteps) : Prop where
  socket : steps.socket = .connected
  context : steps.context = true
  sslObject : steps.sslObject = true
  handshake : steps.handshake = .completed
  alpn : steps.alpn = true
  session : steps.session = true

/-- The steps whose exits leave the fields as they should are the first and the two last. -/
theorem leaves_fields_iff (steps : ConnectSteps) (exchanges : Nat) :
    (Life.connects steps exchanges).LeavesFields ↔
      steps.socket ≠ .connected ∨ steps.SessionOpened := by
  simp only [Life.LeavesFields, ConnectSteps.failedStep, ConnectSteps.sessionOpened_iff]
  by_cases hsocket : steps.socket = .connected
  · simp only [hsocket, ne_eq, not_true_eq_false, if_false, false_or, true_and]
    split_ifs <;> simp_all
  · simp [hsocket]

/-- All that is obtained on the way to a session. -/
def openedLog (tlsVerify : Bool) (retries : Nat) : ResourceLog :=
  (connectToBackend .connected).1 ++ (createHttp2ClientSslCtx tlsVerify ++ uses [.context] ++
    (.acquire .ssl :: uses (handshakeUses retries .completed) ++ (uses [.ssl] ++
      (uses [.callbacks] ++ [.acquire .session]))))

/-- The cleanup of a client whose fields are all set. -/
def fullCleanup : ResourceLog := (ClientHandles.http2ClientCleanup ⟨true, true, true, true⟩).1

/-- A connect that opens a session has all resources in the fields before it starts the session. -/
theorem connect_opened (h : steps.SessionOpened) (handles : ClientHandles) (tlsVerify : Bool) :
    handles.http2ClientConnect tlsVerify steps =
      .after (openedLog tlsVerify steps.retries)
        (ClientHandles.startSession ⟨true, true, true, handles.callbacks⟩ steps) := by
  simp [ClientHandles.http2ClientConnect, ClientHandles.openTls, ClientHandles.openSession,
    ConnectResult.after, openedLog, connectToBackend, h.socket, h.context, h.sslObject,
    h.handshake, h.alpn, h.session]

/-- The exits from the context to the session close the socket and leave its number. -/
theorem connect_abandoned (handles : ClientHandles) (tlsVerify : Bool)
    (hsocket : steps.socket = .connected) (h : ¬ steps.SessionOpened) :
    .acquire .socket ∈ (handles.http2ClientConnect tlsVerify steps).log ∧
      (handles.http2ClientConnect tlsVerify steps).log.count (.release .socket) = 1 ∧
      (handles.http2ClientConnect tlsVerify steps).handles.socketFd = true := by
  rw [ConnectSteps.sessionOpened_iff] at h
  simp only [ClientHandles.http2ClientConnect, hsocket, connectToBackend, ClientHandles.openTls,
    ClientHandles.openSession, ConnectResult.after, createHttp2ClientSslCtx, abandonTls]
  split_ifs <;> simp_all

/-- What follows the session either ends in the cleanup or leaves it to the caller. -/
theorem start_session_eq (steps : ConnectSteps) :
    ∃ calls, ClientHandles.startSession ⟨true, true, true, true⟩ steps =
        ⟨uses calls ++ fullCleanup, ⟨false, false, false, false⟩, false⟩ ∨
      ClientHandles.startSession ⟨true, true, true, true⟩ steps =
        ⟨uses calls, ⟨true, true, true, true⟩, true⟩ := by
  unfold ClientHandles.startSession
  split_ifs
  · exact ⟨[.session], Or.inl rfl⟩
  · exact ⟨[.session, .session, .ssl, .socket], Or.inl rfl⟩
  · exact ⟨[.session, .session, .ssl, .socket], Or.inr rfl⟩

/-- A session that has been opened is closed with everything else, by the cleanup inside
`http2_client_connect` or by the one behind it. -/
theorem opened_life_log (h : steps.SessionOpened) (tlsVerify : Bool) (exchanges : Nat) :
    ∃ calls, (Life.connects steps exchanges).log tlsVerify =
      ((ClientHandles.http2ClientInit true).1 ++ (openedLog tlsVerify steps.retries ++
        uses calls)) ++ fullCleanup := by
  have hconnect : (ClientHandles.http2ClientInit true).2.http2ClientConnect tlsVerify steps =
      .after (openedLog tlsVerify steps.retries)
        (ClientHandles.startSession ⟨true, true, true, true⟩ steps) := connect_opened h _ tlsVerify
  obtain ⟨calls, hstart | hstart⟩ := start_session_eq steps
  · refine ⟨calls, ?_⟩
    rw [hstart] at hconnect
    simp only [Life.log, hconnect, ConnectResult.after, Bool.false_eq_true, if_false,
      List.flatten_nil, List.append_assoc]
    simp [uses, ClientHandles.http2ClientCleanup]
  · refine ⟨calls ++ (List.replicate exchanges [.session, .ssl, .socket]).flatten, ?_⟩
    rw [hstart] at hconnect
    simp only [Life.log, hconnect, ConnectResult.after, if_true, uses_append, List.append_assoc,
      fullCleanup]

/-- A life in which a session is opened is clean. -/
theorem opened_life_clean (h : steps.SessionOpened) (tlsVerify : Bool) (exchanges : Nat) :
    Clean ((Life.connects steps exchanges).log tlsVerify) := by
  obtain ⟨calls, hlog⟩ := opened_life_log h tlsVerify exchanges
  rw [hlog]
  apply clean_of_held
  · intro resource
    simp [ClientHandles.http2ClientInit, openedLog, connectToBackend, createHttp2ClientSslCtx]
  · intro resource
    simp [fullCleanup, ClientHandles.http2ClientCleanup]
  · intro resource _
    cases resource <;> rfl
  · simp [fullCleanup, ClientHandles.http2ClientCleanup, NeverUsedAfter]

/-- Without a connection there are the callbacks, and a socket if it came to that. -/
theorem unreached_life_clean (h : steps.socket ≠ .connected) (tlsVerify : Bool) (exchanges : Nat) :
    Clean ((Life.connects steps exchanges).log tlsVerify) := by
  have hlog : (Life.connects steps exchanges).log tlsVerify =
      .acquire .callbacks :: uses [.callbacks] ++
        ((connectToBackend steps.socket).1 ++ [.release .callbacks]) := by
    cases hsocket : steps.socket <;> simp_all [Life.log, ClientHandles.http2ClientInit,
      ClientHandles.http2ClientConnect, connectToBackend, ConnectResult.after,
      ClientHandles.http2ClientCleanup, uses]
  rw [hlog]
  have hafter : NeverUsedAfter (.acquire .callbacks :: uses [.callbacks] ++
      ((connectToBackend steps.socket).1 ++ [.release .callbacks])) := by
    cases steps.socket <;> simp [NeverUsedAfter, connectToBackend, uses]
  refine ⟨fun resource => ?_, hafter⟩
  cases hsocket : steps.socket with
  | noSocket => cases resource <;> decide
  | unresolved => cases resource <;> decide
  | refused => cases resource <;> decide
  | connected => exact absurd hsocket h

/-- The exits in between close the socket, and the number they leave is closed once more. -/
theorem abandoned_life_unclean (hsocket : steps.socket = .connected) (h : ¬ steps.SessionOpened)
    (tlsVerify : Bool) (exchanges : Nat) :
    ¬ Clean ((Life.connects steps exchanges).log tlsVerify) := by
  intro hclean
  obtain ⟨hacquired, hclosed, hkept⟩ :=
    connect_abandoned (ClientHandles.http2ClientInit true).2 tlsVerify hsocket h
  have honce := hclean.once .socket (by simp [Life.log, hacquired])
  simp only [Life.log, List.count_append, hclosed, cleanup_closes hkept] at honce
  omega

/-- A life without a connect is clean. -/
theorem unconnected_life_clean (tlsVerify : Bool) :
    Clean (Life.initFails.log tlsVerify) ∧ Clean (Life.unused.log tlsVerify) := by
  have hinit : Life.initFails.log tlsVerify = [] := rfl
  have hunused : Life.unused.log tlsVerify =
      .acquire .callbacks :: uses [.callbacks] ++ [.release .callbacks] := rfl
  rw [hinit, hunused]
  exact ⟨⟨fun _ hmem => absurd hmem List.not_mem_nil, trivial⟩,
    ⟨fun resource => by cases resource <;> decide, by decide⟩⟩

/-- A life is clean exactly if its connect leaves the fields as the cleanup needs them. -/
theorem life_clean_iff (tlsVerify : Bool) (life : Life) :
    Clean (life.log tlsVerify) ↔ life.LeavesFields := by
  cases life with
  | initFails => exact iff_of_true (unconnected_life_clean tlsVerify).1 trivial
  | unused => exact iff_of_true (unconnected_life_clean tlsVerify).2 trivial
  | connects steps exchanges =>
      rw [leaves_fields_iff]
      by_cases hsocket : steps.socket = .connected
      · by_cases hopened : steps.SessionOpened
        · exact iff_of_true (opened_life_clean hopened tlsVerify exchanges) (Or.inr hopened)
        · exact iff_of_false (abandoned_life_unclean hsocket hopened tlsVerify exchanges)
            (not_or.mpr ⟨not_not.mpr hsocket, hopened⟩)
      · exact iff_of_true (unreached_life_clean hsocket tlsVerify exchanges) (Or.inl hsocket)

/-- The log of a client through all its lives. `proxy_to_backend_direct` has a client of one life;
that of a pooled connection starts unused, each reconnect of `backend_pool_acquire` ends one life
and starts the next, and `destroy_backend_connection` ends the last. -/
def clientLog (tlsVerify : Bool) (lives : List Life) : List (Event (Resource × ℕ)) :=
  inTurn (lives.map (Life.log tlsVerify))

/-- Everything a client obtains is released once, and not used afterwards, if in each of its lives
the connect succeeds or fails at the socket, the settings or the preface. -/
theorem client_log_clean_iff (tlsVerify : Bool) (lives : List Life) :
    Clean (clientLog tlsVerify lives) ↔ ∀ life ∈ lives, life.LeavesFields := by
  rw [clientLog, clean_in_turn, List.forall_mem_map]
  exact forall₂_congr fun life _ => life_clean_iff tlsVerify life

/-- A direct connection whose handshake fails: the socket is closed twice, the TLS object and the
context are freed twice, and the cleanup asks a freed object for its context. -/
theorem failed_handshake_released_twice :
    let log := clientLog false
      [.connects ⟨.connected, true, true, 1, .failed, false, false, false, false⟩ 0]
    log.count (.release (.socket, 0)) = 2 ∧ log.count (.release (.ssl, 0)) = 2 ∧
      log.count (.release (.context, 0)) = 2 ∧ ¬ NeverUsedAfter log ∧ ¬ Clean log := by
  have hused : ¬ NeverUsedAfter (clientLog false
      [.connects ⟨.connected, true, true, 1, .failed, false, false, false, false⟩ 0]) := by
    decide
  exact ⟨by decide, by decide, by decide, hused, fun hclean => hused hclean.after⟩

end Emme.Http2
