import Mathlib.Data.List.Basic
import Mathlib.Data.List.Count
import Mathlib.Tactic.Common
import Emme.Http2.Connect

/-!
# The descriptors of a client task

`client_task` and the functions it calls, reduced to their descriptor operations in order;
everything else appears as the outcome that decides which branch is taken. A task that follows
`client_task_balanced` closes each descriptor once; `handle_http1_connection` closes that of the
client and `handle_client` closes it again (`client_task_close_count`).

`Emme.Http2.Connect` has the client of `proxy_to_backend_direct` with all its resources; the
operations here are those of its socket (`proxy_to_backend_direct_fds`).
-/

namespace Emme.Server

open Emme.Http2 Resources

/-- The variables of a task that hold a descriptor it opened. -/
inductive Slot where
  /-- The ring of `client_task`. -/
  | ring
  /-- `fd` of `lookup_static_file` and its callers. -/
  | file
  /-- `backend_fd` of `proxy_request_tls`, `socket_fd` of the client of
  `proxy_to_backend_direct`. -/
  | backend
  deriving DecidableEq, Repr

/-- An operation on descriptors. -/
inductive FdOp where
  | acquire (slot : Slot)
  | release (slot : Slot)
  | closeClient
  deriving DecidableEq, Repr

/-! ## The functions of the source -/

/-- How `lookup_static_file` ends. -/
inductive LookupEnd where
  /-- No route, no usable root, or the file does not open. -/
  | notOpened
  /-- `realpath`, the comparison with the root, or `lseek` fails. -/
  | turnedDown
  | ready
  deriving DecidableEq, Repr

/-- `lookup_static_file`, with whether it hands an open file to its caller. -/
def lookupStaticFileFds : LookupEnd → List FdOp × Bool
  | .notOpened => ([], false)
  | .turnedDown => ([.acquire .file, .release .file], false)
  | .ready => ([.acquire .file], true)

/-- `serve_static_tls` and `serve_static_h2`: the file is closed once on each of their paths. -/
def serveStaticFds (lookup : LookupEnd) : List FdOp :=
  (lookupStaticFileFds lookup).1 ++
    if (lookupStaticFileFds lookup).2 then [.release .file] else []

/-- `proxy_request_tls`, which closes the socket once on each path after `socket`. -/
def proxyRequestTlsFds (socketOk : Bool) : List FdOp :=
  if socketOk then [.acquire .backend, .release .backend] else []

/-- How far `http2_client_connect` gets. -/
inductive ConnectEnd where
  | noSocket
  /-- The host is not resolved or `connect` fails, both in `connect_to_backend`. -/
  | notReached
  /-- The TLS context, the TLS object, the handshake, the protocol or the session fails. -/
  | abandoned
  /-- The settings or the preface are not sent. -/
  | noPreface
  | connected
  deriving DecidableEq, Repr

/-- `http2_client_connect`, with whether it leaves a number in `socket_fd`. -/
def http2ClientConnectFds : ConnectEnd → List FdOp × Bool
  | .noSocket => ([], false)
  | .notReached => ([.acquire .backend, .release .backend], false)
  -- `close (client->socket_fd)` without the assignment of -1 that `http2_client_cleanup` makes
  | .abandoned => ([.acquire .backend, .release .backend], true)
  | .noPreface => ([.acquire .backend, .release .backend], false)
  | .connected => ([.acquire .backend], true)

/-- `proxy_to_backend_direct`: every path after `http2_client_connect` ends with one
`http2_client_cleanup`, which closes `socket_fd` if there is a number in it. -/
def proxyToBackendDirectFds (connect : ConnectEnd) : List FdOp :=
  (http2ClientConnectFds connect).1 ++
    if (http2ClientConnectFds connect).2 then [.release .backend] else []

/-! ### The client of the backend

What the client of `proxy_to_backend_direct` does with its socket is what `Http2.Life.log` records
of it. -/

/-- How far `http2_client_connect` gets when its calls return this. -/
def connectEnd (steps : ConnectSteps) : ConnectEnd :=
  match steps.socket with
  | .noSocket => .noSocket
  | .unresolved | .refused => .notReached
  | .connected =>
      match steps.failedStep with
      | none => .connected
      | some .settings | some .preface => .noPreface
      | some .socket | some .context | some .sslObject | some .handshake | some .alpn
      | some .session => .abandoned

/-- What an entry of the client's log does to the descriptor in `socket_fd`. -/
def socketOp : Event Resource → Option FdOp
  | .acquire .socket => some (.acquire .backend)
  | .release .socket => some (.release .backend)
  | _ => none

/-- What a log of the client does to the descriptor in `socket_fd`. -/
def socketOps (log : ResourceLog) : List FdOp := log.filterMap socketOp

/-- An empty log does nothing to the descriptor. -/
@[simp] theorem socket_ops_nil : socketOps [] = [] := rfl

/-- What a log does is what its first entry does, and then the rest. -/
@[simp] theorem socket_ops_cons (entry : Event Resource) (log : ResourceLog) :
    socketOps (entry :: log) = (socketOp entry).toList ++ socketOps log := by
  cases hop : socketOp entry <;> simp [socketOps, hop]

/-- What two logs do, they do one after the other. -/
@[simp] theorem socket_ops_append (log later : ResourceLog) :
    socketOps (log ++ later) = socketOps log ++ socketOps later := List.filterMap_append

/-- To use a resource is no operation on descriptors. -/
@[simp] theorem socket_ops_uses (resources : List Resource) : socketOps (uses resources) = [] := by
  refine List.filterMap_eq_nil_iff.mpr fun entry hentry => ?_
  obtain ⟨resource, -, rfl⟩ := List.mem_map.mp hentry
  rfl

/-- The cleanup closes the number in `socket_fd`. -/
theorem socket_ops_cleanup (handles : ClientHandles) :
    socketOps handles.http2ClientCleanup.1 =
      if handles.socketFd then [.release .backend] else [] := by
  obtain ⟨ssl, socketFd, session, callbacks⟩ := handles
  cases ssl <;> cases socketFd <;> cases session <;> cases callbacks <;> rfl

/-- Behind the session only the settings and the preface are left to fail. -/
theorem connect_end_opened {steps : ConnectSteps} (h : steps.SessionOpened) :
    connectEnd steps =
      if steps.settings = true ∧ steps.preface = true then .connected else .noPreface := by
  obtain ⟨socket, context, sslObject, retries, handshake, alpn, session, settings, preface⟩ := steps
  obtain ⟨hsocket, hcontext, hssl, hhandshake, halpn, hsession⟩ := h
  subst hsocket hcontext hssl hhandshake halpn hsession
  cases settings <;> cases preface <;> rfl

/-- A connection without a session is abandoned. -/
theorem connect_end_abandoned {steps : ConnectSteps} (hsocket : steps.socket = .connected)
    (h : ¬ steps.SessionOpened) : connectEnd steps = .abandoned := by
  obtain ⟨socket, context, sslObject, retries, handshake, alpn, session, settings, preface⟩ := steps
  subst hsocket
  cases context
  · rfl
  cases sslObject
  · rfl
  cases handshake
  case timedOut | failed => rfl
  cases alpn
  · rfl
  cases session
  · rfl
  exact absurd ⟨rfl, rfl, rfl, rfl, rfl, rfl⟩ h

/-- The configuration of the context is no operation on descriptors. -/
@[simp] theorem socket_ops_context (tlsVerify : Bool) :
    socketOps (createHttp2ClientSslCtx tlsVerify) = [] := by
  cases tlsVerify <;> rfl

/-- The exits between the context and the session close the socket and leave its number. -/
theorem open_tls_abandoned_fds {handles : ClientHandles} {steps : ConnectSteps}
    (hsocket : steps.socket = .connected) (h : ¬ steps.SessionOpened) (tlsVerify : Bool) :
    socketOps (handles.openTls tlsVerify steps).log = [.release .backend] ∧
      (handles.openTls tlsVerify steps).handles.socketFd = handles.socketFd := by
  unfold ClientHandles.openTls ClientHandles.openSession
  split_ifs with hcontext hssl hhandshake halpn hsession
  · exact ⟨rfl, rfl⟩
  iterate 4
    exact ⟨by simp [ConnectResult.after, abandonTls, socketOp], rfl⟩
  simp only [Bool.not_eq_true', Bool.not_eq_false] at hcontext hssl halpn hsession
  exact absurd ⟨hsocket, hcontext, hssl, not_not.mp hhandshake, halpn, hsession⟩ h

/-- `http2ClientConnectFds` is what `http2_client_connect` does to descriptors, and to the number in
`socket_fd`. -/
theorem connect_fds (handles : ClientHandles) (tlsVerify : Bool) (steps : ConnectSteps) :
    socketOps (handles.http2ClientConnect tlsVerify steps).log =
        (http2ClientConnectFds (connectEnd steps)).1 ∧
      (handles.http2ClientConnect tlsVerify steps).handles.socketFd =
        (http2ClientConnectFds (connectEnd steps)).2 := by
  have hsocket : socketOps (connectToBackend .connected).1 = [.acquire .backend] := rfl
  by_cases hconnected : steps.socket = .connected
  · by_cases hopened : steps.SessionOpened
    · have hlog : socketOps (openedLog tlsVerify steps.retries) = [.acquire .backend] := by
        simp [openedLog, hsocket, createHttp2ClientSslCtx, socketOp]
      have hcleared (handles : ClientHandles) :
          handles.http2ClientCleanup.2.socketFd = false := rfl
      rw [connect_opened hopened, connect_end_opened hopened, after_handles, ConnectResult.after,
        socket_ops_append, hlog]
      unfold ClientHandles.startSession
      split_ifs <;> simp_all [socket_ops_cleanup, http2ClientConnectFds]
    · obtain ⟨hops, hfd⟩ := open_tls_abandoned_fds hconnected hopened tlsVerify
      rw [connect_end_abandoned hconnected hopened, ClientHandles.http2ClientConnect, hconnected]
      exact ⟨by rw [ConnectResult.after, socket_ops_append, hsocket]; exact congrArg _ hops, hfd⟩
  · cases hend : steps.socket with
    | connected => exact absurd hend hconnected
    | noSocket | unresolved | refused =>
        constructor <;> simp only [ClientHandles.http2ClientConnect, connectEnd, hend] <;> rfl

/-- `proxyToBackendDirectFds` is what the client does to descriptors from `http2_client_init` to
`http2_client_cleanup`. -/
theorem proxy_to_backend_direct_fds (tlsVerify : Bool) (steps : ConnectSteps) (exchanges : Nat) :
    socketOps ((Life.connects steps exchanges).log tlsVerify) =
      proxyToBackendDirectFds (connectEnd steps) := by
  obtain ⟨hlog, hfd⟩ := connect_fds (ClientHandles.http2ClientInit true).2 tlsVerify steps
  have hinit : socketOps (ClientHandles.http2ClientInit true).1 = [] := rfl
  simp only [Life.log, socket_ops_append, hinit, hlog, socket_ops_uses, socket_ops_cleanup, hfd,
    List.nil_append, proxyToBackendDirectFds]

/-- What a request needs a descriptor of its task for. -/
inductive FdUse where
  | static (lookup : LookupEnd)
  | proxyTls (socketOk : Bool)
  | proxyDirect (connect : ConnectEnd)
  deriving DecidableEq, Repr

/-- What serving the request does to descriptors. -/
def FdUse.fds : FdUse → List FdOp
  | .static lookup => serveStaticFds lookup
  | .proxyTls socketOk => proxyRequestTlsFds socketOk
  | .proxyDirect connect => proxyToBackendDirectFds connect

/-- `handle_http2_connection`, where `uses` is what its requests use descriptors for. -/
def handleHttp2ConnectionFds (uses : List FdUse) : List FdOp := uses.flatMap FdUse.fds

/-- `handle_http1_connection`. -/
def handleHttp1ConnectionFds (uses : List FdUse) : List FdOp :=
  uses.flatMap FdUse.fds ++ [.closeClient]

/-- How the connection goes in `handle_client`. -/
inductive ClientEnd where
  | noSsl
  | handshakeFailed
  | http2 (uses : List FdUse)
  | http1 (uses : List FdUse)
  deriving DecidableEq, Repr

/-- `handle_client`. -/
def handleClientFds : ClientEnd → List FdOp
  | .noSsl => [.closeClient]
  | .handshakeFailed => [.closeClient]
  | .http2 uses => handleHttp2ConnectionFds uses ++ [.closeClient]
  | .http1 uses => handleHttp1ConnectionFds uses ++ [.closeClient]

/-- The outcomes that decide what a task does: whether its ring is set up, and how the connection
goes if it is. -/
structure TaskEnd where
  ringOk : Bool
  client : ClientEnd
  deriving DecidableEq, Repr

/-- `client_task`. -/
def clientTaskFds (outcome : TaskEnd) : List FdOp :=
  if outcome.ringOk then .acquire .ring :: (handleClientFds outcome.client ++ [.release .ring])
  else [.closeClient]

/-! ## Balanced tasks -/

/-- From a point where the variables in `opened` hold an open descriptor, the operations open
into no variable that holds one, close only variables that hold one, and leave none. -/
def Balanced : List Slot → List FdOp → Prop
  | opened, [] => opened = []
  | opened, .acquire slot :: ops => slot ∉ opened ∧ Balanced (slot :: opened) ops
  | opened, .release slot :: ops => slot ∈ opened ∧ Balanced (opened.erase slot) ops
  | opened, .closeClient :: ops => Balanced opened ops

/-- The use does not abandon a backend connection whose socket is closed already. -/
def FdUse.Clean (use : FdUse) : Prop := use ≠ .proxyDirect .abandoned

instance (use : FdUse) : Decidable use.Clean := inferInstanceAs (Decidable (_ ≠ _))

/-- The connection is not served as HTTP/1.1, and its requests are clean. -/
def ClientEnd.Clean : ClientEnd → Prop
  | .noSsl => True
  | .handshakeFailed => True
  | .http2 uses => ∀ use ∈ uses, use.Clean
  | .http1 _ => False

instance : ∀ client : ClientEnd, Decidable client.Clean
  | .noSsl => isTrue trivial
  | .handshakeFailed => isTrue trivial
  | .http2 uses => inferInstanceAs (Decidable (∀ use ∈ uses, use.Clean))
  | .http1 _ => isFalse id

/-- The task has no ring, or its connection is clean. -/
def TaskEnd.Clean (outcome : TaskEnd) : Prop := outcome.ringOk = true → outcome.client.Clean

instance (outcome : TaskEnd) : Decidable outcome.Clean := inferInstanceAs (Decidable (_ → _))

/-- The connection gets as far as `handle_http1_connection`. -/
def TaskEnd.servesHttp1 : TaskEnd → Bool
  | ⟨true, .http1 _⟩ => true
  | _ => false

/-- A clean use leaves the variables as it found them. -/
theorem balanced_use {use : FdUse} (hclean : use.Clean) {opened : List Slot}
    (hfile : .file ∉ opened) (hbackend : .backend ∉ opened) {ops : List FdOp}
    (hops : Balanced opened ops) : Balanced opened (use.fds ++ ops) := by
  have hpair (slot : Slot) (hslot : slot ∉ opened) :
      Balanced opened (.acquire slot :: .release slot :: ops) := by
    refine ⟨hslot, List.mem_cons_self, ?_⟩
    rwa [List.erase_cons_head]
  cases use with
  | static lookup =>
      cases lookup with
      | notOpened => exact hops
      | turnedDown | ready => exact hpair .file hfile
  | proxyTls socketOk =>
      cases socketOk with
      | false => exact hops
      | true => exact hpair .backend hbackend
  | proxyDirect connect =>
      cases connect with
      | noSocket => exact hops
      | notReached | noPreface | connected => exact hpair .backend hbackend
      | abandoned => exact absurd rfl hclean

/-- Requests that are served cleanly leave the descriptors as they were. -/
theorem balanced_uses {uses : List FdUse} (hclean : ∀ use ∈ uses, use.Clean)
    {opened : List Slot} (hfile : .file ∉ opened) (hbackend : .backend ∉ opened)
    {ops : List FdOp} (hops : Balanced opened ops) :
    Balanced opened (handleHttp2ConnectionFds uses ++ ops) := by
  induction uses with
  | nil => exact hops
  | cons use uses ih =>
      obtain ⟨huse, huses⟩ := List.forall_mem_cons.mp hclean
      rw [handleHttp2ConnectionFds, List.flatMap_cons, List.append_assoc]
      exact balanced_use huse hfile hbackend (ih huses)

/-- A clean task is balanced. -/
theorem client_task_balanced {outcome : TaskEnd} (hclean : outcome.Clean) :
    Balanced [] (clientTaskFds outcome) := by
  obtain ⟨ringOk, client⟩ := outcome
  cases ringOk with
  | false => rfl
  | true =>
      have hlast : Balanced [.ring] [.closeClient, .release .ring] := ⟨List.mem_cons_self, rfl⟩
      refine ⟨List.not_mem_nil, ?_⟩
      cases client with
      | noSsl | handshakeFailed => exact hlast
      | http2 uses =>
          have huses : ∀ use ∈ uses, use.Clean := hclean rfl
          show Balanced [.ring]
            (handleHttp2ConnectionFds uses ++ [.closeClient] ++ [.release .ring])
          rw [List.append_assoc]
          exact balanced_uses huses (by decide) (by decide) hlast
      | http1 uses => exact (hclean rfl).elim

/-- Requests do not close the client's descriptor. -/
theorem count_close_client_uses (uses : List FdUse) :
    (uses.flatMap FdUse.fds).count .closeClient = 0 := by
  refine List.count_eq_zero_of_not_mem fun hmem => ?_
  obtain ⟨use, -, hmem⟩ := List.mem_flatMap.mp hmem
  rcases use with lookup | socketOk | connect
  · cases lookup <;> revert hmem <;> decide
  · cases socketOk <;> revert hmem <;> decide
  · cases connect <;> revert hmem <;> decide

/-- A task closes the client's descriptor once, or twice if it serves HTTP/1.1. -/
theorem client_task_close_count (outcome : TaskEnd) :
    (clientTaskFds outcome).count .closeClient = if outcome.servesHttp1 then 2 else 1 := by
  obtain ⟨ringOk, client⟩ := outcome
  cases ringOk with
  | false => rfl
  | true =>
      cases client with
      | noSsl | handshakeFailed => rfl
      | http2 uses =>
          simp [clientTaskFds, handleClientFds, handleHttp2ConnectionFds, TaskEnd.servesHttp1,
            count_close_client_uses]
      | http1 uses =>
          simp [clientTaskFds, handleClientFds, handleHttp1ConnectionFds, TaskEnd.servesHttp1,
            count_close_client_uses]

/-- A clean task does not serve HTTP/1.1. -/
theorem TaskEnd.Clean.not_serves_http1 {outcome : TaskEnd} (hclean : outcome.Clean) :
    outcome.servesHttp1 = false := by
  obtain ⟨ringOk, client⟩ := outcome
  cases ringOk with
  | false => rfl
  | true =>
      cases client with
      | noSsl | handshakeFailed | http2 => rfl
      | http1 => exact (hclean rfl).elim

end Emme.Server
