import Emme.Lib.CString
import Emme.Lib.Execution

/-!
# The HTTP/2 client

One `http2_client_t` serves the requests of a pooled connection one after another. What `nghttp2`
calls back and what it and `poll` return are inputs. The client keeps `done` and its buffer from one
request to the next, so a response belongs to its request only under `StartsClean`
(`clean_exchanges_faithful`).
-/

namespace Emme.Http2

open CString Execution

/-! ## Callbacks -/

/-- `HTTP2_CLIENT_BUFFER_SIZE`. -/
def clientBufferSize : Nat := 65536

/-- `NGHTTP2_ERR_WOULDBLOCK`. -/
def errWouldBlock : Int := -504

/-- The fields of `http2_client_t` that decide about responses. `received` is the part of the
response buffer that has been filled; `session` says that the library session exists. -/
structure Http2Client where
  session : Bool
  received : Bytes
  responseStatus : Int
  done : Bool
  errorCode : Nat
  deriving DecidableEq, Repr

/-- A callback of the library: a complete `HEADERS` frame of some category, a chunk of data of a
stream, or the end of a stream. -/
inductive Callback where
  | headers (cat : Nat)
  | dataChunk (stream : Int) (data : Bytes)
  | streamClose (stream : Int) (errorCode : Nat)
  deriving DecidableEq, Repr

/-- `http2_client_init`, whose `memset` clears every field. -/
def http2ClientInit : Http2Client := ⟨false, [], 0, false, 0⟩

/-- `http2_client_connect` when it returns 0. -/
def http2ClientConnect (client : Http2Client) : Http2Client := { client with session := true }

/-- The registered callbacks; `none` is a non-zero return value. -/
def Http2Client.onCallback (client : Http2Client) : Callback → Option Http2Client
  | .headers cat => some { client with responseStatus := cat }
  | .dataChunk _ data =>
      if client.received.length + data.length ≤ clientBufferSize then
        some { client with received := client.received ++ data }
      else none
  | .streamClose _ errorCode => some { client with done := true, errorCode }

/-- The callbacks of one call of the library, up to the first that fails, and whether all of
them succeeded. -/
def Http2Client.deliver (client : Http2Client) : List Callback → Http2Client × Bool
  | [] => (client, true)
  | callback :: callbacks =>
      match client.onCallback callback with
      | none => (client, false)
      | some client => client.deliver callbacks

/-! ## Requests and responses -/

/-- What a call of `nghttp2_session_recv` or `nghttp2_session_send` does: the callbacks it makes
and, if they succeed, the value it returns. -/
structure Delivery where
  callbacks : List Callback
  ret : Int
  deriving DecidableEq, Repr

/-- The result of `poll`: an error, nothing within the interval, an error on the socket, or
readiness with the library calls for `POLLIN` and `POLLOUT`. -/
inductive PollResult where
  | failed
  | idle
  | socketError
  | ready (recv send : Option Delivery)
  deriving DecidableEq, Repr

/-- One round of the loop of `http2_client_recv_response`. -/
structure PollRound where
  elapsedMs : Int
  wantRead : Bool
  wantWrite : Bool
  poll : PollResult
  deriving DecidableEq, Repr

/-- A library call inside the loop, if `poll` asked for it. -/
def Http2Client.attend (client : Http2Client) (delivery : Option Delivery) : Http2Client × Bool :=
  match delivery with
  | none => (client, true)
  | some delivery =>
      let delivered := client.deliver delivery.callbacks
      (delivered.1,
        delivered.2 && !(delivery.ret < 0 && decide (delivery.ret ≠ errWouldBlock)))

/-- Receive, then send. -/
def Http2Client.attendBoth (client : Http2Client) (recv send : Option Delivery) :
    Http2Client × Bool :=
  if (client.attend recv).2 then (client.attend recv).1.attend send
  else ((client.attend recv).1, false)

/-- The callbacks of a library call that may not take place. -/
def callbacksOf (delivery : Option Delivery) : List Callback :=
  match delivery with
  | none => []
  | some delivery => delivery.callbacks

/-- The callbacks made in a round. -/
def PollRound.callbacks (round : PollRound) : List Callback :=
  match round.poll with
  | .ready recv send => callbacksOf recv ++ callbacksOf send
  | _ => []

/-- The client after `http2_client_recv_response`, what it returned (`none` while it waits), and
the callbacks that were made meanwhile. -/
structure Received where
  client : Http2Client
  returned : Option Int
  delivered : List Callback
  deriving DecidableEq, Repr

/-- `http2_client_recv_response`, for the rounds given. -/
def recvResponse (client : Http2Client) : List PollRound → Received
  | [] => ⟨client, if client.done then some client.responseStatus else none, []⟩
  | round :: rounds =>
      if client.done then ⟨client, some client.responseStatus, []⟩
      else if 30000 < round.elapsedMs then ⟨client, some (-1), []⟩
      -- `events == 0`: the loop is left as if the response were complete
      else if !round.wantRead && !round.wantWrite then ⟨client, some client.responseStatus, []⟩
      else
        match round.poll with
        | .failed => ⟨client, some (-1), []⟩
        | .idle => recvResponse client rounds
        | .socketError => ⟨client, some (-1), []⟩
        | .ready recv send =>
            if (client.attendBoth recv send).2 then
              let rest := recvResponse (client.attendBoth recv send).1 rounds
              { rest with delivered := round.callbacks ++ rest.delivered }
            else ⟨(client.attendBoth recv send).1, some (-1), round.callbacks⟩

/-- The surroundings of one request: the stream number `nghttp2_submit_request` returns, the
`nghttp2_session_send` behind it, and the rounds of the receiving loop. -/
structure Exchange where
  submit : Int
  send : Delivery
  rounds : List PollRound
  deriving DecidableEq, Repr

/-- What the requester gets. -/
inductive Outcome where
  | sendFailed
  | waiting
  | recvFailed
  | answered (stream : Int) (delivered : List Callback) (status : Int) (body : Bytes)
  deriving DecidableEq, Repr

/-- One request over the client, as `proxy_to_backend_pooled` makes it:
`http2_client_send_request`, `http2_client_recv_response`, and for a positive status the
response body. -/
def Http2Client.exchange (client : Http2Client) (exchange : Exchange) : Outcome × Http2Client :=
  if !client.session || exchange.submit < 0 then (.sendFailed, client)
  else
    let sent := client.deliver exchange.send.callbacks
    if !sent.2 || exchange.send.ret ≠ 0 then (.sendFailed, sent.1)
    else
      let response := recvResponse sent.1 exchange.rounds
      match response.returned with
      | none => (.waiting, response.client)
      | some status =>
          if status ≤ 0 then (.recvFailed, response.client)
          else
            (.answered exchange.submit (exchange.send.callbacks ++ response.delivered) status
              response.client.received, response.client)

/-! ## What belongs to a stream -/

/-- The data of a stream, in order. -/
def chunksOf (stream : Int) (callbacks : List Callback) : Bytes :=
  callbacks.flatMap fun
    | .dataChunk owner data => if owner = stream then data else []
    | _ => []

/-- The end of the stream has been seen. -/
def Closed (stream : Int) (callbacks : List Callback) : Prop :=
  ∃ errorCode, Callback.streamClose stream errorCode ∈ callbacks

/-- The answer is the data of its own stream, complete when that stream has closed. -/
def Outcome.Faithful : Outcome → Prop
  | .answered stream delivered _ body =>
      body = chunksOf stream delivered ∧ Closed stream delivered
  | _ => True

/-- The callback does not bring data or the end of another stream. -/
def Callback.Concerns (stream : Int) : Callback → Prop
  | .headers _ => True
  | .dataChunk owner _ => owner = stream
  | .streamClose owner _ => owner = stream

instance (stream : Int) : DecidablePred (Callback.Concerns stream)
  | .headers _ => isTrue trivial
  | .dataChunk owner _ => inferInstanceAs (Decidable (owner = stream))
  | .streamClose owner _ => inferInstanceAs (Decidable (owner = stream))

/-- The callback reports the end of a stream. -/
def Callback.isClose : Callback → Bool
  | .streamClose _ _ => true
  | _ => false

/-- Until a stream closes, the library has something to wait for and no callback is about
another stream. -/
def Undisturbed (stream : Int) : List PollRound → Prop
  | [] => True
  | round :: rounds =>
      (round.wantRead = true ∨ round.wantWrite = true) ∧
        (∀ callback ∈ round.callbacks, callback.Concerns stream) ∧
        (round.callbacks.any Callback.isClose = true ∨ Undisturbed stream rounds)

instance decidableUndisturbed (stream : Int) :
    ∀ rounds, Decidable (Undisturbed stream rounds)
  | [] => isTrue trivial
  | _ :: rounds =>
      haveI := decidableUndisturbed stream rounds
      inferInstanceAs (Decidable (_ ∧ _ ∧ _))

/-- The request starts on a client that has received nothing yet, and is served without
disturbance. -/
def StartsClean (client : Http2Client) (exchange : Exchange) : Prop :=
  client.done = false ∧ client.received = [] ∧
    (∀ callback ∈ exchange.send.callbacks, callback.Concerns exchange.submit) ∧
    (exchange.send.callbacks.any Callback.isClose = true ∨
      Undisturbed exchange.submit exchange.rounds)

instance (client : Http2Client) (exchange : Exchange) : Decidable (StartsClean client exchange) :=
  inferInstanceAs (Decidable (_ ∧ _ ∧ _ ∧ _))

/-! ## The client follows its stream -/

variable {stream : Int} {past : List Callback} {client : Http2Client}

/-- A stream that has closed has closed whatever comes after. -/
theorem Closed.append_left {front : List Callback} (h : Closed stream front)
    (back : List Callback) : Closed stream (front ++ back) := by
  obtain ⟨errorCode, hmem⟩ := h
  exact ⟨errorCode, List.mem_append_left back hmem⟩

/-- The client holds what the callbacks of its stream have brought so far. -/
structure Tracks (stream : Int) (past : List Callback) (client : Http2Client) : Prop where
  received : client.received = chunksOf stream past
  closed : client.done = true → Closed stream past

/-- A callback that concerns the stream is recorded. -/
theorem Tracks.on_callback {client' : Http2Client} {callback : Callback}
    (h : Tracks stream past client) (hown : callback.Concerns stream)
    (hcall : client.onCallback callback = some client') :
    Tracks stream (past ++ [callback]) client' := by
  cases callback with
  | headers cat =>
      cases hcall
      exact ⟨by simp [h.received, chunksOf], fun hdone => (h.closed hdone).append_left _⟩
  | dataChunk owner data =>
      obtain rfl : owner = stream := hown
      rw [Http2Client.onCallback] at hcall
      split at hcall
      · cases hcall
        exact ⟨by simp [h.received, chunksOf], fun hdone => (h.closed hdone).append_left _⟩
      · cases hcall
  | streamClose owner errorCode =>
      obtain rfl : owner = stream := hown
      cases hcall
      refine ⟨by simp [h.received, chunksOf], fun _ => ⟨errorCode, ?_⟩⟩
      exact List.mem_append_right _ List.mem_cons_self

/-- Delivery that succeeds goes callback by callback. -/
theorem deliver_cons {callback : Callback} {callbacks : List Callback}
    (hok : (client.deliver (callback :: callbacks)).2 = true) :
    ∃ client', client.onCallback callback = some client' ∧
      client.deliver (callback :: callbacks) = client'.deliver callbacks := by
  cases hcall : client.onCallback callback with
  | none => simp [Http2Client.deliver, hcall] at hok
  | some client' => exact ⟨client', rfl, by simp [Http2Client.deliver, hcall]⟩

/-- Callbacks that concern the stream are recorded. -/
theorem Tracks.deliver {callbacks : List Callback} (h : Tracks stream past client)
    (hown : ∀ callback ∈ callbacks, callback.Concerns stream)
    (hok : (client.deliver callbacks).2 = true) :
    Tracks stream (past ++ callbacks) (client.deliver callbacks).1 := by
  induction callbacks generalizing past client with
  | nil => simpa [Http2Client.deliver] using h
  | cons callback callbacks ih =>
      obtain ⟨client', hcall, hdeliver⟩ := deliver_cons hok
      rw [hdeliver] at hok ⊢
      have hnext := h.on_callback (hown callback List.mem_cons_self) hcall
      have hall := ih hnext (fun c hc => hown c (List.mem_cons_of_mem _ hc)) hok
      rwa [List.append_assoc, List.singleton_append] at hall

/-- Once the client is done, it stays so. -/
theorem deliver_done {callbacks : List Callback}
    (h : client.done = true ∨ callbacks.any Callback.isClose = true)
    (hok : (client.deliver callbacks).2 = true) : (client.deliver callbacks).1.done = true := by
  induction callbacks generalizing client with
  | nil => simpa [Http2Client.deliver] using h
  | cons callback callbacks ih =>
      obtain ⟨client', hcall, hdeliver⟩ := deliver_cons hok
      rw [hdeliver] at hok ⊢
      refine ih ?_ hok
      cases callback with
      | headers cat =>
          cases hcall
          simpa [Callback.isClose] using h
      | dataChunk owner data =>
          rw [Http2Client.onCallback] at hcall
          split at hcall
          · cases hcall
            simpa [Callback.isClose] using h
          · cases hcall
      | streamClose owner errorCode =>
          cases hcall
          exact Or.inl rfl

/-- A library call inside the loop delivers its callbacks. -/
theorem attend_eq_deliver {delivery : Option Delivery} (hok : (client.attend delivery).2 = true) :
    client.attend delivery = client.deliver (callbacksOf delivery) := by
  cases delivery with
  | none => rfl
  | some delivery =>
      have hboth := (Bool.and_eq_true_iff.mp hok).1
      exact Prod.ext rfl (hok.trans hboth.symm)

/-- If no callback of the first part fails, the second part is delivered after it. -/
theorem deliver_append {front back : List Callback} (hok : (client.deliver front).2 = true) :
    client.deliver (front ++ back) = (client.deliver front).1.deliver back := by
  induction front generalizing client with
  | nil => rfl
  | cons callback front ih =>
      obtain ⟨client', hcall, hdeliver⟩ := deliver_cons hok
      rw [hdeliver] at hok ⊢
      rw [List.cons_append, Http2Client.deliver, hcall]
      exact ih hok

/-- A round in which both library calls succeed delivers the callbacks of both. -/
theorem attend_both_eq_deliver {recv send : Option Delivery}
    (hok : (client.attendBoth recv send).2 = true) :
    client.attendBoth recv send = client.deliver (callbacksOf recv ++ callbacksOf send) := by
  unfold Http2Client.attendBoth at hok ⊢
  split at hok
  · rename_i hrecv
    have hfirst := attend_eq_deliver hrecv
    rw [if_pos hrecv, attend_eq_deliver hok, deliver_append (hfirst ▸ hrecv), hfirst]
  · cases hok

/-- The answer of the receiving loop: if it is left with a positive status, the client holds the
data of the stream, and the stream has closed. -/
theorem recv_response_tracks {rounds : List PollRound} {status : Int}
    (h : Tracks stream past client) (hrounds : client.done = true ∨ Undisturbed stream rounds)
    (hreturned : (recvResponse client rounds).returned = some status) (hstatus : 0 < status) :
    (recvResponse client rounds).client.received =
        chunksOf stream (past ++ (recvResponse client rounds).delivered) ∧
      Closed stream (past ++ (recvResponse client rounds).delivered) := by
  induction rounds generalizing past client with
  | nil =>
      rw [recvResponse] at hreturned ⊢
      by_cases hdone : client.done = true
      · simpa using And.intro h.received (h.closed hdone)
      · rw [if_neg hdone] at hreturned
        cases hreturned
  | cons round rounds ih =>
      rw [recvResponse] at hreturned ⊢
      by_cases hdone : client.done = true
      · rw [if_pos hdone]
        simpa using And.intro h.received (h.closed hdone)
      · obtain ⟨hwants, hown, hrest⟩ := hrounds.resolve_left hdone
        have hevents : ¬ (!round.wantRead && !round.wantWrite) = true := by
          rcases hwants with hread | hwrite
          · simp [hread]
          · simp [hwrite]
        rw [if_neg hdone] at hreturned ⊢
        -- every way out of this round but the last ones returns -1
        by_cases htime : 30000 < round.elapsedMs
        · rw [if_pos htime] at hreturned
          cases hreturned
          exact absurd hstatus (by decide)
        rw [if_neg htime, if_neg hevents] at hreturned ⊢
        cases hpoll : round.poll with
        | failed =>
            simp only [hpoll] at hreturned
            cases hreturned
            exact absurd hstatus (by decide)
        | idle =>
            simp only [hpoll] at hreturned ⊢
            refine ih h (hrest.elim (fun hclose => ?_) Or.inr) hreturned
            simp [PollRound.callbacks, hpoll] at hclose
        | socketError =>
            simp only [hpoll] at hreturned
            cases hreturned
            exact absurd hstatus (by decide)
        | ready recv send =>
            simp only [hpoll] at hreturned ⊢
            by_cases hok : (client.attendBoth recv send).2 = true
            · have hcallbacks : round.callbacks = callbacksOf recv ++ callbacksOf send := by
                simp only [PollRound.callbacks, hpoll]
              have hdeliver := attend_both_eq_deliver hok
              rw [← hcallbacks] at hdeliver
              rw [hdeliver] at hok
              simp only [hdeliver, hok, if_true] at hreturned ⊢
              have hnext := ih (h.deliver hown hok)
                (hrest.imp_left fun hclose => deliver_done (Or.inr hclose) hok) hreturned
              rwa [List.append_assoc] at hnext
            · simp only [hok] at hreturned
              cases hreturned
              exact absurd hstatus (by decide)

/-- A request that starts clean is answered from its own stream. -/
theorem exchange_faithful {exchange : Exchange} (hclean : StartsClean client exchange) :
    (client.exchange exchange).1.Faithful := by
  obtain ⟨hdone, hreceived, hown, hrest⟩ := hclean
  simp only [Http2Client.exchange]
  split
  · trivial
  split
  · trivial
  rename_i hsent
  split
  · trivial
  rename_i status hreturned
  split
  · trivial
  rename_i hstatus
  have hok : (client.deliver exchange.send.callbacks).2 = true := by
    simp only [Bool.or_eq_true, Bool.not_eq_true', not_or, Bool.not_eq_false] at hsent
    exact hsent.1
  have hstart : Tracks exchange.submit [] client :=
    ⟨hreceived, fun h => absurd (hdone.symm.trans h) (by decide)⟩
  have htracks := hstart.deliver hown hok
  rw [List.nil_append] at htracks
  exact recv_response_tracks htracks
    (hrest.imp_left fun hclose => deliver_done (Or.inr hclose) hok) hreturned
    (Int.not_le.mp hstatus)

/-- **Responses belong to their requests** in every run over one client in which every request
starts clean: each body is the data of the request's stream, and no answer is given before that
stream has closed. -/
theorem clean_exchanges_faithful {exchanges : List Exchange}
    (hclean : Along Http2Client.exchange StartsClean (http2ClientConnect http2ClientInit)
      exchanges) :
    ∀ entry ∈ trace Http2Client.exchange (http2ClientConnect http2ClientInit) exchanges,
      entry.2.Faithful :=
  trace_forall (fun _ _ h => exchange_faithful h) hclean

/-- A request the backend answers in one round with the given body. -/
def answeredExchange (stream : Int) (body : Bytes) : Exchange where
  submit := stream
  send := ⟨[], 0⟩
  rounds :=
    [⟨10, true, false,
      .ready (some ⟨[.headers 1, .dataChunk stream body, .streamClose stream 0], 0⟩) none⟩]

/-- A request that gets no answer in time. -/
def unansweredExchange (stream : Int) : Exchange where
  submit := stream
  send := ⟨[], 0⟩
  rounds := [⟨100, true, false, .idle⟩, ⟨30001, true, false, .idle⟩]

/-- A request without an answer, and then one that is answered. -/
theorem answer_after_timeout_faithful :
    Along Http2Client.exchange StartsClean (http2ClientConnect http2ClientInit)
        [unansweredExchange 1, answeredExchange 3 (ascii "hi")] ∧
      ∀ entry ∈ trace Http2Client.exchange (http2ClientConnect http2ClientInit)
        [unansweredExchange 1, answeredExchange 3 (ascii "hi")], entry.2.Faithful := by
  have hclean : Along Http2Client.exchange StartsClean (http2ClientConnect http2ClientInit)
      [unansweredExchange 1, answeredExchange 3 (ascii "hi")] := by decide +kernel
  exact ⟨hclean, clean_exchanges_faithful hclean⟩

/-- The second of two requests gets the first one's body, before its own stream has closed. -/
theorem second_answer_not_faithful :
    ¬ ∀ entry ∈ trace Http2Client.exchange (http2ClientConnect http2ClientInit)
      [answeredExchange 1 (ascii "alice"), answeredExchange 3 (ascii "bob")],
      entry.2.Faithful := by
  intro hall
  have hsecond : (answeredExchange 3 (ascii "bob"), Outcome.answered 3 [] 1 (ascii "alice")) ∈
      trace Http2Client.exchange (http2ClientConnect http2ClientInit)
        [answeredExchange 1 (ascii "alice"), answeredExchange 3 (ascii "bob")] := by
    decide +kernel
  obtain ⟨errorCode, hclosed⟩ := (hall _ hsecond).2
  exact absurd hclosed List.not_mem_nil

end Emme.Http2
