import Emme.Http2.Client

/-!
# The status of a response

The client's callback for a complete `HEADERS` frame stores the category that `nghttp2` gives the
frame. `http2_client_recv_response` returns what is stored there, and so never the status
(`status_never_returned`).
-/

namespace Emme.Http2

open CString

/-! ## What a backend sends -/

/-- A response on its stream. `data` are the chunks in which the library hands the data on. -/
structure BackendResponse where
  interim : List Nat
  status : Nat
  data : List Bytes
  trailers : Bool
  errorCode : Nat
  interim_informational : ∀ code ∈ interim, 100 ≤ code ∧ code < 200
  final : 200 ≤ status

/-- A frame of a response stream, with the `:status` that a header block carries. -/
inductive Frame where
  | headers (status : Option Nat)
  | data (bytes : Bytes)
  | close (errorCode : Nat)
  deriving DecidableEq, Repr

/-- The frames of a response, in order. -/
def BackendResponse.frames (response : BackendResponse) : List Frame :=
  response.interim.map (fun code => .headers (some code)) ++
    .headers (some response.status) :: response.data.map .data ++
      (if response.trailers then [.headers none] else []) ++ [.close response.errorCode]

/-- `NGHTTP2_HCAT_RESPONSE`, the category of the first header block of a response. -/
def hcatResponse : Nat := 1

/-- `NGHTTP2_HCAT_HEADERS`, the category of all later ones. -/
def hcatHeaders : Nat := 3

/-- The callbacks that the library makes for the frames of a stream. -/
def frameCallbacks (stream : Int) (cat : Nat) : List Frame → List Callback
  | [] => []
  | .headers _ :: frames => .headers cat :: frameCallbacks stream hcatHeaders frames
  | .data bytes :: frames => .dataChunk stream bytes :: frameCallbacks stream cat frames
  | .close errorCode :: frames => .streamClose stream errorCode :: frameCallbacks stream cat frames

/-- The callbacks for a response: its first header block is of the category `NGHTTP2_HCAT_RESPONSE`.
-/
def BackendResponse.callbacks (response : BackendResponse) (stream : Int) : List Callback :=
  frameCallbacks stream hcatResponse response.frames

/-! ## What the client stores -/

/-- The number is a value of `nghttp2_headers_category`. -/
def Callback.Categorised : Callback → Prop
  | .headers cat => cat ≤ 3
  | _ => True

/-- The client has stored a category, or nothing since `memset` cleared it. -/
def Http2Client.Categorised (client : Http2Client) : Prop :=
  0 ≤ client.responseStatus ∧ client.responseStatus ≤ 3

/-- A client that has just connected has stored nothing. -/
theorem init_categorised : (http2ClientConnect http2ClientInit).Categorised :=
  ⟨Int.le_refl 0, by decide⟩

/-- The header blocks that the library reports have categories. -/
theorem frame_callbacks_categorised {stream : Int} {cat : Nat} (hcat : cat ≤ 3)
    (frames : List Frame) :
    ∀ callback ∈ frameCallbacks stream cat frames, callback.Categorised := by
  induction frames generalizing cat with
  | nil => exact nofun
  | cons frame frames ih =>
      cases frame with
      | headers status => exact List.forall_mem_cons.mpr ⟨hcat, ih (by decide)⟩
      | data bytes => exact List.forall_mem_cons.mpr ⟨trivial, ih hcat⟩
      | close errorCode => exact List.forall_mem_cons.mpr ⟨trivial, ih hcat⟩

variable {client : Http2Client}

/-- A callback stores a category or leaves the field alone. -/
theorem Http2Client.Categorised.on_callback {client' : Http2Client} {callback : Callback}
    (h : client.Categorised) (hcallback : callback.Categorised)
    (hcall : client.onCallback callback = some client') : client'.Categorised := by
  cases callback with
  | headers cat =>
      cases hcall
      exact ⟨Int.natCast_nonneg cat, Int.ofNat_le.mpr hcallback⟩
  | dataChunk stream data =>
      rw [Http2Client.onCallback] at hcall
      split at hcall
      · cases hcall
        exact h
      · cases hcall
  | streamClose stream errorCode =>
      cases hcall
      exact h

/-- So do all callbacks of a call. -/
theorem Http2Client.Categorised.deliver (h : client.Categorised) {callbacks : List Callback}
    (hcallbacks : ∀ callback ∈ callbacks, callback.Categorised) :
    (client.deliver callbacks).1.Categorised := by
  induction callbacks generalizing client with
  | nil => exact h
  | cons callback callbacks ih =>
      rw [List.forall_mem_cons] at hcallbacks
      rw [Http2Client.deliver]
      cases hcall : client.onCallback callback with
      | none => exact h
      | some client' => exact ih (h.on_callback hcallbacks.1 hcall) hcallbacks.2

/-- So does a call of the library, if there is one. -/
theorem Http2Client.Categorised.attend (h : client.Categorised) {delivery : Option Delivery}
    (hcallbacks : ∀ callback ∈ callbacksOf delivery, callback.Categorised) :
    (client.attend delivery).1.Categorised := by
  cases delivery with
  | none => exact h
  | some delivery => exact h.deliver hcallbacks

/-- So does a round of the loop. -/
theorem Http2Client.Categorised.attend_both (h : client.Categorised) {recv send : Option Delivery}
    (hcallbacks : ∀ callback ∈ callbacksOf recv ++ callbacksOf send, callback.Categorised) :
    (client.attendBoth recv send).1.Categorised := by
  rw [List.forall_mem_append] at hcallbacks
  have hrecv := h.attend hcallbacks.1
  rw [Http2Client.attendBoth]
  split
  · exact hrecv.attend hcallbacks.2
  · exact hrecv

/-- The loop returns -1 or a category. -/
theorem recv_response_categorised (h : client.Categorised) {rounds : List PollRound}
    (hrounds : ∀ callback ∈ rounds.flatMap PollRound.callbacks, callback.Categorised) {ret : Int}
    (hreturned : (recvResponse client rounds).returned = some ret) : ret ≤ 3 := by
  induction rounds generalizing client with
  | nil =>
      rw [recvResponse] at hreturned
      split at hreturned
      · cases hreturned
        exact h.2
      · cases hreturned
  | cons round rounds ih =>
      rw [List.flatMap_cons, List.forall_mem_append] at hrounds
      rw [recvResponse] at hreturned
      split at hreturned
      · cases hreturned
        exact h.2
      split at hreturned
      · cases hreturned
        decide
      split at hreturned
      · cases hreturned
        exact h.2
      split at hreturned
      · cases hreturned
        decide
      · exact ih h hrounds.2 hreturned
      · cases hreturned
        decide
      · rename_i recv send hpoll
        have hcallbacks : ∀ callback ∈ callbacksOf recv ++ callbacksOf send,
            callback.Categorised := by
          have hround := hrounds.1
          rwa [PollRound.callbacks, hpoll] at hround
        split at hreturned
        · exact ih (h.attend_both hcallbacks) hrounds.2 hreturned
        · cases hreturned
          decide

/-- All header blocks that arrive during an exchange have categories. -/
def Exchange.Categorised (exchange : Exchange) : Prop :=
  ∀ callback ∈ exchange.send.callbacks ++ exchange.rounds.flatMap PollRound.callbacks,
    callback.Categorised

/-- The status of an answer is a category. -/
theorem answered_status_le {exchange : Exchange} (h : client.Categorised)
    (hexchange : exchange.Categorised) {stream : Int} {delivered : List Callback} {status : Int}
    {body : Bytes}
    (hanswered : (client.exchange exchange).1 = .answered stream delivered status body) :
    0 < status ∧ status ≤ 3 := by
  rw [Exchange.Categorised, List.forall_mem_append] at hexchange
  simp only [Http2Client.exchange] at hanswered
  split at hanswered
  · cases hanswered
  split at hanswered
  · cases hanswered
  split at hanswered
  · cases hanswered
  rename_i hreturned
  split at hanswered
  · cases hanswered
  rename_i hpositive
  cases hanswered
  exact ⟨Int.not_le.mp hpositive,
    recv_response_categorised (h.deliver hexchange.1) hexchange.2 hreturned⟩

/-- **The status is never returned.** However the callbacks of a response are spread over the
rounds of the loop, `http2_client_recv_response` does not return the response's status. -/
theorem status_never_returned (client : Http2Client) (hclient : client.Categorised)
    (response : BackendResponse) (stream : Int) (rounds : List PollRound)
    (hrounds : rounds.flatMap PollRound.callbacks = response.callbacks stream) :
    (recvResponse client rounds).returned ≠ some (response.status : Int) := by
  intro hreturned
  have hcallbacks : ∀ callback ∈ rounds.flatMap PollRound.callbacks, callback.Categorised := by
    rw [hrounds]
    exact frame_callbacks_categorised (by decide) response.frames
  have hret := recv_response_categorised hclient hcallbacks hreturned
  have hfinal := response.final
  omega

/-- A response with one header block and five bytes of data. -/
def helloResponse : BackendResponse :=
  ⟨[], 200, [ascii "hello"], false, 0, nofun, by decide⟩

/-- The whole response in one round. -/
def helloRounds : List PollRound :=
  [⟨10, true, false, .ready (some ⟨helloResponse.callbacks 1, 0⟩) none⟩]

/-- A response with status 200, which the client does not return. -/
theorem hello_status_not_returned :
    helloRounds.flatMap PollRound.callbacks = helloResponse.callbacks 1 ∧
      (recvResponse (http2ClientConnect http2ClientInit) helloRounds).returned ≠ some 200 := by
  have hrounds : helloRounds.flatMap PollRound.callbacks = helloResponse.callbacks 1 := by decide
  exact ⟨hrounds, status_never_returned _ init_categorised helloResponse 1 helloRounds hrounds⟩

/-- The response is received completely, and 1 is returned for its status 200. -/
theorem hello_category_returned :
    helloRounds.flatMap PollRound.callbacks = helloResponse.callbacks 1 ∧
      helloResponse.status = 200 ∧
      (recvResponse (http2ClientConnect http2ClientInit) helloRounds).client.received =
        ascii "hello" ∧
      (recvResponse (http2ClientConnect http2ClientInit) helloRounds).returned = some 1 := by
  decide

end Emme.Http2
