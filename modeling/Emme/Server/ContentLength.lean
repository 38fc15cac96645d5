import Emme.Router.Responses
import Emme.Server.Http1

/-!
# Content-Length

The responses of a whole HTTP/1.1 connection. On one that is kept alive a wrong `Content-Length`
spoils every response after it. The number is written as a literal, from `strlen`, or from `lseek`,
and all are right but one literal: the health endpoint announces 53 bytes for 50 while the server
drains (`content_length_iff`).
-/

namespace Emme.Server

open CString FileTree Emme.Config Emme.Http Emme.Router

/-! ## The handler's own answers -/

/-- `SERVER_SECURITY_HEADERS_BUFFER_SIZE`. -/
def serverHeadersBufferSize : Nat := 512

/-- `add_global_security_headers`: the fields it adds to `len` bytes. -/
def addGlobalSecurityHeaders (len : Nat) (config : SecurityHeadersConfig) : List Field :=
  if config.enabled && len < serverHeadersBufferSize then
    addSecurityFields (serverHeadersBufferSize - len) config.headers
  else []

/-- The head that starts with the text `base`, if it fits the handler's buffer. -/
def serverHead (config : SiteConfig) (base : Bytes) : Option Head :=
  if serverHeadersBufferSize ≤ base.length then none
  else
    let added := addGlobalSecurityHeaders base.length config.securityHeaders
    let base := base ++ added.flatMap fieldLine
    if base.length + 2 < serverHeadersBufferSize then
      some { text := base ++ crlf, security := added, cors := [] }
    else none

/-- The answers that end a connection have no body, and are written at one go. -/
def sendEnding (config : SiteConfig) (base : Bytes) (limits : Limits) : Written :=
  writeResponse (serverHead config base) limits.head ([], true)

/-- The first lines of the answer to a request that takes too long. -/
def timeoutBase : Bytes :=
  ascii "HTTP/1.1 408 Request Timeout\r\nContent-Length: 0\r\nRetry-After: 5\r\n"

/-- The first lines of the answer to a head that does not fit the buffer. -/
def tooLargeBase : Bytes :=
  ascii "HTTP/1.1 431 Request Header Fields Too Large\r\nContent-Length: 0\r\n"

/-- The first lines of the answer to a request that cannot be parsed. -/
def badRequestBase : Bytes :=
  ascii "HTTP/1.1 400 Bad Request\r\nContent-Length: 0\r\n"

/-! ## Rounds -/

/-- What a round of the handler comes to: one of its endings, or a request, with its head, its
strings, the buffer as the parser left it, and what has not been read yet. -/
inductive Round where
  | ending (reason : Ending)
  | request (head : Bytes) (text : RequestText) (raw : Bytes) (rest : List SslRead)
  deriving DecidableEq, Repr

/-- Steps 1 and 2 of a round. -/
def nextRound (timeoutMs : Int) (reads : List SslRead) : Round :=
  match readHead timeoutMs [] reads with
  | .closed => .ending .closed
  | .timeout => .ending .timeout
  | .tooLarge => .ending .tooLarge
  | .head buffer headerEnd rest =>
      match parseHttpRequest buffer with
      | none => .ending .badRequest
      | some (cut, request) => .request (buffer.take headerEnd) (request.text cut) cut rest

/-- The surroundings of a round. -/
structure RoundIo extends ResponseIo where
  state : ShutdownState
  relayed : Nat

/-- The surroundings as `Emme.Router.Dispatch` sees them, for a request with this path. -/
def RoundIo.requestIo (config : SiteConfig) (path : Bytes) (io : RoundIo) : RequestIo where
  view := io.view
  writes := (serveStaticResponse config path io.toResponseIo).ok
  net := io.net
  relayed := io.relayed

/-- What a round puts on the wire. -/
def roundOutputs (config : SiteConfig) (io : RoundIo) : Round → List Output
  | .ending .closed => []
  | .ending .timeout => (sendEnding config timeoutBase io.first).outputs
  | .ending .tooLarge => (sendEnding config tooLargeBase io.first).outputs
  | .ending .badRequest => (sendEnding config badRequestBase io.first).outputs
  | .request _ text raw _ => routeResponses config io.state text.path raw io.toResponseIo

/-- The loop of `handle_http1_connection`, with every round in its surroundings. -/
def connection (config : SiteConfig) (timeoutMs : Int) :
    Nat → (Nat → RoundIo) → List SslRead → List (Round × RoundIo)
  | 0, _, _ => []
  | rounds + 1, io, reads =>
      (nextRound timeoutMs reads, io 0) ::
        match nextRound timeoutMs reads with
        | .ending _ => []
        | .request _ text raw rest =>
            connection config timeoutMs rounds (fun k => io (k + 1))
              (afterAnswer
                (routeRequestTls config.table text raw ((io 0).requestIo config text.path))
                ((io 0).requestIo config text.path) rest)

/-- What a connection puts on the wire. -/
def connectionOutputs (config : SiteConfig) (timeoutMs : Int) (rounds : Nat)
    (io : Nat → RoundIo) (reads : List SslRead) : List Output :=
  (connection config timeoutMs rounds io reads).flatMap fun (round, io) =>
    roundOutputs config io round

/-- The request of a round as the handler's model records it. -/
def Round.routed? : Round → Option Routed
  | .ending _ => none
  | .request head text _ _ => some ⟨head, text⟩

/-- A round of the handler's model. -/
theorem serve_succ (routes : List Route) (timeoutMs : Int) (rounds : Nat)
    (io : Nat → RequestIo) (reads : List SslRead) :
    serve routes timeoutMs (rounds + 1) io reads =
      match nextRound timeoutMs reads with
      | .ending reason => ⟨[], reason⟩
      | .request head text raw rest =>
          let session := serve routes timeoutMs rounds (fun k => io (k + 1))
            (afterAnswer (routeRequestTls routes text raw (io 0)) (io 0) rest)
          { session with routed := ⟨head, text⟩ :: session.routed } := by
  rw [serve, nextRound]
  cases readHead timeoutMs [] reads with
  | closed => rfl
  | timeout => rfl
  | tooLarge => rfl
  | head buffer headerEnd rest =>
      simp only [answerRequest]
      cases parseHttpRequest buffer <;> rfl

/-- The rounds are those of the handler's model. -/
theorem connection_routed (config : SiteConfig) (timeoutMs : Int) (rounds : Nat)
    (io : Nat → RoundIo) (reads : List SslRead) :
    ∃ requestIo : Nat → RequestIo,
      (serve config.table timeoutMs rounds requestIo reads).routed =
        (connection config timeoutMs rounds io reads).filterMap fun exchange =>
          exchange.1.routed? := by
  induction rounds generalizing io reads with
  | zero => exact ⟨fun k => (io k).requestIo config [], rfl⟩
  | succ rounds ih =>
      cases hround : nextRound timeoutMs reads with
      | ending reason =>
          refine ⟨fun k => (io k).requestIo config [], ?_⟩
          rw [serve_succ, connection, hround]
          rfl
      | request head text raw rest =>
          obtain ⟨later, hlater⟩ := ih (fun k => io (k + 1))
            (afterAnswer
              (routeRequestTls config.table text raw ((io 0).requestIo config text.path))
              ((io 0).requestIo config text.path) rest)
          -- whether the static response goes through is known once the path is
          refine ⟨fun k => Nat.casesOn k ((io 0).requestIo config text.path) later, ?_⟩
          rw [serve_succ, connection, hround]
          simp only [Round.routed?, List.filterMap_cons]
          exact congrArg _ hlater

/-! ## The header -/

/-- The start of the header's line. -/
def lengthHeader : Bytes := ascii "\r\nContent-Length: "

/-- The value of the first `Content-Length` header of a head. -/
def contentLength (head : Bytes) : Option Nat :=
  (findSub lengthHeader head).bind fun i =>
    let digits := (head.drop (i + lengthHeader.length)).takeWhile isDigit
    if digits = [] then none else some (decimal digits)

/-- If the response went through, its body is as long as its head says. -/
def Honest (response : OwnResponse) : Prop :=
  response.complete = true → contentLength response.head.text = some response.bodySent.length

instance : DecidablePred Honest := fun response =>
  inferInstanceAs (Decidable (response.complete = true → _))

/-- A digit's byte has the digit's value. -/
theorem to_nat_of_is_digit {c : Char} (h : c.isDigit = true) :
    c.toNat.toUInt8.toNat = c.toNat ∧ isDigit c.toNat.toUInt8 = true := by
  simp only [Char.isDigit, ge_iff_le, Bool.and_eq_true, decide_eq_true_eq, UInt32.le_iff_toNat_le]
    at h
  have hlow : 48 ≤ c.toNat := h.1
  have hhigh : c.toNat ≤ 57 := h.2
  have hnat : c.toNat.toUInt8.toNat = c.toNat := by
    rw [Nat.toUInt8, UInt8.toNat_ofNat']
    omega
  refine ⟨hnat, ?_⟩
  simp only [isDigit, Bool.and_eq_true, decide_eq_true_eq, UInt8.le_iff_toNat_le, hnat]
  exact ⟨hlow, hhigh⟩

/-- The digits of a number are digits. -/
theorem decimal_text_digits {n : Nat} {b : UInt8} (h : b ∈ decimalText n) :
    isDigit b = true := by
  obtain ⟨c, hc, rfl⟩ := List.mem_map.mp h
  exact (to_nat_of_is_digit (Nat.isDigit_of_mem_toDigits (by decide) (by decide) hc)).2

/-- The value of the digits of a number is the number. -/
theorem decimal_decimal_text (n : Nat) : decimal (decimalText n) = n := by
  have hfold : ∀ (chars : List Char) (start : Nat), (∀ c ∈ chars, c.isDigit = true) →
      (chars.map fun c => c.toNat.toUInt8).foldl
          (fun value digit => 10 * value + (digit.toNat - 48)) start =
        Nat.ofDigitChars 10 chars start := by
    intro chars start hchars
    rw [Nat.ofDigitChars_eq_foldl, List.foldl_map]
    refine List.foldl_ext _ _ _ fun value c hc => ?_
    rw [(to_nat_of_is_digit (hchars c hc)).1]
    rfl
  rw [decimal, decimalText, hfold _ _ fun c hc =>
    Nat.isDigit_of_mem_toDigits (by decide) (by decide) hc]
  exact Nat.ofDigitChars_ten_toDigits

/-- The header is read back from a head in which it comes first at the end of `start`. -/
theorem content_length_eq {start : Bytes} {i : Nat} (hfind : findSub lengthHeader start = some i)
    (hend : i + lengthHeader.length = start.length) (n : Nat) (more : Bytes) :
    contentLength (start ++ decimalText n ++ crlf ++ more) = some n := by
  have hdigits : ((start ++ decimalText n ++ crlf ++ more).drop (i + lengthHeader.length)).takeWhile
      isDigit = decimalText n := by
    rw [hend, List.append_assoc, List.append_assoc, List.drop_left,
      List.takeWhile_append_of_pos fun b hb => decimal_text_digits hb]
    exact List.append_nil _
  have hne : decimalText n ≠ [] := by
    rw [decimalText, Ne, List.map_eq_nil_iff]
    exact Nat.toDigits_ne_nil
  rw [contentLength, List.append_assoc, List.append_assoc, find_sub_append hfind, Option.bind_some,
    ← List.append_assoc, ← List.append_assoc]
  simp only [hdigits, if_neg hne, decimal_decimal_text]

/-! ## Responses -/

/-- What the reads of a file return. -/
def fileBytes (transfers : List Transfer) : Bytes :=
  transfers.flatMap fun transfer =>
    match transfer with
    | .failed => []
    | .chunk bytes _ => bytes

/-- A file whose copying succeeds was read and written as a whole. -/
theorem transfer_file_sent {transfers : List Transfer} (h : (transferFile transfers).2 = true) :
    (transferFile transfers).1 = fileBytes transfers ∧ .failed ∉ transfers := by
  induction transfers with
  | nil => exact ⟨rfl, List.not_mem_nil⟩
  | cons transfer transfers ih =>
      cases transfer with
      | failed => cases h
      | chunk bytes limit =>
          have hcut : ¬ Cut bytes limit := by
            intro hcut
            rw [transfer_file_fails.mpr
              ⟨_, List.mem_cons_self, Or.inr ⟨bytes, limit, rfl, hcut⟩⟩] at h
            cases h
          simp only [transferFile, ssl_write_all_uncut hcut] at h ⊢
          obtain ⟨hrest, hfailed⟩ := ih h
          exact ⟨by simp [fileBytes, hrest], by simpa using hfailed⟩

variable {response : OwnResponse} {base path : Bytes} {config : SiteConfig} {limits : Limits}
  {io : ResponseIo}

/-- A response is honest if its head announces what the writing of its body writes when it
succeeds. -/
theorem write_response_honest {head : Option Head} {limit : Option Nat} {body : Bytes × Bool}
    {n : Nat} (hhead : ∀ built, head = some built → contentLength built.text = some n)
    (hbody : body.2 = true → body.1.length = n)
    (h : (writeResponse head limit body).response = some response) : Honest response := by
  cases head with
  | none => cases h
  | some built =>
      unfold writeResponse at h
      simp only at h
      split at h <;> cases h
      · intro hcomplete
        rw [hhead built rfl, hbody hcomplete]
      · exact fun hcomplete => absurd hcomplete Bool.false_ne_true

/-- A head starts with the text it was built from. -/
theorem build_head_starts {security : SecurityHeadersConfig} {cors : CORSConfig} {head : Head}
    (h : buildHead base security cors = some head) : ∃ more, head.text = base ++ more := by
  obtain ⟨-, -, htext, -⟩ := build_head_eq_some h
  exact ⟨_, by rw [htext, List.append_assoc, List.append_assoc]⟩

/-- A head of the handler starts with the lines it is built from. -/
theorem server_head_starts {head : Head} (h : serverHead config base = some head) :
    ∃ more, head.text = base ++ more := by
  unfold serverHead at h
  split at h
  · cases h
  simp only at h
  split at h
  · cases h
    exact ⟨_, by rw [List.append_assoc]⟩
  · cases h

/-- Where the header begins in the part of a head before its value. -/
def AtEnd (start : Bytes) : Prop :=
  findSub lengthHeader start = some (start.length - lengthHeader.length) ∧
    lengthHeader.length ≤ start.length

instance : DecidablePred AtEnd := fun start =>
  inferInstanceAs (Decidable (_ ∧ lengthHeader.length ≤ start.length))

/-- The header is read back from a head that starts with it. -/
theorem AtEnd.content_length {start : Bytes} (h : AtEnd start) (n : Nat) (more : Bytes) :
    contentLength (start ++ decimalText n ++ crlf ++ more) = some n :=
  content_length_eq h.1 (Nat.sub_add_cancel h.2) n more

/-- `send_simple_response_with_config` is honest. -/
theorem send_simple_response_honest {statusLine contentType body : Bytes}
    (hstart : AtEnd (statusLine ++ crlf ++ contentType ++ ascii "Content-Length: "))
    (h : (sendSimpleResponse config path statusLine contentType body limits).response =
      some response) : Honest response := by
  refine write_response_honest (n := body.length) ?_ ?_ h
  · intro head hhead
    obtain ⟨more, hmore⟩ := build_head_starts hhead
    rw [hmore]
    exact hstart.content_length _ _
  · intro hok
    have hcut : ¬ Cut body limits.body := fun hcut => by
      rw [ssl_write_all_fails.mpr hcut] at hok
      cases hok
    rw [ssl_write_all_uncut hcut]

/-- A 404 is honest. -/
theorem send_not_found_honest (h : (sendNotFound config path limits).response = some response) :
    Honest response :=
  send_simple_response_honest (by decide +kernel) h

/-- The endings are honest. -/
theorem send_ending_honest (start more : Bytes) (hstart : AtEnd start)
    (hbase : base = start ++ decimalText 0 ++ crlf ++ more)
    (h : (sendEnding config base limits).response = some response) : Honest response := by
  refine write_response_honest (n := 0) ?_ (fun _ => rfl) h
  intro head hhead
  obtain ⟨rest, hrest⟩ := server_head_starts hhead
  rw [hrest, hbase, List.append_assoc]
  exact hstart.content_length _ _

/-- The file for a path keeps its size during the response: the reads of it return as many bytes
as `lseek` found. -/
def KeepsSize (config : SiteConfig) (path : Bytes) (io : ResponseIo) : Prop :=
  ∀ file filesize contentType,
    lookupStaticFile io.view path config.table = .ready file filesize contentType →
    .failed ∉ io.transfers → (fileBytes io.transfers).length = filesize

/-- `serve_static_tls` is honest about a file that keeps its size. -/
theorem serve_static_response_honest (hsteady : KeepsSize config path io)
    (h : (serveStaticResponse config path io).response = some response) : Honest response := by
  unfold serveStaticResponse at h
  split at h
  · cases h
  · cases h
  · exact send_not_found_honest h
  · exact send_simple_response_honest (by decide +kernel) h
  · rename_i file filesize contentType hlookup
    refine write_response_honest (n := filesize) ?_ ?_ h
    · intro head hhead
      obtain ⟨more, hmore⟩ := build_head_starts hhead
      have hstarts : ∀ text ∈ ascii "application/octet-stream" :: contentTypes.map Prod.snd,
          AtEnd (ascii "HTTP/1.1 200 OK\r\nContent-Type: " ++ text ++
            ascii "\r\nContent-Length: ") := by decide +kernel
      rw [hmore]
      exact (hstarts contentType (lookup_static_file_ready hlookup).2).content_length _ _
    · intro hok
      obtain ⟨hsent, hfailed⟩ := transfer_file_sent hok
      rw [hsent]
      exact hsteady file filesize contentType hlookup hfailed

/-- The server drains, and the answer about its health goes through. -/
def AnswersDraining (state : ShutdownState) (limits : Limits) : Prop :=
  state = .draining ∧ ¬ Cut (healthResponse .draining).1 limits.head ∧
    ¬ Cut (healthResponse .draining).2 limits.body

/-- The health endpoint is honest unless the server drains and the answer goes through. -/
theorem send_health_response_honest {state : ShutdownState}
    (h : (sendHealthResponse state limits).response = some response) :
    Honest response ↔ ¬ AnswersDraining state limits := by
  cases h
  by_cases hcut :
      Cut (healthResponse state).1 limits.head ∨ Cut (healthResponse state).2 limits.body
  · -- the answer did not go through
    refine iff_of_true (fun hcomplete => ?_) ?_
    · rw [Bool.and_eq_true] at hcomplete
      rcases hcut with hcut | hcut
      · exact absurd (ssl_write_all_fails.mpr hcut) (by simp [hcomplete.1])
      · exact absurd (ssl_write_all_fails.mpr hcut) (by simp [hcomplete.2])
    · rintro ⟨rfl, hhead, hbody⟩
      exact hcut.elim hhead hbody
  · obtain ⟨hhead, hbody⟩ := not_or.mp hcut
    simp only [Honest, ssl_write_all_uncut hhead, ssl_write_all_uncut hbody]
    cases state with
    | draining => exact iff_of_false (by decide +kernel) fun h => h ⟨rfl, hhead, hbody⟩
    | running => exact iff_of_true (by decide +kernel) fun h => ShutdownState.noConfusion h.1
    | forced => exact iff_of_true (by decide +kernel) fun h => ShutdownState.noConfusion h.1

/-! ## Connections -/

/-- The file system does not change during the response. -/
def SteadyFile (config : SiteConfig) : Round × RoundIo → Prop
  | (.ending _, _) => True
  | (.request _ text _ _, io) => KeepsSize config text.path io.toResponseIo

/-- The request asks for the server's health while the server drains, and the answer goes
through. -/
def HealthWhileDraining : Round × RoundIo → Prop
  | (.ending _, _) => False
  | (.request _ text _ _, io) =>
      text.path = ascii "/health" ∧ AnswersDraining io.state io.first

/-- What a function puts on the wire is the response it has written. -/
theorem mem_outputs {written : Written} :
    Output.own response ∈ written.outputs ↔ written.response = some response := by
  simp [Written.outputs]

/-- What comes after the static files is honest. -/
theorem route_fallback_honest {raw : Bytes}
    (h : Output.own response ∈ routeFallback config path raw io) : Honest response := by
  unfold routeFallback at h
  split at h
  · simp at h
  · exact send_not_found_honest (mem_outputs.mp h)

/-- `route_request_tls` is honest, except for the health of a server that drains. -/
theorem route_responses_honest {state : ShutdownState} {raw : Bytes}
    (hsteady : KeepsSize config path io) :
    (∀ response, Output.own response ∈ routeResponses config state path raw io →
      Honest response) ↔
    ¬ (path = ascii "/health" ∧ AnswersDraining state io.first) := by
  unfold routeResponses
  by_cases hhealth : path = ascii "/health"
  · rw [if_pos hhealth]
    simp only [mem_outputs, hhealth, true_and]
    constructor
    · exact fun h => (send_health_response_honest rfl).mp (h _ rfl)
    · exact fun h response hresponse => (send_health_response_honest hresponse).mpr h
  · refine iff_of_true (fun response hmem => ?_) fun h => hhealth h.1
    rw [if_neg hhealth] at hmem
    split at hmem
    · exact send_simple_response_honest (by decide +kernel) (mem_outputs.mp hmem)
    · rcases List.mem_append.mp hmem with hmem | hmem
      · exact serve_static_response_honest hsteady (mem_outputs.mp hmem)
      · split at hmem
        · cases hmem
        · exact route_fallback_honest hmem

/-- A round is honest exactly if it is not the one exception. -/
theorem round_outputs_honest {exchange : Round × RoundIo} (hsteady : SteadyFile config exchange) :
    (∀ response, Output.own response ∈ roundOutputs config exchange.2 exchange.1 →
      Honest response) ↔ ¬ HealthWhileDraining exchange := by
  obtain ⟨round, io⟩ := exchange
  cases round with
  | request head text raw rest => exact route_responses_honest hsteady
  | ending reason =>
      refine iff_of_true (fun response hmem => ?_) not_false
      cases reason with
      | closed => cases hmem
      | timeout =>
          exact send_ending_honest (ascii "HTTP/1.1 408 Request Timeout\r\nContent-Length: ")
            (ascii "Retry-After: 5\r\n") (by decide +kernel) (by decide +kernel)
            (mem_outputs.mp hmem)
      | tooLarge =>
          exact send_ending_honest
            (ascii "HTTP/1.1 431 Request Header Fields Too Large\r\nContent-Length: ") []
            (by decide +kernel) (by decide +kernel) (mem_outputs.mp hmem)
      | badRequest =>
          exact send_ending_honest (ascii "HTTP/1.1 400 Bad Request\r\nContent-Length: ") []
            (by decide +kernel) (by decide +kernel) (mem_outputs.mp hmem)

/-- **The announced lengths.** On a connection whose files keep their sizes, every response of
the server's own that goes through has the body its head announces exactly if no request asks
for the server's health while the server drains. -/
theorem content_length_iff (config : SiteConfig) (timeoutMs : Int) (rounds : Nat)
    (io : Nat → RoundIo) (reads : List SslRead)
    (hsteady : ∀ exchange ∈ connection config timeoutMs rounds io reads,
      SteadyFile config exchange) :
    (∀ response, Output.own response ∈ connectionOutputs config timeoutMs rounds io reads →
      Honest response) ↔
    ∀ exchange ∈ connection config timeoutMs rounds io reads, ¬ HealthWhileDraining exchange := by
  constructor
  · intro h exchange hmem
    refine (round_outputs_honest (hsteady exchange hmem)).mp fun response hresponse => ?_
    exact h response (List.mem_flatMap.mpr ⟨exchange, hmem, hresponse⟩)
  · intro h response hmem
    obtain ⟨exchange, hexchange, hresponse⟩ := List.mem_flatMap.mp hmem
    exact (round_outputs_honest (hsteady exchange hexchange)).mpr (h exchange hexchange)
      response hresponse

/-- Every round has the surroundings of its number. -/
theorem mem_connection_io {timeoutMs : Int} {rounds : Nat} {io : Nat → RoundIo}
    {reads : List SslRead} {exchange : Round × RoundIo}
    (h : exchange ∈ connection config timeoutMs rounds io reads) : ∃ k, exchange.2 = io k := by
  induction rounds generalizing io reads with
  | zero => cases h
  | succ rounds ih =>
      rw [connection] at h
      rcases List.mem_cons.mp h with rfl | h
      · exact ⟨0, rfl⟩
      · split at h
        · cases h
        · obtain ⟨k, hk⟩ := ih h
          exact ⟨k + 1, hk⟩

/-- A client that takes everything and a file of five bytes. -/
def fileIo (state : ShutdownState) : RoundIo where
  view := exampleView
  first := ⟨none, none⟩
  transfers := [.chunk (ascii "hel") none, .chunk (ascii "lo") none]
  net := ⟨false, false, []⟩
  relay := []
  last := ⟨none, none⟩
  state := state
  relayed := 0

/-- A request for a file, and one for the server's health. -/
def fileAndHealth : List SslRead :=
  [⟨ascii "GET /files/a.txt HTTP/1.1\r\n\r\n", 0⟩, ⟨ascii "GET /health HTTP/1.1\r\n\r\n", 0⟩]

/-- Both responses are honest while the server is running. -/
theorem content_length_iff_running :
    (∀ response, Output.own response ∈
        connectionOutputs filesConfig 1000 3 (fun _ => fileIo .running) fileAndHealth →
      Honest response) ∧
    (connectionOutputs filesConfig 1000 3 (fun _ => fileIo .running) fileAndHealth).length = 2 := by
  have hsteady : ∀ exchange ∈
      connection filesConfig 1000 3 (fun _ => fileIo .running) fileAndHealth,
      SteadyFile filesConfig exchange := by
    rintro ⟨round, io⟩ hmem
    obtain ⟨k, rfl⟩ := mem_connection_io hmem
    cases round with
    | ending reason => trivial
    | request head text raw rest =>
        intro file filesize contentType hlookup _
        exact Option.some.inj (lookup_static_file_ready hlookup).1
  refine ⟨(content_length_iff _ _ _ _ _ hsteady).mpr ?_, by decide +kernel⟩
  rintro ⟨round, io⟩ hmem hdraining
  obtain ⟨k, rfl⟩ := mem_connection_io hmem
  cases round with
  | ending reason => exact hdraining
  | request head text raw rest => exact ShutdownState.noConfusion hdraining.2.1

/-- While the server drains, the answer about its health announces three bytes more than it
has. -/
theorem health_announces_too_much :
    ∃ response, Output.own response ∈
        connectionOutputs filesConfig 1000 3 (fun _ => fileIo .draining) fileAndHealth ∧
      response.complete = true ∧ contentLength response.head.text = some 53 ∧
      response.bodySent.length = 50 ∧ ¬ Honest response := by
  refine ⟨⟨⟨(healthResponse .draining).1, [], []⟩, (healthResponse .draining).1,
    (healthResponse .draining).2, true⟩, ?_⟩
  decide +kernel

end Emme.Server
