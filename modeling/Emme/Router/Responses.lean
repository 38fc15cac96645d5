import Emme.Config.Load

/-!
# What a response puts on the wire

The HTTP/1.1 half of `route_request_tls` with the bytes it writes to the client. Where writes break
off and reads fail is an input. `serve_static_tls`, `proxy_request_tls` and the final 404 are tried
one after another, and each says with `-1` both that the request is not its own and that it failed
half-way: `one_head_iff` says when this puts something after a response that was begun.
-/

namespace Emme.Router

open CString FileTree Emme.Config Emme.Http

/-! ## Header fields -/

/-- `HEADER_BUFFER_SIZE`. -/
def headerBufferSize : Nat := 256

/-- `SECURITY_HEADERS_BUFFER_SIZE`. -/
def securityHeadersBufferSize : Nat := 1024

/-- The conversion `%zu` of `snprintf`. -/
def decimalText (n : Nat) : Bytes := (Nat.toDigits 10 n).map fun c => c.toNat.toUInt8

/-- A header field: its name and its value. -/
abbrev Field := Bytes × Bytes

/-- The conversion `"%s: %s\r\n"`. -/
def fieldLine (field : Field) : Bytes := field.1 ++ ascii ": " ++ field.2 ++ crlf

/-- The route's path starts the request's, whatever the route's technology. -/
def matchesPath (path : Bytes) (route : SiteRoute) : Bool := route.path.isPrefixOf path

/-- The security headers for a request that the route serves. -/
def resolveSecurity (config : SiteConfig) (route : SiteRoute) : SecurityHeadersConfig :=
  if route.securityHeaders.enabled then route.securityHeaders
  else if route.inheritGlobalHeaders then config.securityHeaders
  else .none

/-- `get_security_headers_for_request`. -/
def getSecurityHeadersForRequest (config : SiteConfig) (path : Bytes) : SecurityHeadersConfig :=
  match config.routes.find? (matchesPath path) with
  | some route => resolveSecurity config route
  | none => config.securityHeaders

/-- `get_cors_config_for_request`. -/
def getCorsConfigForRequest (config : SiteConfig) (path : Bytes) : CORSConfig :=
  match config.routes.find? (matchesPath path) with
  | some route => if route.cors.enabled then route.cors else .none
  | none => .none

/-- The field that a security header is sent as. -/
def securityField (header : SecurityHeader) : Field := (header.name.1, header.value.1)

/-- The loop of `add_security_headers_to_buffer`, which ends at the first header that does not
fit. -/
def addSecurityFields : Nat → List SecurityHeader → List Field
  | _, [] => []
  | remaining, header :: headers =>
      if 20 < remaining ∧ (fieldLine (securityField header)).length < remaining then
        securityField header ::
          addSecurityFields (remaining - (fieldLine (securityField header)).length) headers
      else []

/-- `add_security_headers_to_buffer`: the fields it adds to `len` bytes. -/
def addSecurityHeadersToBuffer (len : Nat) (config : SecurityHeadersConfig) : List Field :=
  if config.enabled && len < securityHeadersBufferSize then
    addSecurityFields (securityHeadersBufferSize - len) config.headers
  else []

/-- The fields of a CORS configuration, each with the room that must be exceeded for it. -/
def corsFields (cors : CORSConfig) : List (Nat × Field) :=
  (if cors.allowOrigin.1 ≠ [] then
    [(0, ascii "Access-Control-Allow-Origin", cors.allowOrigin.1)] else []) ++
  (if cors.allowMethods.1 ≠ [] then
    [(30, ascii "Access-Control-Allow-Methods", cors.allowMethods.1)] else []) ++
  (if cors.allowHeaders.1 ≠ [] then
    [(30, ascii "Access-Control-Allow-Headers", cors.allowHeaders.1)] else []) ++
  (if cors.allowCredentials then
    [(40, ascii "Access-Control-Allow-Credentials", ascii "true")] else []) ++
  (if 0 < cors.maxAgeSeconds then
    [(30, ascii "Access-Control-Max-Age", decimalText cors.maxAgeSeconds.toInt.toNat)] else [])

/-- The statements of `add_cors_headers_to_buffer` one after another; a field that does not fit
is left out. -/
def addCorsFields : Nat → List (Nat × Field) → List Field
  | _, [] => []
  | remaining, (room, field) :: fields =>
      if room < remaining ∧ (fieldLine field).length < remaining then
        field :: addCorsFields (remaining - (fieldLine field).length) fields
      else addCorsFields remaining fields

/-- `add_cors_headers_to_buffer`: the fields it adds to `len` bytes. -/
def addCorsHeadersToBuffer (len : Nat) (cors : CORSConfig) : List Field :=
  if cors.enabled && len < securityHeadersBufferSize then
    addCorsFields (securityHeadersBufferSize - len) (corsFields cors)
  else []

/-! ## Heads -/

/-- A response head, with the header fields that were added to it. -/
structure Head where
  text : Bytes
  security : List Field
  cors : List Field
  deriving DecidableEq, Repr

/-- The common part of `send_simple_response_with_config` and `serve_static_tls`: the head that
starts with the text `base`, if it fits its buffer. -/
def buildHead (base : Bytes) (security : SecurityHeadersConfig) (cors : CORSConfig) :
    Option Head :=
  if headerBufferSize ≤ base.length then none
  else
    let securityAdded := addSecurityHeadersToBuffer base.length security
    let base := base ++ securityAdded.flatMap fieldLine
    let corsAdded := addCorsHeadersToBuffer base.length cors
    let base := base ++ corsAdded.flatMap fieldLine
    if headerBufferSize ≤ base.length + 2 then none
    else some { text := base ++ crlf, security := securityAdded, cors := corsAdded }

/-- The head for a request. -/
def requestHead (config : SiteConfig) (path base : Bytes) : Option Head :=
  buildHead base (getSecurityHeadersForRequest config path) (getCorsConfigForRequest config path)

/-- The head of `send_simple_response_with_config`; `contentType` is a whole line or empty. -/
def simpleHead (config : SiteConfig) (path statusLine contentType body : Bytes) : Option Head :=
  requestHead config path
    (statusLine ++ crlf ++ contentType ++ ascii "Content-Length: " ++ decimalText body.length ++
      crlf)

/-- The head of a static file. -/
def staticHead (config : SiteConfig) (path contentType : Bytes) (filesize : Nat) : Option Head :=
  requestHead config path
    (ascii "HTTP/1.1 200 OK\r\nContent-Type: " ++ contentType ++
      ascii "\r\nContent-Length: " ++ decimalText filesize ++ crlf)

/-! ## Writing -/

/-- `ssl_write_all`: what reaches the client, and whether it returns 0. A limit is the number of
bytes after which `SSL_write` fails. -/
def sslWriteAll (data : Bytes) : Option Nat → Bytes × Bool
  | none => (data, true)
  | some limit => if limit < data.length then (data.take limit, false) else (data, true)

/-- What became of a response: its head, the bytes of the head and of the body that reached the
client, and whether nothing failed on the way. -/
structure OwnResponse where
  head : Head
  headSent : Bytes
  bodySent : Bytes
  complete : Bool
  deriving DecidableEq, Repr

/-- What a function that answers has written, and whether it returns 0. -/
structure Written where
  response : Option OwnResponse
  ok : Bool
  deriving DecidableEq, Repr

/-- Write a head, and then the body if the head went through; `body` is what the writing of the
body does. -/
def writeResponse (head : Option Head) (limit : Option Nat) (body : Bytes × Bool) : Written :=
  match head with
  | none => ⟨none, false⟩
  | some head =>
      match sslWriteAll head.text limit with
      | (sent, true) => ⟨some ⟨head, sent, body.1, body.2⟩, body.2⟩
      | (sent, false) => ⟨some ⟨head, sent, [], false⟩, false⟩

/-- The limits of the write of a head and of the write of a body. -/
structure Limits where
  head : Option Nat
  body : Option Nat
  deriving DecidableEq, Repr

/-- `send_simple_response_with_config`. -/
def sendSimpleResponse (config : SiteConfig) (path statusLine contentType body : Bytes)
    (limits : Limits) : Written :=
  writeResponse (simpleHead config path statusLine contentType body) limits.head
    (sslWriteAll body limits.body)

/-- A turn of the loop that copies a file to the client: a read that fails, or one that returns
some bytes, with the limit of their write. -/
inductive Transfer where
  | failed
  | chunk (bytes : Bytes) (limit : Option Nat)
  deriving DecidableEq, Repr

/-- The loop that copies a file; the read after the last turn returns 0. -/
def transferFile : List Transfer → Bytes × Bool
  | [] => ([], true)
  | .failed :: _ => ([], false)
  | .chunk bytes limit :: transfers =>
      match sslWriteAll bytes limit with
      | (sent, true) => (sent ++ (transferFile transfers).1, (transferFile transfers).2)
      | (sent, false) => (sent, false)

/-- `shutdown_state_t`. -/
inductive ShutdownState where
  | running
  | draining
  | forced
  deriving DecidableEq, Repr

/-- The literals of `send_health_response`: the head and the body. -/
def healthResponse : ShutdownState → Bytes × Bytes
  | .draining =>
      (ascii "HTTP/1.1 503 Service Unavailable\r\nContent-Type: application/json\r\n" ++
          ascii "Retry-After: 5\r\nContent-Length: 53\r\n\r\n",
        ascii "\x7b\"status\":\"draining\",\"reason\":\"graceful_shutdown\"\x7d")
  | .running | .forced =>
      (ascii "HTTP/1.1 200 OK\r\nContent-Type: application/json\r\nContent-Length: 15\r\n\r\n",
        ascii "\x7b\"status\":\"ok\"\x7d")

/-- `send_health_response`, which ignores what its writes return. -/
def sendHealthResponse (state : ShutdownState) (limits : Limits) : Written :=
  let head := sslWriteAll (healthResponse state).1 limits.head
  let body := sslWriteAll (healthResponse state).2 limits.body
  ⟨some ⟨⟨(healthResponse state).1, [], []⟩, head.1, body.1, head.2 && body.2⟩, true⟩

/-- The page at `/`. -/
def rootBody : Bytes :=
  ascii "<html><head><title>High Performance Web Server</title></head>" ++
  ascii "<body><h1>Welcome to High Performance Web Server</h1>" ++
  ascii "<p>This server is designed to outperform Nginx and Apache by utilizing " ++
  ascii "advanced I/O techniques, a modular architecture, and an efficient reverse proxy " ++
  ascii "mechanism.</p>" ++
  ascii "</body></html>"

/-! ## The dispatcher -/

/-- The surroundings of one request: the file system, the limits of the writes of the first response
and of the final 404, the turns of the loop that copies a file, the backend's system calls, and what
the relay writes. -/
structure ResponseIo where
  view : View
  first : Limits
  transfers : List Transfer
  net : BackendNet
  relay : Bytes
  last : Limits

/-- `send_simple_response_with_config` for a 404. -/
def sendNotFound (config : SiteConfig) (path : Bytes) (limits : Limits) : Written :=
  sendSimpleResponse config path (ascii "HTTP/1.1 404 Not Found") [] [] limits

/-- `serve_static_tls`, with what it writes. -/
def serveStaticResponse (config : SiteConfig) (path : Bytes) (io : ResponseIo) : Written :=
  match lookupStaticFile io.view path config.table with
  | .noRoute => ⟨none, false⟩
  | .error => ⟨none, false⟩
  | .notFound => sendNotFound config path io.first
  | .forbidden =>
      sendSimpleResponse config path (ascii "HTTP/1.1 403 Forbidden") [] [] io.first
  | .ready _ filesize contentType =>
      writeResponse (staticHead config path contentType filesize) io.first.head
        (transferFile io.transfers)

/-- The outcome of `serve_static_tls` is one that the dispatcher's model allows. -/
theorem serve_static_response_ok (config : SiteConfig) (path : Bytes) (io : ResponseIo) :
    serveStaticTls io.view path config.table (serveStaticResponse config path io).ok =
      (serveStaticResponse config path io).ok := by
  unfold serveStaticTls serveStaticResponse
  cases lookupStaticFile io.view path config.table <;> rfl

/-- Something that `route_request_tls` puts on the wire: a response of its own, or the bytes
that come from a backend. -/
inductive Output where
  | own (response : OwnResponse)
  | relayed (bytes : Bytes)
  deriving DecidableEq, Repr

/-- The bytes that go out. -/
def Output.bytes : Output → Bytes
  | .own response => response.headSent ++ response.bodySent
  | .relayed bytes => bytes

/-- The response, if one was written, as something on the wire. -/
def Written.outputs (written : Written) : List Output := written.response.toList.map .own

/-- What `route_request_tls` does once `serve_static_tls` has not returned 0. -/
def routeFallback (config : SiteConfig) (path raw : Bytes) (io : ResponseIo) : List Output :=
  match proxyRequestTls config.table path raw io.net with
  | .forwarded _ => [.relayed io.relay]
  | .declined => (sendNotFound config path io.last).outputs

/-- `route_request_tls` for HTTP/1.1, with what it puts on the wire. -/
def routeResponses (config : SiteConfig) (state : ShutdownState) (path raw : Bytes)
    (io : ResponseIo) : List Output :=
  if path = ascii "/health" then (sendHealthResponse state io.first).outputs
  else if path = ascii "/" then
    (sendSimpleResponse config path (ascii "HTTP/1.1 200 OK")
      (ascii "Content-Type: text/html\r\n") rootBody io.first).outputs
  else
    (serveStaticResponse config path io).outputs ++
      if (serveStaticResponse config path io).ok then [] else routeFallback config path raw io

/-- What is on the wire goes with the answer of the dispatcher's model. -/
theorem route_responses_eq (config : SiteConfig) (state : ShutdownState) (request : RequestText)
    (raw : Bytes) (io : ResponseIo) (relayed : Nat) :
    routeResponses config state request.path raw io =
      match routeRequestTls config.table request raw
        ⟨io.view, (serveStaticResponse config request.path io).ok, io.net, relayed⟩ with
      | .health => (sendHealthResponse state io.first).outputs
      | .rootPage =>
          (sendSimpleResponse config request.path (ascii "HTTP/1.1 200 OK")
            (ascii "Content-Type: text/html\r\n") rootBody io.first).outputs
      | .staticFile => (serveStaticResponse config request.path io).outputs
      | .proxied _ => (serveStaticResponse config request.path io).outputs ++ [.relayed io.relay]
      | .notFound =>
          (serveStaticResponse config request.path io).outputs ++
            (sendNotFound config request.path io.last).outputs := by
  simp only [routeResponses, routeRequestTls, serve_static_response_ok]
  split
  · rfl
  split
  · rfl
  split
  · exact List.append_nil _
  · unfold routeFallback
    cases proxyRequestTls config.table request.path raw io.net <;> rfl

/-! ## One head -/

/-- When a head counts as written: with its last byte, or with its first. -/
inductive Reading where
  | whole
  | begun
  deriving DecidableEq, Repr

/-- The output is a response of the server's own whose head counts as written. -/
def Output.HeadWritten (reading : Reading) : Output → Prop
  | .own response =>
      match reading with
      | .whole => response.headSent = response.head.text
      | .begun => response.headSent ≠ []
  | .relayed _ => False

instance (reading : Reading) : DecidablePred (Output.HeadWritten reading) := fun output =>
  match output, reading with
  | .own response, .whole => inferInstanceAs (Decidable (response.headSent = response.head.text))
  | .own response, .begun => inferInstanceAs (Decidable (response.headSent ≠ []))
  | .relayed _, _ => inferInstanceAs (Decidable False)

/-- After a response whose head counts as written nothing else follows: neither a head nor bytes
of a backend. -/
def OneHead (reading : Reading) (outputs : List Output) : Prop :=
  outputs.Pairwise fun earlier later => earlier.HeadWritten reading → later.bytes = []

instance (reading : Reading) : DecidablePred (OneHead reading) := fun outputs =>
  inferInstanceAs (Decidable (outputs.Pairwise _))

/-- The write does not take all the data. -/
def Cut (data : Bytes) (limit : Option Nat) : Prop := ∃ n, limit = some n ∧ n < data.length

/-- The copying of the file fails: at some turn the read fails, or the write is cut. -/
def TransferFails (transfers : List Transfer) : Prop :=
  ∃ transfer ∈ transfers,
    transfer = .failed ∨ ∃ bytes limit, transfer = .chunk bytes limit ∧ Cut bytes limit

/-- The head that `serve_static_tls` comes to write, and whether a file is to follow it. -/
def staticAttempt (config : SiteConfig) (view : View) (path : Bytes) : Option (Head × Bool) :=
  match lookupStaticFile view path config.table with
  | .noRoute => none
  | .error => none
  | .notFound => (simpleHead config path (ascii "HTTP/1.1 404 Not Found") [] []).map (·, false)
  | .forbidden => (simpleHead config path (ascii "HTTP/1.1 403 Forbidden") [] []).map (·, false)
  | .ready _ filesize contentType =>
      (staticHead config path contentType filesize).map (·, true)

/-- `serve_static_tls` gives up although its head counts as written: the write of the head
breaks off, or the copying of the file fails. -/
def StaticBreaksOff (reading : Reading) (config : SiteConfig) (path : Bytes)
    (io : ResponseIo) : Prop :=
  ∃ head file, staticAttempt config io.view path = some (head, file) ∧
    match reading with
    | .whole => ¬ Cut head.text io.first.head ∧ file = true ∧ TransferFails io.transfers
    | .begun =>
        io.first.head ≠ some 0 ∧
          (Cut head.text io.first.head ∨ file = true ∧ TransferFails io.transfers)

/-- The part of `route_request_tls` after the static files writes at least one byte: a backend
does, or else the head of the final 404 fits its buffer and the client takes some of it. -/
def FallbackWrites (config : SiteConfig) (path raw : Bytes) (io : ResponseIo) : Prop :=
  match proxyRequestTls config.table path raw io.net with
  | .forwarded _ => io.relay ≠ []
  | .declined =>
      (simpleHead config path (ascii "HTTP/1.1 404 Not Found") [] []).isSome ∧
        io.last.head ≠ some 0

/-- Nothing is to be written. -/
@[simp]
theorem ssl_write_all_nil (limit : Option Nat) : sslWriteAll [] limit = ([], true) := by
  cases limit <;> simp [sslWriteAll]

/-- `ssl_write_all` fails exactly if the write is cut. -/
theorem ssl_write_all_fails {data : Bytes} {limit : Option Nat} :
    (sslWriteAll data limit).2 = false ↔ Cut data limit := by
  cases limit with
  | none => simp [sslWriteAll, Cut]
  | some n =>
      rw [sslWriteAll]
      by_cases h : n < data.length <;> simp [Cut, h]

/-- A write that is not cut takes all the data. -/
theorem ssl_write_all_uncut {data : Bytes} {limit : Option Nat} (h : ¬ Cut data limit) :
    sslWriteAll data limit = (data, true) := by
  cases limit with
  | none => rfl
  | some n => exact if_neg fun hlt => h ⟨n, rfl, hlt⟩

/-- All the data reaches the client exactly if the write is not cut. -/
theorem ssl_write_all_sent {data : Bytes} {limit : Option Nat} :
    (sslWriteAll data limit).1 = data ↔ ¬ Cut data limit := by
  cases limit with
  | none => simp [sslWriteAll, Cut]
  | some n =>
      rw [sslWriteAll]
      by_cases h : n < data.length <;> simp [Cut, h]

/-- Some data reaches the client exactly if there is some and the client takes a byte. -/
theorem ssl_write_all_begun {data : Bytes} {limit : Option Nat} :
    (sslWriteAll data limit).1 ≠ [] ↔ data ≠ [] ∧ limit ≠ some 0 := by
  cases limit with
  | none => simp [sslWriteAll]
  | some n =>
      rw [sslWriteAll]
      cases data with
      | nil => simp
      | cons byte data =>
          by_cases h : n < (byte :: data).length
          · rw [if_pos h]
            simp
          · rw [if_neg h]
            have hn : n ≠ 0 := by
              rintro rfl
              exact h (by simp)
            simp [hn]

/-- The loop that copies a file fails exactly if one of its turns does. -/
theorem transfer_file_fails {transfers : List Transfer} :
    (transferFile transfers).2 = false ↔ TransferFails transfers := by
  induction transfers with
  | nil => simp [transferFile, TransferFails]
  | cons transfer transfers ih =>
      rw [TransferFails] at ih
      cases transfer with
      | failed => simp [transferFile, TransferFails]
      | chunk bytes limit =>
          have hfails := @ssl_write_all_fails bytes limit
          rw [transferFile, TransferFails, List.exists_mem_cons_iff]
          split <;> simp_all

variable {head : Head} {config : SiteConfig} {path : Bytes}

/-- What a head that was built consists of, and that it fits. -/
theorem build_head_eq_some {base : Bytes} {security : SecurityHeadersConfig} {cors : CORSConfig}
    (h : buildHead base security cors = some head) :
    head.security = addSecurityHeadersToBuffer base.length security ∧
      head.cors = addCorsHeadersToBuffer (base ++ head.security.flatMap fieldLine).length cors ∧
      head.text =
        base ++ head.security.flatMap fieldLine ++ head.cors.flatMap fieldLine ++ crlf ∧
      head.text.length < headerBufferSize := by
  unfold buildHead at h
  split at h
  · cases h
  simp only at h
  split at h
  · cases h
  · rename_i hfits
    cases h
    refine ⟨rfl, rfl, rfl, ?_⟩
    rw [List.length_append]
    exact Nat.not_le.mp hfits

/-- A head is not empty. -/
theorem build_head_text {base : Bytes} {security : SecurityHeadersConfig} {cors : CORSConfig}
    (h : buildHead base security cors = some head) : head.text ≠ [] := by
  obtain ⟨-, -, htext, -⟩ := build_head_eq_some h
  rw [htext]
  exact List.append_ne_nil_of_right_ne_nil _ (by decide)

/-- `serve_static_tls` writes the head that it comes to, and then the file if there is one. -/
theorem serve_static_response_eq (config : SiteConfig) (path : Bytes) (io : ResponseIo) :
    serveStaticResponse config path io =
      match staticAttempt config io.view path with
      | none => ⟨none, false⟩
      | some (head, file) =>
          writeResponse (some head) io.first.head
            (if file then transferFile io.transfers else ([], true)) := by
  unfold serveStaticResponse staticAttempt sendNotFound sendSimpleResponse
  rw [ssl_write_all_nil]
  split
  · rfl
  · rfl
  · cases simpleHead config path (ascii "HTTP/1.1 404 Not Found") [] [] <;> rfl
  · cases simpleHead config path (ascii "HTTP/1.1 403 Forbidden") [] [] <;> rfl
  · rename_i filesize contentType _
    cases staticHead config path contentType filesize <;> rfl

/-- The head that `serve_static_tls` writes is not empty. -/
theorem static_attempt_text {view : View} {file : Bool}
    (h : staticAttempt config view path = some (head, file)) : head.text ≠ [] := by
  unfold staticAttempt at h
  split at h
  · cases h
  · cases h
  all_goals
    obtain ⟨built, hbuilt, heq⟩ := Option.map_eq_some_iff.mp h
    cases heq
    simp only [simpleHead, staticHead, requestHead] at hbuilt
    exact build_head_text hbuilt

/-- A response whose head counts as written and that did not go through: its head was cut, or its
body failed. -/
theorem write_response_breaks {reading : Reading} {head : Head} {limit : Option Nat}
    {body : Bytes × Bool} (htext : head.text ≠ []) :
    ((writeResponse (some head) limit body).ok = false ∧
      ∃ response, (writeResponse (some head) limit body).response = some response ∧
        (Output.own response).HeadWritten reading) ↔
    match reading with
    | .whole => ¬ Cut head.text limit ∧ body.2 = false
    | .begun => limit ≠ some 0 ∧ (Cut head.text limit ∨ body.2 = false) := by
  have hfails := @ssl_write_all_fails head.text limit
  have hsent := @ssl_write_all_sent head.text limit
  have hbegun := @ssl_write_all_begun head.text limit
  unfold writeResponse
  rcases hwrite : sslWriteAll head.text limit with ⟨sent, ok⟩
  rw [hwrite] at hfails hsent hbegun
  cases ok <;> cases reading <;> simp_all [Output.HeadWritten]

/-- With at most one output after a response, there is one head unless the response's counts as
written and the other output has a byte. -/
theorem one_head_append {reading : Reading} {written : Written} {rest : List Output}
    (hrest : rest.length ≤ 1) :
    OneHead reading (written.outputs ++ rest) ↔
      ¬ ((∃ response, written.response = some response ∧
          (Output.own response).HeadWritten reading) ∧
        ∃ output ∈ rest, output.bytes ≠ []) := by
  have hpairwise : rest.Pairwise
      fun earlier later => earlier.HeadWritten reading → later.bytes = [] := by
    match rest, hrest with
    | [], _ => exact List.Pairwise.nil
    | [output], _ => exact List.pairwise_singleton _ _
  rcases written with ⟨_ | response, ok⟩
  · simpa [OneHead, Written.outputs] using hpairwise
  · simp only [OneHead, Written.outputs, Option.toList_some, List.map_cons, List.map_nil,
      List.cons_append, List.nil_append, List.pairwise_cons, hpairwise, and_true]
    simp only [Option.some.injEq, exists_eq_left', not_and, not_exists, ne_eq, not_not]
    exact ⟨fun h hhead output hmem => h output hmem hhead,
      fun h output hmem hhead => h hhead output hmem⟩

/-- A function that answers writes at most one response. -/
theorem length_outputs_le (written : Written) : written.outputs.length ≤ 1 := by
  rcases written with ⟨_ | response, ok⟩ <;> simp [Written.outputs]

/-- What follows `serve_static_tls` puts at most one thing on the wire. -/
theorem length_route_fallback_le (config : SiteConfig) (path raw : Bytes) (io : ResponseIo) :
    (routeFallback config path raw io).length ≤ 1 := by
  unfold routeFallback
  split
  · exact le_rfl
  · exact length_outputs_le _

/-- A response alone is one head. -/
theorem one_head_outputs (reading : Reading) (written : Written) :
    OneHead reading written.outputs := by
  have h : OneHead reading (written.outputs ++ []) := (one_head_append (by simp)).mpr (by simp)
  rwa [List.append_nil] at h

/-- The part after the static files writes a byte exactly under the stated condition. -/
theorem route_fallback_writes {raw : Bytes} {io : ResponseIo} :
    (∃ output ∈ routeFallback config path raw io, output.bytes ≠ []) ↔
      FallbackWrites config path raw io := by
  unfold routeFallback FallbackWrites
  split
  · simp [Output.bytes]
  · unfold sendNotFound sendSimpleResponse
    rw [ssl_write_all_nil]
    cases hhead : simpleHead config path (ascii "HTTP/1.1 404 Not Found") [] [] with
    | none => simp [writeResponse, Written.outputs]
    | some head =>
        have htext : head.text ≠ [] := by
          simp only [simpleHead, requestHead] at hhead
          exact build_head_text hhead
        have hbegun := @ssl_write_all_begun head.text io.last.head
        unfold writeResponse
        rcases hwrite : sslWriteAll head.text io.last.head with ⟨sent, ok⟩
        rw [hwrite] at hbegun
        cases ok <;> simpa [hwrite, Written.outputs, Output.bytes, htext] using hbegun

/-- `serve_static_tls` fails with its head written exactly under the stated condition. -/
theorem serve_static_response_breaks {reading : Reading} {io : ResponseIo} :
    ((serveStaticResponse config path io).ok = false ∧
      ∃ response, (serveStaticResponse config path io).response = some response ∧
        (Output.own response).HeadWritten reading) ↔
    StaticBreaksOff reading config path io := by
  rw [serve_static_response_eq, StaticBreaksOff]
  cases hattempt : staticAttempt config io.view path with
  | none => simp
  | some attempt =>
      obtain ⟨head, file⟩ := attempt
      have hbreaks := @write_response_breaks reading head io.first.head
        (if file then transferFile io.transfers else ([], true)) (static_attempt_text hattempt)
      rw [hbreaks]
      have hbody : (if file then transferFile io.transfers else ([], true)).2 = false ↔
          file = true ∧ TransferFails io.transfers := by
        cases file <;> simp [transfer_file_fails]
      constructor
      · intro h
        refine ⟨head, file, rfl, ?_⟩
        cases reading <;> simpa only [hbody] using h
      · rintro ⟨_, _, heq, h⟩
        cases heq
        cases reading <;> simpa only [hbody] using h

/-- `route_request_tls` writes one head at most and nothing after its response exactly if it does
not come to this: `serve_static_tls` breaks off after its head, and the code tried next
writes. -/
theorem one_head_iff (reading : Reading) (config : SiteConfig) (state : ShutdownState)
    (path raw : Bytes) (io : ResponseIo) :
    OneHead reading (routeResponses config state path raw io) ↔
      path = ascii "/health" ∨ path = ascii "/" ∨
        ¬ (StaticBreaksOff reading config path io ∧ FallbackWrites config path raw io) := by
  unfold routeResponses
  by_cases hhealth : path = ascii "/health"
  · rw [if_pos hhealth]
    exact iff_of_true (one_head_outputs _ _) (Or.inl hhealth)
  rw [if_neg hhealth]
  by_cases hroot : path = ascii "/"
  · rw [if_pos hroot]
    exact iff_of_true (one_head_outputs _ _) (Or.inr (Or.inl hroot))
  rw [if_neg hroot]
  simp only [hhealth, hroot, false_or]
  rw [← serve_static_response_breaks, ← route_fallback_writes]
  by_cases hok : (serveStaticResponse config path io).ok
  · rw [if_pos hok, List.append_nil]
    exact iff_of_true (one_head_outputs _ _) (by simp [hok])
  · rw [if_neg hok, one_head_append (length_route_fallback_le config path raw io)]
    simp [hok]

/-- A site with the files of `/srv/www` at `/files`. -/
def filesSite : Yaml :=
  .record [("routes", .sequence [.record
    [("path", .text "/files"), ("technology", .text "static"),
      ("document_root", .text "/srv/www")]])]

/-- What `filesSite` loads to. -/
def filesConfig : SiteConfig where
  routes :=
    [{ path := ascii "/files", technology := ascii "static", documentRoot := ascii "/srv/www"
       documentRootReal := ascii "/srv/www", documentRootResolved := true, backend := []
       securityHeaders := .none, inheritGlobalHeaders := true
       cors := { CORSConfig.none with maxAgeSeconds := 86400 } }]
  securityHeaders := .none

/-- A client that takes everything, and a file that is a directory: its first read fails. -/
def directoryIo : ResponseIo where
  view := exampleView
  first := ⟨none, none⟩
  transfers := [.failed]
  net := ⟨false, false, []⟩
  relay := []
  last := ⟨none, none⟩

/-- A request for the directory `/srv/www` is answered with the head of a 200, and then with that
of a 404. -/
theorem two_heads_for_directory :
    loadConfig exampleView filesSite = some filesConfig ∧
      (routeResponses filesConfig .running (ascii "/files") [] directoryIo).map Output.bytes =
        [ascii "HTTP/1.1 200 OK\r\nContent-Type: application/octet-stream\r\n" ++
            ascii "Content-Length: 5\r\n\r\n",
          ascii "HTTP/1.1 404 Not Found\r\nContent-Length: 0\r\n\r\n"] ∧
      ¬ OneHead .whole (routeResponses filesConfig .running (ascii "/files") [] directoryIo) ∧
      ¬ OneHead .begun (routeResponses filesConfig .running (ascii "/files") [] directoryIo) := by
  decide +kernel

end Emme.Router
