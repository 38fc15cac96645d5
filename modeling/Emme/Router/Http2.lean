import Emme.Router.Responses

/-!
# Routing an HTTP/2 request

The HTTP/2 half of `route_request_tls` has dispatch code of its own: `serve_static_h2` tells a
request without a static route (`1`) from one that failed (`-1`), where `serve_static_tls` answers
`-1` to both. `select_eq_iff` says for which requests both choose the same handler.
-/

namespace Emme.Router

open CString FileTree Emme.Config

/-! ## The response record -/

/-- The capacity of `headers` in `Http2Response`. -/
def maxHeaders : Nat := 16

/-- The size of `body` in `Http2Response`. -/
def bodySize : Nat := 32768

/-- What the value of a header points at: bytes that are there for as long as the response is, or
a local array of a function that has returned, with what had been written to it. -/
inductive HeaderValue where
  | live (text : Bytes)
  | dead (text : Bytes)
  deriving DecidableEq, Repr

/-- The text that was there when the header was added. -/
def HeaderValue.text : HeaderValue → Bytes
  | .live text => text
  | .dead text => text

/-- An `nghttp2_nv`: it keeps pointers to the name and to the value, and their lengths. -/
structure Header where
  name : Bytes
  value : HeaderValue
  deriving DecidableEq, Repr

/-- The field that the header was added for. -/
def Header.written (header : Header) : Field := (header.name, header.value.text)

/-- The value can still be read. -/
def Header.Live (header : Header) : Prop := ∃ text, header.value = .live text

/-- The header of a field whose text outlives the response. -/
def liveHeader (field : Field) : Header := ⟨field.1, .live field.2⟩

/-- `Http2Response`, with the first `num_headers` headers and the first `body_len` bytes of the
body. -/
structure Http2Response where
  statusCode : Int
  statusText : Bytes
  contentType : Bytes
  body : Bytes
  headers : List Header
  headers_le : headers.length ≤ maxHeaders
  deriving DecidableEq

/-- The record as `calloc` makes it. -/
def Http2Response.zero : Http2Response := ⟨0, [], [], [], [], Nat.zero_le _⟩

/-- `h2_response_init`. -/
def h2ResponseInit : Http2Response :=
  ⟨200, ascii "OK", ascii "text/html", [], [], Nat.zero_le _⟩

/-- `h2_response_set_status`. -/
def h2ResponseSetStatus (resp : Http2Response) (statusCode : Int) (statusText : Bytes) :
    Http2Response :=
  { resp with statusCode, statusText := statusText.take 31 }

/-- `h2_response_set_content_type`. -/
def h2ResponseSetContentType (resp : Http2Response) (contentType : Bytes) : Http2Response :=
  { resp with contentType := contentType.take 63 }

/-- `h2_response_set_body`. -/
def h2ResponseSetBody (resp : Http2Response) (body : Bytes) : Http2Response :=
  { resp with body := body.take (bodySize - 1) }

/-- `h2_response_add_header`. -/
def h2ResponseAddHeader (resp : Http2Response) (header : Header) : Http2Response :=
  if h : resp.headers.length < maxHeaders then
    { resp with
      headers := resp.headers ++ [header]
      headers_le := by
        rw [List.length_append]
        exact h }
  else resp

/-- The headers that `h2_response_add_security_headers` adds for a CORS configuration. Their texts
are those of the configuration, but for the last: it is printed to `max_age_str`, an array of the
function itself. -/
def corsHeaders (cors : CORSConfig) : List Header :=
  (if cors.allowOrigin.1 ≠ [] then
    [⟨ascii "Access-Control-Allow-Origin", .live cors.allowOrigin.1⟩] else []) ++
  (if cors.allowMethods.1 ≠ [] then
    [⟨ascii "Access-Control-Allow-Methods", .live cors.allowMethods.1⟩] else []) ++
  (if cors.allowHeaders.1 ≠ [] then
    [⟨ascii "Access-Control-Allow-Headers", .live cors.allowHeaders.1⟩] else []) ++
  (if cors.allowCredentials then
    [⟨ascii "Access-Control-Allow-Credentials", .live (ascii "true")⟩] else []) ++
  (if 0 < cors.maxAgeSeconds then
    [⟨ascii "Access-Control-Max-Age", .dead (decimalText cors.maxAgeSeconds.toInt.toNat)⟩] else [])

/-- `h2_response_add_security_headers`; without a CORS configuration `cors` is `none`. -/
def h2ResponseAddSecurityHeaders (resp : Http2Response) (config : SecurityHeadersConfig)
    (cors : Option CORSConfig) : Http2Response :=
  if config.enabled then
    let resp :=
      (config.headers.map fun header => liveHeader (securityField header)).foldl
        h2ResponseAddHeader resp
    match cors with
    | some cors =>
        if cors.enabled then (corsHeaders cors).foldl h2ResponseAddHeader resp else resp
    | none => resp
  else resp

/-- `populate_http2_response`, which leaves the record as it is if the body does not fit. -/
def populateHttp2Response (resp : Http2Response) (body : Bytes) (statusCode : Int)
    (statusText contentType : Bytes) : Http2Response × Bool :=
  if bodySize ≤ body.length then (resp, false)
  else
    ({ statusCode, statusText := statusText.take 31, contentType := contentType.take 63, body
       headers := [], headers_le := Nat.zero_le _ }, true)

/-! ## The handlers -/

/-- What the reads of a file come to: the bytes that are returned, and whether the read after
them fails. -/
structure FileRead where
  bytes : Bytes
  fails : Bool
  deriving DecidableEq, Repr

/-- A file system that can be read. -/
structure Disk where
  view : View
  read : Position → FileRead

/-- `send_health_response` for HTTP/2. -/
def healthH2 (config : SiteConfig) (state : ShutdownState) : Http2Response :=
  let resp :=
    match state with
    | .draining =>
        h2ResponseSetBody
          (h2ResponseSetContentType
            (h2ResponseSetStatus h2ResponseInit 503 (ascii "Service Unavailable"))
            (ascii "application/json"))
          (healthResponse .draining).2
    | state =>
        h2ResponseSetBody
          (h2ResponseSetContentType (h2ResponseSetStatus h2ResponseInit 200 (ascii "OK"))
            (ascii "application/json"))
          (healthResponse state).2
  h2ResponseAddSecurityHeaders resp config.securityHeaders none

/-- The result of `serve_static_h2`: `0`, `-1` or `1`. -/
inductive StaticH2 where
  | answered
  | failed
  | noRoute
  deriving DecidableEq, Repr

/-- `serve_static_h2` for a file that was opened. -/
def sendFileH2 (config : SiteConfig) (path : Bytes) (read : FileRead) (filesize : Nat)
    (contentType : Bytes) (resp : Http2Response) : Http2Response × StaticH2 :=
  if bodySize < filesize then
    ((populateHttp2Response resp [] 413 (ascii "Payload Too Large") (ascii "text/plain")).1,
      .answered)
  else
    let resp :=
      h2ResponseSetContentType (h2ResponseSetStatus h2ResponseInit 200 (ascii "OK")) contentType
    -- no read takes place once `filesize` bytes are there
    if read.bytes.length < filesize ∧ read.fails then (resp, .failed)
    else
      (h2ResponseAddSecurityHeaders { resp with body := read.bytes.take filesize }
        (getSecurityHeadersForRequest config path) (some (getCorsConfigForRequest config path)),
        .answered)

/-- `serve_static_h2`. -/
def serveStaticH2 (config : SiteConfig) (disk : Disk) (path : Bytes) (resp : Http2Response) :
    Http2Response × StaticH2 :=
  match lookupStaticFile disk.view path config.table with
  | .noRoute => (resp, .noRoute)
  | .notFound =>
      ((populateHttp2Response resp [] 404 (ascii "Not Found") (ascii "text/plain")).1, .answered)
  | .forbidden =>
      ((populateHttp2Response resp [] 403 (ascii "Forbidden") (ascii "text/plain")).1, .answered)
  | .error => (resp, .failed)
  | .ready file filesize contentType =>
      sendFileH2 config path (disk.read file) filesize contentType resp

/-- What a backend, its connection pool and its circuit breaker make of a request. -/
inductive BackendReply where
  | rejected
  | failed
  | reply (status : Int) (body : Bytes)
  deriving DecidableEq, Repr

/-- `set_h2_response`, with the header settings of the route. -/
def setH2Response (route : SiteRoute) (status : Int) (body : Bytes) : Http2Response :=
  h2ResponseAddSecurityHeaders
    (h2ResponseSetBody
      (h2ResponseSetContentType (h2ResponseSetStatus h2ResponseInit status (ascii "OK"))
        (ascii "application/json")) body)
    route.securityHeaders (some route.cors)

/-- `proxy_to_backend_pooled` and `proxy_to_backend_direct`, and whether they return 0; the
second never rejects a request. -/
def proxyToBackend (route : SiteRoute) (reply : BackendReply) (resp : Http2Response) :
    Http2Response × Bool :=
  match reply with
  | .rejected =>
      (setH2Response route 503
        ((ascii "\x7b\"error\":\"Service temporarily unavailable\"\x7d").take 38), false)
  | .failed => (resp, false)
  | .reply status body => (setH2Response route status body, true)

/-- `route_request_tls` for HTTP/2, on a record that `calloc` made: what is in it then, and
whether 0 is returned. -/
def routeRequestH2 (config : SiteConfig) (state : ShutdownState) (disk : Disk)
    (backend : SiteRoute → BackendReply) (path : Bytes) : Http2Response × Bool :=
  if path = ascii "/health" then (healthH2 config state, true)
  else if path = ascii "/" then
    populateHttp2Response .zero rootBody 200 (ascii "OK") (ascii "text/html")
  else
    match serveStaticH2 config disk path .zero with
    | (resp, .answered) => (resp, true)
    | (resp, .failed) => (resp, false)
    | (resp, .noRoute) =>
        match config.routes.find? fun route => servesProxy path route.toRoute with
        | some route =>
            match proxyToBackend route (backend route) resp with
            | (resp, true) => (resp, true)
            | (resp, false) =>
                populateHttp2Response resp [] 501 (ascii "Not Implemented") (ascii "text/plain")
        | none => populateHttp2Response resp [] 404 (ascii "Not Found") (ascii "text/plain")

/-! ## Which handler, which route -/

/-- What a request is answered from: the health endpoint, the root page, a static route, a
reverse proxy, the answer that no route matches, or none of these. -/
inductive Selection where
  | health
  | rootPage
  | static (route : Nat)
  | proxy (route : Nat)
  | noRoute
  | failed
  deriving DecidableEq, Repr

/-- The turns of the loop that copies a file over HTTP/1.1. -/
def FileRead.transfers (read : FileRead) : List Transfer :=
  .chunk read.bytes none :: if read.fails then [.failed] else []

/-- The surroundings of an HTTP/1.1 request whose client takes everything. -/
def Disk.responseIo (disk : Disk) (config : SiteConfig) (path : Bytes) (net : BackendNet)
    (relay : Bytes) : ResponseIo where
  view := disk.view
  first := ⟨none, none⟩
  transfers :=
    match lookupStaticFile disk.view path config.table with
    | .ready file _ _ => (disk.read file).transfers
    | _ => []
  net := net
  relay := relay
  last := ⟨none, none⟩

/-- `serve_static_tls(..) == 0` for such a client. -/
def servesFile (config : SiteConfig) (disk : Disk) (path : Bytes) : Bool :=
  (serveStaticResponse config path (disk.responseIo config path ⟨false, false, []⟩ [])).ok

/-- The first static route for the path. -/
def staticRoute (config : SiteConfig) (path : Bytes) : Nat :=
  config.routes.findIdx fun route => servesStatic path route.toRoute

/-- The first reverse proxy for the path, if there is one. -/
def selectProxy (config : SiteConfig) (path : Bytes) : Selection :=
  match config.routes.findIdx? fun route => servesProxy path route.toRoute with
  | some route => .proxy route
  | none => .noRoute

/-- What `route_request_tls` chooses over HTTP/1.1. -/
def selectHttp1 (config : SiteConfig) (disk : Disk) (path : Bytes) : Selection :=
  if path = ascii "/health" then .health
  else if path = ascii "/" then .rootPage
  else if servesFile config disk path then .static (staticRoute config path)
  else selectProxy config path

/-- What `route_request_tls` chooses over HTTP/2. -/
def selectHttp2 (config : SiteConfig) (disk : Disk) (path : Bytes) : Selection :=
  if path = ascii "/health" then .health
  else if path = ascii "/" then .rootPage
  else
    match (serveStaticH2 config disk path .zero).2 with
    | .answered => .static (staticRoute config path)
    | .failed => .failed
    | .noRoute => selectProxy config path

/-- Without a reverse proxy route for the path the proxy declines. -/
theorem find_proxy_none {config : SiteConfig} {path : Bytes}
    (h : config.routes.findIdx? (fun route => servesProxy path route.toRoute) = none)
    (raw : Bytes) (net : BackendNet) :
    proxyRequestTls config.table path raw net = .declined := by
  have hfind : config.table.find? (servesProxy path) = none := by
    rw [SiteConfig.table, List.find?_map]
    simpa [List.findIdx?_eq_none_iff] using h
  rw [proxyRequestTls, hfind]

/-- The choice over HTTP/1.1 is what the dispatcher with its outputs follows. -/
theorem route_responses_select (config : SiteConfig) (state : ShutdownState) (disk : Disk)
    (path raw : Bytes) (net : BackendNet) (relay : Bytes) :
    routeResponses config state path raw (disk.responseIo config path net relay) =
      match selectHttp1 config disk path with
      | .health => (sendHealthResponse state ⟨none, none⟩).outputs
      | .rootPage =>
          (sendSimpleResponse config path (ascii "HTTP/1.1 200 OK")
            (ascii "Content-Type: text/html\r\n") rootBody ⟨none, none⟩).outputs
      | .static _ =>
          (serveStaticResponse config path (disk.responseIo config path net relay)).outputs
      | .proxy _ =>
          (serveStaticResponse config path (disk.responseIo config path net relay)).outputs ++
            routeFallback config path raw (disk.responseIo config path net relay)
      | .noRoute =>
          (serveStaticResponse config path (disk.responseIo config path net relay)).outputs ++
            (sendNotFound config path ⟨none, none⟩).outputs
      | .failed => [] := by
  have hserves : servesFile config disk path =
      (serveStaticResponse config path (disk.responseIo config path net relay)).ok := rfl
  unfold routeResponses selectHttp1
  split
  · rfl
  split
  · rfl
  rw [← hserves]
  split
  · exact List.append_nil _
  · unfold selectProxy
    cases hproxy : config.routes.findIdx? fun route => servesProxy path route.toRoute with
    | some route => rfl
    | none =>
        simp only [routeFallback, find_proxy_none hproxy]
        rfl

/-- The result of `serve_static_h2` by the outcome of the lookup. -/
theorem serve_static_h2_result (config : SiteConfig) (disk : Disk) (path : Bytes)
    (resp : Http2Response) :
    (serveStaticH2 config disk path resp).2 =
      match lookupStaticFile disk.view path config.table with
      | .noRoute => .noRoute
      | .error => .failed
      | .notFound => .answered
      | .forbidden => .answered
      | .ready file filesize _ =>
          if filesize ≤ bodySize ∧ (disk.read file).bytes.length < filesize ∧
              (disk.read file).fails then .failed
          else .answered := by
  unfold serveStaticH2
  cases lookupStaticFile disk.view path config.table with
  | noRoute => rfl
  | error => rfl
  | notFound => rfl
  | forbidden => rfl
  | ready file filesize contentType =>
      simp only [sendFileH2]
      by_cases hlarge : bodySize < filesize
      · rw [if_pos hlarge, if_neg fun h => absurd h.1 (Nat.not_le.mpr hlarge)]
      · rw [if_neg hlarge]
        simp only [Nat.not_lt.mp hlarge, true_and]
        split <;> rfl

/-- Without a static route `serve_static_h2` leaves the record alone. -/
theorem serve_static_h2_no_route {config : SiteConfig} {disk : Disk} {path : Bytes}
    {resp : Http2Response} (h : (serveStaticH2 config disk path resp).2 = .noRoute) :
    (serveStaticH2 config disk path resp).1 = resp := by
  rw [serve_static_h2_result] at h
  unfold serveStaticH2
  cases hlookup : lookupStaticFile disk.view path config.table with
  | noRoute => rfl
  | error => rfl
  | notFound => simp [hlookup] at h
  | forbidden => simp [hlookup] at h
  | ready file filesize contentType =>
      simp only [hlookup] at h
      split at h <;> cases h

/-- The choice over HTTP/2 is what the dispatcher follows. -/
theorem route_request_h2_select (config : SiteConfig) (state : ShutdownState) (disk : Disk)
    (backend : SiteRoute → BackendReply) (path : Bytes) :
    routeRequestH2 config state disk backend path =
      match selectHttp2 config disk path with
      | .health => (healthH2 config state, true)
      | .rootPage => populateHttp2Response .zero rootBody 200 (ascii "OK") (ascii "text/html")
      | .static _ => ((serveStaticH2 config disk path .zero).1, true)
      | .proxy i =>
          match config.routes[i]? with
          | some route =>
              match proxyToBackend route (backend route) .zero with
              | (resp, true) => (resp, true)
              | (resp, false) =>
                  populateHttp2Response resp [] 501 (ascii "Not Implemented") (ascii "text/plain")
          | none => (.zero, false)
      | .noRoute => populateHttp2Response .zero [] 404 (ascii "Not Found") (ascii "text/plain")
      | .failed => ((serveStaticH2 config disk path .zero).1, false) := by
  unfold routeRequestH2 selectHttp2
  split
  · rfl
  split
  · rfl
  have hleaves := @serve_static_h2_no_route config disk path .zero
  rcases hserve : serveStaticH2 config disk path .zero with ⟨resp, result⟩
  rw [hserve] at hleaves
  cases result with
  | answered => rfl
  | failed => rfl
  | noRoute =>
      obtain rfl := hleaves rfl
      simp only [selectProxy]
      rw [List.find?_eq_bind_findIdx?_getElem?]
      cases hproxy : config.routes.findIdx? fun route => servesProxy path route.toRoute with
      | none => rfl
      | some i =>
          obtain ⟨hlt, -⟩ := List.findIdx?_eq_some_iff_getElem.mp hproxy
          simp only [Option.bind_some, List.getElem?_eq_getElem hlt]

/-- `serve_static_tls` by the outcome of the lookup. -/
theorem serves_file_eq (config : SiteConfig) (disk : Disk) (path : Bytes) :
    servesFile config disk path =
      match lookupStaticFile disk.view path config.table with
      | .noRoute => false
      | .error => false
      | .notFound => (simpleHead config path (ascii "HTTP/1.1 404 Not Found") [] []).isSome
      | .forbidden => (simpleHead config path (ascii "HTTP/1.1 403 Forbidden") [] []).isSome
      | .ready file filesize contentType =>
          (staticHead config path contentType filesize).isSome && !(disk.read file).fails := by
  unfold servesFile
  rw [serve_static_response_eq, staticAttempt]
  simp only [Disk.responseIo]
  cases lookupStaticFile disk.view path config.table with
  | noRoute => rfl
  | error => rfl
  | notFound => cases simpleHead config path (ascii "HTTP/1.1 404 Not Found") [] [] <;> rfl
  | forbidden => cases simpleHead config path (ascii "HTTP/1.1 403 Forbidden") [] [] <;> rfl
  | ready file filesize contentType =>
      have htransfer : (transferFile (disk.read file).transfers).2 = !(disk.read file).fails := by
        unfold FileRead.transfers
        cases (disk.read file).fails <;> rfl
      dsimp only
      cases staticHead config path contentType filesize with
      | none => rfl
      | some head => rw [← htransfer]; rfl

/-! ## Agreement -/

/-- No static route is in play, or both protocols can answer from it: HTTP/1.1 needs a head that
fits its buffer and, for a file, reads that do not fail. -/
def Agrees (config : SiteConfig) (disk : Disk) (path : Bytes) : Prop :=
  match lookupStaticFile disk.view path config.table with
  | .noRoute => True
  | .error => False
  | .notFound => (simpleHead config path (ascii "HTTP/1.1 404 Not Found") [] []).isSome
  | .forbidden => (simpleHead config path (ascii "HTTP/1.1 403 Forbidden") [] []).isSome
  | .ready file filesize contentType =>
      (staticHead config path contentType filesize).isSome ∧ (disk.read file).fails = false

/-- The choice over HTTP/1.1 once the health endpoint and the root page are out: it is the static
route exactly if that serves, and never a failure. -/
theorem select_static_or_proxy (config : SiteConfig) (path : Bytes) (served : Bool) :
    ((if served then .static (staticRoute config path) else selectProxy config path) =
        Selection.static (staticRoute config path) ↔ served = true) ∧
      (if served then .static (staticRoute config path) else selectProxy config path) ≠
        Selection.failed := by
  cases served with
  | true => simp
  | false =>
      simp only [Bool.false_eq_true, if_false, selectProxy]
      cases config.routes.findIdx? fun route => servesProxy path route.toRoute <;> simp

/-- The two protocols choose the same handler and the same route exactly for the health endpoint,
for the root page, and where a static route is not in play or can be answered from. -/
theorem select_eq_iff (config : SiteConfig) (disk : Disk) (path : Bytes) :
    selectHttp1 config disk path = selectHttp2 config disk path ↔
      path = ascii "/health" ∨ path = ascii "/" ∨ Agrees config disk path := by
  unfold selectHttp1 selectHttp2
  by_cases hhealth : path = ascii "/health"
  · rw [if_pos hhealth, if_pos hhealth]
    exact iff_of_true rfl (Or.inl hhealth)
  rw [if_neg hhealth, if_neg hhealth]
  by_cases hroot : path = ascii "/"
  · rw [if_pos hroot, if_pos hroot]
    exact iff_of_true rfl (Or.inr (Or.inl hroot))
  obtain ⟨hstatic, hfailed⟩ := select_static_or_proxy config path (servesFile config disk path)
  rw [if_neg hroot, if_neg hroot, serve_static_h2_result]
  simp only [hhealth, hroot, false_or, Agrees]
  have hserves := serves_file_eq config disk path
  cases hlookup : lookupStaticFile disk.view path config.table with
  | noRoute =>
      rw [hlookup] at hserves
      exact iff_of_true (if_neg (by simp [hserves])) trivial
  | error => exact iff_of_false hfailed not_false
  | notFound | forbidden =>
      rw [hlookup] at hserves
      exact hstatic.trans (by rw [hserves])
  | ready file filesize contentType =>
      rw [hlookup] at hserves
      dsimp only at hserves ⊢
      by_cases hread : filesize ≤ bodySize ∧ (disk.read file).bytes.length < filesize ∧
          (disk.read file).fails
      · -- HTTP/2 gives up on a read that also makes HTTP/1.1 go on to the proxies
        rw [if_pos hread]
        exact iff_of_false hfailed fun h => Bool.noConfusion (hread.2.2.symm.trans h.2)
      · rw [if_neg hread]
        exact hstatic.trans (by rw [hserves]; simp)

/-- A site with files at `/files`, from a directory that does not exist, before a backend for
everything. -/
def guardedSite : Yaml :=
  .record [("routes", .sequence
    [.record
      [("path", .text "/files"), ("technology", .text "static"),
        ("document_root", .text "/nowhere")],
    .record
      [("path", .text "/"), ("technology", .text "reverse_proxy"),
        ("backend", .text "127.0.0.1:80")]])]

/-- What `guardedSite` loads to. -/
def guardedConfig : SiteConfig where
  routes :=
    [{ path := ascii "/files", technology := ascii "static", documentRoot := ascii "/nowhere"
       documentRootReal := ascii "/nowhere", documentRootResolved := false, backend := []
       securityHeaders := .none, inheritGlobalHeaders := true
       cors := { CORSConfig.none with maxAgeSeconds := 86400 } },
      { path := ascii "/", technology := ascii "reverse_proxy", documentRoot := []
        documentRootReal := [], documentRootResolved := false, backend := ascii "127.0.0.1:80"
        securityHeaders := .none, inheritGlobalHeaders := true
        cors := { CORSConfig.none with maxAgeSeconds := 86400 } }]
  securityHeaders := .none

/-- The files of `exampleView`, all with the same five bytes. -/
def helloFiles : Disk := ⟨exampleView, fun _ => ⟨ascii "hello", false⟩⟩

/-- A lookup that ends in an error goes to the backend over HTTP/1.1 and fails over HTTP/2. -/
theorem lookup_error_proxied :
    loadConfig exampleView guardedSite = some guardedConfig ∧
      lookupStaticFile helloFiles.view (ascii "/files/a.txt") guardedConfig.table = .error ∧
      selectHttp1 guardedConfig helloFiles (ascii "/files/a.txt") = .proxy 1 ∧
      selectHttp2 guardedConfig helloFiles (ascii "/files/a.txt") = .failed := by
  decide +kernel

end Emme.Router
