import Emme.Router.HeaderSets

/-!
# The headers an HTTP/2 response is submitted with

The router adds security and CORS headers to a response record. The frame callback then writes three
headers into the first places of the same array and sets the count to 3; `submits_added_iff` says
for which requests nothing is lost by that.
-/

namespace Emme.Server

open CString FileTree Emme.Config Emme.Router

/-! ## The callback -/

/-- A number as `%d` prints it. -/
def intText (n : Int) : Bytes :=
  if n < 0 then 45 :: decimalText n.natAbs else decimalText n.natAbs

/-- What `on_frame_recv_callback` makes of the result of `route_request_tls`: a failure without a
status is a 500, and a status that is still missing is 200. -/
def completeResponse (routed : Http2Response × Bool) : Http2Response :=
  let resp :=
    if routed.2 = false ∧ routed.1.statusCode = 0 then
      { routed.1 with
        statusCode := 500
        statusText := ascii "Internal Server Error"
        contentType := []
        body := [] }
    else routed.1
  if resp.statusCode = 0 then { resp with statusCode := 200 } else resp

/-- The three fields that the callback writes; `status_code_str` has room for three digits. All
texts are in the record or constants. -/
def frameFields (resp : Http2Response) : List Field :=
  [(ascii ":status", (intText resp.statusCode).take 3),
    (ascii "content-type", if resp.contentType = [] then ascii "text/plain" else resp.contentType),
    (ascii "content-length", (decimalText resp.body.length).take 31)]

/-- `headers[0]`, `headers[1]` and `headers[2]` are overwritten and `num_headers` is 3: the record
that `nghttp2_submit_response` is called with. -/
def submittedResponse (resp : Http2Response) : Http2Response :=
  { resp with
    headers := (frameFields resp).map liveHeader
    headers_le := (by decide : 3 ≤ 16) }

/-- `on_frame_recv_callback` for the headers of a request: the header list that is submitted. -/
def onFrameRecv (config : SiteConfig) (state : ShutdownState) (disk : Disk)
    (backend : SiteRoute → BackendReply) (path : Bytes) : List Header :=
  (submittedResponse (completeResponse (routeRequestH2 config state disk backend path))).headers

/-! ## What the router added -/

/-- The headers that `h2_response_add_security_headers` adds while `route_request_tls` builds the
response, on each path at most once and to a record without headers; the answer of a rejecting
backend gets its headers and is then replaced by a 501. -/
def addedByRouting (config : SiteConfig) (state : ShutdownState) (disk : Disk)
    (backend : SiteRoute → BackendReply) (path : Bytes) : List Header :=
  if path = ascii "/health" then (healthH2 config state).headers
  else if path = ascii "/" then []
  else
    match serveStaticH2 config disk path .zero with
    | (resp, .answered) => resp.headers
    | (_, .failed) => []
    | (resp, .noRoute) =>
        match config.routes.find? fun route => servesProxy path route.toRoute with
        | some route => (proxyToBackend route (backend route) resp).1.headers
        | none => []

/-- The submitted list has the three headers of the callback and all that the router added. -/
def SubmitsAdded (config : SiteConfig) (state : ShutdownState) (disk : Disk)
    (backend : SiteRoute → BackendReply) (path : Bytes) : Prop :=
  (∀ name ∈ [ascii ":status", ascii "content-type", ascii "content-length"],
      name ∈ (onFrameRecv config state disk backend path).map Header.name) ∧
    ∀ header ∈ addedByRouting config state disk backend path,
      header ∈ onFrameRecv config state disk backend path

/-! ## What the configuration asks for -/

/-- What the configuration asks for on a request: the global set for the health endpoint, the set
found for the path for a static file that is sent, and a proxy's own set unless its backend
fails. -/
def requestedHeaders (config : SiteConfig) (disk : Disk) (backend : SiteRoute → BackendReply)
    (path : Bytes) : List Header :=
  match selectHttp2 config disk path with
  | .health => configuredHeaders config.securityHeaders .none
  | .static _ =>
      match lookupStaticFile disk.view path config.table with
      | .ready _ filesize _ =>
          if filesize ≤ bodySize then
            configuredHeaders (getSecurityHeadersForRequest config path)
              (getCorsConfigForRequest config path)
          else []
      | _ => []
  | .proxy i =>
      match config.routes[i]? with
      | some route =>
          if backend route = .failed then [] else configuredHeaders route.securityHeaders route.cors
      | none => []
  | _ => []

/-- The headers of the health endpoint's answer. -/
theorem health_h2_headers (config : SiteConfig) (state : ShutdownState) :
    (healthH2 config state).headers = configuredHeaders config.securityHeaders .none := by
  have hnone (resp : Http2Response) :
      h2ResponseAddSecurityHeaders resp config.securityHeaders none =
        h2ResponseAddSecurityHeaders resp config.securityHeaders (some .none) := rfl
  unfold healthH2
  rw [hnone]
  refine h2_response_add_security_headers_eq ?_ _ _
  cases state <;> rfl

/-- The headers of an answer from a static route. -/
theorem serve_static_h2_headers {config : SiteConfig} {disk : Disk} {path : Bytes}
    (h : (serveStaticH2 config disk path .zero).2 = .answered) :
    (serveStaticH2 config disk path .zero).1.headers =
      match lookupStaticFile disk.view path config.table with
      | .ready _ filesize _ =>
          if filesize ≤ bodySize then
            configuredHeaders (getSecurityHeadersForRequest config path)
              (getCorsConfigForRequest config path)
          else []
      | _ => [] := by
  unfold serveStaticH2 at h ⊢
  cases hlookup : lookupStaticFile disk.view path config.table with
  | noRoute => rfl
  | error => rfl
  | notFound => rfl
  | forbidden => rfl
  | ready file filesize contentType =>
      simp only [hlookup, sendFileH2] at h ⊢
      by_cases hlarge : bodySize < filesize
      · rw [if_pos hlarge, if_neg (Nat.not_le.mpr hlarge)]
        rfl
      · rw [if_neg hlarge] at h ⊢
        rw [if_pos (Nat.not_lt.mp hlarge)]
        split at h
        · cases h
        · rename_i hread
          rw [if_neg hread]
          exact h2_response_add_security_headers_eq rfl _ _

/-- The headers of a proxied answer. -/
theorem proxy_to_backend_headers (route : SiteRoute) (reply : BackendReply) :
    (proxyToBackend route reply .zero).1.headers =
      if reply = .failed then [] else configuredHeaders route.securityHeaders route.cors := by
  cases reply with
  | rejected => exact h2_response_add_security_headers_eq rfl _ _
  | failed => rfl
  | reply status body => exact h2_response_add_security_headers_eq rfl _ _

/-- The router adds what the configuration asks for: the record always has room. -/
theorem added_by_routing_eq (config : SiteConfig) (state : ShutdownState) (disk : Disk)
    (backend : SiteRoute → BackendReply) (path : Bytes) :
    addedByRouting config state disk backend path = requestedHeaders config disk backend path := by
  unfold addedByRouting requestedHeaders selectHttp2
  split
  · exact health_h2_headers config state
  split
  · rfl
  have hleaves := @serve_static_h2_no_route config disk path .zero
  have hheaders := @serve_static_h2_headers config disk path
  rcases hserve : serveStaticH2 config disk path .zero with ⟨resp, result⟩
  rw [hserve] at hleaves hheaders
  cases result with
  | answered => exact hheaders rfl
  | failed => rfl
  | noRoute =>
      obtain rfl := hleaves rfl
      simp only [selectProxy]
      rw [List.find?_eq_bind_findIdx?_getElem?]
      cases hproxy : config.routes.findIdx? fun route => servesProxy path route.toRoute with
      | none => rfl
      | some i =>
          obtain ⟨hlt, -⟩ := List.findIdx?_eq_some_iff_getElem.mp hproxy
          simp only [Option.bind_some, List.getElem?_eq_getElem hlt]
          exact proxy_to_backend_headers _ _

/-! ## What the callback says -/

/-- What a client is told of an answer: its status, its content type and the length of its body. -/
structure Http2Answer where
  status : Int
  contentType : Bytes
  length : Nat
  deriving DecidableEq, Repr

/-- The headers that say so; a status is cut to three characters. -/
def Http2Answer.headers (answer : Http2Answer) : List Header :=
  [⟨ascii ":status", .live ((intText answer.status).take 3)⟩,
    ⟨ascii "content-type", .live answer.contentType⟩,
    ⟨ascii "content-length", .live (decimalText answer.length)⟩]

/-- An answer without a body. -/
def Http2Answer.empty (status : Int) : Http2Answer := ⟨status, ascii "text/plain", 0⟩

/-- What a request is answered with, by the handler that is chosen for it. -/
def answerTo (config : SiteConfig) (state : ShutdownState) (disk : Disk)
    (backend : SiteRoute → BackendReply) (path : Bytes) : Http2Answer :=
  match selectHttp2 config disk path with
  | .health =>
      ⟨if state = .draining then 503 else 200, ascii "application/json",
        (healthResponse state).2.length⟩
  | .rootPage => ⟨200, ascii "text/html", rootBody.length⟩
  | .static _ =>
      match lookupStaticFile disk.view path config.table with
      | .ready file filesize contentType =>
          if filesize ≤ bodySize then
            ⟨200, contentType, min filesize (disk.read file).bytes.length⟩
          else .empty 413
      | .forbidden => .empty 403
      | _ => .empty 404
  | .proxy i =>
      match (config.routes[i]?).map backend with
      | some (.reply status body) =>
          ⟨if status = 0 then 200 else status, ascii "application/json",
            min (bodySize - 1) body.length⟩
      | _ => .empty 501
  | .noRoute => .empty 404
  | .failed =>
      -- a file that could not be read leaves a status behind, a lookup that failed does not
      match lookupStaticFile disk.view path config.table with
      | .ready _ _ contentType => ⟨200, contentType, 0⟩
      | _ => .empty 500

/-- The length of a body that fits the record is printed in full. -/
theorem length_body_size_le {n : Nat} (h : n ≤ bodySize) : (decimalText n).length ≤ 31 := by
  rw [decimalText, List.length_map, Nat.length_toDigits_le_iff (by decide) (by decide)]
  exact lt_of_le_of_lt h (by decide)

variable {disk : Disk} {path : Bytes} {resp : Http2Response} {answer : Http2Answer}
  {config : SiteConfig}

/-- The content types of the lookup fit the record's field, and none is empty. -/
theorem content_type_fits {contentType : Bytes} {routes : List Route} {file : Position}
    {filesize : Nat}
    (hlookup : lookupStaticFile disk.view path routes = .ready file filesize contentType) :
    contentType.take 63 = contentType ∧ contentType ≠ [] := by
  have hall : ∀ text ∈ ascii "application/octet-stream" :: contentTypes.map Prod.snd,
      text.take 63 = text ∧ text ≠ [] := by
    decide +kernel
  exact hall contentType (lookup_static_file_ready hlookup).2

/-- The record says what the answer is. -/
structure Says (resp : Http2Response) (answer : Http2Answer) : Prop where
  status : resp.statusCode = answer.status
  contentType : (if resp.contentType = [] then ascii "text/plain" else resp.contentType) =
    answer.contentType
  length : resp.body.length = answer.length
  length_le : answer.length ≤ bodySize

/-- Headers do not count. -/
theorem Says.same_but {other : Http2Response} (h : Says resp answer) (hsame : SameBut resp other) :
    Says other answer := by
  obtain ⟨headers, hle, rfl⟩ := hsame
  exact ⟨h.status, h.contentType, h.length, h.length_le⟩

/-- The callback writes what the record says. -/
theorem Says.submitted (h : Says resp answer) :
    (submittedResponse resp).headers = answer.headers := by
  have hlength : (decimalText resp.body.length).take 31 = decimalText answer.length := by
    rw [h.length]
    exact List.take_of_length_le (length_body_size_le h.length_le)
  simp only [submittedResponse, frameFields, h.status, h.contentType, hlength, List.map_cons,
    List.map_nil, liveHeader, Http2Answer.headers]

/-- A status that is there is kept. -/
theorem Says.completed (h : Says resp answer) (hne : answer.status ≠ 0) (ok : Bool) :
    Says (completeResponse (resp, ok)) answer := by
  have hstatus : resp.statusCode ≠ 0 := fun hzero => hne (h.status.symm.trans hzero)
  simpa [completeResponse, hstatus] using h

/-- An answer with a status and without a body. -/
theorem says_empty (resp : Http2Response) (status : Int) (text : Bytes) :
    Says (populateHttp2Response resp [] status text (ascii "text/plain")).1 (.empty status) :=
  ⟨rfl, rfl, rfl, Nat.zero_le _⟩

/-- The root page's answer. -/
theorem says_root :
    Says
      (completeResponse
        (populateHttp2Response .zero rootBody 200 (ascii "OK") (ascii "text/html")))
      ⟨200, ascii "text/html", rootBody.length⟩ := by
  have hfits : ¬bodySize ≤ rootBody.length := by decide +kernel
  rw [populateHttp2Response, if_neg hfits]
  refine Says.completed ⟨rfl, rfl, rfl, ?_⟩ (show (200 : Int) ≠ 0 by decide) true
  exact Nat.le_of_not_le hfits

/-- The health endpoint's answer. -/
theorem says_health (config : SiteConfig) (state : ShutdownState) :
    Says (completeResponse (healthH2 config state, true))
      ⟨if state = .draining then 503 else 200, ascii "application/json",
        (healthResponse state).2.length⟩ := by
  refine Says.completed (Says.same_but ?_ (add_security_headers_same_but _ _ none)) ?_ true
  · cases state with
    | running => exact ⟨rfl, rfl, rfl, by decide⟩
    | draining => exact ⟨rfl, rfl, rfl, by decide⟩
    | forced => exact ⟨rfl, rfl, rfl, by decide⟩
  · cases state with
    | running => decide
    | draining => decide
    | forced => decide

/-- The answer from a file that was opened and read. -/
theorem says_file {contentType : Bytes} {read : FileRead} {filesize : Nat}
    (htype : contentType.take 63 = contentType) (hne : contentType ≠ [])
    (hsize : filesize ≤ bodySize)
    (h : (sendFileH2 config path read filesize contentType .zero).2 = .answered) :
    Says (sendFileH2 config path read filesize contentType .zero).1
      ⟨200, contentType, min filesize read.bytes.length⟩ := by
  rw [sendFileH2, if_neg (Nat.not_lt.mpr hsize)] at h ⊢
  dsimp only at h ⊢
  split at h
  · cases h
  · rename_i hread
    rw [if_neg hread]
    dsimp only
    refine Says.same_but ?_ (add_security_headers_same_but _ _ _)
    refine ⟨rfl, ?_, List.length_take, (Nat.min_le_left _ _).trans hsize⟩
    simp only [h2ResponseSetContentType, htype, if_neg hne]

/-- The answer from a static route. -/
theorem says_static (h : (serveStaticH2 config disk path .zero).2 = .answered) :
    Says (completeResponse ((serveStaticH2 config disk path .zero).1, true))
      (match lookupStaticFile disk.view path config.table with
      | .ready file filesize contentType =>
          if filesize ≤ bodySize then
            ⟨200, contentType, min filesize (disk.read file).bytes.length⟩
          else .empty 413
      | .forbidden => .empty 403
      | _ => .empty 404) := by
  unfold serveStaticH2 at h ⊢
  cases hlookup : lookupStaticFile disk.view path config.table with
  | noRoute => simp [hlookup] at h
  | error => simp [hlookup] at h
  | notFound => exact (says_empty .zero 404 _).completed (by decide) true
  | forbidden => exact (says_empty .zero 403 _).completed (by decide) true
  | ready file filesize contentType =>
      obtain ⟨htype, hne⟩ := content_type_fits hlookup
      simp only [hlookup] at h ⊢
      by_cases hsize : filesize ≤ bodySize
      · rw [if_pos hsize]
        exact (says_file htype hne hsize h).completed (show (200 : Int) ≠ 0 by decide) true
      · rw [if_neg hsize, sendFileH2, if_pos (Nat.lt_of_not_le hsize)]
        exact (says_empty .zero 413 _).completed (by decide) true

/-- The answer if a static route fails. -/
theorem says_failed (h : (serveStaticH2 config disk path .zero).2 = .failed) :
    Says (completeResponse ((serveStaticH2 config disk path .zero).1, false))
      (match lookupStaticFile disk.view path config.table with
      | .ready _ _ contentType => ⟨200, contentType, 0⟩
      | _ => .empty 500) := by
  unfold serveStaticH2 at h ⊢
  cases hlookup : lookupStaticFile disk.view path config.table with
  | noRoute => simp [hlookup] at h
  | error => exact ⟨rfl, rfl, rfl, Nat.zero_le _⟩
  | notFound => simp [hlookup] at h
  | forbidden => simp [hlookup] at h
  | ready file filesize contentType =>
      obtain ⟨htype, hne⟩ := content_type_fits hlookup
      simp only [hlookup, sendFileH2] at h ⊢
      split at h
      · cases h
      · rename_i hsize
        rw [if_neg hsize]
        split at h
        · rename_i hread
          rw [if_pos hread]
          refine Says.completed ⟨rfl, ?_, rfl, Nat.zero_le _⟩ (show (200 : Int) ≠ 0 by decide) false
          simp only [h2ResponseSetContentType, htype, if_neg hne]
        · cases h

/-- The answer from a backend's reply. -/
theorem says_reply (route : SiteRoute) (status : Int) (body : Bytes) :
    Says (completeResponse (setH2Response route status body, true))
      ⟨if status = 0 then 200 else status, ascii "application/json",
        min (bodySize - 1) body.length⟩ := by
  have hsays : Says (setH2Response route status body)
      ⟨status, ascii "application/json", min (bodySize - 1) body.length⟩ :=
    Says.same_but ⟨rfl, rfl, List.length_take, (Nat.min_le_left _ _).trans (by decide)⟩
      (add_security_headers_same_but _ _ _)
  by_cases hzero : status = 0
  · have hcode : (setH2Response route status body).statusCode = 0 := hsays.status.trans hzero
    rw [if_pos hzero, completeResponse]
    simp only [Bool.true_eq_false, false_and, if_false, hcode, if_true]
    exact ⟨rfl, hsays.contentType, hsays.length, hsays.length_le⟩
  · rw [if_neg hzero]
    exact hsays.completed hzero true

/-- The answer from a proxy. -/
theorem says_proxy (route : SiteRoute) (reply : BackendReply) :
    Says
      (completeResponse
        (match proxyToBackend route reply .zero with
        | (resp, true) => (resp, true)
        | (resp, false) =>
            populateHttp2Response resp [] 501 (ascii "Not Implemented") (ascii "text/plain")))
      (match some reply with
      | some (.reply status body) =>
          ⟨if status = 0 then 200 else status, ascii "application/json",
            min (bodySize - 1) body.length⟩
      | _ => .empty 501) := by
  cases reply with
  | rejected => exact (says_empty .zero 501 _).completed (by decide) true
  | failed => exact (says_empty .zero 501 _).completed (by decide) true
  | reply status body => exact says_reply route status body

/-- The route of a proxied request is one of the table. -/
theorem select_http2_proxy {i : Nat} (h : selectHttp2 config disk path = .proxy i) :
    ∃ route, config.routes[i]? = some route := by
  unfold selectHttp2 selectProxy at h
  split_ifs at h
  split at h
  · cases h
  · cases h
  · split at h
    · rename_i j hfind
      obtain rfl := Selection.proxy.inj h
      obtain ⟨hlt, -⟩ := List.findIdx?_eq_some_iff_getElem.mp hfind
      exact ⟨_, List.getElem?_eq_getElem hlt⟩
    · cases h

/-- A static route that failed is one that was looked at. -/
theorem select_http2_failed (h : selectHttp2 config disk path = .failed) :
    (serveStaticH2 config disk path .zero).2 = .failed := by
  unfold selectHttp2 selectProxy at h
  split_ifs at h
  split at h
  · cases h
  · assumption
  · split at h <;> cases h

/-- The submitted headers are those of the table. -/
theorem on_frame_recv_eq (config : SiteConfig) (state : ShutdownState) (disk : Disk)
    (backend : SiteRoute → BackendReply) (path : Bytes) :
    onFrameRecv config state disk backend path =
      (answerTo config state disk backend path).headers := by
  refine Says.submitted ?_
  rw [route_request_h2_select, answerTo]
  cases hselect : selectHttp2 config disk path with
  | health => exact says_health config state
  | rootPage => exact says_root
  | static i => exact says_static (select_http2_static hselect).2
  | proxy i =>
      obtain ⟨route, hroute⟩ := select_http2_proxy hselect
      simp only [hroute, Option.map_some]
      exact says_proxy route (backend route)
  | noRoute => exact (says_empty .zero 404 _).completed (by decide) true
  | failed => exact says_failed (select_http2_failed hselect)

/-! ## What is lost -/

/-- The submitted list is complete exactly if the configuration asks for no header on this request
but those that say what the answer is anyway. -/
theorem submits_added_iff (config : SiteConfig) (state : ShutdownState) (disk : Disk)
    (backend : SiteRoute → BackendReply) (path : Bytes) :
    SubmitsAdded config state disk backend path ↔
      ∀ header ∈ requestedHeaders config disk backend path,
        header ∈ (answerTo config state disk backend path).headers := by
  rw [SubmitsAdded, added_by_routing_eq, on_frame_recv_eq]
  refine ⟨fun h => h.2, fun h => ⟨fun name hname => ?_, h⟩⟩
  exact hname

/-- A document that the router gives the headers of its route is submitted without them. -/
theorem docs_headers_lost :
    loadConfig exampleView layeredSite = some layeredConfig ∧
      addedByRouting layeredConfig .running helloFiles (fun _ => .failed) (ascii "/docs/a.txt") =
        [⟨ascii "X-Content-Type-Options", .live (ascii "nosniff")⟩,
          ⟨ascii "Access-Control-Allow-Origin", .live (ascii "*")⟩,
          ⟨ascii "Access-Control-Max-Age", .dead (ascii "86400")⟩] ∧
      onFrameRecv layeredConfig .running helloFiles (fun _ => .failed) (ascii "/docs/a.txt") =
        [⟨ascii ":status", .live (ascii "200")⟩,
          ⟨ascii "content-type", .live (ascii "text/plain")⟩,
          ⟨ascii "content-length", .live (ascii "5")⟩] := by
  decide +kernel

end Emme.Server
