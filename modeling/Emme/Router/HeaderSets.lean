import Emme.Router.Http2

/-!
# Which headers a response gets

Several loops of the router look for the route of a request, each with its own filter, and a proxied
HTTP/2 response takes the route's own settings without what it inherits. `applied_eq_intended_iff`
says when the headers are nevertheless those of the route that served the request, and their values
still there once they have been added: over HTTP/2 that of `Access-Control-Max-Age` is an array of
the function that adds it.
-/

namespace Emme.Router

open CString FileTree Emme.Config

/-! ## What is intended -/

/-- The fields of a set of security headers. -/
def securityFields (config : SecurityHeadersConfig) : List Field :=
  if config.enabled then config.headers.map securityField else []

/-- The fields of a CORS configuration. -/
def enabledCorsFields (cors : CORSConfig) : List Field :=
  if cors.enabled then (corsFields cors).map Prod.snd else []

/-- The fields for a response from the route: its own security headers if they are enabled, else
the global ones if it inherits them, and its CORS headers. -/
def intended (config : SiteConfig) (route : SiteRoute) : List Field :=
  securityFields (resolveSecurity config route) ++ enabledCorsFields route.cors

variable {config : SiteConfig} {path : Bytes} {first : SiteRoute} {cors : CORSConfig}
  {resp : Http2Response} {disk : Disk}

/-- What the two searches of the router come to: what is intended for the first route whose path
matches. -/
theorem searched_eq_intended (hfirst : config.routes.find? (matchesPath path) = some first) :
    securityFields (getSecurityHeadersForRequest config path) ++
      enabledCorsFields (getCorsConfigForRequest config path) = intended config first := by
  simp only [getSecurityHeadersForRequest, getCorsConfigForRequest, hfirst, intended]
  by_cases hcors : first.cors.enabled
  · rw [if_pos hcors]
  · simp [enabledCorsFields, hcors, CORSConfig.none]

/-! ## HTTP/1.1: what fits is complete -/

/-- The room that is enough for any one field. -/
def enoughRoom : Nat := 322

/-- The line of a field has four bytes besides name and value. -/
theorem length_field_line (field : Field) :
    (fieldLine field).length = field.1.length + field.2.length + 4 := by
  simp only [fieldLine, List.length_append]
  have hcolon : (ascii ": ").length = 2 := by decide
  have hcrlf : crlf.length = 2 := rfl
  omega

/-- There is enough room for any security header. -/
theorem length_security_line_le (header : SecurityHeader) :
    (fieldLine (securityField header)).length ≤ enoughRoom := by
  have hname := header.name.2
  have hvalue := header.value.2
  rw [length_field_line]
  simp only [securityField, enoughRoom]
  omega

/-- The loop over the security headers adds all of them, or comes to the end of the buffer. -/
theorem add_security_fields_complete (remaining : Nat) (headers : List SecurityHeader) :
    addSecurityFields remaining headers = headers.map securityField ∨
      remaining ≤ enoughRoom +
        ((addSecurityFields remaining headers).flatMap fieldLine).length := by
  induction headers generalizing remaining with
  | nil => exact Or.inl rfl
  | cons header headers ih =>
      have hline := length_security_line_le header
      rw [addSecurityFields]
      split
      · rename_i hroom
        rcases ih (remaining - (fieldLine (securityField header)).length) with hall | hend
        · exact Or.inl (by rw [hall, List.map_cons])
        · refine Or.inr ?_
          rw [List.flatMap_cons, List.length_append]
          omega
      · rename_i hroom
        refine Or.inr ?_
        simp only [List.flatMap_nil, List.length_nil, enoughRoom] at hline ⊢
        omega

/-- An `int` has at most ten digits. -/
theorem length_max_age_le (seconds : Int32) :
    (decimalText seconds.toInt.toNat).length ≤ 10 := by
  have hlt := seconds.toInt_lt
  rw [decimalText, List.length_map, Nat.length_toDigits_le_iff (by decide) (by decide)]
  omega

/-- The fields of a CORS configuration ask for no more room than there is for any field. -/
theorem cors_fields_room {entry : Nat × Field} (h : entry ∈ corsFields cors) :
    entry.1 < enoughRoom ∧ (fieldLine entry.2).length ≤ enoughRoom := by
  have horigin := cors.allowOrigin.2
  have hmethods := cors.allowMethods.2
  have hheaders := cors.allowHeaders.2
  have hage := length_max_age_le cors.maxAgeSeconds
  have hnames : (ascii "Access-Control-Allow-Origin").length ≤ 32 ∧
      (ascii "Access-Control-Allow-Methods").length ≤ 32 ∧
      (ascii "Access-Control-Allow-Headers").length ≤ 32 ∧
      (ascii "Access-Control-Allow-Credentials").length ≤ 32 ∧
      (ascii "Access-Control-Max-Age").length ≤ 32 ∧ (ascii "true").length = 4 := by
    decide
  obtain ⟨h1, h2, h3, h4, h5, htrue⟩ := hnames
  simp only [corsFields, List.mem_append, List.mem_ite_nil_right, List.mem_singleton] at h
  rw [length_field_line]
  unfold enoughRoom
  rcases h with (((⟨-, rfl⟩ | ⟨-, rfl⟩) | ⟨-, rfl⟩) | ⟨-, rfl⟩) | ⟨-, rfl⟩ <;> dsimp only <;> omega

/-- The statements that add CORS headers add all of them, or come to the end of the buffer. -/
theorem add_cors_fields_complete (remaining : Nat) (fields : List (Nat × Field))
    (hroom : ∀ entry ∈ fields, entry.1 < enoughRoom ∧ (fieldLine entry.2).length ≤ enoughRoom) :
    addCorsFields remaining fields = fields.map Prod.snd ∨
      remaining ≤ enoughRoom + ((addCorsFields remaining fields).flatMap fieldLine).length := by
  induction fields generalizing remaining with
  | nil => exact Or.inl rfl
  | cons entry fields ih =>
      obtain ⟨room, field⟩ := entry
      obtain ⟨hentry, hline⟩ := hroom _ List.mem_cons_self
      have hrest : ∀ entry ∈ fields, entry.1 < enoughRoom ∧
          (fieldLine entry.2).length ≤ enoughRoom :=
        fun entry hmem => hroom entry (List.mem_cons_of_mem _ hmem)
      rw [addCorsFields]
      split
      · rename_i hfits
        rcases ih (remaining - (fieldLine field).length) hrest with hall | hend
        · exact Or.inl (by rw [hall, List.map_cons])
        · refine Or.inr ?_
          rw [List.flatMap_cons, List.length_append]
          omega
      · refine Or.inr ?_
        dsimp only at hentry hline
        omega

/-- Fields that are all added unless the larger buffer ends, and that stay within the smaller
one, were all added. -/
theorem complete_of_fits {len : Nat} {enabled : Bool} {add : Nat → List Field}
    {all : List Field}
    (hadd : ∀ remaining, add remaining = all ∨
      remaining ≤ enoughRoom + ((add remaining).flatMap fieldLine).length)
    (h : len + ((if enabled && len < securityHeadersBufferSize then
      add (securityHeadersBufferSize - len) else []).flatMap fieldLine).length <
        headerBufferSize) :
    (if enabled && len < securityHeadersBufferSize then
      add (securityHeadersBufferSize - len) else []) = if enabled then all else [] := by
  have hlen : len < securityHeadersBufferSize := by
    unfold headerBufferSize at h
    unfold securityHeadersBufferSize
    omega
  simp only [hlen, decide_true, Bool.and_true] at h ⊢
  cases enabled with
  | false => rfl
  | true =>
      simp only [if_true] at h ⊢
      refine (hadd _).resolve_right fun hend => ?_
      simp only [headerBufferSize, securityHeadersBufferSize, enoughRoom] at h hend
      omega

/-- A head that fits its buffer has every field that it should have: the buffer is so much
smaller than the limit the fields are added under. -/
theorem build_head_complete {base : Bytes} {security : SecurityHeadersConfig} {head : Head}
    (h : buildHead base security cors = some head) :
    head.security = securityFields security ∧ head.cors = enabledCorsFields cors := by
  obtain ⟨hsecurity, hcors, htext, hfits⟩ := build_head_eq_some h
  rw [htext, List.length_append, List.length_append, List.length_append] at hfits
  constructor
  · rw [hsecurity]
    rw [hsecurity] at hfits
    refine complete_of_fits (fun remaining => add_security_fields_complete remaining _) ?_
    rw [addSecurityHeadersToBuffer] at hfits
    omega
  · rw [hcors]
    rw [hcors] at hfits
    refine complete_of_fits
      (fun remaining => add_cors_fields_complete remaining _ fun _ => cors_fields_room) ?_
    rw [addCorsHeadersToBuffer, List.length_append] at hfits
    rw [List.length_append]
    omega

/-! ## HTTP/2: the record has room -/

/-- Headers for which there is room are all added. -/
theorem foldl_add_header {headers : List Header}
    (h : resp.headers.length + headers.length ≤ maxHeaders) :
    (headers.foldl h2ResponseAddHeader resp).headers = resp.headers ++ headers := by
  induction headers generalizing resp with
  | nil => exact (List.append_nil _).symm
  | cons header headers ih =>
      rw [List.length_cons] at h
      have hadd : (h2ResponseAddHeader resp header).headers = resp.headers ++ [header] := by
        rw [h2ResponseAddHeader, dif_pos (by omega)]
      rw [List.foldl_cons, ih, hadd, List.append_assoc]
      · rfl
      · rw [hadd, List.length_append, List.length_singleton]
        omega

/-- There is one header for each of the five settings at most. -/
theorem length_cors_headers_le (cors : CORSConfig) : (corsHeaders cors).length ≤ 5 := by
  simp only [corsHeaders, List.length_append, apply_ite List.length, List.length_singleton,
    List.length_nil]
  split_ifs <;> omega

/-- The headers of an enabled set of security headers with the CORS headers that go with it; the
latter are not looked at if the former are disabled. -/
def configuredHeaders (config : SecurityHeadersConfig) (cors : CORSConfig) : List Header :=
  if config.enabled then
    (securityFields config).map liveHeader ++ if cors.enabled then corsHeaders cors else []
  else []

/-- What is added to a record without headers. -/
theorem h2_response_add_security_headers_eq (hresp : resp.headers = [])
    (config : SecurityHeadersConfig) (cors : CORSConfig) :
    (h2ResponseAddSecurityHeaders resp config (some cors)).headers =
      configuredHeaders config cors := by
  have hcount := config.count_le
  have hcors := length_cors_headers_le cors
  unfold maxSecurityHeaders at hcount
  unfold h2ResponseAddSecurityHeaders configuredHeaders securityFields
  by_cases henabled : config.enabled
  · simp only [if_pos henabled, List.map_map]
    have hsecurity : ((config.headers.map (liveHeader ∘ securityField)).foldl h2ResponseAddHeader
        resp).headers = config.headers.map (liveHeader ∘ securityField) := by
      rw [foldl_add_header, hresp, List.nil_append]
      rw [hresp, List.length_nil, List.length_map]
      unfold maxHeaders
      omega
    by_cases hon : cors.enabled
    · rw [if_pos hon, if_pos hon]
      refine (foldl_add_header ?_).trans (congrArg (· ++ _) hsecurity)
      refine (congrArg (·.length + _) hsecurity).trans_le ?_
      rw [List.length_map]
      unfold maxHeaders
      omega
    · rw [if_neg hon, if_neg hon, List.append_nil]
      exact hsecurity
  · simp only [if_neg henabled, hresp]

/-- The record differs from `resp` in its headers at most. -/
def SameBut (resp other : Http2Response) : Prop :=
  ∃ (headers : List Header) (hle : headers.length ≤ maxHeaders),
    other = { resp with headers := headers, headers_le := hle }

/-- Adding a header changes nothing else. -/
theorem add_header_same_but {start : Http2Response} (h : SameBut start resp) (header : Header) :
    SameBut start (h2ResponseAddHeader resp header) := by
  obtain ⟨headers, hle, rfl⟩ := h
  unfold h2ResponseAddHeader
  split
  · exact ⟨_, _, rfl⟩
  · exact ⟨headers, hle, rfl⟩

/-- Adding any number of headers changes nothing else. -/
theorem add_headers_same_but (added : List Header) {start : Http2Response}
    (h : SameBut start resp) : SameBut start (added.foldl h2ResponseAddHeader resp) := by
  induction added generalizing resp with
  | nil => exact h
  | cons header added ih => exact ih (add_header_same_but h header)

/-- `h2_response_add_security_headers` changes nothing but the headers. -/
theorem add_security_headers_same_but (resp : Http2Response) (security : SecurityHeadersConfig)
    (cors : Option CORSConfig) :
    SameBut resp (h2ResponseAddSecurityHeaders resp security cors) := by
  have hsame : SameBut resp resp := ⟨resp.headers, resp.headers_le, rfl⟩
  have hsecurity := add_headers_same_but
    (security.headers.map fun header => liveHeader (securityField header)) hsame
  unfold h2ResponseAddSecurityHeaders
  split
  · cases cors with
    | none => exact hsecurity
    | some cors =>
        dsimp only
        split
        · exact add_headers_same_but _ hsecurity
        · exact hsecurity
  · exact hsame

/-! ## HTTP/2: what becomes of the values -/

/-- The configuration asks for `Access-Control-Max-Age`. -/
def SendsMaxAge (cors : CORSConfig) : Prop := cors.enabled = true ∧ 0 < cors.maxAgeSeconds

instance (cors : CORSConfig) : Decidable (SendsMaxAge cors) := instDecidableAnd

/-- The header of a field was added for that field. -/
theorem map_written_live (fields : List Field) :
    (fields.map liveHeader).map Header.written = fields := by
  rw [List.map_map]
  exact List.map_id fields

/-- The header of a field can be read. -/
theorem live_header_live (field : Field) : (liveHeader field).Live := ⟨field.2, rfl⟩

/-- Both protocols add CORS headers for the same fields. -/
theorem map_written_cors (cors : CORSConfig) :
    (corsHeaders cors).map Header.written = (corsFields cors).map Prod.snd := by
  simp only [corsHeaders, corsFields, List.map_append, apply_ite (List.map _), List.map_cons,
    List.map_nil]
  rfl

/-- The fields that HTTP/2 adds headers for. -/
theorem map_written_configured (config : SecurityHeadersConfig) (cors : CORSConfig) :
    (configuredHeaders config cors).map Header.written =
      if config.enabled then securityFields config ++ enabledCorsFields cors else [] := by
  unfold configuredHeaders enabledCorsFields
  split
  · rw [List.map_append, map_written_live]
    split
    · rw [map_written_cors]
    · rfl
  · rfl

/-- All CORS headers can be read, but for `Access-Control-Max-Age`. -/
theorem cors_headers_live_iff (cors : CORSConfig) :
    (∀ header ∈ corsHeaders cors, header.Live) ↔ ¬0 < cors.maxAgeSeconds := by
  have hdead (name text : Bytes) : ¬Header.Live ⟨name, .dead text⟩ := fun ⟨_, h⟩ => by cases h
  have hlive (name text : Bytes) : Header.Live ⟨name, .live text⟩ := ⟨text, rfl⟩
  simp only [corsHeaders, List.mem_append, List.mem_ite_nil_right, List.mem_singleton]
  constructor
  · intro h hage
    exact hdead _ _ (h _ (Or.inr ⟨hage, rfl⟩))
  · rintro hage header ((((⟨-, rfl⟩ | ⟨-, rfl⟩) | ⟨-, rfl⟩) | ⟨-, rfl⟩) | ⟨h, -⟩)
    · exact hlive _ _
    · exact hlive _ _
    · exact hlive _ _
    · exact hlive _ _
    · exact absurd h hage

/-- All headers that HTTP/2 adds can be read, unless `Access-Control-Max-Age` is among them. -/
theorem configured_headers_live_iff (config : SecurityHeadersConfig) (cors : CORSConfig) :
    (∀ header ∈ configuredHeaders config cors, header.Live) ↔
      ¬(config.enabled = true ∧ SendsMaxAge cors) := by
  unfold configuredHeaders SendsMaxAge
  by_cases henabled : config.enabled = true
  · have hsecurity : ∀ header ∈ (securityFields config).map liveHeader, header.Live := by
      intro header hheader
      obtain ⟨field, -, rfl⟩ := List.mem_map.mp hheader
      exact live_header_live field
    simp only [henabled, if_true, true_and, List.forall_mem_append]
    rw [and_iff_right hsecurity]
    by_cases hon : cors.enabled = true
    · simp only [hon, if_true, true_and]
      exact cors_headers_live_iff cors
    · simp [hon]
  · simp [henabled]

/-- Headers that can be read are those of the fields they were added for. -/
theorem eq_map_live {headers : List Header} (h : ∀ header ∈ headers, header.Live) :
    headers = (headers.map Header.written).map liveHeader := by
  induction headers with
  | nil => rfl
  | cons header headers ih =>
      obtain ⟨hhead, htail⟩ := List.forall_mem_cons.mp h
      obtain ⟨name, value⟩ := header
      obtain ⟨text, rfl⟩ : ∃ text, value = .live text := hhead
      rw [List.map_cons, List.map_cons, ← ih htail]
      rfl

/-- The header for the age is one of the CORS headers. -/
theorem not_sends_max_age (h : enabledCorsFields cors = []) : ¬SendsMaxAge cors := by
  rintro ⟨hon, hage⟩
  rw [enabledCorsFields, if_pos hon, ← map_written_cors, corsHeaders, if_pos hage] at h
  simp at h

/-! ## The route that served, and the headers that were applied -/

/-- The kinds of answer that carry a route's headers. -/
inductive Service where
  | http1File
  | http2File
  | http2Proxied
  deriving DecidableEq, Repr

/-- The route a request is answered from and the headers that were added to the answer, if the
request is answered with a static file or with the response of a backend. Over HTTP/1.1 a header
is part of the text that is sent. -/
def applied (config : SiteConfig) (state : ShutdownState) (disk : Disk)
    (backend : SiteRoute → BackendReply) (path : Bytes) : Service → Option (SiteRoute × List Header)
  | .http1File =>
      match selectHttp1 config disk path, lookupStaticFile disk.view path config.table with
      | .static i, .ready _ _ _ => do
          let route ← config.routes[i]?
          let response ← (serveStaticResponse config path
            (disk.responseIo config path ⟨false, false, []⟩ [])).response
          some (route, (response.head.security ++ response.head.cors).map liveHeader)
      | _, _ => none
  | .http2File =>
      match selectHttp2 config disk path, lookupStaticFile disk.view path config.table with
      | .static i, .ready _ filesize _ =>
          -- a larger file is not sent, but answered with a 413
          if filesize ≤ bodySize then do
            let route ← config.routes[i]?
            some (route, (routeRequestH2 config state disk backend path).1.headers)
          else none
      | _, _ => none
  | .http2Proxied =>
      match selectHttp2 config disk path with
      | .proxy i => do
          let route ← config.routes[i]?
          match backend route with
          | .reply _ _ => some (route, (routeRequestH2 config state disk backend path).1.headers)
          | _ => none
      | _ => none

/-- When the headers were added for the route that served: for a file, if the first route whose
path matches asks for the same ones, and over HTTP/2 has security headers unless none at all are
asked for; for a backend's response, if the route has security headers of its own or nothing is
asked for. -/
def HeaderSetsAgree (config : SiteConfig) (path : Bytes) (route : SiteRoute) : Service → Prop
  | .http1File =>
      ∃ first, config.routes.find? (matchesPath path) = some first ∧
        intended config first = intended config route
  | .http2File =>
      ∃ first, config.routes.find? (matchesPath path) = some first ∧
        if (resolveSecurity config first).enabled then
          intended config first = intended config route
        else intended config route = []
  | .http2Proxied => route.securityHeaders.enabled = true ∨ intended config route = []

/-- When all headers that were added can still be read: over HTTP/2 only if the settings that are
followed do not ask for `Access-Control-Max-Age`. -/
def ValuesLast (config : SiteConfig) (path : Bytes) (route : SiteRoute) : Service → Prop
  | .http1File => True
  | .http2File =>
      ∃ first, config.routes.find? (matchesPath path) = some first ∧
        ¬((resolveSecurity config first).enabled = true ∧ SendsMaxAge first.cors)
  | .http2Proxied => ¬(route.securityHeaders.enabled = true ∧ SendsMaxAge route.cors)

/-- The first static route for a path has a path that matches. -/
theorem exists_first_of_static {route : SiteRoute}
    (h : config.routes[staticRoute config path]? = some route) :
    ∃ first, config.routes.find? (matchesPath path) = some first := by
  obtain ⟨hlt, hroute⟩ := List.getElem?_eq_some_iff.mp h
  have hserves : servesStatic path route.toRoute = true := by
    rw [← hroute]
    exact List.findIdx_getElem (p := fun route : SiteRoute => servesStatic path route.toRoute)
  rw [← Option.isSome_iff_exists, List.find?_isSome]
  refine ⟨route, List.mem_of_getElem? h, ?_⟩
  rw [servesStatic, Bool.and_eq_true] at hserves
  exact hserves.2

/-- A static choice over HTTP/1.1 is the first static route. -/
theorem select_http1_static {i : Nat} (h : selectHttp1 config disk path = .static i) :
    i = staticRoute config path := by
  unfold selectHttp1 selectProxy at h
  split_ifs at h
  · exact (Selection.static.inj h).symm
  · split at h <;> cases h

/-- A static choice over HTTP/2 is the first static route. -/
theorem select_http2_static {i : Nat} (h : selectHttp2 config disk path = .static i) :
    i = staticRoute config path ∧ (serveStaticH2 config disk path .zero).2 = .answered := by
  unfold selectHttp2 selectProxy at h
  split_ifs at h
  split at h
  · rename_i hanswered
    exact ⟨(Selection.static.inj h).symm, hanswered⟩
  · cases h
  · split at h <;> cases h

/-- The fields of a file's response over HTTP/1.1. -/
theorem serve_static_response_fields {io : ResponseIo} {file : Position} {filesize : Nat}
    {contentType : Bytes} {response : OwnResponse}
    (hfirst : config.routes.find? (matchesPath path) = some first)
    (hlookup : lookupStaticFile io.view path config.table = .ready file filesize contentType)
    (h : (serveStaticResponse config path io).response = some response) :
    response.head.security ++ response.head.cors = intended config first := by
  simp only [serveStaticResponse, hlookup] at h
  cases hhead : staticHead config path contentType filesize with
  | none =>
      rw [hhead] at h
      cases h
  | some head =>
      have hbuilt : response.head = head := by
        rw [hhead, writeResponse] at h
        split at h <;> cases h <;> rfl
      obtain ⟨hsecurity, hcors⟩ := build_head_complete hhead
      rw [hbuilt, hsecurity, hcors, searched_eq_intended hfirst]

/-- A CORS configuration that is not enabled is as good as none. -/
theorem configured_searched (hfirst : config.routes.find? (matchesPath path) = some first) :
    configuredHeaders (getSecurityHeadersForRequest config path)
        (getCorsConfigForRequest config path) =
      configuredHeaders (resolveSecurity config first) first.cors := by
  simp only [getSecurityHeadersForRequest, getCorsConfigForRequest, hfirst]
  by_cases hcors : first.cors.enabled
  · rw [if_pos hcors]
  · simp [configuredHeaders, hcors, CORSConfig.none]

/-- The headers of a file's response over HTTP/2. -/
theorem serve_static_h2_configured {file : Position} {filesize : Nat} {contentType : Bytes}
    (hfirst : config.routes.find? (matchesPath path) = some first)
    (hlookup : lookupStaticFile disk.view path config.table = .ready file filesize contentType)
    (hsize : filesize ≤ bodySize) (h : (serveStaticH2 config disk path .zero).2 = .answered) :
    (serveStaticH2 config disk path .zero).1.headers =
      configuredHeaders (resolveSecurity config first) first.cors := by
  simp only [serveStaticH2, hlookup, sendFileH2, if_neg (Nat.not_lt.mpr hsize)] at h ⊢
  split at h
  · cases h
  · rename_i hread
    rw [if_neg hread, h2_response_add_security_headers_eq rfl, configured_searched hfirst]

/-- The fields that HTTP/2 adds for a route's own settings, which are those intended for the route
if they are enabled. -/
theorem map_written_own (config : SiteConfig) (route : SiteRoute) :
    (configuredHeaders route.securityHeaders route.cors).map Header.written =
      if route.securityHeaders.enabled then intended config route else [] := by
  rw [map_written_configured]
  by_cases henabled : route.securityHeaders.enabled
  · rw [if_pos henabled, if_pos henabled, intended, resolveSecurity, if_pos henabled]
  · rw [if_neg henabled, if_neg henabled]

/-- A list that is empty without a condition equals another one. -/
theorem ite_nil_eq_iff {α : Type} {b : Bool} {left right : List α} :
    (if b then left else []) = right ↔ if b then left = right else right = [] := by
  cases b <;> simp [eq_comm]

/-- The headers of an answer are those intended for the route that served it, and all of them can
be read, exactly under the stated conditions. -/
theorem applied_eq_intended_iff {config : SiteConfig} {state : ShutdownState} {disk : Disk}
    {backend : SiteRoute → BackendReply} {path : Bytes} {service : Service} {route : SiteRoute}
    {headers : List Header}
    (h : applied config state disk backend path service = some (route, headers)) :
    (headers.map Header.written = intended config route ↔
        HeaderSetsAgree config path route service) ∧
      ((∀ header ∈ headers, header.Live) ↔ ValuesLast config path route service) := by
  cases service with
  | http1File =>
      simp only [applied] at h
      split at h
      · rename_i i file filesize contentType hselect hlookup
        obtain rfl := select_http1_static hselect
        simp only [Option.bind_eq_bind, Option.bind_eq_some_iff, Option.some.injEq,
          Prod.mk.injEq] at h
        obtain ⟨_, hroute, response, hresponse, rfl, rfl⟩ := h
        obtain ⟨first, hfirst⟩ := exists_first_of_static hroute
        rw [map_written_live, serve_static_response_fields hfirst hlookup hresponse]
        refine ⟨?_, iff_of_true (fun header hheader => ?_) trivial⟩
        · simp only [HeaderSetsAgree, hfirst, Option.some.injEq, exists_eq_left']
        · obtain ⟨field, -, rfl⟩ := List.mem_map.mp hheader
          exact live_header_live field
      · cases h
  | http2File =>
      simp only [applied] at h
      split at h
      · rename_i i file filesize contentType hselect hlookup
        obtain ⟨rfl, hanswered⟩ := select_http2_static hselect
        split at h
        · rename_i hsize
          simp only [Option.bind_eq_bind, Option.bind_eq_some_iff, Option.some.injEq,
            Prod.mk.injEq] at h
          obtain ⟨_, hroute, rfl, rfl⟩ := h
          obtain ⟨first, hfirst⟩ := exists_first_of_static hroute
          rw [route_request_h2_select, hselect]
          simp only [serve_static_h2_configured hfirst hlookup hsize hanswered, HeaderSetsAgree,
            ValuesLast, hfirst, Option.some.injEq, exists_eq_left']
          exact ⟨by rw [map_written_configured]; exact ite_nil_eq_iff,
            configured_headers_live_iff _ _⟩
        · cases h
      · cases h
  | http2Proxied =>
      simp only [applied] at h
      split at h
      · rename_i i hselect
        simp only [Option.bind_eq_bind, Option.bind_eq_some_iff] at h
        obtain ⟨served, hroute, h⟩ := h
        split at h
        · rename_i status body hreply
          cases h
          have hheaders : (setH2Response route status body).headers =
              configuredHeaders route.securityHeaders route.cors :=
            h2_response_add_security_headers_eq rfl _ _
          rw [route_request_h2_select, hselect]
          simp only [hroute, proxyToBackend, hreply, hheaders]
          refine ⟨?_, configured_headers_live_iff _ _⟩
          rw [HeaderSetsAgree, map_written_own config, ite_nil_eq_iff]
          by_cases henabled : route.securityHeaders.enabled
          · rw [if_pos henabled]
            exact iff_of_true rfl (Or.inl henabled)
          · rw [if_neg henabled]
            exact ⟨Or.inr, fun h => h.resolve_left henabled⟩
        · cases h
      · cases h

/-- A site with global headers: documents with settings of their own, a backend for everything,
and behind it files without headers. -/
def layeredSite : Yaml :=
  .record
    [("security_headers", .record
      [("enabled", .text "true"),
        ("headers", .sequence
          [.record [("name", .text "X-Frame-Options"), ("value", .text "DENY")]])]),
    ("routes", .sequence
      [.record
        [("path", .text "/docs"), ("technology", .text "static"),
          ("document_root", .text "/srv/www"),
          ("security_headers", .record
            [("enabled", .text "true"),
              ("headers", .sequence
                [.record [("name", .text "X-Content-Type-Options"),
                  ("value", .text "nosniff")]])]),
          ("cors", .record [("enabled", .text "true"), ("allow_origin", .text "*")])],
      .record
        [("path", .text "/"), ("technology", .text "reverse_proxy"),
          ("backend", .text "127.0.0.1:80")],
      .record
        [("path", .text "/files"), ("technology", .text "static"),
          ("document_root", .text "/srv/www"), ("inherit_global_headers", .text "false")]])]

/-- The documents, with settings of their own. -/
def docsRoute : SiteRoute where
  path := ascii "/docs"
  technology := ascii "static"
  documentRoot := ascii "/srv/www"
  documentRootReal := ascii "/srv/www"
  documentRootResolved := true
  backend := []
  securityHeaders :=
    ⟨true, [⟨⟨ascii "X-Content-Type-Options", by decide⟩, ⟨ascii "nosniff", by decide⟩⟩],
      by decide⟩
  inheritGlobalHeaders := true
  cors :=
    { CORSConfig.none with
      enabled := true
      allowOrigin := ⟨ascii "*", by decide⟩
      maxAgeSeconds := 86400 }

/-- The backend for everything, which inherits the global headers. -/
def backendRoute : SiteRoute where
  path := ascii "/"
  technology := ascii "reverse_proxy"
  documentRoot := []
  documentRootReal := []
  documentRootResolved := false
  backend := ascii "127.0.0.1:80"
  securityHeaders := .none
  inheritGlobalHeaders := true
  cors := { CORSConfig.none with maxAgeSeconds := 86400 }

/-- The files without headers. -/
def bareRoute : SiteRoute where
  path := ascii "/files"
  technology := ascii "static"
  documentRoot := ascii "/srv/www"
  documentRootReal := ascii "/srv/www"
  documentRootResolved := true
  backend := []
  securityHeaders := .none
  inheritGlobalHeaders := false
  cors := { CORSConfig.none with maxAgeSeconds := 86400 }

/-- What `layeredSite` loads to. -/
def layeredConfig : SiteConfig where
  routes := [docsRoute, backendRoute, bareRoute]
  securityHeaders :=
    ⟨true, [⟨⟨ascii "X-Frame-Options", by decide⟩, ⟨ascii "DENY", by decide⟩⟩], by decide⟩

/-- The document has the headers of its route over both protocols, but over HTTP/2 one of them
has lost its value. -/
theorem applied_eq_intended_docs :
    applied layeredConfig .running helloFiles (fun _ => .failed) (ascii "/docs/a.txt") .http1File =
        some (docsRoute, (intended layeredConfig docsRoute).map liveHeader) ∧
      HeaderSetsAgree layeredConfig (ascii "/docs/a.txt") docsRoute .http1File ∧
      ValuesLast layeredConfig (ascii "/docs/a.txt") docsRoute .http1File ∧
      applied layeredConfig .running helloFiles (fun _ => .failed) (ascii "/docs/a.txt")
          .http2File =
        some (docsRoute,
          [⟨ascii "X-Content-Type-Options", .live (ascii "nosniff")⟩,
            ⟨ascii "Access-Control-Allow-Origin", .live (ascii "*")⟩,
            ⟨ascii "Access-Control-Max-Age", .dead (ascii "86400")⟩]) ∧
      HeaderSetsAgree layeredConfig (ascii "/docs/a.txt") docsRoute .http2File ∧
      ¬ValuesLast layeredConfig (ascii "/docs/a.txt") docsRoute .http2File := by
  have hfirst : applied layeredConfig .running helloFiles (fun _ => .failed)
      (ascii "/docs/a.txt") .http1File =
        some (docsRoute, (intended layeredConfig docsRoute).map liveHeader) := by
    decide +kernel
  have hsecond : applied layeredConfig .running helloFiles (fun _ => .failed)
      (ascii "/docs/a.txt") .http2File =
        some (docsRoute,
          [⟨ascii "X-Content-Type-Options", .live (ascii "nosniff")⟩,
            ⟨ascii "Access-Control-Allow-Origin", .live (ascii "*")⟩,
            ⟨ascii "Access-Control-Max-Age", .dead (ascii "86400")⟩]) := by
    decide +kernel
  refine ⟨hfirst, (applied_eq_intended_iff hfirst).1.mp (map_written_live _), trivial, hsecond,
    (applied_eq_intended_iff hsecond).1.mp (by decide +kernel), fun hlast => ?_⟩
  obtain ⟨text, htext⟩ := (applied_eq_intended_iff hsecond).2.mpr hlast
    ⟨ascii "Access-Control-Max-Age", .dead (ascii "86400")⟩ (by simp)
  cases htext

/-- The file gets the global headers, which its route does not inherit, and the response of the
backend does not get them although its route does. -/
theorem applied_other_headers :
    loadConfig exampleView layeredSite = some layeredConfig ∧
      applied layeredConfig .running helloFiles (fun _ => .failed) (ascii "/files/a.txt")
          .http1File = some (bareRoute, [⟨ascii "X-Frame-Options", .live (ascii "DENY")⟩]) ∧
      intended layeredConfig bareRoute = [] ∧
      applied layeredConfig .running helloFiles (fun _ => .reply 200 (ascii "ok")) (ascii "/api")
          .http2Proxied = some (backendRoute, []) ∧
      intended layeredConfig backendRoute = [(ascii "X-Frame-Options", ascii "DENY")] := by
  decide +kernel

end Emme.Router
