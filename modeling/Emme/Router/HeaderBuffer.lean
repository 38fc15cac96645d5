import Emme.Lib.Stores
import Emme.Router.HeaderSets

/-!
# The header buffer

`add_security_headers_to_buffer` and `add_cors_headers_to_buffer` print header lines into a buffer,
`h2_response_add_security_headers` appends the same headers to a record. `header_lists_eq_iff` says
when the two lists are the same, `stores_within_iff` when the bytes stay within the array: the
functions bound themselves by `SECURITY_HEADERS_BUFFER_SIZE`, and the array has `HEADER_BUFFER_SIZE`
bytes.
-/

namespace Emme.Router

open CString FileTree Stores Emme.Config

/-! ## The two protocols -/

/-- The fields appended for HTTP/1.1 to a buffer with `len` bytes. -/
def bufferFields (len : Nat) (config : SecurityHeadersConfig) (cors : CORSConfig) : List Field :=
  let added := addSecurityHeadersToBuffer len config
  added ++ addCorsHeadersToBuffer (len + (added.flatMap fieldLine).length) cors

/-- No test for room fails in the loop over the security headers. -/
def SecurityRoom : Nat → List SecurityHeader → Prop
  | _, [] => True
  | remaining, header :: headers =>
      20 < remaining ∧ (fieldLine (securityField header)).length < remaining ∧
        SecurityRoom (remaining - (fieldLine (securityField header)).length) headers

/-- No test for room fails in the statements that add CORS headers. -/
def CorsRoom : Nat → List (Nat × Field) → Prop
  | _, [] => True
  | remaining, (room, field) :: fields =>
      room < remaining ∧ (fieldLine field).length < remaining ∧
        CorsRoom (remaining - (fieldLine field).length) fields

instance decidableSecurityRoom :
    ∀ remaining headers, Decidable (SecurityRoom remaining headers)
  | _, [] => isTrue trivial
  | remaining, header :: headers =>
      haveI := decidableSecurityRoom
        (remaining - (fieldLine (securityField header)).length) headers
      inferInstanceAs (Decidable (_ ∧ _ ∧ _))

instance decidableCorsRoom : ∀ remaining fields, Decidable (CorsRoom remaining fields)
  | _, [] => isTrue trivial
  | remaining, (_, field) :: fields =>
      haveI := decidableCorsRoom (remaining - (fieldLine field).length) fields
      inferInstanceAs (Decidable (_ ∧ _ ∧ _))

/-- No limit of the buffer is reached while the two functions append to `len` bytes. The array of
the record for HTTP/2 has room for all headers of any two configurations. -/
def NoLimitReached (len : Nat) (config : SecurityHeadersConfig) (cors : CORSConfig) : Prop :=
  (config.enabled = true → len < securityHeadersBufferSize ∧
      SecurityRoom (securityHeadersBufferSize - len) config.headers) ∧
    (cors.enabled = true →
      len + ((securityFields config).flatMap fieldLine).length < securityHeadersBufferSize ∧
        CorsRoom (securityHeadersBufferSize -
          (len + ((securityFields config).flatMap fieldLine).length)) (corsFields cors))

instance (len : Nat) (config : SecurityHeadersConfig) (cors : CORSConfig) :
    Decidable (NoLimitReached len config cors) :=
  inferInstanceAs (Decidable ((_ → _ ∧ _) ∧ (_ → _ ∧ _)))

variable {remaining len : Nat}

/-- With room for all of them the loop adds all security headers. -/
theorem add_security_fields_room {headers : List SecurityHeader}
    (h : SecurityRoom remaining headers) :
    addSecurityFields remaining headers = headers.map securityField := by
  induction headers generalizing remaining with
  | nil => rfl
  | cons header headers ih =>
      obtain ⟨hremaining, hline, hrest⟩ := h
      rw [addSecurityFields, if_pos ⟨hremaining, hline⟩, ih hrest, List.map_cons]

/-- With room for all of them the statements add all CORS headers. -/
theorem add_cors_fields_room {fields : List (Nat × Field)} (h : CorsRoom remaining fields) :
    addCorsFields remaining fields = fields.map Prod.snd := by
  induction fields generalizing remaining with
  | nil => rfl
  | cons entry fields ih =>
      obtain ⟨hroom, hline, hrest⟩ := h
      rw [addCorsFields, if_pos ⟨hroom, hline⟩, ih hrest, List.map_cons]

/-- Without a limit, HTTP/1.1 gets the fields of both configurations. -/
theorem buffer_fields_eq {config : SecurityHeadersConfig} {cors : CORSConfig}
    (h : NoLimitReached len config cors) :
    bufferFields len config cors = securityFields config ++ enabledCorsFields cors := by
  have hsecurity : addSecurityHeadersToBuffer len config = securityFields config := by
    unfold addSecurityHeadersToBuffer securityFields
    by_cases henabled : config.enabled = true
    · obtain ⟨hlen, hroom⟩ := h.1 henabled
      rw [if_pos henabled, henabled, decide_eq_true hlen, Bool.and_self, if_pos rfl,
        add_security_fields_room hroom]
    · simp [henabled]
  have hcors : addCorsHeadersToBuffer (len + ((securityFields config).flatMap fieldLine).length)
      cors = enabledCorsFields cors := by
    unfold addCorsHeadersToBuffer enabledCorsFields
    by_cases henabled : cors.enabled = true
    · obtain ⟨hlen, hroom⟩ := h.2 henabled
      rw [if_pos henabled, henabled, decide_eq_true hlen, Bool.and_self, if_pos rfl,
        add_cors_fields_room hroom]
    · simp [henabled]
  rw [bufferFields, hsecurity, hcors]

/-- As long as no limit is reached, both protocols append the same list exactly if there is no CORS
header to append, or the security headers are enabled and `Access-Control-Max-Age` is not among the
CORS headers: over HTTP/2 its value does not outlive the function that adds it. -/
theorem header_lists_eq_iff {len : Nat} {config : SecurityHeadersConfig} {cors : CORSConfig}
    {resp : Http2Response} (hroom : NoLimitReached len config cors) (hresp : resp.headers = []) :
    (bufferFields len config cors).map liveHeader =
        (h2ResponseAddSecurityHeaders resp config (some cors)).headers ↔
      enabledCorsFields cors = [] ∨ (config.enabled = true ∧ ¬SendsMaxAge cors) := by
  rw [buffer_fields_eq hroom, h2_response_add_security_headers_eq hresp]
  constructor
  · intro h
    by_cases henabled : config.enabled = true
    · refine Or.inr ⟨henabled, fun hage => ?_⟩
      refine (configured_headers_live_iff config cors).mp ?_ ⟨henabled, hage⟩
      intro header hheader
      rw [← h] at hheader
      obtain ⟨field, -, rfl⟩ := List.mem_map.mp hheader
      exact live_header_live field
    · -- HTTP/2 stops before it looks at the CORS configuration
      rw [configuredHeaders, if_neg henabled, List.map_eq_nil_iff, List.append_eq_nil_iff] at h
      exact Or.inl h.2
  · intro h
    have hage : ¬SendsMaxAge cors := h.elim not_sends_max_age fun h => h.2
    have hlive := (configured_headers_live_iff config cors).mpr fun h => hage h.2
    rw [eq_map_live hlive, map_written_configured]
    congr 1
    by_cases henabled : config.enabled = true
    · rw [if_pos henabled]
    · rw [if_neg henabled, securityFields, if_neg henabled, List.nil_append]
      exact h.resolve_right fun h => henabled h.1

/-- The CORS settings of the documents, without an age. -/
def agelessCors : CORSConfig := { docsRoute.cors with maxAgeSeconds := 0 }

/-- A document's headers without an age, behind a head of 100 bytes. -/
theorem docs_header_lists_eq :
    NoLimitReached 100 docsRoute.securityHeaders agelessCors ∧
      enabledCorsFields agelessCors = [(ascii "Access-Control-Allow-Origin", ascii "*")] ∧
      (bufferFields 100 docsRoute.securityHeaders agelessCors).map liveHeader =
        (h2ResponseAddSecurityHeaders .zero docsRoute.securityHeaders
          (some agelessCors)).headers := by
  have hroom : NoLimitReached 100 docsRoute.securityHeaders agelessCors := by decide +kernel
  have hage : ¬SendsMaxAge agelessCors := by decide +kernel
  exact ⟨hroom, by decide +kernel, (header_lists_eq_iff hroom rfl).mpr (Or.inr ⟨rfl, hage⟩)⟩

/-- A route with CORS headers and without security headers gets its header over HTTP/1.1 only, and
the age of the documents is there over HTTP/1.1 only. -/
theorem cors_only_lists_differ :
    NoLimitReached 100 .none agelessCors ∧
      bufferFields 100 .none agelessCors =
        [(ascii "Access-Control-Allow-Origin", ascii "*")] ∧
      (h2ResponseAddSecurityHeaders .zero .none (some agelessCors)).headers = [] ∧
      NoLimitReached 100 docsRoute.securityHeaders docsRoute.cors ∧
      bufferFields 100 docsRoute.securityHeaders docsRoute.cors =
        [(ascii "X-Content-Type-Options", ascii "nosniff"),
          (ascii "Access-Control-Allow-Origin", ascii "*"),
          (ascii "Access-Control-Max-Age", ascii "86400")] ∧
      (h2ResponseAddSecurityHeaders .zero docsRoute.securityHeaders
          (some docsRoute.cors)).headers =
        [⟨ascii "X-Content-Type-Options", .live (ascii "nosniff")⟩,
          ⟨ascii "Access-Control-Allow-Origin", .live (ascii "*")⟩,
          ⟨ascii "Access-Control-Max-Age", .dead (ascii "86400")⟩] := by
  decide +kernel

/-! ## Stores -/

/-- The stores of the loop of `add_security_headers_to_buffer`. A line that does not fit is
stored as far as there is room. -/
def securityStores : Nat → Nat → List SecurityHeader → List Store
  | _, _, [] => []
  | len, remaining, header :: headers =>
      let line := fieldLine (securityField header)
      if 20 < remaining then
        snprintfStores len remaining line ++
          if line.length < remaining then
            securityStores (len + line.length) (remaining - line.length) headers
          else []
      else []

/-- The stores of `add_security_headers_to_buffer` behind `len` bytes. -/
def addSecurityHeadersStores (len : Nat) (config : SecurityHeadersConfig) : List Store :=
  if config.enabled && len < securityHeadersBufferSize then
    securityStores len (securityHeadersBufferSize - len) config.headers
  else []

/-- The stores of the statements of `add_cors_headers_to_buffer`. -/
def corsStores : Nat → Nat → List (Nat × Field) → List Store
  | _, _, [] => []
  | len, remaining, (room, field) :: fields =>
      let line := fieldLine field
      if room < remaining then
        snprintfStores len remaining line ++
          if line.length < remaining then
            corsStores (len + line.length) (remaining - line.length) fields
          else corsStores len remaining fields
      else corsStores len remaining fields

/-- The stores of `add_cors_headers_to_buffer` behind `len` bytes. -/
def addCorsHeadersStores (len : Nat) (cors : CORSConfig) : List Store :=
  if cors.enabled && len < securityHeadersBufferSize then
    corsStores len (securityHeadersBufferSize - len) (corsFields cors)
  else []

/-- A call of one of the two functions that build a head. -/
inductive HeadCall where
  | simple (statusLine contentType body : Bytes)
  | static (contentType : Bytes) (filesize : Nat)
  deriving DecidableEq, Repr

/-- The text in the array before headers are added. -/
def HeadCall.base : HeadCall → Bytes
  | .simple statusLine contentType body =>
      statusLine ++ crlf ++ contentType ++ ascii "Content-Length: " ++ decimalText body.length ++
        crlf
  | .static contentType filesize =>
      ascii "HTTP/1.1 200 OK\r\nContent-Type: " ++ contentType ++ ascii "\r\nContent-Length: " ++
        decimalText filesize ++ crlf

/-- What the two functions store when a call builds the head of a request's response. If the text
does not fit the array, the caller gives up before. -/
def HeadCall.stores (config : SiteConfig) (path : Bytes) (call : HeadCall) : List Store :=
  if headerBufferSize ≤ call.base.length then []
  else
    let security := getSecurityHeadersForRequest config path
    let len := call.base.length
    addSecurityHeadersStores len security ++
      addCorsHeadersStores (len + ((addSecurityHeadersToBuffer len security).flatMap
        fieldLine).length) (getCorsConfigForRequest config path)

/-! ## Staying within the array -/

/-- Behind a text that fits the array, the functions see 768 bytes more than there are. -/
theorem room_left (h : len < headerBufferSize) : 768 < securityHeadersBufferSize - len := by
  unfold headerBufferSize at h
  unfold securityHeadersBufferSize
  omega

/-- Within the array there is so much room left that a line is stored whole. -/
theorem line_stores_below (h : len < headerBufferSize) (line : Bytes) :
    (∀ store ∈ snprintfStores len (securityHeadersBufferSize - len) line,
        store.1 < headerBufferSize) ↔
      len + line.length < headerBufferSize := by
  have hroom := room_left h
  rw [snprintf_stores_below (by omega)]
  unfold headerBufferSize
  omega

/-- A line and what is stored behind it if it fits. -/
theorem line_then_below {total : Nat} (h : len < headerBufferSize) (line : Bytes)
    {next other : List Store} (hnext : len + line.length < headerBufferSize →
      ((∀ store ∈ next, store.1 < headerBufferSize) ↔
        len + line.length + total < headerBufferSize)) :
    (∀ store ∈ snprintfStores len (securityHeadersBufferSize - len) line ++
        (if line.length < securityHeadersBufferSize - len then next else other),
        store.1 < headerBufferSize) ↔
      len + (line.length + total) < headerBufferSize := by
  rw [List.forall_mem_append, line_stores_below h, ← Nat.add_assoc]
  by_cases hline : len + line.length < headerBufferSize
  · have hroom := room_left hline
    rw [if_pos (by omega), hnext hline]
    exact and_iff_right hline
  · exact iff_of_false (fun hall => hline hall.1) (by omega)

/-- The stores of the loop stay within the array exactly if all lines fit it. -/
theorem security_stores_below (h : len < headerBufferSize) (headers : List SecurityHeader) :
    (∀ store ∈ securityStores len (securityHeadersBufferSize - len) headers,
        store.1 < headerBufferSize) ↔
      len + ((headers.map securityField).flatMap fieldLine).length < headerBufferSize := by
  induction headers generalizing len with
  | nil => exact iff_of_true nofun h
  | cons header headers ih =>
      have hroom := room_left h
      rw [securityStores, if_pos (by omega), List.map_cons, List.flatMap_cons,
        List.length_append, Nat.sub_sub]
      exact line_then_below h _ ih

/-- The statements stay inside the array exactly if all their fields fit. -/
theorem cors_stores_below (h : len < headerBufferSize) {fields : List (Nat × Field)}
    (hfields : ∀ entry ∈ fields, entry.1 < enoughRoom) :
    (∀ store ∈ corsStores len (securityHeadersBufferSize - len) fields,
        store.1 < headerBufferSize) ↔
      len + ((fields.map Prod.snd).flatMap fieldLine).length < headerBufferSize := by
  induction fields generalizing len with
  | nil => exact iff_of_true nofun h
  | cons entry fields ih =>
      obtain ⟨room, field⟩ := entry
      obtain ⟨hentry, hrest⟩ := List.forall_mem_cons.mp hfields
      have hleft := room_left h
      have hroom : room < securityHeadersBufferSize - len := by
        simp only [enoughRoom] at hentry
        omega
      rw [corsStores, if_pos hroom, List.map_cons, List.flatMap_cons, List.length_append,
        Nat.sub_sub]
      exact line_then_below h _ fun hline => ih hline hrest

/-- `add_security_headers_to_buffer` stays inside the array exactly if all its fields fit. -/
theorem add_security_headers_stores_below (h : len < headerBufferSize)
    (config : SecurityHeadersConfig) :
    (∀ store ∈ addSecurityHeadersStores len config, store.1 < headerBufferSize) ↔
      len + ((securityFields config).flatMap fieldLine).length < headerBufferSize := by
  have hlen : len < securityHeadersBufferSize := h.trans (by decide)
  unfold addSecurityHeadersStores securityFields
  cases config.enabled with
  | false => exact iff_of_true nofun h
  | true =>
      rw [decide_eq_true hlen, Bool.and_self, if_pos rfl, if_pos rfl]
      exact security_stores_below h config.headers

/-- `add_cors_headers_to_buffer` stays inside the array exactly if all its fields fit. -/
theorem add_cors_headers_stores_below (h : len < headerBufferSize) (cors : CORSConfig) :
    (∀ store ∈ addCorsHeadersStores len cors, store.1 < headerBufferSize) ↔
      len + ((enabledCorsFields cors).flatMap fieldLine).length < headerBufferSize := by
  have hlen : len < securityHeadersBufferSize := h.trans (by decide)
  unfold addCorsHeadersStores enabledCorsFields
  cases cors.enabled with
  | false => exact iff_of_true nofun h
  | true =>
      rw [decide_eq_true hlen, Bool.and_self, if_pos rfl, if_pos rfl]
      exact cors_stores_below h fun entry hentry => (cors_fields_room hentry).1

/-- Headers that fit the array are all added. -/
theorem security_room_of_lt {headers : List SecurityHeader}
    (h : 20 + ((headers.map securityField).flatMap fieldLine).length < remaining) :
    SecurityRoom remaining headers := by
  induction headers generalizing remaining with
  | nil => trivial
  | cons header headers ih =>
      rw [List.map_cons, List.flatMap_cons, List.length_append] at h
      exact ⟨by omega, by omega, ih (by omega)⟩

/-- If all security headers fit the array, all of them are added. -/
theorem add_security_headers_fit {config : SecurityHeadersConfig}
    (h : len + ((securityFields config).flatMap fieldLine).length < headerBufferSize) :
    addSecurityHeadersToBuffer len config = securityFields config := by
  have hroom := room_left (Nat.lt_of_le_of_lt (Nat.le_add_right len _) h)
  have hlen : len < securityHeadersBufferSize := by omega
  unfold securityFields at h
  unfold addSecurityHeadersToBuffer securityFields
  cases henabled : config.enabled with
  | false => rfl
  | true =>
      rw [henabled, if_pos rfl] at h
      rw [decide_eq_true hlen, Bool.and_self, if_pos rfl, if_pos rfl]
      refine add_security_fields_room (security_room_of_lt ?_)
      unfold headerBufferSize at h
      unfold securityHeadersBufferSize
      omega

/-- The length of the head's text with all the headers for the request. -/
def HeadCall.fullLength (config : SiteConfig) (path : Bytes) (call : HeadCall) : Nat :=
  call.base.length +
    ((securityFields (getSecurityHeadersForRequest config path) ++
      enabledCorsFields (getCorsConfigForRequest config path)).flatMap fieldLine).length

/-- A head is built inside the array exactly if it fits with all headers for the request. -/
theorem head_call_stores_below {config : SiteConfig} {path : Bytes} {call : HeadCall}
    (h : call.base.length < headerBufferSize) :
    (∀ store ∈ call.stores config path, store.1 < headerBufferSize) ↔
      call.fullLength config path < headerBufferSize := by
  rw [HeadCall.stores, if_neg (Nat.not_le.mpr h), List.forall_mem_append,
    add_security_headers_stores_below h, HeadCall.fullLength, List.flatMap_append,
    List.length_append, ← Nat.add_assoc]
  by_cases hsecurity : call.base.length + ((securityFields
      (getSecurityHeadersForRequest config path)).flatMap fieldLine).length < headerBufferSize
  · rw [add_security_headers_fit hsecurity, add_cors_headers_stores_below hsecurity]
    exact and_iff_right hsecurity
  · exact iff_of_false (fun hall => hsecurity hall.1) (by omega)

/-- Every byte that the two functions store has an index within the caller's array exactly if the
text with all the headers for the request is shorter than the array, or was already too long
without them. -/
theorem stores_within_iff (config : SiteConfig) (path : Bytes) (call : HeadCall) :
    (∀ store ∈ call.stores config path, store.1 < headerBufferSize) ↔
      headerBufferSize ≤ call.base.length ∨ call.fullLength config path < headerBufferSize := by
  by_cases h : call.base.length < headerBufferSize
  · rw [head_call_stores_below h]
    exact ⟨Or.inr, fun hor => hor.resolve_left (Nat.not_le.mpr h)⟩
  · have hlong := Nat.not_lt.mp h
    refine iff_of_true ?_ (Or.inl hlong)
    rw [HeadCall.stores, if_pos hlong]
    exact nofun

/-- A site with four headers for all its files. -/
def fourHeadersSite : Yaml :=
  .record
    [("security_headers", .record
      [("enabled", .text "true"),
        ("headers", .sequence
          [.record [("name", .text "X-Content-Type-Options"), ("value", .text "nosniff")],
            .record [("name", .text "Strict-Transport-Security"),
              ("value", .text "max-age=31536000; includeSubDomains")],
            .record [("name", .text "Referrer-Policy"),
              ("value", .text "strict-origin-when-cross-origin")],
            .record [("name", .text "Permissions-Policy"),
              ("value", .text "geolocation=(), microphone=(), camera=()")]])]),
    ("routes", .sequence [.record
      [("path", .text "/files"), ("technology", .text "static"),
        ("document_root", .text "/srv/www")]])]

/-- The headers of `docsRoute` and three more that are common. -/
def fourHeaders : List SecurityHeader :=
  docsRoute.securityHeaders.headers ++
    [⟨⟨ascii "Strict-Transport-Security", by decide⟩,
        ⟨ascii "max-age=31536000; includeSubDomains", by decide⟩⟩,
      ⟨⟨ascii "Referrer-Policy", by decide⟩,
        ⟨ascii "strict-origin-when-cross-origin", by decide⟩⟩,
      ⟨⟨ascii "Permissions-Policy", by decide⟩,
        ⟨ascii "geolocation=(), microphone=(), camera=()", by decide⟩⟩]

/-- What `fourHeadersSite` loads to. -/
def fourHeadersConfig : SiteConfig where
  routes := filesConfig.routes
  securityHeaders := ⟨true, fourHeaders, by decide⟩

/-- The head of a file with the four headers is stored beyond the end of the array. -/
theorem four_headers_stored_beyond :
    loadConfig exampleView fourHeadersSite = some fourHeadersConfig ∧
      lookupStaticFile exampleView (ascii "/files/a.txt") fourHeadersConfig.table =
        .ready [ascii "srv", ascii "www", ascii "a.txt"] 5 (ascii "text/plain") ∧
      ¬ ∀ store ∈ (HeadCall.static (ascii "text/plain") 5).stores fourHeadersConfig
        (ascii "/files/a.txt"), store.1 < headerBufferSize := by
  refine ⟨by decide +kernel, by decide +kernel, ?_⟩
  rw [head_call_stores_below (by decide +kernel)]
  decide +kernel

end Emme.Router
