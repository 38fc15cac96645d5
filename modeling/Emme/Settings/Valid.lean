import Emme.Settings.Load

/-!
# What an accepted configuration satisfies

`load_config` checks each number where it reads it, and `validate_config` a few texts at the end.
The ranges hold of the defaults and every section keeps them, so they hold of every configuration
that is accepted (`load_config_valid`).
-/

namespace Emme.Settings

open CString FileTree Emme.Router Emme.Config

/-- A number lies in a range. -/
def Within {α : Type} [LE α] (min max value : α) : Prop := min ≤ value ∧ value ≤ max

/-- Every number of the `server`, `logging`, `ssl` and `http2` sections is in its range. -/
structure ServerConfig.InRange (config : ServerConfig) : Prop where
  port : Within 1 65535 config.port
  maxConnections : Within 1 1000000 config.maxConnections
  shutdownTimeoutSeconds : Within 1 300 config.shutdownTimeoutSeconds
  requestTimeoutMs : Within 1000 300000 config.requestTimeoutMs
  tlsHandshakeTimeoutMs : Within 1000 60000 config.tlsHandshakeTimeoutMs
  perIpConnectionLimit : Within 1 10000 config.perIpConnectionLimit
  sessionCacheSize : Within 1000 1000000 config.ssl.sessionCacheSize
  sessionTimeout : Within 60 3600 config.ssl.sessionTimeout
  readBufferSize : Within 4096 65536 config.ssl.readBufferSize
  keepaliveTimeout : Within 10 300 config.http2.keepaliveTimeout
  maxRequestsPerConnection : Within 1 100000 config.http2.maxRequestsPerConnection
  maxConcurrentStreams : Within 1 1000 config.http2.maxConcurrentStreams
  bufferSize : Within 1 1048576 config.logging.bufferSize
  rolloverSize : Within 0 (2 ^ 40) config.logging.rolloverSize

/-- A route has a path and something to serve it from. -/
def Route.Served (route : Route) : Prop :=
  route.path.head? = some slash ∧
    (route.technology = ascii "static" ∧ route.documentRoot ≠ [] ∨
      route.technology = ascii "reverse_proxy" ∧
        ∃ address, parseBackendUrl route.backend = some address)

/-- What the rest of the server relies on. -/
structure ServerConfig.Valid (config : ServerConfig) : Prop where
  ranges : config.InRange
  appender : config.logging.appenderFlags.file = true ∨ config.logging.appenderFlags.console = true
  file_name : config.logging.appenderFlags.file = true → config.logging.file.1 ≠ []
  certificate : config.ssl.certificate.1 ≠ []
  private_key : config.ssl.privateKey.1 ≠ []
  route_count : config.routes.length ≤ 16
  header_count : config.securityHeaders.headers.length ≤ 10
  route_header_count : ∀ route ∈ config.routes, route.securityHeaders.headers.length ≤ 10
  served : ∀ route ∈ config.routes, route.Served

/-! ## Fields -/

/-- A number that neither of the two tests refuses. -/
theorem within_of_not_outside {α : Type} [LinearOrder α] {min max value : α}
    (h : ¬ (value < min ∨ max < value)) : Within min max value := by
  obtain ⟨hlow, hhigh⟩ := not_or.mp h
  exact ⟨not_lt.mp hlow, not_lt.mp hhigh⟩

variable {min max value : Int} {node root : Yaml} {sectionName key : String}
  {config config' : ServerConfig} {view : View}

/-- `parse_int_in_range` returns numbers within its limits. -/
theorem parse_int_in_range_within {text : Bytes} (h : parseIntInRange min max text = some value) :
    Within min max value := by
  rw [parseIntInRange] at h
  split at h
  · split at h
    · cases h
    · split at h
      · cases h
      · rename_i hrange
        cases h
        exact within_of_not_outside hrange
  · cases h

/-- `parse_size_in_range` returns numbers within its limits. -/
theorem parse_size_in_range_within {min max value : Nat} {text : Bytes}
    (h : parseSizeInRange min max text = some value) : Within min max value := by
  rw [parseSizeInRange] at h
  split at h
  · split at h
    · cases h
    · dsimp only at h
      split at h
      · cases h
      · rename_i hrange
        cases h
        exact within_of_not_outside hrange
  · cases h

/-- So does `get_yaml_int_in_range`. -/
theorem get_yaml_int_within {field : String}
    (h : getYamlIntInRange min max field node = .ok value) : Within min max value := by
  cases node with
  | scalar text =>
      rw [getYamlIntInRange] at h
      split at h
      · rename_i value' hvalue
        cases h
        exact parse_int_in_range_within hvalue
      · cases h
  | sequence items => cases h
  | mapping pairs => cases h

/-- So does `get_yaml_size_in_range`. -/
theorem get_yaml_size_within {min max value : Nat} {field : String}
    (h : getYamlSizeInRange min max field node = .ok value) : Within min max value := by
  cases node with
  | scalar text =>
      rw [getYamlSizeInRange] at h
      split at h
      · rename_i value' hvalue
        cases h
        exact parse_size_in_range_within hvalue
      · cases h
  | sequence items => cases h
  | mapping pairs => cases h

/-- A field keeps a property that its value has and that its reader establishes. -/
theorem parse_field_of {α : Type} {P : α → Prop} {read : String → Yaml → Except ConfigError α}
    {current value : α} (hcurrent : P current)
    (hread : ∀ {field node value}, read field node = .ok value → P value)
    (h : parseField sectionName key read node current = .ok value) : P value := by
  rw [parseField] at h
  split at h
  · cases h
    exact hcurrent
  · exact hread h

/-- A number that is read or keeps its value, which was within the limits. -/
theorem parse_int_field {current : Int} (hcurrent : Within min max current)
    (h : parseField sectionName key (getYamlIntInRange min max) node current = .ok value) :
    Within min max value :=
  parse_field_of hcurrent get_yaml_int_within h

/-- A size that is read or keeps its value, which was within the limits. -/
theorem parse_size_field {min max : Nat} {current value : Nat} (hcurrent : Within min max current)
    (h : parseField sectionName key (getYamlSizeInRange min max) node current = .ok value) :
    Within min max value :=
  parse_field_of hcurrent get_yaml_size_within h

/-! ## Sections -/

/-- All defaults pass the checks of their own fields. -/
theorem defaults_in_range : setConfigDefaults.InRange := by
  constructor <;> exact ⟨by decide, by decide⟩

/-- The `server` section keeps all numbers within their limits. -/
theorem parse_server_section_in_range (hrange : config.InRange)
    (h : parseServerSection config node = .ok config') : config'.InRange := by
  simp only [parseServerSection, bind_eq_ok] at h
  obtain ⟨_, _, port, hport, connections, hconnections, shutdown, hshutdown, request, hrequest,
    handshake, hhandshake, limit, hlimit, level, _, h⟩ := h
  cases h
  exact
    { hrange with
      port := parse_int_field hrange.port hport
      maxConnections := parse_int_field hrange.maxConnections hconnections
      shutdownTimeoutSeconds := parse_int_field hrange.shutdownTimeoutSeconds hshutdown
      requestTimeoutMs := parse_int_field hrange.requestTimeoutMs hrequest
      tlsHandshakeTimeoutMs := parse_int_field hrange.tlsHandshakeTimeoutMs hhandshake
      perIpConnectionLimit := parse_int_field hrange.perIpConnectionLimit hlimit }

/-- So does the `logging` section. -/
theorem parse_logging_section_in_range (hrange : config.InRange)
    (h : parseLoggingSection config node = .ok config') : config'.InRange := by
  simp only [parseLoggingSection, bind_eq_ok] at h
  obtain ⟨_, _, file, _, early, hearly, level, _, format, _, size, hsize, rollover, hrollover,
    daily, _, flags, _, h⟩ := h
  cases h
  exact
    { hrange with
      bufferSize := parse_size_field (parse_size_field hrange.bufferSize hearly) hsize
      rolloverSize := parse_size_field hrange.rolloverSize hrollover }

/-- So does the `ssl` section. -/
theorem parse_ssl_section_in_range (hrange : config.InRange)
    (h : parseSslSection config node = .ok config') : config'.InRange := by
  simp only [parseSslSection, bind_eq_ok] at h
  obtain ⟨_, _, certificate, _, key, _, cache, hcache, timeout, htimeout, ticket, _, buffer,
    hbuffer, partialWrite, _, release, _, h⟩ := h
  cases h
  exact
    { hrange with
      sessionCacheSize := parse_int_field hrange.sessionCacheSize hcache
      sessionTimeout := parse_int_field hrange.sessionTimeout htimeout
      readBufferSize := parse_int_field hrange.readBufferSize hbuffer }

/-- So does the `http2` section. -/
theorem parse_http2_section_in_range (hrange : config.InRange)
    (h : parseHttp2Section config node = .ok config') : config'.InRange := by
  simp only [parseHttp2Section, bind_eq_ok] at h
  obtain ⟨_, _, keepalive, hkeepalive, requests, hrequests, streams, hstreams, h⟩ := h
  cases h
  exact
    { hrange with
      keepaliveTimeout := parse_int_field hrange.keepaliveTimeout hkeepalive
      maxRequestsPerConnection := parse_int_field hrange.maxRequestsPerConnection hrequests
      maxConcurrentStreams := parse_int_field hrange.maxConcurrentStreams hstreams }

/-- So do the routes. -/
theorem parse_routes_section_in_range (hrange : config.InRange)
    (h : parseRoutesSection view config node = .ok config') : config'.InRange := by
  cases node with
  | scalar text => cases h
  | mapping pairs => cases h
  | sequence items =>
      rw [parseRoutesSection, bind_eq_ok] at h
      obtain ⟨routes, _, h⟩ := h
      cases h
      exact { hrange with }

/-- A section that is there is parsed, and one that is missing changes nothing. -/
theorem parse_section_in_range {parse : ServerConfig → Yaml → Except ConfigError ServerConfig}
    (hrange : config.InRange)
    (hparse : ∀ {node}, parse config node = .ok config' → config'.InRange)
    (h : parseSection root key parse config = .ok config') : config'.InRange := by
  rw [parseSection] at h
  split at h
  · cases h
    exact hrange
  · exact hparse h

/-- After all stages every number is within its limits. -/
theorem Stages.in_range (stages : Stages view root config) : config.InRange := by
  have hserver := parse_section_in_range defaults_in_range
    (parse_server_section_in_range defaults_in_range) stages.server_eq
  have hlogging := parse_section_in_range hserver (parse_logging_section_in_range hserver)
    stages.logging_eq
  have hssl := parse_section_in_range hlogging (parse_ssl_section_in_range hlogging)
    stages.ssl_eq
  have hhttp2 := parse_section_in_range hssl (parse_http2_section_in_range hssl)
    stages.http2_eq
  have hrouted := parse_section_in_range hhttp2 (parse_routes_section_in_range hhttp2)
    stages.routed_eq
  have hconfig := stages.config_eq
  generalize stages.routed = routed at hrouted hconfig
  rw [hconfig]
  exact { hrouted with }

/-! ## Routes -/

/-- The array of routes is never overrun. -/
theorem fold_routes_length {items : List Yaml} {routes routes' : List Route}
    (hroutes : routes.length ≤ maxRoutes) (h : items.foldlM (addRoute view) routes = .ok routes') :
    routes'.length ≤ maxRoutes := by
  induction items generalizing routes with
  | nil =>
      cases h
      exact hroutes
  | cons item items ih =>
      obtain ⟨_, route, _, hroute, h⟩ := fold_routes_cons h
      refine ih ?_ h
      rw [parseRouteEntry] at hroute
      split at hroute
      · cases hroute
      · rename_i hroom
        rw [List.length_append, List.length_singleton]
        exact Nat.lt_of_not_le hroom

/-- What the loop of `validate_routes` tests. -/
theorem served_of_valid {route : Route} (h : Config.validateRoute route.toRoute = true) :
    route.Served := by
  rw [Config.validateRoute, Bool.and_eq_true] at h
  obtain ⟨hpath, h⟩ := h
  refine ⟨of_decide_eq_true hpath, ?_⟩
  split at h
  · rename_i hstatic
    exact Or.inl ⟨hstatic, of_decide_eq_true h⟩
  · split at h
    · rename_i hproxy
      exact Or.inr ⟨hproxy, Option.isSome_iff_exists.mp h⟩
    · cases h

/-- The stages of a load establish everything the server relies on. -/
theorem Stages.valid_config (stages : Stages view root config) : config.Valid := by
  obtain ⟨⟨hcertificate, hkey⟩, hany, hfile, hroutes⟩ := validate_config_ok stages.valid
  have hcount : config.routes.length ≤ maxRoutes := by
    rcases stages.routes_cases with ⟨-, hnone⟩ | ⟨items, -, hfold⟩
    · rw [hnone]
      exact Nat.zero_le _
    · exact fold_routes_length (Nat.zero_le _) hfold
  exact
    { ranges := stages.in_range
      appender := (Bool.or_eq_true _ _).mp hany
      file_name := hfile
      certificate := hcertificate
      private_key := hkey
      route_count := hcount
      header_count := config.securityHeaders.count_le
      route_header_count := fun route _ => route.securityHeaders.count_le
      served := fun route hroute => served_of_valid (hroutes route hroute) }

/-- Every document that is accepted gives a configuration the server can rely on. -/
theorem load_config_valid (view : View) (root : Yaml) (config : ServerConfig)
    (h : loadConfig view root = .ok config) : config.Valid := by
  obtain ⟨stages⟩ := load_config_stages h
  exact stages.valid_config

/-- A document with a key in every section and a route of each kind. -/
def smallSettings : Yaml :=
  .record
    [("server", .record [("port", .text "9443")]),
      ("logging", .record [("buffer_size", .text "1024"),
        ("appender_flags", .sequence [.text "console"])]),
      ("ssl", .record [("session_timeout", .text "120")]),
      ("http2", .record [("max_concurrent_streams", .text "50")]),
      ("routes", .sequence
        [.record [("path", .text "/files"), ("technology", .text "static"),
            ("document_root", .text "/srv")],
          .record [("path", .text "/api"), ("technology", .text "reverse_proxy"),
            ("backend", .text "127.0.0.1:9000")]])]

/-- The document loads; it sets the port and leaves the log level alone. -/
theorem small_settings_load :
    ∃ config, loadConfig exampleView smallSettings = .ok config ∧
      config.port = 9443 ∧ config.logLevel.1 = ascii "info" := by
  refine ⟨_, rfl, ?_, ?_⟩
  all_goals decide +kernel

/-- A small document with a port of its own. -/
theorem small_settings_valid :
    ∃ config, loadConfig exampleView smallSettings = .ok config ∧
      config.port = 9443 ∧ config.Valid := by
  obtain ⟨config, hload, hport, _⟩ := small_settings_load
  exact ⟨config, hload, hport, load_config_valid _ _ _ hload⟩

end Emme.Settings
