import Emme.Config.Load
import Emme.Log.Format

/-!
# All settings of the server

`load_config` with every section. A failing load reports the field and what was expected of it; the
line numbers in the messages are left out. A number that a parser keeps within a range of its `int`
is an integer here, one that it stores unchecked an `Int32`. The routes and headers are those of
`Emme.Config.Load` (`load_config_site`).
-/

namespace Emme.Settings

open CString FileTree Emme.Http Emme.Router Emme.Config Emme.Log

/-- What is printed when a load fails: the field, and what is wrong with it. -/
structure ConfigError where
  field : String
  problem : String
  deriving DecidableEq, Repr

/-! ## Reading a node -/

/-- `get_yaml_string`. -/
def getYamlString (size : Nat) (field : String) : Yaml → Except ConfigError (CText size)
  | .scalar text =>
      if h : text.length < size then .ok ⟨text, h⟩ else .error ⟨field, "value too long"⟩
  | _ => .error ⟨field, "expected a scalar string"⟩

/-- `parse_int_in_range`. -/
def parseIntInRange (min max : Int) (text : Bytes) : Option Int :=
  match scanDecimal text with
  | some (value, []) =>
      -- beyond a `long`, `strtol` sets `errno`
      if value < -2 ^ 63 ∨ 2 ^ 63 - 1 < value then none
      else if value < min ∨ max < value then none
      else some value
  | _ => none

/-- `parse_size_in_range`. -/
def parseSizeInRange (min max : Nat) (text : Bytes) : Option Nat :=
  match scanDecimal text with
  | some (value, []) =>
      if 2 ^ 64 ≤ value.natAbs then none
      else
        -- `strtoull` negates a number with a minus sign in the unsigned type
        let value := (value % 2 ^ 64).toNat
        if value < min ∨ max < value then none else some value
  | _ => none

/-- What the two range readers say about a number out of range. -/
def rangeProblem (min max : String) : String :=
  "expected integer in range [" ++ min ++ ", " ++ max ++ "]"

/-- `get_yaml_int_in_range`. -/
def getYamlIntInRange (min max : Int) (field : String) : Yaml → Except ConfigError Int
  | .scalar text =>
      match parseIntInRange min max text with
      | some value => .ok value
      | none => .error ⟨field, rangeProblem (toString min) (toString max)⟩
  | _ => .error ⟨field, "expected integer scalar"⟩

/-- `get_yaml_size_in_range`. -/
def getYamlSizeInRange (min max : Nat) (field : String) : Yaml → Except ConfigError Nat
  | .scalar text =>
      match parseSizeInRange min max text with
      | some value => .ok value
      | none => .error ⟨field, rangeProblem (toString min) (toString max)⟩
  | _ => .error ⟨field, "expected integer scalar"⟩

/-- `get_yaml_bool` where its failure ends the load. -/
def requireYamlBool (field : String) : Yaml → Except ConfigError Bool
  | .scalar text =>
      match getYamlBool (.scalar text) with
      | some value => .ok value
      | none => .error ⟨field, "expected true/false"⟩
  | _ => .error ⟨field, "expected boolean scalar"⟩

/-- `parse_log_level`. -/
def parseLogLevel (value : Bytes) : Option LogLevel :=
  if strcasecmpEq value (ascii "debug") then some .debug
  else if strcasecmpEq value (ascii "info") then some .info
  else if strcasecmpEq value (ascii "warn") then some .warn
  else if strcasecmpEq value (ascii "error") then some .error
  else none

/-- `parse_log_format`. -/
def parseLogFormat (value : Bytes) : Option LogFormat :=
  if strcasecmpEq value (ascii "plain") then some .plain
  else if strcasecmpEq value (ascii "json") then some .json
  else none

/-- A name from a fixed list, read into a buffer of 16 bytes. -/
def getName {α : Type} (parse : Bytes → Option α) (problem field : String) (node : Yaml) :
    Except ConfigError α := do
  let text ← getYamlString 16 field node
  match parse text.1 with
  | some value => .ok value
  | none => .error ⟨field, problem⟩

/-- The bits of `appender_flags`. -/
structure Appenders where
  file : Bool
  console : Bool
  deriving DecidableEq, Repr

/-- `appender_flags != 0`. -/
def Appenders.any (flags : Appenders) : Bool := flags.file || flags.console

/-- The body of the loop of `parse_appender_flags`. -/
def addAppender (field : String) (flags : Appenders) : Yaml → Except ConfigError Appenders
  | .scalar flag =>
      if strcasecmpEq flag (ascii "file") then .ok { flags with file := true }
      else if strcasecmpEq flag (ascii "console") then .ok { flags with console := true }
      else .error ⟨field, "expected 'file' or 'console'"⟩
  | _ => .error ⟨field, "entries must be scalars"⟩

/-- `parse_appender_flags`. -/
def parseAppenderFlags (field : String) : Yaml → Except ConfigError Appenders
  | .sequence items => do
      let flags ← items.foldlM (addAppender field) ⟨false, false⟩
      if flags.any then .ok flags else .error ⟨field, "at least one appender required"⟩
  | _ => .error ⟨field, "expected sequence"⟩

/-! ## The configuration -/

/-- `LoggingConfig`. -/
structure LoggingConfig where
  file : CText 256
  level : LogLevel
  format : LogFormat
  bufferSize : Nat
  rolloverSize : Nat
  rolloverDaily : Bool
  appenderFlags : Appenders
  deriving DecidableEq

/-- `SSLConfig`. -/
structure SSLConfig where
  certificate : CText 256
  privateKey : CText 256
  sessionTicketKey : CText 256
  sessionCacheSize : Int
  sessionTimeout : Int
  readBufferSize : Int
  enablePartialWrite : Bool
  releaseBuffers : Bool
  deriving DecidableEq

/-- `HTTP2Config`. -/
structure HTTP2Config where
  keepaliveTimeout : Int
  maxRequestsPerConnection : Int
  maxConcurrentStreams : Int
  deriving DecidableEq

/-- `HealthCheckConfig`. -/
structure HealthCheckConfig where
  enabled : Bool
  path : CText 128
  intervalSeconds : Int32
  timeoutSeconds : Int32
  unhealthyThreshold : Int32
  healthyThreshold : Int32
  deriving DecidableEq

/-- `ConnectionPoolConfig`. -/
structure ConnectionPoolConfig where
  size : Int32
  idleTimeoutSeconds : Int32
  deriving DecidableEq

/-- `CircuitBreakerConfig`. -/
structure CircuitBreakerConfig where
  enabled : Bool
  failureThreshold : Int32
  recoveryTimeoutSeconds : Int32
  deriving DecidableEq

/-- `Route` without the pool that is created for it later. -/
structure Route extends SiteRoute where
  http2Enabled : Bool
  tlsEnabled : Bool
  tlsVerify : Bool
  healthCheck : HealthCheckConfig
  connectionPool : ConnectionPoolConfig
  circuitBreaker : CircuitBreakerConfig
  deriving DecidableEq

/-- `ServerConfig`, with the first `route_count` routes. -/
structure ServerConfig where
  port : Int
  maxConnections : Int
  shutdownTimeoutSeconds : Int
  requestTimeoutMs : Int
  tlsHandshakeTimeoutMs : Int
  perIpConnectionLimit : Int
  logLevel : CText 16
  routes : List Route
  logging : LoggingConfig
  ssl : SSLConfig
  http2 : HTTP2Config
  securityHeaders : SecurityHeadersConfig
  deriving DecidableEq

/-! The buffers of the source have room for the terminator. -/

/-- The size of a path buffer. -/
theorem path_size_pos : 0 < 256 := by decide

/-- The size of the buffer for a health check's path. -/
theorem health_path_size_pos : 0 < 128 := by decide

/-- The size of the buffer for a backend address. -/
theorem backend_size_pos : 0 < 64 := by decide

/-- The size of the buffer for a log level. -/
theorem log_level_size_pos : 0 < 16 := by decide

/-- `set_config_defaults`. -/
def setConfigDefaults : ServerConfig where
  port := 8443
  maxConnections := 100
  shutdownTimeoutSeconds := 30
  requestTimeoutMs := 30000
  tlsHandshakeTimeoutMs := 10000
  perIpConnectionLimit := 10
  logLevel := ⟨ascii "info", by decide⟩
  routes := []
  logging :=
    { file := ⟨ascii "emme.log", by decide⟩
      level := .debug
      format := .plain
      bufferSize := 16384
      rolloverSize := 10485760
      rolloverDaily := true
      appenderFlags := ⟨true, true⟩ }
  ssl :=
    { certificate := ⟨ascii "certs/dev.crt", by decide⟩
      privateKey := ⟨ascii "certs/dev.key", by decide⟩
      sessionTicketKey := .empty path_size_pos
      sessionCacheSize := 100000
      sessionTimeout := 300
      readBufferSize := 32768
      enablePartialWrite := true
      releaseBuffers := true }
  http2 :=
    { keepaliveTimeout := 60
      maxRequestsPerConnection := 1000
      maxConcurrentStreams := 100 }
  securityHeaders := ⟨true, [], Nat.zero_le _⟩

/-! ## The sections -/

/-- `PARSE_FIELD`, `PARSE_STRING` and `PARSE_BOOL`: a field that keeps its value if the section
does not have its key. -/
def parseField {α : Type} (sectionName key : String)
    (read : String → Yaml → Except ConfigError α) (node : Yaml) (current : α) :
    Except ConfigError α :=
  match findYamlNode node (ascii key) with
  | none => .ok current
  | some field => read (sectionName ++ "." ++ key) field

/-- The test at the start of a section. -/
def requireMapping (sectionName : String) : Yaml → Except ConfigError Unit
  | .mapping _ => .ok ()
  | _ => .error ⟨sectionName, "expected mapping"⟩

/-- `parse_server_section`. -/
def parseServerSection (config : ServerConfig) (node : Yaml) :
    Except ConfigError ServerConfig := do
  requireMapping "server" node
  let port ← parseField "server" "port" (getYamlIntInRange 1 65535) node config.port
  let maxConnections ← parseField "server" "max_connections" (getYamlIntInRange 1 1000000) node
    config.maxConnections
  let shutdownTimeoutSeconds ← parseField "server" "shutdown_timeout_seconds"
    (getYamlIntInRange 1 300) node config.shutdownTimeoutSeconds
  let requestTimeoutMs ← parseField "server" "request_timeout_ms"
    (getYamlIntInRange 1000 300000) node config.requestTimeoutMs
  let tlsHandshakeTimeoutMs ← parseField "server" "tls_handshake_timeout_ms"
    (getYamlIntInRange 1000 60000) node config.tlsHandshakeTimeoutMs
  let perIpConnectionLimit ← parseField "server" "per_ip_connection_limit"
    (getYamlIntInRange 1 10000) node config.perIpConnectionLimit
  let logLevel ← parseField "server" "log_level" (getYamlString 16) node config.logLevel
  .ok { config with
    port, maxConnections, shutdownTimeoutSeconds, requestTimeoutMs, tlsHandshakeTimeoutMs
    perIpConnectionLimit, logLevel }

/-- `parse_logging_section`, which reads `buffer_size` twice. -/
def parseLoggingSection (config : ServerConfig) (node : Yaml) :
    Except ConfigError ServerConfig := do
  requireMapping "logging" node
  let file ← parseField "logging" "file" (getYamlString 256) node config.logging.file
  let bufferSize ← parseField "logging" "buffer_size" (getYamlSizeInRange 1 1048576) node
    config.logging.bufferSize
  let level ← parseField "logging" "level"
    (getName parseLogLevel "expected debug/info/warn/error") node config.logging.level
  let format ← parseField "logging" "format" (getName parseLogFormat "expected plain/json") node
    config.logging.format
  let bufferSize ← parseField "logging" "buffer_size" (getYamlSizeInRange 1 1048576) node
    bufferSize
  let rolloverSize ← parseField "logging" "rollover_size" (getYamlSizeInRange 0 1099511627776)
    node config.logging.rolloverSize
  let rolloverDaily ← parseField "logging" "rollover_daily" requireYamlBool node
    config.logging.rolloverDaily
  let appenderFlags ← parseField "logging" "appender_flags" parseAppenderFlags node
    config.logging.appenderFlags
  .ok { config with
    logging := { file, level, format, bufferSize, rolloverSize, rolloverDaily, appenderFlags } }

/-- `parse_ssl_section`. -/
def parseSslSection (config : ServerConfig) (node : Yaml) : Except ConfigError ServerConfig := do
  requireMapping "ssl" node
  let certificate ← parseField "ssl" "certificate" (getYamlString 256) node
    config.ssl.certificate
  let privateKey ← parseField "ssl" "private_key" (getYamlString 256) node config.ssl.privateKey
  let sessionCacheSize ← parseField "ssl" "session_cache_size"
    (getYamlIntInRange 1000 1000000) node config.ssl.sessionCacheSize
  let sessionTimeout ← parseField "ssl" "session_timeout" (getYamlIntInRange 60 3600) node
    config.ssl.sessionTimeout
  let sessionTicketKey ← parseField "ssl" "session_ticket_key" (getYamlString 256) node
    config.ssl.sessionTicketKey
  let readBufferSize ← parseField "ssl" "read_buffer_size" (getYamlIntInRange 4096 65536) node
    config.ssl.readBufferSize
  let enablePartialWrite ← parseField "ssl" "enable_partial_write" requireYamlBool node
    config.ssl.enablePartialWrite
  let releaseBuffers ← parseField "ssl" "release_buffers" requireYamlBool node
    config.ssl.releaseBuffers
  .ok { config with
    ssl :=
      { certificate, privateKey, sessionTicketKey, sessionCacheSize, sessionTimeout
        readBufferSize, enablePartialWrite, releaseBuffers } }

/-- `parse_http2_section`. -/
def parseHttp2Section (config : ServerConfig) (node : Yaml) :
    Except ConfigError ServerConfig := do
  requireMapping "http2" node
  let keepaliveTimeout ← parseField "http2" "keepalive_timeout" (getYamlIntInRange 10 300) node
    config.http2.keepaliveTimeout
  let maxRequestsPerConnection ← parseField "http2" "max_requests_per_connection"
    (getYamlIntInRange 1 100000) node config.http2.maxRequestsPerConnection
  let maxConcurrentStreams ← parseField "http2" "max_concurrent_streams"
    (getYamlIntInRange 1 1000) node config.http2.maxConcurrentStreams
  .ok { config with
    http2 := { keepaliveTimeout, maxRequestsPerConnection, maxConcurrentStreams } }

/-! ## Routes -/

/-- What `get_yaml_string` leaves in a buffer whether or not it succeeds. -/
def overwriteText {size : Nat} (hsize : 0 < size) (current : CText size) :
    Option Yaml → CText size
  | some (.scalar text) => leaveText hsize (some (.scalar text))
  | _ => current

/-- `parse_health_check_config`; a section that is no mapping leaves the record zeroed. -/
def parseHealthCheckConfig : Option Yaml → HealthCheckConfig
  | some (.mapping pairs) =>
      { enabled := getField getYamlBool (.mapping pairs) (ascii "enabled") false
        path := overwriteText health_path_size_pos ⟨ascii "/health", by decide⟩
          (findYamlNode (.mapping pairs) (ascii "path"))
        intervalSeconds := getField getYamlInt (.mapping pairs) (ascii "interval_seconds") 10
        timeoutSeconds := getField getYamlInt (.mapping pairs) (ascii "timeout_seconds") 5
        unhealthyThreshold :=
          getField getYamlInt (.mapping pairs) (ascii "unhealthy_threshold") 3
        healthyThreshold := getField getYamlInt (.mapping pairs) (ascii "healthy_threshold") 2 }
  | _ => ⟨false, .empty health_path_size_pos, 0, 0, 0, 0⟩

/-- `parse_connection_pool_config`. -/
def parseConnectionPoolConfig : Option Yaml → ConnectionPoolConfig
  | some (.mapping pairs) =>
      { size := getField getYamlInt (.mapping pairs) (ascii "size") 10
        idleTimeoutSeconds :=
          getField getYamlInt (.mapping pairs) (ascii "idle_timeout_seconds") 60 }
  | _ => ⟨10, 60⟩

/-- `parse_circuit_breaker_config`. -/
def parseCircuitBreakerConfig : Option Yaml → CircuitBreakerConfig
  | some (.mapping pairs) =>
      { enabled := getField getYamlBool (.mapping pairs) (ascii "enabled") false
        failureThreshold := getField getYamlInt (.mapping pairs) (ascii "failure_threshold") 5
        recoveryTimeoutSeconds :=
          getField getYamlInt (.mapping pairs) (ascii "recovery_timeout_seconds") 30 }
  | _ => ⟨false, 5, 30⟩

/-- A field that a route must have. -/
def requireText (size : Nat) (node : Yaml) (key : String) : Except ConfigError (CText size) :=
  match findYamlNode node (ascii key) with
  | none => .error ⟨"route", "missing or invalid '" ++ key ++ "'"⟩
  | some field => getYamlString size ("routes[]." ++ key) field

/-- A field whose absence leaves the buffer empty. -/
def optionalText {size : Nat} (hsize : 0 < size) (node : Yaml) (key : String) :
    Except ConfigError (CText size) :=
  match findYamlNode node (ascii key) with
  | none => .ok (.empty hsize)
  | some field => getYamlString size ("routes[]." ++ key) field

/-- `parse_route_entry`, for the route after `count` others. -/
def parseRouteEntry (view : View) (count : Nat) (node : Yaml) : Except ConfigError Route :=
  if maxRoutes ≤ count then .error ⟨"routes", "maximum supported is 16"⟩
  else do
    let path ← requireText 128 node "path"
    let technology ← requireText 32 node "technology"
    let documentRoot ← optionalText path_size_pos node "document_root"
    let backend ← optionalText backend_size_pos node "backend"
    let real := resolveDocumentRoot view documentRoot.1
    .ok
      { path := path.1, technology := technology.1, documentRoot := documentRoot.1
        documentRootReal := real.1, documentRootResolved := real.2, backend := backend.1
        http2Enabled := getField getYamlBool node (ascii "http2_enabled") false
        tlsEnabled := getField getYamlBool node (ascii "tls_enabled") true
        tlsVerify := getField getYamlBool node (ascii "tls_verify") false
        healthCheck := parseHealthCheckConfig (findYamlNode node (ascii "health_check"))
        connectionPool :=
          parseConnectionPoolConfig (findYamlNode node (ascii "connection_pool"))
        circuitBreaker :=
          parseCircuitBreakerConfig (findYamlNode node (ascii "circuit_breaker"))
        securityHeaders :=
          parseSecurityHeadersConfig (findYamlNode node (ascii "security_headers"))
        cors := parseCorsConfig (findYamlNode node (ascii "cors"))
        inheritGlobalHeaders :=
          getField getYamlBool node (ascii "inherit_global_headers") true }

/-- The body of the loop of `parse_routes_section`. -/
def addRoute (view : View) (routes : List Route) : Yaml → Except ConfigError (List Route)
  | .mapping pairs => do
      let route ← parseRouteEntry view routes.length (.mapping pairs)
      .ok (routes ++ [route])
  | _ => .error ⟨"route entry", "expected mapping"⟩

/-- `parse_routes_section`. -/
def parseRoutesSection (view : View) (config : ServerConfig) :
    Yaml → Except ConfigError ServerConfig
  | .sequence items => do
      let routes ← items.foldlM (addRoute view) config.routes
      .ok { config with routes }
  | _ => .error ⟨"routes", "expected sequence"⟩

/-! ## Validation -/

/-- The body of the loop of `validate_routes`. -/
def validateRoute (i : Nat) (route : Config.Route) : Except ConfigError Unit :=
  let field (name : String) := "routes[" ++ toString i ++ "]." ++ name
  if route.path.head? ≠ some slash then .error ⟨field "path", "must start with '/'"⟩
  else if route.technology = [] then .error ⟨field "technology", "required"⟩
  else if route.technology = ascii "static" then
    if route.documentRoot = [] then
      .error ⟨field "document_root", "required for static route"⟩
    else .ok ()
  else if route.technology = ascii "reverse_proxy" then
    if parseBackendUrl route.backend = none then
      .error ⟨field "backend", "expected host:port"⟩
    else .ok ()
  else .error ⟨field "technology", "unsupported"⟩

/-- `validate_routes` from route `i` on. -/
def validateRoutes : Nat → List Route → Except ConfigError Unit
  | _, [] => .ok ()
  | i, route :: routes => do
      validateRoute i route.toRoute
      validateRoutes (i + 1) routes

/-- `validate_config`. -/
def validateConfig (config : ServerConfig) : Except ConfigError Unit :=
  if config.ssl.certificate.1 = [] ∨ config.ssl.privateKey.1 = [] then
    .error ⟨"SSL config", "certificate and private_key are required"⟩
  else if config.logging.appenderFlags.any = false then
    .error ⟨"logging config", "at least one appender must be enabled"⟩
  else if config.logging.appenderFlags.file = true ∧ config.logging.file.1 = [] then
    .error ⟨"logging config", "file appender requires 'logging.file'"⟩
  else validateRoutes 0 config.routes

/-- A section that is parsed if the document has it. -/
def parseSection (root : Yaml) (key : String)
    (parse : ServerConfig → Yaml → Except ConfigError ServerConfig) (config : ServerConfig) :
    Except ConfigError ServerConfig :=
  match findYamlNode root (ascii key) with
  | none => .ok config
  | some node => parse config node

/-- `load_config` on a document. -/
def loadConfig (view : View) (root : Yaml) : Except ConfigError ServerConfig := do
  requireMapping "YAML document" root
  let config ← parseSection root "server" parseServerSection setConfigDefaults
  let config ← parseSection root "logging" parseLoggingSection config
  let config ← parseSection root "ssl" parseSslSection config
  let config ← parseSection root "http2" parseHttp2Section config
  let config ← parseSection root "routes" (parseRoutesSection view) config
  let config :=
    { config with
      securityHeaders :=
        parseSecurityHeadersConfig (findYamlNode root (ascii "security_headers")) }
  validateConfig config
  .ok config

/-! ## With the routes and headers only -/

/-- A sequence of two fallible steps succeeds if both do. -/
theorem bind_eq_ok {ε α β : Type} {first : Except ε α} {rest : α → Except ε β} {result : β} :
    (first >>= rest) = .ok result ↔ ∃ value, first = .ok value ∧ rest value = .ok result := by
  cases first with
  | error failure =>
      constructor
      · intro h
        cases h
      · rintro ⟨value, hvalue, -⟩
        cases hvalue
  | ok value =>
      constructor
      · exact fun h => ⟨value, rfl, h⟩
      · rintro ⟨value', hvalue, h⟩
        cases hvalue
        exact h

/-- The part of the configuration that `Emme.Config.loadConfig` loads. -/
def ServerConfig.site (config : ServerConfig) : SiteConfig :=
  ⟨config.routes.map Route.toSiteRoute, config.securityHeaders⟩

variable {size : Nat} {node root : Yaml} {key : String} {view : View} {routes : List Route}
  {config config' : ServerConfig} {text : CText size}

/-- `get_yaml_string` returns the text of the node. -/
theorem get_yaml_string_ok {field : String} (h : getYamlString size field node = .ok text) :
    getText size node = some text := by
  cases node with
  | scalar value =>
      rw [getYamlString] at h
      rw [getText]
      split at h
      · rename_i hfits
        rw [dif_pos hfits]
        cases h
        rfl
      · cases h
  | sequence items => cases h
  | mapping pairs => cases h

/-- A required text is that of the node under the key. -/
theorem require_text_ok (h : requireText size node key = .ok text) :
    (findYamlNode node (ascii key)).bind (getText size) = some text := by
  rw [requireText] at h
  split at h
  · cases h
  · rename_i field hfield
    rw [hfield]
    exact get_yaml_string_ok h

/-- An optional text is that of the node under the key, or empty. -/
theorem optional_text_ok {hsize : 0 < size} (h : optionalText hsize node key = .ok text) :
    getOptionalText hsize (findYamlNode node (ascii key)) = some text := by
  rw [optionalText] at h
  split at h
  · rename_i hfield
    rw [hfield]
    cases h
    rfl
  · rename_i field hfield
    rw [hfield]
    exact get_yaml_string_ok h

/-- An entry of the `routes` sequence is the one `parseSiteRoute` makes of it. -/
theorem parse_route_entry_site {count : Nat} {route : Route}
    (h : parseRouteEntry view count node = .ok route) :
    parseSiteRoute view count node = some route.toSiteRoute := by
  rw [parseRouteEntry] at h
  rw [parseSiteRoute]
  split at h
  · cases h
  · rename_i hcount
    rw [if_neg hcount]
    simp only [bind_eq_ok] at h
    obtain ⟨path, hpath, technology, htechnology, documentRoot, hroot, backend, hbackend, h⟩ := h
    cases h
    simp only [require_text_ok hpath, require_text_ok htechnology, optional_text_ok hroot,
      optional_text_ok hbackend, Option.bind_eq_bind, Option.bind_some]

/-- The loop over the entries takes a mapping, parses it and goes on with one route more. -/
theorem fold_routes_cons {item : Yaml} {items : List Yaml} {routes' : List Route}
    (h : (item :: items).foldlM (addRoute view) routes = .ok routes') :
    ∃ pairs route, item = .mapping pairs ∧ parseRouteEntry view routes.length item = .ok route ∧
      items.foldlM (addRoute view) (routes ++ [route]) = .ok routes' := by
  rw [List.foldlM_cons, bind_eq_ok] at h
  obtain ⟨longer, hitem, h⟩ := h
  cases item with
  | scalar text => cases hitem
  | sequence inner => cases hitem
  | mapping pairs =>
      rw [addRoute, bind_eq_ok] at hitem
      obtain ⟨route, hroute, hlonger⟩ := hitem
      cases hlonger
      exact ⟨pairs, route, rfl, hroute, h⟩

/-- The loop over the routes, from any routes loaded so far. -/
theorem fold_routes_site {items : List Yaml} {routes' : List Route}
    (h : items.foldlM (addRoute view) routes = .ok routes') :
    items.foldlM (addSiteRoute view) (routes.map Route.toSiteRoute) =
      some (routes'.map Route.toSiteRoute) := by
  induction items generalizing routes with
  | nil =>
      cases h
      rfl
  | cons item items ih =>
      obtain ⟨pairs, route, rfl, hroute, h⟩ := fold_routes_cons h
      have hsite : addSiteRoute view (routes.map Route.toSiteRoute) (.mapping pairs) =
          some ((routes ++ [route]).map Route.toSiteRoute) := by
        rw [addSiteRoute, List.length_map, parse_route_entry_site hroute, Option.map_some,
          List.map_append, List.map_singleton]
      rw [List.foldlM_cons, hsite]
      exact ih h

/-- A route that passes `validate_routes` here passes it there. -/
theorem validate_route_ok {i : Nat} {route : Config.Route}
    (h : validateRoute i route = .ok ()) : Config.validateRoute route = true := by
  rw [validateRoute] at h
  rw [Config.validateRoute, Bool.and_eq_true]
  split at h
  · cases h
  · rename_i hpath
    refine ⟨decide_eq_true (not_not.mp hpath), ?_⟩
    split at h
    · cases h
    · split at h
      · rename_i hstatic
        rw [if_pos hstatic]
        split at h
        · cases h
        · rename_i hroot
          exact decide_eq_true hroot
      · rename_i hstatic
        rw [if_neg hstatic]
        split at h
        · rename_i hproxy
          rw [if_pos hproxy]
          split at h
          · cases h
          · rename_i hbackend
            exact Option.isSome_iff_ne_none.mpr hbackend
        · cases h

/-- Every route has passed `validate_route`. -/
theorem validate_routes_ok {i : Nat} (h : validateRoutes i routes = .ok ()) :
    ∀ route ∈ routes, Config.validateRoute route.toRoute = true := by
  induction routes generalizing i with
  | nil => exact fun route hroute => absurd hroute List.not_mem_nil
  | cons route routes ih =>
      rw [validateRoutes, bind_eq_ok] at h
      obtain ⟨⟨⟩, hroute, hroutes⟩ := h
      intro other hother
      rcases List.mem_cons.mp hother with rfl | hother
      · exact validate_route_ok hroute
      · exact ih hroutes other hother

/-- What an accepted configuration passed in `validate_config`. -/
theorem validate_config_ok (h : validateConfig config = .ok ()) :
    (config.ssl.certificate.1 ≠ [] ∧ config.ssl.privateKey.1 ≠ []) ∧
      config.logging.appenderFlags.any = true ∧
      (config.logging.appenderFlags.file = true → config.logging.file.1 ≠ []) ∧
      ∀ route ∈ config.routes, Config.validateRoute route.toRoute = true := by
  rw [validateConfig] at h
  split at h
  · cases h
  · rename_i hssl
    split at h
    · cases h
    · rename_i hany
      split at h
      · cases h
      · rename_i hfile
        exact ⟨not_or.mp hssl, Bool.not_eq_false _ ▸ hany, not_and.mp hfile,
          validate_routes_ok h⟩

/-! Only the `routes` section changes the routes. -/

/-- The `server` section adds no route. -/
theorem parse_server_section_routes (h : parseServerSection config node = .ok config') :
    config'.routes = config.routes := by
  simp only [parseServerSection, bind_eq_ok] at h
  obtain ⟨_, _, _, _, _, _, _, _, _, _, _, _, _, _, _, _, h⟩ := h
  cases h
  rfl

/-- The `logging` section adds no route. -/
theorem parse_logging_section_routes (h : parseLoggingSection config node = .ok config') :
    config'.routes = config.routes := by
  simp only [parseLoggingSection, bind_eq_ok] at h
  obtain ⟨_, _, _, _, _, _, _, _, _, _, _, _, _, _, _, _, _, _, h⟩ := h
  cases h
  rfl

/-- The `ssl` section adds no route. -/
theorem parse_ssl_section_routes (h : parseSslSection config node = .ok config') :
    config'.routes = config.routes := by
  simp only [parseSslSection, bind_eq_ok] at h
  obtain ⟨_, _, _, _, _, _, _, _, _, _, _, _, _, _, _, _, _, _, h⟩ := h
  cases h
  rfl

/-- The `http2` section adds no route. -/
theorem parse_http2_section_routes (h : parseHttp2Section config node = .ok config') :
    config'.routes = config.routes := by
  simp only [parseHttp2Section, bind_eq_ok] at h
  obtain ⟨_, _, _, _, _, _, _, _, h⟩ := h
  cases h
  rfl

/-- A section keeps what its parser keeps. -/
theorem parse_section_keeps {α : Type}
    {parse : ServerConfig → Yaml → Except ConfigError ServerConfig} {view : ServerConfig → α}
    (hparse : ∀ node, findYamlNode root (ascii key) = some node →
      parse config node = .ok config' → view config' = view config)
    (h : parseSection root key parse config = .ok config') : view config' = view config := by
  rw [parseSection] at h
  split at h
  · cases h
    rfl
  · rename_i node hnode
    exact hparse node hnode h

/-- The stages of a load: the configuration after the four sections before the routes, the one
after the routes, and the validation. -/
structure Stages (view : View) (root : Yaml) (config : ServerConfig) where
  server : ServerConfig
  logging : ServerConfig
  ssl : ServerConfig
  http2 : ServerConfig
  routed : ServerConfig
  root_eq : ∃ pairs, root = .mapping pairs
  server_eq : parseSection root "server" parseServerSection setConfigDefaults = .ok server
  logging_eq : parseSection root "logging" parseLoggingSection server = .ok logging
  ssl_eq : parseSection root "ssl" parseSslSection logging = .ok ssl
  http2_eq : parseSection root "http2" parseHttp2Section ssl = .ok http2
  routed_eq : parseSection root "routes" (parseRoutesSection view) http2 = .ok routed
  config_eq : config =
    { routed with
      securityHeaders :=
        parseSecurityHeadersConfig (findYamlNode root (ascii "security_headers")) }
  valid : validateConfig config = .ok ()

/-- What passes the test is a mapping. -/
theorem require_mapping_ok {name : String} (h : requireMapping name node = .ok ()) :
    ∃ pairs, node = .mapping pairs := by
  cases node with
  | scalar text => cases h
  | sequence items => cases h
  | mapping pairs => exact ⟨pairs, rfl⟩

/-- A load that succeeds went through all stages. -/
theorem load_config_stages (h : loadConfig view root = .ok config) :
    Nonempty (Stages view root config) := by
  simp only [loadConfig, bind_eq_ok] at h
  obtain ⟨⟨⟩, hroot, server, hserver, logging, hlogging, ssl, hssl, http2, hhttp2, routed, hrouted,
    ⟨⟩, hvalid, h⟩ := h
  cases h
  exact ⟨server, logging, ssl, http2, routed, require_mapping_ok hroot, hserver, hlogging, hssl,
    hhttp2, hrouted, rfl, hvalid⟩

/-- No routes are there before the `routes` section is parsed. -/
theorem Stages.no_routes (stages : Stages view root config) : stages.http2.routes = [] := by
  have hhttp2 := parse_section_keeps (fun node _ => parse_http2_section_routes) stages.http2_eq
  have hssl := parse_section_keeps (fun node _ => parse_ssl_section_routes) stages.ssl_eq
  have hlogging := parse_section_keeps (fun node _ => parse_logging_section_routes)
    stages.logging_eq
  have hserver := parse_section_keeps (fun node _ => parse_server_section_routes)
    stages.server_eq
  rw [hhttp2, hssl, hlogging, hserver]
  rfl

/-- The routes are those of the `routes` sequence, if the document has one. -/
theorem Stages.routes_cases (stages : Stages view root config) :
    (findYamlNode root (ascii "routes") = none ∧ config.routes = []) ∨
      ∃ items, findYamlNode root (ascii "routes") = some (.sequence items) ∧
        items.foldlM (addRoute view) [] = .ok config.routes := by
  have hrouted := stages.routed_eq
  have hroutes : config.routes = stages.routed.routes := by
    have heq := congrArg ServerConfig.routes stages.config_eq
    exact heq
  rw [parseSection] at hrouted
  split at hrouted
  · rename_i hnode
    refine Or.inl ⟨hnode, ?_⟩
    rw [hroutes, ← Except.ok.inj hrouted, stages.no_routes]
  · rename_i node hnode
    cases node with
    | scalar text => cases hrouted
    | mapping pairs => cases hrouted
    | sequence items =>
        rw [parseRoutesSection, bind_eq_ok, stages.no_routes] at hrouted
        obtain ⟨routes, hfold, hrouted⟩ := hrouted
        refine Or.inr ⟨items, hnode, ?_⟩
        rw [hroutes, ← Except.ok.inj hrouted]
        exact hfold

/-- An accepted document is accepted by `Emme.Config.loadConfig`, with the same routes and
headers. -/
theorem load_config_site (h : loadConfig view root = .ok config) :
    Config.loadConfig view root = some config.site := by
  obtain ⟨stages⟩ := load_config_stages h
  obtain ⟨pairs, hroot⟩ := stages.root_eq
  have hvalid : (config.routes.map Route.toSiteRoute).all
      (fun route => Config.validateRoute route.toRoute) = true := by
    rw [List.all_map, List.all_eq_true]
    exact (validate_config_ok stages.valid).2.2.2
  have hheaders : config.securityHeaders =
      parseSecurityHeadersConfig (findYamlNode root (ascii "security_headers")) :=
    congrArg ServerConfig.securityHeaders stages.config_eq
  rw [hroot] at hheaders
  rcases stages.routes_cases with ⟨hnode, hroutes⟩ | ⟨items, hnode, hfold⟩
  · rw [hroot] at hnode
    simp only [hroot, Config.loadConfig, hnode, Option.bind_eq_bind, Option.bind_some,
      List.all_nil, if_true, ServerConfig.site, hroutes, List.map_nil, hheaders]
  · rw [hroot] at hnode
    have hsite : parseSiteRoutes view (.sequence items) =
        some (config.routes.map Route.toSiteRoute) := fold_routes_site hfold
    simp only [hroot, Config.loadConfig, hnode, hsite, Option.bind_eq_bind, Option.bind_some,
      hvalid, if_true, ServerConfig.site, hheaders]

end Emme.Settings
