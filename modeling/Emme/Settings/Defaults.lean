import Emme.Settings.Valid

/-!
# Settings the document does not mention

`set_config_defaults` gives every setting a value, and a section without a key leaves its field
alone. But the parser of the security headers runs without a section too and starts by switching
them off, so the defaults survive exactly in the documents that say whether they are on
(`defaults_kept_iff`).
-/

namespace Emme.Settings

open CString FileTree Emme.Router Emme.Config Emme.Log

/-- The settings outside the routes. -/
inductive Field where
  | port
  | maxConnections
  | shutdownTimeoutSeconds
  | requestTimeoutMs
  | tlsHandshakeTimeoutMs
  | perIpConnectionLimit
  | logLevel
  | logFile
  | loggingLevel
  | logFormat
  | bufferSize
  | rolloverSize
  | rolloverDaily
  | appenderFlags
  | certificate
  | privateKey
  | sessionTicketKey
  | sessionCacheSize
  | sessionTimeout
  | readBufferSize
  | enablePartialWrite
  | releaseBuffers
  | keepaliveTimeout
  | maxRequestsPerConnection
  | maxConcurrentStreams
  | headersEnabled
  | headers
  deriving DecidableEq, Repr

/-- The section and the key a setting is read from. -/
def Field.place : Field → String × String
  | .port => ("server", "port")
  | .maxConnections => ("server", "max_connections")
  | .shutdownTimeoutSeconds => ("server", "shutdown_timeout_seconds")
  | .requestTimeoutMs => ("server", "request_timeout_ms")
  | .tlsHandshakeTimeoutMs => ("server", "tls_handshake_timeout_ms")
  | .perIpConnectionLimit => ("server", "per_ip_connection_limit")
  | .logLevel => ("server", "log_level")
  | .logFile => ("logging", "file")
  | .loggingLevel => ("logging", "level")
  | .logFormat => ("logging", "format")
  | .bufferSize => ("logging", "buffer_size")
  | .rolloverSize => ("logging", "rollover_size")
  | .rolloverDaily => ("logging", "rollover_daily")
  | .appenderFlags => ("logging", "appender_flags")
  | .certificate => ("ssl", "certificate")
  | .privateKey => ("ssl", "private_key")
  | .sessionTicketKey => ("ssl", "session_ticket_key")
  | .sessionCacheSize => ("ssl", "session_cache_size")
  | .sessionTimeout => ("ssl", "session_timeout")
  | .readBufferSize => ("ssl", "read_buffer_size")
  | .enablePartialWrite => ("ssl", "enable_partial_write")
  | .releaseBuffers => ("ssl", "release_buffers")
  | .keepaliveTimeout => ("http2", "keepalive_timeout")
  | .maxRequestsPerConnection => ("http2", "max_requests_per_connection")
  | .maxConcurrentStreams => ("http2", "max_concurrent_streams")
  | .headersEnabled => ("security_headers", "enabled")
  | .headers => ("security_headers", "headers")

/-- The type of a setting. -/
def Field.Value : Field → Type
  | .logLevel => CText 16
  | .logFile | .certificate | .privateKey | .sessionTicketKey => CText 256
  | .loggingLevel => LogLevel
  | .logFormat => LogFormat
  | .bufferSize | .rolloverSize => Nat
  | .rolloverDaily | .enablePartialWrite | .releaseBuffers | .headersEnabled => Bool
  | .appenderFlags => Appenders
  | .headers => List SecurityHeader
  | _ => Int

/-- A setting of a configuration. -/
def Field.get : (field : Field) → ServerConfig → field.Value
  | .port, config => config.port
  | .maxConnections, config => config.maxConnections
  | .shutdownTimeoutSeconds, config => config.shutdownTimeoutSeconds
  | .requestTimeoutMs, config => config.requestTimeoutMs
  | .tlsHandshakeTimeoutMs, config => config.tlsHandshakeTimeoutMs
  | .perIpConnectionLimit, config => config.perIpConnectionLimit
  | .logLevel, config => config.logLevel
  | .logFile, config => config.logging.file
  | .loggingLevel, config => config.logging.level
  | .logFormat, config => config.logging.format
  | .bufferSize, config => config.logging.bufferSize
  | .rolloverSize, config => config.logging.rolloverSize
  | .rolloverDaily, config => config.logging.rolloverDaily
  | .appenderFlags, config => config.logging.appenderFlags
  | .certificate, config => config.ssl.certificate
  | .privateKey, config => config.ssl.privateKey
  | .sessionTicketKey, config => config.ssl.sessionTicketKey
  | .sessionCacheSize, config => config.ssl.sessionCacheSize
  | .sessionTimeout, config => config.ssl.sessionTimeout
  | .readBufferSize, config => config.ssl.readBufferSize
  | .enablePartialWrite, config => config.ssl.enablePartialWrite
  | .releaseBuffers, config => config.ssl.releaseBuffers
  | .keepaliveTimeout, config => config.http2.keepaliveTimeout
  | .maxRequestsPerConnection, config => config.http2.maxRequestsPerConnection
  | .maxConcurrentStreams, config => config.http2.maxConcurrentStreams
  | .headersEnabled, config => config.securityHeaders.enabled
  | .headers, config => config.securityHeaders.headers

/-- All nodes a mapping has under a key; the first of them is the one that is read. -/
def entries (node : Yaml) (key : String) : List Yaml :=
  match node with
  | .mapping pairs => (pairs.filter fun pair => pair.1.isText (ascii key)).map Prod.snd
  | _ => []

/-- The document has the key of a setting in its section. -/
def mentions (root : Yaml) (field : Field) : Bool :=
  (entries root field.place.1).any fun node => entries node field.place.2 ≠ []

/-! ## One section -/

/-- `find_yaml_node` returns the first node under a key. -/
theorem find_yaml_node_entries (node : Yaml) (key : String) :
    findYamlNode node (ascii key) = (entries node key).head? := by
  cases node with
  | scalar text => rfl
  | sequence items => rfl
  | mapping pairs => rw [findYamlNode, entries, List.head?_map, List.head?_filter]

/-- A section that is read does not have the key of a setting that is not mentioned. -/
theorem key_absent {root node : Yaml} {field : Field} (h : mentions root field = false)
    (hnode : findYamlNode root (ascii field.place.1) = some node) :
    findYamlNode node (ascii field.place.2) = none := by
  rw [find_yaml_node_entries] at hnode ⊢
  have hentries : entries node field.place.2 = [] := by
    have hnone := List.any_eq_false.mp h node (List.mem_of_mem_head? hnode)
    simpa using hnone
  rw [hentries]
  rfl

/-- A field whose key is absent keeps its value. -/
theorem parse_field_absent {α : Type} {sectionName key : String}
    {read : String → Yaml → Except ConfigError α} {node : Yaml} {current value : α}
    (hkey : findYamlNode node (ascii key) = none)
    (h : parseField sectionName key read node current = .ok value) : value = current := by
  rw [parseField, hkey] at h
  exact (Except.ok.inj h).symm

variable {config config' : ServerConfig} {node : Yaml}

/-- The `server` section changes only the settings it has keys for. -/
theorem parse_server_section_keeps (h : parseServerSection config node = .ok config')
    (field : Field)
    (hkey : field.place.1 = "server" → findYamlNode node (ascii field.place.2) = none) :
    field.get config' = field.get config := by
  simp only [parseServerSection, bind_eq_ok] at h
  obtain ⟨_, _, port, hport, connections, hconnections, shutdown, hshutdown, request, hrequest,
    handshake, hhandshake, limit, hlimit, level, hlevel, h⟩ := h
  cases h
  cases field with
  | port => exact parse_field_absent (hkey rfl) hport
  | maxConnections => exact parse_field_absent (hkey rfl) hconnections
  | shutdownTimeoutSeconds => exact parse_field_absent (hkey rfl) hshutdown
  | requestTimeoutMs => exact parse_field_absent (hkey rfl) hrequest
  | tlsHandshakeTimeoutMs => exact parse_field_absent (hkey rfl) hhandshake
  | perIpConnectionLimit => exact parse_field_absent (hkey rfl) hlimit
  | logLevel => exact parse_field_absent (hkey rfl) hlevel
  | _ => rfl

/-- The `logging` section changes only the settings it has keys for. -/
theorem parse_logging_section_keeps (h : parseLoggingSection config node = .ok config')
    (field : Field)
    (hkey : field.place.1 = "logging" → findYamlNode node (ascii field.place.2) = none) :
    field.get config' = field.get config := by
  simp only [parseLoggingSection, bind_eq_ok] at h
  obtain ⟨_, _, file, hfile, early, hearly, level, hlevel, format, hformat, size, hsize, rollover,
    hrollover, daily, hdaily, flags, hflags, h⟩ := h
  cases h
  cases field with
  | logFile => exact parse_field_absent (hkey rfl) hfile
  | loggingLevel => exact parse_field_absent (hkey rfl) hlevel
  | logFormat => exact parse_field_absent (hkey rfl) hformat
  | bufferSize =>
      -- the second reading starts from what the first one left
      have hfirst : early = config.logging.bufferSize := parse_field_absent (hkey rfl) hearly
      have hsecond : size = early := parse_field_absent (hkey rfl) hsize
      exact hsecond.trans hfirst
  | rolloverSize => exact parse_field_absent (hkey rfl) hrollover
  | rolloverDaily => exact parse_field_absent (hkey rfl) hdaily
  | appenderFlags => exact parse_field_absent (hkey rfl) hflags
  | _ => rfl

/-- The `ssl` section changes only the settings it has keys for. -/
theorem parse_ssl_section_keeps (h : parseSslSection config node = .ok config') (field : Field)
    (hkey : field.place.1 = "ssl" → findYamlNode node (ascii field.place.2) = none) :
    field.get config' = field.get config := by
  simp only [parseSslSection, bind_eq_ok] at h
  obtain ⟨_, _, certificate, hcertificate, key, hprivate, cache, hcache, timeout, htimeout, ticket,
    hticket, buffer, hbuffer, partialWrite, hpieces, release, hrelease, h⟩ := h
  cases h
  cases field with
  | certificate => exact parse_field_absent (hkey rfl) hcertificate
  | privateKey => exact parse_field_absent (hkey rfl) hprivate
  | sessionTicketKey => exact parse_field_absent (hkey rfl) hticket
  | sessionCacheSize => exact parse_field_absent (hkey rfl) hcache
  | sessionTimeout => exact parse_field_absent (hkey rfl) htimeout
  | readBufferSize => exact parse_field_absent (hkey rfl) hbuffer
  | enablePartialWrite => exact parse_field_absent (hkey rfl) hpieces
  | releaseBuffers => exact parse_field_absent (hkey rfl) hrelease
  | _ => rfl

/-- The `http2` section changes only the settings it has keys for. -/
theorem parse_http2_section_keeps (h : parseHttp2Section config node = .ok config')
    (field : Field)
    (hkey : field.place.1 = "http2" → findYamlNode node (ascii field.place.2) = none) :
    field.get config' = field.get config := by
  simp only [parseHttp2Section, bind_eq_ok] at h
  obtain ⟨_, _, keepalive, hkeepalive, requests, hrequests, streams, hstreams, h⟩ := h
  cases h
  cases field with
  | keepaliveTimeout => exact parse_field_absent (hkey rfl) hkeepalive
  | maxRequestsPerConnection => exact parse_field_absent (hkey rfl) hrequests
  | maxConcurrentStreams => exact parse_field_absent (hkey rfl) hstreams
  | _ => rfl

/-- The routes change no setting. -/
theorem parse_routes_section_keeps {view : View}
    (h : parseRoutesSection view config node = .ok config') (field : Field) :
    field.get config' = field.get config := by
  cases node with
  | scalar text => cases h
  | mapping pairs => cases h
  | sequence items =>
      rw [parseRoutesSection, bind_eq_ok] at h
      obtain ⟨routes, _, h⟩ := h
      cases h
      cases field <;> rfl

/-! ## The whole document -/

/-- A setting that is not mentioned has its default when all sections but the last are parsed. -/
theorem Stages.keeps_default {view : View} {root : Yaml} (stages : Stages view root config)
    {field : Field} (hfield : mentions root field = false) :
    field.get stages.routed = field.get setConfigDefaults := by
  have hkey (name : String) {node : Yaml} (hnode : findYamlNode root (ascii name) = some node)
      (hname : field.place.1 = name) : findYamlNode node (ascii field.place.2) = none :=
    key_absent hfield (hname ▸ hnode)
  calc field.get stages.routed
      = field.get stages.http2 := parse_section_keeps
          (fun node _ hparse => parse_routes_section_keeps hparse field) stages.routed_eq
    _ = field.get stages.ssl := parse_section_keeps
          (fun node hnode hparse => parse_http2_section_keeps hparse field (hkey _ hnode))
          stages.http2_eq
    _ = field.get stages.logging := parse_section_keeps
          (fun node hnode hparse => parse_ssl_section_keeps hparse field (hkey _ hnode))
          stages.ssl_eq
    _ = field.get stages.server := parse_section_keeps
          (fun node hnode hparse => parse_logging_section_keeps hparse field (hkey _ hnode))
          stages.logging_eq
    _ = field.get setConfigDefaults := parse_section_keeps
          (fun node hnode hparse => parse_server_section_keeps hparse field (hkey _ hnode))
          stages.server_eq

/-- Headers that are not mentioned are switched off, whatever the default. -/
theorem unmentioned_headers_off {root : Yaml} (h : mentions root .headersEnabled = false) :
    (parseSecurityHeadersConfig (findYamlNode root (ascii "security_headers"))).enabled =
      false := by
  cases hsection : findYamlNode root (ascii "security_headers") with
  | none => rfl
  | some node =>
      cases node with
      | scalar text => rfl
      | sequence items => rfl
      | mapping pairs =>
          have hkey : findYamlNode (.mapping pairs) (ascii "enabled") = none :=
            key_absent h hsection
          simp only [parseSecurityHeadersConfig, getField, hkey, Option.bind_none,
            Option.getD_none]

/-- Without a list of headers there are none. -/
theorem unmentioned_headers_none {root : Yaml} (h : mentions root .headers = false) :
    (parseSecurityHeadersConfig (findYamlNode root (ascii "security_headers"))).headers = [] := by
  cases hsection : findYamlNode root (ascii "security_headers") with
  | none => rfl
  | some node =>
      cases node with
      | scalar text => rfl
      | sequence items => rfl
      | mapping pairs =>
          have hkey : findYamlNode (.mapping pairs) (ascii "headers") = none :=
            key_absent h hsection
          simp only [parseSecurityHeadersConfig, hkey]

/-- The settings that an accepted document does not mention keep their defaults exactly if it
mentions whether the security headers are on. -/
theorem defaults_kept_iff (view : View) (root : Yaml) (config : ServerConfig)
    (h : loadConfig view root = .ok config) :
    (∀ field : Field, mentions root field = false →
        field.get config = field.get setConfigDefaults) ↔
      mentions root .headersEnabled = true := by
  obtain ⟨stages⟩ := load_config_stages h
  have hheaders := congrArg ServerConfig.securityHeaders stages.config_eq
  constructor
  · intro hkept
    by_contra hmentions
    have hoff := unmentioned_headers_off (Bool.eq_false_iff.mpr hmentions)
    have hon : config.securityHeaders.enabled = true :=
      hkept .headersEnabled (Bool.eq_false_iff.mpr hmentions)
    rw [hheaders] at hon
    exact Bool.false_ne_true (hoff.symm.trans hon)
  · intro hmentions field hfield
    have hdefault := stages.keeps_default hfield
    have hconfig := stages.config_eq
    generalize stages.routed = routed at hdefault hconfig
    -- every field but those of the last section is as the stages left it
    cases field with
    | headersEnabled => exact absurd (hfield.symm.trans hmentions) Bool.false_ne_true
    | headers =>
        have hnone := unmentioned_headers_none hfield
        rw [hconfig]
        exact hnone
    | _ =>
        rw [hconfig]
        exact hdefault

/-- A document that only turns the security headers on keeps all other defaults. -/
theorem defaults_kept_with_headers_on :
    ∃ config, loadConfig exampleView
        (.record [("security_headers", .record [("enabled", .text "true")])]) = .ok config ∧
      config.port = 8443 ∧
      ∀ field : Field, mentions
          (.record [("security_headers", .record [("enabled", .text "true")])]) field = false →
        field.get config = field.get setConfigDefaults := by
  obtain ⟨config, hload, hport⟩ : ∃ config, loadConfig exampleView
      (.record [("security_headers", .record [("enabled", .text "true")])]) = .ok config ∧
      config.port = 8443 := ⟨_, rfl, rfl⟩
  exact ⟨config, hload, hport, (defaults_kept_iff _ _ _ hload).mpr (by decide +kernel)⟩

/-- A document without a `security_headers` section is accepted with the headers switched off,
although they are on by default. -/
theorem headers_off_by_absence :
    ∃ config, loadConfig exampleView (.record [("server", .record [("port", .text "9443")])]) =
        .ok config ∧
      mentions (.record [("server", .record [("port", .text "9443")])]) .headersEnabled = false ∧
      Field.headersEnabled.get config ≠ Field.headersEnabled.get setConfigDefaults := by
  refine ⟨_, rfl, by decide +kernel, ?_⟩
  exact Bool.false_ne_true

end Emme.Settings
