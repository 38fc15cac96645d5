import Emme.Settings.RouteNumbers

/-!
# Overrides from the environment

`apply_env_overrides` runs after the validation. Numbers are checked against their ranges again;
texts are copied without a check, so that a long one is cut and an empty one replaces the path of
the certificate or the key. `env_overrides_keep_iff` says when the configuration stays valid with
every text in full.
-/

namespace Emme.Settings

open CString FileTree Emme.Router Emme.Config

/-- The environment of the process, as `getenv` sees it. -/
abbrev Environment := String → Option Bytes

/-- A warning on the error stream: the variable, its value, the setting that is kept and its
unit. -/
structure Warning where
  envName : String
  envStr : Bytes
  configValue : Int
  unit : String
  deriving DecidableEq, Repr

/-- The number that `apply_int_env_override` accepts. -/
def acceptedInt (minVal maxVal : Int) (envStr : Bytes) : Option Int :=
  match strtol envStr with
  | (value, []) => if minVal ≤ value ∧ value ≤ maxVal then some value else none
  | _ => none

/-- `apply_int_env_override`; the products fit an `int` for all variables below. -/
def applyIntEnvOverride (env : Environment) (envName : String) (configValue minVal maxVal : Int)
    (unit : String) (scale : Int) : Int × Option Warning :=
  match env envName with
  | none => (configValue, none)
  | some envStr =>
      match acceptedInt minVal maxVal envStr with
      | some value => (value * scale, none)
      | none => (configValue, some ⟨envName, envStr, configValue, unit⟩)

/-- `apply_string_env_override`: `strncpy` and a terminator in the last byte. -/
def applyStringEnvOverride {size : Nat} (hsize : 0 < size) (env : Environment) (envName : String)
    (configValue : CText size) : CText size :=
  match env envName with
  | none => configValue
  | some envStr => leaveText hsize (some (.scalar envStr))

/-- `apply_env_overrides`, with the warnings in order. -/
def applyEnvOverrides (env : Environment) (config : ServerConfig) : ServerConfig × List Warning :=
  let port := applyIntEnvOverride env "EMME_PORT" config.port 1 65535 "" 1
  let logLevel := applyStringEnvOverride log_level_size_pos env "EMME_LOG_LEVEL" config.logLevel
  let shutdown :=
    applyIntEnvOverride env "EMME_SHUTDOWN_TIMEOUT" config.shutdownTimeoutSeconds 1 300 "" 1
  let connections :=
    applyIntEnvOverride env "EMME_MAX_CONNECTIONS" config.maxConnections 1 1000000 "" 1
  let certificate :=
    applyStringEnvOverride path_size_pos env "EMME_SSL_CERT_PATH" config.ssl.certificate
  let privateKey :=
    applyStringEnvOverride path_size_pos env "EMME_SSL_KEY_PATH" config.ssl.privateKey
  let request :=
    applyIntEnvOverride env "EMME_REQUEST_TIMEOUT" config.requestTimeoutMs 1 300 "ms" 1000
  let handshake :=
    applyIntEnvOverride env "EMME_TLS_HANDSHAKE_TIMEOUT" config.tlsHandshakeTimeoutMs 1 60 "ms"
      1000
  let perIp :=
    applyIntEnvOverride env "EMME_PER_IP_CONNECTION_LIMIT" config.perIpConnectionLimit 1 10000
      "" 1
  ({ config with
      port := port.1
      logLevel
      shutdownTimeoutSeconds := shutdown.1
      maxConnections := connections.1
      ssl := { config.ssl with certificate, privateKey }
      requestTimeoutMs := request.1
      tlsHandshakeTimeoutMs := handshake.1
      perIpConnectionLimit := perIp.1 },
    [port.2, shutdown.2, connections.2, request.2, handshake.2, perIp.2].reduceOption)

/-! ## The variables -/

/-- The variables that hold numbers. -/
inductive IntVariable where
  | port
  | shutdownTimeout
  | maxConnections
  | requestTimeout
  | tlsHandshakeTimeout
  | perIpConnectionLimit
  deriving DecidableEq, Repr

/-- The variable's name in the environment. -/
def IntVariable.name : IntVariable → String
  | .port => "EMME_PORT"
  | .shutdownTimeout => "EMME_SHUTDOWN_TIMEOUT"
  | .maxConnections => "EMME_MAX_CONNECTIONS"
  | .requestTimeout => "EMME_REQUEST_TIMEOUT"
  | .tlsHandshakeTimeout => "EMME_TLS_HANDSHAKE_TIMEOUT"
  | .perIpConnectionLimit => "EMME_PER_IP_CONNECTION_LIMIT"

/-- The largest number a variable may hold; the smallest is one. -/
def IntVariable.maxVal : IntVariable → Int
  | .port => 65535
  | .shutdownTimeout => 300
  | .maxConnections => 1000000
  | .requestTimeout => 300
  | .tlsHandshakeTimeout => 60
  | .perIpConnectionLimit => 10000

/-- The setting that the variable replaces. -/
def IntVariable.get (config : ServerConfig) : IntVariable → Int
  | .port => config.port
  | .shutdownTimeout => config.shutdownTimeoutSeconds
  | .maxConnections => config.maxConnections
  | .requestTimeout => config.requestTimeoutMs
  | .tlsHandshakeTimeout => config.tlsHandshakeTimeoutMs
  | .perIpConnectionLimit => config.perIpConnectionLimit

/-- The text denotes a number that the variable may hold. -/
def IntVariable.Accepts (var : IntVariable) (text : Bytes) : Prop :=
  ∃ value, Denotes text value ∧ Within 1 var.maxVal value

/-- The variables that hold texts. -/
inductive TextVariable where
  | logLevel
  | certificate
  | privateKey
  deriving DecidableEq, Repr

/-- The variable's name in the environment. -/
def TextVariable.name : TextVariable → String
  | .logLevel => "EMME_LOG_LEVEL"
  | .certificate => "EMME_SSL_CERT_PATH"
  | .privateKey => "EMME_SSL_KEY_PATH"

/-- The size of the buffer that takes the text. -/
def TextVariable.size : TextVariable → Nat
  | .logLevel => 16
  | .certificate | .privateKey => 256

/-- The setting that the variable replaces. -/
def TextVariable.get (config : ServerConfig) : TextVariable → Bytes
  | .logLevel => config.logLevel.1
  | .certificate => config.ssl.certificate.1
  | .privateKey => config.ssl.privateKey.1

/-! ## One variable -/

/-- A number that is accepted is within the limits. -/
theorem accepted_int_within {minVal maxVal value : Int} {text : Bytes}
    (h : acceptedInt minVal maxVal text = some value) : Within minVal maxVal value := by
  rw [acceptedInt] at h
  split at h
  · split at h
    · rename_i hrange
      cases h
      exact hrange
    · cases h
  · cases h

/-- A number that is accepted is the one its text denotes: the empty text, which `strtol` takes
for zero, and a number that does not fit a `long` are out of range. -/
theorem accepted_int_denotes {maxVal value : Int} {text : Bytes} (hmax : maxVal < 2 ^ 63 - 1)
    (h : acceptedInt 1 maxVal text = some value) : Denotes text value := by
  have hrange := accepted_int_within h
  rw [acceptedInt] at h
  split at h
  · rename_i read hread
    split at h
    · cases h
      rw [strtol] at hread
      split at hread
      · have hzero := (Prod.mk.inj hread).1
        exact absurd hrange.1 (by omega)
      · rename_i exact rest hscan
        obtain ⟨hclamp, rfl⟩ := Prod.mk.inj hread
        have hvalue : exact = value := by
          have hlow := hrange.1
          have hhigh := hrange.2
          unfold clampLong at hclamp
          omega
        exact (scan_decimal_denotes text value).mp (hvalue ▸ hscan)
    · cases h
  · cases h

/-- A number stays within the scaled range whatever the variable holds. -/
theorem int_override_within {env : Environment} {envName unit : String}
    {configValue maxVal scale : Int} (hscale : 0 ≤ scale)
    (h : Within scale (maxVal * scale) configValue) :
    Within scale (maxVal * scale)
      (applyIntEnvOverride env envName configValue 1 maxVal unit scale).1 := by
  rw [applyIntEnvOverride]
  split
  · exact h
  · split
    · rename_i value hvalue
      have hrange := accepted_int_within hvalue
      refine ⟨?_, Int.mul_le_mul_of_nonneg_right hrange.2 hscale⟩
      calc scale = 1 * scale := (one_mul scale).symm
        _ ≤ value * scale := Int.mul_le_mul_of_nonneg_right hrange.1 hscale
    · exact h

/-- A value that is rejected leaves the number alone. -/
theorem int_override_rejected {env : Environment} {envName unit : String} {text : Bytes}
    {configValue maxVal scale : Int} (hmax : maxVal < 2 ^ 63 - 1) (henv : env envName = some text)
    (h : ¬ ∃ value, Denotes text value ∧ Within 1 maxVal value) :
    (applyIntEnvOverride env envName configValue 1 maxVal unit scale).1 = configValue := by
  rw [applyIntEnvOverride, henv]
  dsimp only
  split
  · rename_i value hvalue
    exact absurd ⟨value, accepted_int_denotes hmax hvalue, accepted_int_within hvalue⟩ h
  · rfl

variable {env : Environment} {config : ServerConfig}

/-- A text variable that is set replaces its setting with as much as fits. -/
theorem text_override (config : ServerConfig) {var : TextVariable} {text : Bytes}
    (h : env var.name = some text) :
    var.get (applyEnvOverrides env config).1 = text.take (var.size - 1) := by
  cases var with
  | logLevel | certificate | privateKey =>
      simp only [TextVariable.name] at h
      simp only [TextVariable.get, applyEnvOverrides, applyStringEnvOverride, h, leaveText,
        TextVariable.size]

/-- A variable that is not set replaces nothing. -/
theorem text_unset {var : TextVariable} (h : env var.name = none) :
    var.get (applyEnvOverrides env config).1 = var.get config := by
  cases var with
  | logLevel | certificate | privateKey =>
      simp only [TextVariable.name] at h
      simp only [TextVariable.get, applyEnvOverrides, applyStringEnvOverride, h]

/-! ## All variables -/

/-- What the overrides should leave: a valid configuration, texts in full or not at all, and no
change where a value is rejected. -/
structure KeepsValid (env : Environment) (config config' : ServerConfig) : Prop where
  valid : config'.Valid
  whole : ∀ (var : TextVariable) (text : Bytes), env var.name = some text →
    var.get config' = text ∨ var.get config' = var.get config
  rejected : ∀ (var : IntVariable) (text : Bytes), env var.name = some text →
    ¬ var.Accepts text → var.get config' = var.get config

/-- Numbers within their limits stay so. -/
theorem overrides_in_range (h : config.InRange) : (applyEnvOverrides env config).1.InRange :=
  { h with
    port := int_override_within (by decide) h.port
    maxConnections := int_override_within (by decide) h.maxConnections
    shutdownTimeoutSeconds := int_override_within (by decide) h.shutdownTimeoutSeconds
    requestTimeoutMs := int_override_within (by decide) h.requestTimeoutMs
    tlsHandshakeTimeoutMs := int_override_within (by decide) h.tlsHandshakeTimeoutMs
    perIpConnectionLimit := int_override_within (by decide) h.perIpConnectionLimit }

/-- A number that is not accepted replaces nothing. -/
theorem overrides_rejected (var : IntVariable) {text : Bytes} (henv : env var.name = some text)
    (h : ¬ var.Accepts text) : var.get (applyEnvOverrides env config).1 = var.get config := by
  cases var with
  | port | shutdownTimeout | maxConnections | requestTimeout | tlsHandshakeTimeout
  | perIpConnectionLimit => exact int_override_rejected (by decide) henv h

/-- A path that is not replaced by the empty text is not empty. -/
theorem path_nonempty (var : TextVariable) (hvar : var ≠ .logLevel)
    (hcurrent : var.get config ≠ []) (h : ∀ text, env var.name = some text → text ≠ []) :
    var.get (applyEnvOverrides env config).1 ≠ [] := by
  cases henv : env var.name with
  | none =>
      rw [text_unset henv]
      exact hcurrent
  | some text =>
      rw [text_override config henv]
      have hsize : var.size - 1 ≠ 0 := by
        cases var with
        | logLevel => exact absurd rfl hvar
        | certificate | privateKey => decide
      rw [Ne, List.take_eq_nil_iff, not_or]
      exact ⟨hsize, h text henv⟩

/-- The overrides keep an accepted configuration valid, with texts stored in full or not at all,
exactly if every text fits its buffer (or is cut to what is there already) and no path is
replaced by the empty text. -/
theorem env_overrides_keep_iff (view : View) (root : Yaml) (config : ServerConfig)
    (env : Environment) (h : loadConfig view root = .ok config) :
    KeepsValid env config (applyEnvOverrides env config).1 ↔
      ∀ (var : TextVariable) (text : Bytes), env var.name = some text →
        (text.length < var.size ∨ text.take (var.size - 1) = var.get config) ∧
          (var ≠ .logLevel → text ≠ []) := by
  obtain ⟨stages⟩ := load_config_stages h
  have hvalid := stages.valid_config
  constructor
  · intro hkeeps var text henv
    have hsize : 0 < var.size := by
      cases var with
      | logLevel | certificate | privateKey => decide
    have hstored := text_override config henv
    refine ⟨?_, ?_⟩
    · rcases hkeeps.whole var text henv with hfull | hnone
      · have hlength := congrArg List.length (hstored.symm.trans hfull)
        rw [List.length_take] at hlength
        exact .inl (by omega)
      · exact .inr (hstored.symm.trans hnone)
    · rintro hvar rfl
      rw [List.take_nil] at hstored
      cases var with
      | logLevel => exact hvar rfl
      | certificate => exact hkeeps.valid.certificate hstored
      | privateKey => exact hkeeps.valid.private_key hstored
  · intro hfits
    refine ⟨?_, ?_, fun var text henv hrejected => overrides_rejected var henv hrejected⟩
    · exact
        { ranges := overrides_in_range hvalid.ranges
          appender := hvalid.appender
          file_name := hvalid.file_name
          certificate := path_nonempty .certificate (by decide) hvalid.certificate
            fun text henv => (hfits .certificate text henv).2 (by decide)
          private_key := path_nonempty .privateKey (by decide) hvalid.private_key
            fun text henv => (hfits .privateKey text henv).2 (by decide)
          route_count := hvalid.route_count
          header_count := hvalid.header_count
          route_header_count := hvalid.route_header_count
          served := hvalid.served }
    · intro var text henv
      rw [text_override config henv]
      rcases (hfits var text henv).1 with hlength | hcut
      · exact .inl (List.take_of_length_le (Nat.le_sub_one_of_lt hlength))
      · exact .inr hcut

/-- A new port and a new certificate. -/
def movedEnvironment : Environment
  | "EMME_PORT" => some (ascii "9443")
  | "EMME_SSL_CERT_PATH" => some (ascii "certs/new.crt")
  | _ => none

/-- The settings stay valid under the new port and certificate. -/
theorem moved_environment_keeps :
    ∃ config, loadConfig exampleView smallSettings = .ok config ∧
      (applyEnvOverrides movedEnvironment config).2 = [] ∧
      KeepsValid movedEnvironment config (applyEnvOverrides movedEnvironment config).1 := by
  obtain ⟨config, hload, _⟩ := small_settings_load
  refine ⟨config, hload, rfl, (env_overrides_keep_iff _ _ _ _ hload).mpr ?_⟩
  intro var text henv
  cases var with
  | logLevel => cases henv
  | privateKey => cases henv
  | certificate =>
      cases henv
      exact ⟨.inl (by decide), fun _ => by decide⟩

/-- An empty path is accepted, after which there is no certificate; a log level with more than
fifteen characters is cut. Neither gives a warning. -/
theorem env_overrides_break :
    ∃ config, loadConfig exampleView smallSettings = .ok config ∧
      (∃ env : Environment, env "EMME_SSL_CERT_PATH" = some [] ∧
        (applyEnvOverrides env config).2 = [] ∧
        (applyEnvOverrides env config).1.ssl.certificate.1 = [] ∧
        ¬ KeepsValid env config (applyEnvOverrides env config).1) ∧
      ∃ env : Environment, env "EMME_LOG_LEVEL" = some (ascii "warnings-and-up-only") ∧
        (applyEnvOverrides env config).2 = [] ∧
        (applyEnvOverrides env config).1.logLevel.1 = ascii "warnings-and-up" ∧
        ¬ KeepsValid env config (applyEnvOverrides env config).1 := by
  obtain ⟨config, hload, _, hlevel⟩ := small_settings_load
  refine ⟨config, hload, ⟨fun name => if name = "EMME_SSL_CERT_PATH" then some [] else none, rfl,
    rfl, rfl, fun hkeeps => hkeeps.valid.certificate rfl⟩,
    fun name => if name = "EMME_LOG_LEVEL" then some (ascii "warnings-and-up-only") else none,
    rfl, rfl, rfl, fun hkeeps => ?_⟩
  rcases hkeeps.whole .logLevel _ rfl with hfull | hnone
  · have hwhole : ascii "warnings-and-up" = ascii "warnings-and-up-only" := hfull
    exact absurd hwhole (by decide)
  · have hcut : ascii "warnings-and-up" = ascii "info" := hnone.trans hlevel
    exact absurd hcut (by decide)

end Emme.Settings
