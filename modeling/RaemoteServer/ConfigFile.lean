import RaemoteServer.Config
import RaemoteServer.Library.Numbers

/-! Loading and saving the config file, with the environment variables that take precedence over
what is loaded. -/

namespace RaemoteServer

open Text

/-- `toml` at `Config`. What is written is read back. -/
structure TomlConfig where
  toString : Config → Option Str
  fromStr : Str → Option Config
  read_back : ∀ config text, toString config = some text → fromStr text = some config

/-- The variables of the process. -/
abbrev Env := Str → Option Str

section

variable (env : Env)

/-- A variable that is set and parses. -/
def envValue {α : Type} (key : String) (parse : Str → Option α) : Option α :=
  (env key.toList).bind parse

def overrideFromEnv {α : Type} (key : String) (parse : Str → Option α) (value : α) : α :=
  (envValue env key parse).getD value

/-- The token is taken as it is, unless it is blank. -/
def parseToken (token : Str) : Option (Option Str) := if trim token = [] then none else some token

def envOverride (config : Config) : Config :=
  { config with
    bind := { config.bind with
      tokenTtlSecs := overrideFromEnv env "RAEMOTE_BIND_TTL_SECS" parseU64 config.bind.tokenTtlSecs
      token := overrideFromEnv env "RAEMOTE_BIND_TOKEN" parseToken config.bind.token
      maxFailedAttempts :=
        overrideFromEnv env "RAEMOTE_BIND_MAX_ATTEMPTS" parseU32 config.bind.maxFailedAttempts
      maxConcurrentConnections :=
        overrideFromEnv env "RAEMOTE_MAX_BIND_CONNECTIONS" parseU64
          config.bind.maxConcurrentConnections
      allowInvites :=
        overrideFromEnv env "RAEMOTE_BIND_ALLOW_INVITES" parseBool config.bind.allowInvites
      inviteTtlSecs :=
        overrideFromEnv env "RAEMOTE_BIND_INVITE_TTL_SECS" parseU64 config.bind.inviteTtlSecs
      maxPendingInvites :=
        overrideFromEnv env "RAEMOTE_BIND_MAX_INVITES" parseU64 config.bind.maxPendingInvites }
    serve := { config.serve with
      maxConcurrentStreams :=
        overrideFromEnv env "RAEMOTE_MAX_CONCURRENT_STREAMS" parseU64
          config.serve.maxConcurrentStreams
      rateLimit :=
        { refill :=
            overrideFromEnv env "RAEMOTE_RATE_LIMIT_REFILL" parseU64 config.serve.rateLimit.refill
          intervalMs :=
            overrideFromEnv env "RAEMOTE_RATE_LIMIT_INTERVAL_MS" parseU64
              config.serve.rateLimit.intervalMs
          max :=
            overrideFromEnv env "RAEMOTE_RATE_LIMIT_MAX" parseU64 config.serve.rateLimit.max } }
    discovery := { config.discovery with
      enabled := overrideFromEnv env "RAEMOTE_DISCOVERY_ENABLED" parseBool config.discovery.enabled
      intervalSecs :=
        overrideFromEnv env "RAEMOTE_DISCOVERY_INTERVAL_SECS" parseU64 config.discovery.intervalSecs
      probeTimeoutMs :=
        overrideFromEnv env "RAEMOTE_DISCOVERY_PROBE_TIMEOUT_MS" parseU64
          config.discovery.probeTimeoutMs
      maxConcurrentProbes :=
        overrideFromEnv env "RAEMOTE_DISCOVERY_MAX_CONCURRENT_PROBES" parseU64
          config.discovery.maxConcurrentProbes } }

variable (toml : TomlConfig)

/-- What the file holds; a missing file stands for the default. -/
def storedConfig (file : Option Str) : Option Config :=
  match file with
  | none => some .default
  | some content => toml.fromStr content

def load (file : Option Str) : Except Str Config :=
  match file with
  | none => .ok .default
  | some content =>
      match toml.fromStr content with
      | none => .error "failed to parse config.toml".toList
      | some config => .ok (envOverride env config)

/-- The content of the new file. -/
def save (config : Config) : Except Str Str :=
  match toml.toString config with
  | none => .error "failed to serialize config".toList
  | some content => .ok content

end

/-- A file that parses is overridden by the environment. -/
theorem load_some {env : Env} {toml : TomlConfig} {content : Str} {config : Config}
    (read : toml.fromStr content = some config) :
    load env toml (some content) = .ok (envOverride env config) := by
  simp only [load, read]

theorem envOverride_unset (config : Config) : envOverride (fun _ => none) config = config := rfl

theorem bind_ok {α β : Type} {first : Except Str α} {next : α → Except Str β} {result : β}
    (ran : first >>= next = .ok result) : ∃ value, first = .ok value ∧ next value = .ok result := by
  cases first with
  | error message => cases ran
  | ok value => exact ⟨value, rfl, ran⟩

/-! The fields one by one. -/

inductive Field where
  | name
  | keyPath
  | relayUrl
  | proxy
  | tokenTtlSecs
  | maxFailedAttempts
  | maxConcurrentConnections
  | token
  | allowInvites
  | inviteTtlSecs
  | maxPendingInvites
  | maxConcurrentStreams
  | refill
  | intervalMs
  | max
  | enabled
  | intervalSecs
  | recheckSecs
  | probeTimeoutMs
  | maxConcurrentProbes
  | minPort
  | httpProbe
  | httpsProbe
  | loopbackOnly
  | includeUnattributed
  | excludePorts
  | excludeProcesses
  | excludeOrigins
  | level
  | apps
  deriving DecidableEq

inductive Value where
  | text (value : Option Str)
  | number (value : Nat)
  | flag (value : Bool)
  | ports (value : List UInt16)
  | texts (value : List Str)
  | apps (value : List AppConfig)
  deriving DecidableEq

def Config.get (config : Config) : Field → Value
  | .name => .text config.name
  | .keyPath => .text config.identity.keyPath
  | .relayUrl => .text config.network.relayUrl
  | .proxy => .text config.network.proxy
  | .tokenTtlSecs => .number config.bind.tokenTtlSecs.toNat
  | .maxFailedAttempts => .number config.bind.maxFailedAttempts.toNat
  | .maxConcurrentConnections => .number config.bind.maxConcurrentConnections.toNat
  | .token => .text config.bind.token
  | .allowInvites => .flag config.bind.allowInvites
  | .inviteTtlSecs => .number config.bind.inviteTtlSecs.toNat
  | .maxPendingInvites => .number config.bind.maxPendingInvites.toNat
  | .maxConcurrentStreams => .number config.serve.maxConcurrentStreams.toNat
  | .refill => .number config.serve.rateLimit.refill.toNat
  | .intervalMs => .number config.serve.rateLimit.intervalMs.toNat
  | .max => .number config.serve.rateLimit.max.toNat
  | .enabled => .flag config.discovery.enabled
  | .intervalSecs => .number config.discovery.intervalSecs.toNat
  | .recheckSecs => .number config.discovery.recheckSecs.toNat
  | .probeTimeoutMs => .number config.discovery.probeTimeoutMs.toNat
  | .maxConcurrentProbes => .number config.discovery.maxConcurrentProbes.toNat
  | .minPort => .number config.discovery.minPort.toNat
  | .httpProbe => .flag config.discovery.httpProbe
  | .httpsProbe => .flag config.discovery.httpsProbe
  | .loopbackOnly => .flag config.discovery.loopbackOnly
  | .includeUnattributed => .flag config.discovery.includeUnattributed
  | .excludePorts => .ports config.discovery.excludePorts
  | .excludeProcesses => .texts config.discovery.excludeProcesses
  | .excludeOrigins => .texts config.discovery.excludeOrigins
  | .level => .text config.log.level
  | .apps => .apps config.apps

/-- The value that the environment gives to a field. -/
def overriding (env : Env) : Field → Option Value
  | .tokenTtlSecs => (envValue env "RAEMOTE_BIND_TTL_SECS" parseU64).map (.number ·.toNat)
  | .token => (envValue env "RAEMOTE_BIND_TOKEN" parseToken).map .text
  | .maxFailedAttempts => (envValue env "RAEMOTE_BIND_MAX_ATTEMPTS" parseU32).map (.number ·.toNat)
  | .maxConcurrentConnections =>
      (envValue env "RAEMOTE_MAX_BIND_CONNECTIONS" parseU64).map (.number ·.toNat)
  | .allowInvites => (envValue env "RAEMOTE_BIND_ALLOW_INVITES" parseBool).map .flag
  | .inviteTtlSecs => (envValue env "RAEMOTE_BIND_INVITE_TTL_SECS" parseU64).map (.number ·.toNat)
  | .maxPendingInvites => (envValue env "RAEMOTE_BIND_MAX_INVITES" parseU64).map (.number ·.toNat)
  | .maxConcurrentStreams =>
      (envValue env "RAEMOTE_MAX_CONCURRENT_STREAMS" parseU64).map (.number ·.toNat)
  | .refill => (envValue env "RAEMOTE_RATE_LIMIT_REFILL" parseU64).map (.number ·.toNat)
  | .intervalMs => (envValue env "RAEMOTE_RATE_LIMIT_INTERVAL_MS" parseU64).map (.number ·.toNat)
  | .max => (envValue env "RAEMOTE_RATE_LIMIT_MAX" parseU64).map (.number ·.toNat)
  | .enabled => (envValue env "RAEMOTE_DISCOVERY_ENABLED" parseBool).map .flag
  | .intervalSecs =>
      (envValue env "RAEMOTE_DISCOVERY_INTERVAL_SECS" parseU64).map (.number ·.toNat)
  | .probeTimeoutMs =>
      (envValue env "RAEMOTE_DISCOVERY_PROBE_TIMEOUT_MS" parseU64).map (.number ·.toNat)
  | .maxConcurrentProbes =>
      (envValue env "RAEMOTE_DISCOVERY_MAX_CONCURRENT_PROBES" parseU64).map (.number ·.toNat)
  | _ => none

/-- An override replaces the field it is for and no other. -/
theorem get_envOverride (env : Env) (config : Config) (field : Field) :
    (envOverride env config).get field = (overriding env field).getD (config.get field) := by
  have replaced {α : Type} (wrap : α → Value) (found : Option α) (value : α) :
      wrap (found.getD value) = (found.map wrap).getD (wrap value) := by
    cases found <;> rfl
  have number (found : Option UInt64) := replaced (fun n => .number n.toNat) found
  have small (found : Option UInt32) := replaced (fun n => .number n.toNat) found
  cases field <;> first | rfl | exact replaced _ _ _ | exact number _ _ | exact small _ _

attribute [ext] IdentityConfig NetworkConfig BindConfig RateLimitConfig ServeConfig DiscoveryConfig
  LogConfig Config

/-- There is nothing in a config but its fields. -/
theorem config_ext {a b : Config} (same : ∀ field, a.get field = b.get field) : a = b := by
  have number16 {x y : UInt16} (equal : Value.number x.toNat = .number y.toNat) : x = y :=
    UInt16.toNat_inj.mp (Value.number.inj equal)
  have number32 {x y : UInt32} (equal : Value.number x.toNat = .number y.toNat) : x = y :=
    UInt32.toNat_inj.mp (Value.number.inj equal)
  have number64 {x y : UInt64} (equal : Value.number x.toNat = .number y.toNat) : x = y :=
    UInt64.toNat_inj.mp (Value.number.inj equal)
  apply Config.ext
  · exact Value.text.inj (same .name)
  · exact IdentityConfig.ext (Value.text.inj (same .keyPath))
  · exact NetworkConfig.ext (Value.text.inj (same .relayUrl)) (Value.text.inj (same .proxy))
  · exact BindConfig.ext (number64 (same .tokenTtlSecs)) (number32 (same .maxFailedAttempts))
      (number64 (same .maxConcurrentConnections)) (Value.text.inj (same .token))
      (Value.flag.inj (same .allowInvites)) (number64 (same .inviteTtlSecs))
      (number64 (same .maxPendingInvites))
  · exact ServeConfig.ext (number64 (same .maxConcurrentStreams))
      (RateLimitConfig.ext (number64 (same .refill)) (number64 (same .intervalMs))
        (number64 (same .max)))
  · exact DiscoveryConfig.ext (Value.flag.inj (same .enabled)) (number64 (same .intervalSecs))
      (number64 (same .recheckSecs)) (number64 (same .probeTimeoutMs))
      (number64 (same .maxConcurrentProbes)) (number16 (same .minPort))
      (Value.flag.inj (same .httpProbe)) (Value.flag.inj (same .httpsProbe))
      (Value.flag.inj (same .loopbackOnly)) (Value.flag.inj (same .includeUnattributed))
      (Value.ports.inj (same .excludePorts)) (Value.texts.inj (same .excludeProcesses))
      (Value.texts.inj (same .excludeOrigins))
  · exact LogConfig.ext (Value.text.inj (same .level))
  · exact Value.apps.inj (same .apps)

theorem envOverride_twice (env : Env) (config : Config) :
    envOverride env (envOverride env config) = envOverride env config := by
  apply config_ext
  intro field
  rw [get_envOverride, get_envOverride]
  cases overriding env field <;> rfl

/-- Every field that a variable sets has the value of the variable, and any other what it has in
the base. -/
def Overridden (env : Env) (base config : Config) : Prop :=
  ∀ field, config.get field = (overriding env field).getD (base.get field)

/-- Variables are not looked at if there is no file. -/
theorem load_overridden_iff {env : Env} {toml : TomlConfig} {file : Option Str} {base : Config}
    (stored : storedConfig toml file = some base) :
    (∃ config, load env toml file = .ok config ∧ Overridden env base config) ↔
      file ≠ none ∨
        ∀ field value, overriding env field = some value → Config.default.get field = value := by
  cases file with
  | none =>
      obtain rfl : Config.default = base := Option.some.inj stored
      constructor
      · rintro ⟨config, loaded, overridden⟩
        obtain rfl : Config.default = config := Except.ok.inj loaded
        refine Or.inr fun field value set => ?_
        rw [overridden field, set, Option.getD_some]
      · intro reason
        refine ⟨.default, rfl, fun field => ?_⟩
        cases set : overriding env field with
        | none => rfl
        | some value => exact (reason.resolve_left (· rfl)) field value set
  | some content =>
      have read : toml.fromStr content = some base := stored
      exact iff_of_true ⟨envOverride env base, load_some read, get_envOverride env base⟩
        (Or.inl nofun)

/-- `toml` at the empty file. -/
def emptyToml : TomlConfig where
  toString _ := none
  fromStr content := if content = [] then some .default else none
  read_back _ _ written := by cases written

def ttlVariable : Env := fun key =>
  if key = "RAEMOTE_BIND_TTL_SECS".toList then some "900".toList else none

theorem ttl_loaded : ∃ config, load ttlVariable emptyToml (some []) = .ok config ∧
    Overridden ttlVariable .default config := by
  have stored : storedConfig emptyToml (some []) = some .default := by
    simp only [storedConfig, emptyToml, if_true]
  exact (load_overridden_iff stored).mpr (Or.inl nofun)

/-- The time is not what the variable says. -/
theorem ttl_ignored : overriding ttlVariable .tokenTtlSecs = some (.number 900) ∧
    load ttlVariable emptyToml none = .ok .default ∧
    Config.default.get .tokenTtlSecs = .number 300 ∧
    ¬ ∃ config, load ttlVariable emptyToml none = .ok config ∧
      Overridden ttlVariable .default config := by
  refine ⟨by decide, rfl, rfl, ?_⟩
  rintro ⟨config, loaded, overridden⟩
  obtain rfl : Config.default = config := Except.ok.inj loaded
  exact absurd (overridden .tokenTtlSecs) (by decide)

end RaemoteServer
