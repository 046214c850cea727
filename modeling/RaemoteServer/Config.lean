import RaemoteServer.Library.Collections
import RaemoteServer.Library.Text

/-! `~/.raemote/config.toml` and its validation. -/

namespace RaemoteServer

open Text Collections

structure IdentityConfig where
  keyPath : Option Str
  deriving DecidableEq

structure NetworkConfig where
  relayUrl : Option Str
  proxy : Option Str
  deriving DecidableEq

structure BindConfig where
  tokenTtlSecs : UInt64
  maxFailedAttempts : UInt32
  maxConcurrentConnections : UInt64
  token : Option Str
  allowInvites : Bool
  inviteTtlSecs : UInt64
  maxPendingInvites : UInt64
  deriving DecidableEq

structure RateLimitConfig where
  refill : UInt64
  intervalMs : UInt64
  max : UInt64
  deriving DecidableEq

structure ServeConfig where
  maxConcurrentStreams : UInt64
  rateLimit : RateLimitConfig
  deriving DecidableEq

structure DiscoveryConfig where
  enabled : Bool
  intervalSecs : UInt64
  recheckSecs : UInt64
  probeTimeoutMs : UInt64
  maxConcurrentProbes : UInt64
  minPort : UInt16
  httpProbe : Bool
  httpsProbe : Bool
  loopbackOnly : Bool
  includeUnattributed : Bool
  excludePorts : List UInt16
  excludeProcesses : List Str
  excludeOrigins : List Str
  deriving DecidableEq

structure LogConfig where
  level : Option Str
  deriving DecidableEq

/-- `/app/{name}` proxies to `127.0.0.1:{port}`. -/
structure AppConfig where
  name : Str
  port : UInt16
  deriving DecidableEq

structure Config where
  name : Option Str
  identity : IdentityConfig
  network : NetworkConfig
  bind : BindConfig
  serve : ServeConfig
  discovery : DiscoveryConfig
  log : LogConfig
  apps : List AppConfig
  deriving DecidableEq

def defaultInviteTtlSecs : UInt64 := 300
def defaultMaxPendingInvites : UInt64 := 3

def BindConfig.default : BindConfig where
  tokenTtlSecs := 300
  maxFailedAttempts := 10
  maxConcurrentConnections := 50
  token := none
  allowInvites := true
  inviteTtlSecs := defaultInviteTtlSecs
  maxPendingInvites := defaultMaxPendingInvites

def RateLimitConfig.default : RateLimitConfig where
  refill := 100
  intervalMs := 1000
  max := 1000

def ServeConfig.default : ServeConfig where
  maxConcurrentStreams := 100
  rateLimit := .default

def DiscoveryConfig.default : DiscoveryConfig where
  enabled := true
  intervalSecs := 30
  recheckSecs := 300
  probeTimeoutMs := 400
  maxConcurrentProbes := 16
  minPort := 1024
  httpProbe := true
  httpsProbe := false
  loopbackOnly := true
  includeUnattributed := true
  excludePorts := []
  excludeProcesses := []
  excludeOrigins := []

def Config.default : Config where
  name := none
  identity := ⟨none⟩
  network := ⟨none, none⟩
  bind := .default
  serve := .default
  discovery := .default
  log := ⟨none⟩
  apps := []

/-! Validation. -/

/-- One message if the check failed. -/
def problem (found : Bool) (message : String) : List Str := if found then [message.toList] else []

def tokenTooShort (token : Option Str) : Bool :=
  token.any (fun token => (utf8 (trim token)).length < 16)

/-- `names` are the names seen so far. -/
def appProblems (names : HashSet Str) : List AppConfig → List Str
  | [] => []
  | app :: rest =>
      (if app.name ∈ names then ["duplicate app name: ".toList ++ app.name] else []) ++
        (if app.port = 0 then ["app '".toList ++ app.name ++
          "' port must be > 0".toList] else []) ++
        appProblems (names.insert app.name) rest

def problems (config : Config) : List Str :=
  problem (config.bind.tokenTtlSecs == 0) "bind.token_ttl_secs must be > 0" ++
  problem (tokenTooShort config.bind.token) "bind.token must be at least 16 characters" ++
  problem (config.bind.maxFailedAttempts == 0) "bind.max_failed_attempts must be > 0" ++
  problem (config.bind.maxConcurrentConnections == 0)
    "bind.max_concurrent_connections must be > 0" ++
  problem (config.bind.inviteTtlSecs == 0) "bind.invite_ttl_secs must be > 0" ++
  problem (config.bind.maxPendingInvites == 0) "bind.max_pending_invites must be > 0" ++
  problem (config.serve.maxConcurrentStreams == 0) "serve.max_concurrent_streams must be > 0" ++
  problem (config.serve.rateLimit.refill == 0) "serve.rate_limit.refill must be > 0" ++
  problem (config.serve.rateLimit.intervalMs == 0) "serve.rate_limit.interval_ms must be > 0" ++
  problem (config.serve.rateLimit.max == 0) "serve.rate_limit.max must be > 0" ++
  problem (config.discovery.intervalSecs == 0) "discovery.interval_secs must be > 0" ++
  problem (config.discovery.recheckSecs == 0) "discovery.recheck_secs must be > 0" ++
  problem (config.discovery.probeTimeoutMs == 0) "discovery.probe_timeout_ms must be > 0" ++
  problem (config.discovery.maxConcurrentProbes == 0)
    "discovery.max_concurrent_probes must be > 0" ++
  appProblems .empty config.apps

def validate (config : Config) : Except Str Unit :=
  if problems config = [] then .ok ()
  else .error ("config validation failed:\n  ".toList ++ join "\n  ".toList (problems config))

theorem validate_ok {config : Config} : validate config = .ok () ↔ problems config = [] := by
  unfold validate
  split <;> simp [*]

example : validate .default = .ok () := by decide

theorem appProblems_nil {names : HashSet Str} {apps : List AppConfig}
    (clean : appProblems names apps = []) :
    (apps.map AppConfig.name).Nodup ∧ ∀ app ∈ apps, app.name ∉ names := by
  induction apps generalizing names with
  | nil => simp
  | cons app rest ih =>
      obtain ⟨⟨unseen, -⟩, others⟩ : ((if app.name ∈ names then _ else []) = [] ∧ _) ∧ _ := by
        simpa only [appProblems, List.append_eq_nil_iff] using clean
      obtain ⟨distinct, fresh⟩ := ih others
      have absent : app.name ∉ names := by
        intro seen
        rw [if_pos seen] at unseen
        cases unseen
      refine ⟨List.nodup_cons.mpr ⟨?_, distinct⟩, ?_⟩
      · intro again
        obtain ⟨other, member, same⟩ := List.mem_map.mp again
        exact fresh other member (HashSet.mem_insert.mpr (Or.inl same))
      · intro other member
        rcases List.mem_cons.mp member with rfl | later
        · exact absent
        · exact fun seen => fresh other later (HashSet.mem_insert.mpr (Or.inr seen))

/-- An accepted config names no two apps alike. -/
theorem validate_names {config : Config} (valid : validate config = .ok ()) :
    (config.apps.map AppConfig.name).Nodup := by
  have clean := validate_ok.mp valid
  simp only [problems, List.append_eq_nil_iff] at clean
  exact (appProblems_nil clean.2).1

end RaemoteServer
