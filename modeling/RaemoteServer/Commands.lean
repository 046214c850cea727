import RaemoteServer.ConfigFile
import RaemoteServer.Discovery.Model

/-! The commands that change the config file: each loads it, changes one field and saves it. -/

namespace RaemoteServer

open Text Discovery

inductive Command where
  | configSet (key value : Str)
  | appsAdd (name : Str) (port : UInt16)
  | appsRemove (name : Str)
  | appsHide (target : Str)
  | appsUnhide (target : Str)

/-- An entry of the catalog that a running daemon lists. -/
structure ListedApp where
  name : Str
  host : Str
  port : UInt16

def parsed {α : Type} (value : Option α) : Except Str α :=
  match value with
  | some value => .ok value
  | none => .error "invalid value".toList

def Config.setBind (config : Config) (bind : Except Str BindConfig) : Except Str Config :=
  bind.map (fun bind => { config with bind })

def Config.setServe (config : Config) (serve : Except Str ServeConfig) : Except Str Config :=
  serve.map (fun serve => { config with serve })

def Config.setDiscovery (config : Config) (discovery : Except Str DiscoveryConfig) :
    Except Str Config :=
  discovery.map (fun discovery => { config with discovery })

def cmdConfigSet (config : Config) (key value : Str) : Except Str Config :=
  let bind := config.bind
  let serve := config.serve
  let rateLimit := serve.rateLimit
  let discovery := config.discovery
  match String.ofList key with
  | "name" => .ok { config with name := if trim value = [] then none else some value }
  | "bind.token_ttl_secs" =>
      config.setBind ((parsed (parseU64 value)).map ({ bind with tokenTtlSecs := · }))
  | "bind.max_failed_attempts" =>
      config.setBind ((parsed (parseU32 value)).map ({ bind with maxFailedAttempts := · }))
  | "bind.max_concurrent_connections" =>
      config.setBind ((parsed (parseU64 value)).map ({ bind with maxConcurrentConnections := · }))
  | "bind.allow_invites" =>
      config.setBind ((parsed (parseBool value)).map ({ bind with allowInvites := · }))
  | "bind.invite_ttl_secs" =>
      config.setBind ((parsed (parseU64 value)).map ({ bind with inviteTtlSecs := · }))
  | "bind.max_pending_invites" =>
      config.setBind ((parsed (parseU64 value)).map ({ bind with maxPendingInvites := · }))
  | "serve.max_concurrent_streams" =>
      config.setServe ((parsed (parseU64 value)).map ({ serve with maxConcurrentStreams := · }))
  | "serve.rate_limit.refill" =>
      config.setServe ((parsed (parseU64 value)).map
        (fun refill => { serve with rateLimit := { rateLimit with refill } }))
  | "serve.rate_limit.interval_ms" =>
      config.setServe ((parsed (parseU64 value)).map
        (fun intervalMs => { serve with rateLimit := { rateLimit with intervalMs } }))
  | "serve.rate_limit.max" =>
      config.setServe ((parsed (parseU64 value)).map
        (fun max => { serve with rateLimit := { rateLimit with max } }))
  | "discovery.loopback_only" =>
      config.setDiscovery ((parsed (parseBool value)).map ({ discovery with loopbackOnly := · }))
  | "discovery.include_unattributed" =>
      config.setDiscovery
        ((parsed (parseBool value)).map ({ discovery with includeUnattributed := · }))
  | "network.proxy" =>
      .ok { config with network := { config.network with
        proxy := if value = [] then none else some value } }
  | "network.relay_url" =>
      .ok { config with network := { config.network with
        relayUrl := if value = [] then none else some value } }
  | _ => .error ("unknown key: ".toList ++ key)

def cmdAppsAdd (config : Config) (name : Str) (port : UInt16) : Except Str Config :=
  if config.apps.any (·.name == name) then
    .error ("app '".toList ++ name ++ "' already exists".toList)
  else .ok { config with apps := config.apps ++ [⟨name, port⟩] }

def cmdAppsRemove (config : Config) (name : Str) : Except Str Config :=
  let apps := config.apps.filter (·.name != name)
  if apps.length = config.apps.length then
    .error ("app '".toList ++ name ++ "' not found".toList)
  else .ok { config with apps }

/-- `listed` is what a running daemon lists, and `loaded` the config as it loads here. -/
def resolveOrigin (listed : Option (List ListedApp)) (loaded : Except Str Config) (target : Str) :
    Except Str Origin :=
  let target := trim target
  let unknown := "no app or origin named '".toList ++ target ++ "' (try `raemote apps list`)".toList
  match Origin.parseAuthority target with
  | some origin => .ok origin
  | none =>
      match parseU16 target with
      | some port => .ok (.http "127.0.0.1".toList port)
      | none =>
          match listed with
          | some apps =>
              match apps.find? (·.name == target) with
              | some app => .ok (.http app.host app.port)
              | none => .error unknown
          | none =>
              match loaded with
              | .error message => .error message
              | .ok config =>
                  if config.apps.any (·.name == target) then
                    .error ("'".toList ++ target ++ "' is a manual app; remove it with ".toList ++
                      "`raemote apps remove ".toList ++ target ++ "`".toList)
                  else .error unknown

/-- The excluded origin is the one with this authority. -/
def excludes (key excluded : Str) : Bool :=
  (Origin.parseAuthority excluded).any (·.authority == key)

/-- Nothing to write if the origin is hidden already. -/
def cmdAppsHide (config : Config) (origin : Origin) : Option Config :=
  let key := origin.authority
  if config.discovery.excludeOrigins.any (excludes key) then none
  else some { config with discovery := { config.discovery with
    excludeOrigins := config.discovery.excludeOrigins ++ [key] } }

def unhideOrigin (target : Str) : Except Str Origin :=
  match Origin.parseAuthority target with
  | some origin => .ok origin
  | none =>
      match parseU16 (trim target) with
      | some port => .ok (.http "127.0.0.1".toList port)
      | none => .error ("'".toList ++ target ++ "' is not a host:port or port".toList)

def cmdAppsUnhide (config : Config) (origin : Origin) : Except Str Config :=
  let key := origin.authority
  let excludeOrigins := config.discovery.excludeOrigins.filter (!excludes key ·)
  if excludeOrigins.length = config.discovery.excludeOrigins.length then
    .error (key ++ " was not hidden".toList)
  else .ok { config with discovery := { config.discovery with excludeOrigins } }

section

variable (toml : TomlConfig) (env : Env) (listed : Option (List ListedApp))

/-- The content of the file after a command that succeeds. -/
def Command.run (file : Option Str) : Command → Except Str (Option Str)
  | .configSet key value => do
      let config ← load env toml file
      let config ← cmdConfigSet config key value
      validate config
      return some (← save toml config)
  | .appsAdd name port => do
      let config ← load env toml file
      let config ← cmdAppsAdd config name port
      validate config
      return some (← save toml config)
  | .appsRemove name => do
      let config ← load env toml file
      let config ← cmdAppsRemove config name
      return some (← save toml config)
  | .appsHide target => do
      let origin ← resolveOrigin listed (load env toml file) target
      let config ← load env toml file
      match cmdAppsHide config origin with
      | none => return file
      | some config => return some (← save toml config)
  | .appsUnhide target => do
      let origin ← unhideOrigin target
      let config ← load env toml file
      let config ← cmdAppsUnhide config origin
      return some (← save toml config)

end

/-! What each command is to change. -/

def keyField (key : Str) : Option Field :=
  match String.ofList key with
  | "name" => some .name
  | "bind.token_ttl_secs" => some .tokenTtlSecs
  | "bind.max_failed_attempts" => some .maxFailedAttempts
  | "bind.max_concurrent_connections" => some .maxConcurrentConnections
  | "bind.allow_invites" => some .allowInvites
  | "bind.invite_ttl_secs" => some .inviteTtlSecs
  | "bind.max_pending_invites" => some .maxPendingInvites
  | "serve.max_concurrent_streams" => some .maxConcurrentStreams
  | "serve.rate_limit.refill" => some .refill
  | "serve.rate_limit.interval_ms" => some .intervalMs
  | "serve.rate_limit.max" => some .max
  | "discovery.loopback_only" => some .loopbackOnly
  | "discovery.include_unattributed" => some .includeUnattributed
  | "network.proxy" => some .proxy
  | "network.relay_url" => some .relayUrl
  | _ => none

/-- A value as it is stored in a field that can be set. -/
def fieldValue (value : Str) : Field → Option Value
  | .name => some (.text (if trim value = [] then none else some value))
  | .proxy | .relayUrl => some (.text (if value = [] then none else some value))
  | .maxFailedAttempts => (parseU32 value).map (.number ·.toNat)
  | .allowInvites | .loopbackOnly | .includeUnattributed => (parseBool value).map .flag
  | .tokenTtlSecs | .maxConcurrentConnections | .inviteTtlSecs | .maxPendingInvites
  | .maxConcurrentStreams | .refill | .intervalMs | .max =>
      (parseU64 value).map (.number ·.toNat)
  | _ => none

def Command.field : Command → Option Field
  | .configSet key _ => keyField key
  | .appsAdd _ _ | .appsRemove _ => some .apps
  | .appsHide _ | .appsUnhide _ => some .excludeOrigins

/-- The origins hidden after `cmdAppsHide`. -/
def hiddenWith (excludeOrigins : List Str) (key : Str) : List Str :=
  if excludeOrigins.any (excludes key) then excludeOrigins else excludeOrigins ++ [key]

def Command.newValue (listed : Option (List ListedApp)) (before : Config) : Command → Option Value
  | .configSet key value => (keyField key).bind (fieldValue value)
  | .appsAdd name port => some (.apps (before.apps ++ [⟨name, port⟩]))
  | .appsRemove name => some (.apps (before.apps.filter (·.name != name)))
  | .appsHide target =>
      (resolveOrigin listed (.ok before) target).toOption.map
        (fun origin => .texts (hiddenWith before.discovery.excludeOrigins origin.authority))
  | .appsUnhide target =>
      (unhideOrigin target).toOption.map (fun origin =>
        .texts (before.discovery.excludeOrigins.filter (!excludes origin.authority ·)))

/-- One field has this value, and all others are as before. -/
structure Changes (before after : Config) (field : Field) (value : Value) : Prop where
  named : after.get field = value
  others : ∀ other, other ≠ field → after.get other = before.get other

theorem parsed_map {α β γ : Type} {found : Option α} {part : α → β} {whole : β → γ} {after : γ}
    (set : ((parsed found).map part).map whole = .ok after) :
    ∃ value, found = some value ∧ after = whole (part value) := by
  cases found with
  | none => cases set
  | some value =>
      cases set
      exact ⟨value, rfl, rfl⟩

theorem configSet_changes {config after : Config} {key value : Str}
    (set : cmdConfigSet config key value = .ok after) :
    ∃ field new, keyField key = some field ∧ fieldValue value field = some new ∧
      Changes config after field new := by
  unfold cmdConfigSet at set
  unfold keyField
  split at set
  case h_16 => cases set
  -- a value that is parsed, or one that is kept as text
  all_goals
    first
    | (obtain ⟨new, found, rfl⟩ := parsed_map set
       refine ⟨_, _, rfl, congrArg (Option.map _) found, rfl, ?_⟩)
    | (cases set
       refine ⟨_, _, rfl, rfl, rfl, ?_⟩)
  all_goals
    intro other different
    cases other <;> first | rfl | exact absurd rfl different

theorem appsAdd_changes {config after : Config} {name : Str} {port : UInt16}
    (added : cmdAppsAdd config name port = .ok after) :
    Changes config after .apps (.apps (config.apps ++ [⟨name, port⟩])) := by
  unfold cmdAppsAdd at added
  split at added
  · cases added
  · cases added
    refine ⟨rfl, ?_⟩
    intro other different
    cases other <;> first | rfl | exact absurd rfl different

theorem appsRemove_changes {config after : Config} {name : Str}
    (removed : cmdAppsRemove config name = .ok after) :
    Changes config after .apps (.apps (config.apps.filter (·.name != name))) := by
  unfold cmdAppsRemove at removed
  dsimp only at removed
  split at removed
  · cases removed
  · cases removed
    refine ⟨rfl, ?_⟩
    intro other different
    cases other <;> first | rfl | exact absurd rfl different

theorem appsHide_some {config after : Config} {origin : Origin}
    (hidden : cmdAppsHide config origin = some after) :
    after = { config with discovery := { config.discovery with
      excludeOrigins := hiddenWith config.discovery.excludeOrigins origin.authority } } := by
  unfold cmdAppsHide at hidden
  dsimp only at hidden
  split at hidden
  · cases hidden
  · rename_i fresh
    cases hidden
    rw [hiddenWith, if_neg fresh]

theorem appsHide_changes {config after : Config} {origin : Origin}
    (hidden : cmdAppsHide config origin = some after) :
    Changes config after .excludeOrigins
      (.texts (hiddenWith config.discovery.excludeOrigins origin.authority)) := by
  obtain rfl := appsHide_some hidden
  constructor
  · rfl
  · intro other different
    cases other <;> first | rfl | exact absurd rfl different

theorem appsHide_none {config : Config} {origin : Origin}
    (hidden : cmdAppsHide config origin = none) :
    hiddenWith config.discovery.excludeOrigins origin.authority =
      config.discovery.excludeOrigins := by
  unfold cmdAppsHide at hidden
  dsimp only at hidden
  split at hidden
  · rename_i already
    exact if_pos already
  · cases hidden

theorem appsUnhide_changes {config after : Config} {origin : Origin}
    (shown : cmdAppsUnhide config origin = .ok after) :
    Changes config after .excludeOrigins
      (.texts (config.discovery.excludeOrigins.filter (!excludes origin.authority ·))) := by
  unfold cmdAppsUnhide at shown
  dsimp only at shown
  split at shown
  · cases shown
  · cases shown
    refine ⟨rfl, ?_⟩
    intro other different
    cases other <;> first | rfl | exact absurd rfl different

/-! What a command leaves in the file. -/

/-- Hiding what is hidden already writes nothing. -/
def Command.writes (listed : Option (List ListedApp)) (before : Config) : Command → Bool
  | .appsHide target =>
      (resolveOrigin listed (.ok before) target).toOption.any
        (fun origin => (cmdAppsHide before origin).isSome)
  | _ => true

variable {toml : TomlConfig} {env : Env} {listed : Option (List ListedApp)}

/-- The last step of a command that writes. -/
theorem saved_ok {config : Config} {file : Option Str}
    (ran : (do return some (← save toml config) : Except Str (Option Str)) = .ok file) :
    ∃ content, toml.toString config = some content ∧ file = some content := by
  obtain ⟨content, saved, done⟩ := bind_ok ran
  cases done
  unfold save at saved
  cases text : toml.toString config with
  | none =>
      rw [text] at saved
      cases saved
  | some written =>
      rw [text] at saved
      cases saved
      exact ⟨content, rfl, rfl⟩

/-- A command that succeeds has written its one change of the config it loaded, or had nothing to
change. -/
inductive Ran (toml : TomlConfig) (listed : Option (List ListedApp)) (command : Command)
    (loaded : Config) (before : Option Str) : Option Str → Prop
  | wrote (after : Config) (content : Str) (field : Field) (value : Value)
      (writes : command.writes listed loaded = true) (named : command.field = some field)
      (new : command.newValue listed loaded = some value)
      (changes : Changes loaded after field value)
      (text : toml.toString after = some content) :
      Ran toml listed command loaded before (some content)
  | nothing (writes : command.writes listed loaded = false)
      (named : command.field = some .excludeOrigins)
      (new : command.newValue listed loaded = some (loaded.get .excludeOrigins)) :
      Ran toml listed command loaded before before

theorem resolveOrigin_ok {loaded : Config} {target : Str} {origin : Origin}
    (found : resolveOrigin listed (.ok loaded) target = .ok origin) (other : Config) :
    resolveOrigin listed (.ok other) target = .ok origin := by
  unfold resolveOrigin at found ⊢
  dsimp only at found ⊢
  cases authority : Origin.parseAuthority (trim target) with
  | some origin => simpa only [authority] using found
  | none =>
      cases port : parseU16 (trim target) with
      | some port => simpa only [authority, port] using found
      | none =>
          simp only [authority, port] at found ⊢
          cases listed with
          | some apps => exact found
          | none =>
              dsimp only at found
              split at found <;> cases found

theorem run_cases {command : Command} {before after : Option Str}
    (ran : command.run toml env listed before = .ok after) :
    ∃ loaded, load env toml before = .ok loaded ∧ Ran toml listed command loaded before after := by
  cases command with
  | configSet key value =>
      obtain ⟨loaded, load, ran⟩ := bind_ok ran
      obtain ⟨config, set, ran⟩ := bind_ok ran
      obtain ⟨-, valid, ran⟩ := bind_ok ran
      obtain ⟨content, text, rfl⟩ := saved_ok ran
      obtain ⟨field, new, named, stored, changes⟩ := configSet_changes set
      refine ⟨loaded, load, .wrote config content field new rfl named ?_ changes text⟩
      rw [Command.newValue, named]
      exact stored
  | appsAdd name port =>
      obtain ⟨loaded, load, ran⟩ := bind_ok ran
      obtain ⟨config, added, ran⟩ := bind_ok ran
      obtain ⟨-, valid, ran⟩ := bind_ok ran
      obtain ⟨content, text, rfl⟩ := saved_ok ran
      exact ⟨loaded, load, .wrote config content .apps _ rfl rfl rfl (appsAdd_changes added) text⟩
  | appsRemove name =>
      obtain ⟨loaded, load, ran⟩ := bind_ok ran
      obtain ⟨config, removed, ran⟩ := bind_ok ran
      obtain ⟨content, text, rfl⟩ := saved_ok ran
      exact ⟨loaded, load, .wrote config content .apps _ rfl rfl rfl
        (appsRemove_changes removed) text⟩
  | appsHide target =>
      obtain ⟨origin, resolved, ran⟩ := bind_ok ran
      obtain ⟨loaded, load, ran⟩ := bind_ok ran
      rw [load] at resolved
      have new : (Command.appsHide target).newValue listed loaded =
          some (.texts (hiddenWith loaded.discovery.excludeOrigins origin.authority)) := by
        rw [Command.newValue, resolved]
        rfl
      have writes : (Command.appsHide target).writes listed loaded =
          (cmdAppsHide loaded origin).isSome := by
        rw [Command.writes, resolved]
        rfl
      refine ⟨loaded, load, ?_⟩
      cases hidden : cmdAppsHide loaded origin with
      | none =>
          simp only [hidden] at ran
          cases ran
          apply Ran.nothing (by rw [writes, hidden]; rfl) rfl
          rw [new, appsHide_none hidden]
          rfl
      | some config =>
          simp only [hidden] at ran
          obtain ⟨content, text, rfl⟩ := saved_ok ran
          exact .wrote config content _ _ (by rw [writes, hidden]; rfl) rfl new
            (appsHide_changes hidden) text
  | appsUnhide target =>
      obtain ⟨origin, resolved, ran⟩ := bind_ok ran
      obtain ⟨loaded, load, ran⟩ := bind_ok ran
      obtain ⟨config, shown, ran⟩ := bind_ok ran
      obtain ⟨content, text, rfl⟩ := saved_ok ran
      refine ⟨loaded, load, .wrote config content _ _ rfl rfl ?_ (appsUnhide_changes shown) text⟩
      rw [Command.newValue, resolved]
      rfl

/-- What a command does to the fields it looks at does not depend on the variables. -/
theorem resolve_toOption (a b : Config) (target : Str) :
    (resolveOrigin listed (.ok a) target).toOption =
      (resolveOrigin listed (.ok b) target).toOption := by
  cases first : resolveOrigin listed (.ok a) target with
  | ok origin => rw [resolveOrigin_ok first b]
  | error message =>
      cases second : resolveOrigin listed (.ok b) target with
      | ok origin =>
          rw [resolveOrigin_ok second a] at first
          cases first
      | error other => rfl

theorem newValue_override (command : Command) (before : Config) :
    command.newValue listed (envOverride env before) = command.newValue listed before := by
  cases command with
  | appsHide target =>
      simp only [Command.newValue, resolve_toOption (envOverride env before) before]
      rfl
  | configSet => rfl
  | appsAdd => rfl
  | appsRemove => rfl
  | appsUnhide => rfl

theorem writes_override (command : Command) (before : Config) :
    command.writes listed (envOverride env before) = command.writes listed before := by
  have hidden (config : Config) (origin : Origin) : (cmdAppsHide config origin).isSome =
      !config.discovery.excludeOrigins.any (excludes origin.authority) := by
    unfold cmdAppsHide
    dsimp only
    split <;> simp_all
  cases command with
  | appsHide target =>
      simp only [Command.writes, resolve_toOption (envOverride env before) before, hidden]
      rfl
  | configSet => rfl
  | appsAdd => rfl
  | appsRemove => rfl
  | appsUnhide => rfl

/-- Read back without the variables, the file is as before but for the field that the command
names, which has its new value. -/
def OnlyNamedChanged (toml : TomlConfig) (listed : Option (List ListedApp)) (command : Command)
    (before : Config) (file : Option Str) : Prop :=
  ∃ after field value, storedConfig toml file = some after ∧ command.field = some field ∧
    command.newValue listed before = some value ∧ Changes before after field value

/-- Every variable that takes effect gives its field what the file has, but for the field that the
command sets. -/
def OverridesStored (env : Env) (command : Command) (before : Config) : Prop :=
  ∀ field, command.field ≠ some field →
    ∀ value, overriding env field = some value → before.get field = value

/-- The variables are written to the file with the change. -/
theorem only_named_changed_iff {command : Command} {file file' : Option Str} {before : Config}
    (ran : command.run toml env listed file = .ok file')
    (stored : storedConfig toml file = some before) :
    OnlyNamedChanged toml listed command before file' ↔
      file = none ∨ command.writes listed before = false ∨ OverridesStored env command before := by
  obtain ⟨loaded, load, ran⟩ := run_cases ran
  cases file with
  | none =>
      cases load
      cases stored
      apply iff_of_true _ (Or.inl rfl)
      cases ran with
      | wrote after content field value writes named new changes text =>
          exact ⟨after, field, value, toml.read_back _ _ text, named, new, changes⟩
      | nothing writes named new =>
          exact ⟨_, _, _, rfl, named, new, rfl, fun _ _ => rfl⟩
  | some content =>
      have parsed : toml.fromStr content = some before := stored
      obtain rfl : envOverride env before = loaded :=
        Except.ok.inj ((load_some parsed).symm.trans load)
      cases ran with
      | nothing writes named new =>
          rw [newValue_override] at new
          rw [writes_override] at writes
          exact iff_of_true ⟨_, _, _, stored, named, new, rfl, fun _ _ => rfl⟩
            (Or.inr (Or.inl writes))
      | wrote after text field value writes named new changes written =>
          rw [newValue_override] at new
          rw [writes_override] at writes
          have back : storedConfig toml (some text) = some after := toml.read_back _ _ written
          constructor
          · rintro ⟨found, _, _, again, same, -, others⟩
            rw [back] at again
            cases again
            rw [named] at same
            cases same
            refine Or.inr (Or.inr fun other different value override => ?_)
            rw [named] at different
            have away : other ≠ field := fun equal => different (by rw [equal])
            calc
              before.get other = after.get other := (others.others other away).symm
              _ = (overriding env other).getD (before.get other) := by
                rw [changes.others other away, get_envOverride]
              _ = value := by rw [override, Option.getD_some]
          · rintro (missing | nothing | agree)
            · cases missing
            · rw [writes] at nothing
              cases nothing
            · refine ⟨after, field, value, back, named, new, changes.named, ?_⟩
              intro other away
              have different : command.field ≠ some other := by
                rw [named]
                exact fun equal => away (Option.some.inj equal).symm
              rw [changes.others other away, get_envOverride]
              cases override : overriding env other with
              | none => rfl
              | some value => exact (agree other different value override).symm

/-- `toml` at the empty file and at one config, in the form in which it is written. -/
def tomlOf (config : Config) (text : Str) : TomlConfig where
  toString other := if other = config then some text else none
  fromStr content :=
    if content = text then some config else if content = [] then some .default else none
  read_back other written shape := by
    by_cases same : other = config
    · rw [if_pos same] at shape
      rw [← Option.some.inj shape, if_pos rfl, same]
    · rw [if_neg same] at shape
      cases shape

/-- The file with these lines in the section of the pairing token. -/
def writtenToml (lines : List String) : Str :=
  (["apps = []\n\n[identity]\n\n[network]\n\n[bind]\n"] ++ lines ++
    ["allow_invites = true\ninvite_ttl_secs = 300\nmax_pending_invites = 3\n\n",
      "[serve]\nmax_concurrent_streams = 100\n\n",
      "[serve.rate_limit]\nrefill = 100\ninterval_ms = 1000\nmax = 1000\n\n",
      "[discovery]\nenabled = true\ninterval_secs = 30\nrecheck_secs = 300\n",
      "probe_timeout_ms = 400\nmax_concurrent_probes = 16\nmin_port = 1024\n",
      "http_probe = true\nhttps_probe = false\nloopback_only = true\n",
      "include_unattributed = true\nexclude_ports = []\nexclude_processes = []\n",
      "exclude_origins = []\n\n[log]\n"]).flatMap String.toList

def setTtl : Command := .configSet "bind.token_ttl_secs".toList "600".toList

def ttlConfig (token : Option Str) : Config :=
  { Config.default with bind := { BindConfig.default with tokenTtlSecs := 600, token } }

def ttlToml : TomlConfig := tomlOf (ttlConfig none)
  (writtenToml ["token_ttl_secs = 600\nmax_failed_attempts = 10\n",
    "max_concurrent_connections = 50\n"])

def tokenToml : TomlConfig := tomlOf (ttlConfig (some "0123456789abcdef".toList))
  (writtenToml ["token_ttl_secs = 600\nmax_failed_attempts = 10\n",
    "max_concurrent_connections = 50\n", "token = \"0123456789abcdef\"\n"])

def oneVariable (key value : String) : Env := fun other =>
  if other = key.toList then some value.toList else none

theorem set_ttl_run {env : Env} {config : Config} {text : Str} (present : text ≠ [])
    (set : cmdConfigSet (envOverride env .default) "bind.token_ttl_secs".toList "600".toList =
      .ok config) (valid : validate config = .ok ()) :
    setTtl.run (tomlOf config text) env none (some []) = .ok (some text) := by
  have loaded : load env (tomlOf config text) (some []) = .ok (envOverride env .default) :=
    load_some (by simp [tomlOf, present.symm])
  have saved : save (tomlOf config text) config = .ok text := by simp [save, tomlOf]
  simp only [setTtl, Command.run, loaded, bind, Except.bind, set, valid, saved, pure, Except.pure]

theorem written_ne_nil (lines : List String) : writtenToml lines ≠ [] := by
  intro nothing
  have front := (List.append_eq_nil_iff.mp nothing).1
  simp at front

theorem stored_empty {config : Config} {text : Str} (present : text ≠ []) :
    storedConfig (tomlOf config text) (some []) = some .default := by
  simp [storedConfig, tomlOf, present.symm]

theorem stored_back (config : Config) (text : Str) :
    storedConfig (tomlOf config text) (some text) = some config := if_pos rfl

/-- A variable for the field that is set makes no difference. -/
theorem set_ttl_alone : ∃ file,
    setTtl.run ttlToml (oneVariable "RAEMOTE_BIND_TTL_SECS" "900") none (some []) = .ok file ∧
      OnlyNamedChanged ttlToml none setTtl .default file := by
  have ran : setTtl.run ttlToml (oneVariable "RAEMOTE_BIND_TTL_SECS" "900") none (some []) = _ :=
    set_ttl_run (written_ne_nil _) rfl (by decide)
  refine ⟨_, ran, (only_named_changed_iff ran (stored_empty (written_ne_nil _))).mpr ?_⟩
  refine Or.inr (Or.inr fun field different value override => ?_)
  cases field
  case tokenTtlSecs => exact absurd rfl different
  all_goals cases override

/-- The token that only the environment had is in the file. -/
theorem set_ttl_stores_token : ∃ file after,
    setTtl.run tokenToml (oneVariable "RAEMOTE_BIND_TOKEN" "0123456789abcdef") none (some []) =
      .ok file ∧
    storedConfig tokenToml (some []) = some .default ∧ storedConfig tokenToml file = some after ∧
    Config.default.bind.token = none ∧ after.bind.token = some "0123456789abcdef".toList ∧
    ¬ OnlyNamedChanged tokenToml none setTtl .default file := by
  have back : storedConfig tokenToml (some _) = some _ := stored_back _ _
  have valid : validate (ttlConfig (some "0123456789abcdef".toList)) = .ok () := by decide
  refine ⟨_, _, set_ttl_run (written_ne_nil _) rfl valid, stored_empty (written_ne_nil _), back,
    rfl, rfl, ?_⟩
  rintro ⟨found, field, value, again, named, -, changes⟩
  rw [back] at again
  cases again
  cases named
  cases changes.others .token nofun

end RaemoteServer
