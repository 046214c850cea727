import RaemoteServer.Auth.Runs
import RaemoteServer.ConfigFile

/-! The config that the daemon shares with its handlers: the `Reload` requests that replace it, the
limit that is set from it and the limiters that are built from it. Atomics are sequentially
consistent. A section under a lock is one step, unless its guard outlives a step; then the config
is not written meanwhile. -/

namespace RaemoteServer.Daemon

open Text Collections Runs Auth

/-- What reading the config file comes to. -/
inductive FileRead where
  | missing
  | unreadable
  | content (text : Str)
  deriving DecidableEq

/-- The answer to a `Reload` request. -/
inductive ReloadAnswer where
  | error (message : Str)
  | applied (restartRequired : List Str)
  deriving DecidableEq

/-- How far the handler of a `Reload` request is. -/
inductive ReloadStage where
  | received
  /-- The file is read and valid. -/
  | loaded (new : Config)
  | compared (new : Config) (restartRequired : List Str)
  | replaced (restartRequired : List Str)
  /-- With a read guard on the config, and the limit that was read. -/
  | guarded (limit : UInt32) (restartRequired : List Str)
  | limited (restartRequired : List Str)
  | bumped (restartRequired : List Str)
  | answered (answer : ReloadAnswer)
  deriving DecidableEq

structure ReloadTask where
  stage : ReloadStage
  /-- The number of the config it installed. Nothing in the code corresponds to this. -/
  install : Nat
  deriving DecidableEq

/-- What a `NodeLimiter` is built from. -/
structure Limiter where
  serve : ServeConfig
  /-- The number of the config it was built from. Nothing in the code corresponds to this. -/
  install : Nat
  deriving DecidableEq

/-- How far a call of `get_or_create_limiter` is. -/
inductive CallStage where
  | loadGeneration
  | loadLimiterGeneration (current : Nat)
  /-- The generations differed; waits for the lock. -/
  | clear (current : Nat)
  | readConfig
  /-- With a read guard on the config; waits for the lock. -/
  | guarded
  | returned (limiter : Limiter)
  deriving DecidableEq

structure LimiterCall (Node : Type) where
  node : Node
  stage : CallStage
  deriving DecidableEq

structure DaemonState (Node : Type) where
  config : Config
  /-- How often the config was replaced. Nothing in the code corresponds to this. -/
  installs : Nat
  auth : Clocked Node
  configGeneration : Nat
  /-- A stored wake-up of the discovery engine. -/
  discoveryTrigger : Bool
  reloads : List ReloadTask
  limiterGeneration : Nat
  limiters : HashMap Node Limiter
  calls : List (LimiterCall Node)

inductive Event (Node : Type) where
  /-- What others do with the authorization state. -/
  | auth (operation : Operation Node)
  /-- A `Reload` request arrives. -/
  | request
  | read (r : Nat) (file : FileRead)
  | reload (r : Nat)
  /-- `get_or_create_limiter` is called. -/
  | call (node : Node)
  | limiter (c : Nat)

/-! Reading the file, and what needs a restart. -/

section

variable (env : Env) (toml : TomlConfig)

def loadFile : FileRead → Except Str Config
  | .missing => load env toml none
  | .unreadable => .error "failed to read config.toml".toList
  | .content text => load env toml (some text)

def reload (file : FileRead) : Except Str Config :=
  (loadFile env toml file).map (fun config => { config with identity := ⟨none⟩ })

def readStage (file : FileRead) : ReloadStage :=
  match reload env toml file with
  | .error message => .answered (.error ("reload failed: ".toList ++ message))
  | .ok new =>
      match validate new with
      | .error message => .answered (.error ("config validation failed: ".toList ++ message))
      | .ok () => .loaded new

end

def restartRequired (config new : Config) : List Str :=
  (if config.network.relayUrl ≠ new.network.relayUrl then ["network.relay_url".toList] else []) ++
    (if config.network.proxy ≠ new.network.proxy then ["network.proxy".toList] else [])

variable {Node : Type} [DecidableEq Node] [EndpointId Node]

/-! The steps. -/

def ReloadStage.holdsGuard : ReloadStage → Bool
  | .guarded _ _ => true
  | _ => false

def DaemonState.readLocked (daemon : DaemonState Node) : Bool :=
  daemon.reloads.any (fun task => task.stage.holdsGuard) ||
    daemon.calls.any (fun call => call.stage == .guarded)

def DaemonState.setReload (daemon : DaemonState Node) (r : Nat) (task : ReloadTask) :
    DaemonState Node :=
  { daemon with reloads := daemon.reloads.set r task }

def DaemonState.setCall (daemon : DaemonState Node) (c : Nat) (call : LimiterCall Node) :
    DaemonState Node :=
  { daemon with calls := daemon.calls.set c call }

/-- One step of the handler of a `Reload` request, once the file is read. -/
def DaemonState.reloadStep (daemon : DaemonState Node) :
    ReloadTask → Option (ReloadTask × DaemonState Node)
  | ⟨.loaded new, install⟩ =>
      some (⟨.compared new (restartRequired daemon.config new), install⟩, daemon)
  | ⟨.compared new fields, _⟩ =>
      if daemon.readLocked then none
      else
        let installs := daemon.installs + 1
        some (⟨.replaced fields, installs⟩, { daemon with config := new, installs })
  | ⟨.replaced fields, install⟩ =>
      some (⟨.guarded daemon.config.bind.maxFailedAttempts fields, install⟩, daemon)
  | ⟨.guarded limit fields, install⟩ =>
      let auth := { daemon.auth with auth := daemon.auth.auth.setMaxAttempts limit }
      some (⟨.limited fields, install⟩, { daemon with auth })
  | ⟨.limited fields, install⟩ =>
      some (⟨.bumped fields, install⟩,
        { daemon with configGeneration := daemon.configGeneration + 1 })
  | ⟨.bumped fields, install⟩ =>
      some (⟨.answered (.applied fields), install⟩, { daemon with discoveryTrigger := true })
  | ⟨.received, _⟩ | ⟨.answered _, _⟩ => none

/-- One step of `get_or_create_limiter`. -/
def DaemonState.limiterStep (daemon : DaemonState Node) (node : Node) :
    CallStage → Option (CallStage × DaemonState Node)
  | .loadGeneration => some (.loadLimiterGeneration daemon.configGeneration, daemon)
  | .loadLimiterGeneration current =>
      some (if current ≠ daemon.limiterGeneration then .clear current else .readConfig, daemon)
  | .clear current =>
      some (.readConfig,
        if daemon.limiterGeneration ≠ current then
          { daemon with limiters := ∅, limiterGeneration := current }
        else daemon)
  | .readConfig => some (.guarded, daemon)
  | .guarded =>
      match daemon.limiters.lookup node with
      | some limiter => some (.returned limiter, daemon)
      | none =>
          let limiter := ⟨daemon.config.serve, daemon.installs⟩
          some (.returned limiter, { daemon with limiters := daemon.limiters.insert node limiter })
  | .returned _ => none

def step (env : Env) (toml : TomlConfig) (daemon : DaemonState Node) :
    Event Node → Option (DaemonState Node)
  -- only a reload sets the limit
  | .auth (.setMaxAttempts _) => none
  | .auth operation => some { daemon with auth := (perform daemon.auth operation).2.2 }
  | .request => some { daemon with reloads := daemon.reloads ++ [⟨.received, 0⟩] }
  | .read r file =>
      match daemon.reloads[r]? with
      | some ⟨.received, install⟩ => some (daemon.setReload r ⟨readStage env toml file, install⟩)
      | _ => none
  | .reload r => do
      let task ← daemon.reloads[r]?
      let (task, daemon) ← daemon.reloadStep task
      return daemon.setReload r task
  | .call node => some { daemon with calls := daemon.calls ++ [⟨node, .loadGeneration⟩] }
  | .limiter c => do
      let call ← daemon.calls[c]?
      let (stage, daemon) ← daemon.limiterStep call.node call.stage
      return daemon.setCall c ⟨call.node, stage⟩

def machine (env : Env) (toml : TomlConfig) :
    Machine (DaemonState Node) (Event Node) Unit where
  step daemon event := (step env toml daemon event).map ((), ·)

/-- The daemon when it starts to serve, from the files that it reads, the bytes of its first
pairing token and the two clocks. -/
def boot (env : Env) (toml : TomlConfig) (strings : TomlStrings) (file : FileRead)
    (store names : Option Str) (now : Instant) (unixNow : Nat) (random : Bytes32) :
    Except Str (DaemonState Node) := do
  let config ← loadFile env toml file
  validate config
  let auth := loadAt strings store names config.bind.maxFailedAttempts
  let ttl := fromSecs config.bind.tokenTtlSecs.toNat
  let (_, auth) := auth.mintTokenWith now unixNow random ttl config.bind.token
  return {
    config, installs := 0, auth := ⟨auth, now⟩, configGeneration := 0, discoveryTrigger := false
    reloads := [], limiterGeneration := 0, limiters := ∅, calls := [] }

/-! What a step can do. -/

/-- The request whose handler takes the step. -/
def Event.handled : Event Node → Option Nat
  | .read r _ | .reload r => some r
  | _ => none

/-- A handler goes on with its request: what the request was, what it is then, and the state. -/
inductive Handled (env : Env) (toml : TomlConfig) (before : DaemonState Node) :
    ReloadTask → ReloadTask → DaemonState Node → Prop
  | failed (message : Str) (install : Nat) :
      Handled env toml before ⟨.received, install⟩ ⟨.answered (.error message), install⟩ before
  | load (new : Config) (install : Nat) (valid : validate new = .ok ()) :
      Handled env toml before ⟨.received, install⟩ ⟨.loaded new, install⟩ before
  | compare (new : Config) (install : Nat) :
      Handled env toml before ⟨.loaded new, install⟩
        ⟨.compared new (restartRequired before.config new), install⟩ before
  | replace (new : Config) (fields : List Str) (install : Nat) (free : before.readLocked = false) :
      Handled env toml before ⟨.compared new fields, install⟩
        ⟨.replaced fields, before.installs + 1⟩
        { before with config := new, installs := before.installs + 1 }
  | guard (fields : List Str) (install : Nat) :
      Handled env toml before ⟨.replaced fields, install⟩
        ⟨.guarded before.config.bind.maxFailedAttempts fields, install⟩ before
  | limit (limit : UInt32) (fields : List Str) (install : Nat) :
      Handled env toml before ⟨.guarded limit fields, install⟩ ⟨.limited fields, install⟩
        { before with auth := { before.auth with auth := before.auth.auth.setMaxAttempts limit } }
  | bump (fields : List Str) (install : Nat) :
      Handled env toml before ⟨.limited fields, install⟩ ⟨.bumped fields, install⟩
        { before with configGeneration := before.configGeneration + 1 }
  | answer (fields : List Str) (install : Nat) :
      Handled env toml before ⟨.bumped fields, install⟩ ⟨.answered (.applied fields), install⟩
        { before with discoveryTrigger := true }

/-- A call of `get_or_create_limiter` goes on. -/
inductive Called (before : DaemonState Node) (node : Node) :
    CallStage → CallStage → DaemonState Node → Prop
  | loadGeneration :
      Called before node .loadGeneration (.loadLimiterGeneration before.configGeneration) before
  | differs (current : Nat) (other : current ≠ before.limiterGeneration) :
      Called before node (.loadLimiterGeneration current) (.clear current) before
  | agrees : Called before node (.loadLimiterGeneration before.limiterGeneration) .readConfig before
  | clear (current : Nat) (other : before.limiterGeneration ≠ current) :
      Called before node (.clear current) .readConfig
        { before with limiters := ∅, limiterGeneration := current }
  | cleared : Called before node (.clear before.limiterGeneration) .readConfig before
  | readConfig : Called before node .readConfig .guarded before
  | found (limiter : Limiter) (known : before.limiters.lookup node = some limiter) :
      Called before node .guarded (.returned limiter) before
  | build (limiter : Limiter) (unknown : before.limiters.lookup node = none)
      (shape : limiter = ⟨before.config.serve, before.installs⟩) :
      Called before node .guarded (.returned limiter)
        { before with limiters := before.limiters.insert node limiter }

inductive Stepped (env : Env) (toml : TomlConfig) (before : DaemonState Node) :
    Event Node → DaemonState Node → Prop
  | auth (operation : Operation Node) (other : ∀ val, operation ≠ .setMaxAttempts val) :
      Stepped env toml before (.auth operation)
        { before with auth := (perform before.auth operation).2.2 }
  | request :
      Stepped env toml before .request
        { before with reloads := before.reloads ++ [⟨.received, 0⟩] }
  | reload (event : Event Node) (r : Nat) (old new : ReloadTask) (middle : DaemonState Node)
      (own : event.handled = some r) (present : before.reloads[r]? = some old)
      (handled : Handled env toml before old new middle) :
      Stepped env toml before event (middle.setReload r new)
  | call (node : Node) :
      Stepped env toml before (.call node)
        { before with calls := before.calls ++ [⟨node, .loadGeneration⟩] }
  | limiter (c : Nat) (node : Node) (old new : CallStage) (middle : DaemonState Node)
      (present : before.calls[c]? = some ⟨node, old⟩) (called : Called before node old new middle) :
      Stepped env toml before (.limiter c) (middle.setCall c ⟨node, new⟩)

variable {env : Env} {toml : TomlConfig} {before after : DaemonState Node}

omit [DecidableEq Node] [EndpointId Node] in
theorem read_handled (file : FileRead) (install : Nat) :
    Handled env toml before ⟨.received, install⟩ ⟨readStage env toml file, install⟩ before := by
  unfold readStage
  cases reload env toml file with
  | error message => exact .failed _ install
  | ok new =>
      cases valid : validate new with
      | error message =>
          simp only [valid]
          exact .failed _ install
      | ok done =>
          simp only [valid]
          exact .load new install valid

omit [DecidableEq Node] [EndpointId Node] in
theorem reload_handled {old new : ReloadTask} (taken : before.reloadStep old = some (new, after)) :
    Handled env toml before old new after := by
  obtain ⟨stage, install⟩ := old
  cases stage with
  | received => cases taken
  | loaded config =>
      cases taken
      exact .compare config install
  | compared config fields =>
      simp only [DaemonState.reloadStep] at taken
      split at taken
      · cases taken
      · rename_i free
        cases taken
        exact .replace config fields install (by simpa using free)
  | replaced fields =>
      cases taken
      exact .guard fields install
  | guarded limit fields =>
      cases taken
      exact .limit limit fields install
  | limited fields =>
      cases taken
      exact .bump fields install
  | bumped fields =>
      cases taken
      exact .answer fields install
  | answered answer => cases taken

omit [EndpointId Node] in
theorem limiter_called {node : Node} {old new : CallStage}
    (taken : before.limiterStep node old = some (new, after)) :
    Called before node old new after := by
  cases old with
  | loadGeneration =>
      cases taken
      exact .loadGeneration
  | loadLimiterGeneration current =>
      cases taken
      split
      · rename_i other
        exact .differs current other
      · rename_i same
        rw [not_not.mp same]
        exact .agrees
  | clear current =>
      cases taken
      split
      · rename_i other
        exact .clear current other
      · rename_i same
        rw [← not_not.mp same]
        exact .cleared
  | readConfig =>
      cases taken
      exact .readConfig
  | guarded =>
      simp only [DaemonState.limiterStep] at taken
      split at taken
      · rename_i limiter known
        cases taken
        exact .found limiter known
      · rename_i unknown
        cases taken
        exact .build _ unknown rfl
  | returned limiter => cases taken

theorem stepped {event : Event Node} {output : Unit}
    (taken : (machine env toml).step before event = some (output, after)) :
    Stepped env toml before event after := by
  obtain ⟨next, moved, shape⟩ := Option.map_eq_some_iff.mp taken
  obtain rfl : next = after := (Prod.mk.inj shape).2
  cases event with
  | auth operation =>
      cases operation with
      | setMaxAttempts val => cases moved
      | _ =>
          cases moved
          exact .auth _ (fun val same => by cases same)
  | request =>
      cases moved
      exact .request
  | read r file =>
      simp only [step] at moved
      split at moved
      · rename_i install present
        cases moved
        exact .reload _ r _ _ _ rfl present (read_handled file install)
      · cases moved
  | reload r =>
      obtain ⟨old, present, inside⟩ := Option.bind_eq_some_iff.mp moved
      obtain ⟨⟨new, middle⟩, advanced, written⟩ := Option.bind_eq_some_iff.mp inside
      cases written
      exact .reload _ r old new middle rfl present (reload_handled advanced)
  | call node =>
      cases moved
      exact .call node
  | limiter c =>
      obtain ⟨call, present, inside⟩ := Option.bind_eq_some_iff.mp moved
      obtain ⟨⟨new, middle⟩, advanced, written⟩ := Option.bind_eq_some_iff.mp inside
      cases written
      exact .limiter c call.node call.stage new middle present (limiter_called advanced)

/-- A daemon that has started and has not served yet. -/
structure Started (daemon : DaemonState Node) : Prop where
  valid : validate daemon.config = .ok ()
  limit : daemon.auth.auth.maxAttempts = daemon.config.bind.maxFailedAttempts
  installs : daemon.installs = 0
  configGeneration : daemon.configGeneration = 0
  reloads : daemon.reloads = []
  limiterGeneration : daemon.limiterGeneration = 0
  limiters : daemon.limiters = ∅
  calls : daemon.calls = []

theorem boot_started {strings : TomlStrings} {file : FileRead} {store names : Option Str}
    {now : Instant} {unixNow : Nat} {random : Bytes32} {first : DaemonState Node}
    (booted : boot env toml strings file store names now unixNow random = .ok first) :
    Started first := by
  obtain ⟨config, loaded, booted⟩ := bind_ok booted
  obtain ⟨done, valid, booted⟩ := bind_ok booted
  cases booted
  exact ⟨valid, rfl, rfl, rfl, rfl, rfl, rfl, rfl⟩

/-! A daemon that starts without a config file. -/

/-- `toml` where it is only asked to parse these files. -/
def parsing (files : List (String × Config)) : TomlConfig where
  toString _ := none
  fromStr text := (files.find? (fun file => file.1.toList = text)).map Prod.snd
  read_back config text written := by cases written

def unset : Env := fun _ => none

def newDaemon : DaemonState Bytes32 where
  config := .default
  installs := 0
  auth := ⟨(AuthState.mintTokenWith (loadAt .emptyOnly none none 10) 0 0 (.filled 7)
    (fromSecs 300) none).2, 0⟩
  configGeneration := 0
  discoveryTrigger := false
  reloads := []
  limiterGeneration := 0
  limiters := ∅
  calls := []

theorem boot_missing (toml : TomlConfig) :
    boot unset toml .emptyOnly .missing none none 0 0 (.filled 7) = .ok newDaemon := rfl

/-- All the steps of one request, taken without a pause. -/
def reloadEvents (r : Nat) (file : FileRead) : List (Event Bytes32) :=
  .request :: .read r file :: List.replicate 6 (.reload r)

end RaemoteServer.Daemon
