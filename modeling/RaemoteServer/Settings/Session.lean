import RaemoteServer.Daemon.SharedConfig
import RaemoteServer.Settings.Keys

/-! The command line and a daemon at the same config file. A command reads the file, writes what it
makes of it to a temporary file, renames that and asks the daemon to reload; it can be stopped
anywhere. The daemon reads the file for a `Reload` request in one step and installs what it has read
in another one, and any number of requests are under way at once. -/

namespace RaemoteServer.Settings

open Text Runs

/-- How far the daemon is with a `Reload` request. -/
inductive Request where
  | received
  /-- The file is read and valid. -/
  | loaded (new : Config)
  | answered
  deriving DecidableEq

def Request.reading : Request → Bool
  | .loaded _ => true
  | _ => false

/-- A running daemon, with its variables and the `Reload` requests that it has had. -/
structure Raemoted where
  env : Env
  config : Config
  requests : List Request

inductive Stage where
  | changed
  | written
  | renamed
  | ended
  deriving DecidableEq

/-- A command that has something to save. -/
structure Saving where
  env : Env
  listed : Option (List ListedApp)
  command : Command
  /-- The file as it was read. -/
  read : Option Str
  content : Str
  stage : Stage

structure State where
  /-- `config.toml` -/
  file : Option Str
  /-- `config.tmp` -/
  temp : Option Str
  daemon : Option Raemoted
  saving : List Saving

inductive Event where
  | startDaemon (env : Env)
  | stopDaemon
  /-- `raemote reload` has found the file valid and sends its request. -/
  | reload (env : Env)
  /-- The daemon reads the file for a request. -/
  | read (r : Nat)
  /-- The daemon replaces its config, and answers. -/
  | install (r : Nat)
  | get (env : Env) (key : Str)
  /-- A command runs up to its save; `apps` is what a daemon would list. -/
  | run (env : Env) (apps : List ListedApp) (command : Command)
  | write (s : Nat)
  | rename (s : Nat)
  /-- The command asks the daemon to reload and ends. -/
  | finish (s : Nat)
  /-- The command fails or is killed; anything can be left of a write. -/
  | stop (s : Nat) (temp : Option Str)

inductive Output where
  | done
  | printed (text : Str)
  | failed (message : Str)
  deriving DecidableEq

section

variable (toml : TomlConfig)

/-- What a command is to save, if anything. -/
def change (env : Env) (listed : Option (List ListedApp)) (command : Command) (file : Option Str) :
    Except Str (Option Str) := do
  let after ← command.run toml env listed file
  let loaded ← load env toml file
  return if command.writes listed loaded then after else none

/-- The config that a daemon starts with. -/
def startConfig (env : Env) (file : Option Str) : Except Str Config := do
  let config ← load env toml file
  validate config
  return config

def fileRead : Option Str → Daemon.FileRead
  | none => .missing
  | some content => .content content

def Raemoted.receive (daemon : Raemoted) : Raemoted :=
  { daemon with requests := daemon.requests ++ [.received] }

def Raemoted.set (daemon : Raemoted) (r : Nat) (request : Request) : Raemoted :=
  { daemon with requests := daemon.requests.set r request }

/-- What the daemon makes of the file: the error that it answers, or a config to install. -/
def Raemoted.read (daemon : Raemoted) (file : Option Str) : Output × Request :=
  match Daemon.readStage daemon.env toml (fileRead file) with
  | .loaded new => (.done, .loaded new)
  | .answered (.error message) => (.failed message, .answered)
  | _ => (.done, .answered)

/-- What the answer says of the fields that need a restart is in `Daemon.DaemonState.reloadStep`. -/
def Raemoted.install (daemon : Raemoted) (r : Nat) (new : Config) : Raemoted :=
  { daemon.set r .answered with config := new }

/-- The command at this place, if it is this far. -/
def State.at (state : State) (s : Nat) (stage : Stage) : Option Saving :=
  state.saving[s]?.filter (·.stage == stage)

def State.set (state : State) (s : Nat) (saving : Saving) : State :=
  { state with saving := state.saving.set s saving }

def step (state : State) : Event → Option (Output × State)
  | .startDaemon env =>
      match state.daemon with
      | some _ => some (.failed "raemoted is already running".toList, state)
      | none =>
          match startConfig toml env state.file with
          | .error message => some (.failed message, state)
          | .ok config => some (.done, { state with daemon := some ⟨env, config, []⟩ })
  | .stopDaemon => some (.done, { state with daemon := none })
  | .reload env =>
      match state.daemon with
      | none => some (.failed "daemon is not running".toList, state)
      | some daemon =>
          match startConfig toml env state.file with
          | .error message => some (.failed message, state)
          | .ok _ => some (.done, { state with daemon := some daemon.receive })
  | .read r => do
      let daemon ← state.daemon
      match daemon.requests[r]? with
      | some .received =>
          let (output, request) := daemon.read toml state.file
          some (output, { state with daemon := some (daemon.set r request) })
      | _ => none
  | .install r => do
      let daemon ← state.daemon
      match daemon.requests[r]? with
      | some (.loaded new) => some (.done, { state with daemon := some (daemon.install r new) })
      | _ => none
  | .get env key =>
      match (do let config ← load env toml state.file; cmdConfigGet config key) with
      | .error message => some (.failed message, state)
      | .ok text => some (.printed text, state)
  | .run env apps command =>
      let listed := state.daemon.map (fun _ => apps)
      match change toml env listed command state.file with
      | .error message => some (.failed message, state)
      | .ok none => some (.done, state)
      | .ok (some content) => some (.done, { state with
          saving := state.saving ++ [⟨env, listed, command, state.file, content, .changed⟩] })
  | .write s => do
      let saving ← state.at s .changed
      some (.done,
        { state with temp := some saving.content }.set s { saving with stage := .written })
  | .rename s => do
      let saving ← state.at s .written
      match state.temp with
      | some text => some (.done,
          { state with file := some text, temp := none }.set s { saving with stage := .renamed })
      -- another command has renamed it away
      | none => some (.failed "failed to rename config.tmp -> config.toml".toList,
          state.set s { saving with stage := .ended })
  | .finish s => do
      let saving ← state.at s .renamed
      some (.done, { state with daemon := state.daemon.map Raemoted.receive }.set s
        { saving with stage := .ended })
  | .stop s temp => do
      let saving ← state.saving[s]?
      if saving.stage = .ended then none
      else some (.done,
        { state with temp := if saving.stage = Stage.changed then temp else state.temp }.set s
          { saving with stage := .ended })

def machine : Machine State Event Output := ⟨step toml⟩

/-- What one step can do. -/
inductive Stepped (before : State) : Event → Output → State → Prop
  | unchanged (event : Event) (output : Output)
      (idle : ∀ s, event ≠ .rename s ∧ event ≠ .read s ∧ event ≠ .install s)
      (refused : ∀ env, event = .startDaemon env → output ≠ .done) :
      Stepped before event output before
  | started (env : Env) (config : Config) (loaded : startConfig toml env before.file = .ok config) :
      Stepped before (.startDaemon env) .done { before with daemon := some ⟨env, config, []⟩ }
  | stopped : Stepped before .stopDaemon .done { before with daemon := none }
  | received (env : Env) (daemon : Raemoted) (running : before.daemon = some daemon) :
      Stepped before (.reload env) .done { before with daemon := some daemon.receive }
  | read (r : Nat) (daemon : Raemoted) (running : before.daemon = some daemon)
      (here : daemon.requests[r]? = some .received) :
      Stepped before (.read r) (daemon.read toml before.file).1
        { before with daemon := some (daemon.set r (daemon.read toml before.file).2) }
  | installed (r : Nat) (daemon : Raemoted) (new : Config) (running : before.daemon = some daemon)
      (here : daemon.requests[r]? = some (.loaded new)) :
      Stepped before (.install r) .done { before with daemon := some (daemon.install r new) }
  | ran (env : Env) (apps : List ListedApp) (command : Command) (listed : Option (List ListedApp))
      (content : Str) (changed : change toml env listed command before.file = .ok (some content)) :
      Stepped before (.run env apps command) .done { before with
        saving := before.saving ++ [⟨env, listed, command, before.file, content, .changed⟩] }
  | wrote (s : Nat) (saving : Saving) (here : before.at s .changed = some saving) :
      Stepped before (.write s) .done
        ({ before with temp := some saving.content }.set s { saving with stage := .written })
  | renamed (s : Nat) (saving : Saving) (text : Str) (here : before.at s .written = some saving)
      (found : before.temp = some text) :
      Stepped before (.rename s) .done
        ({ before with file := some text, temp := none }.set s { saving with stage := .renamed })
  | finished (s : Nat) (saving : Saving) (here : before.at s .renamed = some saving) :
      Stepped before (.finish s) .done
        ({ before with daemon := before.daemon.map Raemoted.receive }.set s
          { saving with stage := .ended })
  | cut (event : Event) (output : Output) (s : Nat) (saving : Saving) (temp : Option Str)
      (here : before.saving[s]? = some saving) (present : saving.stage ≠ .ended)
      (same : saving.stage ≠ .changed → temp = before.temp)
      (which : event = .rename s ∧ output ≠ .done ∨ ∃ written, event = .stop s written) :
      Stepped before event output ({ before with temp }.set s { saving with stage := .ended })

end

variable {toml : TomlConfig} {before after : State} {event : Event} {output : Output}

theorem at_some {s : Nat} {stage : Stage} {saving : Saving} :
    before.at s stage = some saving ↔ before.saving[s]? = some saving ∧ saving.stage = stage := by
  simp [State.at, Option.filter_eq_some_iff]

theorem step_cases (taken : (machine toml).step before event = some (output, after)) :
    Stepped toml before event output after := by
  have taken : step toml before event = some (output, after) := taken
  cases event with
  | startDaemon env =>
      rw [step] at taken
      split at taken
      · cases taken
        exact .unchanged _ _ (by simp) (by simp)
      · split at taken <;> cases taken
        · exact .unchanged _ _ (by simp) (by simp)
        · exact .started env _ ‹_›
  | stopDaemon =>
      cases taken
      exact .stopped
  | reload env =>
      rw [step] at taken
      split at taken
      · cases taken
        exact .unchanged _ _ (by simp) (by simp)
      · split at taken <;> cases taken
        · exact .unchanged _ _ (by simp) (by simp)
        · exact .received env _ ‹_›
  | read r =>
      rcases Option.bind_eq_some_iff.mp taken with ⟨daemon, running, taken⟩
      split at taken <;> cases taken
      exact .read r daemon running ‹_›
  | install r =>
      rcases Option.bind_eq_some_iff.mp taken with ⟨daemon, running, taken⟩
      split at taken <;> cases taken
      exact .installed r daemon _ running ‹_›
  | get env key =>
      rw [step] at taken
      split at taken <;> cases taken <;> exact .unchanged _ _ (by simp) (by simp)
  | run env apps command =>
      rw [step] at taken
      split at taken <;> cases taken
      · exact .unchanged _ _ (by simp) (by simp)
      · exact .unchanged _ _ (by simp) (by simp)
      · exact .ran env apps command _ _ ‹_›
  | write s =>
      rcases Option.bind_eq_some_iff.mp taken with ⟨saving, here, taken⟩
      cases taken
      exact .wrote s saving here
  | rename s =>
      rcases Option.bind_eq_some_iff.mp taken with ⟨saving, here, taken⟩
      split at taken <;> cases taken
      · exact .renamed s saving _ here ‹_›
      · exact .cut _ _ s saving before.temp (at_some.mp here).1
          (by rw [(at_some.mp here).2]; nofun) (fun _ => rfl) (Or.inl ⟨rfl, nofun⟩)
  | finish s =>
      rcases Option.bind_eq_some_iff.mp taken with ⟨saving, here, taken⟩
      cases taken
      exact .finished s saving here
  | stop s temp =>
      rcases Option.bind_eq_some_iff.mp taken with ⟨saving, here, taken⟩
      split at taken <;> cases taken
      exact .cut _ _ s saving _ here ‹_› (fun later => if_neg later) (Or.inr ⟨temp, rfl⟩)

end RaemoteServer.Settings
