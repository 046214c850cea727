import RaemoteServer.Settings.LastPut

/-! Commands that take turns, in environments that a daemon would accept, leave a file that it
can be started from; and the daemon follows the file, as long as no reload overtakes another one. -/

namespace RaemoteServer.Settings

open Text Collections Runs

/-! Validation, field by field. -/

def acceptable : Field → Value → Bool
  | .tokenTtlSecs, .number value | .maxFailedAttempts, .number value
  | .maxConcurrentConnections, .number value | .inviteTtlSecs, .number value
  | .maxPendingInvites, .number value | .maxConcurrentStreams, .number value
  | .refill, .number value | .intervalMs, .number value | .max, .number value
  | .intervalSecs, .number value | .recheckSecs, .number value | .probeTimeoutMs, .number value
  | .maxConcurrentProbes, .number value => value != 0
  | .token, .text token => !tokenTooShort token
  | .apps, .apps apps => appProblems .empty apps == []
  | _, _ => true

theorem problems_nil_iff {config : Config} :
    problems config = [] ↔ ∀ field, acceptable field (config.get field) = true := by
  have no_problem (found : Bool) (message : String) :
      problem found message = [] ↔ found = false := by
    cases found <;> simp [problem]
  have small (value : UInt32) : (value == 0) = false ↔ (value.toNat != 0) = true := by
    simp [← UInt32.toNat_inj]
  have number (value : UInt64) : (value == 0) = false ↔ (value.toNat != 0) = true := by
    simp [← UInt64.toNat_inj]
  simp only [problems, List.append_eq_nil_iff, no_problem, small, number]
  constructor
  · intro clean field
    cases field <;> simp [acceptable, Config.get] <;> grind
  · intro clean
    have of (field : Field) := clean field
    refine ⟨⟨⟨⟨⟨⟨⟨⟨⟨⟨⟨⟨⟨⟨?_, ?_⟩, ?_⟩, ?_⟩, ?_⟩, ?_⟩, ?_⟩, ?_⟩, ?_⟩, ?_⟩, ?_⟩, ?_⟩, ?_⟩, ?_⟩, ?_⟩
    · exact of .tokenTtlSecs
    · simpa [acceptable, Config.get] using of .token
    · exact of .maxFailedAttempts
    · exact of .maxConcurrentConnections
    · exact of .inviteTtlSecs
    · exact of .maxPendingInvites
    · exact of .maxConcurrentStreams
    · exact of .refill
    · exact of .intervalMs
    · exact of .max
    · exact of .intervalSecs
    · exact of .recheckSecs
    · exact of .probeTimeoutMs
    · exact of .maxConcurrentProbes
    · simpa [acceptable, Config.get] using of .apps

theorem changes_acceptable {before after : Config} {field : Field} {value : Value}
    (clean : problems before = []) (changes : Changes before after field value)
    (accepted : acceptable field value = true) : problems after = [] := by
  apply problems_nil_iff.mpr
  intro other
  by_cases same : other = field
  · rw [same, changes.named, accepted]
  · rw [changes.others other same, problems_nil_iff.mp clean other]

theorem appProblems_filter {names fewer : HashSet Str} {apps : List AppConfig}
    (kept : AppConfig → Bool) (within : ∀ name ∈ fewer, name ∈ names)
    (clean : appProblems names apps = []) : appProblems fewer (apps.filter kept) = [] := by
  induction apps generalizing names fewer with
  | nil => rfl
  | cons app rest ih =>
      rw [appProblems, List.append_eq_nil_iff, List.append_eq_nil_iff] at clean
      rcases clean with ⟨⟨unseen, port⟩, others⟩
      by_cases keep : kept app = true
      · have fresh : app.name ∉ fewer := by
          intro again
          rw [if_pos (within _ again)] at unseen
          cases unseen
        have inserted : ∀ name ∈ fewer.insert app.name, name ∈ names.insert app.name := by
          intro name member
          rcases HashSet.mem_insert.mp member with same | old
          · exact HashSet.mem_insert.mpr (Or.inl same)
          · exact HashSet.mem_insert.mpr (Or.inr (within name old))
        rw [List.filter_cons_of_pos keep, appProblems, if_neg fresh, port, ih inserted others]
        rfl
      · rw [List.filter_cons_of_neg keep]
        exact ih (fun name old => HashSet.mem_insert.mpr (Or.inr (within name old))) others

/-! What is loaded, and what is saved. -/

/-- The variables leave the default config valid. -/
def Sound (env : Env) : Prop := problems (envOverride env .default) = []

variable {toml : TomlConfig}

theorem sound_loaded {env : Env} {file : Option Str} {stored : Config} (sound : Sound env)
    (holds : storedConfig toml file = some stored) (clean : problems stored = []) :
    ∃ loaded, load env toml file = .ok loaded ∧ problems loaded = [] := by
  cases file with
  | none =>
      cases holds
      exact ⟨_, rfl, clean⟩
  | some content =>
      refine ⟨_, load_some holds, problems_nil_iff.mpr fun field => ?_⟩
      have variable_ok := problems_nil_iff.mp sound field
      rw [get_envOverride] at variable_ok ⊢
      cases given : overriding env field with
      | none => exact problems_nil_iff.mp clean field
      | some value =>
          rw [given] at variable_ok
          exact variable_ok

theorem startConfig_ok {env : Env} {file : Option Str} {config : Config}
    (started : startConfig toml env file = .ok config) :
    load env toml file = .ok config ∧ problems config = [] := by
  rcases bind_ok started with ⟨loaded, read, started⟩
  rcases bind_ok started with ⟨_, valid, started⟩
  obtain rfl : loaded = config := Except.ok.inj started
  exact ⟨read, validate_ok.mp valid⟩

theorem validate_of_clean {config : Config} (clean : problems config = []) :
    validate config = .ok () := validate_ok.mpr clean

/-- `config set` and `apps add` look at what they save; the others take away from a list or add an
origin to one. -/
theorem run_acceptable {env : Env} {listed : Option (List ListedApp)} {command : Command}
    {file : Option Str} {content : Str} {loaded : Config} (read : load env toml file = .ok loaded)
    (clean : problems loaded = [])
    (changed : change toml env listed command file = .ok (some content)) :
    ∃ config, storedConfig toml (some content) = some config ∧ problems config = [] := by
  rcases change_some changed with ⟨loaded', read', ran, writes⟩
  cases read.symm.trans read'
  have saved {config : Config} {content : Str}
      (saving : (do return some (← save toml config) : Except Str (Option Str)) =
        .ok (some content))
      (clean : problems config = []) :
      ∃ config, storedConfig toml (some content) = some config ∧ problems config = [] := by
    rcases saved_ok saving with ⟨written, text, same⟩
    cases same
    exact ⟨config, toml.read_back _ _ text, clean⟩
  cases command with
  | configSet key value =>
      rcases bind_ok ran with ⟨before, read', ran⟩
      rcases bind_ok ran with ⟨config, -, ran⟩
      rcases bind_ok ran with ⟨_, valid, ran⟩
      exact saved ran (validate_ok.mp valid)
  | appsAdd name port =>
      rcases bind_ok ran with ⟨before, read', ran⟩
      rcases bind_ok ran with ⟨config, -, ran⟩
      rcases bind_ok ran with ⟨_, valid, ran⟩
      exact saved ran (validate_ok.mp valid)
  | appsRemove name =>
      rcases bind_ok ran with ⟨before, read', ran⟩
      cases read.symm.trans read'
      rcases bind_ok ran with ⟨config, removed, ran⟩
      apply saved ran
      apply changes_acceptable clean (appsRemove_changes removed)
      have apps_clean := problems_nil_iff.mp clean .apps
      rw [Config.get, acceptable, beq_iff_eq] at apps_clean
      rw [acceptable, beq_iff_eq]
      exact appProblems_filter _ (fun _ => id) apps_clean
  | appsHide target =>
      rcases bind_ok ran with ⟨origin, resolved, ran⟩
      rcases bind_ok ran with ⟨before, read', ran⟩
      cases read.symm.trans read'
      cases hidden : cmdAppsHide loaded origin with
      | none =>
          rw [read] at resolved
          rw [Command.writes, resolved, Except.toOption, Option.any_some, hidden] at writes
          cases writes
      | some config =>
          simp only [hidden] at ran
          exact saved ran (changes_acceptable clean (appsHide_changes hidden) rfl)
  | appsUnhide target =>
      rcases bind_ok ran with ⟨origin, -, ran⟩
      rcases bind_ok ran with ⟨before, read', ran⟩
      cases read.symm.trans read'
      rcases bind_ok ran with ⟨config, shown, ran⟩
      exact saved ran (changes_acceptable clean (appsUnhide_changes shown) rfl)

/-! Runs. -/

def Event.sound : Event → Prop
  | .startDaemon env | .reload env | .run env _ _ => Sound env
  | _ => True

structure Healthy (toml : TomlConfig) (state : State) : Prop where
  file : ∃ stored, storedConfig toml state.file = some stored ∧ problems stored = []
  saving : ∀ saving ∈ state.saving,
    ∃ config, storedConfig toml (some saving.content) = some config ∧ problems config = []
  daemon : ∀ daemon, state.daemon = some daemon → Sound daemon.env ∧ problems daemon.config = [] ∧
    ∀ (r : Nat) (new : Config), daemon.requests[r]? = some (.loaded new) → problems new = []

/-- The config is what would be loaded of the file; a reload does not look for a key. -/
def Reflects (toml : TomlConfig) (env : Env) (file : Option Str) (config : Config) : Prop :=
  ∃ loaded, load env toml file = .ok loaded ∧
    ({ config with identity := ⟨none⟩ } : Config) = { loaded with identity := ⟨none⟩ }

def Current (toml : TomlConfig) (daemon : Raemoted) (file : Option Str) : Prop :=
  Reflects toml daemon.env file daemon.config

theorem loadFile_read (env : Env) (file : Option Str) :
    Daemon.loadFile env toml (fileRead file) = load env toml file := by
  cases file <;> rfl

/-- What the daemon reads is valid, and what it is to install. -/
theorem read_loaded {daemon : Raemoted} {file : Option Str} {stored : Config}
    (sound : Sound daemon.env) (holds : storedConfig toml file = some stored)
    (clean : problems stored = []) :
    ∃ new, daemon.read toml file = (.done, .loaded new) ∧ problems new = [] ∧
      Reflects toml daemon.env file new := by
  rcases sound_loaded sound holds clean with ⟨loaded, read, loaded_clean⟩
  have reloaded : Daemon.reload daemon.env toml (fileRead file) =
      .ok { loaded with identity := ⟨none⟩ } := by
    rw [Daemon.reload, loadFile_read, read]
    rfl
  have valid : validate { loaded with identity := ⟨none⟩ } = .ok () :=
    validate_of_clean loaded_clean
  have stage : Daemon.readStage daemon.env toml (fileRead file) =
      .loaded { loaded with identity := ⟨none⟩ } := by
    simp only [Daemon.readStage, reloaded, valid]
  refine ⟨{ loaded with identity := ⟨none⟩ }, ?_, loaded_clean, loaded, read, rfl⟩
  simp only [Raemoted.read, stage]

variable {before after : State} {event : Event} {output : Output}

/-! Where the daemon after a step comes from. -/

inductive DaemonStep (toml : TomlConfig) (file : Option Str) :
    Event → Output → Option Raemoted → Raemoted → Prop
  | started (env : Env) (config : Config) (old : Option Raemoted)
      (loaded : startConfig toml env file = .ok config) :
      DaemonStep toml file (.startDaemon env) .done old ⟨env, config, []⟩
  | kept (event : Event) (output : Output) (daemon : Raemoted)
      (idle : ∀ r, event ≠ .read r ∧ event ≠ .install r)
      (refused : ∀ env, event = .startDaemon env → output ≠ .done) :
      DaemonStep toml file event output (some daemon) daemon
  | received (event : Event) (daemon : Raemoted)
      (asked : (∃ env, event = .reload env) ∨ ∃ s, event = .finish s) :
      DaemonStep toml file event .done (some daemon) daemon.receive
  | read (r : Nat) (daemon : Raemoted) (here : daemon.requests[r]? = some .received) :
      DaemonStep toml file (.read r) (daemon.read toml file).1 (some daemon)
        (daemon.set r (daemon.read toml file).2)
  | installed (r : Nat) (daemon : Raemoted) (new : Config)
      (here : daemon.requests[r]? = some (.loaded new)) :
      DaemonStep toml file (.install r) .done (some daemon) (daemon.install r new)

theorem daemon_step {daemon : Raemoted} (stepped : Stepped toml before event output after)
    (running : after.daemon = some daemon) :
    DaemonStep toml before.file event output before.daemon daemon := by
  cases stepped with
  | unchanged event output idle refused =>
      rw [running]
      exact .kept event output daemon (fun r => (idle r).2) refused
  | started env config loaded =>
      cases running
      exact .started env config _ loaded
  | stopped => cases running
  | received env old here =>
      cases running
      rw [here]
      exact .received _ old (Or.inl ⟨env, rfl⟩)
  | read r old here waits =>
      cases running
      rw [here]
      exact .read r old waits
  | installed r old new here loaded =>
      cases running
      rw [here]
      exact .installed r old new loaded
  | ran | wrote | renamed =>
      rw [show before.daemon = some daemon from running]
      exact .kept _ _ daemon (fun _ => ⟨nofun, nofun⟩) nofun
  | finished s saving here =>
      rcases Option.map_eq_some_iff.mp running with ⟨old, here, rfl⟩
      rw [here]
      exact .received _ old (Or.inr ⟨s, rfl⟩)
  | cut event output s saving temp here present same which =>
      rw [show before.daemon = some daemon from running]
      rcases which with ⟨rfl, -⟩ | ⟨written, rfl⟩
      · exact .kept _ _ daemon (fun _ => ⟨nofun, nofun⟩) nofun
      · exact .kept _ _ daemon (fun _ => ⟨nofun, nofun⟩) nofun

def Event.starts : Event → Bool
  | .startDaemon _ => true
  | _ => false

/-- A request that is loaded after a step was so before, or its config is just read. -/
theorem loaded_step {daemon : Raemoted} {r : Nat}
    {new : Config} (healthy : Healthy toml before)
    (moved : DaemonStep toml before.file event output before.daemon daemon)
    (here : daemon.requests[r]? = some (.loaded new)) :
    (∃ old, before.daemon = some old ∧ old.env = daemon.env ∧
      old.requests[r]? = some (.loaded new) ∧ event ≠ .read r ∧
        (event.starts = true → output ≠ .done)) ∨
    event = .read r ∧ problems new = [] ∧ Reflects toml daemon.env before.file new := by
  rcases healthy.file with ⟨stored, holds, clean⟩
  generalize running : before.daemon = was at moved
  cases moved with
  | started => cases here
  | kept event output daemon idle refused =>
      refine Or.inl ⟨daemon, rfl, rfl, here, (idle r).1, ?_⟩
      intro starts
      cases event with
      | startDaemon env => exact refused env rfl
      | _ => cases starts
  | received event daemon asked =>
      refine Or.inl ⟨daemon, rfl, rfl, ?_, ?_, ?_⟩
      · rcases getElem?_concat_some here with old | ⟨-, last⟩
        · exact old
        · cases last
      · rcases asked with ⟨env, rfl⟩ | ⟨s, rfl⟩ <;> nofun
      · rcases asked with ⟨env, rfl⟩ | ⟨s, rfl⟩ <;> nofun
  | read r' daemon waits =>
      rcases getElem?_set_some here with ⟨rfl, found⟩ | ⟨other, old⟩
      · rcases read_loaded (healthy.daemon daemon running).1 holds clean with
          ⟨read, result, read_clean, reflects⟩
        rw [result] at found
        cases found
        exact Or.inr ⟨rfl, read_clean, reflects⟩
      · refine Or.inl ⟨daemon, rfl, rfl, old, ?_, nofun⟩
        intro same
        cases same
        exact other rfl
  | installed r' daemon new' loaded =>
      rcases getElem?_set_some here with ⟨rfl, found⟩ | ⟨other, old⟩
      · cases found
      · exact Or.inl ⟨daemon, rfl, rfl, old, nofun, nofun⟩

theorem config_step {daemon : Raemoted} (healthy : Healthy toml before)
    (moved : DaemonStep toml before.file event output before.daemon daemon) :
    problems daemon.config = [] := by
  generalize running : before.daemon = was at moved
  cases moved with
  | started env config old loaded => exact (startConfig_ok loaded).2
  | kept | received | read => exact (healthy.daemon _ running).2.1
  | installed r daemon new here => exact (healthy.daemon daemon running).2.2 r new here

theorem env_step {daemon : Raemoted} (healthy : Healthy toml before) (sound : event.sound)
    (moved : DaemonStep toml before.file event output before.daemon daemon) : Sound daemon.env := by
  generalize running : before.daemon = was at moved
  cases moved with
  | started => exact sound
  | kept | received | read | installed => exact (healthy.daemon _ running).1

theorem healthy_kept (healthy : Healthy toml before) (orderly : Orderly toml before)
    (sound : event.sound) (stepped : Stepped toml before event output after) :
    Healthy toml after := by
  rcases healthy.file with ⟨stored, holds, clean⟩
  have led : ∀ daemon, after.daemon = some daemon → Sound daemon.env ∧
      problems daemon.config = [] ∧
        ∀ (r : Nat) (new : Config), daemon.requests[r]? = some (.loaded new) →
          problems new = [] := by
    intro daemon running
    have moved := daemon_step stepped running
    refine ⟨env_step healthy sound moved, config_step healthy moved, ?_⟩
    intro r new here
    rcases loaded_step healthy moved here with ⟨old, was, -, loaded, -⟩ | ⟨-, new_clean, -⟩
    · exact (healthy.daemon old was).2.2 r new loaded
    · exact new_clean
  have kept {s : Nat} {saving new : Saving} (here : before.saving[s]? = some saving)
      (same : new.content = saving.content) : ∀ saving ∈ before.saving.set s new,
        ∃ config, storedConfig toml (some saving.content) = some config ∧ problems config = [] := by
    apply forall_mem_set healthy.saving
    rw [same]
    exact healthy.saving saving (List.mem_of_getElem? here)
  cases stepped with
  | unchanged => exact healthy
  | started | stopped | received | read | installed => exact ⟨healthy.file, healthy.saving, led⟩
  | ran env apps command listed content changed =>
      refine ⟨healthy.file, ?_, led⟩
      intro saving present
      rcases List.mem_append.mp present with old | new
      · exact healthy.saving saving old
      · cases List.mem_singleton.mp new
        rcases sound_loaded sound holds clean with ⟨loaded, read, loaded_clean⟩
        exact run_acceptable read loaded_clean changed
  | wrote s saving here => exact ⟨healthy.file, kept (at_some.mp here).1 rfl, led⟩
  | renamed s saving text here found =>
      rcases at_some.mp here with ⟨here, stage⟩
      have member := List.mem_of_getElem? here
      have own := orderly.filled saving member stage
      rw [found] at own
      exact ⟨own ▸ healthy.saving saving member, kept here rfl, led⟩
  | finished s saving here => exact ⟨healthy.file, kept (at_some.mp here).1 rfl, led⟩
  | cut event output s saving temp here present same which =>
      exact ⟨healthy.file, kept here rfl, led⟩

/-! What has been read since the file changed. -/

def Event.renames : Event → Bool
  | .rename _ => true
  | _ => false

def Renames (entry : LogEntry) : Prop := entry.event.renames = true ∧ entry.output = .done

def Starts (entry : LogEntry) : Prop := entry.event.starts = true ∧ entry.output = .done

def Event.installs : Event → Bool
  | .install _ => true
  | _ => false

/-- The file has been read for a request, and not been changed since. -/
def ReadSince (r : Nat) (log : Log) : Prop :=
  Since (fun entry => ¬ Renames entry) (fun entry _ => entry.event = .read r) log

/-- What the daemon has installed last was read after the last change of the file. -/
def FollowedUp (log : Log) : Prop :=
  Since (fun entry => ¬ Renames entry ∧ entry.event.installs = false)
    (fun entry earlier => Starts entry ∨ ∃ r, entry.event = .install r ∧ ReadSince r earlier) log

theorem file_kept (stepped : Stepped toml before event output after)
    (still : ¬ Renames ⟨before, event, output, after⟩) : after.file = before.file := by
  rcases puts_or_same stepped with ⟨same, -⟩ | ⟨s, saving, text, rfl, rfl, -⟩
  · exact same
  · exact absurd ⟨rfl, rfl⟩ still

/-- What is read and not installed. -/
def Fresh (toml : TomlConfig) (log : Log) (state : State) : Prop :=
  ∀ (daemon : Raemoted) (r : Nat) (new : Config), state.daemon = some daemon →
    daemon.requests[r]? = some (.loaded new) → ReadSince r log →
      Reflects toml daemon.env state.file new

variable {log : Log}

theorem fresh_step (healthy : Healthy toml before) (fresh : Fresh toml log before)
    (stepped : Stepped toml before event output after) :
    Fresh toml (⟨before, event, output, after⟩ :: log) after := by
  intro daemon r new running here since
  rcases loaded_step healthy (daemon_step stepped running) here with
    ⟨old, was, env, loaded, other, -⟩ | ⟨reads, -, reflects⟩
  · rcases since_cons.mp since with same | ⟨still, since⟩
    · exact absurd same other
    · rw [file_kept stepped still, ← env]
      exact fresh old r new was loaded since
  · rw [file_kept stepped]
    · exact reflects
    · rintro ⟨renames, -⟩
      rw [show event = .read r from reads] at renames
      cases renames

def AllCurrent (toml : TomlConfig) (state : State) : Prop :=
  ∀ daemon, state.daemon = some daemon → Current toml daemon state.file

theorem current_step (fresh : Fresh toml log before)
    (known : FollowedUp log → AllCurrent toml before)
    (stepped : Stepped toml before event output after)
    (followed : FollowedUp (⟨before, event, output, after⟩ :: log)) : AllCurrent toml after := by
  intro daemon running
  have moved := daemon_step stepped running
  have still : ¬ Renames ⟨before, event, output, after⟩ := by
    rcases since_cons.mp followed with (⟨starts, -⟩ | ⟨r, installs, -⟩) | ⟨⟨still, -⟩, -⟩
    · rintro ⟨renames, -⟩
      cases event with
      | startDaemon env => cases renames
      | _ => cases starts
    · rintro ⟨renames, -⟩
      rw [show event = .install r from installs] at renames
      cases renames
    · exact still
  have own {old : Raemoted} (was : before.daemon = some old)
      (earlier : FollowedUp log) : Reflects toml old.env before.file old.config :=
    known earlier old was
  rw [Current, file_kept stepped still]
  generalize was : before.daemon = at_first at moved
  cases moved with
  | started env config old loaded => exact ⟨config, (startConfig_ok loaded).1, rfl⟩
  | kept event output daemon idle refused =>
      rcases since_cons.mp followed with (⟨starts, done⟩ | ⟨r, installs, -⟩) | ⟨-, earlier⟩
      · cases event with
        | startDaemon env => exact absurd done (refused env rfl)
        | _ => cases starts
      · exact absurd installs (idle r).2
      · exact own was earlier
  | received event daemon asked =>
      rcases since_cons.mp followed with (⟨starts, -⟩ | ⟨r, installs, -⟩) | ⟨-, earlier⟩
      · rcases asked with ⟨env, rfl⟩ | ⟨s, rfl⟩ <;> cases starts
      · rcases asked with ⟨env, rfl⟩ | ⟨s, rfl⟩ <;> cases installs
      · have kept := own was earlier
        exact kept
  | read r daemon here =>
      rcases since_cons.mp followed with (⟨starts, -⟩ | ⟨r, installs, -⟩) | ⟨-, earlier⟩
      · cases starts
      · cases installs
      · have kept := own was earlier
        exact kept
  | installed r daemon new here =>
      rcases since_cons.mp followed with (⟨starts, -⟩ | ⟨r', same, since⟩) | ⟨⟨-, idle⟩, -⟩
      · cases starts
      · cases same
        exact fresh daemon r new was here since
      · cases idle

/-! The whole run. -/

variable {file temp : Option Str} {initial : Config} {final : State}

theorem healthy_run (run : Run (machine toml) ⟨file, temp, none, []⟩ log final)
    (turns : ∀ entry ∈ log, TakesTurns entry) (sound : ∀ entry ∈ log, entry.event.sound)
    (stored : storedConfig toml file = some initial) (clean : problems initial = []) :
    Healthy toml final := by
  induction run with
  | start => exact ⟨⟨initial, stored, clean⟩, by simp, by simp⟩
  | step earlier taken ih =>
      have turns_before := fun entry member => turns entry (List.mem_cons_of_mem _ member)
      have sound_before := fun entry member => sound entry (List.mem_cons_of_mem _ member)
      exact healthy_kept (ih turns_before sound_before) (orderly_run earlier turns_before)
        (sound _ List.mem_cons_self) (step_cases taken)

theorem current_run (run : Run (machine toml) ⟨file, temp, none, []⟩ log final)
    (turns : ∀ entry ∈ log, TakesTurns entry) (sound : ∀ entry ∈ log, entry.event.sound)
    (stored : storedConfig toml file = some initial) (clean : problems initial = []) :
    Fresh toml log final ∧ (FollowedUp log → AllCurrent toml final) := by
  induction run with
  | start =>
      refine ⟨?_, fun followed => (since_nil _ _ followed).elim⟩
      intro daemon r new running
      cases running
  | step earlier taken ih =>
      have turns_before := fun entry member => turns entry (List.mem_cons_of_mem _ member)
      have sound_before := fun entry member => sound entry (List.mem_cons_of_mem _ member)
      have healthy := healthy_run earlier turns_before sound_before stored clean
      rcases ih turns_before sound_before with ⟨fresh, known⟩
      exact ⟨fresh_step healthy fresh (step_cases taken),
        current_step fresh known (step_cases taken)⟩

/-- A daemon can be started whenever none runs, and can be asked to reload whenever one does. -/
theorem accepted {env : Env} (healthy : Healthy toml before) (sound : Sound env)
    (taken : (machine toml).step before event = some (output, after))
    (asks : event = .startDaemon env ∧ before.daemon = none ∨
      event = .reload env ∧ before.daemon ≠ none) : output = .done := by
  rcases healthy.file with ⟨stored, holds, clean⟩
  rcases sound_loaded sound holds clean with ⟨loaded, read, loaded_clean⟩
  have starts : startConfig toml env before.file = .ok loaded := by
    simp only [startConfig, read, bind, Except.bind, validate_of_clean loaded_clean]
    rfl
  have taken : step toml before event = some (output, after) := taken
  rcases asks with ⟨rfl, idle⟩ | ⟨rfl, running⟩
  · simp only [step, idle, starts, Option.some.injEq, Prod.mk.injEq] at taken
    exact taken.1.symm
  · rcases Option.ne_none_iff_exists'.mp running with ⟨daemon, running⟩
    simp only [step, running, starts, Option.some.injEq, Prod.mk.injEq] at taken
    exact taken.1.symm

theorem read_accepted {r : Nat} (healthy : Healthy toml before)
    (stepped : Stepped toml before (.read r) output after) : output = .done := by
  rcases healthy.file with ⟨stored, holds, clean⟩
  cases stepped with
  | unchanged _ _ idle => exact absurd rfl (idle r).2.1
  | cut _ _ s _ _ _ _ _ which => rcases which with ⟨same, -⟩ | ⟨_, same⟩ <;> cases same
  | read _ daemon running here =>
      rcases read_loaded (healthy.daemon daemon running).1 holds clean with ⟨new, result, -⟩
      rw [result]

/-! Reloads that do not overlap. -/

def Event.readsFile : Event → Bool
  | .read _ => true
  | _ => false

/-- When the daemon reads the file, it has installed all that it has read before. -/
def ReadsAlone (entry : LogEntry) : Prop :=
  entry.event.readsFile = true → ∀ daemon, entry.before.daemon = some daemon →
    ∀ (r : Nat) (new : Config), daemon.requests[r]? ≠ some (.loaded new)

/-- A daemon is started, or a request is read and installed. -/
def Reloaded (log : Log) : Prop :=
  Since (fun _ => True) (fun entry earlier => Starts entry ∨
    ∃ r, entry.event = .install r ∧ ∃ reading ∈ earlier, reading.event.readsFile = true) log

/-- Every change of the file is followed by a reload that begins after it. -/
def EveryReloaded (log : Log) : Prop :=
  ∀ (later earlier : Log) (entry : LogEntry), log = later ++ entry :: earlier → Renames entry →
    Reloaded later

def Refreshes (entry : LogEntry) : Prop := Starts entry ∨ entry.event.installs = true

theorem reloaded_earlier {later : Log} (idle : ∀ entry ∈ later, ¬ Refreshes entry)
    (reloaded : Reloaded (later ++ log)) : Reloaded log := by
  induction later with
  | nil => exact reloaded
  | cons entry later ih =>
      rcases since_cons.mp reloaded with (starts | ⟨r, installs, -⟩) | ⟨-, reloaded⟩
      · exact absurd (Or.inl starts) (idle entry List.mem_cons_self)
      · exact absurd (Or.inr (by rw [installs]; rfl)) (idle entry List.mem_cons_self)
      · exact ih (fun other member => idle other (List.mem_cons_of_mem _ member)) reloaded

theorem not_reloaded (quiet : ∀ entry ∈ log, entry.event.readsFile = false ∧ ¬ Starts entry) :
    ¬ Reloaded log := by
  rintro ⟨later, entry, earlier, rfl, starts | ⟨r, -, reading, member, reads⟩, -⟩
  · exact (quiet entry (by simp)).2 starts
  · rw [(quiet reading (by simp [member])).1] at reads
    cases reads

/-- What is loaded was read last. -/
theorem newest_read (run : Run (machine toml) ⟨file, temp, none, []⟩ log final)
    (turns : ∀ entry ∈ log, TakesTurns entry) (sound : ∀ entry ∈ log, entry.event.sound)
    (stored : storedConfig toml file = some initial) (clean : problems initial = [])
    (alone : ∀ entry ∈ log, ReadsAlone entry) {daemon : Raemoted} {r : Nat} {new : Config}
    (running : final.daemon = some daemon) (here : daemon.requests[r]? = some (.loaded new)) :
    Since (fun entry => entry.event.readsFile = false ∧ ¬ Starts entry)
      (fun entry _ => entry.event = .read r) log := by
  induction run generalizing daemon with
  | start => cases running
  | step earlier taken ih =>
      have turns_before := fun entry member => turns entry (List.mem_cons_of_mem _ member)
      have sound_before := fun entry member => sound entry (List.mem_cons_of_mem _ member)
      have alone_before := fun entry member => alone entry (List.mem_cons_of_mem _ member)
      have healthy := healthy_run earlier turns_before sound_before stored clean
      rw [since_cons]
      rcases loaded_step healthy (daemon_step (step_cases taken) running) here with
        ⟨old, was, -, loaded, -, refused⟩ | ⟨reads, -⟩
      · right
        refine ⟨⟨?_, ?_⟩, ih turns_before sound_before alone_before was loaded⟩
        · rw [← Bool.not_eq_true]
          intro reads
          exact alone _ List.mem_cons_self reads old was r new loaded
        · rintro ⟨starts, done⟩
          exact refused starts done
      · exact Or.inl reads

theorem running_started (run : Run (machine toml) ⟨file, temp, none, []⟩ log final)
    {daemon : Raemoted} (running : final.daemon = some daemon) : ∃ entry ∈ log, Starts entry := by
  induction run generalizing daemon with
  | start => cases running
  | @step log before after event output earlier taken ih =>
      have moved := daemon_step (step_cases taken) running
      generalize was : before.daemon = old at moved
      cases moved with
      | started => exact ⟨_, List.mem_cons_self, rfl, rfl⟩
      | kept | received | read | installed =>
          rcases ih was with ⟨entry, member, starts⟩
          exact ⟨entry, List.mem_cons_of_mem _ member, starts⟩

/-- If no reload overlaps another one, it is enough that each change is followed by one. -/
theorem followed_up_alone (run : Run (machine toml) ⟨file, temp, none, []⟩ log final)
    (turns : ∀ entry ∈ log, TakesTurns entry) (sound : ∀ entry ∈ log, entry.event.sound)
    (stored : storedConfig toml file = some initial) (clean : problems initial = [])
    (alone : ∀ entry ∈ log, ReadsAlone entry) (every : EveryReloaded log) {daemon : Raemoted}
    (running : final.daemon = some daemon) : FollowedUp log := by
  rcases running_started run running with ⟨start, member, starts⟩
  have start_refreshes : Refreshes start := Or.inl starts
  rcases since_of_mem member start_refreshes with ⟨newest, refresh, older, rfl, refreshes, idle⟩
  refine ⟨newest, refresh, older, rfl, ?_, ?_⟩
  · rcases refreshes with starts | installs
    · exact Or.inl starts
    · rcases run.split with ⟨earlier, taken⟩
      have within : ∀ entry ∈ older, entry ∈ newest ++ refresh :: older := by
        intro entry old
        simp [old]
      have stepped := step_cases taken
      cases event : refresh.event with
      | install r =>
          right
          refine ⟨r, rfl, ?_⟩
          rw [event] at stepped
          generalize refresh.output = output at stepped
          generalize refresh.after = after at stepped
          cases stepped with
          | unchanged _ _ idle => exact absurd rfl (idle r).2.2
          | cut _ _ s _ _ _ _ _ which => rcases which with ⟨same, -⟩ | ⟨_, same⟩ <;> cases same
          | installed _ old new was here =>
              rcases newest_read earlier (fun entry old => turns entry (within entry old))
                  (fun entry old => sound entry (within entry old)) stored clean
                  (fun entry old => alone entry (within entry old)) was here with
                ⟨later, reading, before, shape, reads, quiet⟩
              refine ⟨later, reading, before, shape, reads, ?_⟩
              intro entry inside renames
              rcases List.append_of_mem inside with ⟨front, back, rfl⟩
              have reloaded := every (newest ++ refresh :: front) (back ++ reading :: before) entry
                (by rw [shape]; simp) renames
              have still : ∀ other ∈ front, other.event.readsFile = false ∧ ¬ Starts other :=
                fun other old => quiet other (by simp [old])
              rcases since_cons.mp (reloaded_earlier idle reloaded) with
                (⟨starts, -⟩ | ⟨_, -, other, old, reads⟩) | ⟨-, reloaded⟩
              · rw [event] at starts
                cases starts
              · rw [(still other old).1] at reads
                cases reads
              · exact not_reloaded still reloaded
      | _ =>
          rw [event] at installs
          cases installs
  · intro entry inside
    constructor
    · intro renames
      rcases List.append_of_mem inside with ⟨front, back, rfl⟩
      have reloaded := every front (back ++ refresh :: older) entry (by simp) renames
      have quiet : ∀ other ∈ front, ¬ Refreshes other :=
        fun other old => idle other (by simp [old])
      have none : Reloaded [] := reloaded_earlier quiet (by rw [List.append_nil]; exact reloaded)
      exact since_nil _ _ none
    · rw [← Bool.not_eq_true]
      exact fun installs => idle entry inside (Or.inr installs)

/-- From a file that is valid, in every run in which the commands take turns and no environment
spoils the default config: the file stays valid, so that the daemon can be started and no request
to reload is refused; its own config is valid at all times. It is that of the file if what was
installed last was read after the last change, and so whenever no reload overlaps another one and
each change is followed by one. -/
theorem daemon_follows_file (run : Run (machine toml) ⟨file, temp, none, []⟩ log final)
    (turns : ∀ entry ∈ log, TakesTurns entry) (sound : ∀ entry ∈ log, entry.event.sound)
    (stored : storedConfig toml file = some initial) (valid : validate initial = .ok ()) :
    (∃ config, storedConfig toml final.file = some config ∧ validate config = .ok ()) ∧
    (∀ entry ∈ log, (∃ env, entry.event = .startDaemon env ∧ entry.before.daemon = none ∨
      entry.event = .reload env ∧ entry.before.daemon ≠ none) ∨ (∃ r, entry.event = .read r) →
        entry.output = .done) ∧
    ∀ daemon, final.daemon = some daemon → validate daemon.config = .ok () ∧
      (FollowedUp log → Current toml daemon final.file) ∧
      ((∀ entry ∈ log, ReadsAlone entry) → EveryReloaded log → Current toml daemon final.file) := by
  have clean := validate_ok.mp valid
  have healthy := healthy_run run turns sound stored clean
  refine ⟨?_, ?_, ?_⟩
  · rcases healthy.file with ⟨config, holds, config_clean⟩
    exact ⟨config, holds, validate_of_clean config_clean⟩
  · intro entry member asks
    rcases List.append_of_mem member with ⟨later, earlier, rfl⟩
    rcases run.split with ⟨earlier_run, taken⟩
    have healthy_before := healthy_run earlier_run
      (fun other old => turns other (by simp [old]))
      (fun other old => sound other (by simp [old])) stored clean
    rcases asks with ⟨env, asks⟩ | ⟨r, reads⟩
    · have own : Sound env := by
        have given := sound entry (by simp)
        rcases asks with ⟨event, -⟩ | ⟨event, -⟩
        · rw [event] at given
          exact given
        · rw [event] at given
          exact given
      exact accepted healthy_before own taken asks
    · have stepped := step_cases taken
      rw [reads] at stepped
      exact read_accepted healthy_before stepped
  · intro daemon running
    have known := (current_run run turns sound stored clean).2
    refine ⟨validate_of_clean (healthy.daemon daemon running).2.1, ?_, ?_⟩
    · exact fun followed => known followed daemon running
    · intro alone every
      exact known (followed_up_alone run turns sound stored clean alone every running)
        daemon running

/-- A request that has read the old file installs it over the new one. -/
example : (((machine ttlToml).exec [] ⟨some [], none, none, []⟩
    [.startDaemon (fun _ => none), .reload (fun _ => none), .read 0, .run (fun _ => none) [] setTtl,
      .write 0, .rename 0, .finish 0, .read 1, .install 1, .install 0]).bind (·.2.daemon)).map
        (·.config.bind.tokenTtlSecs) = some 300 := by
  decide +kernel

def reloadedEvents : List Event :=
  [.startDaemon (fun _ => none), .run (fun _ => none) [] setTtl, .write 0, .rename 0, .finish 0,
    .read 0, .install 0]

/-- The save is followed by a reload, and no other one is under way. -/
theorem ttl_followed : ∃ log final daemon,
    Run (machine ttlToml) ⟨some [], none, none, []⟩ log final ∧ final.daemon = some daemon ∧
      daemon.config.bind.tokenTtlSecs = 600 ∧ Current ttlToml daemon final.file := by
  rcases exec_checked (machine ttlToml) ⟨some [], none, none, []⟩ reloadedEvents
    (fun log final => (∀ entry ∈ log, TakesTurns entry) ∧
      final.daemon.any (·.config.bind.tokenTtlSecs == 600))
    (by decide +kernel) with ⟨log, final, executed, run, turns, set⟩
  have events := exec_events executed
  have unset : Sound (fun _ => none) := by
    unfold Sound
    decide
  have sound : ∀ entry ∈ log, entry.event.sound := by
    intro entry member
    have known := List.mem_map_of_mem (f := Entry.event) member
    rw [events] at known
    simp only [reloadedEvents, List.reverse_cons, List.reverse_nil, List.nil_append,
      List.cons_append, List.map_nil, List.append_nil, List.mem_cons, List.not_mem_nil,
      or_false] at known
    rcases known with event | event | event | event | event | event | event <;> rw [event]
    · exact trivial
    · exact trivial
    · exact trivial
    · exact trivial
    · exact trivial
    · exact unset
    · exact unset
  rcases (Option.any_eq_true _ _).mp set with ⟨daemon, running, ttl⟩
  have followed : FollowedUp log := by
    simp only [reloadedEvents, List.reverse_cons, List.reverse_nil, List.nil_append,
      List.cons_append, List.map_nil, List.append_nil] at events
    rcases List.map_eq_cons_iff.mp events with ⟨newest, log, rfl, installs, events⟩
    rcases List.map_eq_cons_iff.mp events with ⟨reading, log, rfl, reads, events⟩
    exact since_cons.mpr (Or.inl (Or.inr ⟨0, installs, since_cons.mpr (Or.inl reads)⟩))
  have follows := (daemon_follows_file run turns sound (stored_empty (written_ne_nil _))
    (by decide)).2.2 daemon running
  exact ⟨log, final, daemon, run, running, beq_iff_eq.mp ttl, follows.2.1 followed⟩

end RaemoteServer.Settings
