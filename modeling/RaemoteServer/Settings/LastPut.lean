import RaemoteServer.Settings.Session

/-! Commands that take turns at the config file: every field has the value that it was given last,
and that is what is printed. -/

namespace RaemoteServer.Settings

open Text Collections Runs

abbrev LogEntry := Entry State Event Output
abbrev Log := History State Event Output

/-- The command has read the file and not replaced it yet. -/
def Stage.pending : Stage → Bool
  | .changed | .written => true
  | .renamed | .ended => false

def Event.reads : Event → Bool
  | .run _ _ _ => true
  | _ => false

/-- No command reads the file while another one is to replace it. -/
def TakesTurns (entry : LogEntry) : Prop :=
  entry.event.reads = true → ∀ saving ∈ entry.before.saving, saving.stage.pending = false

instance : DecidablePred TakesTurns := fun entry =>
  inferInstanceAs (Decidable (entry.event.reads = true →
    ∀ saving ∈ entry.before.saving, saving.stage.pending = false))

/-- The variables count only if there is a file. -/
def inForce (env : Env) (file : Option Str) (field : Field) : Option Value :=
  if file = none then none else overriding env field

section

variable (toml : TomlConfig)

/-- What the save of a command puts in a field. -/
def Saving.puts (saving : Saving) (field : Field) : Option Value :=
  if saving.command.field = some field then
    (storedConfig toml saving.read).bind (saving.command.newValue saving.listed)
  else inForce saving.env saving.read field

def puts (entry : LogEntry) (field : Field) : Option Value :=
  match entry.event, entry.output with
  | .rename s, .done => entry.before.saving[s]?.bind (·.puts toml field)
  | _, _ => none

def lastPut (log : Log) (initial : Config) (field : Field) : Value :=
  (log.findSome? (puts toml · field)).getD (initial.get field)

structure Orderly (state : State) : Prop where
  alone : ∀ {s s' : Nat} {saving saving' : Saving}, state.saving[s]? = some saving →
    state.saving[s']? = some saving' → saving.stage.pending = true →
    saving'.stage.pending = true → s = s'
  changed : ∀ saving ∈ state.saving,
    change toml saving.env saving.listed saving.command saving.read = .ok (some saving.content)
  read : ∀ saving ∈ state.saving, saving.stage.pending = true → saving.read = state.file
  filled : ∀ saving ∈ state.saving, saving.stage = .written → state.temp = some saving.content

end

variable {toml : TomlConfig} {before after : State} {event : Event} {output : Output}

/-! What a command saves. -/

theorem change_some {env : Env} {listed : Option (List ListedApp)} {command : Command}
    {file : Option Str} {content : Str}
    (changed : change toml env listed command file = .ok (some content)) :
    ∃ loaded, load env toml file = .ok loaded ∧
      command.run toml env listed file = .ok (some content) ∧
      command.writes listed loaded = true := by
  rcases bind_ok changed with ⟨after, ran, changed⟩
  rcases bind_ok changed with ⟨loaded, read, changed⟩
  have changed := Except.ok.inj changed
  split at changed
  · rw [changed] at ran
    exact ⟨loaded, read, ran, ‹_›⟩
  · cases changed

/-- A config as it is loaded, field by field. -/
theorem loaded_get {env : Env} {file : Option Str} {stored loaded : Config}
    (holds : storedConfig toml file = some stored) (read : load env toml file = .ok loaded)
    (field : Field) : loaded.get field = (inForce env file field).getD (stored.get field) := by
  cases file with
  | none =>
      cases holds
      cases read
      rfl
  | some content =>
      cases (load_some holds).symm.trans read
      rw [get_envOverride]
      rfl

theorem loaded_newValue {env : Env} {file : Option Str} {stored loaded : Config}
    (holds : storedConfig toml file = some stored) (read : load env toml file = .ok loaded)
    (listed : Option (List ListedApp)) (command : Command) :
    command.newValue listed loaded = command.newValue listed stored := by
  cases file with
  | none =>
      cases holds
      cases read
      rfl
  | some content =>
      cases (load_some holds).symm.trans read
      exact newValue_override command stored

theorem saved_get {saving : Saving} {stored : Config}
    (changed : change toml saving.env saving.listed saving.command saving.read =
      .ok (some saving.content)) (holds : storedConfig toml saving.read = some stored) :
    ∃ config, storedConfig toml (some saving.content) = some config ∧
      ∀ field, config.get field = (saving.puts toml field).getD (stored.get field) := by
  rcases change_some changed with ⟨loaded, read, ran, writes⟩
  rcases run_cases ran with ⟨loaded', read', ran⟩
  rw [read] at read'
  cases read'
  generalize file_is : some saving.content = file at ran
  cases ran with
  | nothing idle => cases writes.symm.trans idle
  | wrote config content named value _ field new changes text =>
      cases file_is
      refine ⟨config, toml.read_back _ _ text, fun other => ?_⟩
      rw [loaded_newValue holds read] at new
      rw [Saving.puts, field, holds]
      by_cases same : named = other
      · subst same
        rw [if_pos rfl, Option.bind_some, new]
        exact changes.named
      · rw [if_neg (fun equal => same (Option.some.inj equal)),
          changes.others other (Ne.symm same), loaded_get holds read]

/-! Commands that take turns. -/

theorem orderly_set {s : Nat} {saving : Saving} {stage : Stage} {file temp : Option Str}
    {daemon : Option Raemoted} (orderly : Orderly toml before)
    (here : before.saving[s]? = some saving)
    (same : saving.stage.pending = true ∨ file = before.file ∧ temp = before.temp)
    (read : stage.pending = true → saving.stage.pending = true ∧ file = before.file)
    (filled : stage = .written → temp = some saving.content) :
    Orderly toml
      (State.set ⟨file, temp, daemon, before.saving⟩ s { saving with stage }) := by
  have member := List.mem_of_getElem? here
  have others {s' : Nat} {other : Saving} (different : s' ≠ s)
      (there : before.saving[s']? = some other) (waits : other.stage.pending = true) :
      file = before.file ∧ temp = before.temp := by
    rcases same with pending | same
    · exact absurd (orderly.alone there here waits pending) different
    · exact same
  constructor
  · intro s₁ s₂ first second there₁ there₂ pending₁ pending₂
    rcases getElem?_set_some there₁ with ⟨rfl, rfl⟩ | ⟨different₁, old₁⟩
    · rcases getElem?_set_some there₂ with ⟨rfl, rfl⟩ | ⟨different₂, old₂⟩
      · rfl
      · exact orderly.alone here old₂ (read pending₁).1 pending₂
    · rcases getElem?_set_some there₂ with ⟨rfl, rfl⟩ | ⟨different₂, old₂⟩
      · exact orderly.alone old₁ here pending₁ (read pending₂).1
      · exact orderly.alone old₁ old₂ pending₁ pending₂
  · exact forall_mem_set orderly.changed (orderly.changed saving member)
  · intro other present pending
    rcases List.mem_iff_getElem?.mp present with ⟨s', there⟩
    rcases getElem?_set_some there with ⟨rfl, rfl⟩ | ⟨different, old⟩
    · exact (orderly.read saving member (read pending).1).trans (read pending).2.symm
    · rw [orderly.read other (List.mem_of_getElem? old) pending]
      exact (others different old pending).1.symm
  · intro other present written
    rcases List.mem_iff_getElem?.mp present with ⟨s', there⟩
    rcases getElem?_set_some there with ⟨rfl, rfl⟩ | ⟨different, old⟩
    · exact filled written
    · rw [← orderly.filled other (List.mem_of_getElem? old) written]
      exact (others different old (by rw [written]; rfl)).2

theorem orderly_kept (orderly : Orderly toml before)
    (turns : TakesTurns ⟨before, event, output, after⟩)
    (stepped : Stepped toml before event output after) : Orderly toml after := by
  cases stepped with
  | unchanged => exact orderly
  | started => exact ⟨orderly.alone, orderly.changed, orderly.read, orderly.filled⟩
  | stopped => exact ⟨orderly.alone, orderly.changed, orderly.read, orderly.filled⟩
  | received => exact ⟨orderly.alone, orderly.changed, orderly.read, orderly.filled⟩
  | read => exact ⟨orderly.alone, orderly.changed, orderly.read, orderly.filled⟩
  | installed => exact ⟨orderly.alone, orderly.changed, orderly.read, orderly.filled⟩
  | ran env apps command listed content changed =>
      have idle := turns rfl
      constructor
      · -- only the new one is to replace the file
        have last {i : Nat} {new saving : Saving}
            (there : (before.saving ++ [new])[i]? = some saving)
            (pending : saving.stage.pending = true) : i = before.saving.length := by
          by_cases old : i < before.saving.length
          · rw [List.getElem?_append_left old] at there
            rw [idle saving (List.mem_of_getElem? there)] at pending
            cases pending
          · have inside := (List.getElem?_eq_some_iff.mp there).1
            simp only [List.length_append, List.length_singleton] at inside
            omega
        intro s₁ s₂ first second there₁ there₂ pending₁ pending₂
        rw [last there₁ pending₁, last there₂ pending₂]
      · intro saving present
        rcases List.mem_append.mp present with old | new
        · exact orderly.changed saving old
        · cases List.mem_singleton.mp new
          exact changed
      · intro saving present pending
        rcases List.mem_append.mp present with old | new
        · exact orderly.read saving old pending
        · cases List.mem_singleton.mp new
          rfl
      · intro saving present written
        rcases List.mem_append.mp present with old | new
        · exact orderly.filled saving old written
        · cases List.mem_singleton.mp new
          cases written
  | wrote s saving here =>
      rcases at_some.mp here with ⟨here, stage⟩
      have pending : saving.stage.pending = true := by rw [stage]; rfl
      exact orderly_set orderly here (Or.inl pending) (fun _ => ⟨pending, rfl⟩) (fun _ => rfl)
  | renamed s saving text here found =>
      rcases at_some.mp here with ⟨here, stage⟩
      have pending : saving.stage.pending = true := by rw [stage]; rfl
      exact orderly_set orderly here (Or.inl pending) nofun nofun
  | finished s saving here =>
      exact orderly_set orderly (at_some.mp here).1 (Or.inr ⟨rfl, rfl⟩) nofun nofun
  | cut event output s saving temp here present same which =>
      have touched :
          saving.stage.pending = true ∨ before.file = before.file ∧ temp = before.temp := by
        by_cases changed : saving.stage = .changed
        · exact Or.inl (by rw [changed]; rfl)
        · exact Or.inr ⟨rfl, same changed⟩
      exact orderly_set orderly here touched nofun nofun

/-! The whole run. -/

variable {file temp : Option Str} {daemon : Option Raemoted} {initial : Config} {log : Log}
  {final : State}

theorem orderly_run (run : Run (machine toml) ⟨file, temp, daemon, []⟩ log final)
    (turns : ∀ entry ∈ log, TakesTurns entry) : Orderly toml final := by
  apply run.invariant_of_allowed (Orderly toml) TakesTurns turns
  · constructor <;> simp
  · intro before event output after taken allowed orderly
    exact orderly_kept orderly allowed (step_cases taken)

theorem puts_none {entry : LogEntry}
    (other : ∀ s, entry.event = .rename s → entry.output ≠ .done) (field : Field) :
    puts toml entry field = none := by
  rw [puts]
  split
  · exact absurd ‹_› (other _ ‹_›)
  · rfl

theorem lastPut_cons (entry : LogEntry) (log : Log) (initial : Config) (field : Field) :
    lastPut toml (entry :: log) initial field =
      (puts toml entry field).getD (lastPut toml log initial field) := by
  rw [lastPut, List.findSome?_cons]
  cases puts toml entry field <;> rfl

/-- Only a rename that succeeds puts anything in the file. -/
theorem puts_or_same (stepped : Stepped toml before event output after) :
    (after.file = before.file ∧ ∀ field, puts toml ⟨before, event, output, after⟩ field = none) ∨
      ∃ s saving text, event = .rename s ∧ output = .done ∧ before.at s .written = some saving ∧
        before.temp = some text ∧ after.file = some text := by
  cases stepped with
  | renamed s saving text here found => exact Or.inr ⟨s, saving, text, rfl, rfl, here, found, rfl⟩
  | unchanged event output idle =>
      exact Or.inl ⟨rfl, puts_none fun s same => absurd same (idle s).1⟩
  | cut event output s saving temp here present same which =>
      rcases which with ⟨rfl, failed⟩ | ⟨written, rfl⟩
      · exact Or.inl ⟨rfl, puts_none fun _ _ => failed⟩
      · exact Or.inl ⟨rfl, puts_none nofun⟩
  | started => exact Or.inl ⟨rfl, fun _ => rfl⟩
  | stopped => exact Or.inl ⟨rfl, fun _ => rfl⟩
  | received => exact Or.inl ⟨rfl, fun _ => rfl⟩
  | read => exact Or.inl ⟨rfl, puts_none nofun⟩
  | installed => exact Or.inl ⟨rfl, fun _ => rfl⟩
  | ran => exact Or.inl ⟨rfl, fun _ => rfl⟩
  | wrote => exact Or.inl ⟨rfl, fun _ => rfl⟩
  | finished => exact Or.inl ⟨rfl, fun _ => rfl⟩

theorem stored_run (run : Run (machine toml) ⟨file, temp, daemon, []⟩ log final)
    (turns : ∀ entry ∈ log, TakesTurns entry) (stored : storedConfig toml file = some initial) :
    ∃ config, storedConfig toml final.file = some config ∧
      ∀ field, config.get field = lastPut toml log initial field := by
  induction run with
  | start => exact ⟨initial, stored, fun _ => rfl⟩
  | @step log before after event output earlier taken ih =>
      have turns_before : ∀ entry ∈ log, TakesTurns entry :=
        fun entry member => turns entry (List.mem_cons_of_mem _ member)
      have orderly := orderly_run earlier turns_before
      rcases ih turns_before with ⟨config, holds, values⟩
      rcases puts_or_same (step_cases taken) with ⟨same, nothing⟩ | ⟨s, saving, text, rest⟩
      · refine ⟨config, by rw [same, holds], fun field => ?_⟩
        rw [values, lastPut_cons, nothing]
        rfl
      · rcases rest with ⟨rfl, rfl, here, found, replaced⟩
        rcases at_some.mp here with ⟨here, stage⟩
        have member := List.mem_of_getElem? here
        -- the temporary file is the command's own, and the file is as the command read it
        have own := orderly.filled saving member stage
        have read := orderly.read saving member (by rw [stage]; rfl)
        rw [found] at own
        rcases saved_get (orderly.changed saving member) (read ▸ holds) with ⟨config', holds', gets⟩
        refine ⟨config', by rw [replaced, own, holds'], fun field => ?_⟩
        rw [gets, values, lastPut_cons]
        change _ = (before.saving[s]?.bind (·.puts toml field)).getD _
        rw [here, Option.bind_some]

/-- What `config get` prints of a file that can be read. -/
theorem get_prints {env : Env} {key : Str} {stored : Config}
    (holds : storedConfig toml before.file = some stored)
    (taken : (machine toml).step before (.get env key) = some (output, after)) :
    (∀ field, keyField key = some field →
      output = .printed ((inForce env before.file field).getD (stored.get field)).shown) ∧
    (keyField key = none → output = .failed ("unknown key: ".toList ++ key)) := by
  have taken : step toml before (.get env key) = some (output, after) := taken
  rw [step] at taken
  cases read : load env toml before.file with
  | error message =>
      cases shape : before.file with
      | none =>
          rw [shape] at read
          cases read
      | some content =>
          rw [shape] at read holds
          rw [load_some holds] at read
          cases read
  | ok loaded =>
      rw [read] at taken
      constructor
      · intro field known
        have printed := get_field loaded key
        rw [known] at printed
        simp only [bind, Except.bind, printed] at taken
        cases taken
        rw [loaded_get holds read]
      · intro unknown
        have printed := get_field loaded key
        rw [unknown] at printed
        simp only [bind, Except.bind, printed] at taken
        cases taken
        rfl

/-- In every run in which the commands take turns, wherever some of them are stopped, each field of
the file has the value that the last save put in it, and `config get` prints that, or what
a variable says instead. -/
theorem get_prints_last (run : Run (machine toml) ⟨file, temp, daemon, []⟩ log final)
    (turns : ∀ entry ∈ log, TakesTurns entry) (stored : storedConfig toml file = some initial) :
    (∃ config, storedConfig toml final.file = some config ∧
      ∀ field, config.get field = lastPut toml log initial field) ∧
    ∀ {later earlier : Log} {entry : LogEntry} {env : Env} {key : Str},
      log = later ++ entry :: earlier → entry.event = .get env key →
        (∀ field, keyField key = some field → entry.output = .printed
          ((inForce env entry.before.file field).getD (lastPut toml earlier initial field)).shown) ∧
        (keyField key = none → entry.output = .failed ("unknown key: ".toList ++ key)) := by
  refine ⟨stored_run run turns stored, ?_⟩
  intro later earlier entry env key shape asked
  subst shape
  rcases run.split with ⟨earlier_run, taken⟩
  have turns_earlier : ∀ other ∈ earlier, TakesTurns other :=
    fun other member => turns other (by simp [member])
  rcases stored_run earlier_run turns_earlier stored with ⟨config, holds, values⟩
  rw [asked] at taken
  rcases get_prints holds taken with ⟨printed, unknown⟩
  refine ⟨fun field known => ?_, unknown⟩
  rw [printed field known, values]

/-- One command is killed before it can rename, the next one gets through. -/
def ttlEvents : List Event :=
  let key := "bind.token_ttl_secs".toList
  [.run (fun _ => none) [] setTtl, .write 0, .stop 0 none, .get (fun _ => none) key,
    .run (fun _ => none) [] setTtl, .write 1, .rename 1, .finish 1, .get (fun _ => none) key]

theorem ttl_printed : ∃ log final, Run (machine ttlToml) ⟨some [], none, none, []⟩ log final ∧
    log.head?.map Entry.output = some (.printed "600".toList) ∧
    ∃ config, storedConfig ttlToml final.file = some config ∧
      config.get .tokenTtlSecs = .number 600 := by
  rcases exec_checked (machine ttlToml) ⟨some [], none, none, []⟩ ttlEvents
    (fun log _ => (∀ entry ∈ log, TakesTurns entry) ∧
      log.head?.map Entry.output = some (.printed "600".toList) ∧
      lastPut ttlToml log .default .tokenTtlSecs = .number 600)
    (by decide +kernel) with ⟨log, final, -, run, turns, printed, last⟩
  rcases (get_prints_last run turns (stored_empty (written_ne_nil _))).1 with
    ⟨config, holds, values⟩
  exact ⟨log, final, run, printed, config, holds, by rw [values, last]⟩

end RaemoteServer.Settings
