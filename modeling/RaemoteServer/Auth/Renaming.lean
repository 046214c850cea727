import RaemoteServer.Auth.Calls

/-! What a rename leaves behind when its save fails. -/

namespace RaemoteServer.Auth

open Text Collections Runs

variable {Node : Type} [DecidableEq Node] [EndpointId Node]

abbrev CallEntry (Node : Type) := Entry (Process Node) (Request Node) (Reply × List Str)

/-- `set_device_name`, with the save. -/
def Process.setDeviceName (toml : TomlStrings) (process : Process Node) (node : Node) (name : Str)
    (outcomes : Outcomes) : Except Str Unit × Process Node :=
  match process.memory.auth.setDeviceName node name with
  | .error message => (.error message, process)
  | .ok (saves, auth) =>
      let (errors, after) :=
        { process with memory := { process.memory with auth } }.saveAll toml outcomes saves
      match errors with
      | [] => (.ok (), after)
      | error :: _ => (.error error, after)

/-- It is what the machine does. -/
theorem calls_setDeviceName (toml : TomlStrings) (process : Process Node) (node : Node) (name : Str)
    (outcomes : Outcomes) : ∃ errors,
    (calls toml).step process ⟨.setDeviceName node name, outcomes⟩ =
      some ((.named (process.setDeviceName toml node name outcomes).1, errors),
        (process.setDeviceName toml node name outcomes).2) := by
  unfold Process.setDeviceName
  simp only [calls, perform]
  cases process.memory.auth.setDeviceName node name with
  | error message => exact ⟨_, rfl⟩
  | ok result =>
      obtain ⟨saves, auth⟩ := result
      dsimp only
      generalize { process with memory := { process.memory with auth } }.saveAll toml outcomes
        saves = saved
      obtain ⟨errors, after⟩ := saved
      cases errors <;> exact ⟨_, rfl⟩

/-- With the name set, or cleared, in memory. -/
def Process.withName (process : Process Node) (node : Node) (name : Str) : Process Node :=
  { process with memory := { process.memory with auth := { process.memory.auth with
      inner := { process.memory.auth.inner with
        names := renamed process.memory.auth.inner.names node name } } } }

/-- The new table has a text, which is written and renamed into place. -/
def NameSaved (toml : TomlStrings) (before : Process Node) (node : Node) (name : Str)
    (outcomes : Outcomes) : Prop :=
  (namesContent toml (nameEntries (renamed before.memory.auth.inner.names node name))).isSome =
    true ∧
    outcomes.names = .done

/-- What a call of `set_device_name` can do. -/
inductive RenameCase (toml : TomlStrings) (before : Process Node) (node : Node) (name : Str)
    (outcomes : Outcomes) : Reply → Process Node → Prop
  | unauthorized (unknown : node ∉ before.memory.auth.inner.authenticated) (message : Str) :
      RenameCase toml before node name outcomes (.named (.error message)) before
  | saved (known : node ∈ before.memory.auth.inner.authenticated)
      (saved : NameSaved toml before node name outcomes) (text : Str) :
      RenameCase toml before node name outcomes (.named (.ok ()))
        { before.withName node name with names := ⟨some text, none⟩ }
  | failed (known : node ∈ before.memory.auth.inner.authenticated)
      (unsaved : ¬ NameSaved toml before node name outcomes) (error : Str) (temp : Option Str) :
      RenameCase toml before node name outcomes (.named (.error error))
        { before.withName node name with names := { before.names with temp } }

theorem rename_cases {toml : TomlStrings} {before after : Process Node} {request : Request Node}
    {output : Reply × List Str} (taken : (calls toml).step before request = some (output, after))
    {node : Node} {name : Str} (renames : request.operation = .setDeviceName node name) :
    RenameCase toml before node name request.outcomes output.1 after := by
  obtain ⟨errors, rfl, reply⟩ := calls_step taken
  rw [errors] at reply
  rw [reply, renames]
  by_cases known : node ∈ before.memory.auth.inner.authenticated
  · simp only [perform, setDeviceName_eq, if_pos known, Process.saveAll, Process.save, content,
      Outcomes.of]
    cases shape :
        namesContent toml (nameEntries (renamed before.memory.auth.inner.names node name)) with
    | none =>
        have unsaved : ¬ NameSaved toml before node name request.outcomes := by
          simp [NameSaved, shape]
        exact .failed known unsaved _ before.names.temp
    | some text =>
        cases ends : request.outcomes.names with
        | done => exact .saved known (by simp [NameSaved, shape, ends]) text
        | writeFails error temp => exact .failed known (by simp [NameSaved, ends]) error temp
        | renameFails error => exact .failed known (by simp [NameSaved, ends]) error (some text)
  · simp only [perform, setDeviceName_eq, if_neg known]
    exact .unauthorized known _

/-- If the call returns an error, then memory, the list of devices and the file are what they were
before it. -/
def RenameAtomic (entry : CallEntry Node) : Prop :=
  ∀ error, entry.output.1 = .named (.error error) →
    (∀ id, entry.after.memory.auth.inner.names.lookup id =
        entry.before.memory.auth.inner.names.lookup id) ∧
      entry.after.memory.auth.deviceInfos = entry.before.memory.auth.deviceInfos ∧
      entry.after.names.stored = entry.before.names.stored

/-- A rename that changes the name of a device and is not saved leaves the change in memory; every
other one is atomic. -/
theorem rename_atomic_iff {toml : TomlStrings} {authorized names : StoreFile} {maxAttempts : UInt32}
    {now : Instant} {log : List (CallEntry Node)} {process : Process Node}
    (run : Run (calls toml) (boot toml authorized names maxAttempts now) log process)
    {entry : CallEntry Node} (member : entry ∈ log) {node : Node} {name : Str}
    (renames : entry.event.operation = .setDeviceName node name) :
    RenameAtomic entry ↔
      node ∉ entry.before.memory.auth.inner.authenticated ∨
        entry.before.memory.auth.inner.names.lookup node = sanitizeDeviceName name ∨
        NameSaved toml entry.before node name entry.event.outcomes := by
  have taken := rename_cases (run.taken member) renames
  obtain ⟨before, request, ⟨reply, errors⟩, after⟩ := entry
  dsimp only at taken
  cases taken with
  | unauthorized unknown message =>
      exact iff_of_true (fun _ _ => ⟨fun _ => rfl, rfl, rfl⟩) (Or.inl unknown)
  | saved known saved text => exact iff_of_true nofun (Or.inr (Or.inr saved))
  | failed known unsaved error temp =>
      constructor
      · intro atomic
        obtain ⟨same, -, -⟩ := atomic error rfl
        have here : (renamed before.memory.auth.inner.names node name).lookup node =
            before.memory.auth.inner.names.lookup node := same node
        rw [lookup_renamed, if_pos rfl] at here
        exact Or.inr (Or.inl here.symm)
      · intro condition
        have given := (condition.resolve_left (not_not_intro known)).resolve_right unsaved
        have same (id : Node) : (renamed before.memory.auth.inner.names node name).lookup id =
            before.memory.auth.inner.names.lookup id := by
          rw [lookup_renamed]
          split
          · rename_i about
            rw [about]
            exact given.symm
          · rfl
        exact fun _ _ => ⟨same, deviceInfos_congr rfl same, rfl⟩

/-- The device is renamed, and the save of the names ends so. -/
def renameToDesk (outcome : Outcome) : Request Bytes32 :=
  ⟨.setDeviceName (Bytes32.filled 0xab) "Desk".toList, ⟨.done, outcome, []⟩⟩

def unnamed : Process Bytes32 := boot TomlStrings.basic ⟨oneDevice, none⟩ ⟨none, none⟩ 5 0

theorem saved_rename_atomic : ∃ output after,
    (calls TomlStrings.basic).step unnamed (renameToDesk .done) = some (output, after) ∧
      RenameAtomic ⟨unnamed, renameToDesk .done, output, after⟩ :=
  ⟨_, _, rfl, (rename_atomic_iff (Run.start.step rfl) List.mem_cons_self rfl).mpr
    (Or.inr (Or.inr ⟨by decide, rfl⟩))⟩

/-- The disk is full: the call returns the error, and the device is shown as renamed. -/
theorem unsaved_rename_stays : ¬ ∀ (log : List (CallEntry Bytes32)) (process : Process Bytes32),
    Run (calls TomlStrings.basic) unnamed log process → ∀ entry ∈ log,
      (∃ node name, entry.event.operation = .setDeviceName node name) → RenameAtomic entry := by
  intro always
  let request := renameToDesk (.writeFails "no space left".toList none)
  have taken : (calls TomlStrings.basic).step unnamed request = some (_, _) := rfl
  have atomic := always _ _ (Run.start.step taken) _ List.mem_cons_self ⟨_, _, rfl⟩
  obtain ⟨same, -, -⟩ := atomic "no space left".toList (by rfl)
  have differs : some "Desk".toList = none := same (Bytes32.filled 0xab)
  cases differs

end RaemoteServer.Auth
