import RaemoteServer.Auth.DeviceNames
import RaemoteServer.Auth.Restart

/-! Whole calls, one after another: what each does in memory, and then its saves, each of which may
fail. -/

namespace RaemoteServer.Auth

open Text Collections Runs

/-- How the save of one file ends. -/
inductive Outcome where
  | done
  | writeFails (error : Str) (temp : Option Str)
  | renameFails (error : Str)
  deriving DecidableEq

/-- What the environment has in store for the saves of a call. -/
structure Outcomes where
  authorized : Outcome
  names : Outcome
  /-- The error of a table that has no text. -/
  serializeError : Str

def Outcomes.of (outcomes : Outcomes) : Save → Outcome
  | .authorized _ => outcomes.authorized
  | .names _ => outcomes.names

structure Request (Node : Type) where
  operation : Operation Node
  outcomes : Outcomes

variable {Node : Type} [DecidableEq Node] [EndpointId Node]

/-- `save_authorized` and `save_names` -/
def Process.save (toml : TomlStrings) (outcomes : Outcomes) (process : Process Node) (save : Save) :
    Except Str Unit × Process Node :=
  match content toml save with
  | none => (.error outcomes.serializeError, process)
  | some text =>
      match outcomes.of save with
      | .writeFails error temp =>
          (.error error, process.setFile save { process.file save with temp })
      | .renameFails error =>
          (.error error, process.setFile save { process.file save with temp := some text })
      | .done => (.ok (), process.setFile save ⟨some text, none⟩)

/-- The later saves are made whatever becomes of the earlier ones. -/
def Process.saveAll (toml : TomlStrings) (outcomes : Outcomes) (process : Process Node) :
    List Save → List Str × Process Node
  | [] => ([], process)
  | save :: rest =>
      let (result, next) := process.save toml outcomes save
      let (errors, final) := next.saveAll toml outcomes rest
      match result with
      | .ok () => (errors, final)
      | .error error => (error :: errors, final)

/-- Only `set_device_name` passes the error of its save on; the others log theirs. -/
def passOn : Reply → List Str → Reply
  | .named (.ok ()), error :: _ => .named (.error error)
  | reply, _ => reply

/-- A step answers with the reply and the errors of the saves. -/
def calls (toml : TomlStrings) : Machine (Process Node) (Request Node) (Reply × List Str) where
  step process request :=
    let (reply, saves, memory) := perform process.memory request.operation
    let (errors, after) := { process with memory }.saveAll toml request.outcomes saves
    some ((passOn reply errors, errors), after)

theorem calls_step {toml : TomlStrings} {before after : Process Node} {request : Request Node}
    {output : Reply × List Str} (taken : (calls toml).step before request = some (output, after)) :
    output.2 = ({ before with memory := (perform before.memory request.operation).2.2 }.saveAll toml
        request.outcomes (perform before.memory request.operation).2.1).1 ∧
      after = ({ before with memory := (perform before.memory request.operation).2.2 }.saveAll toml
        request.outcomes (perform before.memory request.operation).2.1).2 ∧
      output.1 = passOn (perform before.memory request.operation).1 output.2 := by
  simp only [calls, Option.some.injEq, Prod.mk.injEq] at taken
  obtain ⟨rfl, rfl⟩ := taken
  exact ⟨rfl, rfl, rfl⟩

omit [DecidableEq Node] [EndpointId Node] in
@[simp] theorem save_memory (toml : TomlStrings) (outcomes : Outcomes) (process : Process Node)
    (save : Save) : (process.save toml outcomes save).2.memory = process.memory := by
  unfold Process.save
  split
  · rfl
  · split <;> exact setFile_memory ..

omit [DecidableEq Node] [EndpointId Node] in
@[simp] theorem saveAll_memory (toml : TomlStrings) (outcomes : Outcomes) (process : Process Node)
    (saves : List Save) : (process.saveAll toml outcomes saves).2.memory = process.memory := by
  induction saves generalizing process with
  | nil => rfl
  | cons save rest ih =>
      rw [Process.saveAll]
      dsimp only
      split <;> exact (ih _).trans (save_memory ..)

/-! Each whole call is a call of the store's machine followed by its steps for the saves. -/

omit [DecidableEq Node] [EndpointId Node] in
theorem setFile_file (process : Process Node) (save : Save) :
    process.setFile save (process.file save) = process := by
  cases save <;> rfl

omit [DecidableEq Node] [EndpointId Node] in
/-- The second of two changes of the same file and call is what is left of both. -/
theorem setFile_setCall_again (process : Process Node) (save : Save) (i : Nat)
    (file file' : StoreFile) (call call' : Call Node) :
    (((process.setFile save file).setCall i call).setFile save file').setCall i call' =
      (process.setFile save file').setCall i call' := by
  cases save <;> simp [Process.setFile, Process.setCall]

/-- One save is made, or given up, in at most two steps. -/
theorem save_followed (toml : TomlStrings) (outcomes : Outcomes) {process : Process Node} {i : Nat}
    {left : HashSet Node} {save : Save} {rest : List Save}
    (present : process.calls[i]? = some ⟨left, save :: rest, false⟩) :
    ∃ steps, Run (storeMachine toml) process steps
        ((process.save toml outcomes save).2.setCall i ⟨left, rest, false⟩) ∧
      ∀ entry ∈ steps, entry.event.isCall = false := by
  have inside := (List.getElem?_eq_some_iff.mp present).1
  cases shape : content toml save with
  | none =>
      have kept : process.setFile save { process.file save with } = process :=
        setFile_file process save
      have taken : (storeMachine toml).step process (.write i) =
          some (.failed save, process.setCall i ⟨left, rest, false⟩) := by
        simp [storeMachine, progress, present, shape, Process.abandon, kept]
      simp only [Process.save, shape]
      exact ⟨_, Run.start.step taken, by simp [Progress.isCall]⟩
  | some text =>
      let middle := (process.setFile save { process.file save with temp := some text }).setCall i
        ⟨left, save :: rest, true⟩
      have waiting : middle.calls[i]? = some ⟨left, save :: rest, true⟩ := by
        simp [middle, inside]
      have temp : (middle.file save).temp = some text := by
        cases save <;> rfl
      have writes : (storeMachine toml).step process (.write i) = some (.written save, middle) := by
        simp [storeMachine, progress, present, shape, middle]
      simp only [Process.save, shape]
      cases outcomes.of save with
      | writeFails error left' =>
          have fails : (storeMachine toml).step process (.writeFails i left') =
              some (.failed save,
                (process.setFile save { process.file save with temp := left' }).setCall i
                  ⟨left, rest, false⟩) := by
            simp [storeMachine, progress, present, Process.abandon]
          exact ⟨_, Run.start.step fails, by simp [Progress.isCall]⟩
      | renameFails error =>
          have fails : (storeMachine toml).step middle (.renameFails i) =
              some (.failed save, (process.setFile save
                { process.file save with temp := some text }).setCall i ⟨left, rest, false⟩) := by
            have unchanged : (middle.file save).stored = (process.file save).stored := by
              cases save <;> rfl
            simp only [storeMachine, progress, waiting, Process.abandon, temp, unchanged,
              List.tail_cons]
            rw [setFile_setCall_again]
          exact ⟨_, (Run.start.step writes).step fails, by simp [Progress.isCall]⟩
      | done =>
          have renames : (storeMachine toml).step middle (.rename i) =
              some (.renamed save, (process.setFile save ⟨some text, none⟩).setCall i
                ⟨left, rest, false⟩) := by
            simp only [storeMachine, progress, waiting, temp]
            rw [setFile_setCall_again]
          exact ⟨_, (Run.start.step writes).step renames, by simp [Progress.isCall]⟩

/-! The saves neither read nor change the list of calls. -/

def Process.withCalls (process : Process Node) (calls : List (Call Node)) : Process Node :=
  { process with calls }

omit [DecidableEq Node] [EndpointId Node] in
theorem save_withCalls (toml : TomlStrings) (outcomes : Outcomes) (process : Process Node)
    (calls : List (Call Node)) (save : Save) :
    (process.withCalls calls).save toml outcomes save =
      ((process.save toml outcomes save).1, (process.save toml outcomes save).2.withCalls
          calls) := by
  unfold Process.save
  split
  · rfl
  · split <;> cases save <;> rfl

omit [DecidableEq Node] [EndpointId Node] in
theorem saveAll_cons (toml : TomlStrings) (outcomes : Outcomes) (process : Process Node)
    (save : Save) (rest : List Save) : (process.saveAll toml outcomes (save :: rest)).2 =
      ((process.save toml outcomes save).2.saveAll toml outcomes rest).2 := by
  rw [Process.saveAll]
  dsimp only
  split <;> rfl

omit [DecidableEq Node] [EndpointId Node] in
theorem saveAll_withCalls (toml : TomlStrings) (outcomes : Outcomes) (process : Process Node)
    (calls : List (Call Node)) (saves : List Save) :
    ((process.withCalls calls).saveAll toml outcomes saves).2 =
      (process.saveAll toml outcomes saves).2.withCalls calls := by
  induction saves generalizing process with
  | nil => rfl
  | cons save rest ih => rw [saveAll_cons, saveAll_cons, save_withCalls, ih]

omit [DecidableEq Node] [EndpointId Node] in
theorem save_calls (toml : TomlStrings) (outcomes : Outcomes) (process : Process Node)
    (save : Save) : (process.save toml outcomes save).2.calls = process.calls := by
  unfold Process.save
  split
  · rfl
  · split <;> exact setFile_calls ..

omit [DecidableEq Node] [EndpointId Node] in
theorem saveAll_calls (toml : TomlStrings) (outcomes : Outcomes) (process : Process Node)
    (saves : List Save) : (process.saveAll toml outcomes saves).2.calls = process.calls := by
  induction saves generalizing process with
  | nil => rfl
  | cons save rest ih => rw [saveAll_cons, ih, save_calls]

theorem saveAll_followed (toml : TomlStrings) (outcomes : Outcomes) {process : Process Node}
    {i : Nat}
    {left : HashSet Node} {saves : List Save}
    (present : process.calls[i]? = some ⟨left, saves, false⟩) :
    ∃ steps, Run (storeMachine toml) process steps
        ((process.saveAll toml outcomes saves).2.setCall i ⟨left, [], false⟩) ∧
      ∀ entry ∈ steps, entry.event.isCall = false := by
  induction saves generalizing process with
  | nil =>
      obtain ⟨inside, same⟩ := List.getElem?_eq_some_iff.mp present
      have kept : process.setCall i ⟨left, [], false⟩ = process := by
        rw [← same, Process.setCall, List.set_getElem_self]
      refine ⟨[], ?_, List.forall_mem_nil _⟩
      rw [Process.saveAll, kept]
      exact .start
  | cons save rest ih =>
      obtain ⟨first, made, plain⟩ := save_followed toml outcomes present
      let next := (process.save toml outcomes save).2
      have inside := (List.getElem?_eq_some_iff.mp present).1
      have calls : next.calls = process.calls := save_calls toml outcomes process save
      have waiting : (next.setCall i ⟨left, rest, false⟩).calls[i]? = some ⟨left, rest, false⟩ := by
        simp [calls, inside]
      obtain ⟨later, rests, plain'⟩ := ih waiting
      have shape : ((next.setCall i ⟨left, rest, false⟩).saveAll toml outcomes rest).2.setCall i
            ⟨left, [], false⟩ =
          (process.saveAll toml outcomes (save :: rest)).2.setCall i ⟨left, [], false⟩ := by
        have moved :=
          saveAll_withCalls toml outcomes next (next.calls.set i ⟨left, rest, false⟩) rest
        have unmoved := saveAll_calls toml outcomes next rest
        rw [saveAll_cons]
        change (next.withCalls (next.calls.set i ⟨left, rest, false⟩) |>.saveAll toml outcomes
            rest).2.setCall i
            ⟨left, [], false⟩ = (next.saveAll toml outcomes rest).2.setCall i ⟨left, [], false⟩
        rw [moved]
        simp [Process.withCalls, Process.setCall, unmoved]
      rw [shape] at rests
      exact ⟨later ++ first, made.trans rests,
        List.forall_mem_append.mpr ⟨plain', plain⟩⟩

/-- A run of whole calls is a run of the store's machine in which no call begins before the last
one has returned. -/
theorem calls_followed {toml : TomlStrings} {authorized names : StoreFile} {maxAttempts : UInt32}
    {now : Instant} {log : History (Process Node) (Request Node) (Reply × List Str)}
    {process : Process Node}
    (run : Run (calls toml) (boot toml authorized names maxAttempts now) log process) :
    ∃ steps final, Run (storeMachine toml) (boot toml authorized names maxAttempts now)
      steps final ∧
      Sequential steps ∧ Quiescent final ∧ process = final.withCalls [] := by
  induction run with
  | start => exact ⟨[], _, .start, List.forall_mem_nil _, List.forall_mem_nil _, rfl⟩
  | @step log before after request output earlier taken ih =>
      obtain ⟨steps, final, run, sequential, quiescent, rfl⟩ := ih
      obtain ⟨-, shape, -⟩ := calls_step taken
      let saves := (perform final.memory request.operation).2.1
      let memory := (perform final.memory request.operation).2.2
      let call : Call Node := ⟨memory.auth.inner.authenticated, saves, false⟩
      let begun : Process Node := { final with memory, calls := final.calls ++ [call] }
      have begins : (storeMachine toml).step final (.call request.operation) =
          some (.replied (perform final.memory request.operation).1, begun) := rfl
      have present : begun.calls[final.calls.length]? = some call := by simp [begun]
      obtain ⟨more, saved, plain⟩ := saveAll_followed toml request.outcomes present
      refine ⟨_, _, (run.step begins).trans saved, ?_, ?_, ?_⟩
      · intro entry member calls
        rcases List.mem_append.mp member with new | old
        · rw [plain entry new] at calls
          cases calls
        · rcases List.mem_cons.mp old with rfl | older
          · exact quiescent
          · exact sequential entry older calls
      · intro other member
        rw [setCall_calls, saveAll_calls, List.set_append_right _ _ (le_refl _),
          Nat.sub_self] at member
        rcases List.mem_append.mp member with old | new
        · exact quiescent other old
        · rw [List.mem_singleton.mp new]
      · let quiet : Process Node := { final with memory }
        have whole := saveAll_withCalls toml request.outcomes quiet [] saves
        have part := saveAll_withCalls toml request.outcomes quiet (final.calls ++ [call]) saves
        calc after
          _ = ((quiet.withCalls []).saveAll toml request.outcomes saves).2 := shape
          _ = (quiet.saveAll toml request.outcomes saves).2.withCalls [] := whole
          _ = ((begun.saveAll toml request.outcomes saves).2.setCall final.calls.length
                ⟨call.left, [], false⟩).withCalls [] := by
            change _ = ((quiet.withCalls (final.calls ++ [call])).saveAll toml request.outcomes
              saves).2.withCalls []
            rw [part]
            rfl

end RaemoteServer.Auth
