import RaemoteServer.Auth.StoreRaces

/-! Restarts of a process whose calls come one after another, with saves that fail and crashes
between any two steps. -/

namespace RaemoteServer.Auth

open Text Collections Runs

variable {Node : Type} [DecidableEq Node] [EndpointId Node]

def Progress.isCall : Progress Node → Bool
  | .call _ => true
  | _ => false

/-- A call starts when every earlier one has made its saves or given them up. -/
def Sequential (log : History (Process Node) (Progress Node) Effect) : Prop :=
  ∀ entry ∈ log, entry.event.isCall = true → Quiescent entry.before

instance (log : History (Process Node) (Progress Node) Effect) : Decidable (Sequential log) :=
  inferInstanceAs (Decidable (∀ entry ∈ log, entry.event.isCall = true → Quiescent entry.before))

/-- The set in memory when this step put a snapshot in place. -/
def setSaved (entry : Entry (Process Node) (Progress Node) Effect) : Option (HashSet Node) :=
  match entry.output with
  | .renamed (.authorized _) => some entry.before.memory.auth.inner.authenticated
  | _ => none

/-- The set in memory at the last successful `save_authorized`. -/
def lastSaved (log : History (Process Node) (Progress Node) Effect) : Option (HashSet Node) :=
  log.findSome? setSaved

/-- The text of the last set saved. -/
def textSaved (first : Option Str) (saved : Option (HashSet Node)) : Option Str :=
  match saved with
  | none => first
  | some set => some (authorizedContent (authorizedEntries set))

/-- What holds between any two steps of such a process. -/
structure Sequenced (first : Option Str) (log : History (Process Node) (Progress Node) Effect)
    (process : Process Node) : Prop where
  /-- At most one call has saves to make. -/
  single : ∀ (i j : Nat) (one other : Call Node), process.calls[i]? = some one →
    process.calls[j]? = some other → one.saves ≠ [] → other.saves ≠ [] → i = j
  /-- Its snapshot is of the set that is in memory. -/
  current : ∀ call ∈ process.calls, ∀ entries, Save.authorized entries ∈ call.saves →
    entries = authorizedEntries process.memory.auth.inner.authenticated
  held : Held process
  stored : process.authorized.stored = textSaved first (lastSaved log)

variable {toml : TomlStrings} {before after : Process Node} {event : Progress Node}
  {effect : Effect} {first : Option Str} {log : History (Process Node) (Progress Node) Effect}

omit [DecidableEq Node] [EndpointId Node] in
theorem lastSaved_quiet {entry : Entry (Process Node) (Progress Node) Effect}
    (quiet : setSaved entry = none) : lastSaved (entry :: log) = lastSaved log := by
  simp [lastSaved, quiet]

/-- A call that starts when all others have returned. -/
theorem sequenced_call (inv : Sequenced first log before) (quiescent : Quiescent before)
    (operation : Operation Node) :
    Sequenced first (⟨before, .call operation, .replied (perform before.memory operation).1,
        { before with
          memory := (perform before.memory operation).2.2
          calls := before.calls ++
            [⟨(perform before.memory operation).2.2.auth.inner.authenticated,
              (perform before.memory operation).2.1, false⟩] }⟩ :: log)
      { before with
        memory := (perform before.memory operation).2.2
        calls := before.calls ++
          [⟨(perform before.memory operation).2.2.auth.inner.authenticated,
            (perform before.memory operation).2.1, false⟩] } := by
  have newest {i : Nat} {call new : Call Node} (present : (before.calls ++ [new])[i]? = some call)
      (unfinished : call.saves ≠ []) : i = before.calls.length := by
    rcases Nat.lt_or_ge i before.calls.length with old | rest
    · rw [List.getElem?_append_left old] at present
      exact absurd (quiescent call (List.mem_of_getElem? present)) unfinished
    · have bound := (List.getElem?_eq_some_iff.mp present).1
      rw [List.length_append, List.length_singleton] at bound
      omega
  constructor
  · intro i j one other first second unfinished waiting
    rw [newest first unfinished, newest second waiting]
  · intro call member entries saved
    rcases List.mem_append.mp member with old | new
    · rw [quiescent call old] at saved
      cases saved
    · obtain rfl := List.mem_singleton.mp new
      exact (perform_saves before.memory operation).1 entries saved
  · intro left entries rest member
    rcases List.mem_append.mp member with old | new
    · exact inv.held left entries rest old
    · have unwritten := congrArg Call.written (List.mem_singleton.mp new)
      cases unwritten
  · rw [lastSaved_quiet rfl]
    exact inv.stored

omit [DecidableEq Node] in
/-- The one unfinished call goes on; what it has still to save was to be saved before. -/
theorem sequenced_move (inv : Sequenced first log before) {i : Nat} {left : HashSet Node}
    {saves rest : List Save} {written now : Bool} {save : Save} {file : StoreFile}
    (present : before.calls[i]? = some ⟨left, saves, written⟩) (unfinished : saves ≠ [])
    (fewer : rest ⊆ saves)
    (held : now = true → ∀ entries others, rest = .authorized entries :: others →
      ((before.setFile save file).setCall i ⟨left, rest, now⟩).authorized.temp =
        some (authorizedContent entries))
    (stored : ((before.setFile save file).setCall i ⟨left, rest, now⟩).authorized.stored =
      textSaved first (lastSaved (⟨before, event, effect,
        (before.setFile save file).setCall i ⟨left, rest, now⟩⟩ :: log))) :
    Sequenced first
      (⟨before, event, effect, (before.setFile save file).setCall i ⟨left, rest, now⟩⟩ :: log)
      ((before.setFile save file).setCall i ⟨left, rest, now⟩) := by
  have position {j : Nat} {call : Call Node}
      (found : ((before.setFile save file).setCall i ⟨left, rest, now⟩).calls[j]? = some call)
      (waiting : call.saves ≠ []) : j = i := by
    rw [setCall_calls, setFile_calls] at found
    rcases getElem?_set_some found with ⟨same, -⟩ | ⟨-, old⟩
    · exact same
    · exact inv.single j i call _ old present waiting unfinished
  constructor
  · intro j k one other atFirst atSecond unfinished waiting
    rw [position atFirst unfinished, position atSecond waiting]
  · intro call member entries saved
    rw [setCall_memory, setFile_memory]
    rcases mem_setCall member with rfl | old
    · exact inv.current _ (List.mem_of_getElem? present) entries (fewer saved)
    · rw [setFile_calls] at old
      exact inv.current call old entries saved
  · intro other entries others member
    obtain ⟨j, found⟩ := List.mem_iff_getElem?.mp member
    obtain rfl := position found (List.cons_ne_nil _ _)
    rw [setCall_calls, setFile_calls] at found
    rcases getElem?_set_some found with ⟨-, same⟩ | ⟨different, -⟩
    · cases same
      exact held rfl entries others rfl
    · exact absurd rfl different
  · exact stored

theorem sequenced_step (progressed : Progressed toml before event effect after)
    (alone : event.isCall = true → Quiescent before)
    (inv : Sequenced first log before) :
    Sequenced first (⟨before, event, effect, after⟩ :: log) after := by
  cases progressed with
  | call operation => exact sequenced_call inv (alone rfl) operation
  | write i left save rest text present shape =>
      apply sequenced_move inv present (List.cons_ne_nil _ _) (List.Subset.refl _)
      · intro _ entries others same
        obtain ⟨rfl, rfl⟩ := List.cons.inj same
        exact shape.symm
      · rw [lastSaved_quiet rfl, ← inv.stored]
        cases save <;> rfl
  | rename i left save rest text present found =>
      apply sequenced_move inv present (List.cons_ne_nil _ _) (List.subset_cons_self _ _)
      · exact nofun
      · cases save with
        | names names =>
            rw [lastSaved_quiet rfl, ← inv.stored]
            rfl
        | authorized entries =>
            have member := List.mem_of_getElem? present
            have snapshot := inv.current _ member entries List.mem_cons_self
            have contents := inv.held left entries rest member
            calc
              _ = before.authorized.temp := found.symm
              _ = some (authorizedContent
                    (authorizedEntries before.memory.auth.inner.authenticated)) := by
                rw [contents, snapshot]
  | failed event i left save rest written temp present =>
      apply sequenced_move inv present (List.cons_ne_nil _ _) (List.subset_cons_self _ _)
      · exact nofun
      · rw [lastSaved_quiet rfl, ← inv.stored]
        cases save <;> rfl

theorem sequenced_run {authorized names : StoreFile} {maxAttempts : UInt32} {now : Instant}
    {process : Process Node}
    (run : Run (storeMachine toml) (boot toml authorized names maxAttempts now) log process)
    (sequential : Sequential log) : Sequenced authorized.stored log process := by
  induction run with
  | start =>
      constructor
      · intro i j one other atFirst
        simp [boot] at atFirst
      · exact fun _ member => nomatch member
      · exact fun _ _ _ member => nomatch member
      · rfl
  | step earlier taken ih =>
      obtain ⟨newest, older⟩ := List.forall_mem_cons.mp sequential
      exact sequenced_step (progress_cases taken) newest (ih older)

/-- The names of devices that are not authorized are dropped when the store is loaded. -/
theorem loadAt_names {store names : Option Str} {maxAttempts : UInt32} {node : Node} {name : Str}
    (found : (loadAt toml store names maxAttempts : AuthState Node).inner.names.lookup node =
      some name) :
    node ∈ (loadAt toml store names maxAttempts : AuthState Node).inner.authenticated :=
  of_decide_eq_true (HashMap.lookup_retain.mp found).2

/-- The process that is started on the files of one that has stopped. -/
def Process.restarted (toml : TomlStrings) (process : Process Node) (maxAttempts : UInt32)
    (now : Instant) : Process Node :=
  boot toml process.authorized process.names maxAttempts now

/-- Wherever the process stops, the next one reads the set that was in memory at the last
successful save, or else the set the process itself had read. -/
theorem restart_recovers_last_saved {authorized names : StoreFile} {maxAttempts : UInt32}
    {now : Instant} {process : Process Node}
    (run : Run (storeMachine toml) (boot toml authorized names maxAttempts now) log process)
    (sequential : Sequential log) (attempts : UInt32) (later : Instant) :
    (∀ node : Node,
      (process.restarted toml attempts later).memory.auth.isAuthorized node = true ↔
        node ∈ (lastSaved log).getD
          (boot toml authorized names maxAttempts now).memory.auth.inner.authenticated) ∧
    ∀ node name,
      (process.restarted toml attempts later).memory.auth.inner.names.lookup node = some name →
        (process.restarted toml attempts later).memory.auth.isAuthorized node = true := by
  have stored := (sequenced_run run sequential).stored
  constructor
  · intro node
    apply (decide_eq_true_iff).trans
    change node ∈ loadAuthorized process.authorized.stored ↔ _
    rw [stored]
    cases saved : lastSaved log with
    | none => exact Iff.rfl
    | some set => exact mem_loadAuthorized_content set.elems node
  · intro node name found
    exact decide_eq_true (loadAt_names found)

/-- The phone's revocation is saved whole; the tablet's is made in memory, its write fails and the
process stops. -/
def stoppedWhileRevoking : List (Progress Bytes32) :=
  [.call (.revoke (Bytes32.filled 1)), .write 0, .rename 0, .write 0, .rename 0,
    .call (.revoke (Bytes32.filled 6)), .writeFails 1 (some "06".toList)]

def twoDevices : StoreFile :=
  ⟨some (authorizedContent [toText (Bytes32.filled 1), toText (Bytes32.filled 6)]), none⟩

theorem restart_after_failed_save : ∃ log process,
    (storeMachine TomlStrings.emptyOnly).exec []
        (boot TomlStrings.emptyOnly twoDevices ⟨none, none⟩ 5 0) stoppedWhileRevoking =
      some (log, process) ∧
    Bytes32.filled 6 ∉ process.memory.auth.inner.authenticated ∧
    ∀ node, (process.restarted TomlStrings.emptyOnly 5 0).memory.auth.isAuthorized node = true ↔
      node ∈ HashSet.ofList [Bytes32.filled 6] := by
  obtain ⟨log, process, executed, run, sequential, gone, saved⟩ :=
    exec_checked (storeMachine TomlStrings.emptyOnly) _ stoppedWhileRevoking
      (fun log process => Sequential log ∧
        Bytes32.filled 6 ∉ process.memory.auth.inner.authenticated ∧
        lastSaved log = some (HashSet.ofList [Bytes32.filled 6]))
      (by decide : ((storeMachine TomlStrings.emptyOnly).exec []
        (boot TomlStrings.emptyOnly twoDevices ⟨none, none⟩ 5 0) _).any _)
  refine ⟨log, process, executed, gone, ?_⟩
  have recovered := (restart_recovers_last_saved run sequential 5 0).1
  rw [saved] at recovered
  exact recovered

end RaemoteServer.Auth
