import RaemoteServer.Auth.Runs

/-! Calls that save the trust store at the same time. Each changes the set and takes its
snapshot under the lock; it writes the files after it has dropped the lock, and all calls
share the temporary files. -/

namespace RaemoteServer.Auth

open Text Collections Runs

/-- A file that is replaced by renaming its temporary file over it. -/
structure StoreFile where
  stored : Option Str
  temp : Option Str

structure Call (Node : Type) where
  /-- The set when the call dropped the lock; the code keeps only the snapshot of it. -/
  left : HashSet Node
  /-- What it still has to save, the current one first. -/
  saves : List Save
  /-- The temporary file of the current one is written. -/
  written : Bool

structure Process (Node : Type) where
  memory : Clocked Node
  authorized : StoreFile
  names : StoreFile
  calls : List (Call Node)

inductive Progress (Node : Type) where
  | call (operation : Operation Node)
  | write (i : Nat)
  /-- A failed write can leave anything in the temporary file. -/
  | writeFails (i : Nat) (temp : Option Str)
  | rename (i : Nat)
  | renameFails (i : Nat)

inductive Effect where
  | replied (reply : Reply)
  | written (save : Save)
  | renamed (save : Save)
  | failed (save : Save)

variable {Node : Type} [DecidableEq Node] [EndpointId Node]

def Process.file (process : Process Node) : Save → StoreFile
  | .authorized _ => process.authorized
  | .names _ => process.names

def Process.setFile (process : Process Node) (save : Save) (file : StoreFile) : Process Node :=
  match save with
  | .authorized _ => { process with authorized := file }
  | .names _ => { process with names := file }

def Process.setCall (process : Process Node) (i : Nat) (call : Call Node) : Process Node :=
  { process with calls := process.calls.set i call }

def content (toml : TomlStrings) : Save → Option Str
  | .authorized entries => some (authorizedContent entries)
  | .names names => namesContent toml names

/-- Gives up the current save after an error and goes on with the next one. -/
def Process.abandon (process : Process Node) (i : Nat) (call : Call Node) (save : Save)
    (temp : Option Str) : Process Node :=
  (process.setFile save { process.file save with temp }).setCall i
    { call with saves := call.saves.tail, written := false }

def progress (toml : TomlStrings) (process : Process Node) :
    Progress Node → Option (Effect × Process Node)
  | .call operation =>
      let (reply, saves, memory) := perform process.memory operation
      some (.replied reply, { process with
        memory
        calls := process.calls ++ [⟨memory.auth.inner.authenticated, saves, false⟩] })
  | .write i =>
      match process.calls[i]? with
      | some ⟨left, save :: rest, false⟩ =>
          match content toml save with
          | some text => some (.written save,
              (process.setFile save { process.file save with temp := some text }).setCall i
                ⟨left, save :: rest, true⟩)
          | none => some (.failed save,
              process.abandon i ⟨left, save :: rest, false⟩ save (process.file save).temp)
      | _ => none
  | .writeFails i temp =>
      match process.calls[i]? with
      | some ⟨left, save :: rest, false⟩ =>
          some (.failed save, process.abandon i ⟨left, save :: rest, false⟩ save temp)
      | _ => none
  | .rename i =>
      match process.calls[i]? with
      | some ⟨left, save :: rest, true⟩ =>
          match (process.file save).temp with
          | some text => some (.renamed save,
              (process.setFile save ⟨some text, none⟩).setCall i ⟨left, rest, false⟩)
          -- another call has renamed the file away
          | none => some (.failed save,
              process.abandon i ⟨left, save :: rest, true⟩ save none)
      | _ => none
  | .renameFails i =>
      match process.calls[i]? with
      | some ⟨left, save :: rest, true⟩ => some (.failed save,
          process.abandon i ⟨left, save :: rest, true⟩ save (process.file save).temp)
      | _ => none

def storeMachine (toml : TomlStrings) : Machine (Process Node) (Progress Node) Effect where
  step := progress toml

/-- `load_at`, with whatever temporary files an earlier process left. -/
def boot (toml : TomlStrings) (authorized names : StoreFile) (maxAttempts : UInt32)
    (now : Instant) : Process Node :=
  { memory := ⟨loadAt toml authorized.stored names.stored maxAttempts, now⟩
    authorized, names, calls := [] }

/-- What one step can do. -/
inductive Progressed (toml : TomlStrings) (process : Process Node) :
    Progress Node → Effect → Process Node → Prop
  | call (operation : Operation Node) :
      Progressed toml process (.call operation) (.replied (perform process.memory operation).1)
        { process with
          memory := (perform process.memory operation).2.2
          calls := process.calls ++
            [⟨(perform process.memory operation).2.2.auth.inner.authenticated,
              (perform process.memory operation).2.1, false⟩] }
  | write (i : Nat) (left : HashSet Node) (save : Save) (rest : List Save) (text : Str)
      (present : process.calls[i]? = some ⟨left, save :: rest, false⟩)
      (shape : content toml save = some text) :
      Progressed toml process (.write i) (.written save)
        ((process.setFile save { process.file save with temp := some text }).setCall i
          ⟨left, save :: rest, true⟩)
  | rename (i : Nat) (left : HashSet Node) (save : Save) (rest : List Save) (text : Str)
      (present : process.calls[i]? = some ⟨left, save :: rest, true⟩)
      (found : (process.file save).temp = some text) :
      Progressed toml process (.rename i) (.renamed save)
        ((process.setFile save ⟨some text, none⟩).setCall i ⟨left, rest, false⟩)
  | failed (event : Progress Node) (i : Nat) (left : HashSet Node) (save : Save) (rest : List Save)
      (written : Bool) (temp : Option Str)
      (present : process.calls[i]? = some ⟨left, save :: rest, written⟩) :
      Progressed toml process event (.failed save)
        (process.abandon i ⟨left, save :: rest, written⟩ save temp)

theorem progress_cases {toml : TomlStrings} {before after : Process Node} {event : Progress Node}
    {effect : Effect} (taken : (storeMachine toml).step before event = some (effect, after)) :
    Progressed toml before event effect after := by
  cases event with
  | call operation =>
      simp only [storeMachine, progress, Option.some.injEq, Prod.mk.injEq] at taken
      obtain ⟨rfl, rfl⟩ := taken
      exact .call operation
  | write i =>
      simp only [storeMachine, progress] at taken
      split at taken
      · rename_i left save rest present
        split at taken
        · rename_i text shape
          cases taken
          exact .write i left save rest text present shape
        · cases taken
          exact .failed _ i left save rest false _ present
      · cases taken
  | writeFails i temp =>
      simp only [storeMachine, progress] at taken
      split at taken
      · rename_i left save rest present
        cases taken
        exact .failed _ i left save rest false _ present
      · cases taken
  | rename i =>
      simp only [storeMachine, progress] at taken
      split at taken
      · rename_i left save rest present
        split at taken
        · rename_i text found
          cases taken
          exact .rename i left save rest text present found
        · cases taken
          exact .failed _ i left save rest true _ present
      · cases taken
  | renameFails i =>
      simp only [storeMachine, progress] at taken
      split at taken
      · rename_i left save rest present
        cases taken
        exact .failed _ i left save rest true _ present
      · cases taken

/-! Snapshots. -/

/-- A snapshot is of the set that the operation leaves, and an operation without one leaves
the set as it was. -/
theorem perform_saves (state : Clocked Node) (operation : Operation Node) :
    (∀ entries, Save.authorized entries ∈ (perform state operation).2.1 →
        entries = authorizedEntries (perform state operation).2.2.auth.inner.authenticated) ∧
      ((∀ entries, Save.authorized entries ∉ (perform state operation).2.1) →
        (perform state operation).2.2.auth.inner.authenticated =
          state.auth.inner.authenticated) := by
  cases operation with
  | mintTokenWith => exact ⟨by simp [perform], fun _ => rfl⟩
  | mintInvitation =>
      refine ⟨by simp [perform], fun _ => ?_⟩
      simp only [perform, AuthState.mintInvitation]
      split <;> rfl
  | setMaxAttempts => exact ⟨by simp [perform], fun _ => rfl⟩
  | advance => exact ⟨by simp [perform], fun _ => rfl⟩
  | setDeviceName node name =>
      simp only [perform, AuthState.setDeviceName]
      split
      · rename_i found
        split at found
        · cases found
          exact ⟨by simp, fun _ => rfl⟩
        · cases found
      · exact ⟨by simp, fun _ => rfl⟩
  | revoke node =>
      simp only [perform, AuthState.revoke]
      split
      · exact ⟨by simp, fun unsaved => absurd List.mem_cons_self (unsaved _)⟩
      · exact ⟨by simp, fun _ => rfl⟩
  | authenticate node presented =>
      have attempt := authenticate_cases state.auth state.now node presented
      simp only [perform]
      generalize state.auth.authenticate state.now node presented = result at attempt
      obtain ⟨outcome, saves, auth⟩ := result
      cases attempt with
      | bound => exact ⟨by simp, fun unsaved => absurd List.mem_cons_self (unsaved _)⟩
      | boundViaInvitation => exact ⟨by simp, fun unsaved => absurd List.mem_cons_self (unsaved _)⟩
      | alreadyAuthorized => exact ⟨by simp, fun _ => rfl⟩
      | noActiveToken => exact ⟨by simp, fun _ => rfl⟩
      | revoked => exact ⟨by simp, fun _ => rfl⟩
      | tokenMismatch => exact ⟨by simp, fun _ => rfl⟩

/-! Files and calls, piece by piece. -/

omit [DecidableEq Node] [EndpointId Node] in
@[simp] theorem setFile_calls (process : Process Node) (save : Save) (file : StoreFile) :
    (process.setFile save file).calls = process.calls := by
  cases save <;> rfl

omit [DecidableEq Node] [EndpointId Node] in
@[simp] theorem setFile_memory (process : Process Node) (save : Save) (file : StoreFile) :
    (process.setFile save file).memory = process.memory := by
  cases save <;> rfl

omit [DecidableEq Node] [EndpointId Node] in
@[simp] theorem setCall_calls (process : Process Node) (i : Nat) (call : Call Node) :
    (process.setCall i call).calls = process.calls.set i call := rfl

omit [DecidableEq Node] [EndpointId Node] in
@[simp] theorem setCall_memory (process : Process Node) (i : Nat) (call : Call Node) :
    (process.setCall i call).memory = process.memory := rfl

omit [DecidableEq Node] [EndpointId Node] in
@[simp] theorem setCall_authorized (process : Process Node) (i : Nat) (call : Call Node) :
    (process.setCall i call).authorized = process.authorized := rfl

/-! A save that has written the shared temporary file and not renamed it. -/

def savingAuthorized (call : Call Node) : Bool :=
  match call with
  | ⟨_, .authorized _ :: _, true⟩ => true
  | _ => false

/-- The calls between write and rename, and one more if no temporary file is there. Without
failures no step lowers it, so calls that overlap here can never all finish. -/
def slack (process : Process Node) : Nat :=
  process.calls.countP savingAuthorized + process.authorized.temp.isNone.toNat

/-- A write or a rename of the set failed. -/
def failedAuthorized (entry : Entry (Process Node) (Progress Node) Effect) : Bool :=
  match entry.output with
  | .failed (.authorized _) => true
  | _ => false

/-- Every call has returned. -/
def Quiescent (process : Process Node) : Prop := ∀ call ∈ process.calls, call.saves = []

instance (process : Process Node) : Decidable (Quiescent process) :=
  inferInstanceAs (Decidable (∀ call ∈ process.calls, call.saves = []))

omit [DecidableEq Node] [EndpointId Node] in
theorem not_saving (left : HashSet Node) (saves : List Save) :
    savingAuthorized ⟨left, saves, false⟩ = false := by
  unfold savingAuthorized
  split
  · rename_i shape
    cases shape
  · rfl

omit [DecidableEq Node] [EndpointId Node] in
theorem saving_written {process : Process Node} {i : Nat} {left : HashSet Node}
    {entries : List Str} {rest : List Save}
    (present : process.calls[i]? = some ⟨left, .authorized entries :: rest, false⟩) :
    (process.calls.set i ⟨left, .authorized entries :: rest, true⟩).countP savingAuthorized =
      process.calls.countP savingAuthorized + 1 := by
  have counted := countP_set_add savingAuthorized
    ⟨left, Save.authorized entries :: rest, true⟩ present
  rw [not_saving] at counted
  exact counted

omit [DecidableEq Node] [EndpointId Node] in
/-- The names have a file of their own. -/
theorem slack_names {process : Process Node} {i : Nat} {old new : Call Node}
    (present : process.calls[i]? = some old) (before : savingAuthorized old = false)
    (after : savingAuthorized new = false) (names : List (Str × Str)) (file : StoreFile) :
    slack ((process.setFile (.names names) file).setCall i new) = slack process := by
  have counted := countP_set_add savingAuthorized new present
  rw [before, after] at counted
  simp only [slack, setCall_calls, setCall_authorized, Process.setFile]
  rw [Nat.add_right_cancel counted]

theorem slack_step {toml : TomlStrings} {before after : Process Node} {event : Progress Node}
    {effect : Effect} (progressed : Progressed toml before event effect after)
    (clean : failedAuthorized ⟨before, event, effect, after⟩ = false) :
    slack before ≤ slack after := by
  cases progressed with
  | call operation => simp [slack, not_saving]
  | write i left save rest text present shape =>
      cases save with
      | authorized entries =>
          have counted := saving_written present
          have bit := Bool.toNat_le before.authorized.temp.isNone
          simp only [slack, setCall_calls, setCall_authorized, Process.setFile,
            Option.isNone_some, Bool.toNat_false]
          omega
      | names names => exact (slack_names present (not_saving _ _) rfl names _).ge
  | rename i left save rest text present found =>
      cases save with
      | authorized entries =>
          have counted := countP_set_add savingAuthorized ⟨left, rest, false⟩ present
          have saving : savingAuthorized ⟨left, Save.authorized entries :: rest, true⟩ = true := rfl
          have there : before.authorized.temp = some text := found
          rw [not_saving, saving] at counted
          simp only [slack, setCall_calls, setCall_authorized, Process.setFile,
            Option.isNone_none, Option.isNone_some, there, Bool.toNat_true,
            Bool.toNat_false] at counted ⊢
          omega
      | names names => exact (slack_names present rfl (not_saving _ _) names _).ge
  | failed _ i left save rest written temp present =>
      cases save with
      | authorized entries => cases clean
      | names names =>
          have other : savingAuthorized ⟨left, Save.names names :: rest, written⟩ = false := by
            cases written <;> rfl
          exact (slack_names present other (not_saving _ _) names _).ge

omit [DecidableEq Node] [EndpointId Node] in
theorem slack_quiescent {process : Process Node} (quiescent : Quiescent process) :
    slack process ≤ 1 := by
  have none : process.calls.countP savingAuthorized = 0 := by
    rw [List.countP_eq_zero]
    rintro ⟨left, saves, written⟩ member
    obtain rfl : saves = [] := quiescent _ member
    simp [savingAuthorized]
  rw [slack, none, Nat.zero_add]
  exact Bool.toNat_le _

/-! Saves that are not held up come one after another. -/

/-- Snapshots agree with the set they were taken of. -/
def Snapshots (process : Process Node) : Prop :=
  ∀ call ∈ process.calls, ∀ entries, Save.authorized entries ∈ call.saves →
    entries = authorizedEntries call.left

omit [DecidableEq Node] [EndpointId Node] in
theorem mem_setCall {process : Process Node} {i : Nat} {new call : Call Node}
    (member : call ∈ (process.setCall i new).calls) : call = new ∨ call ∈ process.calls :=
  (List.mem_or_eq_of_mem_set member).symm

omit [DecidableEq Node] in
theorem snapshots_set {process : Process Node} {i : Nat} {left : HashSet Node}
    {saves rest : List Save}
    {written now : Bool} {save : Save} {file : StoreFile} (snapshots : Snapshots process)
    (present : process.calls[i]? = some ⟨left, saves, written⟩) (fewer : rest ⊆ saves) :
    Snapshots ((process.setFile save file).setCall i ⟨left, rest, now⟩) := by
  intro call member entries saved
  rcases mem_setCall member with rfl | old
  · exact snapshots _ (List.mem_of_getElem? present) entries (fewer saved)
  · rw [setFile_calls] at old
    exact snapshots call old entries saved

theorem snapshots_step {toml : TomlStrings} {before after : Process Node} {event : Progress Node}
    {effect : Effect} (progressed : Progressed toml before event effect after)
    (snapshots : Snapshots before) : Snapshots after := by
  cases progressed with
  | call operation =>
      intro call member entries saved
      rcases List.mem_append.mp member with old | new
      · exact snapshots call old entries saved
      · obtain rfl := List.mem_singleton.mp new
        exact (perform_saves before.memory operation).1 entries saved
  | write i left save rest text present shape =>
      exact snapshots_set snapshots present (List.Subset.refl _)
  | rename i left save rest text present found =>
      exact snapshots_set snapshots present (List.subset_cons_self _ _)
  | failed _ i left save rest written temp present =>
      exact snapshots_set snapshots present (List.subset_cons_self _ _)

/-- The temporary file holds what the call between write and rename wrote. -/
def Held (process : Process Node) : Prop :=
  ∀ left entries rest, ⟨left, Save.authorized entries :: rest, true⟩ ∈ process.calls →
    process.authorized.temp = some (authorizedContent entries)

omit [DecidableEq Node] [EndpointId Node] in
theorem none_saving {process : Process Node} (free : process.calls.countP savingAuthorized = 0)
    (left : HashSet Node) (entries : List Str) (rest : List Save) :
    ⟨left, Save.authorized entries :: rest, true⟩ ∉ process.calls := by
  intro member
  exact List.countP_eq_zero.mp free _ member rfl

omit [DecidableEq Node] [EndpointId Node] in
theorem held_names {process : Process Node} (held : Held process) (names : List (Str × Str))
    (file : StoreFile) (i : Nat) {new : Call Node} (other : savingAuthorized new = false) :
    Held ((process.setFile (.names names) file).setCall i new) := by
  intro left entries rest member
  rcases mem_setCall member with same | old
  · rw [← same] at other
    cases other
  · exact held left entries rest old

theorem held_step {toml : TomlStrings} {before after : Process Node} {event : Progress Node}
    {effect : Effect} (progressed : Progressed toml before event effect after)
    (clean : failedAuthorized ⟨before, event, effect, after⟩ = false) (single : slack after ≤ 1)
    (held : Held before) : Held after := by
  cases progressed with
  | call operation =>
      intro left entries rest member
      rcases List.mem_append.mp member with old | new
      · exact held left entries rest old
      · have unwritten := congrArg Call.written (List.mem_singleton.mp new)
        cases unwritten
  | write i left save rest text present shape =>
      cases save with
      | names names => exact held_names held names _ i rfl
      | authorized entries =>
          -- the new temporary file is this call's, and no other call is waiting to rename
          have counted := saving_written present
          have free : before.calls.countP savingAuthorized = 0 := by
            simp only [slack, setCall_calls, Process.setFile] at single
            omega
          intro other others more member
          rcases mem_setCall member with new | old
          · cases new
            exact shape.symm
          · exact absurd old (none_saving free other others more)
  | rename i left save rest text present found =>
      cases save with
      | names names => exact held_names held names _ i (not_saving _ _)
      | authorized entries =>
          have free : ((before.setFile (.authorized entries) ⟨some text, none⟩).setCall i
              ⟨left, rest, false⟩).calls.countP savingAuthorized = 0 := by
            simp only [slack, setCall_authorized, Process.setFile, Option.isNone_none,
              Bool.toNat_true] at single
            exact Nat.le_zero.mp (Nat.le_of_succ_le_succ single)
          intro other others more member
          exact absurd member (none_saving free other others more)
  | failed _ i left save rest written temp present =>
      cases save with
      | authorized entries => cases clean
      | names names => exact held_names held names _ i (not_saving _ _)

/-! Which call saved last. -/

/-- The call whose set this step put in place. -/
def savedBy (entry : Entry (Process Node) (Progress Node) Effect) : Option (Call Node) :=
  match entry.event, entry.output with
  | .rename i, .renamed (.authorized _) => entry.before.calls[i]?
  | _, _ => none

def lastSaver (log : History (Process Node) (Progress Node) Effect) : Option (Call Node) :=
  log.findSome? savedBy

/-- The file as the last saver left it. -/
def fileOf (first : Option Str) (saver : Option (Call Node)) : Option Str :=
  match saver with
  | none => first
  | some call => some (authorizedContent (authorizedEntries call.left))

omit [DecidableEq Node] [EndpointId Node] in
theorem savedBy_failed {before after : Process Node} (event : Progress Node) (save : Save) :
    savedBy ⟨before, event, .failed save, after⟩ = none := by
  cases event <;> rfl

omit [DecidableEq Node] [EndpointId Node] in
theorem lastSaver_quiet {entry : Entry (Process Node) (Progress Node) Effect}
    {log : History (Process Node) (Progress Node) Effect} (quiet : savedBy entry = none) :
    lastSaver (entry :: log) = lastSaver log := by
  simp [lastSaver, quiet]

theorem stored_step {toml : TomlStrings} {before after : Process Node} {event : Progress Node}
    {effect : Effect} {log : History (Process Node) (Progress Node) Effect} {first : Option Str}
    (progressed : Progressed toml before event effect after)
    (snapshots : Snapshots before) (held : Held before)
    (stored : before.authorized.stored = fileOf first (lastSaver log)) :
    after.authorized.stored =
      fileOf first (lastSaver (⟨before, event, effect, after⟩ :: log)) := by
  cases progressed with
  | call operation => rw [lastSaver_quiet rfl, ← stored]
  | write i left save rest text present shape =>
      rw [lastSaver_quiet rfl, ← stored]
      cases save <;> rfl
  | rename i left save rest text present found =>
      cases save with
      | names names =>
          rw [lastSaver_quiet rfl, ← stored]
          rfl
      | authorized entries =>
          have member := List.mem_of_getElem? present
          have snapshot := snapshots _ member entries List.mem_cons_self
          have contents := held left entries rest member
          have saver : lastSaver (⟨before, .rename i, .renamed (.authorized entries),
              (before.setFile (.authorized entries) ⟨some text, none⟩).setCall i
                ⟨left, rest, false⟩⟩ :: log) =
              some ⟨left, .authorized entries :: rest, true⟩ := by
            simp [lastSaver, savedBy, present]
          rw [saver, fileOf, ← snapshot, ← contents]
          exact found.symm
  | failed event i left save rest written temp present =>
      rw [lastSaver_quiet (savedBy_failed event _), ← stored]
      cases save <;> rfl

/-- A change of the set is saved, or some call has yet to save it. -/
def Covered (first : HashSet Node) (saver : Option (Call Node)) (process : Process Node) : Prop :=
  saver = none → process.memory.auth.inner.authenticated = first ∨
    ∃ call ∈ process.calls, ∃ entries, Save.authorized entries ∈ call.saves

omit [DecidableEq Node] [EndpointId Node] in
/-- A call that goes on from one save to the next still has its other saves to make. -/
theorem covered_moved {process : Process Node} {first : HashSet Node} {saver : Option (Call Node)}
    {i : Nat} {left : HashSet Node} {save : Save} {rest rest' : List Save} {written now : Bool}
    {file : StoreFile} (covered : Covered first saver process)
    (present : process.calls[i]? = some ⟨left, save :: rest, written⟩)
    (kept : ∀ entries, Save.authorized entries ∈ save :: rest → Save.authorized entries ∈ rest') :
    Covered first saver ((process.setFile save file).setCall i ⟨left, rest', now⟩) := by
  intro unsaved
  rcases covered unsaved with same | ⟨call, member, entries, saved⟩
  · exact Or.inl (by simpa using same)
  · obtain ⟨inside, here⟩ := List.getElem?_eq_some_iff.mp present
    obtain ⟨j, position⟩ := List.mem_iff_getElem?.mp member
    by_cases current : j = i
    · subst current
      obtain rfl := Option.some.inj (present.symm.trans position)
      refine Or.inr ⟨⟨left, rest', now⟩, ?_, entries, kept entries saved⟩
      exact List.mem_iff_getElem?.mpr ⟨j, by simp [inside]⟩
    · refine Or.inr ⟨call, ?_, entries, saved⟩
      exact List.mem_iff_getElem?.mpr
        ⟨j, by simp [List.getElem?_set_ne (Ne.symm current), position]⟩

theorem covered_step {toml : TomlStrings} {before after : Process Node} {event : Progress Node}
    {effect : Effect} {log : History (Process Node) (Progress Node) Effect} {first : HashSet Node}
    (progressed : Progressed toml before event effect after)
    (clean : failedAuthorized ⟨before, event, effect, after⟩ = false)
    (covered : Covered first (lastSaver log) before) :
    Covered first (lastSaver (⟨before, event, effect, after⟩ :: log)) after := by
  cases progressed with
  | call operation =>
      rw [lastSaver_quiet rfl]
      intro unsaved
      obtain ⟨-, unchanged⟩ := perform_saves before.memory operation
      by_cases snapshot : ∃ entries, Save.authorized entries ∈ (perform before.memory operation).2.1
      · obtain ⟨entries, saved⟩ := snapshot
        exact Or.inr ⟨_, List.mem_append_right _ (List.mem_singleton.mpr rfl), entries, saved⟩
      · rcases covered unsaved with same | ⟨call, member, entries, saved⟩
        · exact Or.inl ((unchanged (fun entries saved => snapshot ⟨entries, saved⟩)).trans same)
        · exact Or.inr ⟨call, List.mem_append_left _ member, entries, saved⟩
  | write i left save rest text present shape =>
      rw [lastSaver_quiet rfl]
      exact covered_moved covered present (fun _ saved => saved)
  | rename i left save rest text present found =>
      cases save with
      | names names =>
          rw [lastSaver_quiet rfl]
          exact covered_moved covered present (fun entries saved => by simpa using saved)
      | authorized entries =>
          intro unsaved
          simp [lastSaver, savedBy, present] at unsaved
  | failed event i left save rest written temp present =>
      cases save with
      | authorized entries => cases clean
      | names names =>
          rw [lastSaver_quiet (savedBy_failed event _)]
          exact covered_moved covered present (fun entries saved => by simpa using saved)

/-! Disk and memory after a run. -/

/-- What a run without failures keeps while no two saves overlap. -/
structure Serial (first : Option Str) (log : History (Process Node) (Progress Node) Effect)
    (process : Process Node) : Prop where
  snapshots : Snapshots process
  held : Held process
  stored : process.authorized.stored = fileOf first (lastSaver log)
  covered : Covered (loadAuthorized first) (lastSaver log) process

theorem serial_run {toml : TomlStrings} {authorized names : StoreFile} {maxAttempts : UInt32}
    {now : Instant} {log : History (Process Node) (Progress Node) Effect} {process : Process Node}
    (run : Run (storeMachine toml) (boot toml authorized names maxAttempts now) log process)
    (clean : ∀ entry ∈ log, failedAuthorized entry = false)
    (single : ∀ entry ∈ log, slack entry.after ≤ 1) :
    Serial authorized.stored log process := by
  induction run with
  | start =>
      exact ⟨fun _ member => (nomatch member), fun _ _ _ member => (nomatch member), rfl,
        fun _ => Or.inl rfl⟩
  | step earlier taken ih =>
      obtain ⟨newestClean, olderClean⟩ := List.forall_mem_cons.mp clean
      obtain ⟨newestSingle, olderSingle⟩ := List.forall_mem_cons.mp single
      have serial := ih olderClean olderSingle
      have progressed := progress_cases taken
      exact ⟨snapshots_step progressed serial.snapshots,
        held_step progressed newestClean newestSingle serial.held,
        stored_step progressed serial.snapshots serial.held serial.stored,
        covered_step progressed newestClean serial.covered⟩

theorem serial_of_clean {toml : TomlStrings} {authorized names : StoreFile} {maxAttempts : UInt32}
    {now : Instant} {log : History (Process Node) (Progress Node) Effect} {process : Process Node}
    (run : Run (storeMachine toml) (boot toml authorized names maxAttempts now) log process)
    (clean : ∀ entry ∈ log, failedAuthorized entry = false) (quiescent : Quiescent process) :
    Serial authorized.stored log process := by
  apply serial_run run clean
  intro entry member
  have kept := run.le_final slack (failedAuthorized · = false) clean
    (fun _ _ _ _ taken clean => slack_step (progress_cases taken) clean) member
  exact le_trans kept (slack_quiescent quiescent)

/-- The file has the nodes of the set in memory. -/
def DiskAgrees (process : Process Node) : Prop :=
  ∀ node, node ∈ loadAuthorized process.authorized.stored ↔
    node ∈ process.memory.auth.inner.authenticated

/-- Once all calls have returned without a failure, the file agrees with memory exactly when
the call that renamed last had left the set that is in memory now (or nobody saved). -/
theorem disk_agrees_iff {toml : TomlStrings} {authorized names : StoreFile} {maxAttempts : UInt32}
    {now : Instant} {log : History (Process Node) (Progress Node) Effect} {process : Process Node}
    (run : Run (storeMachine toml) (boot toml authorized names maxAttempts now) log process)
    (clean : ∀ entry ∈ log, failedAuthorized entry = false) (quiescent : Quiescent process) :
    DiskAgrees process ↔ ∀ call, lastSaver log = some call →
      ∀ node, node ∈ call.left ↔ node ∈ process.memory.auth.inner.authenticated := by
  have serial := serial_of_clean run clean quiescent
  rw [DiskAgrees, serial.stored]
  cases saver : lastSaver log with
  | some call =>
      have read (node : Node) :
          node ∈ loadAuthorized (fileOf authorized.stored (some call)) ↔ node ∈ call.left :=
        mem_loadAuthorized_content call.left.elems node
      simp only [read, Option.some.injEq, forall_eq']
  | none =>
      refine iff_of_true ?_ nofun
      rcases serial.covered saver with same | ⟨call, member, entries, saved⟩
      · rw [same]
        exact fun node => Iff.rfl
      · rw [quiescent call member] at saved
        cases saved

/-- The phone is revoked while the save of the tablet's pairing is under way. -/
def overlapping (saves : List (Progress Bytes32)) : List (Progress Bytes32) :=
  [.call (.mintTokenWith (fromSecs 300) (some "2468".toList) 1700000000 (Bytes32.filled 3)),
    .call (.authenticate (Bytes32.filled 1) "2468".toList), .write 1, .rename 1,
    .call (.authenticate (Bytes32.filled 6) "2468".toList),
    .call (.revoke (Bytes32.filled 1))] ++ saves

/-- In the order of the critical sections: the file agrees. -/
theorem ordered_saves_agree : ∃ log process,
    (storeMachine TomlStrings.emptyOnly).exec []
        (boot TomlStrings.emptyOnly ⟨none, none⟩ ⟨none, none⟩ 5 0)
        (overlapping [.write 2, .rename 2, .write 3, .rename 3, .write 3, .rename 3]) =
      some (log, process) ∧
    DiskAgrees process := by
  obtain ⟨log, process, executed, run, clean, quiescent, same⟩ :=
    exec_checked (storeMachine TomlStrings.emptyOnly) _
      (overlapping [.write 2, .rename 2, .write 3, .rename 3, .write 3, .rename 3])
      (fun log process => (∀ entry ∈ log, failedAuthorized entry = false) ∧ Quiescent process ∧
        (lastSaver log).map Call.left = some process.memory.auth.inner.authenticated)
      (by decide : ((storeMachine TomlStrings.emptyOnly).exec []
        (boot TomlStrings.emptyOnly ⟨none, none⟩ ⟨none, none⟩ 5 0) _).any _)
  refine ⟨log, process, executed, (disk_agrees_iff run clean quiescent).mpr ?_⟩
  intro call saver node
  rw [saver] at same
  rw [← Option.some.inj same]

/-- The revocation is saved first and the older snapshot after it: the file still has the
phone, and a restart would let it in. -/
theorem overlapping_saves_disagree : ∃ log process,
    (storeMachine TomlStrings.emptyOnly).exec []
        (boot TomlStrings.emptyOnly ⟨none, none⟩ ⟨none, none⟩ 5 0)
        (overlapping [.write 3, .rename 3, .write 3, .rename 3, .write 2, .rename 2]) =
      some (log, process) ∧
    (∀ entry ∈ log, failedAuthorized entry = false) ∧ Quiescent process ∧
    ¬ DiskAgrees process ∧
    (loadAt TomlStrings.emptyOnly process.authorized.stored process.names.stored 5).isAuthorized
      (Bytes32.filled 1) = true ∧
    Bytes32.filled 1 ∉ process.memory.auth.inner.authenticated := by
  obtain ⟨log, process, executed, run, clean, quiescent, back, gone⟩ :=
    exec_checked (storeMachine TomlStrings.emptyOnly) _
      (overlapping [.write 3, .rename 3, .write 3, .rename 3, .write 2, .rename 2])
      (fun log process => (∀ entry ∈ log, failedAuthorized entry = false) ∧ Quiescent process ∧
        (loadAt TomlStrings.emptyOnly process.authorized.stored process.names.stored 5).isAuthorized
          (Bytes32.filled 1) = true ∧
        Bytes32.filled 1 ∉ process.memory.auth.inner.authenticated)
      (by decide : ((storeMachine TomlStrings.emptyOnly).exec []
        (boot TomlStrings.emptyOnly ⟨none, none⟩ ⟨none, none⟩ 5 0) _).any _)
  refine ⟨log, process, executed, clean, quiescent, ?_, back, gone⟩
  intro agrees
  exact gone ((agrees (Bytes32.filled 1)).mp (of_decide_eq_true back))

end RaemoteServer.Auth
