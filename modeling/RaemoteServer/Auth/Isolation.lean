import RaemoteServer.Auth.Renaming

/-! No call about one device changes what another one is to the server, in memory or, once the saves
have been made, on disk. -/

namespace RaemoteServer.Auth

open Text Collections Runs

variable {Node : Type} [DecidableEq Node] [EndpointId Node]

/-- The snapshots that an operation saves are of what it leaves in memory, and what it does not
save is as it was. -/
inductive Snapshotted (before after : Inner Node) : List Save → Prop
  | none (nodes : after.authenticated = before.authenticated) (names : after.names = before.names) :
      Snapshotted before after []
  | nodes (names : after.names = before.names) :
      Snapshotted before after [.authorized (authorizedEntries after.authenticated)]
  | names (nodes : after.authenticated = before.authenticated) :
      Snapshotted before after [.names (nameEntries after.names)]
  | both : Snapshotted before after
      [.authorized (authorizedEntries after.authenticated), .names (nameEntries after.names)]

theorem perform_snapshotted (state : Clocked Node) (operation : Operation Node) :
    Snapshotted state.auth.inner (perform state operation).2.2.auth.inner
      (perform state operation).2.1 := by
  cases operation with
  | mintTokenWith => exact .none rfl rfl
  | setMaxAttempts => exact .none rfl rfl
  | advance => exact .none rfl rfl
  | mintInvitation =>
      simp only [perform, AuthState.mintInvitation]
      split <;> exact .none rfl rfl
  | authenticate node presented =>
      have taken := authenticate_cases state.auth state.now node presented
      simp only [perform]
      generalize state.auth.authenticate state.now node presented = result at taken
      obtain ⟨outcome, saves, auth⟩ := result
      cases taken with
      | bound => exact .nodes rfl
      | boundViaInvitation => exact .nodes rfl
      | alreadyAuthorized => exact .none rfl rfl
      | noActiveToken => exact .none rfl rfl
      | revoked => exact .none rfl rfl
      | tokenMismatch => exact .none rfl rfl
  | revoke node =>
      simp only [perform, AuthState.revoke]
      split
      · exact .both
      · exact .none rfl rfl
  | setDeviceName node name =>
      simp only [perform, setDeviceName_eq]
      by_cases known : node ∈ state.auth.inner.authenticated
      · simp only [if_pos known]
        exact .names rfl
      · simp only [if_neg known]
        exact .none rfl rfl

/-- Only authorized devices have names. -/
def NamesKnown (inner : Inner Node) : Prop :=
  ∀ node name, inner.names.lookup node = some name → node ∈ inner.authenticated

theorem AuthenticateCase.grows {auth after : AuthState Node} {now : Instant} {node other : Node}
    {presented : Str} {outcome : BindOutcome} {saves : List Save}
    (taken : AuthenticateCase auth now node presented outcome saves after)
    (listed : other ∈ auth.inner.authenticated) : other ∈ after.inner.authenticated := by
  cases taken with
  | bound => exact HashSet.mem_insert.mpr (Or.inr listed)
  | boundViaInvitation => exact HashSet.mem_insert.mpr (Or.inr listed)
  | alreadyAuthorized => exact listed
  | noActiveToken => exact listed
  | revoked => exact listed
  | tokenMismatch => exact listed

theorem perform_known {state : Clocked Node} (known : NamesKnown state.auth.inner)
    (operation : Operation Node) : NamesKnown (perform state operation).2.2.auth.inner := by
  intro node name found
  by_cases about : operation.device = some node
  · cases operation with
    | mintTokenWith => cases about
    | setMaxAttempts => cases about
    | advance => cases about
    | mintInvitation => cases about
    | authenticate other presented =>
        have taken := authenticate_cases state.auth state.now other presented
        have kept := congrArg (AList.lookup node) taken.names.1
        exact taken.grows (known node name (kept.symm.trans found))
    | revoke other =>
        obtain rfl := Option.some.inj about
        simp only [perform, AuthState.revoke] at found ⊢
        by_cases listed : other ∈ state.auth.inner.authenticated
        · simp only [if_pos listed, AList.lookup_erase, reduceCtorEq] at found
        · simp only [if_neg listed] at found ⊢
          exact known other name found
    | setDeviceName other given =>
        obtain rfl := Option.some.inj about
        simp only [perform, setDeviceName_eq] at found ⊢
        by_cases listed : other ∈ state.auth.inner.authenticated
        · simp only [if_pos listed]
          exact listed
        · simp only [if_neg listed] at found ⊢
          exact known other name found
  · obtain ⟨nodes, names⟩ := perform_frame state operation about
    exact nodes.mpr (known node name (names.symm.trans found))

/-! The files after saves without errors. -/

omit [DecidableEq Node] [EndpointId Node] in
theorem save_clean {toml : TomlStrings} {outcomes : Outcomes} {process : Process Node} {save : Save}
    (clean : (process.save toml outcomes save).1 = .ok ()) :
    ∃ text, content toml save = some text ∧
      (process.save toml outcomes save).2 = process.setFile save ⟨some text, none⟩ := by
  unfold Process.save at clean ⊢
  cases shape : content toml save with
  | none =>
      rw [shape] at clean
      cases clean
  | some text =>
      simp only [shape] at clean ⊢
      cases ends : outcomes.of save with
      | done => exact ⟨text, rfl, rfl⟩
      | writeFails error temp =>
          rw [ends] at clean
          cases clean
      | renameFails error =>
          rw [ends] at clean
          cases clean

omit [DecidableEq Node] [EndpointId Node] in
theorem saveAll_clean {toml : TomlStrings} {outcomes : Outcomes} {process : Process Node}
    {save : Save}
    {rest : List Save} (clean : (process.saveAll toml outcomes (save :: rest)).1 = []) :
    ∃ text, content toml save = some text ∧
      ((process.setFile save ⟨some text, none⟩).saveAll toml outcomes rest).1 = [] ∧
      (process.saveAll toml outcomes (save :: rest)).2 =
        ((process.setFile save ⟨some text, none⟩).saveAll toml outcomes rest).2 := by
  cases made : (process.save toml outcomes save).1 with
  | error error =>
      simp [Process.saveAll, made] at clean
  | ok =>
      obtain ⟨text, shape, after⟩ := save_clean made
      simp only [Process.saveAll, made, after] at clean ⊢
      exact ⟨text, shape, clean, rfl⟩

/-- What the files say is what is in memory. -/
structure InStep (toml : TomlStrings) (process : Process Node) : Prop where
  nodes : ∀ node, node ∈ loadAuthorized process.authorized.stored ↔
    node ∈ process.memory.auth.inner.authenticated
  names : ∀ node, (loadNames toml process.names.stored).lookup node =
    process.memory.auth.inner.names.lookup node
  known : NamesKnown process.memory.auth.inner

theorem inStep_boot {toml : TomlStrings} {authorized names : StoreFile} {maxAttempts : UInt32}
    {now : Instant} (only : ∀ (node : Node) name, (loadNames toml names.stored).lookup node =
      some name →
      node ∈ (loadAuthorized authorized.stored : HashSet Node)) :
    InStep toml (boot toml authorized names maxAttempts now : Process Node) := by
  refine ⟨fun node => Iff.rfl, ?_, ?_⟩
  · intro node
    ext name
    exact ⟨fun found => loadAt_lookup.mpr ⟨found, only node name found⟩,
      fun found => (loadAt_lookup.mp found).1⟩
  · intro node name found
    exact (loadAt_lookup.mp found).2

/-- A call whose saves are made keeps the files in step. -/
theorem InStep.call {toml : TomlStrings} (trips : toml.RoundTrips) {before after : Process Node}
    {request : Request Node} {output : Reply × List Str} (inStep : InStep toml before)
    (taken : (calls toml).step before request = some (output, after)) (clean : output.2 = []) :
    InStep toml after := by
  obtain ⟨errors, rfl, -⟩ := calls_step taken
  rw [clean] at errors
  have snapshotted := perform_snapshotted before.memory request.operation
  have known := perform_known inStep.known request.operation
  generalize (perform before.memory request.operation).2.1 = saves,
    (perform before.memory request.operation).2.2 = memory at errors snapshotted known ⊢
  cases snapshotted with
  | none nodes names =>
      refine ⟨fun node => ?_, fun node => ?_, known⟩
      · exact nodes ▸ inStep.nodes node
      · exact names ▸ inStep.names node
  | nodes names =>
      obtain ⟨text, written, -, shape⟩ := saveAll_clean errors.symm
      obtain rfl := Option.some.inj written
      rw [shape]
      refine ⟨mem_loadAuthorized_content _, fun node => ?_, known⟩
      exact names ▸ inStep.names node
  | names nodes =>
      obtain ⟨text, written, -, shape⟩ := saveAll_clean errors.symm
      rw [shape]
      refine ⟨fun node => ?_, loadNames_saved trips written, known⟩
      exact nodes ▸ inStep.nodes node
  | both =>
      obtain ⟨content, written, rest, shape⟩ := saveAll_clean errors.symm
      obtain ⟨text, written', -, shape'⟩ := saveAll_clean rest
      obtain rfl := Option.some.inj written
      rw [shape, shape']
      exact ⟨mem_loadAuthorized_content _, loadNames_saved trips written', known⟩

theorem inStep_run {toml : TomlStrings} (trips : toml.RoundTrips) {authorized names : StoreFile}
    {maxAttempts : UInt32} {now : Instant} {log : List (CallEntry Node)} {process : Process Node}
    (run : Run (calls toml) (boot toml authorized names maxAttempts now) log process)
    (only : ∀ (node : Node) name, (loadNames toml names.stored).lookup node = some name →
      node ∈ (loadAuthorized authorized.stored : HashSet Node))
    (clean : ∀ entry ∈ log, entry.output.2 = []) : InStep toml process :=
  run.invariant_of_allowed (InStep toml) (fun entry => entry.output.2 = []) clean (inStep_boot only)
    (fun _ _ _ _ taken clean inStep => inStep.call trips taken clean)

/-! What a device is to the server. -/

/-- It is let in as before, and shown under the same name. -/
def Unaffected (node : Node) (before after : AuthState Node) : Prop :=
  after.isAuthorized node = before.isAuthorized node ∧
    ∀ name, (⟨node, name⟩ : DeviceInfo Node) ∈ after.deviceInfos ↔ ⟨node, name⟩ ∈ before.deviceInfos

theorem unaffected_of_same {node : Node} {before after : AuthState Node}
    (listed : node ∈ after.inner.authenticated ↔ node ∈ before.inner.authenticated)
    (named : after.inner.names.lookup node = before.inner.names.lookup node) :
    Unaffected node before after := by
  refine ⟨decide_eq_decide.mpr listed, fun name => ?_⟩
  simp only [mem_deviceInfos, AuthState.deviceInfo, listed, named]

theorem InStep.restarted {toml : TomlStrings} {process : Process Node}
    (inStep : InStep toml process)
    (attempts : UInt32) (later : Instant) (node : Node) :
    Unaffected node process.memory.auth (process.restarted toml attempts later).memory.auth := by
  apply unaffected_of_same (inStep.nodes node)
  ext name
  apply loadAt_lookup.trans
  rw [inStep.names]
  refine ⟨fun found => found.1, fun found => ⟨found, ?_⟩⟩
  exact (inStep.nodes node).mpr (inStep.known node name found)

theorem Unaffected.trans {node : Node} {first second third : AuthState Node}
    (early : Unaffected node first second) (late : Unaffected node second third) :
    Unaffected node first third :=
  ⟨late.1.trans early.1, fun name => (late.2 name).trans (early.2 name)⟩

/-- A call about one device leaves every other as it was, and so does a restart behind it when all
saves were made and the names file had named only authorized devices. -/
theorem devices_isolated {toml : TomlStrings} {authorized names : StoreFile} {maxAttempts : UInt32}
    {now : Instant} {log : List (CallEntry Node)} {before after : Process Node}
    (run : Run (calls toml) (boot toml authorized names maxAttempts now) log before)
    {request : Request Node} {output : Reply × List Str}
    (taken : (calls toml).step before request = some (output, after)) {a b : Node}
    (about : request.operation.device = some a) (different : a ≠ b) :
    Unaffected b before.memory.auth after.memory.auth ∧
      (toml.RoundTrips →
        (∀ (node : Node) name, (loadNames toml names.stored).lookup node = some name →
          node ∈ (loadAuthorized authorized.stored : HashSet Node)) →
        (∀ entry ∈ log, entry.output.2 = []) → output.2 = [] →
        ∀ attempts later,
          Unaffected b before.memory.auth (after.restarted toml attempts later).memory.auth) := by
  have memory : after.memory = (perform before.memory request.operation).2.2 := by
    rw [(calls_step taken).2.1, saveAll_memory]
  have other : request.operation.device ≠ some b := by
    rw [about]
    exact fun same => different (Option.some.inj same)
  obtain ⟨listed, named⟩ := perform_frame before.memory request.operation other
  rw [← memory] at listed named
  have kept := unaffected_of_same listed named
  refine ⟨kept, fun trips only clean saved attempts later => ?_⟩
  have inStep := (inStep_run trips run only clean).call trips taken saved
  exact kept.trans (inStep.restarted attempts later b)

/-- The tablet has got a name; then the phone is revoked. -/
def nameTablet : Request Bytes32 :=
  ⟨.setDeviceName (Bytes32.filled 6) "Bravo".toList, ⟨.done, .done, []⟩⟩

def revokePhone : Request Bytes32 := ⟨.revoke (Bytes32.filled 1), ⟨.done, .done, []⟩⟩

theorem tablet_isolated : ∃ log before output after,
    (calls TomlStrings.basic).exec [] (boot TomlStrings.basic twoDevices ⟨none, none⟩ 5 0)
    [nameTablet] =
      some (log, before) ∧
    (calls TomlStrings.basic).step before revokePhone = some (output, after) ∧
    ∀ attempts later, (⟨Bytes32.filled 6, "Bravo".toList⟩ : DeviceInfo Bytes32) ∈
      (after.restarted TomlStrings.basic attempts later).memory.auth.deviceInfos := by
  obtain ⟨log, before, executed, run, clean, listed, saved⟩ :=
    exec_checked (calls TomlStrings.basic) (boot TomlStrings.basic twoDevices ⟨none, none⟩ 5 0)
      [nameTablet]
      (fun log before => (∀ entry ∈ log, entry.output.2 = []) ∧
        (⟨Bytes32.filled 6, "Bravo".toList⟩ : DeviceInfo Bytes32) ∈ before.memory.auth.deviceInfos ∧
        ((calls TomlStrings.basic).step before revokePhone).all
        (fun result => decide (result.1.2 = [])) =
          true)
      (by decide)
  obtain ⟨output, after, taken⟩ : ∃ output after,
      (calls TomlStrings.basic).step before revokePhone = some (output, after) := ⟨_, _, rfl⟩
  rw [taken, Option.all_some, decide_eq_true_iff] at saved
  have none (node : Bytes32) (name : Str)
      (found : (loadNames TomlStrings.basic none).lookup node = some name) :
      node ∈ (loadAuthorized twoDevices.stored : HashSet Bytes32) := by
    simp [loadNames] at found
  have isolated := devices_isolated run taken (b := Bytes32.filled 6) rfl (by decide)
  refine ⟨log, before, output, after, executed, taken, fun attempts later => ?_⟩
  exact ((isolated.2 basic_roundTrips none clean saved attempts later).2 _).mpr listed

end RaemoteServer.Auth
