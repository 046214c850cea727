import RaemoteServer.Daemon.SharedConfig

/-! Reloads, any number of them at a time: the shared config stays valid and the limit agrees with
it. What a reload says of a restart is right about the config before it, which need not be the one
the daemon was started with. -/

namespace RaemoteServer.Daemon

open Text Collections Runs Auth

variable {Node : Type} [DecidableEq Node] [EndpointId Node]
variable {env : Env} {toml : TomlConfig} {before after first final : DaemonState Node}
  {event : Event Node}

abbrev LogEntry (Node : Type) := Entry (DaemonState Node) (Event Node) Unit
abbrev Log (Node : Type) := History (DaemonState Node) (Event Node) Unit

/-! What a step leaves alone. -/

omit [DecidableEq Node] [EndpointId Node] in
theorem Handled.frame {old new : ReloadTask} (handled : Handled env toml before old new after) :
    after.reloads = before.reloads ∧ after.calls = before.calls ∧
      after.limiterGeneration = before.limiterGeneration ∧ after.limiters = before.limiters := by
  cases handled <;> exact ⟨rfl, rfl, rfl, rfl⟩

omit [EndpointId Node] in
theorem Called.frame {node : Node} {old new : CallStage}
    (called : Called before node old new after) :
    after.reloads = before.reloads ∧ after.calls = before.calls ∧
      after.config = before.config ∧ after.installs = before.installs ∧
      after.auth = before.auth ∧ after.configGeneration = before.configGeneration := by
  cases called <;> exact ⟨rfl, rfl, rfl, rfl, rfl, rfl⟩

theorem Stepped.moves {r : Nat} (stepped : Stepped env toml before event after)
    (own : event.handled = some r) :
    ∃ old new middle, before.reloads[r]? = some old ∧ after.reloads[r]? = some new ∧
      Handled env toml before old new middle ∧ after = middle.setReload r new := by
  cases stepped with
  | auth operation other => cases own
  | request => cases own
  | call node => cases own
  | limiter c node old new middle present called => cases own
  | reload _ r' old new middle own' present handled =>
      obtain rfl : r' = r := Option.some.inj (own'.symm.trans own)
      have inside := (List.getElem?_eq_some_iff.mp present).1
      refine ⟨old, new, middle, present, ?_, handled, rfl⟩
      simp only [DaemonState.setReload, handled.frame.1, List.getElem?_set_self inside]

/-- Of a request that the step does not handle only the arrival can be seen. -/
theorem Stepped.others {r : Nat} (stepped : Stepped env toml before event after)
    (other : event.handled ≠ some r) :
    after.reloads[r]? = before.reloads[r]? ∨
      before.reloads[r]? = none ∧ after.reloads[r]? = some ⟨.received, 0⟩ := by
  cases stepped with
  | auth operation _ => exact Or.inl rfl
  | call node => exact Or.inl rfl
  | limiter c node old new middle present called =>
      exact Or.inl (congrArg (·[r]?) called.frame.1)
  | reload _ r' old new middle own present handled =>
      have away : r' ≠ r := by
        rintro rfl
        exact other own
      refine Or.inl ?_
      simp only [DaemonState.setReload, handled.frame.1, List.getElem?_set_ne away]
  | request =>
      rcases Nat.lt_trichotomy r before.reloads.length with inside | rfl | outside
      · exact Or.inl (List.getElem?_append_left inside)
      · exact Or.inr ⟨List.getElem?_eq_none (Nat.le_refl _), List.getElem?_concat_length⟩
      · refine Or.inl ?_
        rw [List.getElem?_eq_none (Nat.le_of_lt outside), List.getElem?_eq_none]
        simpa using outside

/-! The config stays valid, and the limit follows it. -/

/-- A config that is not installed yet. -/
def ReloadStage.pending : ReloadStage → Option Config
  | .loaded new | .compared new _ => some new
  | _ => none

/-- The config is replaced, and the limit is not set from it yet. -/
def ReloadStage.between : ReloadStage → Bool
  | .replaced _ | .guarded _ _ => true
  | _ => false

structure Consistent (daemon : DaemonState Node) : Prop where
  valid : validate daemon.config = .ok ()
  pending : ∀ task ∈ daemon.reloads, ∀ new, task.stage.pending = some new → validate new = .ok ()
  /-- Nobody writes the config while a handler has a read guard. -/
  guarded : ∀ task ∈ daemon.reloads, ∀ limit fields, task.stage = .guarded limit fields →
    limit = daemon.config.bind.maxFailedAttempts
  settled : (∀ task ∈ daemon.reloads, task.stage.between = false) →
    daemon.auth.auth.maxAttempts = daemon.config.bind.maxFailedAttempts

omit [DecidableEq Node] [EndpointId Node] in
theorem not_guarded {task : ReloadTask} (free : before.readLocked = false)
    (member : task ∈ before.reloads) {limit : UInt32} {fields : List Str} :
    task.stage ≠ .guarded limit fields := by
  intro guarded
  simp only [DaemonState.readLocked, Bool.or_eq_false_iff, List.any_eq_false] at free
  exact free.1 task member (by rw [guarded]; rfl)

omit [DecidableEq Node] [EndpointId Node] in
/-- A handler that neither replaces the config nor sets the limit. -/
theorem Consistent.quiet {r : Nat} {old new : ReloadTask} (consistent : Consistent before)
    (present : before.reloads[r]? = some old)
    (reloads : after.reloads = before.reloads.set r new) (config : after.config = before.config)
    (auth : after.auth = before.auth)
    (pending : ∀ config, new.stage.pending = some config → validate config = .ok ())
    (guarded : ∀ limit fields, new.stage = .guarded limit fields →
      limit = before.config.bind.maxFailedAttempts)
    (still : old.stage.between = true → new.stage.between = true) : Consistent after := by
  refine ⟨config ▸ consistent.valid, ?_, ?_, ?_⟩
  · rw [reloads]
    exact forall_mem_set consistent.pending pending
  · rw [reloads, config]
    exact forall_mem_set consistent.guarded guarded
  · rw [reloads, config, auth]
    intro calm
    apply consistent.settled
    have inside := (List.getElem?_eq_some_iff.mp present).1
    have later := calm new (List.mem_set inside new)
    refine forall_mem_of_set present ?_ calm
    cases was : old.stage.between with
    | false => rfl
    | true =>
        rw [still was] at later
        cases later

omit [DecidableEq Node] [EndpointId Node] in
theorem Consistent.handled {r : Nat} {old new : ReloadTask} (consistent : Consistent before)
    (present : before.reloads[r]? = some old) (handled : Handled env toml before old new after) :
    Consistent (after.setReload r new) := by
  have member := List.mem_of_getElem? present
  have inside := (List.getElem?_eq_some_iff.mp present).1
  cases handled with
  | load config install valid =>
      refine consistent.quiet present rfl rfl rfl ?_ (by simp) (by simp [ReloadStage.between])
      intro other same
      obtain rfl := Option.some.inj same
      exact valid
  | compare config install =>
      refine consistent.quiet present rfl rfl rfl ?_ (by simp) (by simp [ReloadStage.between])
      intro other same
      exact consistent.pending _ member other same
  | replace config fields install free =>
      refine ⟨consistent.pending _ member config rfl, ?_, ?_, ?_⟩
      · exact forall_mem_set consistent.pending (by simp [ReloadStage.pending])
      · refine forall_mem_set ?_ (by simp)
        intro task known limit fields guarded
        exact (not_guarded free known guarded).elim
      · intro calm
        have later := calm _ (List.mem_set inside ⟨.replaced fields, before.installs + 1⟩)
        cases later
  | guard fields install =>
      refine consistent.quiet present rfl rfl rfl (by simp [ReloadStage.pending]) ?_
        (by simp [ReloadStage.between])
      intro limit others same
      exact (ReloadStage.guarded.inj same).1.symm
  | limit limit fields install =>
      refine ⟨consistent.valid, ?_, ?_, ?_⟩
      · exact forall_mem_set consistent.pending (by simp [ReloadStage.pending])
      · exact forall_mem_set consistent.guarded (by simp)
      · intro calm
        exact consistent.guarded _ member limit fields rfl
  | _ =>
      exact consistent.quiet present rfl rfl rfl (by simp [ReloadStage.pending]) (by simp)
        (by simp [ReloadStage.between])

theorem Consistent.step (consistent : Consistent before)
    (stepped : Stepped env toml before event after) : Consistent after := by
  cases stepped with
  | auth operation other =>
      refine ⟨consistent.valid, consistent.pending, consistent.guarded, ?_⟩
      intro calm
      exact (perform_maxAttempts before.auth operation other).trans (consistent.settled calm)
  | request =>
      refine ⟨consistent.valid, ?_, ?_, ?_⟩
      · exact List.forall_mem_append.mpr ⟨consistent.pending, by simp [ReloadStage.pending]⟩
      · exact List.forall_mem_append.mpr ⟨consistent.guarded, by simp⟩
      · intro calm
        exact consistent.settled (List.forall_mem_append.mp calm).1
  | reload _ r old new middle own present handled => exact consistent.handled present handled
  | call node =>
      exact ⟨consistent.valid, consistent.pending, consistent.guarded, consistent.settled⟩
  | limiter c node old new middle present called =>
      obtain ⟨reloads, -, config, -, auth, -⟩ := called.frame
      refine ⟨?_, ?_, ?_, ?_⟩
      · exact config ▸ consistent.valid
      · exact reloads ▸ consistent.pending
      · exact reloads ▸ config ▸ consistent.guarded
      · exact reloads ▸ config ▸ auth ▸ consistent.settled

theorem consistent_run {log : Log Node} (started : Started first)
    (run : Run (machine env toml) first log final) : Consistent final := by
  apply run.invariant Consistent
  · refine ⟨started.valid, ?_, ?_, fun _ => started.limit⟩ <;> simp [started.reloads]
  · intro before event output after taken consistent
    exact consistent.step (stepped taken)

/-! What fails changes nothing. -/

def Untouched (entry : LogEntry Node) : Prop :=
  entry.after.config = entry.before.config ∧
    entry.after.auth.auth.maxAttempts = entry.before.auth.auth.maxAttempts ∧
    entry.after.configGeneration = entry.before.configGeneration

/-- Before the config is replaced, or where it never is. -/
def ReloadStage.harmless : ReloadStage → Bool
  | .received | .loaded _ | .compared _ _ | .answered (.error _) => true
  | _ => false

omit [DecidableEq Node] [EndpointId Node] in
theorem Handled.harmless {old new : ReloadTask} (handled : Handled env toml before old new after)
    (still : new.stage.harmless = true) : old.stage.harmless = true ∧ after = before := by
  cases handled with
  | failed message install => exact ⟨rfl, rfl⟩
  | load config install valid => exact ⟨rfl, rfl⟩
  | compare config install => exact ⟨rfl, rfl⟩
  | replace config fields install free => cases still
  | guard fields install => cases still
  | limit limit fields install => cases still
  | bump fields install => cases still
  | answer fields install => cases still

theorem harmless_run {log : Log Node} (run : Run (machine env toml) first log final) (r : Nat)
    (still : ∀ task, final.reloads[r]? = some task → task.stage.harmless = true) :
    ∀ entry ∈ log, entry.event.handled = some r → Untouched entry := by
  induction run with
  | start => exact List.forall_mem_nil _
  | @step log before after event output earlier taken ih =>
      by_cases own : event.handled = some r
      · obtain ⟨old, new, middle, was, becomes, handled, rfl⟩ := (stepped taken).moves own
        obtain ⟨harmless, rfl⟩ := handled.harmless (still new becomes)
        have rest := ih (fun task present => by
          obtain rfl := Option.some.inj (was.symm.trans present)
          exact harmless)
        exact List.forall_mem_cons.mpr ⟨fun _ => ⟨rfl, rfl, rfl⟩, rest⟩
      · have rest := ih (fun task present => by
          rcases (stepped taken).others own with same | ⟨absent, -⟩
          · exact still task (same.trans present)
          · rw [absent] at present
            cases present)
        exact List.forall_mem_cons.mpr ⟨fun mine => (own mine).elim, rest⟩

section

variable {strings : TomlStrings} {file : FileRead} {store names : Option Str} {now : Instant}
  {unixNow : Nat} {random : Bytes32}

theorem reload_keeps_config {log : Log Node}
    (booted : boot env toml strings file store names now unixNow random = .ok first)
    (run : Run (machine env toml) first log final) :
    validate final.config = .ok () ∧
      (∀ r message install, final.reloads[r]? = some ⟨.answered (.error message), install⟩ →
        ∀ entry ∈ log, entry.event.handled = some r → Untouched entry) ∧
      ((∀ task ∈ final.reloads, task.stage.between = false) →
        final.auth.auth.maxAttempts = final.config.bind.maxFailedAttempts) := by
  have consistent := consistent_run (boot_started booted) run
  refine ⟨consistent.valid, ?_, consistent.settled⟩
  intro r message install answered
  apply harmless_run run r
  intro task present
  obtain rfl := Option.some.inj (answered.symm.trans present)
  rfl

end

def limitText : String :=
  "[bind]\ntoken_ttl_secs = 300\nmax_failed_attempts = 5\nmax_concurrent_connections = 50\n"

def limitConfig : Config :=
  { Config.default with bind := { BindConfig.default with maxFailedAttempts := 5 } }

/-- Two reloads replace the config before either sets the limit, and a third cannot read the
file. -/
theorem concurrent_reloads_agree :
    ∃ toml log, ∃ final : DaemonState Bytes32,
      Run (machine unset toml) newDaemon log final ∧ validate final.config = .ok () ∧
        (∃ message install, final.reloads[2]? = some ⟨.answered (.error message), install⟩ ∧
          ∀ entry ∈ log, entry.event.handled = some 2 → Untouched entry) ∧
        final.config.bind.maxFailedAttempts = 5 ∧ final.auth.auth.maxAttempts = 5 := by
  let toml := parsing [(limitText, limitConfig)]
  obtain ⟨log, final, -, run, failed, calm, limit⟩ := exec_checked (machine unset toml) newDaemon
    [.request, .request, .request, .read 0 .missing, .read 1 (.content limitText.toList),
      .read 2 .unreadable, .reload 0, .reload 1, .reload 0, .reload 1, .reload 0, .reload 1,
      .reload 1, .reload 0]
    (fun log final => final.reloads[2]? =
        some ⟨.answered (.error "reload failed: failed to read config.toml".toList), 0⟩ ∧
      (∀ task ∈ final.reloads, task.stage.between = false) ∧
      final.config.bind.maxFailedAttempts = 5)
    (by decide +kernel)
  obtain ⟨valid, untouched, agree⟩ := reload_keeps_config (boot_missing toml) run
  exact ⟨toml, log, final, run, valid, ⟨_, _, failed, untouched 2 _ _ failed⟩, limit,
    (agree calm).trans limit⟩

/-! What needs a restart. -/

inductive RestartField where
  | relayUrl
  | proxy
  deriving DecidableEq

def RestartField.name : RestartField → Str
  | .relayUrl => "network.relay_url".toList
  | .proxy => "network.proxy".toList

def RestartField.get (config : Config) : RestartField → Option Str
  | .relayUrl => config.network.relayUrl
  | .proxy => config.network.proxy

theorem mem_listed {first second : Str} (distinct : first ≠ second) (p q : Prop) [Decidable p]
    [Decidable q] :
    (first ∈ (if p then [first] else []) ++ (if q then [second] else []) ↔ p) ∧
      (second ∈ (if p then [first] else []) ++ (if q then [second] else []) ↔ q) := by
  constructor <;> by_cases hp : p <;> by_cases hq : q <;> simp [hp, hq, distinct, distinct.symm]

theorem mem_restartRequired {config new : Config} {field : RestartField} :
    field.name ∈ restartRequired config new ↔ field.get config ≠ field.get new := by
  have distinct : RestartField.relayUrl.name ≠ RestartField.proxy.name := by decide
  have listed := mem_listed distinct (config.network.relayUrl ≠ new.network.relayUrl)
    (config.network.proxy ≠ new.network.proxy)
  cases field with
  | relayUrl => exact listed.1
  | proxy => exact listed.2

def ReloadStage.restartRequired : ReloadStage → Option (List Str)
  | .compared _ fields | .replaced fields | .guarded _ fields | .limited fields | .bumped fields
  | .answered (.applied fields) => some fields
  | _ => none

/-- The step in which the handler of a request compares the new config with the shared one. -/
def Compares (r : Nat) (new : Config) (entry : LogEntry Node) : Prop :=
  entry.event.handled = some r ∧ ∃ install, entry.before.reloads[r]? = some ⟨.loaded new, install⟩

omit [DecidableEq Node] [EndpointId Node] in
theorem Handled.listed {old new : ReloadTask} {fields : List Str}
    (handled : Handled env toml before old new after)
    (listed : new.stage.restartRequired = some fields) :
    old.stage.restartRequired = some fields ∨
      ∃ config install, old = ⟨.loaded config, install⟩ ∧
        fields = restartRequired before.config config := by
  cases handled with
  | failed message install => cases listed
  | load config install valid => cases listed
  | compare config install => exact Or.inr ⟨config, install, rfl, (Option.some.inj listed).symm⟩
  | replace config others install free => exact Or.inl listed
  | guard others install => exact Or.inl listed
  | limit limit others install => exact Or.inl listed
  | bump others install => exact Or.inl listed
  | answer others install => exact Or.inl listed

theorem listed_run {log : Log Node} (started : Started first)
    (run : Run (machine env toml) first log final) {r : Nat} {task : ReloadTask}
    (present : final.reloads[r]? = some task) {fields : List Str}
    (listed : task.stage.restartRequired = some fields) :
    ∃ entry ∈ log, ∃ new, Compares r new entry ∧ fields =
        restartRequired entry.before.config new := by
  induction run generalizing task with
  | start => simp [started.reloads] at present
  | @step log before after event output earlier taken ih =>
      have older {task : ReloadTask} (present : before.reloads[r]? = some task)
          (listed : task.stage.restartRequired = some fields) :
          ∃ entry ∈ ⟨before, event, output, after⟩ :: log, ∃ new, Compares r new entry ∧
            fields = restartRequired entry.before.config new := by
        obtain ⟨entry, member, found⟩ := ih present listed
        exact ⟨entry, List.mem_cons_of_mem _ member, found⟩
      by_cases own : event.handled = some r
      · obtain ⟨old, new, middle, was, becomes, handled, -⟩ := (stepped taken).moves own
        obtain rfl := Option.some.inj (becomes.symm.trans present)
        rcases handled.listed listed with before | ⟨config, install, rfl, same⟩
        · exact older was before
        · exact ⟨_, List.mem_cons_self, config, ⟨own, install, was⟩, same⟩
      · rcases (stepped taken).others own with same | ⟨-, arrived⟩
        · exact older (same ▸ present) listed
        · obtain rfl := Option.some.inj (arrived.symm.trans present)
          cases listed

section

variable {strings : TomlStrings} {file : FileRead} {store names : Option Str} {now : Instant}
  {unixNow : Nat} {random : Bytes32}

/-- A successful reload says truthfully whether a field differs from what the daemon was started
with, exactly if the config it compared with still had that first value, or the new value is a
third one. -/
theorem restart_required_iff {log : Log Node}
    (booted : boot env toml strings file store names now unixNow random = .ok first)
    (run : Run (machine env toml) first log final) {r : Nat} {fields : List Str} {install : Nat}
    (answered : final.reloads[r]? = some ⟨.answered (.applied fields), install⟩) :
    ∃ entry ∈ log, ∃ new, Compares r new entry ∧ ∀ field : RestartField,
      ((field.name ∈ fields ↔ field.get new ≠ field.get first.config) ↔
        field.get entry.before.config = field.get first.config ∨
          field.get new ≠ field.get entry.before.config ∧
            field.get new ≠ field.get first.config) := by
  obtain ⟨entry, member, new, compares, same⟩ := listed_run (boot_started booted) run answered rfl
  refine ⟨entry, member, new, compares, ?_⟩
  intro field
  rw [same, mem_restartRequired]
  constructor
  · intro truthful
    by_cases first : field.get entry.before.config = field.get first.config
    · exact Or.inl first
    · grind
  · grind

end

def proxyText : String := "[network]\nproxy = \"http://10.0.0.1:8080\"\n"

def proxyConfig : Config :=
  { Config.default with network := ⟨none, some "http://10.0.0.1:8080".toList⟩ }

/-- A proxy is set after the daemon was started without one. -/
theorem first_change_reported :
    ∃ log, ∃ final : DaemonState Bytes32,
      Run (machine unset (parsing [(proxyText, proxyConfig)])) newDaemon log final ∧
        final.reloads[0]? = some ⟨.answered (.applied ["network.proxy".toList]), 1⟩ ∧
        ∃ entry ∈ log, ∃ new, Compares 0 new entry ∧ ∀ field : RestartField,
          field.name ∈ ["network.proxy".toList] ↔ field.get new ≠ field.get newDaemon.config := by
  obtain ⟨log, final, -, run, answered, same⟩ := exec_checked
    (machine unset (parsing [(proxyText, proxyConfig)])) newDaemon
    (reloadEvents 0 (.content proxyText.toList))
    (fun log final =>
      final.reloads[0]? = some ⟨.answered (.applied ["network.proxy".toList]), 1⟩ ∧
      ∀ entry ∈ log, entry.before.reloads[0]?.any (fun task => task.stage.pending.isSome) →
        entry.before.config = newDaemon.config)
    (by decide +kernel)
  obtain ⟨entry, member, new, compares, truthful⟩ :=
    restart_required_iff (boot_missing _) run answered
  refine ⟨log, final, run, answered, entry, member, new, compares, ?_⟩
  intro field
  obtain ⟨own, install, present⟩ := compares
  have config := same entry member (by rw [present]; rfl)
  exact (truthful field).mpr (Or.inl (congrArg field.get config))

/-- A proxy is set, the file is loaded again as it is, and then the proxy is removed: the second
reload is silent and the third asks for a restart. -/
theorem later_reloads_mislead :
    ∃ toml log, ∃ final : DaemonState Bytes32,
      boot unset toml .emptyOnly .missing none none 0 0 (.filled 7) = .ok newDaemon ∧
        Run (machine unset toml) newDaemon log final ∧
        (final.reloads[1]? = some ⟨.answered (.applied []), 2⟩ ∧
          (∃ entry ∈ log, Compares 1 proxyConfig entry) ∧
          RestartField.proxy.get proxyConfig ≠ RestartField.proxy.get newDaemon.config) ∧
        final.reloads[2]? = some ⟨.answered (.applied [RestartField.proxy.name]), 3⟩ ∧
          ∃ entry ∈ log, Compares 2 newDaemon.config entry := by
  let toml := parsing [(proxyText, proxyConfig)]
  obtain ⟨log, final, -, run, silent, second, reported, third⟩ := exec_checked
    (machine unset toml) newDaemon
    (reloadEvents 0 (.content proxyText.toList) ++ reloadEvents 1 (.content proxyText.toList) ++
      reloadEvents 2 .missing)
    (fun log final => final.reloads[1]? = some ⟨.answered (.applied []), 2⟩ ∧
      (∃ entry ∈ log, entry.event.handled = some 1 ∧
        entry.before.reloads[1]? = some ⟨.loaded proxyConfig, 0⟩) ∧
      final.reloads[2]? = some ⟨.answered (.applied [RestartField.proxy.name]), 3⟩ ∧
      ∃ entry ∈ log, entry.event.handled = some 2 ∧
        entry.before.reloads[2]? = some ⟨.loaded newDaemon.config, 0⟩)
    (by decide +kernel)
  obtain ⟨again, secondly, own, present⟩ := second
  obtain ⟨reverted, thirdly, own', present'⟩ := third
  exact ⟨toml, log, final, boot_missing toml, run,
    ⟨silent, ⟨again, secondly, own, 0, present⟩, by decide⟩,
    reported, reverted, thirdly, own', 0, present'⟩

end RaemoteServer.Daemon
