import RaemoteServer.Instance.System

/-! What a process that owns the lock knows of the files: nobody else changes them. -/

namespace RaemoteServer.Instance

open Text Runs

def Stage.owns : Stage → Bool
  | .opened | .refused => false
  | _ => true

def Rendered (json : JsonDaemonInfo) (info : DaemonInfo) (content : List UInt8) : Prop :=
  ∃ text, json.toStringPretty info = some text ∧ content = utf8 text

def System.quiet (system : System) : Prop := ∀ listener, system.socket ≠ some (some listener)

def System.heardBy (system : System) (pid : Pid) : Prop :=
  ∀ listener, system.socket = some (some listener) → listener = pid

def Stage.Knows (json : JsonDaemonInfo) (pid : Pid) (system : System) : Stage → Prop
  | .opened | .refused => False
  | .locked | .held => system.quiet
  | .cleared emptied => system.quiet ∧ (emptied = true → system.lock = some [])
  | .writing info content written =>
      system.quiet ∧ info.pid = pid ∧ Rendered json info content ∧
        system.temporary = some (content.take written)
  | .published info | .headless info =>
      system.quiet ∧ info.pid = pid ∧ ∃ content, Rendered json info content ∧
        system.metadata = some content
  | .unlinked info removed =>
      system.quiet ∧ (info.pid = pid ∧ ∃ content, Rendered json info content ∧
        system.metadata = some content) ∧ (removed = true → system.socket = none)
  | .serving info =>
      system.socket = some (some pid) ∧ info.pid = pid ∧ ∃ content, Rendered json info content ∧
        system.metadata = some content
  | .stopping info | .socketRemoved info =>
      system.heardBy pid ∧ info.pid = pid ∧ ∃ content, Rendered json info content ∧
        system.metadata = some content
  | .infoRemoved info =>
      system.heardBy pid ∧ info.pid = pid ∧
        ∀ content, system.metadata = some content → Rendered json info content

def Process.Knows (json : JsonDaemonInfo) (pid : Pid) (system : System)
    (process : Process) : Prop :=
  process.stage.Knows json pid system ∧
    (process.recorded = true → system.lock = some (pidBytes pid))

structure Guarded (json : JsonDaemonInfo) (system : System) : Prop where
  whole : ∀ content, system.metadata = some content → ∃ info, Rendered json info content
  present : ∀ pid process, system.process pid = some process → system.lock.isSome
  owner : ∀ pid process, system.process pid = some process → process.stage.owns = true →
    system.holder = some pid ∧ process.Knows json pid system
  alive : ∀ pid, system.holder = some pid →
    ∃ process, system.process pid = some process ∧ process.stage.owns = true
  idle : system.holder = none → system.quiet

variable {json : JsonDaemonInfo} {socketPath version : Str} {before after final : System}
  {log : History System Event Effect}

theorem owner_unique (guarded : Guarded json before) {pid other : Pid} {process : Process}
    (held : before.holder = some pid) (here : before.process other = some process)
    (owns : process.stage.owns = true) : other = pid :=
  Option.some.inj ((guarded.owner other process here owns).1.symm.trans held)

/-- A step of the owner needs to tell only what the owner knows after it. -/
theorem owner_step (guarded : Guarded json before) {pid : Pid} {old new : Process}
    (here : before.process pid = some old) (owned : old.stage.owns = true)
    (processes : after.process = Function.update before.process pid (some new))
    (holder : after.holder = before.holder) (owns : new.stage.owns = true)
    (present : after.lock.isSome = true)
    (whole : ∀ content, after.metadata = some content → ∃ info, Rendered json info content)
    (knows : old.Knows json pid before → new.Knows json pid after) : Guarded json after := by
  obtain ⟨held, known⟩ := guarded.owner pid old here owned
  refine ⟨whole, fun _ _ _ => present, ?_, ?_, ?_⟩
  · intro other process found its
    by_cases same : other = pid
    · subst same
      rw [processes, Function.update_self, Option.some.injEq] at found
      subst found
      exact ⟨holder.trans held, knows known⟩
    · rw [processes, Function.update_of_ne same] at found
      exact absurd (owner_unique guarded held found its) same
  · intro other holds
    obtain rfl := Option.some.inj ((holder.trans held).symm.trans holds)
    exact ⟨new, by rw [processes, Function.update_self], owns⟩
  · intro free
    rw [holder, held] at free
    cases free

/-- A process that does not own the lock comes, changes or goes. -/
theorem other_step (guarded : Guarded json before) (pid : Pid) {new : Option Process}
    (outside : ∀ process, before.process pid = some process → process.stage.owns = false)
    (stays : ∀ process, new = some process → process.stage.owns = false ∧ after.lock.isSome = true)
    (processes : after.process = Function.update before.process pid new)
    (lock : before.lock.isSome = true → after.lock = before.lock)
    (rest : after.holder = before.holder ∧ after.temporary = before.temporary ∧
      after.metadata = before.metadata ∧ after.socket = before.socket) : Guarded json after := by
  obtain ⟨holder, temporary, metadata, socket⟩ := rest
  have others {other : Pid} {process : Process} (found : after.process other = some process)
      (its : process.stage.owns = true) : before.process other = some process := by
    rw [processes] at found
    by_cases same : other = pid
    · subst same
      rw [Function.update_self] at found
      rw [(stays process found).1] at its
      cases its
    · rwa [Function.update_of_ne same] at found
  refine ⟨?_, ?_, ?_, ?_, ?_⟩
  · rw [metadata]
    exact guarded.whole
  · intro other process found
    rw [processes] at found
    by_cases same : other = pid
    · subst same
      rw [Function.update_self] at found
      exact (stays process found).2
    · rw [Function.update_of_ne same] at found
      have there := guarded.present other process found
      rw [lock there]
      exact there
  · intro other process found its
    have earlier := others found its
    obtain ⟨held, stage, recorded⟩ := guarded.owner other process earlier its
    have there := guarded.present other process earlier
    refine ⟨holder.trans held, ?_, ?_⟩
    · have same := lock there
      revert stage
      cases process.stage <;>
        simp only [Stage.Knows, System.quiet, System.heardBy, same, temporary, metadata, socket,
          imp_self]
    · rw [lock there]
      exact recorded
  · intro other holds
    obtain ⟨process, found, its⟩ := guarded.alive other (holder.symm.trans holds)
    refine ⟨process, ?_, its⟩
    rw [processes, Function.update_of_ne, found]
    rintro rfl
    rw [outside process found] at its
    cases its
  · intro free
    rw [System.quiet, socket]
    exact guarded.idle (holder.symm.trans free)

theorem Stage.Knows.heardBy {pid : Pid} {stage : Stage} (knows : stage.Knows json pid before) :
    before.heardBy pid := by
  have silent (quiet : before.quiet) : before.heardBy pid :=
    fun listener heard => absurd heard (quiet listener)
  cases stage with
  | opened | refused => exact knows.elim
  | locked | held => exact silent knows
  | cleared | writing | published | headless | unlinked => exact silent knows.1
  | serving =>
      intro listener heard
      rw [knows.1] at heard
      exact (Option.some.inj (Option.some.inj heard)).symm
  | stopping | socketRemoved | infoRemoved => exact knows.1

theorem leaving_owns {stage : Stage} (leaving : stage.leaving = true) : stage.owns = true := by
  cases stage with
  | opened | refused => cases leaving
  | _ => rfl

theorem Stage.Knows.close {pid : Pid} {stage : Stage} (knows : stage.Knows json pid before)
    (leaving : stage.leaving = true) :
    stage.Knows json pid { before with socket := some none } := by
  cases stage with
  | stopping | socketRemoved | infoRemoved => exact ⟨by simp [System.heardBy], knows.2⟩
  | _ => cases leaving

theorem listener_holds (guarded : Guarded json before) {pid : Pid}
    (heard : before.socket = some (some pid)) : before.holder = some pid := by
  cases held : before.holder with
  | none => exact absurd heard (guarded.idle held pid)
  | some other =>
      obtain ⟨process, here, owns⟩ := guarded.alive other held
      have knows := (guarded.owner other process here owns).2.1
      rw [knows.heardBy pid heard]

theorem release_guarded (guarded : Guarded json before) {pid : Pid} {process : Process}
    (here : before.process pid = some process) : Guarded json (before.release pid) := by
  cases owns : process.stage.owns with
  | false =>
      have other : before.holder ≠ some pid := by
        intro held
        obtain ⟨owner, found, its⟩ := guarded.alive pid held
        obtain rfl := Option.some.inj (here.symm.trans found)
        rw [owns] at its
        cases its
      have unheard : before.socket ≠ some (some pid) :=
        fun heard => other (listener_holds guarded heard)
      refine other_step guarded pid ?_ (by simp) rfl (fun _ => rfl) ⟨?_, rfl, rfl, ?_⟩
      · intro found same
        obtain rfl := Option.some.inj (here.symm.trans same)
        exact owns
      · exact if_neg other
      · exact if_neg unheard
  | true =>
      obtain ⟨held, knows⟩ := guarded.owner pid process here owns
      have free : (before.release pid).holder = none := if_pos held
      refine ⟨guarded.whole, ?_, ?_, ?_, ?_⟩
      · intro _ _ _
        exact guarded.present pid process here
      · intro other found there its
        by_cases same : other = pid
        · subst same
          simp [System.release, System.put] at there
        · simp only [System.release, System.put, Function.update_of_ne same] at there
          exact absurd (owner_unique guarded held there its) same
      · intro other holds
        rw [free] at holds
        cases holds
      · intro _ listener heard
        simp only [System.release, System.put] at heard
        split at heard
        · cases heard
        · rename_i others
          rw [knows.1.heardBy listener heard] at heard
          exact others heard

theorem start_guarded : Guarded json start where
  whole := by simp [start]
  present := by simp [start]
  owner := by simp [start]
  alive := by simp [start]
  idle := by simp [start, System.quiet]

theorem step_guarded (guarded : Guarded json before) {event : Event} {effect : Effect}
    (stepped : Stepped json socketPath version before event effect after) : Guarded json after := by
  cases stepped with
  | @opens pid role absent =>
      refine other_step guarded pid (by simp [absent]) ?_ rfl ?_ ⟨rfl, rfl, rfl, rfl⟩
      · intro process same
        cases same
        exact ⟨rfl, rfl⟩
      · intro there
        obtain ⟨content, same⟩ := Option.isSome_iff_exists.mp there
        simp [same]
  | @locks pid role recorded here free =>
      refine ⟨guarded.whole, fun _ _ _ => guarded.present pid _ here, ?_, ?_, by simp⟩
      · intro other process found its
        by_cases same : other = pid
        · subst same
          simp only [System.put, Function.update_self, Option.some.injEq] at found
          subst found
          exact ⟨rfl, guarded.idle free, by simp⟩
        · simp only [System.put, Function.update_of_ne same] at found
          have held := (guarded.owner other process found its).1
          rw [free] at held
          cases held
      · intro other holds
        obtain rfl := Option.some.inj holds
        exact ⟨⟨role, .locked, false⟩, by simp [System.put], rfl⟩
  | @refuses pid holder recorded here taken =>
      refine other_step guarded pid ?_ ?_ rfl (fun _ => rfl) ⟨rfl, rfl, rfl, rfl⟩
      · simp [here, Stage.owns]
      · intro process same
        cases same
        exact ⟨rfl, guarded.present pid _ here⟩
  | @isHeld pid holder recorded here taken =>
      exact other_step guarded pid (by simp [here, Stage.owns]) (by simp) rfl (fun _ => rfl)
        ⟨rfl, rfl, rfl, rfl⟩
  | @empties pid succeeds role recorded here =>
      refine owner_step guarded here rfl rfl rfl rfl ?_ guarded.whole ?_
      · have there := guarded.present pid _ here
        cases succeeds <;> simp [there]
      · rintro ⟨quiet, -⟩
        refine ⟨⟨quiet, ?_⟩, by simp⟩
        intro emptied
        exact if_pos emptied
  | @records pid written role emptied recorded here =>
      refine owner_step guarded here rfl rfl rfl rfl rfl guarded.whole ?_
      rintro ⟨⟨quiet, empty⟩, -⟩
      refine ⟨quiet, ?_⟩
      intro whole
      simp only [Bool.and_eq_true, decide_eq_true_eq] at whole
      simp [empty whole.1, List.take_of_length_le whole.2]
  | @bails pid role recorded here =>
      exact other_step guarded pid (by simp [here, Stage.owns]) (by simp) rfl (fun _ => rfl)
        ⟨rfl, rfl, rfl, rfl⟩
  | drops here => exact release_guarded guarded here
  | @creates pid startedAtUnix random recorded text here rendered =>
      refine owner_step guarded here rfl rfl rfl rfl (guarded.present pid _ here) guarded.whole ?_
      rintro ⟨quiet, pid'⟩
      exact ⟨⟨quiet, rfl, ⟨text, rendered, rfl⟩, by simp⟩, pid'⟩
  | @writes pid written earlier role info content recorded here =>
      refine owner_step guarded here rfl rfl rfl rfl (guarded.present pid _ here) guarded.whole ?_
      rintro ⟨⟨quiet, same, rendered, -⟩, pid'⟩
      exact ⟨⟨quiet, same, rendered, rfl⟩, pid'⟩
  | @renames pid written role info content recorded here all =>
      obtain ⟨-, -, rendered, partly⟩ := (guarded.owner pid _ here rfl).2.1
      rw [List.take_of_length_le all] at partly
      refine owner_step guarded here rfl rfl rfl rfl (guarded.present pid _ here) ?_ ?_
      · intro moved same
        obtain rfl := Option.some.inj (partly.symm.trans same)
        exact ⟨info, rendered⟩
      · rintro ⟨⟨quiet, same, -, -⟩, pid'⟩
        exact ⟨⟨quiet, same, content, rendered, partly⟩, pid'⟩
  | @unlinks pid succeeds role info recorded here =>
      refine owner_step guarded here rfl rfl rfl rfl (guarded.present pid _ here) guarded.whole ?_
      rintro ⟨⟨quiet, published⟩, pid'⟩
      refine ⟨⟨?_, published, fun removed => if_pos removed⟩, pid'⟩
      intro listener
      cases succeeds with
      | true => simp
      | false => exact quiet listener
  | @listens pid role info removed recorded here free =>
      refine owner_step guarded here rfl rfl rfl rfl (guarded.present pid _ here) guarded.whole ?_
      rintro ⟨⟨-, published, -⟩, pid'⟩
      exact ⟨⟨rfl, published⟩, pid'⟩
  | @fails pid succeeds effect role info removed recorded here used silent =>
      refine owner_step guarded here rfl rfl rfl rfl (guarded.present pid _ here) guarded.whole ?_
      rintro ⟨⟨quiet, published, -⟩, pid'⟩
      exact ⟨⟨quiet, published⟩, pid'⟩
  | @shutsDown pid role info recorded here =>
      refine owner_step guarded here rfl rfl rfl rfl (guarded.present pid _ here) guarded.whole ?_
      rintro ⟨⟨heard, published⟩, pid'⟩
      refine ⟨⟨?_, published⟩, pid'⟩
      intro listener same
      exact (Option.some.inj (Option.some.inj (heard.symm.trans same))).symm
  | @closes pid process here leaving listens =>
      have owns := leaving_owns leaving
      refine owner_step guarded here owns (Function.update_eq_self_iff.mpr here.symm).symm rfl owns
        (guarded.present pid _ here) guarded.whole ?_
      rintro ⟨knows, pid'⟩
      exact ⟨knows.close leaving, pid'⟩
  | @removesSocket pid succeeds role info recorded here =>
      refine owner_step guarded here rfl rfl rfl rfl (guarded.present pid _ here) guarded.whole ?_
      rintro ⟨⟨heard, published⟩, pid'⟩
      refine ⟨⟨?_, published⟩, pid'⟩
      intro listener
      cases succeeds with
      | true => simp
      | false => exact heard listener
  | @removesInfo pid succeeds role info recorded here =>
      refine owner_step guarded here rfl rfl rfl rfl (guarded.present pid _ here) ?_ ?_
      · cases succeeds with
        | true => simp
        | false => exact guarded.whole
      · rintro ⟨⟨heard, same, content, rendered, there⟩, pid'⟩
        refine ⟨⟨heard, same, ?_⟩, pid'⟩
        intro kept found
        cases succeeds with
        | true => cases found
        | false =>
            obtain rfl := Option.some.inj (there.symm.trans found)
            exact rendered
  | exits here => exact release_guarded guarded here

theorem run_guarded (run : Run (machine json socketPath version) start log final) :
    Guarded json final :=
  run.invariant (Guarded json) start_guarded
    (fun _ _ _ _ taken guarded => step_guarded guarded (step_cases taken))

/-! What the commands of the CLI see. -/

/-- What the daemon has published about itself, until it takes it back. -/
def Stage.announced : Stage → Option DaemonInfo
  | .published info | .unlinked info _ | .serving info | .headless info | .stopping info
  | .socketRemoved info => some info
  | _ => none

/-- The daemon whose socket still takes connections. -/
def Stage.accepting : Stage → Option DaemonInfo
  | .serving info | .stopping info | .socketRemoved info | .infoRemoved info => some info
  | _ => none

structure Safe (json : JsonDaemonInfo) (system : System) : Prop where
  one_owner : ∀ pid process other process', system.process pid = some process →
    process.stage.owns = true → system.process other = some process' →
      process'.stage.owns = true → pid = other
  owner_alive : ∀ pid, system.holder = some pid →
    ∃ process, system.process pid = some process ∧ process.stage.owns = true
  owner_named : ∀ pid process, system.process pid = some process → process.stage.owns = true →
    process.recorded = true → ownerPid system = some pid
  announced : ∀ pid process info, system.process pid = some process →
    process.stage.announced = some info → readDaemonJson json system = some info ∧ info.pid = pid
  never_torn : system.metadata.isSome = true → (readDaemonJson json system).isSome = true
  path_free : ∀ pid process info, system.process pid = some process →
    process.stage = .unlinked info true → system.socket = none
  reachable : ∀ pid process info, system.process pid = some process →
    process.stage = .serving info → connect system = some pid
  answered : ∀ pid, connect system = some pid →
    ∃ process info, system.process pid = some process ∧ process.stage.accepting = some info ∧
      (daemonRunning json system = true → readDaemonJson json system = some info)

theorem readDaemonJson_rendered {info : DaemonInfo} {content : List UInt8} {system : System}
    (rendered : Rendered json info content) (there : system.metadata = some content) :
    readDaemonJson json system = some info := by
  obtain ⟨text, written, rfl⟩ := rendered
  rw [readDaemonJson, there, Option.bind_some, fromUtf8_eq_some.mpr rfl, Option.bind_some,
    json.read_back info text written]

theorem ownerPid_pidBytes {system : System} {pid : Pid}
    (there : system.lock = some (pidBytes pid)) :
    ownerPid system = some pid := by
  have plain : ∀ c ∈ decimal pid.toNat, isWhitespace c = false :=
    fun c member => isWhitespace_of_isDigit (isDigit_of_mem_decimal member)
  rw [ownerPid, there, Option.bind_some, pidBytes, fromUtf8_eq_some.mpr rfl, Option.bind_some,
    trim_plain _ plain, parseU32, parseUnsigned_decimal pid.toNat_lt]
  simp

theorem Stage.Knows.announced {pid : Pid} {stage : Stage} {info : DaemonInfo}
    (knows : stage.Knows json pid before) (announces : stage.announced = some info) :
    readDaemonJson json before = some info ∧ info.pid = pid := by
  have published (same : info.pid = pid ∧ ∃ content, Rendered json info content ∧
      before.metadata = some content) : readDaemonJson json before = some info ∧ info.pid =
          pid := by
    obtain ⟨whose, content, rendered, there⟩ := same
    exact ⟨readDaemonJson_rendered rendered there, whose⟩
  cases stage with
  | published | headless | serving | stopping | socketRemoved =>
      obtain rfl := Option.some.inj announces
      exact published knows.2
  | unlinked =>
      obtain rfl := Option.some.inj announces
      exact published knows.2.1
  | _ => cases announces

theorem Stage.Knows.accepting {pid : Pid} {stage : Stage} (knows : stage.Knows json pid before)
    (heard : before.socket = some (some pid)) :
    ∃ info, stage.accepting = some info ∧
      (before.metadata.isSome = true → readDaemonJson json before = some info) := by
  cases stage with
  | opened | refused => exact knows.elim
  | locked | held => exact absurd heard (knows pid)
  | cleared | writing | published | headless | unlinked => exact absurd heard (knows.1 pid)
  | serving info | stopping info | socketRemoved info =>
      exact ⟨info, rfl, fun _ => (knows.announced rfl).1⟩
  | infoRemoved info =>
      refine ⟨info, rfl, ?_⟩
      intro there
      obtain ⟨content, same⟩ := Option.isSome_iff_exists.mp there
      exact readDaemonJson_rendered (knows.2.2 content same) same

theorem Stage.Knows.whose {pid : Pid} {stage : Stage} {info : DaemonInfo}
    (knows : stage.Knows json pid before) (accepts : stage.accepting = some info) :
    info.pid = pid := by
  cases stage with
  | serving | stopping | socketRemoved | infoRemoved =>
      obtain rfl := Option.some.inj accepts
      exact knows.2.1
  | _ => cases accepts

theorem metadata_of_read {system : System} (read : (readDaemonJson json system).isSome = true) :
    system.metadata.isSome = true := by
  cases there : system.metadata with
  | none => simp [readDaemonJson, there] at read
  | some content => rfl

theorem Guarded.safe (guarded : Guarded json before) : Safe json before where
  one_owner pid process other process' here owns there owns' := by
    have held := (guarded.owner other process' there owns').1
    exact owner_unique guarded held here owns
  owner_alive := guarded.alive
  owner_named pid process here owns recorded :=
    ownerPid_pidBytes ((guarded.owner pid process here owns).2.2 recorded)
  announced pid process info here announces := by
    have owns : process.stage.owns = true := by
      cases stage : process.stage with
      | opened | refused => rw [stage] at announces; cases announces
      | _ => rfl
    exact (guarded.owner pid process here owns).2.1.announced announces
  never_torn there := by
    obtain ⟨content, same⟩ := Option.isSome_iff_exists.mp there
    obtain ⟨info, rendered⟩ := guarded.whole content same
    rw [readDaemonJson_rendered rendered same]
    rfl
  path_free pid process info here stage := by
    have knows := (guarded.owner pid process here (by rw [stage]; rfl)).2.1
    rw [stage] at knows
    exact knows.2.2 rfl
  reachable pid process info here stage := by
    have knows := (guarded.owner pid process here (by rw [stage]; rfl)).2.1
    rw [stage] at knows
    rw [connect, knows.1]
    rfl
  answered pid connected := by
    have heard : before.socket = some (some pid) := by
      rw [connect, Option.join_eq_some_iff] at connected
      exact connected
    obtain ⟨process, here, owns⟩ := guarded.alive pid (listener_holds guarded heard)
    obtain ⟨info, accepts, read⟩ := (guarded.owner pid process here owns).2.1.accepting heard
    refine ⟨process, info, here, accepts, ?_⟩
    intro running
    rw [daemonRunning, Bool.and_eq_true] at running
    exact read (metadata_of_read running.1)

/-- At any moment of any run of daemons and commands that start, race and die. -/
theorem instances_safe (run : Run (machine json socketPath version) start log final) :
    Safe json final :=
  (run_guarded run).safe

/-- What the daemon of process 7 writes, with a key of zeros. -/
def sampleInfo : DaemonInfo :=
  daemonInfo "/s".toList "0.1.0".toList 7 1700000000 (.filled 0)

def sampleText : Str :=
  "\x7b\n  \"pid\": 7,\n  \"started_at_unix\": 1700000000,\n  \"socket_path\": \"/s\",\n".toList ++
  "  \"ipc_token\": \"".toList ++ List.replicate 64 '0' ++
  "\",\n  \"version\": \"0.1.0\"\n\x7d".toList

/-- A daemon is killed, its files stay, and the next one has the lock. -/
theorem instances_safe_killed : ∃ final : System, final.metadata = some (utf8 sampleText) ∧
    final.socket = some none ∧ final.holder = some 8 ∧
      Safe (.only sampleInfo sampleText) final := by
  obtain ⟨history, final, -, run, kept, stale, held⟩ := exec_checked
    (machine (.only sampleInfo sampleText) "/s".toList "0.1.0".toList) start
    [.open 7 .daemon, .tryLock 7, .setLen 7 true, .record 7 9, .create 7 1700000000 (.filled 0),
      .write 7 999, .rename 7, .unlink 7 false, .bind 7 true, .exit 7, .open 8 .daemon, .tryLock 8]
    (fun _ final => final.metadata = some (utf8 sampleText) ∧ final.socket = some none ∧
      final.holder = some 8)
    (by decide +kernel)
  exact ⟨final, kept, stale, held, instances_safe run⟩

end RaemoteServer.Instance
