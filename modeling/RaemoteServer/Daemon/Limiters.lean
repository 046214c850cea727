import RaemoteServer.Daemon.Reload

/-! The cache of limiters across reloads. A slow caller may set `limiter_generation` back; whoever
starts after a reload then finds the generations different and clears the cache once more. -/

namespace RaemoteServer.Daemon

open Text Collections Runs Auth

variable {Node : Type} [DecidableEq Node] [EndpointId Node]
variable {env : Env} {toml : TomlConfig} {before after first final : DaemonState Node}
  {event : Event Node} {log : Log Node}

/-! Where a limiter comes from. -/

/-- The step replaces the shared config. -/
def Replaces (entry : LogEntry Node) : Prop := entry.after.installs = entry.before.installs + 1

/-- The limiter was built from the config of its number, which a step of the log installed unless
it is the first. -/
def BuiltFrom (log : Log Node) (limiter : Limiter) : Prop :=
  limiter.install = 0 ∨ ∃ installed ∈ log, Replaces installed ∧
    limiter = ⟨installed.after.config.serve, installed.after.installs⟩

/-- The limiter was built from the config that the step installed, or from one that a step
installed later. -/
def BuiltSince (log : Log Node) (own : LogEntry Node) (limiter : Limiter) : Prop :=
  ∃ installed ∈ log, Replaces installed ∧ own.after.installs ≤ installed.after.installs ∧
    limiter = ⟨installed.after.config.serve, installed.after.installs⟩

/-- The handler of the request has replaced the config. -/
def ReloadStage.installed : ReloadStage → Bool
  | .replaced _ | .guarded _ _ | .limited _ | .bumped _ | .answered (.applied _) => true
  | _ => false

/-- The handler of the request installed the config of this number. -/
def InstalledBy (log : Log Node) (r install : Nat) : Prop :=
  ∃ own ∈ log, own.event.handled = some r ∧ Replaces own ∧ own.after.installs = install

structure Traced (log : Log Node) (daemon : DaemonState Node) : Prop where
  current : BuiltFrom log ⟨daemon.config.serve, daemon.installs⟩
  cached : ∀ node limiter, daemon.limiters.lookup node = some limiter → BuiltFrom log limiter
  returned : ∀ call ∈ daemon.calls, ∀ limiter, call.stage = .returned limiter →
    BuiltFrom log limiter
  reloads : ∀ r task, daemon.reloads[r]? = some task → task.stage.installed = true →
    InstalledBy log r task.install ∧ task.install ≤ daemon.installs

omit [DecidableEq Node] [EndpointId Node] in
theorem BuiltFrom.cons {limiter : Limiter} (built : BuiltFrom log limiter)
    (entry : LogEntry Node) : BuiltFrom (entry :: log) limiter := by
  rcases built with zero | ⟨installed, member, found⟩
  · exact Or.inl zero
  · exact Or.inr ⟨installed, List.mem_cons_of_mem _ member, found⟩

omit [DecidableEq Node] [EndpointId Node] in
theorem InstalledBy.cons {r install : Nat} (installed : InstalledBy log r install)
    (entry : LogEntry Node) : InstalledBy (entry :: log) r install := by
  obtain ⟨own, member, found⟩ := installed
  exact ⟨own, List.mem_cons_of_mem _ member, found⟩

omit [DecidableEq Node] [EndpointId Node] in
theorem Handled.installs {old new : ReloadTask} (handled : Handled env toml before old new after) :
    after.config = before.config ∧ after.installs = before.installs ∧
        (new.stage.installed = true → old.stage.installed = true ∧ new.install = old.install) ∨
      after.installs = before.installs + 1 ∧ new.install = after.installs := by
  cases handled with
  | failed message install => exact Or.inl ⟨rfl, rfl, fun set => by cases set⟩
  | load config install valid => exact Or.inl ⟨rfl, rfl, fun set => by cases set⟩
  | compare config install => exact Or.inl ⟨rfl, rfl, fun set => by cases set⟩
  | replace config fields install free => exact Or.inr ⟨rfl, rfl⟩
  | _ => exact Or.inl ⟨rfl, rfl, fun _ => ⟨rfl, rfl⟩⟩

/-- Config and number of the config change together. -/
theorem Stepped.installs (stepped : Stepped env toml before event after) :
    after.config = before.config ∧ after.installs = before.installs ∨
      after.installs = before.installs + 1 := by
  cases stepped with
  | limiter c node old new middle present called =>
      obtain ⟨-, -, config, installs, -, -⟩ := called.frame
      exact Or.inl ⟨config, installs⟩
  | reload _ r old new middle own present handled =>
      rcases handled.installs with ⟨config, installs, -⟩ | ⟨installs, -⟩
      · exact Or.inl ⟨config, installs⟩
      · exact Or.inr installs
  | _ => exact Or.inl ⟨rfl, rfl⟩

theorem Stepped.installs_le (stepped : Stepped env toml before event after) :
    before.installs ≤ after.installs := by
  rcases stepped.installs with ⟨-, same⟩ | next <;> omega

omit [EndpointId Node] in
theorem Called.cached {node other : Node} {old new : CallStage} {limiter : Limiter}
    (called : Called before node old new after)
    (found : after.limiters.lookup other = some limiter) :
    before.limiters.lookup other = some limiter ∨
      limiter = ⟨before.config.serve, before.installs⟩ := by
  cases called with
  | clear current other => simp at found
  | build built unknown shape =>
      rcases HashMap.lookup_insert_iff.mp found with ⟨-, rfl⟩ | ⟨-, known⟩
      · exact Or.inr shape
      · exact Or.inl known
  | _ => exact Or.inl found

/-- A limiter that was not in the cache is built from the config in force. -/
theorem Stepped.cached {node : Node} {limiter : Limiter}
    (stepped : Stepped env toml before event after)
    (found : after.limiters.lookup node = some limiter) :
    before.limiters.lookup node = some limiter ∨
      limiter = ⟨before.config.serve, before.installs⟩ := by
  cases stepped with
  | limiter c caller old new middle present called => exact called.cached found
  | reload _ r old new middle own present handled =>
      obtain ⟨-, -, -, limiters⟩ := handled.frame
      exact Or.inl (limiters ▸ found)
  | _ => exact Or.inl found

/-- A call returns what is in the cache, or what it built. -/
theorem Stepped.returned {call : LimiterCall Node} {limiter : Limiter}
    (stepped : Stepped env toml before event after) (member : call ∈ after.calls)
    (returned : call.stage = .returned limiter) :
    call ∈ before.calls ∨ before.limiters.lookup call.node = some limiter ∨
      limiter = ⟨before.config.serve, before.installs⟩ := by
  cases stepped with
  | auth operation other => exact Or.inl member
  | request => exact Or.inl member
  | call node =>
      rcases List.mem_append.mp member with old | new
      · exact Or.inl old
      · obtain rfl := List.mem_singleton.mp new
        cases returned
  | reload _ r old new middle own present handled =>
      obtain ⟨-, calls, -, -⟩ := handled.frame
      exact Or.inl (calls ▸ member)
  | limiter c node old new middle present called =>
      have inside : call ∈ before.calls.set c ⟨node, new⟩ := called.frame.2.1 ▸ member
      rcases List.mem_or_eq_of_mem_set inside with old | rfl
      · exact Or.inl old
      · cases called with
        | found known present =>
            cases returned
            exact Or.inr (Or.inl present)
        | build built unknown shape =>
            cases returned
            exact Or.inr (Or.inr shape)
        | _ => cases returned

theorem Traced.step {output : Unit} (traced : Traced log before)
    (stepped : Stepped env toml before event after) :
    Traced (⟨before, event, output, after⟩ :: log) after := by
  refine ⟨?_, ?_, ?_, ?_⟩
  · rcases stepped.installs with ⟨config, installs⟩ | next
    · rw [config, installs]
      exact traced.current.cons _
    · exact Or.inr ⟨_, List.mem_cons_self, next, rfl⟩
  · intro node limiter found
    rcases stepped.cached found with known | rfl
    · exact (traced.cached node limiter known).cons _
    · exact traced.current.cons _
  · intro call member limiter returned
    rcases stepped.returned member returned with earlier | known | rfl
    · exact (traced.returned call earlier limiter returned).cons _
    · exact (traced.cached call.node limiter known).cons _
    · exact traced.current.cons _
  · intro r task present installed
    by_cases own : event.handled = some r
    · obtain ⟨old, new, middle, was, becomes, handled, rfl⟩ := stepped.moves own
      obtain rfl := Option.some.inj (becomes.symm.trans present)
      rcases handled.installs with ⟨-, installs, still⟩ | ⟨next, number⟩
      · obtain ⟨before, same⟩ := still installed
        obtain ⟨found, bound⟩ := traced.reloads r old was before
        rw [same]
        exact ⟨found.cons _, bound.trans (Nat.le_of_eq installs.symm)⟩
      · exact ⟨⟨_, List.mem_cons_self, own, next, number.symm⟩, Nat.le_of_eq number⟩
    · rcases stepped.others own with same | ⟨-, arrived⟩
      · obtain ⟨found, bound⟩ := traced.reloads r task (same ▸ present) installed
        exact ⟨found.cons _, bound.trans stepped.installs_le⟩
      · obtain rfl := Option.some.inj (arrived.symm.trans present)
        cases installed

theorem traced_run (started : Started first) (run : Run (machine env toml) first log final) :
    Traced log final := by
  induction run with
  | start =>
      refine ⟨Or.inl started.installs, ?_, ?_, ?_⟩
      · simp [started.limiters]
      · simp [started.calls]
      · simp [started.reloads]
  | step earlier taken ih => exact ih.step (stepped taken)

/-! No generation is ahead of the config's. -/

/-- The config generation that a call has loaded. -/
def CallStage.current : CallStage → Option Nat
  | .loadLimiterGeneration current | .clear current => some current
  | _ => none

structure Ordered (daemon : DaemonState Node) : Prop where
  limiterGeneration : daemon.limiterGeneration ≤ daemon.configGeneration
  calls : ∀ call ∈ daemon.calls, ∀ current, call.stage.current = some current →
    current ≤ daemon.configGeneration

omit [DecidableEq Node] [EndpointId Node] in
theorem Handled.generation {old new : ReloadTask}
    (handled : Handled env toml before old new after) :
    before.configGeneration ≤ after.configGeneration := by
  cases handled with
  | bump fields install => exact Nat.le_succ _
  | _ => exact Nat.le_refl _

theorem Ordered.step (ordered : Ordered before) (stepped : Stepped env toml before event after) :
    Ordered after := by
  cases stepped with
  | auth operation other => exact ⟨ordered.limiterGeneration, ordered.calls⟩
  | request => exact ⟨ordered.limiterGeneration, ordered.calls⟩
  | call node =>
      refine ⟨ordered.limiterGeneration, List.forall_mem_append.mpr ⟨ordered.calls, ?_⟩⟩
      simp [CallStage.current]
  | reload _ r old new middle own present handled =>
      obtain ⟨-, calls, generation, -⟩ := handled.frame
      refine ⟨?_, ?_⟩
      · calc
          middle.limiterGeneration = before.limiterGeneration := generation
          _ ≤ before.configGeneration := ordered.limiterGeneration
          _ ≤ middle.configGeneration := handled.generation
      · intro call member current loaded
        have known : call ∈ before.calls := calls ▸ member
        exact (ordered.calls call known current loaded).trans handled.generation
  | limiter c node old new middle present called =>
      have caller := ordered.calls _ (List.mem_of_getElem? present)
      have others {stage : CallStage}
          (bound : ∀ current, stage.current = some current → current ≤ before.configGeneration) :
          ∀ call ∈ before.calls.set c ⟨node, stage⟩, ∀ current, call.stage.current = some current →
            current ≤ before.configGeneration := forall_mem_set ordered.calls bound
      cases called with
      | loadGeneration =>
          refine ⟨ordered.limiterGeneration, others ?_⟩
          intro current loaded
          exact Nat.le_of_eq (Option.some.inj loaded).symm
      | differs current other => exact ⟨ordered.limiterGeneration, others caller⟩
      | clear current other => exact ⟨caller current rfl, others (by simp [CallStage.current])⟩
      | _ => exact ⟨ordered.limiterGeneration, others (by simp [CallStage.current])⟩

theorem ordered_run (started : Started first) (run : Run (machine env toml) first log final) :
    Ordered final := by
  apply run.invariant Ordered
  · refine ⟨?_, ?_⟩
    · rw [started.limiterGeneration, started.configGeneration]
    · simp [started.calls]
  · intro before event output after taken ordered
    exact ordered.step (stepped taken)

/-! Since a bump, and since a call after it. -/

/-- Every limiter in the cache was built from this config or a later one. -/
def NoneOlder (install : Nat) (daemon : DaemonState Node) : Prop :=
  ∀ node limiter, daemon.limiters.lookup node = some limiter → install ≤ limiter.install

/-- What holds since the generation was bumped for the config of this number. The cache may hold
older limiters, but then it is not of this generation. -/
structure SinceBump (epoch install : Nat) (daemon : DaemonState Node) : Prop where
  generation : epoch ≤ daemon.configGeneration
  installs : install ≤ daemon.installs
  cached : epoch ≤ daemon.limiterGeneration → NoneOlder install daemon

def CallStage.Fresh (epoch install : Nat) (daemon : DaemonState Node) : CallStage → Prop
  | .loadGeneration => True
  | .loadLimiterGeneration current | .clear current => epoch ≤ current
  | .readConfig | .guarded => NoneOlder install daemon
  | .returned limiter => install ≤ limiter.install

variable {epoch install : Nat}

theorem NoneOlder.step (newer : NoneOlder install before) (bound : install ≤ before.installs)
    (stepped : Stepped env toml before event after) : NoneOlder install after := by
  intro node limiter found
  rcases stepped.cached found with known | rfl
  · exact newer node limiter known
  · exact bound

theorem Stepped.generation (stepped : Stepped env toml before event after) :
    before.configGeneration ≤ after.configGeneration := by
  cases stepped with
  | reload _ r old new middle own present handled => exact handled.generation
  | limiter c node old new middle present called =>
      obtain ⟨-, -, -, -, -, generation⟩ := called.frame
      exact Nat.le_of_eq generation.symm
  | _ => exact Nat.le_refl _

/-- Whoever sets the generation of the cache has cleared it. -/
theorem Stepped.limiterGeneration (stepped : Stepped env toml before event after) :
    after.limiterGeneration = before.limiterGeneration ∨ after.limiters = ∅ := by
  cases stepped with
  | reload _ r old new middle own present handled => exact Or.inl handled.frame.2.2.1
  | limiter c node old new middle present called =>
      cases called with
      | clear current other => exact Or.inr rfl
      | _ => exact Or.inl rfl
  | _ => exact Or.inl rfl

theorem SinceBump.step (since : SinceBump epoch install before)
    (stepped : Stepped env toml before event after) : SinceBump epoch install after := by
  refine ⟨since.generation.trans stepped.generation,
    since.installs.trans stepped.installs_le, ?_⟩
  intro reached
  rcases stepped.limiterGeneration with same | cleared
  · exact (since.cached (same ▸ reached)).step since.installs stepped
  · intro node limiter found
    simp [cleared] at found

omit [EndpointId Node] in
theorem CallStage.Fresh.called {node : Node} {old new : CallStage}
    (fresh : old.Fresh epoch install before) (since : SinceBump epoch install before)
    (called : Called before node old new after) : new.Fresh epoch install after := by
  cases called with
  | loadGeneration => exact since.generation
  | differs current other => exact fresh
  | agrees => exact since.cached fresh
  | clear current different =>
      intro other limiter found
      simp at found
  | cleared => exact since.cached fresh
  | readConfig => exact fresh
  | found limiter known => exact fresh node limiter known
  | build limiter unknown shape =>
      rw [shape]
      exact since.installs

theorem CallStage.Fresh.step {stage : CallStage} (fresh : stage.Fresh epoch install before)
    (since : SinceBump epoch install before)
    (stepped : Stepped env toml before event after) : stage.Fresh epoch install after := by
  cases stage with
  | readConfig => exact NoneOlder.step fresh since.installs stepped
  | guarded => exact NoneOlder.step fresh since.installs stepped
  | _ => exact fresh

/-- A call stands still or takes a step of its own. -/
theorem Stepped.caller {c : Nat} {node : Node} {stage : CallStage}
    (stepped : Stepped env toml before event after)
    (present : before.calls[c]? = some ⟨node, stage⟩) :
    after.calls[c]? = some ⟨node, stage⟩ ∨ ∃ new middle, Called before node stage new middle ∧
      after = middle.setCall c ⟨node, new⟩ ∧ after.calls[c]? = some ⟨node, new⟩ := by
  have inside := (List.getElem?_eq_some_iff.mp present).1
  cases stepped with
  | auth operation other => exact Or.inl present
  | request => exact Or.inl present
  | call other => exact Or.inl ((List.getElem?_append_left inside).trans present)
  | reload _ r old new middle own known handled =>
      exact Or.inl ((congrArg (·[c]?) handled.frame.2.1).trans present)
  | limiter c' node' old new middle known called =>
      have calls := called.frame.2.1
      by_cases same : c' = c
      · subst same
        obtain ⟨rfl, rfl⟩ := LimiterCall.mk.inj (Option.some.inj (known.symm.trans present))
        refine Or.inr ⟨new, middle, called, rfl, ?_⟩
        simp only [DaemonState.setCall, calls, List.getElem?_set_self inside]
      · refine Or.inl ?_
        simp only [DaemonState.setCall, calls, List.getElem?_set_ne same, present]

/-- The handler of the request bumps the generation. -/
def Bumps (r : Nat) (entry : LogEntry Node) : Prop :=
  entry.event.handled = some r ∧
    entry.after.configGeneration = entry.before.configGeneration + 1

instance (r : Nat) (entry : LogEntry Node) : Decidable (Bumps r entry) :=
  inferInstanceAs (Decidable (_ ∧ _))

omit [DecidableEq Node] [EndpointId Node] in
theorem Handled.bumps {old new : ReloadTask} (handled : Handled env toml before old new after)
    (bumped : after.configGeneration = before.configGeneration + 1) :
    old.stage.installed = true ∧ after.installs = before.installs := by
  cases handled with
  | bump fields install => exact ⟨rfl, rfl⟩
  | _ => exact (Nat.succ_ne_self _ bumped.symm).elim

theorem since_bump {newer earlier : Log Node} {bump : LogEntry Node} {r : Nat}
    (started : Started first)
    (run : Run (machine env toml) first (newer ++ bump :: earlier) final) (bumps : Bumps r bump) :
    ∃ install, InstalledBy earlier r install ∧
      SinceBump bump.after.configGeneration install bump.after := by
  obtain ⟨before, taken⟩ := run.split
  obtain ⟨own, bumped⟩ := bumps
  obtain ⟨old, new, middle, was, -, handled, shape⟩ := (stepped taken).moves own
  have bumped' : middle.configGeneration = bump.before.configGeneration + 1 := by
    rw [shape] at bumped
    exact bumped
  obtain ⟨installed, installs⟩ := handled.bumps bumped'
  obtain ⟨found, bound⟩ := (traced_run started before).reloads r old was installed
  refine ⟨old.install, found, Nat.le_refl _, ?_, ?_⟩
  · exact bound.trans (stepped taken).installs_le
  · intro reached
    -- the generation is new, so the cache cannot have it
    have behind := (ordered_run started before).limiterGeneration
    have same : bump.after.limiterGeneration = bump.before.limiterGeneration := by
      rw [shape]
      exact handled.frame.2.2.1
    omega

theorem since_bump_run {newer earlier : Log Node} {bump : LogEntry Node}
    (since : SinceBump epoch install bump.after)
    (run : Run (machine env toml) first (newer ++ bump :: earlier) final) :
    SinceBump epoch install final := by
  apply run.invariant_since (fun _ => SinceBump epoch install) (fun _ => True)
    (fun _ _ => trivial)
  · intro state older
    cases older with
    | step before taken => exact since
  · intro older before event output after taken _ earlier
    exact earlier.step (stepped taken)

theorem fresh_run {later older : Log Node} {start : LogEntry Node} {node : Node}
    (since : SinceBump epoch install start.before) (starts : start.event = .call node)
    (run : Run (machine env toml) first (later ++ start :: older) final) :
    ∃ stage, final.calls[start.before.calls.length]? = some ⟨node, stage⟩ ∧
      stage.Fresh epoch install final := by
  have both := run.invariant_since
    (fun _ state => SinceBump epoch install state ∧
      ∃ stage, state.calls[start.before.calls.length]? = some ⟨node, stage⟩ ∧
        stage.Fresh epoch install state)
    (fun _ => True) (fun _ _ => trivial) ?first ?kept
  case first =>
    intro state before
    cases before with
    | step before taken =>
        dsimp only at starts since ⊢
        subst starts
        have next := since.step (stepped taken)
        cases stepped taken with
        | call node => exact ⟨next, .loadGeneration, List.getElem?_concat_length, trivial⟩
        | reload _ r old new middle own present handled => cases own
  case kept =>
    intro newer before event output after taken _ ⟨since, stage, present, fresh⟩
    refine ⟨since.step (stepped taken), ?_⟩
    rcases (stepped taken).caller present with still | ⟨new, middle, called, rfl, becomes⟩
    · exact ⟨stage, still, fresh.step since (stepped taken)⟩
    · have next : new.Fresh epoch install middle := fresh.called since called
      exact ⟨new, becomes, next⟩
  exact both.2

section

variable {strings : TomlStrings} {file : FileRead} {store names : Option Str} {now : Instant}
  {unixNow : Nat} {random : Bytes32}

/-- A call that starts after a reload has bumped the generation returns a limiter built from the
config that this reload installed, or from one that a step installed later. -/
theorem limiter_fresh {later middle earlier : Log Node} {start bump : LogEntry Node} {r : Nat}
    {node : Node} {limiter : Limiter}
    (booted : boot env toml strings file store names now unixNow random = .ok first)
    (run : Run (machine env toml) first (later ++ start :: (middle ++ bump :: earlier)) final)
    (bumps : Bumps r bump) (starts : start.event = .call node)
    (returned : final.calls[start.before.calls.length]? = some ⟨node, .returned limiter⟩) :
    ∃ own ∈ earlier, own.event.handled = some r ∧ Replaces own ∧
      BuiltSince (later ++ start :: (middle ++ bump :: earlier)) own limiter := by
  have started := boot_started booted
  obtain ⟨beforeStart, -⟩ := run.split
  obtain ⟨install, ⟨own, member, mine, replaces, number⟩, since⟩ :=
    since_bump started beforeStart bumps
  obtain ⟨stage, present, fresh⟩ := fresh_run (since_bump_run since beforeStart) starts run
  obtain rfl := (LimiterCall.mk.inj (Option.some.inj (present.symm.trans returned))).2
  have recent : own.after.installs ≤ limiter.install := number ▸ fresh
  refine ⟨own, member, mine, replaces, ?_⟩
  have built := (traced_run started run).returned _ (List.mem_of_getElem? returned) limiter rfl
  rcases built with zero | ⟨installed, inside, replaces', rfl⟩
  · have first : own.after.installs = own.before.installs + 1 := replaces
    omega
  · exact ⟨installed, inside, replaces', recent, rfl⟩

end

def streamsText : String := "[serve]\nmax_concurrent_streams = 7\n"

def streamsConfig : Config :=
  { Config.default with serve := { ServeConfig.default with maxConcurrentStreams := 7 } }

def phone : Bytes32 := .filled 1
def laptop : Bytes32 := .filled 2

/-- A call that finds the cache of another generation. -/
def callEvents (c : Nat) (node : Bytes32) : List (Event Bytes32) :=
  .call node :: List.replicate 5 (.limiter c)

/-- A caller that loaded the generation before a reload sets the cache back to it afterwards. -/
def slowCaller : List (Event Bytes32) :=
  [.call phone :: .limiter 0 :: reloadEvents 0 (.content streamsText.toList),
    callEvents 1 laptop, List.replicate 3 (.limiter 0)].flatten

theorem last_call (events : List (Event Bytes32)) (c : Nat) (node : Bytes32) :
    (events ++ callEvents c node).reverse[5]? = some (.call node) := by
  rw [callEvents, List.reverse_append, List.reverse_cons, List.reverse_replicate,
    List.append_assoc]
  exact List.getElem?_append_right (Nat.le_refl 5)

theorem fresh_behind_slow_caller :
    ∃ log, ∃ final : DaemonState Bytes32,
      Run (machine unset (parsing [(streamsText, streamsConfig)])) newDaemon log final ∧
        (∃ entry ∈ log, entry.after.limiterGeneration < entry.before.limiterGeneration) ∧
        final.calls[2]? = some ⟨phone, .returned ⟨streamsConfig.serve, 1⟩⟩ ∧
        ∃ own ∈ log, own.event.handled = some 0 ∧ Replaces own ∧
          BuiltSince log own ⟨streamsConfig.serve, 1⟩ := by
  obtain ⟨log, final, executed, run, setBack, third, bumps, returned⟩ := exec_checked
    (machine unset (parsing [(streamsText, streamsConfig)])) newDaemon
    (slowCaller ++ callEvents 2 phone)
    (fun log final =>
      (∃ entry ∈ log, entry.after.limiterGeneration < entry.before.limiterGeneration) ∧
      log[5]?.any (fun start => start.before.calls.length = 2) ∧
      (log.drop 6)[10]?.any (fun bump => Bumps 0 bump) ∧
      final.calls[2]? = some ⟨phone, .returned ⟨streamsConfig.serve, 1⟩⟩)
    (by decide +kernel)
  obtain ⟨start, here, cut, third⟩ := cut_at third
  obtain ⟨bump, -, cutAgain, bumps⟩ := cut_at bumps
  have starts : start.event = .call phone := by
    have event := congrArg (Option.map Entry.event) here
    rw [← List.getElem?_map, exec_events executed, List.map_nil, List.append_nil,
      last_call] at event
    exact (Option.some.inj event).symm
  have shape : log = log.take 5 ++ start ::
      ((log.drop 6).take 10 ++ bump :: (log.drop 6).drop 11) := by
    rw [← cutAgain]
    exact cut
  rw [← third] at returned
  obtain ⟨own, member, mine, replaces, built⟩ := limiter_fresh (boot_missing _) (shape ▸ run)
    bumps starts returned
  rw [← shape] at built
  rw [third] at returned
  exact ⟨log, final, run, setBack, returned, own,
    List.mem_of_mem_drop (List.mem_of_mem_drop member), mine, replaces, built⟩

end RaemoteServer.Daemon
