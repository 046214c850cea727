import RaemoteServer.Instance.Ownership

/-! Commands that read `daemon.json` at one time and connect to the socket at a later one. -/

namespace RaemoteServer.Instance

open Text Runs

variable {json : JsonDaemonInfo} {socketPath version : Str} {before after final : System}
  {log : History System Event Effect}

/-- Published at some time, whether or not the file is still there. -/
def Stage.named (stage : Stage) : Option DaemonInfo := stage.announced.or stage.accepting

theorem named_of_accepting {stage : Stage} {info : DaemonInfo}
    (accepts : stage.accepting = some info) : stage.named = some info := by
  cases stage with
  | serving | stopping | socketRemoved | infoRemoved => exact accepts
  | _ => cases accepts

theorem owns_of_named {stage : Stage} {info : DaemonInfo} (named : stage.named = some info) :
    stage.owns = true := by
  cases stage with
  | opened | refused => cases named
  | _ => rfl

/-- Only a rename publishes. -/
theorem step_named {event : Event} {effect : Effect}
    (stepped : Stepped json socketPath version before event effect after)
    (silent : ∀ pid, event ≠ .rename pid) {pid : Pid} {process : Process} {info : DaemonInfo}
    (here : after.process pid = some process) (named : process.stage.named = some info) :
    ∃ process', before.process pid = some process' ∧ process'.stage.named = some info := by
  have moved {actor : Pid} {new : Option Process}
      (processes : after.process = Function.update before.process actor new)
      (own : ∀ process', new = some process' → process'.stage.named = some info →
        ∃ old, before.process actor = some old ∧ old.stage.named = some info) :
      ∃ process', before.process pid = some process' ∧ process'.stage.named = some info := by
    rw [processes] at here
    by_cases same : pid = actor
    · subst same
      rw [Function.update_self] at here
      exact own process here named
    · rw [Function.update_of_ne same] at here
      exact ⟨process, here, named⟩
  cases stepped with
  | opens | locks | refuses | empties | records | creates =>
      refine moved rfl ?_
      rintro _ ⟨⟩ ⟨⟩
  | isHeld | bails | drops | exits =>
      refine moved rfl ?_
      rintro _ ⟨⟩
  | writes =>
      refine moved rfl ?_
      rintro _ ⟨⟩ ⟨⟩
  | renames => exact absurd rfl (silent _)
  | unlinks was | listens was | fails was | shutsDown was | removesSocket was | removesInfo was =>
      refine moved rfl ?_
      rintro _ ⟨⟩ same
      exact ⟨_, was, same⟩
  | closes => exact ⟨process, here, named⟩

theorem Guarded.named (guarded : Guarded json before) {pid : Pid} {process : Process}
    {info read : DaemonInfo} (here : before.process pid = some process)
    (named : process.stage.named = some info) (reads : readDaemonJson json before = some read) :
    info = read := by
  have knows := (guarded.owner pid process here (owns_of_named named)).2.1
  have told : readDaemonJson json before = some info := by
    cases stage : process.stage with
    | infoRemoved last =>
        rw [stage] at named knows
        obtain rfl := Option.some.inj named
        obtain ⟨content, same⟩ := Option.isSome_iff_exists.mp
          (metadata_of_read (Option.isSome_of_eq_some reads))
        exact readDaemonJson_rendered (knows.2.2 content same) same
    | published | headless | unlinked | serving | stopping | socketRemoved =>
        rw [stage] at named knows
        exact (knows.announced named).1
    | _ =>
        rw [stage] at named
        cases named
  exact Option.some.inj (told.symm.trans reads)

/-- A client that has read `daemon.json` is connected, however much later, to the daemon that
wrote it, unless another one has published itself in between. -/
theorem client_finds_author {between earlier : History System Event Effect} {middle : System}
    {info : DaemonInfo} {pid : Pid}
    (run : Run (machine json socketPath version) start (between ++ earlier) final)
    (reading : Run (machine json socketPath version) start earlier middle)
    (read : readDaemonJson json middle = some info)
    (unpublished : ∀ entry ∈ between, ∀ other, entry.event ≠ .rename other)
    (connected : connect final = some pid) :
    info.pid = pid ∧ ∃ process, final.process pid = some process ∧
      process.stage.accepting = some info := by
  have only : ∀ other process told, final.process other = some process →
      process.stage.named = some told → told = info := by
    apply run.invariant_since
      (fun _ system => ∀ other process told, system.process other = some process →
        process.stage.named = some told → told = info)
      (fun entry => ∀ other, entry.event ≠ .rename other) unpublished
    · intro state again other process told here named
      obtain rfl := reading.same_end again
      exact (run_guarded reading).named here named read
    · intro _ _ _ _ _ taken silent kept other process told here named
      obtain ⟨process', earlier', named'⟩ := step_named (step_cases taken) silent here named
      exact kept other process' told earlier' named'
  have guarded := run_guarded run
  obtain ⟨process, told, here, accepts, -⟩ := guarded.safe.answered pid connected
  have named := named_of_accepting accepts
  obtain rfl := only pid process told here named
  have knows := (guarded.owner pid process here (owns_of_named named)).2.1
  exact ⟨knows.whose accepts, process, here, accepts⟩

theorem client_finds_author_later : ∃ final : System, connect final = some 7 ∧
    sampleInfo.pid = 7 ∧ ∃ process, final.process 7 = some process ∧
      process.stage.accepting = some sampleInfo := by
  obtain ⟨history, final, -, run, connected, silent, there⟩ := exec_checked
    (machine (.only sampleInfo sampleText) "/s".toList "0.1.0".toList) start
    [.open 7 .daemon, .tryLock 7, .setLen 7 true, .record 7 9, .create 7 1700000000 (.filled 0),
      .write 7 9, .write 7 999, .rename 7, .unlink 7 false, .open 8 .check, .bind 7 true,
      .tryLock 8]
    (fun history final => connect final = some 7 ∧
      (history.take 4).map Entry.event =
        [.tryLock 8, .bind 7 true, .open 8 .check, .unlink 7 false] ∧
      history[3]?.any (fun entry : Entry System Event Effect =>
        decide (entry.before.metadata = some (utf8 sampleText))) = true)
    (by decide +kernel)
  obtain ⟨entry, -, shape, written⟩ := cut_at there
  have reading := (shape ▸ run).split.1
  rw [← List.take_append_drop 4 history] at run
  have read := @readDaemonJson_rendered (.only sampleInfo sampleText) sampleInfo _ entry.before
    ⟨sampleText, by simp [JsonDaemonInfo.only], rfl⟩ written
  refine ⟨final, connected, client_finds_author run reading read ?_ connected⟩
  intro entry member other renamed
  have listed := List.mem_map_of_mem (f := Entry.event) member
  rw [silent, renamed] at listed
  simp at listed

end RaemoteServer.Instance
