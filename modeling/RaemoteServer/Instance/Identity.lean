import RaemoteServer.Instance.Ownership

/-! The key of the endpoint. A daemon that has the instance lock reads it, or creates it on the
first start. The write can be cut at any byte, and nothing is renamed. -/

namespace RaemoteServer.Identity

open Text Runs Instance

/-- Where a process is in `load_or_create_secret_key`. -/
inductive KeyStage where
  | waiting
  /-- `path.exists()` has answered. -/
  | looked (present : Bool)
  /-- The first bytes of a fresh key are in the file. -/
  | writing (key : Bytes32) (written : Nat)
  | loaded (key : Bytes32)
  | failed
  deriving DecidableEq

/-- The process has seen no file, and is to write one. -/
def KeyStage.creates : KeyStage → Bool
  | .looked false | .writing _ _ => true
  | _ => false

structure State where
  system : System
  /-- `secret.key` -/
  file : Option (List UInt8)
  key : Pid → KeyStage

inductive Event where
  | system (event : Instance.Event)
  /-- A file that cannot be looked at does not exist for `path.exists()`. -/
  | look (pid : Pid) (visible : Bool)
  | read (pid : Pid) (succeeds : Bool)
  /-- The file is created, and empty. -/
  | create (pid : Pid) (key : Bytes32)
  | write (pid : Pid) (written : Nat)
  | finish (pid : Pid)
  /-- The directory, the file or the write fails. -/
  | giveUp (pid : Pid)
  deriving DecidableEq

def Event.blind : Event → Bool
  | .look _ visible => !visible
  | _ => false

inductive Output where
  | none
  | system (effect : Effect)
  | loaded (key : Bytes32)
  | unreadable
  /-- "must be 32 bytes" -/
  | malformed
  deriving DecidableEq

def State.enter (state : State) (pid : Pid) (stage : KeyStage) : State :=
  { state with key := Function.update state.key pid stage }

/-- A daemon comes to its metadata when it has its key. -/
def allowed (state : State) : Instance.Event → Bool
  | .create pid _ _ =>
      match state.key pid with
      | .loaded _ => true
      | _ => false
  | _ => true

section

variable (json : JsonDaemonInfo) (socketPath version : Str)

def step (state : State) : Event → Option (Output × State)
  | .system event =>
      if allowed state event then do
        let (effect, system) ← Instance.step json socketPath version state.system event
        -- what a process knew is gone with it
        let key := fun pid => if (system.process pid).isSome then state.key pid else .waiting
        return (.system effect, { state with system, key })
      else none
  | .look pid visible =>
      match state.system.process pid, state.key pid with
      | some ⟨.daemon, .held, _⟩, .waiting =>
          some (.none, state.enter pid (.looked (visible && state.file.isSome)))
      | _, _ => none
  | .read pid succeeds =>
      match state.key pid with
      | .looked true =>
          if succeeds then
            match state.file.map Bytes32.ofList with
            | some (some key) => some (.loaded key, state.enter pid (.loaded key))
            | some none => some (.malformed, state.enter pid .failed)
            | none => some (.unreadable, state.enter pid .failed)
          else some (.unreadable, state.enter pid .failed)
      | _ => none
  | .create pid key =>
      match state.key pid with
      | .looked false => some (.none, { state.enter pid (.writing key 0) with file := some [] })
      | _ => none
  | .write pid written =>
      match state.key pid with
      | .writing key _ =>
          some (.none, { state.enter pid (.writing key written) with
            file := some (key.bytes.take written) })
      | _ => none
  | .finish pid =>
      match state.key pid with
      | .writing key written =>
          if key.bytes.length ≤ written then some (.loaded key, state.enter pid (.loaded key))
          else none
      | _ => none
  | .giveUp pid =>
      match state.key pid with
      | .looked false | .writing _ _ => some (.unreadable, state.enter pid .failed)
      | _ => none

def machine : Machine State Event Output := ⟨step json socketPath version⟩

end

/-- With whatever is in the file. -/
def start (file : Option (List UInt8)) : State := ⟨Instance.start, file, fun _ => .waiting⟩

abbrev LogEntry := Entry State Event Output
abbrev Log := History State Event Output

variable {json : JsonDaemonInfo} {socketPath version : Str} {before after state : State}
  {event : Event} {output : Output} {log : Log}

/-- What one step can do. -/
inductive Stepped (json : JsonDaemonInfo) (socketPath version : Str) (before : State) :
    Event → Output → State → Prop
  | system (event : Instance.Event) (effect : Effect) (system : System)
      (taken : Instance.step json socketPath version before.system event = some (effect, system)) :
      Stepped json socketPath version before (.system event) (.system effect)
        { before with
          system
          key := fun pid => if (system.process pid).isSome then before.key pid else .waiting }
  | looks (pid : Pid) (visible recorded : Bool)
      (held : before.system.process pid = some ⟨.daemon, .held, recorded⟩)
      (here : before.key pid = .waiting) :
      Stepped json socketPath version before (.look pid visible) .none
        (before.enter pid (.looked (visible && before.file.isSome)))
  | reads (pid : Pid) (key : Bytes32) (here : before.key pid = .looked true)
      (content : before.file = some key.bytes) :
      Stepped json socketPath version before (.read pid true) (.loaded key)
        (before.enter pid (.loaded key))
  | creates (pid : Pid) (key : Bytes32) (here : before.key pid = .looked false) :
      Stepped json socketPath version before (.create pid key) .none
        { before.enter pid (.writing key 0) with file := some [] }
  | writes (pid : Pid) (key : Bytes32) (earlier written : Nat)
      (here : before.key pid = .writing key earlier) :
      Stepped json socketPath version before (.write pid written) .none
        { before.enter pid (.writing key written) with file := some (key.bytes.take written) }
  | finishes (pid : Pid) (key : Bytes32) (written : Nat)
      (here : before.key pid = .writing key written) (all : key.bytes.length ≤ written) :
      Stepped json socketPath version before (.finish pid) (.loaded key)
        (before.enter pid (.loaded key))
  | fails (pid : Pid) (event : Event) (output : Output) (here : before.key pid ≠ .waiting)
      (own : ∀ event', event ≠ .system event') (silent : ∀ key, output ≠ .loaded key) :
      Stepped json socketPath version before event output (before.enter pid .failed)

theorem ofList_some {bytes : List UInt8} {key : Bytes32}
    (read : Bytes32.ofList bytes = some key) : bytes = key.bytes := by
  unfold Bytes32.ofList at read
  split at read
  · rw [← Option.some.inj read]
  · cases read

theorem step_cases (taken : (machine json socketPath version).step before event =
    some (output, after)) : Stepped json socketPath version before event output after := by
  change step json socketPath version before event = some (output, after) at taken
  cases event with
  | system event =>
      simp only [step] at taken
      split at taken
      · rcases Option.bind_eq_some_iff.mp taken with ⟨⟨effect, system⟩, moved, shape⟩
        cases shape
        exact .system event effect system moved
      · cases taken
  | look pid visible =>
      simp only [step] at taken
      split at taken
      · rename_i recorded held here
        cases taken
        exact .looks pid visible recorded held here
      · cases taken
  | read pid succeeds =>
      simp only [step] at taken
      split at taken
      · rename_i here
        have busy : before.key pid ≠ .waiting := by
          rw [here]
          exact nofun
        split at taken
        · rename_i succeeded
          split at taken
          · rename_i key content
            cases taken
            rcases Option.map_eq_some_iff.mp content with ⟨bytes, present, read⟩
            rw [ofList_some read] at present
            rw [succeeded]
            exact .reads pid key here present
          · cases taken
            exact .fails pid _ _ busy nofun nofun
          · cases taken
            exact .fails pid _ _ busy nofun nofun
        · cases taken
          exact .fails pid _ _ busy nofun nofun
      · cases taken
  | create pid key =>
      simp only [step] at taken
      split at taken
      · rename_i here
        cases taken
        exact .creates pid key here
      · cases taken
  | write pid written =>
      simp only [step] at taken
      split at taken
      · rename_i key earlier here
        cases taken
        exact .writes pid key earlier written here
      · cases taken
  | finish pid =>
      simp only [step] at taken
      split at taken
      · rename_i key written here
        split at taken
        · rename_i all
          cases taken
          exact .finishes pid key written here all
        · cases taken
      · cases taken
  | giveUp pid =>
      simp only [step] at taken
      split at taken
      · rename_i here
        cases taken
        exact .fails pid _ _ (by rw [here]; exact nofun) nofun nofun
      · rename_i key written here
        cases taken
        exact .fails pid _ _ (by rw [here]; exact nofun) nofun nofun
      · cases taken

/-! The lock keeps all but one process away from the key. -/

def systemStep (entry : LogEntry) : Option (Instance.Event × Effect) :=
  match entry.event, entry.output with
  | .system event, .system effect => some (event, effect)
  | _, _ => none

theorem system_projects : Projects State.system systemStep (machine json socketPath version)
    (Instance.machine json socketPath version) := by
  intro before event output after taken
  cases step_cases taken with
  | system event effect system moved => exact moved
  | fails pid event output here own silent =>
      cases event with
      | system event => exact (own event rfl).elim
      | _ => rfl
  | _ => rfl

theorem holder_kept {before after : System} {event : Instance.Event} {effect : Effect}
    (stepped : Instance.Stepped json socketPath version before event effect after) {pid : Pid}
    (held : before.holder = some pid) : after.holder = some pid ∨ after.process pid = none := by
  cases stepped with
  | locks here free =>
      rw [free] at held
      cases held
  | drops | exits =>
      rename_i other _ _
      by_cases same : other = pid
      · right
        rw [same]
        simp [System.release, System.put]
      · left
        simp [System.release, System.put, held, Ne.symm same]
  | _ => exact Or.inl held

/-- What the processes know of the file. -/
structure Sound (state : State) : Prop where
  owner : ∀ pid, state.key pid ≠ .waiting → state.system.holder = some pid
  absent : ∀ pid, state.key pid = .looked false → state.file = none
  written : ∀ pid key written, state.key pid = .writing key written →
    state.file = some (key.bytes.take written)
  content : ∀ pid key, state.key pid = .loaded key → state.file = some key.bytes

/-- The owner of the lock goes on, and every other process waits. -/
theorem sound_enter {next : State} {pid : Pid} {stage : KeyStage} (sound : Sound before)
    (held : before.system.holder = some pid) (system : next.system = before.system)
    (keys : next.key = Function.update before.key pid stage)
    (absent : stage = .looked false → next.file = none)
    (written : ∀ key written, stage = .writing key written →
      next.file = some (key.bytes.take written))
    (content : ∀ key, stage = .loaded key → next.file = some key.bytes) : Sound next := by
  have alone {other : Pid} {found : KeyStage} (here : next.key other = found)
      (busy : found ≠ .waiting) : stage = found := by
    rw [keys] at here
    by_cases same : other = pid
    · rw [same, Function.update_self] at here
      exact here
    · rw [Function.update_of_ne same] at here
      have owns := sound.owner other (by rw [here]; exact busy)
      rw [held] at owns
      exact (same (Option.some.inj owns).symm).elim
  constructor
  · intro other busy
    rw [system]
    by_cases same : other = pid
    · rw [same]
      exact held
    · rw [keys, Function.update_of_ne same] at busy
      exact sound.owner other busy
  · exact fun other here => absent (alone here nofun)
  · exact fun other key count here => written key count (alone here nofun)
  · exact fun other key here => content key (alone here nofun)

theorem sound_step (stepped : Stepped json socketPath version before event output after)
    (guarded : Guarded json before.system) (seen : event.blind = false) (sound : Sound before) :
    Sound after := by
  cases stepped with
  | system event effect system taken =>
      have kept (pid : Pid) (stage : KeyStage) (busy : stage ≠ .waiting)
          (here : (if (system.process pid).isSome then before.key pid else .waiting) = stage) :
          (system.process pid).isSome = true ∧ before.key pid = stage := by
        split at here
        · rename_i alive
          exact ⟨alive, here⟩
        · exact (busy here.symm).elim
      constructor
      · intro pid busy
        obtain ⟨alive, same⟩ := kept pid _ busy rfl
        have moved := holder_kept (Instance.step_cases taken)
          (sound.owner pid (fun waits => busy (same.symm.trans waits)))
        apply moved.resolve_right
        intro gone
        rw [gone] at alive
        cases alive
      · exact fun pid here => sound.absent pid (kept pid (.looked false) nofun here).2
      · intro pid key written here
        exact sound.written pid key written (kept pid (.writing key written) nofun here).2
      · exact fun pid key here => sound.content pid key (kept pid (.loaded key) nofun here).2
  | looks pid visible recorded held here =>
      have owner := (guarded.owner pid _ held rfl).1
      have visible' : visible = true := by simpa [Event.blind] using seen
      refine sound_enter sound owner rfl rfl ?_ nofun nofun
      intro same
      rw [visible'] at same
      have absent : before.file = none := by simpa using same
      exact absent
  | reads pid key here content =>
      have owner := sound.owner pid (by rw [here]; exact nofun)
      refine sound_enter sound owner rfl rfl nofun nofun ?_
      intro found same
      cases same
      exact content
  | creates pid key here =>
      have owner := sound.owner pid (by rw [here]; exact nofun)
      refine sound_enter sound owner rfl rfl nofun ?_ nofun
      intro found count same
      cases same
      rfl
  | writes pid key earlier written here =>
      have owner := sound.owner pid (by rw [here]; exact nofun)
      refine sound_enter sound owner rfl rfl nofun ?_ nofun
      intro found count same
      cases same
      rfl
  | finishes pid key written here all =>
      have owner := sound.owner pid (by rw [here]; exact nofun)
      refine sound_enter sound owner rfl rfl nofun nofun ?_
      intro found same
      cases same
      have file := sound.written pid key written here
      rw [List.take_of_length_le all] at file
      exact file
  | fails pid event output here own silent =>
      exact sound_enter sound (sound.owner pid here) rfl rfl nofun nofun nofun

theorem sound_run {file : Option (List UInt8)}
    (run : Run (machine json socketPath version) (start file) log state)
    (seen : ∀ entry ∈ log, entry.event.blind = false) : Sound state := by
  induction run with
  | start => exact ⟨fun _ busy => (busy rfl).elim, nofun, nofun, nofun⟩
  | step earlier taken ih =>
      have sound := ih (fun entry member => seen entry (List.mem_cons_of_mem _ member))
      exact sound_step (step_cases taken) (run_guarded (earlier.projected system_projects))
        (seen _ List.mem_cons_self) sound

/-! A file that is there stays, once nobody is writing it. -/

/-- `newer` is what has happened since. -/
structure Settled (bytes : List UInt8) (newer : Log) (state : State) : Prop where
  file : state.file = some bytes
  quiet : ∀ pid, (state.key pid).creates = false
  loaded : ∀ entry ∈ newer, ∀ key, entry.output = .loaded key → key.bytes = bytes

theorem settled_step {bytes : List UInt8} {newer : Log}
    (stepped : Stepped json socketPath version before event output after)
    (seen : event.blind = false) (settled : Settled bytes newer before) :
    Settled bytes (⟨before, event, output, after⟩ :: newer) after := by
  have entered (pid : Pid) (stage : KeyStage) (quiet : stage.creates = false)
      (output : Output) (loads : ∀ key, output = .loaded key → key.bytes = bytes) :
      Settled bytes (⟨before, event, output, before.enter pid stage⟩ :: newer)
        (before.enter pid stage) := by
    refine ⟨settled.file, ?_, ?_⟩
    · intro other
      by_cases same : other = pid
      · simpa [State.enter, same] using quiet
      · simpa [State.enter, Function.update_of_ne same] using settled.quiet other
    · intro entry member
      rcases List.mem_cons.mp member with rfl | old
      · exact loads
      · exact settled.loaded entry old
  have writes (pid : Pid) (stage : KeyStage) (here : before.key pid = stage)
      (busy : stage.creates = true) : False := by
    have quiet := settled.quiet pid
    rw [here, busy] at quiet
    cases quiet
  cases stepped with
  | system event effect system taken =>
      refine ⟨settled.file, ?_, ?_⟩
      · intro pid
        dsimp only
        split
        · exact settled.quiet pid
        · rfl
      · intro entry member
        rcases List.mem_cons.mp member with rfl | old
        · exact nofun
        · exact settled.loaded entry old
  | looks pid visible recorded held here =>
      have visible' : visible = true := by simpa [Event.blind] using seen
      refine entered pid _ ?_ .none nofun
      rw [visible', settled.file]
      rfl
  | reads pid key here content =>
      refine entered pid _ rfl _ ?_
      intro found same
      cases same
      exact Option.some.inj (content.symm.trans settled.file)
  | creates pid key here => exact (writes pid _ here rfl).elim
  | writes pid key earlier written here => exact (writes pid _ here rfl).elim
  | finishes pid key written here all => exact (writes pid _ here rfl).elim
  | fails pid event output here own silent =>
      exact entered pid .failed rfl output (fun key same => (silent key same).elim)

theorem settled_since {file : Option (List UInt8)} {bytes : List UInt8} {newer older : Log}
    (run : Run (machine json socketPath version) (start file) (newer ++ older) state)
    (seen : ∀ entry ∈ newer, entry.event.blind = false)
    (first : ∀ middle, Run (machine json socketPath version) (start file) older middle →
      Settled bytes [] middle) : Settled bytes newer state := by
  apply run.invariant_since (Settled bytes) (fun entry => entry.event.blind = false) seen first
  intro newer before event output after taken seen settled
  exact settled_step (step_cases taken) seen settled

/-- Whoever has the key is the only one to touch the file. -/
theorem settled_loaded {pid : Pid} {key : Bytes32} (sound : Sound state)
    (here : state.key pid = .loaded key) : Settled key.bytes [] state := by
  refine ⟨sound.content pid key here, ?_, fun _ member => (List.not_mem_nil member).elim⟩
  intro other
  by_cases waits : state.key other = .waiting
  · rw [waits]
    rfl
  · have owner := sound.owner pid (by rw [here]; exact nofun)
    have same : pid = other := Option.some.inj (owner.symm.trans (sound.owner other waits))
    rw [← same, here]
    rfl

theorem loads {key : Bytes32} (stepped : Stepped json socketPath version before event output after)
    (loaded : output = .loaded key) : ∃ pid, after.key pid = .loaded key := by
  cases stepped with
  | reads pid found here content =>
      cases loaded
      exact ⟨pid, Function.update_self ..⟩
  | finishes pid found written here all =>
      cases loaded
      exact ⟨pid, Function.update_self ..⟩
  | fails pid event output here own silent => exact (silent key loaded).elim
  | _ => cases loaded

theorem loaded_stays {file : Option (List UInt8)} {key : Bytes32} {entry : LogEntry}
    (run : Run (machine json socketPath version) (start file) log state)
    (seen : ∀ entry ∈ log, entry.event.blind = false) (member : entry ∈ log)
    (loaded : entry.output = .loaded key) : state.file = some key.bytes := by
  obtain ⟨newer, older, rfl⟩ := List.append_of_mem member
  have settled : Settled key.bytes newer state := by
    apply settled_since run (fun entry inside => seen entry (List.mem_append_left _ inside))
    intro middle earlier
    have sound := sound_run earlier
      (fun entry inside => seen entry (List.mem_append_right _ inside))
    cases earlier with
    | step before taken =>
        obtain ⟨pid, here⟩ := loads (step_cases taken) loaded
        exact settled_loaded sound here
  exact settled.file

/-- The endpoint has one key over all the starts of the daemon, killed ones included. A first start
that dies before the whole key is written leaves a file that no later start gets past. -/
theorem identity_stable {file : Option (List UInt8)}
    (run : Run (machine json socketPath version) (start file) log state)
    (seen : ∀ entry ∈ log, entry.event.blind = false) :
    (∀ entry ∈ log, ∀ key, entry.output = .loaded key → state.file = some key.bytes) ∧
      ∀ newer older middle bytes, log = newer ++ older →
        Run (machine json socketPath version) (start file) older middle →
        middle.file = some bytes → (∀ pid, (middle.key pid).creates = false) →
          state.file = some bytes ∧
            (bytes.length ≠ 32 → ∀ entry ∈ newer, ∀ key, entry.output ≠ .loaded key) := by
  constructor
  · intro entry member key loaded
    exact loaded_stays run seen member loaded
  · rintro newer older middle bytes rfl earlier present quiet
    have settled : Settled bytes newer state := by
      apply settled_since run (fun entry inside => seen entry (List.mem_append_left _ inside))
      intro same again
      rw [again.same_end earlier]
      exact ⟨present, quiet, fun _ member => (List.not_mem_nil member).elim⟩
    refine ⟨settled.file, ?_⟩
    intro short entry member key loaded
    apply short
    rw [← settled.loaded entry member key loaded]
    exact key.length_eq

/-- A daemon that cannot look at the file writes a new key over it. -/
example : ((machine (.only sampleInfo sampleText) [] []).exec []
    (start (some (Bytes32.filled 5).bytes))
    [.system (.open 7 .daemon), .system (.tryLock 7), .system (.setLen 7 true),
      .system (.record 7 9), .look 7 false, .create 7 (.filled 6), .write 7 32]).any
        (fun result => result.2.file = some (Bytes32.filled 6).bytes) := by
  decide +kernel

/-- The daemon of process 7 creates the key and is killed, and process 8 reads it. -/
theorem identity_stable_restarted : ∃ (log : Log) (final : State),
    (log.map Entry.output).count (.loaded (.filled 5)) = 2 ∧
      final.file = some (Bytes32.filled 5).bytes := by
  obtain ⟨log, final, -, run, seen, twice⟩ := exec_checked
    (machine (.only sampleInfo sampleText) "/s".toList "0.1.0".toList) (start none)
    [.system (.open 7 .daemon), .system (.tryLock 7), .system (.setLen 7 true),
      .system (.record 7 9), .look 7 true, .create 7 (.filled 5), .write 7 20, .write 7 32,
      .finish 7, .system (.create 7 1700000000 (.filled 0)), .system (.exit 7),
      .system (.open 8 .daemon), .system (.tryLock 8), .system (.setLen 8 true),
      .system (.record 8 9), .look 8 true, .read 8 true]
    (fun log _ => (∀ entry ∈ log, entry.event.blind = false) ∧
      (log.map Entry.output).count (.loaded (.filled 5)) = 2)
    (by decide +kernel)
  refine ⟨log, final, twice, ?_⟩
  have inside : Output.loaded (.filled 5) ∈ log.map Entry.output := by
    rw [← List.count_pos_iff, twice]
    exact Nat.two_pos
  obtain ⟨entry, member, loaded⟩ := List.mem_map.mp inside
  exact (identity_stable run seen).1 entry member _ loaded

end RaemoteServer.Identity
