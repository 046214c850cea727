import RaemoteServer.Library.Notify
import RaemoteServer.Library.Runs

/-! Two tasks wait on the one `Notify` that an IPC `Shutdown` request signals: `daemon::run`
and the loop of `DiscoveryEngine::run`. -/

namespace RaemoteServer.Shutdown

open Runs

inductive Task where
  | daemon
  | discovery
  deriving DecidableEq

/-- How far `daemon::run` is. -/
inductive Daemon where
  | starting
  /-- At `shutdown.notified().await`; the IPC server runs. -/
  | awaiting
  | left
  deriving DecidableEq

/-- How far the discovery loop is. -/
inductive Discovery where
  | scanning
  /-- At its `select!`. -/
  | selecting
  | stopped
  deriving DecidableEq

structure System where
  shutdown : Notify Task
  daemon : Daemon
  discovery : Discovery
  deriving DecidableEq

inductive Event where
  | serveIpc
  | pollDaemon
  | scanned
  | pollDiscovery
  /-- The trigger or the interval completes the `select!`, which drops `shutdown.notified()`. -/
  | rescan
  | requestShutdown
  /-- `discovery_handle.abort()` -/
  | abortDiscovery
  deriving DecidableEq

inductive Effect where
  | none
  | pending
  | leaves
  | stops
  deriving DecidableEq

def start : System := ⟨.new, .starting, .scanning⟩

def step (system : System) : Event → Option (Effect × System)
  | .serveIpc =>
      if system.daemon = .starting then some (.none, { system with daemon := .awaiting }) else none
  | .pollDaemon =>
      if system.daemon = .awaiting then
        match system.shutdown.poll .daemon with
        | (true, shutdown) => some (.leaves, { system with shutdown, daemon := .left })
        | (false, shutdown) => some (.pending, { system with shutdown })
      else none
  | .scanned =>
      if system.discovery = .scanning then some (.none, { system with discovery := .selecting })
      else none
  | .pollDiscovery =>
      if system.discovery = .selecting then
        match system.shutdown.poll .discovery with
        | (true, shutdown) => some (.stops, { system with shutdown, discovery := .stopped })
        | (false, shutdown) => some (.pending, { system with shutdown })
      else none
  | .rescan =>
      if system.discovery = .selecting then
        some (.none, { system with
          shutdown := system.shutdown.cancel .discovery, discovery := .scanning })
      else none
  | .requestShutdown =>
      if system.daemon = .starting then none
      else some (.none, { system with shutdown := system.shutdown.notifyOne })
  | .abortDiscovery =>
      if system.daemon = .left then
        some (.none, { system with
          shutdown := system.shutdown.cancel .discovery, discovery := .stopped })
      else none

def machine : Machine System Event Effect := ⟨step⟩

/-- What one step can do. -/
inductive Stepped (before : System) : Event → Effect → System → Prop
  | serveIpc (phase : before.daemon = .starting) :
      Stepped before .serveIpc .none { before with daemon := .awaiting }
  | leaves (phase : before.daemon = .awaiting)
      (ready : Task.daemon ∈ before.shutdown.woken ∨ before.shutdown.permit = true) :
      Stepped before .pollDaemon .leaves
        { before with shutdown := (before.shutdown.poll .daemon).2, daemon := .left }
  | waits (phase : before.daemon = .awaiting)
      (pending : (before.shutdown.poll .daemon).1 = false) :
      Stepped before .pollDaemon .pending
        { before with shutdown := (before.shutdown.poll .daemon).2 }
  | scanned (phase : before.discovery = .scanning) :
      Stepped before .scanned .none { before with discovery := .selecting }
  | stops (phase : before.discovery = .selecting)
      (ready : Task.discovery ∈ before.shutdown.woken ∨ before.shutdown.permit = true) :
      Stepped before .pollDiscovery .stops
        { before with shutdown := (before.shutdown.poll .discovery).2, discovery := .stopped }
  | listens (phase : before.discovery = .selecting)
      (pending : (before.shutdown.poll .discovery).1 = false) :
      Stepped before .pollDiscovery .pending
        { before with shutdown := (before.shutdown.poll .discovery).2 }
  | rescan (phase : before.discovery = .selecting) :
      Stepped before .rescan .none
        { before with shutdown := before.shutdown.cancel .discovery, discovery := .scanning }
  | requestShutdown (phase : before.daemon ≠ .starting) :
      Stepped before .requestShutdown .none
        { before with shutdown := before.shutdown.notifyOne }
  | abortDiscovery (phase : before.daemon = .left) :
      Stepped before .abortDiscovery .none
        { before with shutdown := before.shutdown.cancel .discovery, discovery := .stopped }

theorem step_cases {before after : System} {event : Event} {effect : Effect}
    (taken : machine.step before event = some (effect, after)) :
    Stepped before event effect after := by
  cases event with
  | serveIpc =>
      simp only [machine, step, Option.ite_none_right_eq_some, Option.some.injEq,
        Prod.mk.injEq] at taken
      obtain ⟨phase, rfl, rfl⟩ := taken
      exact .serveIpc phase
  | pollDaemon =>
      simp only [machine, step, Option.ite_none_right_eq_some] at taken
      obtain ⟨phase, taken⟩ := taken
      cases polled : before.shutdown.poll .daemon with
      | mk ready shutdown =>
          obtain rfl : (before.shutdown.poll .daemon).2 = shutdown := by rw [polled]
          rw [polled] at taken
          cases ready with
          | true =>
              cases taken
              exact .leaves phase (Notify.poll_ready.mp (by rw [polled]))
          | false =>
              cases taken
              exact .waits phase (by rw [polled])
  | scanned =>
      simp only [machine, step, Option.ite_none_right_eq_some, Option.some.injEq,
        Prod.mk.injEq] at taken
      obtain ⟨phase, rfl, rfl⟩ := taken
      exact .scanned phase
  | pollDiscovery =>
      simp only [machine, step, Option.ite_none_right_eq_some] at taken
      obtain ⟨phase, taken⟩ := taken
      cases polled : before.shutdown.poll .discovery with
      | mk ready shutdown =>
          obtain rfl : (before.shutdown.poll .discovery).2 = shutdown := by rw [polled]
          rw [polled] at taken
          cases ready with
          | true =>
              cases taken
              exact .stops phase (Notify.poll_ready.mp (by rw [polled]))
          | false =>
              cases taken
              exact .listens phase (by rw [polled])
  | rescan =>
      simp only [machine, step, Option.ite_none_right_eq_some, Option.some.injEq,
        Prod.mk.injEq] at taken
      obtain ⟨phase, rfl, rfl⟩ := taken
      exact .rescan phase
  | requestShutdown =>
      simp only [machine, step, Option.ite_none_left_eq_some, Option.some.injEq,
        Prod.mk.injEq] at taken
      obtain ⟨phase, rfl, rfl⟩ := taken
      exact .requestShutdown phase
  | abortDiscovery =>
      simp only [machine, step, Option.ite_none_right_eq_some, Option.some.injEq,
        Prod.mk.injEq] at taken
      obtain ⟨phase, rfl, rfl⟩ := taken
      exact .abortDiscovery phase

/-! Where a wake-up can go. -/

/-- The daemon has been woken. -/
def Released (system : System) : Prop :=
  system.daemon = .left ∨ Task.daemon ∈ system.shutdown.woken

instance (system : System) : Decidable (Released system) :=
  inferInstanceAs (Decidable (_ ∨ _))

/-- The daemon's next poll ends its wait. -/
def CanLeave (system : System) : Prop :=
  system.daemon = .left ∨ (step system .pollDaemon).any (fun result => result.1 = .leaves) = true

instance (system : System) : Decidable (CanLeave system) :=
  inferInstanceAs (Decidable (_ ∨ _))

abbrev LogEntry := Entry System Event Effect
abbrev Log := History System Event Effect

/-- The discovery loop takes a wake-up that the daemon still waits for. -/
def Swallows (entry : LogEntry) : Prop := entry.output = .stops ∧ ¬ Released entry.before

instance (entry : LogEntry) : Decidable (Swallows entry) :=
  inferInstanceAs (Decidable (_ ∧ _))

def Requested (log : Log) : Prop := ∃ entry ∈ log, entry.event = .requestShutdown

instance (log : Log) : Decidable (Requested log) :=
  inferInstanceAs (Decidable (∃ entry ∈ log, entry.event = .requestShutdown))

/-- No request is handled while the discovery loop is first in line, and the loop does not
come to its `select!` while a permit is stored, unless the daemon has been woken before. -/
def Undisturbed (entry : LogEntry) : Prop :=
  (entry.event = .requestShutdown → entry.before.shutdown.waiters.head? = some .discovery →
      Released entry.before) ∧
    (entry.event = .pollDiscovery → entry.before.shutdown.permit = true → Released entry.before)

instance (entry : LogEntry) : Decidable (Undisturbed entry) :=
  inferInstanceAs (Decidable (_ ∧ _))

/-- A task is known to the `Notify` only while it is at its `notified()`. -/
structure Sound (system : System) : Prop where
  daemon : Task.daemon ∈ system.shutdown.waiters ∨ Task.daemon ∈ system.shutdown.woken →
    system.daemon = .awaiting
  discovery : Task.discovery ∈ system.shutdown.waiters ∨ Task.discovery ∈ system.shutdown.woken →
    system.discovery = .selecting

theorem waiters_or_woken {notify : Notify Task} {task : Task}
    (known : task ∈ notify.notifyOne.waiters ∨ task ∈ notify.notifyOne.woken) :
    task ∈ notify.waiters ∨ task ∈ notify.woken := by
  rcases known with waits | woken
  · rw [Notify.waiters_notifyOne] at waits
    exact Or.inl (List.mem_of_mem_tail waits)
  · rcases Notify.mem_woken_notifyOne.mp woken with old | first
    · exact Or.inr old
    · exact Or.inl (List.mem_of_mem_head? first)

theorem known_cancel {notify : Notify Task} {task other : Task}
    (known : task ∈ (notify.cancel other).waiters ∨ task ∈ (notify.cancel other).woken) :
    task ∈ notify.waiters ∨ task ∈ notify.woken := by
  rcases known with waits | woken
  · exact Or.inl (Notify.mem_waiters_cancel waits)
  · exact (Notify.mem_woken_cancel woken).symm

theorem known_poll {notify : Notify Task} {task other : Task} (different : task ≠ other)
    (known : task ∈ (notify.poll other).2.waiters ∨ task ∈ (notify.poll other).2.woken) :
    task ∈ notify.waiters ∨ task ∈ notify.woken := by
  rcases known with waits | woken
  · exact (Notify.mem_waiters_poll waits).imp id (fun own => absurd own.1 different)
  · rw [Notify.woken_poll] at woken
    exact Or.inr (List.mem_of_mem_erase woken)

theorem sound_step {before after : System} {event : Event} {effect : Effect}
    (stepped : Stepped before event effect after) (sound : Sound before) : Sound after := by
  cases stepped with
  | serveIpc phase => exact ⟨fun _ => rfl, sound.discovery⟩
  | leaves phase ready =>
      have forgotten := Notify.poll_forgets (Notify.poll_ready.mpr ready)
      refine ⟨fun known => ?_, fun known => sound.discovery (known_poll (by decide) known)⟩
      exact (known.elim forgotten.1 forgotten.2).elim
  | waits phase pending =>
      exact ⟨fun _ => phase, fun known => sound.discovery (known_poll (by decide) known)⟩
  | scanned phase => exact ⟨sound.daemon, fun _ => rfl⟩
  | stops phase ready =>
      have forgotten := Notify.poll_forgets (Notify.poll_ready.mpr ready)
      refine ⟨fun known => sound.daemon (known_poll (by decide) known), fun known => ?_⟩
      exact (known.elim forgotten.1 forgotten.2).elim
  | listens phase pending =>
      exact ⟨fun known => sound.daemon (known_poll (by decide) known), fun _ => phase⟩
  | rescan phase =>
      have forgotten := Notify.cancel_forgets before.shutdown .discovery
      refine ⟨fun known => sound.daemon (known_cancel known), fun known => ?_⟩
      exact (known.elim forgotten.1 forgotten.2).elim
  | requestShutdown phase =>
      exact ⟨fun known => sound.daemon (waiters_or_woken known),
        fun known => sound.discovery (waiters_or_woken known)⟩
  | abortDiscovery phase =>
      have forgotten := Notify.cancel_forgets before.shutdown .discovery
      refine ⟨fun known => sound.daemon (known_cancel known), fun known => ?_⟩
      exact (known.elim forgotten.1 forgotten.2).elim

/-! Undisturbed runs. -/

/-- A wake-up reached the daemon, or is stored for its first poll. -/
structure Calm (requested : Prop) (system : System) : Prop where
  sound : Sound system
  yields : Task.discovery ∈ system.shutdown.woken → Released system
  kept : requested → Released system ∨
    system.daemon = .awaiting ∧ system.shutdown.permit = true

theorem released_step {before after : System} {event : Event} {effect : Effect}
    (stepped : Stepped before event effect after) (released : Released before) :
    Released after := by
  have woken (different : Task.daemon ≠ .discovery) (member : Task.daemon ∈ before.shutdown.woken) :
      Task.daemon ∈ before.shutdown.woken.erase .discovery :=
    (List.mem_erase_of_ne different).mpr member
  cases stepped with
  | serveIpc phase =>
      rcases released with left | member
      · rw [phase] at left
        cases left
      · exact Or.inr member
  | leaves => exact Or.inl rfl
  | waits phase pending =>
      rcases released with left | member
      · exact Or.inl left
      · exact absurd member (Notify.poll_pending pending).1
  | scanned => exact released
  | stops => exact released.imp id (fun member => by simpa using woken (by decide) member)
  | listens => exact released.imp id (fun member => by simpa using woken (by decide) member)
  | rescan => exact released.imp id (Notify.woken_cancel (by decide))
  | requestShutdown =>
      exact released.imp id (fun member => Notify.mem_woken_notifyOne.mpr (Or.inl member))
  | abortDiscovery => exact released.imp id (Notify.woken_cancel (by decide))

theorem calm_step {before after : System} {event : Event} {effect : Effect} {requested : Prop}
    (stepped : Stepped before event effect after)
    (undisturbed : Undisturbed ⟨before, event, effect, after⟩) (calm : Calm requested before) :
    Calm (event = .requestShutdown ∨ requested) after := by
  have sound := sound_step stepped calm.sound
  have released := released_step stepped
  -- a wake-up that has reached the daemon stays with it; what is left is the case of none
  by_cases done : Released before
  · exact ⟨sound, fun _ => released done, fun _ => Or.inl (released done)⟩
  · have quiet : Task.discovery ∉ before.shutdown.woken := fun woken => done (calm.yields woken)
    have kept : requested → before.daemon = .awaiting ∧ before.shutdown.permit = true :=
      fun earlier => (calm.kept earlier).resolve_left done
    cases stepped with
    | serveIpc phase =>
        refine ⟨sound, fun woken => absurd woken quiet, ?_⟩
        rintro (impossible | requested)
        · cases impossible
        · rw [phase] at kept
          cases (kept requested).1
    | leaves phase ready => exact ⟨sound, fun _ => Or.inl rfl, fun _ => Or.inl (Or.inl rfl)⟩
    | waits phase pending =>
        have none := (Notify.poll_pending pending).2
        refine ⟨sound, fun woken => ?_, ?_⟩
        · rw [Notify.woken_poll] at woken
          exact absurd (List.mem_of_mem_erase woken) quiet
        · rintro (impossible | requested)
          · cases impossible
          · exact absurd (kept requested).2 none
    | scanned phase =>
        refine ⟨sound, fun woken => absurd woken quiet, ?_⟩
        rintro (impossible | requested)
        · cases impossible
        · exact calm.kept requested
    | stops phase ready =>
        rcases ready with woken | stored
        · exact absurd woken quiet
        · exact absurd (undisturbed.2 rfl stored) done
    | listens phase pending =>
        refine ⟨sound, fun woken => ?_, ?_⟩
        · rw [Notify.woken_poll] at woken
          exact absurd (List.mem_of_mem_erase woken) quiet
        · rintro (impossible | requested)
          · cases impossible
          · exact absurd (kept requested).2 (Notify.poll_pending pending).2
    | rescan phase =>
        have forgotten := Notify.cancel_forgets before.shutdown .discovery
        refine ⟨sound, fun woken => absurd woken forgotten.2, ?_⟩
        rintro (impossible | requested)
        · cases impossible
        · obtain ⟨awaiting, stored⟩ := kept requested
          exact Or.inr ⟨awaiting, Notify.permit_cancel stored⟩
    | requestShutdown phase =>
        have other : before.shutdown.waiters.head? ≠ some .discovery := fun first =>
          done (undisturbed.1 rfl first)
        refine ⟨sound, fun woken => ?_, fun _ => ?_⟩
        · rcases Notify.mem_woken_notifyOne.mp woken with old | first
          · exact absurd old quiet
          · exact absurd first other
        · cases waiting : before.shutdown.waiters with
          | nil =>
              refine Or.inr ⟨?_, by simp [waiting]⟩
              cases at' : before.daemon with
              | starting => exact absurd at' phase
              | awaiting => rfl
              | left => exact absurd (Or.inl at') done
          | cons first rest =>
              cases first with
              | daemon => exact Or.inl (Or.inr (by simp [waiting]))
              | discovery => exact absurd (by simp [waiting]) other
    | abortDiscovery phase => exact absurd (Or.inl phase) done

theorem calm_run {log : Log} {system : System} (run : Run machine start log system)
    (every : ∀ entry ∈ log, Undisturbed entry) : Calm (Requested log) system := by
  induction run with
  | start =>
      refine ⟨⟨?_, ?_⟩, ?_, ?_⟩
      · simp [start, Notify.new]
      · simp [start, Notify.new]
      · simp [start, Notify.new]
      · simp [Requested]
  | step earlier taken ih =>
      obtain ⟨newest, older⟩ := List.forall_mem_cons.mp every
      have calm := calm_step (step_cases taken) newest (ih older)
      refine ⟨calm.sound, calm.yields, fun requested => calm.kept ?_⟩
      simpa [Requested] using requested

theorem sound_run {log : Log} {system : System} (run : Run machine start log system) :
    Sound system := by
  refine run.invariant Sound ?_ (fun _ _ _ _ taken => sound_step (step_cases taken))
  exact ⟨by simp [start, Notify.new], by simp [start, Notify.new]⟩

theorem can_leave {system : System} (sound : Sound system)
    (kept : Released system ∨ system.daemon = .awaiting ∧ system.shutdown.permit = true) :
    CanLeave system := by
  have polls (awaiting : system.daemon = .awaiting)
      (ready : Task.daemon ∈ system.shutdown.woken ∨ system.shutdown.permit = true) :
      CanLeave system := by
    have done := Notify.poll_ready.mpr ready
    cases polled : system.shutdown.poll .daemon with
    | mk ready shutdown =>
        rw [polled] at done
        obtain rfl : ready = true := done
        exact Or.inr (by simp [step, awaiting, polled])
  rcases kept with (left | woken) | ⟨awaiting, stored⟩
  · exact Or.inl left
  · exact polls (sound.daemon (Or.inr woken)) (Or.inl woken)
  · exact polls awaiting (Or.inr stored)

theorem swallows_undisturbed {before after : System} {event : Event} {effect : Effect}
    {requested : Prop} (stepped : Stepped before event effect after)
    (undisturbed : Undisturbed ⟨before, event, effect, after⟩) (calm : Calm requested before) :
    ¬ Swallows ⟨before, event, effect, after⟩ := by
  rintro ⟨stops, waits⟩
  cases stepped with
  | stops phase ready =>
      rcases ready with woken | stored
      · exact waits (calm.yields woken)
      · exact waits (undisturbed.2 rfl stored)
  | _ => cases stops

/-- A disturbed step lets the discovery loop take the wake-up, at once or at its next poll. -/
theorem disturbed_swallows {before after : System} {event : Event} {effect : Effect}
    (stepped : Stepped before event effect after) (sound : Sound before)
    (disturbed : ¬ Undisturbed ⟨before, event, effect, after⟩) :
    Swallows ⟨before, event, effect, after⟩ ∨
      ¬ Released after ∧ (step after .pollDiscovery).any
          (fun result => result.1 = .stops) = true := by
  rcases not_and_or.mp disturbed with request | select
  · simp only [Classical.not_imp] at request
    obtain ⟨rfl, first, waits⟩ := request
    cases stepped with
    | requestShutdown phase =>
        have selecting := sound.discovery (Or.inl (List.mem_of_mem_head? first))
        have woken : Task.discovery ∈ before.shutdown.notifyOne.woken :=
          Notify.mem_woken_notifyOne.mpr (Or.inr first)
        refine Or.inr ⟨?_, ?_⟩
        · rintro (left | member)
          · exact waits (Or.inl left)
          · rcases Notify.mem_woken_notifyOne.mp member with old | other
            · exact waits (Or.inr old)
            · cases first.symm.trans other
        · have done := Notify.poll_ready.mpr (Or.inl woken)
          cases polled : before.shutdown.notifyOne.poll .discovery with
          | mk ready shutdown =>
              rw [polled] at done
              obtain rfl : ready = true := done
              simp [step, selecting, polled]
  · simp only [Classical.not_imp] at select
    obtain ⟨rfl, stored, waits⟩ := select
    cases stepped with
    | stops phase ready => exact Or.inl ⟨rfl, waits⟩
    | listens phase pending => exact absurd stored (Notify.poll_pending pending).2

/-- In an undisturbed run the discovery loop takes no wake-up from the daemon, and after a
request the daemon can leave; any disturbed step puts that at risk. -/
theorem shutdown_reaches_daemon {log : Log} {system : System} (run : Run machine start log system) :
    ((∀ entry ∈ log, Undisturbed entry) →
        (∀ entry ∈ log, ¬ Swallows entry) ∧ (Requested log → CanLeave system)) ∧
      (∀ entry ∈ log, ¬ Undisturbed entry → Swallows entry ∨
        ¬ Released entry.after ∧
          (step entry.after .pollDiscovery).any (fun result => result.1 = .stops) = true) := by
  refine ⟨fun every => ⟨?_, ?_⟩, ?_⟩
  · intro entry member
    obtain ⟨later, earlier, rfl⟩ := List.append_of_mem member
    obtain ⟨before, taken⟩ := run.split
    have calm := calm_run before (fun older inside => every older (by simp [inside]))
    exact swallows_undisturbed (step_cases taken) (every entry member) calm
  · intro requested
    have calm := calm_run run every
    exact can_leave calm.sound (calm.kept requested)
  · intro entry member disturbed
    obtain ⟨later, earlier, rfl⟩ := List.append_of_mem member
    obtain ⟨before, taken⟩ := run.split
    exact disturbed_swallows (step_cases taken) (sound_run before) disturbed

/-- The daemon is in line before the first scan is over. -/
def slowScan : List Event :=
  [.serveIpc, .pollDaemon, .scanned, .pollDiscovery, .requestShutdown]

theorem slow_scan_shutdown : ∃ log system,
    machine.exec [] start slowScan = some (log, system) ∧
    (∀ entry ∈ log, ¬ Swallows entry) ∧ CanLeave system := by
  obtain ⟨log, system, executed, run, every, requested⟩ := exec_checked machine start slowScan
    (fun log _ => (∀ entry ∈ log, Undisturbed entry) ∧ Requested log)
    (by decide : (machine.exec [] start slowScan).any _)
  obtain ⟨unswallowed, leaves⟩ := (shutdown_reaches_daemon run).1 every
  exact ⟨log, system, executed, unswallowed, leaves requested⟩

/-- The first scan is over before the daemon comes to its wait, as with discovery disabled. -/
def quickScan : List Event :=
  [.scanned, .pollDiscovery, .serveIpc, .pollDaemon, .requestShutdown, .pollDiscovery]

theorem quick_scan_swallows : ∃ log system,
    machine.exec [] start quickScan = some (log, system) ∧
    (∃ entry ∈ log, Swallows entry) ∧ Requested log ∧ ¬ CanLeave system ∧
    system.daemon = .awaiting ∧ system.discovery = .stopped := by
  obtain ⟨log, system, executed, -, checked⟩ := exec_checked machine start quickScan
    (fun log system => (∃ entry ∈ log, Swallows entry) ∧ Requested log ∧ ¬ CanLeave system ∧
      system.daemon = .awaiting ∧ system.discovery = .stopped)
    (by decide : (machine.exec [] start quickScan).any _)
  exact ⟨log, system, executed, checked⟩

end RaemoteServer.Shutdown
