import RaemoteServer.Auth.Expiry
import RaemoteServer.Discovery.Cycle
import RaemoteServer.Discovery.Filtering

/-! What the configured limits of a scan come to: the deadlines of its probes, and the semaphore
that bounds them. -/

namespace RaemoteServer.Discovery

open Text Collections Runs Http Auth

/-! The deadlines of `probe_http`. -/

/-- One turn of the loop: when it looks at the time left, when it connects, and, if the request
could be written, when it begins to read and what is read off. -/
structure Turn where
  looking : Reading
  connecting : Reading
  exchange : Option (Reading × Option RawResponse)

def Turn.answer (turn : Turn) : Option RawResponse := turn.exchange.bind Prod.snd

/-- `request`, where the sums may panic. -/
def timedRequest (turn : Turn) (budget : Duration) : Option (Option RawResponse) := do
  let _ ← addDuration turn.connecting.now budget
  match turn.exchange with
  | none => return none
  | some (reading, answer) =>
      let _ ← addDuration reading.now budget
      return answer

def timedLoop (join : Str → Str → Option Url) (origin : Origin) (deadline : Instant) :
    Nat → Str → List Turn → Option (List Dial × Option ProbeResult)
  | 0, _, _ => some ([], none)
  | _, _, [] => some ([], none)
  | fuel + 1, path, turn :: rest =>
      let remaining := deadline - turn.looking.now
      if remaining = 0 then some ([], none)
      else do
        match ← timedRequest turn remaining with
        | none => return ([⟨origin.host, origin.port, path⟩], none)
        | some response =>
            let next :=
              if 300 ≤ response.status ∧ response.status < 400 then
                response.location.bind (redirectPath join origin path)
              else none
            match next with
            | some next =>
                let (dials, result) ← timedLoop join origin deadline fuel next rest
                return (⟨origin.host, origin.port, path⟩ :: dials, result)
            | none =>
                return ([⟨origin.host, origin.port, path⟩],
                  some ⟨response.status, response.title, response.server⟩)

def timedProbe (join : Str → Str → Option Url) (origin : Origin) (reading : Reading)
    (budget : Duration) (turns : List Turn) : Option (List Dial × Option ProbeResult) := do
  let deadline ← addDuration reading.now budget
  timedLoop join origin deadline (maxRedirects + 1) ['/'] turns

/-- The answers of the turns that find time left. -/
def answersUntil (deadline : Instant) (turns : List Turn) : List (Option RawResponse) :=
  (turns.takeWhile (fun turn => turn.looking.now < deadline)).map Turn.answer

theorem timedRequest_eq (turn : Turn) {budget : Duration}
    (bound : budget ≤ 2 * UInt64.size * 1000000) : timedRequest turn budget = some turn.answer := by
  rw [timedRequest, addDuration_reading turn.connecting bound, Turn.answer]
  cases turn.exchange with
  | none => rfl
  | some exchange =>
      obtain ⟨reading, answer⟩ := exchange
      simp [addDuration_reading reading bound]

theorem timedLoop_eq (join : Str → Str → Option Url) (origin : Origin) {deadline : Instant}
    (bound : deadline ≤ 2 * UInt64.size * 1000000) (fuel : Nat) (path : Str) (turns : List Turn) :
    timedLoop join origin deadline fuel path turns =
      some (probeLoop join origin fuel path (answersUntil deadline turns)) := by
  induction fuel generalizing path turns with
  | zero => rfl
  | succ fuel ih =>
      cases turns with
      | nil => rfl
      | cons turn rest =>
          by_cases left : turn.looking.now < deadline
          · have time : deadline - turn.looking.now ≠ 0 := Nat.sub_ne_zero_of_lt left
            have within : deadline - turn.looking.now ≤ 2 * UInt64.size * 1000000 :=
              (Nat.sub_le _ _).trans bound
            have answers : answersUntil deadline (turn :: rest) =
                turn.answer :: answersUntil deadline rest := by
              simp [answersUntil, left]
            rw [timedLoop, if_neg time, timedRequest_eq turn within, answers]
            cases turn.answer with
            | none => rfl
            | some response =>
                rw [probeLoop]
                simp only [Option.bind_eq_bind, Option.bind_some]
                generalize (if 300 ≤ response.status ∧ response.status < 400 then
                  response.location.bind (redirectPath join origin path) else none) = next
                cases next with
                | none => rfl
                | some next =>
                    simp only [ih]
                    rfl
          · have none : deadline - turn.looking.now = 0 :=
              Nat.sub_eq_zero_of_le (Nat.not_lt.mp left)
            have answers : answersUntil deadline (turn :: rest) = [] := by
              simp [answersUntil, left]
            rw [timedLoop, if_pos none, answers]
            rfl

/-- A probe whose budget was configured in milliseconds computes no sum out of range, and asks what
the probe without a clock asks. -/
theorem timedProbe_eq (join : Str → Str → Option Url) (origin : Origin) (reading : Reading)
    {budget : Duration} (bound : budget ≤ UInt64.size * 1000000) (turns : List Turn) :
    timedProbe join origin reading budget turns =
      some (probeHttp join origin (answersUntil (reading.now + budget) turns)) := by
  have clock := reading.now_lt
  have sum : reading.now + budget ≤ 2 * UInt64.size * 1000000 := by
    calc reading.now + budget
      _ ≤ 2 ^ 63 + UInt64.size * 1000000 := Nat.add_le_add clock.le bound
      _ ≤ 2 * UInt64.size * 1000000 := by decide
  rw [timedProbe, addDuration_reading reading (bound.trans (by decide))]
  exact timedLoop_eq join origin sum _ _ turns

theorem probeTimeout_bound (config : Config) :
    (Settings.of config).probeTimeout ≤ UInt64.size * 1000000 := by
  apply Nat.mul_le_mul_right
  exact Nat.max_le.mpr ⟨config.discovery.probeTimeoutMs.toNat_lt.le, by decide⟩

/-! The semaphore. -/

/-- `tokio::sync::Semaphore` -/
structure Semaphore where
  permits : Nat
  bounded : permits ≤ maxPermits
  deriving DecidableEq

/-- It panics above the largest number of permits. -/
def Semaphore.new (permits : Nat) : Option Semaphore :=
  if bounded : permits ≤ maxPermits then some ⟨permits, bounded⟩ else none

theorem Semaphore.new_isSome {permits : Nat} :
    (Semaphore.new permits).isSome = true ↔ permits ≤ maxPermits := by
  unfold Semaphore.new
  split <;> simp [*]

theorem Semaphore.new_eq_none {permits : Nat} :
    Semaphore.new permits = none ↔ maxPermits < permits := by
  rw [← Option.not_isSome_iff_eq_none, new_isSome, Nat.not_le]

theorem maxConcurrent_le (config : Config) :
    (Settings.of config).maxConcurrent.toNat ≤ maxPermits ↔
      config.discovery.maxConcurrentProbes.toNat ≤ maxPermits := by
  have least : (1 : UInt64).toNat ≤ maxPermits := by decide
  change (if config.discovery.maxConcurrentProbes ≤ 1 then 1
    else config.discovery.maxConcurrentProbes).toNat ≤ maxPermits ↔ _
  split
  · rename_i small
    exact ⟨fun _ => (UInt64.le_iff_toNat_le.mp small).trans least, fun _ => least⟩
  · exact Iff.rfl

/-- Discovery is on, and its filter lets some socket pass. -/
def Settings.Searches (settings : Settings) : Prop :=
  settings.enabled = true ∧ ∃ l : Listener, l.considered = true ∧ settings.filter.refusal l = none

/-- The semaphore can be built, or no scan ever needs it. -/
def Settings.Fits (settings : Settings) : Prop :=
  settings.Searches → settings.maxConcurrent.toNat ≤ maxPermits

theorem startProbes_crashed {engine : Engine} {settings : Settings} {outcome : FilterOutcome} :
    (engine.startProbes settings outcome).phase = .crashed ↔
      (∃ candidate ∈ outcome.candidates,
        needsProbe settings.recheck engine.now (engine.startProbes settings outcome).cache
          candidate = true) ∧ Semaphore.new settings.maxConcurrent.toNat = none := by
  have due (check : Candidate → Bool) : outcome.candidates.filter check ≠ [] ↔
      ∃ candidate ∈ outcome.candidates, check candidate = true := by
    simp [List.filter_eq_nil_iff]
  rw [Semaphore.new_eq_none]
  simp only [Engine.startProbes, ← due]
  split
  · rename_i crashes
    exact ⟨fun _ => crashes, fun _ => rfl⟩
  · rename_i calm
    refine iff_of_false ?_ calm
    intro same
    cases same

theorem enumerate_searches {settings : Settings} {attributed : List Listener}
    {tcp tcp6 : Option Str} {candidate : Candidate}
    (member : candidate ∈ (enumerate settings attributed tcp tcp6).candidates) :
    ∃ l : Listener, l.considered = true ∧ settings.filter.refusal l = none := by
  obtain ⟨l, -, counted, passes, -⟩ :=
    mem_candidate_origins.mp (List.mem_map_of_mem member)
  exact ⟨l, counted, refusal_eq_none.mpr passes⟩

/-- No scan has crashed, and one that is under way can build its semaphore. -/
structure Fitting (engine : Engine) : Prop where
  sound : engine.phase ≠ .crashed
  fits : ∀ settings, engine.phase = .starting settings ∨ engine.phase = .enumerating settings →
    settings.enabled = true ∧ settings.Fits

variable {join : Str → Str → Option Url} {first final : Engine} {log : List ScanEntry}

theorem Fitting.step {before after : Engine} {event : ScanEvent} {dials : List Dial}
    (fitting : Fitting before) (allowed : event = .begin → (Settings.of before.config).Fits)
    (stepped : Stepped join before event dials after) : Fitting after := by
  cases stepped with
  | reload config => exact ⟨fitting.sound, fitting.fits⟩
  | advance elapsed => exact ⟨fitting.sound, fitting.fits⟩
  | begin phase on =>
      refine ⟨by simp, ?_⟩
      rintro settings (same | same)
      · cases same
        exact ⟨on, allowed rfl⟩
      · cases same
  | spawn phase =>
      refine ⟨by simp, ?_⟩
      rintro settings (same | same)
      · cases same
      · cases same
        exact fitting.fits _ (Or.inl phase)
  | @enumerated settings attributed tcp tcp6 phase =>
      obtain ⟨on, fits⟩ := fitting.fits settings (Or.inr phase)
      refine ⟨?_, ?_⟩
      · intro crashed
        obtain ⟨⟨candidate, member, -⟩, panics⟩ := startProbes_crashed.mp crashed
        have bound := fits ⟨on, enumerate_searches member⟩
        have beyond := Semaphore.new_eq_none.mp panics
        omega
      · intro other same
        simp only [Engine.startProbes] at same
        split at same <;> simp at same
  | joined candidate exchanges phase member =>
      rw [conclude_eq]
      exact ⟨by simp, by simp⟩
  | _ => exact ⟨by simp, by simp⟩

/-- No scan crashes while every cycle begins under a config whose semaphore can be built. -/
theorem scan_sound (run : Run (scanner join) first log final) (idle : first.phase = .waiting)
    (every : ∀ entry ∈ log, entry.event = .begin → (Settings.of entry.before.config).Fits) :
    final.phase ≠ .crashed := by
  have fitting := run.invariant_of_allowed Fitting
    (fun entry => entry.event = .begin → (Settings.of entry.before.config).Fits) every
    ⟨by simp [idle], by simp [idle]⟩
    (fun before event dials after taken allowed fitting => fitting.step allowed (stepped taken))
  exact fitting.sound

/-- The first cycle of a daemon whose semaphore cannot be built, once such a socket listens. -/
theorem first_scan_crashes (join : Str → Str → Option Url) {config : Config} (now : Nat)
    {l : Listener} (on : (Settings.of config).enabled = true) (counted : l.considered = true)
    (passes : (Settings.of config).filter.refusal l = none)
    (beyond : maxPermits < (Settings.of config).maxConcurrent.toNat) :
    ∃ log final, Run (scanner join) (.start config now) log final ∧
      (∀ entry ∈ log, entry.event = .begin → entry.before.config = config) ∧
      final.phase = .crashed := by
  let settings := Settings.of config
  let start := Engine.start config now
  let starting : Engine := { start with phase := .starting settings }
  let enumerating : Engine := { start with phase := .enumerating settings }
  have begins : (scanner join).step start .begin = some ([], starting) := by
    simp [scanner, step, start, Engine.start, on, starting, settings]
  have spawns : (scanner join).step starting .spawn = some ([], enumerating) := rfl
  have enumerates : (scanner join).step enumerating (.enumerated [l] none none) =
      some ([], enumerating.startProbes settings (enumerate settings [l] none none)) := rfl
  refine ⟨_, _, ((Run.start.step begins).step spawns).step enumerates, by simp [start,
    Engine.start], ?_⟩
  have listed : l ∈ settings.table [l] none none := by
    unfold Settings.table
    split
    · exact List.mem_append_left _ List.mem_cons_self
    · exact List.mem_cons_self
  have found : l.origin ∈ (enumerate settings [l] none none).candidates.map Candidate.origin :=
    mem_candidate_origins.mpr ⟨l, listed, counted, refusal_eq_none.mp passes, rfl⟩
  obtain ⟨candidate, member, -⟩ := List.mem_map.mp found
  refine startProbes_crashed.mpr ⟨⟨candidate, member, ?_⟩, Semaphore.new_eq_none.mpr beyond⟩
  rfl

end RaemoteServer.Discovery
