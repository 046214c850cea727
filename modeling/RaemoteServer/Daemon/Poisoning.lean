import RaemoteServer.Daemon.Limiters
import RaemoteServer.Discovery.ProbeLimits
import RaemoteServer.Library.Mutex

/-! The mutex around the cache of limiters. A limiter is built under the lock, and building one may
panic. -/

namespace RaemoteServer.Daemon.Poisoning

open Text Collections Runs Auth
open Discovery (Semaphore maxPermits Semaphore.new_isSome)

/-! Building a limiter. -/

def fromMillis (millis : Nat) : Duration := millis * 1000000
def asMillis (duration : Duration) : Nat := duration / 1000000

/-- `RateLimiter::builder()` of the leaky bucket. It panics for amounts of zero, for an interval
that is no positive `u64` of milliseconds, and where the end of the first interval is out of range.
-/
structure RateLimiterBuilder (Rate : Type) where
  build : (initial refill : UInt64) → (interval : Duration) → (max : UInt64) → Reading → Option Rate
  builds : ∀ initial refill interval max reading, 0 < refill → 0 < max →
    0 < asMillis interval → asMillis interval < UInt64.size →
      (addDuration reading.now interval).isSome = true →
        (build initial refill interval max reading).isSome = true

structure NodeLimiter (Rate : Type) where
  semaphore : Semaphore
  rate : Rate
  deriving DecidableEq

variable {Rate : Type} (builder : RateLimiterBuilder Rate)

def NodeLimiter.new (reading : Reading) (maxConcurrent rateRefill : UInt64)
    (rateInterval : Duration) (rateMax : UInt64) : Option (NodeLimiter Rate) := do
  let semaphore ← Semaphore.new maxConcurrent.toNat
  let rate ← builder.build rateRefill rateRefill rateInterval rateMax reading
  return ⟨semaphore, rate⟩

def NodeLimiter.of (reading : Reading) (serve : ServeConfig) : Option (NodeLimiter Rate) :=
  NodeLimiter.new builder reading serve.maxConcurrentStreams serve.rateLimit.refill
    (fromMillis serve.rateLimit.intervalMs.toNat) serve.rateLimit.max

theorem validate_rate {config : Config} (valid : validate config = .ok ()) :
    config.serve.rateLimit.refill ≠ 0 ∧ config.serve.rateLimit.intervalMs ≠ 0 ∧
      config.serve.rateLimit.max ≠ 0 := by
  have positive {value : UInt64} {message : String} (clean : problem (value == 0) message = []) :
      value ≠ 0 := by
    rintro rfl
    cases clean
  have clean := validate_ok.mp valid
  simp only [problems, List.append_eq_nil_iff] at clean
  obtain ⟨⟨⟨⟨⟨⟨⟨⟨-, refill⟩, interval⟩, max⟩, -⟩, -⟩, -⟩, -⟩, -⟩ := clean
  exact ⟨positive refill, positive interval, positive max⟩

theorem asMillis_fromMillis (millis : Nat) : asMillis (fromMillis millis) = millis :=
  Nat.mul_div_cancel millis (by decide)

variable {config : Config}

/-- Of what validation lets through, only the number of streams can keep a limiter from being
built. -/
theorem nodeLimiter_isSome (valid : validate config = .ok ()) (reading : Reading) :
    (NodeLimiter.of builder reading config.serve).isSome = true ↔
      config.serve.maxConcurrentStreams.toNat ≤ maxPermits := by
  obtain ⟨refill, interval, max⟩ := validate_rate valid
  have within : fromMillis config.serve.rateLimit.intervalMs.toNat ≤ 2 * UInt64.size * 1000000 := by
    apply Nat.mul_le_mul_right
    exact config.serve.rateLimit.intervalMs.toNat_lt.le.trans (by decide)
  have rate := builder.builds config.serve.rateLimit.refill config.serve.rateLimit.refill
    (fromMillis config.serve.rateLimit.intervalMs.toNat) config.serve.rateLimit.max reading
    (UInt64.pos_iff_ne_zero.mpr refill) (UInt64.pos_iff_ne_zero.mpr max)
    (by
      rw [asMillis_fromMillis]
      exact Nat.pos_of_ne_zero (fun zero => interval (UInt64.toNat_inj.mp zero)))
    (by
      rw [asMillis_fromMillis]
      exact config.serve.rateLimit.intervalMs.toNat_lt)
    (by rw [addDuration_reading reading within]; rfl)
  obtain ⟨built, shape⟩ := Option.isSome_iff_exists.mp rate
  rw [← Semaphore.new_isSome]
  simp only [NodeLimiter.of, NodeLimiter.new, shape]
  cases Semaphore.new config.serve.maxConcurrentStreams.toNat <;> simp

/-! The sections of `get_or_create_limiter` under the lock. -/

variable {builder}
variable {Node : Type} [DecidableEq Node] [EndpointId Node]

/-- The generation is an atomic, but it is only written under the lock. -/
structure LimiterCache (Node Rate : Type) where
  generation : Nat
  limiters : HashMap Node (NodeLimiter Rate)

inductive Section (Node : Type) where
  /-- The generations differed outside the lock. -/
  | clear (current : Nat)
  /-- With a read guard on this config. -/
  | entry (config : Config) (node : Node) (reading : Reading)

inductive Answer (Rate : Type) where
  | cleared
  | limiter (limiter : NodeLimiter Rate)
  deriving DecidableEq

def underLock (builder : RateLimiterBuilder Rate) :
    Section Node → LimiterCache Node Rate → Option (Answer Rate) × LimiterCache Node Rate
  | .clear current, cache =>
      (some .cleared,
        if cache.generation ≠ current then { generation := current, limiters := ∅ } else cache)
  | .entry config node reading, cache =>
      match cache.limiters.lookup node with
      | some limiter => (some (.limiter limiter), cache)
      | none =>
          match NodeLimiter.of builder reading config.serve with
          | some limiter =>
              (some (.limiter limiter),
                { cache with limiters := cache.limiters.insert node limiter })
          | none => (none, cache)

abbrev CacheMutex (Node Rate : Type) := Mutex (LimiterCache Node Rate)

def emptyCache : CacheMutex Node Rate := .new ⟨0, ∅⟩

def limiterSections (builder : RateLimiterBuilder Rate) :
    Machine (CacheMutex Node Rate) (Section Node) (Option (Answer Rate)) :=
  Mutex.sections (underLock builder)

abbrev SectionEntry (Node Rate : Type) :=
  Entry (CacheMutex Node Rate) (Section Node) (Option (Answer Rate))

/-- Whatever config the section has was accepted, and tokio can build its semaphore. -/
def Section.Fits : Section Node → Prop
  | .clear _ => True
  | .entry config _ _ =>
      validate config = .ok () ∧ config.serve.maxConcurrentStreams.toNat ≤ maxPermits

omit [EndpointId Node] in
theorem underLock_isSome {part : Section Node} (fits : part.Fits) (cache : LimiterCache Node Rate) :
    (underLock builder part cache).1.isSome = true := by
  cases part with
  | clear current => rfl
  | entry config node reading =>
      obtain ⟨built, shape⟩ :=
        Option.isSome_iff_exists.mp ((nodeLimiter_isSome builder fits.1 reading).mpr fits.2)
      cases known : cache.limiters.lookup node with
      | some limiter => simp [underLock, known]
      | none => simp [underLock, known, shape]

omit [EndpointId Node] in
/-- However the sections of the threads follow each other, none panics under the lock. -/
theorem sections_sound {log : List (SectionEntry Node Rate)} {final : CacheMutex Node Rate}
    (run : Run (limiterSections builder) emptyCache log final)
    (every : ∀ entry ∈ log, entry.event.Fits) : final.poisoned = false :=
  (Mutex.sound_run (fun _ => True) (fun entry => entry.event.Fits) run every rfl trivial
    (fun _ fits _ => ⟨underLock_isSome fits _, trivial⟩)).1

omit [EndpointId Node] in
/-- The first limiter of a device under a config beyond the limit poisons the mutex. -/
theorem entry_poisons {cache : LimiterCache Node Rate} {node : Node}
    (valid : validate config = .ok ())
    (beyond : maxPermits < config.serve.maxConcurrentStreams.toNat)
    (unknown : cache.limiters.lookup node = none) (reading : Reading) :
    (Mutex.new cache).locked (underLock builder (.entry config node reading)) =
      (none, ⟨cache, true⟩) := by
  have panics : NodeLimiter.of builder reading config.serve = none := by
    rw [← Option.not_isSome_iff_eq_none, nodeLimiter_isSome builder valid, Nat.not_le]
    exact beyond
  rw [Mutex.locked_of_sound rfl]
  simp [underLock, Mutex.new, unknown, panics]

/-! The daemon, whose lookups build a limiter without panicking, against the mutex. -/

variable {env : Env} {toml : TomlConfig} {daemon next first final : DaemonState Node}
  {mutex : CacheMutex Node Rate}

/-- It was built, at some time, from the values of the limiter. -/
def BuiltAs (builder : RateLimiterBuilder Rate) (limiter : Limiter) (built : NodeLimiter Rate) :
    Prop :=
  ∃ reading, NodeLimiter.of builder reading limiter.serve = some built

structure Guards (builder : RateLimiterBuilder Rate) (mutex : CacheMutex Node Rate)
    (daemon : DaemonState Node) : Prop where
  sound : mutex.poisoned = false
  generation : mutex.value.generation = daemon.limiterGeneration
  limiters : ∀ node, Option.Rel (BuiltAs builder) (daemon.limiters.lookup node)
    (mutex.value.limiters.lookup node)

/-- Sections of the mutex lead to what guards the next state. -/
def Guarded (builder : RateLimiterBuilder Rate) (mutex : CacheMutex Node Rate)
    (daemon : DaemonState Node) : Prop :=
  ∃ log after, Run (limiterSections builder) mutex log after ∧ Guards builder after daemon

omit [EndpointId Node] in
theorem Guards.rests (guards : Guards builder mutex daemon)
    (generation : next.limiterGeneration = daemon.limiterGeneration)
    (limiters : next.limiters = daemon.limiters) : Guarded builder mutex next :=
  ⟨[], mutex, .start, guards.sound, guards.generation.trans generation.symm,
    limiters ▸ guards.limiters⟩

omit [EndpointId Node] in
theorem Guards.takes (guards : Guards builder mutex daemon) (part : Section Node)
    (answer : Answer Rate) (cache : LimiterCache Node Rate)
    (taken : underLock builder part mutex.value = (some answer, cache))
    (generation : cache.generation = next.limiterGeneration)
    (limiters : ∀ node,
      Option.Rel (BuiltAs builder) (next.limiters.lookup node) (cache.limiters.lookup node)) :
    Guarded builder mutex next := by
  have step : (limiterSections builder).step mutex part = some (some answer, ⟨cache, false⟩) := by
    simp [limiterSections, Mutex.sections, Mutex.locked_of_sound guards.sound, taken]
  exact ⟨_, _, Run.start.step step, rfl, generation, limiters⟩

omit [EndpointId Node] in
theorem Guards.miss {node : Node} (guards : Guards builder mutex daemon)
    (unknown : daemon.limiters.lookup node = none) : mutex.value.limiters.lookup node = none := by
  have same := guards.limiters node
  rw [unknown] at same
  generalize mutex.value.limiters.lookup node = hit at same ⊢
  cases same with
  | none => rfl

omit [EndpointId Node] in
theorem called_guarded {node : Node} {old new : CallStage} (guards : Guards builder mutex daemon)
    (fits : Section.Fits (.entry daemon.config node .boot))
    (called : Called daemon node old new next) : Guarded builder mutex next := by
  cases called with
  | clear current other =>
      refine guards.takes (.clear current) .cleared ⟨current, ∅⟩ ?_ rfl (fun _ => .none)
      rw [← guards.generation] at other
      simp [underLock, other]
  | build limiter unknown shape =>
      obtain ⟨built, same⟩ :=
        Option.isSome_iff_exists.mp ((nodeLimiter_isSome builder fits.1 .boot).mpr fits.2)
      refine guards.takes (.entry daemon.config node .boot) (.limiter built)
        ⟨mutex.value.generation, mutex.value.limiters.insert node built⟩ ?_ guards.generation ?_
      · simp [underLock, guards.miss unknown, same]
      · intro other
        by_cases equal : other = node
        · subst equal
          simp only [AList.lookup_insert]
          exact .some ⟨.boot, by rw [shape]; exact same⟩
        · simp only [AList.lookup_insert_ne equal]
          exact guards.limiters other
  | _ => exact guards.rests rfl rfl

/-- While every config in force is within the limit, the daemon takes the lock as if no panic
could poison it. -/
theorem daemon_guarded {log : Log Node} (started : Started first)
    (run : Run (machine env toml) first log final)
    (every : ∀ entry ∈ log,
      entry.before.config.serve.maxConcurrentStreams.toNat ≤ maxPermits) :
    ∃ sections mutex, Run (limiterSections builder)
      (emptyCache : CacheMutex Node Rate) sections mutex ∧
      Guards builder mutex final := by
  apply run.followed (fun daemon mutex => Guards builder mutex daemon)
    (fun entry => validate entry.before.config = .ok () ∧
      entry.before.config.serve.maxConcurrentStreams.toNat ≤ maxPermits)
  · intro entry member
    obtain ⟨later, earlier, rfl⟩ := List.append_of_mem member
    exact ⟨(consistent_run started run.split.1).valid, every entry member⟩
  · refine ⟨rfl, started.limiterGeneration.symm, ?_⟩
    intro node
    rw [started.limiters]
    exact .none
  · intro before event output after mutex taken allowed guards
    cases stepped taken with
    | auth operation other => exact guards.rests rfl rfl
    | request => exact guards.rests rfl rfl
    | call node => exact guards.rests rfl rfl
    | reload _ r old new middle own present handled =>
        obtain ⟨-, -, generation, limiters⟩ := handled.frame
        exact guards.rests generation limiters
    | limiter c node old new middle present called =>
        obtain ⟨parts, after, ran, sound, generation, limiters⟩ :=
          called_guarded guards allowed called
        exact ⟨parts, after, ran, sound, generation, limiters⟩

end RaemoteServer.Daemon.Poisoning
