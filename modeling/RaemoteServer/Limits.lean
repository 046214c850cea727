import RaemoteServer.Daemon.Poisoning

/-! Validation has only lower bounds for the limits of a config. What the daemon builds from them
has upper bounds: every sum with a clock stays within its own, the semaphores need not. -/

namespace RaemoteServer

open Text Collections Runs Auth Discovery Http Daemon.Poisoning

variable {Node Rate : Type} [DecidableEq Node]

/-- Nothing panics over a limit of this config. -/
structure NeverPanics (builder : RateLimiterBuilder Rate) (Node : Type) [DecidableEq Node]
    (config : Config) : Prop where
  /-- However the sections of `get_or_create_limiter` follow each other. -/
  limiters : ∀ (log : List (SectionEntry Node Rate)) (final : CacheMutex Node Rate),
    Run (limiterSections builder) emptyCache log final →
      (∀ entry ∈ log, ∀ other node reading,
        entry.event = .entry other node reading → other = config) →
        final.poisoned = false ∧ ∀ entry ∈ log, entry.output ≠ none
  /-- However often a scan is run, and whatever listens. -/
  scans : ∀ (join : Str → Str → Option Url) (first final : Engine) (log : List ScanEntry),
    first.phase = .waiting → Run (scanner join) first log final →
      (∀ entry ∈ log, entry.event = .begin → entry.before.config = config) →
        final.phase ≠ .crashed
  probes : ∀ join origin reading turns,
    timedProbe join origin reading (Settings.of config).probeTimeout turns ≠ none
  tokens : ∀ (auth : AuthState Node) reading random ttl fixed, ∃ info after,
    auth.mintTokenChecked reading random ttl fixed = some (info, after) ∧
      ExactExpiry reading ttl info
  invitations : ∀ (auth : AuthState Node) reading random ttl createdBy maxPending, ∃ answer after,
    auth.mintInvitationChecked reading random ttl createdBy maxPending = some (answer, after) ∧
      ∀ info, answer = .ok info → ExactExpiry reading ttl info

/-- The number of streams is one that tokio takes, and so is the number of probes if there can be
anything to probe. -/
def Config.WithinLimits (config : Config) : Prop :=
  config.serve.maxConcurrentStreams.toNat ≤ maxPermits ∧
    ((Settings.of config).Searches → config.discovery.maxConcurrentProbes.toNat ≤ maxPermits)

variable {config : Config} {builder : RateLimiterBuilder Rate}

theorem fits_iff : (Settings.of config).Fits ↔
    ((Settings.of config).Searches → config.discovery.maxConcurrentProbes.toNat ≤ maxPermits) :=
  imp_congr_right (fun _ => maxConcurrent_le config)

theorem limiters_sound (valid : validate config = .ok ())
    (streams : config.serve.maxConcurrentStreams.toNat ≤ maxPermits)
    {log : List (SectionEntry Node Rate)} {final : CacheMutex Node Rate}
    (run : Run (limiterSections builder) emptyCache log final)
    (own : ∀ entry ∈ log, ∀ other node reading,
      entry.event = .entry other node reading → other = config) :
    final.poisoned = false ∧ ∀ entry ∈ log, entry.output ≠ none := by
  have sound : final.poisoned = false := by
    apply sections_sound run
    intro entry member
    cases part : entry.event with
    | clear current => trivial
    | entry other node reading =>
        obtain rfl := own entry member other node reading part
        exact ⟨valid, streams⟩
  refine ⟨sound, ?_⟩
  intro entry member panics
  have poisoned := (Mutex.poisoned_iff run rfl).mpr ⟨entry, member, panics⟩
  rw [sound] at poisoned
  cases poisoned

/-- A device that asks for its first limiter under such a config poisons the mutex. -/
theorem first_entry (builder : RateLimiterBuilder Rate) (node : Node)
    (valid : validate config = .ok ())
    (beyond : maxPermits < config.serve.maxConcurrentStreams.toNat) :
    (emptyCache : CacheMutex Node Rate).locked (underLock builder (.entry config node .boot)) =
      (none, ⟨⟨0, ∅⟩, true⟩) :=
  entry_poisons valid beyond (AList.lookup_empty node) .boot

theorem NeverPanics.streams_le (safe : NeverPanics builder Node config) (node : Node)
    (valid : validate config = .ok ()) :
    config.serve.maxConcurrentStreams.toNat ≤ maxPermits := by
  by_contra beyond
  have taken : (limiterSections builder).step (emptyCache : CacheMutex Node Rate)
      (.entry config node .boot) = some (none, ⟨⟨0, ∅⟩, true⟩) :=
    congrArg some (first_entry builder node valid (Nat.not_le.mp beyond))
  have sound := (safe.limiters _ _ (Run.start.step taken) ?own).1
  case own =>
    intro entry member other node' reading part
    rw [List.mem_singleton.mp member] at part
    cases part
    rfl
  cases sound

theorem NeverPanics.probes_le (safe : NeverPanics builder Node config)
    (searches : (Settings.of config).Searches) :
    config.discovery.maxConcurrentProbes.toNat ≤ maxPermits := by
  rw [← maxConcurrent_le]
  by_contra beyond
  obtain ⟨on, l, counted, passes⟩ := searches
  obtain ⟨log, final, run, own, crashed⟩ :=
    first_scan_crashes noUrls 0 on counted passes (Nat.not_le.mp beyond)
  exact safe.scans noUrls _ final log rfl run own crashed

/-- Nothing that validation lets through panics over a limit, but for a number of permits that
tokio does not take. -/
theorem never_panics_iff (builder : RateLimiterBuilder Rate) (node : Node)
    (valid : validate config = .ok ()) :
    NeverPanics builder Node config ↔ config.WithinLimits := by
  constructor
  · intro safe
    exact ⟨safe.streams_le node valid, safe.probes_le⟩
  · rintro ⟨streams, probes⟩
    refine ⟨fun _ _ run own => limiters_sound valid streams run own, ?_, ?_, ?_, ?_⟩
    · intro join first final log idle run own
      refine scan_sound run idle ?_
      intro entry member begins
      rw [own entry member begins]
      exact fits_iff.mpr probes
    · intro join origin reading turns
      rw [timedProbe_eq join origin reading (probeTimeout_bound config)]
      exact Option.some_ne_none _
    · intro auth reading random ttl fixed
      exact ⟨_, _, mintTokenChecked_eq auth reading random ttl fixed,
        mintTokenWith_exact auth reading random ttl fixed⟩
    · intro auth reading random ttl createdBy maxPending
      refine ⟨_, _, mintInvitationChecked_eq auth reading random ttl createdBy maxPending, ?_⟩
      intro info minted
      exact mintInvitation_exact (Prod.ext minted rfl)

/-! A limit that a config file can hold. -/

structure Bucket where
  tokens : UInt64
  deadline : Instant
  deriving DecidableEq

/-- The bucket that the builder makes, with its tokens and the end of the first interval. -/
def leakyBucket : RateLimiterBuilder Bucket where
  build initial refill interval max reading :=
    if 0 < refill ∧ 0 < asMillis interval ∧ asMillis interval < UInt64.size then
      (addDuration reading.now interval).map (fun deadline => ⟨min initial max, deadline⟩)
    else none
  builds := by
    intro initial refill interval max reading amount _ lower upper sum
    rw [if_pos ⟨amount, lower, upper⟩, Option.isSome_map]
    exact sum

theorem defaults_never_panic : NeverPanics leakyBucket Bytes32 .default :=
  (never_panics_iff leakyBucket Daemon.phone (by decide)).mpr ⟨by decide, fun _ => by decide⟩

/-- `max_concurrent_streams = 9223372036854775807` -/
def mostStreams : Config :=
  { Config.default with
    serve := { ServeConfig.default with maxConcurrentStreams := 9223372036854775807 } }

/-- It is accepted, the first device that connects poisons the mutex, and every section after that
panics. -/
theorem most_streams_poison :
    validate mostStreams = .ok () ∧
      (emptyCache.locked
        (underLock leakyBucket (.entry mostStreams Daemon.phone .boot))).1 = none ∧
      (∀ part : Section Bytes32,
        (((emptyCache.locked
          (underLock leakyBucket (.entry mostStreams Daemon.phone .boot))).2).locked
            (underLock leakyBucket part)).1 = none) ∧
      ¬ NeverPanics leakyBucket Bytes32 mostStreams := by
  have valid : validate mostStreams = .ok () := by decide
  have beyond : maxPermits < mostStreams.serve.maxConcurrentStreams.toNat := by decide
  have poisons := first_entry leakyBucket Daemon.phone valid beyond
  refine ⟨valid, congrArg Prod.fst poisons, ?_, ?_⟩
  · intro part
    rw [poisons]
    exact congrArg Prod.fst (Mutex.locked_of_poisoned rfl)
  · intro safe
    exact Nat.not_le.mpr beyond (safe.streams_le Daemon.phone valid)

end RaemoteServer
