import RaemoteServer.Catalog
import RaemoteServer.Discovery.Probe
import RaemoteServer.Library.Runs

/-! `DiscoveryEngine`: one scan after another. A section under a lock is one step, and probes
end in any order. -/

namespace RaemoteServer.Discovery

open Text Collections Runs Http

/-- An app and when it was last confirmed, in nanoseconds. -/
structure CachedApp where
  app : DiscoveredApp
  lastVerified : Nat
  deriving DecidableEq

/-- What a cycle reads of the config when it begins; durations in nanoseconds. -/
structure Settings where
  enabled : Bool
  filter : ListenerFilter
  includeUnattributed : Bool
  probeTimeout : Nat
  maxConcurrent : UInt64
  recheck : Nat
  deriving DecidableEq

def Settings.of (config : Config) : Settings :=
  let d := config.discovery
  { enabled := d.enabled
    filter := .new d.minPort d.loopbackOnly d.excludePorts d.excludeProcesses d.excludeOrigins
    includeUnattributed := d.includeUnattributed
    probeTimeout := max d.probeTimeoutMs.toNat 1 * 1000000
    maxConcurrent := max d.maxConcurrentProbes 1
    recheck := max d.recheckSecs.toNat 1 * 1000000000 }

/-- Where `scan_once` is. -/
inductive Phase where
  | waiting
  /-- The config is read. -/
  | starting (settings : Settings)
  | enumerating (settings : Settings)
  | probing (settings : Settings) (pending : List Candidate) (skipped : List Skipped)
  | rebuilding
  | publishing (catalog : Catalog)
  /-- The catalog is replaced, and its generation is not bumped yet. -/
  | bumping
  /-- `Semaphore::new` panicked. -/
  | crashed
  deriving DecidableEq

structure Engine where
  config : Config
  catalog : Catalog
  catalogGeneration : UInt64
  lastScan : List Skipped
  cache : HashMap Origin CachedApp
  now : Nat
  phase : Phase

inductive ScanEvent where
  /-- A reload replaces the shared config. -/
  | reload (config : Config)
  | advance (elapsed : Nat)
  | begin
  | spawn
  /-- The OS table, and the texts of the two `/proc` tables if they could be read. -/
  | enumerated (attributed : List Listener) (tcp tcp6 : Option Str)
  | enumerationFailed
  /-- A probe ends, with what its turns were answered. -/
  | joined (candidate : Candidate) (exchanges : List (Option RawResponse))
  /-- A probe task panicked. -/
  | joinFailed (candidate : Candidate) (exchanges : List (Option RawResponse))
  | report
  | merge
  | publish
  | bump
  deriving DecidableEq

def ScanEvent.panicked : ScanEvent → Bool
  | .joinFailed _ _ => true
  | _ => false

/-- The table that is filtered. -/
def Settings.table (settings : Settings) (attributed : List Listener) (tcp tcp6 : Option Str) :
    List Listener :=
  if settings.includeUnattributed then mergeUnattributed attributed (listeningTcp tcp tcp6)
  else attributed

def enumerate (settings : Settings) (attributed : List Listener) (tcp tcp6 : Option Str) :
    FilterOutcome :=
  filterListenersDetailed (settings.table attributed tcp tcp6) settings.filter

/-- New, or not confirmed for the recheck time. -/
def needsProbe (recheck now : Nat) (cache : HashMap Origin CachedApp) (candidate : Candidate) :
    Bool :=
  match cache.lookup candidate.origin with
  | some cached => recheck ≤ now - cached.lastVerified
  | none => true

/-- `Semaphore::MAX_PERMITS` -/
def maxPermits : Nat := 2 ^ 61 - 1

/-- Entries whose socket is gone are dropped, and the probes are started. -/
def Engine.startProbes (engine : Engine) (settings : Settings) (outcome : FilterOutcome) : Engine :=
  let live := HashSet.ofList (outcome.candidates.map Candidate.origin)
  let cache := engine.cache.retain (fun origin _ => origin ∈ live)
  let toProbe := outcome.candidates.filter (needsProbe settings.recheck engine.now cache)
  { engine with
    cache
    phase :=
      if toProbe ≠ [] ∧ maxPermits < settings.maxConcurrent.toNat then .crashed
      else .probing settings toProbe outcome.skipped }

def Candidate.skip (candidate : Candidate) (reason : SkipReason) : Skipped :=
  ⟨candidate.origin.authority, candidate.process, reason⟩

def Candidate.app (candidate : Candidate) (result : ProbeResult) : DiscoveredApp where
  origin := candidate.origin
  title := result.title
  process := candidate.process
  pid := candidate.pid

/-- What is done with the result of a probe. -/
def Engine.conclude (engine : Engine) (settings : Settings) (pending : List Candidate)
    (skipped : List Skipped) (candidate : Candidate) : Option ProbeResult → Engine
  | some result =>
      if isCredible result then
        { engine with
          cache := engine.cache.insert candidate.origin ⟨candidate.app result, engine.now⟩
          phase := .probing settings pending skipped }
      else
        { engine with
          cache := engine.cache.erase candidate.origin
          phase := .probing settings pending (skipped ++ [candidate.skip .notCredible]) }
  | none =>
      { engine with
        cache := engine.cache.erase candidate.origin
        phase := .probing settings pending (skipped ++ [candidate.skip .unreachable]) }

def Engine.discovered (engine : Engine) : List DiscoveredApp :=
  engine.cache.entries.map (fun item => item.2.app)

variable (join : Str → Str → Option Url)

/-- The output is the connections that probes made. -/
def step (engine : Engine) (event : ScanEvent) : Option (List Dial × Engine) :=
  match event, engine.phase with
  | .reload config, _ => some ([], { engine with config })
  | .advance elapsed, _ => some ([], { engine with now := engine.now + elapsed })
  | .begin, .waiting =>
      let settings := Settings.of engine.config
      if settings.enabled then some ([], { engine with phase := .starting settings })
      else some ([], { engine with cache := ∅, phase := .rebuilding })
  | .spawn, .starting settings => some ([], { engine with phase := .enumerating settings })
  | .enumerated attributed tcp tcp6, .enumerating settings =>
      some ([], engine.startProbes settings (enumerate settings attributed tcp tcp6))
  | .enumerationFailed, .enumerating _ => some ([], { engine with phase := .waiting })
  | .joined candidate exchanges, .probing settings pending skipped =>
      if candidate ∈ pending then
        let (dials, result) := probeHttp join candidate.origin exchanges
        some (dials,
          engine.conclude settings (pending.erase candidate) skipped candidate result)
      else none
  | .joinFailed candidate exchanges, .probing settings pending skipped =>
      if candidate ∈ pending then
        some ((probeHttp join candidate.origin exchanges).1,
          { engine with phase := .probing settings (pending.erase candidate) skipped })
      else none
  | .report, .probing _ [] skipped =>
      some ([], { engine with lastScan := skipped, phase := .rebuilding })
  | .merge, .rebuilding =>
      some ([], { engine with
        phase := .publishing (Catalog.rebuild engine.config.apps engine.discovered) })
  | .publish, .publishing catalog => some ([], { engine with catalog, phase := .bumping })
  | .bump, .bumping =>
      some ([], { engine with
        catalogGeneration := engine.catalogGeneration + 1, phase := .waiting })
  | _, _ => none

def scanner : Machine Engine ScanEvent (List Dial) := ⟨step join⟩

/-- The daemon has built a catalog of the configured apps when the engine starts. -/
def Engine.start (config : Config) (now : Nat) : Engine where
  config := config
  catalog := Catalog.rebuild config.apps []
  catalogGeneration := 0
  lastScan := []
  cache := ∅
  now := now
  phase := .waiting

/-! What each event can do. -/

/-- The steps of the engine, one constructor for each branch. -/
inductive Stepped (engine : Engine) : ScanEvent → List Dial → Engine → Prop
  | reload (config : Config) : Stepped engine (.reload config) [] { engine with config }
  | advance (elapsed : Nat) :
      Stepped engine (.advance elapsed) [] { engine with now := engine.now + elapsed }
  | disabled (phase : engine.phase = .waiting) (off : (Settings.of engine.config).enabled = false) :
      Stepped engine .begin [] { engine with cache := ∅, phase := .rebuilding }
  | begin (phase : engine.phase = .waiting) (on : (Settings.of engine.config).enabled = true) :
      Stepped engine .begin [] { engine with phase := .starting (Settings.of engine.config) }
  | spawn {settings : Settings} (phase : engine.phase = .starting settings) :
      Stepped engine .spawn [] { engine with phase := .enumerating settings }
  | enumerated {settings : Settings} (attributed : List Listener) (tcp tcp6 : Option Str)
      (phase : engine.phase = .enumerating settings) :
      Stepped engine (.enumerated attributed tcp tcp6) []
        (engine.startProbes settings (enumerate settings attributed tcp tcp6))
  | enumerationFailed {settings : Settings} (phase : engine.phase = .enumerating settings) :
      Stepped engine .enumerationFailed [] { engine with phase := .waiting }
  | joined {settings : Settings} {pending : List Candidate} {skipped : List Skipped}
      (candidate : Candidate) (exchanges : List (Option RawResponse))
      (phase : engine.phase = .probing settings pending skipped) (member : candidate ∈ pending) :
      Stepped engine (.joined candidate exchanges) (probeHttp join candidate.origin exchanges).1
        (engine.conclude settings (pending.erase candidate) skipped candidate
          (probeHttp join candidate.origin exchanges).2)
  | joinFailed {settings : Settings} {pending : List Candidate} {skipped : List Skipped}
      (candidate : Candidate) (exchanges : List (Option RawResponse))
      (phase : engine.phase = .probing settings pending skipped) (member : candidate ∈ pending) :
      Stepped engine (.joinFailed candidate exchanges)
        (probeHttp join candidate.origin exchanges).1
        { engine with phase := .probing settings (pending.erase candidate) skipped }
  | report {settings : Settings} {skipped : List Skipped}
      (phase : engine.phase = .probing settings [] skipped) :
      Stepped engine .report [] { engine with lastScan := skipped, phase := .rebuilding }
  | merge (phase : engine.phase = .rebuilding) :
      Stepped engine .merge [] { engine with
        phase := .publishing (Catalog.rebuild engine.config.apps engine.discovered) }
  | publish {catalog : Catalog} (phase : engine.phase = .publishing catalog) :
      Stepped engine .publish [] { engine with catalog, phase := .bumping }
  | bump (phase : engine.phase = .bumping) :
      Stepped engine .bump [] { engine with
        catalogGeneration := engine.catalogGeneration + 1, phase := .waiting }

variable {join : Str → Str → Option Url}

theorem stepped {engine next : Engine} {event : ScanEvent} {dials : List Dial}
    (taken : (scanner join).step engine event = some (dials, next)) :
    Stepped join engine event dials next := by
  simp only [scanner, step] at taken
  split at taken
  · obtain ⟨rfl, rfl⟩ := Prod.mk.inj (Option.some.inj taken)
    exact .reload _
  · obtain ⟨rfl, rfl⟩ := Prod.mk.inj (Option.some.inj taken)
    exact .advance _
  · rename_i phase
    split at taken
    · rename_i on
      obtain ⟨rfl, rfl⟩ := Prod.mk.inj (Option.some.inj taken)
      exact .begin phase on
    · rename_i off
      obtain ⟨rfl, rfl⟩ := Prod.mk.inj (Option.some.inj taken)
      exact .disabled phase (Bool.eq_false_iff.mpr off)
  · rename_i phase
    obtain ⟨rfl, rfl⟩ := Prod.mk.inj (Option.some.inj taken)
    exact .spawn phase
  · rename_i phase
    obtain ⟨rfl, rfl⟩ := Prod.mk.inj (Option.some.inj taken)
    exact .enumerated _ _ _ phase
  · rename_i phase
    obtain ⟨rfl, rfl⟩ := Prod.mk.inj (Option.some.inj taken)
    exact .enumerationFailed phase
  · rename_i phase
    split at taken
    · rename_i member
      obtain ⟨rfl, rfl⟩ := Prod.mk.inj (Option.some.inj taken)
      exact .joined _ _ phase member
    · cases taken
  · rename_i phase
    split at taken
    · rename_i member
      obtain ⟨rfl, rfl⟩ := Prod.mk.inj (Option.some.inj taken)
      exact .joinFailed _ _ phase member
    · cases taken
  · rename_i phase
    obtain ⟨rfl, rfl⟩ := Prod.mk.inj (Option.some.inj taken)
    exact .report phase
  · rename_i phase
    obtain ⟨rfl, rfl⟩ := Prod.mk.inj (Option.some.inj taken)
    exact .merge phase
  · rename_i phase
    obtain ⟨rfl, rfl⟩ := Prod.mk.inj (Option.some.inj taken)
    exact .publish phase
  · rename_i phase
    obtain ⟨rfl, rfl⟩ := Prod.mk.inj (Option.some.inj taken)
    exact .bump phase
  · cases taken

/-! What a probe leaves behind. -/

/-- The entry that a credible probe makes. -/
def Candidate.confirmed (candidate : Candidate) (now : Nat) (result : Option ProbeResult) :
    Option CachedApp :=
  (result.filter isCredible).map (fun result => ⟨candidate.app result, now⟩)

/-- The report of a probe that is not credible. -/
def Candidate.failure (candidate : Candidate) : Option ProbeResult → Option Skipped
  | some result => if isCredible result then none else some (candidate.skip .notCredible)
  | none => some (candidate.skip .unreachable)

theorem conclude_eq (engine : Engine) (settings : Settings) (pending : List Candidate)
    (skipped : List Skipped) (candidate : Candidate) (result : Option ProbeResult) :
    engine.conclude settings pending skipped candidate result =
      { engine with
        cache :=
          match candidate.confirmed engine.now result with
          | some cached => engine.cache.insert candidate.origin cached
          | none => engine.cache.erase candidate.origin
        phase := .probing settings pending (skipped ++ (candidate.failure result).toList) } := by
  cases result with
  | none => rfl
  | some result =>
      cases credible : isCredible result with
      | true =>
          simp [Engine.conclude, Candidate.confirmed, Candidate.failure, Option.filter, credible]
      | false =>
          simp [Engine.conclude, Candidate.confirmed, Candidate.failure, Option.filter, credible]

theorem lookup_conclude {engine : Engine} {settings : Settings} {pending : List Candidate}
    {skipped : List Skipped} {candidate : Candidate} {result : Option ProbeResult} {o : Origin}
    {cached : CachedApp} :
    (engine.conclude settings pending skipped candidate result).cache.lookup o = some cached ↔
      o = candidate.origin ∧ candidate.confirmed engine.now result = some cached ∨
        o ≠ candidate.origin ∧ engine.cache.lookup o = some cached := by
  rw [conclude_eq]
  cases outcome : candidate.confirmed engine.now result with
  | none => simp [HashMap.lookup_erase_iff]
  | some found =>
      dsimp only
      rw [HashMap.lookup_insert_iff, Option.some.injEq, @eq_comm _ cached found]

theorem lookup_startProbes {engine : Engine} {settings : Settings} {outcome : FilterOutcome}
    {o : Origin} {cached : CachedApp} :
    (engine.startProbes settings outcome).cache.lookup o = some cached ↔
      engine.cache.lookup o = some cached ∧ o ∈ outcome.candidates.map Candidate.origin := by
  simp only [Engine.startProbes, HashMap.lookup_retain, decide_eq_true_eq, HashSet.mem_ofList]

end RaemoteServer.Discovery
