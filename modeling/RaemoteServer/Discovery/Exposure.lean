import RaemoteServer.Discovery.Cycle
import RaemoteServer.Http.Proxy

/-! Which addresses can be reached through the server. -/

namespace RaemoteServer.Discovery

open Text Collections Runs Http

/-- An enumeration with this origin among its candidates; the origin is local and passes the
filter that was made of the config when the cycle began. -/
def Admits (o : Origin) (cycle : ScanEntry) (earlier : List ScanEntry) : Prop :=
  ∃ outcome, outcomeOf cycle = some outcome ∧ o ∈ outcome.candidates.map Candidate.origin ∧
    ∃ begin ∈ earlier, begin.event = .begin ∧
      cycle.before.phase = .enumerating (settingsOf begin) ∧
      LocalHost o.host ∧ (settingsOf begin).filter.Passes o

/-- The last enumeration admitted or retained the origin. -/
def Admitted (o : Origin) (log : List ScanEntry) : Prop :=
  Since (fun entry => outcomeOf entry = none) (Admits o) log

/-- The origin was admitted when the catalog was last published. -/
def PublishedAdmitted (o : Origin) (log : List ScanEntry) : Prop :=
  Since (fun entry => entry.event ≠ .publish)
    (fun entry earlier => entry.event = .publish ∧ Admitted o earlier) log

/-- Where an entry of a catalog may point. -/
def Placed (admitted : Origin → Prop) (app : CatalogApp) : Prop :=
  app.source = .manual ∧ app.origin.host = "127.0.0.1".toList ∨
    app.source = .discovered ∧ admitted app.origin

def Phase.settings : Phase → Option Settings
  | .starting settings | .enumerating settings | .probing settings _ _ => some settings
  | _ => none

def Phase.pending : Phase → List Candidate
  | .probing _ pending _ => pending
  | _ => []

def Phase.merged : Phase → List CatalogApp
  | .publishing catalog => catalog.apps
  | _ => []

def ScanEvent.loopbackOnly : ScanEvent → Bool
  | .reload config => config.discovery.loopbackOnly
  | _ => true

theorem admitted_local {o : Origin} {log : List ScanEntry} (admitted : Admitted o log) :
    LocalHost o.host := by
  obtain ⟨later, cycle, earlier, -, admits, -⟩ := admitted
  obtain ⟨outcome, -, -, begin, -, -, -, near, -⟩ := admits
  exact near

theorem publishedAdmitted_local {o : Origin} {log : List ScanEntry}
    (published : PublishedAdmitted o log) : LocalHost o.host := by
  obtain ⟨later, entry, earlier, -, publication, -⟩ := published
  exact admitted_local publication.2

theorem Admitted.cons {o : Origin} {log : List ScanEntry} {entry : ScanEntry}
    (admitted : Admitted o log) (none : outcomeOf entry = none) : Admitted o (entry :: log) :=
  since_cons.mpr (Or.inr ⟨none, admitted⟩)

theorem Placed.mono {before after : Origin → Prop} {app : CatalogApp} (placed : Placed before app)
    (weaker : ∀ o, before o → after o) : Placed after app :=
  placed.imp_right (fun found => ⟨found.1, weaker _ found.2⟩)

/-! What every step preserves. -/

structure Exposure (log : List ScanEntry) (state : Engine) : Prop where
  config : state.config.discovery.loopbackOnly = true
  settings : ∀ settings, state.phase.settings = some settings →
    ∃ begin ∈ log, begin.event = .begin ∧ settings = settingsOf begin ∧
      settings.filter.loopbackOnly = true
  cache : ∀ o cached, state.cache.lookup o = some cached → Admitted o log
  pending : ∀ candidate ∈ state.phase.pending, Admitted candidate.origin log
  merged : ∀ app ∈ state.phase.merged, Placed (Admitted · log) app
  catalog : ∀ app ∈ state.catalog.apps, Placed (PublishedAdmitted · log) app

variable {join : Str → Str → Option Url} {log : List ScanEntry} {state next : Engine}

/-- A step that enumerates and publishes nothing changes no verdict. -/
theorem Exposure.cons {entry : ScanEntry} (exposure : Exposure log state)
    (noOutcome : outcomeOf entry = none) (noPublish : entry.event ≠ .publish) :
    Exposure (entry :: log) state := by
  constructor
  · exact exposure.config
  · intro found same
    obtain ⟨begin, member, known⟩ := exposure.settings found same
    exact ⟨begin, List.mem_cons_of_mem _ member, known⟩
  · exact fun o cached found => (exposure.cache o cached found).cons noOutcome
  · exact fun candidate member => (exposure.pending candidate member).cons noOutcome
  · intro app member
    exact (exposure.merged app member).mono (fun o old => old.cons noOutcome)
  · intro app member
    exact (exposure.catalog app member).mono
      (fun o old => since_cons.mpr (Or.inr ⟨noPublish, old⟩))

/-- The merged catalog has the configured apps, and cached ones. -/
theorem placed_rebuild {admitted : Origin → Prop} (manual : List AppConfig)
    (cached : ∀ o found, state.cache.lookup o = some found → found.app.origin = o ∧ admitted o) :
    ∀ app ∈ (Catalog.rebuild manual state.discovered).apps, Placed admitted app := by
  intro app member
  obtain ⟨found, shape, -, kept, source⟩ := rebuild_found manual state.discovered
  rw [shape] at member
  rcases List.mem_append.mp member with configured | other
  · obtain ⟨entry, -, rfl⟩ := List.mem_map.mp configured
    exact Or.inl ⟨rfl, rfl⟩
  · have bare : app.unnamed ∈ state.discovered :=
      List.mem_of_mem_filter (kept.mem_iff.mp (List.mem_map_of_mem other))
    obtain ⟨⟨o, entry⟩, listed, same⟩ := List.mem_map.mp bare
    have known : state.cache.lookup o = some entry := AList.mem_lookup_iff.mpr listed
    obtain ⟨key, admits⟩ := cached o entry known
    have origin : app.origin = o := by
      rw [← key]
      exact (congrArg DiscoveredApp.origin same).symm
    exact Or.inr ⟨source app other, origin ▸ admits⟩

theorem exposure_enumerated {settings : Settings} {attributed : List Listener}
    {tcp tcp6 : Option Str} {dials : List Dial} (exposure : Exposure log state)
    (phase : state.phase = .enumerating settings) :
    let next := state.startProbes settings (enumerate settings attributed tcp tcp6)
    Exposure (⟨state, .enumerated attributed tcp tcp6, dials, next⟩ :: log) next := by
  intro next
  obtain ⟨begin, member, begins, same, only⟩ :=
    exposure.settings settings (by rw [phase]; rfl)
  have admits {candidate : Candidate}
      (inside : candidate ∈ (enumerate settings attributed tcp tcp6).candidates) :
      Admitted candidate.origin
        (⟨state, .enumerated attributed tcp tcp6, dials, next⟩ :: log) := by
    obtain ⟨near, passes⟩ := candidate_local only inside
    refine since_cons.mpr (Or.inl ⟨_, outcomeOf_enumerated phase, List.mem_map_of_mem inside,
      begin, member, begins, ?_, near, same ▸ passes⟩)
    rw [← same]
    exact phase
  have later : next.phase = .crashed ∨ next.phase = .probing settings
      ((enumerate settings attributed tcp tcp6).candidates.filter
        (needsProbe settings.recheck state.now next.cache))
      (enumerate settings attributed tcp tcp6).skipped := by
    simp only [next, Engine.startProbes]
    split
    · exact Or.inl rfl
    · exact Or.inr rfl
  constructor
  · exact exposure.config
  · intro found holds
    have known : found = settings := by
      rcases later with crashed | probing
      · rw [crashed] at holds
        cases holds
      · rw [probing] at holds
        exact (Option.some.inj holds).symm
    exact ⟨begin, List.mem_cons_of_mem _ member, begins, known.trans same, known ▸ only⟩
  · intro o cached found
    obtain ⟨-, listed⟩ := lookup_startProbes.mp found
    obtain ⟨candidate, inside, rfl⟩ := List.mem_map.mp listed
    exact admits inside
  · intro candidate pending
    rcases later with crashed | probing
    · rw [crashed] at pending
      cases pending
    · rw [probing] at pending
      exact admits (List.mem_filter.mp pending).1
  · intro app merged
    rcases later with phase | phase
    · rw [phase] at merged
      cases merged
    · rw [phase] at merged
      cases merged
  · intro app listed
    exact (exposure.catalog app listed).mono
      (fun o old => since_cons.mpr (Or.inr ⟨by simp, old⟩))

/-- What one step preserves. -/
theorem exposure_step {event : ScanEvent} {dials : List Dial}
    (taken : Stepped join state event dials next)
    (only : event.loopbackOnly = true)
    (keys : ∀ o cached, state.cache.lookup o = some cached → cached.app.origin = o)
    (exposure : Exposure log state) : Exposure (⟨state, event, dials, next⟩ :: log) next := by
  obtain ⟨config, settings, cache, pending, merged, catalog⟩ := id exposure
  cases taken with
  | reload new =>
      have local' : Exposure log { state with config := new } :=
        ⟨only, settings, cache, pending, merged, catalog⟩
      exact local'.cons rfl (by simp)
  | advance elapsed =>
      have same : Exposure log { state with now := state.now + elapsed } :=
        ⟨config, settings, cache, pending, merged, catalog⟩
      exact same.cons rfl (by simp)
  | disabled phase off =>
      have cleared : Exposure log { state with cache := ∅, phase := .rebuilding } :=
        ⟨config, nofun, by simp, nofun, nofun, catalog⟩
      exact cleared.cons rfl (by simp)
  | begin phase on =>
      have waiting : Exposure log { state with phase := .waiting } :=
        ⟨config, nofun, cache, nofun, nofun, catalog⟩
      have older := @Exposure.cons _ _
        ⟨state, .begin, [], { state with phase := .starting (Settings.of state.config) }⟩ waiting
        rfl (by simp)
      refine ⟨config, ?_, older.cache, nofun, nofun, older.catalog⟩
      intro found same
      obtain rfl := Option.some.inj same
      exact ⟨_, List.mem_cons_self, rfl, rfl, config⟩
  | spawn phase =>
      rename_i settings'
      have same : Exposure log { state with phase := .enumerating settings' } :=
        ⟨config, by rw [phase] at settings; exact settings, cache, nofun, nofun, catalog⟩
      exact same.cons rfl (by simp)
  | enumerated attributed tcp tcp6 phase => exact exposure_enumerated exposure phase
  | enumerationFailed phase =>
      have same : Exposure log { state with phase := .waiting } :=
        ⟨config, nofun, cache, nofun, nofun, catalog⟩
      exact same.cons rfl (by simp)
  | joined candidate exchanges phase member =>
      rw [phase] at settings pending
      refine Exposure.cons ?_ rfl (by simp)
      constructor
      · rw [conclude_eq]
        exact config
      · rw [conclude_eq]
        exact settings
      · intro o cached found
        rcases lookup_conclude.mp found with ⟨rfl, -⟩ | ⟨-, old⟩
        · exact pending candidate member
        · exact cache o cached old
      · rw [conclude_eq]
        exact fun other inside => pending other (List.mem_of_mem_erase inside)
      · rw [conclude_eq]
        exact nofun
      · rw [conclude_eq]
        exact catalog
  | joinFailed candidate exchanges phase member =>
      rename_i settings' pending' skipped
      rw [phase] at settings pending
      have fewer : Exposure log
          { state with phase := .probing settings' (pending'.erase candidate) skipped } :=
        ⟨config, settings, cache,
          fun other inside => pending other (List.mem_of_mem_erase inside), nofun, catalog⟩
      exact fewer.cons rfl (by simp)
  | report phase =>
      rename_i settings' skipped
      have same : Exposure log { state with lastScan := skipped, phase := .rebuilding } :=
        ⟨config, nofun, cache, nofun, nofun, catalog⟩
      exact same.cons rfl (by simp)
  | merge phase =>
      have placed := @placed_rebuild state (Admitted · log) state.config.apps
        (fun o found known => ⟨keys o found known, cache o found known⟩)
      have same : Exposure log { state with
          phase := .publishing (Catalog.rebuild state.config.apps state.discovered) } :=
        ⟨config, nofun, cache, nofun, placed, catalog⟩
      exact same.cons rfl (by simp)
  | publish phase =>
      rw [phase] at merged
      refine ⟨config, nofun, fun o cached found => (cache o cached found).cons rfl, nofun,
        nofun, ?_⟩
      intro app member
      exact (merged app member).mono (fun o admitted => since_cons.mpr (Or.inl ⟨rfl, admitted⟩))
  | bump phase =>
      have same : Exposure log { state with
          catalogGeneration := state.catalogGeneration + 1, phase := .waiting } :=
        ⟨config, nofun, cache, nofun, nofun, catalog⟩
      exact same.cons rfl (by simp)

/-! Every run. -/

theorem cached_origin {config : Config} {now : Nat} {final : Engine}
    (run : Run (scanner join) (.start config now) log final) {o : Origin} {cached : CachedApp}
    (found : final.cache.lookup o = some cached) : cached.app.origin = o := by
  obtain ⟨later, entry, earlier, -, confirms, -⟩ := (cache_verified run o cached).mp found
  obtain ⟨candidate, result, -, rfl, confirmed⟩ := confirms
  obtain ⟨page, -, rfl⟩ := Option.map_eq_some_iff.mp confirmed
  rfl

/-- The config of the start and of every reload keeps discovery to loopback binds. -/
structure LoopbackOnly (config : Config) (log : List ScanEntry) : Prop where
  start : config.discovery.loopbackOnly = true
  reloads : ∀ entry ∈ log, entry.event.loopbackOnly = true

theorem exposure_run {config : Config} {now : Nat} {final : Engine}
    (run : Run (scanner join) (.start config now) log final) (only : LoopbackOnly config log) :
    Exposure log final := by
  induction run with
  | start =>
      refine ⟨only.start, nofun, ?_, nofun, nofun, ?_⟩
      · intro o cached found
        simp [Engine.start] at found
      · intro app member
        obtain ⟨found, shape, -, kept, -⟩ := rebuild_found config.apps []
        obtain rfl : found = [] := by simpa using kept.eq_nil
        simp only [Engine.start, shape, List.append_nil] at member
        obtain ⟨entry, -, rfl⟩ := List.mem_map.mp member
        exact Or.inl ⟨rfl, rfl⟩
  | step earlier taken ih =>
      have exposure := ih ⟨only.start, fun entry member =>
        only.reloads entry (List.mem_cons_of_mem _ member)⟩
      exact exposure_step (stepped taken) (only.reloads _ List.mem_cons_self)
        (fun o cached found => cached_origin earlier found) exposure

/-- A probe connects to an origin that was admitted. -/
theorem dials_admitted {event : ScanEvent} {dials : List Dial}
    (taken : Stepped join state event dials next) (exposure : Exposure log state) :
    ∀ dial ∈ dials, ∃ o, Admitted o log ∧ dial.host = o.host ∧ dial.port = o.port := by
  intro dial member
  cases taken with
  | joined candidate exchanges phase known =>
      have pending := exposure.pending
      rw [phase] at pending
      exact ⟨candidate.origin, pending candidate known, probeLoop_dials join _ _ _ _ dial member⟩
  | joinFailed candidate exchanges phase known =>
      have pending := exposure.pending
      rw [phase] at pending
      exact ⟨candidate.origin, pending candidate known, probeLoop_dials join _ _ _ _ dial member⟩
  | _ => cases member

theorem placed_local {app : CatalogApp} (placed : Placed (PublishedAdmitted · log) app) :
    LocalHost app.origin.host := by
  rcases placed with ⟨-, host⟩ | ⟨-, published⟩
  · exact Or.inl host
  · exact publishedAdmitted_local published

/-- A request is only proxied to an entry of the catalog. -/
theorem proxied_entry {catalog : Catalog} {method : Method} {path : Str} {origin : Origin}
    {subPath : Str} (routed : handle catalog method path = .proxy origin subPath) :
    ∃ app ∈ catalog.apps, app.origin = origin := by
  have listed {name : Str} (found : (catalog.find name).map CatalogApp.origin = some origin) :
      ∃ app ∈ catalog.apps, app.origin = origin := by
    obtain ⟨app, here, same⟩ := Option.map_eq_some_iff.mp found
    exact ⟨app, List.mem_of_find?_eq_some here, same⟩
  unfold handle at routed
  repeat' split at routed
  all_goals cases routed
  rename_i found
  exact listed found

/-- While discovery keeps to loopback binds, what is cached and what is published is local, and
passed the filter of the last cycle that enumerated; probes and proxied requests connect to
such origins only. -/
theorem only_local_exposed {connect : Str → Option (Str × UInt16)} (laws : ClientLaws connect)
    {config : Config} {now : Nat} {final : Engine}
    (run : Run (scanner join) (.start config now) log final) (only : LoopbackOnly config log) :
    (∀ o cached, final.cache.lookup o = some cached → LocalHost o.host ∧ Admitted o log) ∧
      (∀ app ∈ final.catalog.apps, LocalHost app.origin.host ∧
        Placed (PublishedAdmitted · log) app) ∧
      (∀ later entry earlier, log = later ++ entry :: earlier → ∀ dial ∈ entry.output,
        ∃ o, LocalHost o.host ∧ Admitted o earlier ∧ dial.host = o.host ∧ dial.port = o.port) ∧
      ∀ method path origin subPath, handle final.catalog method path = .proxy origin subPath →
        ∀ upgrade query host port,
          proxyDial connect upgrade origin subPath query = some (host, port) →
            ∃ app ∈ final.catalog.apps, host = app.origin.host ∧ port = app.origin.port := by
  have exposure := exposure_run run only
  refine ⟨?_, ?_, ?_, ?_⟩
  · intro o cached found
    have admitted := exposure.cache o cached found
    exact ⟨admitted_local admitted, admitted⟩
  · intro app member
    have placed := exposure.catalog app member
    exact ⟨placed_local placed, placed⟩
  · rintro later entry earlier rfl dial member
    obtain ⟨before, taken⟩ := run.split
    have then' := exposure_run before ⟨only.start, fun entry member =>
      only.reloads entry (List.mem_append_right _ (List.mem_cons_of_mem _ member))⟩
    obtain ⟨o, admitted, reached⟩ := dials_admitted (stepped taken) then' dial member
    exact ⟨o, admitted_local admitted, admitted, reached⟩
  · intro method path origin subPath routed upgrade query host port dialed
    obtain ⟨app, member, rfl⟩ := proxied_entry routed
    exact ⟨app, member, proxyDial_local laws (placed_local (exposure.catalog app member)) dialed⟩

/-- The address that a URI names. -/
def uriAddress (uri : Str) : Option (Str × UInt16) :=
  (Rfc3986.parse uri).authority.bind Rfc3986.hostAndPort

/-- The lower ports are excluded after the two cycles, and the docs stay. -/
def raisedPort : List ScanEvent :=
  twoCycles ++ [.reload { Config.default with
      discovery := { DiscoveryConfig.default with minPort := 6000 } },
    .begin, .spawn, .enumerated [vite, docs] none none, .report, .merge, .publish, .bump]

theorem docs_exposed : ∃ log final, Run (scanner noUrls) (.start .default 0) log final ∧
    final.catalog.apps.map CatalogApp.origin = [docs.origin] ∧ Admitted docs.origin log ∧
      ∀ upgrade query host port,
        proxyDial uriAddress upgrade docs.origin "page".toList query = some (host, port) →
          ∃ app ∈ final.catalog.apps, host = app.origin.host ∧ port = app.origin.port := by
  obtain ⟨log, final, -, run, reloads, apps, cached, routed⟩ := exec_checked (scanner noUrls)
    (.start .default 0) raisedPort
    (fun log final =>
      (∀ entry ∈ log, entry.event.loopbackOnly = true) ∧
      final.catalog.apps.map CatalogApp.origin = [docs.origin] ∧
      final.cache.lookup docs.origin = some (confirmedAt docs "Docs" 30000000000) ∧
      handle final.catalog .get "/app/docs/page".toList = .proxy docs.origin "page".toList)
    (by decide +kernel)
  have laws : ClientLaws uriAddress := ⟨fun uri host port dialed => dialed⟩
  obtain ⟨cache, -, -, proxied⟩ := only_local_exposed laws run ⟨rfl, reloads⟩
  exact ⟨log, final, run, apps, (cache _ _ cached).2, proxied _ _ _ _ routed⟩

end RaemoteServer.Discovery
