import RaemoteServer.CatalogOrder
import RaemoteServer.Discovery.Cycle

/-! What a cycle publishes, as a function of the tables it reads and of the answers to its
probes. -/

namespace RaemoteServer.Discovery

open Text Collections Runs Http
open scoped List

/-- The tables of the OS, and what a probe of an origin comes to. -/
structure Scan where
  attributed : List Listener
  tcp : Option Str
  tcp6 : Option Str
  probe : Origin → Option ProbeResult

def Scan.outcome (scan : Scan) (settings : Settings) : FilterOutcome :=
  enumerate settings scan.attributed scan.tcp scan.tcp6

/-- The app of a candidate that answers credibly. -/
def Scan.confirmed (scan : Scan) (candidate : Candidate) : Option DiscoveredApp :=
  ((scan.probe candidate.origin).filter isCredible).map candidate.app

def Scan.apps (scan : Scan) (settings : Settings) : List DiscoveredApp :=
  (scan.outcome settings).candidates.filterMap scan.confirmed

def Scan.discovered (scan : Scan) (config : Config) : List DiscoveredApp :=
  let settings := Settings.of config
  if settings.enabled then scan.apps settings else []

def Scan.catalog (scan : Scan) (config : Config) : Catalog :=
  Catalog.rebuild config.apps (scan.discovered config)

/-- The origins that the scan finds. -/
def Scan.Finds (scan : Scan) (config : Config) (origin : Origin) : Prop :=
  origin ∈ (scan.discovered config).map DiscoveredApp.origin

theorem mem_catalog_origins (scan : Scan) (config : Config) (origin : Origin) :
    origin ∈ (scan.catalog config).apps.map CatalogApp.origin ↔
      origin ∈ config.apps.map AppConfig.origin ∨ scan.Finds config origin := by
  obtain ⟨found, shape, -, kept, -⟩ := rebuild_found config.apps (scan.discovered config)
  have origins : found.map CatalogApp.origin =
      (found.map CatalogApp.unnamed).map DiscoveredApp.origin := by
    rw [List.map_map]
    rfl
  have configured : (config.apps.map manualEntry).map CatalogApp.origin =
      config.apps.map AppConfig.origin := by
    rw [List.map_map]
    rfl
  rw [Scan.catalog, shape, List.map_append, List.mem_append, configured, origins,
    (kept.map DiscoveredApp.origin).mem_iff, Scan.Finds]
  constructor
  · rintro (manual | found)
    · exact Or.inl manual
    · obtain ⟨app, member, rfl⟩ := List.mem_map.mp found
      exact Or.inr (List.mem_map_of_mem (List.mem_filter.mp member).1)
  · rintro (manual | found)
    · exact Or.inl manual
    · by_cases manual : origin ∈ config.apps.map AppConfig.origin
      · exact Or.inl manual
      · obtain ⟨app, member, rfl⟩ := List.mem_map.mp found
        exact Or.inr (List.mem_map_of_mem (List.mem_filter.mpr ⟨member, decide_eq_true manual⟩))

theorem confirmed_eq_some {scan : Scan} {candidate : Candidate} {app : DiscoveredApp} :
    scan.confirmed candidate = some app ↔
      ∃ result, scan.probe candidate.origin = some result ∧ isCredible result = true ∧
        candidate.app result = app := by
  simp only [Scan.confirmed, Option.map_eq_some_iff, Option.filter_eq_some_iff, and_assoc]

theorem confirmed_iff {scan : Scan} {candidate : Candidate} {now : Nat} {cached : CachedApp} :
    candidate.confirmed now (scan.probe candidate.origin) = some cached ↔
      scan.confirmed candidate = some cached.app ∧ cached.lastVerified = now := by
  obtain ⟨app, verified⟩ := cached
  rw [Candidate.confirmed, Scan.confirmed]
  cases (scan.probe candidate.origin).filter isCredible with
  | none => simp
  | some result => simp [eq_comm]

theorem apps_origins (scan : Scan) (settings : Settings) :
    ((scan.apps settings).map DiscoveredApp.origin).Nodup := by
  have origins : ((scan.outcome settings).candidates.map Candidate.origin).Nodup :=
    candidates_nodup settings.filter _
  rw [Scan.apps, List.map_filterMap]
  apply List.pairwise_filterMap.mpr
  refine (List.pairwise_map.mp origins).imp ?_
  intro first second different a left b right
  obtain ⟨app, confirmed, rfl⟩ := Option.map_eq_some_iff.mp left
  obtain ⟨other, confirmed', rfl⟩ := Option.map_eq_some_iff.mp right
  obtain ⟨result, -, -, rfl⟩ := confirmed_eq_some.mp confirmed
  obtain ⟨result', -, -, rfl⟩ := confirmed_eq_some.mp confirmed'
  exact different

/-! A cycle that meets the scan. -/

variable (join : Str → Str → Option Url)

/-- Every probe was answered as in the scan, and was of a candidate as it is now, if it is one. -/
structure Scan.Met (scan : Scan) (settings : Settings) (history : List ScanEntry) : Prop where
  answered : ∀ probe ∈ probes join history, probe.2 = scan.probe probe.1.origin
  present : ∀ probe ∈ probes join history,
    probe.1.origin ∈ (scan.outcome settings).candidates.map Candidate.origin →
      probe.1 ∈ (scan.outcome settings).candidates

variable {join} {scan : Scan} {start final : Engine} {settings : Settings}
  {log earlier : List ScanEntry} {cycle : ScanEntry}

theorem mem_discovered {engine : Engine} {app : DiscoveredApp} :
    app ∈ engine.discovered ↔
      ∃ o cached, engine.cache.lookup o = some cached ∧ cached.app = app := by
  simp only [Engine.discovered, List.mem_map, Sigma.exists, ← Option.mem_def, AList.mem_lookup_iff]

/-- What is confirmed of a candidate is what the scan has of it. -/
theorem confirms_met {history : List ScanEntry} (met : scan.Met join settings history)
    {entry : ScanEntry} (member : entry ∈ history) {o : Origin} {cached : CachedApp}
    (confirms : Confirms join o cached entry)
    (listed : o ∈ (scan.outcome settings).candidates.map Candidate.origin) :
    ∃ candidate ∈ (scan.outcome settings).candidates, candidate.origin = o ∧
      scan.confirmed candidate = some cached.app := by
  obtain ⟨candidate, result, probed, rfl, confirmed⟩ := confirms
  have ended : (candidate, result) ∈ probes join history :=
    List.mem_filterMap.mpr ⟨entry, member, probed⟩
  have answer : result = scan.probe candidate.origin := met.answered _ ended
  rw [answer] at confirmed
  exact ⟨candidate, met.present _ ended listed, rfl, (confirmed_iff.mp confirmed).1⟩

theorem candidate_eq {first second : Candidate} (left : first ∈ (scan.outcome settings).candidates)
    (right : second ∈ (scan.outcome settings).candidates) (same : first.origin = second.origin) :
    first = second :=
  List.inj_on_of_nodup_map (candidates_nodup settings.filter _) left right same

/-- After the cycle, an origin is in the cache with the app that the scan has for it. -/
theorem cached_iff_confirmed {config : Config} {now : Nat}
    (inside : InCycle join (.start config now) final settings (scan.outcome settings) log earlier
      cycle)
    (ended : Ended join (scan.outcome settings) (toProbe settings (scan.outcome settings) cycle)
      log final)
    (met : scan.Met join settings (log ++ earlier)) (o : Origin) (app : DiscoveredApp) :
    (∃ cached, final.cache.lookup o = some cached ∧ cached.app = app) ↔
      ∃ candidate ∈ (scan.outcome settings).candidates, candidate.origin = o ∧
        scan.confirmed candidate = some app := by
  have due := lookup_iff_due inside ended o
  constructor
  · rintro ⟨cached, found, rfl⟩
    obtain ⟨listed, ⟨entry, member, confirms⟩ | ⟨-, verified, -⟩⟩ := (due cached).mp found
    · exact confirms_met met (List.mem_append_left _ member) confirms listed
    · obtain ⟨later, entry, before, rfl, confirms, -⟩ := verified
      exact confirms_met met (by simp) confirms listed
  · rintro ⟨candidate, member, rfl, confirmed⟩
    have listed := List.mem_map_of_mem (f := Candidate.origin) member
    by_cases chosen : candidate ∈ toProbe settings (scan.outcome settings) cycle
    · obtain ⟨⟨probed, result⟩, done, rfl⟩ := List.mem_map.mp (ended.probed.mem_iff.mpr chosen)
      obtain ⟨entry, here, shape⟩ := List.mem_filterMap.mp done
      have answer : result = scan.probe probed.origin :=
        met.answered _ (List.mem_filterMap.mpr ⟨entry, List.mem_append_left _ here, shape⟩)
      refine ⟨⟨app, entry.before.now⟩, (due _).mpr ⟨listed, Or.inl ⟨entry, here, ?_⟩⟩, rfl⟩
      exact ⟨probed, result, shape, rfl, by rw [answer, confirmed_iff]; exact ⟨confirmed, rfl⟩⟩
    · cases held : cycle.after.cache.lookup candidate.origin with
      | none =>
          have needs : needsProbe settings.recheck cycle.before.now cycle.after.cache candidate =
              true := by simp only [needsProbe, held]
          exact absurd (List.mem_filter.mpr ⟨member, needs⟩) chosen
      | some cached =>
          have recent := recent_of_not_due member chosen held
          rw [cache_verified inside.middle, verified_enumerated inside.enumerated.found] at held
          obtain ⟨later, entry, before, shape, confirms, -⟩ := id held.2
          have known : entry ∈ log ++ earlier := by simp [shape]
          obtain ⟨other, inside', same, confirmed'⟩ := confirms_met met known confirms listed
          rw [candidate_eq inside' member same, confirmed] at confirmed'
          refine ⟨cached, (due cached).mpr ⟨listed, Or.inr ⟨?_, held.2, recent⟩⟩,
            (Option.some.inj confirmed').symm⟩
          intro probe done same
          have probed : probe.1 ∈ toProbe settings (scan.outcome settings) cycle :=
            ended.probed.mem_iff.mp (List.mem_map_of_mem done)
          have candidate' := candidate_eq (List.mem_filter.mp probed).1 member same
          exact chosen (candidate' ▸ probed)

theorem discovered_perm {config : Config} {now : Nat}
    (inside : InCycle join (.start config now) final settings (scan.outcome settings) log earlier
      cycle)
    (ended : Ended join (scan.outcome settings) (toProbe settings (scan.outcome settings) cycle)
      log final)
    (met : scan.Met join settings (log ++ earlier)) :
    final.discovered ~ scan.apps settings := by
  have held := cached_iff_confirmed inside ended met
  have own : final.discovered.map DiscoveredApp.origin = final.cache.entries.map Sigma.fst := by
    rw [Engine.discovered, List.map_map]
    apply List.map_congr_left
    intro item member
    have found : final.cache.lookup item.1 = some item.2 := AList.mem_lookup_iff.mpr member
    obtain ⟨candidate, -, same, confirmed⟩ := (held item.1 item.2.app).mp ⟨item.2, found, rfl⟩
    obtain ⟨result, -, -, shape⟩ := confirmed_eq_some.mp confirmed
    rw [Function.comp_apply, ← shape]
    exact same
  have distinct : final.discovered.Nodup := by
    apply List.Nodup.of_map DiscoveredApp.origin
    rw [own]
    exact final.cache.nodupKeys
  apply (List.perm_ext_iff_of_nodup distinct (List.Nodup.of_map _ (apps_origins scan settings))).mpr
  intro app
  rw [mem_discovered, Scan.apps, List.mem_filterMap]
  constructor
  · rintro ⟨o, cached⟩
    obtain ⟨candidate, member, -, confirmed⟩ := (held o app).mp cached
    exact ⟨candidate, member, confirmed⟩
  · rintro ⟨candidate, member, confirmed⟩
    exact ⟨candidate.origin, (held _ app).mpr ⟨candidate, member, rfl, confirmed⟩⟩

/-- A cycle that meets the scan publishes what the scan has, with the apps configured when they
were merged. -/
theorem publishes_scan {config : Config} {now : Nat}
    (inside : InCycle join (.start config now) final settings (scan.outcome settings) log earlier
      cycle)
    (ended : final.phase = .waiting) (met : scan.Met join settings (log ++ earlier)) :
    ∃ merge ∈ log, merge.event = .merge ∧
      final.catalog = Catalog.rebuild merge.before.config.apps (scan.apps settings) := by
  have progress := progress_run inside
  rw [ended] at progress
  obtain ⟨complete, merge, member, event, rebuilt⟩ := progress
  refine ⟨merge, member, event, ?_⟩
  rw [rebuilt, Catalog.rebuild,
    sorted_perm (discovered_perm inside complete met) (apps_origins scan settings)]
  rfl

end RaemoteServer.Discovery
