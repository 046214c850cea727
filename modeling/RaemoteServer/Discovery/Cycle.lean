import RaemoteServer.Discovery.Cache

/-! A cycle from its enumeration on: what is left to probe, what was reported, and what is
published in the end. -/

namespace RaemoteServer.Discovery

open Text Collections Runs Http
open scoped List

variable (join : Str → Str → Option Url)

/-- The entry is the enumeration of a cycle with these settings, and has this outcome. -/
structure Enumerated (settings : Settings) (outcome : FilterOutcome)
    (cycle : ScanEntry) : Prop where
  phase : cycle.before.phase = .enumerating settings
  found : outcomeOf cycle = some outcome

/-- The candidates that the cycle decides to probe. -/
def toProbe (settings : Settings) (outcome : FilterOutcome) (cycle : ScanEntry) : List Candidate :=
  outcome.candidates.filter
    (needsProbe settings.recheck cycle.before.now cycle.after.cache)

/-- The probes that ended, the last one first. -/
def probes (log : List ScanEntry) : List (Candidate × Option ProbeResult) :=
  log.filterMap (probeOf join)

def failures (log : List ScanEntry) : List Skipped :=
  (probes join log).reverse.filterMap (fun probe => probe.1.failure probe.2)

/-- Every probe has ended and is accounted for. -/
structure Ended (outcome : FilterOutcome) (due : List Candidate) (log : List ScanEntry)
    (state : Engine) : Prop where
  probed : (probes join log).map Prod.fst ~ due
  reported : state.lastScan = outcome.skipped ++ failures join log

/-- The catalog is made of the cached apps and of the apps configured when they were merged. -/
def RebuiltIn (log : List ScanEntry) (state : Engine) (catalog : Catalog) : Prop :=
  ∃ entry ∈ log, entry.event = .merge ∧
    catalog = Catalog.rebuild entry.before.config.apps state.discovered

/-- How far the cycle has come; `log` begins after the enumeration. -/
def Progress (outcome : FilterOutcome) (due : List Candidate) (log : List ScanEntry)
    (state : Engine) : Phase → Prop
  | .probing _ pending skipped =>
      (probes join log).map Prod.fst ++ pending ~ due ∧
        skipped = outcome.skipped ++ failures join log
  | .rebuilding => Ended join outcome due log state
  | .publishing catalog => Ended join outcome due log state ∧ RebuiltIn log state catalog
  | .bumping => Ended join outcome due log state ∧ RebuiltIn log state state.catalog
  | .waiting => Ended join outcome due log state ∧ RebuiltIn log state state.catalog
  | .crashed => True
  | .starting _ => False
  | .enumerating _ => False

variable {join : Str → Str → Option Url}

theorem RebuiltIn.cons {log : List ScanEntry} {state next : Engine} {catalog : Catalog}
    (rebuilt : RebuiltIn log state catalog) (same : next.discovered = state.discovered)
    (entry : ScanEntry) : RebuiltIn (entry :: log) next catalog := by
  obtain ⟨merge, member, event, shape⟩ := rebuilt
  exact ⟨merge, List.mem_cons_of_mem _ member, event, by rw [same, shape]⟩

theorem probes_quiet {entry : ScanEntry} {log : List ScanEntry} (none : probeOf join entry = none) :
    probes join (entry :: log) = probes join log :=
  List.filterMap_cons_none none

theorem Ended.cons {outcome : FilterOutcome} {due : List Candidate} {log : List ScanEntry}
    {state next : Engine} {entry : ScanEntry} (ended : Ended join outcome due log state)
    (none : probeOf join entry = none) (same : next.lastScan = state.lastScan) :
    Ended join outcome due (entry :: log) next := by
  constructor
  · rw [probes_quiet none]
    exact ended.probed
  · rw [failures, probes_quiet none, same]
    exact ended.reported

/-- A step that only concerns the config or the clock. -/
theorem progress_quiet {outcome : FilterOutcome} {due : List Candidate} {log : List ScanEntry}
    {state next : Engine} {entry : ScanEntry} {phase : Phase}
    (progress : Progress join outcome due log state phase) (none : probeOf join entry = none)
    (cache : next.cache = state.cache) (lastScan : next.lastScan = state.lastScan)
    (catalog : next.catalog = state.catalog) :
    Progress join outcome due (entry :: log) next phase := by
  have discovered : next.discovered = state.discovered := by rw [Engine.discovered, cache]; rfl
  cases phase with
  | waiting =>
      rw [Progress, catalog]
      exact ⟨progress.1.cons none lastScan, progress.2.cons discovered entry⟩
  | starting settings => exact progress
  | enumerating settings => exact progress
  | probing settings pending skipped =>
      rw [Progress, failures, probes_quiet none]
      exact progress
  | rebuilding => exact Ended.cons progress none lastScan
  | publishing found => exact ⟨progress.1.cons none lastScan, progress.2.cons discovered entry⟩
  | bumping =>
      rw [Progress, catalog]
      exact ⟨progress.1.cons none lastScan, progress.2.cons discovered entry⟩
  | crashed => trivial

theorem progress_joined {outcome : FilterOutcome} {due pending : List Candidate}
    {log : List ScanEntry} {state : Engine} {settings : Settings} {skipped : List Skipped}
    {candidate : Candidate} {exchanges : List (Option RawResponse)} {dials : List Dial}
    (left : (probes join log).map Prod.fst ++ pending ~ due)
    (reports : skipped = outcome.skipped ++ failures join log) (member : candidate ∈ pending) :
    let next := state.conclude settings (pending.erase candidate) skipped candidate
      (probeHttp join candidate.origin exchanges).2
    Progress join outcome due (⟨state, .joined candidate exchanges, dials, next⟩ :: log) next
      next.phase := by
  intro next
  have probe : probes join (⟨state, .joined candidate exchanges, dials, next⟩ :: log) =
      (candidate, (probeHttp join candidate.origin exchanges).2) :: probes join log :=
    List.filterMap_cons_some rfl
  have phase : next.phase = .probing settings (pending.erase candidate)
      (skipped ++ (candidate.failure (probeHttp join candidate.origin exchanges).2).toList) := by
    simp only [next, conclude_eq]
  rw [phase, Progress, failures, probe]
  constructor
  · calc candidate :: (probes join log).map Prod.fst ++ pending.erase candidate
        _ ~ (probes join log).map Prod.fst ++ candidate :: pending.erase candidate :=
            List.perm_middle.symm
        _ ~ (probes join log).map Prod.fst ++ pending :=
            (List.perm_cons_erase member).symm.append_left _
        _ ~ due := left
  · rw [reports, failures, List.reverse_cons, List.filterMap_append, List.append_assoc]
    cases failed : candidate.failure (probeHttp join candidate.origin exchanges).2 with
    | none => simp [failed]
    | some skip => simp [failed]

/-- What one step of the cycle preserves. -/
theorem progress_step {outcome : FilterOutcome} {due : List Candidate} {log : List ScanEntry}
    {state next : Engine} {event : ScanEvent} {dials : List Dial}
    (taken : Stepped join state event dials next) (own : event ≠ .begin)
    (calm : event.panicked = false)
    (progress : Progress join outcome due log state state.phase) :
    Progress join outcome due (⟨state, event, dials, next⟩ :: log) next next.phase := by
  cases taken with
  | reload config => exact progress_quiet progress rfl rfl rfl rfl
  | advance elapsed => exact progress_quiet progress rfl rfl rfl rfl
  | disabled phase off => exact absurd rfl own
  | begin phase on => exact absurd rfl own
  | spawn phase =>
      rw [phase] at progress
      exact progress.elim
  | enumerated attributed tcp tcp6 phase =>
      rw [phase] at progress
      exact progress.elim
  | enumerationFailed phase =>
      rw [phase] at progress
      exact progress.elim
  | joined candidate exchanges phase member =>
      rw [phase] at progress
      exact progress_joined progress.1 progress.2 member
  | joinFailed candidate exchanges phase member => cases calm
  | report phase =>
      rw [phase] at progress
      obtain ⟨left, reports⟩ := progress
      rw [List.append_nil] at left
      exact ⟨left, reports⟩
  | merge phase =>
      rw [phase] at progress
      exact ⟨Ended.cons progress rfl rfl, _, List.mem_cons_self, rfl, rfl⟩
  | publish phase =>
      rw [phase] at progress
      exact ⟨progress.1.cons rfl rfl, progress.2.cons rfl _⟩
  | bump phase =>
      rw [phase] at progress
      exact ⟨progress.1.cons rfl rfl, progress.2.cons rfl _⟩

/-- A run whose last enumeration is `cycle`, with no probe that panicked since. -/
structure InCycle (join : Str → Str → Option Url) (start final : Engine) (settings : Settings)
    (outcome : FilterOutcome) (log earlier : List ScanEntry) (cycle : ScanEntry) : Prop where
  run : Run (scanner join) start (log ++ cycle :: earlier) final
  enumerated : Enumerated settings outcome cycle
  own : ∀ entry ∈ log, entry.event ≠ .begin
  calm : ∀ entry ∈ log, entry.event.panicked = false

variable {start final : Engine} {settings : Settings} {outcome : FilterOutcome}
  {log earlier : List ScanEntry} {cycle : ScanEntry}

theorem enumerated_step {before after : Engine} {event : ScanEvent} {dials : List Dial}
    (enumerated : Enumerated settings outcome ⟨before, event, dials, after⟩)
    (taken : Stepped join before event dials after) :
    after = before.startProbes settings outcome := by
  obtain ⟨phase, found⟩ := enumerated
  dsimp only at phase
  cases taken with
  | enumerated attributed tcp tcp6 here =>
      rw [outcomeOf_enumerated here] at found
      rw [here] at phase
      rw [← Option.some.inj found, Phase.enumerating.inj phase]
  | _ => simp [outcomeOf] at found

theorem progress_run (inside : InCycle join start final settings outcome log earlier cycle) :
    Progress join outcome (toProbe settings outcome cycle) log final final.phase := by
  refine inside.run.invariant_since
    (fun log state => Progress join outcome (toProbe settings outcome cycle) log state state.phase)
    (fun entry => entry.event ≠ .begin ∧ entry.event.panicked = false)
    (fun entry member => ⟨inside.own entry member, inside.calm entry member⟩) ?_ ?_
  · intro middle run
    cases run with
    | step before taken =>
        have after := enumerated_step inside.enumerated (stepped taken)
        subst after
        dsimp only [Engine.startProbes]
        split
        · trivial
        · exact ⟨List.Perm.refl _, (List.append_nil _).symm⟩
  · intro newer before event dials after taken allowed progress
    exact progress_step (stepped taken) allowed.1 allowed.2 progress

/-- The same cycle, seen before one of its steps. -/
theorem InCycle.before (inside : InCycle join start final settings outcome log earlier cycle)
    {later rest : List ScanEntry} {entry : ScanEntry} (shape : log = later ++ entry :: rest) :
    InCycle join start entry.before settings outcome rest earlier cycle := by
  obtain ⟨run, enumerated, own, calm⟩ := inside
  subst shape
  rw [List.append_assoc, List.cons_append] at run
  have known {next : ScanEntry} (member : next ∈ rest) : next ∈ later ++ entry :: rest :=
    List.mem_append_right _ (List.mem_cons_of_mem _ member)
  exact ⟨run.split.1, enumerated, fun next member => own next (known member),
    fun next member => calm next (known member)⟩

theorem InCycle.middle (inside : InCycle join start final settings outcome log earlier cycle) :
    Run (scanner join) start (cycle :: earlier) cycle.after := by
  obtain ⟨before, taken⟩ := inside.run.split
  exact before.step taken

theorem outcome_phase {entry : ScanEntry} {found : FilterOutcome}
    (outcome : outcomeOf entry = some found) :
    ∃ settings, entry.before.phase = .enumerating settings := by
  unfold outcomeOf at outcome
  split at outcome
  · rename_i settings event phase
    exact ⟨settings, phase⟩
  · cases outcome

/-- A cycle enumerates once. -/
theorem InCycle.once (inside : InCycle join start final settings outcome log earlier cycle) :
    ∀ entry ∈ log, outcomeOf entry = none := by
  intro entry member
  obtain ⟨later, rest, shape⟩ := List.append_of_mem member
  have progress := progress_run (inside.before shape)
  cases again : outcomeOf entry with
  | none => rfl
  | some found =>
      obtain ⟨other, phase⟩ := outcome_phase again
      rw [phase] at progress
      exact progress.elim

theorem Enumerated.event (enumerated : Enumerated settings outcome cycle) :
    ∃ attributed tcp tcp6, cycle.event = .enumerated attributed tcp tcp6 ∧
      outcome = enumerate settings attributed tcp tcp6 := by
  obtain ⟨phase, found⟩ := enumerated
  unfold outcomeOf at found
  split at found
  · rename_i event here
    rw [phase] at here
    obtain rfl := Phase.enumerating.inj here
    exact ⟨_, _, _, event, (Option.some.inj found).symm⟩
  · cases found

theorem Enumerated.origins (enumerated : Enumerated settings outcome cycle) :
    (outcome.candidates.map Candidate.origin).Nodup := by
  obtain ⟨attributed, tcp, tcp6, -, shape⟩ := enumerated.event
  rw [shape]
  exact candidates_nodup settings.filter _

/-! The cache after a cycle. -/

/-- Where no two probes are of one origin, every confirmation counts. -/
theorem verified_of_confirms {o : Origin} {cached : CachedApp} {entry : ScanEntry}
    (distinct : ((probes join log).map (fun probe => probe.1.origin)).Nodup)
    (own : ∀ entry ∈ log, entry.event ≠ .begin) (once : ∀ entry ∈ log, outcomeOf entry = none)
    (member : entry ∈ log) (confirms : Confirms join o cached entry) :
    Verified join o cached log := by
  induction log with
  | nil => cases member
  | cons head tail ih =>
      rw [verified_cons]
      rcases List.mem_cons.mp member with rfl | old
      · exact Or.inl confirms
      · have rest : ((probes join tail).map (fun probe => probe.1.origin)).Nodup :=
          distinct.sublist (((List.sublist_cons_self head tail).filterMap _).map _)
        have verified := ih rest (fun next inside => own next (List.mem_cons_of_mem _ inside))
          (fun next inside => once next (List.mem_cons_of_mem _ inside)) old
        refine Or.inr ⟨⟨?_, fun begins => absurd begins (own head List.mem_cons_self), ?_⟩,
          verified⟩
        · rintro candidate result probed rfl
          obtain ⟨other, found, again, same, -⟩ := confirms
          have listed : (other, found) ∈ probes join tail :=
            List.mem_filterMap.mpr ⟨entry, old, again⟩
          have here : probes join (head :: tail) = (candidate, result) :: probes join tail :=
            List.filterMap_cons_some probed
          rw [here, List.map_cons, List.nodup_cons] at distinct
          exact distinct.1 (List.mem_map.mpr ⟨_, listed, same⟩)
        · intro found outcome
          rw [once head List.mem_cons_self] at outcome
          cases outcome

/-- What the cache is to hold for an origin after the cycle: it is a candidate, and its probe in
this cycle confirmed it, or it was not probed in this cycle and its last probe, in an earlier
one, is recent enough and confirmed it, with the origin a candidate ever since. -/
def Due (join : Str → Str → Option Url) (settings : Settings) (outcome : FilterOutcome)
    (log earlier : List ScanEntry) (cycle : ScanEntry) (o : Origin) (cached : CachedApp) : Prop :=
  o ∈ outcome.candidates.map Candidate.origin ∧
    ((∃ entry ∈ log, Confirms join o cached entry) ∨
      (∀ probe ∈ probes join log, probe.1.origin ≠ o) ∧ Verified join o cached earlier ∧
        cycle.before.now - cached.lastVerified < settings.recheck)

theorem InCycle.verified (inside : InCycle join start final settings outcome log earlier cycle)
    {o : Origin} {cached : CachedApp} :
    Verified join o cached (log ++ cycle :: earlier) ↔
      Verified join o cached log ∨ (∀ probe ∈ probes join log, probe.1.origin ≠ o) ∧
        o ∈ outcome.candidates.map Candidate.origin ∧ Verified join o cached earlier := by
  have spares : (∀ entry ∈ log, Spares join o entry) ↔
      ∀ probe ∈ probes join log, probe.1.origin ≠ o := by
    constructor
    · intro spared probe member
      obtain ⟨entry, here, probed⟩ := List.mem_filterMap.mp member
      exact (spared entry here).probe _ _ probed
    · intro others entry member
      refine ⟨?_, fun begins => absurd begins (inside.own entry member), ?_⟩
      · intro candidate result probed
        exact others _ (List.mem_filterMap.mpr ⟨entry, member, probed⟩)
      · intro found outcome
        rw [inside.once entry member] at outcome
        cases outcome
  rw [Verified, since_append, spares]
  exact or_congr Iff.rfl (and_congr Iff.rfl (verified_enumerated inside.enumerated.found))

/-- A candidate that is not to be probed is in the cache, and recent. -/
theorem recent_of_not_due {candidate : Candidate} (member : candidate ∈ outcome.candidates)
    (kept : candidate ∉ toProbe settings outcome cycle) {cached : CachedApp}
    (found : cycle.after.cache.lookup candidate.origin = some cached) :
    cycle.before.now - cached.lastVerified < settings.recheck := by
  have fresh :
      needsProbe settings.recheck cycle.before.now cycle.after.cache candidate = false := by
    rw [← Bool.not_eq_true]
    exact fun needs => kept (List.mem_filter.mpr ⟨member, needs⟩)
  simpa [needsProbe, found] using fresh

theorem Ended.distinct (ended : Ended join outcome (toProbe settings outcome cycle) log final)
    (enumerated : Enumerated settings outcome cycle) :
    ((probes join log).map (fun probe => probe.1.origin)).Nodup := by
  have candidates : ((toProbe settings outcome cycle).map Candidate.origin).Nodup :=
    enumerated.origins.sublist (List.filter_sublist.map _)
  have probed := (ended.probed.map Candidate.origin).nodup_iff.mpr candidates
  rwa [List.map_map] at probed

theorem lookup_iff_due {config : Config} {now : Nat}
    (inside : InCycle join (.start config now) final settings outcome log earlier cycle)
    (ended : Ended join outcome (toProbe settings outcome cycle) log final) (o : Origin)
    (cached : CachedApp) :
    final.cache.lookup o = some cached ↔ Due join settings outcome log earlier cycle o cached := by
  rw [cache_verified inside.run, inside.verified, Due]
  have probed {probe : Candidate × Option ProbeResult} (member : probe ∈ probes join log) :
      probe.1 ∈ toProbe settings outcome cycle :=
    ended.probed.mem_iff.mp (List.mem_map_of_mem member)
  constructor
  · rintro (verified | ⟨others, listed, verified⟩)
    · obtain ⟨later, entry, before, shape, confirms, -⟩ := verified
      have member : entry ∈ log := by simp [shape]
      obtain ⟨candidate, result, ended, rfl, -⟩ := id confirms
      have due := probed (List.mem_filterMap.mpr ⟨entry, member, ended⟩)
      exact ⟨List.mem_map_of_mem (List.mem_filter.mp due).1, Or.inl ⟨entry, member, confirms⟩⟩
    · refine ⟨listed, Or.inr ⟨others, verified, ?_⟩⟩
      obtain ⟨candidate, member, rfl⟩ := List.mem_map.mp listed
      have kept : candidate ∉ toProbe settings outcome cycle := by
        intro due
        obtain ⟨probe, here, rfl⟩ := List.mem_map.mp (ended.probed.mem_iff.mpr due)
        exact others probe here rfl
      refine recent_of_not_due member kept ?_
      rw [cache_verified inside.middle, verified_enumerated inside.enumerated.found]
      exact ⟨listed, verified⟩
  · rintro ⟨listed, ⟨entry, member, confirms⟩ | ⟨others, verified, -⟩⟩
    · exact Or.inl (verified_of_confirms (ended.distinct inside.enumerated) inside.own inside.once
        member confirms)
    · exact Or.inr ⟨others, listed, verified⟩

/-- After a cycle whose enumeration succeeded, the cache is what the history of the scans asks
for, and what is published of discovery is the cache without the configured origins. -/
theorem cache_refines_history {config : Config} {now : Nat}
    (inside : InCycle join (.start config now) final settings outcome log earlier cycle)
    (ended : final.phase = .waiting) :
    (∀ o cached, final.cache.lookup o = some cached ↔
        Due join settings outcome log earlier cycle o cached) ∧
      ∃ entry ∈ log, entry.event = .merge ∧
        ∃ found, final.catalog.apps = entry.before.config.apps.map manualEntry ++ found ∧
          found.map CatalogApp.unnamed ~ final.discovered.filter
            (fun d => d.origin ∉ entry.before.config.apps.map AppConfig.origin) ∧
          ∀ app ∈ found, app.source = .discovered := by
  have progress := progress_run inside
  rw [ended] at progress
  obtain ⟨complete, merge, member, event, rebuilt⟩ := progress
  obtain ⟨found, shape, -, kept, source⟩ :=
    rebuild_found merge.before.config.apps final.discovered
  exact ⟨lookup_iff_due inside complete,
    merge, member, event, found, by rw [rebuilt, shape], kept, source⟩

/-! Two cycles half a minute apart. -/

def noUrls (_ _ : Str) : Option Url := none

/-- The one answer to a probe. -/
def page (title : String) : List (Option RawResponse) := [some ⟨200, none, none, some title.toList⟩]

def vite : Listener := .unattributed (.v4 ⟨127, 0, 0, 1⟩ 5173)
def docs : Listener := .unattributed (.v4 ⟨0, 0, 0, 0⟩ 8080)

/-- The docs are not up yet in the first cycle; in the second the other app needs no probe. -/
def twoCycles : List ScanEvent :=
  [.begin, .spawn, .enumerated [vite, docs] none none, .joined docs.candidate [],
    .joined vite.candidate (page "Vite"), .report, .merge, .publish, .bump,
    .advance 30000000000,
    .begin, .spawn, .enumerated [docs, vite] none none, .joined docs.candidate (page "Docs"),
    .report, .merge, .publish, .bump]

def secondOutcome : FilterOutcome := ⟨[vite.candidate, docs.candidate], []⟩

def confirmedAt (l : Listener) (title : String) (now : Nat) : CachedApp :=
  ⟨l.candidate.app ⟨200, some title.toList, none⟩, now⟩

theorem second_cycle_refined : ∃ log earlier cycle final,
    InCycle noUrls (.start .default 0) final (.of .default) secondOutcome log earlier cycle ∧
      Due noUrls (.of .default) secondOutcome log earlier cycle vite.origin
        (confirmedAt vite "Vite" 0) ∧
      Due noUrls (.of .default) secondOutcome log earlier cycle docs.origin
        (confirmedAt docs "Docs" 30000000000) := by
  obtain ⟨history, final, -, run, cycle, own, calm, ended, old, new⟩ := exec_checked
    (scanner noUrls) (.start .default 0) twoCycles
    (fun history final =>
      history[5]?.any (fun cycle => cycle.before.phase = .enumerating (.of .default) ∧
        outcomeOf cycle = some secondOutcome) ∧
      (∀ entry ∈ history.take 5, entry.event ≠ .begin) ∧
      (∀ entry ∈ history.take 5, entry.event.panicked = false) ∧
      final.phase = .waiting ∧
      final.cache.lookup vite.origin = some (confirmedAt vite "Vite" 0) ∧
      final.cache.lookup docs.origin = some (confirmedAt docs "Docs" 30000000000))
    (by decide +kernel)
  obtain ⟨cycle, -, cut, phase, found⟩ := cut_at cycle
  rw [cut] at run
  have inside : InCycle noUrls (.start .default 0) final (.of .default) secondOutcome
      (history.take 5) (history.drop 6) cycle := ⟨run, ⟨phase, found⟩, own, calm⟩
  have refined := (cache_refines_history inside ended).1
  exact ⟨_, _, cycle, final, inside, (refined _ _).mp old, (refined _ _).mp new⟩

end RaemoteServer.Discovery
