import RaemoteServer.Hiding
import RaemoteServer.Whole.Reach

/-! How hiding an app, or switching discovery off, takes effect. -/

namespace RaemoteServer.Whole

open Text Collections Runs Auth Http Discovery

variable {Node : Type} [DecidableEq Node] [EndpointId Node]
variable {self : Node} {join : Str → Str → Option Url} {boot : Hub.Boot}
  {state : State Node} {o : Origin}

/-- The config has no app at the origin, and a scan under it would not admit the origin. -/
structure Excluded (config : Config) (o : Origin) : Prop where
  manual : o ∉ config.apps.map AppConfig.origin
  discovered : (Settings.of config).enabled = true → ¬ (Settings.of config).filter.Passes o

/-- The cache has what the scan that is under way may publish. -/
def searched : Phase → Bool
  | .probing _ _ _ | .rebuilding => true
  | _ => false

/-- How far an origin is gone since a scan began. -/
structure Hidden (o : Origin) (log : List ScanEntry) (engine : Engine) : Prop where
  config : Excluded engine.config o
  keys : ∀ key cached, engine.cache.lookup key = some cached → cached.app.origin = key
  settings : ∀ settings, engine.phase.settings = some settings → ¬ settings.filter.Passes o
  pending : ∀ candidate ∈ engine.phase.pending, candidate.origin ≠ o
  cache : searched engine.phase = true → engine.cache.lookup o = none
  merged : ∀ app ∈ engine.phase.merged, app.origin ≠ o
  catalog : (∃ entry ∈ log, entry.event = .publish) → ∀ app ∈ engine.catalog.apps, app.origin ≠ o

variable {log : List ScanEntry} {before after : Engine} {event : ScanEvent} {dials : List Dial}

/-- An origin on `exclude_origins` is gone if no app is configured there. -/
theorem excluded_of_lists {config : Config} (lists : config.Lists o)
    (unconfigured : o ∉ config.apps.map AppConfig.origin) : Excluded config o := by
  refine ⟨unconfigured, ?_⟩
  intro _ passes
  exact passes.listed (mem_filter_excludeOrigins.mpr lists)

theorem rebuild_excluded {engine : Engine} (config : Excluded engine.config o)
    (keys : ∀ key cached, engine.cache.lookup key = some cached → cached.app.origin = key)
    (absent : engine.cache.lookup o = none) :
    ∀ app ∈ (Catalog.rebuild engine.config.apps engine.discovered).apps, app.origin ≠ o := by
  rintro app listed rfl
  rcases rebuild_found engine.config.apps engine.discovered with ⟨found, shape, -, kept, -⟩
  rw [shape] at listed
  rcases List.mem_append.mp listed with configured | other
  · rcases List.mem_map.mp configured with ⟨entry, inside, rfl⟩
    exact config.manual (List.mem_map_of_mem inside)
  · have bare : app.unnamed ∈ engine.discovered :=
      List.mem_of_mem_filter (kept.mem_iff.mp (List.mem_map_of_mem other))
    rcases List.mem_map.mp bare with ⟨⟨key, cached⟩, stored, same⟩
    have known : engine.cache.lookup key = some cached := AList.mem_lookup_iff.mpr stored
    have origin : app.origin = key := by
      rw [← keys key cached known]
      exact (congrArg DiscoveredApp.origin same).symm
    rw [← origin, absent] at known
    cases known

theorem candidate_passes {filter : ListenerFilter} {all : List Listener} {candidate : Candidate}
    (member : candidate ∈ (filterListenersDetailed all filter).candidates) :
    filter.Passes candidate.origin := by
  rcases candidate_passed member with ⟨l, -, -, passed, rfl⟩
  exact (refusal_none passed).1

theorem startProbes_phase (engine : Engine) (settings : Settings) (outcome : FilterOutcome) :
    (engine.startProbes settings outcome).phase = .crashed ∨
      ∃ pending skipped, (engine.startProbes settings outcome).phase =
          .probing settings pending skipped ∧ pending ⊆ outcome.candidates := by
  simp only [Engine.startProbes]
  split
  · exact Or.inl rfl
  · exact Or.inr ⟨_, _, rfl, List.filter_subset_self _⟩

/-- A step that publishes nothing. -/
theorem Hidden.quiet (hidden : Hidden o log after) {entry : ScanEntry}
    (none : entry.event ≠ .publish) : Hidden o (entry :: log) after := by
  refine ⟨hidden.config, hidden.keys, hidden.settings, hidden.pending, hidden.cache,
    hidden.merged, ?_⟩
  rintro ⟨found, member, publishes⟩
  rcases List.mem_cons.mp member with rfl | old
  · exact (none publishes).elim
  · exact hidden.catalog ⟨found, old, publishes⟩

theorem hidden_enumerated {settings : Settings} {attributed : List Listener}
    {tcp tcp6 : Option Str} (hidden : Hidden o log before)
    (phase : before.phase = .enumerating settings) :
    Hidden o log (before.startProbes settings (enumerate settings attributed tcp tcp6)) := by
  have fails : ¬ settings.filter.Passes o := hidden.settings settings (by rw [phase]; rfl)
  have others : ∀ candidate ∈ (enumerate settings attributed tcp tcp6).candidates,
      candidate.origin ≠ o := by
    rintro candidate inside rfl
    exact fails (candidate_passes inside)
  have keys : ∀ key cached, (before.startProbes settings
      (enumerate settings attributed tcp tcp6)).cache.lookup key = some cached →
        cached.app.origin = key := by
    intro key cached found
    exact hidden.keys key cached (lookup_startProbes.mp found).1
  have absent : (before.startProbes settings
      (enumerate settings attributed tcp tcp6)).cache.lookup o = none := by
    apply Option.eq_none_iff_forall_ne_some.mpr
    intro cached found
    rcases List.mem_map.mp (lookup_startProbes.mp found).2 with ⟨candidate, inside, same⟩
    exact others candidate inside same
  rcases startProbes_phase before settings (enumerate settings attributed tcp tcp6) with
    crashed | ⟨pending, skipped, probing, fewer⟩
  · constructor
    · exact hidden.config
    · exact keys
    · rw [crashed]
      exact nofun
    · rw [crashed]
      exact nofun
    · exact fun _ => absent
    · rw [crashed]
      exact nofun
    · exact hidden.catalog
  · constructor
    · exact hidden.config
    · exact keys
    · rw [probing]
      intro found same
      cases same
      exact fails
    · rw [probing]
      exact fun candidate member => others candidate (fewer member)
    · exact fun _ => absent
    · rw [probing]
      exact nofun
    · exact hidden.catalog

theorem hidden_joined {settings : Settings} {pending : List Candidate} {skipped : List Skipped}
    {candidate : Candidate} {result : Option ProbeResult} (hidden : Hidden o log before)
    (phase : before.phase = .probing settings pending skipped) (member : candidate ∈ pending) :
    Hidden o log (before.conclude settings (pending.erase candidate) skipped candidate result) := by
  rcases hidden with ⟨config, keys, fails, others, absent, merged, catalog⟩
  rw [phase] at fails others absent
  constructor
  · rw [conclude_eq]
    exact config
  · intro key cached found
    rcases lookup_conclude.mp found with ⟨rfl, confirmed⟩ | ⟨-, old⟩
    · rcases Option.map_eq_some_iff.mp confirmed with ⟨page, -, rfl⟩
      rfl
    · exact keys key cached old
  · rw [conclude_eq]
    exact fails
  · rw [conclude_eq]
    exact fun other inside => others other (List.mem_of_mem_erase inside)
  · intro _
    apply Option.eq_none_iff_forall_ne_some.mpr
    intro cached found
    rcases lookup_conclude.mp found with ⟨same, -⟩ | ⟨-, old⟩
    · exact others candidate member same.symm
    · rw [absent rfl] at old
      cases old
  · rw [conclude_eq]
    exact nofun
  · rw [conclude_eq]
    exact catalog

theorem hidden_step (taken : Discovery.Stepped join before event dials after)
    (excluded : ∀ config, event = .reload config → Excluded config o)
    (hidden : Hidden o log before) : Hidden o (⟨before, event, dials, after⟩ :: log) after := by
  rcases id hidden with ⟨config, keys, fails, others, absent, merged, catalog⟩
  cases taken with
  | reload new =>
      have next : Hidden o log { before with config := new } :=
        ⟨excluded new rfl, keys, fails, others, absent, merged, catalog⟩
      exact next.quiet nofun
  | advance elapsed =>
      have next : Hidden o log { before with now := before.now + elapsed } :=
        ⟨config, keys, fails, others, absent, merged, catalog⟩
      exact next.quiet nofun
  | disabled phase off =>
      have next : Hidden o log { before with cache := ∅, phase := .rebuilding } :=
        ⟨config, by simp, nofun, nofun, by simp, nofun, catalog⟩
      exact next.quiet nofun
  | begin phase on =>
      have next : Hidden o log { before with phase := .starting (Settings.of before.config) } := by
        refine ⟨config, keys, ?_, nofun, nofun, nofun, catalog⟩
        intro found same
        cases same
        exact config.discovered on
      exact next.quiet nofun
  | spawn phase =>
      rename_i settings
      rw [phase] at fails
      have next : Hidden o log { before with phase := .enumerating settings } :=
        ⟨config, keys, fails, nofun, nofun, nofun, catalog⟩
      exact next.quiet nofun
  | enumerated attributed tcp tcp6 phase => exact (hidden_enumerated hidden phase).quiet nofun
  | enumerationFailed phase =>
      have next : Hidden o log { before with phase := .waiting } :=
        ⟨config, keys, nofun, nofun, nofun, nofun, catalog⟩
      exact next.quiet nofun
  | joined candidate exchanges phase member =>
      exact (hidden_joined hidden phase member).quiet nofun
  | joinFailed candidate exchanges phase member =>
      rename_i settings pending skipped
      rw [phase] at fails others absent
      have next : Hidden o log
          { before with phase := .probing settings (pending.erase candidate) skipped } :=
        ⟨config, keys, fails, fun other inside => others other (List.mem_of_mem_erase inside),
          absent, nofun, catalog⟩
      exact next.quiet nofun
  | report phase =>
      rename_i settings skipped
      rw [phase] at absent
      have next : Hidden o log { before with lastScan := skipped, phase := .rebuilding } :=
        ⟨config, keys, nofun, nofun, absent, nofun, catalog⟩
      exact next.quiet nofun
  | merge phase =>
      rw [phase] at absent
      have next : Hidden o log { before with
          phase := .publishing (Catalog.rebuild before.config.apps before.discovered) } :=
        ⟨config, keys, nofun, nofun, nofun, rebuild_excluded config keys (absent rfl), catalog⟩
      exact next.quiet nofun
  | publish phase =>
      rw [phase] at merged
      exact ⟨config, keys, nofun, nofun, nofun, nofun, fun _ => merged⟩
  | bump phase =>
      have next : Hidden o log { before with
          catalogGeneration := before.catalogGeneration + 1, phase := .waiting } :=
        ⟨config, keys, nofun, nofun, nofun, nofun, catalog⟩
      exact next.quiet nofun

theorem hidden_begun (taken : Discovery.Stepped join before .begin dials after)
    (excluded : Excluded before.config o)
    (keys : ∀ key cached, before.cache.lookup key = some cached → cached.app.origin = key) :
    Hidden o [] after := by
  cases taken with
  | disabled phase off => exact ⟨excluded, by simp, nofun, nofun, by simp, nofun, by simp⟩
  | begin phase on =>
      refine ⟨excluded, keys, ?_, nofun, nofun, nofun, by simp⟩
      intro found same
      cases same
      exact excluded.discovered on

/-- What has been hidden stays so. -/
theorem hidden_later {older base : List ScanEntry} {start middle final : Engine}
    (run : Run (scanner join) start (log ++ base) final)
    (first : Run (scanner join) start base middle) (hidden : Hidden o older middle)
    (still : ∀ entry ∈ log, ∀ config, entry.event = .reload config → Excluded config o) :
    Hidden o (log ++ older) final := by
  apply run.invariant_since (fun newer engine => Hidden o (newer ++ older) engine)
    (fun entry => ∀ config, entry.event = .reload config → Excluded config o) still
  · intro other again
    rw [again.same_end first]
    exact hidden
  · intro newer before event dials after taken allowed held
    exact hidden_step (Discovery.stepped taken) allowed held

/-- From the beginning of a scan under a config that excludes the origin. -/
theorem hidden_scan {config : Config} {now : Nat} {final : Engine} {base : List ScanEntry}
    {begin : ScanEntry}
    (run : Run (scanner join) (.start config now) (log ++ begin :: base) final)
    (begins : begin.event = .begin) (excluded : Excluded begin.before.config o)
    (still : ∀ entry ∈ log, ∀ config, entry.event = .reload config → Excluded config o) :
    Hidden o log final := by
  rcases run.split with ⟨before, taken⟩
  rw [begins] at taken
  have begun : Hidden o [] begin.after :=
    hidden_begun (Discovery.stepped taken) excluded (fun _ _ found => cached_origin before found)
  have hidden := hidden_later run (before.step (begins ▸ taken)) begun still
  rw [List.append_nil] at hidden
  exact hidden

/-! In the daemon. -/

omit [DecidableEq Node] [EndpointId Node] in
theorem scanLog_append (later earlier : Log Node) :
    scanLog (later ++ earlier) = scanLog later ++ scanLog earlier := List.filterMap_append

theorem scanLog_begin {begin : LogEntry Node} {base : Log Node}
    (taken : (machine self join).step begin.before begin.event = some (begin.output, begin.after))
    (begins : begin.event = .scan .begin) : ∃ dials,
      scanLog (begin :: base) =
        ⟨begin.before.engine, .begin, dials, begin.after.engine⟩ :: scanLog base := by
  rcases begin with ⟨before, event, output, after⟩
  dsimp only at taken begins
  cases begins
  cases step_cases taken with
  | scan event dials engine own moved => exact ⟨dials, rfl⟩

omit [DecidableEq Node] [EndpointId Node] in
theorem scanLog_publish {log : Log Node} {publish : LogEntry Node} (member : publish ∈ log)
    (published : publish.event = .publish) : ∃ entry ∈ scanLog log, entry.event = .publish := by
  refine ⟨⟨publish.before.engine, .publish, [], publish.after.engine⟩,
    List.mem_filterMap.mpr ⟨publish, member, ?_⟩, rfl⟩
  rw [engineStep, published]
  rfl

theorem hidden_since {log base : Log Node} {begin : LogEntry Node}
    (run : Run (machine self join) (start boot) (log ++ begin :: base) state)
    (begins : begin.event = .scan .begin) (excluded : Excluded begin.before.hub.server.config o)
    (still : ∀ entry ∈ log, ∀ config ∈ installed entry.event, Excluded config o) :
    Hidden o (scanLog log) state.engine := by
  rcases run.split with ⟨before, taken⟩
  rcases scanLog_begin taken begins with ⟨dials, shape⟩
  have scanned := engine_run run
  rw [scanLog_append, shape] at scanned
  rw [(agreement_run before).config] at excluded
  exact hidden_scan scanned rfl excluded
    (every_scan (fun entry member => run.taken (List.mem_append_left _ member)) still)

theorem hidden_dials {entry : LogEntry Node} {log : List ScanEntry} {dials : List Dial}
    (taken : (machine self join).step entry.before entry.event = some (entry.output, entry.after))
    (hidden : Hidden o log entry.before.engine) (probes : entry.output = .dials dials) :
    ∀ dial ∈ dials, ¬ (dial.host = o.host ∧ dial.port = o.port) := by
  rcases entry with ⟨before, event, output, after⟩
  dsimp only at taken probes hidden
  cases probes
  rintro dial member ⟨host, port⟩
  cases step_cases taken with
  | scan event dials engine own moved =>
      have reached (candidate : Candidate) (exchanges : List (Option RawResponse))
          (known : candidate ∈ before.engine.phase.pending)
          (made : dial ∈ (probeHttp join candidate.origin exchanges).1) : False := by
        have address := probeLoop_dials join _ _ _ _ dial made
        exact hidden.pending candidate known
          (origin_eq (address.2.symm.trans port) (address.1.symm.trans host))
      cases Discovery.stepped moved with
      | joined candidate exchanges phase known =>
          apply reached candidate exchanges _ member
          rw [phase]
          exact known
      | joinFailed candidate exchanges phase known =>
          apply reached candidate exchanges _ member
          rw [phase]
          exact known
      | _ => cases member

theorem proxied_listed {entry : LogEntry Node} {node : Node} {arrival : Arrival} {subPath : Str}
    (taken : (machine self join).step entry.before entry.event = some (entry.output, entry.after))
    (proxied : entry.output = .hub (.served (.dispatched node arrival (.proxy o subPath)))) :
    ∃ app ∈ entry.before.hub.server.catalog.apps, app.origin = o := by
  rcases entry with ⟨before, event, output, after⟩
  dsimp only at taken proxied
  cases proxied
  cases step_cases taken with
  | hub event output hub own moved =>
      exact proxied_entry (dispatched_step moved)

theorem unreachable_of_absent {later base : Log Node}
    (run : Run (machine self join) (start boot) (later ++ base) state)
    (absent : ∀ newer, newer ⊆ later → ∀ middle,
      Run (machine self join) (start boot) (newer ++ base) middle →
        ∀ app ∈ middle.hub.server.catalog.apps, app.origin ≠ o) :
    ∀ entry ∈ later, ∀ node arrival subPath,
      entry.output ≠ .hub (.served (.dispatched node arrival (.proxy o subPath))) := by
  intro entry member node arrival subPath proxied
  rcases List.append_of_mem member with ⟨newer, older, rfl⟩
  rw [List.append_assoc, List.cons_append] at run
  rcases run.split with ⟨before, taken⟩
  rcases proxied_listed taken proxied with ⟨app, listed, same⟩
  exact absent older (by simp) entry.before before app listed same

/-- After a publication by a scan that began under a config that excludes the origin. -/
theorem unreachable_published {later middle base : Log Node} {publish begin : LogEntry Node}
    (run : Run (machine self join) (start boot)
      (later ++ publish :: (middle ++ begin :: base)) state)
    (begins : begin.event = .scan .begin) (published : publish.event = .publish)
    (excluded : Excluded begin.before.hub.server.config o)
    (still : ∀ entry ∈ later ++ publish :: middle, ∀ config ∈ installed entry.event,
      Excluded config o) :
    (∀ app ∈ state.hub.server.catalog.apps, app.origin ≠ o) ∧
      ∀ entry ∈ later, ∀ node arrival subPath,
        entry.output ≠ .hub (.served (.dispatched node arrival (.proxy o subPath))) := by
  have absent (newer : Log Node) (known : newer ⊆ later) (state : State Node)
      (run : Run (machine self join) (start boot)
        (newer ++ publish :: (middle ++ begin :: base)) state) :
      ∀ app ∈ state.hub.server.catalog.apps, app.origin ≠ o := by
    rw [← List.cons_append, ← List.append_assoc] at run
    have hidden := hidden_since run begins excluded (by
      intro entry member
      rcases List.mem_append.mp member with new | old
      · exact still entry (List.mem_append_left _ (known new))
      · exact still entry (List.mem_append_right _ old))
    rw [(agreement_run run).catalog]
    exact hidden.catalog (scanLog_publish (by simp) published)
  exact ⟨absent later (List.Subset.refl _) state run, unreachable_of_absent run absent⟩

/-- From the beginning of a scan under a config that excludes an origin, and while no reload lets
the origin in again, nothing probes it; once a catalog has been published since, the origin is not
listed and no request is dispatched to it. -/
theorem hidden_unreachable {log base : Log Node} {begin : LogEntry Node}
    (run : Run (machine self join) (start boot) (log ++ begin :: base) state)
    (begins : begin.event = .scan .begin) (excluded : Excluded begin.before.hub.server.config o)
    (still : ∀ entry ∈ log, ∀ config ∈ installed entry.event, Excluded config o) :
    (∀ entry ∈ log, ∀ dials, entry.output = .dials dials →
        ∀ dial ∈ dials, ¬ (dial.host = o.host ∧ dial.port = o.port)) ∧
      ∀ later publish middle, log = later ++ publish :: middle → publish.event = .publish →
        (∀ app ∈ state.hub.server.catalog.apps, app.origin ≠ o) ∧
          ∀ entry ∈ later, ∀ node arrival subPath,
            entry.output ≠ .hub (.served (.dispatched node arrival (.proxy o subPath))) := by
  constructor
  · intro entry member dials probes
    rcases List.append_of_mem member with ⟨newer, older, rfl⟩
    rw [List.append_assoc, List.cons_append] at run
    rcases run.split with ⟨before, taken⟩
    have hidden := hidden_since before begins excluded
      (fun entry member => still entry (List.mem_append_right _ (List.mem_cons_of_mem _ member)))
    exact hidden_dials taken hidden probes
  · rintro later publish middle rfl published
    rw [List.append_assoc, List.cons_append] at run
    exact unreachable_published run begins published excluded still

def viteExcluded : Config :=
  { Config.default with
    discovery := { DiscoveryConfig.default with excludeOrigins := ["localhost:5173".toList] } }

/-- The app is published, hidden by a reload, and asked for after the next scan. -/
def revisiting : List (Event Bytes32) :=
  scanning vite "Vite" ++ [.reload viteExcluded, .scan .begin, .scan .spawn,
    .scan (.enumerated [vite] none none), .scan .report, .scan .merge, .publish, .scan .bump] ++
    visiting "/app/vite/"

theorem excluded_vite : Excluded viteExcluded vite.origin := by
  have lists : viteExcluded.Lists vite.origin :=
    ⟨"localhost:5173".toList, List.mem_singleton_self _, by decide +kernel⟩
  exact excluded_of_lists lists (by decide)

theorem vite_hidden : ∃ log state,
    (machine Hub.server noUrls).exec [] (start Hub.fixedBoot) revisiting = some (log, state) ∧
      (∀ app ∈ state.hub.server.catalog.apps, app.origin ≠ vite.origin) ∧
      ∀ entry ∈ log.take 13, ∀ node arrival subPath,
        entry.output ≠ .hub (.served (.dispatched node arrival (.proxy vite.origin subPath))) := by
  rcases exec_checked (machine Hub.server noUrls) _ revisiting
    (fun log _ =>
      (log.drop 14)[4]?.any (fun entry : LogEntry Bytes32 => decide
        (entry.before.hub.server.config = viteExcluded)) = true ∧
      ∀ entry ∈ log.take 13 ++ (log.drop 13).take 5, installed entry.event = none)
    (by decide +kernel : ((machine Hub.server noUrls).exec [] (start Hub.fixedBoot)
      revisiting).any _)
    with ⟨log, state, executed, run, configured, quiet⟩
  have events := exec_events executed
  have published : (log.map Entry.event)[13]? = some .publish := by
    rw [events]
    rfl
  have begun : ((log.drop 14).map Entry.event)[4]? = some (.scan .begin) := by
    rw [List.map_drop, events]
    rfl
  rw [List.getElem?_map, Option.map_eq_some_iff] at published begun
  rcases published with ⟨publish, here, published⟩
  rcases begun with ⟨begin, there, begins⟩
  rw [there] at configured
  have excluded : Excluded begin.before.hub.server.config vite.origin := by
    rw [of_decide_eq_true configured]
    exact excluded_vite
  have cut := eq_take_cons_drop here
  rw [eq_take_cons_drop there] at cut
  have recent : (log.drop 13).take 5 = publish :: (log.drop 14).take 4 := by
    rw [List.drop_eq_getElem?_toList_append, here]
    rfl
  rw [recent] at quiet
  have still : ∀ entry ∈ log.take 13 ++ publish :: (log.drop 14).take 4,
      ∀ config ∈ installed entry.event, Excluded config vite.origin := by
    intro entry member config inside
    rw [quiet entry member] at inside
    cases inside
  rw [cut, ← List.cons_append, ← List.append_assoc] at run
  have hidden := (hidden_unreachable run begins excluded still).2 _ _ _ rfl published
  exact ⟨log, state, executed, hidden.1, hidden.2⟩

end RaemoteServer.Whole
