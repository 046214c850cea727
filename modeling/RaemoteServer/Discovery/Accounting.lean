import RaemoteServer.Discovery.Cycle

/-! What `last_scan` says of the sockets of a cycle. -/

namespace RaemoteServer.Discovery

open Text Collections Runs Http
open scoped List

/-- The filter's report of a socket, or the report of its candidate's probe; then its origin is
not exposed. -/
inductive Reported (cache : HashMap Origin CachedApp) (l : Listener) : Skipped → Prop
  | filtered {reason : SkipReason} (early : reason ≠ .notCredible ∧ reason ≠ .unreachable) :
      Reported cache l (l.skip reason)
  | probed {reason : SkipReason} (late : reason = .notCredible ∨ reason = .unreachable)
      (absent : cache.lookup l.origin = none) : Reported cache l (l.candidate.skip reason)

/-- The socket is that of the one candidate for its origin, and the origin is in the cache. -/
structure Exposed (candidates : List Candidate) (cache : HashMap Origin CachedApp) (l : Listener) :
    Prop where
  candidate : l.candidate ∈ candidates
  only : ∀ candidate ∈ candidates, candidate.origin = l.origin → candidate = l.candidate
  cached : (cache.lookup l.origin).isSome

/-- Each socket that is considered is reported or exposed, and nothing else is reported. The
account gives the report of a socket, or none for one that is exposed. -/
structure Accounts (table : List Listener) (candidates : List Candidate)
    (cache : HashMap Origin CachedApp) (lastScan : List Skipped)
    (account : List (Listener × Option Skipped)) : Prop where
  sockets : account.map Prod.fst = table.filter Listener.considered
  reports : lastScan ~ account.filterMap Prod.snd
  reported : ∀ l skipped, (l, some skipped) ∈ account → Reported cache l skipped
  exposed : ∀ l, (l, none) ∈ account → Exposed candidates cache l
  once : ((account.filter (·.2.isNone)).map (·.1.origin)).Nodup

/-! The account of a cycle. -/

/-- The report of a socket, given what became of the candidates. -/
def Fate.settled (failure : Candidate → Option Skipped) : Fate → Option Skipped
  | .reported skipped => some skipped
  | .admitted candidate => failure candidate

def accountOf (failure : Candidate → Option Skipped) (verdicts : List (Listener × Fate)) :
    List (Listener × Option Skipped) :=
  verdicts.map (fun verdict => (verdict.1, verdict.2.settled failure))

theorem account_reports (failure : Candidate → Option Skipped) (verdicts : List (Listener × Fate)) :
    (accountOf failure verdicts).filterMap Prod.snd ~
      verdicts.filterMap (·.2.report) ++
        (verdicts.filterMap (·.2.candidate)).filterMap failure := by
  induction verdicts with
  | nil => exact List.Perm.refl _
  | cons verdict rest ih =>
      rcases verdict with ⟨l, fate⟩
      rw [accountOf, List.map_cons]
      cases fate with
      | reported skipped =>
          simp only [List.filterMap_cons, Fate.settled, Fate.report_reported,
            Fate.candidate_reported, List.cons_append]
          exact ih.cons skipped
      | admitted candidate =>
          simp only [List.filterMap_cons, Fate.settled, Fate.report_admitted,
            Fate.candidate_admitted]
          cases failure candidate with
          | none => exact ih
          | some skipped => exact (ih.cons skipped).trans List.perm_middle.symm

theorem account_once (failure : Candidate → Option Skipped) {filter : ListenerFilter}
    {verdicts : List (Listener × Fate)} (own : ∀ item ∈ verdicts, item.2.Of filter item.1) :
    ((accountOf failure verdicts).filter (·.2.isNone)).map (·.1.origin) <+
      (verdicts.filterMap (·.2.candidate)).map Candidate.origin := by
  induction verdicts with
  | nil => exact List.Sublist.refl _
  | cons verdict rest ih =>
      have tail := ih (fun item member => own item (List.mem_cons_of_mem _ member))
      have here := own verdict List.mem_cons_self
      obtain ⟨l, fate⟩ := verdict
      dsimp only at here
      have head : accountOf failure ((l, fate) :: rest) =
          (l, fate.settled failure) :: accountOf failure rest := rfl
      rw [head, List.filter_cons, List.filterMap_cons]
      cases fate with
      | reported skipped =>
          rw [Fate.candidate_reported]
          exact tail
      | admitted candidate =>
          obtain ⟨rfl, -⟩ := here
          rw [Fate.candidate_admitted]
          split
          · exact tail.cons_cons l.origin
          · exact tail.cons l.origin

variable {join : Str → Str → Option Url} {final : Engine} {settings : Settings}
  {outcome : FilterOutcome} {log earlier : List ScanEntry} {cycle : ScanEntry}

/-- The report of the probe of a candidate, if there was one and it failed. -/
def failureOf (join : Str → Str → Option Url) (log : List ScanEntry) (candidate : Candidate) :
    Option Skipped :=
  ((probes join log).find? (fun probe => probe.1 = candidate)).bind
    (fun probe => candidate.failure probe.2)

theorem failureOf_probe (distinct : ((probes join log).map Prod.fst).Nodup)
    {probe : Candidate × Option ProbeResult} (member : probe ∈ probes join log) :
    failureOf join log probe.1 = probe.1.failure probe.2 := by
  rw [failureOf, find?_key distinct member]
  rfl

theorem failureOf_unprobed {candidate : Candidate}
    (unprobed : candidate ∉ (probes join log).map Prod.fst) :
    failureOf join log candidate = none := by
  have absent : (probes join log).find? (fun probe => probe.1 = candidate) = none := by
    rw [List.find?_eq_none]
    intro probe member same
    exact unprobed (List.mem_map.mpr ⟨probe, member, of_decide_eq_true same⟩)
  rw [failureOf, absent]
  rfl

theorem failures_perm (ended : Ended join outcome (toProbe settings outcome cycle) log final)
    (enumerated : Enumerated settings outcome cycle) :
    failures join log ~ outcome.candidates.filterMap (failureOf join log) := by
  have origins := ended.distinct enumerated
  have distinct : ((probes join log).map Prod.fst).Nodup := by
    refine List.Nodup.of_map Candidate.origin ?_
    rwa [List.map_map]
  have probed : ((probes join log).map Prod.fst).filterMap (failureOf join log) =
      (probes join log).filterMap (fun probe => probe.1.failure probe.2) := by
    rw [List.filterMap_map]
    exact List.filterMap_congr (fun probe member => failureOf_probe distinct member)
  have others : (outcome.candidates.filter (fun candidate =>
      !needsProbe settings.recheck cycle.before.now cycle.after.cache candidate)).filterMap
        (failureOf join log) = [] := by
    rw [List.filterMap_eq_nil_iff]
    intro candidate member
    apply failureOf_unprobed
    intro inside
    have due := (List.mem_filter.mp (ended.probed.mem_iff.mp inside)).2
    simp [due] at member
  have reversed : failures join log ~
      (probes join log).filterMap (fun probe => probe.1.failure probe.2) :=
    (List.reverse_perm (probes join log)).filterMap _
  calc failures join log
      _ ~ (probes join log).filterMap (fun probe => probe.1.failure probe.2) := reversed
      _ = ((probes join log).map Prod.fst).filterMap (failureOf join log) := probed.symm
      _ ~ (toProbe settings outcome cycle).filterMap (failureOf join log) :=
          ended.probed.filterMap _
      _ = (toProbe settings outcome cycle).filterMap (failureOf join log) ++ [] :=
          (List.append_nil _).symm
      _ = (toProbe settings outcome cycle ++ outcome.candidates.filter (fun candidate =>
            !needsProbe settings.recheck cycle.before.now cycle.after.cache candidate)).filterMap
              (failureOf join log) := by rw [List.filterMap_append, others]
      _ ~ outcome.candidates.filterMap (failureOf join log) :=
          (List.filter_append_perm _ _).filterMap _

theorem failure_none {candidate : Candidate} {result : Option ProbeResult} :
    candidate.failure result = none ↔ ∃ found, result = some found ∧ isCredible found = true := by
  cases result with
  | none => simp [Candidate.failure]
  | some found => simp [Candidate.failure]

theorem failure_reason {candidate : Candidate} {result : Option ProbeResult} {skipped : Skipped}
    (failed : candidate.failure result = some skipped) :
    ∃ reason, (reason = .notCredible ∨ reason = .unreachable) ∧
      skipped = candidate.skip reason := by
  cases result with
  | none => exact ⟨.unreachable, Or.inr rfl, (Option.some.inj failed).symm⟩
  | some found =>
      cases credible : isCredible found with
      | true => simp [Candidate.failure, credible] at failed
      | false =>
          simp only [Candidate.failure, credible, Bool.false_eq_true, if_false,
            Option.some.injEq] at failed
          exact ⟨.notCredible, Or.inl rfl, failed.symm⟩

theorem confirmed_credible {candidate : Candidate} {now : Nat} {result : Option ProbeResult}
    {cached : CachedApp} (confirmed : candidate.confirmed now result = some cached) :
    candidate.failure result = none := by
  rw [failure_none]
  obtain ⟨found, kept, -⟩ := Option.map_eq_some_iff.mp confirmed
  exact ⟨found, Option.filter_eq_some_iff.mp kept⟩

section
variable {config : Config} {now : Nat}

/-- The origin of a probe that failed is not in the cache. -/
theorem failed_absent
    (inside : InCycle join (.start config now) final settings outcome log earlier cycle)
    (ended : Ended join outcome (toProbe settings outcome cycle) log final)
    {probe : Candidate × Option ProbeResult} (member : probe ∈ probes join log)
    (failed : probe.1.failure probe.2 ≠ none) : final.cache.lookup probe.1.origin = none := by
  rw [Option.eq_none_iff_forall_ne_some]
  intro cached found
  obtain ⟨-, ⟨entry, known, candidate, result, probed, same, confirmed⟩ | ⟨others, -⟩⟩ :=
    (lookup_iff_due inside ended _ cached).mp found
  · have listed : (candidate, result) ∈ probes join log :=
      List.mem_filterMap.mpr ⟨entry, known, probed⟩
    obtain rfl := List.inj_on_of_nodup_map (ended.distinct inside.enumerated) listed member same
    exact failed (confirmed_credible confirmed)
  · exact others probe member rfl

/-- A candidate without a failed probe is in the cache. -/
theorem settled_cached
    (inside : InCycle join (.start config now) final settings outcome log earlier cycle)
    (ended : Ended join outcome (toProbe settings outcome cycle) log final)
    {candidate : Candidate} (member : candidate ∈ outcome.candidates)
    (passed : failureOf join log candidate = none) :
    (final.cache.lookup candidate.origin).isSome := by
  rw [Option.isSome_iff_exists]
  have listed : candidate.origin ∈ outcome.candidates.map Candidate.origin :=
    List.mem_map_of_mem member
  by_cases probed : candidate ∈ (probes join log).map Prod.fst
  · obtain ⟨probe, here, rfl⟩ := List.mem_map.mp probed
    have distinct : ((probes join log).map Prod.fst).Nodup := by
      refine List.Nodup.of_map Candidate.origin ?_
      rw [List.map_map]
      exact ended.distinct inside.enumerated
    rw [failureOf_probe distinct here, failure_none] at passed
    obtain ⟨found, result, credible⟩ := passed
    obtain ⟨entry, known, shape⟩ := List.mem_filterMap.mp here
    have confirms : Confirms join probe.1.origin ⟨probe.1.app found, entry.before.now⟩ entry :=
      ⟨probe.1, probe.2, shape, rfl, by
        simp [Candidate.confirmed, result, Option.filter, credible]⟩
    exact ⟨_, (lookup_iff_due inside ended _ _).mpr ⟨listed, Or.inl ⟨entry, known, confirms⟩⟩⟩
  · have kept : candidate ∉ toProbe settings outcome cycle :=
      fun due => probed (ended.probed.mem_iff.mpr due)
    have fresh : needsProbe settings.recheck cycle.before.now cycle.after.cache candidate ≠ true :=
      fun needs => kept (List.mem_filter.mpr ⟨member, needs⟩)
    cases found : cycle.after.cache.lookup candidate.origin with
    | none => simp [needsProbe, found] at fresh
    | some cached =>
        have verified := (cache_verified inside.middle _ _).mp found
        rw [verified_enumerated inside.enumerated.found] at verified
        have others : ∀ probe ∈ probes join log, probe.1.origin ≠ candidate.origin := by
          intro probe here same
          have due := ended.probed.mem_iff.mp (List.mem_map_of_mem here)
          have equal := List.inj_on_of_nodup_map inside.enumerated.origins
            (List.mem_filter.mp due).1 member same
          exact kept (equal ▸ due)
        exact ⟨cached, (lookup_iff_due inside ended _ _).mpr
          ⟨listed, Or.inr ⟨others, verified.2, recent_of_not_due member kept found⟩⟩⟩

/-- Every socket of a completed cycle is accounted for. -/
theorem cycle_accounts
    (inside : InCycle join (.start config now) final settings outcome log earlier cycle)
    (ended : Ended join outcome (toProbe settings outcome cycle) log final) {table : List Listener}
    (filtered : outcome = filterListenersDetailed table settings.filter) :
    ∃ account, Accounts table outcome.candidates final.cache final.lastScan account := by
  have admitted := candidates_perm settings.filter table
  have early := skipped_perm settings.filter table
  rw [← filtered] at admitted early
  refine ⟨accountOf (failureOf join log) (settings.filter.verdicts table), ?_⟩
  -- where an item of the account comes from
  have source {l : Listener} {report : Option Skipped}
      (member : (l, report) ∈ accountOf (failureOf join log) (settings.filter.verdicts table)) :
      ∃ fate, (l, fate) ∈ settings.filter.verdicts table ∧ fate.Of settings.filter l ∧
        report = fate.settled (failureOf join log) := by
    obtain ⟨⟨other, fate⟩, inside, same⟩ := List.mem_map.mp member
    obtain ⟨rfl, rfl⟩ := Prod.mk.inj same
    exact ⟨fate, inside, fates_of inside, rfl⟩
  have listed {l : Listener} {candidate : Candidate}
      (member : (l, .admitted candidate) ∈ settings.filter.verdicts table) :
      candidate ∈ outcome.candidates :=
    admitted.mem_iff.mpr (List.mem_filterMap.mpr ⟨_, member, rfl⟩)
  constructor
  · rw [accountOf, List.map_map]
    exact fates_considered settings.filter .empty table
  · calc final.lastScan
        _ = outcome.skipped ++ failures join log := ended.reported
        _ ~ (settings.filter.verdicts table).filterMap (·.2.report) ++
              outcome.candidates.filterMap (failureOf join log) :=
            early.append (failures_perm ended inside.enumerated)
        _ ~ (settings.filter.verdicts table).filterMap (·.2.report) ++
              ((settings.filter.verdicts table).filterMap (·.2.candidate)).filterMap
                (failureOf join log) := (admitted.filterMap _).append_left _
        _ ~ (accountOf (failureOf join log) (settings.filter.verdicts table)).filterMap Prod.snd :=
            (account_reports _ _).symm
  · intro l skipped member
    obtain ⟨fate, inside', own, settled⟩ := source member
    cases fate with
    | reported report =>
        obtain ⟨reason, rfl, early⟩ := own
        obtain rfl := Option.some.inj settled
        exact .filtered early
    | admitted candidate =>
        obtain ⟨rfl, -⟩ := own
        have found : failureOf join log l.candidate = some skipped := settled.symm
        obtain ⟨probe, searched, failed⟩ := Option.bind_eq_some_iff.mp found
        have same : probe.1 = l.candidate := by simpa using List.find?_some searched
        rw [← same] at failed
        have absent := failed_absent inside ended (List.mem_of_find?_eq_some searched)
          (by rw [failed]; exact nofun)
        obtain ⟨reason, late, rfl⟩ := failure_reason failed
        rw [same] at absent ⊢
        exact .probed late absent
  · intro l member
    obtain ⟨fate, inside', own, settled⟩ := source member
    cases fate with
    | reported report => cases settled
    | admitted candidate =>
        obtain ⟨rfl, -⟩ := own
        have known := listed inside'
        constructor
        · exact known
        · exact fun candidate other same =>
            List.inj_on_of_nodup_map inside.enumerated.origins other known same
        · exact settled_cached inside ended known settled.symm
  · have distinct := (fates_origins settings.filter .empty table).1
    exact distinct.sublist (account_once _ fun item member => fates_of member)

end

/-! Cycles that publish a catalog. -/

/-- A cycle that has published and ended; `log` is what happened since it began. -/
structure Completed (join : Str → Str → Option Url) (config : Config) (now : Nat) (final : Engine)
    (log earlier : List ScanEntry) (begin : ScanEntry) : Prop where
  run : Run (scanner join) (.start config now) (log ++ begin :: earlier) final
  begins : begin.event = .begin
  own : ∀ entry ∈ log, entry.event ≠ .begin
  calm : ∀ entry ∈ log, entry.event.panicked = false
  published : ∃ entry ∈ log, entry.event = .publish
  ended : final.phase = .waiting

/-- `last_scan` is about this cycle: empty if discovery was disabled, and the account of the
sockets it enumerated otherwise. -/
def Describes (log : List ScanEntry) (begin : ScanEntry) (final : Engine) : Prop :=
  if (settingsOf begin).enabled then
    ∃ cycle ∈ log, ∃ attributed tcp tcp6 account,
      cycle.event = .enumerated attributed tcp tcp6 ∧
        Accounts ((settingsOf begin).table attributed tcp tcp6)
          (enumerate (settingsOf begin) attributed tcp tcp6).candidates final.cache final.lastScan
          account
  else final.lastScan = []

variable {config : Config} {now : Nat} {begin : ScanEntry}

theorem begin_step {before after : Engine} {event : ScanEvent} {dials : List Dial}
    (begins : event = .begin) (taken : Stepped join before event dials after) :
    ((Settings.of before.config).enabled = true ∧ after.phase = .starting (.of before.config)) ∨
      (Settings.of before.config).enabled = false ∧ after.phase = .rebuilding ∧
        after.lastScan = before.lastScan := by
  subst begins
  cases taken with
  | disabled phase off => exact Or.inr ⟨off, rfl, rfl⟩
  | begin phase on => exact Or.inl ⟨on, rfl⟩

/-- Nothing is published, and the enumeration is still to come or has failed. -/
structure Opening (settings : Settings) (log : List ScanEntry) (state : Engine) : Prop where
  quiet : ∀ entry ∈ log, entry.event ≠ .publish
  phase : state.phase = .starting settings ∨ state.phase = .enumerating settings ∨
    state.phase = .waiting

theorem opening_step {state next : Engine} {event : ScanEvent} {dials : List Dial}
    (taken : Stepped join state event dials next) (own : event ≠ .begin)
    (opening : Opening settings log state) :
    (∃ outcome, Enumerated settings outcome ⟨state, event, dials, next⟩) ∨
      Opening settings (⟨state, event, dials, next⟩ :: log) next := by
  have quiet (other : event ≠ .publish) :
      ∀ entry ∈ (⟨state, event, dials, next⟩ : ScanEntry) :: log, entry.event ≠ .publish :=
    List.forall_mem_cons.mpr ⟨other, opening.quiet⟩
  have phases := opening.phase
  cases taken with
  | reload config => exact Or.inr ⟨quiet nofun, phases⟩
  | advance elapsed => exact Or.inr ⟨quiet nofun, phases⟩
  | disabled phase off => exact absurd rfl own
  | begin phase on => exact absurd rfl own
  | spawn phase =>
      simp only [phase, Phase.starting.injEq, reduceCtorEq, or_false] at phases
      exact Or.inr ⟨quiet nofun, Or.inr (Or.inl (by rw [phases]))⟩
  | enumerated attributed tcp tcp6 phase =>
      simp only [phase, Phase.enumerating.injEq, reduceCtorEq, or_false, false_or] at phases
      subst phases
      exact Or.inl ⟨_, phase, outcomeOf_enumerated phase⟩
  | enumerationFailed phase => exact Or.inr ⟨quiet nofun, Or.inr (Or.inr rfl)⟩
  | joined candidate exchanges phase member => simp [phase] at phases
  | joinFailed candidate exchanges phase member => simp [phase] at phases
  | report phase => simp [phase] at phases
  | merge phase => simp [phase] at phases
  | publish phase => simp [phase] at phases
  | bump phase => simp [phase] at phases

/-- An enabled cycle publishes nothing before it has enumerated. -/
theorem enumerated_of_published (completed : Completed join config now final log earlier begin)
    (on : (settingsOf begin).enabled = true) :
    ∃ later cycle front outcome, log = later ++ cycle :: front ∧
      Enumerated (settingsOf begin) outcome cycle := by
  have opened := completed.run.invariant_since
    (fun log state =>
      (∃ later cycle front outcome, log = later ++ cycle :: front ∧
        Enumerated (settingsOf begin) outcome cycle) ∨ Opening (settingsOf begin) log state)
    (fun entry => entry.event ≠ .begin) completed.own ?first ?kept
  case first =>
    intro middle run
    cases run with
    | step before taken =>
        rcases begin_step completed.begins (stepped taken) with ⟨-, phase⟩ | ⟨off, -⟩
        · exact Or.inr ⟨List.forall_mem_nil _, Or.inl phase⟩
        · rw [settingsOf, off] at on
          cases on
  case kept =>
    intro newer before event dials after taken own old
    rcases old with ⟨later, cycle, front, outcome, rfl, enumerated⟩ | opening
    · exact Or.inl ⟨_ :: later, cycle, front, outcome, rfl, enumerated⟩
    · rcases opening_step (stepped taken) own opening with ⟨outcome, enumerated⟩ | opening
      · exact Or.inl ⟨[], _, newer, outcome, rfl, enumerated⟩
      · exact Or.inr opening
  obtain ⟨entry, member, publishes⟩ := completed.published
  exact opened.resolve_right (fun opening => opening.quiet entry member publishes)

/-- A disabled cycle leaves `last_scan` as it was. -/
theorem disabled_keeps (completed : Completed join config now final log earlier begin)
    (off : (settingsOf begin).enabled = false) : final.lastScan = begin.before.lastScan := by
  have kept := completed.run.invariant_since
    (fun _ state => state.lastScan = begin.before.lastScan ∧
      ∀ settings pending skipped, state.phase ≠ .starting settings ∧
        state.phase ≠ .enumerating settings ∧ state.phase ≠ .probing settings pending skipped)
    (fun entry => entry.event ≠ .begin) completed.own ?first ?kept
  case first =>
    intro middle run
    cases run with
    | step before taken =>
        rcases begin_step completed.begins (stepped taken) with ⟨on, -⟩ | ⟨-, phase, same⟩
        · rw [settingsOf, on] at off
          cases off
        · exact ⟨same, by simp [phase]⟩
  case kept =>
    intro newer before event dials after taken own old
    obtain ⟨same, phases⟩ := old
    cases stepped taken with
    | reload config => exact ⟨same, phases⟩
    | advance elapsed => exact ⟨same, phases⟩
    | disabled phase off => exact absurd rfl own
    | begin phase on => exact absurd rfl own
    | spawn phase => exact absurd phase (phases _ [] []).1
    | enumerated attributed tcp tcp6 phase => exact absurd phase (phases _ [] []).2.1
    | enumerationFailed phase => exact absurd phase (phases _ [] []).2.1
    | joined candidate exchanges phase member => exact absurd phase (phases _ _ _).2.2
    | joinFailed candidate exchanges phase member => exact absurd phase (phases _ _ _).2.2
    | report phase => exact absurd phase (phases _ _ _).2.2
    | merge phase => exact ⟨same, by simp⟩
    | publish phase => exact ⟨same, by simp⟩
    | bump phase => exact ⟨same, by simp⟩
  exact kept.1

/-- `last_scan` is about the cycle that published last exactly when that cycle found discovery
enabled, or there was nothing to report before it. -/
theorem last_scan_describes_iff (completed : Completed join config now final log earlier begin) :
    Describes log begin final ↔
      (settingsOf begin).enabled = true ∨ begin.before.lastScan = [] := by
  cases on : (settingsOf begin).enabled with
  | false => simp [Describes, on, disabled_keeps completed on]
  | true =>
      simp only [Describes, on, if_true, true_or, iff_true]
      obtain ⟨later, cycle, front, outcome, rfl, enumerated⟩ := enumerated_of_published completed on
      obtain ⟨attributed, tcp, tcp6, event, shape⟩ := enumerated.event
      have inside : InCycle join (.start config now) final (settingsOf begin) outcome later
          (front ++ begin :: earlier) cycle :=
        { run := by simpa using completed.run
          enumerated
          own := fun entry member => completed.own entry (List.mem_append_left _ member)
          calm := fun entry member => completed.calm entry (List.mem_append_left _ member) }
      have progress := progress_run inside
      rw [completed.ended] at progress
      obtain ⟨account, accounts⟩ := cycle_accounts inside progress.1 shape
      rw [shape] at accounts
      exact ⟨cycle, by simp, attributed, tcp, tcp6, account, event, accounts⟩

/-! A server with nothing but `sshd` on it. -/

def sshd : Listener := .unattributed (.v4 ⟨0, 0, 0, 0⟩ 22)

def sshdScanned : List ScanEvent :=
  [.begin, .spawn, .enumerated [sshd] none none, .report, .merge, .publish, .bump]

def discoveryOff : Config :=
  { Config.default with discovery := { DiscoveryConfig.default with enabled := false } }

theorem sshd_accounted : ∃ log earlier begin final,
    Completed noUrls .default 0 final log earlier begin ∧ Describes log begin final ∧
      final.lastScan = [sshd.skip .belowMinPort] := by
  obtain ⟨history, final, -, run, begin, own, calm, published, ended, scan⟩ := exec_checked
    (scanner noUrls) (.start .default 0) sshdScanned
    (fun history final =>
      history[6]?.any (fun begin => begin.event = .begin ∧ (settingsOf begin).enabled = true) ∧
      (∀ entry ∈ history.take 6, entry.event ≠ .begin) ∧
      (∀ entry ∈ history.take 6, entry.event.panicked = false) ∧
      (∃ entry ∈ history.take 6, entry.event = .publish) ∧
      final.phase = .waiting ∧ final.lastScan = [sshd.skip .belowMinPort])
    (by decide +kernel)
  obtain ⟨begin, -, cut, begins, on⟩ := cut_at begin
  rw [cut] at run
  have completed : Completed noUrls .default 0 final (history.take 6) (history.drop 7) begin :=
    ⟨run, begins, own, calm, published, ended⟩
  exact ⟨_, _, begin, final, completed,
    (last_scan_describes_iff completed).mpr (Or.inl on), scan⟩

/-- Discovery is switched off, and the next cycle leaves the old report behind. -/
theorem disabled_scan_stale : ∃ log earlier begin final,
    Completed noUrls .default 0 final log earlier begin ∧ (settingsOf begin).enabled = false ∧
      final.lastScan = [sshd.skip .belowMinPort] ∧ ¬ Describes log begin final := by
  obtain ⟨history, final, -, run, begin, own, calm, published, ended, scan⟩ := exec_checked
    (scanner noUrls) (.start .default 0)
    (sshdScanned ++ [.reload discoveryOff, .begin, .merge, .publish, .bump])
    (fun history final =>
      history[3]?.any (fun begin => begin.event = .begin ∧ (settingsOf begin).enabled = false) ∧
      (∀ entry ∈ history.take 3, entry.event ≠ .begin) ∧
      (∀ entry ∈ history.take 3, entry.event.panicked = false) ∧
      (∃ entry ∈ history.take 3, entry.event = .publish) ∧
      final.phase = .waiting ∧ final.lastScan = [sshd.skip .belowMinPort])
    (by decide +kernel)
  obtain ⟨begin, -, cut, begins, off⟩ := cut_at begin
  rw [cut] at run
  refine ⟨_, _, begin, final, ⟨run, begins, own, calm, published, ended⟩, off, scan, ?_⟩
  simp [Describes, off, scan]

end RaemoteServer.Discovery
