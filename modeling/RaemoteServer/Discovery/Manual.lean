import RaemoteServer.Discovery.Cycle

/-! The configured apps in the published catalog, and what the config said in a cycle. -/

namespace RaemoteServer.Discovery

open Text Collections Runs Http

variable {join : Str → Str → Option Url} {config : Config} {now : Nat} {final : Engine}
  {log earlier : List ScanEntry} {begin : ScanEntry}

def manualEntries (catalog : Catalog) : List CatalogApp :=
  catalog.apps.filter (fun app => app.source = .manual)

/-- The manual entries are the apps of the config. -/
def Follows (catalog : Catalog) (config : Config) : Prop :=
  manualEntries catalog = config.apps.map manualEntry

instance (catalog : Catalog) (config : Config) : Decidable (Follows catalog config) :=
  inferInstanceAs (Decidable (_ = _))

theorem follows_rebuild (config : Config) (discovered : List DiscoveredApp) :
    Follows (Catalog.rebuild config.apps discovered) config := by
  obtain ⟨found, shape, -, -, source⟩ := rebuild_found config.apps discovered
  have configured : (config.apps.map manualEntry).filter (fun app => app.source = .manual) =
      config.apps.map manualEntry := by
    rw [List.filter_eq_self]
    intro app member
    obtain ⟨manual, -, rfl⟩ := List.mem_map.mp member
    rfl
  have discovered : found.filter (fun app => app.source = .manual) = [] := by
    rw [List.filter_eq_nil_iff]
    intro app member
    rw [source app member]
    decide
  rw [Follows, manualEntries, shape, List.filter_append, configured, discovered, List.append_nil]

/-- At some moment since the cycle began the shared config was this one. -/
def InForce (log : List ScanEntry) (begin : ScanEntry) (config : Config) : Prop :=
  config = begin.before.config ∨ ∃ entry ∈ log, config = entry.after.config

def FollowsOne (log : List ScanEntry) (begin : ScanEntry) (catalog : Catalog) : Prop :=
  ∃ config, InForce log begin config ∧ Follows catalog config

def Failed (log : List ScanEntry) : Prop := ∃ entry ∈ log, entry.event = .enumerationFailed

/-- A cycle from its first step to the one with which `scan_once` returns, whatever its course. -/
structure Returned (join : Str → Str → Option Url) (config : Config) (now : Nat) (final : Engine)
    (log earlier : List ScanEntry) (begin : ScanEntry) : Prop where
  run : Run (scanner join) (.start config now) (log ++ begin :: earlier) final
  begins : begin.event = .begin
  own : ∀ entry ∈ log, entry.event ≠ .begin
  returns : ∃ last rest, log = last :: rest ∧ last.before.phase ≠ .waiting
  waiting : final.phase = .waiting

/-- How far a cycle has come with the catalog. -/
inductive Course (log : List ScanEntry) (begin : ScanEntry) (state : Engine) : Prop
  | underway (calm : ¬ Failed log) (unwaiting : state.phase ≠ .waiting)
      (unpublished : state.phase ≠ .bumping) (same : state.catalog = begin.before.catalog)
      (next : ∀ catalog, state.phase = .publishing catalog → FollowsOne log begin catalog)
  | published (calm : ¬ Failed log) (phase : state.phase = .bumping ∨ state.phase = .waiting)
      (follows : FollowsOne log begin state.catalog)
  | abandoned (failed : Failed log) (phase : state.phase = .waiting)
      (same : state.catalog = begin.before.catalog)

theorem InForce.cons {newer : List ScanEntry} {config : Config}
    (inForce : InForce newer begin config)
    (entry : ScanEntry) : InForce (entry :: newer) begin config := by
  rcases inForce with first | ⟨later, member, same⟩
  · exact Or.inl first
  · exact Or.inr ⟨later, List.mem_cons_of_mem _ member, same⟩

theorem FollowsOne.cons {newer : List ScanEntry} {catalog : Catalog}
    (follows : FollowsOne newer begin catalog) (entry : ScanEntry) :
    FollowsOne (entry :: newer) begin catalog := by
  obtain ⟨config, inForce, same⟩ := follows
  exact ⟨config, inForce.cons entry, same⟩

theorem failed_cons {newer : List ScanEntry} {entry : ScanEntry}
    (other : entry.event ≠ .enumerationFailed) : Failed (entry :: newer) ↔ Failed newer := by
  simp [Failed, other]

/-- A step that leaves catalog and phase alone. -/
theorem course_quiet {newer : List ScanEntry} {state next : Engine} {entry : ScanEntry}
    (course : Course newer begin state) (catalog : next.catalog = state.catalog)
    (phase : next.phase = state.phase) (other : entry.event ≠ .enumerationFailed) :
    Course (entry :: newer) begin next := by
  cases course with
  | underway calm unwaiting unpublished same follows =>
      refine .underway ((failed_cons other).not.mpr calm) (phase ▸ unwaiting) (phase ▸ unpublished)
        (catalog.trans same) ?_
      intro found publishing
      exact (follows found (phase ▸ publishing)).cons entry
  | published calm phases follows =>
      exact .published ((failed_cons other).not.mpr calm) (phase ▸ phases)
        (catalog ▸ follows.cons entry)
  | abandoned failed waiting same =>
      exact .abandoned ((failed_cons other).mpr failed) (phase.trans waiting) (catalog.trans same)

/-- Before the catalog is replaced it is what it was when the cycle began. -/
theorem course_underway {newer : List ScanEntry} {state : Engine}
    (course : Course newer begin state) (unwaiting : state.phase ≠ .waiting)
    (unpublished : state.phase ≠ .bumping) :
    ¬ Failed newer ∧ state.catalog = begin.before.catalog := by
  cases course with
  | underway calm _ _ same _ => exact ⟨calm, same⟩
  | published _ phase _ => exact (phase.elim unpublished unwaiting).elim
  | abandoned _ phase _ => exact (unwaiting phase).elim

/-- A step to a phase in which no catalog is ready. -/
theorem course_next {newer : List ScanEntry} {state next : Engine} {entry : ScanEntry}
    (course : Course newer begin state)
    (phase : state.phase ≠ .waiting ∧ state.phase ≠ .bumping)
    (later : next.phase ≠ .waiting ∧ next.phase ≠ .bumping ∧ ∀ found,
      next.phase ≠ .publishing found)
    (catalog : next.catalog = state.catalog) (other : entry.event ≠ .enumerationFailed) :
    Course (entry :: newer) begin next := by
  obtain ⟨calm, same⟩ := course_underway course phase.1 phase.2
  exact .underway ((failed_cons other).not.mpr calm) later.1 later.2.1 (catalog.trans same)
    (fun found publishing => (later.2.2 found publishing).elim)

theorem course_step {newer : List ScanEntry} {before after : Engine} {event : ScanEvent}
    {dials : List Dial} (stepped : Stepped join before event dials after) (own : event ≠ .begin)
    (inForce : InForce newer begin before.config) (course : Course newer begin before) :
    Course (⟨before, event, dials, after⟩ :: newer) begin after := by
  cases stepped with
  | reload config => exact course_quiet course rfl rfl (by simp)
  | advance elapsed => exact course_quiet course rfl rfl (by simp)
  | disabled phase off => exact (own rfl).elim
  | begin phase on => exact (own rfl).elim
  | spawn phase => exact course_next course (by simp [phase]) (by simp) rfl (by simp)
  | enumerated attributed tcp tcp6 phase =>
      refine course_next course (by simp [phase]) ?_ rfl (by simp)
      simp only [Engine.startProbes]
      split <;> simp
  | enumerationFailed phase =>
      obtain ⟨-, same⟩ := course_underway course (by simp [phase]) (by simp [phase])
      exact .abandoned ⟨_, List.mem_cons_self, rfl⟩ rfl same
  | joined candidate exchanges phase member =>
      rw [conclude_eq]
      exact course_next course (by simp [phase]) (by simp) rfl (by simp)
  | joinFailed candidate exchanges phase member =>
      exact course_next course (by simp [phase]) (by simp) rfl (by simp)
  | report phase => exact course_next course (by simp [phase]) (by simp) rfl (by simp)
  | merge phase =>
      obtain ⟨calm, same⟩ := course_underway course (by simp [phase]) (by simp [phase])
      refine .underway ((failed_cons (by simp)).not.mpr calm) (by simp) (by simp) same ?_
      intro found publishing
      obtain rfl := Phase.publishing.inj publishing
      exact ⟨before.config, inForce.cons _, follows_rebuild _ _⟩
  | publish phase =>
      cases course with
      | underway calm _ _ _ follows =>
          exact .published ((failed_cons (by simp)).not.mpr calm) (Or.inl rfl)
            ((follows _ phase).cons _)
      | published _ other _ => simp [phase] at other
      | abandoned _ other _ => simp [phase] at other
  | bump phase =>
      cases course with
      | underway _ _ unpublished _ _ => exact (unpublished phase).elim
      | published calm _ follows =>
          exact .published ((failed_cons (by simp)).not.mpr calm) (Or.inr rfl) (follows.cons _)
      | abandoned _ other _ => simp [phase] at other

/-- What a cycle knows at its end. -/
theorem course_run (returned : Returned join config now final log earlier begin) :
    Course log begin final := by
  have both := returned.run.invariant_since
    (fun newer state => InForce newer begin state.config ∧ Course newer begin state)
    (fun entry => entry.event ≠ .begin) returned.own ?first ?kept
  case first =>
    intro middle run
    cases run with
    | step before taken =>
        have begins := returned.begins
        dsimp only at begins
        subst begins
        cases stepped taken with
        | disabled phase off =>
            exact ⟨Or.inl rfl, .underway (by simp [Failed]) (by simp) (by simp) rfl (by simp)⟩
        | begin phase on =>
            exact ⟨Or.inl rfl, .underway (by simp [Failed]) (by simp) (by simp) rfl (by simp)⟩
  case kept =>
    intro newer before event dials after taken own old
    exact ⟨Or.inr ⟨_, List.mem_cons_self, rfl⟩, course_step (stepped taken) own old.1 old.2⟩
  exact both.2

/-- After a cycle the manual entries are the apps of a config that was in force during it,
exactly if its enumeration did not fail or the catalog from before it already followed such a
config. -/
theorem manual_apps_follow_iff (returned : Returned join config now final log earlier begin) :
    FollowsOne log begin final.catalog ↔
      ¬ Failed log ∨ FollowsOne log begin begin.before.catalog := by
  cases course_run returned with
  | underway _ unwaiting _ _ _ => exact (unwaiting returned.waiting).elim
  | published calm _ follows => exact iff_of_true follows (Or.inl calm)
  | abandoned failed _ same =>
      rw [same]
      exact ⟨Or.inr, fun either => either.resolve_left (fun calm => calm failed)⟩

def withDocs : Config := { Config.default with apps := [⟨"docs".toList, 9000⟩] }

/-- The config is replaced while the table is read. -/
theorem reload_within_cycle_followed : ∃ log earlier begin final,
    Returned noUrls .default 0 final log earlier begin ∧ FollowsOne log begin final.catalog ∧
      final.catalog.apps.map CatalogApp.name = ["docs".toList] := by
  obtain ⟨history, final, -, run, begin, own, calm, returns, waiting, names⟩ := exec_checked
    (scanner noUrls) (.start .default 0)
    [.begin, .spawn, .reload withDocs, .enumerated [] none none, .report, .merge, .publish, .bump]
    (fun history final =>
      history[7]?.any (fun begin => begin.event = .begin) ∧
      (∀ entry ∈ history.take 7, entry.event ≠ .begin) ∧
      (∀ entry ∈ history.take 7, entry.event ≠ .enumerationFailed) ∧
      ((history.take 7).head?.any (fun last => last.before.phase ≠ .waiting)) ∧
      final.phase = .waiting ∧ final.catalog.apps.map CatalogApp.name = ["docs".toList])
    (by decide +kernel)
  obtain ⟨begin, -, cut, begins⟩ := cut_at begin
  obtain ⟨last, first, unwaiting⟩ := (Option.any_eq_true _ _).mp returns
  obtain ⟨rest, shape⟩ := List.head?_eq_some_iff.mp first
  rw [cut] at run
  have returned : Returned noUrls .default 0 final (history.take 7) (history.drop 8) begin :=
    ⟨run, begins, own, ⟨last, rest, shape, of_decide_eq_true unwaiting⟩, waiting⟩
  refine ⟨_, _, begin, final, returned, (manual_apps_follow_iff returned).mpr (Or.inl ?_), names⟩
  rintro ⟨entry, member, failed⟩
  exact calm entry member failed

/-- An app is configured, and the cycle that the reload asks for cannot read the table. -/
theorem failed_enumeration_stale : validate withDocs = .ok () ∧ ∃ log earlier begin final,
    Returned noUrls .default 0 final log earlier begin ∧ ¬ FollowsOne log begin final.catalog := by
  refine ⟨by decide, ?_⟩
  obtain ⟨history, final, -, run, begin, own, configs, returns, waiting, stale⟩ := exec_checked
    (scanner noUrls) (.start .default 0) [.reload withDocs, .begin, .spawn, .enumerationFailed]
    (fun history final =>
      history[2]?.any (fun begin => begin.event = .begin ∧ begin.before.config = withDocs) ∧
      (∀ entry ∈ history.take 2, entry.event ≠ .begin) ∧
      (∀ entry ∈ history.take 2, entry.after.config = withDocs) ∧
      ((history.take 2).head?.any (fun last => last.before.phase ≠ .waiting)) ∧
      final.phase = .waiting ∧ ¬ Follows final.catalog withDocs)
    (by decide +kernel)
  obtain ⟨begin, -, cut, isBegin, config⟩ := cut_at begin
  obtain ⟨last, first, unwaiting⟩ := (Option.any_eq_true _ _).mp returns
  obtain ⟨rest, shape⟩ := List.head?_eq_some_iff.mp first
  rw [cut] at run
  refine ⟨_, _, begin, final, ⟨run, isBegin, own, ⟨last, rest, shape,
    of_decide_eq_true unwaiting⟩, waiting⟩, ?_⟩
  rintro ⟨found, rfl | ⟨entry, member, rfl⟩, follows⟩
  · exact stale (config ▸ follows)
  · exact stale (configs entry member ▸ follows)

end RaemoteServer.Discovery
