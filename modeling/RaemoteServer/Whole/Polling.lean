import RaemoteServer.Hiding
import RaemoteServer.Whole.Hidden

/-! `save_and_wait`: after a reload the command asks for the apps again and again, until the
app that it hides is not among them. A scan that was under way at the reload can still publish the
app. -/

namespace RaemoteServer.Whole

open Text Collections Runs Auth Http Discovery

variable {Node : Type} [DecidableEq Node] [EndpointId Node]
variable {self : Node} {join : Str → Str → Option Url} {boot : Hub.Boot}
  {state answered : State Node} {o : Origin}

def appsSnapshot (state : State Node) : List ListedApp :=
  state.hub.server.catalog.apps.map CatalogApp.listed

/-- What `apps hide` waits for. -/
def hideCheck (o : Origin) (apps : List ListedApp) : Bool :=
  !apps.any (fun app => app.host = o.host && app.port = o.port)

omit [DecidableEq Node] [EndpointId Node] in
theorem hideCheck_iff : hideCheck o (appsSnapshot state) = true ↔
    ∀ app ∈ state.hub.server.catalog.apps, app.origin ≠ o := by
  unfold hideCheck appsSnapshot
  rw [Bool.not_eq_true', List.any_eq_false, List.forall_mem_map]
  apply forall₂_congr
  intro app listed
  rw [Bool.and_eq_true, decide_eq_true_eq, decide_eq_true_eq]
  constructor
  · intro other same
    exact other ⟨congrArg Origin.host same, congrArg Origin.port same⟩
  · rintro other ⟨host, port⟩
    exact other (origin_eq port host)

/-- The config that `apps hide` writes, or finds written, is one that excludes the origin, unless an
app is configured there. -/
theorem hide_excludes {config : Config} (read : Origin.parseAuthority o.authority = some o)
    (unconfigured : o ∉ config.apps.map AppConfig.origin) :
    Excluded ((cmdAppsHide config o).getD config) o := by
  cases hide : cmdAppsHide config o with
  | none =>
      by_cases lists : config.Lists o
      · exact excluded_of_lists lists unconfigured
      · rw [(cmdAppsHide_eq config o).2 lists] at hide
        cases hide
  | some hidden =>
      rcases fresh_hide hide with ⟨-, rfl⟩
      rw [Option.getD_some]
      refine excluded_of_lists ?_ unconfigured
      exact ⟨o.authority, List.mem_append_right _ (List.mem_singleton_self _), read⟩

/-! In the engine. -/

section

variable {log base : List ScanEntry} {start final : Engine}

theorem config_kept {before after : Engine} {event : ScanEvent} {dials : List Dial}
    (taken : Discovery.Stepped join before event dials after) :
    after.config = before.config ∨ event = .reload after.config := by
  cases taken with
  | reload config => exact Or.inr rfl
  | joined =>
      rw [conclude_eq]
      exact Or.inl rfl
  | _ => exact Or.inl rfl

theorem catalog_kept {before after : Engine} {event : ScanEvent} {dials : List Dial}
    (taken : Discovery.Stepped join before event dials after) (other : event ≠ .publish) :
    after.catalog = before.catalog := by
  cases taken with
  | publish phase => exact (other rfl).elim
  | joined =>
      rw [conclude_eq]
  | _ => rfl

theorem excluded_scan {reload : ScanEntry} {config : Config}
    (run : Run (scanner join) start (log ++ reload :: base) final)
    (reloads : reload.event = .reload config) (excluded : Excluded config o)
    (still : ∀ entry ∈ log, ∀ config, entry.event = .reload config → Excluded config o) :
    Excluded final.config o := by
  apply run.invariant_since (fun _ engine => Excluded engine.config o)
    (fun entry => ∀ config, entry.event = .reload config → Excluded config o) still
  · intro middle started
    rcases started with - | ⟨earlier, taken⟩
    rename_i before event dials
    cases reloads
    cases Discovery.stepped taken with
    | reload => exact excluded
  · intro newer before event dials after taken allowed held
    rcases config_kept (Discovery.stepped taken) with kept | replaced
    · rw [kept]
      exact held
    · exact allowed after.config replaced

/-- Without a publication the catalog stays. -/
theorem published_of_changed {middle : Engine}
    (run : Run (scanner join) start (log ++ base) final)
    (first : Run (scanner join) start base middle)
    (changed : final.catalog ≠ middle.catalog) : ∃ entry ∈ log, entry.event = .publish := by
  by_contra none
  push Not at none
  apply changed
  apply run.invariant_since (fun _ engine => engine.catalog = middle.catalog)
    (fun entry => entry.event ≠ .publish) none
  · intro other again
    rw [again.same_end first]
  · intro newer before event dials after taken allowed held
    exact (catalog_kept (Discovery.stepped taken) allowed).trans held

/-- A publication ends the scan that was under way. -/
theorem hidden_published {before after : Engine} {dials : List Dial}
    (taken : Discovery.Stepped join before .publish dials after)
    (excluded : Excluded before.config o)
    (keys : ∀ key cached, before.cache.lookup key = some cached → cached.app.origin = key) :
    Hidden o [] after := by
  cases taken with
  | publish phase => exact ⟨excluded, keys, nofun, nofun, nofun, nofun, by simp⟩

/-- Once something was published after the reload, a catalog without the origin is the end. -/
theorem hidden_observed {config new : Config} {now : Nat} {reload : ScanEntry}
    (run : Run (scanner join) (.start config now) (log ++ reload :: base) final)
    (reloads : reload.event = .reload new) (excluded : Excluded new o)
    (still : ∀ entry ∈ log, ∀ config, entry.event = .reload config → Excluded config o)
    (published : ∃ entry ∈ log, entry.event = .publish)
    (absent : ∀ app ∈ final.catalog.apps, app.origin ≠ o) : Hidden o log final := by
  rcases published with ⟨publish, member, publishes⟩
  rcases List.append_of_mem member with ⟨newer, older, rfl⟩
  rw [List.append_assoc, List.cons_append] at run
  rcases run.split with ⟨before, taken⟩
  rw [publishes] at taken
  have config := excluded_scan before reloads excluded
    (fun entry inside => still entry (List.mem_append_right _ (List.mem_cons_of_mem _ inside)))
  have settled : Hidden o [] publish.after :=
    hidden_published (Discovery.stepped taken) config (fun _ _ found => cached_origin before found)
  have step := before.step taken
  rw [← publishes] at step
  have hidden := hidden_later run step settled
    (fun entry inside => still entry (List.mem_append_left _ inside))
  exact ⟨hidden.config, hidden.keys, hidden.settings, hidden.pending, hidden.cache, hidden.merged,
    fun _ => absent⟩

end

/-! In the daemon. -/

omit [DecidableEq Node] [EndpointId Node] in
theorem scanLog_reload {reload : LogEntry Node} {base : Log Node} {config : Config}
    (reloads : reload.event = .reload config) : scanLog (reload :: base) =
      ⟨reload.before.engine, .reload config, [], reload.after.engine⟩ :: scanLog base := by
  rcases reload with ⟨before, event, output, after⟩
  cases reloads
  rfl

/-- If the app was listed when the daemon took the config that hides it, or something has been
published since, then the answer that ends the polling stays true: the app is not listed again, and
no request comes to it, until a reload lets it in. -/
theorem hide_polling_final {later middle base : Log Node} {reload : LogEntry Node} {config : Config}
    (run : Run (machine self join) (start boot) (later ++ (middle ++ reload :: base)) state)
    (polled : Run (machine self join) (start boot) (middle ++ reload :: base) answered)
    (reloads : reload.event = .reload config) (excluded : Excluded config o)
    (still : ∀ entry ∈ later ++ middle, ∀ config ∈ installed entry.event, Excluded config o)
    (changed : hideCheck o (appsSnapshot reload.before) = false ∨
      ∃ entry ∈ middle, entry.event = .publish)
    (passed : hideCheck o (appsSnapshot answered) = true) :
    hideCheck o (appsSnapshot state) = true ∧
      ∀ entry ∈ later, ∀ node arrival subPath,
        entry.output ≠ .hub (.served (.dispatched node arrival (.proxy o subPath))) := by
  have missing := hideCheck_iff.mp passed
  rw [(agreement_run polled).catalog] at missing
  have scanned := engine_run polled
  rw [scanLog_append, scanLog_reload reloads] at scanned
  have steps : ∀ entry ∈ later ++ middle,
      (machine self join).step entry.before entry.event = some (entry.output, entry.after) := by
    intro entry member
    apply run.taken
    rw [← List.append_assoc]
    exact List.mem_append_left _ member
  have published : ∃ entry ∈ scanLog middle, entry.event = .publish := by
    rcases changed with listed | ⟨publish, member, publishes⟩
    · rcases scanned.split with ⟨before, taken⟩
      apply published_of_changed scanned (before.step taken)
      intro same
      have kept := catalog_kept (Discovery.stepped taken) nofun
      rw [same, kept, ← (agreement_run polled.split.1).catalog] at missing
      rw [hideCheck_iff.mpr missing] at listed
      cases listed
    · exact scanLog_publish member publishes
  have settled : Hidden o (scanLog middle) answered.engine :=
    hidden_observed scanned rfl excluded
      (every_scan (fun entry member => steps entry (List.mem_append_right _ member))
        (fun entry member => still entry (List.mem_append_right _ member))) published missing
  have absent (newer : Log Node) (known : newer ⊆ later) (state : State Node)
      (run : Run (machine self join) (start boot) (newer ++ (middle ++ reload :: base)) state) :
      ∀ app ∈ state.hub.server.catalog.apps, app.origin ≠ o := by
    have whole := engine_run run
    rw [scanLog_append] at whole
    have hidden := hidden_later whole (engine_run polled) settled
      (every_scan (fun entry member => steps entry (List.mem_append_left _ (known member)))
        (fun entry member => still entry (List.mem_append_left _ (known member))))
    rw [(agreement_run run).catalog]
    apply hidden.catalog
    rcases published with ⟨entry, member, publishes⟩
    exact ⟨entry, List.mem_append_right _ member, publishes⟩
  exact ⟨hideCheck_iff.mpr (absent later (List.Subset.refl _) state run),
    unreachable_of_absent run absent⟩

/-- Without either, the scan that was under way at the reload publishes the app behind the
answer. -/
example : ((machine Hub.server noUrls).exec [] (start Hub.fixedBoot)
    [.scan .begin, .scan .spawn, .reload viteExcluded, .scan (.enumerated [vite] none none),
      .scan (.joined vite.candidate (page "Vite")), .scan .report, .scan .merge, .publish]).any
    (fun result => result.1[5]?.any (fun reload =>
      hideCheck vite.origin (appsSnapshot reload.after) &&
        !hideCheck vite.origin (appsSnapshot result.2))) = true := by decide +kernel

/-- The polling of `apps hide` for the app that the scan had found. -/
theorem vite_polled : ∃ log state answered,
    (machine Hub.server noUrls).exec [] (start Hub.fixedBoot) revisiting = some (log, state) ∧
      Run (machine Hub.server noUrls) (start Hub.fixedBoot) (log.drop 13) answered ∧
      hideCheck vite.origin (appsSnapshot answered) = true ∧
      hideCheck vite.origin (appsSnapshot state) = true ∧
      ∀ entry ∈ log.take 13, ∀ node arrival subPath,
        entry.output ≠ .hub (.served (.dispatched node arrival (.proxy vite.origin subPath))) := by
  rcases exec_checked (machine Hub.server noUrls) _ revisiting
    (fun log _ =>
      log[12]?.any (fun entry : LogEntry Bytes32 => decide
        (hideCheck vite.origin (appsSnapshot entry.before) = true)) = true ∧
      (log.drop 13)[6]?.any (fun entry : LogEntry Bytes32 => decide
        (hideCheck vite.origin (appsSnapshot entry.before) = false ∧
          installed entry.event = some viteExcluded)) = true ∧
      ∀ entry ∈ log.take 13 ++ (log.drop 13).take 6, installed entry.event = none)
    (by decide +kernel : ((machine Hub.server noUrls).exec [] (start Hub.fixedBoot)
      revisiting).any _)
    with ⟨log, state, executed, run, polls, reloads, quiet⟩
  rcases cut_at polls with ⟨next, -, cut, passed⟩
  rcases cut_at reloads with ⟨reload, -, since, listed, config⟩
  have polled : Run (machine Hub.server noUrls) (start Hub.fixedBoot)
      (log.drop 13) next.before := by
    rw [cut] at run
    exact run.split.1
  have reloads : reload.event = .reload viteExcluded := by
    cases same : reload.event with
    | reload found =>
        rw [same] at config
        rw [Option.some.inj config]
    | _ =>
        rw [same] at config
        cases config
  have still : ∀ entry ∈ log.take 13 ++ (log.drop 13).take 6,
      ∀ config ∈ installed entry.event, Excluded config vite.origin := by
    intro entry member config inside
    rw [quiet entry member] at inside
    cases inside
  refine ⟨log, state, next.before, executed, polled, passed, ?_⟩
  rw [← List.take_append_drop 13 log, since] at run
  rw [since] at polled
  exact hide_polling_final run polled reloads excluded_vite still (Or.inl listed) passed

end RaemoteServer.Whole
