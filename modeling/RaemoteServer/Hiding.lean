import RaemoteServer.Commands
import RaemoteServer.Discovery.ExcludedOrigins
import RaemoteServer.Discovery.Scan

/-! What `raemote apps hide` and `raemote apps unhide` do to the scans that follow. -/

namespace RaemoteServer

open Text Collections Discovery Net

/-- The filter of a scan with this config. -/
def Config.filter (config : Config) : ListenerFilter := (Settings.of config).filter

theorem reportedHost_plain (ip : IpAddr) :
    ∀ c ∈ reportedHost ip, isWhitespace c = false ∧ c ≠ '[' ∧ c ≠ ']' := by
  intro c member
  rw [reportedHost] at member
  split at member
  · have fixed : ∀ c ∈ "127.0.0.1".toList, addressChar c = true := by simp [addressChar, hexDigit]
    exact addressChar_plain (fixed c member)
  · exact addressChar_plain (IpAddr.mem_text member)

theorem reportedHost_normal (ip : IpAddr) : normalHost (reportedHost ip) = reportedHost ip := by
  by_cases wildcard : ip.isUnspecified = true
  · rw [reportedHost, if_pos wildcard]
    decide
  · have text : reportedHost ip = ip.text := if_neg wildcard
    rw [text, normalHost_text, text]

theorem reportedHost_ne_nil (ip : IpAddr) : reportedHost ip ≠ [] := by
  rw [reportedHost]
  split
  · simp
  · exact ip.text_ne_nil

/-- What discovery reports is read back from its authority. -/
theorem parseAuthority_reported (ip : IpAddr) {port : UInt16} (bound : port ≠ 0) :
    Origin.parseAuthority (Origin.http (reportedHost ip) port).authority =
      some (.http (reportedHost ip) port) :=
  parseAuthority_authority (reportedHost_plain ip) (reportedHost_normal ip)
    (reportedHost_ne_nil ip) bound

theorem resolveOrigin_reported (listed : Option (List ListedApp)) (loaded : Except Str Config)
    (ip : IpAddr) {port : UInt16} (bound : port ≠ 0) :
    resolveOrigin listed loaded (Origin.http (reportedHost ip) port).authority =
      .ok (.http (reportedHost ip) port) := by
  have plain := trim_authority (fun c member => (reportedHost_plain ip c member).1) port
  simp only [resolveOrigin, plain, parseAuthority_reported ip bound]

theorem excludes_iff {origin : Origin} {entry : Str} :
    excludes origin.authority entry = true ↔ Origin.parseAuthority entry = some origin := by
  unfold excludes
  rw [Option.any_eq_true]
  constructor
  · rintro ⟨found, read, same⟩
    rw [read, authority_injective (beq_iff_eq.mp same)]
  · intro read
    exact ⟨origin, read, beq_self_eq_true _⟩

/-- An entry excludes this origin. -/
def Config.Lists (config : Config) (origin : Origin) : Prop :=
  ∃ entry ∈ config.discovery.excludeOrigins, Origin.parseAuthority entry = some origin

theorem cmdAppsHide_eq (config : Config) (origin : Origin) :
    (config.Lists origin → cmdAppsHide config origin = none) ∧
      (¬ config.Lists origin → cmdAppsHide config origin =
        some { config with discovery := { config.discovery with
          excludeOrigins := config.discovery.excludeOrigins ++ [origin.authority] } }) := by
  have listed : config.discovery.excludeOrigins.any (excludes origin.authority) = true ↔
      config.Lists origin := by
    simp only [List.any_eq_true, excludes_iff, Config.Lists]
  constructor
  · intro already
    exact if_pos (listed.mpr already)
  · intro fresh
    exact if_neg (listed.not.mpr fresh)

theorem fresh_hide {config hidden : Config} {origin : Origin}
    (hide : cmdAppsHide config origin = some hidden) :
    ¬ config.Lists origin ∧ hidden = { config with discovery := { config.discovery with
      excludeOrigins := config.discovery.excludeOrigins ++ [origin.authority] } } := by
  by_cases already : config.Lists origin
  · rw [(cmdAppsHide_eq config origin).1 already] at hide
    cases hide
  · rw [(cmdAppsHide_eq config origin).2 already] at hide
    exact ⟨already, (Option.some.inj hide).symm⟩

theorem mem_filter_excludeOrigins {config : Config} {origin : Origin} :
    origin ∈ config.filter.excludeOrigins ↔ config.Lists origin := by
  simp only [Config.filter, Settings.of, ListenerFilter.new, HashSet.mem_ofList, Config.Lists,
    List.mem_filterMap]

theorem hide_excludesAlso {config hidden : Config} {origin : Origin}
    (read : Origin.parseAuthority origin.authority = some origin)
    (hide : cmdAppsHide config origin = some hidden) :
    ExcludesAlso config.filter hidden.filter origin := by
  obtain ⟨-, rfl⟩ := fresh_hide hide
  refine ⟨by simp only [Config.filter, Settings.of, ListenerFilter.new], ?_⟩
  intro other
  simp only [mem_filter_excludeOrigins, Config.Lists, List.mem_append, List.mem_singleton,
    or_and_right, exists_or, exists_eq_left, read, Option.some.injEq]
  rw [or_comm, @eq_comm _ origin other]

theorem unhide_hide {config hidden : Config} {origin : Origin}
    (read : Origin.parseAuthority origin.authority = some origin)
    (hide : cmdAppsHide config origin = some hidden) :
    cmdAppsUnhide hidden origin = .ok config := by
  obtain ⟨already, rfl⟩ := fresh_hide hide
  have kept : config.discovery.excludeOrigins.filter (!excludes origin.authority ·) =
      config.discovery.excludeOrigins := by
    apply List.filter_eq_self.mpr
    intro entry member
    rw [Bool.not_eq_true', Bool.eq_false_iff]
    intro excluded
    exact already ⟨entry, member, excludes_iff.mp excluded⟩
  have last : [origin.authority].filter (!excludes origin.authority ·) = [] := by
    simp [excludes_iff.mpr read]
  simp [cmdAppsUnhide, List.filter_append, kept, last]

/-- An origin that discovery reports can be hidden, with no effect on others, and be shown again. -/
theorem hide_inverse {addr : SocketAddr} (bound : addr.port ≠ 0) :
    let origin := Origin.http (Origin.localHost addr) addr.port
    Origin.parseAuthority origin.authority = some origin ∧
      (∀ listed loaded, resolveOrigin listed loaded origin.authority = .ok origin) ∧
      unhideOrigin origin.authority = .ok origin ∧
      ∀ config : Config, ¬ config.Lists origin →
        ∃ hidden, cmdAppsHide config origin = some hidden ∧
          (∀ all, HidesOnly config.filter hidden.filter origin all) ∧
          cmdAppsUnhide hidden origin = .ok config := by
  intro origin
  have read : Origin.parseAuthority origin.authority = some origin :=
    parseAuthority_reported addr.ip bound
  refine ⟨read, ?_, ?_, ?_⟩
  · intro listed loaded
    exact resolveOrigin_reported listed loaded addr.ip bound
  · simp only [unhideOrigin, read]
  · intro config fresh
    have hide := (cmdAppsHide_eq config origin).2 fresh
    exact ⟨_, hide, hides_only (hide_excludesAlso read hide), unhide_hide read hide⟩

/-- An entry that is no origin stays where it is. -/
def oddEntries : Config :=
  { Config.default with discovery := { Config.default.discovery with
    excludeOrigins := ["nope".toList, "localhost:3000".toList] } }

theorem hide_inverse_loopback : ∃ hidden, cmdAppsHide oddEntries (.http "::1".toList 8080) =
    some hidden ∧
      hidden.discovery.excludeOrigins =
        ["nope".toList, "localhost:3000".toList, "[::1]:8080".toList] ∧
      cmdAppsUnhide hidden (.http "::1".toList 8080) = .ok oddEntries := by
  have fresh : ¬ oddEntries.Lists (.http "::1".toList 8080) := by
    simp only [Config.Lists, oddEntries, List.mem_cons, List.not_mem_nil, or_false,
      exists_eq_or_imp, exists_eq_left, not_or]
    decide
  obtain ⟨-, -, -, inverse⟩ := @hide_inverse (.new (.v6 .localhost) 8080) (by decide)
  obtain ⟨hidden, hide, -, shown⟩ := inverse oddEntries fresh
  have entries := (cmdAppsHide_eq oddEntries (.http "::1".toList 8080)).2 fresh
  obtain rfl := Option.some.inj (hide.symm.trans entries)
  exact ⟨_, hide, by decide, shown⟩

/-! Hiding by name, with a daemon that runs. -/

def CatalogApp.listed (app : CatalogApp) : ListedApp := ⟨app.name, app.origin.host, app.origin.port⟩

def Config.withExcluded (config : Config) (excludeOrigins : List Str) : Config :=
  { config with discovery := { config.discovery with excludeOrigins } }

/-- A target is an authority, else a port, else the name of an entry. -/
def Denotes (apps : List CatalogApp) (target : Str) (origin : Origin) : Prop :=
  match Origin.parseAuthority (trim target), parseU16 (trim target) with
  | some named, _ => origin = named
  | none, some port => origin = .http "127.0.0.1".toList port
  | none, none => ∃ app ∈ apps, app.name = trim target ∧ origin = app.origin

theorem resolveOrigin_denotes {apps : List CatalogApp} (distinct : (apps.map CatalogApp.name).Nodup)
    {loaded : Except Str Config} {target : Str} {origin : Origin}
    (resolved : resolveOrigin (some (apps.map CatalogApp.listed)) loaded target = .ok origin)
    (other : Origin) : Denotes apps target other ↔ other = origin := by
  unfold resolveOrigin at resolved
  unfold Denotes
  dsimp only at resolved
  cases authority : Origin.parseAuthority (trim target) with
  | some named =>
      simp only [authority, Except.ok.injEq] at resolved
      rw [resolved]
  | none =>
      cases number : parseU16 (trim target) with
      | some port =>
          simp only [authority, number, Except.ok.injEq] at resolved
          dsimp only
          rw [resolved]
      | none =>
          simp only [authority, number, List.find?_map] at resolved
          cases found : apps.find? ((fun app => app.name == trim target) ∘ CatalogApp.listed) with
          | none =>
              rw [found] at resolved
              cases resolved
          | some app =>
              simp only [found, Option.map_some, Except.ok.injEq] at resolved
              have passes := List.find?_some found
              have named : app.name = trim target := beq_iff_eq.mp passes
              have member := List.mem_of_find?_eq_some found
              have own : app.origin = origin := by
                rw [← resolved]
                exact origin_eq rfl rfl
              constructor
              · rintro ⟨twin, inside, same, rfl⟩
                rw [List.inj_on_of_nodup_map distinct inside member (same.trans named.symm), own]
              · rintro rfl
                exact ⟨app, member, named, own.symm⟩

/-- What is read of the file after an origin is hidden. -/
theorem hide_saved {toml : TomlConfig} {env : Env} {listed : Option (List ListedApp)} {target : Str}
    {file file' : Option Str} {base : Config} (stored : storedConfig toml file = some base)
    (ran : (Command.appsHide target).run toml env listed file = .ok file') :
    ∃ loaded origin, resolveOrigin listed loaded target = .ok origin ∧
      load env toml file' = .ok ((envOverride env base).withExcluded
        (hiddenWith base.discovery.excludeOrigins origin.authority)) := by
  obtain ⟨origin, resolved, ran⟩ := bind_ok ran
  obtain ⟨loaded, load, ran⟩ := bind_ok ran
  refine ⟨_, origin, resolved, ?_⟩
  have loads : file = none ∧ loaded = .default ∧ base = .default ∨
      loaded = envOverride env base := by
    cases file with
    | none =>
        cases load
        cases stored
        exact Or.inl ⟨rfl, rfl, rfl⟩
    | some content =>
        have read : toml.fromStr content = some base := stored
        exact Or.inr (Except.ok.inj (load.symm.trans (load_some read)))
  have before : envOverride env loaded = envOverride env base := by
    rcases loads with ⟨-, rfl, rfl⟩ | rfl
    · rfl
    · exact envOverride_twice env base
  have entries : loaded.discovery.excludeOrigins = base.discovery.excludeOrigins :=
    congrArg (·.discovery.excludeOrigins) before
  cases hidden : cmdAppsHide loaded origin with
  | none =>
      simp only [hidden] at ran
      cases ran
      have same := appsHide_none hidden
      rw [entries] at same
      rcases loads with ⟨-, rfl, rfl⟩ | rfl
      · cases hidden
      · rw [same, load]
        rfl
  | some after =>
      simp only [hidden] at ran
      obtain ⟨content, text, rfl⟩ := saved_ok ran
      rw [load_some (toml.read_back _ _ text)]
      rw [appsHide_some hidden, entries, ← before]
      rfl

/-! What a scan finds with other entries. -/

theorem passesAll_withExcluded (config : Config) (entries : List Str) (l : Listener) :
    (config.withExcluded entries).filter.PassesAll l ↔
      (config.withExcluded []).filter.PassesAll l ∧
        ∀ entry ∈ entries, Origin.parseAuthority entry ≠ some l.origin := by
  have listed : l.origin ∈ (config.withExcluded entries).filter.excludeOrigins ↔
      ∃ entry ∈ entries, Origin.parseAuthority entry = some l.origin := mem_filter_excludeOrigins
  have none : l.origin ∉ (config.withExcluded []).filter.excludeOrigins := by
    simp [mem_filter_excludeOrigins, Config.Lists, Config.withExcluded]
  constructor
  · intro passes
    refine ⟨?_, ?_⟩
    · intro test member
      cases test
      case excludedOrigin => exact none
      all_goals exact passes _ member
    · intro entry member read
      exact passes .excludedOrigin (by decide) (listed.mpr ⟨entry, member, read⟩)
  · rintro ⟨passes, away⟩ test member
    cases test
    case excludedOrigin =>
      intro excluded
      obtain ⟨entry, inside, read⟩ := listed.mp excluded
      exact away entry inside read
    all_goals exact passes _ member

theorem finds_iff {scan : Scan} {config : Config} {origin : Origin} :
    scan.Finds config origin ↔ (Settings.of config).enabled = true ∧
      (∃ l ∈ (Settings.of config).table scan.attributed scan.tcp scan.tcp6,
        l.considered = true ∧ config.filter.PassesAll l ∧ l.origin = origin) ∧
      ∃ result, scan.probe origin = some result ∧ isCredible result = true := by
  rw [Scan.Finds, Scan.discovered]
  cases (Settings.of config).enabled with
  | false => simp
  | true =>
      rw [if_pos rfl, Config.filter, ← mem_candidate_origins]
      simp only [Scan.apps, List.mem_map, List.mem_filterMap, true_and]
      constructor
      · rintro ⟨app, ⟨candidate, member, confirmed⟩, rfl⟩
        obtain ⟨result, probed, credible, rfl⟩ := confirmed_eq_some.mp confirmed
        exact ⟨⟨candidate, member, rfl⟩, result, probed, credible⟩
      · rintro ⟨⟨candidate, member, rfl⟩, result, probed, credible⟩
        exact ⟨candidate.app result,
          ⟨candidate, member, confirmed_eq_some.mpr ⟨result, probed, credible, rfl⟩⟩, rfl⟩

theorem finds_withExcluded (scan : Scan) (config : Config) (entries : List Str) (origin : Origin) :
    scan.Finds (config.withExcluded entries) origin ↔
      scan.Finds (config.withExcluded []) origin ∧
        ∀ entry ∈ entries, Origin.parseAuthority entry ≠ some origin := by
  simp only [finds_iff, passesAll_withExcluded config entries]
  constructor
  · rintro ⟨on, ⟨l, member, counted, ⟨passes, away⟩, rfl⟩, probed⟩
    exact ⟨⟨on, ⟨l, member, counted, passes, rfl⟩, probed⟩, away⟩
  · rintro ⟨⟨on, ⟨l, member, counted, passes, rfl⟩, probed⟩, away⟩
    exact ⟨on, ⟨l, member, counted, ⟨passes, away⟩, rfl⟩, probed⟩

/-- What is found is reported, and not excluded. -/
theorem reported_of_finds {scan : Scan} {config : Config} {origin : Origin}
    (found : scan.Finds config origin) :
    (∃ ip port, port ≠ 0 ∧ origin = .http (reportedHost ip) port) ∧ ¬ config.Lists origin := by
  obtain ⟨-, ⟨l, -, counted, passes, rfl⟩, -⟩ := finds_iff.mp found
  refine ⟨⟨l.socket.ip, l.socket.port, ?_, rfl⟩, ?_⟩
  · simp only [Listener.considered, Bool.and_eq_true, decide_eq_true_eq] at counted
    exact counted.2
  · intro listed
    exact passes .excludedOrigin (by decide) (mem_filter_excludeOrigins.mpr listed)

/-! What a generated name stands for. -/

theorem slugChar_plain {c : Char} (slug : slugChar c = true) :
    isWhitespace c = false ∧ c ≠ ':' ∧ c ≠ '[' := by
  refine ⟨?_, ?_, ?_⟩
  · simp only [slugChar, Bool.or_eq_true, beq_iff_eq] at slug
    rcases slug with (lower | digit) | rfl
    · simp only [Char.isLower, Bool.and_eq_true, decide_eq_true_eq, UInt32.le_iff_toNat_le] at lower
      have low : 97 ≤ c.toNat := lower.1
      have high : c.toNat ≤ 122 := lower.2
      simp only [isWhitespace, Bool.or_eq_false_iff, Bool.and_eq_false_iff,
        decide_eq_false_iff_not, beq_eq_false_iff_ne]
      omega
    · exact isWhitespace_of_isDigit digit
    · rfl
  · rintro rfl
    revert slug
    decide
  · rintro rfl
    revert slug
    decide

theorem trim_slug {name : Str} (plain : Plain name) : trim name = name :=
  trim_plain name (fun c member => (slugChar_plain (plain c member)).1)

theorem parseAuthority_slug {name : Str} (plain : Plain name) :
    Origin.parseAuthority name = none := by
  have colon : ':' ∉ name := fun member => (slugChar_plain (plain _ member)).2.1 rfl
  have bracket : '[' ∉ name := fun member => (slugChar_plain (plain _ member)).2.2 rfl
  have bare : stripPrefix ['['] name = none := by
    rw [Option.eq_none_iff_forall_ne_some]
    intro rest found
    have shape := List.isPrefixOf?_eq_some_iff_append_eq.mp found
    exact bracket (shape ▸ List.mem_cons_self)
  have whole : splitOnce ':' name.reverse = (name.reverse, none) :=
    splitOnce_absent ':' _ (fun member => colon (List.mem_reverse.mp member))
  have split : splitHostPort (trim name) = none := by
    rw [trim_slug plain, splitHostPort, bare]
    simp only [rsplitOnce, whole]
  simp [Origin.parseAuthority, split]

/-- A name that is a number stands for a port, and any other name for its entry. -/
theorem denotes_slug {apps : List CatalogApp} (distinct : (apps.map CatalogApp.name).Nodup)
    {a : CatalogApp} (member : a ∈ apps) (plain : Plain a.name) (origin : Origin) :
    Denotes apps a.name origin ↔
      origin = ((parseU16 a.name).map (.http "127.0.0.1".toList)).getD a.origin := by
  unfold Denotes
  rw [trim_slug plain, parseAuthority_slug plain]
  cases parseU16 a.name with
  | some port => rfl
  | none =>
      constructor
      · rintro ⟨twin, inside, same, rfl⟩
        rw [List.inj_on_of_nodup_map distinct inside member same]
        rfl
      · rintro rfl
        exact ⟨a, member, rfl, rfl⟩

/-- No app of the config has this origin; and if the scan would find it, then the name stands for
an origin that is not excluded yet, and that excludes it when it is. -/
def HidesByName (scan : Scan) (running before : Config) (a : CatalogApp) : Prop :=
  a.origin ∉ before.apps.map AppConfig.origin ∧
    (scan.Finds before a.origin → ∃ origin, Denotes (scan.catalog running).apps a.name origin ∧
      ¬ before.Lists origin ∧ Origin.parseAuthority origin.authority = some a.origin)

/-- A discovered app whose name is not the number of another port. -/
def NamesItself (a : CatalogApp) : Prop :=
  a.source = .discovered ∧
    ∀ port, parseU16 a.name = some port → a.origin = .http "127.0.0.1".toList port

variable {toml : TomlConfig} {env : Env} {scan : Scan}

theorem catalog_names {running : Config} (valid : validate running = .ok ()) :
    ((scan.catalog running).apps.map CatalogApp.name).Nodup := by
  obtain ⟨used, merged⟩ := merged_rebuild (validate_names valid) (scan.discovered running)
  exact merged.distinct

theorem hidden_iff {running base : Config} {a : CatalogApp} {file file' : Option Str}
    (valid : validate running = .ok ()) (stored : storedConfig toml file = some base)
    (ran : (Command.appsHide a.name).run toml env
      (some ((scan.catalog running).apps.map CatalogApp.listed)) file = .ok file') :
    ∃ saved, load env toml file' = .ok saved ∧
      (a.origin ∉ (scan.catalog saved).apps.map CatalogApp.origin ↔
        HidesByName scan running (envOverride env base) a) := by
  obtain ⟨loaded, named, resolved, saved⟩ := hide_saved stored ran
  refine ⟨_, saved, ?_⟩
  have denotes := resolveOrigin_denotes (catalog_names valid) resolved
  have found : scan.Finds (envOverride env base) a.origin ↔
      scan.Finds ((envOverride env base).withExcluded []) a.origin ∧
        ∀ entry ∈ base.discovery.excludeOrigins, Origin.parseAuthority entry ≠ some a.origin :=
    finds_withExcluded scan (envOverride env base) base.discovery.excludeOrigins a.origin
  rw [mem_catalog_origins, not_or, HidesByName, finds_withExcluded, found]
  apply and_congr Iff.rfl
  simp only [denotes, exists_eq_left]
  rw [hiddenWith]
  split
  · rename_i already
    obtain ⟨entry, member, excluded⟩ := List.any_eq_true.mp already
    have listed : (envOverride env base).Lists named := ⟨entry, member, excludes_iff.mp excluded⟩
    simp only [listed, not_true_eq_false, false_and, imp_false]
  · rename_i fresh
    have unlisted : ¬ (envOverride env base).Lists named := by
      rintro ⟨entry, member, read⟩
      exact fresh (List.any_eq_true.mpr ⟨entry, member, excludes_iff.mpr read⟩)
    rw [List.forall_mem_append, List.forall_mem_singleton, ← and_assoc, not_and, not_ne_iff]
    simp only [unlisted, not_false_eq_true, true_and]

/-- An entry is configured, or was found under a generated name. -/
theorem catalog_entry {running : Config} (valid : validate running = .ok ()) {a : CatalogApp}
    (member : a ∈ (scan.catalog running).apps) :
    a.source = .manual ∧ a.origin ∈ running.apps.map AppConfig.origin ∨
      a.source = .discovered ∧ a.origin ∉ running.apps.map AppConfig.origin ∧ Plain a.name ∧
        scan.Finds running a.origin := by
  obtain ⟨found, shape, -, kept, source⟩ := rebuild_found running.apps (scan.discovered running)
  obtain ⟨used, merged⟩ := merged_rebuild (validate_names valid) (scan.discovered running)
  obtain ⟨found', shape', plain⟩ := merged.shape
  obtain rfl : found = found' := List.append_cancel_left (shape.symm.trans shape')
  rw [Scan.catalog, shape, List.mem_append] at member
  rcases member with manual | discovered
  · obtain ⟨app, inside, rfl⟩ := List.mem_map.mp manual
    exact Or.inl ⟨rfl, List.mem_map_of_mem inside⟩
  · have listed := kept.mem_iff.mp (List.mem_map_of_mem discovered)
    obtain ⟨inside, other⟩ := List.mem_filter.mp listed
    exact Or.inr ⟨source a discovered, of_decide_eq_true other, plain a discovered,
      List.mem_map_of_mem inside⟩

theorem loopback_read {port : UInt16} {origin : Origin}
    (read : Origin.parseAuthority (Origin.http "127.0.0.1".toList port).authority = some origin) :
    origin = .http "127.0.0.1".toList port := by
  by_cases zero : port = 0
  · subst zero
    have unread : Origin.parseAuthority (Origin.http "127.0.0.1".toList 0).authority = none := by
      decide
    rw [unread] at read
    cases read
  · have host : reportedHost (.v4 ⟨127, 0, 0, 1⟩) = "127.0.0.1".toList := by decide
    have own := parseAuthority_reported (.v4 ⟨127, 0, 0, 1⟩) zero
    rw [host, read] at own
    exact Option.some.inj own

theorem hidesByName_iff {running : Config} (valid : validate running = .ok ()) {a : CatalogApp}
    (member : a ∈ (scan.catalog running).apps) :
    HidesByName scan running running a ↔ NamesItself a := by
  rcases catalog_entry valid member with ⟨manual, configured⟩ | ⟨source, other, plain, found⟩
  · simp [HidesByName, NamesItself, configured, manual]
  obtain ⟨⟨ip, port, bound, reported⟩, unlisted⟩ := reported_of_finds found
  have read : Origin.parseAuthority a.origin.authority = some a.origin := by
    rw [reported]
    exact parseAuthority_reported ip bound
  simp only [HidesByName, NamesItself, other, not_false_eq_true, found, source, true_and,
    forall_true_left, denotes_slug (catalog_names valid) member plain, exists_eq_left]
  cases parseU16 a.name with
  | none => simp [unlisted, read]
  | some number =>
      simp only [Option.map_some, Option.getD_some, Option.some.injEq, forall_eq']
      constructor
      · rintro ⟨-, own⟩
        exact loopback_read own
      · intro own
        rw [← own]
        exact ⟨unlisted, read⟩

/-- Exactly when an entry that is hidden by its name is gone from the catalog of the saved
config. -/
theorem hide_by_name_iff {running base : Config} {a : CatalogApp} {file file' : Option Str}
    (valid : validate running = .ok ()) (member : a ∈ (scan.catalog running).apps)
    (stored : storedConfig toml file = some base)
    (ran : (Command.appsHide a.name).run toml env
      (some ((scan.catalog running).apps.map CatalogApp.listed)) file = .ok file') :
    ∃ saved, load env toml file' = .ok saved ∧
      (a.origin ∉ (scan.catalog saved).apps.map CatalogApp.origin ↔
        HidesByName scan running (envOverride env base) a) ∧
      (running = envOverride env base →
        (a.origin ∉ (scan.catalog saved).apps.map CatalogApp.origin ↔ NamesItself a)) := by
  obtain ⟨saved, read, hidden⟩ := hidden_iff valid stored ran
  refine ⟨saved, read, hidden, ?_⟩
  rintro rfl
  exact hidden.trans (hidesByName_iff valid member)

/-- The file of a config with the defaults but for these lines. -/
def defaultsText (front excluded back : String) : Str :=
  [front, "[identity]\n\n[network]\n\n[bind]\ntoken_ttl_secs = 300\nmax_failed_attempts = 10\n",
    "max_concurrent_connections = 50\nallow_invites = true\ninvite_ttl_secs = 300\n",
    "max_pending_invites = 3\n\n[serve]\nmax_concurrent_streams = 100\n\n",
    "[serve.rate_limit]\nrefill = 100\ninterval_ms = 1000\nmax = 1000\n\n",
    "[discovery]\nenabled = true\ninterval_secs = 30\nrecheck_secs = 300\n",
    "probe_timeout_ms = 400\nmax_concurrent_probes = 16\nmin_port = 1024\n",
    "http_probe = true\nhttps_probe = false\nloopback_only = true\n",
    "include_unattributed = true\nexclude_ports = []\nexclude_processes = []\n",
    excluded, "\n[log]\n", back].flatMap String.toList

theorem hide_run {listed : Option (List ListedApp)} {target content : Str} {file : Option Str}
    {loaded hidden : Config} {origin : Origin} (load : load env toml file = .ok loaded)
    (resolved : resolveOrigin listed (.ok loaded) target = .ok origin)
    (hide : cmdAppsHide loaded origin = some hidden) (text : toml.toString hidden = some content) :
    (Command.appsHide target).run toml env listed file = .ok (some content) := by
  simp only [Command.run, load, resolved, bind, Except.bind, hide, save, text, pure, Except.pure]

/-- A page that answers at 127.0.0.1:5173, and nothing else. -/
def viteScan : Scan := ⟨[vite], none, none, fun _ => some ⟨200, some "Vite".toList, none⟩⟩

def viteApp : CatalogApp :=
  discoveredEntry "vite".toList (vite.candidate.app ⟨200, some "Vite".toList, none⟩)

def viteText : Str :=
  defaultsText "apps = []\n\n" "exclude_origins = [\"127.0.0.1:5173\"]\n" ""

def viteHidden : TomlConfig :=
  tomlOf (Config.default.withExcluded ["127.0.0.1:5173".toList]) viteText

theorem hide_vite : ∃ file saved,
    (Command.appsHide viteApp.name).run viteHidden (fun _ => none)
      (some ((viteScan.catalog .default).apps.map CatalogApp.listed)) none = .ok file ∧
    load (fun _ => none) viteHidden file = .ok saved ∧
    viteApp.origin ∉ (viteScan.catalog saved).apps.map CatalogApp.origin := by
  have only : (viteScan.catalog .default).apps = [viteApp] := by decide +kernel
  have resolved : resolveOrigin (some ((viteScan.catalog .default).apps.map CatalogApp.listed))
      (.ok .default) viteApp.name = .ok (.http "127.0.0.1".toList 5173) := by
    rw [only]
    decide +kernel
  have hide : cmdAppsHide .default (.http "127.0.0.1".toList 5173) =
      some (Config.default.withExcluded ["127.0.0.1:5173".toList]) := by decide +kernel
  have text : viteHidden.toString (Config.default.withExcluded ["127.0.0.1:5173".toList]) =
      some viteText := by simp only [viteHidden, tomlOf, if_true]
  have ran : (Command.appsHide viteApp.name).run viteHidden (fun _ => none)
      (some ((viteScan.catalog .default).apps.map CatalogApp.listed)) none =
        .ok (some viteText) := hide_run rfl resolved hide text
  have valid : validate .default = .ok () := by decide
  have member : viteApp ∈ (viteScan.catalog .default).apps := by
    rw [only]
    exact List.mem_singleton_self _
  obtain ⟨saved, read, -, hidden⟩ := hide_by_name_iff valid member rfl ran
  refine ⟨_, saved, ran, read, (hidden rfl).mpr ⟨rfl, ?_⟩⟩
  intro port number
  cases number

/-- `toml` at two configs, in the form in which they are written. -/
def tomlPair (old new : Config) (oldText newText : Str) (different : newText ≠ oldText) :
    TomlConfig where
  toString other :=
    if other = old then some oldText else if other = new then some newText else none
  fromStr content :=
    if content = oldText then some old else if content = newText then some new else none
  read_back other written shape := by
    by_cases first : other = old
    · rw [if_pos first] at shape
      rw [← Option.some.inj shape, if_pos rfl, first]
    · rw [if_neg first] at shape
      by_cases second : other = new
      · rw [if_pos second] at shape
        rw [← Option.some.inj shape, if_neg different, if_pos rfl, second]
      · rw [if_neg second] at shape
        cases shape

theorem tomlPair_old {old new : Config} {oldText newText : Str} (different : newText ≠ oldText) :
    (tomlPair old new oldText newText different).fromStr oldText = some old := if_pos rfl

theorem tomlPair_new {old new : Config} {oldText newText : Str} (different : newText ≠ oldText) :
    (tomlPair old new oldText newText different).fromStr newText = some new :=
  (if_neg different).trans (if_pos rfl)

/-- An app that is configured, whether it runs or not. -/
def webConfig : Config := { Config.default with apps := [⟨"web".toList, 3000⟩] }

def webText (excluded : String) : Str :=
  defaultsText "" ("exclude_origins = [" ++ excluded ++ "]\n")
    "\n[[apps]]\nname = \"web\"\nport = 3000\n"

def nothingScan : Scan := ⟨[], none, none, fun _ => none⟩

/-- The texts differ where the entries are. -/
theorem webText_inj {first second : String} (same : webText first = webText second) :
    first.toList = second.toList := by
  simpa only [webText, defaultsText, List.flatMap_cons, String.toList_append,
    List.append_cancel_left_eq, List.append_cancel_right_eq] using same

theorem webText_ne : webText "\"127.0.0.1:3000\"" ≠ webText "" := by
  intro same
  have entries := webText_inj same
  revert entries
  decide

def webHidden : TomlConfig :=
  tomlPair webConfig (webConfig.withExcluded ["127.0.0.1:3000".toList]) (webText "")
    (webText "\"127.0.0.1:3000\"") webText_ne

theorem webHidden_eq : webHidden =
    tomlPair webConfig (webConfig.withExcluded ["127.0.0.1:3000".toList]) (webText "")
      (webText "\"127.0.0.1:3000\"") webText_ne := rfl

/-- The command succeeds, and the app is in the catalog as before. -/
theorem hide_web_stays : ∃ file saved,
    validate webConfig = .ok () ∧ load (fun _ => none) webHidden (some (webText "")) =
      .ok webConfig ∧
    (nothingScan.catalog webConfig).apps = [manualEntry ⟨"web".toList, 3000⟩] ∧
    (Command.appsHide "web".toList).run webHidden (fun _ => none)
      (some ((nothingScan.catalog webConfig).apps.map CatalogApp.listed)) (some (webText "")) =
        .ok file ∧
    load (fun _ => none) webHidden file = .ok saved ∧
    saved.discovery.excludeOrigins = ["127.0.0.1:3000".toList] ∧
    Origin.http "127.0.0.1".toList 3000 ∈
      (nothingScan.catalog saved).apps.map CatalogApp.origin := by
  have before : load (fun _ => none) webHidden (some (webText "")) = .ok webConfig := by
    rw [webHidden_eq, load_some (tomlPair_old webText_ne), envOverride_unset]
  have resolved : resolveOrigin (some ((nothingScan.catalog webConfig).apps.map CatalogApp.listed))
      (.ok webConfig) "web".toList = .ok (.http "127.0.0.1".toList 3000) := by decide +kernel
  have hide : cmdAppsHide webConfig (.http "127.0.0.1".toList 3000) =
      some (webConfig.withExcluded ["127.0.0.1:3000".toList]) := by decide +kernel
  have changed : webConfig.withExcluded ["127.0.0.1:3000".toList] ≠ webConfig := by decide
  have text : webHidden.toString (webConfig.withExcluded ["127.0.0.1:3000".toList]) =
      some (webText "\"127.0.0.1:3000\"") := by
    simp only [webHidden, tomlPair, if_neg changed, if_true]
  have ran : (Command.appsHide "web".toList).run webHidden (fun _ => none)
      (some ((nothingScan.catalog webConfig).apps.map CatalogApp.listed)) (some (webText "")) =
        .ok (some (webText "\"127.0.0.1:3000\"")) := hide_run before resolved hide text
  have after : load (fun _ => none) webHidden (some (webText "\"127.0.0.1:3000\"")) =
      .ok (webConfig.withExcluded ["127.0.0.1:3000".toList]) := by
    rw [webHidden_eq, load_some (tomlPair_new webText_ne), envOverride_unset]
  exact ⟨_, _, by decide, before, by decide +kernel, ran, after, rfl, by decide +kernel⟩

end RaemoteServer
