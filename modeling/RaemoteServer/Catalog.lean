import RaemoteServer.Config
import RaemoteServer.Discovery.Model

/-! The merged view of configured and discovered apps, each under a name of its own. -/

namespace RaemoteServer

open Text Collections Discovery

inductive AppSource where
  | manual
  | discovered
  deriving DecidableEq

def AppSource.asStr : AppSource → Str
  | .manual => "manual".toList
  | .discovered => "discovered".toList

structure CatalogApp where
  name : Str
  title : Option Str
  origin : Origin
  source : AppSource
  process : Option Str
  pid : Option UInt32
  deriving DecidableEq

structure Catalog where
  apps : List CatalogApp
  deriving DecidableEq

/-! Names. -/

def pushSlug (out : Str) (pendingDash : Bool) (ch : Char) : Str :=
  (if pendingDash && !out.isEmpty then out ++ ['-'] else out) ++ [ch.toLower]

def slugifyLoop (out : Str) (pendingDash : Bool) : Str → Str
  | [] => out
  | ch :: rest =>
      let (out, pendingDash) :=
        if ch.isAlphanum then (pushSlug out pendingDash ch, false) else (out, true)
      -- `out` is ASCII, so its length in bytes is its number of characters
      if out.length ≥ 48 then out else slugifyLoop out pendingDash rest

/-- `[a-z0-9]` runs joined by single dashes. -/
def slugify (input : Str) : Str := slugifyLoop [] false input

/-- Page title, else process name, else "app". -/
def nameBase (d : DiscoveredApp) : Str :=
  let title := (d.title.map slugify).getD []
  if title ≠ [] then title
  else
    let process := (d.process.map slugify).getD []
    if process ≠ [] then process else "app".toList

def withPort (base : Str) (port : UInt16) : Str := base ++ '-' :: decimal port.toNat

def withCounter (base : Str) (port : UInt16) (n : Nat) : Str :=
  withPort base port ++ '-' :: decimal n

/-- The counter starts at 2. The loop has no bound in the source; as many tries as there are
used names are enough. -/
def uniqueName (base : Str) (port : UInt16) (used : HashSet Str) : Str × HashSet Str :=
  let name :=
    if base ∉ used then base
    else if withPort base port ∉ used then withPort base port
    else used.firstFree (withCounter base port) used.elems.length 2
  (name, used.insert name)

/-! Merging. -/

def AppConfig.origin (app : AppConfig) : Origin := .http "127.0.0.1".toList app.port

def manualEntry (app : AppConfig) : CatalogApp :=
  { name := app.name, title := none, origin := app.origin, source := .manual
    process := none, pid := none }

def discoveredEntry (name : Str) (d : DiscoveredApp) : CatalogApp :=
  { name, title := d.title, origin := d.origin, source := .discovered
    process := d.process, pid := d.pid }

/-- By port and then by host. -/
def originLe (a b : DiscoveredApp) : Prop :=
  a.origin.port < b.origin.port ∨ a.origin.port = b.origin.port ∧ a.origin.host ≤ b.origin.host

instance : DecidableRel originLe := fun _ _ => inferInstanceAs (Decidable (_ ∨ _ ∧ _))

/-- A manual entry on the same origin wins. -/
def addDiscovered (manualOrigins : HashSet Origin) (merged : List CatalogApp × HashSet Str)
    (d : DiscoveredApp) : List CatalogApp × HashSet Str :=
  if d.origin ∈ manualOrigins then merged
  else
    let (name, used) := uniqueName (nameBase d) d.origin.port merged.2
    (merged.1 ++ [discoveredEntry name d], used)

def Catalog.rebuild (manual : List AppConfig) (discovered : List DiscoveredApp) : Catalog :=
  let manualOrigins := HashSet.ofList (manual.map AppConfig.origin)
  let used := HashSet.ofList (manual.map AppConfig.name)
  let sorted := discovered.insertionSort originLe
  ⟨(sorted.foldl (addDiscovered manualOrigins) (manual.map manualEntry, used)).1⟩

def Catalog.find (catalog : Catalog) (name : Str) : Option CatalogApp :=
  catalog.apps.find? (fun app => app.name == name)

/-! Names that discovery generates. -/

/-- The characters of a generated name. -/
def slugChar (c : Char) : Bool := c.isLower || c.isDigit || c == '-'

theorem slugChar_toLower {c : Char} (alphanum : c.isAlphanum = true) :
    slugChar c.toLower = true := by
  have parts : c.isAlpha = true ∨ c.isDigit = true := Bool.or_eq_true_iff.mp alphanum
  by_cases alpha : c.isAlpha = true
  · simp only [slugChar, Char.isLower_toLower_eq_isAlpha, alpha, Bool.true_or]
  · have digit := parts.resolve_left alpha
    have small : ¬ c.isUpper = true := fun upper => alpha (Bool.or_eq_true_iff.mpr (Or.inl upper))
    rw [Char.toLower_eq_of_not_isUpper small]
    simp only [slugChar, digit, Bool.or_true, Bool.true_or]

/-- Every character is one of a generated name. -/
def Plain (name : Str) : Prop := ∀ c ∈ name, slugChar c = true

theorem Plain.append {left right : Str} (first : Plain left) (second : Plain right) :
    Plain (left ++ right) := by
  intro c member
  exact (List.mem_append.mp member).elim (first c) (second c)

theorem Plain.cons {c : Char} {rest : Str} (first : slugChar c = true) (others : Plain rest) :
    Plain (c :: rest) :=
  List.forall_mem_cons.mpr ⟨first, others⟩

theorem plain_nil : Plain [] := fun _ member => nomatch member

theorem plain_decimal (n : Nat) : Plain (decimal n) := by
  intro c member
  simp [slugChar, isDigit_of_mem_decimal member]

theorem plain_pushSlug {out : Str} (plain : Plain out) (pendingDash : Bool) {ch : Char}
    (alphanum : ch.isAlphanum = true) : Plain (pushSlug out pendingDash ch) := by
  unfold pushSlug
  split
  · exact (plain.append (.cons rfl plain_nil)).append (.cons (slugChar_toLower alphanum) plain_nil)
  · exact plain.append (.cons (slugChar_toLower alphanum) plain_nil)

/-- What a push below the cap keeps holds of the whole slug. -/
theorem slugifyLoop_keeps (Kept : Str → Prop)
    (push : ∀ {out : Str}, Kept out → out.length < 48 → ∀ (pendingDash : Bool) {ch : Char},
      ch.isAlphanum = true → Kept (pushSlug out pendingDash ch))
    {out : Str} (kept : Kept out) (room : out.length < 48) (pendingDash : Bool) (input : Str) :
    Kept (slugifyLoop out pendingDash input) := by
  induction input generalizing out pendingDash with
  | nil => exact kept
  | cons ch rest ih =>
      by_cases alphanum : ch.isAlphanum = true
      · have grown := push kept room pendingDash alphanum
        simp only [slugifyLoop, alphanum, if_true]
        split
        · exact grown
        case isFalse more => exact ih grown (Nat.lt_of_not_le more) false
      · simp only [slugifyLoop, alphanum, Bool.false_eq_true, if_false,
          if_neg (Nat.not_le_of_lt room)]
        exact ih kept room true

theorem plain_slugify (input : Str) : Plain (slugify input) :=
  slugifyLoop_keeps Plain
    (fun plain _ pendingDash _ alphanum => plain_pushSlug plain pendingDash alphanum) plain_nil
    (by decide) false input

theorem plain_nameBase (d : DiscoveredApp) : Plain (nameBase d) := by
  have slug (text : Option Str) : Plain ((text.map slugify).getD []) := by
    cases text with
    | none => exact plain_nil
    | some text => exact plain_slugify text
  dsimp only [nameBase]
  split
  · exact slug d.title
  · split
    · exact slug d.process
    · exact .cons rfl (.cons rfl (.cons rfl plain_nil))

theorem plain_withPort {base : Str} (plain : Plain base) (port : UInt16) :
    Plain (withPort base port) :=
  plain.append (.cons rfl (plain_decimal _))

theorem withCounter_injective (base : Str) (port : UInt16) :
    Function.Injective (withCounter base port) := by
  intro n m same
  have digits := (List.cons.inj (List.append_cancel_left same)).2
  exact decimal_injective digits

theorem plain_uniqueName {base : Str} (plain : Plain base) (port : UInt16) (used : HashSet Str) :
    Plain (uniqueName base port used).1 := by
  unfold uniqueName
  split
  · exact plain
  · split
    · exact plain_withPort plain port
    · obtain ⟨k, -, shape, -⟩ :=
        used.firstFree_shape (withCounter base port) used.elems.length 2
      rw [shape]
      exact (plain_withPort plain port).append (.cons rfl (plain_decimal _))

/-- A generated name was not used before. -/
theorem uniqueName_fresh (base : Str) (port : UInt16) (used : HashSet Str) :
    (uniqueName base port used).1 ∉ used := by
  unfold uniqueName
  split
  · assumption
  · split
    · assumption
    · exact HashSet.firstFree_fresh (withCounter_injective base port) (le_refl _) 2

/-! Merging keeps names apart. -/

/-- What the merge has done so far: the manual entries as they are, and entries with generated
names behind them. -/
structure Merged (manual : List AppConfig) (merged : List CatalogApp × HashSet Str) : Prop where
  distinct : (merged.1.map CatalogApp.name).Nodup
  used : ∀ app ∈ merged.1, app.name ∈ merged.2
  shape : ∃ found, merged.1 = manual.map manualEntry ++ found ∧ ∀ app ∈ found, Plain app.name

theorem merged_add {manual : List AppConfig} {manualOrigins : HashSet Origin}
    {merged : List CatalogApp × HashSet Str} (inv : Merged manual merged) (d : DiscoveredApp) :
    Merged manual (addDiscovered manualOrigins merged d) := by
  unfold addDiscovered
  split
  · exact inv
  · have fresh := uniqueName_fresh (nameBase d) d.origin.port merged.2
    have plain := plain_uniqueName (plain_nameBase d) d.origin.port merged.2
    obtain ⟨found, shape, generated⟩ := inv.shape
    refine ⟨?_, ?_, found ++ [discoveredEntry (uniqueName (nameBase d) d.origin.port merged.2).1 d],
      ?_, ?_⟩
    · rw [List.map_append, List.nodup_append]
      refine ⟨inv.distinct, List.nodup_singleton _, ?_⟩
      rintro name old other new rfl
      obtain ⟨app, member, rfl⟩ := List.mem_map.mp old
      have same : app.name = (uniqueName (nameBase d) d.origin.port merged.2).1 := by
        simpa [discoveredEntry] using new
      exact fresh (same ▸ inv.used app member)
    · intro app member
      rcases List.mem_append.mp member with old | new
      · exact HashSet.mem_insert.mpr (Or.inr (inv.used app old))
      · rw [List.mem_singleton.mp new]
        exact HashSet.mem_insert.mpr (Or.inl rfl)
    · dsimp only
      rw [shape, List.append_assoc]
    · intro app member
      rcases List.mem_append.mp member with old | new
      · exact generated app old
      · rw [List.mem_singleton.mp new]
        exact plain

theorem merged_rebuild {manual : List AppConfig} (distinct : (manual.map AppConfig.name).Nodup)
    (discovered : List DiscoveredApp) :
    ∃ used, Merged manual ((Catalog.rebuild manual discovered).apps, used) := by
  have names : (manual.map manualEntry).map CatalogApp.name = manual.map AppConfig.name := by
    rw [List.map_map]
    rfl
  have first :
      Merged manual (manual.map manualEntry, HashSet.ofList (manual.map AppConfig.name)) := by
    refine ⟨by rw [names]; exact distinct, ?_, [], (List.append_nil _).symm, nofun⟩
    intro app member
    rw [HashSet.mem_ofList, ← names]
    exact List.mem_map_of_mem member
  have all (sorted : List DiscoveredApp) (merged : List CatalogApp × HashSet Str)
      (inv : Merged manual merged) : Merged manual
        (sorted.foldl (addDiscovered (HashSet.ofList (manual.map AppConfig.origin))) merged) := by
    induction sorted generalizing merged with
    | nil => exact inv
    | cons d rest ih => exact ih _ (merged_add inv d)
  exact ⟨_, all (discovered.insertionSort originLe) _ first⟩

/-- Every entry is found under its own name. -/
theorem find_of_mem {catalog : Catalog} (distinct : (catalog.apps.map CatalogApp.name).Nodup)
    {app : CatalogApp} (member : app ∈ catalog.apps) : catalog.find app.name = some app := by
  obtain ⟨front, back, shape⟩ := List.append_of_mem member
  rw [Catalog.find, shape, List.find?_append, List.find?_eq_none.mpr]
  · simp
  · intro other inside
    rw [shape, List.map_append, List.nodup_append] at distinct
    have different := distinct.2.2 other.name (List.mem_map_of_mem inside) app.name
      (List.mem_map_of_mem List.mem_cons_self)
    simpa using different

/-! Merging neither loses nor repeats an app. -/

/-- What discovery found, without the name it got. -/
def CatalogApp.unnamed (app : CatalogApp) : DiscoveredApp :=
  { origin := app.origin, title := app.title, process := app.process, pid := app.pid }

/-- A smaller port, or the same port and a smaller host. -/
def originBefore (a b : Origin) : Prop := a.port < b.port ∨ a.port = b.port ∧ a.host < b.host

theorem added_discovered (manualOrigins : HashSet Origin) (sorted : List DiscoveredApp)
    (merged : List CatalogApp × HashSet Str) :
    ∃ found, (sorted.foldl (addDiscovered manualOrigins) merged).1 = merged.1 ++ found ∧
      found.map CatalogApp.unnamed = sorted.filter (fun d => d.origin ∉ manualOrigins) ∧
      ∀ app ∈ found, app.source = .discovered := by
  induction sorted generalizing merged with
  | nil => exact ⟨[], (List.append_nil _).symm, rfl, nofun⟩
  | cons d rest ih =>
      obtain ⟨found, shape, bare, source⟩ := ih (addDiscovered manualOrigins merged d)
      by_cases configured : d.origin ∈ manualOrigins
      · have kept : addDiscovered manualOrigins merged d = merged := if_pos configured
        rw [kept] at shape
        refine ⟨found, by rw [List.foldl_cons, kept, shape], ?_, source⟩
        simpa [configured] using bare
      · have entered : (addDiscovered manualOrigins merged d).1 = merged.1 ++
            [discoveredEntry (uniqueName (nameBase d) d.origin.port merged.2).1 d] :=
          congrArg Prod.fst (if_neg configured)
        refine ⟨discoveredEntry (uniqueName (nameBase d) d.origin.port merged.2).1 d :: found,
          ?_, ?_, ?_⟩
        · rw [List.foldl_cons, shape, entered, List.append_assoc]
          rfl
        · rw [List.map_cons, bare, List.filter_cons_of_pos (by simpa using configured)]
          rfl
        · intro app member
          rcases List.mem_cons.mp member with rfl | later
          · rfl
          · exact source app later

/-! Both orders are the lexicographic ones. -/

theorem originLe_iff {a b : DiscoveredApp} : originLe a b ↔
    toLex (a.origin.port.toNat, a.origin.host) ≤ toLex (b.origin.port.toNat, b.origin.host) := by
  rw [Prod.Lex.toLex_le_toLex, UInt16.toNat_inj]
  rfl

theorem originBefore_iff {a b : Origin} :
    originBefore a b ↔ toLex (a.port.toNat, a.host) < toLex (b.port.toNat, b.host) := by
  rw [Prod.Lex.toLex_lt_toLex, UInt16.toNat_inj]
  rfl

instance : Std.Total originLe where
  total a b := by
    rw [originLe_iff, originLe_iff]
    exact le_total _ _

instance : IsTrans DiscoveredApp originLe where
  trans a b c first second := by
    rw [originLe_iff] at first second ⊢
    exact first.trans second

theorem sorted_discovered (discovered : List DiscoveredApp) :
    (discovered.insertionSort originLe).Pairwise originLe :=
  List.pairwise_insertionSort originLe discovered

/-- There is one scheme. -/
theorem origin_eq {a b : Origin} (port : a.port = b.port) (host : a.host = b.host) : a = b := by
  rcases a with ⟨⟨⟩, _, _⟩
  rcases b with ⟨⟨⟩, _, _⟩
  simp_all

theorem before_of_le {a b : DiscoveredApp} (le : originLe a b) (different : a.origin ≠ b.origin) :
    originBefore a.origin b.origin := by
  rcases le with less | ⟨same, low⟩
  · exact Or.inl less
  · refine Or.inr ⟨same, lt_of_le_of_ne low ?_⟩
    intro equal
    exact different (origin_eq same equal)

/-- What follows the manual entries in a rebuilt catalog. -/
theorem rebuild_found (manual : List AppConfig) (discovered : List DiscoveredApp) :
    ∃ found, (Catalog.rebuild manual discovered).apps = manual.map manualEntry ++ found ∧
      found.map CatalogApp.unnamed = (discovered.insertionSort originLe).filter
        (fun d => d.origin ∉ manual.map AppConfig.origin) ∧
      (found.map CatalogApp.unnamed).Perm
        (discovered.filter (fun d => d.origin ∉ manual.map AppConfig.origin)) ∧
      ∀ app ∈ found, app.source = .discovered := by
  obtain ⟨found, shape, bare, source⟩ := added_discovered
    (HashSet.ofList (manual.map AppConfig.origin)) (discovered.insertionSort originLe)
    (manual.map manualEntry, HashSet.ofList (manual.map AppConfig.name))
  simp only [HashSet.mem_ofList] at bare
  refine ⟨found, shape, bare, ?_, source⟩
  rw [bare]
  exact (List.perm_insertionSort originLe discovered).filter _

theorem strict_discovered {discovered : List DiscoveredApp}
    (origins : (discovered.map DiscoveredApp.origin).Nodup) :
    (discovered.insertionSort originLe).Pairwise (fun a b => originBefore a.origin b.origin) := by
  have permuted := (List.perm_insertionSort originLe discovered).map DiscoveredApp.origin
  have distinct := List.pairwise_map.mp (permuted.nodup_iff.mpr origins)
  exact ((sorted_discovered discovered).and distinct).imp (fun both => before_of_le both.1 both.2)

/-- The manual apps come first, as configured; every other discovered app follows once, unchanged
and in the order of its origin; and every entry is found under its own name. -/
theorem rebuild_keeps_every_app {manual : List AppConfig} {discovered : List DiscoveredApp}
    (names : (manual.map AppConfig.name).Nodup)
    (origins : (discovered.map DiscoveredApp.origin).Nodup) :
    ∃ found, (Catalog.rebuild manual discovered).apps = manual.map manualEntry ++ found ∧
      (found.map CatalogApp.unnamed).Perm
        (discovered.filter (fun d => d.origin ∉ manual.map AppConfig.origin)) ∧
      (∀ app ∈ found, app.source = .discovered) ∧
      found.Pairwise (fun a b => originBefore a.origin b.origin) ∧
      ((Catalog.rebuild manual discovered).apps.map CatalogApp.name).Nodup ∧
      ∀ app ∈ (Catalog.rebuild manual discovered).apps,
        (Catalog.rebuild manual discovered).find app.name = some app := by
  obtain ⟨found, shape, bare, kept, source⟩ := rebuild_found manual discovered
  obtain ⟨used, merged⟩ := merged_rebuild names discovered
  have ordered :=
    (strict_discovered origins).filter (fun d => d.origin ∉ manual.map AppConfig.origin)
  rw [← bare] at ordered
  exact ⟨found, shape, kept, source, (List.pairwise_map.mp ordered).imp id, merged.distinct,
    fun app => find_of_mem merged.distinct⟩

/-- A configured name that looks generated, and three apps of one title. -/
def sameTitles : List AppConfig × List DiscoveredApp :=
  let app (host : String) (port : UInt16) : DiscoveredApp :=
    { origin := .http host.toList port, title := some "Vite".toList, process := none, pid := none }
  ([⟨"vite-5173".toList, 8080⟩, ⟨"docs".toList, 9000⟩],
    [app "127.0.0.1" 5174, app "127.0.0.1" 9000, app "::1" 5174, app "127.0.0.1" 5173])

theorem rebuild_keeps_same_titles :
    ∃ found, (Catalog.rebuild sameTitles.1 sameTitles.2).apps =
        sameTitles.1.map manualEntry ++ found ∧
      (found.map CatalogApp.unnamed).Perm
        (sameTitles.2.filter (fun d => d.origin ∉ sameTitles.1.map AppConfig.origin)) ∧
      ((Catalog.rebuild sameTitles.1 sameTitles.2).apps.map CatalogApp.name).Nodup := by
  obtain ⟨found, shape, kept, -, -, distinct, -⟩ :=
    @rebuild_keeps_every_app sameTitles.1 sameTitles.2 (by decide) (by decide)
  exact ⟨found, shape, kept, distinct⟩

example : (Catalog.rebuild sameTitles.1 sameTitles.2).apps.map (String.ofList ·.name) =
    ["vite-5173", "docs", "vite", "vite-5174", "vite-5174-2"] := by decide

end RaemoteServer
