import RaemoteServer.Catalog
import RaemoteServer.Library.Sorting

/-! The catalog depends on which apps were discovered and not on the order they arrive in, and a
name only on the apps that sort below. -/

namespace RaemoteServer

open Text Collections Discovery Sorting

theorem origin_eq_of_le {a b : DiscoveredApp} (up : originLe a b) (down : originLe b a) :
    a.origin = b.origin := by
  have keys := le_antisymm (originLe_iff.mp up) (originLe_iff.mp down)
  obtain ⟨port, host⟩ := Prod.mk.inj (toLex.injective keys)
  exact origin_eq (UInt16.toNat_inj.mp port) host

/-- The key of an origin tells distinct origins apart. -/
theorem sorted_perm {discovered arrived : List DiscoveredApp} (permuted : arrived.Perm discovered)
    (origins : (discovered.map DiscoveredApp.origin).Nodup) :
    arrived.insertionSort originLe = discovered.insertionSort originLe := by
  apply insertionSort_eq_of_perm permuted
  intro a first b second up down
  exact List.inj_on_of_nodup_map origins first second (origin_eq_of_le up down)

/-- The entries of the catalog, with their names and in their order. -/
theorem rebuild_perm (manual : List AppConfig) {discovered arrived : List DiscoveredApp}
    (permuted : arrived.Perm discovered)
    (origins : (discovered.map DiscoveredApp.origin).Nodup) :
    Catalog.rebuild manual arrived = Catalog.rebuild manual discovered := by
  unfold Catalog.rebuild
  rw [sorted_perm permuted origins]

/-- The order in which `sameTitles` arrives is immaterial. -/
theorem rebuild_perm_same_titles :
    Catalog.rebuild sameTitles.1 sameTitles.2.reverse = Catalog.rebuild sameTitles.1 sameTitles.2 :=
  @rebuild_perm sameTitles.1 sameTitles.2 sameTitles.2.reverse (List.reverse_perm _) (by decide)

/-! The name of one app. -/

instance : DecidableRel originBefore := fun _ _ => inferInstanceAs (Decidable (_ ∨ _ ∧ _))

theorem before_irrefl (origin : Origin) : ¬ originBefore origin origin := by
  rw [originBefore_iff]
  exact lt_irrefl _

theorem before_asymm {a b : DiscoveredApp} (first : originBefore a.origin b.origin) :
    ¬ originBefore b.origin a.origin := by
  rw [originBefore_iff] at first ⊢
  exact lt_asymm first

/-- The apps whose key is smaller than that of `x`, in order. -/
def lowerApps (discovered : List DiscoveredApp) (x : DiscoveredApp) : List DiscoveredApp :=
  (discovered.filter (fun d => originBefore d.origin x.origin)).insertionSort originLe

theorem distinct_of_sublist {discovered kept : List DiscoveredApp}
    (sublist : kept.Sublist discovered)
    (origins : (discovered.map DiscoveredApp.origin).Nodup) :
    (kept.map DiscoveredApp.origin).Nodup :=
  origins.sublist (sublist.map DiscoveredApp.origin)

/-- Sorting and filtering commute. -/
theorem filter_sorted (kept : DiscoveredApp → Bool) {discovered : List DiscoveredApp}
    (origins : (discovered.map DiscoveredApp.origin).Nodup) :
    (discovered.insertionSort originLe).filter kept =
      (discovered.filter kept).insertionSort originLe := by
  have sorted := (sorted_discovered discovered).filter kept
  have permuted := (List.perm_insertionSort originLe discovered).filter kept
  calc (discovered.insertionSort originLe).filter kept
      _ = ((discovered.insertionSort originLe).filter kept).insertionSort originLe :=
          sorted.insertionSort_eq.symm
      _ = (discovered.filter kept).insertionSort originLe :=
          sorted_perm permuted (distinct_of_sublist List.filter_sublist origins)

/-- The merge reaches an app right after the apps below it. -/
theorem sorted_split {discovered : List DiscoveredApp} {x : DiscoveredApp}
    (origins : (discovered.map DiscoveredApp.origin).Nodup) (member : x ∈ discovered) :
    ∃ back, discovered.insertionSort originLe = lowerApps discovered x ++ x :: back := by
  obtain ⟨front, back, shape⟩ :=
    List.append_of_mem ((List.mem_insertionSort originLe).mpr member)
  have strict := strict_discovered origins
  rw [shape, List.pairwise_append, List.pairwise_cons] at strict
  obtain ⟨-, ⟨above, -⟩, below⟩ := strict
  have lower : front.filter (fun d => originBefore d.origin x.origin) = front :=
    List.filter_eq_self.mpr (fun d inside => decide_eq_true (below d inside x List.mem_cons_self))
  have upper : (x :: back).filter (fun d => originBefore d.origin x.origin) = [] := by
    apply List.filter_eq_nil_iff.mpr
    intro d inside
    rcases List.mem_cons.mp inside with rfl | later
    · simpa using before_irrefl d.origin
    · simpa using before_asymm (above d later)
  refine ⟨back, ?_⟩
  rw [lowerApps, ← filter_sorted _ origins, shape, List.filter_append, lower, upper,
    List.append_nil]

/-- The apps that were merged, and the names that are used, when the merge gets to `x`. -/
def mergedBelow (manual : List AppConfig) (lower : List DiscoveredApp) :
    List CatalogApp × HashSet Str :=
  lower.foldl (addDiscovered (HashSet.ofList (manual.map AppConfig.origin)))
    (manual.map manualEntry, HashSet.ofList (manual.map AppConfig.name))

/-- The name that `x` gets after these apps. -/
def nameAfter (manual : List AppConfig) (lower : List DiscoveredApp) (x : DiscoveredApp) : Str :=
  (uniqueName (nameBase x) x.origin.port (mergedBelow manual lower).2).1

theorem mem_of_added {manualOrigins : HashSet Origin} {sorted : List DiscoveredApp}
    {merged : List CatalogApp × HashSet Str} {name : Str} {x : DiscoveredApp}
    (entered : discoveredEntry name x ∈ (sorted.foldl (addDiscovered manualOrigins) merged).1) :
    discoveredEntry name x ∈ merged.1 ∨ x ∈ sorted ∧ x.origin ∉ manualOrigins := by
  obtain ⟨found, shape, bare, -⟩ := added_discovered manualOrigins sorted merged
  rw [shape] at entered
  rcases List.mem_append.mp entered with old | new
  · exact Or.inl old
  · have listed : x ∈ found.map CatalogApp.unnamed := List.mem_map_of_mem new
    rw [bare, List.mem_filter, decide_eq_true_eq] at listed
    exact Or.inr listed

theorem added_of_mem {manualOrigins : HashSet Origin} {merged : List CatalogApp × HashSet Str}
    {app : CatalogApp} (member : app ∈ merged.1) (sorted : List DiscoveredApp) :
    app ∈ (sorted.foldl (addDiscovered manualOrigins) merged).1 := by
  obtain ⟨found, shape, -⟩ := added_discovered manualOrigins sorted merged
  rw [shape]
  exact List.mem_append_left found member

theorem not_manualEntry (manual : List AppConfig) (name : Str) (x : DiscoveredApp) :
    discoveredEntry name x ∉ manual.map manualEntry := by
  intro listed
  obtain ⟨app, -, same⟩ := List.mem_map.mp listed
  cases congrArg CatalogApp.source same

/-- An app that no configured app shadows is in the catalog under one name, and the apps below it
determine which. -/
theorem mem_rebuild (manual : List AppConfig) {discovered : List DiscoveredApp} {x : DiscoveredApp}
    (origins : (discovered.map DiscoveredApp.origin).Nodup) (member : x ∈ discovered)
    (name : Str) : discoveredEntry name x ∈ (Catalog.rebuild manual discovered).apps ↔
      x.origin ∉ manual.map AppConfig.origin ∧
        name = nameAfter manual (lowerApps discovered x) x := by
  obtain ⟨back, split⟩ := sorted_split origins member
  have nodup : (lowerApps discovered x ++ x :: back).Nodup := by
    rw [← split]
    exact (List.perm_insertionSort originLe discovered).nodup_iff.mpr (List.Nodup.of_map _ origins)
  have shape : (Catalog.rebuild manual discovered).apps =
      (back.foldl (addDiscovered (HashSet.ofList (manual.map AppConfig.origin)))
        (addDiscovered (HashSet.ofList (manual.map AppConfig.origin))
          (mergedBelow manual (lowerApps discovered x)) x)).1 := by
    rw [Catalog.rebuild, split, List.foldl_append, List.foldl_cons]
    rfl
  constructor
  · intro entered
    have free : x.origin ∉ manual.map AppConfig.origin := by
      rcases mem_of_added entered with configured | ⟨-, free⟩
      · exact (not_manualEntry manual name x configured).elim
      · rwa [HashSet.mem_ofList] at free
    refine ⟨free, ?_⟩
    rw [shape] at entered
    rcases mem_of_added entered with sofar | ⟨above, -⟩
    · rw [addDiscovered, if_neg (by simpa using free)] at sofar
      rcases List.mem_append.mp sofar with below | here
      · rcases mem_of_added below with configured | ⟨below, -⟩
        · exact (not_manualEntry manual name x configured).elim
        · exact ((List.nodup_append.mp nodup).2.2 x below x List.mem_cons_self rfl).elim
      · exact congrArg CatalogApp.name (List.mem_singleton.mp here)
    · exact ((List.nodup_cons.mp (List.nodup_append.mp nodup).2.1).1 above).elim
  · rintro ⟨free, rfl⟩
    rw [shape]
    apply added_of_mem
    rw [addDiscovered, if_neg (by simpa using free)]
    exact List.mem_append_right _ (List.mem_singleton.mpr rfl)

/-- Apps that appear, vanish or change at larger keys do not rename an app. -/
theorem name_depends_on_lower_apps (manual : List AppConfig) {first second : List DiscoveredApp}
    {x : DiscoveredApp} (firstOrigins : (first.map DiscoveredApp.origin).Nodup)
    (secondOrigins : (second.map DiscoveredApp.origin).Nodup)
    (inFirst : x ∈ first) (inSecond : x ∈ second)
    (lower : ∀ d, originBefore d.origin x.origin → (d ∈ first ↔ d ∈ second)) :
    (∀ name, discoveredEntry name x ∈ (Catalog.rebuild manual first).apps ↔
      discoveredEntry name x ∈ (Catalog.rebuild manual second).apps) ∧
    (x.origin ∉ manual.map AppConfig.origin →
      ∃! name, discoveredEntry name x ∈ (Catalog.rebuild manual first).apps) := by
  have nodup {list : List DiscoveredApp} (origins : (list.map DiscoveredApp.origin).Nodup) :
      (list.filter (fun d => originBefore d.origin x.origin)).Nodup :=
    (List.Nodup.of_map _ origins).filter _
  have members : (first.filter (fun d => originBefore d.origin x.origin)).Perm
      (second.filter (fun d => originBefore d.origin x.origin)) := by
    apply (List.perm_ext_iff_of_nodup (nodup firstOrigins) (nodup secondOrigins)).mpr
    intro d
    simp only [List.mem_filter, decide_eq_true_eq]
    exact and_congr_left (lower d)
  have same : lowerApps first x = lowerApps second x :=
    sorted_perm members (distinct_of_sublist List.filter_sublist secondOrigins)
  refine ⟨fun name => ?_, fun free => ?_⟩
  · rw [mem_rebuild manual firstOrigins inFirst, mem_rebuild manual secondOrigins inSecond, same]
  · refine ⟨nameAfter manual (lowerApps first x) x, ?_, ?_⟩
    · exact (mem_rebuild manual firstOrigins inFirst _).mpr ⟨free, rfl⟩
    · intro name entered
      exact ((mem_rebuild manual firstOrigins inFirst name).mp entered).2

/-- The last of `sameTitles`, and a newcomer whose title is the name it has. -/
def renamedNever : DiscoveredApp × DiscoveredApp :=
  (⟨.http "::1".toList 5174, some "Vite".toList, none, none⟩,
    ⟨.http "127.0.0.1".toList 6000, some "vite 5174 2".toList, none, none⟩)

theorem newcomer_renames_nothing : discoveredEntry "vite-5174-2".toList renamedNever.1 ∈
    (Catalog.rebuild sameTitles.1 (renamedNever.2 :: sameTitles.2)).apps := by
  have lower : ∀ d, originBefore d.origin renamedNever.1.origin →
      (d ∈ sameTitles.2 ↔ d ∈ renamedNever.2 :: sameTitles.2) := by
    intro d before
    rw [List.mem_cons]
    refine ⟨Or.inr, ?_⟩
    rintro (rfl | old)
    · exact absurd before (by decide)
    · exact old
  have names := (@name_depends_on_lower_apps sameTitles.1 sameTitles.2
    (renamedNever.2 :: sameTitles.2) renamedNever.1 (by decide) (by decide) (by decide) (by decide)
    lower).1
  exact (names "vite-5174-2".toList).mp (by decide)

end RaemoteServer
