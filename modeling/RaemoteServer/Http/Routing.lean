import RaemoteServer.Catalog

/-! Which handler a request comes to, and the paths that the catalog advertises. -/

namespace RaemoteServer.Http

open Text Collections Discovery

inductive Method where
  | get
  | head
  | post
  | put
  | delete
  | connect
  | options
  | trace
  | patch
  | extension (name : Str)
  deriving DecidableEq

structure ErrorResponse where
  status : Nat
  code : Str
  message : Str
  hint : Option Str
  deriving DecidableEq

/-- What `handle` does with a request. -/
inductive Dispatch where
  | catalog
  | discover
  | info
  | devices
  | renameSelf
  | createInvite
  | proxy (origin : Origin) (subPath : Str)
  | refuse (error : ErrorResponse)
  deriving DecidableEq

def methodNotAllowed (message : Str) : ErrorResponse :=
  ⟨405, "method_not_allowed".toList, message, none⟩

def unknownApp (name : Str) : ErrorResponse where
  status := 404
  code := "unknown_app".toList
  message := "unknown app \"".toList ++ name ++ "\"".toList
  hint := some
    "it may have stopped — refresh the app list, or run `raemote discover` on the server".toList

def notFound (path : Str) : ErrorResponse :=
  ⟨404, "not_found".toList, "no such route: ".toList ++ path, none⟩

def appPrefix : Str := "/app/".toList

def handle (catalog : Catalog) (method : Method) (path : Str) : Dispatch :=
  if path = "/_hub/catalog".toList then .catalog
  else if path = "/_hub/discover".toList then .discover
  else if path = "/_hub/info".toList then .info
  else if path = "/_hub/devices".toList then .devices
  else if path = "/_hub/device".toList then
    if method = .put ∨ method = .post then .renameSelf
    else .refuse (methodNotAllowed "use PUT to set this device's name".toList)
  else if path = "/_hub/invite".toList then
    if method = .post then .createInvite
    else .refuse (methodNotAllowed "use POST to create an invitation".toList)
  else
    match stripPrefix appPrefix path with
    | some rest =>
        let (name, subPath) := splitOnce '/' rest
        match (catalog.find name).map CatalogApp.origin with
        | some origin => .proxy origin (subPath.getD [])
        | none => .refuse (unknownApp name)
    | none => .refuse (notFound path)

/-- One entry of `/_hub/catalog`. -/
structure AdvertisedApp where
  name : Str
  path : Str
  port : UInt16
  scheme : Str
  source : Str
  title : Option Str
  deriving DecidableEq

def advertise (app : CatalogApp) : AdvertisedApp where
  name := app.name
  path := appPrefix ++ app.name
  port := app.origin.port
  scheme := app.origin.scheme.asStr
  source := app.source.asStr
  title := app.title

/-! Routing below `/app/`. -/

theorem handle_app (catalog : Catalog) (method : Method) (rest : Str) :
    handle catalog method (appPrefix ++ rest) =
      match (catalog.find (splitOnce '/' rest).1).map CatalogApp.origin with
      | some origin => .proxy origin ((splitOnce '/' rest).2.getD [])
      | none => .refuse (unknownApp (splitOnce '/' rest).1) := by
  have other (route : Str) (hub : route[1]? = some '_') : appPrefix ++ rest ≠ route := by
    rintro rfl
    simp [appPrefix] at hub
  simp only [handle, stripPrefix_append]
  rw [if_neg (other _ rfl), if_neg (other _ rfl), if_neg (other _ rfl), if_neg (other _ rfl),
    if_neg (other _ rfl), if_neg (other _ rfl)]

theorem handle_app_name {catalog : Catalog} {name : Str} (whole : '/' ∉ name) {app : CatalogApp}
    (found : catalog.find name = some app) (method : Method) :
    handle catalog method (appPrefix ++ name) = .proxy app.origin [] := by
  rw [handle_app, splitOnce_absent '/' name whole]
  simp [found]

theorem handle_app_below {catalog : Catalog} {name : Str} (whole : '/' ∉ name) {app : CatalogApp}
    (found : catalog.find name = some app) (method : Method) (rest : Str) :
    handle catalog method (appPrefix ++ name ++ '/' :: rest) = .proxy app.origin rest := by
  rw [List.append_assoc, handle_app, splitOnce_append '/' name rest whole]
  simp [found]

/-- The advertised path, alone or with anything below it, is proxied to the app. -/
def Routable (catalog : Catalog) (app : CatalogApp) : Prop :=
  ∀ method, handle catalog method (advertise app).path = .proxy app.origin [] ∧
    ∀ rest, handle catalog method ((advertise app).path ++ '/' :: rest) = .proxy app.origin rest

theorem routable_of_whole {catalog : Catalog} {app : CatalogApp}
    (found : catalog.find app.name = some app) (whole : '/' ∉ app.name) : Routable catalog app :=
  fun method => ⟨handle_app_name whole found method, handle_app_below whole found method⟩

/-- The router splits a name at its first slash and takes what lies behind it for a part of
the sub-path. -/
theorem not_routable_of_slash {catalog : Catalog} {app : CatalogApp} (slash : '/' ∈ app.name) :
    ¬ Routable catalog app := by
  intro routable
  obtain ⟨front, back, shape, whole⟩ := List.eq_append_cons_of_mem slash
  have below := (routable .get).2 []
  have split : (advertise app).path ++ ['/'] = appPrefix ++ (front ++ '/' :: (back ++ ['/'])) := by
    simp [advertise, shape]
  rw [split, handle_app, splitOnce_append '/' front _ whole] at below
  cases found : (catalog.find front).map CatalogApp.origin with
  | none => simp [found] at below
  | some origin => simp [found] at below

theorem routable_iff {catalog : Catalog} (distinct : (catalog.apps.map CatalogApp.name).Nodup)
    {app : CatalogApp} (member : app ∈ catalog.apps) : Routable catalog app ↔ '/' ∉ app.name :=
  ⟨fun routable slash => not_routable_of_slash slash routable,
    routable_of_whole (find_of_mem distinct member)⟩

theorem plain_whole {name : Str} (plain : Plain name) : '/' ∉ name := by
  intro slash
  exact absurd (plain '/' slash) (by decide)

/-- All apps of a catalog built from an accepted config are routable exactly when no
configured name has a slash in it. -/
theorem all_routable_iff {config : Config} (valid : validate config = .ok ())
    (discovered : List DiscoveredApp) :
    (∀ app ∈ (Catalog.rebuild config.apps discovered).apps,
        Routable (Catalog.rebuild config.apps discovered) app) ↔
      ∀ app ∈ config.apps, '/' ∉ app.name := by
  obtain ⟨used, merged⟩ := merged_rebuild (validate_names valid) discovered
  obtain ⟨found, shape, generated⟩ := merged.shape
  dsimp only at shape
  constructor
  · intro all app member
    have entry : manualEntry app ∈ (Catalog.rebuild config.apps discovered).apps := by
      rw [shape]
      exact List.mem_append_left _ (List.mem_map_of_mem member)
    exact (routable_iff merged.distinct entry).mp (all _ entry)
  · intro whole app member
    refine (routable_iff merged.distinct member).mpr ?_
    rw [shape] at member
    rcases List.mem_append.mp member with manual | other
    · obtain ⟨configured, inside, rfl⟩ := List.mem_map.mp manual
      exact whole configured inside
    · exact plain_whole (generated app other)

def exampleConfig (apps : List AppConfig) : Config := { Config.default with apps }

def jellyfin : DiscoveredApp :=
  ⟨.http "127.0.0.1".toList 8096, some "Jellyfin".toList, some "jellyfin".toList, some 812⟩

theorem jellyfin_routable :
    (Catalog.rebuild [⟨"notes".toList, 3000⟩] [jellyfin]).apps.map CatalogApp.name =
        ["notes".toList, "jellyfin".toList] ∧
      ∀ app ∈ (Catalog.rebuild [⟨"notes".toList, 3000⟩] [jellyfin]).apps,
        Routable (Catalog.rebuild [⟨"notes".toList, 3000⟩] [jellyfin]) app := by
  have valid : validate (exampleConfig [⟨"notes".toList, 3000⟩]) = .ok () := by decide
  exact ⟨by decide, (all_routable_iff valid [jellyfin]).mpr (by decide)⟩

/-- `team/notes` passes validation, and its advertised path is answered with 404. -/
theorem slash_name_unroutable :
    validate (exampleConfig [⟨"team/notes".toList, 3000⟩]) = .ok () ∧
      ∃ app ∈ (Catalog.rebuild [⟨"team/notes".toList, 3000⟩] []).apps,
        handle (Catalog.rebuild [⟨"team/notes".toList, 3000⟩] []) .get (advertise app).path =
            .refuse (unknownApp "team".toList) ∧
          ¬ Routable (Catalog.rebuild [⟨"team/notes".toList, 3000⟩] []) app := by
  refine ⟨by decide, manualEntry ⟨"team/notes".toList, 3000⟩, by decide, by decide, ?_⟩
  exact not_routable_of_slash (by decide)

end RaemoteServer.Http
