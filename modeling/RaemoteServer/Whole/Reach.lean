import RaemoteServer.Whole.System

/-! What the daemon connects to, and on whose behalf. -/

namespace RaemoteServer.Whole

open Text Collections Runs Auth Http Discovery

variable {Node : Type} [DecidableEq Node] [EndpointId Node]
variable {self : Node} {join : Str → Str → Option Url} {boot : Hub.Boot} {log : Log Node}
  {before after state : State Node} {event : Event Node} {output : Output Node}

/-- What is so of every config that the daemon has had. -/
structure EveryConfig (boot : Hub.Boot) (log : Log Node) (p : Config → Prop) : Prop where
  first : p boot.config
  later : ∀ entry ∈ log, ∀ config ∈ installed entry.event, p config

omit [DecidableEq Node] [EndpointId Node] in
theorem EveryConfig.earlier {p : Config → Prop} {later earlier : Log Node}
    (every : EveryConfig boot (later ++ earlier) p) : EveryConfig boot earlier p :=
  ⟨every.first, fun entry member => every.later entry (List.mem_append_right _ member)⟩

/-- The engine has the configs that the daemon has. -/
theorem reload_installed {entry : LogEntry Node} {config : Config} {dials : List Dial}
    (taken : (machine self join).step entry.before entry.event = some (entry.output, entry.after))
    (labelled : engineStep entry = some (.reload config, dials)) :
    installed entry.event = some config := by
  rcases entry with ⟨before, event, output, after⟩
  dsimp only at taken
  cases step_cases taken with
  | hub event output hub own moved => cases labelled
  | scan event found engine own moved =>
      cases labelled
      cases own
  | advance elapsed hub engine served scanned => cases labelled
  | reload config hub engine served scanned =>
      cases labelled
      rfl
  | publish hub engine served scanned => cases labelled

theorem every_scan {p : Config → Prop}
    (steps : ∀ entry ∈ log,
      (machine self join).step entry.before entry.event = some (entry.output, entry.after))
    (every : ∀ entry ∈ log, ∀ config ∈ installed entry.event, p config) :
    ∀ entry ∈ scanLog log, ∀ config, entry.event = .reload config → p config := by
  intro entry member config reloads
  rcases List.mem_filterMap.mp member with ⟨whole, inside, shape⟩
  rcases Option.map_eq_some_iff.mp shape with ⟨⟨event, dials⟩, labelled, rfl⟩
  cases reloads
  exact every whole inside config (reload_installed (steps whole inside) labelled)

/-- The addresses that a step connects to. -/
def Output.connections (connect : Str → Option (Str × UInt16)) (query : Option Str) :
    Output Node → List (Str × UInt16)
  | .dials probes => probes.map (fun dial => (dial.host, dial.port))
  | .hub (.served (.dispatched _ arrival (.proxy origin subPath))) =>
      (proxyDial connect arrival.request.upgrade origin subPath query).toList
  | _ => []

/-- Why an address is connected to. -/
inductive Justified (boot : Hub.Boot) (earlier : Log Node) (entry : LogEntry Node) :
    Str → UInt16 → Prop
  /-- A probe, to an origin that the last enumeration admitted or retained. -/
  | probe (dials : List Dial) (o : Origin) (probes : entry.output = .dials dials)
      (admitted : Admitted o (scanLog earlier)) : Justified boot earlier entry o.host o.port
  /-- A request for an app, on a stream that was accepted for a device that was trusted. -/
  | request (i : Nat) (switching : Bool) (node : Node) (arrival : Arrival) (subPath : Str)
      (app : CatalogApp) (asks : entry.event = .hub (.serve (.dispatch i switching)))
      (proxied : entry.output =
        .hub (.served (.dispatched node arrival (.proxy app.origin subPath))))
      (listed : app ∈ entry.before.engine.catalog.apps)
      (placed : Placed (PublishedAdmitted · (scanLog earlier)) app)
      (between oldest : Hub.Log Node) (accept : Hub.LogEntry Node)
      (past : hubLog earlier = between ++ accept :: oldest)
      (accepts : Hub.AcceptsStream accept i node) (trusted : Hub.Trusted boot oldest node) :
      Justified boot earlier entry app.origin.host app.origin.port

theorem Justified.local {earlier : Log Node} {entry : LogEntry Node} {host : Str} {port : UInt16}
    (justified : Justified boot earlier entry host port) : LocalHost host := by
  cases justified with
  | probe dials o probes admitted => exact admitted_local admitted
  | request i switching node arrival subPath app asks proxied listed placed =>
      exact placed_local placed

/-- A request is looked up in the catalog of the moment. -/
theorem dispatched_handle {server next : Server Node} {i : Nat} {switching : Bool} {node : Node}
    {arrival : Arrival} {dispatch : Dispatch}
    (taken : Http.step server (.dispatch i switching) =
      some (.dispatched node arrival dispatch, next)) :
    handle server.catalog arrival.request.method arrival.request.path = dispatch := by
  simp only [Http.step] at taken
  split at taken
  · split at taken
    · cases taken
      rfl
    · cases taken
  · cases taken

theorem dispatched_step {hub next : Hub.State Node} {event : Hub.Event Node} {node : Node}
    {arrival : Arrival} {dispatch : Dispatch}
    (taken : (Hub.machine self).step hub event =
      some (.served (.dispatched node arrival dispatch), next)) :
    handle hub.server.catalog arrival.request.method arrival.request.path = dispatch := by
  rcases Hub.served_step taken with ⟨request, rfl, moved⟩
  generalize next.server = server at moved
  cases Http.step_cases moved with
  | dispatches i switching => exact dispatched_handle moved
  | quiet _ _ _ _ _ _ undispatched => cases undispatched
  | moves _ _ _ _ _ _ _ _ _ _ _ undispatched => cases undispatched

theorem request_justified {connect : Str → Option (Str × UInt16)} (laws : ClientLaws connect)
    {earlier : Log Node} {event : Hub.Event Node} {hub : Hub.State Node} {node : Node}
    {arrival : Arrival} {origin : Origin} {subPath host : Str} {port : UInt16}
    {query : Option Str} (run : Run (machine self join) (start boot) earlier before)
    (exposure : Exposure (scanLog earlier) before.engine)
    (taken : (Hub.machine self).step before.hub event =
      some (.served (.dispatched node arrival (.proxy origin subPath)), hub))
    (dialed : proxyDial connect arrival.request.upgrade origin subPath query = some (host, port)) :
    Justified boot earlier ⟨before, .hub event,
      .hub (.served (.dispatched node arrival (.proxy origin subPath))), after⟩ host port := by
  have served := hub_run run
  rcases Hub.dispatch_vouched (Hub.grounded_run served) taken with
    ⟨i, switching, rfl, accept, inside, accepts⟩
  have routed := dispatched_step taken
  rw [(agreement_run run).catalog] at routed
  rcases proxied_entry routed with ⟨app, listed, rfl⟩
  have placed := exposure.catalog app listed
  rcases proxyDial_local laws (placed_local placed) dialed with ⟨rfl, rfl⟩
  rcases List.append_of_mem inside with ⟨between, oldest, past⟩
  rw [past] at served
  have trusted := Hub.trusted_of_length oldest.length served.split.1 rfl accepts.authorized
  exact .request i switching node arrival subPath app rfl rfl listed placed between oldest accept
    past accepts trusted

/-- While every config keeps discovery to loopback binds, the daemon connects to nothing but
services of its own machine: those that a scan admitted, to probe them, and those in the catalog
that scans publish, for a device that was trusted when its stream was accepted. -/
theorem connections_justified {connect : Str → Option (Str × UInt16)} (laws : ClientLaws connect)
    {later earlier : Log Node} {entry : LogEntry Node} {query : Option Str} {host : Str}
    {port : UInt16} (run : Run (machine self join) (start boot) (later ++ entry :: earlier) state)
    (only : EveryConfig boot (later ++ entry :: earlier)
      (fun config => config.discovery.loopbackOnly = true))
    (connects : (host, port) ∈ entry.output.connections connect query) :
    LocalHost host ∧ Justified boot earlier entry host port := by
  rcases run.split with ⟨before, taken⟩
  rw [← List.singleton_append, ← List.append_assoc] at only
  have loopback : LoopbackOnly boot.config (scanLog earlier) := by
    refine ⟨only.first, ?_⟩
    intro scanned member
    have reloads := every_scan (fun _ => before.taken) only.earlier.later scanned member
    cases same : scanned.event with
    | reload config => exact reloads config same
    | _ => rfl
  have exposure := exposure_run (engine_run before) loopback
  have justified : Justified boot earlier entry host port := by
    rcases entry with ⟨old, event, output, next⟩
    dsimp only at taken
    cases step_cases taken with
    | hub event output hub own moved =>
        dsimp only [Output.connections] at connects
        split at connects
        · rename_i dials same
          cases same
        · rename_i node arrival origin subPath same
          cases same
          exact request_justified laws before exposure moved (Option.mem_toList.mp connects)
        · cases connects
    | scan event dials engine own moved =>
        rcases List.mem_map.mp connects with ⟨dial, member, same⟩
        cases same
        rcases dials_admitted (Discovery.stepped moved) exposure dial member with
          ⟨o, admitted, atHost, atPort⟩
        rw [atHost, atPort]
        exact .probe dials o rfl admitted
    | _ => cases connects
  exact ⟨justified.local, justified⟩

/-- A scan finds an app and publishes it. -/
def scanning (found : Listener) (title : String) : List (Event Bytes32) :=
  [.scan .begin, .scan .spawn, .scan (.enumerated [found] none none),
    .scan (.joined found.candidate (page title)), .scan .report, .scan .merge, .publish,
      .scan .bump]

/-- The phone pairs, opens a stream and asks for the app. -/
def visiting (path : String) : List (Event Bytes32) :=
  [.hub (.bind Hub.phone (Bind.requestLine "0123456789abcdef".toList)),
    .hub (.serve (.connect Hub.phone)), .hub (.serve (.checkConnection 0)),
    .hub (.serve (.lookup 0)), .hub (.serve (.lookup 0)), .hub (.serve (.lookup 0)),
    .hub (.serve (.openStream 0)), .hub (.serve (.acceptStream 0)), .hub (.serve (.acquire 0)),
    .hub (.serve (.rateToken 0)), .hub (.serve (.arrive 0 ⟨.get, path.toList, false⟩)),
    .hub (.serve (.dispatch 0 false))]

theorem vite_visited : ∃ log state entry,
    (machine Hub.server noUrls).exec [] (start Hub.fixedBoot)
        (scanning vite "Vite" ++ visiting "/app/vite/") = some (log, state) ∧
      log[0]? = some entry ∧
      ("127.0.0.1".toList, 5173) ∈ entry.output.connections uriAddress none ∧
      Justified Hub.fixedBoot (log.drop 1) entry "127.0.0.1".toList 5173 := by
  rcases exec_checked (machine Hub.server noUrls) _ (scanning vite "Vite" ++ visiting "/app/vite/")
    (fun log _ => log[0]?.any (fun entry : LogEntry Bytes32 => decide
        (("127.0.0.1".toList, 5173) ∈ entry.output.connections uriAddress none)) = true ∧
      ∀ entry ∈ log, ∀ config ∈ installed entry.event, config.discovery.loopbackOnly = true)
    (by decide +kernel : ((machine Hub.server noUrls).exec [] (start Hub.fixedBoot)
      (scanning vite "Vite" ++ visiting "/app/vite/")).any _) with
    ⟨log, state, executed, run, connects, later⟩
  rcases cut_at connects with ⟨entry, here, cut, connected⟩
  have laws : ClientLaws uriAddress := ⟨fun uri host port dialed => dialed⟩
  rw [cut] at run later
  have only : EveryConfig Hub.fixedBoot (log.take 0 ++ entry :: log.drop 1)
      (fun config => config.discovery.loopbackOnly = true) := ⟨rfl, later⟩
  exact ⟨log, state, entry, executed, here, connected,
    (connections_justified laws run only connected).2⟩

end RaemoteServer.Whole
