import RaemoteServer.Discovery.Exposure
import RaemoteServer.Hub.Trust

/-! The daemon as a whole: the engine that scans and the handlers that serve, over one config and
one catalog. Each part takes its own steps; a reload is seen by both, and a scan publishes the
catalog that requests are looked up in. -/

namespace RaemoteServer.Whole

open Text Collections Runs Auth Http Discovery

structure State (Node : Type) where
  hub : Hub.State Node
  engine : Engine

inductive Event (Node : Type) where
  | hub (event : Hub.Event Node)
  | scan (event : ScanEvent)
  | advance (elapsed : Duration)
  /-- A reload replaces the config that is shared. -/
  | reload (config : Config)
  /-- A scan replaces the catalog that is shared. -/
  | publish

inductive Output (Node : Type) where
  | quiet
  | hub (output : Hub.Output Node)
  | dials (dials : List Dial)

variable {Node : Type} [DecidableEq Node] [EndpointId Node]

/-- The steps of the handlers that are steps of the engine too. -/
def sharedByHub : Hub.Event Node → Bool
  | .serve (.publish _) | .serve (.installConfig _) | .advance _ => true
  | _ => false

def sharedByEngine : ScanEvent → Bool
  | .reload _ | .advance _ | .publish => true
  | _ => false

def step (self : Node) (join : Str → Str → Option Url) (state : State Node) :
    Event Node → Option (Output Node × State Node)
  | .hub event =>
      if sharedByHub event then none
      else do
        let (output, hub) ← Hub.step self state.hub event
        return (.hub output, { state with hub })
  | .scan event =>
      if sharedByEngine event then none
      else do
        let (dials, engine) ← Discovery.step join state.engine event
        return (.dials dials, { state with engine })
  | .advance elapsed => do
      let (_, hub) ← Hub.step self state.hub (.advance elapsed)
      let (_, engine) ← Discovery.step join state.engine (.advance elapsed)
      return (.quiet, ⟨hub, engine⟩)
  | .reload config => do
      let (_, hub) ← Hub.step self state.hub (.serve (.installConfig config))
      let (_, engine) ← Discovery.step join state.engine (.reload config)
      return (.quiet, ⟨hub, engine⟩)
  | .publish => do
      let (_, engine) ← Discovery.step join state.engine .publish
      let (_, hub) ← Hub.step self state.hub (.serve (.publish engine.catalog))
      return (.quiet, ⟨hub, engine⟩)

def machine (self : Node) (join : Str → Str → Option Url) :
    Machine (State Node) (Event Node) (Output Node) := ⟨step self join⟩

/-- The daemon has a catalog of the configured apps before anything is served or scanned. -/
def start (boot : Hub.Boot) : State Node :=
  ⟨boot.hub (Catalog.rebuild boot.config.apps []), .start boot.config boot.now⟩

abbrev LogEntry (Node : Type) := Entry (State Node) (Event Node) (Output Node)
abbrev Log (Node : Type) := History (State Node) (Event Node) (Output Node)

/-! What a step is to each part. -/

def hubStep (entry : LogEntry Node) : Option (Hub.Event Node × Hub.Output Node) :=
  match entry.event, entry.output with
  | .hub event, .hub output => some (event, output)
  | .advance elapsed, _ => some (.advance elapsed, .quiet)
  | .reload config, _ => some (.serve (.installConfig config), .served .none)
  | .publish, _ => some (.serve (.publish entry.after.engine.catalog), .served .none)
  | _, _ => none

def engineStep (entry : LogEntry Node) : Option (ScanEvent × List Dial) :=
  match entry.event, entry.output with
  | .scan event, .dials dials => some (event, dials)
  | .advance elapsed, _ => some (.advance elapsed, [])
  | .reload config, _ => some (.reload config, [])
  | .publish, _ => some (.publish, [])
  | _, _ => none

def hubLog (log : Log Node) : Hub.Log Node := projection State.hub hubStep log

def scanLog (log : Log Node) : List ScanEntry := projection State.engine engineStep log

def installed : Event Node → Option Config
  | .reload config => some config
  | _ => none

variable {self : Node} {join : Str → Str → Option Url} {boot : Hub.Boot} {log : Log Node}
  {before after state : State Node} {event : Event Node} {output : Output Node}

/-- What a step can do. -/
inductive Stepped (self : Node) (join : Str → Str → Option Url) (before : State Node) :
    Event Node → Output Node → State Node → Prop
  | hub (event : Hub.Event Node) (output : Hub.Output Node) (hub : Hub.State Node)
      (own : sharedByHub event = false)
      (taken : (Hub.machine self).step before.hub event = some (output, hub)) :
      Stepped self join before (.hub event) (.hub output) { before with hub }
  | scan (event : ScanEvent) (dials : List Dial) (engine : Engine)
      (own : sharedByEngine event = false)
      (taken : (scanner join).step before.engine event = some (dials, engine)) :
      Stepped self join before (.scan event) (.dials dials) { before with engine }
  | advance (elapsed : Duration) (hub : Hub.State Node) (engine : Engine)
      (served : (Hub.machine self).step before.hub (.advance elapsed) = some (.quiet, hub))
      (scanned : (scanner join).step before.engine (.advance elapsed) = some ([], engine)) :
      Stepped self join before (.advance elapsed) .quiet ⟨hub, engine⟩
  | reload (config : Config) (hub : Hub.State Node) (engine : Engine)
      (served : (Hub.machine self).step before.hub (.serve (.installConfig config)) =
        some (.served .none, hub))
      (scanned : (scanner join).step before.engine (.reload config) = some ([], engine)) :
      Stepped self join before (.reload config) .quiet ⟨hub, engine⟩
  | publish (hub : Hub.State Node) (engine : Engine)
      (served : (Hub.machine self).step before.hub (.serve (.publish engine.catalog)) =
        some (.served .none, hub))
      (scanned : (scanner join).step before.engine .publish = some ([], engine)) :
      Stepped self join before .publish .quiet ⟨hub, engine⟩

theorem step_cases (taken : (machine self join).step before event = some (output, after)) :
    Stepped self join before event output after := by
  change step self join before event = some (output, after) at taken
  cases event with
  | hub event =>
      simp only [step] at taken
      split at taken
      · cases taken
      · rename_i own
        rcases Option.bind_eq_some_iff.mp taken with ⟨⟨output, hub⟩, moved, shape⟩
        cases shape
        exact .hub event output hub (Bool.eq_false_iff.mpr own) moved
  | scan event =>
      simp only [step] at taken
      split at taken
      · cases taken
      · rename_i own
        rcases Option.bind_eq_some_iff.mp taken with ⟨⟨dials, engine⟩, moved, shape⟩
        cases shape
        exact .scan event dials engine (Bool.eq_false_iff.mpr own) moved
  | advance elapsed =>
      cases taken
      exact .advance elapsed _ _ rfl rfl
  | reload config =>
      cases taken
      exact .reload config _ _ rfl rfl
  | publish =>
      simp only [step] at taken
      rcases Option.bind_eq_some_iff.mp taken with ⟨⟨dials, engine⟩, scanned, shape⟩
      cases shape
      have quiet : dials = [] := by
        cases Discovery.stepped scanned with
        | publish phase => rfl
      cases quiet
      exact .publish _ engine rfl scanned

theorem hub_projects : Projects State.hub hubStep (machine self join) (Hub.machine self) := by
  intro before event output after taken
  cases step_cases taken with
  | hub event output hub own moved => exact moved
  | scan event dials engine own moved => rfl
  | advance elapsed hub engine served scanned => exact served
  | reload config hub engine served scanned => exact served
  | publish hub engine served scanned => exact served

theorem engine_projects : Projects State.engine engineStep (machine self join) (scanner join) := by
  intro before event output after taken
  cases step_cases taken with
  | hub event output hub own moved => rfl
  | scan event dials engine own moved => exact moved
  | advance elapsed hub engine served scanned => exact scanned
  | reload config hub engine served scanned => exact scanned
  | publish hub engine served scanned => exact scanned

/-- Each part takes part in a run as it does alone. -/
theorem hub_run (run : Run (machine self join) (start boot) log state) :
    Run (Hub.machine self) (boot.hub (Catalog.rebuild boot.config.apps []))
        (hubLog log) state.hub :=
  run.projected hub_projects

theorem engine_run (run : Run (machine self join) (start boot) log state) :
    Run (scanner join) (.start boot.config boot.now) (scanLog log) state.engine :=
  run.projected engine_projects

/-! What the parts share. -/

structure Agreement (state : State Node) : Prop where
  catalog : state.hub.server.catalog = state.engine.catalog
  config : state.hub.server.config = state.engine.config

theorem server_catalog {server next : Server Node} {event : Http.Event Node} {effect : Effect Node}
    (taken : Http.step server event = some (effect, next)) :
    next.catalog = server.catalog ∨ event = .publish next.catalog := by
  cases event with
  | publish catalog =>
      cases taken
      exact Or.inr rfl
  | lookup c =>
      apply Or.inl
      simp only [Http.step] at taken
      split at taken
      · rename_i node at' present
        cases taken
        cases at' with
        | clear current =>
            simp only [Server.lookupStep]
            split <;> rfl
        | entry =>
            simp only [Server.lookupStep]
            split <;> rfl
        | _ => rfl
      · cases taken
  | _ =>
      apply Or.inl
      simp only [Http.step] at taken
      repeat' split at taken
      all_goals first | cases taken; rfl | cases taken

theorem hub_shares {before after : Hub.State Node} {event : Hub.Event Node}
    {output : Hub.Output Node} (own : sharedByHub event = false)
    (taken : (Hub.machine self).step before event = some (output, after)) :
    after.server.catalog = before.server.catalog ∧ after.server.config = before.server.config := by
  cases Hub.step_cases taken with
  | serve event effect server other moved =>
      have catalog := server_catalog moved
      have config := Hub.server_config moved
      constructor
      · apply catalog.resolve_right
        rintro rfl
        cases own
      · apply config.resolve_right
        rintro rfl
        cases own
  | _ => exact ⟨rfl, rfl⟩

theorem engine_shares {before after : Engine} {event : ScanEvent} {dials : List Dial}
    (own : sharedByEngine event = false)
    (taken : (scanner join).step before event = some (dials, after)) :
    after.catalog = before.catalog ∧ after.config = before.config := by
  cases Discovery.stepped taken with
  | reload | advance | publish => cases own
  | joined =>
      rw [conclude_eq]
      exact ⟨rfl, rfl⟩
  | _ => exact ⟨rfl, rfl⟩

theorem Agreement.step (agreement : Agreement before)
    (taken : (machine self join).step before event = some (output, after)) : Agreement after := by
  cases step_cases taken with
  | hub event output hub own moved =>
      have kept := hub_shares own moved
      exact ⟨kept.1.trans agreement.catalog, kept.2.trans agreement.config⟩
  | scan event dials engine own moved =>
      have kept := engine_shares own moved
      exact ⟨agreement.catalog.trans kept.1.symm, agreement.config.trans kept.2.symm⟩
  | advance elapsed hub engine served scanned =>
      cases served
      cases scanned
      exact ⟨agreement.catalog, agreement.config⟩
  | reload config hub engine served scanned =>
      cases served
      cases scanned
      exact ⟨agreement.catalog, rfl⟩
  | publish hub engine served scanned =>
      cases served
      have kept : engine.config = before.engine.config := by
        cases Discovery.stepped scanned with
        | publish phase => rfl
      exact ⟨rfl, agreement.config.trans kept.symm⟩

/-- The engine and the handlers always have the same catalog and the same config. -/
theorem agreement_run (run : Run (machine self join) (start boot) log state) : Agreement state :=
  run.invariant Agreement ⟨rfl, rfl⟩ (fun _ _ _ _ taken agreement => agreement.step taken)

end RaemoteServer.Whole
