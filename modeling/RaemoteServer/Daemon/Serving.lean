import RaemoteServer.Daemon.Limiters
import RaemoteServer.Http.Serve

/-! The server whose lookups read the config and the cache in one step follows the daemon, whose
lookups read them in two with a read guard in between. -/

namespace RaemoteServer.Daemon

open Text Collections Runs Auth Http

variable {Node : Type} [DecidableEq Node] [EndpointId Node]
variable {env : Env} {toml : TomlConfig} {daemon next first final : DaemonState Node}
  {server : Server Node}

/-- The limiter of the server was built from the same values. -/
def SameLimiter (limiters : List NodeLimiter) (limiter : Limiter) (l : Nat) : Prop :=
  ∃ permits, limiters[l]? = some ⟨limiter.serve, permits⟩

inductive SameCached (limiters : List NodeLimiter) : Option Limiter → Option Nat → Prop
  | absent : SameCached limiters none none
  | cached (limiter : Limiter) (l : Nat) (same : SameLimiter limiters limiter l) :
      SameCached limiters (some limiter) (some l)

/-- A call and a connection are at the same place of `get_or_create_limiter`. -/
inductive SamePlace (limiters : List NodeLimiter) : CallStage → ConnectionStage → Prop
  | loadGeneration : SamePlace limiters .loadGeneration (.lookup .loadGeneration)
  | loadLimiterGeneration (current : Nat) :
      SamePlace limiters (.loadLimiterGeneration current) (.lookup (.loadLimiterGeneration current))
  | clear (current : Nat) : SamePlace limiters (.clear current) (.lookup (.clear current))
  | readConfig : SamePlace limiters .readConfig (.lookup .entry)
  | guarded : SamePlace limiters .guarded (.lookup .entry)
  | returned (limiter : Limiter) (l : Nat) (same : SameLimiter limiters limiter l) :
      SamePlace limiters (.returned limiter) (.serving l)

/-- The config is replaced, and the generation is not bumped yet. -/
def ReloadStage.unbumped : ReloadStage → Bool
  | .replaced _ | .guarded _ _ | .limited _ => true
  | _ => false

structure Follows (daemon : DaemonState Node) (server : Server Node) : Prop where
  config : server.config = daemon.config
  auth : server.auth = daemon.auth
  configGeneration : server.configGeneration = daemon.configGeneration
  reloads : server.reloads = daemon.reloads.countP (fun task => task.stage.unbumped)
  limiterGeneration : server.limiterGeneration = daemon.limiterGeneration
  cache : ∀ node,
    SameCached server.limiters (daemon.limiters.lookup node) (server.cache.lookup node)
  connections : server.connections.length = daemon.calls.length
  calls : ∀ (c : Nat) node stage, daemon.calls[c]? = some ⟨node, stage⟩ →
    ∃ place, server.connections[c]? = some ⟨node, place⟩ ∧ SamePlace server.limiters stage place

/-- Some steps of the server lead to a state that follows this one. -/
def Followed (daemon : DaemonState Node) (server : Server Node) : Prop :=
  ∃ steps after, Run Http.machine server steps after ∧ Follows daemon after

theorem Follows.rests (follows : Follows daemon server) : Followed daemon server :=
  ⟨[], server, .start, follows⟩

theorem Follows.steps {event : Http.Event Node} {output : Effect Node} {after : Server Node}
    (follows : Follows daemon after) (taken : Http.machine.step server event =
      some (output, after)) :
    Followed daemon server :=
  ⟨_, after, .step .start taken, follows⟩

/-! A new limiter. -/

theorem SameLimiter.append {limiters : List NodeLimiter} {limiter : Limiter} {l : Nat}
    (same : SameLimiter limiters limiter l) (built : NodeLimiter) :
    SameLimiter (limiters ++ [built]) limiter l := by
  obtain ⟨permits, found⟩ := same
  have inside := (List.getElem?_eq_some_iff.mp found).1
  exact ⟨permits, (List.getElem?_append_left inside).trans found⟩

theorem SameCached.append {limiters : List NodeLimiter} {limiter : Option Limiter}
    {l : Option Nat} (same : SameCached limiters limiter l) (built : NodeLimiter) :
    SameCached (limiters ++ [built]) limiter l := by
  cases same with
  | absent => exact .absent
  | cached limiter l same => exact .cached limiter l (same.append built)

theorem SamePlace.append {limiters : List NodeLimiter} {stage : CallStage}
    {place : ConnectionStage} (same : SamePlace limiters stage place) (built : NodeLimiter) :
    SamePlace (limiters ++ [built]) stage place := by
  cases same with
  | returned limiter l same => exact .returned limiter l (same.append built)
  | loadGeneration => exact .loadGeneration
  | loadLimiterGeneration current => exact .loadLimiterGeneration current
  | clear current => exact .clear current
  | readConfig => exact .readConfig
  | guarded => exact .guarded

/-! The steps of a call. -/

omit [EndpointId Node] in
/-- A call and its connection go on together. -/
theorem Follows.moved {c : Nat} {node : Node} {old : CallStage} {new : CallStage}
    {place : ConnectionStage} (follows : Follows daemon server)
    (present : daemon.calls[c]? = some ⟨node, old⟩) (same : SamePlace server.limiters new place) :
    Follows (daemon.setCall c ⟨node, new⟩) (server.setConnection c ⟨node, place⟩) := by
  refine ⟨follows.config, follows.auth, follows.configGeneration, follows.reloads,
    follows.limiterGeneration, follows.cache, ?_, ?_⟩
  · simpa [DaemonState.setCall, Server.setConnection] using follows.connections
  · intro other node' stage found
    have inside := (List.getElem?_eq_some_iff.mp present).1
    rcases getElem?_set_some found with ⟨rfl, here⟩ | ⟨away, there⟩
    · obtain ⟨rfl, rfl⟩ := LimiterCall.mk.inj here
      refine ⟨place, ?_, same⟩
      exact List.getElem?_set_self (follows.connections.symm ▸ inside)
    · obtain ⟨place', here, same'⟩ := follows.calls other node' stage there
      exact ⟨place', (List.getElem?_set_ne (Ne.symm away)).trans here, same'⟩

omit [DecidableEq Node] [EndpointId Node] in
theorem setConnection_self {c : Nat} {connection : Connection Node}
    (here : server.connections[c]? = some connection) :
    server.setConnection c connection = server := by
  obtain ⟨inside, rfl⟩ := List.getElem?_eq_some_iff.mp here
  rw [Server.setConnection, List.set_getElem_self]

omit [EndpointId Node] in
theorem Follows.hit {node : Node} {limiter : Limiter} (follows : Follows daemon server)
    (known : daemon.limiters.lookup node = some limiter) :
    ∃ l, server.cache.lookup node = some l ∧ SameLimiter server.limiters limiter l := by
  have cached := follows.cache node
  rw [known] at cached
  generalize server.cache.lookup node = hit at cached ⊢
  cases cached with
  | cached limiter l same => exact ⟨l, rfl, same⟩

omit [EndpointId Node] in
theorem Follows.miss {node : Node} (follows : Follows daemon server)
    (unknown : daemon.limiters.lookup node = none) : server.cache.lookup node = none := by
  have cached := follows.cache node
  rw [unknown] at cached
  generalize server.cache.lookup node = hit at cached ⊢
  cases cached with
  | absent => rfl

omit [EndpointId Node] in
theorem Follows.built (follows : Follows daemon server) (install : Nat) :
    SameLimiter (server.limiters ++ [NodeLimiter.new server.config.serve])
      ⟨daemon.config.serve, install⟩ server.limiters.length := by
  rw [follows.config]
  exact ⟨_, List.getElem?_concat_length⟩

omit [EndpointId Node] in
/-- Both put a limiter for the device into the cache. -/
theorem Follows.build (follows : Follows daemon server) (node : Node) (install : Nat) :
    Follows { daemon with limiters := daemon.limiters.insert node ⟨daemon.config.serve, install⟩ }
      { server with
        cache := server.cache.insert node server.limiters.length
        limiters := server.limiters ++ [NodeLimiter.new server.config.serve] } := by
  refine ⟨follows.config, follows.auth, follows.configGeneration, follows.reloads,
    follows.limiterGeneration, ?_, follows.connections, ?_⟩
  · intro other
    by_cases same : other = node
    · subst same
      simp only [AList.lookup_insert]
      exact .cached _ _ (follows.built install)
    · simp only [AList.lookup_insert_ne same]
      exact (follows.cache other).append _
  · intro c caller stage present
    obtain ⟨place, here, same⟩ := follows.calls c caller stage present
    exact ⟨place, here, same.append _⟩

theorem lookup_taken {c : Nat} {node : Node} {at' : Lookup}
    (present : server.connections[c]? = some ⟨node, .lookup at'⟩) :
    Http.machine.step server (.lookup c) = some (.none, server.lookupStep c node at') := by
  simp only [Http.machine, Http.step, present]

theorem called_followed {c : Nat} {node : Node} {old new : CallStage}
    (follows : Follows daemon server) (present : daemon.calls[c]? = some ⟨node, old⟩)
    (called : Called daemon node old new next) : Followed (next.setCall c ⟨node, new⟩) server := by
  obtain ⟨place, here, same⟩ := follows.calls c node old present
  cases called with
  | loadGeneration =>
      cases same
      refine Follows.steps ?_ (lookup_taken here)
      rw [← follows.configGeneration]
      exact follows.moved present (.loadLimiterGeneration _)
  | differs current other =>
      cases same
      refine Follows.steps ?_ (lookup_taken here)
      rw [← follows.limiterGeneration] at other
      rw [Server.lookupStep, if_pos other]
      exact follows.moved present (.clear current)
  | agrees =>
      cases same
      refine Follows.steps ?_ (lookup_taken here)
      rw [Server.lookupStep, if_neg (not_not.mpr follows.limiterGeneration.symm)]
      exact follows.moved present .readConfig
  | clear current other =>
      cases same
      refine Follows.steps ?_ (lookup_taken here)
      rw [← follows.limiterGeneration] at other
      rw [Server.lookupStep, if_pos other]
      have cleared : Follows { daemon with limiters := ∅, limiterGeneration := current }
          { server with cache := ∅, limiterGeneration := current } :=
        ⟨follows.config, follows.auth, follows.configGeneration, follows.reloads, rfl,
          fun _ => .absent, follows.connections, follows.calls⟩
      exact cleared.moved present .readConfig
  | cleared =>
      cases same
      refine Follows.steps ?_ (lookup_taken here)
      rw [Server.lookupStep, if_neg (not_not.mpr follows.limiterGeneration)]
      exact follows.moved present .readConfig
  | readConfig =>
      cases same
      have still := follows.moved present .guarded
      rw [setConnection_self here] at still
      exact still.rests
  | found limiter known =>
      cases same
      refine Follows.steps ?_ (lookup_taken here)
      obtain ⟨l, hit, built⟩ := follows.hit known
      simp only [Server.lookupStep, hit]
      exact follows.moved present (.returned limiter l built)
  | build limiter unknown shape =>
      cases same
      refine Follows.steps ?_ (lookup_taken here)
      simp only [Server.lookupStep, follows.miss unknown]
      rw [shape]
      exact (follows.build node _).moved present (.returned _ _ (follows.built _))

/-! The steps of a reload, and of the others. -/

omit [EndpointId Node] in
theorem Follows.quiet {r : Nat} {old new : ReloadTask} (follows : Follows daemon server)
    (present : daemon.reloads[r]? = some old) (same : new.stage.unbumped = old.stage.unbumped) :
    Follows (daemon.setReload r new) server := by
  refine ⟨follows.config, follows.auth, follows.configGeneration, ?_, follows.limiterGeneration,
    follows.cache, follows.connections, follows.calls⟩
  have count := countP_set_add (fun task : ReloadTask => task.stage.unbumped) new present
  rw [same] at count
  exact follows.reloads.trans (Nat.add_right_cancel count).symm

theorem handled_followed {r : Nat} {old new : ReloadTask} (follows : Follows daemon server)
    (present : daemon.reloads[r]? = some old) (handled : Handled env toml daemon old new next) :
    Followed (next.setReload r new) server := by
  have count := countP_set_add (fun task : ReloadTask => task.stage.unbumped) new present
  cases handled with
  | failed message install => exact Follows.rests (follows.quiet present rfl)
  | load config install valid => exact Follows.rests (follows.quiet present rfl)
  | compare config install => exact Follows.rests (follows.quiet present rfl)
  | guard fields install => exact Follows.rests (follows.quiet present rfl)
  | replace config fields install free =>
      have taken : Http.machine.step server (.installConfig config) =
          some (.none, { server with config, reloads := server.reloads + 1 }) := rfl
      refine Follows.steps ?_ taken
      refine ⟨rfl, follows.auth, follows.configGeneration, ?_, follows.limiterGeneration,
        follows.cache, follows.connections, follows.calls⟩
      rw [follows.reloads]
      exact count.symm
  | limit limit fields install =>
      have taken : Http.machine.step server (.auth (.setMaxAttempts limit)) =
          some (.none, { server with
            auth := { server.auth with auth := server.auth.auth.setMaxAttempts limit } }) := rfl
      refine Follows.steps ?_ taken
      refine ⟨follows.config, ?_, follows.configGeneration, ?_, follows.limiterGeneration,
        follows.cache, follows.connections, follows.calls⟩
      · rw [follows.auth]
        rfl
      · exact follows.reloads.trans (Nat.add_right_cancel count).symm
  | bump fields install =>
      have pending : server.reloads = (daemon.reloads.set r ⟨.bumped fields, install⟩).countP
          (fun task => task.stage.unbumped) + 1 := follows.reloads.trans count.symm
      have taken : Http.machine.step server .bumpGeneration =
          some (.none, { server with
            reloads := (daemon.reloads.set r ⟨.bumped fields, install⟩).countP
              (fun task => task.stage.unbumped)
            configGeneration := server.configGeneration + 1 }) := by
        simp only [Http.machine, Http.step, pending]
      refine Follows.steps ?_ taken
      exact ⟨follows.config, follows.auth, congrArg (· + 1) follows.configGeneration, rfl,
        follows.limiterGeneration, follows.cache, follows.connections, follows.calls⟩
  | answer fields install =>
      have woken : Follows { daemon with discoveryTrigger := true } server :=
        ⟨follows.config, follows.auth, follows.configGeneration, follows.reloads,
          follows.limiterGeneration, follows.cache, follows.connections, follows.calls⟩
      exact Follows.rests (woken.quiet present rfl)

/-- The connection of a device that is authorized. -/
theorem arrival_followed (follows : Follows daemon server) {node : Node}
    (authorized : daemon.auth.auth.isAuthorized node = true) :
    Followed { daemon with calls := daemon.calls ++ [⟨node, .loadGeneration⟩] } server := by
  let arrived : Server Node :=
    { server with connections := server.connections ++ [⟨node, .arriving⟩] }
  let admitted : Server Node :=
    { server with connections := server.connections ++ [⟨node, .lookup .loadGeneration⟩] }
  have connected : Http.machine.step server (.connect node) = some (.none, arrived) := rfl
  have known : arrived.auth.auth.isAuthorized node = true := by
    rw [← follows.auth] at authorized
    exact authorized
  have checked : Http.machine.step arrived (.checkConnection server.connections.length) =
      some (.none, admitted) := by
    simp [Http.machine, Http.step, known, Server.setConnection, arrived, admitted]
  refine ⟨_, admitted, .step (.step .start connected) checked, follows.config, follows.auth,
    follows.configGeneration, follows.reloads, follows.limiterGeneration, follows.cache, ?_, ?_⟩
  · simpa [admitted] using follows.connections
  · intro c caller stage present
    have bound := (List.getElem?_eq_some_iff.mp present).1
    rw [List.length_append, List.length_singleton] at bound
    rcases Nat.lt_succ_iff_lt_or_eq.mp bound with inside | rfl
    · rw [List.getElem?_append_left inside] at present
      obtain ⟨place, here, same⟩ := follows.calls c caller stage present
      exact ⟨place, (List.getElem?_append_left (follows.connections ▸ inside)).trans here, same⟩
    · rw [List.getElem?_concat_length] at present
      obtain ⟨rfl, rfl⟩ := LimiterCall.mk.inj (Option.some.inj present)
      refine ⟨_, ?_, .loadGeneration⟩
      rw [← follows.connections]
      exact List.getElem?_concat_length

/-- The server has every run of the daemon in which authorized devices ask for limiters. -/
theorem server_follows {log : Log Node} (started : Started first)
    (run : Run (machine env toml) first log final)
    (admitted : ∀ entry ∈ log, ∀ node, entry.event = .call node →
      entry.before.auth.auth.isAuthorized node = true) (catalog : Catalog) :
    ∃ history server, Run Http.machine (Http.start first.auth first.config catalog) history server ∧
      Follows final server := by
  apply run.followed Follows
    (fun entry => ∀ node, entry.event = .call node →
      entry.before.auth.auth.isAuthorized node = true) admitted
  · refine ⟨rfl, rfl, started.configGeneration.symm, ?_, started.limiterGeneration.symm, ?_, ?_, ?_⟩
    · rw [started.reloads]
      rfl
    · intro node
      rw [started.limiters]
      exact .absent
    · rw [started.calls]
      rfl
    · intro c node stage present
      simp [started.calls] at present
  · intro before event output after server taken allowed follows
    cases stepped taken with
    | auth operation other =>
        have performed : Http.machine.step server (.auth operation) =
            some (.none, { server with auth := (perform server.auth operation).2.2 }) := rfl
        refine Follows.steps ?_ performed
        refine ⟨follows.config, ?_, follows.configGeneration, follows.reloads,
          follows.limiterGeneration, follows.cache, follows.connections, follows.calls⟩
        rw [follows.auth]
    | request =>
        refine Follows.rests ?_
        refine ⟨follows.config, follows.auth, follows.configGeneration, ?_,
          follows.limiterGeneration, follows.cache, follows.connections, follows.calls⟩
        rw [follows.reloads, List.countP_append]
        rfl
    | reload _ r old new middle own present handled =>
        exact handled_followed follows present handled
    | call node => exact arrival_followed follows (allowed node rfl)
    | limiter c node old new middle present called => exact called_followed follows present called

end RaemoteServer.Daemon
