import RaemoteServer.Auth.Runs
import RaemoteServer.Http.Routing

/-! `ServeHandler`: connections, their streams, the limiters they are admitted by, and the
reloads, pairings and revocations that go on at the same time. Atomics are sequentially
consistent and a section under a lock is one step. -/

namespace RaemoteServer.Http

open Text Collections Runs Auth

/-- Where a connection is in `get_or_create_limiter`. -/
inductive Lookup where
  | loadGeneration
  | loadLimiterGeneration (current : Nat)
  /-- The generations differed; waits for the lock. -/
  | clear (current : Nat)
  | entry
  deriving DecidableEq

inductive ConnectionStage where
  | arriving
  | lookup (at' : Lookup)
  /-- In the `accept_bi` loop, with the limiter it was given. -/
  | serving (limiter : Nat)
  | closed
  deriving DecidableEq

structure Connection (Node : Type) where
  node : Node
  stage : ConnectionStage
  deriving DecidableEq

inductive StreamStage where
  | opened
  /-- Past the check; the task has a clone of the connection's limiter. -/
  | accepted (limiter : Nat)
  /-- Past `try_acquire_concurrency`, waiting for a rate token. -/
  | limited
  /-- In `serve_connection`. -/
  | http
  /-- The answer to a request was 101; hyper hands the stream over. -/
  | upgrading
  | tunnel
  | ended
  deriving DecidableEq

structure Request where
  method : Method
  path : Str
  /-- It has an `Upgrade` header. -/
  upgrade : Bool
  deriving DecidableEq

/-- A request with what held when it arrived; the code does not look at that. -/
structure Arrival where
  request : Request
  authorized : Bool
  deriving DecidableEq

structure Stream (Node : Type) where
  connection : Nat
  node : Node
  stage : StreamStage
  /-- Arrived and not handled yet, oldest first. -/
  requests : List Arrival
  /-- The limiter whose permit the task holds. -/
  permit : Option Nat
  deriving DecidableEq

structure NodeLimiter where
  serve : ServeConfig
  permits : Nat
  deriving DecidableEq

structure Server (Node : Type) where
  auth : Clocked Node
  config : Config
  catalog : Catalog
  configGeneration : Nat
  /-- Reloads that have replaced the config and not bumped the generation yet. -/
  reloads : Nat
  limiterGeneration : Nat
  /-- `ServeHandler::limiters`: which of the limiters a device is given. -/
  cache : HashMap Node Nat
  limiters : List NodeLimiter
  connections : List (Connection Node)
  streams : List (Stream Node)

inductive Event (Node : Type) where
  | auth (operation : Operation Node)
  | installConfig (config : Config)
  | bumpGeneration
  | publish (catalog : Catalog)
  | connect (node : Node)
  | checkConnection (c : Nat)
  | lookup (c : Nat)
  | closeConnection (c : Nat)
  | openStream (c : Nat)
  | arrive (i : Nat) (request : Request)
  | acceptStream (i : Nat)
  | acquire (i : Nat)
  | rateToken (i : Nat)
  /-- `handle` is called; an upgrade is only answered with 101 if the app agrees. -/
  | dispatch (i : Nat) (switching : Bool)
  | endHttp (i : Nat)
  | handOver (i : Nat)
  | endTunnel (i : Nat)
  | releasePermit (i : Nat)

inductive Effect (Node : Type) where
  | none
  | unauthorized
  | admitted
  | tooManyStreams
  | dispatched (node : Node) (arrival : Arrival) (dispatch : Dispatch)

variable {Node : Type} [DecidableEq Node] [EndpointId Node]

def NodeLimiter.new (serve : ServeConfig) : NodeLimiter :=
  ⟨serve, serve.maxConcurrentStreams.toNat⟩

def Server.setConnection (server : Server Node) (c : Nat) (connection : Connection Node) :
    Server Node :=
  { server with connections := server.connections.set c connection }

def Server.setStream (server : Server Node) (i : Nat) (stream : Stream Node) : Server Node :=
  { server with streams := server.streams.set i stream }

/-- One step of `get_or_create_limiter` for a connection. -/
def Server.lookupStep (server : Server Node) (c : Nat) (node : Node) : Lookup → Server Node
  | .loadGeneration =>
      server.setConnection c ⟨node, .lookup (.loadLimiterGeneration server.configGeneration)⟩
  | .loadLimiterGeneration current =>
      server.setConnection c ⟨node, .lookup
        (if current ≠ server.limiterGeneration then .clear current else .entry)⟩
  | .clear current =>
      let server :=
        if server.limiterGeneration ≠ current then
          { server with cache := ∅, limiterGeneration := current }
        else server
      server.setConnection c ⟨node, .lookup .entry⟩
  | .entry =>
      match server.cache.lookup node with
      | some limiter => server.setConnection c ⟨node, .serving limiter⟩
      | none =>
          let limiter := server.limiters.length
          let server := { server with
            cache := server.cache.insert node limiter
            limiters := server.limiters ++ [NodeLimiter.new server.config.serve] }
          server.setConnection c ⟨node, .serving limiter⟩

/-- Streams that reach the connection; a request can still come in on one that is served. -/
def StreamStage.receives : StreamStage → Bool
  | .opened | .accepted _ | .limited | .http => true
  | _ => false

/-- The head of the queue, if `handle` can be called for it. -/
def Stream.next (stream : Stream Node) : Option (Arrival × List Arrival) :=
  match stream.stage, stream.requests with
  | .http, arrival :: rest => some (arrival, rest)
  | _, _ => none

def isProxied : Dispatch → Bool
  | .proxy _ _ => true
  | _ => false

def step (server : Server Node) : Event Node → Option (Effect Node × Server Node)
  | .auth operation =>
      some (.none, { server with auth := (perform server.auth operation).2.2 })
  | .installConfig config =>
      some (.none, { server with config, reloads := server.reloads + 1 })
  | .bumpGeneration =>
      match server.reloads with
      | 0 => none
      | reloads + 1 =>
          some (.none, { server with reloads, configGeneration := server.configGeneration + 1 })
  | .publish catalog => some (.none, { server with catalog })
  | .connect node =>
      some (.none, { server with connections := server.connections ++ [⟨node, .arriving⟩] })
  | .checkConnection c =>
      match server.connections[c]? with
      | some ⟨node, .arriving⟩ =>
          if server.auth.auth.isAuthorized node then
            some (.none, server.setConnection c ⟨node, .lookup .loadGeneration⟩)
          else some (.unauthorized, server.setConnection c ⟨node, .closed⟩)
      | _ => none
  | .lookup c =>
      match server.connections[c]? with
      | some ⟨node, .lookup at'⟩ => some (.none, server.lookupStep c node at')
      | _ => none
  | .closeConnection c =>
      match server.connections[c]? with
      | some ⟨node, .serving _⟩ => some (.none, server.setConnection c ⟨node, .closed⟩)
      | _ => none
  | .openStream c =>
      match server.connections[c]? with
      | some ⟨_, .closed⟩ => none
      | some ⟨node, _⟩ =>
          some (.none, { server with streams := server.streams ++ [⟨c, node, .opened, [], none⟩] })
      | none => none
  | .arrive i request =>
      match server.streams[i]? with
      | some stream =>
          if stream.stage.receives &&
              (server.connections[stream.connection]?).any (·.stage ≠ .closed) then
            let authorized := server.auth.auth.isAuthorized stream.node
            some (.none, server.setStream i
              { stream with requests := stream.requests ++ [⟨request, authorized⟩] })
          else none
      | none => none
  | .acceptStream i =>
      match server.streams[i]? with
      | some ⟨c, node, .opened, requests, permit⟩ =>
          match server.connections[c]? with
          | some ⟨_, .serving limiter⟩ =>
              if server.auth.auth.isAuthorized node then
                some (.none, server.setStream i ⟨c, node, .accepted limiter, requests, permit⟩)
              else
                some (.unauthorized, (server.setConnection c ⟨node, .closed⟩).setStream i
                  ⟨c, node, .ended, requests, permit⟩)
          | _ => none
      | _ => none
  | .acquire i =>
      match server.streams[i]? with
      | some ⟨c, node, .accepted l, requests, none⟩ =>
          match server.limiters[l]? with
          | some ⟨serve, permits + 1⟩ =>
              let server := { server with limiters := server.limiters.set l ⟨serve, permits⟩ }
              some (.admitted, server.setStream i ⟨c, node, .limited, requests, some l⟩)
          | some ⟨_, 0⟩ =>
              some (.tooManyStreams, server.setStream i ⟨c, node, .ended, requests, none⟩)
          | none => none
      | _ => none
  | .rateToken i =>
      match server.streams[i]? with
      | some ⟨c, node, .limited, requests, permit⟩ =>
          some (.none, server.setStream i ⟨c, node, .http, requests, permit⟩)
      | _ => none
  | .dispatch i switching =>
      match server.streams[i]? with
      | some stream =>
          match stream.next with
          | some (arrival, rest) =>
              let dispatch := handle server.catalog arrival.request.method arrival.request.path
              let stage :=
                if switching && arrival.request.upgrade && isProxied dispatch then .upgrading
                else .http
              some (.dispatched stream.node arrival dispatch,
                server.setStream i { stream with requests := rest, stage })
          | none => none
      | none => none
  | .endHttp i =>
      match server.streams[i]? with
      | some ⟨c, node, .http, requests, permit⟩ =>
          some (.none, server.setStream i ⟨c, node, .ended, requests, permit⟩)
      | some ⟨c, node, .upgrading, requests, permit⟩ =>
          some (.none, server.setStream i ⟨c, node, .ended, requests, permit⟩)
      | _ => none
  | .handOver i =>
      -- hyper's future completes here, so the task goes on to drop the permit
      match server.streams[i]? with
      | some ⟨c, node, .upgrading, requests, permit⟩ =>
          some (.none, server.setStream i ⟨c, node, .tunnel, requests, permit⟩)
      | _ => none
  | .endTunnel i =>
      match server.streams[i]? with
      | some ⟨c, node, .tunnel, requests, permit⟩ =>
          some (.none, server.setStream i ⟨c, node, .ended, requests, permit⟩)
      | _ => none
  | .releasePermit i =>
      match server.streams[i]? with
      | some ⟨c, node, stage, requests, some l⟩ =>
          if stage = .tunnel ∨ stage = .ended then
            match server.limiters[l]? with
            | some ⟨serve, permits⟩ =>
                let server := { server with limiters := server.limiters.set l ⟨serve, permits + 1⟩ }
                some (.none, server.setStream i ⟨c, node, stage, requests, none⟩)
            | none => none
          else none
      | _ => none

def machine : Machine (Server Node) (Event Node) (Effect Node) := ⟨step⟩

/-- Before any connection; the device store is loaded and the config is validated. -/
def start (auth : Clocked Node) (config : Config) (catalog : Catalog) : Server Node :=
  { auth, config, catalog, configGeneration := 0, reloads := 0, limiterGeneration := 0
    cache := ∅, limiters := [], connections := [], streams := [] }

/-! What one step can do to the streams and the limiters. -/

/-- Stage changes other than admission. -/
inductive Moves : StreamStage → StreamStage → Prop
  | refused : Moves .opened .ended
  | rejected (limiter : Nat) : Moves (.accepted limiter) .ended
  | started : Moves .limited .http
  | finished : Moves .http .ended
  | abandoned : Moves .upgrading .ended
  | handedOver : Moves .upgrading .tunnel
  | closed : Moves .tunnel .ended

def Effect.isDispatched : Effect Node → Bool
  | .dispatched _ _ _ => true
  | _ => false

inductive Stepped (before : Server Node) : Event Node → Effect Node → Server Node → Prop
  | quiet (event : Event Node) (effect : Effect Node) (after : Server Node)
      (streams : after.streams = before.streams) (limiters : after.limiters = before.limiters)
      (config : after.config = before.config ∨ event = .installConfig after.config)
      (undispatched : effect.isDispatched = false) :
      Stepped before event effect after
  | creates (c : Nat) (after : Server Node) (streams : after.streams = before.streams)
      (limiters : after.limiters = before.limiters ++ [.new before.config.serve])
      (config : after.config = before.config) :
      Stepped before (.lookup c) .none after
  | opens (c : Nat) (node : Node) :
      Stepped before (.openStream c) .none
        { before with streams := before.streams ++ [⟨c, node, .opened, [], none⟩] }
  | arrives (i : Nat) (request : Request) (stream : Stream Node)
      (present : before.streams[i]? = some stream) (receives : stream.stage.receives = true) :
      Stepped before (.arrive i request) .none
        (before.setStream i { stream with
          requests := stream.requests ++
            [⟨request, before.auth.auth.isAuthorized stream.node⟩] })
  | accepts (i c l : Nat) (node : Node) (requests : List Arrival) (permit : Option Nat)
      (present : before.streams[i]? = some ⟨c, node, .opened, requests, permit⟩)
      (authorized : before.auth.auth.isAuthorized node = true) :
      Stepped before (.acceptStream i) .none
        (before.setStream i ⟨c, node, .accepted l, requests, permit⟩)
  | admits (i c l : Nat) (node : Node) (requests : List Arrival) (serve : ServeConfig)
      (permits : Nat)
      (present : before.streams[i]? = some ⟨c, node, .accepted l, requests, none⟩)
      (found : before.limiters[l]? = some ⟨serve, permits + 1⟩) :
      Stepped before (.acquire i) .admitted
        (Server.setStream { before with limiters := before.limiters.set l ⟨serve, permits⟩ } i
          ⟨c, node, .limited, requests, some l⟩)
  | moves (event : Event Node) (effect : Effect Node) (after : Server Node) (i : Nat)
      (old : Stream Node) (stage : StreamStage) (present : before.streams[i]? = some old)
      (order : Moves old.stage stage)
      (streams : after.streams = before.streams.set i { old with stage })
      (limiters : after.limiters = before.limiters) (config : after.config = before.config)
      (undispatched : effect.isDispatched = false) :
      Stepped before event effect after
  | dispatches (i : Nat) (switching : Bool) (c : Nat) (node : Node) (arrival : Arrival)
      (rest : List Arrival) (permit : Option Nat) (stage : StreamStage) (dispatch : Dispatch)
      (present : before.streams[i]? = some ⟨c, node, .http, arrival :: rest, permit⟩)
      (staged : stage = .http ∨ stage = .upgrading) :
      Stepped before (.dispatch i switching) (.dispatched node arrival dispatch)
        (before.setStream i ⟨c, node, stage, rest, permit⟩)
  | releases (i c l : Nat) (node : Node) (stage : StreamStage) (requests : List Arrival)
      (serve : ServeConfig) (permits : Nat)
      (present : before.streams[i]? = some ⟨c, node, stage, requests, some l⟩)
      (done : stage = .tunnel ∨ stage = .ended)
      (found : before.limiters[l]? = some ⟨serve, permits⟩) :
      Stepped before (.releasePermit i) .none
        (Server.setStream { before with limiters := before.limiters.set l ⟨serve, permits + 1⟩ } i
          ⟨c, node, stage, requests, none⟩)

variable {before after : Server Node} {effect : Effect Node}

omit [EndpointId Node] in
theorem step_lookup (c : Nat) (node : Node) (at' : Lookup) :
    Stepped before (.lookup c) .none (before.lookupStep c node at') := by
  cases at' with
  | loadGeneration => exact .quiet _ _ _ rfl rfl (Or.inl rfl) rfl
  | loadLimiterGeneration current => exact .quiet _ _ _ rfl rfl (Or.inl rfl) rfl
  | clear current =>
      refine .quiet _ _ _ ?_ ?_ (Or.inl ?_) rfl <;>
        simp only [Server.lookupStep, Server.setConnection] <;> split <;> rfl
  | entry =>
      simp only [Server.lookupStep]
      split
      · exact .quiet _ _ _ rfl rfl (Or.inl rfl) rfl
      · exact .creates c _ rfl rfl rfl

theorem step_arrive (i : Nat) (request : Request)
    (taken : step before (.arrive i request) = some (effect, after)) :
    Stepped before (.arrive i request) effect after := by
  simp only [step] at taken
  split at taken
  · rename_i stream present
    split at taken
    · rename_i open'
      cases taken
      exact .arrives i request stream present (Bool.and_eq_true_iff.mp open').1
    · cases taken
  · cases taken

theorem step_acceptStream (i : Nat)
    (taken : step before (.acceptStream i) = some (effect, after)) :
    Stepped before (.acceptStream i) effect after := by
  simp only [step] at taken
  split at taken
  · rename_i c node requests permit present
    split at taken
    · rename_i limiter serving
      split at taken
      · rename_i authorized
        cases taken
        exact .accepts i c limiter node requests permit present authorized
      · cases taken
        exact .moves _ _ _ i _ .ended present .refused rfl rfl rfl rfl
    · cases taken
  · cases taken

theorem step_acquire (i : Nat)
    (taken : step before (.acquire i) = some (effect, after)) :
    Stepped before (.acquire i) effect after := by
  simp only [step] at taken
  split at taken
  · rename_i c node l requests present
    split at taken
    · rename_i serve permits found
      cases taken
      exact .admits i c l node requests serve permits present found
    · cases taken
      exact .moves _ _ _ i _ .ended present (.rejected l) rfl rfl rfl rfl
    · cases taken
  · cases taken

theorem step_dispatch (i : Nat) (switching : Bool)
    (taken : step before (.dispatch i switching) = some (effect, after)) :
    Stepped before (.dispatch i switching) effect after := by
  simp only [step] at taken
  split at taken
  · rename_i stream present
    split at taken
    · rename_i arrival rest next
      obtain ⟨c, node, stage, requests, permit⟩ := stream
      cases stage with
      | http =>
          cases requests with
          | nil => cases next
          | cons first others =>
              cases next
              cases taken
              refine .dispatches i switching c node _ _ permit _ _ present ?_
              split
              · exact Or.inr rfl
              · exact Or.inl rfl
      | _ => cases next
    · cases taken
  · cases taken

theorem step_endHttp (i : Nat)
    (taken : step before (.endHttp i) = some (effect, after)) :
    Stepped before (.endHttp i) effect after := by
  simp only [step] at taken
  split at taken
  · rename_i c node requests permit present
    cases taken
    exact .moves _ _ _ i _ .ended present .finished rfl rfl rfl rfl
  · rename_i c node requests permit present
    cases taken
    exact .moves _ _ _ i _ .ended present .abandoned rfl rfl rfl rfl
  · cases taken

theorem step_releasePermit (i : Nat)
    (taken : step before (.releasePermit i) = some (effect, after)) :
    Stepped before (.releasePermit i) effect after := by
  simp only [step] at taken
  split at taken
  · rename_i c node stage requests l present
    split at taken
    · rename_i done
      split at taken
      · rename_i serve permits found
        cases taken
        exact .releases i c l node stage requests serve permits present done found
      · cases taken
    · cases taken
  · cases taken

theorem step_cases {event : Event Node}
    (taken : machine.step before event = some (effect, after)) :
    Stepped before event effect after := by
  change step before event = some (effect, after) at taken
  cases event with
  | auth operation =>
      cases taken
      exact .quiet _ _ _ rfl rfl (Or.inl rfl) rfl
  | installConfig config =>
      cases taken
      exact .quiet _ _ _ rfl rfl (Or.inr rfl) rfl
  | bumpGeneration =>
      simp only [step] at taken
      split at taken
      · cases taken
      · cases taken
        exact .quiet _ _ _ rfl rfl (Or.inl rfl) rfl
  | publish catalog =>
      cases taken
      exact .quiet _ _ _ rfl rfl (Or.inl rfl) rfl
  | connect node =>
      cases taken
      exact .quiet _ _ _ rfl rfl (Or.inl rfl) rfl
  | checkConnection c =>
      simp only [step] at taken
      split at taken
      · split at taken
        · cases taken
          exact .quiet _ _ _ rfl rfl (Or.inl rfl) rfl
        · cases taken
          exact .quiet _ _ _ rfl rfl (Or.inl rfl) rfl
      · cases taken
  | lookup c =>
      simp only [step] at taken
      split at taken
      · cases taken
        exact step_lookup c _ _
      · cases taken
  | closeConnection c =>
      simp only [step] at taken
      split at taken
      · cases taken
        exact .quiet _ _ _ rfl rfl (Or.inl rfl) rfl
      · cases taken
  | openStream c =>
      simp only [step] at taken
      split at taken
      · cases taken
      · cases taken
        exact .opens c _
      · cases taken
  | arrive i request => exact step_arrive i request taken
  | acceptStream i => exact step_acceptStream i taken
  | acquire i => exact step_acquire i taken
  | rateToken i =>
      simp only [step] at taken
      split at taken
      · rename_i c node requests permit present
        cases taken
        exact .moves _ _ _ i _ .http present .started rfl rfl rfl rfl
      · cases taken
  | dispatch i switching => exact step_dispatch i switching taken
  | endHttp i => exact step_endHttp i taken
  | handOver i =>
      simp only [step] at taken
      split at taken
      · rename_i c node requests permit present
        cases taken
        exact .moves _ _ _ i _ .tunnel present .handedOver rfl rfl rfl rfl
      · cases taken
  | endTunnel i =>
      simp only [step] at taken
      split at taken
      · rename_i c node requests permit present
        cases taken
        exact .moves _ _ _ i _ .ended present .closed rfl rfl rfl rfl
      · cases taken
  | releasePermit i => exact step_releasePermit i taken

end RaemoteServer.Http
