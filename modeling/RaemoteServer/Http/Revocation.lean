import RaemoteServer.Http.Serve

/-! A device loses access with its next stream, but an open stream goes on serving it. -/

namespace RaemoteServer.Http

open Text Collections Runs Auth

variable {Node : Type} [DecidableEq Node] [EndpointId Node]

abbrev Log (Node : Type) := History (Server Node) (Event Node) (Effect Node)
abbrev LogEntry (Node : Type) := Entry (Server Node) (Event Node) (Effect Node)

/-- Nothing waits on an accepted stream that arrived while its device was not authorized. -/
def Stream.Cleared (stream : Stream Node) : Prop :=
  stream.stage = .opened ∨ stream.stage = .ended ∨
    ∀ arrival ∈ stream.requests, arrival.authorized = true

def Cleared (server : Server Node) : Prop := ∀ stream ∈ server.streams, stream.Cleared

/-- A device is authorized when a request of it arrives on a stream past the check, and a
stream that passes the check holds nothing from a time when it was not. -/
def Current (entry : LogEntry Node) : Prop :=
  match entry.event with
  | .arrive i _ => ∀ stream, entry.before.streams[i]? = some stream → stream.stage ≠ .opened →
      entry.before.auth.auth.isAuthorized stream.node = true
  | .acceptStream i => ∀ stream, entry.before.streams[i]? = some stream →
      entry.before.auth.auth.isAuthorized stream.node = true →
      ∀ arrival ∈ stream.requests, arrival.authorized = true
  | _ => True

instance (entry : LogEntry Node) : Decidable (Current entry) := by
  unfold Current
  split <;> infer_instance

/-- `handle` was called for a request that arrived while its device was not authorized. -/
def DispatchesRevoked (entry : LogEntry Node) : Prop :=
  match entry.output with
  | .dispatched _ arrival _ => arrival.authorized = false
  | _ => False

instance (entry : LogEntry Node) : Decidable (DispatchesRevoked entry) := by
  unfold DispatchesRevoked
  split <;> infer_instance

omit [DecidableEq Node] [EndpointId Node] in
theorem cleared_set {server : Server Node} (cleared : Cleared server) (i : Nat)
    {stream : Stream Node} (new : stream.Cleared) :
    ∀ other ∈ server.streams.set i stream, other.Cleared := by
  intro other member
  rcases List.mem_or_eq_of_mem_set member with old | rfl
  · exact cleared other old
  · exact new

omit [DecidableEq Node] [EndpointId Node] in
theorem cleared_moves {old : Stream Node} {stage : StreamStage} (cleared : old.Cleared)
    (order : Moves old.stage stage) : Stream.Cleared { old with stage } := by
  rcases cleared with opened | ended | requests
  · rw [opened] at order
    cases order
    exact Or.inr (Or.inl rfl)
  · rw [ended] at order
    cases order
  · exact Or.inr (Or.inr requests)

omit [EndpointId Node] in
theorem cleared_kept {before after : Server Node} {event : Event Node} {effect : Effect Node}
    (stepped : Stepped before event effect after)
    (current : Current ⟨before, event, effect, after⟩) (cleared : Cleared before) :
    Cleared after := by
  have old {i : Nat} {stream : Stream Node} (present : before.streams[i]? = some stream) :
      stream.Cleared := cleared stream (List.mem_of_getElem? present)
  cases stepped with
  | quiet _ _ _ streams limiters config undispatched =>
      unfold Cleared
      rwa [streams]
  | creates c _ streams limiters config =>
      unfold Cleared
      rwa [streams]
  | opens c node =>
      intro stream member
      rcases List.mem_append.mp member with before | new
      · exact cleared stream before
      · obtain rfl := List.mem_singleton.mp new
        exact Or.inl rfl
  | arrives i request stream present receives =>
      refine cleared_set cleared i ?_
      by_cases opened : stream.stage = .opened
      · exact Or.inl opened
      · have authorized := current stream present opened
        rcases old present with opened' | ended | requests
        · exact absurd opened' opened
        · rw [ended] at receives
          cases receives
        · refine Or.inr (Or.inr ?_)
          intro arrival member
          rcases List.mem_append.mp member with earlier | new
          · exact requests arrival earlier
          · obtain rfl := List.mem_singleton.mp new
            exact authorized
  | accepts i c l node requests permit present authorized =>
      have requests := current _ present authorized
      exact cleared_set cleared i (Or.inr (Or.inr requests))
  | admits i c l node requests serve permits present found =>
      refine cleared_set cleared i (Or.inr (Or.inr ?_))
      exact ((old present).resolve_left nofun).resolve_left nofun
  | moves _ _ _ i stream stage present order streams limiters config undispatched =>
      unfold Cleared
      rw [streams]
      exact cleared_set cleared i (cleared_moves (old present) order)
  | dispatches i switching c node arrival rest permit stage dispatch present staged =>
      refine cleared_set cleared i (Or.inr (Or.inr ?_))
      have requests := ((old present).resolve_left nofun).resolve_left nofun
      exact fun other member => requests other (List.mem_cons_of_mem _ member)
  | releases i c l node stage requests serve permits present done found =>
      have same : Stream.Cleared ⟨c, node, stage, requests, some l⟩ := old present
      exact cleared_set cleared i same

theorem cleared_run {auth : Clocked Node} {config : Config} {catalog : Catalog} {log : Log Node}
    {server : Server Node} (run : Run machine (start auth config catalog) log server)
    (current : ∀ entry ∈ log, Current entry) : Cleared server := by
  refine run.invariant_of_allowed Cleared Current current ?_ ?_
  · intro stream member
    cases member
  · intro before event effect after taken allowed cleared
    exact cleared_kept (step_cases taken) allowed cleared

omit [EndpointId Node] in
theorem cleared_dispatch {before after : Server Node} {event : Event Node} {effect : Effect Node}
    (stepped : Stepped before event effect after) (cleared : Cleared before) :
    ¬ DispatchesRevoked ⟨before, event, effect, after⟩ := by
  cases stepped with
  | dispatches i switching c node arrival rest permit stage dispatch present staged =>
      have old := cleared _ (List.mem_of_getElem? present)
      have requests := (old.resolve_left nofun).resolve_left nofun
      have authorized : arrival.authorized = true := requests arrival List.mem_cons_self
      simp [DispatchesRevoked, authorized]
  | quiet _ effect _ _ _ _ undispatched =>
      cases effect with
      | dispatched node arrival dispatch => cases undispatched
      | _ => exact id
  | moves _ effect _ _ _ _ _ _ _ _ _ undispatched =>
      cases effect with
      | dispatched node arrival dispatch => cases undispatched
      | _ => exact id
  | _ => exact id

theorem current_requests_only {auth : Clocked Node} {config : Config} {catalog : Catalog}
    {log : Log Node} {server : Server Node}
    (run : Run machine (start auth config catalog) log server)
    (current : ∀ entry ∈ log, Current entry) : ∀ entry ∈ log, ¬ DispatchesRevoked entry := by
  intro entry member
  obtain ⟨later, earlier, rfl⟩ := List.append_of_mem member
  obtain ⟨before, taken⟩ := run.split
  have cleared := cleared_run before (fun older inside => current older (by simp [inside]))
  exact cleared_dispatch (step_cases taken) cleared

/-- Whoever is not authorized has its next request on an open and idle stream handled. -/
theorem late_request_dispatched {server : Server Node} {i c : Nat} {node : Node}
    {permit : Option Nat} {connection : Connection Node}
    (present : server.streams[i]? = some ⟨c, node, .http, [], permit⟩)
    (found : server.connections[c]? = some connection) (live : connection.stage ≠ .closed)
    (revoked : server.auth.auth.isAuthorized node = false) (request : Request)
    (switching : Bool) : ∃ queued, machine.step server (.arrive i request) = some (.none, queued) ∧
      ∃ after, machine.step queued (.dispatch i switching) =
        some (.dispatched node ⟨request, false⟩ (handle server.catalog request.method request.path),
          after) := by
  have bound : i < server.streams.length := (List.getElem?_eq_some_iff.mp present).1
  have arrived : machine.step server (.arrive i request) =
      some (.none, server.setStream i ⟨c, node, .http, [⟨request, false⟩], permit⟩) := by
    simp [machine, step, present, found, live, revoked, StreamStage.receives]
  have waiting : (server.setStream i ⟨c, node, .http, [⟨request, false⟩], permit⟩).streams[i]? =
      some ⟨c, node, .http, [⟨request, false⟩], permit⟩ := by
    simp [Server.setStream, bound]
  refine ⟨_, arrived, ?_⟩
  simp only [machine, step, waiting, Stream.next]
  exact ⟨_, rfl⟩

def catalogRequest : Request := ⟨.get, "/_hub/catalog".toList, false⟩

def phone : Bytes32 := Bytes32.filled 1

/-- The server of the examples: no device yet, the default config and no app. -/
def emptyServer : Server Bytes32 := start ⟨loadAt .emptyOnly none none 5, 0⟩ .default ⟨[]⟩

/-- A phone pairs, connects, and has a first request served on its first stream. -/
def firstRequest : List (Event Bytes32) :=
  [.auth (.mintTokenWith (fromSecs 300) (some "2468".toList) 1700000000 (Bytes32.filled 3)),
    .auth (.authenticate phone "2468".toList), .connect phone, .checkConnection 0,
    .lookup 0, .lookup 0, .lookup 0, .openStream 0, .arrive 0 catalogRequest, .acceptStream 0,
    .acquire 0, .rateToken 0, .dispatch 0 false]

/-- The phone is revoked; its open stream is left alone and a new one is refused. -/
def revokedStream : List (Event Bytes32) :=
  firstRequest ++ [.auth (.revoke phone), .openStream 0, .arrive 1 catalogRequest, .acceptStream 1]

theorem revoked_stream_refused : ∃ log server,
    machine.exec [] emptyServer revokedStream = some (log, server) ∧
    ∀ entry ∈ log, ¬ DispatchesRevoked entry := by
  obtain ⟨log, server, executed, run, current⟩ := exec_checked machine emptyServer revokedStream
    (fun log _ => ∀ entry ∈ log, Current entry)
    (by decide : (machine.exec [] emptyServer revokedStream).any _)
  exact ⟨log, server, executed, current_requests_only run current⟩

/-- The revoked phone sends another request on the stream it has. -/
def keptAlive : List (Event Bytes32) :=
  firstRequest ++ [.auth (.revoke phone), .arrive 0 catalogRequest, .dispatch 0 false]

theorem kept_alive_dispatched : ∃ log server,
    machine.exec [] emptyServer keptAlive = some (log, server) ∧
    (∃ entry ∈ log, (entry.event matches .arrive 0 _) ∧
      phone ∉ entry.before.auth.auth.inner.authenticated) ∧
    ∃ entry ∈ log, DispatchesRevoked entry ∧
      (entry.output matches .dispatched _ ⟨_, false⟩ .catalog) := by
  obtain ⟨log, server, executed, -, checked⟩ := exec_checked machine emptyServer keptAlive
    (fun log _ => (∃ entry ∈ log, (entry.event matches .arrive 0 _) ∧
        phone ∉ entry.before.auth.auth.inner.authenticated) ∧
      ∃ entry ∈ log, DispatchesRevoked entry ∧
        (entry.output matches .dispatched _ ⟨_, false⟩ .catalog))
    (by decide : (machine.exec [] emptyServer keptAlive).any _)
  exact ⟨log, server, executed, checked⟩

end RaemoteServer.Http
