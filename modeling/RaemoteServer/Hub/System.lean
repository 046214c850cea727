import RaemoteServer.Auth.DeviceNames
import RaemoteServer.Bind
import RaemoteServer.Http.Revocation
import RaemoteServer.Ipc
import RaemoteServer.PairingUri

/-! Everything that reads or changes the authorization state of a running daemon: the requests of
the command line, the invitations and names that devices ask for, pairing, and reloads. A handler
that reads the config first lets others in before it comes to the authorization state. -/

namespace RaemoteServer.Hub

open Text Collections Runs Auth Http RaemoteServer.Bind

structure TokenResponse where
  uri : Str
  expiresAtUnix : Nat
  deriving DecidableEq

/-- What the IPC handler answers besides `Ok`. -/
inductive Answer where
  | error (message : Str)
  | token (response : TokenResponse)
  | devices (devices : List (Str × Str))
  deriving DecidableEq

/-- A handler at work, with what it has read of the config. -/
inductive Task (Node : Type) where
  | refreshToken (ttlSecs : Option UInt64)
  | minting (ttl : Duration) (fixed : Option Str)
  | createInvite (stream : Nat) (node : Node)
  | inviting (stream : Nat) (node : Node) (ttlSecs maxPending : UInt64)
  /-- Waits for the body of the request. -/
  | renameSelf (stream : Nat) (node : Node)
  | answered
  deriving DecidableEq

structure State (Node : Type) where
  server : Server Node
  tasks : List (Task Node)

inductive Event (Node : Type) where
  /-- Connections, streams and requests, and the config and the catalog as others replace them. -/
  | serve (event : Http.Event Node)
  | advance (elapsed : Duration)
  /-- A reload sets the limit from the config. -/
  | limit
  /-- A request of the command line, with what becomes of a file that is written for it. -/
  | ask (request : Ipc.Request) (saved : Except Str Unit)
  | readConfig (t : Nat)
  | mint (t unixNow : Nat) (random : Bytes32)
  | rename (t : Nat) (name : Str)
  /-- The body of a request to rename cannot be read, or has no name. -/
  | badRequest (t : Nat)
  | bind (node : Node) (data : List UInt8)

inductive Output (Node : Type) where
  | quiet
  | served (effect : Effect Node)
  | ipc (response : Ipc.Response Answer)
  | invite (response : Except ErrorResponse TokenResponse)
  | bind (reply : BindReply)

variable {Node : Type} [DecidableEq Node] [EndpointId Node]

def responseTo (server : Node) (info : TokenInfo) : TokenResponse :=
  ⟨info.uri server, info.expiresAtUnix⟩

/-- The lifetime is of a second reading of the clock. -/
def currentTokenInfo (auth : AuthState Node) (now later : Instant) : Option TokenInfo :=
  auth.inner.pending.bind (fun pending =>
    if now < pending.expiresAt then
      some {
        tokenHex := pending.tokenHex, expiresAtUnix := pending.expiresAtUnix
        ttl := pending.expiresAt - later }
    else none)

def invalidNodeId (nodeId : Str) : Answer := .error ("invalid node id: ".toList ++ nodeId)

def notAuthorized (nodeId : Str) : Answer :=
  .error ("device ".toList ++ nodeId ++ " is not authorized".toList)

/-- The requests that are answered in one section under the lock. -/
def handle (server : Node) (auth : AuthState Node) (now : Instant) (saved : Except Str Unit) :
    Ipc.Request → Option (Ipc.Response Answer × AuthState Node)
  | .hello _ => some (.ok, auth)
  | .getToken =>
      match currentTokenInfo auth now now with
      | some info => some (.handled (.token (responseTo server info)), auth)
      | none => some (.handled (.error "no active token".toList), auth)
  | .listAuthorized =>
      let devices := auth.deviceInfos.map (fun device => (toText device.nodeId, device.name))
      some (.handled (.devices devices), auth)
  | .revokeAuthorized nodeId =>
      match ofText nodeId with
      | some id =>
          let (removed, _, auth) := auth.revoke id
          some (if removed then .ok else .handled (notAuthorized nodeId), auth)
      | none => some (.handled (invalidNodeId nodeId), auth)
  | .renameAuthorized nodeId name =>
      match ofText nodeId with
      | some id =>
          match auth.setDeviceName id name, saved with
          | .ok (_, auth), .ok () => some (.ok, auth)
          | .ok (_, auth), .error message => some (.handled (.error message), auth)
          | .error message, _ => some (.handled (.error message), auth)
      | none => some (.handled (invalidNodeId nodeId), auth)
  | _ => none

def invitesDisabled : ErrorResponse where
  status := 403
  code := "invites_disabled".toList
  message := "invitations are disabled on this server".toList
  hint := some "set bind.allow_invites = true to enable them".toList

def tooManyInvites (message : Str) : ErrorResponse where
  status := 429
  code := "too_many_invites".toList
  message := message
  hint := some "wait for an outstanding invitation to expire or be used".toList

/-- A handler reads the config, and answers if that is enough. -/
def Task.readConfig (config : Config) : Task Node → Option (Output Node × Task Node)
  | .refreshToken ttlSecs =>
      let ttl := fromSecs (ttlSecs.getD config.bind.tokenTtlSecs).toNat
      some (.quiet, .minting ttl config.bind.token)
  | .createInvite stream node =>
      if config.bind.allowInvites then
        some (.quiet, .inviting stream node config.bind.inviteTtlSecs config.bind.maxPendingInvites)
      else some (.invite (.error invitesDisabled), .answered)
  | _ => none

/-- A handler mints what was asked for, and answers. -/
def Task.mint (server : Node) (state : Clocked Node) (unixNow : Nat) (random : Bytes32) :
    Task Node → Option (Output Node × AuthState Node)
  | .minting ttl fixed =>
      let (info, auth) := state.auth.mintTokenWith state.now unixNow random ttl fixed
      some (.ipc (.handled (.token (responseTo server info))), auth)
  | .inviting _ node ttlSecs maxPending =>
      let ttl := fromSecs ttlSecs.toNat
      match state.auth.mintInvitation state.now unixNow random ttl node maxPending.toNat with
      | (.ok info, auth) => some (.invite (.ok (responseTo server info)), auth)
      | (.error message, auth) => some (.invite (.error (tooManyInvites message)), auth)
  | _ => none

/-- The stream whose request the handler answers. -/
def Task.stream : Task Node → Option Nat
  | .createInvite stream _ | .inviting stream _ _ _ | .renameSelf stream _ => some stream
  | .refreshToken _ | .minting _ _ | .answered => none

/-- The handler that a request starts, of those that come to the authorization state. -/
def started : Http.Event Node → Effect Node → List (Task Node)
  | .dispatch i _, .dispatched node _ .createInvite => [.createInvite i node]
  | .dispatch i _, .dispatched node _ .renameSelf => [.renameSelf i node]
  | _, _ => []

def State.withAuth (hub : State Node) (auth : AuthState Node) : State Node :=
  { hub with server := { hub.server with auth := { hub.server.auth with auth } } }

def State.setTask (hub : State Node) (t : Nat) (task : Task Node) : State Node :=
  { hub with tasks := hub.tasks.set t task }

/-- A stream takes its next request when the last one is answered. -/
def State.ready (hub : State Node) : Http.Event Node → Bool
  | .auth _ => false
  | .dispatch i _ => !hub.tasks.any (fun task => task.stream == some i)
  | _ => true

def step (self : Node) (hub : State Node) : Event Node → Option (Output Node × State Node)
  | .serve event =>
      if hub.ready event then do
        let (effect, server) ← Http.step hub.server event
        return (.served effect, ⟨server, hub.tasks ++ started event effect⟩)
      else none
  | .advance elapsed =>
      let auth := { hub.server.auth with now := hub.server.auth.now + elapsed }
      some (.quiet, { hub with server := { hub.server with auth } })
  | .limit =>
      if hub.server.reloads = 0 then none
      else
        let limit := hub.server.config.bind.maxFailedAttempts
        some (.quiet, hub.withAuth (hub.server.auth.auth.setMaxAttempts limit))
  | .ask (.refreshToken ttlSecs) _ =>
      some (.quiet, { hub with tasks := hub.tasks ++ [.refreshToken ttlSecs] })
  | .ask request saved => do
      let (response, auth) ← handle self hub.server.auth.auth hub.server.auth.now saved request
      return (.ipc response, hub.withAuth auth)
  | .readConfig t => do
      let task ← hub.tasks[t]?
      let (output, task) ← task.readConfig hub.server.config
      return (output, hub.setTask t task)
  | .mint t unixNow random => do
      let task ← hub.tasks[t]?
      let (output, auth) ← task.mint self hub.server.auth unixNow random
      return (output, (hub.withAuth auth).setTask t .answered)
  | .rename t name =>
      match hub.tasks[t]? with
      | some (.renameSelf _ node) =>
          match hub.server.auth.auth.setDeviceName node name with
          | .ok (_, auth) => some (.quiet, (hub.withAuth auth).setTask t .answered)
          | .error _ => some (.quiet, hub.setTask t .answered)
      | _ => none
  | .badRequest t =>
      match hub.tasks[t]? with
      | some (.renameSelf _ _) => some (.quiet, hub.setTask t .answered)
      | _ => none
  | .bind node data =>
      let (reply, _, auth) := exchange hub.server.auth.auth hub.server.auth.now node data
      some (.bind reply, hub.withAuth auth)

def machine (self : Node) : Machine (State Node) (Event Node) (Output Node) := ⟨step self⟩

abbrev LogEntry (Node : Type) := Entry (State Node) (Event Node) (Output Node)
abbrev Log (Node : Type) := History (State Node) (Event Node) (Output Node)

/-- What the stores and the config give the daemon when it starts. -/
structure Boot where
  strings : TomlStrings
  store : Option Str
  names : Option Str
  config : Config
  now : Instant
  unixNow : Nat
  random : Bytes32

def Boot.loaded (boot : Boot) : Clocked Node :=
  ⟨loadAt boot.strings boot.store boot.names boot.config.bind.maxFailedAttempts, boot.now⟩

/-- The daemon mints its first pairing token before it serves. -/
def Boot.minting (boot : Boot) : Operation Node :=
  .mintTokenWith (fromSecs boot.config.bind.tokenTtlSecs.toNat) boot.config.bind.token boot.unixNow
    boot.random

def Boot.hub (boot : Boot) (catalog : Catalog) : State Node :=
  ⟨Http.start (perform boot.loaded boot.minting).2.2 boot.config catalog, []⟩

/-! What a step does. -/

/-- The operation on the authorization state that a step performs, if it performs one. -/
def operation (hub : State Node) : Event Node → Option (Operation Node)
  | .advance elapsed => some (.advance elapsed)
  | .limit => some (.setMaxAttempts hub.server.config.bind.maxFailedAttempts)
  | .ask (.revokeAuthorized nodeId) _ => (ofText nodeId).map .revoke
  | .ask (.renameAuthorized nodeId name) _ => (ofText nodeId).map (.setDeviceName · name)
  | .mint t unixNow random =>
      match hub.tasks[t]? with
      | some (.minting ttl fixed) => some (.mintTokenWith ttl fixed unixNow random)
      | some (.inviting _ node ttlSecs maxPending) =>
          some (.mintInvitation (fromSecs ttlSecs.toNat) node maxPending.toNat unixNow random)
      | _ => none
  | .rename t name =>
      match hub.tasks[t]? with
      | some (.renameSelf _ node) => some (.setDeviceName node name)
      | _ => none
  | .bind node data =>
      if data.length > maxBindRequest then none else some (.authenticate node (trim (lossy data)))
  | _ => none

/-- Where an operation on the authorization state comes from. -/
inductive Performs (hub : State Node) : Event Node → Operation Node → Prop
  | advance (elapsed : Duration) : Performs hub (.advance elapsed) (.advance elapsed)
  | limit : Performs hub .limit (.setMaxAttempts hub.server.config.bind.maxFailedAttempts)
  | revokes (nodeId : Str) (id : Node) (saved : Except Str Unit) :
      Performs hub (.ask (.revokeAuthorized nodeId) saved) (.revoke id)
  | renames (nodeId name : Str) (id : Node) (saved : Except Str Unit) :
      Performs hub (.ask (.renameAuthorized nodeId name) saved) (.setDeviceName id name)
  | mints (t unixNow : Nat) (random : Bytes32) (ttl : Duration) (fixed : Option Str)
      (present : hub.tasks[t]? = some (.minting ttl fixed)) :
      Performs hub (.mint t unixNow random) (.mintTokenWith ttl fixed unixNow random)
  | invites (t unixNow : Nat) (random : Bytes32) (stream : Nat) (node : Node)
      (ttlSecs maxPending : UInt64)
      (present : hub.tasks[t]? = some (.inviting stream node ttlSecs maxPending)) :
      Performs hub (.mint t unixNow random)
        (.mintInvitation (fromSecs ttlSecs.toNat) node maxPending.toNat unixNow random)
  | namesItself (t : Nat) (name : Str) (node : Node) :
      Performs hub (.rename t name) (.setDeviceName node name)
  | binds (node : Node) (data : List UInt8) :
      Performs hub (.bind node data) (.authenticate node (trim (lossy data)))

omit [DecidableEq Node] in
theorem operation_cases {hub : State Node} {event : Event Node} {performed : Operation Node}
    (own : operation hub event = some performed) : Performs hub event performed := by
  unfold operation at own
  split at own
  · cases own
    exact .advance _
  · cases own
    exact .limit
  · rcases Option.map_eq_some_iff.mp own with ⟨id, -, rfl⟩
    exact .revokes _ id _
  · rcases Option.map_eq_some_iff.mp own with ⟨id, -, rfl⟩
    exact .renames _ _ id _
  · split at own
    · rename_i ttl fixed present
      cases own
      exact .mints _ _ _ ttl fixed present
    · rename_i stream node ttlSecs maxPending present
      cases own
      exact .invites _ _ _ stream node ttlSecs maxPending present
    · cases own
  · split at own
    · cases own
      exact .namesItself _ _ _
    · cases own
  · split at own
    · cases own
    · cases own
      exact .binds _ _
  · cases own

/-- What a reading of the config makes of a handler. -/
inductive Task.Reads (config : Config) : Task Node → Task Node → Prop
  | refreshToken (ttlSecs : Option UInt64) :
      Reads config (.refreshToken ttlSecs)
        (.minting (fromSecs (ttlSecs.getD config.bind.tokenTtlSecs).toNat) config.bind.token)
  | createInvite (stream : Nat) (node : Node) (allowed : config.bind.allowInvites = true) :
      Reads config (.createInvite stream node)
        (.inviting stream node config.bind.inviteTtlSecs config.bind.maxPendingInvites)
  | disabled (stream : Nat) (node : Node) : Reads config (.createInvite stream node) .answered

def State.performed (hub : State Node) (operation : Operation Node) (tasks : List (Task Node)) :
    State Node :=
  ⟨{ hub.server with auth := (perform hub.server.auth operation).2.2 }, tasks⟩

/-- What a step can do. -/
inductive Stepped (before : State Node) : Event Node → Output Node → State Node → Prop
  | serve (event : Http.Event Node) (effect : Effect Node) (server : Server Node)
      (other : ∀ operation, event ≠ .auth operation)
      (taken : Http.step before.server event = some (effect, server)) :
      Stepped before (.serve event) (.served effect) ⟨server, before.tasks ++ started event effect⟩
  | looks (event : Event Node) (output : Output Node) (idle : operation before event = none) :
      Stepped before event output before
  | refreshes (ttlSecs : Option UInt64) (saved : Except Str Unit) :
      Stepped before (.ask (.refreshToken ttlSecs) saved) .quiet
        { before with tasks := before.tasks ++ [.refreshToken ttlSecs] }
  | reads (t : Nat) (task new : Task Node) (output : Output Node)
      (present : before.tasks[t]? = some task) (reads : task.Reads before.server.config new) :
      Stepped before (.readConfig t) output (before.setTask t new)
  | declines (t stream : Nat) (node : Node)
      (present : before.tasks[t]? = some (.renameSelf stream node)) :
      Stepped before (.badRequest t) .quiet (before.setTask t .answered)
  | operates (event : Event Node) (output : Output Node) (performed : Operation Node)
      (own : operation before event = some performed) (tasks : List (Task Node))
      (shape : tasks = before.tasks ∨ ∃ t, tasks = before.tasks.set t .answered) :
      Stepped before event output (before.performed performed tasks)

variable {self : Node} {before after : State Node} {output : Output Node}

theorem handle_stepped {saved : Except Str Unit} {request : Ipc.Request}
    {response : Ipc.Response Answer} {auth : AuthState Node}
    (handled : handle self before.server.auth.auth before.server.auth.now saved request =
      some (response, auth)) :
    Stepped before (.ask request saved) (.ipc response) (before.withAuth auth) := by
  cases request with
  | revokeAuthorized nodeId =>
      cases read : (ofText nodeId : Option Node) with
      | none =>
          simp only [handle, read] at handled
          cases handled
          exact .looks _ _ (by simp only [operation, read, Option.map_none])
      | some id =>
          simp only [handle, read] at handled
          cases handled
          exact .operates _ _ (.revoke id) (by simp only [operation, read, Option.map_some])
            before.tasks (Or.inl rfl)
  | renameAuthorized nodeId name =>
      cases read : (ofText nodeId : Option Node) with
      | none =>
          simp only [handle, read] at handled
          cases handled
          exact .looks _ _ (by simp only [operation, read, Option.map_none])
      | some id =>
          have own : operation before (.ask (.renameAuthorized nodeId name) saved) =
              some (.setDeviceName id name) := by
            simp only [operation, read, Option.map_some]
          have step (response : Ipc.Response Answer) :=
            Stepped.operates (.ask (.renameAuthorized nodeId name) saved) (.ipc response)
              (.setDeviceName id name) own before.tasks (Or.inl rfl)
          simp only [State.performed, perform] at step
          simp only [handle, read] at handled
          cases named : before.server.auth.auth.setDeviceName id name with
          | error message =>
              simp only [named] at handled step
              cases handled
              exact step _
          | ok result =>
              obtain ⟨saves, changed⟩ := result
              simp only [named] at handled step
              cases saved with
              | ok done =>
                  cases handled
                  exact step _
              | error message =>
                  cases handled
                  exact step _
  | getToken =>
      simp only [handle] at handled
      split at handled
      · cases handled
        exact .looks _ _ rfl
      · cases handled
        exact .looks _ _ rfl
  | hello token =>
      cases handled
      exact .looks _ _ rfl
  | listAuthorized =>
      cases handled
      exact .looks _ _ rfl
  | _ => cases handled

theorem step_ask {request : Ipc.Request} {saved : Except Str Unit}
    (other : ∀ ttlSecs, request ≠ .refreshToken ttlSecs)
    (taken : step self before (.ask request saved) = some (output, after)) :
    ∃ response auth,
      handle self before.server.auth.auth before.server.auth.now saved request =
        some (response, auth) ∧ output = .ipc response ∧ after = before.withAuth auth := by
  cases request with
  | refreshToken ttlSecs => exact (other ttlSecs rfl).elim
  | _ =>
      simp only [step] at taken
      obtain ⟨⟨response, auth⟩, handled, shape⟩ := Option.bind_eq_some_iff.mp taken
      cases shape
      exact ⟨response, auth, handled, rfl, rfl⟩

omit [DecidableEq Node] [EndpointId Node] in
theorem readConfig_reads {config : Config} {task new : Task Node}
    (taken : task.readConfig config = some (output, new)) : task.Reads config new := by
  cases task with
  | refreshToken ttlSecs =>
      cases taken
      exact .refreshToken ttlSecs
  | createInvite stream node =>
      simp only [Task.readConfig] at taken
      split at taken
      · rename_i allowed
        cases taken
        exact .createInvite stream node allowed
      · cases taken
        exact .disabled stream node
  | _ => cases taken

theorem mint_stepped {t unixNow : Nat} {random : Bytes32} {task : Task Node} {auth : AuthState Node}
    (present : before.tasks[t]? = some task)
    (taken : task.mint self before.server.auth unixNow random = some (output, auth)) :
    Stepped before (.mint t unixNow random) output
        ((before.withAuth auth).setTask t .answered) := by
  cases task with
  | minting ttl fixed =>
      cases taken
      exact .operates _ _ (.mintTokenWith ttl fixed unixNow random)
        (by simp only [operation, present]) _ (Or.inr ⟨t, rfl⟩)
  | inviting stream node ttlSecs maxPending =>
      have step (output : Output Node) :=
        Stepped.operates (.mint t unixNow random) output
          (.mintInvitation (fromSecs ttlSecs.toNat) node maxPending.toNat unixNow random)
          (by simp only [operation, present]) (before.tasks.set t .answered) (Or.inr ⟨t, rfl⟩)
      simp only [State.performed, perform] at step
      simp only [Task.mint] at taken
      split at taken
      · rename_i info minted same
        cases taken
        simp only [same] at step
        exact step _
      · rename_i message minted same
        cases taken
        simp only [same] at step
        exact step _
  | _ => cases taken

omit [DecidableEq Node] [EndpointId Node] in
theorem ready_other {event : Http.Event Node} (ready : before.ready event = true) :
    ∀ operation, event ≠ .auth operation := by
  rintro operation rfl
  cases ready

theorem step_cases {event : Event Node}
    (taken : (machine self).step before event = some (output, after)) :
    Stepped before event output after := by
  change step self before event = some (output, after) at taken
  cases event with
  | serve event =>
      simp only [step] at taken
      split at taken
      · rename_i ready
        obtain ⟨⟨effect, server⟩, moved, shape⟩ := Option.bind_eq_some_iff.mp taken
        cases shape
        exact .serve event effect server (ready_other ready) moved
      · cases taken
  | advance elapsed =>
      cases taken
      exact .operates _ _ (.advance elapsed) rfl before.tasks (Or.inl rfl)
  | limit =>
      simp only [step] at taken
      split at taken
      · cases taken
      · cases taken
        exact .operates _ _ (.setMaxAttempts before.server.config.bind.maxFailedAttempts) rfl
          before.tasks (Or.inl rfl)
  | ask request saved =>
      by_cases refreshes : ∃ ttlSecs, request = .refreshToken ttlSecs
      · obtain ⟨ttlSecs, rfl⟩ := refreshes
        cases taken
        exact .refreshes ttlSecs saved
      · obtain ⟨response, auth, handled, rfl, rfl⟩ := step_ask (not_exists.mp refreshes) taken
        exact handle_stepped handled
  | readConfig t =>
      obtain ⟨task, present, inside⟩ := Option.bind_eq_some_iff.mp taken
      obtain ⟨⟨output, new⟩, reads, shape⟩ := Option.bind_eq_some_iff.mp inside
      cases shape
      exact .reads t task new _ present (readConfig_reads reads)
  | mint t unixNow random =>
      obtain ⟨task, present, inside⟩ := Option.bind_eq_some_iff.mp taken
      obtain ⟨⟨output, auth⟩, minted, shape⟩ := Option.bind_eq_some_iff.mp inside
      cases shape
      exact mint_stepped present minted
  | rename t name =>
      simp only [step] at taken
      split at taken
      · rename_i stream node present
        have step :=
          Stepped.operates (.rename t name) .quiet (.setDeviceName node name)
            (by simp only [operation, present]) (before.tasks.set t .answered) (Or.inr ⟨t, rfl⟩)
        simp only [State.performed, perform] at step
        split at taken
        · rename_i saves auth named
          cases taken
          simp only [named] at step
          exact step
        · rename_i message named
          cases taken
          simp only [named] at step
          exact step
      · cases taken
  | badRequest t =>
      simp only [step] at taken
      split at taken
      · rename_i stream node present
        cases taken
        exact .declines t stream node present
      · cases taken
  | bind node data =>
      simp only [step, exchange] at taken
      split at taken
      · rename_i long
        cases taken
        exact .looks _ _ (if_pos long)
      · rename_i short
        cases taken
        have own : operation before (.bind node data) =
            some (.authenticate node (trim (lossy data))) := if_neg short
        exact .operates _ _ _ own before.tasks (Or.inl rfl)

end RaemoteServer.Hub
