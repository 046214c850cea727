import RaemoteServer.Hub.System

/-! Why a device is trusted: there is a chain of invitations from it to a device that the operator
let in, and each invitation was asked for by a device that was authorized. -/

namespace RaemoteServer.Hub

open Text Collections Runs Auth Http RaemoteServer.Bind

variable {Node : Type} [DecidableEq Node] [EndpointId Node]
variable {self : Node} {boot : Boot} {catalog : Catalog} {log : Log Node}
  {before after hub : State Node} {event : Event Node} {output : Output Node}

/-! The authorization state takes part in a run as one of its own. -/

/-- What a step is to the authorization state. -/
def authStep (entry : LogEntry Node) : Option (Operation Node × Reply) :=
  (operation entry.before entry.event).map
    (fun operation => (operation, (perform entry.before.server.auth operation).1))

def bootEntry (boot : Boot) : Auth.LogEntry Node :=
  let loaded : Clocked Node := boot.loaded
  ⟨loaded, boot.minting, (perform loaded boot.minting).1, (perform loaded boot.minting).2.2⟩

/-- What has happened to the authorization state since it was loaded. -/
def authLog (boot : Boot) (log : Log Node) : Auth.Log Node :=
  projection (fun hub => hub.server.auth) authStep log ++ [bootEntry boot]

/-- A step of the server changes the authorization state only by an operation. -/
theorem server_auth {server next : Server Node} {event : Http.Event Node} {effect : Effect Node}
    (other : ∀ operation, event ≠ .auth operation)
    (taken : Http.step server event = some (effect, next)) : next.auth = server.auth := by
  cases event with
  | auth operation => exact (other operation rfl).elim
  | lookup c =>
      simp only [Http.step] at taken
      split at taken
      · rename_i node at' present
        cases taken
        cases at' with
        | clear current =>
            simp only [Server.lookupStep]
            split <;> rfl
        | entry =>
            simp only [Server.lookupStep]
            split <;> rfl
        | _ => rfl
      · cases taken
  | _ =>
      simp only [Http.step] at taken
      repeat' split at taken
      all_goals first | cases taken; rfl | cases taken

theorem server_config {server next : Server Node} {event : Http.Event Node} {effect : Effect Node}
    (taken : Http.step server event = some (effect, next)) :
    next.config = server.config ∨ event = .installConfig next.config := by
  cases Http.step_cases taken with
  | quiet _ _ _ streams limiters config undispatched => exact config
  | creates c _ streams limiters config => exact Or.inl config
  | moves _ _ _ i old stage present order streams limiters config undispatched =>
      exact Or.inl config
  | _ => exact Or.inl rfl

theorem auth_projects :
    Projects (fun hub => hub.server.auth) authStep (machine self)
      (Auth.machine : Machine (Clocked Node) (Operation Node) Reply) := by
  intro before event output after taken
  cases step_cases taken with
  | serve event effect server other moved => exact server_auth other moved
  | looks event output idle =>
      have unlabelled : authStep ⟨before, event, output, before⟩ = none := by
        rw [authStep, idle]
        rfl
      rw [unlabelled]
  | refreshes ttlSecs saved => rfl
  | reads t task new output present reads => rfl
  | declines t stream node present => rfl
  | operates event output performed own tasks shape =>
      have labelled : authStep ⟨before, event, output, before.performed performed tasks⟩ =
          some (performed, (perform before.server.auth performed).1) := by
        rw [authStep, own]
        rfl
      rw [labelled]
      rfl

theorem auth_run (run : Run (machine self) (boot.hub catalog) log hub) :
    Run Auth.machine boot.loaded (authLog boot log) hub.server.auth := by
  have minted : Run Auth.machine (boot.loaded : Clocked Node) [bootEntry boot]
      (boot.hub catalog).server.auth := Run.start.step rfl
  exact minted.trans (run.projected auth_projects)

/-! Chains of trust. -/

/-- A stream of the device passes the check. -/
structure AcceptsStream (entry : LogEntry Node) (i : Nat) (node : Node) : Prop where
  event : entry.event = .serve (.acceptStream i)
  stream : entry.before.server.streams[i]?.map Http.Stream.node = some node
  authorized : node ∈ entry.before.server.auth.auth.inner.authenticated

/-- The device that asked on the stream is given an invitation. -/
def Invites (entry : LogEntry Node) (i : Nat) (node : Node) (secret : Str) : Prop :=
  ∃ t unixNow random ttlSecs maxPending, entry.event = .mint t unixNow random ∧
    entry.before.tasks[t]? = some (.inviting i node ttlSecs maxPending) ∧
    secret = toHex random.bytes ∧
    (perform entry.before.server.auth (.mintInvitation (fromSecs ttlSecs.toNat) node
      maxPending.toNat unixNow random)).1 =
        .invitation (.ok (tokenInfo secret (min (fromSecs ttlSecs.toNat) maxTtl) unixNow))

/-- A device that is not authorized presents the secret. -/
def Presents (entry : LogEntry Node) (node : Node) (secret : Str) : Prop :=
  node ∉ entry.before.server.auth.auth.inner.authenticated ∧
    ∃ data, entry.event = .bind node data ∧ trim (lossy data) = secret

inductive Trusted (boot : Boot) : Log Node → Node → Prop
  | stored (log : Log Node) (node : Node) (loaded : node ∈ loadAuthorized boot.store) :
      Trusted boot log node
  /-- With the live pairing token. -/
  | paired (later earlier : Log Node) (entry : LogEntry Node) (node : Node) (secret : Str)
      (presents : Presents entry node secret)
      (live : LiveToken (authLog boot earlier) entry.before.server.auth.now secret) :
      Trusted boot (later ++ entry :: earlier) node
  /-- With a live invitation, that a trusted device was given on a stream of its own. -/
  | invited (later between before earlier : Log Node) (redeem mint accept : LogEntry Node)
      (node inviter : Node) (secret : Str) (i : Nat) (presents : Presents redeem node secret)
      (live : LiveInvitation (authLog boot (between ++ mint :: (before ++ accept :: earlier)))
        redeem.before.server.auth.now secret)
      (invites : Invites mint i inviter secret) (accepts : AcceptsStream accept i inviter)
      (chain : Trusted boot earlier inviter) :
      Trusted boot (later ++ redeem :: (between ++ mint :: (before ++ accept :: earlier))) node

theorem Trusted.cons {node : Node} (entry : LogEntry Node) (trusted : Trusted boot log node) :
    Trusted boot (entry :: log) node := by
  cases trusted with
  | stored _ _ loaded => exact .stored _ _ loaded
  | paired later earlier letIn _ secret presents live =>
      exact .paired (entry :: later) earlier letIn node secret presents live
  | invited later between before earlier redeem mint accept _ inviter secret i presents live invites
      accepts chain =>
      exact .invited (entry :: later) between before earlier redeem mint accept node
        inviter secret i
        presents live invites accepts chain

/-! Streams and handlers belong to devices that were authorized when the stream was accepted. -/

def Vouched (log : Log Node) (i : Nat) (node : Node) : Prop :=
    ∃ entry ∈ log, AcceptsStream entry i node

/-- The stream and the device of the request that is handled. -/
def Task.asker : Task Node → Option (Nat × Node)
  | .createInvite stream node | .inviting stream node _ _ | .renameSelf stream node =>
      some (stream, node)
  | .refreshToken _ | .minting _ _ | .answered => none

structure Grounded (log : Log Node) (hub : State Node) : Prop where
  streams : ∀ i stream, hub.server.streams[i]? = some stream →
    stream.stage = .opened ∨ stream.stage = .ended ∨ Vouched log i stream.node
  tasks : ∀ task ∈ hub.tasks, ∀ i node, task.asker = some (i, node) → Vouched log i node

omit [DecidableEq Node] [EndpointId Node] in
theorem Vouched.cons {i : Nat} {node : Node} (vouched : Vouched log i node)
    (entry : LogEntry Node) :
    Vouched (entry :: log) i node := by
  obtain ⟨old, member, accepts⟩ := vouched
  exact ⟨old, List.mem_cons_of_mem _ member, accepts⟩

theorem Grounded.streams_kept {event : Http.Event Node} {effect : Effect Node}
    {server : Server Node} (grounded : Grounded log before)
    (taken : Http.step before.server event = some (effect, server)) :
    ∀ i stream, server.streams[i]? = some stream →
      stream.stage = .opened ∨ stream.stage = .ended ∨
        Vouched (⟨before, .serve event, output, after⟩ :: log) i stream.node := by
  have old {i : Nat} {stream : Http.Stream Node}
      (present : before.server.streams[i]? = some stream) :
      stream.stage = .opened ∨ stream.stage = .ended ∨
        Vouched (⟨before, .serve event, output, after⟩ :: log) i stream.node :=
    (grounded.streams i stream present).imp_right (Or.imp_right (·.cons _))
  intro i stream here
  cases Http.step_cases taken with
  | quiet _ _ _ streams limiters config undispatched => exact old (streams ▸ here)
  | creates c _ streams limiters config => exact old (streams ▸ here)
  | opens c node =>
      rcases Nat.lt_or_ge i before.server.streams.length with inside | outside
      · exact old ((List.getElem?_append_left inside).symm.trans here)
      · rw [List.getElem?_append_right outside, List.getElem?_singleton] at here
        split at here
        · cases here
          exact Or.inl rfl
        · cases here
  | arrives j request other present receives =>
      rcases getElem?_set_some here with ⟨rfl, rfl⟩ | ⟨-, kept⟩
      · have same := old present
        exact same
      · exact old kept
  | accepts j c l node requests permit present authorized =>
      rcases getElem?_set_some here with ⟨rfl, rfl⟩ | ⟨-, kept⟩
      · refine Or.inr (Or.inr ⟨_, List.mem_cons_self, rfl, ?_, of_decide_eq_true authorized⟩)
        exact congrArg (Option.map Http.Stream.node) present
      · exact old kept
  | admits j c l node requests serve permits present found =>
      rcases getElem?_set_some here with ⟨rfl, rfl⟩ | ⟨-, kept⟩
      · exact Or.inr (Or.inr (((old present).resolve_left nofun).resolve_left nofun))
      · exact old kept
  | moves _ _ _ j other stage present order streams limiters config undispatched =>
      rw [streams] at here
      rcases getElem?_set_some here with ⟨rfl, rfl⟩ | ⟨-, kept⟩
      · rcases old present with opened | ended | vouched
        · rw [opened] at order
          cases order
          exact Or.inr (Or.inl rfl)
        · rw [ended] at order
          cases order
        · exact Or.inr (Or.inr vouched)
      · exact old kept
  | dispatches j switching c node arrival rest permit stage dispatch present staged =>
      rcases getElem?_set_some here with ⟨rfl, rfl⟩ | ⟨-, kept⟩
      · exact Or.inr (Or.inr (((old present).resolve_left nofun).resolve_left nofun))
      · exact old kept
  | releases j c l node stage requests serve permits present done found =>
      rcases getElem?_set_some here with ⟨rfl, rfl⟩ | ⟨-, kept⟩
      · have same := old present
        exact same
      · exact old kept

/-- The device of a request that is dispatched is that of its stream. -/
theorem Grounded.dispatched {i : Nat} {switching : Bool} {node : Node} {arrival : Arrival}
    {dispatch : Dispatch} {server : Server Node} (grounded : Grounded log before)
    (taken : Http.step before.server (.dispatch i switching) =
      some (.dispatched node arrival dispatch, server)) : Vouched log i node := by
  have moved : Http.machine.step before.server (.dispatch i switching) = some (_, server) := taken
  cases Http.step_cases moved with
  | quiet _ _ _ _ _ _ undispatched => cases undispatched
  | moves _ _ _ _ _ _ _ _ _ _ _ undispatched => cases undispatched
  | dispatches _ _ c _ _ rest permit stage _ present staged =>
      exact ((grounded.streams i _ present).resolve_left nofun).resolve_left nofun

omit [DecidableEq Node] [EndpointId Node] in
theorem readConfig_unserved {config : Config} {task new : Task Node} {effect : Effect Node} :
    task.readConfig config ≠ some (.served effect, new) := by
  intro taken
  cases task with
  | createInvite stream node =>
      simp only [Task.readConfig] at taken
      split at taken <;> cases taken
  | _ => cases taken

omit [DecidableEq Node] in
theorem mint_unserved {state : Clocked Node} {unixNow : Nat} {random : Bytes32} {task : Task Node}
    {auth : AuthState Node} {effect : Effect Node} :
    task.mint self state unixNow random ≠ some (.served effect, auth) := by
  intro taken
  cases task with
  | inviting stream node ttlSecs maxPending =>
      simp only [Task.mint] at taken
      split at taken <;> cases taken
  | _ => cases taken

theorem served_step {effect : Effect Node}
    (taken : (machine self).step before event = some (.served effect, after)) :
    ∃ request, event = .serve request ∧
      Http.step before.server request = some (effect, after.server) := by
  change step self before event = some (.served effect, after) at taken
  cases event with
  | serve request =>
      simp only [step] at taken
      split at taken
      · obtain ⟨⟨_, server⟩, moved, shape⟩ := Option.bind_eq_some_iff.mp taken
        cases shape
        exact ⟨request, rfl, moved⟩
      · cases taken
  | ask request saved =>
      by_cases refreshes : ∃ ttlSecs, request = .refreshToken ttlSecs
      · obtain ⟨ttlSecs, rfl⟩ := refreshes
        cases taken
      · obtain ⟨response, auth, handled, impossible, -⟩ := step_ask (not_exists.mp refreshes) taken
        cases impossible
  | limit =>
      simp only [step] at taken
      split at taken <;> cases taken
  | readConfig t =>
      obtain ⟨task, present, inside⟩ := Option.bind_eq_some_iff.mp taken
      obtain ⟨⟨output, new⟩, reads, shape⟩ := Option.bind_eq_some_iff.mp inside
      cases shape
      exact (readConfig_unserved reads).elim
  | mint t unixNow random =>
      obtain ⟨task, present, inside⟩ := Option.bind_eq_some_iff.mp taken
      obtain ⟨⟨output, auth⟩, minted, shape⟩ := Option.bind_eq_some_iff.mp inside
      cases shape
      exact (mint_unserved minted).elim
  | badRequest t =>
      simp only [step] at taken
      split at taken <;> cases taken
  | rename t name =>
      simp only [step] at taken
      split at taken
      · split at taken <;> cases taken
      · cases taken
  | _ => cases taken

theorem dispatch_vouched {node : Node} {arrival : Arrival} {dispatch : Dispatch}
    (grounded : Grounded log before)
    (taken : (machine self).step before event =
      some (.served (.dispatched node arrival dispatch), after)) :
    ∃ i switching, event = .serve (.dispatch i switching) ∧ Vouched log i node := by
  obtain ⟨request, rfl, moved⟩ := served_step taken
  obtain ⟨i, switching, rfl⟩ : ∃ i switching, request = .dispatch i switching := by
    generalize after.server = server at moved
    cases Http.step_cases moved with
    | dispatches i switching => exact ⟨i, switching, rfl⟩
    | quiet _ _ _ _ _ _ undispatched => cases undispatched
    | moves _ _ _ _ _ _ _ _ _ _ _ undispatched => cases undispatched
  exact ⟨i, switching, rfl, grounded.dispatched moved⟩

omit [DecidableEq Node] [EndpointId Node] in
theorem Task.Reads.asker {config : Config} {task new : Task Node} (reads : task.Reads config new)
    {i : Nat} {node : Node} (asked : new.asker = some (i, node)) : task.asker = some (i, node) := by
  cases reads with
  | refreshToken => cases asked
  | createInvite => exact asked
  | disabled => cases asked

omit [DecidableEq Node] [EndpointId Node] in
theorem started_asker {event : Http.Event Node} {effect : Effect Node} {task : Task Node}
    (member : task ∈ started event effect) {i : Nat} {node : Node}
    (asked : task.asker = some (i, node)) :
    ∃ switching arrival dispatch, event = .dispatch i switching ∧
      effect = .dispatched node arrival dispatch := by
  unfold started at member
  split at member
  · obtain rfl := List.mem_singleton.mp member
    cases asked
    exact ⟨_, _, _, rfl, rfl⟩
  · obtain rfl := List.mem_singleton.mp member
    cases asked
    exact ⟨_, _, _, rfl, rfl⟩
  · cases member

theorem Grounded.step (grounded : Grounded log before)
    (stepped : Stepped before event output after) :
    Grounded (⟨before, event, output, after⟩ :: log) after := by
  have streams : ∀ i stream, before.server.streams[i]? = some stream →
      stream.stage = .opened ∨ stream.stage = .ended ∨
        Vouched (⟨before, event, output, after⟩ :: log) i stream.node :=
    fun i stream present =>
      (grounded.streams i stream present).imp_right (Or.imp_right (·.cons _))
  have tasks : ∀ task ∈ before.tasks, ∀ i node, task.asker = some (i, node) →
      Vouched (⟨before, event, output, after⟩ :: log) i node :=
    fun task member i node asked => (grounded.tasks task member i node asked).cons _
  cases stepped with
  | serve event effect server other taken =>
      refine ⟨grounded.streams_kept taken, ?_⟩
      intro task member i node asked
      rcases List.mem_append.mp member with old | new
      · exact tasks task old i node asked
      · obtain ⟨switching, arrival, dispatch, rfl, rfl⟩ := started_asker new asked
        exact (grounded.dispatched taken).cons _
  | looks event output idle => exact ⟨streams, tasks⟩
  | refreshes ttlSecs saved =>
      refine ⟨streams, ?_⟩
      exact List.forall_mem_append.mpr ⟨tasks, by simp [Task.asker]⟩
  | reads t task new output present reads =>
      refine ⟨streams, ?_⟩
      intro other member i node asked
      rcases List.mem_or_eq_of_mem_set member with old | rfl
      · exact tasks other old i node asked
      · exact tasks task (List.mem_of_getElem? present) i node (reads.asker asked)
  | declines t stream node present =>
      refine ⟨streams, ?_⟩
      intro other member i asker asked
      rcases List.mem_or_eq_of_mem_set member with old | rfl
      · exact tasks other old i asker asked
      · cases asked
  | operates event output performed own afterwards shape =>
      refine ⟨streams, ?_⟩
      intro task member i node asked
      rcases shape with rfl | ⟨t, rfl⟩
      · exact tasks task member i node asked
      · rcases List.mem_or_eq_of_mem_set member with old | rfl
        · exact tasks task old i node asked
        · cases asked

theorem grounded_run (run : Run (machine self) (boot.hub catalog) log hub) : Grounded log hub := by
  induction run with
  | start => exact ⟨by simp [Boot.hub, Http.start], by simp [Boot.hub]⟩
  | step earlier taken ih => exact ih.step (step_cases taken)

/-! Secrets that are live were minted by a handler. -/

theorem performs (state : Clocked Node) (operation : Operation Node) :
    Auth.Stepped state operation (perform state operation).1 (perform state operation).2.2 :=
  Auth.step_cases rfl

omit [DecidableEq Node] in
theorem operation_invites {ttl : Duration} {node : Node} {maxPending unixNow : Nat}
    {random : Bytes32}
    (own : operation hub event = some (.mintInvitation ttl node maxPending unixNow random)) :
    ∃ t stream ttlSecs limit, event = .mint t unixNow random ∧
      hub.tasks[t]? = some (.inviting stream node ttlSecs limit) ∧
      ttl = fromSecs ttlSecs.toNat ∧ maxPending = limit.toNat := by
  cases operation_cases own with
  | invites t unixNow random stream node ttlSecs limit present =>
      exact ⟨t, stream, ttlSecs, limit, rfl, present, rfl, rfl⟩

omit [DecidableEq Node] in
theorem operation_binds {node : Node} {presented : Str}
    (own : operation hub event = some (.authenticate node presented)) :
    ∃ data, event = .bind node data ∧ trim (lossy data) = presented := by
  cases operation_cases own with
  | binds node data => exact ⟨data, rfl, rfl⟩

theorem invites_of_outstanding {secret : Str} {deadline : Instant} {inviter : Node}
    (outstanding : Outstanding (authLog boot log) secret deadline inviter) :
    ∃ mint ∈ log, ∃ i, Invites mint i inviter secret := by
  obtain ⟨entry, member, minted⟩ := outstanding.minted
  rcases List.mem_append.mp member with projected | booted
  · obtain ⟨mint, inside, labelled⟩ := List.mem_filterMap.mp projected
    obtain ⟨⟨performed, reply⟩, found, rfl⟩ := Option.map_eq_some_iff.mp labelled
    obtain ⟨_, own, same⟩ := Option.map_eq_some_iff.mp found
    obtain ⟨rfl, rfl⟩ := Prod.mk.inj same
    refine ⟨mint, inside, ?_⟩
    unfold invitationMinted at minted
    split at minted
    · rename_i ttl creator maxPending unixNow random info invite answered
      dsimp only at invite answered
      subst invite
      obtain ⟨t, stream, ttlSecs, limit, event, present, rfl, rfl⟩ := operation_invites own
      have stepped := performs mint.before.server.auth
        (.mintInvitation (fromSecs ttlSecs.toNat) creator limit.toNat unixNow random)
      generalize (perform mint.before.server.auth _).2.2 = changed at stepped
      rw [answered] at stepped
      cases minted
      cases stepped with
      | mintInvitation _ _ _ _ _ room =>
          exact ⟨stream, t, unixNow, random, ttlSecs, limit, event, present, rfl, answered⟩
    · cases minted
  · obtain rfl := List.mem_singleton.mp booted
    cases minted

/-- A device that a step lets in presents a secret that is accepted. -/
theorem presents_of_authorized {node : Node} (stepped : Stepped before event output after)
    (authorized : node ∈ after.server.auth.auth.inner.authenticated) :
    node ∈ before.server.auth.auth.inner.authenticated ∨
      ∃ secret, Presents ⟨before, event, output, after⟩ node secret ∧
        Auth.Accepts before.server.auth secret := by
  by_cases known : node ∈ before.server.auth.auth.inner.authenticated
  · exact Or.inl known
  · cases stepped with
    | serve event effect server other taken =>
        have same := server_auth other taken
        exact Or.inl (same ▸ authorized)
    | looks event output idle => exact Or.inl authorized
    | refreshes ttlSecs saved => exact Or.inl authorized
    | reads t task new output present reads => exact Or.inl authorized
    | declines t stream node present => exact Or.inl authorized
    | operates event output performed own tasks shape =>
        have stepped := performs before.server.auth performed
        obtain ⟨-, origin⟩ := (authorized_after stepped node).mp authorized
        obtain ⟨secret, rfl, accepts⟩ := origin.resolve_left known
        obtain ⟨data, rfl, presented⟩ := operation_binds own
        exact Or.inr ⟨secret, ⟨known, data, rfl, presented⟩, accepts⟩

/-- A device is let in by itself or by a device that was authorized in a shorter run. -/
theorem trusted_of_length (length : Nat) {node : Node}
    (run : Run (machine self) (boot.hub catalog) log hub) (size : log.length = length)
    (authorized : node ∈ hub.server.auth.auth.inner.authenticated) : Trusted boot log node := by
  induction length using Nat.strong_induction_on generalizing log hub node with
  | _ n ih =>
      cases run with
      | start => exact .stored _ _ authorized
      | step earlier taken =>
          rename_i log before event output
          rcases presents_of_authorized (step_cases taken) authorized with
            known | ⟨secret, presents, accepts⟩
          · exact (ih _ (by simp [← size]) earlier rfl known).cons _
          · rcases accepts_live (auth_run earlier) rfl rfl accepts with token | invitation
            · exact .paired [] log _ node secret presents token
            · obtain ⟨deadline, inviter, outstanding, early⟩ := invitation
              obtain ⟨mint, member, i, invites⟩ := invites_of_outstanding outstanding
              obtain ⟨between, rest, rfl⟩ := List.append_of_mem member
              obtain ⟨t, unixNow, random, ttlSecs, limit, minting, present, -⟩ := id invites
              have asked := (grounded_run earlier.split.1).tasks _ (List.mem_of_getElem? present)
              obtain ⟨accept, inside, accepts⟩ := asked i inviter rfl
              obtain ⟨before', oldest, rfl⟩ := List.append_of_mem inside
              have chain := ih oldest.length (by simp [← size]; omega)
                earlier.split.1.split.1 rfl accepts.authorized
              exact .invited [] between before' oldest _ mint accept node inviter secret i presents
                ⟨deadline, inviter, outstanding, early⟩ invites accepts chain

/-- Every device that is authorized, at any time, is trusted. -/
theorem chain_of_trust {node : Node} (run : Run (machine self) (boot.hub catalog) log hub)
    (authorized : node ∈ hub.server.auth.auth.inner.authenticated) : Trusted boot log node :=
  trusted_of_length log.length run rfl authorized

def server : Bytes32 := Bytes32.filled 9
def phone : Bytes32 := Bytes32.filled 1
def tablet : Bytes32 := Bytes32.filled 6

def bootWith (config : Config) : Boot where
  strings := .emptyOnly
  store := none
  names := none
  config := config
  now := 0
  unixNow := 1700000000
  random := Bytes32.filled 3

def fixedBoot : Boot := bootWith (withToken "0123456789abcdef")

/-- The phone pairs and asks for an invitation on a stream of its own. -/
def asking : List (Event Bytes32) :=
  [.bind phone (requestLine "0123456789abcdef".toList), .serve (.connect phone),
    .serve (.checkConnection 0), .serve (.lookup 0), .serve (.lookup 0), .serve (.lookup 0),
    .serve (.openStream 0), .serve (.acceptStream 0), .serve (.acquire 0), .serve (.rateToken 0),
    .serve (.arrive 0 ⟨.post, "/_hub/invite".toList, false⟩), .serve (.dispatch 0 false),
    .readConfig 0]

/-- It passes the invitation on to the tablet. -/
def inviting : List (Event Bytes32) :=
  asking ++ [.mint 0 1700000000 (Bytes32.filled 7),
    .bind tablet (requestLine (toHex (Bytes32.filled 7).bytes))]

theorem tablet_trusted : ∃ log hub,
    (machine server).exec [] (fixedBoot.hub ⟨[]⟩) inviting = some (log, hub) ∧
      tablet ∈ hub.server.auth.auth.inner.authenticated ∧ Trusted fixedBoot log tablet := by
  obtain ⟨log, hub, executed, run, authorized⟩ := exec_checked (machine server) _ inviting
    (fun _ hub => tablet ∈ hub.server.auth.auth.inner.authenticated)
    (by decide +kernel : ((machine server).exec [] (fixedBoot.hub ⟨[]⟩) inviting).any _)
  exact ⟨log, hub, executed, authorized, chain_of_trust run authorized⟩

/-- The device of a request that comes to a handler or to an app. -/
def Output.requester : Output Node → Option Node
  | .served (.dispatched node _ _) => some node
  | _ => none

/-- A request that comes to a handler or to an app is on a stream that was accepted while its
device was authorized; the device was trusted then. -/
theorem requests_trusted {later earlier : Log Node} {entry : LogEntry Node} {node : Node}
    (run : Run (machine self) (boot.hub catalog) (later ++ entry :: earlier) hub)
    (asked : entry.output.requester = some node) :
    ∃ i switching accept between oldest, entry.event = .serve (.dispatch i switching) ∧
      earlier = between ++ accept :: oldest ∧ AcceptsStream accept i node ∧
      Trusted boot oldest node := by
  obtain ⟨before, taken⟩ := run.split
  obtain ⟨old, event, output, next⟩ := entry
  obtain ⟨arrival, dispatch, rfl⟩ : ∃ arrival dispatch,
      output = .served (.dispatched node arrival dispatch) := by
    dsimp only [Output.requester] at asked
    split at asked
    · rename_i arrival dispatch
      obtain rfl := Option.some.inj asked
      exact ⟨arrival, dispatch, rfl⟩
    · cases asked
  obtain ⟨i, switching, same, accept, inside, accepts⟩ :=
    dispatch_vouched (grounded_run before) taken
  obtain ⟨between, oldest, rfl⟩ := List.append_of_mem inside
  exact ⟨i, switching, accept, between, oldest, same, rfl, accepts,
    trusted_of_length oldest.length before.split.1 rfl accepts.authorized⟩

theorem invite_request_trusted : ∃ log hub entry,
    (machine server).exec [] (fixedBoot.hub ⟨[]⟩) inviting = some (log, hub) ∧
      log[3]? = some entry ∧ ∃ i switching accept between oldest,
        entry.event = .serve (.dispatch i switching) ∧
        log.drop 4 = between ++ accept :: oldest ∧ AcceptsStream accept i phone ∧
        Trusted fixedBoot oldest phone := by
  obtain ⟨log, hub, executed, run, asked⟩ := exec_checked (machine server) _ inviting
    (fun log _ => log[3]?.any (fun entry : LogEntry Bytes32 =>
      decide (entry.output.requester = some phone)) = true)
    (by decide +kernel : ((machine server).exec [] (fixedBoot.hub ⟨[]⟩) inviting).any _)
  obtain ⟨entry, here, cut, asks⟩ := cut_at asked
  rw [cut] at run
  exact ⟨log, hub, entry, executed, here, requests_trusted run asks⟩

/-! Without invitations. -/

def installed : Event Node → Option Config
  | .serve (.installConfig config) => some config
  | _ => none

/-- What is so of every config that the daemon has had. -/
structure AllConfigs (boot : Boot) (log : Log Node) (p : Config → Prop) : Prop where
  first : p boot.config
  later : ∀ entry ∈ log, ∀ config ∈ installed entry.event, p config

omit [DecidableEq Node] [EndpointId Node] in
theorem AllConfigs.earlier {p : Config → Prop} {later earlier : Log Node}
    (all : AllConfigs boot (later ++ earlier) p) : AllConfigs boot earlier p :=
  ⟨all.first, fun entry member => all.later entry (List.mem_append_right _ member)⟩

theorem config_kept {p : Config → Prop} (holds : p before.server.config)
    (all : ∀ config ∈ installed event, p config) (stepped : Stepped before event output after) :
    p after.server.config := by
  cases stepped with
  | serve event effect server other taken =>
      rcases server_config taken with kept | replaced
      · exact kept ▸ holds
      · apply all
        rw [replaced]
        rfl
  | _ => exact holds

structure Uninviting (hub : State Node) : Prop where
  config : hub.server.config.bind.allowInvites = false
  tasks : ∀ task ∈ hub.tasks, ∀ stream node ttlSecs maxPending,
    task ≠ .inviting stream node ttlSecs maxPending

theorem Uninviting.step (uninviting : Uninviting before)
    (off : ∀ config ∈ installed event, config.bind.allowInvites = false)
    (stepped : Stepped before event output after) : Uninviting after := by
  refine ⟨@config_kept _ _ _ _ _ _ _ (fun config => config.bind.allowInvites = false)
    uninviting.config off stepped, ?_⟩
  cases stepped with
  | serve event effect server other taken =>
      refine List.forall_mem_append.mpr ⟨uninviting.tasks, ?_⟩
      intro task member stream node ttlSecs maxPending same
      unfold started at member
      split at member
      · cases same ▸ List.mem_singleton.mp member
      · cases same ▸ List.mem_singleton.mp member
      · cases member
  | looks event output idle => exact uninviting.tasks
  | refreshes ttlSecs saved => exact List.forall_mem_append.mpr ⟨uninviting.tasks, by simp⟩
  | reads t task new output present reads =>
      refine forall_mem_set uninviting.tasks ?_
      cases reads with
      | refreshToken ttlSecs => exact nofun
      | createInvite stream node allowed =>
          rw [uninviting.config] at allowed
          cases allowed
      | disabled stream node => exact nofun
  | declines t stream node present => exact forall_mem_set uninviting.tasks nofun
  | operates event output performed own tasks shape =>
      rcases shape with rfl | ⟨t, rfl⟩
      · exact uninviting.tasks
      · exact forall_mem_set uninviting.tasks nofun

theorem uninviting_run (off : AllConfigs boot log (fun config => config.bind.allowInvites = false))
    (run : Run (machine self) (boot.hub catalog) log hub) : Uninviting hub := by
  refine run.invariant_of_allowed Uninviting _ off.later ⟨off.first, nofun⟩ ?_
  intro before event output after taken allowed uninviting
  exact uninviting.step allowed (step_cases taken)

theorem uninvited {entry : LogEntry Node} {i : Nat} {node : Node} {secret : Str}
    (uninviting : Uninviting entry.before) : ¬ Invites entry i node secret := by
  rintro ⟨t, unixNow, random, ttlSecs, maxPending, -, present, -⟩
  exact uninviting.tasks _ (List.mem_of_getElem? present) i node ttlSecs maxPending rfl

/-- If no config of a run allows invitations, none is ever given out, whatever was read before
which reload, and devices come in by the store or by the pairing token only. -/
theorem invitations_off (run : Run (machine self) (boot.hub catalog) log hub)
    (off : AllConfigs boot log (fun config => config.bind.allowInvites = false)) :
    (∀ entry ∈ log, ∀ i node secret, ¬ Invites entry i node secret) ∧
      ∀ node, node ∈ hub.server.auth.auth.inner.authenticated →
        node ∈ loadAuthorized boot.store ∨ ∃ later entry earlier secret,
          log = later ++ entry :: earlier ∧ Presents entry node secret ∧
            LiveToken (authLog boot earlier) entry.before.server.auth.now secret := by
  have none : ∀ entry ∈ log, ∀ i node secret, ¬ Invites entry i node secret := by
    intro entry member i node secret
    obtain ⟨later, earlier, rfl⟩ := List.append_of_mem member
    rw [← List.singleton_append, ← List.append_assoc] at off
    exact uninvited (uninviting_run off.earlier run.split.1)
  refine ⟨none, ?_⟩
  intro node authorized
  have trusted := trusted_of_length log.length run rfl authorized
  cases trusted with
  | stored _ _ loaded => exact Or.inl loaded
  | paired later earlier entry _ secret presents live =>
      exact Or.inr ⟨later, entry, earlier, secret, rfl, presents, live⟩
  | invited later between before earlier redeem mint accept _ inviter secret i presents live invites
      accepts chain =>
      exact (none mint (by simp) i inviter secret invites).elim

def closedBoot : Boot :=
  bootWith { Config.default with bind := { (withToken "0123456789abcdef").bind with
    allowInvites := false } }

theorem phone_paired : ∃ log hub,
    (machine server).exec [] (closedBoot.hub ⟨[]⟩) asking = some (log, hub) ∧
      phone ∈ hub.server.auth.auth.inner.authenticated ∧
      ∃ later entry earlier secret, log = later ++ entry :: earlier ∧ Presents entry phone secret ∧
        LiveToken (authLog closedBoot earlier) entry.before.server.auth.now secret := by
  obtain ⟨log, hub, executed, run, authorized, later⟩ := exec_checked (machine server) _ asking
    (fun log hub => phone ∈ hub.server.auth.auth.inner.authenticated ∧
      ∀ entry ∈ log, ∀ config ∈ installed entry.event, config.bind.allowInvites = false)
    (by decide +kernel : ((machine server).exec [] (closedBoot.hub ⟨[]⟩) asking).any _)
  have paired := (invitations_off run ⟨rfl, later⟩).2 phone authorized
  exact ⟨log, hub, executed, authorized, paired.resolve_left (by decide)⟩

end RaemoteServer.Hub
