import RaemoteServer.Auth.State
import RaemoteServer.Library.Runs

/-! Runs of the operations on one `AuthState`, and what their log says about the secrets that
are still good. -/

namespace RaemoteServer.Auth

open Text Collections Runs

structure Clocked (Node : Type) where
  auth : AuthState Node
  now : Instant

/-- Random bytes and the wall clock are read from the environment, so they come with the call. -/
inductive Operation (Node : Type) where
  | mintTokenWith (ttl : Duration) (fixed : Option Str) (unixNow : Nat) (random : Bytes32)
  | mintInvitation (ttl : Duration) (createdBy : Node) (maxPending unixNow : Nat) (random : Bytes32)
  | authenticate (node : Node) (presented : Str)
  | revoke (node : Node)
  | setDeviceName (node : Node) (name : Str)
  | setMaxAttempts (val : UInt32)
  | advance (elapsed : Duration)

inductive Reply where
  | token (info : TokenInfo)
  | invitation (result : Except Str TokenInfo)
  | outcome (outcome : BindOutcome)
  | revoked (removed : Bool)
  | named (result : Except Str Unit)
  | done

variable {Node : Type} [DecidableEq Node] [EndpointId Node]

def perform (state : Clocked Node) : Operation Node → Reply × List Save × Clocked Node
  | .mintTokenWith ttl fixed unixNow random =>
      let (info, auth) := state.auth.mintTokenWith state.now unixNow random ttl fixed
      (.token info, [], { state with auth })
  | .mintInvitation ttl createdBy maxPending unixNow random =>
      let (result, auth) :=
        state.auth.mintInvitation state.now unixNow random ttl createdBy maxPending
      (.invitation result, [], { state with auth })
  | .authenticate node presented =>
      let (outcome, saves, auth) := state.auth.authenticate state.now node presented
      (.outcome outcome, saves, { state with auth })
  | .revoke node =>
      let (removed, saves, auth) := state.auth.revoke node
      (.revoked removed, saves, { state with auth })
  | .setDeviceName node name =>
      match state.auth.setDeviceName node name with
      | .ok (saves, auth) => (.named (.ok ()), saves, { state with auth })
      | .error message => (.named (.error message), [], state)
  | .setMaxAttempts val => (.done, [], { state with auth := state.auth.setMaxAttempts val })
  | .advance elapsed => (.done, [], { state with now := state.now + elapsed })

def machine : Machine (Clocked Node) (Operation Node) Reply where
  step state operation :=
    let (reply, _, after) := perform state operation
    some (reply, after)

/-- What one step can do. -/
inductive Stepped (before : Clocked Node) : Operation Node → Reply → Clocked Node → Prop
  | mintTokenWith (ttl : Duration) (fixed : Option Str) (unixNow : Nat) (random : Bytes32)
      (info : TokenInfo)
      (shape : info = tokenInfo (fixed.getD (toHex random.bytes)) (min ttl maxTtl) unixNow) :
      Stepped before (.mintTokenWith ttl fixed unixNow random) (.token info)
        { before with auth := { before.auth with inner := { before.auth.inner with
          pending := some ⟨info.tokenHex, before.now + min ttl maxTtl, info.expiresAtUnix⟩
          failedAttempts := 0 } } }
  | mintInvitation (ttl : Duration) (createdBy : Node) (maxPending unixNow : Nat) (random : Bytes32)
      (room : (before.auth.inner.dropExpired before.now).invitations.len < max maxPending 1) :
      Stepped before (.mintInvitation ttl createdBy maxPending unixNow random)
        (.invitation (.ok (tokenInfo (toHex random.bytes) (min ttl maxTtl) unixNow)))
        { before with auth := { before.auth with inner := {
          before.auth.inner.dropExpired before.now with
          invitations := (before.auth.inner.dropExpired before.now).invitations.insert
            (toHex random.bytes) ⟨before.now + min ttl maxTtl, createdBy⟩ } } }
  | tooManyInvitations (ttl : Duration) (createdBy : Node) (maxPending unixNow : Nat)
      (random : Bytes32) (message : Str) :
      Stepped before (.mintInvitation ttl createdBy maxPending unixNow random)
        (.invitation (.error message))
        { before with
          auth := { before.auth with inner := before.auth.inner.dropExpired before.now } }
  | authenticate (node : Node) (presented : Str) (outcome : BindOutcome) (saves : List Save)
      (auth : AuthState Node)
      (taken : AuthenticateCase before.auth before.now node presented outcome saves auth) :
      Stepped before (.authenticate node presented) (.outcome outcome) { before with auth }
  | revoke (node : Node) (known : node ∈ before.auth.inner.authenticated) :
      Stepped before (.revoke node) (.revoked true)
        { before with auth := { before.auth with inner := { before.auth.inner with
          authenticated := before.auth.inner.authenticated.remove node
          names := before.auth.inner.names.erase node } } }
  | revokeUnknown (node : Node) (unknown : node ∉ before.auth.inner.authenticated) :
      Stepped before (.revoke node) (.revoked false) before
  | setDeviceName (node : Node) (name : Str) (result : Except Str Unit)
      (names : HashMap Node Str) :
      Stepped before (.setDeviceName node name) (.named result)
        { before with auth := { before.auth with inner := { before.auth.inner with names } } }
  | setMaxAttempts (val : UInt32) :
      Stepped before (.setMaxAttempts val) .done
        { before with auth := { before.auth with maxAttempts := val } }
  | advance (elapsed : Duration) :
      Stepped before (.advance elapsed) .done { before with now := before.now + elapsed }

theorem step_cases {before after : Clocked Node} {event : Operation Node} {output : Reply}
    (taken : machine.step before event = some (output, after)) :
    Stepped before event output after := by
  simp only [machine, Option.some.injEq, Prod.mk.injEq] at taken
  obtain ⟨rfl, rfl⟩ := taken
  cases event with
  | mintTokenWith ttl fixed unixNow random => exact .mintTokenWith ttl fixed unixNow random _ rfl
  | mintInvitation ttl createdBy maxPending unixNow random =>
      simp only [perform, AuthState.mintInvitation]
      split
      · exact .tooManyInvitations ttl createdBy maxPending unixNow random _
      · rename_i room
        exact .mintInvitation ttl createdBy maxPending unixNow random (Nat.lt_of_not_le room)
  | authenticate node presented =>
      exact .authenticate node presented _ _ _ (authenticate_cases _ _ _ _)
  | revoke node =>
      simp only [perform, AuthState.revoke]
      split
      · rename_i known
        exact .revoke node known
      · rename_i unknown
        exact .revokeUnknown node unknown
  | setDeviceName node name =>
      simp only [perform, AuthState.setDeviceName]
      split
      · rename_i found
        split at found
        · cases found
          exact .setDeviceName node name _ _
        · cases found
      · exact .setDeviceName node name _ before.auth.inner.names
  | setMaxAttempts val => exact .setMaxAttempts val
  | advance elapsed => exact .advance elapsed

theorem AuthenticateCase.maxAttempts {auth after : AuthState Node} {now : Instant} {node : Node}
    {presented : Str} {outcome : BindOutcome} {saves : List Save}
    (taken : AuthenticateCase auth now node presented outcome saves after) :
    after.maxAttempts = auth.maxAttempts := by
  cases taken <;> rfl

/-- Only `set_max_attempts` sets the limit. -/
theorem perform_maxAttempts (state : Clocked Node) (operation : Operation Node)
    (other : ∀ val, operation ≠ .setMaxAttempts val) :
    (perform state operation).2.2.auth.maxAttempts = state.auth.maxAttempts := by
  have taken : machine.step state operation =
      some ((perform state operation).1, (perform state operation).2.2) := rfl
  generalize (perform state operation).1 = reply, (perform state operation).2.2 = after at taken ⊢
  cases step_cases taken with
  | setMaxAttempts val => exact (other val rfl).elim
  | authenticate node presented outcome saves auth allowed => exact allowed.maxAttempts
  | _ => rfl

/-! Reading the log. -/

abbrev LogEntry (Node : Type) := Entry (Clocked Node) (Operation Node) Reply
abbrev Log (Node : Type) := History (Clocked Node) (Operation Node) Reply

/-- The value and the deadline of a pairing token. -/
def tokenMinted (entry : LogEntry Node) : Option (Str × Instant) :=
  match entry.event, entry.output with
  | .mintTokenWith ttl _ _ _, .token info => some (info.tokenHex, entry.before.now + min ttl maxTtl)
  | _, _ => none

/-- The value, the deadline and the creator of an invitation. -/
def invitationMinted (entry : LogEntry Node) : Option (Str × Instant × Node) :=
  match entry.event, entry.output with
  | .mintInvitation ttl createdBy _ _ _, .invitation (.ok info) =>
      some (info.tokenHex, entry.before.now + min ttl maxTtl, createdBy)
  | _, _ => none

/-- The value of an invitation. -/
def invitationValue (entry : LogEntry Node) : Option Str := (invitationMinted entry).map (·.1)

/-- The random bytes an invitation was made from. -/
def invitationDraw (entry : LogEntry Node) : Option Bytes32 :=
  match entry.event, entry.output with
  | .mintInvitation _ _ _ _ random, .invitation (.ok _) => some random
  | _, _ => none

def redeemed (entry : LogEntry Node) : Option Str :=
  match entry.event, entry.output with
  | .authenticate _ presented, .outcome .boundViaInvitation => some presented
  | _, _ => none

def lockedOut (entry : LogEntry Node) : Bool :=
  match entry.output with
  | .outcome .revoked => true
  | _ => false

/-- The value of the most recent pairing token, before its deadline and not revoked. -/
def LiveToken (log : Log Node) (now : Instant) (value : Str) : Prop :=
  Since (fun entry => tokenMinted entry = none ∧ lockedOut entry = false)
    (fun entry _ => ∃ deadline, tokenMinted entry = some (value, deadline) ∧ now < deadline) log

/-- The newest invitation with the value, not redeemed since. -/
def Outstanding (log : Log Node) (value : Str) (deadline : Instant) (createdBy : Node) : Prop :=
  Since (fun entry => invitationValue entry ≠ some value ∧ redeemed entry ≠ some value)
    (fun entry _ => invitationMinted entry = some (value, deadline, createdBy)) log

def LiveInvitation (log : Log Node) (now : Instant) (value : Str) : Prop :=
  ∃ deadline createdBy, Outstanding log value deadline createdBy ∧ now < deadline

/-- The random generator gave no two invitations the same bytes. -/
def FreshInvitations (log : Log Node) : Prop := (log.filterMap invitationDraw).Nodup

instance (log : Log Node) : Decidable (FreshInvitations log) :=
  inferInstanceAs (Decidable (log.filterMap invitationDraw).Nodup)

end RaemoteServer.Auth
