import RaemoteServer.Auth.Invitations

/-! What a revocation leaves of the invitations its device had minted. `revoke` does not look
at the invitations and `authenticate` does not look at their creator. -/

namespace RaemoteServer.Auth

open Text Collections Runs

variable {Node : Type} [DecidableEq Node] [EndpointId Node]

def invitationCreator (entry : LogEntry Node) : Option Node :=
  match entry.event with
  | .mintInvitation _ createdBy _ _ _ => some createdBy
  | _ => none

/-- `create_invite` runs for authorized devices only. -/
def CreatorsAuthorized (log : Log Node) : Prop :=
  ∀ entry ∈ log, ∀ creator ∈ invitationCreator entry,
    creator ∈ entry.before.auth.inner.authenticated

instance (log : Log Node) : Decidable (CreatorsAuthorized log) :=
  inferInstanceAs (Decidable (∀ entry ∈ log, ∀ creator ∈ invitationCreator entry,
    creator ∈ entry.before.auth.inner.authenticated))

/-- A call of `revoke` that returned true. -/
def revokes (node : Node) (entry : LogEntry Node) : Bool :=
  match entry.event, entry.output with
  | .revoke other, .revoked removed => decide (other = node) && removed
  | _, _ => false

theorem leaves_by_revoke {before after : Clocked Node} {event : Operation Node} {output : Reply}
    (stepped : Stepped before event output after) {node : Node}
    (known : node ∈ before.auth.inner.authenticated)
    (gone : node ∉ after.auth.inner.authenticated) :
    revokes node ⟨before, event, output, after⟩ = true := by
  have called : event = .revoke node := by
    by_contra other
    exact gone ((authorized_after stepped node).mpr ⟨other, Or.inl known⟩)
  subst called
  cases stepped with
  | revoke => simp [revokes]
  | revokeUnknown _ unknown => exact absurd known unknown

theorem authorized_or_revoked {first state : Clocked Node} {later earlier : Log Node}
    {mint : LogEntry Node} (run : Run machine first (later ++ mint :: earlier) state) {node : Node}
    (known : node ∈ mint.before.auth.inner.authenticated)
    (other : mint.event ≠ .revoke node) :
    node ∈ state.auth.inner.authenticated ∨ ∃ entry ∈ later, revokes node entry = true := by
  induction later generalizing state with
  | nil =>
      cases run with
      | step before taken =>
          exact Or.inl ((authorized_after (step_cases taken) node).mpr ⟨other, Or.inl known⟩)
  | cons newest rest ih =>
      cases run with
      | @step _ before after event output earlierRun taken =>
          rcases ih earlierRun with present | ⟨entry, member, revoked⟩
          · by_cases gone : node ∈ state.auth.inner.authenticated
            · exact Or.inl gone
            · exact Or.inr ⟨_, List.mem_cons_self, leaves_by_revoke (step_cases taken) present gone⟩
          · exact Or.inr ⟨entry, List.mem_cons_of_mem _ member, revoked⟩

omit [DecidableEq Node] [EndpointId Node] in
theorem minted_by_creator {entry : LogEntry Node} {value : Str} {deadline : Instant}
    {createdBy : Node} (minted : invitationMinted entry = some (value, deadline, createdBy)) :
    createdBy ∈ invitationCreator entry ∧ ∀ node, entry.event ≠ .revoke node := by
  obtain ⟨before, event, output, after⟩ := entry
  cases event with
  | mintInvitation =>
      cases output with
      | invitation result =>
          cases result with
          | ok info =>
              cases minted
              exact ⟨rfl, nofun⟩
          | error => cases minted
      | _ => cases minted
  | _ => cases minted

theorem creator_authorized_or_revoked {first state : Clocked Node} {log : Log Node}
    (run : Run machine first log state) (creators : CreatorsAuthorized log) {value : Str}
    {deadline : Instant} {createdBy : Node}
    (outstanding : Outstanding log value deadline createdBy) :
    ∃ later mint earlier, log = later ++ mint :: earlier ∧
      invitationMinted mint = some (value, deadline, createdBy) ∧
      createdBy ∈ mint.before.auth.inner.authenticated ∧
      (∀ entry ∈ later, redeemed entry ≠ some value) ∧
      (createdBy ∈ state.auth.inner.authenticated ∨
        ∃ entry ∈ later, revokes createdBy entry = true) := by
  obtain ⟨later, mint, earlier, rfl, minted, kept⟩ := outstanding
  have unredeemed := fun entry inside => (kept entry inside).2
  obtain ⟨creator, other⟩ := minted_by_creator minted
  have known := creators mint (by simp) createdBy creator
  exact ⟨later, mint, earlier, rfl, minted, known, unredeemed,
    authorized_or_revoked run known (other createdBy)⟩

theorem redeemer_unknown {before after : Clocked Node} {event : Operation Node} {output : Reply}
    (stepped : Stepped before event output after) {node : Node} {value : Str}
    (called : event = .authenticate node value)
    (redemption : redeemed ⟨before, event, output, after⟩ = some value) :
    node ∉ before.auth.inner.authenticated := by
  cases stepped with
  | authenticate other presented outcome saves auth attempt =>
      obtain ⟨rfl, rfl⟩ := Operation.authenticate.inj called
      cases attempt with
      | boundViaInvitation unknown => exact unknown
      | _ => cases redemption
  | _ => cases called

/-- The creator of an open invitation was authorized when it minted it, and is still or was
revoked since. A revoked device comes back through its own invitation only before the
deadline, and only if nobody redeemed it since the mint. -/
theorem open_invitation_creator {toml : TomlStrings} {store names : Option Str}
    {maxAttempts : UInt32} {now : Instant} {log : Log Node} {state : Clocked Node}
    (run : Run machine ⟨loadAt toml store names maxAttempts, now⟩ log state)
    (creators : CreatorsAuthorized log) :
    (∀ value invitation, (openInvitations state).lookup value = some invitation →
      ∃ later mint earlier, log = later ++ mint :: earlier ∧
        invitationMinted mint = some (value, invitation.expiresAt, invitation.createdBy) ∧
        invitation.createdBy ∈ mint.before.auth.inner.authenticated ∧
        (invitation.createdBy ∈ state.auth.inner.authenticated ∨
          ∃ entry ∈ later, revokes invitation.createdBy entry = true)) ∧
      (∀ newer readmission older value invitation, log = newer ++ readmission :: older →
        readmission.event = .authenticate invitation.createdBy value →
        redeemed readmission = some value →
        readmission.before.auth.inner.invitations.lookup value = some invitation →
          readmission.before.now < invitation.expiresAt ∧
          ∃ later mint earlier, older = later ++ mint :: earlier ∧
            invitationMinted mint = some (value, invitation.expiresAt, invitation.createdBy) ∧
            (∀ entry ∈ later, redeemed entry ≠ some value) ∧
            ∃ entry ∈ later, revokes invitation.createdBy entry = true) := by
  constructor
  · intro value invitation found
    have stored := stored_outstanding run rfl (lookup_dropExpired.mp found).1
    obtain ⟨later, mint, earlier, shape, minted, known, -, origin⟩ :=
      creator_authorized_or_revoked run creators stored
    exact ⟨later, mint, earlier, shape, minted, known, origin⟩
  · rintro newer ⟨before, event, output, after⟩ older value invitation rfl rfl redemption stored
    obtain ⟨beforeRun, taken⟩ := run.split
    have stepped := step_cases taken
    have outstanding := stored_outstanding beforeRun rfl stored
    have olderCreators : CreatorsAuthorized older :=
      fun entry member => creators entry (by simp [member])
    obtain ⟨later, mint, earlier, shape, minted, known, unredeemed, origin⟩ :=
      creator_authorized_or_revoked beforeRun olderCreators outstanding
    obtain ⟨deadline, createdBy, -, early, sameStored⟩ :=
      redeemed_outstanding beforeRun rfl stepped redemption
    obtain rfl := Option.some.inj (stored.symm.trans sameStored)
    have unknown := redeemer_unknown stepped rfl redemption
    exact ⟨early, later, mint, earlier, shape, minted, unredeemed, origin.resolve_left unknown⟩

/-- A phone mints an invitation, is revoked, and presents its own invitation. -/
def readmitting : List (Operation Bytes32) :=
  [.mintTokenWith (fromSecs 300) (some "2468".toList) 1700000000 (Bytes32.filled 3),
    .authenticate (Bytes32.filled 1) "2468".toList,
    .mintInvitation (fromSecs 600) (Bytes32.filled 1) 5 1700000000 (Bytes32.filled 7),
    .revoke (Bytes32.filled 1),
    .advance (fromSecs 400),
    .authenticate (Bytes32.filled 1) (toHex (Bytes32.filled 7).bytes)]

theorem readmitting_creator : ∃ log state,
    machine.exec [] ⟨loadAt .emptyOnly none none 5, 0⟩ (readmitting.take 5) =
      some (log, state) ∧
    ∃ invitation, (openInvitations state).lookup (toHex (Bytes32.filled 7).bytes) =
      some invitation ∧
      ∃ later mint earlier, log = later ++ mint :: earlier ∧
        invitationMinted mint = some (toHex (Bytes32.filled 7).bytes, invitation.expiresAt,
          invitation.createdBy) ∧
        invitation.createdBy ∈ mint.before.auth.inner.authenticated ∧
        (invitation.createdBy ∈ state.auth.inner.authenticated ∨
          ∃ entry ∈ later, revokes invitation.createdBy entry = true) := by
  obtain ⟨log, state, executed, run, creators, present⟩ :=
    exec_checked machine _ (readmitting.take 5)
      (fun log state => CreatorsAuthorized log ∧
        ((openInvitations state).lookup (toHex (Bytes32.filled 7).bytes)).isSome)
      (by decide : (machine.exec [] ⟨loadAt .emptyOnly none none 5, 0⟩
        (readmitting.take 5)).any _)
  obtain ⟨invitation, found⟩ := Option.isSome_iff_exists.mp present
  exact ⟨log, state, executed, invitation, found,
    (open_invitation_creator run creators).1 _ _ found⟩

/-- After its revocation the phone's invitation is open, and it lets the phone in again. -/
theorem revoked_creator_readmitted : ∃ log state,
    machine.exec [] ⟨loadAt .emptyOnly none none 5, 0⟩ readmitting =
      some (log, state) ∧
    CreatorsAuthorized log ∧
    (∃ readmission ∈ log, readmission.event =
        .authenticate (Bytes32.filled 1) (toHex (Bytes32.filled 7).bytes) ∧
      Bytes32.filled 1 ∉ readmission.before.auth.inner.authenticated ∧
      (openInvitations readmission.before).lookup (toHex (Bytes32.filled 7).bytes) =
        some ⟨fromSecs 600, Bytes32.filled 1⟩) ∧
    (∃ revocation ∈ log, revokes (Bytes32.filled 1) revocation = true) ∧
    Bytes32.filled 1 ∈ state.auth.inner.authenticated := by
  refine ⟨_, _, rfl, by decide, ⟨_, List.mem_cons_self, rfl, by decide, rfl⟩, by decide, by decide⟩

end RaemoteServer.Auth
