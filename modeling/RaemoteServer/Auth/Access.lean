import RaemoteServer.Auth.Runs

/-! Who is authorized, and by which secret. The state keeps exactly the secrets that the log
says are live. -/

namespace RaemoteServer.Auth

open Text Collections Runs

variable {Node : Type} [DecidableEq Node] [EndpointId Node]

omit [DecidableEq Node] [EndpointId Node] in
theorem activeToken_some {inner : Inner Node} {now : Instant} {value : Str} :
    inner.activeToken now = some value ↔
      ∃ pending, inner.pending = some pending ∧ now < pending.expiresAt ∧
        pending.tokenHex = value := by
  simp [Inner.activeToken, Option.filter_eq_some_iff, and_assoc]

omit [DecidableEq Node] [EndpointId Node] in
theorem activeToken_expired {inner : Inner Node} {now later : Instant}
    (inactive : inner.activeToken now = none) (order : now ≤ later) :
    inner.activeToken later = none := by
  cases active : inner.activeToken later with
  | none => rfl
  | some value =>
      obtain ⟨pending, present, early, same⟩ := activeToken_some.mp active
      have before := activeToken_some.mpr ⟨pending, present, lt_of_le_of_lt order early, same⟩
      rw [before] at inactive
      cases inactive

omit [DecidableEq Node] [EndpointId Node] in
theorem liveToken_cons {entry : LogEntry Node} {log : Log Node} {now : Instant} {value : Str}
    (unminted : tokenMinted entry = none) (unlocked : lockedOut entry = false) :
    LiveToken (entry :: log) now value ↔ LiveToken log now value := by
  simp [LiveToken, since_cons, unminted, unlocked]

omit [DecidableEq Node] [EndpointId Node] in
theorem not_liveToken_cons {entry : LogEntry Node} {log : Log Node} {now : Instant} {value : Str}
    (unminted : tokenMinted entry = none) (locked : lockedOut entry = true) :
    ¬ LiveToken (entry :: log) now value := by
  simp [LiveToken, since_cons, unminted, locked]

/-- A pending token that can still be used is the live one of the log. -/
theorem token_tracked {first state : Clocked Node} {log : Log Node}
    (run : Run machine first log state) (base : first.auth.inner.pending = none) :
    ∀ now, state.now ≤ now → ∀ value,
      state.auth.inner.activeToken now = some value ↔ LiveToken log now value := by
  induction run with
  | start =>
      intro now _ value
      simp [Inner.activeToken, base, LiveToken, since_nil]
  | step earlier taken ih =>
      intro now order value
      have quiet {entry : LogEntry Node} (unminted : tokenMinted entry = none)
          (unlocked : lockedOut entry = false) (order : _ ≤ now) :=
        (ih now order value).trans (liveToken_cons unminted unlocked).symm
      cases step_cases taken with
      | mintTokenWith ttl fixed unixNow random info shape =>
          simp only [LiveToken, since_cons, tokenMinted, activeToken_some]
          constructor
          · rintro ⟨pending, present, early, same⟩
            cases present
            exact Or.inl ⟨_, by rw [← same], early⟩
          · rintro (⟨deadline, minted, early⟩ | ⟨⟨impossible, -⟩, -⟩)
            · cases minted
              exact ⟨_, rfl, early, rfl⟩
            · cases impossible
      | mintInvitation => exact quiet rfl rfl order
      | tooManyInvitations => exact quiet rfl rfl order
      | authenticate node presented outcome saves auth attempt =>
          cases attempt with
          | alreadyAuthorized => exact quiet rfl rfl order
          | bound => exact quiet rfl rfl order
          | boundViaInvitation => exact quiet rfl rfl order
          | tokenMismatch => exact quiet rfl rfl order
          | noActiveToken unknown inactive =>
              have expired := activeToken_expired inactive order
              rw [← quiet rfl rfl order, expired]
              simp [Inner.activeToken]
          | revoked =>
              exact iff_of_false (by simp [Inner.activeToken]) (not_liveToken_cons rfl rfl)
      | revoke => exact quiet rfl rfl order
      | revokeUnknown => exact quiet rfl rfl order
      | setDeviceName => exact quiet rfl rfl order
      | setMaxAttempts => exact quiet rfl rfl order
      | advance elapsed => exact quiet rfl rfl (le_trans (Nat.le_add_right _ _) order)

theorem invitation_draw {before after : Clocked Node} {event : Operation Node} {output : Reply}
    (stepped : Stepped before event output after) {value : Str} {deadline : Instant}
    {createdBy : Node}
    (minted : invitationMinted ⟨before, event, output, after⟩ = some (value, deadline, createdBy)) :
    ∃ random, invitationDraw ⟨before, event, output, after⟩ = some random ∧
      value = toHex random.bytes := by
  cases stepped with
  | mintInvitation ttl createdBy maxPending unixNow random =>
      cases minted
      exact ⟨random, rfl, rfl⟩
  | mintTokenWith => cases minted
  | tooManyInvitations => cases minted
  | authenticate => cases minted
  | revoke => cases minted
  | revokeUnknown => cases minted
  | setDeviceName => cases minted
  | setMaxAttempts => cases minted
  | advance => cases minted

omit [DecidableEq Node] [EndpointId Node] in
theorem Outstanding.minted {log : Log Node} {value : Str} {deadline : Instant} {createdBy : Node}
    (outstanding : Outstanding log value deadline createdBy) :
    ∃ entry ∈ log, invitationMinted entry = some (value, deadline, createdBy) := by
  obtain ⟨later, entry, earlier, rfl, minted, -⟩ := outstanding
  exact ⟨entry, by simp, minted⟩

/-- A new invitation has another value than every earlier one. -/
theorem fresh_value {first state : Clocked Node} {log : Log Node} {entry older : LogEntry Node}
    (run : Run machine first log state) (fresh : FreshInvitations (entry :: log))
    {random : Bytes32} (drawn : invitationDraw entry = some random) {value : Str}
    {deadline : Instant} {createdBy : Node} (member : older ∈ log)
    (minted : invitationMinted older = some (value, deadline, createdBy)) :
    value ≠ toHex random.bytes := by
  obtain ⟨other, otherDrawn, rfl⟩ := invitation_draw (step_cases (run.taken member)) minted
  intro same
  have bytes := toHex_injective same
  have equal : other = random := by
    cases other
    cases random
    simpa using bytes
  subst equal
  rw [FreshInvitations, List.filterMap_cons_some drawn, List.nodup_cons] at fresh
  exact fresh.1 (List.mem_filterMap.mpr ⟨older, member, otherDrawn⟩)

omit [DecidableEq Node] [EndpointId Node] in
theorem FreshInvitations.tail {entry : LogEntry Node} {log : Log Node}
    (fresh : FreshInvitations (entry :: log)) : FreshInvitations log := by
  have shorter : (log.filterMap invitationDraw).Sublist ((entry :: log).filterMap invitationDraw) :=
    (List.sublist_cons_self entry log).filterMap invitationDraw
  exact fresh.sublist shorter

omit [DecidableEq Node] [EndpointId Node] in
theorem outstanding_cons {entry : LogEntry Node} {log : Log Node} {value : Str}
    {deadline : Instant} {createdBy : Node} (unminted : invitationMinted entry = none)
    (kept : redeemed entry ≠ some value) :
    Outstanding (entry :: log) value deadline createdBy ↔
      Outstanding log value deadline createdBy := by
  simp [Outstanding, since_cons, invitationValue, unminted, kept]

omit [DecidableEq Node] [EndpointId Node] in
theorem lookup_dropExpired {inner : Inner Node} {now : Instant} {value : Str}
    {invitation : Invitation Node} :
    (inner.dropExpired now).invitations.lookup value = some invitation ↔
      inner.invitations.lookup value = some invitation ∧ now < invitation.expiresAt := by
  rw [Inner.dropExpired, HashMap.lookup_retain, decide_eq_true_eq]

/-- Every invitation in the map was minted and not redeemed since. -/
theorem stored_outstanding {first state : Clocked Node} {log : Log Node}
    (run : Run machine first log state) (base : first.auth.inner.invitations = ∅)
    {value : Str} {deadline : Instant} {createdBy : Node}
    (stored : state.auth.inner.invitations.lookup value = some ⟨deadline, createdBy⟩) :
    Outstanding log value deadline createdBy := by
  induction run with
  | start => simp [base] at stored
  | step earlier taken ih =>
      have quiet {entry : LogEntry Node} (unminted : invitationMinted entry = none)
          (kept : redeemed entry ≠ some value) (stored : _) :=
        (outstanding_cons unminted kept).mpr (ih stored)
      cases step_cases taken with
      | mintTokenWith => exact quiet rfl nofun stored
      | mintInvitation ttl by' maxPending unixNow random =>
          rw [Outstanding, since_cons]
          rcases HashMap.lookup_insert_iff.mp stored with ⟨rfl, same⟩ | ⟨other, old⟩
          · cases same
            exact Or.inl rfl
          · have another : some (toHex random.bytes) ≠ some value :=
              fun same => other (Option.some.inj same).symm
            exact Or.inr ⟨⟨another, nofun⟩, ih (lookup_dropExpired.mp old).1⟩
      | tooManyInvitations => exact quiet rfl nofun (lookup_dropExpired.mp stored).1
      | authenticate node presented outcome saves auth attempt =>
          cases attempt with
          | alreadyAuthorized => exact quiet rfl nofun stored
          | bound => exact quiet rfl nofun (lookup_dropExpired.mp stored).1
          | boundViaInvitation =>
              obtain ⟨other, old⟩ := HashMap.lookup_erase_iff.mp stored
              exact quiet rfl (fun same => other (Option.some.inj same).symm)
                (lookup_dropExpired.mp old).1
          | noActiveToken => exact quiet rfl nofun (lookup_dropExpired.mp stored).1
          | revoked => exact quiet rfl nofun (lookup_dropExpired.mp stored).1
          | tokenMismatch => exact quiet rfl nofun (lookup_dropExpired.mp stored).1
      | revoke => exact quiet rfl nofun stored
      | revokeUnknown => exact quiet rfl nofun stored
      | setDeviceName => exact quiet rfl nofun stored
      | setMaxAttempts => exact quiet rfl nofun stored
      | advance => exact quiet rfl nofun stored

/-- An invitation that was not redeemed stays in the map until its deadline, or until another one
with its value is minted. -/
theorem outstanding_stored {first state : Clocked Node} {log : Log Node}
    (run : Run machine first log state) {value : Str} {deadline : Instant} {createdBy : Node}
    (outstanding : Outstanding log value deadline createdBy) (early : state.now < deadline) :
    state.auth.inner.invitations.lookup value = some ⟨deadline, createdBy⟩ := by
  induction run with
  | start => exact absurd outstanding (since_nil _ _)
  | step earlier taken ih =>
      have quiet {entry : LogEntry Node} (unminted : invitationMinted entry = none)
          (early : _ < deadline)
          (outstanding : Outstanding (entry :: _) value deadline createdBy) :=
        ih ((since_cons.mp outstanding).resolve_left (by simp [unminted])).2 early
      have retained {entry : LogEntry Node} (unminted : invitationMinted entry = none)
          (early : _ < deadline)
          (outstanding : Outstanding (entry :: _) value deadline createdBy) :=
        lookup_dropExpired.mpr ⟨quiet unminted early outstanding, early⟩
      cases step_cases taken with
      | mintTokenWith => exact quiet rfl early outstanding
      | mintInvitation ttl by' maxPending unixNow random =>
          refine HashMap.lookup_insert_iff.mpr ?_
          rcases since_cons.mp outstanding with newest | ⟨⟨another, -⟩, older⟩
          · cases newest
            exact Or.inl ⟨rfl, rfl⟩
          · have other : value ≠ toHex random.bytes := fun same => another (by rw [same]; rfl)
            exact Or.inr ⟨other, lookup_dropExpired.mpr ⟨ih older early, early⟩⟩
      | tooManyInvitations => exact retained rfl early outstanding
      | authenticate node presented outcome saves auth attempt =>
          cases attempt with
          | alreadyAuthorized => exact quiet rfl early outstanding
          | bound => exact retained rfl early outstanding
          | boundViaInvitation =>
              have kept := ((since_cons.mp outstanding).resolve_left nofun).1.2
              have other : value ≠ presented := fun same => kept (by rw [same]; rfl)
              exact HashMap.lookup_erase_iff.mpr ⟨other, retained rfl early outstanding⟩
          | noActiveToken => exact retained rfl early outstanding
          | revoked => exact retained rfl early outstanding
          | tokenMismatch => exact retained rfl early outstanding
      | revoke => exact quiet rfl early outstanding
      | revokeUnknown => exact quiet rfl early outstanding
      | setDeviceName => exact quiet rfl early outstanding
      | setMaxAttempts => exact quiet rfl early outstanding
      | advance elapsed =>
          exact quiet rfl (lt_of_le_of_lt (Nat.le_add_right _ _) early) outstanding

/-! The authorized set. -/

/-- The secrets that `authenticate` accepts now. -/
def Accepts (state : Clocked Node) (presented : Str) : Prop :=
  state.auth.inner.activeToken state.now = some presented ∨
    ∃ invitation,
      (state.auth.inner.dropExpired state.now).invitations.lookup presented = some invitation

theorem authorized_after {before after : Clocked Node} {event : Operation Node} {output : Reply}
    (stepped : Stepped before event output after) (node : Node) :
    node ∈ after.auth.inner.authenticated ↔ event ≠ .revoke node ∧
      (node ∈ before.auth.inner.authenticated ∨
        ∃ presented, event = .authenticate node presented ∧ Accepts before presented) := by
  have silent (elsewhere : ∀ other presented, event ≠ .authenticate other presented)
      (quiet : ∀ other, event ≠ .revoke other) :
      node ∈ before.auth.inner.authenticated ↔ event ≠ .revoke node ∧
        (node ∈ before.auth.inner.authenticated ∨
          ∃ presented, event = .authenticate node presented ∧ Accepts before presented) := by
    simp [elsewhere, quiet]
  cases stepped with
  | mintTokenWith => exact silent nofun nofun
  | mintInvitation => exact silent nofun nofun
  | tooManyInvitations => exact silent nofun nofun
  | setDeviceName => exact silent nofun nofun
  | setMaxAttempts => exact silent nofun nofun
  | advance => exact silent nofun nofun
  | revoke other known => simp [eq_comm]
  | revokeUnknown other unknown =>
      constructor
      · intro member
        exact ⟨fun same => unknown (Operation.revoke.inj same ▸ member), Or.inl member⟩
      · rintro ⟨-, member | ⟨presented, impossible, -⟩⟩
        · exact member
        · cases impossible
  | authenticate other presented outcome saves auth attempt =>
      have reduced : (Operation.authenticate other presented ≠ .revoke node ∧
          (node ∈ before.auth.inner.authenticated ∨ ∃ value,
            Operation.authenticate other presented = .authenticate node value ∧
              Accepts before value)) ↔
          node ∈ before.auth.inner.authenticated ∨ node = other ∧ Accepts before presented := by
        simp [eq_comm]
      have refused (absent : (before.auth.inner.dropExpired before.now).invitations.lookup
          presented = none)
          (inactive : before.auth.inner.activeToken before.now ≠ some presented) :
          ¬ Accepts before presented := by
        simp [Accepts, absent, inactive]
      rw [reduced]
      cases attempt with
      | alreadyAuthorized known =>
          exact ⟨Or.inl, fun origin => origin.elim id (fun bound => bound.1 ▸ known)⟩
      | bound unknown active =>
          have accepts : Accepts before presented := Or.inl active
          simp [accepts, or_comm]
      | boundViaInvitation unknown inactive invitation found =>
          have accepts : Accepts before presented := Or.inr ⟨invitation, found⟩
          simp [accepts, or_comm]
      | noActiveToken unknown inactive absent =>
          have rejects := refused absent (by simp [inactive])
          simp [rejects, Inner.dropExpired]
      | revoked unknown token active different absent =>
          have rejects := refused absent (by simp [active, different])
          simp [rejects, Inner.dropExpired]
      | tokenMismatch unknown token active different absent =>
          have rejects := refused absent (by simp [active, different])
          simp [rejects, Inner.dropExpired]

/-- In the file that was loaded, and not revoked since. -/
def Loaded (store : Option Str) (log : Log Node) (node : Node) : Prop :=
  node ∈ loadAuthorized store ∧ ∀ entry ∈ log, entry.event ≠ .revoke node

/-- A call that presented a live secret, and no revocation since. -/
def Granted (log : Log Node) (node : Node) : Prop :=
  Since (fun entry => entry.event ≠ .revoke node)
    (fun entry earlier => ∃ presented, entry.event = .authenticate node presented ∧
      (LiveToken earlier entry.before.now presented ∨
        LiveInvitation earlier entry.before.now presented)) log

theorem accepts_live {first state : Clocked Node} {log : Log Node} {presented : Str}
    (run : Run machine first log state) (noToken : first.auth.inner.pending = none)
    (noInvitation : first.auth.inner.invitations = ∅) (accepts : Accepts state presented) :
    LiveToken log state.now presented ∨ LiveInvitation log state.now presented := by
  rcases accepts with active | ⟨⟨deadline, createdBy⟩, found⟩
  · exact Or.inl ((token_tracked run noToken _ (le_refl _) _).mp active)
  · obtain ⟨stored, early⟩ := lookup_dropExpired.mp found
    exact Or.inr ⟨deadline, createdBy, stored_outstanding run noInvitation stored, early⟩

theorem live_accepted {first state : Clocked Node} {log : Log Node} {presented : Str}
    (run : Run machine first log state) (noToken : first.auth.inner.pending = none)
    (live : LiveToken log state.now presented ∨ LiveInvitation log state.now presented) :
    Accepts state presented := by
  rcases live with token | ⟨deadline, createdBy, outstanding, early⟩
  · exact Or.inl ((token_tracked run noToken _ (le_refl _) _).mpr token)
  · have stored := outstanding_stored run outstanding early
    exact Or.inr ⟨_, lookup_dropExpired.mpr ⟨stored, early⟩⟩

/-- Access needs a live secret. -/
theorem loaded_or_granted {toml : TomlStrings} {store names : Option Str} {maxAttempts : UInt32}
    {now : Instant} {log : Log Node} {state : Clocked Node} {node : Node}
    (run : Run machine ⟨loadAt toml store names maxAttempts, now⟩ log state)
    (authorized : node ∈ state.auth.inner.authenticated) :
    Loaded store log node ∨ Granted log node := by
  induction run with
  | start => exact Or.inl ⟨authorized, by simp⟩
  | step earlier taken ih =>
      obtain ⟨kept, origin⟩ := (authorized_after (step_cases taken) node).mp authorized
      rcases origin with old | ⟨presented, same, accepts⟩
      · rcases ih old with ⟨stored, unrevoked⟩ | granted
        · exact Or.inl ⟨stored, List.forall_mem_cons.mpr ⟨kept, unrevoked⟩⟩
        · exact Or.inr (since_cons.mpr (Or.inr ⟨kept, granted⟩))
      · exact Or.inr (since_cons.mpr (Or.inl ⟨presented, same,
          accepts_live earlier rfl rfl accepts⟩))

theorem authorized_of_loaded_or_granted {toml : TomlStrings} {store names : Option Str}
    {maxAttempts : UInt32} {now : Instant} {log : Log Node} {state : Clocked Node} {node : Node}
    (run : Run machine ⟨loadAt toml store names maxAttempts, now⟩ log state)
    (origin : Loaded store log node ∨ Granted log node) :
    node ∈ state.auth.inner.authenticated := by
  induction run with
  | start =>
      rcases origin with loaded | granted
      · exact loaded.1
      · exact absurd granted (since_nil _ _)
  | step earlier taken ih =>
      rw [authorized_after (step_cases taken) node]
      rcases origin with ⟨stored, unrevoked⟩ | granted
      · obtain ⟨kept, before⟩ := List.forall_mem_cons.mp unrevoked
        exact ⟨kept, Or.inl (ih (Or.inl ⟨stored, before⟩))⟩
      · rcases since_cons.mp granted with ⟨presented, same, live⟩ | ⟨kept, before⟩
        · have accepts := live_accepted earlier rfl live
          exact ⟨fun revoked => (nomatch same.symm.trans revoked),
            Or.inr ⟨presented, same, accepts⟩⟩
        · exact ⟨kept, Or.inl (ih (Or.inr before))⟩

/-- A node is authorized exactly when the loaded file or a live secret let it in and no
revocation followed, and no operation but `authenticate` adds a node. -/
theorem authorized_iff_live_secret {toml : TomlStrings} {store names : Option Str}
    {maxAttempts : UInt32} {now : Instant} {log : Log Node} {state : Clocked Node}
    (run : Run machine ⟨loadAt toml store names maxAttempts, now⟩ log state) :
    (∀ node, node ∈ state.auth.inner.authenticated ↔
        Loaded store log node ∨ Granted log node) ∧
      (∀ entry ∈ log, ∀ node, node ∉ entry.before.auth.inner.authenticated →
        node ∈ entry.after.auth.inner.authenticated →
          ∃ presented, entry.event = .authenticate node presented) := by
  constructor
  · intro node
    exact ⟨loaded_or_granted run, authorized_of_loaded_or_granted run⟩
  · intro entry member node absent present
    have origin := ((authorized_after (step_cases (run.taken member)) node).mp present).2
    obtain ⟨presented, same, -⟩ := origin.resolve_left absent
    exact ⟨presented, same⟩

/-- A token for the phone, an invitation from the phone for the tablet, the phone revoked. -/
def pairing : List (Operation Bytes32) :=
  [.mintTokenWith (fromSecs 300) (some "0f".toList) 1700000000 (Bytes32.filled 3),
    .authenticate (Bytes32.filled 1) "0f".toList,
    .mintInvitation (fromSecs 600) (Bytes32.filled 1) 5 1700000000 (Bytes32.filled 7),
    .advance (fromSecs 400),
    .authenticate (Bytes32.filled 6) (toHex (Bytes32.filled 7).bytes),
    .revoke (Bytes32.filled 1)]

theorem pairing_live_secrets : ∃ log state,
    machine.exec [] ⟨loadAt .emptyOnly none none 5, 0⟩ pairing =
      some (log, state) ∧
    (Bytes32.filled 6 ∈ state.auth.inner.authenticated ↔
      Loaded none log (Bytes32.filled 6) ∨ Granted log (Bytes32.filled 6)) ∧
    Bytes32.filled 6 ∈ state.auth.inner.authenticated ∧
    Bytes32.filled 1 ∉ state.auth.inner.authenticated := by
  obtain ⟨log, state, executed, run, tablet, phone⟩ := exec_checked machine _ pairing
    (fun _ state => Bytes32.filled 6 ∈ state.auth.inner.authenticated ∧
      Bytes32.filled 1 ∉ state.auth.inner.authenticated)
    (by decide : (machine.exec [] ⟨loadAt .emptyOnly none none 5, 0⟩ pairing).any _)
  exact ⟨log, state, executed, (authorized_iff_live_secret run).1 _, tablet, phone⟩

end RaemoteServer.Auth
