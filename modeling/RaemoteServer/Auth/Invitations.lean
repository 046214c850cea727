import RaemoteServer.Auth.Access

/-! One invitation lets in one device, and what a revocation leaves of the invitations its
device had minted. -/

namespace RaemoteServer.Auth

open Text Collections Runs

variable {Node : Type} [DecidableEq Node] [EndpointId Node]

/-! Redemptions and mints. -/

theorem redeemed_outstanding {first before after : Clocked Node} {log : Log Node}
    {event : Operation Node} {output : Reply} {value : Str} (run : Run machine first log before)
    (base : first.auth.inner.invitations = ∅) (stepped : Stepped before event output after)
    (redemption : redeemed ⟨before, event, output, after⟩ = some value) :
    ∃ deadline createdBy, Outstanding log value deadline createdBy ∧ before.now < deadline ∧
      before.auth.inner.invitations.lookup value = some ⟨deadline, createdBy⟩ := by
  cases stepped with
  | authenticate node presented outcome saves auth attempt =>
      cases attempt with
      | boundViaInvitation unknown other invitation found =>
          cases redemption
          obtain ⟨stored, early⟩ := lookup_dropExpired.mp found
          exact ⟨_, _, stored_outstanding run base stored, early, stored⟩
      | alreadyAuthorized => cases redemption
      | bound => cases redemption
      | noActiveToken => cases redemption
      | revoked => cases redemption
      | tokenMismatch => cases redemption
  | mintTokenWith => cases redemption
  | mintInvitation => cases redemption
  | tooManyInvitations => cases redemption
  | revoke => cases redemption
  | revokeUnknown => cases redemption
  | setDeviceName => cases redemption
  | setMaxAttempts => cases redemption
  | advance => cases redemption

omit [DecidableEq Node] [EndpointId Node] in
theorem invitationValue_some {entry : LogEntry Node} {value : Str} :
    invitationValue entry = some value ↔
      ∃ deadline createdBy, invitationMinted entry = some (value, deadline, createdBy) := by
  simp [invitationValue]

theorem invitationValue_draw {before after : Clocked Node} {event : Operation Node} {output : Reply}
    (stepped : Stepped before event output after) {value : Str}
    (minted : invitationValue ⟨before, event, output, after⟩ = some value) :
    ∃ random, invitationDraw ⟨before, event, output, after⟩ = some random ∧
      value = toHex random.bytes := by
  obtain ⟨deadline, createdBy, minted⟩ := invitationValue_some.mp minted
  exact invitation_draw stepped minted

theorem values_nodup {first state : Clocked Node} {log : Log Node}
    (run : Run machine first log state) (fresh : FreshInvitations log) :
    (log.filterMap invitationValue).Nodup := by
  induction run with
  | start => exact List.nodup_nil
  | @step history before after event output earlier taken ih =>
      cases minted : invitationValue ⟨before, event, output, after⟩ with
      | none => simpa only [List.filterMap_cons_none minted] using ih fresh.tail
      | some value =>
          rw [List.filterMap_cons_some minted, List.nodup_cons]
          refine ⟨?_, ih fresh.tail⟩
          intro old
          obtain ⟨older, member, same⟩ := List.mem_filterMap.mp old
          obtain ⟨deadline, createdBy, oldMint⟩ := invitationValue_some.mp same
          obtain ⟨random, drawn, rfl⟩ := invitationValue_draw (step_cases taken) minted
          exact fresh_value earlier fresh drawn member oldMint rfl

theorem redeemed_minted {first state : Clocked Node} {log : Log Node}
    (run : Run machine first log state) (base : first.auth.inner.invitations = ∅)
    {entry : LogEntry Node} (member : entry ∈ log) {value : Str}
    (redemption : redeemed entry = some value) :
    ∃ mint ∈ log, invitationValue mint = some value := by
  obtain ⟨later, earlier, rfl⟩ := List.append_of_mem member
  obtain ⟨before, taken⟩ := run.split
  obtain ⟨deadline, createdBy, outstanding, -⟩ :=
    redeemed_outstanding before base (step_cases taken) redemption
  obtain ⟨mint, inside, minted⟩ := outstanding.minted
  exact ⟨mint, List.mem_append_right _ (List.mem_cons_of_mem _ inside),
    invitationValue_some.mpr ⟨deadline, createdBy, minted⟩⟩

omit [DecidableEq Node] [EndpointId Node] in
theorem minted_not_redeemed {entry : LogEntry Node} {minted : Str × Instant × Node}
    (mint : invitationMinted entry = some minted) : redeemed entry = none := by
  obtain ⟨before, event, output, after⟩ := entry
  cases event with
  | mintInvitation => rfl
  | _ => cases mint

theorem redemptions_nodup {first state : Clocked Node} {log : Log Node}
    (run : Run machine first log state) (base : first.auth.inner.invitations = ∅)
    (fresh : FreshInvitations log) : (log.filterMap redeemed).Nodup := by
  induction run with
  | start => exact List.nodup_nil
  | @step history before after event output earlier taken ih =>
      cases redemption : redeemed ⟨before, event, output, after⟩ with
      | none => simpa only [List.filterMap_cons_none redemption] using ih fresh.tail
      | some value =>
          rw [List.filterMap_cons_some redemption, List.nodup_cons]
          refine ⟨?_, ih fresh.tail⟩
          intro old
          obtain ⟨older, member, same⟩ := List.mem_filterMap.mp old
          obtain ⟨deadline, createdBy, outstanding, -⟩ :=
            redeemed_outstanding earlier base (step_cases taken) redemption
          -- an older redemption came before the mint that this one answers, so it answered
          -- an earlier mint of the same value
          obtain ⟨later, mint, rest, rfl, minted, unredeemed⟩ := outstanding
          have inside : older ∈ rest := by
            rcases List.mem_append.mp member with newer | here
            · exact absurd same (unredeemed older newer).2
            · rcases List.mem_cons.mp here with rfl | inside
              · rw [minted_not_redeemed minted] at same
                cases same
              · exact inside
          obtain ⟨oldMint, oldMember, oldValue⟩ := redeemed_minted earlier.split.1 base inside same
          have values := values_nodup earlier fresh.tail
          have value := invitationValue_some.mpr ⟨deadline, createdBy, minted⟩
          rw [List.filterMap_append, List.filterMap_cons_some value] at values
          have distinct := List.nodup_cons.mp (List.nodup_append.mp values).2.1
          exact distinct.1 (List.mem_filterMap.mpr ⟨oldMint, oldMember, oldValue⟩)

/-! What a step leaves of the invitations. -/

theorem unexpired_kept {first before after : Clocked Node} {log : Log Node}
    {event : Operation Node} {output : Reply} (run : Run machine first log before)
    (base : first.auth.inner.invitations = ∅) (stepped : Stepped before event output after)
    (fresh : FreshInvitations (⟨before, event, output, after⟩ :: log)) {value : Str}
    {invitation : Invitation Node}
    (stored : before.auth.inner.invitations.lookup value = some invitation)
    (early : before.now < invitation.expiresAt)
    (unredeemed : redeemed ⟨before, event, output, after⟩ ≠ some value) :
    after.auth.inner.invitations.lookup value = some invitation := by
  have retained := lookup_dropExpired.mpr ⟨stored, early⟩
  cases stepped with
  | mintTokenWith => exact stored
  | mintInvitation ttl createdBy maxPending unixNow random =>
      obtain ⟨mint, member, minted⟩ := (stored_outstanding run base stored).minted
      have other := fresh_value run fresh rfl member minted
      exact HashMap.lookup_insert_iff.mpr (Or.inr ⟨other, retained⟩)
  | tooManyInvitations => exact retained
  | revoke => exact stored
  | revokeUnknown => exact stored
  | setDeviceName => exact stored
  | setMaxAttempts => exact stored
  | advance => exact stored
  | authenticate node presented outcome saves auth attempt =>
      cases attempt with
      | alreadyAuthorized => exact stored
      | bound => exact retained
      | noActiveToken => exact retained
      | revoked => exact retained
      | tokenMismatch => exact retained
      | boundViaInvitation =>
          have other : value ≠ presented := fun same => unredeemed (by rw [same]; rfl)
          exact HashMap.lookup_erase_iff.mpr ⟨other, retained⟩

/-! How many invitations are open. -/

/-- The invitations in the map that can still be redeemed. -/
def openInvitations (state : Clocked Node) : HashMap Str (Invitation Node) :=
  (state.auth.inner.dropExpired state.now).invitations

omit [DecidableEq Node] [EndpointId Node] in
theorem open_shrinks {before after : Clocked Node} (order : before.now ≤ after.now)
    (fewer : after.auth.inner.invitations.entries.Sublist before.auth.inner.invitations.entries) :
    (openInvitations after).len ≤ (openInvitations before).len := by
  have kept := fewer.filter (fun item => decide (after.now < item.2.expiresAt))
  refine le_trans kept.length_le (List.Sublist.length_le ?_)
  apply List.monotone_filter_right
  intro item early
  exact decide_eq_true (lt_of_le_of_lt order (of_decide_eq_true early))

omit [DecidableEq Node] [EndpointId Node] in
theorem open_insert {inner : Inner Node} {now : Instant} {value : Str}
    {invitation : Invitation Node} :
    HashMap.len ({ inner.dropExpired now with
      invitations := (inner.dropExpired now).invitations.insert value invitation }.dropExpired
        now).invitations ≤ (inner.dropExpired now).invitations.len + 1 := by
  refine le_trans List.filter_sublist.length_le ?_
  exact HashMap.len_insert_le _ _ _

theorem open_step {before after : Clocked Node} {event : Operation Node} {output : Reply}
    (stepped : Stepped before event output after) {limit : Nat}
    (constant : ∀ ttl createdBy maxPending unixNow random,
      event = .mintInvitation ttl createdBy maxPending unixNow random → maxPending = limit)
    (bounded : (openInvitations before).len ≤ max limit 1) :
    (openInvitations after).len ≤ max limit 1 := by
  have shrinks {after : Clocked Node} (order : before.now ≤ after.now)
      (fewer : after.auth.inner.invitations.entries.Sublist before.auth.inner.invitations.entries) :
      (openInvitations after).len ≤ max limit 1 :=
    le_trans (open_shrinks order fewer) bounded
  have purged : ((before.auth.inner.dropExpired before.now).invitations.entries).Sublist
      before.auth.inner.invitations.entries := List.filter_sublist
  cases stepped with
  | mintTokenWith => exact shrinks (le_refl _) (List.Sublist.refl _)
  | mintInvitation ttl createdBy maxPending unixNow random room =>
      rw [constant ttl createdBy maxPending unixNow random rfl] at room
      exact le_trans open_insert room
  | tooManyInvitations => exact shrinks (le_refl _) purged
  | revoke => exact shrinks (le_refl _) (List.Sublist.refl _)
  | revokeUnknown => exact shrinks (le_refl _) (List.Sublist.refl _)
  | setDeviceName => exact shrinks (le_refl _) (List.Sublist.refl _)
  | setMaxAttempts => exact shrinks (le_refl _) (List.Sublist.refl _)
  | advance => exact shrinks (Nat.le_add_right _ _) (List.Sublist.refl _)
  | authenticate node presented outcome saves auth attempt =>
      cases attempt with
      | alreadyAuthorized => exact shrinks (le_refl _) (List.Sublist.refl _)
      | bound => exact shrinks (le_refl _) purged
      | noActiveToken => exact shrinks (le_refl _) purged
      | revoked => exact shrinks (le_refl _) purged
      | tokenMismatch => exact shrinks (le_refl _) purged
      | boundViaInvitation =>
          exact shrinks (le_refl _) ((List.kerase_sublist _ _).trans purged)

/-- A constant bound on the invitations, over a run. -/
def MaxPending (limit : Nat) (log : Log Node) : Prop :=
  ∀ entry ∈ log, ∀ ttl createdBy maxPending unixNow random,
    entry.event = .mintInvitation ttl createdBy maxPending unixNow random → maxPending = limit

theorem open_bounded {first state : Clocked Node} {log : Log Node} {limit : Nat}
    (run : Run machine first log state) (base : first.auth.inner.invitations = ∅)
    (constant : MaxPending limit log) : (openInvitations state).len ≤ max limit 1 := by
  refine run.invariant_of_allowed (fun state => (openInvitations state).len ≤ max limit 1) _
    constant ?_ ?_
  · simp [openInvitations, Inner.dropExpired, base, HashMap.retain, HashMap.len]
  · intro before event output after taken constant bounded
    exact open_step (step_cases taken) constant bounded

theorem live_bounded {first state : Clocked Node} {log : Log Node} {limit : Nat}
    (run : Run machine first log state) (base : first.auth.inner.invitations = ∅)
    (constant : MaxPending limit log) {values : List Str}
    (distinct : values.Nodup) (live : ∀ value ∈ values, LiveInvitation log state.now value) :
    values.length ≤ max limit 1 := by
  have stored : values ⊆ (openInvitations state).keys := by
    intro value member
    obtain ⟨deadline, createdBy, outstanding, early⟩ := live value member
    have found := lookup_dropExpired.mpr ⟨outstanding_stored run outstanding early, early⟩
    exact AList.mem_keys.mp (AList.lookup_isSome.mp (Option.isSome_of_eq_some found))
  have fewer := (List.subperm_of_subset distinct stored).length_le
  have size : (openInvitations state).keys.length = (openInvitations state).len :=
    List.length_map ..
  exact le_trans fewer (size ▸ open_bounded run base constant)

/-! Every redemption answers one mint. Positions count from the newest call. -/

def Answers (log : Log Node) (i j : Nat) : Prop :=
  ∃ redemption mint value, log[i]? = some redemption ∧ log[j]? = some mint ∧
    redeemed redemption = some value ∧ invitationValue mint = some value

theorem split_at {α : Type} {history : List α} {i : Nat} {entry : α}
    (found : history[i]? = some entry) :
    ∃ later earlier, history = later ++ entry :: earlier ∧ later.length = i := by
  obtain ⟨inside, same⟩ := List.getElem?_eq_some_iff.mp found
  refine ⟨history.take i, history.drop (i + 1), ?_, by simp; omega⟩
  rw [← same, ← List.drop_eq_getElem_cons inside, List.take_append_drop]

theorem redemption_answers {first state : Clocked Node} {log : Log Node}
    (run : Run machine first log state) (base : first.auth.inner.invitations = ∅) {i : Nat}
    {redemption : LogEntry Node} {value : Str} (found : log[i]? = some redemption)
    (redeems : redeemed redemption = some value) :
    ∃ j mint deadline createdBy, i < j ∧ log[j]? = some mint ∧
      invitationMinted mint = some (value, deadline, createdBy) ∧
      redemption.before.now < deadline := by
  obtain ⟨later, earlier, rfl, rfl⟩ := split_at found
  obtain ⟨before, taken⟩ := run.split
  obtain ⟨deadline, createdBy, outstanding, early, -⟩ :=
    redeemed_outstanding before base (step_cases taken) redeems
  obtain ⟨mint, member, minted⟩ := outstanding.minted
  obtain ⟨k, inside⟩ := List.mem_iff_getElem?.mp member
  refine ⟨later.length + (k + 1), mint, deadline, createdBy, by omega, ?_, minted, early⟩
  rw [List.getElem?_append_right (by omega), Nat.add_sub_cancel_left, List.getElem?_cons_succ]
  exact inside

/-- An invitation lets in one device, before its deadline, and is not lost before that; there
are never more open ones than the limit. -/
theorem one_time_invitations {toml : TomlStrings} {store names : Option Str} {maxAttempts : UInt32}
    {now : Instant} {log : Log Node} {state : Clocked Node}
    (run : Run machine ⟨loadAt toml store names maxAttempts, now⟩ log state)
    (fresh : FreshInvitations log) :
    (∀ i redemption value, log[i]? = some redemption → redeemed redemption = some value →
        ∃! j, Answers log i j) ∧
      (∀ i k j, Answers log i j → Answers log k j → i = k) ∧
      (∀ i j redemption mint value deadline createdBy, Answers log i j →
        log[i]? = some redemption → log[j]? = some mint →
        invitationMinted mint = some (value, deadline, createdBy) →
          i < j ∧ redemption.before.now < deadline) ∧
      (∀ entry ∈ log, ∀ value invitation,
        entry.before.auth.inner.invitations.lookup value = some invitation →
        entry.before.now < invitation.expiresAt → redeemed entry ≠ some value →
          entry.after.auth.inner.invitations.lookup value = some invitation) ∧
      (∀ limit, MaxPending limit log → ∀ values : List Str, values.Nodup →
        (∀ value ∈ values, LiveInvitation log state.now value) →
          values.length ≤ max limit 1) := by
  have values := values_nodup run fresh
  have redemptions := redemptions_nodup run rfl fresh
  refine ⟨?_, ?_, ?_, ?_, ?_⟩
  · intro i redemption value found redeems
    obtain ⟨j, mint, deadline, createdBy, -, inside, minted, -⟩ :=
      redemption_answers run rfl found redeems
    have carries := invitationValue_some.mpr ⟨deadline, createdBy, minted⟩
    refine ⟨j, ⟨redemption, mint, value, found, inside, redeems, carries⟩, ?_⟩
    rintro k ⟨other, older, otherValue, otherFound, olderFound, otherRedeems, otherCarries⟩
    obtain rfl := Option.some.inj (found.symm.trans otherFound)
    obtain rfl := Option.some.inj (redeems.symm.trans otherRedeems)
    exact position_unique values olderFound inside otherCarries carries
  · rintro i k j ⟨redemption, mint, value, found, inside, redeems, carries⟩
      ⟨other, older, otherValue, otherFound, olderFound, otherRedeems, otherCarries⟩
    obtain rfl := Option.some.inj (inside.symm.trans olderFound)
    obtain rfl := Option.some.inj (carries.symm.trans otherCarries)
    exact position_unique redemptions found otherFound redeems otherRedeems
  · rintro i j redemption mint value deadline createdBy ⟨other, older, otherValue, otherFound,
      olderFound, otherRedeems, otherCarries⟩ found inside minted
    obtain rfl := Option.some.inj (found.symm.trans otherFound)
    obtain rfl := Option.some.inj (inside.symm.trans olderFound)
    obtain ⟨k, source, limit, creator, order, sourceFound, sourceMinted, early⟩ :=
      redemption_answers run rfl found otherRedeems
    have sourceCarries := invitationValue_some.mpr ⟨limit, creator, sourceMinted⟩
    obtain rfl := position_unique values inside sourceFound otherCarries sourceCarries
    obtain rfl := Option.some.inj (inside.symm.trans sourceFound)
    obtain ⟨-, rfl, -⟩ := (Prod.mk.injEq .. ▸ Option.some.inj (minted.symm.trans sourceMinted))
    exact ⟨order, early⟩
  · intro entry member value invitation stored early unredeemed
    obtain ⟨later, earlier, rfl⟩ := List.append_of_mem member
    obtain ⟨before, taken⟩ := run.split
    have shorter : FreshInvitations (entry :: earlier) :=
      fresh.sublist ((List.sublist_append_right later _).filterMap invitationDraw)
    exact unexpired_kept before rfl (step_cases taken) shorter stored early unredeemed
  · intro limit constant values distinct live
    exact live_bounded run rfl constant distinct live

/-- Two invitations, the first redeemed once and presented again, the second left open. -/
def inviting : List (Operation Bytes32) :=
  [.mintTokenWith (fromSecs 300) (some "2468".toList) 1700000000 (Bytes32.filled 3),
    .authenticate (Bytes32.filled 1) "2468".toList,
    .mintInvitation (fromSecs 600) (Bytes32.filled 1) 2 1700000000 (Bytes32.filled 7),
    .mintInvitation (fromSecs 600) (Bytes32.filled 1) 2 1700000000 (Bytes32.filled 8),
    .mintInvitation (fromSecs 600) (Bytes32.filled 1) 2 1700000000 (Bytes32.filled 4),
    .advance (fromSecs 500),
    .authenticate (Bytes32.filled 6) (toHex (Bytes32.filled 7).bytes),
    .authenticate (Bytes32.filled 9) (toHex (Bytes32.filled 7).bytes)]

theorem inviting_one_time : ∃ log state,
    machine.exec [] ⟨loadAt .emptyOnly none none 5, 0⟩ inviting =
      some (log, state) ∧
    log.filterMap redeemed = [toHex (Bytes32.filled 7).bytes] ∧
    (∀ i k j, Answers log i j → Answers log k j → i = k) ∧
    Bytes32.filled 9 ∉ state.auth.inner.authenticated ∧ (openInvitations state).len = 1 := by
  obtain ⟨log, state, executed, run, fresh, once, refused, left⟩ := exec_checked machine _ inviting
    (fun log state => FreshInvitations log ∧
      log.filterMap redeemed = [toHex (Bytes32.filled 7).bytes] ∧
      Bytes32.filled 9 ∉ state.auth.inner.authenticated ∧ (openInvitations state).len = 1)
    (by decide :
      (machine.exec [] ⟨loadAt .emptyOnly none none 5, 0⟩ inviting).any _)
  exact ⟨log, state, executed, once, (one_time_invitations run fresh).2.1, refused, left⟩

end RaemoteServer.Auth
