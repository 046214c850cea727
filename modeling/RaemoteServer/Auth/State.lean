import RaemoteServer.Auth.Store

/-! Pairing tokens, invitations and the set of authorized devices. Every operation holds the
lock from its first read to its last write, so it is one function of the state; what it saves
after the lock is dropped is returned beside the new state. -/

namespace RaemoteServer.Auth

open Text Collections

inductive BindOutcome where
  | bound
  | boundViaInvitation
  | alreadyAuthorized
  | noActiveToken
  | tokenMismatch
  | revoked
  deriving DecidableEq, Repr

def BindOutcome.isAllowed : BindOutcome → Bool
  | .bound | .boundViaInvitation | .alreadyAuthorized => true
  | .noActiveToken | .tokenMismatch | .revoked => false

def BindOutcome.denyReason : BindOutcome → Str
  | .noActiveToken => "no active token".toList
  | .tokenMismatch => "invalid token".toList
  | .revoked => "token revoked".toList
  | .bound | .boundViaInvitation | .alreadyAuthorized => []

/-- Nanoseconds since an origin of the monotonic clock. -/
abbrev Instant := Nat

/-- Nanoseconds. -/
abbrev Duration := Nat

def fromSecs (secs : Nat) : Duration := secs * 1000000000
def asSecs (duration : Duration) : Nat := duration / 1000000000

structure TokenInfo where
  tokenHex : Str
  expiresAtUnix : Nat
  ttl : Duration
  deriving DecidableEq

def maxDeviceName : Nat := 64

def sanitizeLoop (out : Str) (prevSpace : Bool) : Str → Str
  | [] => out
  | ch :: rest =>
      if isWhitespace ch then
        let out := if !prevSpace && !out.isEmpty then out ++ [' '] else out
        if out.length ≥ maxDeviceName then out else sanitizeLoop out true rest
      else if isControl ch then
        -- `continue`: a dropped character does not come to the length test
        sanitizeLoop out prevSpace rest
      else
        let out := out ++ [ch]
        if out.length ≥ maxDeviceName then out else sanitizeLoop out false rest

def sanitizeDeviceName (name : Str) : Option Str :=
  let out := trim (sanitizeLoop [] false name)
  if out = [] then none else some out

structure PendingToken where
  tokenHex : Str
  expiresAt : Instant
  expiresAtUnix : Nat
  deriving DecidableEq

structure Invitation (Node : Type) where
  expiresAt : Instant
  createdBy : Node
  deriving DecidableEq

structure Inner (Node : Type) where
  pending : Option PendingToken
  authenticated : HashSet Node
  names : HashMap Node Str
  invitations : HashMap Str (Invitation Node)
  failedAttempts : UInt32

structure AuthState (Node : Type) where
  inner : Inner Node
  maxAttempts : UInt32

variable {Node : Type} [DecidableEq Node] [EndpointId Node]

def loadAt (toml : TomlStrings) (store names : Option Str) (maxAttempts : UInt32) :
    AuthState Node :=
  let authenticated := loadAuthorized store
  let names := (loadNames toml names).retain (fun id _ => decide (id ∈ authenticated))
  { inner :=
      { pending := none, authenticated, names, invitations := ∅, failedAttempts := 0 }
    maxAttempts }

def AuthState.setMaxAttempts (auth : AuthState Node) (val : UInt32) : AuthState Node :=
  { auth with maxAttempts := val }

def AuthState.isAuthorized (auth : AuthState Node) (node : Node) : Bool :=
  decide (node ∈ auth.inner.authenticated)

def authorizedEntries (authenticated : HashSet Node) : List Str := authenticated.elems.map toText

def nameEntries (names : HashMap Node Str) : List (Str × Str) :=
  names.entries.map (fun item => (toText item.1, item.2))

def AuthState.revoke (auth : AuthState Node) (node : Node) : Bool × List Save × AuthState Node :=
  if node ∈ auth.inner.authenticated then
    let inner := { auth.inner with
      authenticated := auth.inner.authenticated.remove node
      names := auth.inner.names.erase node }
    (true, [.authorized (authorizedEntries inner.authenticated), .names (nameEntries inner.names)],
      { auth with inner })
  else (false, [], auth)

/-- The change in memory; the caller still sees the error of a failed save. -/
def AuthState.setDeviceName (auth : AuthState Node) (node : Node) (name : Str) :
    Except Str (List Save × AuthState Node) :=
  if node ∈ auth.inner.authenticated then
    let names := match sanitizeDeviceName name with
      | some name => auth.inner.names.insert node name
      | none => auth.inner.names.erase node
    .ok ([.names (nameEntries names)], { auth with inner := { auth.inner with names } })
  else .error ("device ".toList ++ fmtShort node ++ " is not authorized".toList)

/-- About a hundred years. -/
def maxTtl : Duration := fromSecs (100 * 365 * 24 * 3600)

def saturatingAdd (left right : Nat) : Nat := min (left + right) (UInt64.size - 1)

def tokenInfo (tokenHex : Str) (ttl : Duration) (unixNow : Nat) : TokenInfo :=
  { tokenHex, expiresAtUnix := saturatingAdd unixNow (asSecs ttl), ttl }

def AuthState.mintTokenWith (auth : AuthState Node) (now : Instant) (unixNow : Nat)
    (random : Bytes32) (ttl : Duration) (fixed : Option Str) : TokenInfo × AuthState Node :=
  let ttl := min ttl maxTtl
  let tokenHex := fixed.getD (toHex random.bytes)
  let info := tokenInfo tokenHex ttl unixNow
  (info, { auth with inner := { auth.inner with
    pending := some { tokenHex, expiresAt := now + ttl, expiresAtUnix := info.expiresAtUnix }
    failedAttempts := 0 } })

def Inner.dropExpired (inner : Inner Node) (now : Instant) : Inner Node :=
  { inner with
    invitations := inner.invitations.retain (fun _ invitation => now < invitation.expiresAt) }

def AuthState.mintInvitation (auth : AuthState Node) (now : Instant) (unixNow : Nat)
    (random : Bytes32) (ttl : Duration) (createdBy : Node) (maxPending : Nat) :
    Except Str TokenInfo × AuthState Node :=
  let ttl := min ttl maxTtl
  let inner := auth.inner.dropExpired now
  if inner.invitations.len ≥ max maxPending 1 then
    (.error "too many outstanding invitations".toList, { auth with inner })
  else
    let tokenHex := toHex random.bytes
    (.ok (tokenInfo tokenHex ttl unixNow), { auth with inner := { inner with
      invitations := inner.invitations.insert tokenHex { expiresAt := now + ttl, createdBy } } })

/-- The differences of two byte strings of one length, or-ed together. -/
def accumulate (diff : UInt8) : List UInt8 → List UInt8 → UInt8
  | x :: xs, y :: ys => accumulate (diff ||| (x ^^^ y)) xs ys
  | _, _ => diff

def constantTimeEq (a b : List UInt8) : Bool :=
  if a.length ≠ b.length then false else accumulate 0 a b == 0

def Inner.activeToken (inner : Inner Node) (now : Instant) : Option Str :=
  (inner.pending.filter (fun pending => now < pending.expiresAt)).map (·.tokenHex)

/-- Every entry is compared; the last match is kept. -/
def matchInvitation (presented : Str) (items : List (Sigma fun _ : Str => Invitation Node)) :
    Option (Str × Node) :=
  items.foldl (fun found item =>
    if constantTimeEq (utf8 presented) (utf8 item.1) then some (item.1, item.2.createdBy)
    else found) none

def Inner.authorize (inner : Inner Node) (node : Node) : List Str × Inner Node :=
  let authenticated := inner.authenticated.insert node
  (authorizedEntries authenticated, { inner with authenticated, failedAttempts := 0 })

def AuthState.authenticate (auth : AuthState Node) (now : Instant) (node : Node) (presented : Str) :
    BindOutcome × List Save × AuthState Node :=
  if node ∈ auth.inner.authenticated then (.alreadyAuthorized, [], auth)
  else
    let inner := auth.inner.dropExpired now
    let active := inner.activeToken now
    -- 1. the pairing token
    if active.any (fun tokenHex => constantTimeEq (utf8 presented) (utf8 tokenHex)) then
      let (entries, inner) := inner.authorize node
      (.bound, [.authorized entries], { auth with inner })
    else
      -- 2. one-time invitations
      match matchInvitation presented inner.invitations.entries with
      | some (tokenHex, _) =>
          let (entries, inner) :=
            { inner with invitations := inner.invitations.erase tokenHex }.authorize node
          (.boundViaInvitation, [.authorized entries], { auth with inner })
      | none =>
          -- 3. no match
          if active.isNone then (.noActiveToken, [],
            { auth with inner := { inner with pending := none } })
          else
            let failedAttempts := inner.failedAttempts + 1
            if failedAttempts ≥ auth.maxAttempts then
              (.revoked, [], { auth with inner := { inner with failedAttempts, pending := none } })
            else (.tokenMismatch, [], { auth with inner := { inner with failedAttempts } })

/-! What the comparison and the search for an invitation find. -/

/-- The accumulated byte is zero when no position differs. -/
theorem accumulate_zero (a b : List UInt8) (diff : UInt8) :
    accumulate diff a b = 0 ↔ diff = 0 ∧ ∀ {x y}, (x, y) ∈ a.zip b → x = y := by
  induction a generalizing b diff with
  | nil => simp [accumulate]
  | cons x xs ih =>
      cases b with
      | nil => simp [accumulate]
      | cons y ys =>
          rw [accumulate, ih ys, UInt8.or_eq_zero_iff, UInt8.xor_eq_zero_iff, and_assoc]
          apply and_congr_right
          intro clean
          constructor
          · intro both first second member
            rcases List.mem_cons.mp member with front | later
            · cases front
              exact both.1
            · exact both.2 later
          · intro all
            exact ⟨all List.mem_cons_self, fun member => all (List.mem_cons_of_mem _ member)⟩

theorem constantTimeEq_iff (a b : List UInt8) : constantTimeEq a b = true ↔ a = b := by
  have positions : a = b ↔ a.length = b.length ∧ ∀ {x y}, (x, y) ∈ a.zip b → x = y := by
    rw [← List.forall₂_iff_zip, List.forall₂_eq_eq_eq]
  rw [positions, constantTimeEq]
  by_cases same : a.length = b.length
  · simp only [ne_eq, same, not_true_eq_false, if_false, beq_iff_eq, accumulate_zero, true_and]
  · simp only [ne_eq, same, not_false_eq_true, if_true, Bool.false_eq_true, false_and]

theorem constantTimeEq_utf8 (a b : Str) : constantTimeEq (utf8 a) (utf8 b) = true ↔ a = b := by
  rw [constantTimeEq_iff, utf8_injective.eq_iff]

omit [DecidableEq Node] [EndpointId Node] in
theorem matchInvitation_absent (presented : Str)
    (items : List (Sigma fun _ : Str => Invitation Node))
    (found : Option (Str × Node)) (absent : ∀ item ∈ items, item.1 ≠ presented) :
    items.foldl (fun found item =>
      if constantTimeEq (utf8 presented) (utf8 item.1) then some (item.1, item.2.createdBy)
      else found) found = found := by
  induction items generalizing found with
  | nil => rfl
  | cons head tail ih =>
      have different : ¬ constantTimeEq (utf8 presented) (utf8 head.1) = true := by
        rw [constantTimeEq_utf8]
        exact fun same => absent head List.mem_cons_self same.symm
      rw [List.foldl_cons, if_neg different]
      exact ih found (fun item member => absent item (List.mem_cons_of_mem _ member))

omit [DecidableEq Node] [EndpointId Node] in
/-- The scan finds the entry under the presented value; keys are distinct, so there is one. -/
theorem matchInvitation_eq (presented : Str) (invitations : HashMap Str (Invitation Node)) :
    matchInvitation presented invitations.entries =
      (invitations.lookup presented).map (fun invitation => (presented, invitation.createdBy)) := by
  cases found : invitations.lookup presented with
  | none =>
      have absent := AList.lookup_eq_none.mp found
      apply matchInvitation_absent
      intro item member same
      exact absent (AList.mem_keys.mpr (List.mem_keys.mpr ⟨item.2, by rw [← same]; exact member⟩))
  | some invitation =>
      have member := AList.mem_lookup_iff.mp (Option.mem_def.mpr found)
      obtain ⟨front, back, shape⟩ := List.append_of_mem member
      have distinct := List.nodupKeys_iff_pairwise.mp (shape ▸ invitations.nodupKeys)
      have later : ∀ item ∈ back, item.1 ≠ presented := by
        intro item inside
        exact ((List.pairwise_cons.mp (List.pairwise_append.mp distinct).2.1).1 item inside).symm
      rw [matchInvitation, shape, List.foldl_append, List.foldl_cons,
        if_pos ((constantTimeEq_utf8 _ _).mpr rfl)]
      exact matchInvitation_absent presented back _ later

/-! What `authenticate` can do, said once. -/

inductive AuthenticateCase (auth : AuthState Node) (now : Instant) (node : Node) (presented : Str) :
    BindOutcome → List Save → AuthState Node → Prop
  | alreadyAuthorized (known : node ∈ auth.inner.authenticated) :
      AuthenticateCase auth now node presented .alreadyAuthorized [] auth
  | bound (unknown : node ∉ auth.inner.authenticated)
      (active : auth.inner.activeToken now = some presented) :
      AuthenticateCase auth now node presented .bound
        [.authorized (authorizedEntries (auth.inner.authenticated.insert node))]
        { auth with inner := { auth.inner.dropExpired now with
          authenticated := auth.inner.authenticated.insert node, failedAttempts := 0 } }
  | boundViaInvitation (unknown : node ∉ auth.inner.authenticated)
      (other : auth.inner.activeToken now ≠ some presented) (invitation : Invitation Node)
      (found : (auth.inner.dropExpired now).invitations.lookup presented = some invitation) :
      AuthenticateCase auth now node presented .boundViaInvitation
        [.authorized (authorizedEntries (auth.inner.authenticated.insert node))]
        { auth with inner := { auth.inner.dropExpired now with
          invitations := (auth.inner.dropExpired now).invitations.erase presented
          authenticated := auth.inner.authenticated.insert node, failedAttempts := 0 } }
  | noActiveToken (unknown : node ∉ auth.inner.authenticated)
      (inactive : auth.inner.activeToken now = none)
      (absent : (auth.inner.dropExpired now).invitations.lookup presented = none) :
      AuthenticateCase auth now node presented .noActiveToken []
        { auth with inner := { auth.inner.dropExpired now with pending := none } }
  | revoked (unknown : node ∉ auth.inner.authenticated) (token : Str)
      (active : auth.inner.activeToken now = some token) (other : token ≠ presented)
      (absent : (auth.inner.dropExpired now).invitations.lookup presented = none)
      (exhausted : auth.maxAttempts ≤ auth.inner.failedAttempts + 1) :
      AuthenticateCase auth now node presented .revoked []
        { auth with inner := { auth.inner.dropExpired now with
          failedAttempts := auth.inner.failedAttempts + 1, pending := none } }
  | tokenMismatch (unknown : node ∉ auth.inner.authenticated) (token : Str)
      (active : auth.inner.activeToken now = some token) (other : token ≠ presented)
      (absent : (auth.inner.dropExpired now).invitations.lookup presented = none)
      (spared : ¬ auth.maxAttempts ≤ auth.inner.failedAttempts + 1) :
      AuthenticateCase auth now node presented .tokenMismatch []
        { auth with inner := { auth.inner.dropExpired now with
          failedAttempts := auth.inner.failedAttempts + 1 } }

theorem authenticate_cases (auth : AuthState Node) (now : Instant) (node : Node) (presented : Str) :
    AuthenticateCase auth now node presented (auth.authenticate now node presented).1
      (auth.authenticate now node presented).2.1 (auth.authenticate now node presented).2.2 := by
  have kept : (auth.inner.dropExpired now).activeToken now = auth.inner.activeToken now := rfl
  by_cases known : node ∈ auth.inner.authenticated
  · simp only [AuthState.authenticate, if_pos known]
    exact .alreadyAuthorized known
  · simp only [AuthState.authenticate, if_neg known, kept, matchInvitation_eq]
    cases active : auth.inner.activeToken now with
    | none =>
        simp only [Option.any_none, Bool.false_eq_true, if_false, Option.isNone_none, if_true]
        cases found : (auth.inner.dropExpired now).invitations.lookup presented with
        | none => exact .noActiveToken known active found
        | some invitation =>
            exact .boundViaInvitation known (by simp [active]) invitation found
    | some token =>
        simp only [Option.any_some, constantTimeEq_utf8, Option.isNone_some, Bool.false_eq_true,
          if_false]
        by_cases same : presented = token
        · subst same
          simp only [if_true]
          exact .bound known active
        · simp only [if_neg same]
          have other : auth.inner.activeToken now ≠ some presented := by
            rw [active]
            exact fun equal => same (Option.some.inj equal).symm
          cases found : (auth.inner.dropExpired now).invitations.lookup presented with
          | some invitation => exact .boundViaInvitation known other invitation found
          | none =>
              by_cases exhausted : auth.maxAttempts ≤ auth.inner.failedAttempts + 1
              · have limit : (auth.inner.dropExpired now).failedAttempts + 1 ≥ auth.maxAttempts :=
                  exhausted
                simp only [Option.map_none, if_pos limit]
                exact .revoked known token active (Ne.symm same) found exhausted
              · have limit : ¬ (auth.inner.dropExpired now).failedAttempts + 1 ≥ auth.maxAttempts :=
                  exhausted
                simp only [Option.map_none, if_neg limit]
                exact .tokenMismatch known token active (Ne.symm same) found exhausted

end RaemoteServer.Auth
