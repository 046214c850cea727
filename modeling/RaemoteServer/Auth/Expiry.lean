import RaemoteServer.Auth.State

/-! The sums that minting computes. `Instant + Duration` panics out of range; a lifetime is clamped
before it is added, so no lifetime that is asked for can bring that about. -/

namespace RaemoteServer.Auth

open Text Collections

/-- `Instant + Duration`: the seconds of the sum are an `i64`. -/
def addDuration (now : Instant) (duration : Duration) : Option Instant :=
  if asSecs (now + duration) < 2 ^ 63 then some (now + duration) else none

/-- A reading of the two clocks. The kernel counts the monotonic one in nanoseconds, in an `i64`;
the seconds of the other one are an `i64`. -/
structure Reading where
  now : Instant
  unixNow : Nat
  now_lt : now < 2 ^ 63
  unixNow_lt : unixNow < 2 ^ 63

def Reading.boot : Reading := ⟨0, 0, by decide, by decide⟩

theorem seconds_lt {now duration : Nat} (clock : now < 2 ^ 63)
    (bound : duration ≤ 2 * UInt64.size * 1000000) : (now + duration) / 1000000000 < 2 ^ 63 := by
  simp only [UInt64.size] at bound
  omega

/-- Twice the longest duration that a `u64` of milliseconds gives may be added to a reading. -/
theorem addDuration_reading (reading : Reading) {duration : Duration}
    (bound : duration ≤ 2 * UInt64.size * 1000000) :
    addDuration reading.now duration = some (reading.now + duration) :=
  if_pos (seconds_lt reading.now_lt bound)

theorem maxTtl_bound (ttl : Duration) : min ttl maxTtl ≤ 2 * UInt64.size * 1000000 :=
  calc min ttl maxTtl
    _ ≤ maxTtl := Nat.min_le_right ttl maxTtl
    _ ≤ 2 * UInt64.size * 1000000 := by decide

/-- The time of expiry is the sum itself, and it fits. -/
structure ExactExpiry (reading : Reading) (ttl : Duration) (info : TokenInfo) : Prop where
  sum : info.expiresAtUnix = reading.unixNow + asSecs (min ttl maxTtl)
  fits : info.expiresAtUnix < UInt64.size

theorem tokenInfo_exact (reading : Reading) (tokenHex : Str) (ttl : Duration) :
    ExactExpiry reading ttl (tokenInfo tokenHex (min ttl maxTtl) reading.unixNow) := by
  have seconds : asSecs (min ttl maxTtl) ≤ asSecs maxTtl :=
    Nat.div_le_div_right (Nat.min_le_right ttl maxTtl)
  have century : asSecs maxTtl = 3153600000 := by decide
  have clock := reading.unixNow_lt
  have below : reading.unixNow + asSecs (min ttl maxTtl) ≤ UInt64.size - 1 := by
    simp only [UInt64.size]
    omega
  have sum : saturatingAdd reading.unixNow (asSecs (min ttl maxTtl)) =
      reading.unixNow + asSecs (min ttl maxTtl) := Nat.min_eq_left below
  refine ⟨sum, ?_⟩
  calc saturatingAdd reading.unixNow (asSecs (min ttl maxTtl))
    _ ≤ UInt64.size - 1 := Nat.min_le_right _ _
    _ < UInt64.size := by decide

variable {Node : Type} [DecidableEq Node] [EndpointId Node]

/-- `mint_token_with`, where the sum may panic. -/
def AuthState.mintTokenChecked (auth : AuthState Node) (reading : Reading) (random : Bytes32)
    (ttl : Duration) (fixed : Option Str) : Option (TokenInfo × AuthState Node) := do
  let ttl := min ttl maxTtl
  let tokenHex := fixed.getD (toHex random.bytes)
  let info := tokenInfo tokenHex ttl reading.unixNow
  let expiresAt ← addDuration reading.now ttl
  return (info, { auth with inner := { auth.inner with
    pending := some { tokenHex, expiresAt, expiresAtUnix := info.expiresAtUnix }
    failedAttempts := 0 } })

/-- `mint_invitation`, where the sum may panic. -/
def AuthState.mintInvitationChecked (auth : AuthState Node) (reading : Reading) (random : Bytes32)
    (ttl : Duration) (createdBy : Node) (maxPending : Nat) :
    Option (Except Str TokenInfo × AuthState Node) :=
  let ttl := min ttl maxTtl
  let inner := auth.inner.dropExpired reading.now
  if inner.invitations.len ≥ max maxPending 1 then
    some (.error "too many outstanding invitations".toList, { auth with inner })
  else do
    let tokenHex := toHex random.bytes
    let info := tokenInfo tokenHex ttl reading.unixNow
    let expiresAt ← addDuration reading.now ttl
    return (.ok info, { auth with inner := { inner with
      invitations := inner.invitations.insert tokenHex { expiresAt, createdBy } } })

omit [DecidableEq Node] [EndpointId Node] in
theorem mintTokenChecked_eq (auth : AuthState Node) (reading : Reading) (random : Bytes32)
    (ttl : Duration) (fixed : Option Str) :
    auth.mintTokenChecked reading random ttl fixed =
      some (auth.mintTokenWith reading.now reading.unixNow random ttl fixed) := by
  simp only [AuthState.mintTokenChecked, addDuration_reading reading (maxTtl_bound ttl)]
  rfl

omit [DecidableEq Node] [EndpointId Node] in
theorem mintInvitationChecked_eq (auth : AuthState Node) (reading : Reading) (random : Bytes32)
    (ttl : Duration) (createdBy : Node) (maxPending : Nat) :
    auth.mintInvitationChecked reading random ttl createdBy maxPending =
      some (auth.mintInvitation reading.now reading.unixNow random ttl createdBy maxPending) := by
  simp only [AuthState.mintInvitationChecked, AuthState.mintInvitation,
    addDuration_reading reading (maxTtl_bound ttl)]
  split <;> rfl

omit [DecidableEq Node] [EndpointId Node] in
theorem mintTokenWith_exact (auth : AuthState Node) (reading : Reading) (random : Bytes32)
    (ttl : Duration) (fixed : Option Str) :
    ExactExpiry reading ttl
      (auth.mintTokenWith reading.now reading.unixNow random ttl fixed).1 :=
  tokenInfo_exact reading _ ttl

omit [DecidableEq Node] [EndpointId Node] in
theorem mintInvitation_exact {auth after : AuthState Node} {reading : Reading} {random : Bytes32}
    {ttl : Duration} {createdBy : Node} {maxPending : Nat} {info : TokenInfo}
    (minted : auth.mintInvitation reading.now reading.unixNow random ttl createdBy maxPending =
      (.ok info, after)) : ExactExpiry reading ttl info := by
  unfold AuthState.mintInvitation at minted
  dsimp only at minted
  split at minted
  · cases minted
  · obtain rfl := Except.ok.inj (congrArg Prod.fst minted)
    exact tokenInfo_exact reading _ ttl

end RaemoteServer.Auth
