import RaemoteServer.Auth.Access
import RaemoteServer.Config
import RaemoteServer.Library.Utf8

/-! The pairing protocol: a token on one line, `OK` or a reason in return. -/

namespace RaemoteServer.Bind

open Text Collections Runs Auth

variable {Node : Type} [DecidableEq Node] [EndpointId Node]

def maxBindRequest : Nat := 512

inductive BindReply where
  | replied (text : Str)
  /-- The connection is closed with a code and a reason. -/
  | closed (code : Nat) (reason : Str)
  /-- The stream failed and nothing was written to it. -/
  | failed
  deriving DecidableEq

def replyText (outcome : BindOutcome) : Str :=
  if outcome.isAllowed then "OK\n".toList else "DENY ".toList ++ outcome.denyReason ++ ['\n']

/-- What is done with all the bytes of the stream; `read_to_end` fails if there are more than
it may read. -/
def exchange (auth : AuthState Node) (now : Instant) (node : Node) (data : List UInt8) :
    BindReply × List Save × AuthState Node :=
  if data.length > maxBindRequest then (.failed, [], auth)
  else
    let presented := trim (lossy data)
    let (outcome, saves, auth) := auth.authenticate now node presented
    (.replied (replyText outcome), saves, auth)

/-- `permits` is how many connections the handler can still take, `request` the bytes of the
stream unless they did not come in time. -/
def BindHandler.accept (permits : Nat) (auth : AuthState Node) (now : Instant) (node : Node)
    (request : Option (List UInt8)) : BindReply × List Save × AuthState Node :=
  if permits = 0 then (.closed 503 "too many bind connections".toList, [], auth)
  else
    match request with
    | none => (.closed 408 "bind timeout".toList, [], auth)
    | some data => exchange auth now node data

/-- The line a client sends. -/
def requestLine (token : Str) : List UInt8 := utf8 (token ++ ['\n'])

theorem requestLine_length (token : Str) :
    (requestLine token).length = (utf8 token).length + 1 := by
  have newline : (utf8 ['\n']).length = 1 := by decide
  have parts : requestLine token = utf8 token ++ utf8 ['\n'] := List.flatMap_append
  rw [parts, List.length_append, newline]

theorem presented_requestLine (token : Str) : trim (lossy (requestLine token)) = trim token := by
  rw [requestLine, lossy_utf8]
  apply trim_append_white
  intro c member
  rw [List.mem_singleton.mp member]
  rfl

theorem replyText_ok (outcome : BindOutcome) :
    replyText outcome = "OK\n".toList ↔ outcome.isAllowed = true := by
  cases outcome <;> decide

/-- An unauthorized node is let in by the active token or by an invitation, and by nothing else. -/
theorem allowed_iff (auth : AuthState Node) (now : Instant) (node : Node) (presented : Str)
    (unknown : node ∉ auth.inner.authenticated) :
    (auth.authenticate now node presented).1.isAllowed = true ↔
      auth.inner.activeToken now = some presented ∨
        ((auth.inner.dropExpired now).invitations.lookup presented).isSome := by
  have attempt := authenticate_cases auth now node presented
  generalize auth.authenticate now node presented = result at attempt
  obtain ⟨outcome, saves, after⟩ := result
  cases attempt with
  | alreadyAuthorized known => exact absurd known unknown
  | bound _ active => exact iff_of_true rfl (Or.inl active)
  | boundViaInvitation _ _ invitation found =>
      exact iff_of_true rfl (Or.inr (Option.isSome_iff_exists.mpr ⟨invitation, found⟩))
  | noActiveToken _ inactive absent => simp [BindOutcome.isAllowed, inactive, absent]
  | revoked _ token active other absent => simp [BindOutcome.isAllowed, active, other, absent]
  | tokenMismatch _ token active other absent => simp [BindOutcome.isAllowed, active, other, absent]

/-! The fixed token of the config. -/

def failedAttempt (entry : LogEntry Node) : Bool :=
  match entry.output with
  | .outcome outcome => !outcome.isAllowed
  | _ => false

/-- The last token was minted with this fixed value, it has not expired, and no attempt failed
since. -/
def MintedFixed (log : Log Node) (now : Instant) (fixed : Option Str) : Prop :=
  Since (fun entry => tokenMinted entry = none ∧ failedAttempt entry = false)
    (fun entry _ => ∃ ttl unixNow random,
      entry.event = .mintTokenWith ttl fixed unixNow random ∧
        now < entry.before.now + min ttl maxTtl) log

omit [DecidableEq Node] [EndpointId Node] in
theorem lockedOut_failed (entry : LogEntry Node) (passed : failedAttempt entry = false) :
    lockedOut entry = false := by
  unfold failedAttempt at passed
  unfold lockedOut
  split <;> simp_all [BindOutcome.isAllowed]

theorem minted_fixed {before after : Clocked Node} {output : Reply} {ttl : Duration} {token : Str}
    {unixNow : Nat} {random : Bytes32}
    (stepped : Stepped before (.mintTokenWith ttl (some token) unixNow random) output after) :
    tokenMinted ⟨before, .mintTokenWith ttl (some token) unixNow random, output, after⟩ =
      some (token, before.now + min ttl maxTtl) := by
  cases stepped with
  | mintTokenWith ttl fixed unixNow random info shape =>
      rw [tokenMinted, shape]
      rfl

theorem MintedFixed.live {first state : Clocked Node} {log : Log Node} {token : Str}
    (run : Run machine first log state) (minted : MintedFixed log state.now (some token)) :
    LiveToken log state.now token := by
  obtain ⟨later, ⟨before, event, output, after⟩, earlier, rfl, mint, rest⟩ := minted
  obtain ⟨ttl, unixNow, random, rfl, early⟩ := mint
  refine ⟨later, _, earlier, rfl, ⟨_, minted_fixed (step_cases run.split.2), early⟩, ?_⟩
  intro next member
  exact ⟨(rest next member).1, lockedOut_failed next (rest next member).2⟩

/-- The line of the fixed token of a config is answered `OK` exactly when it fits in a request and
the token has no white space around it (or what is inside that white space is an invitation). -/
theorem fixed_token_usable_iff {first state : Clocked Node} {log : Log Node} {config : Config}
    {token : Str} (run : Run machine first log state) (base : first.auth.inner.pending = none)
    (fixed : config.bind.token = some token)
    (minted : MintedFixed log state.now config.bind.token)
    {node : Node} (unknown : state.auth.isAuthorized node = false) {permits : Nat}
    (free : 0 < permits) :
    (BindHandler.accept permits state.auth state.now node (some (requestLine token))).1 =
        .replied "OK\n".toList ↔
      (utf8 token).length + 1 ≤ maxBindRequest ∧ (trim token = token ∨
        ((state.auth.inner.dropExpired state.now).invitations.lookup (trim token)).isSome) := by
  rw [fixed] at minted
  have active := (token_tracked run base state.now (le_refl _) token).mpr (minted.live run)
  have outside : node ∉ state.auth.inner.authenticated := of_decide_eq_false unknown
  rw [BindHandler.accept, if_neg free.ne']
  simp only [exchange, requestLine_length, presented_requestLine, gt_iff_lt]
  split
  · rename_i long
    apply iff_of_false
    · exact nofun
    · exact fun fits => absurd fits.1 (Nat.not_le.mpr long)
  · rename_i short
    have same : token = trim token ↔ trim token = token := eq_comm
    simp only [BindReply.replied.injEq, replyText_ok, allowed_iff _ _ _ _ outside, active,
      Option.some.injEq, Nat.not_lt.mp short, true_and, same]

def withToken (token : String) : Config :=
  { Config.default with bind := { BindConfig.default with token := some token.toList } }

/-- A daemon that has just started on an empty trust store. -/
def started : Clocked Bytes32 := ⟨loadAt TomlStrings.emptyOnly none none 10, 0⟩

def minting (config : Config) : List (Operation Bytes32) :=
  [.mintTokenWith (fromSecs 300) config.bind.token 1700000000 (Bytes32.filled 3)]

theorem started_early : started.now < started.now + min (fromSecs 300) maxTtl := by decide

theorem plain_token_accepted : ∃ log state,
    machine.exec [] started (minting (withToken "0123456789abcdef")) = some (log, state) ∧
    (BindHandler.accept 50 state.auth state.now (Bytes32.filled 1)
      (some (requestLine "0123456789abcdef".toList))).1 = .replied "OK\n".toList := by
  have executed : machine.exec [] started (minting (withToken "0123456789abcdef")) =
      some (_, _) := rfl
  refine ⟨_, _, executed, (@fixed_token_usable_iff _ _ _ _ _ _ (withToken "0123456789abcdef") _
    (exec_run .start executed) rfl rfl ?_ _ rfl _ (Nat.succ_pos 49)).mpr
      ⟨by decide, Or.inl (by decide)⟩⟩
  exact ⟨[], _, [], rfl, ⟨_, _, _, rfl, started_early⟩, List.forall_mem_nil _⟩

/-- The config is accepted, since the length that counts is without the spaces; the token that is
minted keeps them and the one that is presented does not. -/
theorem padded_token_denied : validate (withToken " 0123456789abcdef ") = .ok () ∧
    ∃ log state,
      machine.exec [] started (minting (withToken " 0123456789abcdef ")) = some (log, state) ∧
      MintedFixed log state.now (withToken " 0123456789abcdef ").bind.token ∧
      state.auth.isAuthorized (Bytes32.filled 1) = false ∧
      (BindHandler.accept 50 state.auth state.now (Bytes32.filled 1)
        (some (requestLine " 0123456789abcdef ".toList))).1 =
          .replied "DENY invalid token\n".toList := by
  refine ⟨by decide, _, _, rfl, ?_, rfl, by decide⟩
  exact ⟨[], _, [], rfl, ⟨_, _, _, rfl, started_early⟩, List.forall_mem_nil _⟩

end RaemoteServer.Bind
