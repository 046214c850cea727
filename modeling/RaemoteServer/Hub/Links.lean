import RaemoteServer.Hub.Trust

/-! The links that are handed out: what a client reads from one, and for how long it opens the
door. -/

namespace RaemoteServer.Hub

open Text Collections Runs Auth Http RaemoteServer.Bind

variable {Node : Type} [DecidableEq Node] [EndpointId Node]
variable {self : Node} {boot : Boot} {catalog : Catalog} {log : Log Node}
  {before after hub : State Node} {event : Event Node} {output : Output Node}

/-! Secrets that survive the way into a link and back over a bind connection. -/

structure Presentable (secret : Str) : Prop where
  unbroken : '&' ∉ secret
  trimmed : trim secret = secret
  short : (utf8 secret).length + 1 ≤ maxBindRequest

theorem toHex_length (bytes : List UInt8) : (toHex bytes).length = 2 * bytes.length := by
  induction bytes with
  | nil => rfl
  | cons byte rest ih =>
      rw [toHex, List.flatMap_cons, List.length_append, ← toHex, ih, List.length_cons]
      simp only [List.length_cons, List.length_nil]
      omega

theorem presentable_random (random : Bytes32) : Presentable (toHex random.bytes) := by
  have digits := toHex_digits random.bytes
  refine ⟨?_, trim_plain _ (toHex_plain random.bytes), ?_⟩
  · intro member
    exact absurd (digits '&' member) (by decide)
  · have ascii : ∀ c ∈ toHex random.bytes, c.toNat < 0x80 := by
      have all : ∀ digit < 16, (Nat.digitChar digit).toNat < 0x80 := by decide
      intro c member
      obtain ⟨digit, small, rfl⟩ := mem_toHex member
      exact all digit small
    rw [length_utf8_ascii ascii, toHex_length, random.length_eq]
    decide

def PlainToken (config : Config) : Prop := ∀ token ∈ config.bind.token, Presentable token

theorem presentable_getD {fixed : Option Str} (plain : ∀ token ∈ fixed, Presentable token)
    (random : Bytes32) : Presentable (fixed.getD (toHex random.bytes)) := by
  cases fixed with
  | none => exact presentable_random random
  | some token => exact plain token rfl

structure PlainSecrets (hub : State Node) : Prop where
  config : PlainToken hub.server.config
  tasks : ∀ task ∈ hub.tasks, ∀ ttl fixed, task = .minting ttl fixed →
    ∀ token ∈ fixed, Presentable token
  pending : ∀ pending ∈ hub.server.auth.auth.inner.pending, Presentable pending.tokenHex

/-- The pairing token is replaced when one is minted, and dropped when it is no good. -/
theorem pending_after {before after : Clocked Node} {event : Operation Node} {output : Reply}
    (stepped : Auth.Stepped before event output after) {pending : PendingToken}
    (present : after.auth.inner.pending = some pending) :
    before.auth.inner.pending = some pending ∨
      ∃ ttl fixed unixNow random, event = .mintTokenWith ttl fixed unixNow random ∧
        pending.tokenHex = fixed.getD (toHex random.bytes) := by
  cases stepped with
  | mintTokenWith ttl fixed unixNow random info shape =>
      cases present
      exact Or.inr ⟨ttl, fixed, unixNow, random, rfl, by rw [shape]; rfl⟩
  | authenticate node presented outcome saves auth attempt =>
      cases attempt with
      | noActiveToken => cases present
      | revoked => cases present
      | _ => exact Or.inl present
  | _ => exact Or.inl present

omit [DecidableEq Node] in
theorem operation_mints {ttl : Duration} {fixed : Option Str} {unixNow : Nat} {random : Bytes32}
    (own : operation hub event = some (.mintTokenWith ttl fixed unixNow random)) :
    ∃ t, event = .mint t unixNow random ∧ hub.tasks[t]? = some (.minting ttl fixed) := by
  cases operation_cases own with
  | mints t unixNow random ttl fixed present => exact ⟨t, rfl, present⟩

theorem PlainSecrets.step (plain : PlainSecrets before)
    (all : ∀ config ∈ installed event, PlainToken config)
    (stepped : Stepped before event output after) : PlainSecrets after := by
  have config : PlainToken after.server.config := config_kept plain.config all stepped
  cases stepped with
  | serve event effect server other taken =>
      have same := server_auth other taken
      refine ⟨config, ?_, ?_⟩
      · refine List.forall_mem_append.mpr ⟨plain.tasks, ?_⟩
        intro task member ttl fixed minting
        unfold started at member
        split at member
        · cases minting ▸ List.mem_singleton.mp member
        · cases minting ▸ List.mem_singleton.mp member
        · cases member
      · intro pending present
        exact plain.pending pending (same ▸ present)
  | looks event output idle => exact plain
  | refreshes ttlSecs saved =>
      exact ⟨config, List.forall_mem_append.mpr ⟨plain.tasks, by simp⟩, plain.pending⟩
  | reads t task new output present reads =>
      refine ⟨config, forall_mem_set plain.tasks ?_, plain.pending⟩
      cases reads with
      | refreshToken ttlSecs =>
          intro ttl fixed minting
          cases minting
          exact plain.config
      | createInvite => exact nofun
      | disabled => exact nofun
  | declines t stream node present =>
      exact ⟨config, forall_mem_set plain.tasks nofun, plain.pending⟩
  | operates event output performed own tasks shape =>
      refine ⟨config, ?_, ?_⟩
      · rcases shape with rfl | ⟨t, rfl⟩
        · exact plain.tasks
        · exact forall_mem_set plain.tasks nofun
      · intro pending present
        rcases pending_after (performs before.server.auth performed) present with
          old | ⟨ttl, fixed, unixNow, random, rfl, same⟩
        · exact plain.pending pending old
        · obtain ⟨t, rfl, here⟩ := operation_mints own
          rw [same]
          exact presentable_getD (plain.tasks _ (List.mem_of_getElem? here) ttl fixed rfl) random

theorem plain_run (all : AllConfigs boot log PlainToken)
    (run : Run (machine self) (boot.hub catalog) log hub) : PlainSecrets hub := by
  refine run.invariant_of_allowed PlainSecrets _ all.later ⟨all.first, nofun, ?_⟩ ?_
  · intro pending present
    rcases pending_after (performs boot.loaded boot.minting) present with
      old | ⟨ttl, fixed, unixNow, random, same, shape⟩
    · cases old
    · cases same
      rw [shape]
      exact presentable_getD all.first _
  · intro before event output after taken allowed plain
    exact plain.step allowed (step_cases taken)

/-! Where links come from. -/

/-- The link in an answer. -/
def Output.link : Output Node → Option TokenResponse
  | .ipc (.handled (.token response)) => some response
  | .invite (.ok response) => some response
  | _ => none

/-- What the link in an answer is made of. -/
inductive Handed (hub : State Node) : Event Node → TokenInfo → Prop
  | current (saved : Except Str Unit) (info : TokenInfo)
      (current : currentTokenInfo hub.server.auth.auth hub.server.auth.now hub.server.auth.now =
        some info) :
      Handed hub (.ask .getToken saved) info
  | refreshed (t unixNow : Nat) (random : Bytes32) (ttl : Duration) (fixed : Option Str)
      (present : hub.tasks[t]? = some (.minting ttl fixed)) :
      Handed hub (.mint t unixNow random)
        (tokenInfo (fixed.getD (toHex random.bytes)) (min ttl maxTtl) unixNow)
  | invited (t unixNow : Nat) (random : Bytes32) (stream : Nat) (node : Node)
      (ttlSecs maxPending : UInt64)
      (present : hub.tasks[t]? = some (.inviting stream node ttlSecs maxPending))
      (minted : (perform hub.server.auth (.mintInvitation (fromSecs ttlSecs.toNat) node
        maxPending.toNat unixNow random)).1 = .invitation
          (.ok (tokenInfo (toHex random.bytes) (min (fromSecs ttlSecs.toNat) maxTtl) unixNow))) :
      Handed hub (.mint t unixNow random)
        (tokenInfo (toHex random.bytes) (min (fromSecs ttlSecs.toNat) maxTtl) unixNow)

theorem handle_link {saved : Except Str Unit} {request : Ipc.Request}
    {answer : Ipc.Response Answer} {auth : AuthState Node} {response : TokenResponse}
    (handled : handle self before.server.auth.auth before.server.auth.now saved request =
      some (answer, auth)) (link : (Output.ipc answer : Output Node).link = some response) :
    ∃ info, Handed before (.ask request saved) info ∧ response = responseTo self info := by
  cases request with
  | getToken =>
      simp only [handle] at handled
      split at handled
      · rename_i info current
        cases handled
        cases link
        exact ⟨info, .current saved info current, rfl⟩
      · cases handled
        cases link
  | revokeAuthorized nodeId =>
      simp only [handle] at handled
      split at handled
      · obtain ⟨rfl, -⟩ := Prod.mk.inj (Option.some.inj handled)
        split at link <;> cases link
      · cases handled
        cases link
  | renameAuthorized nodeId name =>
      simp only [handle] at handled
      split at handled
      · split at handled <;> (cases handled; cases link)
      · cases handled
        cases link
  | hello token =>
      cases handled
      cases link
  | listAuthorized =>
      cases handled
      cases link
  | _ => cases handled

omit [DecidableEq Node] [EndpointId Node] in
theorem mintInvitation_info {auth after : AuthState Node} {now : Instant} {unixNow : Nat}
    {random : Bytes32} {ttl : Duration} {createdBy : Node} {maxPending : Nat} {info : TokenInfo}
    (minted : auth.mintInvitation now unixNow random ttl createdBy maxPending =
      (.ok info, after)) : info = tokenInfo (toHex random.bytes) (min ttl maxTtl) unixNow := by
  simp only [AuthState.mintInvitation] at minted
  split at minted
  · cases minted
  · cases minted
    rfl

theorem mint_link {t unixNow : Nat} {random : Bytes32} {task : Task Node} {auth : AuthState Node}
    {response : TokenResponse} (present : before.tasks[t]? = some task)
    (taken : task.mint self before.server.auth unixNow random = some (output, auth))
    (link : output.link = some response) :
    ∃ info, Handed before (.mint t unixNow random) info ∧ response = responseTo self info := by
  cases task with
  | minting ttl fixed =>
      cases taken
      cases link
      exact ⟨_, .refreshed t unixNow random ttl fixed present, rfl⟩
  | inviting stream node ttlSecs maxPending =>
      simp only [Task.mint] at taken
      split at taken
      · rename_i info minted same
        cases taken
        cases link
        obtain rfl := mintInvitation_info same
        refine ⟨_, .invited t unixNow random stream node ttlSecs maxPending present ?_, rfl⟩
        simp only [perform, same]
      · cases taken
        cases link
  | _ => cases taken

theorem handed_link {response : TokenResponse}
    (taken : (machine self).step before event = some (output, after))
    (link : output.link = some response) :
    ∃ info, Handed before event info ∧ response = responseTo self info := by
  change step self before event = some (output, after) at taken
  cases event with
  | ask request saved =>
      by_cases refreshes : ∃ ttlSecs, request = .refreshToken ttlSecs
      · obtain ⟨ttlSecs, rfl⟩ := refreshes
        cases taken
        cases link
      · obtain ⟨answer, auth, handled, rfl, -⟩ := step_ask (not_exists.mp refreshes) taken
        exact handle_link handled link
  | mint t unixNow random =>
      obtain ⟨task, present, inside⟩ := Option.bind_eq_some_iff.mp taken
      obtain ⟨⟨output, auth⟩, minted, shape⟩ := Option.bind_eq_some_iff.mp inside
      cases shape
      exact mint_link present minted link
  | readConfig t =>
      obtain ⟨task, present, inside⟩ := Option.bind_eq_some_iff.mp taken
      obtain ⟨⟨output, new⟩, reads, shape⟩ := Option.bind_eq_some_iff.mp inside
      cases shape
      cases task with
      | createInvite stream node =>
          simp only [Task.readConfig] at reads
          split at reads <;> (cases reads; cases link)
      | refreshToken ttlSecs =>
          cases reads
          cases link
      | _ => cases reads
  | serve request =>
      simp only [step] at taken
      split at taken
      · obtain ⟨⟨effect, server⟩, moved, shape⟩ := Option.bind_eq_some_iff.mp taken
        cases shape
        cases link
      · cases taken
  | limit =>
      simp only [step] at taken
      split at taken
      · cases taken
      · cases taken
        cases link
  | badRequest t =>
      simp only [step] at taken
      split at taken <;> cases taken
      cases link
  | rename t name =>
      simp only [step] at taken
      split at taken
      · split at taken <;> (cases taken; cases link)
      · cases taken
  | _ =>
      cases taken
      cases link

/-! What a link is good for. -/

theorem Handed.presentable {info : TokenInfo} (handed : Handed before event info)
    (plain : PlainSecrets before) : Presentable info.tokenHex := by
  cases handed with
  | current saved info current =>
      obtain ⟨pending, present, shape⟩ := Option.bind_eq_some_iff.mp current
      split at shape
      · obtain rfl := Option.some.inj shape
        exact plain.pending pending present
      · cases shape
  | refreshed t unixNow random ttl fixed present =>
      exact presentable_getD (plain.tasks _ (List.mem_of_getElem? present) ttl fixed rfl) random
  | invited t unixNow random => exact presentable_random random

theorem authLog_cons {performed : Operation Node} (own : operation before event = some performed) :
    authLog boot (⟨before, event, output, after⟩ :: log) =
      ⟨before.server.auth, performed, (perform before.server.auth performed).1,
        after.server.auth⟩ :: authLog boot log := by
  simp [authLog, projection, authStep, own]

theorem authLog_idle (idle : operation before event = none) :
    authLog boot (⟨before, event, output, after⟩ :: log) = authLog boot log := by
  simp [authLog, projection, authStep, idle]

/-- The secrets that open the door. -/
def Live (log : Auth.Log Node) (now : Instant) (secret : Str) : Prop :=
  LiveToken log now secret ∨ LiveInvitation log now secret

theorem current_live {info : TokenInfo} (run : Run (machine self) (boot.hub catalog) log hub)
    (current : currentTokenInfo hub.server.auth.auth hub.server.auth.now hub.server.auth.now =
      some info) : LiveToken (authLog boot log) hub.server.auth.now info.tokenHex := by
  obtain ⟨pending, present, shape⟩ := Option.bind_eq_some_iff.mp current
  split at shape
  · rename_i early
    obtain rfl := Option.some.inj shape
    apply (token_tracked (auth_run run) rfl _ (le_refl _) _).mp
    exact activeToken_some.mpr ⟨pending, present, early, rfl⟩
  · cases shape

omit [DecidableEq Node] [EndpointId Node] in
theorem liveToken_minted {entry : Auth.LogEntry Node} {log : Auth.Log Node} {now : Instant}
    {secret : Str} {deadline : Instant} (minted : tokenMinted entry = some (secret, deadline))
    (early : now < deadline) : LiveToken (entry :: log) now secret :=
  since_cons.mpr (Or.inl ⟨deadline, minted, early⟩)

omit [DecidableEq Node] [EndpointId Node] in
theorem outstanding_minted {entry : Auth.LogEntry Node} {log : Auth.Log Node} {secret : Str}
    {deadline : Instant} {createdBy : Node}
    (minted : invitationMinted entry = some (secret, deadline, createdBy)) :
    Outstanding (entry :: log) secret deadline createdBy :=
  since_cons.mpr (Or.inl minted)

/-- A link is good when it is handed out, unless it has no lifetime. -/
theorem Handed.live {info : TokenInfo} (handed : Handed before event info)
    (run : Run (machine self) (boot.hub catalog) log before) (lasting : 0 < info.ttl) :
    Live (authLog boot (⟨before, event, output, after⟩ :: log)) before.server.auth.now
      info.tokenHex := by
  cases handed with
  | current saved info current =>
      rw [authLog_idle rfl]
      exact Or.inl (current_live run current)
  | refreshed t unixNow random ttl fixed present =>
      have own : operation before (.mint t unixNow random) =
          some (.mintTokenWith ttl fixed unixNow random) := by
        simp only [operation, present]
      rw [authLog_cons own]
      have early : before.server.auth.now < before.server.auth.now + min ttl maxTtl :=
        Nat.lt_add_of_pos_right lasting
      exact Or.inl (liveToken_minted rfl early)
  | invited t unixNow random stream node ttlSecs maxPending present minted =>
      have own : operation before (.mint t unixNow random) =
          some (.mintInvitation (fromSecs ttlSecs.toNat) node maxPending.toNat unixNow random) := by
        simp only [operation, present]
      rw [authLog_cons own, minted]
      have early : before.server.auth.now <
          before.server.auth.now + min (fromSecs ttlSecs.toNat) maxTtl :=
        Nat.lt_add_of_pos_right lasting
      exact Or.inr ⟨_, node, outstanding_minted rfl, early⟩

theorem accept_ok_iff {state : Clocked Node} {device : Node} {secret : Str} {permits : Nat}
    (presentable : Presentable secret) (unknown : device ∉ state.auth.inner.authenticated)
    (free : 0 < permits) :
    (BindHandler.accept permits state.auth state.now device (some (requestLine secret))).1 =
      .replied "OK\n".toList ↔ Auth.Accepts state secret := by
  have short : ¬ (requestLine secret).length > maxBindRequest := by
    rw [requestLine_length]
    exact Nat.not_lt.mpr presentable.short
  rw [BindHandler.accept, if_neg free.ne']
  simp only [exchange, if_neg short, presented_requestLine, presentable.trimmed,
    BindReply.replied.injEq, replyText_ok, allowed_iff _ _ _ _ unknown, Option.isSome_iff_exists]
  rfl

/-- Every link that is handed out decodes to this server and a secret. The secret is live when the
link is handed out, and whoever is not authorized is let in with it exactly while it is live. -/
theorem links_pair (word : ∀ node : Node, '&' ∉ toText node) {later earlier : Log Node}
    {entry : LogEntry Node} {response : TokenResponse}
    (run : Run (machine self) (boot.hub catalog) (later ++ entry :: earlier) hub)
    (plain : AllConfigs boot (later ++ entry :: earlier) PlainToken)
    (link : entry.output.link = some response) :
    ∃ info, Handed entry.before entry.event info ∧ response = responseTo self info ∧
      parseBindUri response.uri = .ok (self, info.tokenHex) ∧
      (0 < info.ttl → Live (authLog boot (entry :: earlier)) entry.before.server.auth.now
        info.tokenHex) ∧
      ∀ device permits, device ∉ hub.server.auth.auth.inner.authenticated → 0 < permits →
        ((BindHandler.accept permits hub.server.auth.auth hub.server.auth.now device
            (some (requestLine info.tokenHex))).1 = .replied "OK\n".toList ↔
          Live (authLog boot (later ++ entry :: earlier)) hub.server.auth.now info.tokenHex) := by
  obtain ⟨before, taken⟩ := run.split
  obtain ⟨info, handed, rfl⟩ := handed_link taken link
  have plainBefore : AllConfigs boot earlier PlainToken := by
    rw [← List.singleton_append, ← List.append_assoc] at plain
    exact plain.earlier
  have presentable := handed.presentable (plain_run plainBefore before)
  refine ⟨info, handed, rfl, parse_uri info self (word self) presentable.unbroken,
    handed.live before, ?_⟩
  intro device permits unknown free
  rw [accept_ok_iff presentable unknown free]
  exact ⟨accepts_live (auth_run run) rfl rfl, live_accepted (auth_run run) rfl⟩

omit [DecidableEq Node] [EndpointId Node] in
theorem plain_of_none {boot : Boot} {log : Log Node} (first : PlainToken boot.config)
    (none : ∀ entry ∈ log, (installed entry.event).isNone = true) :
    AllConfigs boot log PlainToken := by
  refine ⟨first, ?_⟩
  intro entry member config inside
  have absent := none entry member
  rw [Option.isNone_iff_eq_none.mp absent] at inside
  cases inside

theorem fixedBoot_plain : PlainToken fixedBoot.config := by
  intro token member
  cases member
  exact ⟨by decide, by decide, by decide⟩

/-- The link that the phone is given lets in whoever has it. -/
theorem invitation_pairs : ∃ log hub entry response,
    (machine server).exec [] (fixedBoot.hub ⟨[]⟩)
    (asking ++ [.mint 0 1700000000 (Bytes32.filled 7)]) =
      some (log, hub) ∧ log[0]? = some entry ∧ entry.output.link = some response ∧
    ∃ info, Handed entry.before entry.event info ∧ response = responseTo server info ∧
      parseBindUri response.uri = .ok (server, info.tokenHex) ∧
      (0 < info.ttl → Live (authLog fixedBoot log) entry.before.server.auth.now info.tokenHex) ∧
      ((BindHandler.accept 50 hub.server.auth.auth hub.server.auth.now tablet
          (some (requestLine info.tokenHex))).1 = .replied "OK\n".toList ↔
        Live (authLog fixedBoot log) hub.server.auth.now info.tokenHex) := by
  obtain ⟨log, hub, executed, run, linked, quiet, unknown⟩ := exec_checked (machine server) _
    (asking ++ [.mint 0 1700000000 (Bytes32.filled 7)])
    (fun log hub => log[0]?.any (fun entry : LogEntry Bytes32 =>
        decide (entry.output.link.isSome = true)) = true ∧
      (∀ entry ∈ log, (installed entry.event).isNone = true) ∧
      tablet ∉ hub.server.auth.auth.inner.authenticated)
    (by decide +kernel : ((machine server).exec [] (fixedBoot.hub ⟨[]⟩)
      (asking ++ [.mint 0 1700000000 (Bytes32.filled 7)])).any _)
  obtain ⟨entry, here, cut, link⟩ := cut_at linked
  obtain ⟨response, link⟩ := Option.isSome_iff_exists.mp link
  have plain := plain_of_none fixedBoot_plain quiet
  rw [cut] at run plain
  obtain ⟨info, handed, made, parsed, live, pairs⟩ :=
    links_pair hexadecimal_word run plain link
  rw [← cut] at pairs
  refine ⟨log, hub, entry, response, executed, here, link, info, handed, made, parsed, ?_,
    pairs tablet 50 unknown (by decide)⟩
  rw [cut]
  exact live

/-! What `GetToken` repeats. -/

/-- Nothing has replaced or revoked the pairing token. -/
def Keeps (entry : Auth.LogEntry Node) : Prop :=
  tokenMinted entry = none ∧ lockedOut entry = false

/-- The link was made from the pairing token that is still good. -/
def LiveLink (self : Node) (log : Auth.Log Node) (now : Instant)
    (response : TokenResponse) : Prop :=
  Since Keeps (fun entry _ => ∃ info deadline, entry.output = .token info ∧
    tokenMinted entry = some (info.tokenHex, deadline) ∧ now < deadline ∧
    response = responseTo self info) log

omit [DecidableEq Node] [EndpointId Node] in
theorem minted_ends {entry : Auth.LogEntry Node} {minted : Str × Instant}
    (mints : tokenMinted entry = some minted) : ¬ Keeps entry := by
  intro keeps
  rw [keeps.1] at mints
  cases mints

omit [DecidableEq Node] in
theorem live_token {log : Auth.Log Node} {now : Instant} {response : TokenResponse}
    (live : LiveLink self log now response) : ∃ secret, LiveToken log now secret := by
  obtain ⟨later, entry, earlier, shape, ⟨info, deadline, -, minted, early, -⟩, kept⟩ := live
  exact ⟨info.tokenHex, later, entry, earlier, shape, ⟨deadline, minted, early⟩, kept⟩

/-- What is pending is what was minted last. -/
theorem pending_minted {first state : Clocked Node} {log : Auth.Log Node}
    (run : Run Auth.machine first log state) (base : first.auth.inner.pending = none)
    {pending : PendingToken} (present : state.auth.inner.pending = some pending) :
    Since Keeps (fun entry _ => ∃ info, entry.output = .token info ∧
      tokenMinted entry = some (info.tokenHex, pending.expiresAt) ∧
      pending.tokenHex = info.tokenHex ∧ pending.expiresAtUnix = info.expiresAtUnix) log := by
  induction run with
  | start =>
      rw [base] at present
      cases present
  | step earlier taken ih =>
      rw [since_cons]
      cases Auth.step_cases taken with
      | mintTokenWith ttl fixed unixNow random info shape =>
          cases present
          exact Or.inl ⟨info, rfl, rfl, rfl, rfl⟩
      | authenticate node presented outcome saves auth attempt =>
          cases attempt with
          | noActiveToken => cases present
          | revoked => cases present
          | _ => exact Or.inr ⟨⟨rfl, rfl⟩, ih present⟩
      | _ => exact Or.inr ⟨⟨rfl, rfl⟩, ih present⟩

omit [DecidableEq Node] [EndpointId Node] in
theorem currentTokenInfo_some {auth : AuthState Node} {now : Instant} {info : TokenInfo} :
    currentTokenInfo auth now now = some info ↔ ∃ pending, auth.inner.pending = some pending ∧
      now < pending.expiresAt ∧
      info = ⟨pending.tokenHex, pending.expiresAtUnix, pending.expiresAt - now⟩ := by
  constructor
  · intro current
    obtain ⟨pending, present, shape⟩ := Option.bind_eq_some_iff.mp current
    split at shape
    · rename_i early
      exact ⟨pending, present, early, (Option.some.inj shape).symm⟩
    · cases shape
  · rintro ⟨pending, present, early, rfl⟩
    simp only [currentTokenInfo, present, Option.bind_some, if_pos early]

omit [DecidableEq Node] in
/-- A link does not tell the lifetime. -/
theorem responseTo_congr {info other : TokenInfo} (secret : info.tokenHex = other.tokenHex)
    (expires : info.expiresAtUnix = other.expiresAtUnix) :
    responseTo self info = responseTo self other := by
  unfold responseTo TokenInfo.uri
  rw [secret]
  rw [expires]

theorem current_link (run : Run (machine self) (boot.hub catalog) log hub)
    (response : TokenResponse) :
    (∃ info, currentTokenInfo hub.server.auth.auth hub.server.auth.now hub.server.auth.now =
        some info ∧ response = responseTo self info) ↔
      LiveLink self (authLog boot log) hub.server.auth.now response := by
  have inner := auth_run run
  have base : (boot.loaded : Clocked Node).auth.inner.pending = none := rfl
  constructor
  · rintro ⟨info, current, rfl⟩
    obtain ⟨pending, present, early, rfl⟩ := currentTokenInfo_some.mp current
    apply (pending_minted inner base present).mono (fun _ => id)
    rintro entry earlier ⟨info, answered, minted, secret, expires⟩
    exact ⟨info, pending.expiresAt, answered, minted, early, responseTo_congr secret expires⟩
  · intro live
    obtain ⟨secret, token⟩ := live_token live
    have active := (token_tracked inner base _ (le_refl _) secret).mpr token
    obtain ⟨pending, present, early, -⟩ := activeToken_some.mp active
    refine ⟨_, currentTokenInfo_some.mpr ⟨pending, present, early, rfl⟩, ?_⟩
    have same := Since.both live (pending_minted inner base present)
      (fun _ _ ⟨_, _, _, minted, _⟩ => minted_ends minted)
      (fun _ _ ⟨_, _, minted, _⟩ => minted_ends minted)
    obtain ⟨-, entry, -, -, ⟨⟨info, -, answered, -, -, rfl⟩, other, again, -, hex, unix⟩, -⟩ := same
    obtain rfl := Reply.token.inj (answered.symm.trans again)
    exact (responseTo_congr hex unix).symm

theorem getToken_output {saved : Except Str Unit}
    (taken : (machine self).step before (.ask .getToken saved) = some (output, after)) :
    (∃ info, currentTokenInfo before.server.auth.auth before.server.auth.now
        before.server.auth.now = some info ∧
        output = .ipc (.handled (.token (responseTo self info)))) ∨
      currentTokenInfo before.server.auth.auth before.server.auth.now before.server.auth.now =
        none ∧ output = .ipc (.handled (.error "no active token".toList)) := by
  have other : ∀ ttlSecs, Ipc.Request.getToken ≠ .refreshToken ttlSecs := nofun
  obtain ⟨answer, auth, handled, rfl, -⟩ := step_ask other taken
  simp only [handle] at handled
  split at handled
  · rename_i info current
    cases handled
    exact Or.inl ⟨info, current, rfl⟩
  · rename_i absent
    cases handled
    exact Or.inr ⟨absent, rfl⟩

/-- In every reachable state `GetToken` answers with the link that was made when the pairing token
was minted, as long as that token is good, and that there is none otherwise. -/
theorem get_token_repeats {later earlier : Log Node} {entry : LogEntry Node}
    {saved : Except Str Unit}
    (run : Run (machine self) (boot.hub catalog) (later ++ entry :: earlier) hub)
    (asked : entry.event = .ask .getToken saved) :
    (∀ response, entry.output = .ipc (.handled (.token response)) ↔
        LiveLink self (authLog boot earlier) entry.before.server.auth.now response) ∧
      (entry.output = .ipc (.handled (.error "no active token".toList)) ↔
        ∀ response, ¬ LiveLink self (authLog boot earlier) entry.before.server.auth.now
            response) := by
  obtain ⟨before, taken⟩ := run.split
  rw [asked] at taken
  have link := current_link before
  rcases getToken_output taken with ⟨info, current, told⟩ | ⟨absent, told⟩
  · have live := (link _).mp ⟨info, current, rfl⟩
    rw [told]
    refine ⟨fun response => ⟨?_, ?_⟩, iff_of_false nofun (fun none => none _ live)⟩
    · intro same
      cases same
      exact live
    · intro other
      obtain ⟨info', current', rfl⟩ := (link response).mpr other
      rw [current] at current'
      cases current'
      rfl
  · have none : ∀ response,
        ¬ LiveLink self (authLog boot earlier) entry.before.server.auth.now response := by
      intro response live
      obtain ⟨info, current, -⟩ := (link response).mpr live
      rw [absent] at current
      cases current
    rw [told]
    exact ⟨fun response => iff_of_false nofun (none response), iff_of_true rfl none⟩

/-- The token is refreshed and asked for again. -/
def refreshing : List (Event Bytes32) :=
  [.ask (.refreshToken (some 60)) (.ok ()), .readConfig 0, .mint 0 1700000100 (Bytes32.filled 8),
    .ask .getToken (.ok ())]

theorem refreshed_link_repeated : ∃ log hub entry,
    (machine server).exec [] (fixedBoot.hub ⟨[]⟩) refreshing = some (log, hub) ∧
      log[0]? = some entry ∧
      ∀ response, entry.output = .ipc (.handled (.token response)) ↔
        LiveLink server (authLog fixedBoot (log.drop 1)) entry.before.server.auth.now response := by
  obtain ⟨log, hub, executed, run, linked⟩ := exec_checked (machine server) _ refreshing
    (fun log _ => log[0]?.any (fun entry : LogEntry Bytes32 =>
      decide (entry.output.link.isSome = true)) = true)
    (by decide +kernel : ((machine server).exec [] (fixedBoot.hub ⟨[]⟩) refreshing).any _)
  obtain ⟨entry, here, cut, -⟩ := cut_at linked
  have asked := congrArg (Option.map Entry.event) here
  rw [← List.getElem?_map, exec_events executed] at asked
  rw [cut] at run
  exact ⟨log, hub, entry, executed, here,
    (get_token_repeats run (Option.some.inj asked).symm).1⟩

end RaemoteServer.Hub
