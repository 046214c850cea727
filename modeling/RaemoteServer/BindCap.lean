import RaemoteServer.Bind

/-! How many bind exchanges are in progress at the same time. -/

namespace RaemoteServer.Bind

open Text Collections Runs Auth

variable {Node : Type} [DecidableEq Node] [EndpointId Node]

/-- `DEFAULT_MAX_BIND_CONNECTIONS` -/
def defaultMaxBindConnections : Nat := 50

inductive ExchangeStage where
  /-- For the stream and the token line. -/
  | waiting
  /-- The reply is written; the connection is held open until the client has it. -/
  | replied
  /-- The permit is dropped. -/
  | ended
  deriving DecidableEq

structure Exchange (Node : Type) where
  node : Node
  stage : ExchangeStage
  deriving DecidableEq

/-- The shared auth state and the semaphore, with every connection that was given a permit. -/
structure BindHandler (Node : Type) where
  auth : Clocked Node
  permits : Nat
  exchanges : List (Exchange Node)

def BindHandler.new (auth : Clocked Node) (maxConcurrent : Nat) : BindHandler Node :=
  ⟨auth, maxConcurrent, []⟩

/-- What `daemon::run` does with a validated config to start the handler. -/
def runBind (toml : TomlStrings) (store names : Option Str) (now : Instant) (unixNow : Nat)
    (random : Bytes32) (config : Config) : BindHandler Node :=
  let auth : Clocked Node := ⟨loadAt toml store names config.bind.maxFailedAttempts, now⟩
  let ttl := fromSecs config.bind.tokenTtlSecs.toNat
  let (_, _, auth) := perform auth (.mintTokenWith ttl config.bind.token unixNow random)
  .new auth defaultMaxBindConnections

inductive BindEvent (Node : Type) where
  /-- The clock, and other users of the auth state. -/
  | auth (operation : Operation Node)
  | incoming (node : Node)
  | request (i : Nat) (data : List UInt8)
  /-- The stream fails: it is not opened, not read or not written. -/
  | failure (i : Nat)
  /-- The client closes the connection, or `FINISH_GRACE` is over. -/
  | closed (i : Nat)
  | timeout (i : Nat)

def BindHandler.setStage (handler : BindHandler Node) (i : Nat) (node : Node)
    (stage : ExchangeStage) : BindHandler Node :=
  { handler with exchanges := handler.exchanges.set i ⟨node, stage⟩ }

/-- `accept` returns, and its permit is dropped. -/
def BindHandler.finish (handler : BindHandler Node) (i : Nat) (node : Node) : BindHandler Node :=
  { handler.setStage i node .ended with permits := handler.permits + 1 }

def bindStep (handler : BindHandler Node) :
    BindEvent Node → Option (Option BindReply × BindHandler Node)
  | .auth operation =>
      some (none, { handler with auth := (perform handler.auth operation).2.2 })
  | .incoming node =>
      match handler.permits with
      | 0 => some (some (.closed 503 "too many bind connections".toList), handler)
      | permits + 1 =>
          let exchanges := handler.exchanges ++ [⟨node, .waiting⟩]
          some (none, { handler with permits, exchanges })
  | .request i data =>
      match handler.exchanges[i]? with
      | some ⟨node, .waiting⟩ =>
          let (reply, _, auth) := exchange handler.auth.auth handler.auth.now node data
          let handler := { handler with auth := { handler.auth with auth } }
          match reply with
          | .failed => some (some reply, handler.finish i node)
          | _ => some (some reply, handler.setStage i node .replied)
      | _ => none
  | .failure i =>
      match handler.exchanges[i]? with
      | some ⟨node, .waiting⟩ => some (some .failed, handler.finish i node)
      | some ⟨node, .replied⟩ => some (some .failed, handler.finish i node)
      | _ => none
  | .closed i =>
      match handler.exchanges[i]? with
      | some ⟨node, .replied⟩ => some (none, handler.finish i node)
      | _ => none
  | .timeout i =>
      match handler.exchanges[i]? with
      | some ⟨node, .waiting⟩ =>
          some (some (.closed 408 "bind timeout".toList), handler.finish i node)
      | some ⟨node, .replied⟩ =>
          some (some (.closed 408 "bind timeout".toList), handler.finish i node)
      | _ => none

def bindMachine : Machine (BindHandler Node) (BindEvent Node) (Option BindReply) := ⟨bindStep⟩

def Exchange.inProgress (exchange : Exchange Node) : Bool := exchange.stage ≠ .ended

def BindHandler.inProgress (handler : BindHandler Node) : Nat :=
  handler.exchanges.countP Exchange.inProgress

/-- An exchange is answered as `accept` answers it on its own. -/
theorem request_accept {handler after : BindHandler Node} {i : Nat} {node : Node}
    {data : List UInt8} {output : Option BindReply}
    (present : handler.exchanges[i]? = some ⟨node, .waiting⟩)
    (taken : bindMachine.step handler (.request i data) = some (output, after)) (permits : Nat) :
    output = some (BindHandler.accept (permits + 1) handler.auth.auth handler.auth.now node
      (some data)).1 := by
  simp only [bindMachine, bindStep, present] at taken
  rw [BindHandler.accept, if_neg (Nat.succ_ne_zero permits)]
  split at taken
  · exact (Prod.mk.inj (Option.some.inj taken)).1.symm
  · exact (Prod.mk.inj (Option.some.inj taken)).1.symm

/-! What one step can do. -/

inductive BindStepped (before : BindHandler Node) : BindHandler Node → Prop
  | quiet (auth : Clocked Node) : BindStepped before { before with auth }
  | started (node : Node) (permits : Nat) (free : before.permits = permits + 1) :
      BindStepped before
        { before with permits, exchanges := before.exchanges ++ [⟨node, .waiting⟩] }
  | replied (auth : Clocked Node) (i : Nat) (node : Node)
      (present : before.exchanges[i]? = some ⟨node, .waiting⟩) :
      BindStepped before (BindHandler.setStage { before with auth } i node .replied)
  | finished (auth : Clocked Node) (i : Nat) (node : Node) (stage : ExchangeStage)
      (present : before.exchanges[i]? = some ⟨node, stage⟩) (unended : stage ≠ .ended) :
      BindStepped before (BindHandler.finish { before with auth } i node)

omit [DecidableEq Node] [EndpointId Node] in
/-- An exchange that a failure or a timeout ends, whether it is replied to or not. -/
theorem given_up {before after : BindHandler Node} {i : Nat} {reply : BindReply}
    {output : Option BindReply}
    (taken : (match before.exchanges[i]? with
      | some ⟨node, .waiting⟩ => some (some reply, before.finish i node)
      | some ⟨node, .replied⟩ => some (some reply, before.finish i node)
      | _ => none) = some (output, after)) :
    BindStepped before after := by
  split at taken
  · rename_i node present
    obtain rfl := next_eq taken
    exact .finished before.auth i node .waiting present (by simp)
  · rename_i node present
    obtain rfl := next_eq taken
    exact .finished before.auth i node .replied present (by simp)
  · cases taken

theorem bind_step_cases {before after : BindHandler Node} {event : BindEvent Node}
    {output : Option BindReply} (taken : bindMachine.step before event = some (output, after)) :
    BindStepped before after := by
  cases event with
  | auth operation =>
      obtain rfl := next_eq taken
      exact .quiet _
  | incoming node =>
      simp only [bindMachine, bindStep] at taken
      cases free : before.permits with
      | zero =>
          rw [free] at taken
          obtain rfl := next_eq taken
          exact .quiet before.auth
      | succ permits =>
          rw [free] at taken
          obtain rfl := next_eq taken
          exact .started node permits free
  | request i data =>
      simp only [bindMachine, bindStep] at taken
      split at taken
      · rename_i node present
        split at taken
        · obtain rfl := next_eq taken
          exact .finished _ i node .waiting present (by simp)
        · obtain rfl := next_eq taken
          exact .replied _ i node present
      · cases taken
  | failure i => exact given_up taken
  | closed i =>
      simp only [bindMachine, bindStep] at taken
      split at taken
      · rename_i node present
        obtain rfl := next_eq taken
        exact .finished before.auth i node .replied present (by simp)
      · cases taken
  | timeout i => exact given_up taken

omit [DecidableEq Node] [EndpointId Node] in
/-- Every exchange in progress holds a permit. -/
theorem permits_kept {before after : BindHandler Node} (stepped : BindStepped before after) :
    after.permits + after.inProgress = before.permits + before.inProgress := by
  cases stepped with
  | quiet auth => rfl
  | started node permits free =>
      simp only [BindHandler.inProgress, List.countP_append, free]
      simp [Exchange.inProgress]
      omega
  | replied auth i node present =>
      have counted := countP_set_add Exchange.inProgress ⟨node, .replied⟩ present
      simp only [Exchange.inProgress] at counted
      simpa [BindHandler.inProgress, BindHandler.setStage] using counted
  | finished auth i node stage present unended =>
      have counted := countP_set_add Exchange.inProgress ⟨node, .ended⟩ present
      have held : Exchange.inProgress ⟨node, stage⟩ = true := decide_eq_true unended
      have dropped : Exchange.inProgress (⟨node, .ended⟩ : Exchange Node) = false := rfl
      rw [held, dropped, Bool.toNat_true, Bool.toNat_false] at counted
      simp only [BindHandler.inProgress, BindHandler.finish, BindHandler.setStage]
      omega

theorem permits_total {first handler : BindHandler Node}
    {log : History (BindHandler Node) (BindEvent Node) (Option BindReply)}
    (run : Run bindMachine first log handler) :
    handler.permits + handler.inProgress = first.permits + first.inProgress :=
  run.invariant (fun handler => handler.permits + handler.inProgress = _) rfl
    (fun _ _ _ _ taken before => (permits_kept (bind_step_cases taken)).trans before)

/-- As many exchanges as there are permits can be started. -/
theorem started_exchanges (auth : Clocked Node) (node : Node) {n maxConcurrent : Nat}
    (fits : n ≤ maxConcurrent) :
    ∃ log handler, Run bindMachine (BindHandler.new auth maxConcurrent) log handler ∧
      handler.permits = maxConcurrent - n ∧ handler.inProgress = n := by
  induction n with
  | zero => exact ⟨[], _, .start, rfl, rfl⟩
  | succ n ih =>
      obtain ⟨log, handler, run, permits, progress⟩ := ih (by omega)
      have free : handler.permits = (maxConcurrent - (n + 1)) + 1 := by omega
      have taken : bindMachine.step handler (.incoming node) = some (none, { handler with
          permits := maxConcurrent - (n + 1)
          exchanges := handler.exchanges ++ [⟨node, .waiting⟩] }) := by
        simp only [bindMachine, bindStep, free]
      refine ⟨_, _, run.step taken, rfl, ?_⟩
      have kept := permits_kept (bind_step_cases taken)
      simp only at kept
      omega

section

variable (toml : TomlStrings) (store names : Option Str) (now : Instant) (unixNow : Nat)
  (random : Bytes32)

/-- The configured cap is kept in every run exactly if it is not below the built-in one. -/
theorem bind_cap_iff [Inhabited Node] (config : Config) :
    (∀ log (handler : BindHandler Node),
      Run bindMachine (runBind toml store names now unixNow random config) log handler →
        handler.inProgress ≤ config.bind.maxConcurrentConnections.toNat) ↔
      defaultMaxBindConnections ≤ config.bind.maxConcurrentConnections.toNat := by
  constructor
  · intro capped
    obtain ⟨log, handler, run, -, progress⟩ :=
      started_exchanges (runBind toml store names now unixNow random config).auth
        (default : Node) (le_refl defaultMaxBindConnections)
    rw [← progress]
    exact capped log handler run
  · intro room log handler run
    have total := permits_total run
    have first : (runBind toml store names now unixNow random config : BindHandler Node).permits +
        (runBind toml store names now unixNow random config : BindHandler Node).inProgress =
          defaultMaxBindConnections := rfl
    omega

end

/-- One exchange at a time. -/
def oneAtATime : Config :=
  { Config.default with bind := { BindConfig.default with maxConcurrentConnections := 1 } }

/-- The config is accepted, and a second device is let in while the first is still waiting. -/
theorem second_exchange_started : validate oneAtATime = .ok () ∧
    ∃ log handler,
      Run bindMachine (runBind TomlStrings.emptyOnly none none 0 1700000000 (Bytes32.filled 3)
        oneAtATime) log handler ∧
      (handler : BindHandler Bytes32).exchanges =
        [⟨Bytes32.filled 1, .waiting⟩, ⟨Bytes32.filled 2, .waiting⟩] ∧
      oneAtATime.bind.maxConcurrentConnections.toNat < handler.inProgress := by
  refine ⟨by decide, ?_⟩
  obtain ⟨log, handler, executed, run, checks⟩ := exec_checked bindMachine
    (runBind TomlStrings.emptyOnly none none 0 1700000000 (Bytes32.filled 3) oneAtATime)
    [.incoming (Bytes32.filled 1), .incoming (Bytes32.filled 2)]
    (fun _ handler => handler.exchanges =
        [⟨Bytes32.filled 1, .waiting⟩, ⟨Bytes32.filled 2, .waiting⟩] ∧
      oneAtATime.bind.maxConcurrentConnections.toNat < handler.inProgress)
    (by decide +kernel)
  exact ⟨log, handler, run, checks⟩

end RaemoteServer.Bind
