import RaemoteServer.Http.Serve

/-! The permits of a limiter always add up. What they do not cover is a tunnel whose task has
dropped its permit, and a stream that was admitted by another limiter of its device. -/

namespace RaemoteServer.Http

open Text Collections Runs Auth

variable {Node : Type} [DecidableEq Node] [EndpointId Node]

/-- From `try_acquire_concurrency` to the end of the HTTP connection and of any tunnel. -/
def StreamStage.served : StreamStage → Bool
  | .limited | .http | .upgrading | .tunnel => true
  | _ => false

/-- The limiter that an accepted stream will be admitted by. -/
def StreamStage.limiter : StreamStage → Option Nat
  | .accepted l => some l
  | _ => none

def Stream.servedFor (node : Node) (stream : Stream Node) : Bool :=
  decide (stream.node = node) && stream.stage.served

def Stream.holds (l : Nat) (stream : Stream Node) : Bool := decide (stream.permit = some l)

def Server.served (server : Server Node) (node : Node) : Nat :=
  server.streams.countP (Stream.servedFor node)

def Server.holding (server : Server Node) (l : Nat) : Nat :=
  server.streams.countP (Stream.holds l)

/-- Streams served for a device without a permit of this limiter. -/
def Server.uncounted (server : Server Node) (node : Node) (l : Nat) : Nat :=
  server.streams.countP (fun stream => stream.servedFor node && !stream.holds l)

/-- Permits of this limiter in the hands of streams that are not served for the device. -/
def Server.idle (server : Server Node) (node : Node) (l : Nat) : Nat :=
  server.streams.countP (fun stream => stream.holds l && !stream.servedFor node)

/-- When a stream is admitted, the streams its limiter does not know of are fewer than the
permits that no served stream of the device holds. -/
def Room (entry : Entry (Server Node) (Event Node) (Effect Node)) : Prop :=
  match entry.event with
  | .acquire i => ∀ stream, entry.before.streams[i]? = some stream →
      ∀ l, stream.stage.limiter = some l → ∀ limiter, entry.before.limiters[l]? = some limiter →
        0 < limiter.permits →
          entry.before.uncounted stream.node l < limiter.permits + entry.before.idle stream.node l
  | _ => True

instance (entry : Entry (Server Node) (Event Node) (Effect Node)) : Decidable (Room entry) := by
  unfold Room
  split <;> infer_instance

def keepsCap (cap : UInt64) : Event Node → Prop
  | .installConfig config => config.serve.maxConcurrentStreams = cap
  | _ => True

instance (cap : UInt64) (event : Event Node) : Decidable (keepsCap cap event) := by
  unfold keepsCap
  split <;> infer_instance

structure Accounted (cap : UInt64) (server : Server Node) : Prop where
  config : server.config.serve.maxConcurrentStreams = cap
  limiters : ∀ l limiter, server.limiters[l]? = some limiter →
    limiter.permits + server.holding l = cap.toNat
  owners : ∀ l, server.limiters.length ≤ l → server.holding l = 0

/-! Counting after one stream has changed. -/

omit [DecidableEq Node] [EndpointId Node] in
theorem holding_set {server : Server Node} {i l : Nat} {old new : Stream Node}
    (present : server.streams[i]? = some old) (same : old.permit = new.permit) :
    (server.streams.set i new).countP (Stream.holds l) = server.holding l := by
  have counted := countP_set_add (Stream.holds l) new present
  simp only [Stream.holds, same] at counted
  exact Nat.add_right_cancel counted

omit [EndpointId Node] in
theorem served_set_le {server : Server Node} {i : Nat} {old new : Stream Node}
    (present : server.streams[i]? = some old) (node : Node)
    (less : new.servedFor node = true → old.servedFor node = true) :
    (server.streams.set i new).countP (Stream.servedFor node) ≤ server.served node := by
  have counted := countP_set_add (Stream.servedFor node) new present
  have bits : (new.servedFor node).toNat ≤ (old.servedFor node).toNat := Bool.toNat_le_toNat less
  unfold Server.served
  omega

omit [EndpointId Node] in
theorem served_admitted {server : Server Node} {i c l : Nat} {node : Node}
    {requests : List Arrival}
    (present : server.streams[i]? = some ⟨c, node, .accepted l, requests, none⟩) :
    (server.streams.set i ⟨c, node, .limited, requests, some l⟩).countP (Stream.servedFor node) =
      server.served node + 1 := by
  have counted := countP_set_add (Stream.servedFor node)
    (⟨c, node, .limited, requests, some l⟩ : Stream Node) present
  simpa [Server.served, Stream.servedFor, StreamStage.served] using counted

theorem moves_served {old new : StreamStage} (order : Moves old new) :
    new.served = true → old.served = true := by
  cases order <;> simp [StreamStage.served]

omit [EndpointId Node] in
/-- Free permits and the streams a limiter knows of make up the cap, so the cap is kept on
admission exactly if there is room. -/
theorem room_iff {cap : UInt64} {server : Server Node} (accounted : Accounted cap server)
    {l : Nat} {limiter : NodeLimiter} (found : server.limiters[l]? = some limiter) (node : Node) :
    server.uncounted node l < limiter.permits + server.idle node l ↔
      server.served node + 1 ≤ cap.toNat := by
  have total := accounted.limiters l limiter found
  have split := countP_add_diff (Stream.servedFor node) (Stream.holds l) server.streams
  change server.served node + server.idle node l =
    server.holding l + server.uncounted node l at split
  omega

/-! One step. -/

omit [DecidableEq Node] [EndpointId Node] in
/-- Handing out a permit or taking it back keeps the account of its limiter. -/
theorem accounted_exchange {cap : UInt64} {before : Server Node} (accounted : Accounted cap before)
    {i l permits : Nat} {limiter : NodeLimiter} {old new : Stream Node}
    (present : before.streams[i]? = some old) (found : before.limiters[l]? = some limiter)
    (others : ∀ k, k ≠ l → old.holds k = new.holds k)
    (exchanged : permits + (new.holds l).toNat = limiter.permits + (old.holds l).toNat) :
    Accounted cap (Server.setStream
      { before with limiters := before.limiters.set l ⟨limiter.serve, permits⟩ } i new) := by
  have counted (k : Nat) := countP_set_add (Stream.holds k) new present
  have kept (k : Nat) (other : k ≠ l) :
      (before.streams.set i new).countP (Stream.holds k) = before.holding k := by
    have same := counted k
    rw [others k other] at same
    exact Nat.add_right_cancel same
  refine ⟨accounted.config, ?_, ?_⟩
  · intro k value present'
    rcases getElem?_set_some present' with ⟨rfl, rfl⟩ | ⟨other, old'⟩
    · have total := accounted.limiters k limiter found
      have same := counted k
      simp only [Server.holding, Server.setStream] at total ⊢
      omega
    · have total := accounted.limiters k value old'
      rw [← kept k other] at total
      exact total
  · intro k beyond
    have outside : before.limiters.length ≤ k := by simpa [Server.setStream] using beyond
    have inside : l < before.limiters.length := (List.getElem?_eq_some_iff.mp found).1
    have none := accounted.owners k outside
    rw [← kept k (by omega)] at none
    exact none

omit [DecidableEq Node] [EndpointId Node] in
/-- A step that leaves limiters, config and permits alone. -/
theorem accounted_same {cap : UInt64} {before after : Server Node}
    (accounted : Accounted cap before) (limiters : after.limiters = before.limiters)
    (config : after.config.serve.maxConcurrentStreams = cap)
    (same : ∀ l, after.holding l = before.holding l) : Accounted cap after := by
  refine ⟨config, ?_, ?_⟩
  · intro l limiter found
    rw [limiters] at found
    rw [same]
    exact accounted.limiters l limiter found
  · intro l beyond
    rw [limiters] at beyond
    rw [same]
    exact accounted.owners l beyond

omit [EndpointId Node] in
theorem accounted_kept {cap : UInt64} {before after : Server Node} {event : Event Node}
    {effect : Effect Node} (stepped : Stepped before event effect after)
    (keeps : keepsCap cap event) (accounted : Accounted cap before) : Accounted cap after := by
  cases stepped with
  | quiet _ _ _ streams limiters config undispatched =>
      refine accounted_same accounted limiters ?_ (fun l => by simp only [Server.holding, streams])
      rcases config with same | rfl
      · rw [same]
        exact accounted.config
      · exact keeps
  | creates c _ streams limiters config =>
      have same (l : Nat) : after.holding l = before.holding l := by
        simp only [Server.holding, streams]
      refine ⟨config ▸ accounted.config, ?_, ?_⟩
      · intro l limiter found
        rw [limiters, List.getElem?_append] at found
        rw [same]
        split at found
        · exact accounted.limiters l limiter found
        · rename_i beyond
          rw [List.getElem?_singleton] at found
          split at found
          · cases found
            rw [accounted.owners l (Nat.le_of_not_lt beyond), NodeLimiter.new, accounted.config]
            rfl
          · cases found
      · intro l beyond
        rw [same]
        refine accounted.owners l ?_
        rw [limiters, List.length_append] at beyond
        omega
  | opens c node =>
      refine accounted_same accounted rfl accounted.config ?_
      intro l
      simp [Server.holding, Stream.holds]
  | arrives i request stream present receives =>
      exact accounted_same accounted rfl accounted.config (fun l => holding_set present rfl)
  | accepts i c l node requests permit present authorized =>
      exact accounted_same accounted rfl accounted.config (fun l => holding_set present rfl)
  | admits i c l node requests serve permits present found =>
      refine accounted_exchange accounted present found ?_ ?_
      · intro k other
        simp [Stream.holds, Ne.symm other]
      · simp [Stream.holds]
  | moves _ _ _ i old stage present order streams limiters config undispatched =>
      refine accounted_same accounted limiters (config ▸ accounted.config) ?_
      intro l
      rw [Server.holding, streams]
      exact holding_set present rfl
  | dispatches i switching c node arrival rest permit stage dispatch present staged =>
      exact accounted_same accounted rfl accounted.config (fun l => holding_set present rfl)
  | releases i c l node stage requests serve permits present done found =>
      refine accounted_exchange accounted present found ?_ ?_
      · intro k other
        simp [Stream.holds, Ne.symm other]
      · simp [Stream.holds]

omit [EndpointId Node] in
theorem served_kept {cap : UInt64} {before after : Server Node} {event : Event Node}
    {effect : Effect Node} (stepped : Stepped before event effect after)
    (room : Room ⟨before, event, effect, after⟩) (accounted : Accounted cap before)
    (below : ∀ node, before.served node ≤ cap.toNat) (node : Node) :
    after.served node ≤ cap.toNat := by
  have kept {i : Nat} {old new : Stream Node} (present : before.streams[i]? = some old)
      (less : new.servedFor node = true → old.servedFor node = true) :
      (before.streams.set i new).countP (Stream.servedFor node) ≤ cap.toNat :=
    le_trans (served_set_le present node less) (below node)
  cases stepped with
  | quiet _ _ _ streams limiters config undispatched =>
      rw [Server.served, streams]
      exact below node
  | creates c _ streams limiters config =>
      rw [Server.served, streams]
      exact below node
  | opens c opener =>
      have same := below node
      simpa [Server.served, Stream.servedFor, StreamStage.served] using same
  | arrives i request stream present receives => exact kept present id
  | accepts i c l owner requests permit present authorized =>
      exact kept present (by simp [Stream.servedFor, StreamStage.served])
  | admits i c l owner requests serve permits present found =>
      have free := room _ present l rfl _ found (Nat.succ_pos permits)
      have fits := (room_iff accounted found owner).mp free
      by_cases same : owner = node
      · subst same
        exact (served_admitted present).trans_le fits
      · refine kept present ?_
        simp [Stream.servedFor, same]
  | moves _ _ _ i old stage present order streams limiters config undispatched =>
      rw [Server.served, streams]
      refine kept present ?_
      simp only [Stream.servedFor, Bool.and_eq_true]
      exact fun ⟨owner, served⟩ => ⟨owner, moves_served order served⟩
  | dispatches i switching c owner arrival rest permit stage dispatch present staged =>
      refine kept present ?_
      simp only [Stream.servedFor, Bool.and_eq_true]
      exact fun ⟨same, _⟩ => ⟨same, rfl⟩
  | releases i c l owner stage requests serve permits present done found => exact kept present id

theorem room_of_cap {cap : UInt64} {before after : Server Node} {event : Event Node}
    {effect : Effect Node} (taken : machine.step before event = some (effect, after))
    (accounted : Accounted cap before) (below : ∀ node, after.served node ≤ cap.toNat) :
    Room ⟨before, event, effect, after⟩ := by
  cases event with
  | acquire i =>
      rintro ⟨c, node, stage, requests, permit⟩ present l staged ⟨serve, permits⟩ found free
      cases stage with
      | accepted k =>
          obtain rfl : k = l := Option.some.inj staged
          cases permit with
          | some other => simp [machine, step, present] at taken
          | none =>
              obtain ⟨others, rfl⟩ := Nat.exists_eq_add_one.mpr free
              simp only [machine, step, present, found, Option.some.injEq, Prod.mk.injEq] at taken
              obtain ⟨-, rfl⟩ := taken
              refine (room_iff accounted found node).mpr ?_
              rw [← served_admitted present]
              exact below node
      | _ => cases staged
  | _ => trivial

/-! Runs. -/

variable {auth : Clocked Node} {config : Config} {catalog : Catalog} {cap : UInt64}
  {log : History (Server Node) (Event Node) (Effect Node)} {server : Server Node}

omit [DecidableEq Node] [EndpointId Node] in
theorem accounted_start (initial : config.serve.maxConcurrentStreams = cap) :
    Accounted cap (start auth config catalog) where
  config := initial
  limiters := nofun
  owners _ _ := rfl

theorem accounted_run (run : Run machine (start auth config catalog) log server)
    (initial : config.serve.maxConcurrentStreams = cap)
    (same : ∀ entry ∈ log, keepsCap cap entry.event) : Accounted cap server :=
  run.invariant_of_allowed (Accounted cap) (fun entry => keepsCap cap entry.event) same
    (accounted_start initial)
    (fun _ _ _ _ taken keeps => accounted_kept (step_cases taken) keeps)

theorem served_run (run : Run machine (start auth config catalog) log server)
    (initial : config.serve.maxConcurrentStreams = cap)
    (same : ∀ entry ∈ log, keepsCap cap entry.event) (room : ∀ entry ∈ log, Room entry) :
    ∀ node, server.served node ≤ cap.toNat := by
  refine (run.invariant_of_allowed
    (fun server => Accounted cap server ∧ ∀ node, server.served node ≤ cap.toNat)
    (fun entry => keepsCap cap entry.event ∧ Room entry)
    (fun entry member => ⟨same entry member, room entry member⟩)
    ⟨accounted_start initial, fun node => Nat.zero_le _⟩ ?_).2
  intro before event effect after taken allowed sound
  have stepped := step_cases taken
  exact ⟨accounted_kept stepped allowed.1 sound.1,
    served_kept stepped allowed.2 sound.1 sound.2⟩

omit [EndpointId Node] in
/-- There is room when every stream that is served for the device has a permit of the limiter. -/
theorem room_of_counted {node : Node} {l : Nat} {limiter : NodeLimiter}
    (free : 0 < limiter.permits)
    (known : ∀ stream ∈ server.streams, stream.servedFor node = true → stream.permit = some l) :
    server.uncounted node l < limiter.permits + server.idle node l := by
  have none : server.uncounted node l = 0 := by
    refine List.countP_eq_zero.mpr ?_
    intro stream member
    by_cases served : stream.servedFor node = true
    · simp [Stream.holds, known stream member served]
    · simp [served]
  omega

/-! A server with room for two streams a device. -/

def notesCatalog : Catalog :=
  ⟨[⟨"notes".toList, none, .http "127.0.0.1".toList 3000, .manual, none, none⟩]⟩

def tablet : Bytes32 := Bytes32.filled 2

def twoStreams : Server Bytes32 :=
  start ⟨loadAt .emptyOnly (some (authorizedContent [toText tablet])) none 5, 0⟩
    { Config.default with serve := { ServeConfig.default with maxConcurrentStreams := 2 } }
    notesCatalog

/-- A tablet opens a WebSocket, and a second stream beside the tunnel. -/
def besideTunnel : List (Event Bytes32) :=
  [.connect tablet, .checkConnection 0, .lookup 0, .lookup 0, .lookup 0,
    .openStream 0, .arrive 0 ⟨.get, "/app/notes/ws".toList, true⟩, .acceptStream 0, .acquire 0,
    .rateToken 0, .dispatch 0 true, .handOver 0, .releasePermit 0,
    .openStream 0, .acceptStream 1, .acquire 1]

end RaemoteServer.Http
