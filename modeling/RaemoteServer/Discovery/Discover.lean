import RaemoteServer.Discovery.Cycle
import RaemoteServer.Library.Notify

/-! Requests for a scan: `discover` of the hub, and `DiscoverNow` and `DiscoverReport` of the
IPC. They wait for the catalog generation to change, beside the loop that scans. -/

namespace RaemoteServer.Discovery

open Text Collections Runs Http

inductive DiscoverKind where
  | hub
  | now
  | report
  deriving DecidableEq

inductive RequestStage where
  | arriving
  /-- The generation is read. -/
  | loaded (before : UInt64)
  /-- The trigger is notified; in the loop. -/
  | waiting (before : UInt64)
  /-- Out of the loop; the generation has changed, or the deadline has passed. -/
  | leaving (changed : Bool)
  /-- A report that has its apps, and not what was skipped. -/
  | reporting (changed : Bool) (catalog : Catalog)
  | answered (changed : Bool) (catalog : Catalog) (skipped : Option (List Skipped))
  deriving DecidableEq

structure DiscoverRequest where
  kind : DiscoverKind
  stage : RequestStage
  deriving DecidableEq

structure Discoverer where
  engine : Engine
  /-- The loop is past its first scan, which nothing triggers. -/
  started : Bool
  trigger : Notify Unit
  requests : List DiscoverRequest

inductive DiscoverEvent where
  | firstScan
  /-- The loop polls `trigger.notified()` in its `select!`. -/
  | pollTrigger
  | timer
  /-- A step within a cycle, a reload of the config, or time passing. -/
  | scan (event : ScanEvent)
  /-- The end of a reload. -/
  | trigger
  | arrive (kind : DiscoverKind)
  | load (r : Nat)
  | notify (r : Nat)
  | poll (r : Nat)
  | expire (r : Nat)
  | answer (r : Nat)
  | readReport (r : Nat)
  deriving DecidableEq

def Discoverer.setStage (discoverer : Discoverer) (r : Nat) (kind : DiscoverKind)
    (stage : RequestStage) : Discoverer :=
  { discoverer with requests := discoverer.requests.set r ⟨kind, stage⟩ }

/-- A report goes on to read `last_scan`. -/
def answerStage (kind : DiscoverKind) (changed : Bool) (catalog : Catalog) : RequestStage :=
  if kind = .report then .reporting changed catalog else .answered changed catalog none

variable (join : Str → Str → Option Url)

def scanWith (discoverer : Discoverer) (event : ScanEvent) : Option (Unit × Discoverer) :=
  (step join discoverer.engine event).map
    (fun result => ((), { discoverer with engine := result.2 }))

def discoverStep (discoverer : Discoverer) (event : DiscoverEvent) : Option (Unit × Discoverer) :=
  match event with
  | .firstScan =>
      if discoverer.started then none
      else scanWith join { discoverer with started := true } .begin
  | .pollTrigger =>
      if discoverer.started ∧ discoverer.engine.phase = .waiting then
        let (ready, trigger) := discoverer.trigger.poll ()
        if ready then scanWith join { discoverer with trigger } .begin
        else some ((), { discoverer with trigger })
      else none
  | .timer =>
      if discoverer.started then
        scanWith join { discoverer with trigger := discoverer.trigger.cancel () } .begin
      else none
  | .scan event => if event = .begin then none else scanWith join discoverer event
  | .trigger => some ((), { discoverer with trigger := discoverer.trigger.notifyOne })
  | .arrive kind =>
      some ((), { discoverer with requests := discoverer.requests ++ [⟨kind, .arriving⟩] })
  | .load r =>
      match discoverer.requests[r]? with
      | some ⟨kind, .arriving⟩ =>
          some ((), discoverer.setStage r kind (.loaded discoverer.engine.catalogGeneration))
      | _ => none
  | .notify r =>
      match discoverer.requests[r]? with
      | some ⟨kind, .loaded before⟩ =>
          some ((), { discoverer.setStage r kind (.waiting before) with
            trigger := discoverer.trigger.notifyOne })
      | _ => none
  | .poll r =>
      match discoverer.requests[r]? with
      | some ⟨kind, .waiting before⟩ =>
          if discoverer.engine.catalogGeneration = before then some ((), discoverer)
          else some ((), discoverer.setStage r kind (.leaving true))
      | _ => none
  | .expire r =>
      match discoverer.requests[r]? with
      | some ⟨kind, .waiting before⟩ =>
          if discoverer.engine.catalogGeneration = before then
            some ((), discoverer.setStage r kind (.leaving false))
          else none
      | _ => none
  | .answer r =>
      match discoverer.requests[r]? with
      | some ⟨kind, .leaving changed⟩ =>
          some ((), discoverer.setStage r kind
            (answerStage kind changed discoverer.engine.catalog))
      | _ => none
  | .readReport r =>
      match discoverer.requests[r]? with
      | some ⟨kind, .reporting changed catalog⟩ =>
          some ((), discoverer.setStage r kind
            (.answered changed catalog (some discoverer.engine.lastScan)))
      | _ => none

def discoverMachine : Machine Discoverer DiscoverEvent Unit := ⟨discoverStep join⟩

def Discoverer.start (config : Config) (now : Nat) : Discoverer where
  engine := .start config now
  started := false
  trigger := .new
  requests := []

/-! What a step can do to the engine and to one request. -/

variable {join : Str → Str → Option Url}

/-- The engine takes a step, and no request does. -/
structure Scans (join : Str → Str → Option Url) (before after : Discoverer)
    (event : DiscoverEvent) (scan : ScanEvent) : Prop where
  taken : ∃ dials, Stepped join before.engine scan dials after.engine
  requests : after.requests = before.requests
  kind : event = .scan scan ∨ scan = .begin ∧ ∀ other, event ≠ .scan other

/-- The stages that a request can go through in one step, and the event that moves it. -/
inductive Moves (engine : Engine) (r : Nat) (kind : DiscoverKind) :
    DiscoverEvent → RequestStage → RequestStage → Prop
  | load : Moves engine r kind (.load r) .arriving (.loaded engine.catalogGeneration)
  | notify (before : UInt64) : Moves engine r kind (.notify r) (.loaded before) (.waiting before)
  | changed (before : UInt64) (changed : engine.catalogGeneration ≠ before) :
      Moves engine r kind (.poll r) (.waiting before) (.leaving true)
  | expire (before : UInt64) : Moves engine r kind (.expire r) (.waiting before) (.leaving false)
  | answer (changed : Bool) : Moves engine r kind (.answer r) (.leaving changed)
      (answerStage kind changed engine.catalog)
  | readReport (changed : Bool) (catalog : Catalog) :
      Moves engine r kind (.readReport r) (.reporting changed catalog)
        (.answered changed catalog (some engine.lastScan))

/-- One request moves, and the engine stays. -/
structure Serves (before after : Discoverer) (event : DiscoverEvent) : Prop where
  engine : after.engine = before.engine
  request : ∃ r kind old new, before.requests[r]? = some ⟨kind, old⟩ ∧
    Moves before.engine r kind event old new ∧
    after.requests = before.requests.set r ⟨kind, new⟩

/-- Neither the engine nor a request moves; a request may arrive. -/
structure Idles (before after : Discoverer) (event : DiscoverEvent) : Prop where
  engine : after.engine = before.engine
  requests : ∃ arrived, after.requests = before.requests ++ arrived
  quiet : ∀ scan, event ≠ .scan scan

theorem scans_of {before after : Discoverer} {from' : Discoverer} {event : DiscoverEvent}
    {scan : ScanEvent} (taken : scanWith join from' scan = some ((), after))
    (engine : from'.engine = before.engine) (requests : from'.requests = before.requests)
    (kind : event = .scan scan ∨ scan = .begin ∧ ∀ other, event ≠ .scan other) :
    Scans join before after event scan := by
  obtain ⟨⟨dials, next⟩, stepped', same⟩ := Option.map_eq_some_iff.mp taken
  obtain rfl := (Prod.mk.inj same).2
  refine ⟨⟨dials, ?_⟩, requests, kind⟩
  rw [← engine]
  exact stepped stepped'

theorem discover_cases {before after : Discoverer} {event : DiscoverEvent} {output : Unit}
    (taken : (discoverMachine join).step before event = some (output, after)) :
    (∃ scan, Scans join before after event scan) ∨ Serves before after event ∨
      Idles before after event := by
  simp only [discoverMachine, discoverStep] at taken
  split at taken
  · split at taken
    · cases taken
    · exact Or.inl ⟨.begin, scans_of taken rfl rfl (Or.inr ⟨rfl, by simp⟩)⟩
  · split at taken
    · split at taken
      · exact Or.inl ⟨.begin, scans_of taken rfl rfl (Or.inr ⟨rfl, by simp⟩)⟩
      · obtain rfl := next_eq taken
        exact Or.inr (Or.inr ⟨rfl, ⟨[], (List.append_nil _).symm⟩, by simp⟩)
    · cases taken
  · split at taken
    · exact Or.inl ⟨.begin, scans_of taken rfl rfl (Or.inr ⟨rfl, by simp⟩)⟩
    · cases taken
  · rename_i event
    split at taken
    · cases taken
    · exact Or.inl ⟨event, scans_of taken rfl rfl (Or.inl rfl)⟩
  · obtain rfl := next_eq taken
    exact Or.inr (Or.inr ⟨rfl, ⟨[], (List.append_nil _).symm⟩, by simp⟩)
  · obtain rfl := next_eq taken
    exact Or.inr (Or.inr ⟨rfl, ⟨_, rfl⟩, by simp⟩)
  · split at taken
    · rename_i present
      obtain rfl := next_eq taken
      exact Or.inr (Or.inl ⟨rfl, _, _, _, _, present, .load, rfl⟩)
    · cases taken
  · split at taken
    · rename_i present
      obtain rfl := next_eq taken
      exact Or.inr (Or.inl ⟨rfl, _, _, _, _, present, .notify _, rfl⟩)
    · cases taken
  · split at taken
    · rename_i present
      split at taken
      · obtain rfl := next_eq taken
        exact Or.inr (Or.inr ⟨rfl, ⟨[], (List.append_nil _).symm⟩, by simp⟩)
      · rename_i changed
        obtain rfl := next_eq taken
        exact Or.inr (Or.inl ⟨rfl, _, _, _, _, present, .changed _ changed, rfl⟩)
    · cases taken
  · split at taken
    · rename_i present
      split at taken
      · obtain rfl := next_eq taken
        exact Or.inr (Or.inl ⟨rfl, _, _, _, _, present, .expire _, rfl⟩)
      · cases taken
    · cases taken
  · split at taken
    · rename_i present
      obtain rfl := next_eq taken
      exact Or.inr (Or.inl ⟨rfl, _, _, _, _, present, .answer _, rfl⟩)
    · cases taken
  · split at taken
    · rename_i present
      obtain rfl := next_eq taken
      exact Or.inr (Or.inl ⟨rfl, _, _, _, _, present, .readReport _ _, rfl⟩)
    · cases taken

/-! Whose scan an answer is from. -/

abbrev DiscoverEntry := Entry Discoverer DiscoverEvent Unit

/-- From the start of the enumeration of a cycle to the bump of the generation; for a cycle that
finds discovery disabled, from its beginning. -/
def underWay : Phase → Bool
  | .waiting | .starting _ | .crashed => false
  | .enumerating _ | .probing _ _ _ | .rebuilding | .publishing _ | .bumping => true

/-- The enumeration of a cycle starts, or a cycle finds discovery disabled and has none. -/
def Starts (entry : DiscoverEntry) : Prop :=
  entry.event = .scan .spawn ∨
    entry.before.engine.phase = .waiting ∧ entry.after.engine.phase = .rebuilding

def Publishes (entry : DiscoverEntry) : Prop := entry.event = .scan .publish

def Started (log : List DiscoverEntry) : Prop :=
  Since (fun entry => ¬ Starts entry) (fun entry _ => Starts entry) log

/-- The catalog was published last by a cycle whose enumeration started within the log. -/
def OwnScan (catalog : Catalog) (log : List DiscoverEntry) : Prop :=
  Since (fun entry => ¬ Publishes entry)
    (fun entry before => Publishes entry ∧ entry.after.engine.catalog = catalog ∧
      Started before) log

/-- The request was answered with this catalog, which came from a scan of its own. -/
def AnsweredOwn (r : Nat) (catalog : Catalog) (log : List DiscoverEntry) : Prop :=
  Since (fun _ => True)
    (fun entry before => entry.event = .answer r ∧ entry.before.engine.catalog = catalog ∧
      OwnScan catalog before) log

theorem Started.cons {log : List DiscoverEntry} (started : Started log) (entry : DiscoverEntry) :
    Started (entry :: log) := by
  rw [Started, since_cons]
  by_cases starts : Starts entry
  · exact Or.inl starts
  · exact Or.inr ⟨starts, started⟩

theorem started_now {log : List DiscoverEntry} {entry : DiscoverEntry} (starts : Starts entry) :
    Started (entry :: log) :=
  since_cons.mpr (Or.inl starts)

theorem own_now {catalog : Catalog} {log : List DiscoverEntry} {entry : DiscoverEntry}
    (publishes : Publishes entry) (same : entry.after.engine.catalog = catalog)
    (started : Started log) : OwnScan catalog (entry :: log) :=
  since_cons.mpr (Or.inl ⟨publishes, same, started⟩)

theorem OwnScan.cons {catalog : Catalog} {log : List DiscoverEntry} {entry : DiscoverEntry}
    (own : OwnScan catalog log) (quiet : ¬ Publishes entry) : OwnScan catalog (entry :: log) :=
  since_cons.mpr (Or.inr ⟨quiet, own⟩)

theorem AnsweredOwn.cons {r : Nat} {catalog : Catalog} {log : List DiscoverEntry}
    (answered : AnsweredOwn r catalog log) (entry : DiscoverEntry) :
    AnsweredOwn r catalog (entry :: log) :=
  since_cons.mpr (Or.inr ⟨trivial, answered⟩)

/-- What is known of the engine since the generation was read as `generation`. -/
structure Fresh (generation : UInt64) (log : List DiscoverEntry) (engine : Engine) : Prop where
  started : underWay engine.phase = true → Started log
  bumping : engine.phase = .bumping → OwnScan engine.catalog log
  counter : engine.catalogGeneration = generation ∨ OwnScan engine.catalog log

theorem fresh_quiet {generation : UInt64} {log : List DiscoverEntry} {before after : Engine}
    {entry : DiscoverEntry} (fresh : Fresh generation log before) (quiet : ¬ Publishes entry)
    (catalog : after.catalog = before.catalog)
    (counter : after.catalogGeneration = before.catalogGeneration)
    (way : underWay after.phase = true → underWay before.phase = true ∨ Starts entry)
    (bumping : after.phase = .bumping → before.phase = .bumping) :
    Fresh generation (entry :: log) after := by
  constructor
  · intro under
    rcases way under with old | starts
    · exact (fresh.started old).cons entry
    · exact started_now starts
  · intro phase
    rw [catalog]
    exact (fresh.bumping (bumping phase)).cons quiet
  · rw [counter, catalog]
    exact fresh.counter.imp_right (fun own => own.cons quiet)

/-- Only two steps of a cycle change what a request looks at. -/
theorem stepped_quiet {engine next : Engine} {scan : ScanEvent} {dials : List Dial}
    (taken : Stepped join engine scan dials next) (publish : scan ≠ .publish)
    (bump : scan ≠ .bump) :
    next.catalog = engine.catalog ∧ next.catalogGeneration = engine.catalogGeneration ∧
      (underWay next.phase = true → underWay engine.phase = true ∨ scan = .spawn ∨
        engine.phase = .waiting ∧ next.phase = .rebuilding) ∧ next.phase ≠ .bumping ∨
    next.catalog = engine.catalog ∧ next.catalogGeneration = engine.catalogGeneration ∧
      next.phase = engine.phase := by
  cases taken with
  | reload config => exact Or.inr ⟨rfl, rfl, rfl⟩
  | advance elapsed => exact Or.inr ⟨rfl, rfl, rfl⟩
  | disabled phase off => simp [phase]
  | begin phase on => simp [underWay]
  | spawn phase => simp
  | enumerated attributed tcp tcp6 phase =>
      refine Or.inl ⟨rfl, rfl, fun _ => Or.inl (by rw [phase]; rfl), ?_⟩
      simp only [Engine.startProbes]
      split <;> simp
  | enumerationFailed phase => simp [underWay]
  | joined candidate exchanges phase member =>
      rw [conclude_eq]
      simp [phase, underWay]
  | joinFailed candidate exchanges phase member => simp [phase, underWay]
  | report phase => simp [phase, underWay]
  | merge phase => simp [phase, underWay]
  | publish phase => exact absurd rfl publish
  | bump phase => exact absurd rfl bump

/-- What one step of the engine preserves. -/
theorem fresh_scan {generation : UInt64} {log : List DiscoverEntry} {before after : Discoverer}
    {event : DiscoverEvent} {scan : ScanEvent} (scans : Scans join before after event scan)
    (fresh : Fresh generation log before.engine) :
    Fresh generation (⟨before, event, (), after⟩ :: log) after.engine := by
  obtain ⟨⟨dials, taken⟩, -, kind⟩ := scans
  have named (other : scan ≠ .begin) : event = .scan scan :=
    kind.resolve_right (fun begins => other begins.1)
  have quiet (other : scan ≠ .publish) : ¬ Publishes ⟨before, event, (), after⟩ := by
    intro publishes
    rcases kind with rfl | ⟨-, unlike⟩
    · exact other (DiscoverEvent.scan.inj publishes)
    · exact unlike _ publishes
  rcases before with ⟨engine, started, trigger, requests⟩
  rcases after with ⟨next, started', trigger', requests'⟩
  dsimp only at taken fresh ⊢
  by_cases published : scan = .publish
  · subst published
    have publishes := named (by simp)
    cases taken with
    | publish phase =>
        have started := fresh.started (by rw [phase]; rfl)
        exact ⟨fun _ => started.cons _, fun _ => own_now publishes rfl started,
          Or.inr (own_now publishes rfl started)⟩
  · by_cases bumped : scan = .bump
    · subst bumped
      cases taken with
      | bump phase =>
          have own := (fresh.bumping phase).cons (quiet published)
          exact ⟨by simp [underWay], by simp, Or.inr own⟩
    · rcases stepped_quiet taken published bumped with ⟨catalog, counter, way, still⟩ |
        ⟨catalog, counter, phase⟩
      · apply fresh_quiet fresh (quiet published) catalog counter
        · intro under
          rcases way under with old | spawned | off
          · exact Or.inl old
          · subst spawned
            exact Or.inr (Or.inl (named (by simp)))
          · exact Or.inr (Or.inr off)
        · exact fun bumping => absurd bumping still
      · apply fresh_quiet fresh (quiet published) catalog counter
        · rw [phase]
          exact Or.inl
        · rw [phase]
          exact id

/-- What is known of a request that read the generation. -/
def RequestStage.Agrees (generation : UInt64) (own : Prop) (answered : Catalog → Prop) :
    RequestStage → Prop
  | .arriving => False
  | .loaded before | .waiting before => before = generation
  | .leaving changed => changed = true → own
  | .reporting changed catalog | .answered changed catalog _ => changed = true → answered catalog

/-- What is known since request `r` read the generation. -/
structure Awaits (r : Nat) (generation : UInt64) (log : List DiscoverEntry) (state : Discoverer) :
    Prop where
  fresh : Fresh generation log state.engine
  request : ∃ kind stage, state.requests[r]? = some ⟨kind, stage⟩ ∧
    stage.Agrees generation (OwnScan state.engine.catalog log) (AnsweredOwn r · log)

theorem agrees_mono {generation : UInt64} {own own' : Prop} {answered answered' : Catalog → Prop}
    {stage : RequestStage} (agrees : stage.Agrees generation own answered) (kept : own → own')
    (known : ∀ catalog, answered catalog → answered' catalog) :
    stage.Agrees generation own' answered' := by
  cases stage with
  | arriving => exact agrees
  | loaded before => exact agrees
  | waiting before => exact agrees
  | leaving changed => exact fun same => kept (agrees same)
  | reporting changed catalog => exact fun same => known catalog (agrees same)
  | answered changed catalog skipped => exact fun same => known catalog (agrees same)

/-- A scan does not unsettle a request that has seen its own scan. -/
theorem own_scan_kept {generation : UInt64} {log : List DiscoverEntry} {before after : Discoverer}
    {event : DiscoverEvent} {scan : ScanEvent} (scans : Scans join before after event scan)
    (fresh : Fresh generation log before.engine) (own : OwnScan before.engine.catalog log) :
    OwnScan after.engine.catalog (⟨before, event, (), after⟩ :: log) := by
  have still : ∀ unequal, Fresh unequal log before.engine := fun unequal =>
    ⟨fresh.started, fresh.bumping, Or.inr own⟩
  -- with a generation that the counter does not have, the scan must be the request's own
  have next := fresh_scan scans (still (after.engine.catalogGeneration + 1))
  refine next.counter.resolve_left ?_
  intro same
  have wrapped := congrArg UInt64.toNat same
  rw [UInt64.toNat_add] at wrapped
  have small := after.engine.catalogGeneration.toNat_lt
  simp at wrapped
  omega

theorem request_elsewhere {requests : List DiscoverRequest} {r other : Nat}
    {request new : DiscoverRequest} (here : requests[r]? = some request) (different : other ≠ r) :
    (requests.set other new)[r]? = some request := by
  rw [List.getElem?_set_ne different]
  exact here

theorem fresh_same {generation : UInt64} {log : List DiscoverEntry} {before after : Discoverer}
    {event : DiscoverEvent} (fresh : Fresh generation log before.engine)
    (engine : after.engine = before.engine) (quiet : event ≠ .scan .publish) :
    Fresh generation (⟨before, event, (), after⟩ :: log) after.engine := by
  rw [engine]
  exact fresh_quiet fresh quiet rfl rfl Or.inl id

/-- What one move of the request preserves. -/
theorem agrees_move {r : Nat} {generation : UInt64} {log : List DiscoverEntry}
    {before after : Discoverer} {event : DiscoverEvent} {kind : DiscoverKind}
    {old new : RequestStage} (moves : Moves before.engine r kind event old new)
    (fresh : Fresh generation log before.engine) (engine : after.engine = before.engine)
    (agrees : old.Agrees generation (OwnScan before.engine.catalog log) (AnsweredOwn r · log)) :
    new.Agrees generation (OwnScan after.engine.catalog (⟨before, event, (), after⟩ :: log))
      (AnsweredOwn r · (⟨before, event, (), after⟩ :: log)) := by
  rw [engine]
  cases moves with
  | load => exact agrees.elim
  | notify before => exact agrees
  | changed before changed =>
      intro _
      have own := fresh.counter.resolve_left (fun same => changed (same.trans agrees.symm))
      exact own.cons nofun
  | expire before =>
      intro impossible
      cases impossible
  | answer changed =>
      have answered : changed = true → AnsweredOwn r before.engine.catalog
          (⟨before, .answer r, (), after⟩ :: log) :=
        fun same => since_cons.mpr (Or.inl ⟨rfl, rfl, agrees same⟩)
      unfold answerStage
      split
      · exact answered
      · exact answered
  | readReport changed catalog => exact fun same => (agrees same).cons _

theorem moves_quiet {engine : Engine} {r : Nat} {kind : DiscoverKind} {event : DiscoverEvent}
    {old new : RequestStage} (moves : Moves engine r kind event old new) :
    event ≠ .scan .publish := by
  cases moves <;> exact nofun

/-- What one step preserves. -/
theorem awaits_step {r : Nat} {generation : UInt64} {log : List DiscoverEntry}
    {before after : Discoverer} {event : DiscoverEvent}
    (taken : (discoverMachine join).step before event = some ((), after))
    (awaits : Awaits r generation log before) :
    Awaits r generation (⟨before, event, (), after⟩ :: log) after := by
  obtain ⟨fresh, kind, stage, here, agrees⟩ := awaits
  rcases discover_cases taken with ⟨scan, scans⟩ | serves | idles
  · refine ⟨fresh_scan scans fresh, kind, stage, scans.requests ▸ here, ?_⟩
    exact agrees_mono agrees (own_scan_kept scans fresh) (fun _ answered => answered.cons _)
  · obtain ⟨engine, other, otherKind, old, new, present, moves, requests⟩ := serves
    have quiet := moves_quiet moves
    refine ⟨fresh_same fresh engine quiet, ?_⟩
    by_cases same : other = r
    · subst same
      obtain ⟨rfl, rfl⟩ := DiscoverRequest.mk.inj (Option.some.inj (here.symm.trans present))
      have inside := (List.getElem?_eq_some_iff.mp here).1
      refine ⟨kind, new, ?_, agrees_move moves fresh engine agrees⟩
      rw [requests, List.getElem?_set_self inside]
    · refine ⟨kind, stage, by rw [requests, request_elsewhere here same], ?_⟩
      rw [engine]
      exact agrees_mono agrees (fun own => own.cons quiet) (fun _ answered => answered.cons _)
  · obtain ⟨engine, ⟨arrived, requests⟩, noScan⟩ := idles
    have inside := (List.getElem?_eq_some_iff.mp here).1
    refine ⟨fresh_same fresh engine (noScan _), kind, stage, ?_, ?_⟩
    · rw [requests, List.getElem?_append_left inside, here]
    · rw [engine]
      exact agrees_mono agrees (fun own => own.cons (noScan _)) (fun _ answered => answered.cons _)

theorem awaits_load {r : Nat} {load : DiscoverEntry}
    (taken : (discoverMachine join).step load.before load.event = some (load.output, load.after))
    (loads : load.event = .load r) (idle : underWay load.before.engine.phase = false) :
    Awaits r load.before.engine.catalogGeneration [] load.after := by
  rw [loads] at taken
  simp only [discoverMachine, discoverStep] at taken
  split at taken
  · rename_i kind present
    obtain ⟨-, after⟩ := Prod.mk.inj (Option.some.inj taken)
    have inside := (List.getElem?_eq_some_iff.mp present).1
    rw [← after]
    have fresh : Fresh load.before.engine.catalogGeneration [] load.before.engine := by
      refine ⟨fun under => ?_, fun bumping => ?_, Or.inl rfl⟩
      · rw [idle] at under
        cases under
      · rw [bumping] at idle
        cases idle
    exact ⟨fresh, kind, _, List.getElem?_set_self inside, rfl⟩
  · cases taken

/-- A request that reads the generation while no cycle is between the start of its enumeration and
its bump of the generation, and that returns before its deadline, is answered with the catalog of
a scan of its own. -/
theorem answered_by_own_scan {config : Config} {now r : Nat} {since earlier : List DiscoverEntry}
    {load : DiscoverEntry} {final : Discoverer} {kind : DiscoverKind} {catalog : Catalog}
    {skipped : Option (List Skipped)}
    (run : Run (discoverMachine join) (.start config now) (since ++ load :: earlier) final)
    (loads : load.event = .load r) (idle : underWay load.before.engine.phase = false)
    (answered : final.requests[r]? = some ⟨kind, .answered true catalog skipped⟩) :
    AnsweredOwn r catalog since := by
  have awaits := run.invariant_since (Awaits r load.before.engine.catalogGeneration)
    (fun _ => True) (fun _ _ => trivial) ?first ?kept
  case first =>
    intro middle run
    cases run with
    | step before taken => exact awaits_load taken loads idle
  case kept =>
    intro newer before event output after taken _ awaits
    exact awaits_step taken awaits
  obtain ⟨kind', stage, here, agrees⟩ := awaits.request
  obtain ⟨rfl, rfl⟩ := DiscoverRequest.mk.inj (Option.some.inj (answered.symm.trans here))
  exact agrees rfl

/-- An answer from a scan of its own comes after the start of an enumeration. -/
theorem AnsweredOwn.starts {r : Nat} {catalog : Catalog} {log : List DiscoverEntry}
    (answered : AnsweredOwn r catalog log) : ∃ entry ∈ log, Starts entry := by
  obtain ⟨later, answer, between, rfl, ⟨-, -, own⟩, -⟩ := answered
  obtain ⟨quiet, publish, before, rfl, ⟨-, -, started⟩, -⟩ := own
  obtain ⟨_, start, _, rfl, starts, -⟩ := started
  exact ⟨start, by simp, starts⟩

/-! A request beside the first scan. -/

instance (entry : DiscoverEntry) : Decidable (Starts entry) :=
  inferInstanceAs (Decidable (_ ∨ _))

def enumerates : List DiscoverEvent := [.scan .spawn, .scan (.enumerated [] none none)]

/-- What follows the enumeration of a cycle that finds no listeners. -/
def completes : List DiscoverEvent :=
  [.scan .report, .scan .merge, .scan .publish, .scan .bump]

def asks : List DiscoverEvent := [.arrive .hub, .load 0, .notify 0]

def answers : List DiscoverEvent := [.poll 0, .answer 0]

/-- A request between two scans waits for the one that it triggers. -/
theorem triggered_scan_answers : ∃ since earlier load final catalog,
    Run (discoverMachine noUrls) (.start .default 0) (since ++ load :: earlier) final ∧
      load.event = .load 0 ∧ underWay load.before.engine.phase = false ∧
      final.requests[0]? = some ⟨.hub, .answered true catalog none⟩ ∧
      AnsweredOwn 0 catalog since := by
  obtain ⟨history, final, -, run, load, answered⟩ := exec_checked
    (discoverMachine noUrls) (.start .default 0)
    (.firstScan :: (enumerates ++ completes ++ asks ++
      .pollTrigger :: (enumerates ++ completes ++ answers)))
    (fun history final =>
      history[10]?.any (fun load =>
        load.event = .load 0 ∧ underWay load.before.engine.phase = false) ∧
      final.requests[0]? = some ⟨.hub, .answered true final.engine.catalog none⟩)
    (by decide +kernel)
  obtain ⟨load, -, cut, loads, idle⟩ := cut_at load
  rw [cut] at run
  exact ⟨_, _, load, final, _, run, loads, idle, answered,
    answered_by_own_scan run loads idle answered⟩

/-- A request that arrives while the first scan, past its enumeration, is not done is answered with
the catalog of that scan. -/
theorem scan_in_flight_answers : ∃ since earlier load final catalog,
    Run (discoverMachine noUrls) (.start .default 0) (since ++ load :: earlier) final ∧
      load.event = .load 0 ∧
      final.requests[0]? = some ⟨.hub, .answered true catalog none⟩ ∧
      (∀ entry ∈ since, ¬ Starts entry) ∧ ¬ AnsweredOwn 0 catalog since := by
  obtain ⟨history, final, -, run, load, answered, none⟩ := exec_checked
    (discoverMachine noUrls) (.start .default 0)
    (.firstScan :: (enumerates ++ asks ++ completes ++ answers))
    (fun history final =>
      history[7]?.any (fun load => load.event = .load 0) ∧
      final.requests[0]? = some ⟨.hub, .answered true final.engine.catalog none⟩ ∧
      ∀ entry ∈ history.take 7, ¬ Starts entry)
    (by decide +kernel)
  obtain ⟨load, -, cut, loads⟩ := cut_at load
  rw [cut] at run
  refine ⟨_, _, load, final, _, run, loads, answered, none, ?_⟩
  intro own
  obtain ⟨entry, member, starts⟩ := own.starts
  exact none entry member starts

end RaemoteServer.Discovery
