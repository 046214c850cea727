import Mathlib.Data.List.Basic
import Mathlib.Order.Basic
import Mathlib.Tactic.Common

/-! Systems that take one step after another. All nondeterminism (the scheduler, the
clock, the environment) is in the events, so a run is fixed by its list of events. -/

namespace Runs

structure Machine (State Event Output : Type) where
  /-- `none` when the event is not enabled in the state. -/
  step : State → Event → Option (Output × State)

structure Entry (State Event Output : Type) where
  before : State
  event : Event
  output : Output
  after : State

/-- What happened so far, newest first. -/
abbrev History (State Event Output : Type) := List (Entry State Event Output)

variable {State Event Output : Type}

inductive Run (machine : Machine State Event Output) (start : State) :
    History State Event Output → State → Prop
  | start : Run machine start [] start
  | step {history : History State Event Output} {before after : State} {event : Event}
      {output : Output} (earlier : Run machine start history before)
      (taken : machine.step before event = some (output, after)) :
      Run machine start (⟨before, event, output, after⟩ :: history) after

/-- Takes the events in order on top of a history; `none` at the first one not enabled. -/
def Machine.exec (machine : Machine State Event Output) (history : History State Event Output)
    (state : State) : List Event → Option (History State Event Output × State)
  | [] => some (history, state)
  | event :: rest =>
      match machine.step state event with
      | none => none
      | some (output, next) => machine.exec (⟨state, event, output, next⟩ :: history) next rest

variable {machine : Machine State Event Output} {start final : State}
  {history : History State Event Output}

theorem exec_run {events : List Event} {state : State} {longer : History State Event Output}
    (run : Run machine start history state)
    (executed : machine.exec history state events = some (longer, final)) :
    Run machine start longer final := by
  induction events generalizing history state with
  | nil =>
      simp only [Machine.exec, Option.some.injEq, Prod.mk.injEq] at executed
      obtain ⟨rfl, rfl⟩ := executed
      exact run
  | cons event rest ih =>
      cases taken : machine.step state event with
      | none => simp [Machine.exec, taken] at executed
      | some result =>
          obtain ⟨output, next⟩ := result
          simp only [Machine.exec, taken] at executed
          exact ih (run.step taken) executed

theorem exec_events {events : List Event} {state : State} {longer : History State Event Output}
    (executed : machine.exec history state events = some (longer, final)) :
    longer.map Entry.event = events.reverse ++ history.map Entry.event := by
  induction events generalizing history state with
  | nil =>
      simp only [Machine.exec, Option.some.injEq, Prod.mk.injEq] at executed
      obtain ⟨rfl, rfl⟩ := executed
      rfl
  | cons event rest ih =>
      cases taken : machine.step state event with
      | none => simp [Machine.exec, taken] at executed
      | some result =>
          obtain ⟨output, next⟩ := result
          simp only [Machine.exec, taken] at executed
          rw [ih executed, List.reverse_cons, List.append_assoc]
          rfl

/-- A list of events that can be taken in order is a run, with what was checked of it. -/
theorem exec_checked (machine : Machine State Event Output) (start : State) (events : List Event)
    (check : History State Event Output → State → Prop)
    [∀ history final, Decidable (check history final)]
    (passed : (machine.exec [] start events).any (fun result => decide (check result.1 result.2))) :
    ∃ history final, machine.exec [] start events = some (history, final) ∧
      Run machine start history final ∧ check history final := by
  obtain ⟨⟨history, final⟩, executed, checked⟩ := (Option.any_eq_true _ _).mp passed
  exact ⟨history, final, executed, exec_run .start executed, of_decide_eq_true checked⟩

/-- The state that a step is written to lead to. -/
theorem next_eq {output output' : Output} {next next' : State}
    (taken : some (output, next) = some (output', next')) : next = next' :=
  (Prod.mk.inj (Option.some.inj taken)).2

/-- Runs taken apart at one of their entries. -/
theorem Run.split {later earlier : History State Event Output} {entry : Entry State Event Output}
    (run : Run machine start (later ++ entry :: earlier) final) :
    Run machine start earlier entry.before ∧
      machine.step entry.before entry.event = some (entry.output, entry.after) := by
  induction later generalizing final with
  | nil =>
      cases run with
      | step before taken => exact ⟨before, taken⟩
  | cons head tail ih =>
      cases run with
      | step before taken => exact ih before

theorem Run.earlier {later earlier : History State Event Output}
    (run : Run machine start (later ++ earlier) final) :
    ∃ middle, Run machine start earlier middle := by
  induction later generalizing final with
  | nil => exact ⟨final, run⟩
  | cons head tail ih =>
      cases run with
      | step before taken => exact ih before

theorem Run.taken {entry : Entry State Event Output} (run : Run machine start history final)
    (member : entry ∈ history) :
    machine.step entry.before entry.event = some (entry.output, entry.after) := by
  obtain ⟨later, earlier, rfl⟩ := List.append_of_mem member
  exact run.split.2

/-- A history tells where its run ends. -/
theorem Run.same_end {other : State} (run : Run machine start history final)
    (again : Run machine start history other) : final = other := by
  cases run with
  | start => cases again with
    | start => rfl
  | step earlier taken => cases again with
    | step earlier' taken' => rfl

/-- What holds at the start and is kept by every allowed step holds at the end of every run
of allowed steps. -/
theorem Run.invariant_of_allowed (inv : State → Prop) (allowed : Entry State Event Output → Prop)
    (run : Run machine start history final) (every : ∀ entry ∈ history, allowed entry)
    (base : inv start)
    (kept : ∀ before event output after, machine.step before event = some (output, after) →
      allowed ⟨before, event, output, after⟩ → inv before → inv after) : inv final := by
  induction run with
  | start => exact base
  | step earlier taken ih =>
      have before := ih (fun entry member => every entry (List.mem_cons_of_mem _ member))
      exact kept _ _ _ _ taken (every _ List.mem_cons_self) before

theorem Run.invariant (inv : State → Prop) (run : Run machine start history final)
    (base : inv start)
    (kept : ∀ before event output after, machine.step before event = some (output, after) →
      inv before → inv after) : inv final :=
  run.invariant_of_allowed inv (fun _ => True) (fun _ _ => trivial) base
    (fun before event output after taken _ => kept before event output after taken)

/-- What holds when a history ends and is kept by every allowed step that follows, of the state
and of what has happened since. -/
theorem Run.invariant_since {log base : History State Event Output}
    (inv : History State Event Output → State → Prop) (allowed : Entry State Event Output → Prop)
    (run : Run machine start (log ++ base) final) (every : ∀ entry ∈ log, allowed entry)
    (first : ∀ middle, Run machine start base middle → inv [] middle)
    (kept : ∀ newer before event output after,
      machine.step before event = some (output, after) → allowed ⟨before, event, output, after⟩ →
        inv newer before → inv (⟨before, event, output, after⟩ :: newer) after) :
            inv log final := by
  induction log generalizing final with
  | nil => exact first final run
  | cons entry rest ih =>
      cases run with
      | step before taken =>
          have old := ih before (fun entry member => every entry (List.mem_cons_of_mem _ member))
          exact kept _ _ _ _ _ taken (every _ List.mem_cons_self) old

/-- A measure that no allowed step lowers was after every step at most what it is at the
end. -/
theorem Run.le_final {Value : Type} [Preorder Value] (measure : State → Value)
    (allowed : Entry State Event Output → Prop)
    (run : Run machine start history final) (every : ∀ entry ∈ history, allowed entry)
    (kept : ∀ before event output after, machine.step before event = some (output, after) →
      allowed ⟨before, event, output, after⟩ → measure before ≤ measure after)
    {entry : Entry State Event Output} (member : entry ∈ history) :
    measure entry.after ≤ measure final := by
  induction run with
  | start => cases member
  | step earlier taken ih =>
      have last := kept _ _ _ _ taken (every _ List.mem_cons_self)
      rcases List.mem_cons.mp member with rfl | old
      · exact le_refl _
      · exact le_trans (ih (fun entry inside => every entry (List.mem_cons_of_mem _ inside)) old)
          last

theorem Run.trans {later : History State Event Output} {middle : State}
    (first : Run machine start history middle) (second : Run machine middle later final) :
    Run machine start (later ++ history) final := by
  induction second with
  | start => exact first
  | step earlier taken ih => exact ih.step taken

/-- A machine that answers every allowed step of another with steps of its own follows its runs. -/
theorem Run.followed {State' Event' Output' : Type} {machine' : Machine State' Event' Output'}
    {start' : State'} (related : State → State' → Prop)
    (allowed : Entry State Event Output → Prop)
    (run : Run machine start history final) (every : ∀ entry ∈ history, allowed entry)
    (base : related start start')
    (answers : ∀ before event output after before',
      machine.step before event = some (output, after) → allowed ⟨before, event, output, after⟩ →
      related before before' →
        ∃ steps after', Run machine' before' steps after' ∧ related after after') :
    ∃ history' final', Run machine' start' history' final' ∧ related final final' := by
  induction run with
  | start => exact ⟨[], start', .start, base⟩
  | step earlier taken ih =>
      obtain ⟨older, before', run', kept⟩ :=
        ih (fun entry member => every entry (List.mem_cons_of_mem _ member))
      obtain ⟨steps, after', more, next⟩ :=
        answers _ _ _ _ before' taken (every _ List.mem_cons_self) kept
      exact ⟨steps ++ older, after', run'.trans more, next⟩

/-! What a run does to a part of the state. -/

section

variable {State' Event' Output' : Type} (view : State → State')
  (label : Entry State Event Output → Option (Event' × Output'))

/-- The steps of the part. -/
def projection (history : History State Event Output) : History State' Event' Output' :=
  history.filterMap (fun entry => (label entry).map
    (fun step => ⟨view entry.before, step.1, step.2, view entry.after⟩))

/-- Every step is one of the part, or it leaves the part alone. -/
def Projects (machine : Machine State Event Output) (machine' : Machine State' Event' Output') :
    Prop :=
  ∀ before event output after, machine.step before event = some (output, after) →
    match label ⟨before, event, output, after⟩ with
    | some (event', output') => machine'.step (view before) event' = some (output', view after)
    | none => view after = view before

variable {view label}

theorem Run.projected {machine' : Machine State' Event' Output'}
    (projects : Projects view label machine machine') (run : Run machine start history final) :
    Run machine' (view start) (projection view label history) (view final) := by
  induction run with
  | start => exact .start
  | @step history before after event output earlier taken ih =>
      have moved := projects before event output after taken
      cases labelled : label ⟨before, event, output, after⟩ with
      | none =>
          rw [labelled] at moved
          rw [projection, List.filterMap_cons, labelled, moved]
          exact ih
      | some step =>
          rw [labelled] at moved
          rw [projection, List.filterMap_cons, labelled]
          exact ih.step moved

end

/-! Past-time statements about a history. -/

variable {α β : Type}

/-- A value that no two entries carry is carried at one position. -/
theorem position_unique {carried : α → Option β} {history : List α}
    (distinct : (history.filterMap carried).Nodup) {i j : Nat} {first second : α} {value : β}
    (atFirst : history[i]? = some first) (atSecond : history[j]? = some second)
    (carriesFirst : carried first = some value) (carriesSecond : carried second = some value) :
    i = j := by
  induction history generalizing i j with
  | nil => simp at atFirst
  | cons head tail ih =>
      have absent {k : Nat} {entry : α} (here : carried head = some value)
          (later : tail[k]? = some entry) (carries : carried entry = some value) : False := by
        rw [List.filterMap_cons_some here, List.nodup_cons] at distinct
        exact distinct.1 (List.mem_filterMap.mpr ⟨entry, List.mem_of_getElem? later, carries⟩)
      have rest : (tail.filterMap carried).Nodup :=
        distinct.sublist ((List.sublist_cons_self head tail).filterMap carried)
      cases i with
      | zero =>
          obtain rfl := Option.some.inj atFirst
          cases j with
          | zero => rfl
          | succ k => exact (absent carriesFirst atSecond carriesSecond).elim
      | succ k =>
          cases j with
          | zero =>
              obtain rfl := Option.some.inj atSecond
              exact (absent carriesSecond atFirst carriesFirst).elim
          | succ l => rw [ih rest atFirst atSecond]

theorem eq_take_cons_drop {history : List α} {i : Nat} {entry : α}
    (here : history[i]? = some entry) :
    history = history.take i ++ entry :: history.drop (i + 1) := by
  obtain ⟨inside, rfl⟩ := List.getElem?_eq_some_iff.mp here
  rw [← List.drop_eq_getElem_cons inside, List.take_append_drop]

/-- The entry at a position, with what was checked of it. -/
theorem cut_at {history : List α} {i : Nat} {check : α → Prop} [DecidablePred check]
    (checked : history[i]?.any (fun entry => decide (check entry)) = true) :
    ∃ entry, history[i]? = some entry ∧
      history = history.take i ++ entry :: history.drop (i + 1) ∧ check entry := by
  obtain ⟨entry, here, passed⟩ := (Option.any_eq_true _ _).mp checked
  exact ⟨entry, here, eq_take_cons_drop here, of_decide_eq_true passed⟩

/-- Some entry is marked (judged with what came before it), and every entry after it keeps. -/
def Since (keeps : α → Prop) (marks : α → List α → Prop) (history : List α) : Prop :=
  ∃ later entry earlier, history = later ++ entry :: earlier ∧ marks entry earlier ∧
    ∀ next ∈ later, keeps next

theorem since_nil (keeps : α → Prop) (marks : α → List α → Prop) : ¬ Since keeps marks [] := by
  rintro ⟨later, entry, earlier, shape, -⟩
  simp at shape

theorem since_cons {keeps : α → Prop} {marks : α → List α → Prop} {newest : α} {history : List α} :
    Since keeps marks (newest :: history) ↔
      marks newest history ∨ keeps newest ∧ Since keeps marks history := by
  constructor
  · rintro ⟨later, entry, earlier, shape, marked, kept⟩
    cases later with
    | nil =>
        obtain ⟨rfl, rfl⟩ := List.cons.inj shape
        exact Or.inl marked
    | cons head tail =>
        obtain ⟨rfl, rfl⟩ := List.cons.inj shape
        exact Or.inr ⟨kept _ List.mem_cons_self,
          tail, entry, earlier, rfl, marked,
          fun next member => kept next (List.mem_cons_of_mem _ member)⟩
  · rintro (marked | ⟨kept, later, entry, earlier, rfl, marked, rest⟩)
    · exact ⟨[], newest, history, rfl, marked, by simp⟩
    · refine ⟨newest :: later, entry, earlier, rfl, marked, ?_⟩
      intro next member
      rcases List.mem_cons.mp member with rfl | old
      · exact kept
      · exact rest next old

/-- Of the entries that are marked there is a newest one. -/
theorem since_of_mem {marks : α → Prop} {history : List α} {entry : α} (member : entry ∈ history)
    (marked : marks entry) :
    Since (fun next => ¬ marks next) (fun entry _ => marks entry) history := by
  induction history with
  | nil => cases member
  | cons newest history ih =>
      rw [since_cons]
      by_cases here : marks newest
      · exact Or.inl here
      · rcases List.mem_cons.mp member with rfl | old
        · exact absurd marked here
        · exact Or.inr ⟨here, ih old⟩

/-- With marks that do not look at the past. -/
theorem since_append {keeps marks : α → Prop} {front back : List α} :
    Since keeps (fun entry _ => marks entry) (front ++ back) ↔
      Since keeps (fun entry _ => marks entry) front ∨
        (∀ entry ∈ front, keeps entry) ∧ Since keeps (fun entry _ => marks entry) back := by
  induction front with
  | nil => simp [since_nil]
  | cons head tail ih =>
      rw [List.cons_append, since_cons, since_cons, ih, List.forall_mem_cons]
      tauto

theorem Since.mono {keeps keeps' : α → Prop} {marks marks' : α → List α → Prop} {history : List α}
    (since : Since keeps marks history) (kept : ∀ entry, keeps entry → keeps' entry)
    (marked : ∀ entry earlier, marks entry earlier → marks' entry earlier) :
    Since keeps' marks' history := by
  obtain ⟨later, entry, earlier, shape, mark, rest⟩ := since
  exact ⟨later, entry, earlier, shape, marked entry earlier mark,
    fun next member => kept next (rest next member)⟩

/-- If nothing that is marked keeps, two ways to mark mark the same entry. -/
theorem Since.both {keeps : α → Prop} {marks marks' : α → List α → Prop} {history : List α}
    (since : Since keeps marks history) (other : Since keeps marks' history)
    (ends : ∀ entry earlier, marks entry earlier → ¬ keeps entry)
    (ends' : ∀ entry earlier, marks' entry earlier → ¬ keeps entry) :
    Since keeps (fun entry earlier => marks entry earlier ∧ marks' entry earlier) history := by
  induction history with
  | nil => exact (since_nil _ _ since).elim
  | cons newest history ih =>
      rw [since_cons] at since other ⊢
      rcases since with mark | ⟨kept, since⟩
      · rcases other with mark' | ⟨kept, -⟩
        · exact Or.inl ⟨mark, mark'⟩
        · exact (ends newest history mark kept).elim
      · rcases other with mark' | ⟨-, other⟩
        · exact (ends' newest history mark' kept).elim
        · exact Or.inr ⟨kept, ih since other⟩

end Runs
