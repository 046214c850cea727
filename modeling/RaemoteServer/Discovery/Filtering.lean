import RaemoteServer.Discovery.Listener
import RaemoteServer.Library.Sorting

/-! How the filter classifies the sockets of a table, and how far the order of the table matters. -/

namespace RaemoteServer.Discovery

open Text Collections Net Sorting
open scoped List

/-! The tests, in the order in which they are made. -/

def filterTests : List SkipReason :=
  [.belowMinPort, .excludedPort, .excludedProcess, .notLocalBind, .excludedOrigin]

/-- A socket fails the test that has this reason. -/
def ListenerFilter.Fails (filter : ListenerFilter) (l : Listener) : SkipReason → Prop
  | .belowMinPort => l.socket.port < filter.minPort
  | .excludedPort => l.socket.port ∈ filter.excludePorts
  | .excludedProcess =>
      ∃ name, l.processName = some name ∧ asciiLower name ∈ filter.excludeProcesses
  | .notLocalBind => filter.loopbackOnly = true ∧ isLocalBind l.socket = false
  | .excludedOrigin => l.origin ∈ filter.excludeOrigins
  | _ => False

def ListenerFilter.PassesAll (filter : ListenerFilter) (l : Listener) : Prop :=
  ∀ test ∈ filterTests, ¬ filter.Fails l test

def ListenerFilter.FirstFailed (filter : ListenerFilter) (l : Listener)
    (reason : SkipReason) : Prop :=
  ∃ before after, filterTests = before ++ reason :: after ∧ filter.Fails l reason ∧
    ∀ test ∈ before, ¬ filter.Fails l test

/-- The reason is that of the first test that fails. -/
theorem refusal_spec (filter : ListenerFilter) (l : Listener) :
    match filter.refusal l with
    | some reason => filter.FirstFailed l reason
    | none => filter.PassesAll l := by
  have process : l.processName.any (fun name => asciiLower name ∈ filter.excludeProcesses) = true ↔
      filter.Fails l .excludedProcess := by
    simp [ListenerFilter.Fails, Option.any_eq_true]
  have bind : (filter.loopbackOnly && !isLocalBind l.socket) = true ↔
      filter.Fails l .notLocalBind := by
    simp [ListenerFilter.Fails]
  unfold ListenerFilter.refusal
  by_cases low : l.socket.port < filter.minPort
  · rw [if_pos low]
    exact ⟨[], _, rfl, low, List.forall_mem_nil _⟩
  have port : ¬ filter.Fails l .belowMinPort := low
  rw [if_neg low]
  by_cases listed : l.socket.port ∈ filter.excludePorts
  · rw [if_pos listed]
    exact ⟨[.belowMinPort], _, rfl, listed, by simpa using port⟩
  have allowed : ¬ filter.Fails l .excludedPort := listed
  rw [if_neg listed]
  by_cases named : filter.Fails l .excludedProcess
  · rw [if_pos (process.mpr named)]
    exact ⟨[.belowMinPort, .excludedPort], _, rfl, named, by simpa using ⟨port, allowed⟩⟩
  rw [if_neg (process.not.mpr named)]
  by_cases specific : filter.Fails l .notLocalBind
  · rw [if_pos (bind.mpr specific)]
    exact ⟨[.belowMinPort, .excludedPort, .excludedProcess], _, rfl, specific,
      by simpa using ⟨port, allowed, named⟩⟩
  rw [if_neg (bind.not.mpr specific)]
  by_cases hidden : l.origin ∈ filter.excludeOrigins
  · rw [if_pos hidden]
    exact ⟨[.belowMinPort, .excludedPort, .excludedProcess, .notLocalBind], _, rfl, hidden,
      by simpa using ⟨port, allowed, named, specific⟩⟩
  rw [if_neg hidden]
  simpa [ListenerFilter.PassesAll, filterTests] using ⟨port, allowed, named, specific, hidden⟩

theorem refusal_eq_none {filter : ListenerFilter} {l : Listener} :
    filter.refusal l = none ↔ filter.PassesAll l := by
  have spec := refusal_spec filter l
  cases refused : filter.refusal l with
  | none =>
      rw [refused] at spec
      exact ⟨fun _ => spec, fun _ => rfl⟩
  | some reason =>
      rw [refused] at spec
      obtain ⟨before, after, shape, fails, -⟩ := spec
      constructor
      · intro absent
        cases absent
      · intro passes
        exact (passes reason (shape ▸ List.mem_append_right _ List.mem_cons_self) fails).elim

theorem firstFailed_of_refusal {filter : ListenerFilter} {l : Listener} {reason : SkipReason}
    (refused : filter.refusal l = some reason) : filter.FirstFailed l reason := by
  have spec := refusal_spec filter l
  rwa [refused] at spec

/-! One row after another. -/

/-- The verdict on a row, given the considered rows before it. -/
def ListenerFilter.Judged (filter : ListenerFilter) (earlier : List Listener) (l : Listener) :
    Fate → Prop
  | .admitted candidate => candidate = l.candidate ∧ filter.PassesAll l ∧
      ∀ other ∈ earlier, filter.PassesAll other → other.origin ≠ l.origin
  | .reported entry => ∃ reason, entry = l.skip reason ∧
      (filter.FirstFailed l reason ∨ reason = .duplicate ∧ filter.PassesAll l ∧
        ∃ other ∈ earlier, filter.PassesAll other ∧ other.origin = l.origin)

/-- The origins of the rows so far that passed all tests have been seen. -/
def ListenerFilter.Seen (filter : ListenerFilter) (earlier : List Listener)
    (seen : HashSet Origin) :
    Prop :=
  ∀ origin, origin ∈ seen ↔ ∃ other ∈ earlier, filter.PassesAll other ∧ other.origin = origin

theorem fate_judged {filter : ListenerFilter} {earlier : List Listener} {seen : HashSet Origin}
    (known : filter.Seen earlier seen) (l : Listener) :
    filter.Judged earlier l (filter.fate seen l) := by
  unfold ListenerFilter.fate
  cases refused : filter.refusal l with
  | some reason => exact ⟨reason, rfl, Or.inl (firstFailed_of_refusal refused)⟩
  | none =>
      have passes := refusal_eq_none.mp refused
      dsimp only
      split
      · rename_i old
        exact ⟨.duplicate, rfl, Or.inr ⟨rfl, passes, (known l.origin).mp old⟩⟩
      · rename_i new
        refine ⟨rfl, passes, ?_⟩
        intro other inside also same
        exact new ((known l.origin).mpr ⟨other, inside, also, same⟩)

/-- The origins that have been seen after a considered row. -/
def ListenerFilter.seenAfter (filter : ListenerFilter) (seen : HashSet Origin) (l : Listener) :
    HashSet Origin :=
  if filter.refusal l = none then seen.insert l.origin else seen

theorem mem_seenAfter {filter : ListenerFilter} {seen : HashSet Origin} {l : Listener}
    {origin : Origin} : origin ∈ filter.seenAfter seen l ↔
      origin ∈ seen ∨ filter.PassesAll l ∧ l.origin = origin := by
  unfold ListenerFilter.seenAfter
  by_cases passed : filter.refusal l = none
  · rw [if_pos passed, HashSet.mem_insert, or_comm, eq_comm]
    simp only [refusal_eq_none.mp passed, true_and]
  · rw [if_neg passed]
    simp only [refusal_eq_none.not.mp passed, false_and, or_false]

theorem fates_cons (filter : ListenerFilter) (seen : HashSet Origin) (l : Listener)
    (rest : List Listener) : filter.fates seen (l :: rest) =
      if l.considered then (l, filter.fate seen l) :: filter.fates (filter.seenAfter seen l) rest
      else filter.fates seen rest := by
  rw [ListenerFilter.fates]
  cases l.considered with
  | false => rfl
  | true =>
      simp only [ListenerFilter.fate, ListenerFilter.seenAfter, Bool.not_true, if_true]
      cases filter.refusal l with
      | some reason => rfl
      | none =>
          by_cases repeated : l.origin ∈ seen
          · simp [repeated, seen.insert_of_mem repeated]
          · simp [repeated]

theorem seen_after {filter : ListenerFilter} {earlier : List Listener} {seen : HashSet Origin}
    (known : filter.Seen earlier seen) (l : Listener) :
    filter.Seen (earlier ++ [l]) (filter.seenAfter seen l) := by
  intro origin
  rw [mem_seenAfter, known origin]
  simp only [List.mem_append, List.mem_singleton, or_and_right, exists_or, exists_eq_left]

/-- Every considered row is judged by what came before it. -/
theorem fates_judged {filter : ListenerFilter} {earlier : List Listener} {seen : HashSet Origin}
    (known : filter.Seen earlier seen) {all : List Listener}
    {before after : List (Listener × Fate)} {l : Listener} {fate : Fate}
    (shape : filter.fates seen all = before ++ (l, fate) :: after) :
    filter.Judged (earlier ++ before.map Prod.fst) l fate := by
  induction all generalizing earlier seen before with
  | nil =>
      rw [ListenerFilter.fates] at shape
      simp at shape
  | cons head rest ih =>
      rw [fates_cons] at shape
      split at shape
      · cases before with
        | nil =>
            obtain ⟨same, -⟩ := List.cons.inj shape
            obtain ⟨rfl, rfl⟩ := Prod.mk.inj same
            simpa using fate_judged known head
        | cons first others =>
            obtain ⟨rfl, tail⟩ := List.cons.inj shape
            simpa using ih (seen_after known head) tail
      · exact ih known shape

/-- The verdicts are one for each considered row of the table, in its order; what comes out are the
verdicts, sorted. -/
structure Classification (filter : ListenerFilter) (all : List Listener) (outcome : FilterOutcome)
    (verdicts : List (Listener × Fate)) : Prop where
  rows : verdicts.map Prod.fst = all.filter Listener.considered
  candidates : outcome.candidates ~ verdicts.filterMap (·.2.candidate)
  skipped : outcome.skipped ~ verdicts.filterMap (·.2.report)
  judged : ∀ before l fate after, verdicts = before ++ (l, fate) :: after →
    filter.Judged (before.map Prod.fst) l fate

theorem classification (filter : ListenerFilter) (all : List Listener) :
    Classification filter all (filterListenersDetailed all filter) (filter.verdicts all) where
  rows := fates_considered filter .empty all
  candidates := candidates_perm filter all
  skipped := skipped_perm filter all
  judged := by
    intro before l fate after shape
    have none : filter.Seen [] .empty := by simp [ListenerFilter.Seen]
    exact fates_judged none shape

theorem count_fates (rows : List (Listener × Fate)) :
    rows.length =
      (rows.filterMap (·.2.candidate)).length + (rows.filterMap (·.2.report)).length := by
  induction rows with
  | nil => rfl
  | cons row rest ih =>
      obtain ⟨l, fate⟩ := row
      cases fate with
      | reported entry => simp [List.filterMap_cons, ih, Nat.add_assoc]
      | admitted candidate =>
          simp [List.filterMap_cons, ih]
          omega

/-- A verdict admits the origins that have been seen after it and not before. -/
theorem mem_seenAfter_iff_admitted (filter : ListenerFilter) (seen : HashSet Origin) (l : Listener)
    (origin : Origin) : origin ∈ filter.seenAfter seen l ↔
      origin ∈ seen ∨ (filter.fate seen l).candidate.map Candidate.origin = some origin := by
  unfold ListenerFilter.seenAfter ListenerFilter.fate
  cases filter.refusal l with
  | some reason => simp
  | none =>
      by_cases old : l.origin ∈ seen
      · simp [old, HashSet.insert_of_mem]
      · simp [old, Listener.candidate, eq_comm, or_comm]

theorem mem_admitted (filter : ListenerFilter) (seen : HashSet Origin) (all : List Listener)
    (origin : Origin) :
    origin ∈ seen ∨ origin ∈ ((filter.fates seen all).filterMap (·.2.candidate)).map
      Candidate.origin ↔
      origin ∈ seen ∨
        ∃ l ∈ all, l.considered = true ∧ filter.PassesAll l ∧ l.origin = origin := by
  induction all generalizing seen with
  | nil => simp [ListenerFilter.fates]
  | cons head rest ih =>
      rw [fates_cons]
      by_cases counted : head.considered = true
      · have here := mem_seenAfter_iff_admitted filter seen head origin
        have later := ih (filter.seenAfter seen head)
        have tests := @mem_seenAfter filter seen head origin
        rw [here] at later tests
        rw [if_pos counted]
        simp only [List.exists_mem_cons_iff, counted, true_and]
        cases found : (filter.fate seen head).candidate with
        | none =>
            simp only [found, Option.map_none, reduceCtorEq, or_false] at later tests
            simp only [List.filterMap_cons, found]
            rw [later, ← or_assoc, ← tests]
        | some candidate =>
            simp only [found, Option.map_some, Option.some.injEq] at later tests
            simp only [List.filterMap_cons, found, List.map_cons, List.mem_cons]
            rw [@eq_comm _ origin, ← or_assoc, later, tests, or_assoc]
      · simpa [counted] using ih seen

/-- The origins of the candidates are those of the considered rows that pass all tests. -/
theorem mem_candidate_origins {filter : ListenerFilter} {all : List Listener} {origin : Origin} :
    origin ∈ (filterListenersDetailed all filter).candidates.map Candidate.origin ↔
      ∃ l ∈ all, l.considered = true ∧ filter.PassesAll l ∧ l.origin = origin := by
  have found := mem_admitted filter .empty all origin
  simp only [HashSet.not_mem_empty, false_or] at found
  rw [((candidates_perm filter all).map Candidate.origin).mem_iff]
  exact found

/-- Every listening TCP socket with a port becomes a candidate or a report, and for the reason that
the tests give. -/
theorem filter_classifies (filter : ListenerFilter) (all : List Listener) :
    (all.filter Listener.considered).length =
        (filterListenersDetailed all filter).candidates.length +
          (filterListenersDetailed all filter).skipped.length ∧
      ((filterListenersDetailed all filter).candidates.map Candidate.origin).Nodup ∧
      (∀ candidate ∈ (filterListenersDetailed all filter).candidates,
        ∃ l ∈ all, l.considered = true ∧ filter.PassesAll l ∧ candidate = l.candidate) ∧
      (∀ l ∈ all, l.considered = true → filter.PassesAll l →
        l.origin ∈ (filterListenersDetailed all filter).candidates.map Candidate.origin) ∧
      ∃ verdicts, Classification filter all (filterListenersDetailed all filter) verdicts := by
  have classified := classification filter all
  refine ⟨?_, candidates_nodup filter all, ?_, ?_, filter.verdicts all, classified⟩
  · rw [← classified.rows, List.length_map, count_fates, classified.candidates.length_eq,
      classified.skipped.length_eq]
  · intro candidate member
    obtain ⟨l, inside, counted, passed, same⟩ := candidate_passed member
    exact ⟨l, inside, counted, refusal_eq_none.mp passed, same⟩
  · intro l member counted passes
    exact mem_candidate_origins.mpr ⟨l, member, counted, passes, rfl⟩

end RaemoteServer.Discovery
