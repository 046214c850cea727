import RaemoteServer.Discovery.Filtering

/-! How far the result of filtering depends on the order of the table. -/

namespace RaemoteServer.Discovery

open Text Collections Net Sorting
open scoped List

/-! The verdicts without their rows. -/

def ListenerFilter.outcomes (filter : ListenerFilter) (seen : HashSet Origin)
    (all : List Listener) : List Fate :=
  (filter.fates seen all).map Prod.snd

/-- The origins that have been seen after the rows. -/
def ListenerFilter.seenAll (filter : ListenerFilter) (seen : HashSet Origin)
    (all : List Listener) : HashSet Origin :=
  (all.filter Listener.considered).foldl filter.seenAfter seen

theorem outcomes_cons {filter : ListenerFilter} {l : Listener} (counted : l.considered = true)
    (seen : HashSet Origin) (rest : List Listener) : filter.outcomes seen (l :: rest) =
      filter.fate seen l :: filter.outcomes (filter.seenAfter seen l) rest := by
  simp only [ListenerFilter.outcomes, fates_cons, counted, if_true, List.map_cons]

theorem outcomes_cons_other {filter : ListenerFilter} {l : Listener} (other : l.considered = false)
    (seen : HashSet Origin) (rest : List Listener) :
    filter.outcomes seen (l :: rest) = filter.outcomes seen rest := by
  simp only [ListenerFilter.outcomes, fates_cons, other, Bool.false_eq_true, if_false]

theorem seenAll_cons {filter : ListenerFilter} {l : Listener} (counted : l.considered = true)
    (seen : HashSet Origin) (rest : List Listener) :
    filter.seenAll seen (l :: rest) = filter.seenAll (filter.seenAfter seen l) rest := by
  rw [ListenerFilter.seenAll, List.filter_cons_of_pos counted]
  rfl

theorem seenAll_cons_other {filter : ListenerFilter} {l : Listener} (other : l.considered = false)
    (seen : HashSet Origin) (rest : List Listener) :
    filter.seenAll seen (l :: rest) = filter.seenAll seen rest := by
  rw [ListenerFilter.seenAll, List.filter_cons_of_neg (by simp [other])]
  rfl

/-- The rows that pass all tests. -/
def ListenerFilter.passing (filter : ListenerFilter) (all : List Listener) : List Listener :=
  all.filter (fun l => l.considered && (filter.refusal l).isNone)

theorem mem_passing {filter : ListenerFilter} {all : List Listener} {l : Listener} :
    l ∈ filter.passing all ↔ l ∈ all ∧ l.considered = true ∧ filter.PassesAll l := by
  rw [ListenerFilter.passing, List.mem_filter, Bool.and_eq_true, Option.isNone_iff_eq_none,
    refusal_eq_none]

theorem mem_seenAll {filter : ListenerFilter} {seen : HashSet Origin} {all : List Listener}
    {origin : Origin} : origin ∈ filter.seenAll seen all ↔
      origin ∈ seen ∨ ∃ l ∈ filter.passing all, l.origin = origin := by
  simp only [mem_passing, and_assoc]
  induction all generalizing seen with
  | nil => simp [ListenerFilter.seenAll]
  | cons head rest ih =>
      cases counted : head.considered with
      | false =>
          rw [seenAll_cons_other counted, ih]
          simp [counted]
      | true =>
          rw [seenAll_cons counted, ih, mem_seenAfter, or_assoc]
          simp [counted]

theorem outcomes_append (filter : ListenerFilter) (seen : HashSet Origin)
    (front back : List Listener) : filter.outcomes seen (front ++ back) =
      filter.outcomes seen front ++ filter.outcomes (filter.seenAll seen front) back := by
  induction front generalizing seen with
  | nil => rfl
  | cons head rest ih =>
      cases counted : head.considered with
      | false => rw [List.cons_append, outcomes_cons_other counted, outcomes_cons_other counted,
          seenAll_cons_other counted, ih]
      | true => rw [List.cons_append, outcomes_cons counted, outcomes_cons counted,
          seenAll_cons counted, ih, List.cons_append]

/-! A verdict looks only at whether the origin of its row was seen. -/

theorem fate_congr {filter : ListenerFilter} {seen seen' : HashSet Origin} {l : Listener}
    (same : filter.PassesAll l → (l.origin ∈ seen ↔ l.origin ∈ seen')) :
    filter.fate seen l = filter.fate seen' l := by
  unfold ListenerFilter.fate
  cases refused : filter.refusal l with
  | some reason => rfl
  | none => simp only [same (refusal_eq_none.mp refused)]

theorem outcomes_congr {filter : ListenerFilter} {seen seen' : HashSet Origin}
    (same : ∀ origin, origin ∈ seen ↔ origin ∈ seen') (all : List Listener) :
    filter.outcomes seen all = filter.outcomes seen' all := by
  induction all generalizing seen seen' with
  | nil => rfl
  | cons head rest ih =>
      cases counted : head.considered with
      | false => rw [outcomes_cons_other counted, outcomes_cons_other counted, ih same]
      | true =>
          have after (origin : Origin) :
              origin ∈ filter.seenAfter seen head ↔ origin ∈ filter.seenAfter seen' head := by
            rw [mem_seenAfter, mem_seenAfter, same]
          rw [outcomes_cons counted, outcomes_cons counted, fate_congr (fun _ => same _), ih after]

theorem outcome_eq (filter : ListenerFilter) (all : List Listener) :
    filterListenersDetailed all filter =
      ⟨((filter.outcomes .empty all).filterMap Fate.candidate).insertionSort portLe,
        ((filter.outcomes .empty all).filterMap Fate.report).insertionSort originTextLe⟩ := by
  obtain ⟨out, skipped⟩ := foldl_fates filter all ⟨.empty, [], []⟩
  rw [List.nil_append] at out skipped
  simp only [filterListenersDetailed, out, skipped, ListenerFilter.outcomes, List.filterMap_map]
  rfl

/-! Swapping two rows. -/

/-- Rows that share an origin become the same candidate, and are reported alike. -/
def ListenerFilter.Alike (filter : ListenerFilter) (all : List Listener) : Prop :=
  ∀ l ∈ filter.passing all, ∀ other ∈ filter.passing all, l.origin = other.origin →
    l.candidate = other.candidate ∧ l.skip .duplicate = other.skip .duplicate

theorem alike_of_subset {filter : ListenerFilter} {all some : List Listener}
    (alike : filter.Alike all)
    (subset : some ⊆ all) : filter.Alike some := by
  have passing {l : Listener} (member : l ∈ filter.passing some) : l ∈ filter.passing all := by
    rw [mem_passing] at member ⊢
    exact ⟨subset member.1, member.2⟩
  intro l first other second same
  exact alike l (passing first) other (passing second) same

theorem fate_passes {filter : ListenerFilter} {l : Listener} (passes : filter.PassesAll l)
    (seen : HashSet Origin) : filter.fate seen l =
      if l.origin ∈ seen then .reported (l.skip .duplicate) else .admitted l.candidate := by
  rw [ListenerFilter.fate, refusal_eq_none.mpr passes]

theorem pair_swap {filter : ListenerFilter} (x y : Listener) (seen : HashSet Origin)
    (alike : filter.PassesAll x → filter.PassesAll y → x.origin = y.origin →
      x.candidate = y.candidate ∧ x.skip .duplicate = y.skip .duplicate) :
    [filter.fate seen y, filter.fate (filter.seenAfter seen y) x] ~
      [filter.fate seen x, filter.fate (filter.seenAfter seen x) y] := by
  by_cases both : filter.PassesAll x ∧ filter.PassesAll y ∧ x.origin = y.origin
  · obtain ⟨first, second, same⟩ := both
    obtain ⟨candidate, report⟩ := alike first second same
    have afterY : x.origin ∈ filter.seenAfter seen y :=
      mem_seenAfter.mpr (Or.inr ⟨second, same.symm⟩)
    have afterX : y.origin ∈ filter.seenAfter seen x := mem_seenAfter.mpr (Or.inr ⟨first, same⟩)
    rw [fate_passes first, fate_passes second, fate_passes first, fate_passes second, if_pos afterX,
      if_pos afterY, candidate, report, same]
  · have unchangedX : filter.fate (filter.seenAfter seen y) x = filter.fate seen x := by
      apply fate_congr
      intro passes
      rw [mem_seenAfter]
      exact or_iff_left (fun also => both ⟨passes, also.1, also.2.symm⟩)
    have unchangedY : filter.fate (filter.seenAfter seen x) y = filter.fate seen y := by
      apply fate_congr
      intro passes
      rw [mem_seenAfter]
      exact or_iff_left (fun also => both ⟨also.1, passes, also.2⟩)
    rw [unchangedX, unchangedY]
    exact List.Perm.swap _ _ _

theorem outcomes_perm {filter : ListenerFilter} {all arrived : List Listener}
    (permuted : arrived ~ all) (alike : filter.Alike all) (seen : HashSet Origin) :
    filter.outcomes seen arrived ~ filter.outcomes seen all := by
  induction permuted generalizing seen with
  | nil => exact .refl _
  | cons l rest ih =>
      have tail := alike_of_subset alike (List.subset_cons_self _ _)
      cases counted : l.considered with
      | false =>
          rw [outcomes_cons_other counted, outcomes_cons_other counted]
          exact ih tail seen
      | true =>
          rw [outcomes_cons counted, outcomes_cons counted]
          exact (ih tail _).cons _
  | swap x y rest =>
      cases countedX : x.considered with
      | false =>
          cases countedY : y.considered with
          | false => simp only [outcomes_cons_other, countedX, countedY, List.Perm.refl]
          | true =>
              simp only [outcomes_cons_other, outcomes_cons, countedX, countedY, List.Perm.refl]
      | true =>
          cases countedY : y.considered with
          | false =>
              simp only [outcomes_cons_other, outcomes_cons, countedX, countedY, List.Perm.refl]
          | true =>
              have swapped := pair_swap x y seen (fun passesX passesY => alike x
                (mem_passing.mpr ⟨List.mem_cons_self, countedX, passesX⟩) y
                (mem_passing.mpr ⟨by simp, countedY, passesY⟩))
              have same (origin : Origin) :
                  origin ∈ filter.seenAfter (filter.seenAfter seen y) x ↔
                    origin ∈ filter.seenAfter (filter.seenAfter seen x) y := by
                simp only [mem_seenAfter]
                exact or_right_comm
              have tails : filter.outcomes _ rest = filter.outcomes _ rest :=
                outcomes_congr same rest
              simp only [outcomes_cons countedX, outcomes_cons countedY]
              rw [tails]
              exact swapped.append_right _
  | trans first second ihFirst ihSecond =>
      exact (ihFirst (alike_of_subset alike second.subset) seen).trans (ihSecond alike seen)

/-! The entries that a table can be reported with. -/

/-- A row that fails a test, or one that shares its origin with another row that passes. -/
def ListenerFilter.Reportable (filter : ListenerFilter) (all : List Listener) (entry : Skipped) :
    Prop :=
  (∃ l ∈ all, l.considered = true ∧ ∃ reason, filter.refusal l = some reason ∧
    entry = l.skip reason) ∨
  ∃ l ∈ filter.passing all, ∃ other ∈ filter.passing (all.erase l), other.origin = l.origin ∧
    entry = l.skip .duplicate

theorem reported_cases {filter : ListenerFilter} {seen : HashSet Origin} {l : Listener}
    {entry : Skipped} (reported : filter.fate seen l = .reported entry) :
    (∃ reason, filter.refusal l = some reason ∧ entry = l.skip reason) ∨
      filter.PassesAll l ∧ l.origin ∈ seen ∧ entry = l.skip .duplicate := by
  unfold ListenerFilter.fate at reported
  cases refused : filter.refusal l with
  | some reason =>
      rw [refused] at reported
      exact Or.inl ⟨reason, rfl, (Fate.reported.inj reported).symm⟩
  | none =>
      simp only [refused] at reported
      split at reported
      · rename_i old
        exact Or.inr ⟨refusal_eq_none.mp refused, old, (Fate.reported.inj reported).symm⟩
      · cases reported

/-- A reported row stays reported when more origins have been seen. -/
theorem reported_mono {filter : ListenerFilter} {seen seen' : HashSet Origin} {l : Listener}
    {entry : Skipped} (reported : filter.fate seen l = .reported entry)
    (more : ∀ origin ∈ seen, origin ∈ seen') : filter.fate seen' l = .reported entry := by
  rw [← reported]
  apply fate_congr
  intro passes
  rcases reported_cases reported with ⟨reason, refused, -⟩ | ⟨-, old, -⟩
  · rw [refusal_eq_none.mpr passes] at refused
    cases refused
  · exact ⟨fun _ => old, fun _ => more _ old⟩

theorem seenAfter_reported {filter : ListenerFilter} {seen : HashSet Origin} {l : Listener}
    {entry : Skipped} (reported : filter.fate seen l = .reported entry) (origin : Origin) :
    origin ∈ filter.seenAfter seen l ↔ origin ∈ seen := by
  rw [mem_seenAfter_iff_admitted, reported]
  simp

/-- A row that is reported can be moved behind the others. -/
theorem reported_last {filter : ListenerFilter} {seen : HashSet Origin} {all : List Listener}
    {entry : Skipped} (member : Fate.reported entry ∈ filter.outcomes seen all) :
    ∃ l rest, all ~ rest ++ [l] ∧ l.considered = true ∧
      filter.outcomes seen all ~ .reported entry :: filter.outcomes seen rest ∧
      filter.fate (filter.seenAll seen rest) l = .reported entry := by
  induction all generalizing seen with
  | nil => simp [ListenerFilter.outcomes, ListenerFilter.fates] at member
  | cons head tail ih =>
      cases counted : head.considered with
      | false =>
          rw [outcomes_cons_other counted] at member
          obtain ⟨l, rest, permuted, inside, others, reported⟩ := ih member
          refine ⟨l, head :: rest, permuted.cons head, inside, ?_, ?_⟩
          · rwa [outcomes_cons_other counted, outcomes_cons_other counted]
          · rwa [seenAll_cons_other counted]
      | true =>
          rw [outcomes_cons counted] at member
          rcases List.mem_cons.mp member with here | later
          · have reported := here.symm
            refine ⟨head, tail, (List.perm_append_singleton head tail).symm, counted, ?_, ?_⟩
            · rw [outcomes_cons counted, reported, outcomes_congr (seenAfter_reported reported)]
            · exact reported_mono reported (fun origin old => mem_seenAll.mpr (Or.inl old))
          · obtain ⟨l, rest, permuted, inside, others, reported⟩ := ih later
            refine ⟨l, head :: rest, permuted.cons head, inside, ?_, ?_⟩
            · rw [outcomes_cons counted, outcomes_cons counted]
              exact (others.cons _).trans (List.Perm.swap _ _ _)
            · rwa [seenAll_cons counted]

theorem reportable_of_reported {filter : ListenerFilter} {all : List Listener} {entry : Skipped}
    (member : Fate.reported entry ∈ filter.outcomes .empty all) : filter.Reportable all entry := by
  obtain ⟨l, rest, permuted, counted, -, reported⟩ := reported_last member
  have inside : l ∈ all := permuted.mem_iff.mpr (by simp)
  rcases reported_cases reported with ⟨reason, refused, same⟩ | ⟨passes, old, same⟩
  · exact Or.inl ⟨l, inside, counted, reason, refused, same⟩
  · obtain ⟨other, also, equal⟩ := (mem_seenAll.mp old).resolve_left (HashSet.not_mem_empty _)
    have others : all.erase l ~ rest := by
      have erased := (permuted.trans (List.perm_append_singleton l rest)).erase l
      rwa [List.erase_cons_head] at erased
    have there := mem_passing.mp also
    exact Or.inr ⟨l, mem_passing.mpr ⟨inside, counted, passes⟩, other,
      mem_passing.mpr ⟨others.mem_iff.mpr there.1, there.2⟩, equal, same⟩

theorem refused_reported {filter : ListenerFilter} {all : List Listener} {l : Listener}
    {reason : SkipReason} (member : l ∈ all) (counted : l.considered = true)
    (refused : filter.refusal l = some reason) (seen : HashSet Origin) :
    Fate.reported (l.skip reason) ∈ filter.outcomes seen all := by
  induction all generalizing seen with
  | nil => cases member
  | cons head tail ih =>
      cases here : head.considered with
      | false =>
          rw [outcomes_cons_other here]
          rcases List.mem_cons.mp member with rfl | later
          · rw [counted] at here
            cases here
          · exact ih later seen
      | true =>
          rw [outcomes_cons here]
          rcases List.mem_cons.mp member with rfl | later
          · rw [ListenerFilter.fate, refused]
            exact List.mem_cons_self
          · exact List.mem_cons_of_mem _ (ih later _)

/-! Ports. -/

/-- The port in the text of the socket. -/
def Skipped.port (entry : Skipped) : UInt16 :=
  ((rsplitOnce ':' entry.origin).bind (fun parts => parseU16 parts.2)).getD 0

/-- What is read from a report is the port of its row. -/
theorem skip_port (l : Listener) (reason : SkipReason) :
    (l.skip reason).port = l.socket.port := by
  have text : ∃ front, l.socket.text = front ++ ':' :: decimal l.socket.port.toNat := by
    cases l.socket with
    | v4 ip port => exact ⟨ip.text, rfl⟩
    | v6 ip port flowinfo scopeId =>
        refine ⟨'[' :: ip.text ++ (if scopeId = 0 then [] else '%' :: decimal scopeId.toNat) ++
          [']'],
          ?_⟩
        simp [SocketAddr.text, SocketAddr.port]
  obtain ⟨front, shape⟩ := text
  have plain : ':' ∉ decimal l.socket.port.toNat := by
    intro member
    exact absurd (isDigit_of_mem_decimal member) (by decide)
  rw [Skipped.port, Listener.skip, shape, rsplitOnce_append ':' front _ plain, Option.bind_some,
    parseU16_decimal, Option.getD_some]

instance : Std.Total portLe := ⟨fun a b => UInt16.le_total a.origin.port b.origin.port⟩
instance : IsTrans Candidate portLe := ⟨fun _ _ _ => UInt16.le_trans⟩
instance : Std.Total originTextLe := ⟨fun a b => le_total a.origin b.origin⟩
instance : IsTrans Skipped originTextLe := ⟨fun _ _ _ => le_trans⟩

/-! The exact condition. -/

/-- Whatever the order of the table, the result is the same, and both lists ascend by port. -/
def ListenerFilter.Deterministic (filter : ListenerFilter) (all : List Listener) : Prop :=
  ∀ arrived, arrived ~ all →
    filterListenersDetailed arrived filter = filterListenersDetailed all filter ∧
    (filterListenersDetailed arrived filter).candidates.Pairwise portLe ∧
    (filterListenersDetailed arrived filter).skipped.Pairwise (fun a b => a.port ≤ b.port)

/-- Rows that pass on one port become one candidate, from one socket if it is one origin; what can
be reported of one socket is one entry; and the texts of the reported sockets sort as the ports. -/
structure ListenerFilter.Orderless (filter : ListenerFilter) (all : List Listener) : Prop where
  candidates : ∀ l ∈ filter.passing all, ∀ other ∈ filter.passing all,
    l.socket.port = other.socket.port → l.candidate = other.candidate
  sockets : ∀ l ∈ filter.passing all, ∀ other ∈ filter.passing all,
    l.origin = other.origin → l.socket.text = other.socket.text
  reports : ∀ entry other, filter.Reportable all entry → filter.Reportable all other →
    entry.origin = other.origin → entry = other
  ports : ∀ entry other, filter.Reportable all entry → filter.Reportable all other →
    entry.origin ≤ other.origin → entry.port ≤ other.port

theorem alike_of_orderless {filter : ListenerFilter} {all : List Listener}
    (orderless : filter.Orderless all) : filter.Alike all := by
  intro l first other second same
  have port : l.socket.port = other.socket.port := congrArg Origin.port same
  have candidate := orderless.candidates l first other second port
  have process : l.processName = other.processName := congrArg Candidate.process candidate
  have text := orderless.sockets l first other second same
  exact ⟨candidate, by rw [Listener.skip, Listener.skip, text, process]⟩

theorem mem_outcomes_report {filter : ListenerFilter} {all : List Listener} {entry : Skipped} :
    entry ∈ (filter.outcomes .empty all).filterMap Fate.report ↔
      Fate.reported entry ∈ filter.outcomes .empty all := by
  rw [List.mem_filterMap]
  constructor
  · rintro ⟨fate, member, reported⟩
    cases fate with
    | reported found => rwa [← Option.some.inj reported]
    | admitted candidate => cases reported
  · intro member
    exact ⟨_, member, rfl⟩

theorem report_levels {filter : ListenerFilter} {all : List Listener}
    (orderless : filter.Orderless all) :
    ∀ a ∈ (filter.outcomes .empty all).filterMap Fate.report,
      ∀ b ∈ (filter.outcomes .empty all).filterMap Fate.report,
        originTextLe a b → originTextLe b a → a = b := by
  intro a first b second up down
  exact orderless.reports a b (reportable_of_reported (mem_outcomes_report.mp first))
    (reportable_of_reported (mem_outcomes_report.mp second)) (le_antisymm up down)

theorem deterministic_of_orderless {filter : ListenerFilter} {all : List Listener}
    (orderless : filter.Orderless all) : filter.Deterministic all := by
  intro arrived permuted
  have verdicts := outcomes_perm permuted (alike_of_orderless orderless) .empty
  have levels : ∀ a ∈ (filter.outcomes .empty all).filterMap Fate.candidate,
      ∀ b ∈ (filter.outcomes .empty all).filterMap Fate.candidate,
        portLe a b → portLe b a → a = b := by
    have passed {a : Candidate}
        (member : a ∈ (filter.outcomes .empty all).filterMap Fate.candidate) :
        ∃ l ∈ filter.passing all, a = l.candidate := by
      have listed : a ∈ (filterListenersDetailed all filter).candidates := by
        rw [outcome_eq]
        exact (List.mem_insertionSort portLe).mpr member
      obtain ⟨l, inside, counted, passed, same⟩ := candidate_passed listed
      exact ⟨l, mem_passing.mpr ⟨inside, counted, refusal_eq_none.mp passed⟩, same⟩
    intro a first b second up down
    obtain ⟨l, here, rfl⟩ := passed first
    obtain ⟨other, there, rfl⟩ := passed second
    exact orderless.candidates l here other there (UInt16.le_antisymm up down)
  have same : filterListenersDetailed arrived filter = filterListenersDetailed all filter := by
    rw [outcome_eq, outcome_eq, insertionSort_eq_of_perm (verdicts.filterMap Fate.candidate) levels,
      insertionSort_eq_of_perm (verdicts.filterMap Fate.report) (report_levels orderless)]
  refine ⟨same, ?_, ?_⟩
  · rw [same]
    exact List.pairwise_insertionSort portLe _
  · rw [same, outcome_eq]
    apply (insertionSort_ascending (report_levels orderless) (fun _ => UInt16.le_refl _)).mpr
    intro a first b second order
    exact orderless.ports a b (reportable_of_reported (mem_outcomes_report.mp first))
      (reportable_of_reported (mem_outcomes_report.mp second)) order

/-! Two arrangements of the table. -/

theorem perm_two {all : List Listener} {l other : Listener} (first : l ∈ all)
    (second : other ∈ all.erase l) :
    all ~ l :: other :: (all.erase l).erase other :=
  calc all
    _ ~ l :: all.erase l := List.perm_cons_erase first
    _ ~ l :: other :: (all.erase l).erase other := (List.perm_cons_erase second).cons l

theorem sorted_eq {filter : ListenerFilter} {all one two : List Listener}
    (deterministic : filter.Deterministic all) (first : one ~ all) (second : two ~ all) :
    ((filter.outcomes .empty one).filterMap Fate.candidate).insertionSort portLe =
        ((filter.outcomes .empty two).filterMap Fate.candidate).insertionSort portLe ∧
      ((filter.outcomes .empty one).filterMap Fate.report).insertionSort originTextLe =
        ((filter.outcomes .empty two).filterMap Fate.report).insertionSort originTextLe := by
  have same := (deterministic one first).1.trans (deterministic two second).1.symm
  rw [outcome_eq, outcome_eq] at same
  exact FilterOutcome.mk.inj same

/-- What two rows that pass come to when they are the first of the table. -/
theorem outcomes_two {filter : ListenerFilter} {l other : Listener} (counted : l.considered = true)
    (passes : filter.PassesAll l) (otherCounted : other.considered = true)
    (otherPasses : filter.PassesAll other) (rest : List Listener) :
    filter.outcomes .empty (l :: other :: rest) =
      .admitted l.candidate ::
        (if l.origin = other.origin then .reported (other.skip .duplicate)
          else .admitted other.candidate) ::
        filter.outcomes (filter.seenAll .empty [l, other]) rest := by
  have seen : other.origin ∈ filter.seenAfter .empty l ↔ l.origin = other.origin := by
    rw [mem_seenAfter]
    simp [passes]
  have after : filter.seenAll .empty [l, other] =
      filter.seenAfter (filter.seenAfter .empty l) other := by
    rw [seenAll_cons counted, seenAll_cons otherCounted]
    rfl
  rw [outcomes_cons counted, outcomes_cons otherCounted, fate_passes passes,
    fate_passes otherPasses,
    if_neg (HashSet.not_mem_empty _), after]
  simp only [seen]

theorem agree_of_deterministic {filter : ListenerFilter} {all : List Listener}
    (deterministic : filter.Deterministic all) {l other : Listener} (first : l ∈ filter.passing all)
    (second : other ∈ filter.passing (all.erase l))
    (port : l.socket.port = other.socket.port) :
    l.candidate = other.candidate ∧
      (l.origin = other.origin → l.skip .duplicate = other.skip .duplicate) := by
  obtain ⟨inside, counted, passes⟩ := mem_passing.mp first
  obtain ⟨otherInside, otherCounted, otherPasses⟩ := mem_passing.mp second
  have one := (perm_two inside otherInside).symm
  have two := (List.Perm.swap l other _).trans one
  obtain ⟨candidates, skipped⟩ := sorted_eq deterministic one two
  have seen (origin : Origin) : origin ∈ filter.seenAll .empty [other, l] ↔
      origin ∈ filter.seenAll .empty [l, other] := by
    have swapped := (List.Perm.swap l other []).filter
      (fun l => l.considered && (filter.refusal l).isNone)
    simp only [mem_seenAll]
    exact or_congr_right (exists_congr fun _ => and_congr_left fun _ => swapped.mem_iff)
  rw [outcomes_two counted passes otherCounted otherPasses,
    outcomes_two otherCounted otherPasses counted passes, outcomes_congr seen] at candidates skipped
  by_cases same : l.origin = other.origin
  · simp only [same, if_true, List.filterMap_cons, Fate.candidate_admitted, Fate.candidate_reported,
      Fate.report_admitted, Fate.report_reported] at candidates skipped
    exact ⟨eq_of_added candidates, fun _ => (eq_of_added skipped).symm⟩
  · simp only [same, Ne.symm same, if_false, List.filterMap_cons,
      Fate.candidate_admitted] at candidates
    have up : portLe l.candidate other.candidate := UInt16.le_of_eq port
    have down : portLe other.candidate l.candidate := UInt16.le_of_eq port.symm
    exact ⟨@eq_of_swapped _ _ _ _ [] _ _ _ up down candidates, fun equal => (same equal).elim⟩

/-- What can be reported is reported. -/
theorem reported_of_reportable {filter : ListenerFilter} {all : List Listener}
    (deterministic : filter.Deterministic all) {entry : Skipped}
    (reportable : filter.Reportable all entry) :
    Fate.reported entry ∈ filter.outcomes .empty all := by
  rcases reportable with ⟨l, inside, counted, reason, refused, rfl⟩ |
    ⟨l, first, other, second, origin, rfl⟩
  · exact refused_reported inside counted refused .empty
  · obtain ⟨inside, counted, passes⟩ := mem_passing.mp first
    obtain ⟨otherInside, otherCounted, otherPasses⟩ := mem_passing.mp second
    have port : l.socket.port = other.socket.port := congrArg Origin.port origin.symm
    have alike := (agree_of_deterministic deterministic first second port).2 origin.symm
    have arranged := (perm_two inside otherInside).symm
    have skipped := (sorted_eq deterministic arranged (.refl all)).2
    have listed : other.skip .duplicate ∈ (filter.outcomes .empty
        (l :: other :: (all.erase l).erase other)).filterMap Fate.report := by
      rw [outcomes_two counted passes otherCounted otherPasses, if_pos origin.symm]
      exact List.mem_filterMap.mpr ⟨.reported (other.skip .duplicate), by simp, rfl⟩
    rw [← List.mem_insertionSort originTextLe, skipped, List.mem_insertionSort] at listed
    rw [alike]
    exact mem_outcomes_report.mp listed

/-- A row that is reported last adds no origin. -/
theorem seenAll_reported {filter : ListenerFilter} {seen : HashSet Origin}
    {all rest : List Listener} {l : Listener} {entry : Skipped} (permuted : all ~ rest ++ [l])
    (reported : filter.fate (filter.seenAll seen rest) l = .reported entry) (origin : Origin) :
    origin ∈ filter.seenAll seen all ↔ origin ∈ filter.seenAll seen rest := by
  constructor
  · intro member
    rcases mem_seenAll.mp member with old | ⟨row, passing, rfl⟩
    · exact mem_seenAll.mpr (Or.inl old)
    · obtain ⟨inside, counted, passes⟩ := mem_passing.mp passing
      rcases List.mem_append.mp (permuted.mem_iff.mp inside) with before | here
      · exact mem_seenAll.mpr (Or.inr ⟨row, mem_passing.mpr ⟨before, counted, passes⟩, rfl⟩)
      · obtain rfl := List.mem_singleton.mp here
        rcases reported_cases reported with ⟨reason, refused, -⟩ | ⟨-, old, -⟩
        · rw [refusal_eq_none.mpr passes] at refused
          cases refused
        · exact old
  · intro member
    rcases mem_seenAll.mp member with old | ⟨row, passing, same⟩
    · exact mem_seenAll.mpr (Or.inl old)
    · obtain ⟨before, both⟩ := mem_passing.mp passing
      have inside : row ∈ all := permuted.mem_iff.mpr (List.mem_append_left _ before)
      exact mem_seenAll.mpr (Or.inr ⟨row, mem_passing.mpr ⟨inside, both⟩, same⟩)

theorem outcomes_last {filter : ListenerFilter} {seen : HashSet Origin} {rest : List Listener}
    {x y : Listener} {first second : Skipped} (countedX : x.considered = true)
    (countedY : y.considered = true)
    (reportX : filter.fate (filter.seenAll seen rest) x = .reported first)
    (reportY : filter.fate (filter.seenAll seen rest) y = .reported second) :
    (filter.outcomes seen (rest ++ [x, y])).filterMap Fate.report =
      (filter.outcomes seen rest).filterMap Fate.report ++ [first, second] := by
  rw [outcomes_append, outcomes_cons countedX, outcomes_congr (seenAfter_reported reportX),
    outcomes_cons countedY, reportX, reportY, List.filterMap_append]
  rfl

/-- Two entries for one socket would be reported in the order of the table. -/
theorem entries_of_deterministic {filter : ListenerFilter} {all : List Listener}
    (deterministic : filter.Deterministic all) {entry other : Skipped}
    (first : Fate.reported entry ∈ filter.outcomes .empty all)
    (second : Fate.reported other ∈ filter.outcomes .empty all)
    (text : entry.origin = other.origin) : entry = other := by
  by_contra different
  obtain ⟨l, rest, permuted, counted, others, reported⟩ := reported_last first
  have remains : Fate.reported other ∈ filter.outcomes .empty rest := by
    rcases List.mem_cons.mp (others.mem_iff.mp second) with same | member
    · exact (different (Fate.reported.inj same).symm).elim
    · exact member
  obtain ⟨l', rest', permuted', counted', -, reported'⟩ := reported_last remains
  -- no origin is seen only because of one of the two rows, so either can be the last
  have here : filter.fate (filter.seenAll .empty rest') l = .reported entry := by
    rw [← reported]
    exact fate_congr (fun _ => (seenAll_reported permuted' reported' l.origin).symm)
  have one : rest' ++ [l', l] ~ all :=
    calc rest' ++ [l', l]
      _ = (rest' ++ [l']) ++ [l] := by rw [List.append_assoc, List.singleton_append]
      _ ~ rest ++ [l] := permuted'.symm.append_right _
      _ ~ all := permuted.symm
  have two : rest' ++ [l, l'] ~ all := ((List.Perm.swap l' l []).append_left rest').trans one
  have skipped := (sorted_eq deterministic one two).2
  rw [outcomes_last counted' counted reported' here, outcomes_last counted counted' here reported']
    at skipped
  have up : originTextLe other entry := le_of_eq text.symm
  have down : originTextLe entry other := le_of_eq text
  exact different (eq_of_swapped up down skipped).symm

theorem orderless_of_deterministic {filter : ListenerFilter} {all : List Listener}
    (deterministic : filter.Deterministic all) : filter.Orderless all := by
  have another {l other : Listener} (first : l ∈ filter.passing all)
      (second : other ∈ filter.passing all) (different : l ≠ other) :
      other ∈ filter.passing (all.erase l) := by
    obtain ⟨inside, both⟩ := mem_passing.mp second
    exact mem_passing.mpr ⟨(List.mem_erase_of_ne different.symm).mpr inside, both⟩
  have reports : ∀ entry other, filter.Reportable all entry → filter.Reportable all other →
      entry.origin = other.origin → entry = other := by
    intro entry other first second text
    exact entries_of_deterministic deterministic (reported_of_reportable deterministic first)
      (reported_of_reportable deterministic second) text
  refine ⟨?_, ?_, reports, ?_⟩
  · intro l first other second port
    by_cases same : l = other
    · rw [same]
    · exact (agree_of_deterministic deterministic first (another first second same) port).1
  · intro l first other second origin
    by_cases same : l = other
    · rw [same]
    · have port : l.socket.port = other.socket.port := congrArg Origin.port origin
      have agree := agree_of_deterministic deterministic first (another first second same) port
      exact congrArg Skipped.origin (agree.2 origin)
  · intro entry other first second order
    have ascending := (deterministic all (.refl all)).2.2
    rw [outcome_eq] at ascending
    have listed {entry : Skipped} (reportable : filter.Reportable all entry) :
        entry ∈ (filter.outcomes .empty all).filterMap Fate.report :=
      mem_outcomes_report.mpr (reported_of_reportable deterministic reportable)
    have levels : ∀ a ∈ (filter.outcomes .empty all).filterMap Fate.report,
        ∀ b ∈ (filter.outcomes .empty all).filterMap Fate.report,
          originTextLe a b → originTextLe b a → a = b := by
      intro a inside b also up down
      exact entries_of_deterministic deterministic (mem_outcomes_report.mp inside)
        (mem_outcomes_report.mp also) (le_antisymm up down)
    exact (insertionSort_ascending levels (fun _ => UInt16.le_refl _)).mp ascending entry
      (listed first) other (listed second) order

/-- The order of the table is immaterial and both lists ascend by port, exactly if the rows leave
no choice. -/
theorem deterministic_iff_orderless (filter : ListenerFilter) (all : List Listener) :
    filter.Deterministic all ↔ filter.Orderless all :=
  ⟨orderless_of_deterministic, deterministic_of_orderless⟩

/-- One server on both wildcard addresses, and two ports below the minimum. -/
def dualStack : List Listener :=
  let row (socket : SocketAddr) : Listener := ⟨⟨7, "nginx".toList, []⟩, socket, .tcp, .listen⟩
  [row (.v4 ⟨0, 0, 0, 0⟩ 8000), row (.v6 .unspecified 8000 0 0), row (.v4 ⟨0, 0, 0, 0⟩ 443),
    row (.v4 ⟨0, 0, 0, 0⟩ 80)]

/-- Which of the two rows is reported depends on their order, and 443 is reported before 80. -/
theorem dual_stack_depends_on_order :
    dualStack.reverse ~ dualStack ∧
      filterListenersDetailed dualStack.reverse (.new 1024 true [] [] []) ≠
        filterListenersDetailed dualStack (.new 1024 true [] [] []) ∧
      (filterListenersDetailed dualStack (.new 1024 true [] [] [])).skipped.map Skipped.port =
        [443, 80, 8000] := by
  refine ⟨List.reverse_perm _, ?_, ?_⟩
  · decide +kernel
  · decide +kernel

end RaemoteServer.Discovery
