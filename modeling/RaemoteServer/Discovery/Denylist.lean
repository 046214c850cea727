import RaemoteServer.Discovery.Filtering

/-! Processes on the denylist. They are excluded row by row, while what is exposed is an origin, to
which several rows can be mapped. -/

namespace RaemoteServer.Discovery

open Text Collections Net

/-- The name of the process, trimmed and lowercased, is on the denylist. -/
def ListenerFilter.Denies (filter : ListenerFilter) (l : Listener) : Prop :=
  asciiLower (trim l.process.name) ∈ filter.excludeProcesses

instance (filter : ListenerFilter) (l : Listener) : Decidable (filter.Denies l) :=
  inferInstanceAs (Decidable (_ ∈ _))

/-- The two tests whose outcome can differ between rows of one origin. -/
def ListenerFilter.FailsAlone (filter : ListenerFilter) (l : Listener) : Prop :=
  filter.Fails l .excludedProcess ∨ filter.Fails l .notLocalBind

theorem passesAll_iff {filter : ListenerFilter} {l : Listener} :
    filter.PassesAll l ↔ filter.Passes l.origin ∧ ¬ filter.FailsAlone l := by
  constructor
  · intro passes
    refine ⟨⟨?_, ?_, ?_⟩, ?_⟩
    · exact UInt16.not_lt.mp (passes .belowMinPort (by decide))
    · exact passes .excludedPort (by decide)
    · exact passes .excludedOrigin (by decide)
    · rintro (process | bind)
      · exact passes .excludedProcess (by decide) process
      · exact passes .notLocalBind (by decide) bind
  · rintro ⟨⟨port, allowed, listed⟩, own⟩ test member
    simp only [filterTests, List.mem_cons, List.not_mem_nil, or_false] at member
    rcases member with rfl | rfl | rfl | rfl | rfl
    · exact UInt16.not_lt.mpr port
    · exact allowed
    · exact fun process => own (Or.inl process)
    · exact fun bind => own (Or.inr bind)
    · exact listed

/-- An origin is hidden if it is refused whatever the row, or if every row of it is refused for
itself. -/
theorem hidden_iff {filter : ListenerFilter} {all : List Listener} {origin : Origin} :
    origin ∉ (filterListenersDetailed all filter).candidates.map Candidate.origin ↔
      (filter.Passes origin → ∀ row ∈ all, row.considered = true → row.origin = origin →
        filter.FailsAlone row) := by
  rw [mem_candidate_origins]
  constructor
  · rintro hidden passes row inside counted rfl
    by_contra alone
    exact hidden ⟨row, inside, counted, passesAll_iff.mpr ⟨passes, alone⟩, rfl⟩
  · rintro refused ⟨row, inside, counted, passes, rfl⟩
    obtain ⟨origin, alone⟩ := passesAll_iff.mp passes
    exact alone (refused origin row inside counted rfl)

/-- No candidate has the origin of a denylisted process. -/
def NeverExposed (filter : ListenerFilter) (all : List Listener) : Prop :=
  ∀ l ∈ all, l.considered = true → filter.Denies l →
    l.origin ∉ (filterListenersDetailed all filter).candidates.map Candidate.origin

/-- No row that would pass is mapped to the origin of a denylisted process. -/
def NoOtherRowPasses (filter : ListenerFilter) (all : List Listener) : Prop :=
  ∀ l ∈ all, l.considered = true → filter.Denies l → filter.Passes l.origin →
    ∀ row ∈ all, row.considered = true → row.origin = l.origin → filter.FailsAlone row

theorem never_exposed_iff (filter : ListenerFilter) (all : List Listener) :
    NeverExposed filter all ↔ NoOtherRowPasses filter all := by
  constructor
  · intro hidden l member counted denied
    exact hidden_iff.mp (hidden l member counted denied)
  · intro refused l member counted denied
    exact hidden_iff.mpr (refused l member counted denied)

/-- The socket of a tunnel was inherited by the shell that it started. -/
theorem inherited_socket_exposed :
    let filter := ListenerFilter.new 1024 true [] [] []
    let tunnel : Listener := ⟨⟨41, "xray".toList, []⟩, .v4 ⟨127, 0, 0, 1⟩ 10808, .tcp, .listen⟩
    let shell : Listener := ⟨⟨42, "sh".toList, []⟩, .v4 ⟨127, 0, 0, 1⟩ 10808, .tcp, .listen⟩
    filter.Denies tunnel ∧
      (filterListenersDetailed [tunnel, shell] filter).candidates = [shell.candidate] ∧
      shell.origin = tunnel.origin ∧ ¬ NeverExposed filter [tunnel, shell] := by
  have denied : (ListenerFilter.new 1024 true [] [] []).Denies
      ⟨⟨41, "xray".toList, []⟩, .v4 ⟨127, 0, 0, 1⟩ 10808, .tcp, .listen⟩ := by decide +kernel
  refine ⟨denied, by decide +kernel, rfl, ?_⟩
  intro hidden
  exact hidden _ List.mem_cons_self rfl denied (by decide +kernel)

end RaemoteServer.Discovery
