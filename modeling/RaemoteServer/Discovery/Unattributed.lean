import RaemoteServer.Discovery.Listener

/-! Adding the sockets of the kernel's table that no process was found for. -/

namespace RaemoteServer.Discovery

open Text Collections Net

/-- A row that is the listening TCP socket of this address. -/
def Listener.ListensOn (row : Listener) (socket : SocketAddr) : Prop :=
  row.socket = socket ∧ row.protocol = .tcp ∧ row.state = .listen

instance (row : Listener) (socket : SocketAddr) : Decidable (row.ListensOn socket) :=
  inferInstanceAs (Decidable (_ ∧ _ ∧ _))

/-- The attributed rows stand first, as they were; every extra address has a listening TCP row; and
no row is added for an address that has an attributed one. -/
def LosesNone (attributed : List Listener) (extra : List SocketAddr) (merged : List Listener) :
    Prop :=
  ∃ added, merged = attributed ++ added ∧
    (∀ socket ∈ extra, ∃ row ∈ merged, row.ListensOn socket) ∧
    ∀ row ∈ added, ∀ other ∈ attributed, ¬ other.ListensOn row.socket

/-- What is added, whatever else is known of its address. -/
theorem mergeUnattributed_added {attributed : List Listener} {extra : List SocketAddr}
    {row : Listener} :
    row ∈ (extra.filter (· ∉ HashSet.ofList (attributed.map Listener.socket))).map
        Listener.unattributed ↔
      ∃ socket ∈ extra, (∀ other ∈ attributed, other.socket ≠ socket) ∧
        row = Listener.unattributed socket := by
  simp only [List.mem_map, List.mem_filter, HashSet.mem_ofList, decide_eq_true_eq, not_exists,
    not_and, and_assoc, eq_comm (a := row)]

/-- A socket is lost when the rows of its address are all of another protocol or state. -/
theorem merge_loses_none_iff (attributed : List Listener) (extra : List SocketAddr) :
    LosesNone attributed extra (mergeUnattributed attributed extra) ↔
      ∀ socket ∈ extra, (∃ row ∈ attributed, row.socket = socket) →
        ∃ row ∈ attributed, row.ListensOn socket := by
  constructor
  · rintro ⟨added, shape, covered, -⟩ socket member ⟨known, present, rfl⟩
    obtain ⟨row, inside, listens⟩ := covered known.socket member
    rcases List.mem_append.mp inside with old | new
    · exact ⟨row, old, listens⟩
    · obtain ⟨other, -, fresh, rfl⟩ := mergeUnattributed_added.mp new
      exact (fresh known present listens.1.symm).elim
  · intro listening
    refine ⟨_, rfl, ?_, ?_⟩
    · intro socket member
      by_cases known : ∃ row ∈ attributed, row.socket = socket
      · obtain ⟨row, inside, listens⟩ := listening socket member known
        exact ⟨row, List.mem_append_left _ inside, listens⟩
      · have fresh : ∀ other ∈ attributed, other.socket ≠ socket :=
          fun other inside same => known ⟨other, inside, same⟩
        refine ⟨.unattributed socket, List.mem_append_right _ ?_, rfl, rfl, rfl⟩
        exact mergeUnattributed_added.mpr ⟨socket, member, fresh, rfl⟩
    · intro row new other inside listens
      obtain ⟨socket, -, fresh, rfl⟩ := mergeUnattributed_added.mp new
      exact fresh other inside listens.1

/-- A UDP socket of a readable process has the address of a listener that nobody was found for. -/
theorem udp_row_hides_listener :
    let udp : Listener := ⟨⟨42, "game".toList, []⟩, .v4 ⟨0, 0, 0, 0⟩ 8080, .udp, .other⟩
    mergeUnattributed [udp] [.v4 ⟨0, 0, 0, 0⟩ 8080] = [udp] ∧
      ¬ LosesNone [udp] [.v4 ⟨0, 0, 0, 0⟩ 8080]
        (mergeUnattributed [udp] [.v4 ⟨0, 0, 0, 0⟩ 8080]) := by
  refine ⟨by decide, ?_⟩
  rintro ⟨added, -, covered, -⟩
  obtain ⟨row, member, listens⟩ := covered _ List.mem_cons_self
  obtain rfl := List.mem_singleton.mp member
  exact absurd listens (by decide)

end RaemoteServer.Discovery
