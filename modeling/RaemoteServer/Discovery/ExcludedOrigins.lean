import RaemoteServer.Discovery.Filtering
import RaemoteServer.Library.IpText

/-! Entries of `discovery.exclude_origins`: which addresses they exclude, and how they are
spelled. -/

namespace RaemoteServer.Discovery

open Text Collections Net
open scoped List

/-- The host that discovery reports for this address. -/
def reportedHost (ip : IpAddr) : Str := if ip.isUnspecified then "127.0.0.1".toList else ip.text

theorem localHost_eq (addr : SocketAddr) : Origin.localHost addr = reportedHost addr.ip := rfl

theorem unspecified_cases {ip : IpAddr} (wildcard : ip.isUnspecified = true) :
    ip = .v4 ⟨0, 0, 0, 0⟩ ∨ ip = .v6 .unspecified := by
  cases ip with
  | v4 ip => exact Or.inl (congrArg IpAddr.v4 (of_decide_eq_true wildcard))
  | v6 ip => exact Or.inr (congrArg IpAddr.v6 (of_decide_eq_true wildcard))

/-- Only the wildcard addresses are printed as hosts that are normalized. -/
theorem special_text {host : Str} {ip : IpAddr} (spelled : IpAddr.parse host = some ip)
    (special : host ∈ ["localhost".toList, "0.0.0.0".toList, "::".toList]) :
    ip.isUnspecified = true ∧ host = ip.text := by
  simp only [List.mem_cons, List.not_mem_nil, or_false] at special
  rcases special with rfl | rfl | rfl
  · cases spelled
  · obtain rfl : .v4 ⟨0, 0, 0, 0⟩ = ip := Option.some.inj spelled
    decide
  · obtain rfl : .v6 .unspecified = ip := Option.some.inj spelled
    decide

theorem normalHost_text (ip : IpAddr) : normalHost ip.text = reportedHost ip := by
  unfold normalHost reportedHost
  by_cases wildcard : ip.isUnspecified = true
  · rcases unspecified_cases wildcard with rfl | rfl <;> decide
  · rw [if_neg wildcard, if_neg]
    intro special
    exact wildcard (special_text ip.parse_text special).1

/-- What is normalized as the printed text is the printed text. -/
theorem normalHost_inj {host : Str} {ip : IpAddr} (spelled : IpAddr.parse host = some ip) :
    normalHost host = reportedHost ip ↔ host = ip.text := by
  constructor
  · intro same
    by_cases special : host ∈ ["localhost".toList, "0.0.0.0".toList, "::".toList]
    · exact (special_text spelled special).2
    rw [normalHost, if_neg special] at same
    rw [reportedHost] at same
    split at same
    · rename_i wildcard
      rw [same] at spelled
      obtain rfl : .v4 ⟨127, 0, 0, 1⟩ = ip := Option.some.inj spelled
      cases wildcard
    · exact same
  · rintro rfl
    exact normalHost_text ip

/-- A listener on this port that is reported under the address is never a candidate of a filter
that is built with the entry. -/
def ExcludesAddress (entry : Str) (ip : IpAddr) (port : UInt16) : Prop :=
  ∀ minPort loopbackOnly excludePorts excludeProcesses excludeOrigins, entry ∈ excludeOrigins →
    ∀ all : List Listener, ∀ l ∈ all, Origin.localHost l.socket = reportedHost ip →
      l.socket.port = port →
      l.origin ∉ (filterListenersDetailed all (.new minPort loopbackOnly excludePorts
        excludeProcesses excludeOrigins)).candidates.map Candidate.origin

/-- A row that fails no test but those on its port and its origin. -/
def bareListener (ip : IpAddr) (port : UInt16) : Listener :=
  ⟨⟨0, [], []⟩, .new ip port, .tcp, .listen⟩

theorem bareListener_origin (ip : IpAddr) (port : UInt16) :
    (bareListener ip port).origin = .http (reportedHost ip) port := by
  cases ip <;> rfl

theorem bareListener_passes {ip : IpAddr} {port : UInt16} {entry : Str} {origin : Origin}
    (parsed : Origin.parseAuthority entry = some origin) (allowed : port ∉ builtinExcludePorts)
    (other : Origin.http (reportedHost ip) port ≠ origin) :
    (ListenerFilter.new 0 false [] [] [entry]).PassesAll (bareListener ip port) := by
  have bound : (bareListener ip port).socket.port = port := by cases ip <;> rfl
  intro test member
  simp only [filterTests, List.mem_cons, List.not_mem_nil, or_false] at member
  rcases member with rfl | rfl | rfl | rfl | rfl
  · exact Nat.not_lt_zero _
  · simpa [ListenerFilter.Fails, ListenerFilter.new, bound] using allowed
  · rintro ⟨name, named, -⟩
    cases named
  · rintro ⟨only, -⟩
    cases only
  · simpa [ListenerFilter.Fails, ListenerFilter.new, parsed, bareListener_origin] using other

/-- An entry excludes an address in one spelling: as discovery prints it. -/
theorem excludes_address_iff {entry host portText : Str} {origin : Origin} {ip : IpAddr}
    (accepted : Origin.parseAuthority entry = some origin)
    (split : splitHostPort (trim entry) = some (host, portText))
    (spelled : IpAddr.parse host = some ip) :
    ExcludesAddress entry ip origin.port ↔
      host = ip.text ∨ origin.port ∈ builtinExcludePorts := by
  obtain ⟨host', portText', port, split', -, numbered, -, rfl⟩ :=
    parseAuthority_eq_some.mp accepted
  obtain ⟨rfl, rfl⟩ := Prod.mk.inj (Option.some.inj (split.symm.trans split'))
  constructor
  · intro excludes
    by_contra neither
    obtain ⟨spelling, allowed⟩ := not_or.mp neither
    have other : Origin.http (reportedHost ip) port ≠ .http (normalHost host) port := by
      intro same
      exact spelling ((normalHost_inj spelled).mp (Origin.mk.inj same).2.1.symm)
    have bound : (bareListener ip port).socket.port = port := by cases ip <;> rfl
    have reported : Origin.localHost (bareListener ip port).socket = reportedHost ip := by
      cases ip <;> rfl
    apply excludes 0 false [] [] [entry] List.mem_cons_self [bareListener ip port] _
      List.mem_cons_self reported bound
    apply mem_candidate_origins.mpr
    refine ⟨_, List.mem_cons_self, ?_, bareListener_passes accepted allowed other, rfl⟩
    rw [Listener.considered, bound]
    simpa [bareListener] using numbered
  · intro reason minPort loopbackOnly excludePorts excludeProcesses excludeOrigins listed all l
      member reported bound candidate
    obtain ⟨row, -, -, passes, same⟩ := mem_candidate_origins.mp candidate
    have shape : row.origin = .http (reportedHost ip) port := by
      rw [same, Listener.origin, reported, bound]
      rfl
    rcases reason with canonical | builtin
    · apply passes .excludedOrigin (by decide)
      rw [ListenerFilter.Fails, shape, ← (normalHost_inj spelled).mpr canonical,
        ListenerFilter.new, HashSet.mem_ofList]
      exact List.mem_filterMap.mpr ⟨entry, listed, accepted⟩
    · apply passes .excludedPort (by decide)
      have port' : row.socket.port = port := (Origin.mk.inj shape).2.2
      rw [ListenerFilter.Fails, port', ListenerFilter.new, HashSet.mem_ofList]
      exact List.mem_append_left _ builtin

theorem loopback_entry_excludes :
    ExcludesAddress "[::1]:8080".toList (.v6 .localhost) 8080 := by
  have accepted : Origin.parseAuthority "[::1]:8080".toList = some (.http "::1".toList 8080) := by
    decide
  have split : splitHostPort (trim "[::1]:8080".toList) = some ("::1".toList, "8080".toList) := by
    decide
  have spelled : IpAddr.parse "::1".toList = some (.v6 .localhost) := by decide
  exact (excludes_address_iff accepted split spelled).mpr (Or.inl (by decide))

/-- The loopback address, written out. -/
theorem expanded_entry_misses :
    Origin.parseAuthority "[0:0:0:0:0:0:0:1]:8080".toList =
        some (.http "0:0:0:0:0:0:0:1".toList 8080) ∧
      IpAddr.parse "0:0:0:0:0:0:0:1".toList = some (.v6 .localhost) ∧
      (filterListenersDetailed [bareListener (.v6 .localhost) 8080]
        (.new 1024 true [] [] ["[0:0:0:0:0:0:0:1]:8080".toList])).candidates =
          [(bareListener (.v6 .localhost) 8080).candidate] ∧
      ¬ ExcludesAddress "[0:0:0:0:0:0:0:1]:8080".toList (.v6 .localhost) 8080 := by
  have exposed : (filterListenersDetailed [bareListener (.v6 .localhost) 8080]
      (.new 1024 true [] [] ["[0:0:0:0:0:0:0:1]:8080".toList])).candidates =
        [(bareListener (.v6 .localhost) 8080).candidate] := by decide +kernel
  refine ⟨by decide, by decide, exposed, ?_⟩
  intro excludes
  apply excludes 1024 true [] [] ["[0:0:0:0:0:0:0:1]:8080".toList] List.mem_cons_self
    [bareListener (.v6 .localhost) 8080] _ List.mem_cons_self (by decide) rfl
  rw [exposed]
  exact List.mem_cons_self

/-! One more excluded origin. -/

/-- The later filter excludes this origin as well, and is the same otherwise. -/
structure ExcludesAlso (before after : ListenerFilter) (origin : Origin) : Prop where
  rest : after = { before with excludeOrigins := after.excludeOrigins }
  listed : ∀ other, other ∈ after.excludeOrigins ↔ other = origin ∨ other ∈ before.excludeOrigins

/-- Every row of the origin is reported, and the rows of other origins fare as before. -/
structure HidesOnly (before after : ListenerFilter) (origin : Origin) (all : List Listener) :
    Prop where
  dropped : ∀ item ∈ after.verdicts all, item.1.origin = origin →
    ∃ reason, item.2 = .reported (item.1.skip reason)
  others : (after.verdicts all).filter (·.1.origin ≠ origin) =
    (before.verdicts all).filter (·.1.origin ≠ origin)
  candidates : (filterListenersDetailed all after).candidates ~
    (filterListenersDetailed all before).candidates.filter (·.origin ≠ origin)

variable {before after : ListenerFilter} {origin : Origin}

theorem refusal_hidden (also : ExcludesAlso before after origin) {l : Listener}
    (same : l.origin = origin) : after.refusal l ≠ none := by
  intro passed
  exact (refusal_none passed).1.listed ((also.listed _).mpr (Or.inl same))

theorem refusal_other (also : ExcludesAlso before after origin) {l : Listener}
    (other : l.origin ≠ origin) : after.refusal l = before.refusal l := by
  have listed : l.origin ∈ after.excludeOrigins ↔ l.origin ∈ before.excludeOrigins := by
    rw [also.listed]
    exact or_iff_right other
  unfold ListenerFilter.refusal
  rw [also.rest]
  simp only [listed]

theorem fates_other (also : ExcludesAlso before after origin) {seen seen' : HashSet Origin}
    (agree : ∀ other, other ≠ origin → (other ∈ seen' ↔ other ∈ seen)) (all : List Listener) :
    (after.fates seen' all).filter (·.1.origin ≠ origin) =
      (before.fates seen all).filter (·.1.origin ≠ origin) := by
  induction all generalizing seen seen' with
  | nil => rfl
  | cons l rest ih =>
      rw [fates_cons, fates_cons]
      split
      · by_cases same : l.origin = origin
        · -- what the row adds to the origins seen is this origin at most
          have later := @ih (before.seenAfter seen l) (after.seenAfter seen' l) (by
            intro other different
            rw [mem_seenAfter, mem_seenAfter, agree other different]
            have away : l.origin ≠ other := fun equal => different (equal.symm.trans same)
            simp only [away, and_false, or_false])
          simpa [same] using later
        · have refusal := refusal_other also same
          have later := @ih (before.seenAfter seen l) (after.seenAfter seen' l) (by
            intro other different
            rw [mem_seenAfter, mem_seenAfter, agree other different, ← refusal_eq_none,
              ← refusal_eq_none, refusal])
          have fate : after.fate seen' l = before.fate seen l := by
            simp only [ListenerFilter.fate, refusal, agree l.origin same]
          simpa [same, fate] using later
      · exact ih agree

theorem candidate_of_verdict {filter : ListenerFilter} {all : List Listener}
    {item : Listener × Fate} (member : item ∈ filter.verdicts all) {candidate : Candidate}
    (admitted : item.2.candidate = some candidate) :
    candidate = item.1.candidate ∧ filter.refusal item.1 = none := by
  have own := fates_of member
  cases shape : item.2 with
  | reported skipped =>
      rw [shape] at admitted
      cases admitted
  | admitted found =>
      rw [shape] at own admitted
      obtain rfl := Option.some.inj admitted
      exact own

/-- The candidates of other origins come from the rows of other origins. -/
theorem candidates_other (filter : ListenerFilter) (origin : Origin) (all : List Listener) :
    ((filter.verdicts all).filterMap (·.2.candidate)).filter (·.origin ≠ origin) =
      ((filter.verdicts all).filter (·.1.origin ≠ origin)).filterMap (·.2.candidate) := by
  rw [List.filter_filterMap, List.filterMap_filter]
  apply List.filterMap_congr
  intro item member
  cases admitted : item.2.candidate with
  | none => simp
  | some candidate =>
      obtain ⟨rfl, -⟩ := candidate_of_verdict member admitted
      rfl

theorem hides_only (also : ExcludesAlso before after origin) (all : List Listener) :
    HidesOnly before after origin all := by
  have others : (after.verdicts all).filter (·.1.origin ≠ origin) =
      (before.verdicts all).filter (·.1.origin ≠ origin) :=
    fates_other also (fun _ _ => Iff.rfl) all
  refine ⟨?_, others, ?_⟩
  · intro item member same
    have own := fates_of member
    cases shape : item.2 with
    | reported skipped =>
        rw [shape] at own
        obtain ⟨reason, rfl, -⟩ := own
        exact ⟨reason, rfl⟩
    | admitted candidate =>
        rw [shape] at own
        exact (refusal_hidden also same own.2).elim
  · have kept : ((after.verdicts all).filterMap (·.2.candidate)).filter (·.origin ≠ origin) =
        (after.verdicts all).filterMap (·.2.candidate) := by
      apply List.filter_eq_self.mpr
      intro candidate member
      obtain ⟨item, inside, admitted⟩ := List.mem_filterMap.mp member
      obtain ⟨rfl, passed⟩ := candidate_of_verdict inside admitted
      exact decide_eq_true fun same => refusal_hidden also same passed
    calc
      (filterListenersDetailed all after).candidates ~
          (after.verdicts all).filterMap (·.2.candidate) := candidates_perm after all
      _ = ((before.verdicts all).filterMap (·.2.candidate)).filter (·.origin ≠ origin) := by
        rw [← kept, candidates_other, candidates_other, others]
      _ ~ (filterListenersDetailed all before).candidates.filter (·.origin ≠ origin) :=
        ((candidates_perm before all).filter _).symm

end RaemoteServer.Discovery
