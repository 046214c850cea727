import RaemoteServer.Discovery.Model
import RaemoteServer.Discovery.ProcSockets
import RaemoteServer.Library.Collections

/-! The OS listening-socket table and the filter that is applied to it. -/

namespace RaemoteServer.Discovery

open Text Collections Net
open scoped List

/-- `str::to_ascii_lowercase` -/
def asciiLower (s : Str) : Str := s.map Char.toLower

structure Process where
  pid : UInt32
  name : Str
  path : Str
  deriving DecidableEq

inductive Protocol where
  | tcp
  | udp
  deriving DecidableEq

inductive SocketState where
  | listen
  | other
  deriving DecidableEq

structure Listener where
  process : Process
  socket : SocketAddr
  protocol : Protocol
  state : SocketState
  deriving DecidableEq

structure Candidate where
  origin : Origin
  process : Option Str
  pid : Option UInt32
  deriving DecidableEq

/-- `excludeProcesses` holds lowercased names. -/
structure ListenerFilter where
  minPort : UInt16
  loopbackOnly : Bool
  excludePorts : HashSet UInt16
  excludeProcesses : HashSet Str
  excludeOrigins : HashSet Origin
  deriving DecidableEq

def builtinExcludePorts : List UInt16 :=
  [22, 25, 53, 88, 110, 111, 135, 137, 138, 139, 143, 161, 162, 389, 445, 465, 514, 515, 548, 587,
    631, 636, 873, 993, 995, 1080, 1433, 1521, 1723, 2049, 2375, 2376, 3306, 3389, 5000, 5353,
    5432, 5900, 6379, 7000, 9200, 9300, 27017]

def builtinExcludeProcesses : List Str :=
  ["xray", "v2ray", "v2ray-core", "sing-box", "clash", "clash-meta", "mihomo", "shadowsocks",
    "ss-local", "ssserver", "ss-tunnel", "trojan", "trojan-go", "hysteria", "hysteria2", "naive",
    "tun2socks", "mitmproxy", "mitmdump", "privoxy", "squid", "tinyproxy", "3proxy",
    "tor"].map String.toList

/-- The built-in denylists are folded in; an entry that is not `host:port` is ignored. -/
def ListenerFilter.new (minPort : UInt16) (loopbackOnly : Bool) (excludePorts : List UInt16)
    (excludeProcesses excludeOrigins : List Str) : ListenerFilter where
  minPort := minPort
  loopbackOnly := loopbackOnly
  excludePorts := .ofList (builtinExcludePorts ++ excludePorts)
  excludeProcesses :=
    .ofList (builtinExcludeProcesses.map asciiLower ++ excludeProcesses.map asciiLower)
  excludeOrigins := .ofList (excludeOrigins.filterMap Origin.parseAuthority)

/-- Why a listening socket did not become an app. -/
inductive SkipReason where
  | belowMinPort
  | excludedPort
  | excludedProcess
  | notLocalBind
  | excludedOrigin
  | duplicate
  | notCredible
  | unreachable
  deriving DecidableEq

structure Skipped where
  origin : Str
  process : Option Str
  reason : SkipReason
  deriving DecidableEq

structure FilterOutcome where
  candidates : List Candidate
  skipped : List Skipped
  deriving DecidableEq

/-! Sockets that no process could be attributed to. -/

def Listener.unattributed (socket : SocketAddr) : Listener :=
  { process := ⟨0, [], []⟩, socket, protocol := .tcp, state := .listen }

def mergeUnattributed (attributed : List Listener) (extra : List SocketAddr) : List Listener :=
  let known := HashSet.ofList (attributed.map Listener.socket)
  attributed ++ (extra.filter (· ∉ known)).map Listener.unattributed

/-! The filter. -/

/-- Wildcard binds are reached on the IPv4 loopback address. -/
def Origin.localHost (addr : SocketAddr) : Str :=
  if addr.ip.isUnspecified then "127.0.0.1".toList else addr.ip.text

def isLocalBind (addr : SocketAddr) : Bool := addr.ip.isLoopback || addr.ip.isUnspecified

def Listener.processName (l : Listener) : Option Str :=
  if trim l.process.name = [] then none else some (trim l.process.name)

def Listener.origin (l : Listener) : Origin := .http (Origin.localHost l.socket) l.socket.port

/-- A listening TCP socket with a port; the filter does not report on any other. -/
def Listener.considered (l : Listener) : Bool :=
  l.protocol = .tcp && l.state = .listen && l.socket.port ≠ 0

def Listener.skip (l : Listener) (reason : SkipReason) : Skipped :=
  ⟨l.socket.text, l.processName, reason⟩

/-- A socket without a process has pid 0. -/
def Listener.candidate (l : Listener) : Candidate :=
  ⟨l.origin, l.processName, if l.process.pid ≠ 0 then some l.process.pid else none⟩

/-- The first test that a socket fails. -/
def ListenerFilter.refusal (filter : ListenerFilter) (l : Listener) : Option SkipReason :=
  if l.socket.port < filter.minPort then some .belowMinPort
  else if l.socket.port ∈ filter.excludePorts then some .excludedPort
  else if l.processName.any (fun name => asciiLower name ∈ filter.excludeProcesses) then
    some .excludedProcess
  else if filter.loopbackOnly && !isLocalBind l.socket then some .notLocalBind
  else if l.origin ∈ filter.excludeOrigins then some .excludedOrigin
  else none

structure Filtering where
  seen : HashSet Origin
  out : List Candidate
  skipped : List Skipped

def filterStep (filter : ListenerFilter) (acc : Filtering) (l : Listener) : Filtering :=
  if !l.considered then acc
  else
    match filter.refusal l with
    | some reason => { acc with skipped := acc.skipped ++ [l.skip reason] }
    | none =>
        if l.origin ∈ acc.seen then { acc with skipped := acc.skipped ++ [l.skip .duplicate] }
        else { acc with seen := acc.seen.insert l.origin, out := acc.out ++ [l.candidate] }

def portLe (a b : Candidate) : Prop := a.origin.port ≤ b.origin.port
def originTextLe (a b : Skipped) : Prop := a.origin ≤ b.origin

instance : DecidableRel portLe :=
  fun a b => inferInstanceAs (Decidable (a.origin.port ≤ b.origin.port))
instance : DecidableRel originTextLe := fun a b => inferInstanceAs (Decidable (a.origin ≤ b.origin))

/-- The candidates are sorted by port, and the reports by the text of the socket. -/
def filterListenersDetailed (all : List Listener) (filter : ListenerFilter) : FilterOutcome :=
  let done := all.foldl (filterStep filter) ⟨.empty, [], []⟩
  ⟨done.out.insertionSort portLe, done.skipped.insertionSort originTextLe⟩

/-! What becomes of each socket. -/

inductive Fate where
  | reported (skipped : Skipped)
  | admitted (candidate : Candidate)
  deriving DecidableEq

def Fate.report : Fate → Option Skipped
  | .reported skipped => some skipped
  | .admitted _ => none

def Fate.candidate : Fate → Option Candidate
  | .reported _ => none
  | .admitted candidate => some candidate

@[simp] theorem Fate.report_reported (skipped : Skipped) :
    (Fate.reported skipped).report = some skipped := rfl
@[simp] theorem Fate.report_admitted (candidate : Candidate) :
    (Fate.admitted candidate).report = none := rfl
@[simp] theorem Fate.candidate_reported (skipped : Skipped) :
    (Fate.reported skipped).candidate = none := rfl
@[simp] theorem Fate.candidate_admitted (candidate : Candidate) :
    (Fate.admitted candidate).candidate = some candidate := rfl

/-- The fate of a socket when these origins have been seen. -/
def ListenerFilter.fate (filter : ListenerFilter) (seen : HashSet Origin) (l : Listener) : Fate :=
  match filter.refusal l with
  | some reason => .reported (l.skip reason)
  | none => if l.origin ∈ seen then .reported (l.skip .duplicate) else .admitted l.candidate

/-- The sockets that are considered, each with its fate. -/
def ListenerFilter.fates (filter : ListenerFilter) (seen : HashSet Origin) :
    List Listener → List (Listener × Fate)
  | [] => []
  | l :: rest =>
      if !l.considered then filter.fates seen rest
      else
        match filter.fate seen l with
        | .reported skipped => (l, .reported skipped) :: filter.fates seen rest
        | .admitted candidate => (l, .admitted candidate) :: filter.fates
          (seen.insert l.origin) rest

theorem filterStep_fate (filter : ListenerFilter) (acc : Filtering) (l : Listener) :
    filterStep filter acc l =
      if !l.considered then acc
      else
        match filter.fate acc.seen l with
        | .reported skipped => { acc with skipped := acc.skipped ++ [skipped] }
        | .admitted candidate =>
            { acc with seen := acc.seen.insert l.origin, out := acc.out ++ [candidate] } := by
  unfold filterStep ListenerFilter.fate
  cases filter.refusal l with
  | some reason => rfl
  | none => by_cases repeated : l.origin ∈ acc.seen <;> simp [repeated]

theorem foldl_fates (filter : ListenerFilter) (all : List Listener) (acc : Filtering) :
    (all.foldl (filterStep filter) acc).out =
        acc.out ++ (filter.fates acc.seen all).filterMap (·.2.candidate) ∧
      (all.foldl (filterStep filter) acc).skipped =
        acc.skipped ++ (filter.fates acc.seen all).filterMap (·.2.report) := by
  induction all generalizing acc with
  | nil => simp [ListenerFilter.fates]
  | cons l rest ih =>
      obtain ⟨out, skipped⟩ := ih (filterStep filter acc l)
      rw [List.foldl_cons, out, skipped, filterStep_fate, ListenerFilter.fates]
      split
      · exact ⟨rfl, rfl⟩
      · cases filter.fate acc.seen l with
        | reported skipped => simp [List.filterMap_cons]
        | admitted candidate => simp [List.filterMap_cons]

def ListenerFilter.verdicts (filter : ListenerFilter) (all : List Listener) :
    List (Listener × Fate) := filter.fates .empty all

theorem candidates_perm (filter : ListenerFilter) (all : List Listener) :
    (filterListenersDetailed all filter).candidates.Perm
      ((filter.verdicts all).filterMap (·.2.candidate)) := by
  have collected := (foldl_fates filter all ⟨.empty, [], []⟩).1
  rw [List.nil_append] at collected
  calc (filterListenersDetailed all filter).candidates
      _ ~ (all.foldl (filterStep filter) ⟨.empty, [], []⟩).out := List.perm_insertionSort portLe _
      _ = (filter.verdicts all).filterMap (·.2.candidate) := collected

theorem skipped_perm (filter : ListenerFilter) (all : List Listener) :
    (filterListenersDetailed all filter).skipped.Perm
      ((filter.verdicts all).filterMap (·.2.report)) := by
  have collected := (foldl_fates filter all ⟨.empty, [], []⟩).2
  rw [List.nil_append] at collected
  calc (filterListenersDetailed all filter).skipped
      _ ~ (all.foldl (filterStep filter) ⟨.empty, [], []⟩).skipped :=
          List.perm_insertionSort originTextLe _
      _ = (filter.verdicts all).filterMap (·.2.report) := collected

theorem fates_considered (filter : ListenerFilter) (seen : HashSet Origin) (all : List Listener) :
    (filter.fates seen all).map Prod.fst = all.filter Listener.considered := by
  induction all generalizing seen with
  | nil => rfl
  | cons l rest ih =>
      rw [ListenerFilter.fates]
      cases counted : l.considered with
      | false => simp [counted, ih]
      | true =>
          cases filter.fate seen l with
          | reported skipped => simp [counted, ih]
          | admitted candidate => simp [counted, ih]

/-- A socket is reported by its own text, and becomes its own candidate if it passes. -/
def Fate.Of (filter : ListenerFilter) (l : Listener) : Fate → Prop
  | .reported skipped => ∃ reason, skipped = l.skip reason ∧
      reason ≠ .notCredible ∧ reason ≠ .unreachable
  | .admitted candidate => candidate = l.candidate ∧ filter.refusal l = none

theorem refusal_reason {filter : ListenerFilter} {l : Listener} {reason : SkipReason}
    (refused : filter.refusal l = some reason) : reason ≠ .notCredible ∧ reason ≠ .unreachable := by
  unfold ListenerFilter.refusal at refused
  repeat' split at refused
  all_goals cases refused
  all_goals exact ⟨nofun, nofun⟩

theorem fate_of (filter : ListenerFilter) (seen : HashSet Origin) (l : Listener) :
    (filter.fate seen l).Of filter l := by
  unfold ListenerFilter.fate
  cases refused : filter.refusal l with
  | some reason => exact ⟨reason, rfl, refusal_reason refused⟩
  | none =>
      dsimp only
      split
      · exact ⟨.duplicate, rfl, nofun, nofun⟩
      · exact ⟨rfl, refused⟩

theorem fates_of {filter : ListenerFilter} {seen : HashSet Origin} {all : List Listener}
    {item : Listener × Fate} (member : item ∈ filter.fates seen all) : item.2.Of filter item.1 := by
  induction all generalizing seen with
  | nil => cases member
  | cons l rest ih =>
      have here := fate_of filter seen l
      rw [ListenerFilter.fates] at member
      split at member
      · exact ih member
      · split at member
        · rename_i skipped shape
          rw [shape] at here
          rcases List.mem_cons.mp member with rfl | later
          · exact here
          · exact ih later
        · rename_i candidate shape
          rw [shape] at here
          rcases List.mem_cons.mp member with rfl | later
          · exact here
          · exact ih later

theorem admitted_unseen {filter : ListenerFilter} {seen : HashSet Origin} {l : Listener}
    {candidate : Candidate} (admitted : filter.fate seen l = .admitted candidate) :
    candidate = l.candidate ∧ l.origin ∉ seen := by
  unfold ListenerFilter.fate at admitted
  split at admitted
  · cases admitted
  · split at admitted
    · cases admitted
    · exact ⟨(Fate.admitted.inj admitted).symm, by assumption⟩

/-- Each origin is admitted once, and none that was seen before. -/
theorem fates_origins (filter : ListenerFilter) (seen : HashSet Origin) (all : List Listener) :
    (((filter.fates seen all).filterMap (·.2.candidate)).map Candidate.origin).Nodup ∧
      ∀ candidate ∈ (filter.fates seen all).filterMap (·.2.candidate),
        candidate.origin ∉ seen := by
  induction all generalizing seen with
  | nil => simp [ListenerFilter.fates]
  | cons l rest ih =>
      rw [ListenerFilter.fates]
      split
      · exact ih seen
      · split
        · exact ih seen
        · rename_i candidate shape
          obtain ⟨rfl, unseen⟩ := admitted_unseen shape
          obtain ⟨distinct, fresh⟩ := ih (seen.insert l.origin)
          simp only [List.filterMap_cons, Fate.candidate_admitted, List.map_cons, List.nodup_cons]
          refine ⟨⟨?_, distinct⟩, ?_⟩
          · intro again
            obtain ⟨other, member, same⟩ := List.mem_map.mp again
            exact fresh other member (HashSet.mem_insert.mpr (Or.inl same))
          · intro candidate member
            rcases List.mem_cons.mp member with rfl | later
            · exact unseen
            · exact fun known => fresh candidate later (HashSet.mem_insert.mpr (Or.inr known))

theorem candidates_nodup (filter : ListenerFilter) (all : List Listener) :
    ((filterListenersDetailed all filter).candidates.map Candidate.origin).Nodup :=
  ((candidates_perm filter all).map Candidate.origin).nodup_iff.mpr
  (fates_origins filter .empty all).1

/-- Every candidate stands for a socket of the table that passed all tests. -/
theorem candidate_passed {filter : ListenerFilter} {all : List Listener} {candidate : Candidate}
    (member : candidate ∈ (filterListenersDetailed all filter).candidates) :
    ∃ l ∈ all, l.considered = true ∧ filter.refusal l = none ∧ candidate = l.candidate := by
  have listed := (candidates_perm filter all).mem_iff.mp member
  obtain ⟨⟨l, fate⟩, inside, shape⟩ := List.mem_filterMap.mp listed
  have known : l ∈ all.filter Listener.considered := by
    rw [← fates_considered filter .empty all]
    exact List.mem_map_of_mem inside
  cases fate with
  | reported skipped => cases shape
  | admitted found =>
      obtain ⟨same, passed⟩ := fates_of inside
      obtain rfl := Option.some.inj shape
      exact ⟨l, (List.mem_filter.mp known).1, (List.mem_filter.mp known).2, passed, same⟩

/-! What the filter lets through. -/

/-- `127.0.0.1`, or the text of a loopback address. -/
def LocalHost (host : Str) : Prop :=
  host = "127.0.0.1".toList ∨ ∃ ip : IpAddr, ip.isLoopback = true ∧ host = ip.text

/-- The tests on port and origin. -/
structure ListenerFilter.Passes (filter : ListenerFilter) (origin : Origin) : Prop where
  port : filter.minPort ≤ origin.port
  allowed : origin.port ∉ filter.excludePorts
  listed : origin ∉ filter.excludeOrigins

theorem refusal_none {filter : ListenerFilter} {l : Listener} (passed : filter.refusal l = none) :
    filter.Passes l.origin ∧ (filter.loopbackOnly = true → isLocalBind l.socket = true) := by
  unfold ListenerFilter.refusal at passed
  split at passed
  · cases passed
  split at passed
  · cases passed
  split at passed
  · cases passed
  split at passed
  · cases passed
  split at passed
  · cases passed
  rename_i above allowed _ bound listed
  constructor
  · exact ⟨UInt16.not_lt.mp above, allowed, listed⟩
  · intro only
    simpa [only] using bound

theorem localHost_local {addr : SocketAddr} (bound : isLocalBind addr = true) :
    LocalHost (Origin.localHost addr) := by
  unfold Origin.localHost
  split
  · exact Or.inl rfl
  · rename_i specific
    have loopback : addr.ip.isLoopback = true := by simpa [isLocalBind, specific] using bound
    exact Or.inr ⟨addr.ip, loopback, rfl⟩

theorem candidate_local {filter : ListenerFilter} (only : filter.loopbackOnly = true)
    {all : List Listener} {candidate : Candidate}
    (member : candidate ∈ (filterListenersDetailed all filter).candidates) :
    LocalHost candidate.origin.host ∧ filter.Passes candidate.origin := by
  obtain ⟨l, -, -, passed, rfl⟩ := candidate_passed member
  obtain ⟨passes, bound⟩ := refusal_none passed
  exact ⟨localHost_local (bound only), passes⟩

end RaemoteServer.Discovery
