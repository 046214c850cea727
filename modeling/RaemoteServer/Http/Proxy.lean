import RaemoteServer.Discovery.Listener
import RaemoteServer.Http.Routing
import RaemoteServer.Library.Rfc3986

/-! Where a proxied request goes. -/

namespace RaemoteServer.Http

open Text Discovery Rfc3986

def upstreamBase (origin : Origin) : Str :=
  origin.scheme.asStr ++ "://".toList ++ origin.authority

def querySuffix (query : Option Str) : Str := (query.map ('?' :: ·)).getD []

def upstreamUri (origin : Origin) (subPath : Str) (query : Option Str) : Str :=
  upstreamBase origin ++ '/' :: (subPath ++ querySuffix query)

/-- The host and port that are connected to. An upgrade goes over a socket of its own; else the
HTTP client connects, to what `connect` gives for a URI that it accepts. -/
def proxyDial (connect : Str → Option (Str × UInt16)) (upgrade : Bool) (origin : Origin)
    (subPath : Str) (query : Option Str) : Option (Str × UInt16) :=
  if upgrade then some (origin.host, origin.port) else connect (upstreamUri origin subPath query)

/-- The HTTP client connects to the host and port of the authority of a URI. -/
structure ClientLaws (connect : Str → Option (Str × UInt16)) : Prop where
  authority : ∀ uri host port, connect uri = some (host, port) →
    (Rfc3986.parse uri).authority.bind hostAndPort = some (host, port)

/-! Local origins. -/

theorem local_plain {host : Str} (near : LocalHost host) :
    (∀ c ∈ host, c.isDigit = true ∨ c = '.') ∨ host = "::1".toList := by
  rcases near with rfl | ⟨ip, loopback, rfl⟩
  · exact Or.inl (by simp)
  · exact Net.loopback_text loopback

/-- The authority of a local origin, and what it is made of. -/
theorem local_authority {origin : Origin} (near : LocalHost origin.host) :
    hostAndPort origin.authority = some (origin.host, origin.port) ∧
      ∀ c ∈ origin.authority, c ∉ ['/', '?', '#'] := by
  have digit {c : Char} (member : c ∈ decimal origin.port.toNat) : c ∉ ['/', '?', '#'] := by
    intro inside
    have numeric := isDigit_of_mem_decimal member
    simp only [List.mem_cons, List.not_mem_nil, or_false] at inside
    rcases inside with rfl | rfl | rfl <;> exact absurd numeric (by decide)
  rcases local_plain near with plain | six
  · have host {c : Char} (member : c ∈ origin.host) : c ∉ ['/', '?', '#', '@', '[', ':'] := by
      intro inside
      have early := plain c member
      simp only [List.mem_cons, List.not_mem_nil, or_false] at inside
      rcases inside with rfl | rfl | rfl | rfl | rfl | rfl <;> exact absurd early (by decide)
    rw [Origin.authority, if_neg (fun inside => host inside (by decide))]
    constructor
    · exact hostAndPort_named (fun c member special =>
        host member (List.mem_append_right ['/', '?', '#'] special)) origin.port
    · intro c member
      rcases List.mem_append.mp member with early | late
      · exact fun special => host early (List.mem_append_left ['@', '[', ':'] special)
      · rcases List.mem_cons.mp late with rfl | port
        · decide
        · exact digit port
  · rw [Origin.authority, six, if_pos (by decide)]
    constructor
    · exact hostAndPort_literal (by simp) origin.port
    · intro c member
      have fixed : ∀ c ∈ '[' :: "::1".toList ++ "]:".toList, c ∉ ['/', '?', '#'] := by simp
      rcases List.mem_append.mp member with early | late
      · exact fixed c early
      · exact digit late

/-- An origin that is local is where its requests go, whatever they ask for. -/
theorem proxyDial_local {connect : Str → Option (Str × UInt16)} (laws : ClientLaws connect)
    {origin : Origin} (near : LocalHost origin.host) {upgrade : Bool} {subPath : Str}
    {query : Option Str} {host : Str} {port : UInt16}
    (dialed : proxyDial connect upgrade origin subPath query = some (host, port)) :
    host = origin.host ∧ port = origin.port := by
  obtain ⟨named, ends⟩ := local_authority near
  have reached : some (host, port) = some (origin.host, origin.port) := by
    unfold proxyDial at dialed
    split at dialed
    · exact dialed.symm
    · have authority := @parse_authority origin.scheme.asStr _ ?_ ?_ ends
        (subPath ++ querySuffix query)
      · have law := laws.authority _ host port dialed
        rw [upstreamUri, upstreamBase, authority, Option.bind_some, named] at law
        exact law.symm
      · cases origin.scheme
        simp [Scheme.asStr]
      · cases origin.scheme
        simp [Scheme.asStr]
  obtain ⟨rfl, rfl⟩ := Prod.mk.inj (Option.some.inj reached)
  exact ⟨rfl, rfl⟩

end RaemoteServer.Http
