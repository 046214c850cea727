import RaemoteServer.Discovery.ExcludedOrigins
import RaemoteServer.Http.Proxy
import RaemoteServer.Http.Redirects

/-! Absolute redirects of an app to itself. -/

namespace RaemoteServer.Http

open Text Discovery Net Rfc3986

/-- The address whose text is the host of an origin: the wildcard stands for the loopback. -/
def reportedIp (ip : IpAddr) : IpAddr := if ip.isUnspecified then .v4 ⟨127, 0, 0, 1⟩ else ip

theorem reportedIp_text (ip : IpAddr) : (reportedIp ip).text = reportedHost ip := by
  unfold reportedIp reportedHost
  split
  · decide
  · rfl

/-- The host of a URL as the `url` crate prints it: an IPv6 address is in brackets, and its last
four bytes are never printed as an IPv4 address. -/
def urlHost : IpAddr → Str
  | .v4 ip => ip.text
  | .v6 ip =>
      let segments := segmentsOf ip.octets
      let zeros := longestZeros 0 ⟨0, 0⟩ ⟨0, 0⟩ segments
      let text :=
        if zeros.len > 1 then
          segmentsText (segments.take zeros.start) ++ "::".toList ++
            segmentsText (segments.drop (zeros.start + zeros.len))
        else segmentsText segments
      '[' :: text ++ [']']

/-- What the `url` crate makes of a path and query on this address and port. -/
structure OwnUrl (ip : IpAddr) (port : UInt16) (p : Str) (url : Url) : Prop where
  host : url.hostStr = some (urlHost ip)
  port : url.portOrKnownDefault = some port
  target : url.path ++ querySuffix url.query = p
  fragment : url.fragment = none

/-! The comparison of hosts. -/

theorem trimBrackets_plain {host : Str} (plain : ∀ c ∈ host, c ≠ '[' ∧ c ≠ ']') :
    ((host.dropWhile (· == '[')).reverse.dropWhile (· == ']')).reverse = host := by
  have front : host.dropWhile (· == '[') = host := by
    cases host with
    | nil => rfl
    | cons c rest => exact List.dropWhile_cons_of_neg (by simp [(plain c List.mem_cons_self).1])
  have back : host.reverse.dropWhile (· == ']') = host.reverse := by
    cases reversed : host.reverse with
    | nil => rfl
    | cons c rest =>
        have member : c ∈ host := List.mem_reverse.mp (reversed ▸ List.mem_cons_self)
        exact List.dropWhile_cons_of_neg (by simp [(plain c member).2])
  rw [front, back, List.reverse_reverse]

/-- The hosts that stand for the client's own machine, as they are reported. -/
theorem isLoopbackHost_text (ip : IpAddr) :
    isLoopbackHost ip.text = true ↔ ip = .v4 ⟨127, 0, 0, 1⟩ ∨ ip = .v6 .localhost := by
  have plain : ∀ c ∈ ip.text, c ≠ '[' ∧ c ≠ ']' :=
    fun c member => (addressChar_plain (IpAddr.mem_text member)).2
  have four : (IpAddr.v4 ⟨127, 0, 0, 1⟩).text = "127.0.0.1".toList := by decide
  have six : (IpAddr.v6 .localhost).text = "::1".toList := by decide
  have name : ip.text ≠ "localhost".toList := by
    intro same
    have letter : 'l' ∈ ip.text := by rw [same]; decide
    exact absurd (IpAddr.mem_text letter) (by decide)
  simp only [isLoopbackHost, trimBrackets_plain plain, Bool.or_eq_true, beq_iff_eq, name, or_false,
    ← four, ← six, IpAddr.text_injective.eq_iff]

theorem not_bracket_lower {c : Char} (address : addressChar c = true) : c.toLower ≠ '[' := by
  intro bracket
  by_cases upper : c.isUpper = true
  · have alpha : c.isAlpha = true := Bool.or_eq_true_iff.mpr (Or.inl upper)
    have lower := Char.isLower_toLower_eq_isAlpha (c := c)
    rw [bracket, alpha] at lower
    exact absurd lower (by decide)
  · rw [Char.toLower_eq_of_not_isUpper upper] at bracket
    exact (addressChar_plain address).2.1 bracket

/-- The brackets are compared too. -/
theorem bracketed_differs (text : Str) (ip : IpAddr) :
    eqIgnoreAsciiCase ('[' :: text) ip.text = false := by
  rw [eqIgnoreAsciiCase, beq_eq_false_iff_ne]
  intro same
  have bracket : '[' ∈ ip.text.map Char.toLower := by
    rw [← same]
    exact List.mem_map.mpr ⟨'[', List.mem_cons_self, rfl⟩
  obtain ⟨c, member, lower⟩ := List.mem_map.mp bracket
  exact not_bracket_lower (IpAddr.mem_text member) lower

/-- The URL's host is taken for the host of the origin. -/
def sameHost (host other : Str) : Bool :=
  eqIgnoreAsciiCase host other || (isLoopbackHost host && isLoopbackHost other)

theorem sameHost_urlHost (ip : IpAddr) :
    sameHost (urlHost ip) ip.text = true ↔ (∃ four, ip = .v4 four) ∨ ip = .v6 .localhost := by
  cases ip with
  | v4 four => simp [sameHost, urlHost, IpAddr.text, eqIgnoreAsciiCase]
  | v6 six =>
      have differs : eqIgnoreAsciiCase (urlHost (.v6 six)) (IpAddr.v6 six).text = false :=
        bracketed_differs _ _
      have own : isLoopbackHost (urlHost (.v6 .localhost)) = true := by decide
      rw [sameHost, differs, Bool.false_or, Bool.and_eq_true, isLoopbackHost_text]
      simp only [reduceCtorEq, exists_false, false_or]
      constructor
      · exact fun both => both.2
      · intro same
        rw [same]
        exact ⟨own, rfl⟩

theorem rewriteLocation_eq {parse : Str → Option Url} {value host : Str} {url : Url}
    {origin : Origin}
    (parsed : parse value = some url) (hosted : url.hostStr = some host)
    (port : url.portOrKnownDefault = some origin.port) :
    rewriteLocation parse value origin =
      if sameHost host origin.host then
        withSuffix (if url.path.isEmpty then ['/'] else url.path) url.query url.fragment
      else value := by
  simp only [rewriteLocation, parsed, hosted, port, beq_self_eq_true, Bool.and_true]
  change (if !sameHost host origin.host then value else _) = _
  cases sameHost host origin.host <;> rfl

/-- An absolute redirect of an app to itself is made relative for IPv4 addresses and for the two
IPv6 addresses that stand for the own machine, and for no other. -/
theorem own_redirect_iff {parse : Str → Option Url} {addr : SocketAddr} {p : Str} {url : Url}
    (slash : p.head? = some '/')
    (parsed : parse (upstreamBase (.http (Origin.localHost addr) addr.port) ++ p) = some url)
    (own : OwnUrl (reportedIp addr.ip) addr.port p url) :
    rewriteLocation parse (upstreamBase (.http (Origin.localHost addr) addr.port) ++ p)
        (.http (Origin.localHost addr) addr.port) = p ↔
      (∃ four, addr.ip = .v4 four) ∨ addr.ip = .v6 .unspecified ∨ addr.ip = .v6 .localhost := by
  have host : Origin.localHost addr = (reportedIp addr.ip).text := by
    rw [localHost_eq, reportedIp_text]
  have path : url.path ≠ [] := by
    intro empty
    have target := own.target
    rw [empty, List.nil_append] at target
    rw [← target] at slash
    cases query : url.query with
    | none => simp [querySuffix, query] at slash
    | some text => simp [querySuffix, query] at slash
  have relative : withSuffix (if url.path.isEmpty then ['/'] else url.path) url.query url.fragment =
      p := by
    rw [if_neg (by simpa using path), own.fragment, ← own.target]
    exact List.append_nil _
  have absolute : upstreamBase (.http (Origin.localHost addr) addr.port) ++ p ≠ p := by
    intro same
    have lengths := congrArg List.length same
    simp only [upstreamBase, Origin.http, Scheme.asStr, List.length_append, String.length_toList]
      at lengths
    have scheme : "http".length = 4 := rfl
    omega
  have reported : sameHost (urlHost (reportedIp addr.ip)) (Origin.localHost addr) = true ↔
      (∃ four, addr.ip = .v4 four) ∨ addr.ip = .v6 .unspecified ∨ addr.ip = .v6 .localhost := by
    rw [host, sameHost_urlHost, reportedIp]
    by_cases wildcard : addr.ip.isUnspecified = true
    · rw [if_pos wildcard]
      rcases unspecified_cases wildcard with same | same
      · simp [same]
      · simp [same]
    · rw [if_neg wildcard]
      have other : addr.ip ≠ .v6 .unspecified := by
        intro same
        rw [same] at wildcard
        exact wildcard (by decide)
      simp only [other, false_or]
  rw [rewriteLocation_eq parsed own.host own.port, relative, ← reported]
  split
  · rename_i same
    exact iff_of_true rfl same
  · rename_i other
    exact iff_of_false absolute other

def loopbackText : Str := "http://[::1]:8080/panel?tab=2".toList

def loopbackUrl : Url :=
  ⟨some "[::1]".toList, some 8080, "/panel".toList, some "tab=2".toList, none⟩

theorem loopback_redirect_relative :
    rewriteLocation (parseOnly loopbackText loopbackUrl) loopbackText (.http "::1".toList 8080) =
      "/panel?tab=2".toList := by
  have own : OwnUrl (reportedIp (.v6 .localhost)) 8080 "/panel?tab=2".toList loopbackUrl :=
    ⟨by decide, by decide, by decide, rfl⟩
  exact (@own_redirect_iff _ (.v6 .localhost 8080 0 0) _ _ rfl (if_pos (by decide)) own).mpr
    (Or.inr (Or.inr rfl))

/-- `fd00::1`, an address of the server in its local network. -/
def uniqueLocal : Ipv6Addr := ⟨[0xfd, 0, 0, 0, 0, 0, 0, 0, 0, 0, 0, 0, 0, 0, 0, 1], rfl⟩

def uniqueLocalText : Str := "http://[fd00::1]:8123/panel".toList

def uniqueLocalUrl : Url := ⟨some "[fd00::1]".toList, some 8123, "/panel".toList, none, none⟩

/-- The redirect to itself stays absolute. -/
theorem unique_local_redirect_absolute :
    Origin.localHost (.v6 uniqueLocal 8123 0 0) = "fd00::1".toList ∧
    upstreamBase (.http "fd00::1".toList 8123) ++ "/panel".toList = uniqueLocalText ∧
    OwnUrl (reportedIp (.v6 uniqueLocal)) 8123 "/panel".toList uniqueLocalUrl ∧
    rewriteLocation (parseOnly uniqueLocalText uniqueLocalUrl) uniqueLocalText
      (.http "fd00::1".toList 8123) = uniqueLocalText ∧ uniqueLocalText ≠ "/panel".toList := by
  have own : OwnUrl (reportedIp (.v6 uniqueLocal)) 8123 "/panel".toList uniqueLocalUrl :=
    ⟨by decide, by decide, by decide, rfl⟩
  exact ⟨by decide, by decide, own, by decide, by decide⟩

end RaemoteServer.Http
