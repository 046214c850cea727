import RaemoteServer.Discovery.Model
import RaemoteServer.Library.Rfc3986

/-! `Location` headers of proxied apps, and where a browser goes with the rewritten ones. -/

namespace RaemoteServer.Http

open Text Discovery Rfc3986

/-- What is read of `url::Url`. -/
structure Url where
  hostStr : Option Str
  portOrKnownDefault : Option UInt16
  path : Str
  query : Option Str
  fragment : Option Str
  deriving DecidableEq

/-- `eq_ignore_ascii_case` -/
def eqIgnoreAsciiCase (a b : Str) : Bool := a.map Char.toLower == b.map Char.toLower

/-- Brackets are taken off, however many there are. -/
def isLoopbackHost (host : Str) : Bool :=
  let host := ((host.dropWhile (· == '[')).reverse.dropWhile (· == ']')).reverse
  host == "127.0.0.1".toList || host == "localhost".toList || host == "::1".toList

/-- `parse` is `url::Url::parse`. -/
def rewriteLocation (parse : Str → Option Url) (value : Str) (origin : Origin) : Str :=
  match parse value with
  | none => value
  | some url =>
      match url.hostStr with
      | none => value
      | some host =>
          let sameHost := eqIgnoreAsciiCase host origin.host ||
            (isLoopbackHost host && isLoopbackHost origin.host)
          let samePort := url.portOrKnownDefault == some origin.port
          if !(sameHost && samePort) then value
          else withSuffix (if url.path.isEmpty then ['/'] else url.path) url.query url.fragment

/-- What the `url` crate promises of a URL that has a host: its path is a list of segments with
a slash before each, dot segments are resolved, and neither path nor query has a delimiter of
what follows it. -/
structure UrlLaws (parse : Str → Option Url) : Prop where
  path : ∀ value url, parse value = some url → url.hostStr ≠ none →
    ∃ segments, url.path = rooted segments ∧
      ∀ segment ∈ segments, NormalSegment segment ∧ '?' ∉ segment ∧ '#' ∉ segment
  query : ∀ value url text, parse value = some url → url.query = some text → '#' ∉ text

/-- Resolved against the base, the location names what the app had named, on the base's own
host and port. -/
def StaysInTunnel (base : Reference) (url : Url) (location : Str) : Prop :=
  let target := resolve base (Rfc3986.parse location)
  target.authority = base.authority ∧ target.path = url.path ∧ target.query = url.query ∧
    target.fragment = url.fragment

instance (base : Reference) (url : Url) (location : Str) :
    Decidable (StaysInTunnel base url location) :=
  inferInstanceAs (Decidable (_ ∧ _ ∧ _ ∧ _))

theorem rewriteLocation_changed {parse : Str → Option Url} {value : Str} {origin : Origin}
    (changed : rewriteLocation parse value origin ≠ value) :
    ∃ url, parse value = some url ∧ url.hostStr ≠ none ∧
      rewriteLocation parse value origin =
        withSuffix (if url.path.isEmpty then ['/'] else url.path) url.query url.fragment := by
  unfold rewriteLocation at changed ⊢
  cases parsed : parse value with
  | none => simp [parsed] at changed
  | some url =>
      cases found : url.hostStr with
      | none => simp [parsed, found] at changed
      | some host =>
          refine ⟨url, rfl, by simp [found], ?_⟩
          simp only [parsed, found] at changed ⊢
          split
          · rename_i other
            rw [if_pos other] at changed
            exact absurd rfl changed
          · rfl

theorem delimiter_free {segments : List Str} {delimiter : Char} (other : delimiter ≠ '/')
    (free : ∀ segment ∈ segments, delimiter ∉ segment) : delimiter ∉ rooted segments := by
  intro inside
  obtain ⟨segment, member, here⟩ := List.mem_flatMap.mp inside
  rcases List.mem_cons.mp here with same | later
  · exact other same
  · exact free segment member later

theorem path_delimiters {url : Url} {segments : List Str} (shape : url.path = rooted segments)
    (normal : ∀ segment ∈ segments, NormalSegment segment ∧ '?' ∉ segment ∧ '#' ∉ segment) :
    '?' ∉ url.path ∧ '#' ∉ url.path := by
  rw [shape]
  exact ⟨delimiter_free (by decide) (fun segment member => (normal segment member).2.1),
    delimiter_free (by decide) (fun segment member => (normal segment member).2.2)⟩

/-- A path with one slash in front comes through the resolution unchanged. -/
theorem stays_of_single {url : Url} {segments : List Str} (shape : url.path = rooted segments)
    (normal : ∀ segment ∈ segments, NormalSegment segment ∧ '?' ∉ segment ∧ '#' ∉ segment)
    (ends : ∀ text, url.query = some text → '#' ∉ text) (present : url.path ≠ [])
    (single : ¬ ['/', '/'] <+: url.path) (base : Reference) :
    StaysInTunnel base url (withSuffix url.path url.query url.fragment) := by
  obtain ⟨noQuery, noFragment⟩ := path_delimiters shape normal
  have dots : removeDotSegments url.path = url.path := by
    rw [shape]
    exact removeDotSegments_rooted (fun segment member => (normal segment member).1)
  cases segments with
  | nil => exact absurd shape present
  | cons segment rest =>
      obtain ⟨tail, path⟩ : ∃ tail, url.path = '/' :: tail := ⟨_, shape⟩
      have one : tail.head? ≠ some '/' := by
        intro double
        obtain ⟨more, rfl⟩ := List.head?_eq_some_iff.mp double
        exact single (path ▸ ⟨more, rfl⟩)
      rw [path] at noQuery noFragment dots
      have parts := parse_rooted tail url.query url.fragment noQuery noFragment ends
      rw [splitAuthority_path one] at parts
      simp [StaysInTunnel, path, parts, resolve, dots]

/-- A path with two slashes in front is read as an authority. -/
theorem leaves_of_double {url : Url} {segments : List Str} (shape : url.path = rooted segments)
    (normal : ∀ segment ∈ segments, NormalSegment segment ∧ '?' ∉ segment ∧ '#' ∉ segment)
    (ends : ∀ text, url.query = some text → '#' ∉ text)
    (double : ['/', '/'] <+: url.path) (base : Reference) :
    ¬ StaysInTunnel base url (withSuffix url.path url.query url.fragment) := by
  obtain ⟨noQuery, noFragment⟩ := path_delimiters shape normal
  obtain ⟨rest, path⟩ : ∃ rest, url.path = '/' :: '/' :: rest := double.imp fun _ same => same.symm
  rw [path] at noQuery noFragment
  have parts := parse_rooted ('/' :: rest) url.query url.fragment noQuery noFragment ends
  rintro ⟨-, same, -⟩
  rw [path] at same
  -- what is left of the path after the authority is too short
  have bound := removeDots_length (rest.dropWhile (· ≠ '/')).length (rest.dropWhile (· ≠ '/')) []
  have shorter : (rest.dropWhile (· ≠ '/')).length ≤ rest.length :=
    (List.dropWhile_sublist _).length_le
  rw [parts] at same
  have lengths := congrArg List.length same
  simp only [resolve, splitAuthority, Option.isSome_none, Option.isSome_some, Bool.false_eq_true,
    if_false, if_true, removeDotSegments, List.length_cons, List.length_nil] at lengths bound
  omega

/-- A rewritten location keeps the browser in the tunnel, and on the page the app meant,
exactly when the path it is made of begins with one slash. -/
theorem redirect_stays_iff {parse : Str → Option Url} (laws : UrlLaws parse) {value : Str}
    {origin : Origin} (changed : rewriteLocation parse value origin ≠ value) :
    ∃ url, parse value = some url ∧ ∀ base,
      (StaysInTunnel base url (rewriteLocation parse value origin) ↔
        url.path ≠ [] ∧ ¬ ['/', '/'] <+: url.path) := by
  obtain ⟨url, parsed, hosted, rewritten⟩ := rewriteLocation_changed changed
  obtain ⟨segments, shape, normal⟩ := laws.path value url parsed hosted
  have ends : ∀ text, url.query = some text → '#' ∉ text :=
    fun text => laws.query value url text parsed
  refine ⟨url, parsed, fun base => ?_⟩
  rw [rewritten]
  by_cases absent : url.path = []
  · have parts := parse_rooted [] url.query url.fragment (by decide) (by decide) ends
    simp [StaysInTunnel, absent, parts, resolve, splitAuthority, removeDotSegments, removeDots,
      firstSegment]
  · rw [if_neg (by simpa using absent)]
    by_cases double : ['/', '/'] <+: url.path
    · exact iff_of_false (leaves_of_double shape normal ends double base) (fun h => h.2 double)
    · exact iff_of_true (stays_of_single shape normal ends absent double base) ⟨absent, double⟩

/-- The `url` crate at one text. -/
def parseOnly (text : Str) (url : Url) (value : Str) : Option Url :=
  if value = text then some url else none

theorem parseOnly_eq {text value : Str} {url other : Url}
    (parsed : parseOnly text url value = some other) : other = url := by
  unfold parseOnly at parsed
  split at parsed
  · exact (Option.some.inj parsed).symm
  · cases parsed

theorem parseOnly_laws {text : Str} {url : Url} (segments : List Str)
    (shape : url.path = rooted segments)
    (normal : ∀ segment ∈ segments, NormalSegment segment ∧ '?' ∉ segment ∧ '#' ∉ segment)
    (ends : ∀ query ∈ url.query, '#' ∉ query) : UrlLaws (parseOnly text url) := by
  constructor
  · intro value other parsed _
    rw [parseOnly_eq parsed]
    exact ⟨segments, shape, normal⟩
  · intro value other query parsed found
    rw [parseOnly_eq parsed] at found
    exact ends query found

def loginText : Str := "http://127.0.0.1:8096/web/login?next=%2F#top".toList

def loginUrl : Url :=
  ⟨some "127.0.0.1".toList, some 8096, "/web/login".toList, some "next=%2F".toList,
    some "top".toList⟩

theorem login_stays : StaysInTunnel (Rfc3986.parse "http://localhost:41000/app".toList) loginUrl
    (rewriteLocation (parseOnly loginText loginUrl) loginText (.http "localhost".toList 8096)) := by
  have laws : UrlLaws (parseOnly loginText loginUrl) :=
    parseOnly_laws ["web".toList, "login".toList] (by decide)
      (by unfold NormalSegment; decide) (by decide)
  have changed : rewriteLocation (parseOnly loginText loginUrl) loginText
      (.http "localhost".toList 8096) ≠ loginText := by decide
  obtain ⟨url, parsed, stays⟩ := redirect_stays_iff laws changed
  obtain rfl : loginUrl = url := by
    unfold parseOnly at parsed
    rw [if_pos rfl] at parsed
    exact Option.some.inj parsed
  exact (stays _).mpr (by decide)

def evilText : Str := "http://127.0.0.1:8096//evil.com/x".toList

def evilUrl : Url :=
  ⟨some "127.0.0.1".toList, some 8096, "//evil.com/x".toList, none, none⟩

/-- An open redirect of the app: the rewritten location names another host. -/
theorem double_slash_leaves :
    UrlLaws (parseOnly evilText evilUrl) ∧
    rewriteLocation (parseOnly evilText evilUrl) evilText (.http "127.0.0.1".toList 8096) =
      "//evil.com/x".toList ∧
    (resolve (Rfc3986.parse "http://localhost:41000/app".toList)
      (Rfc3986.parse "//evil.com/x".toList)).authority = some "evil.com".toList ∧
    ¬ StaysInTunnel (Rfc3986.parse "http://localhost:41000/app".toList) evilUrl
      (rewriteLocation (parseOnly evilText evilUrl) evilText (.http "127.0.0.1".toList 8096)) := by
  refine ⟨?_, by decide, by decide, by decide⟩
  exact parseOnly_laws [[], "evil.com".toList, "x".toList] (by decide)
    (by unfold NormalSegment; decide) (by decide)

end RaemoteServer.Http
