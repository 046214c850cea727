import RaemoteServer.Discovery.Probe

/-! Which redirects the probe follows, and what it asks for on the way. -/

namespace RaemoteServer.Discovery

open Text Http Rfc3986

/-- The text of the URL a location is resolved against. -/
def baseText (origin : Origin) (basePath : Str) : Str :=
  origin.scheme.asStr ++ "://".toList ++ origin.authority ++ basePath

/-- `join` is `url::Url::join` on the text of a base. Where the URL has a host its path is a list
of segments with a slash before each, and what is not visible ASCII is percent-encoded in path and
query. -/
structure JoinLaws (join : Str → Str → Option Url) : Prop where
  path : ∀ base location url, join base location = some url → url.hostStr ≠ none →
    ∃ segments, url.path = rooted segments
  encoded : ∀ base location url, join base location = some url → url.hostStr ≠ none →
    ∀ c ∈ url.path ++ url.query.getD [], 0x21 ≤ c.toNat ∧ c.toNat ≤ 0x7E

/-- The host counts without brackets and without the case of its letters. -/
structure SameOrigin (origin : Origin) (url : Url) : Prop where
  host : ∃ host, url.hostStr = some host ∧
    eqIgnoreAsciiCase (trimBrackets host) origin.host = true
  port : url.portOrKnownDefault = some origin.port

def pathAndQuery (url : Url) : Str :=
  (if url.path.isEmpty then ['/'] else url.path) ++ (url.query.map ('?' :: ·)).getD []

/-- What the target of a request line may be. -/
structure SafePath (path : Str) : Prop where
  absolute : path.head? = some '/'
  unbroken : ∀ c ∈ path, c ≠ '\r' ∧ c ≠ '\n' ∧ c ≠ ' '

/-- An answer to a request for `path` that redirects to `next` on the same origin. -/
structure Followed (join : Str → Str → Option Url) (origin : Origin) (path : Str)
    (response : RawResponse) (next : Str) : Prop where
  status : 300 ≤ response.status ∧ response.status < 400
  target : ∃ location url, response.location = some location ∧
    join (baseText origin path) location = some url ∧ SameOrigin origin url ∧
    next = pathAndQuery url

section

variable {join : Str → Str → Option Url} {origin : Origin}

theorem redirectPath_eq_some {path location next : Str} :
    redirectPath join origin path location = some next ↔
      ∃ url, join (baseText origin path) location = some url ∧ SameOrigin origin url ∧
        next = pathAndQuery url := by
  simp only [redirectPath, Option.bind_eq_bind, Option.bind_eq_some_iff, baseText]
  constructor
  · rintro ⟨url, joined, host, named, followed⟩
    split at followed
    · cases followed
    case isFalse sameHost =>
      split at followed
      · cases followed
      case isFalse samePort =>
        refine ⟨url, joined, ⟨⟨host, named, by simpa using sameHost⟩, not_not.mp samePort⟩, ?_⟩
        exact (Option.some.inj followed).symm
  · rintro ⟨url, joined, ⟨⟨host, named, sameHost⟩, samePort⟩, rfl⟩
    refine ⟨url, joined, host, named, ?_⟩
    rw [sameHost, if_neg (by decide), if_neg (not_not.mpr samePort)]
    rfl

def nextPath (join : Str → Str → Option Url) (origin : Origin) (path : Str)
    (response : RawResponse) : Option Str :=
  if 300 ≤ response.status ∧ response.status < 400 then
    response.location.bind (redirectPath join origin path)
  else none

theorem nextPath_eq_some {path next : Str} {response : RawResponse} :
    nextPath join origin path response = some next ↔
      Followed join origin path response next := by
  unfold nextPath
  constructor
  · intro found
    split at found
    case isTrue status =>
      obtain ⟨location, given, path⟩ := Option.bind_eq_some_iff.mp found
      obtain ⟨url, joined, same, rfl⟩ := redirectPath_eq_some.mp path
      exact ⟨status, location, url, given, joined, same, rfl⟩
    case isFalse => cases found
  · rintro ⟨status, location, url, given, joined, same, rfl⟩
    rw [if_pos status, given]
    exact redirectPath_eq_some.mpr ⟨url, joined, same, rfl⟩

theorem Followed.safe (laws : JoinLaws join) {path next : Str} {response : RawResponse}
    (followed : Followed join origin path response next) : SafePath next := by
  obtain ⟨-, location, url, -, joined, same, rfl⟩ := followed
  obtain ⟨host, named, -⟩ := same.host
  have hosted : url.hostStr ≠ none := by
    rw [named]
    exact Option.some_ne_none host
  obtain ⟨segments, shape⟩ := laws.path _ _ _ joined hosted
  have encoded := laws.encoded _ _ _ joined hosted
  have printed {c : Char} (range : 0x21 ≤ c.toNat ∧ c.toNat ≤ 0x7E) :
      c ≠ '\r' ∧ c ≠ '\n' ∧ c ≠ ' ' := by
    refine ⟨?_, ?_, ?_⟩ <;> rintro rfl <;> revert range <;> decide
  constructor
  · cases segments with
    | nil =>
        have empty : url.path = [] := shape
        rw [pathAndQuery, empty]
        rfl
    | cons segment others =>
        obtain ⟨rest, rooted⟩ : ∃ rest, url.path = '/' :: rest := ⟨_, shape⟩
        rw [pathAndQuery, rooted]
        rfl
  · intro c member
    rcases List.mem_append.mp member with inPath | inQuery
    · split at inPath
      · rw [List.mem_singleton.mp inPath]
        decide
      · exact printed (encoded c (List.mem_append_left _ inPath))
    · cases query : url.query with
      | none =>
          rw [query] at inQuery
          cases inQuery
      | some text =>
          rw [query] at inQuery encoded
          rcases List.mem_cons.mp inQuery with rfl | inText
          · decide
          · exact printed (encoded c (List.mem_append_right _ inText))

/-! The course of a probe. -/

variable (join origin) in
/-- The turns left, the path of the next request, and what the exchanges come to: the requests and
the result. -/
inductive ProbeCourse :
    Nat → Str → List (Option RawResponse) → List Dial → Option ProbeResult → Prop
  | exhausted (path : Str) (exchanges : List (Option RawResponse)) :
      ProbeCourse 0 path exchanges [] none
  | late (fuel : Nat) (path : Str) : ProbeCourse fuel path [] [] none
  | silent (fuel : Nat) (path : Str) (rest : List (Option RawResponse)) :
      ProbeCourse (fuel + 1) path (none :: rest) [⟨origin.host, origin.port, path⟩] none
  | redirected {fuel : Nat} {path next : Str} {response : RawResponse}
      {rest : List (Option RawResponse)} {dials : List Dial} {result : Option ProbeResult}
      (followed : Followed join origin path response next)
      (later : ProbeCourse fuel next rest dials result) :
      ProbeCourse (fuel + 1) path (some response :: rest)
        (⟨origin.host, origin.port, path⟩ :: dials) result
  | answered (fuel : Nat) {path : Str} {response : RawResponse} (rest : List (Option RawResponse))
      (last : ∀ next, ¬ Followed join origin path response next) :
      ProbeCourse (fuel + 1) path (some response :: rest) [⟨origin.host, origin.port, path⟩]
        (some ⟨response.status, response.title, response.server⟩)

theorem probeLoop_next {path next : Str} {response : RawResponse}
    (found : nextPath join origin path response = some next) (fuel : Nat)
    (rest : List (Option RawResponse)) :
    probeLoop join origin (fuel + 1) path (some response :: rest) =
      (⟨origin.host, origin.port, path⟩ :: (probeLoop join origin fuel next rest).1,
        (probeLoop join origin fuel next rest).2) := by
  rw [nextPath] at found
  rw [probeLoop, found]

theorem probeLoop_last {path : Str} {response : RawResponse}
    (last : nextPath join origin path response = none) (fuel : Nat)
    (rest : List (Option RawResponse)) :
    probeLoop join origin (fuel + 1) path (some response :: rest) =
      ([⟨origin.host, origin.port, path⟩],
        some ⟨response.status, response.title, response.server⟩) := by
  rw [nextPath] at last
  rw [probeLoop, last]

theorem probeLoop_course (join : Str → Str → Option Url) (origin : Origin) (fuel : Nat) (path : Str)
    (exchanges : List (Option RawResponse)) :
    ProbeCourse join origin fuel path exchanges (probeLoop join origin fuel path exchanges).1
      (probeLoop join origin fuel path exchanges).2 := by
  induction fuel generalizing path exchanges with
  | zero => exact .exhausted path exchanges
  | succ fuel ih =>
      match exchanges with
      | [] => exact .late _ path
      | none :: rest => exact .silent fuel path rest
      | some response :: rest =>
          cases next : nextPath join origin path response with
          | some target =>
              rw [probeLoop_next next]
              exact .redirected (nextPath_eq_some.mp next) (ih target rest)
          | none =>
              rw [probeLoop_last next]
              refine .answered fuel rest (fun target followed => ?_)
              rw [nextPath_eq_some.mpr followed] at next
              cases next

section

variable {fuel : Nat} {path : Str} {exchanges : List (Option RawResponse)} {dials : List Dial}
  {result : Option ProbeResult} (course : ProbeCourse join origin fuel path exchanges dials result)

include course

theorem ProbeCourse.length_le : dials.length ≤ fuel := by
  induction course with
  | exhausted => exact Nat.le_refl 0
  | late => exact Nat.zero_le _
  | silent => exact Nat.succ_le_succ (Nat.zero_le _)
  | redirected _ _ ih => exact Nat.succ_le_succ ih
  | answered => exact Nat.succ_le_succ (Nat.zero_le _)

theorem ProbeCourse.own : ∀ dial ∈ dials, dial.host = origin.host ∧ dial.port = origin.port := by
  induction course with
  | exhausted => exact List.forall_mem_nil _
  | late => exact List.forall_mem_nil _
  | silent => exact List.forall_mem_singleton.mpr ⟨rfl, rfl⟩
  | redirected _ _ ih => exact List.forall_mem_cons.mpr ⟨⟨rfl, rfl⟩, ih⟩
  | answered => exact List.forall_mem_singleton.mpr ⟨rfl, rfl⟩

theorem ProbeCourse.begins : ∀ dial ∈ dials.head?, dial.path = path := by
  cases course with
  | exhausted => exact nofun
  | late => exact nofun
  | silent => exact fun _ head => Option.some.inj head ▸ rfl
  | redirected => exact fun _ head => Option.some.inj head ▸ rfl
  | answered => exact fun _ head => Option.some.inj head ▸ rfl

theorem ProbeCourse.safe (laws : JoinLaws join) (safe : SafePath path) :
    ∀ dial ∈ dials, SafePath dial.path := by
  induction course with
  | exhausted => exact List.forall_mem_nil _
  | late => exact List.forall_mem_nil _
  | silent => exact List.forall_mem_singleton.mpr safe
  | redirected followed _ ih => exact List.forall_mem_cons.mpr ⟨safe, ih (followed.safe laws)⟩
  | answered => exact List.forall_mem_singleton.mpr safe

/-- Each request behind the first goes where the answer to the one before it redirected. -/
theorem ProbeCourse.hop {i : Nat} {dial next : Dial} (here : dials[i]? = some dial)
    (behind : dials[i + 1]? = some next) :
    ∃ response, exchanges[i]? = some (some response) ∧
      Followed join origin dial.path response next.path := by
  induction course generalizing i with
  | exhausted => cases here
  | late => cases here
  | silent => cases behind
  | @redirected _ path target response _ _ _ followed later ih =>
      cases i with
      | zero =>
          obtain rfl := Option.some.inj here
          have started := later.begins next (by rwa [List.head?_eq_getElem?])
          exact ⟨response, rfl, by rwa [started]⟩
      | succ i => exact ih here behind
  | answered => cases behind

/-- A result is read off the answer to the last request, and that one is not followed. -/
theorem ProbeCourse.last {found : ProbeResult} (returned : result = some found) :
    ∃ i dial response, dials.length = i + 1 ∧ dials[i]? = some dial ∧
      exchanges[i]? = some (some response) ∧
      found = ⟨response.status, response.title, response.server⟩ ∧
      ∀ next, ¬ Followed join origin dial.path response next := by
  induction course with
  | exhausted => cases returned
  | late => cases returned
  | silent => cases returned
  | redirected _ _ ih =>
      obtain ⟨i, dial, response, length, rest⟩ := ih returned
      exact ⟨i + 1, dial, response, congrArg Nat.succ length, rest⟩
  | @answered _ path response _ last =>
      exact ⟨0, _, response, rfl, rfl, rfl, (Option.some.inj returned).symm, last⟩

end

/-- What a probe of an origin asks for and what it returns, against the exchanges. -/
structure StaysOnOrigin (join : Str → Str → Option Url) (origin : Origin)
    (exchanges : List (Option RawResponse)) (dials : List Dial) (result : Option ProbeResult) :
    Prop where
  bounded : dials.length ≤ maxRedirects + 1
  own : ∀ dial ∈ dials, dial.host = origin.host ∧ dial.port = origin.port ∧ SafePath dial.path
  begins : ∀ dial ∈ dials.head?, dial.path = ['/']
  hops : ∀ i dial next, dials[i]? = some dial → dials[i + 1]? = some next →
    ∃ response, exchanges[i]? = some (some response) ∧
      Followed join origin dial.path response next.path
  last : ∀ found, result = some found →
    ∃ i dial response, dials.length = i + 1 ∧ dials[i]? = some dial ∧
      exchanges[i]? = some (some response) ∧
      found = ⟨response.status, response.title, response.server⟩ ∧
      ∀ next, ¬ Followed join origin dial.path response next

theorem probe_stays_on_origin (laws : JoinLaws join) (origin : Origin)
    (exchanges : List (Option RawResponse)) :
    StaysOnOrigin join origin exchanges (probeHttp join origin exchanges).1
      (probeHttp join origin exchanges).2 := by
  have course := probeLoop_course join origin (maxRedirects + 1) ['/'] exchanges
  have root : SafePath ['/'] := ⟨rfl, by simp⟩
  refine ⟨course.length_le, fun dial member => ?_, course.begins, fun _ _ _ => course.hop,
    fun _ => course.last⟩
  obtain ⟨host, port⟩ := course.own dial member
  exact ⟨host, port, course.safe laws root dial member⟩

end

/-! A join of one page to another of the same app. -/

def webUrl : Url := ⟨some "127.0.0.1".toList, some 8096, "/web/".toList, some "v=2".toList, none⟩

def joinWeb (base location : Str) : Option Url :=
  if base = "http://127.0.0.1:8096/".toList ∧ location = "web/?v=2".toList then some webUrl
  else none

theorem joinWeb_laws : JoinLaws joinWeb where
  path := by
    intro base location url joined _
    rw [joinWeb] at joined
    split at joined
    · obtain rfl := Option.some.inj joined
      exact ⟨["web".toList, []], by decide⟩
    · cases joined
  encoded := by
    intro base location url joined _
    rw [joinWeb] at joined
    split at joined
    · obtain rfl := Option.some.inj joined
      simp [webUrl]
    · cases joined

theorem web_stays_on_origin :
    let moved : RawResponse := ⟨302, some "web/?v=2".toList, none, none⟩
    let page : RawResponse := ⟨200, none, none, some "Jellyfin".toList⟩
    let origin : Origin := .http "127.0.0.1".toList 8096
    StaysOnOrigin joinWeb origin [some moved, some page]
      [⟨origin.host, 8096, ['/']⟩, ⟨origin.host, 8096, "/web/?v=2".toList⟩]
      (some ⟨200, some "Jellyfin".toList, none⟩) :=
  probe_stays_on_origin joinWeb_laws _ _

end RaemoteServer.Discovery
