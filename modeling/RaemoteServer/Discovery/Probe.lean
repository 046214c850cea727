import RaemoteServer.Discovery.Listener
import RaemoteServer.Http.Redirects

/-! The HTTP probe of a candidate, and which answers make it an app. -/

namespace RaemoteServer.Discovery

open Text Http

structure ProbeResult where
  status : UInt16
  title : Option Str
  server : Option Str
  deriving DecidableEq

/-- What is read off one answer. -/
structure RawResponse where
  status : UInt16
  location : Option Str
  server : Option Str
  title : Option Str
  deriving DecidableEq

def maxRedirects : Nat := 3

/-- `trim_matches` of brackets -/
def trimBrackets (host : Str) : Str :=
  let bracket (c : Char) : Bool := c == '[' || c == ']'
  ((host.dropWhile bracket).reverse.dropWhile bracket).reverse

/-- Only a target on the same host and port is followed. `join` resolves a reference against
the text of a base URL. -/
def redirectPath (join : Str → Str → Option Url) (origin : Origin) (basePath location : Str) :
    Option Str := do
  let base := origin.scheme.asStr ++ "://".toList ++ origin.authority ++ basePath
  let target ← join base location
  let host ← target.hostStr
  if !eqIgnoreAsciiCase (trimBrackets host) origin.host then none
  else if target.portOrKnownDefault ≠ some origin.port then none
  else
    let path := if target.path.isEmpty then ['/'] else target.path
    some (path ++ (target.query.map ('?' :: ·)).getD [])

/-- One connection of the probe, with the path it asks for. -/
structure Dial where
  host : Str
  port : UInt16
  path : Str
  deriving DecidableEq

/-- Each turn that finds time left connects once; the turns that do are listed, with the answer
if there was one. -/
def probeLoop (join : Str → Str → Option Url) (origin : Origin) :
    Nat → Str → List (Option RawResponse) → List Dial × Option ProbeResult
  | 0, _, _ => ([], none)
  | _, _, [] => ([], none)
  | _, path, none :: _ => ([⟨origin.host, origin.port, path⟩], none)
  | fuel + 1, path, some response :: rest =>
      let next :=
        if 300 ≤ response.status ∧ response.status < 400 then
          response.location.bind (redirectPath join origin path)
        else none
      match next with
      | some next =>
          let (dials, result) := probeLoop join origin fuel next rest
          (⟨origin.host, origin.port, path⟩ :: dials, result)
      | none =>
          ([⟨origin.host, origin.port, path⟩],
            some ⟨response.status, response.title, response.server⟩)

def probeHttp (join : Str → Str → Option Url) (origin : Origin)
    (exchanges : List (Option RawResponse)) : List Dial × Option ProbeResult :=
  probeLoop join origin (maxRedirects + 1) ['/'] exchanges

/-- Whatever is answered, the probe connects to the origin only. -/
theorem probeLoop_dials (join : Str → Str → Option Url) (origin : Origin) (fuel : Nat) (path : Str)
    (exchanges : List (Option RawResponse)) :
    ∀ dial ∈ (probeLoop join origin fuel path exchanges).1,
      dial.host = origin.host ∧ dial.port = origin.port := by
  induction fuel generalizing path exchanges with
  | zero =>
      intro dial member
      simp [probeLoop] at member
  | succ fuel ih =>
      intro dial member
      cases exchanges with
      | nil => simp [probeLoop] at member
      | cons exchange rest =>
          cases exchange with
          | none =>
              rw [probeLoop, List.mem_singleton] at member
              · rw [member]
                exact ⟨rfl, rfl⟩
              · exact nofun
          | some response =>
              rw [probeLoop] at member
              split at member
              · rcases List.mem_cons.mp member with rfl | later
                · exact ⟨rfl, rfl⟩
                · exact ih _ rest dial later
              · rw [List.mem_singleton.mp member]
                exact ⟨rfl, rfl⟩

/-! Which answers count. -/

def errorTitles : List Str :=
  ["error", "error response", "internal server error", "500 internal server error", "bad gateway",
    "502 bad gateway", "service unavailable", "503 service unavailable", "gateway timeout",
    "504 gateway timeout", "bad request", "400 bad request", "unauthorized", "403 forbidden",
    "not found", "404 not found", "410 gone", "connection refused", "this site can't be reached",
    "this site can’t be reached", "web server is down", "page not found"].map String.toList

def looksLikeErrorPage (title : Str) : Bool := errorTitles.contains (asciiLower (trim title))

def isCredible (result : ProbeResult) : Bool :=
  if result.title.any looksLikeErrorPage then false
  else if result.status = 401 ∨ result.status = 403 then true
  else if result.status ≥ 400 then false
  else result.title.isSome || result.status < 400

end RaemoteServer.Discovery
