import RaemoteServer.Http.Forwarding
import RaemoteServer.Library.Search
import RaemoteServer.Library.Utf8

/-! The app's answer to an upgrade: its head is read from the socket piece by piece, and what
follows it goes to the client as it is. -/

namespace RaemoteServer.Http

open Text HttpHead Search

def crlfcrlf : List UInt8 := [13, 10, 13, 10]

def maxHead : Nat := 64 * 1024

/-- Just past the first empty line. -/
def headEnd (buf : List UInt8) : Option Nat := (position crlfcrlf buf).map (· + 4)

inductive HeadRead where
  | complete (buf : List UInt8) (headEnd : Nat) (rest : List (List UInt8))
  | closed
  | oversized

/-- The list is what the reads give; after its end they give nothing. -/
def readUpgradeHead (buf : List UInt8) : List (List UInt8) → HeadRead
  | [] => .closed
  | tmp :: rest =>
      if tmp = [] then .closed
      else
        let buf := buf ++ tmp
        match headEnd buf with
        | some headEnd => .complete buf headEnd rest
        | none => if buf.length > maxHead then .oversized else readUpgradeHead buf rest

def HeaderName.fromBytes (s : Str) : Option HeaderName :=
  let lower := s.map Char.toLower
  if token : lower ≠ [] ∧ ∀ c ∈ lower, nameChar c = true then
    if lower.length < 2 ^ 16 then some ⟨lower, token⟩ else none
  else none

/-- Lines that are no header are left out. -/
def responseHeaders (headText : Str) : List Header :=
  ((crlfLines headText).drop 1).filterMap (fun line =>
    match splitOnce ':' line with
    | (_, none) => none
    | (key, some value) => do
        let name ← HeaderName.fromBytes (trim key)
        let value ← HeaderValue.fromStr (trim value)
        some (name, value))

/-- A refusal, or the switch: the client gets what was read past the head, and then what is
copied. -/
inductive UpgradeReply where
  | refuse (error : ErrorResponse)
  | switch (headers : List Header) (leftover copied : List UInt8)
  deriving DecidableEq

def upgradeError (message : String) : ErrorResponse :=
  ⟨502, "upstream_error".toList, message.toList, none⟩

def answerUpgrade (head leftover copied : List UInt8) : UpgradeReply :=
  let headText := lossy head
  let statusLine := (lines headText).head?.getD []
  let statusCode := ((splitWhitespace statusLine)[1]?.bind parseU16).getD 502
  -- a number that is no status code
  let status := if 100 ≤ statusCode ∧ statusCode < 1000 then statusCode else 502
  if status ≠ 101 then
    .refuse ⟨status.toNat, "upgrade_refused".toList,
      "the app refused the WebSocket upgrade".toList, some statusLine⟩
  else .switch (responseHeaders headText) leftover copied

def proxyUpgrade (reads : List (List UInt8)) : UpgradeReply :=
  match readUpgradeHead [] reads with
  | .closed =>
      .refuse (upgradeError "the app closed the connection before completing the upgrade")
  | .oversized => .refuse (upgradeError "the app sent an oversized upgrade response")
  | .complete buf headEnd rest =>
      answerUpgrade (buf.take headEnd) (buf.drop headEnd) rest.flatten

/-! A head is found whichever way the stream is cut. -/

/-- A read gives something, and at most as much as its buffer holds. -/
structure Cut (stream : List UInt8) (reads : List (List UInt8)) : Prop where
  whole : reads.flatten = stream
  present : ∀ read ∈ reads, read ≠ []
  small : ∀ read ∈ reads, read.length ≤ 1024

theorem headEnd_front {front back : List UInt8} {n : Nat}
    (ends : headEnd (front ++ back) = some n) :
    headEnd front = if n ≤ front.length then some n else none := by
  obtain ⟨i, found, rfl⟩ := Option.map_eq_some_iff.mp ends
  have earlier := position_front (by decide) found
  rw [headEnd, earlier]
  change Option.map _ (if i + 4 ≤ front.length then some i else none) = _
  split <;> rfl

/-- The loop stops at the first read that completes the head, before the size is looked at. -/
theorem readUpgradeHead_complete {buf : List UInt8} {reads : List (List UInt8)} {n : Nat}
    (ends : headEnd (buf ++ reads.flatten) = some n) (small : n ≤ maxHead)
    (unfinished : headEnd buf = none) (present : ∀ read ∈ reads, read ≠ []) :
    ∃ whole rest, readUpgradeHead buf reads = .complete whole n rest ∧ n ≤ whole.length ∧
      whole ++ rest.flatten = buf ++ reads.flatten := by
  induction reads generalizing buf with
  | nil =>
      rw [List.flatten_nil, List.append_nil, unfinished] at ends
      cases ends
  | cons tmp rest ih =>
      obtain ⟨filled, present⟩ := List.forall_mem_cons.mp present
      rw [List.flatten_cons, ← List.append_assoc] at ends ⊢
      have found := headEnd_front ends
      rw [readUpgradeHead, if_neg filled]
      dsimp only
      by_cases enough : n ≤ (buf ++ tmp).length
      · rw [if_pos enough] at found
        rw [found]
        exact ⟨buf ++ tmp, rest, rfl, enough, rfl⟩
      · rw [if_neg enough] at found
        have within : ¬ (buf ++ tmp).length > maxHead := by omega
        simp only [found, if_neg within]
        exact ih ends found present

theorem answerUpgrade_switch {head leftover copied leftover' copied' : List UInt8}
    {headers : List Header}
    (switched : answerUpgrade head leftover copied = .switch headers leftover' copied') :
    leftover' = leftover ∧ copied' = copied := by
  unfold answerUpgrade at switched
  dsimp only at switched
  split_ifs at switched
  all_goals
    cases switched
    exact ⟨rfl, rfl⟩

/-- However the stream is cut into reads, the head ends where it ends in the stream, and the client
gets the stream behind it. -/
theorem upgrade_transparent {stream : List UInt8} {reads : List (List UInt8)} {n : Nat}
    (ends : headEnd stream = some n) (small : n ≤ maxHead) (cut : Cut stream reads) :
    ∃ buf rest, readUpgradeHead [] reads = .complete buf n rest ∧
      buf ++ rest.flatten = stream ∧ buf.take n = stream.take n ∧
      proxyUpgrade reads = answerUpgrade (stream.take n) (buf.drop n) rest.flatten ∧
      ∀ headers leftover copied, proxyUpgrade reads = .switch headers leftover copied →
        leftover ++ copied = stream.drop n := by
  have whole : [] ++ reads.flatten = stream := cut.whole
  obtain ⟨buf, rest, read, enough, shape⟩ :=
    readUpgradeHead_complete (whole ▸ ends) small (by decide) cut.present
  rw [whole] at shape
  have head : buf.take n = stream.take n := by
    rw [← shape, List.take_append_of_le_length enough]
  have tail : buf.drop n ++ rest.flatten = stream.drop n := by
    rw [← shape, List.drop_append_of_le_length enough]
  have reply : proxyUpgrade reads = answerUpgrade (stream.take n) (buf.drop n) rest.flatten := by
    simp only [proxyUpgrade, read, head]
  refine ⟨buf, rest, read, shape, head, reply, ?_⟩
  intro headers leftover copied switched
  rw [reply] at switched
  obtain ⟨rfl, rfl⟩ := answerUpgrade_switch switched
  exact tail

/-- A switch with the first frame behind it, cut within the empty line. -/
def switchReads : List (List UInt8) :=
  [utf8 "HTTP/1.1 101 Switching Protocols\r\nUpgrade: websocket\r".toList, [10, 13],
    [10, 0x81, 0x02], [0x68], [0x69, 0x88]]

theorem switch_read : ∃ headers,
    proxyUpgrade switchReads = .switch headers [0x81, 0x02] [0x68, 0x69, 0x88] ∧
      [0x81, 0x02] ++ [0x68, 0x69, 0x88] = switchReads.flatten.drop 56 := by
  obtain ⟨buf, rest, -, -, -, -, stream⟩ := @upgrade_transparent _ switchReads 56
    (by decide +kernel) (by decide) ⟨rfl, by decide +kernel, by decide +kernel⟩
  have switched : proxyUpgrade switchReads = .switch _ [0x81, 0x02] [0x68, 0x69, 0x88] := rfl
  exact ⟨_, switched, stream _ _ _ switched⟩

end RaemoteServer.Http
