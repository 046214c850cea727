import RaemoteServer.Auth.State
import RaemoteServer.Library.Utf8

/-! The socket between the command line and a running daemon: one JSON value a line, after a
`Hello` that carries the secret of the daemon. -/

namespace RaemoteServer.Ipc

open Text

inductive Request where
  | hello (token : Str)
  | status
  | getToken
  | refreshToken (ttlSecs : Option UInt64)
  | reload
  | listAuthorized
  | revokeAuthorized (nodeId : Str)
  | renameAuthorized (nodeId name : Str)
  | listApps
  | discoverNow
  | discoverReport
  | shutdown
  deriving DecidableEq

/-- All but the answers to the handshake are made by the handler. -/
inductive Response (Body : Type) where
  | ok
  | denied
  | handled (body : Body)
  deriving DecidableEq

def constantTimeEq (a b : Str) : Bool := Auth.constantTimeEq (utf8 a) (utf8 b)

/-- Both comparisons are equality, and the accumulated byte is zero when all positions agree. -/
theorem secret_comparison_iff :
    (∀ a b : List UInt8, Auth.constantTimeEq a b = true ↔ a = b) ∧
    (∀ a b : Str, constantTimeEq a b = true ↔ a = b) ∧
    ∀ a b : List UInt8, Auth.accumulate 0 a b = 0 ↔ ∀ {x y}, (x, y) ∈ a.zip b → x = y := by
  refine ⟨Auth.constantTimeEq_iff, Auth.constantTimeEq_utf8, ?_⟩
  intro a b
  rw [Auth.accumulate_zero]
  exact and_iff_right rfl

def newline : UInt8 := 10

/-- What stands before the first newline, and what stands after it. -/
def cutLine : List UInt8 → Option (List UInt8 × List UInt8)
  | [] => none
  | byte :: rest =>
      if byte = newline then some ([], rest)
      else (cutLine rest).map (fun cut => (byte :: cut.1, cut.2))

/-- What successive calls of `read_line` return for the chunks that the socket delivers.
`pending` is what the current call has so far. Each call has a buffered reader of its own: what
the last chunk holds beyond the newline is dropped with it. -/
def linesRead (pending : List UInt8) : List (List UInt8) → List (List UInt8)
  | [] => if pending = [] then [] else [pending]
  | chunk :: rest =>
      match cutLine chunk with
      | some (front, _) => (pending ++ front ++ [newline]) :: linesRead [] rest
      | none => linesRead (pending ++ chunk) rest

/-- The text that is parsed of a line. -/
def readText (read : List UInt8) : Option Str := (fromUtf8 read).map trim

/-- `fromStr` stands for `serde_json::from_str`. -/
def readRequest (fromStr : Str → Option Request) (read : List UInt8) :
    Except Str (Option (Str × Request)) :=
  match readText read with
  | none => .error "failed to read IPC line".toList
  | some line =>
      if line = [] then .ok none
      else
        match fromStr line with
        | none => .error ("failed to parse IPC request: ".toList ++ line)
        | some request => .ok (some (line, request))

structure Exchange (Body : Type) where
  line : Str
  request : Request
  response : Response Body
  deriving DecidableEq

structure Served (Body : Type) where
  sent : List (Response Body)
  handled : List (Exchange Body)
  outcome : Except Str Unit

section

variable {State Body : Type} (fromStr : Str → Option Request)
  (handle : State → Request → State × Response Body)

def handleRequests (state : State) :
    List (List UInt8) → List (Exchange Body) × Except Str Unit
  | [] => ([], .ok ())
  | read :: rest =>
      match readRequest fromStr read with
      | .error message => ([], .error message)
      | .ok none => ([], .ok ())
      | .ok (some (line, request)) =>
          let (state, response) := handle state request
          let (exchanges, outcome) := handleRequests state rest
          (⟨line, request, response⟩ :: exchanges, outcome)

def handleClient (ipcToken : Str) (state : State) (chunks : List (List UInt8)) : Served Body :=
  match linesRead [] chunks with
  | [] => ⟨[.denied], [], .ok ()⟩
  | first :: rest =>
      match readRequest fromStr first with
      | .error message => ⟨[], [], .error message⟩
      | .ok (some (_, .hello token)) =>
          if constantTimeEq token ipcToken then
            let (exchanges, outcome) := handleRequests fromStr handle state rest
            ⟨.ok :: exchanges.map Exchange.response, exchanges, outcome⟩
          else ⟨[.denied], [], .ok ()⟩
      | .ok _ => ⟨[.denied], [], .ok ()⟩

/-- What the handler does with these requests, one after another. -/
def answers (state : State) : List (Str × Request) → List (Exchange Body)
  | [] => []
  | (line, request) :: rest =>
      let (state, response) := handle state request
      ⟨line, request, response⟩ :: answers state rest

/-- The lines that are requests, with the request of each. -/
def requestsOf (lines : List Str) : List (Str × Request) :=
  lines.filterMap (fun line => (fromStr (trim line)).map (fun request => (trim line, request)))

/-- Every line is handled once, in order, and answered. -/
def servedWhole (state : State) (lines : List Str) : Served Body :=
  let exchanges := answers handle state (requestsOf fromStr lines)
  ⟨.ok :: exchanges.map Exchange.response, exchanges, .ok ()⟩

end

/-- What a client writes. -/
def stream (lines : List Str) : List UInt8 := lines.flatMap (fun line => utf8 line ++ [newline])

def blank (bytes : List UInt8) : Bool := (fromUtf8 bytes).any (·.all isWhitespace)

/-- The chunk carries nothing but white space beyond its first newline. -/
def tidy (chunk : List UInt8) : Bool := (cutLine chunk).all (fun cut => blank cut.2)

/-! Bytes and lines. -/

theorem cutLine_none {bytes : List UInt8} : cutLine bytes = none ↔ newline ∉ bytes := by
  induction bytes with
  | nil => simp [cutLine]
  | cons byte rest ih =>
      by_cases ends : byte = newline
      · simp [cutLine, ends]
      · simp [cutLine, ends, ih, Ne.symm ends]

theorem cutLine_some {bytes front back : List UInt8} (cut : cutLine bytes = some (front, back)) :
    bytes = front ++ newline :: back ∧ newline ∉ front := by
  induction bytes generalizing front with
  | nil => cases cut
  | cons byte rest ih =>
      by_cases ends : byte = newline
      · simp only [cutLine, if_pos ends, Option.some.injEq, Prod.mk.injEq] at cut
        obtain ⟨rfl, rfl⟩ := cut
        exact ⟨by rw [ends]; rfl, List.not_mem_nil⟩
      · simp only [cutLine, if_neg ends, Option.map_eq_some_iff, Prod.mk.injEq] at cut
        obtain ⟨⟨start, others⟩, found, rfl, rfl⟩ := cut
        obtain ⟨shape, absent⟩ := ih found
        exact ⟨by rw [shape]; rfl, by simp [absent, Ne.symm ends]⟩

theorem newline_not_mem {line : Str} (unbroken : '\n' ∉ line) : newline ∉ utf8 line :=
  fun inside => unbroken (mem_of_single rfl inside)

theorem stream_cons (line : Str) (lines : List Str) :
    stream (line :: lines) = utf8 line ++ newline :: stream lines := by
  simp [stream]

theorem count_stream {lines : List Str} (unbroken : ∀ line ∈ lines, '\n' ∉ line) :
    (stream lines).count newline = lines.length := by
  induction lines with
  | nil => rfl
  | cons line lines ih =>
      have absent := List.count_eq_zero_of_not_mem
        (newline_not_mem (unbroken line List.mem_cons_self))
      have rest := ih (fun next member => unbroken next (List.mem_cons_of_mem _ member))
      simp only [stream_cons, List.count_append, List.count_cons_self, absent, rest,
        List.length_cons]
      omega

theorem stream_last {lines : List Str} {byte : UInt8}
    (last : (stream lines).getLast? = some byte) : byte = newline := by
  rcases List.eq_nil_or_concat lines with rfl | ⟨front, line, rfl⟩
  · cases last
  · rw [List.concat_eq_append, stream, List.flatMap_append] at last
    simpa [eq_comm] using last

/-- Two ways to cut a stream at its first newline. -/
theorem first_line {front back tail others : List UInt8} (absent : newline ∉ front)
    (unbroken : newline ∉ tail) (same : front ++ newline :: back = tail ++ newline :: others) :
    front = tail ∧ back = others := by
  induction front generalizing tail with
  | nil =>
      cases tail with
      | nil => exact ⟨rfl, (List.cons.inj same).2⟩
      | cons byte tail => exact absurd (by simp [(List.cons.inj same).1]) unbroken
  | cons byte front ih =>
      cases tail with
      | nil => exact absurd (by simp [(List.cons.inj same).1]) absent
      | cons other tail =>
          obtain ⟨rfl, rest⟩ := List.cons.inj same
          obtain ⟨rfl, rfl⟩ := ih (fun inside => absent (List.mem_cons_of_mem _ inside))
            (fun inside => unbroken (List.mem_cons_of_mem _ inside)) rest
          exact ⟨rfl, rfl⟩

/-- A chunk without a newline is part of the line that is being read. -/
theorem part_of_line {chunk more tail others : List UInt8} (absent : newline ∉ chunk)
    (same : chunk ++ more = tail ++ newline :: others) :
    ∃ rest, tail = chunk ++ rest ∧ more = rest ++ newline :: others := by
  rcases List.append_eq_append_iff.mp same with ⟨rest, shape, others⟩ | ⟨rest, rfl, shape⟩
  · exact ⟨rest, shape, others⟩
  · cases rest with
    | nil => exact ⟨[], by simp, by simpa using shape.symm⟩
    | cons byte rest =>
        rw [List.cons_append] at shape
        exact absurd (by simp [(List.cons.inj shape).1]) absent

/-! What the reads give. -/

theorem linesRead_first {chunks : List (List UInt8)} {pending tail others : List UInt8}
    (unbroken : newline ∉ tail) (delivered : chunks.flatten = tail ++ newline :: others) :
    ∃ rest, linesRead pending chunks = (pending ++ tail ++ [newline]) :: rest := by
  induction chunks generalizing pending tail with
  | nil => simp at delivered
  | cons chunk chunks ih =>
      rw [List.flatten_cons] at delivered
      cases cut : cutLine chunk with
      | none =>
          obtain ⟨rest, rfl, more⟩ := part_of_line (cutLine_none.mp cut) delivered
          obtain ⟨reads, shape⟩ := @ih (pending ++ chunk) rest
            (fun inside => unbroken (List.mem_append_right _ inside)) more
          refine ⟨reads, ?_⟩
          rw [linesRead, cut]
          simpa using shape
      | some ends =>
          obtain ⟨rfl, absent⟩ := cutLine_some cut
          rw [List.append_assoc, List.cons_append] at delivered
          obtain ⟨rfl, -⟩ := first_line absent unbroken delivered
          exact ⟨_, by rw [linesRead, cut]⟩

/-- There are at most as many reads as newlines. -/
theorem linesRead_length {chunks : List (List UInt8)} {pending : List UInt8}
    (last : ∀ byte, chunks.flatten.getLast? = some byte → byte = newline)
    (started : pending = [] ∨ chunks.flatten ≠ []) :
    (linesRead pending chunks).length ≤ chunks.flatten.count newline := by
  induction chunks generalizing pending with
  | nil =>
      rcases started with rfl | more
      · rfl
      · exact absurd rfl more
  | cons chunk chunks ih =>
      have later : ∀ byte, chunks.flatten.getLast? = some byte → byte = newline := by
        intro byte found
        apply last
        rw [List.flatten_cons, List.getLast?_append, found]
        rfl
      rw [List.flatten_cons, List.count_append]
      cases cut : cutLine chunk with
      | none =>
          have absent := cutLine_none.mp cut
          rw [linesRead, cut, List.count_eq_zero_of_not_mem absent, Nat.zero_add]
          apply ih later
          by_cases finished : chunks.flatten = []
          · left
            rw [List.flatten_cons, finished, List.append_nil] at last started
            have nothing : chunk = [] := by
              rw [← List.getLast?_eq_none_iff]
              cases final : chunk.getLast? with
              | none => rfl
              | some byte => exact absurd (last byte final ▸ List.mem_of_getLast? final) absent
            rw [nothing, List.append_nil]
            exact started.resolve_right (fun more => more nothing)
          · exact Or.inr finished
      | some ends =>
          obtain ⟨rfl, absent⟩ := cutLine_some cut
          have rest := ih later (Or.inl rfl)
          rw [linesRead, cut]
          simp only [List.length_cons, List.count_append, List.count_cons_self]
          omega

theorem blank_iff {bytes : List UInt8} :
    blank bytes = true ↔ ∃ white, bytes = utf8 white ∧ ∀ c ∈ white, isWhitespace c = true := by
  simp only [blank, Option.any_eq_true, fromUtf8_eq_some, List.all_eq_true]

/-- What is left of a line gives its text exactly when the part that was lost is white space. -/
theorem readText_rest_iff {line : Str} {lost rest : List UInt8} (whole : utf8 line = lost ++ rest) :
    readText (rest ++ [newline]) = some (trim line) ↔ blank lost = true := by
  have ended : utf8 (line ++ ['\n']) = lost ++ (rest ++ [newline]) := by
    rw [utf8_append, whole, List.append_assoc]
    rfl
  have spaced : trim (line ++ ['\n']) = trim line := by
    apply trim_append_white
    intro c member
    rw [List.mem_singleton.mp member]
    rfl
  rw [readText, Option.map_eq_some_iff, blank_iff]
  constructor
  · rintro ⟨text, decoded, same⟩
    rw [fromUtf8_eq_some.mp decoded] at ended
    obtain ⟨start, rfl, cut⟩ := utf8_split_back ended
    refine ⟨start, rfl, (trim_append_eq_iff start text).mp ?_⟩
    rw [same, ← cut, spaced]
  · rintro ⟨start, rfl, white⟩
    obtain ⟨text, cut, read⟩ := utf8_split ended
    refine ⟨text, fromUtf8_eq_some.mpr read, ?_⟩
    rw [(trim_append_eq_iff start text).mpr white, ← cut, spaced]

theorem linesRead_done {chunks : List (List UInt8)} (finished : chunks.flatten = []) :
    linesRead [] chunks = [] := by
  have bound := @linesRead_length chunks [] (by simp [finished]) (Or.inl rfl)
  rw [finished] at bound
  exact List.length_eq_zero_iff.mp (Nat.le_zero.mp bound)

/-- A chunk that ends one line and goes beyond the next one costs a read. -/
theorem reads_missing {chunks : List (List UInt8)} {lost : List UInt8} {lines : List Str}
    (unbroken : ∀ line ∈ lines, '\n' ∉ line) (rest : stream lines = lost ++ chunks.flatten) :
    (linesRead [] chunks).length ≤ lines.length := by
  have counted := count_stream unbroken
  rw [rest, List.count_append] at counted
  have bound := @linesRead_length chunks [] (by
    intro byte found
    apply @stream_last lines
    rw [rest, List.getLast?_append, found]
    rfl) (Or.inl rfl)
  omega

theorem not_blank {line : Str} {more : List UInt8} (written : trim line ≠ []) :
    blank (utf8 line ++ more) = false := by
  rw [← Bool.not_eq_true, blank_iff]
  rintro ⟨white, same, all⟩
  obtain ⟨back, rfl, -⟩ := utf8_split same.symm
  apply written
  have nothing := (trim_append_eq_iff line []).mpr
    (fun c member => all c (List.mem_append_left _ member))
  rw [List.append_nil] at nothing
  exact nothing.symm

/-- The reads give the texts of the lines exactly when nothing but white space was lost. `lost` is
what an earlier chunk had of the current line, `pending` what has been read of it. -/
theorem reads_eq_iff {chunks : List (List UInt8)} {lost pending tail : List UInt8} {line : Str}
    {lines : List Str} (whole : utf8 line = lost ++ (pending ++ tail))
    (unbroken : ∀ next ∈ line :: lines, '\n' ∉ next) (written : ∀ next ∈ lines, trim next ≠ [])
    (delivered : chunks.flatten = tail ++ newline :: stream lines) :
    (linesRead pending chunks).map readText = (line :: lines).map (fun next => some (trim next)) ↔
      blank lost = true ∧ ∀ chunk ∈ chunks, tidy chunk = true := by
  induction chunks generalizing lost pending tail line lines with
  | nil => simp at delivered
  | cons chunk chunks ih =>
      obtain ⟨unbrokenLine, unbrokenLines⟩ := List.forall_mem_cons.mp unbroken
      have inside : newline ∉ tail := by
        intro member
        apply newline_not_mem unbrokenLine
        rw [whole]
        simp [member]
      rw [List.flatten_cons] at delivered
      cases cut : cutLine chunk with
      | none =>
          obtain ⟨rest, rfl, more⟩ := part_of_line (cutLine_none.mp cut) delivered
          have same := @ih lost (pending ++ chunk) rest line lines (by simpa using whole) unbroken
            written more
          rw [linesRead, cut, same, List.forall_mem_cons]
          simp [tidy, cut]
      | some ends =>
          obtain ⟨front, back⟩ := ends
          obtain ⟨rfl, absent⟩ := cutLine_some cut
          rw [List.append_assoc, List.cons_append] at delivered
          obtain ⟨rfl, next⟩ := first_line absent inside delivered
          rw [linesRead, cut, List.map_cons, List.map_cons, List.cons.injEq,
            readText_rest_iff whole,
            List.forall_mem_cons]
          apply and_congr_right
          intro _
          have current : tidy (front ++ newline :: back) = blank back := by
            rw [tidy, cut]
            rfl
          rw [current]
          cases lines with
          | nil =>
              obtain ⟨rfl, finished⟩ := List.append_eq_nil_iff.mp next
              have empty : ∀ chunk ∈ chunks, tidy chunk = true := by
                intro other member
                rw [List.flatten_eq_nil_iff.mp finished other member]
                rfl
              simp only [linesRead_done finished, List.map_nil, true_iff]
              exact ⟨rfl, empty⟩
          | cons second more =>
              rw [stream_cons] at next
              have going (left : List UInt8) (shape : utf8 second = back ++ left)
                  (rest : chunks.flatten = left ++ newline :: stream more) :=
                @ih back [] left second more shape unbrokenLines
                  (fun line member => written line (List.mem_cons_of_mem _ member)) rest
              rcases List.append_eq_append_iff.mp next with ⟨left, shape, rest⟩ | ⟨left, rfl, rest⟩
              · exact going left shape rest
              · cases left with
                | nil => exact going [] (by simp) (by simpa using rest.symm)
                | cons byte left =>
                    -- the chunk holds the whole of the next line: there are too few reads
                    rw [List.cons_append] at rest
                    apply iff_of_false
                    · intro same
                      have lengths := congrArg List.length same
                      have bound := reads_missing
                        (fun line member => unbrokenLines line (List.mem_cons_of_mem _ member))
                        (List.cons.inj rest).2
                      simp only [List.length_map, List.length_cons] at lengths
                      omega
                    · rw [not_blank (written second List.mem_cons_self)]
                      exact fun both => Bool.false_ne_true both.1

/-! What the handler sees. -/

variable {State Body : Type} {fromStr : Str → Option Request}
  {handle : State → Request → State × Response Body}

theorem readRequest_of_text {read : List UInt8} {line : Str} {request : Request}
    (text : readText read = some line) (written : line ≠ [])
    (parsed : fromStr line = some request) :
    readRequest fromStr read = .ok (some (line, request)) := by
  simp only [readRequest, text, if_neg written, parsed]

theorem readRequest_some {read : List UInt8} {line : Str} {request : Request}
    (found : readRequest fromStr read = .ok (some (line, request))) :
    readText read = some line := by
  unfold readRequest at found
  split at found
  · cases found
  · rename_i text decoded
    split at found
    · cases found
    · split at found
      · cases found
      · simp only [Except.ok.injEq, Option.some.injEq, Prod.mk.injEq] at found
        rw [decoded, found.1]

theorem handleRequests_whole {reads : List (List UInt8)} {requests : List (Str × Request)}
    (texts : reads.map readText = requests.map (fun next => some next.1))
    (valid : ∀ next ∈ requests, next.1 ≠ [] ∧ fromStr next.1 = some next.2) (state : State) :
    handleRequests fromStr handle state reads = (answers handle state requests, .ok ()) := by
  induction requests generalizing reads state with
  | nil =>
      rw [List.map_eq_nil_iff.mp texts]
      rfl
  | cons first requests ih =>
      cases reads with
      | nil => cases texts
      | cons read reads =>
          obtain ⟨⟨written, parsed⟩, others⟩ := List.forall_mem_cons.mp valid
          obtain ⟨text, rest⟩ := List.cons.inj texts
          simp only [handleRequests, readRequest_of_text text written parsed,
            ih rest others, answers]

/-- No more reads than requests: every request was read as it was written. -/
theorem texts_of_handled {reads : List (List UInt8)} {requests : List (Str × Request)}
    {state : State} (handled : (handleRequests fromStr handle state reads).1 =
      answers handle state requests) (few : reads.length ≤ requests.length) :
    reads.map readText = requests.map (fun next => some next.1) := by
  induction requests generalizing reads state with
  | nil => rw [List.length_eq_zero_iff.mp (Nat.le_zero.mp few)]; rfl
  | cons first requests ih =>
      obtain ⟨line, request⟩ := first
      cases reads with
      | nil => cases handled
      | cons read reads =>
          rw [handleRequests] at handled
          split at handled
          · cases handled
          · cases handled
          · rename_i text parsed found
            obtain ⟨same, rest⟩ := List.cons.inj handled
            obtain ⟨rfl, rfl, -⟩ := (Exchange.mk.injEq ..).mp same
            rw [List.map_cons, List.map_cons, readRequest_some found,
              ih rest (Nat.le_of_succ_le_succ few)]

theorem requestsOf_lines {lines : List Str}
    (parsed : ∀ line ∈ lines, (fromStr (trim line)).isSome) :
    (requestsOf fromStr lines).map (fun next => some next.1) =
      lines.map (fun line => some (trim line)) := by
  induction lines with
  | nil => rfl
  | cons line lines ih =>
      obtain ⟨first, others⟩ := List.forall_mem_cons.mp parsed
      obtain ⟨request, found⟩ := Option.isSome_iff_exists.mp first
      simp only [requestsOf, List.filterMap_cons, found, Option.map_some, List.map_cons]
      exact congrArg _ (ih others)

theorem requestsOf_valid {lines : List Str} (written : ∀ line ∈ lines, trim line ≠ []) :
    ∀ next ∈ requestsOf fromStr lines, next.1 ≠ [] ∧ fromStr next.1 = some next.2 := by
  intro next member
  obtain ⟨line, inside, found⟩ := List.mem_filterMap.mp member
  obtain ⟨request, parsed, rfl⟩ := Option.map_eq_some_iff.mp found
  exact ⟨written line inside, parsed⟩

/-- Every line of a client is handled exactly when no chunk of the stream has more than white space
behind the newline that ends a read. -/
theorem every_line_handled_iff {ipcToken : Str} {state : State} {hello : Str} {lines : List Str}
    {chunks : List (List UInt8)} (delivered : chunks.flatten = stream (hello :: lines))
    (unbroken : ∀ line ∈ hello :: lines, '\n' ∉ line)
    (written : ∀ line ∈ hello :: lines, trim line ≠ [])
    (greets : fromStr (trim hello) = some (.hello ipcToken))
    (parsed : ∀ line ∈ lines, (fromStr (trim line)).isSome) :
    handleClient fromStr handle ipcToken state chunks = servedWhole fromStr handle state lines ↔
      ∀ chunk ∈ chunks, tidy chunk = true := by
  obtain ⟨writtenHello, writtenLines⟩ := List.forall_mem_cons.mp written
  obtain ⟨unbrokenHello, unbrokenLines⟩ := List.forall_mem_cons.mp unbroken
  have texts := requestsOf_lines parsed
  have exact := @reads_eq_iff chunks [] [] (utf8 hello) hello lines rfl unbroken writtenLines
    (delivered.trans (stream_cons hello lines))
  obtain ⟨reads, first⟩ := @linesRead_first chunks [] (utf8 hello) (stream lines)
    (newline_not_mem unbrokenHello) (delivered.trans (stream_cons hello lines))
  have greeting : readText ([] ++ utf8 hello ++ [newline]) = some (trim hello) :=
    (@readText_rest_iff hello [] (utf8 hello) rfl).mpr rfl
  have matching : constantTimeEq ipcToken ipcToken = true :=
    (Auth.constantTimeEq_utf8 _ _).mpr rfl
  rw [first, List.map_cons, List.map_cons, greeting, List.cons.injEq, ← texts] at exact
  simp only [true_and, show blank [] = true from rfl] at exact
  rw [← exact, handleClient, first]
  simp only [readRequest_of_text greeting writtenHello greets, matching, if_true, servedWhole,
    Served.mk.injEq]
  constructor
  · rintro ⟨-, handled, -⟩
    apply texts_of_handled handled
    have count := @linesRead_length chunks [] (fun byte last => stream_last (delivered ▸ last))
      (Or.inl rfl)
    rw [first, delivered, count_stream unbroken] at count
    have lengths := congrArg List.length texts
    simp only [List.length_map, List.length_cons] at lengths count
    omega
  · intro same
    rw [handleRequests_whole same (requestsOf_valid writtenLines)]
    exact ⟨rfl, rfl, rfl⟩

def helloText : Str := "\x7b\"Hello\":\x7b\"token\":\"5ec2e7\"\x7d\x7d".toList

def statusText : Str := "\"Status\"".toList

/-- The parser on the lines of the runs below. -/
def sampleJson (text : Str) : Option Request :=
  if text = helloText then some (.hello "5ec2e7".toList)
  else if text = statusText then some .status
  else none

def echo (count : Nat) (request : Request) : Nat × Response (Nat × Request) :=
  (count + 1, .handled (count, request))

theorem split_hello_handled :
    handleClient sampleJson echo "5ec2e7".toList 0
        [utf8 (helloText.take 11), utf8 (helloText.drop 11 ++ ['\n', ' ']),
          utf8 (statusText ++ ['\n'])] =
      servedWhole sampleJson echo 0 [' ' :: statusText] := by
  apply (@every_line_handled_iff _ _ sampleJson echo "5ec2e7".toList 0 helloText
    [' ' :: statusText] _ (by decide) (by decide) (by decide) (by decide) (by decide)).mpr
  decide

/-- Both lines in one chunk: the second is lost with the reader of the first. -/
theorem pipelined_request_lost :
    [utf8 (helloText ++ '\n' :: statusText ++ ['\n'])].flatten = stream [helloText, statusText] ∧
    (handleClient sampleJson echo "5ec2e7".toList 0
      [utf8 (helloText ++ '\n' :: statusText ++ ['\n'])]).handled = [] ∧
    (servedWhole sampleJson echo 0 [statusText]).handled =
      [⟨statusText, .status, .handled (0, .status)⟩] := by
  decide

end RaemoteServer.Ipc
