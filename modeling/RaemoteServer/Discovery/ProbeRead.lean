import RaemoteServer.Discovery.Page

/-! How much of an answer the probe reads. The reads of a socket return what has arrived, so the
same answer can come in many ways; what the probe reads off it is to be the same. -/

namespace RaemoteServer.Discovery

open Text

def maxProbeBytes : Nat := 96 * 1024
def headReadCap : Nat := 64 * 1024

/-- The length of the array that is read into. -/
def readSize : Nat := 4096

def headClose : List UInt8 := utf8 "</head".toList
def htmlClose : List UInt8 := utf8 "</html".toList

/-- The loop breaks. -/
def readDone (buf : List UInt8) (headersDone : Bool) : Bool :=
  headersDone && ((findCi buf headClose).isSome || (findCi buf htmlClose).isSome ||
      decide (headReadCap ≤ buf.length)) ||
    decide (maxProbeBytes ≤ buf.length)

/-- The reads that return bytes, in order. After the last one the peer closes, fails, or sends
nothing before the deadline. -/
def readLoop (buf : List UInt8) (headersDone : Bool) : List (List UInt8) → List UInt8
  | [] => buf
  | chunk :: rest =>
      let buf := buf ++ chunk
      let headersDone := headersDone || (findSlice buf blankLine).isSome
      if readDone buf headersDone then buf else readLoop buf headersDone rest

/-- `request`, once the request is written. -/
def readAnswer (chunks : List (List UInt8)) : Option (Option RawResponse) :=
  parseResponse (readLoop [] false chunks)

/-! First occurrences in a part from the front. -/

theorem findSlice_eq {needle : List UInt8} (present : needle ≠ []) (haystack : List UInt8) :
    findSlice haystack needle = Search.position needle haystack := by
  unfold findSlice
  split
  · rename_i short
    rw [or_iff_right present] at short
    cases found : Search.position needle haystack with
    | none => rfl
    | some i =>
        have fits := Search.position_fits present found
        omega
  · rfl

theorem findCi_eq {needle : List UInt8} (present : needle ≠ []) (haystack : List UInt8) :
    findCi haystack needle =
      Search.position (needle.map lowerByte) (haystack.map lowerByte) := by
  have present' : needle.map lowerByte ≠ [] := by simpa using present
  unfold findCi
  split
  · rename_i short
    rw [or_iff_right present] at short
    cases found : Search.position (needle.map lowerByte) (haystack.map lowerByte) with
    | none => rfl
    | some i =>
        have fits := Search.position_fits present' found
        simp only [List.length_map] at fits
        omega
  · rfl

theorem findSlice_front {needle front back : List UInt8} {i : Nat} (present : needle ≠ [])
    (found : findSlice (front ++ back) needle = some i) :
    findSlice front needle = if i + needle.length ≤ front.length then some i else none := by
  rw [findSlice_eq present] at found ⊢
  exact Search.position_front present found

theorem findCi_front {needle front back : List UInt8} {i : Nat} (present : needle ≠ [])
    (found : findCi (front ++ back) needle = some i) :
    findCi front needle = if i + needle.length ≤ front.length then some i else none := by
  have present' : needle.map lowerByte ≠ [] := by simpa using present
  rw [findCi_eq present, List.map_append] at found
  rw [findCi_eq present, Search.position_front present' found, List.length_map, List.length_map]

theorem findSlice_stays {needle front : List UInt8} (present : needle ≠ []) (back : List UInt8)
    (found : (findSlice front needle).isSome = true) :
    (findSlice (front ++ back) needle).isSome = true := by
  obtain ⟨i, here⟩ := Option.isSome_iff_exists.mp found
  rw [findSlice_eq present] at here ⊢
  have occurs := ((Search.position_eq_some present).mp here).1
  cases whole : Search.position needle (front ++ back) with
  | some j => rfl
  | none =>
      have fits := Search.position_fits present here
      have later := (Search.prefix_drop_iff present back i).mp occurs
      exact absurd later.1 ((Search.position_eq_none present).mp whole i)

theorem findCi_stays {needle front : List UInt8} (present : needle ≠ []) (back : List UInt8)
    (found : (findCi front needle).isSome = true) :
    (findCi (front ++ back) needle).isSome = true := by
  have present' : needle.map lowerByte ≠ [] := by simpa using present
  obtain ⟨i, here⟩ := Option.isSome_iff_exists.mp found
  rw [findCi_eq present] at here ⊢
  have occurs := ((Search.position_eq_some present').mp here).1
  cases whole : Search.position (needle.map lowerByte) ((front ++ back).map lowerByte) with
  | some j => rfl
  | none =>
      rw [List.map_append] at whole
      have later := (Search.prefix_drop_iff present' (back.map lowerByte) i).mp occurs
      exact absurd later.1 ((Search.position_eq_none present').mp whole i)

/-! Where the loop stops. -/

/-- Enough is read of an answer of which this has arrived. -/
def Enough (buf : List UInt8) : Prop := readDone buf (findSlice buf blankLine).isSome = true

theorem readLoop_stops {buf : List UInt8} {chunks : List (List UInt8)}
    (small : ∀ chunk ∈ chunks, chunk.length ≤ readSize)
    (short : buf.length < maxProbeBytes) :
    ∃ more rest, chunks.flatten = more ++ rest ∧
      readLoop buf (findSlice buf blankLine).isSome chunks = buf ++ more ∧
      (buf ++ more).length < maxProbeBytes + readSize ∧ (rest = [] ∨ Enough (buf ++ more)) := by
  induction chunks generalizing buf with
  | nil => exact ⟨[], [], rfl, by simp [readLoop], by simp [Nat.lt_add_right _ short], Or.inl rfl⟩
  | cons chunk chunks ih =>
      obtain ⟨first, others⟩ := List.forall_mem_cons.mp small
      have seen :
          ((findSlice buf blankLine).isSome || (findSlice (buf ++ chunk) blankLine).isSome) =
          (findSlice (buf ++ chunk) blankLine).isSome := by
        cases before : (findSlice buf blankLine).isSome with
        | false => rfl
        | true => rw [findSlice_stays (by decide) chunk before]; rfl
      rw [readLoop, seen]
      by_cases done : readDone (buf ++ chunk) (findSlice (buf ++ chunk) blankLine).isSome = true
      · refine ⟨chunk, chunks.flatten, List.flatten_cons, if_pos done, ?_, Or.inr done⟩
        rw [List.length_append]
        omega
      · have room : (buf ++ chunk).length < maxProbeBytes := by
          by_contra full
          rw [readDone, decide_eq_true (Nat.le_of_not_lt full), Bool.or_true] at done
          exact done rfl
        obtain ⟨more, rest, shape, reads, bound, enough⟩ := ih others room
        refine ⟨chunk ++ more, rest, ?_, ?_, ?_, ?_⟩
        · rw [List.flatten_cons, shape, List.append_assoc]
        · rw [if_neg done, reads, List.append_assoc]
        · rwa [← List.append_assoc]
        · rwa [← List.append_assoc]

/-! What is read off the part that was read. -/

/-- Status, location and server. -/
def headFields (response : RawResponse) : UInt16 × Option Str × Option Str :=
  (response.status, response.location, response.server)

/-- The part has the whole head of the answer. -/
theorem parse_front {front back : List UInt8} {i : Nat}
    (found : findSlice (front ++ back) blankLine = some i)
    (inside : i + blankLine.length ≤ front.length) :
    findSlice front blankLine = some i ∧ (front ++ back).take i = front.take i := by
  refine ⟨?_, List.take_append_of_le_length (le_of_add_le_left inside)⟩
  rw [findSlice_front (by decide) found, if_pos inside]

theorem parseResponse_found {buf : List UInt8} {i : Nat}
    (found : findSlice buf blankLine = some i) :
    parseResponse buf =
      match parseHead (lossy (buf.take i)) with
      | none => some none
      | some (status, server, location) =>
          (extractName (buf.drop (i + blankLine.length))).map
            (fun title => some ⟨status, location, server, title⟩) := by
  have bound := findSlice_fits found
  simp only [parseResponse, found, headerBytes, bodyBytes, listTo_some (le_of_add_le_left bound),
    listFrom_some bound, Option.bind_eq_bind, Option.bind_some]
  cases parseHead (lossy (buf.take i)) with
  | none => rfl
  | some fields =>
      cases extractName (buf.drop (i + blankLine.length)) <;> rfl

theorem head_front {front back : List UInt8} {i : Nat}
    (found : findSlice (front ++ back) blankLine = some i)
    (inside : i + blankLine.length ≤ front.length) :
    (parseResponse front).map (Option.map headFields) =
      (parseResponse (front ++ back)).map (Option.map headFields) := by
  obtain ⟨here, same⟩ := parse_front found inside
  rw [parseResponse_found here, parseResponse_found found, same]
  cases parseHead (lossy (front.take i)) with
  | none => rfl
  | some fields =>
      obtain ⟨first, named, -⟩ := extractName_named (front.drop (i + blankLine.length))
      obtain ⟨second, named', -⟩ := extractName_named ((front ++ back).drop (i + blankLine.length))
      simp only [named, named', Option.map_some, headFields]

/-- A loop that has enough has the whole head, if the head is not longer than all that is read. -/
theorem Enough.head {front back : List UInt8} {i : Nat} (enough : Enough front)
    (found : findSlice (front ++ back) blankLine = some i)
    (short : i + blankLine.length ≤ maxProbeBytes) : i + blankLine.length ≤ front.length := by
  by_contra outside
  have missing := findSlice_front (by decide) found
  rw [if_neg outside] at missing
  rw [Enough, missing, readDone, Option.isSome_none, Bool.false_and, Bool.false_or,
    decide_eq_true_eq] at enough
  omega

/-- The part of the answer that is read, and what is left of it. -/
theorem readLoop_part {chunks : List (List UInt8)}
    (small : ∀ chunk ∈ chunks, chunk.length ≤ readSize) :
    ∃ rest, chunks.flatten = readLoop [] false chunks ++ rest ∧
      (readLoop [] false chunks).length < maxProbeBytes + readSize ∧
        (rest = [] ∨ Enough (readLoop [] false chunks)) := by
  obtain ⟨more, rest, shape, reads, bound, enough⟩ := readLoop_stops small
    (show ([] : List UInt8).length < maxProbeBytes by decide)
  have reads' : readLoop [] false chunks = more := reads
  rw [reads']
  exact ⟨rest, shape, bound, enough⟩

/-- However an answer comes in, the probe reads a bounded part from its front, and the same status,
location and server off it as off the whole, once the head has arrived. -/
theorem probe_reads_head {chunks : List (List UInt8)} {missing : List UInt8}
    (small : ∀ chunk ∈ chunks, chunk.length ≤ readSize) :
    readLoop [] false chunks <+: chunks.flatten ∧
    (readLoop [] false chunks).length < maxProbeBytes + readSize ∧
    ∀ i, findSlice (chunks.flatten ++ missing) blankLine = some i →
      i + blankLine.length ≤ maxProbeBytes → i + blankLine.length ≤ chunks.flatten.length →
        (readAnswer chunks).map (Option.map headFields) =
          (parseResponse (chunks.flatten ++ missing)).map (Option.map headFields) := by
  obtain ⟨rest, shape, bound, enough⟩ := readLoop_part small
  refine ⟨⟨rest, shape.symm⟩, bound, ?_⟩
  intro i found short arrived
  rw [shape, List.append_assoc] at found ⊢
  apply head_front found
  rcases enough with rfl | enough
  · rwa [shape, List.append_nil] at arrived
  · exact enough.head found short

/-- A small page. -/
def samplePage : List UInt8 :=
  utf8 ("HTTP/1.1 200 OK\r\nServer: web\r\n\r\n<html><head><title>My App</title></head>" ++
    "<body><svg><title>Logo</title></svg></body></html>").toList

/-- It comes in in pieces of seven bytes, and stalls behind its head. -/
theorem probe_reads_head_pieces :
    (readAnswer ((samplePage.take 35).toChunks 7)).map (Option.map headFields) =
      (parseResponse (((samplePage.take 35).toChunks 7).flatten ++ samplePage.drop 35)).map
        (Option.map headFields) :=
  (@probe_reads_head ((samplePage.take 35).toChunks 7) (samplePage.drop 35)
    (by decide +kernel)).2.2 28 (by decide +kernel) (by decide) (by decide +kernel)

/-! The title of a page. -/

/-- Where the text of the first title begins and ends. -/
def titleRange (bytes : List UInt8) : Option (Nat × Nat) := do
  let start ← findCi bytes titleOpen
  let afterOpen := start + titleOpen.length
  let offset ← (bytes.drop afterOpen).findIdx? (· == 0x3E)
  let gt := offset + afterOpen + 1
  let stop ← findCi (bytes.drop gt) titleClose
  return (gt, stop + gt)

theorem titleRange_eq_some {bytes : List UInt8} {gt stop : Nat} :
    titleRange bytes = some (gt, stop) ↔
      ∃ start offset close, findCi bytes titleOpen = some start ∧
        (bytes.drop (start + titleOpen.length)).findIdx? (· == 0x3E) = some offset ∧
          gt = offset + (start + titleOpen.length) + 1 ∧
            findCi (bytes.drop gt) titleClose = some close ∧ stop = close + gt := by
  simp only [titleRange, Option.bind_eq_bind, Option.bind_eq_some_iff, Option.pure_def,
    Option.some.injEq, Prod.mk.injEq]
  constructor
  · rintro ⟨start, opened, offset, inner, close, closed, rfl, rfl⟩
    exact ⟨start, offset, close, opened, inner, rfl, closed, rfl⟩
  · rintro ⟨start, offset, close, opened, inner, rfl, closed, rfl⟩
    exact ⟨start, opened, offset, inner, close, closed, rfl, rfl⟩

theorem titleRange_fits {bytes : List UInt8} {gt stop : Nat}
    (range : titleRange bytes = some (gt, stop)) :
    gt ≤ stop ∧ stop + titleClose.length ≤ bytes.length := by
  obtain ⟨start, offset, close, -, -, rfl, closed, rfl⟩ := titleRange_eq_some.mp range
  have fits := findCi_fits closed
  rw [List.length_drop] at fits
  have positive : titleClose.length = 7 := rfl
  omega

theorem extractTitle_eq (bytes : List UInt8) :
    extractTitle bytes = some ((titleRange bytes).bind
      (fun range => normalizeName (lossy ((bytes.take range.2).drop range.1)))) := by
  unfold extractTitle titleRange
  cases opened : findCi bytes titleOpen with
  | none => rfl
  | some start =>
      have bound := findCi_fits opened
      simp only [listFrom_some bound, Option.bind_eq_bind, Option.bind_some]
      cases inner : (bytes.drop (start + titleOpen.length)).findIdx? (· == 0x3E) with
      | none => rfl
      | some offset =>
          have inside := (List.findIdx?_eq_some_iff_getElem.mp inner).1
          rw [List.length_drop] at inside
          have gt : offset + (start + titleOpen.length) + 1 ≤ bytes.length := by omega
          simp only [listFrom_some gt, Option.bind_some]
          cases closed :
              findCi (bytes.drop (offset + (start + titleOpen.length) + 1)) titleClose with
          | none => rfl
          | some close =>
              have last := findCi_fits closed
              rw [List.length_drop] at last
              have stop : close + (offset + (start + titleOpen.length) + 1) ≤ bytes.length := by
                omega
              simp only [listSlice_some (Nat.le_add_left _ close) stop, Option.bind_some,
                Option.pure_def]

theorem findIdx_front {p : UInt8 → Bool} {front back : List UInt8} {i : Nat}
    (found : (front ++ back).findIdx? p = some i) (inside : i < front.length) :
    front.findIdx? p = some i := by
  rw [List.findIdx?_append] at found
  cases here : front.findIdx? p with
  | some j => rwa [here, Option.some_or] at found
  | none =>
      rw [here, Option.none_or, Option.map_eq_some_iff] at found
      obtain ⟨j, -, rfl⟩ := found
      omega

theorem titleRange_front {front back : List UInt8} {gt stop : Nat}
    (range : titleRange (front ++ back) = some (gt, stop))
    (inside : stop + titleClose.length ≤ front.length) : titleRange front = some (gt, stop) := by
  obtain ⟨start, offset, close, opened, inner, rfl, closed, rfl⟩ := titleRange_eq_some.mp range
  have positive : titleClose.length = 7 := rfl
  have opens := findCi_front (by decide) opened
  rw [if_pos (by omega)] at opens
  rw [List.drop_append_of_le_length (by omega)] at inner closed
  have ends := findCi_front (by decide) closed
  rw [List.length_drop, if_pos (by omega)] at ends
  have tag := findIdx_front inner (by rw [List.length_drop]; omega)
  exact titleRange_eq_some.mpr ⟨start, offset, close, opens, tag, rfl, ends, rfl⟩

/-- The part has all of the first title, and the title is not blank. -/
theorem title_front {front back : List UInt8} {i gt stop : Nat} {name : Str}
    (found : findSlice (front ++ back) blankLine = some i)
    (range : titleRange ((front ++ back).drop (i + blankLine.length)) = some (gt, stop))
    (named : extractTitle ((front ++ back).drop (i + blankLine.length)) = some (some name))
    (inside : i + blankLine.length + (stop + titleClose.length) ≤ front.length) :
    parseResponse front = parseResponse (front ++ back) := by
  obtain ⟨here, same⟩ := parse_front found (by omega)
  have body : (front ++ back).drop (i + blankLine.length) =
      front.drop (i + blankLine.length) ++ back := List.drop_append_of_le_length (by omega)
  have titled : extractTitle (front.drop (i + blankLine.length)) = some (some name) := by
    have fits := titleRange_fits range
    rw [body] at range named
    have within : stop + titleClose.length ≤ (front.drop (i + blankLine.length)).length := by
      rw [List.length_drop]
      omega
    rw [extractTitle_eq, range] at named
    rw [extractTitle_eq, titleRange_front range within, ← named]
    simp only [Option.bind_some]
    rw [List.take_append_of_le_length (le_of_add_le_left within)]
  rw [parseResponse_found here, parseResponse_found found, same]
  simp only [extractName, titled, named, Option.bind_eq_bind, Option.bind_some, Option.pure_def,
    Option.map_some]

/-- The loop goes on as long as the head is neither closed nor longer than its cap. -/
theorem Enough.until {front back : List UInt8} {size : Nat} (enough : Enough front)
    (early : size ≤ headReadCap)
    (open' : ∀ close ∈ [headClose, htmlClose], findCi ((front ++ back).take size) close = none) :
    size ≤ front.length := by
  by_contra short
  have part : (front ++ back).take size = front ++ back.take (size - front.length) := by
    rw [List.take_append, List.take_of_length_le (by omega)]
  rw [part] at open'
  have unseen (close : List UInt8) (present : close ≠ [])
      (either : close ∈ [headClose, htmlClose]) :
      (findCi front close).isSome = false := by
    rw [Bool.eq_false_iff]
    intro seen
    have stays := findCi_stays present (back.take (size - front.length)) seen
    rw [open' close either] at stays
    cases stays
  have cap : headReadCap ≤ maxProbeBytes := by decide
  rw [Enough, readDone, unseen headClose (by decide) (by simp),
    unseen htmlClose (by decide) (by simp), decide_eq_false
      (by omega : ¬ headReadCap ≤ front.length),
    decide_eq_false (by omega : ¬ maxProbeBytes ≤ front.length)] at enough
  simp at enough

/-- A page whose title ends before its head does is read off in the same way however it comes in. -/
theorem probe_reads_title {chunks : List (List UInt8)} {missing : List UInt8} {i gt stop : Nat}
    {name : Str} (small : ∀ chunk ∈ chunks, chunk.length ≤ readSize)
    (head : findSlice (chunks.flatten ++ missing) blankLine = some i)
    (title : titleRange ((chunks.flatten ++ missing).drop (i + blankLine.length)) = some (gt, stop))
    (named : extractTitle ((chunks.flatten ++ missing).drop (i + blankLine.length)) =
      some (some name))
    (early : i + blankLine.length + (stop + titleClose.length) ≤ headReadCap)
    (arrived : i + blankLine.length + (stop + titleClose.length) ≤ chunks.flatten.length)
    (open' : ∀ close ∈ [headClose, htmlClose], findCi ((chunks.flatten ++ missing).take
      (i + blankLine.length + (stop + titleClose.length))) close = none) :
    readAnswer chunks = parseResponse (chunks.flatten ++ missing) := by
  obtain ⟨rest, shape, -, enough⟩ := readLoop_part small
  have inside : i + blankLine.length + (stop + titleClose.length) ≤
      (readLoop [] false chunks).length := by
    rcases enough with rfl | enough
    · rwa [shape, List.append_nil] at arrived
    · rw [shape, List.append_assoc] at open'
      exact enough.until early open'
  rw [shape, List.append_assoc] at head title named ⊢
  exact title_front head title named inside

theorem probe_reads_title_pieces :
    readAnswer ((samplePage.take 84).toChunks 7) =
      parseResponse (((samplePage.take 84).toChunks 7).flatten ++ samplePage.drop 84) ∧
    readAnswer ((samplePage.take 84).toChunks 7) =
      some (some ⟨200, none, some "web".toList, some "My App".toList⟩) :=
  ⟨@probe_reads_title ((samplePage.take 84).toChunks 7) (samplePage.drop 84) 28 19 25
    "My App".toList (by decide +kernel) (by decide +kernel) (by decide +kernel)
    (by decide +kernel) (by decide) (by decide +kernel) (by decide +kernel), by decide +kernel⟩

end RaemoteServer.Discovery
