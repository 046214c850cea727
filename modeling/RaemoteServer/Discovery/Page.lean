import RaemoteServer.Discovery.Probe
import RaemoteServer.Library.HttpHead
import RaemoteServer.Library.Spacing
import RaemoteServer.Library.StrSlice
import RaemoteServer.Library.Utf8

/-! What the probe reads off an answer: the status, two header fields, and a name for the page.
Where a result is an option of an option, the outer `none` is a slice that failed or a loop that
ran out of turns. -/

namespace RaemoteServer.Discovery

open Text Http HttpHead Spacing

def maxNameChars : Nat := 120

def normalizeLoop (out : Str) (prevSpace : Bool) : Str → Str
  | [] => out
  | ch :: rest =>
      if isWhitespace ch then
        let out := if !prevSpace && !out.isEmpty then out ++ [' '] else out
        if out.length ≥ maxNameChars then out else normalizeLoop out true rest
      else
        let out := out ++ [ch]
        if out.length ≥ maxNameChars then out else normalizeLoop out false rest

/-- White space is collapsed and trimmed, and the length is capped. -/
def normalizeName (text : Str) : Option Str :=
  let out := trim (normalizeLoop [] true text)
  if out = [] then none else some out

/-! Searching bytes. -/

def findSlice (haystack needle : List UInt8) : Option Nat :=
  if needle = [] ∨ haystack.length < needle.length then none else Search.position needle haystack

/-- `u8::to_ascii_lowercase` -/
def lowerByte (byte : UInt8) : UInt8 :=
  if 0x41 ≤ byte ∧ byte ≤ 0x5A then byte + 0x20 else byte

def findCi (haystack needle : List UInt8) : Option Nat :=
  if needle = [] ∨ haystack.length < needle.length then none
  else Search.position (needle.map lowerByte) (haystack.map lowerByte)

def titleOpen : List UInt8 := utf8 "<title".toList
def titleClose : List UInt8 := utf8 "</title".toList

def extractTitle (bytes : List UInt8) : Option (Option Str) :=
  match findCi bytes titleOpen with
  | none => some none
  | some start => do
      let afterOpen := start + titleOpen.length
      let behind ← listFrom afterOpen bytes
      match behind.findIdx? (· == 0x3E) with
      | none => return none
      | some offset =>
          let gt := offset + afterOpen + 1
          let behind ← listFrom gt bytes
          match findCi behind titleClose with
          | none => return none
          | some offset =>
              let inside ← listSlice gt (offset + gt) bytes
              return normalizeName (lossy inside)

/-! Attributes of a tag. -/

def trimStart (s : Str) : Str := s.dropWhile isWhitespace

/-- The value behind the equals sign, up to its quote or to white space. -/
def readValue (afterEq : Str) : Option Str :=
  match afterEq.head? with
  | some quote =>
      if quote = '"' ∨ quote = '\'' then
        (strFrom 1 afterEq).map (List.takeWhile (· ≠ quote))
      else some ((splitWhitespace afterEq).headD [])
  | none => some ((splitWhitespace afterEq).headD [])

def attributeLoop (tag lower attr : Str) : Nat → Nat → Option (Option Str)
  | 0, _ => none
  | fuel + 1, search => do
      let behind ← strFrom search lower
      match findStr attr behind with
      | none => return none
      | some offset =>
          let idx := search + offset
          let front ← strTo idx tag
          let precededBySpace := front.getLast?.any isWhitespace
          let after ← strFrom (idx + byteLen attr) tag
          match precededBySpace, stripPrefix ['='] (trimStart after) with
          | true, some afterEq => (readValue (trimStart afterEq)).map some
          | _, _ => attributeLoop tag lower attr fuel (idx + byteLen attr)

def attributeValue (tag attr : Str) : Option (Option Str) :=
  attributeLoop tag (asciiLower tag) attr (tag.length + 1) 0

/-! Meta elements. -/

def tagMatches (tag key : Str) : Option Bool := do
  let name ← attributeValue tag "name".toList
  if name.any (eqIgnoreAsciiCase · key) then return true
  else
    let property ← attributeValue tag "property".toList
    return property.any (eqIgnoreAsciiCase · key)

def tagContent (tag key : Str) : Option (Option Str) := do
  if ← tagMatches tag key then attributeValue tag "content".toList else return none

def metaOpen : Str := "<meta".toList

def metaLoop (text lower key : Str) : Nat → Nat → Option (Option Str)
  | 0, _ => none
  | fuel + 1, search => do
      let behind ← strFrom search lower
      match findStr metaOpen behind with
      | none => return none
      | some offset =>
          let start := search + offset
          let tail ← strFrom start text
          match findStr ['>'] tail with
          | none => return none
          | some i =>
              let stop := start + i + 1
              let tag ← strSlice start stop text
              match ← tagContent tag key with
              | some content => return some content
              | none => metaLoop text lower key fuel stop

def extractMetaContent (body : List UInt8) (key : Str) : Option (Option Str) :=
  let text := lossy body
  metaLoop text (asciiLower text) key (text.length + 1) 0

def metaKeys : List Str :=
  ["og:title", "twitter:title", "application-name", "apple-mobile-web-app-title"].map String.toList

def firstMeta (body : List UInt8) : List Str → Option (Option Str)
  | [] => some none
  | key :: rest => do
      let content ← extractMetaContent body key
      match content.bind normalizeName with
      | some name => return some name
      | none => firstMeta body rest

def extractName (body : List UInt8) : Option (Option Str) := do
  match ← extractTitle body with
  | some title => return some title
  | none => firstMeta body metaKeys

/-! The head of an answer. -/

/-- The server and the location found so far. -/
def headerLine (found : Option Str × Option Str) (line : Str) : Option Str × Option Str :=
  match splitOnce ':' line with
  | (_, none) => found
  | (key, some value) =>
      let value := trim value
      if value = [] then found
      else if eqIgnoreAsciiCase key "server".toList then (some value, found.2)
      else if eqIgnoreAsciiCase key "location".toList then (found.1, some value)
      else found

def parseHead (text : Str) : Option (UInt16 × Option Str × Option Str) :=
  match crlfLines text with
  | [] => none
  | statusLine :: lines => do
      let parts := splitWhitespace statusLine
      let version ← parts[0]?
      if !"HTTP/".toList.isPrefixOf version then none
      else
        let status ← parseU16 (← parts[1]?)
        return (status, lines.foldl headerLine (none, none))

def blankLine : List UInt8 := [0x0D, 0x0A, 0x0D, 0x0A]

def headerBytes (buf : List UInt8) : Option Nat → Option (List UInt8)
  | some i => listTo i buf
  | none => some buf

def bodyBytes (buf : List UInt8) : Option Nat → Option (List UInt8)
  | some i => listFrom (i + blankLine.length) buf
  | none => some buf

def parseResponse (buf : List UInt8) : Option (Option RawResponse) := do
  let headerEnd := findSlice buf blankLine
  let header ← headerBytes buf headerEnd
  match parseHead (lossy header) with
  | none => return none
  | some (status, server, location) =>
      let body ← bodyBytes buf headerEnd
      let title ← extractName body
      return some ⟨status, location, server, title⟩

/-! What the loop over a tag finds, by its characters. -/

def plainValue (afterEq : Str) : Str :=
  match afterEq.head? with
  | some quote =>
      if quote = '"' ∨ quote = '\'' then afterEq.tail.takeWhile (· ≠ quote)
      else (splitWhitespace afterEq).headD []
  | none => (splitWhitespace afterEq).headD []

def valueBehind (after : Str) : Option Str :=
  (stripPrefix ['='] (trimStart after)).map (fun afterEq => plainValue (trimStart afterEq))

/-- The value of an attribute that stands at the front, behind `prev`. -/
def hit (attr : Str) (prev : Option Char) (s : Str) : Option Str :=
  if prev.any isWhitespace = true ∧ attr <+: asciiLower s then valueBehind (s.drop attr.length)
  else none

def firstHit (attr : Str) (prev : Option Char) : Str → Option Str
  | [] => none
  | c :: rest => (hit attr prev (c :: rest)).or (firstHit attr (some c) rest)

theorem readValue_eq (afterEq : Str) : readValue afterEq = some (plainValue afterEq) := by
  unfold readValue plainValue
  cases afterEq with
  | nil => rfl
  | cons quote rest =>
      simp only [List.head?_cons, List.tail_cons]
      split
      case isTrue quoted =>
        have one : quote.utf8Size = 1 := by rcases quoted with rfl | rfl <;> decide
        have inside := strFrom_append [quote] rest
        rw [byteLen_cons, byteLen_nil, one] at inside
        rw [List.singleton_append] at inside
        rw [inside]
        rfl
      case isFalse => rfl

@[simp] theorem asciiLower_append (front back : Str) :
    asciiLower (front ++ back) = asciiLower front ++ asciiLower back := List.map_append

theorem strFrom_asciiLower (front back : Str) :
    strFrom (byteLen front) (asciiLower (front ++ back)) = some (asciiLower back) := by
  have size : byteLen (asciiLower front) = byteLen front := byteLen_lower front
  rw [asciiLower_append, ← size, strFrom_append]

@[simp] theorem length_asciiLower (s : Str) : (asciiLower s).length = s.length := List.length_map _

@[simp] theorem byteLen_asciiLower (s : Str) : byteLen (asciiLower s) = byteLen s := byteLen_lower s

/-- No hit begins in the front part. -/
def Quiet (attr : Str) (prev : Option Char) : Str → Str → Prop
  | [], _ => True
  | c :: rest, back => hit attr prev (c :: rest ++ back) = none ∧ Quiet attr (some c) rest back

theorem firstHit_quiet {attr : Str} {prev : Option Char} {front : Str} (back : Str)
    (quiet : Quiet attr prev front back) :
    firstHit attr prev (front ++ back) = firstHit attr (front.getLast?.or prev) back := by
  induction front generalizing prev with
  | nil => rfl
  | cons c rest ih =>
      rw [List.cons_append, firstHit, ← List.cons_append, quiet.1, Option.none_or, ih quiet.2]
      cases rest with
      | nil => rfl
      | cons d more =>
          rw [List.getLast?_cons_cons, List.getLast?_cons, Option.some_or, Option.some_or]

theorem hit_absent {attr s : Str} (absent : ¬ attr <+: asciiLower s) (prev : Option Char) :
    hit attr prev s = none := if_neg (fun both => absent both.2)

theorem hit_inside {attr : Str} {prev : Option Char} (inside : prev.any isWhitespace = false)
    (s : Str) : hit attr prev s = none := by
  apply if_neg
  intro both
  rw [inside] at both
  cases both.1

theorem quiet_absent {attr : Str} {front back : Str} (prev : Option Char)
    (absent : ∀ j < front.length, ¬ attr <+: (asciiLower (front ++ back)).drop j) :
    Quiet attr prev front back := by
  induction front generalizing prev with
  | nil => trivial
  | cons c rest ih =>
      refine ⟨hit_absent (absent 0 (Nat.succ_pos _)) prev, ih (some c) (fun j below => ?_)⟩
      exact absent (j + 1) (Nat.succ_lt_succ below)

/-- Behind a character that is not white space there is no hit. -/
theorem quiet_inside {attr : Str} {front : Str} {prev : Option Char}
    (inside : prev.any isWhitespace = false) (plain : ∀ c ∈ front, isWhitespace c = false)
    (back : Str) : Quiet attr prev front back := by
  induction front generalizing prev with
  | nil => trivial
  | cons c rest ih =>
      obtain ⟨here, later⟩ := List.forall_mem_cons.mp plain
      exact ⟨hit_inside inside _, ih here later⟩

theorem firstHit_none {attr s : Str} (absent : ∀ j, ¬ attr <+: (asciiLower s).drop j)
    (prev : Option Char) : firstHit attr prev s = none := by
  have quiet : Quiet attr prev s [] := quiet_absent prev (fun j _ => by
    rw [List.append_nil]
    exact absent j)
  have skipped := firstHit_quiet [] quiet
  rwa [List.append_nil] at skipped

theorem hit_front {attr word : Str} (same : asciiLower word = attr) (prev : Option Char)
    (after : Str) :
    hit attr prev (word ++ after) =
      if prev.any isWhitespace = true then valueBehind after else none := by
  have here : attr <+: asciiLower (word ++ after) := by
    rw [asciiLower_append, same]
    exact List.prefix_append _ _
  have size : attr.length = word.length := by rw [← same, length_asciiLower]
  rw [hit, size, List.drop_left]
  simp only [here, and_true]

/-- An occurrence that is no hit is passed over. -/
theorem firstHit_pass {attr word : Str} (plain : ∀ c ∈ attr, isWhitespace c = false)
    (same : asciiLower word = attr) {prev : Option Char} {after : Str}
    (missed : hit attr prev (word ++ after) = none) :
    firstHit attr prev (word ++ after) = firstHit attr (word.getLast?.or prev) after := by
  apply firstHit_quiet
  cases word with
  | nil => trivial
  | cons c rest =>
      have own : ∀ d ∈ c :: rest, isWhitespace d = false := by
        intro d member
        rw [← isWhitespace_toLower]
        exact plain _ (same ▸ List.mem_map_of_mem member)
      obtain ⟨here, later⟩ := List.forall_mem_cons.mp own
      have inside : (some c).any isWhitespace = false := here
      exact ⟨missed, quiet_inside inside later after⟩

/-- The first occurrence decides, or the search goes on behind it. -/
theorem firstHit_at {attr gap word after : Str} (plain : ∀ c ∈ attr, isWhitespace c = false)
    (same : asciiLower word = attr) (present : word ≠ [])
    (earlier : ∀ j < gap.length, ¬ attr <+: (asciiLower (gap ++ (word ++ after))).drop j)
    (prev : Option Char) :
    firstHit attr prev (gap ++ (word ++ after)) =
      (if (gap.getLast?.or prev).any isWhitespace = true then valueBehind after else none).or
        (firstHit attr (word.getLast?.or (gap.getLast?.or prev)) after) := by
  rw [firstHit_quiet _ (quiet_absent prev earlier), ← hit_front same]
  cases first : hit attr (gap.getLast?.or prev) (word ++ after) with
  | none => exact firstHit_pass plain same first
  | some value =>
      obtain ⟨c, rest, rfl⟩ := List.exists_cons_of_ne_nil present
      rw [List.cons_append] at first ⊢
      rw [firstHit, first, Option.some_or, Option.some_or]

/-- What is found in the lower-case text stands at the same boundary of the text. -/
theorem findLower_some {needle s : Str} {offset : Nat} (present : needle ≠ [])
    (found : findStr needle (asciiLower s) = some offset) :
    ∃ gap word after, s = gap ++ (word ++ after) ∧ offset = byteLen gap ∧
      asciiLower word = needle ∧ word ≠ [] ∧
      ∀ j < gap.length, ¬ needle <+: (asciiLower s).drop j := by
  obtain ⟨lowerGap, lowerRest, shape, rfl, here, earlier⟩ := findStr_some present found
  obtain ⟨gap, rest, rfl, rfl, rfl⟩ := List.map_eq_append_iff.mp shape
  obtain ⟨tail, lowered⟩ := here
  obtain ⟨word, after, rfl, same, -⟩ := List.map_eq_append_iff.mp lowered.symm
  refine ⟨gap, word, after, rfl, byteLen_lower gap, same, ?_, fun j below => earlier j ?_⟩
  · rintro rfl
    exact present same.symm
  · rwa [List.length_map]

/-- Every slice of the loop is at a boundary, and each turn takes characters away. -/
theorem attributeLoop_eq {attr : Str} (present : attr ≠ [])
    (plain : ∀ c ∈ attr, isWhitespace c = false) (fuel : Nat) (front back : Str)
    (enough : back.length < fuel) :
    attributeLoop (front ++ back) (asciiLower (front ++ back)) attr fuel (byteLen front) =
      some (firstHit attr front.getLast? back) := by
  induction fuel generalizing front back with
  | zero => exact absurd enough (Nat.not_lt_zero _)
  | succ fuel ih =>
      rw [attributeLoop, strFrom_asciiLower]
      simp only [Option.bind_eq_bind, Option.bind_some]
      cases found : findStr attr (asciiLower back) with
      | none =>
          rw [firstHit_none (findStr_none present found)]
          rfl
      | some offset =>
          obtain ⟨gap, word, after, rfl, rfl, same, nonempty, earlier⟩ :=
            findLower_some present found
          have whole :
            front ++ (gap ++ (word ++ after)) = (front ++ gap ++ word) ++ after := by simp
          have before : strTo (byteLen front + byteLen gap) (front ++ (gap ++ (word ++ after))) =
              some (front ++ gap) := by
            rw [← byteLen_append, ← List.append_assoc, strTo_append]
          have beyond : byteLen front + byteLen gap + byteLen attr =
              byteLen (front ++ gap ++ word) := by
            rw [← same, byteLen_asciiLower, byteLen_append, byteLen_append]
          have left : strFrom (byteLen (front ++ gap ++ word)) (front ++ (gap ++ (word ++ after))) =
              some after := by rw [whole, strFrom_append]
          have again : attributeLoop (front ++ (gap ++ (word ++ after)))
              (asciiLower (front ++ (gap ++ (word ++ after)))) attr fuel
              (byteLen (front ++ gap ++ word)) =
                some (firstHit attr (front ++ gap ++ word).getLast? after) := by
            rw [whole]
            apply ih
            have grown := List.length_pos_iff.mpr nonempty
            simp only [List.length_append] at enough
            omega
          rw [firstHit_at plain same nonempty earlier, ← List.getLast?_append,
            ← List.getLast?_append]
          simp only [before, beyond, left, Option.bind_some]
          cases (front ++ gap).getLast?.any isWhitespace with
          | false => exact again
          | true =>
              rw [if_pos rfl, valueBehind]
              cases stripPrefix ['='] (trimStart after) with
              | none => exact again
              | some afterEq => simp only [readValue_eq, Option.map_some, Option.some_or]

theorem attributeValue_eq {attr : Str} (present : attr ≠ [])
    (plain : attr.any isWhitespace = false) (tag : Str) :
    attributeValue tag attr = some (firstHit attr none tag) :=
  attributeLoop_eq present (by simpa using plain) (tag.length + 1) [] tag (Nat.lt_succ_self _)

/-! What the loop over a page finds, by its characters. -/

def matchesKey (tag key : Str) : Bool :=
  (firstHit "name".toList none tag).any (eqIgnoreAsciiCase · key) ||
    (firstHit "property".toList none tag).any (eqIgnoreAsciiCase · key)

def contentOf (tag key : Str) : Option Str :=
  if matchesKey tag key then firstHit "content".toList none tag else none

/-- The content of the first tag that has one under the key. The first `skip` characters belong to
a tag that has been read. -/
def metaScan (key : Str) : Nat → Str → Option Str
  | _, [] => none
  | skip + 1, _ :: rest => metaScan key skip rest
  | 0, c :: rest =>
      if metaOpen <+: asciiLower (c :: rest) then
        if '>' ∈ c :: rest then
          let tag := (c :: rest).takeWhile (· ≠ '>') ++ ['>']
          (contentOf tag key).or (metaScan key (tag.length - 1) rest)
        else none
      else metaScan key 0 rest

theorem tagContent_eq (tag key : Str) : tagContent tag key = some (contentOf tag key) := by
  have name : attributeValue tag "name".toList = some (firstHit "name".toList none tag) :=
    attributeValue_eq (by decide) (by decide) tag
  have property :
      attributeValue tag "property".toList = some (firstHit "property".toList none tag) :=
    attributeValue_eq (by decide) (by decide) tag
  have content :
      attributeValue tag "content".toList = some (firstHit "content".toList none tag) :=
    attributeValue_eq (by decide) (by decide) tag
  have tested : tagMatches tag key = some (matchesKey tag key) := by
    rw [tagMatches, name, property, matchesKey]
    simp only [Option.bind_eq_bind, Option.bind_some]
    cases (firstHit "name".toList none tag).any (eqIgnoreAsciiCase · key) <;> rfl
  rw [tagContent, tested, content, contentOf]
  cases matchesKey tag key <;> rfl

theorem metaScan_skip (key front back : Str) :
    metaScan key front.length (front ++ back) = metaScan key 0 back := by
  induction front with
  | nil => rfl
  | cons c rest ih => exact ih

theorem metaScan_gap {key gap back : Str}
    (absent : ∀ j < gap.length, ¬ metaOpen <+: (asciiLower (gap ++ back)).drop j) :
    metaScan key 0 (gap ++ back) = metaScan key 0 back := by
  induction gap with
  | nil => rfl
  | cons c rest ih =>
      have other : ¬ metaOpen <+: asciiLower (c :: (rest ++ back)) := absent 0 (Nat.succ_pos _)
      rw [List.cons_append, metaScan, if_neg other]
      exact ih (fun j below => absent (j + 1) (Nat.succ_lt_succ below))

theorem metaScan_none {key s : Str} (absent : ∀ j, ¬ metaOpen <+: (asciiLower s).drop j) :
    metaScan key 0 s = none := by
  have skipped : metaScan key 0 (s ++ []) = metaScan key 0 [] := by
    apply metaScan_gap
    intro j _
    rw [List.append_nil]
    exact absent j
  rwa [List.append_nil] at skipped

theorem metaScan_unclosed {key s : Str} (opened : metaOpen <+: asciiLower s) (unclosed : '>' ∉ s) :
    metaScan key 0 s = none := by
  cases s with
  | nil => rfl
  | cons c rest => rw [metaScan, if_pos opened, if_neg unclosed]

theorem metaScan_tag {key before behind : Str}
    (opened : metaOpen <+: asciiLower (before ++ '>' :: behind))
    (plain : '>' ∉ before) :
    metaScan key 0 (before ++ '>' :: behind) =
      (contentOf (before ++ ['>']) key).or (metaScan key 0 behind) := by
  cases before with
  | nil =>
      obtain ⟨tail, shape⟩ := opened
      cases shape
  | cons c rest =>
      have taken : (c :: rest ++ '>' :: behind).takeWhile (· ≠ '>') = c :: rest :=
        Search.takeWhile_stop plain behind
      have closed : '>' ∈ c :: rest ++ '>' :: behind := by simp
      have shape : rest ++ '>' :: behind = (rest ++ ['>']) ++ behind := by simp
      have size : (c :: rest ++ ['>']).length - 1 = (rest ++ ['>']).length := by simp
      rw [List.cons_append] at opened taken closed ⊢
      rw [metaScan, if_pos opened, if_pos closed, taken]
      dsimp only
      rw [size, shape, metaScan_skip]

theorem findChar_none {c : Char} {s : Str} (absent : findStr [c] s = none) : c ∉ s := by
  intro inside
  obtain ⟨front, back, rfl, -⟩ := List.eq_append_cons_of_mem inside
  apply findStr_none (List.cons_ne_nil _ _) absent front.length
  rw [List.drop_left]
  exact ⟨back, rfl⟩

theorem findChar_some {c : Char} {s : Str} {offset : Nat} (found : findStr [c] s = some offset) :
    ∃ front back, s = front ++ c :: back ∧ offset = byteLen front ∧ c ∉ front := by
  obtain ⟨front, rest, rfl, rfl, ⟨back, rfl⟩, earlier⟩ := findStr_some (List.cons_ne_nil _ _) found
  refine ⟨front, back, rfl, rfl, fun inside => ?_⟩
  obtain ⟨before, behind, rfl, -⟩ := List.eq_append_cons_of_mem inside
  apply earlier before.length (by simp)
  rw [List.append_assoc, List.drop_left]
  exact ⟨_, rfl⟩

theorem metaLoop_eq (key : Str) (fuel : Nat) (front back : Str) (enough : back.length < fuel) :
    metaLoop (front ++ back) (asciiLower (front ++ back)) key fuel (byteLen front) =
      some (metaScan key 0 back) := by
  induction fuel generalizing front back with
  | zero => exact absurd enough (Nat.not_lt_zero _)
  | succ fuel ih =>
      have present : metaOpen ≠ [] := by decide
      rw [metaLoop, strFrom_asciiLower]
      simp only [Option.bind_eq_bind, Option.bind_some]
      cases found : findStr metaOpen (asciiLower back) with
      | none =>
          rw [metaScan_none (findStr_none present found)]
          rfl
      | some offset =>
          obtain ⟨gap, word, after, rfl, rfl, same, -, earlier⟩ := findLower_some present found
          have opened : metaOpen <+: asciiLower (word ++ after) := by
            rw [asciiLower_append, same]
            exact List.prefix_append _ _
          have tail : strFrom (byteLen front + byteLen gap) (front ++ (gap ++ (word ++ after))) =
              some (word ++ after) := by
            rw [← byteLen_append, ← List.append_assoc, strFrom_append]
          rw [metaScan_gap earlier]
          simp only [tail, Option.bind_some]
          generalize word ++ after = element at opened enough ⊢
          cases closed : findStr ['>'] element with
          | none =>
              rw [metaScan_unclosed opened (findChar_none closed)]
              rfl
          | some i =>
              obtain ⟨before, rest, rfl, rfl, plain⟩ := findChar_some closed
              have one : byteLen ['>'] = 1 := by decide
              have stop : byteLen front + byteLen gap + byteLen before + 1 =
                  byteLen (front ++ gap) + byteLen (before ++ ['>']) := by
                rw [byteLen_append, byteLen_append, one, Nat.add_assoc _ _ 1]
              have whole : front ++ (gap ++ (before ++ '>' :: rest)) =
                  (front ++ gap) ++ ((before ++ ['>']) ++ rest) := by simp
              have tag : strSlice (byteLen front + byteLen gap)
                  (byteLen front + byteLen gap + byteLen before + 1)
                  (front ++ (gap ++ (before ++ '>' :: rest))) = some (before ++ ['>']) := by
                rw [stop, whole, ← byteLen_append, strSlice_append]
              have again : metaLoop (front ++ (gap ++ (before ++ '>' :: rest)))
                  (asciiLower (front ++ (gap ++ (before ++ '>' :: rest)))) key fuel
                  (byteLen front + byteLen gap + byteLen before + 1) =
                    some (metaScan key 0 rest) := by
                rw [stop, whole, ← List.append_assoc, ← byteLen_append]
                apply ih
                simp only [List.length_append, List.length_cons] at enough
                omega
              rw [metaScan_tag opened plain]
              simp only [tag, Option.bind_some, tagContent_eq]
              cases contentOf (before ++ ['>']) key with
              | none => exact again
              | some content => rfl

theorem extractMetaContent_eq (body : List UInt8) (key : Str) :
    extractMetaContent body key = some (metaScan key 0 (lossy body)) :=
  metaLoop_eq key ((lossy body).length + 1) [] (lossy body) (Nat.lt_succ_self _)

/-! What becomes of any answer. -/

/-- A name that a page is shown under. -/
structure PageName (name : Str) : Prop where
  present : name ≠ []
  short : name.length ≤ maxNameChars
  tidy : Tidy isWhitespace name

theorem normalizeLoop_eq (out : Str) (prevSpace : Bool) (text : Str) :
    normalizeLoop out prevSpace text =
      squeeze isWhitespace (fun _ => false) ' ' maxNameChars out prevSpace text := by
  induction text generalizing out prevSpace with
  | nil => rfl
  | cons ch rest ih => simp only [normalizeLoop, squeeze, ih, Bool.false_eq_true, if_false]

theorem normalizeName_proper {text name : Str} (given : normalizeName text = some name) :
    PageName name := by
  obtain ⟨squeezed, short⟩ :
      Squeezed isWhitespace (fun _ => false) ' ' (normalizeLoop [] true text) ∧
      (normalizeLoop [] true text).length ≤ maxNameChars := by
    rw [normalizeLoop_eq]
    exact squeeze_spec (squeezed_nil _ _ _) (by decide) nofun text
  simp only [normalizeName, trim_loose squeezed.loose] at given
  split at given
  · cases given
  case isFalse present =>
    obtain rfl := Option.some.inj given
    have start := List.rdropWhile_prefix isWhitespace (l := normalizeLoop [] true text)
    exact ⟨present, start.length_le.trans short, squeezed.loose.strip⟩

theorem findCi_fits {haystack needle : List UInt8} {i : Nat}
    (found : findCi haystack needle = some i) : i + needle.length ≤ haystack.length := by
  unfold findCi at found
  split at found
  · cases found
  case isFalse possible =>
    rw [not_or] at possible
    have present : needle.map lowerByte ≠ [] := by simpa using possible.1
    simpa only [List.length_map] using Search.position_fits present found

theorem findSlice_fits {haystack needle : List UInt8} {i : Nat}
    (found : findSlice haystack needle = some i) : i + needle.length ≤ haystack.length := by
  unfold findSlice at found
  split at found
  · cases found
  case isFalse possible =>
    rw [not_or] at possible
    exact Search.position_fits possible.1 found

/-- A result that is there, with a name that can be shown if it has one. -/
def Named (result : Option (Option Str)) : Prop :=
  ∃ found, result = some found ∧ ∀ name ∈ found, PageName name

theorem named_none : Named (some none) := ⟨none, rfl, nofun⟩

theorem named_normalize (text : Str) : Named (some (normalizeName text)) :=
  ⟨_, rfl, fun _ given => normalizeName_proper given⟩

theorem extractTitle_named (bytes : List UInt8) : Named (extractTitle bytes) := by
  unfold extractTitle
  split
  · exact named_none
  case h_2 start opened =>
    have bound := findCi_fits opened
    simp only [listFrom_some bound, Option.bind_eq_bind, Option.bind_some]
    split
    · exact named_none
    case h_2 offset closed =>
      have inner := (List.findIdx?_eq_some_iff_getElem.mp closed).1
      rw [List.length_drop] at inner
      have gt : offset + (start + titleOpen.length) + 1 ≤ bytes.length := by omega
      simp only [listFrom_some gt, Option.bind_some]
      split
      · exact named_none
      case h_2 offset' ended =>
        have last := findCi_fits ended
        rw [List.length_drop] at last
        rw [listSlice_some (Nat.le_add_left _ _) (by omega), Option.bind_some]
        exact named_normalize _

theorem firstMeta_named (body : List UInt8) (keys : List Str) : Named (firstMeta body keys) := by
  induction keys with
  | nil => exact named_none
  | cons key rest ih =>
      rw [firstMeta, extractMetaContent_eq]
      simp only [Option.bind_eq_bind, Option.bind_some]
      cases content : (metaScan key 0 (lossy body)).bind normalizeName with
      | none => exact ih
      | some name =>
          obtain ⟨text, -, given⟩ := Option.bind_eq_some_iff.mp content
          exact ⟨some name, rfl, by simpa using normalizeName_proper given⟩

theorem extractName_named (body : List UInt8) : Named (extractName body) := by
  obtain ⟨title, found, proper⟩ := extractTitle_named body
  rw [extractName, found]
  cases title with
  | none => exact firstMeta_named body metaKeys
  | some title => exact ⟨some title, rfl, proper⟩

theorem head_and_body (buf : List UInt8) :
    ∃ header body, headerBytes buf (findSlice buf blankLine) = some header ∧
      bodyBytes buf (findSlice buf blankLine) = some body := by
  cases found : findSlice buf blankLine with
  | none => exact ⟨buf, buf, rfl, rfl⟩
  | some i =>
      have bound := findSlice_fits found
      exact ⟨_, _, listTo_some (le_of_add_le_left bound), listFrom_some bound⟩

/-- Whatever a service answers, no slice fails, and a title that is found can be shown. -/
theorem parse_response_survives (buf : List UInt8) :
    ∃ response, parseResponse buf = some response ∧
      ∀ found ∈ response, ∀ title ∈ found.title, PageName title := by
  obtain ⟨header, body, front, back⟩ := head_and_body buf
  obtain ⟨title, named, proper⟩ := extractName_named body
  simp only [parseResponse, front, Option.bind_eq_bind, Option.bind_some]
  cases parseHead (lossy header) with
  | none => exact ⟨none, rfl, nofun⟩
  | some fields =>
      simp only [back, named, Option.bind_some]
      exact ⟨_, rfl, by simpa using proper⟩

end RaemoteServer.Discovery
