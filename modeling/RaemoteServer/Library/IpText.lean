import RaemoteServer.Library.Numbers
import RaemoteServer.Library.SocketAddr

/-! Reading IP addresses, as `IpAddr::from_str` does. Every address is read back from the text that
it is printed as. -/

namespace Net

open Text

/-- At most three digits, without a leading zero. -/
def parseOctet (s : Str) : Option UInt8 :=
  if s.length ≤ 3 ∧ (s.head? = some '0' → s.length = 1) then
    ((parseDigits s).filter (· < UInt8.size)).map UInt8.ofNat
  else none

def Ipv4Addr.parse (s : Str) : Option Ipv4Addr :=
  match (s.splitOn '.').mapM parseOctet with
  | some [a, b, c, d] => some ⟨a, b, c, d⟩
  | _ => none

/-- One to four digits, of either case. -/
def parseGroup (s : Str) : Option UInt16 :=
  if s ≠ [] ∧ s.length ≤ 4 then (parseHexDigits 0 s).map UInt16.ofNat else none

/-- An IPv4 address stands for the two groups that it takes up. -/
def Ipv4Addr.groups (ip : Ipv4Addr) : List UInt16 := segmentsOf [ip.a, ip.b, ip.c, ip.d]

/-- The last piece may be an IPv4 address. -/
def parseGroups : List Str → Option (List UInt16)
  | [] => some []
  | [last] =>
      match parseGroup last with
      | some group => some [group]
      | none => (Ipv4Addr.parse last).map Ipv4Addr.groups
  | piece :: rest => do
      let group ← parseGroup piece
      let groups ← parseGroups rest
      return group :: groups

/-- The parts before and after the first `::`. -/
def splitDouble : Str → Option (Str × Str)
  | [] => none
  | ':' :: ':' :: rest => some ([], rest)
  | c :: rest => (splitDouble rest).map (fun parts => (c :: parts.1, parts.2))

def pieces (s : Str) : List Str := if s = [] then [] else s.splitOn ':'

def segmentBytes (segment : UInt16) : List UInt8 :=
  [UInt8.ofNat (segment.toNat / 256), UInt8.ofNat (segment.toNat % 256)]

def Ipv6Addr.ofSegments (segments : List UInt16) : Option Ipv6Addr :=
  if sixteen : (segments.flatMap segmentBytes).length = 16 then
    some ⟨segments.flatMap segmentBytes, sixteen⟩
  else none

/-- `::` stands for at least one group. -/
def Ipv6Addr.parse (s : Str) : Option Ipv6Addr :=
  match splitDouble s with
  | none => (parseGroups (s.splitOn ':')).bind Ipv6Addr.ofSegments
  | some (front, back) => do
      let head ← (pieces front).mapM parseGroup
      let tail ← parseGroups (pieces back)
      if head.length + tail.length ≤ 7 then
        Ipv6Addr.ofSegments (head ++ List.replicate (8 - head.length - tail.length) 0 ++ tail)
      else none

/-- Only IPv6 addresses have a colon, and all of them do. -/
def IpAddr.parse (s : Str) : Option IpAddr :=
  if ':' ∈ s then (Ipv6Addr.parse s).map .v6 else (Ipv4Addr.parse s).map .v4

example : IpAddr.parse "0:0:0:0:0:0:0:1".toList = some (.v6 .localhost) := by decide
example : IpAddr.parse "::FFFF:127.0.0.1".toList = IpAddr.parse "::ffff:7f00:1".toList := by decide
example : IpAddr.parse "127.0.0.01".toList = none := by decide

/-! Numbers. -/

theorem toDigits_induction {p : Nat → Prop} (small : ∀ n < 16, p n)
    (step : ∀ n, 16 ≤ n → p (n / 16) → p n) (n : Nat) : p n := by
  induction n using Nat.strong_induction_on with
  | _ n ih =>
      by_cases below : n < 16
      · exact small n below
      · exact step n (by omega) (ih (n / 16) (by omega))

theorem mem_toDigits {c : Char} {n : Nat} (member : c ∈ Nat.toDigits 16 n) :
    ∃ digit < 16, c = Nat.digitChar digit := by
  induction n using toDigits_induction with
  | small n below =>
      rw [Nat.toDigits_of_lt_base below, List.mem_singleton] at member
      exact ⟨n, below, member⟩
  | step n above ih =>
      rw [Nat.toDigits_of_base_le (by omega) above] at member
      rcases List.mem_append.mp member with early | last
      · exact ih early
      · exact ⟨n % 16, by omega, List.mem_singleton.mp last⟩

theorem hexDigit_digitChar : ∀ digit < 16, hexDigit (Nat.digitChar digit) = some digit := by
  decide

theorem parseHexDigits_toDigits (n : Nat) : parseHexDigits 0 (Nat.toDigits 16 n) = some n := by
  induction n using toDigits_induction with
  | small n below =>
      simp [Nat.toDigits_of_lt_base below, parseHexDigits, hexDigit_digitChar n below]
  | step n above ih =>
      have last := hexDigit_digitChar (n % 16) (by omega)
      have whole : n / 16 * 16 + n % 16 = n := by omega
      rw [Nat.toDigits_of_base_le (by omega) above, parseHexDigits_append, ih]
      simp [parseHexDigits, last, whole]

theorem parseGroup_toDigits (group : UInt16) :
    parseGroup (Nat.toDigits 16 group.toNat) = some group := by
  have short : (Nat.toDigits 16 group.toNat).length ≤ 4 :=
    (Nat.length_toDigits_le_iff (by omega) (by omega)).mpr group.toNat_lt
  rw [parseGroup, if_pos ⟨Nat.toDigits_ne_nil, short⟩, parseHexDigits_toDigits]
  simp

theorem parseOctet_decimal (octet : UInt8) : parseOctet (decimal octet.toNat) = some octet := by
  have all : ∀ n < 256, parseOctet (decimal n) = some (UInt8.ofNat n) := by decide +kernel
  rw [all octet.toNat octet.toNat_lt, UInt8.ofNat_toNat]

/-! IPv4 addresses. -/

/-- A character of a printed address. -/
def addressChar (c : Char) : Bool := (hexDigit c).isSome || c == ':' || c == '.'

theorem decimal_plain {n : Nat} : '.' ∉ decimal n ∧ ':' ∉ decimal n := by
  constructor <;> exact fun member => absurd (isDigit_of_mem_decimal member) (by decide)

theorem Ipv4Addr.text_eq (ip : Ipv4Addr) : ip.text =
    join ['.'] [decimal ip.a.toNat, decimal ip.b.toNat, decimal ip.c.toNat,
        decimal ip.d.toNat] := by
  simp [Ipv4Addr.text, join, List.intercalate]

theorem Ipv4Addr.parse_text (ip : Ipv4Addr) : Ipv4Addr.parse ip.text = some ip := by
  have split : ip.text.splitOn '.' = [decimal ip.a.toNat, decimal ip.b.toNat, decimal ip.c.toNat,
      decimal ip.d.toNat] := by
    rw [Ipv4Addr.text_eq, join, List.splitOn_intercalate _ (by simp [decimal_plain]) (by simp)]
  simp [Ipv4Addr.parse, split, parseOctet_decimal]

theorem Ipv4Addr.colon_free (ip : Ipv4Addr) : ':' ∉ ip.text :=
  fun member => absurd (Ipv4Addr.mem_text member) (by decide)

/-- It is longer than a group. -/
theorem Ipv4Addr.not_group (ip : Ipv4Addr) : parseGroup ip.text = none := by
  have present (n : Nat) : 0 < (decimal n).length := Nat.length_toDigits_pos
  have long : ¬ ip.text.length ≤ 4 := by
    have first := present ip.a.toNat
    have second := present ip.b.toNat
    have third := present ip.c.toNat
    have fourth := present ip.d.toNat
    simp only [Ipv4Addr.text, List.length_append, List.length_cons]
    omega
  rw [parseGroup, if_neg (fun short => long short.2)]

/-! Groups between colons. -/

def groupText (group : UInt16) : Str := Nat.toDigits 16 group.toNat

theorem segmentsText_eq (segments : List UInt16) :
    segmentsText segments = join [':'] (segments.map groupText) := rfl

theorem mem_groupText {group : UInt16} {c : Char} (member : c ∈ groupText group) :
    (hexDigit c).isSome = true := by
  obtain ⟨digit, small, rfl⟩ := mem_toDigits member
  rw [hexDigit_digitChar digit small, Option.isSome_some]

theorem groupText_plain (group : UInt16) : ':' ∉ groupText group :=
  fun member => absurd (mem_groupText member) (by decide)

theorem pieces_segmentsText (segments : List UInt16) :
    pieces (segmentsText segments) = segments.map groupText := by
  have plain : ∀ piece ∈ segments.map groupText, ':' ∉ piece := by
    intro piece member
    obtain ⟨group, -, rfl⟩ := List.mem_map.mp member
    exact groupText_plain group
  cases segments with
  | nil => rfl
  | cons first rest =>
      have split := List.splitOn_intercalate ':' plain (by simp)
      have present : segmentsText (first :: rest) ≠ [] := by
        intro nothing
        rw [segmentsText_eq, join] at nothing
        rw [nothing] at split
        simp [groupText] at split
      rw [pieces, if_neg present]
      exact split

theorem mapM_groupText (segments : List UInt16) :
    (segments.map groupText).mapM parseGroup = some segments := by
  induction segments with
  | nil => rfl
  | cons group rest ih => simp [groupText, parseGroup_toDigits, ih]

theorem parseGroups_groupText (segments : List UInt16) :
    parseGroups (segments.map groupText) = some segments := by
  induction segments with
  | nil => rfl
  | cons group rest ih =>
      cases rest with
      | nil => simp [parseGroups, groupText, parseGroup_toDigits]
      | cons next others =>
          rw [List.map_cons] at ih ⊢
          rw [List.map_cons, parseGroups, ih]
          · simp [groupText, parseGroup_toDigits]
          · simp

/-! The first `::`. -/

theorem splitDouble_cons {c : Char} {rest : Str} (single : c = ':' → rest.head? ≠ some ':') :
    splitDouble (c :: rest) = (splitDouble rest).map (fun parts => (c :: parts.1, parts.2)) := by
  rw [splitDouble]
  rintro more rfl rfl
  exact single rfl rfl

theorem splitDouble_plain {front : Str} (plain : ':' ∉ front) (s : Str) :
    splitDouble (front ++ s) = (splitDouble s).map (fun parts => (front ++ parts.1, parts.2)) := by
  induction front with
  | nil => simp
  | cons c rest ih =>
      have tail := ih (fun member => plain (List.mem_cons_of_mem _ member))
      have first : c ≠ ':' := fun same => plain (same ▸ List.mem_cons_self)
      rw [List.cons_append, splitDouble_cons (fun same => absurd same first), tail, Option.map_map]
      rfl

theorem segmentsText_cons (group next : UInt16) (more : List UInt16) :
    segmentsText (group :: next :: more) = groupText group ++ ':' :: segmentsText
        (next :: more) := by
  simp [segmentsText_eq, join]

theorem head_segmentsText (group : UInt16) (more : List UInt16) (s : Str) :
    (segmentsText (group :: more) ++ s).head? ≠ some ':' := by
  have front : ∃ back, segmentsText (group :: more) = groupText group ++ back := by
    cases more with
    | nil => exact ⟨[], by simp [segmentsText_eq, join]⟩
    | cons next others => exact ⟨_, segmentsText_cons group next others⟩
  obtain ⟨back, shape⟩ := front
  obtain ⟨c, rest, text⟩ := List.exists_cons_of_ne_nil
    (show groupText group ≠ [] from Nat.toDigits_ne_nil)
  have first : c ≠ ':' := by
    rintro rfl
    exact groupText_plain group (text ▸ List.mem_cons_self)
  rw [shape, text]
  simpa using first

/-- Printed groups have no `::`. -/
theorem splitDouble_segmentsText (segments : List UInt16) (s : Str) :
    splitDouble (segmentsText segments ++ s) =
      (splitDouble s).map (fun parts => (segmentsText segments ++ parts.1, parts.2)) := by
  induction segments with
  | nil => simp [segmentsText_eq, join]
  | cons group rest ih =>
      cases rest with
      | nil =>
          have text : segmentsText [group] = groupText group := by simp [segmentsText_eq, join]
          rw [text]
          exact splitDouble_plain (groupText_plain group) s
      | cons next more =>
          have single := head_segmentsText next more s
          rw [segmentsText_cons, List.append_assoc, splitDouble_plain (groupText_plain group),
            List.cons_append, splitDouble_cons (fun _ => single), ih, Option.map_map,
            Option.map_map]
          congr 1
          funext parts
          simp

/-! The run of zeros that is left out. -/

/-- The groups of the span are zero. -/
def Zeros (segments : List UInt16) (span : Span) : Prop :=
  ∀ i < span.len, segments[span.start + i]? = some 0

theorem longestZeros_zeros {segments before after : List UInt16} {current longest : Span}
    (shape : segments = before ++ after) (running : Zeros segments current)
    (ends : current.len ≠ 0 → current.start + current.len = before.length)
    (found : Zeros segments longest) :
    Zeros segments (longestZeros before.length current longest after) := by
  have either {p : Prop} [Decidable p] {a b : Span} (first : Zeros segments a)
      (second : Zeros segments b) : Zeros segments (if p then a else b) := by
    split
    · exact first
    · exact second
  induction after generalizing before current longest with
  | nil => exact found
  | cons segment rest ih =>
      have next : segments = (before ++ [segment]) ++ rest := by simp [shape]
      have here : segments[before.length]? = some segment := by simp [shape]
      have count : (before ++ [segment]).length = before.length + 1 := by simp
      rw [longestZeros]
      split
      · rename_i zero
        have extended : Zeros segments
            ⟨if current.len = 0 then before.length else current.start, current.len + 1⟩ := by
          intro i small
          dsimp only at small ⊢
          split
          · rename_i first
            obtain rfl : i = 0 := by omega
            rw [Nat.add_zero, here, zero]
          · rename_i longer
            rcases Nat.lt_succ_iff_lt_or_eq.mp small with order | rfl
            · exact running i order
            · rw [ends longer, here, zero]
        rw [← count]
        apply ih next extended
        · intro _
          dsimp only
          split <;> omega
        · exact either extended found
      · rw [← count]
        exact ih next (fun i small => absurd small (Nat.not_lt_zero i)) (fun longer =>
          absurd rfl longer) found

theorem zeros_replace {segments : List UInt16} {span : Span} (zeros : Zeros segments span)
    (present : span.len ≠ 0) :
    span.start + span.len ≤ segments.length ∧
      segments.take span.start ++ List.replicate span.len 0 ++
        segments.drop (span.start + span.len) = segments := by
  have last := zeros (span.len - 1) (by omega)
  have inside := (List.getElem?_eq_some_iff.mp last).1
  have bound : span.start + span.len ≤ segments.length := by omega
  have middle : (segments.drop span.start).take span.len = List.replicate span.len 0 := by
    apply List.ext_getElem?
    intro i
    by_cases small : i < span.len
    · rw [List.getElem?_take_of_lt small, List.getElem?_drop, zeros i small,
        List.getElem?_replicate_of_lt small]
    · rw [List.getElem?_eq_none (by simp; omega), List.getElem?_eq_none (by simp; omega)]
  refine ⟨bound, ?_⟩
  rw [← middle, List.append_assoc, ← List.drop_drop, List.take_append_drop,
    List.take_append_drop]

/-! IPv6 addresses. -/

theorem segmentBytes_ofNat (high low : UInt8) :
    segmentBytes (UInt16.ofNat (high.toNat * 256 + low.toNat)) = [high, low] := by
  have first := high.toNat_lt
  have second := low.toNat_lt
  have whole : (UInt16.ofNat (high.toNat * 256 + low.toNat)).toNat =
      high.toNat * 256 + low.toNat :=
    UInt16.toNat_ofNat_of_lt' (show _ < 65536 by omega)
  have upper : (high.toNat * 256 + low.toNat) / 256 = high.toNat := by omega
  have lower : (high.toNat * 256 + low.toNat) % 256 = low.toNat := by omega
  rw [segmentBytes, whole, upper, lower, UInt8.ofNat_toNat, UInt8.ofNat_toNat]

theorem flatMap_segmentsOf (pairs : Nat) {octets : List UInt8} (even : octets.length = 2 * pairs) :
    (segmentsOf octets).flatMap segmentBytes = octets ∧ (segmentsOf octets).length = pairs := by
  induction pairs generalizing octets with
  | zero =>
      obtain rfl := List.length_eq_zero_iff.mp even
      exact ⟨rfl, rfl⟩
  | succ pairs ih =>
      match octets, even with
      | high :: low :: rest, even =>
          have shorter : rest.length = 2 * pairs := by
            simp only [List.length_cons] at even
            omega
          obtain ⟨back, count⟩ := ih shorter
          rw [segmentsOf, List.flatMap_cons, segmentBytes_ofNat, back, List.length_cons, count]
          exact ⟨rfl, rfl⟩

theorem Ipv6Addr.ofSegments_octets (ip : Ipv6Addr) :
    Ipv6Addr.ofSegments (segmentsOf ip.octets) = some ip := by
  obtain ⟨back, -⟩ := flatMap_segmentsOf 8 ip.sixteen
  unfold Ipv6Addr.ofSegments
  rw [dif_pos (by rw [back]; exact ip.sixteen)]
  simp [back]

/-- The text of an address that is not mapped from IPv4. -/
theorem Ipv6Addr.text_cases (ip : Ipv6Addr) :
    (∃ mapped : Ipv4Addr, ip.text = "::ffff:".toList ++ mapped.text ∧
        segmentsOf ip.octets = [0, 0, 0, 0, 0, 0xffff] ++ mapped.groups) ∨
      (∃ span, Zeros (segmentsOf ip.octets) span ∧ 1 < span.len ∧
        ip.text = segmentsText ((segmentsOf ip.octets).take span.start) ++ "::".toList ++
          segmentsText ((segmentsOf ip.octets).drop (span.start + span.len))) ∨
      ip.text = segmentsText (segmentsOf ip.octets) := by
  unfold Ipv6Addr.text
  split
  · rename_i a b c d octets
    exact Or.inl ⟨⟨a, b, c, d⟩, rfl, by rw [octets]; rfl⟩
  · apply Or.inr
    dsimp only
    split
    · rename_i longer
      refine Or.inl ⟨_, ?_, longer, rfl⟩
      have shape : segmentsOf ip.octets = [] ++ segmentsOf ip.octets := rfl
      apply longestZeros_zeros shape
      all_goals simp [Zeros]
    · exact Or.inr rfl

theorem Ipv6Addr.length_segments (ip : Ipv6Addr) : (segmentsOf ip.octets).length = 8 :=
  (flatMap_segmentsOf 8 ip.sixteen).2

theorem Ipv6Addr.parse_text (ip : Ipv6Addr) : Ipv6Addr.parse ip.text = some ip := by
  have whole := ip.ofSegments_octets
  have count := ip.length_segments
  rcases ip.text_cases with ⟨mapped, text, segments⟩ | ⟨span, zeros, longer, text⟩ | text
  · have double : splitDouble ("::ffff:".toList ++ mapped.text) =
        some ([], "ffff:".toList ++ mapped.text) := rfl
    have split : pieces ("ffff:".toList ++ mapped.text) = ["ffff".toList, mapped.text] := by
      have first : ':' ∉ "ffff".toList := by decide
      have shape : "ffff:".toList ++ mapped.text = "ffff".toList ++ ':' :: mapped.text := rfl
      rw [pieces, if_neg (by simp), shape, List.splitOn_append_cons_self_of_not_mem first,
        List.splitOn_eq_singleton mapped.colon_free]
    have groups : parseGroups ["ffff".toList, mapped.text] = some (0xffff :: mapped.groups) := by
      have front : parseGroup "ffff".toList = some 0xffff := by decide
      simp only [parseGroups, front, mapped.not_group, mapped.parse_text, Option.map_some]
      rfl
    have back : (parseGroups (pieces ("ffff:".toList ++ mapped.text))) =
        some (0xffff :: mapped.groups) := by rw [split, groups]
    rw [segments] at whole
    rw [text, Ipv6Addr.parse, double]
    simp only [back]
    exact whole
  · obtain ⟨bound, replaced⟩ := zeros_replace zeros (by omega)
    have double : splitDouble ip.text =
        some (segmentsText ((segmentsOf ip.octets).take span.start),
          segmentsText ((segmentsOf ip.octets).drop (span.start + span.len))) := by
      rw [text, List.append_assoc, splitDouble_segmentsText]
      simp [splitDouble]
    have front : ((segmentsOf ip.octets).take span.start).length = span.start := by
      rw [List.length_take]
      omega
    have back : ((segmentsOf ip.octets).drop (span.start + span.len)).length =
        8 - (span.start + span.len) := by
      rw [List.length_drop, count]
    have missing : 8 - span.start - (8 - (span.start + span.len)) = span.len := by omega
    have few : span.start + (8 - (span.start + span.len)) ≤ 7 := by omega
    simp only [Ipv6Addr.parse, double, pieces_segmentsText, mapM_groupText, parseGroups_groupText,
      bind, Option.bind, front, back, missing, few, if_true, replaced]
    exact whole
  · have double : splitDouble ip.text = none := by
      have alone := splitDouble_segmentsText (segmentsOf ip.octets) []
      rw [List.append_nil] at alone
      rw [text, alone]
      rfl
    have split := pieces_segmentsText (segmentsOf ip.octets)
    rw [← text] at split
    have present : ip.text ≠ [] := by
      intro nothing
      rw [nothing] at split
      have lengths := congrArg List.length split
      rw [List.length_map, count] at lengths
      cases lengths
    rw [pieces, if_neg present] at split
    rw [Ipv6Addr.parse, double]
    simp only [split, parseGroups_groupText, Option.bind_some, whole]

theorem Ipv6Addr.colon_mem (ip : Ipv6Addr) : ':' ∈ ip.text := by
  rcases ip.text_cases with ⟨mapped, text, -⟩ | ⟨span, -, -, text⟩ | text
  · simp [text]
  · simp [text]
  · have count := ip.length_segments
    match segmentsOf ip.octets, text, count with
    | first :: second :: rest, text, _ => simp [text, segmentsText_cons]

/-! Addresses of either kind. -/

theorem IpAddr.parse_text (ip : IpAddr) : IpAddr.parse ip.text = some ip := by
  cases ip with
  | v4 ip =>
      rw [IpAddr.text, IpAddr.parse, if_neg ip.colon_free, ip.parse_text]
      rfl
  | v6 ip =>
      rw [IpAddr.text, IpAddr.parse, if_pos ip.colon_mem, ip.parse_text]
      rfl

theorem IpAddr.text_injective : Function.Injective IpAddr.text := by
  intro left right same
  have read := congrArg IpAddr.parse same
  simpa only [IpAddr.parse_text, Option.some.injEq] using read

theorem mem_segmentsText {segments : List UInt16} {c : Char} (member : c ∈ segmentsText segments) :
    c = ':' ∨ (hexDigit c).isSome = true := by
  rcases mem_join member with same | ⟨part, inside, here⟩
  · exact Or.inl same
  · obtain ⟨group, -, rfl⟩ := List.mem_map.mp inside
    exact Or.inr (mem_groupText here)

theorem IpAddr.mem_text {ip : IpAddr} {c : Char} (member : c ∈ ip.text) : addressChar c = true := by
  have group {segments : List UInt16} (inside : c ∈ segmentsText segments) :
      addressChar c = true := by
    rcases mem_segmentsText inside with rfl | digit
    · decide
    · simp [addressChar, digit]
  have four {ip : Ipv4Addr} (inside : c ∈ ip.text) : addressChar c = true := by
    rcases Ipv4Addr.mem_text inside with digit | rfl
    · simp [addressChar, hexDigit, digit]
    · decide
  cases ip with
  | v4 ip => exact four member
  | v6 ip =>
      have text : c ∈ ip.text := member
      rcases ip.text_cases with ⟨mapped, shape, -⟩ | ⟨span, -, -, shape⟩ | shape
      · rcases List.mem_append.mp (shape ▸ text) with front | back
        · have fixed : ∀ c ∈ "::ffff:".toList, addressChar c = true := by
            simp [addressChar, hexDigit]
          exact fixed c front
        · exact four back
      · rcases List.mem_append.mp (shape ▸ text) with early | back
        · rcases List.mem_append.mp early with front | colons
          · exact group front
          · have fixed : ∀ c ∈ "::".toList, addressChar c = true := by simp [addressChar]
            exact fixed c colons
        · exact group back
      · exact group (shape ▸ text)

theorem addressChar_range {c : Char} (address : addressChar c = true) :
    46 ≤ c.toNat ∧ c.toNat ≤ 58 ∨ 65 ≤ c.toNat ∧ c.toNat ≤ 70 ∨ 97 ≤ c.toNat ∧ c.toNat ≤ 102 := by
  simp only [addressChar, Bool.or_eq_true, beq_iff_eq] at address
  rcases address with (digit | rfl) | rfl
  · unfold hexDigit at digit
    split at digit
    · rename_i decimal
      simp only [Char.isDigit, Bool.and_eq_true, decide_eq_true_eq, UInt32.le_iff_toNat_le]
        at decimal
      have low : 48 ≤ c.toNat := decimal.1
      have high : c.toNat ≤ 57 := decimal.2
      omega
    · split at digit
      · rename_i lower
        exact Or.inr (Or.inr lower)
      · split at digit
        · rename_i upper
          exact Or.inr (Or.inl upper)
        · cases digit
  · decide
  · decide

/-- An address is neither trimmed nor taken for brackets. -/
theorem addressChar_plain {c : Char} (address : addressChar c = true) :
    isWhitespace c = false ∧ c ≠ '[' ∧ c ≠ ']' := by
  have range := addressChar_range address
  refine ⟨?_, ?_, ?_⟩
  · simp only [isWhitespace, Bool.or_eq_false_iff, Bool.and_eq_false_iff, decide_eq_false_iff_not,
      beq_eq_false_iff_ne]
    omega
  · rintro rfl
    revert range
    decide
  · rintro rfl
    revert range
    decide

theorem IpAddr.text_ne_nil (ip : IpAddr) : ip.text ≠ [] := by
  intro nothing
  have read := ip.parse_text
  rw [nothing] at read
  cases read

end Net
