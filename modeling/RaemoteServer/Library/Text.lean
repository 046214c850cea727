import Mathlib
import RaemoteServer.Library.Search

/-! Rust strings as lists of Unicode scalar values, with the `char` and `str` functions of the
standard library that are needed here. -/

namespace Text

abbrev Str := List Char

/-- `char::is_whitespace`: the White_Space property. -/
def isWhitespace (c : Char) : Bool :=
  let n := c.toNat
  (9 ≤ n && n ≤ 13) || n == 0x20 || n == 0x85 || n == 0xA0 || n == 0x1680 ||
    (0x2000 ≤ n && n ≤ 0x200A) || n == 0x2028 || n == 0x2029 || n == 0x202F || n == 0x205F ||
    n == 0x3000

/-- `char::is_control`: the general category Cc. -/
def isControl (c : Char) : Bool :=
  let n := c.toNat
  n ≤ 0x1F || (0x7F ≤ n && n ≤ 0x9F)

/-- `str::trim`. -/
def trim (s : Str) : Str :=
  ((s.dropWhile isWhitespace).reverse.dropWhile isWhitespace).reverse

theorem dropWhile_none (s : Str) (plain : ∀ c ∈ s, isWhitespace c = false) :
    s.dropWhile isWhitespace = s := by
  cases s with
  | nil => rfl
  | cons head tail => simp [plain head List.mem_cons_self]

theorem trim_plain (s : Str) (plain : ∀ c ∈ s, isWhitespace c = false) : trim s = s := by
  have backward : ∀ c ∈ s.reverse, isWhitespace c = false := by
    intro c member
    exact plain c (List.mem_reverse.mp member)
  rw [trim, dropWhile_none s plain, dropWhile_none _ backward, List.reverse_reverse]

/-- White space at the end does not count. -/
theorem trim_append_white (s : Str) {white : Str} (all : ∀ c ∈ white, isWhitespace c = true) :
    trim (s ++ white) = trim s := by
  have none : white.dropWhile isWhitespace = [] := List.dropWhile_eq_nil_iff.mpr all
  have backward : ∀ c ∈ white.reverse, isWhitespace c = true := by
    intro c member
    exact all c (List.mem_reverse.mp member)
  rw [trim, trim, List.dropWhile_append, none]
  split
  · rename_i blank
    rw [List.isEmpty_iff.mp blank]
  · rw [List.reverse_append, List.dropWhile_append_of_pos backward]

theorem trim_white_append {white : Str} (all : ∀ c ∈ white, isWhitespace c = true) (s : Str) :
    trim (white ++ s) = trim s := by
  rw [trim, trim, List.dropWhile_append_of_pos all]

/-- Every character that is not white space is kept. -/
theorem countP_trim (s : Str) : (trim s).countP (!isWhitespace ·) = s.countP (!isWhitespace ·) := by
  have dropped (s : Str) :
      (s.dropWhile isWhitespace).countP (!isWhitespace ·) = s.countP (!isWhitespace ·) := by
    induction s with
    | nil => rfl
    | cons head tail ih =>
        rw [List.dropWhile_cons]
        split
        · rename_i white
          rw [ih, List.countP_cons_of_neg (by simp [white])]
        · rfl
  rw [trim, List.countP_reverse, dropped, List.countP_reverse, dropped]

/-- Trimming is blind to a prefix exactly when that is white space. -/
theorem trim_append_eq_iff (front s : Str) :
    trim s = trim (front ++ s) ↔ ∀ c ∈ front, isWhitespace c = true := by
  constructor
  · intro same
    have counts := congrArg (·.countP (!isWhitespace ·)) same
    simp only [countP_trim, List.countP_append] at counts
    have none : front.countP (!isWhitespace ·) = 0 := by omega
    intro c member
    simpa using List.countP_eq_zero.mp none c member
  · intro all
    exact (trim_white_append all s).symm

/-- The bytes of a string. -/
def utf8 (s : Str) : List UInt8 := s.flatMap String.utf8EncodeChar

theorem utf8_append (s t : Str) : utf8 (s ++ t) = utf8 s ++ utf8 t := List.flatMap_append

theorem utf8_injective : Function.Injective utf8 := by
  intro left right same
  have bytes : left.utf8Encode = right.utf8Encode := by
    simpa [List.utf8Encode, utf8] using congrArg List.toByteArray same
  have strings : String.ofList left = String.ofList right := by
    simp only [String.ofList, bytes]
  simpa using congrArg String.toList strings

/-- `u16`, `u32` or `usize` in `format!("{n}")`. -/
def decimal (n : Nat) : Str := Nat.toDigits 10 n

theorem decimal_injective : Function.Injective decimal := by
  intro left right same
  have values := congrArg (fun digits => Nat.ofDigitChars 10 digits 0) same
  simpa only [decimal, Nat.ofDigitChars_ten_toDigits] using values

theorem isDigit_of_mem_decimal {n : Nat} {c : Char} (member : c ∈ decimal n) : c.isDigit = true :=
  Nat.isDigit_of_mem_toDigits (by omega) (by omega) member

theorem isWhitespace_of_isDigit {c : Char} (digit : c.isDigit = true) : isWhitespace c = false := by
  simp only [Char.isDigit, Bool.and_eq_true, decide_eq_true_eq, UInt32.le_iff_toNat_le] at digit
  have low : 48 ≤ c.toNat := digit.1
  have high : c.toNat ≤ 57 := digit.2
  simp only [isWhitespace, Bool.or_eq_false_iff, Bool.and_eq_false_iff, decide_eq_false_iff_not,
    beq_eq_false_iff_ne]
  omega

/-- Two lowercase hexadecimal digits for each byte, as `format!("{b:02x}")`. -/
def toHex (bytes : List UInt8) : Str :=
  bytes.flatMap (fun b => [Nat.digitChar (b.toNat / 16), Nat.digitChar (b.toNat % 16)])

def hexValue (c : Char) : Option Nat :=
  if '0' ≤ c ∧ c ≤ '9' then some (c.toNat - '0'.toNat)
  else if 'a' ≤ c ∧ c ≤ 'f' then some (c.toNat - 'a'.toNat + 10)
  else none

def ofHex : Str → Option (List UInt8)
  | [] => some []
  | [_] => none
  | high :: low :: rest =>
      match hexValue high, hexValue low, ofHex rest with
      | some h, some l, some bytes => some (UInt8.ofNat (h * 16 + l) :: bytes)
      | _, _, _ => none

theorem hexValue_digitChar : ∀ digit < 16, hexValue (Nat.digitChar digit) = some digit := by
  decide

theorem ofHex_toHex (bytes : List UInt8) : ofHex (toHex bytes) = some bytes := by
  induction bytes with
  | nil => rfl
  | cons byte rest ih =>
      have small := byte.toNat_lt
      have high := hexValue_digitChar (byte.toNat / 16) (by omega)
      have low := hexValue_digitChar (byte.toNat % 16) (by omega)
      have joined : byte.toNat / 16 * 16 + byte.toNat % 16 = byte.toNat := by omega
      have tail : ofHex (rest.flatMap fun b =>
          [Nat.digitChar (b.toNat / 16), Nat.digitChar (b.toNat % 16)]) = some rest := ih
      simp only [toHex, List.flatMap_cons, List.cons_append, List.nil_append, ofHex, high, low,
        tail, joined, UInt8.ofNat_toNat]

theorem toHex_injective : Function.Injective toHex := by
  intro left right same
  have decoded := congrArg ofHex same
  simpa only [ofHex_toHex, Option.some.injEq] using decoded

theorem mem_toHex {bytes : List UInt8} {c : Char} (member : c ∈ toHex bytes) :
    ∃ digit < 16, c = Nat.digitChar digit := by
  obtain ⟨byte, -, inside⟩ := List.mem_flatMap.mp member
  have small := byte.toNat_lt
  simp only [List.mem_cons, List.not_mem_nil, or_false] at inside
  rcases inside with rfl | rfl
  · exact ⟨_, by omega, rfl⟩
  · exact ⟨_, by omega, rfl⟩

theorem toHex_digits (bytes : List UInt8) : ∀ c ∈ toHex bytes, (hexValue c).isSome = true := by
  intro c member
  obtain ⟨digit, small, rfl⟩ := mem_toHex member
  rw [hexValue_digitChar digit small, Option.isSome_some]

theorem toHex_plain (bytes : List UInt8) : ∀ c ∈ toHex bytes, isWhitespace c = false := by
  have digits : ∀ digit < 16, isWhitespace (Nat.digitChar digit) = false := by decide
  intro c member
  obtain ⟨digit, small, rfl⟩ := mem_toHex member
  exact digits digit small

/-! Lines. -/

def stripCarriageReturn (line : Str) : Str :=
  if line.getLast? = some '\r' then line.dropLast else line

def linesFrom : List Str → List Str
  | [] => []
  | [last] => if last = [] then [] else [last]
  | line :: rest => stripCarriageReturn line :: linesFrom rest

/-- `str::lines`: the end of the last line is optional. -/
def lines (s : Str) : List Str := linesFrom (s.splitOn '\n')

/-- `[String]::join`. -/
def join (separator : Str) (parts : List Str) : Str := List.intercalate separator parts

theorem mem_join {separator c : Char} {parts : List Str} (member : c ∈ join [separator] parts) :
    c = separator ∨ ∃ part ∈ parts, c ∈ part := by
  induction parts with
  | nil => simp [join] at member
  | cons first rest ih =>
      cases rest with
      | nil =>
          simp only [join, List.intercalate_singleton] at member
          exact Or.inr ⟨first, List.mem_cons_self, member⟩
      | cons next others =>
          rw [join, List.intercalate_cons_cons] at member
          rcases List.mem_append.mp member with early | late
          · rcases List.mem_append.mp early with inside | same
            · exact Or.inr ⟨first, List.mem_cons_self, inside⟩
            · exact Or.inl (List.mem_singleton.mp same)
          · rcases ih late with same | ⟨part, later, inside⟩
            · exact Or.inl same
            · exact Or.inr ⟨part, List.mem_cons_of_mem _ later, inside⟩

theorem stripCarriageReturn_plain (line : Str) (plain : ∀ c ∈ line, isWhitespace c = false) :
    stripCarriageReturn line = line := by
  unfold stripCarriageReturn
  split
  · rename_i last
    have white := plain '\r' (List.mem_of_mem_getLast? last)
    exact absurd white (by decide)
  · rfl

theorem linesFrom_terminated (parts : List Str)
    (plain : ∀ line ∈ parts, ∀ c ∈ line, isWhitespace c = false) :
    linesFrom (parts ++ [[]]) = parts := by
  induction parts with
  | nil => rfl
  | cons line rest ih =>
      have tail := ih (fun next member => plain next (List.mem_cons_of_mem _ member))
      have stripped := stripCarriageReturn_plain line (plain line List.mem_cons_self)
      cases rest with
      | nil => simp [linesFrom, stripped]
      | cons next more =>
          rw [List.cons_append, List.cons_append, linesFrom, stripped, ← List.cons_append, tail]
          intro impossible
          cases impossible

theorem join_terminated (separator : Str) (parts : List Str) (present : parts ≠ []) :
    join separator (parts ++ [[]]) = join separator parts ++ separator := by
  induction parts with
  | nil => exact absurd rfl present
  | cons line rest ih =>
      cases rest with
      | nil => simp [join]
      | cons next more =>
          have tail := ih (by simp)
          simp only [join, List.cons_append, List.intercalate_cons_cons] at tail ⊢
          rw [tail]
          simp only [List.append_assoc]

/-- Lines written with `join` and a final newline are read back one by one. -/
theorem lines_join (parts : List Str) (present : parts ≠ [])
    (plain : ∀ line ∈ parts, ∀ c ∈ line, isWhitespace c = false) :
    lines (join ['\n'] parts ++ ['\n']) = parts := by
  have unbroken : ∀ line ∈ parts ++ [[]], '\n' ∉ line := by
    intro line member inside
    rcases List.mem_append.mp member with old | new
    · exact absurd (plain line old '\n' inside) (by decide)
    · rw [List.mem_singleton.mp new] at inside
      cases inside
  rw [← join_terminated _ _ present, lines, join, List.splitOn_intercalate _ unbroken (by simp),
    linesFrom_terminated parts plain]

theorem linesFrom_append (front : List Str) {back : List Str} (more : back ≠ []) :
    linesFrom (front ++ back) = front.map stripCarriageReturn ++ linesFrom back := by
  induction front with
  | nil => rfl
  | cons line rest ih =>
      rw [List.cons_append, linesFrom, ih, List.map_cons, List.cons_append]
      simp [more]

/-- The lines behind a newline are what they are without what stands before it. -/
theorem lines_append (s t : Str) :
    lines (s ++ '\n' :: t) = (s.splitOn '\n').map stripCarriageReturn ++ lines t := by
  rw [lines, List.splitOn_append_cons_self, linesFrom_append _ (List.splitOn_ne_nil _ _), lines]

/-! Splitting at a separator. -/

theorem plain_of_mem_splitOnP {gap : Char → Bool} {s piece : Str}
    (member : piece ∈ s.splitOnP gap) :
    ∀ c ∈ piece, gap c = false := by
  induction s generalizing piece with
  | nil =>
      rw [List.splitOnP_nil, List.mem_singleton] at member
      rw [member]
      exact List.forall_mem_nil _
  | cons c rest ih =>
      obtain ⟨first, others, shape⟩ := List.exists_cons_of_ne_nil (List.splitOnP_ne_nil gap rest)
      rw [List.splitOnP_cons_eq_if_modifyHead] at member
      split at member
      · rcases List.mem_cons.mp member with rfl | later
        · exact List.forall_mem_nil _
        · exact ih later
      case isFalse plain =>
        rw [shape] at member ih
        rcases List.mem_cons.mp member with rfl | later
        · exact List.forall_mem_cons.mpr ⟨Bool.eq_false_iff.mpr plain, ih List.mem_cons_self⟩
        · exact ih (List.mem_cons_of_mem _ later)

theorem not_mem_of_mem_splitOn {separator : Char} {s piece : Str}
    (member : piece ∈ s.splitOn separator) : separator ∉ piece := by
  rw [List.splitOn_eq_splitOnP] at member
  intro inside
  exact absurd (plain_of_mem_splitOnP member separator inside) (by simp)

/-- `str::strip_prefix`. -/
def stripPrefix (start s : Str) : Option Str := start.isPrefixOf? s

theorem stripPrefix_append (start rest : Str) : stripPrefix start (start ++ rest) = some rest :=
  List.isPrefixOf?_eq_some_iff_append_eq.mpr rfl

/-- `splitn(2, separator)`: the part before the first separator, and the rest if there is one. -/
def splitOnce (separator : Char) (s : Str) : Str × Option Str :=
  match s.dropWhile (· ≠ separator) with
  | [] => (s, none)
  | _ :: rest => (s.takeWhile (· ≠ separator), some rest)

theorem splitOnce_absent (separator : Char) (s : Str) (absent : separator ∉ s) :
    splitOnce separator s = (s, none) := by
  simp only [splitOnce, Search.dropWhile_absent absent]

theorem splitOnce_append (separator : Char) (front rest : Str) (absent : separator ∉ front) :
    splitOnce separator (front ++ separator :: rest) = (front, some rest) := by
  simp only [splitOnce, Search.dropWhile_stop absent, Search.takeWhile_stop absent]

/-- `str::split_whitespace` -/
def splitWhitespace (s : Str) : List Str := (s.splitOnP isWhitespace).filter (· ≠ [])

end Text
