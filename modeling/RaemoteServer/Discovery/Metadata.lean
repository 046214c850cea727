import RaemoteServer.Discovery.Page
import RaemoteServer.Library.Columns

/-! The metadata of a page as its author wrote it, and when the search for tags and attributes by
their texts reads it back. -/

namespace RaemoteServer.Discovery

open Text Http

/-! Elements and their text. -/

inductive Quoting where
  | double
  | single
  | unquoted
  deriving DecidableEq

def Quoting.mark : Quoting → Str
  | .double => ['"']
  | .single => ['\'']
  | .unquoted => []

/-- The values that can be written so. -/
def Quoting.allows : Quoting → Str → Bool
  | .double, value => !value.contains '"'
  | .single, value => !value.contains '\''
  | .unquoted, value =>
      value.all (fun c => !isWhitespace c && c != '"' && c != '\'' && c != '=' && c != '>')

structure Attribute where
  gap : Str
  name : Str
  quoting : Quoting
  value : Str
  apart : gap ≠ []
  blank : gap.all isWhitespace = true
  plain : name.all (fun c => !isWhitespace c && c != '=' && c != '>') = true
  written : quoting.allows value = true

def Attribute.text (a : Attribute) : Str :=
  a.gap ++ (a.name ++ '=' :: (a.quoting.mark ++ (a.value ++ a.quoting.mark)))

/-- A meta element, behind text in which no tag begins. -/
structure MetaElement where
  lead : Str
  untagged : '<' ∉ lead
  attributes : List Attribute

def attributesText (attributes : List Attribute) : Str :=
  attributes.flatMap Attribute.text ++ ['>']

def MetaElement.text (e : MetaElement) : Str :=
  e.lead ++ (metaOpen ++ attributesText e.attributes)

def headText (elements : List MetaElement) : Str :=
  "<head>".toList ++ (elements.flatMap MetaElement.text ++ "</head>".toList)

/-! What the elements say. -/

/-- Of several attributes with one name the first counts. -/
def lookup (name : Str) (attributes : List Attribute) : Option Str :=
  (attributes.find? (fun a => eqIgnoreAsciiCase a.name name)).map Attribute.value

def MetaElement.isFor (key : Str) (e : MetaElement) : Bool :=
  (lookup "name".toList e.attributes).any (eqIgnoreAsciiCase · key) ||
    (lookup "property".toList e.attributes).any (eqIgnoreAsciiCase · key)

def MetaElement.contentFor (key : Str) (e : MetaElement) : Option Str :=
  if e.isFor key then lookup "content".toList e.attributes else none

/-- The content of the first element that is for the key and has one. -/
def metadata (key : Str) (elements : List MetaElement) : Option Str :=
  elements.findSome? (MetaElement.contentFor key)

/-! What can be misread. -/

/-- White space, the name of the attribute, and an equals sign, within a value. -/
def Lookalike (attr value : Str) : Prop :=
  ∃ front space word blanks rest, value = front ++ space :: (word ++ (blanks ++ '=' :: rest)) ∧
    isWhitespace space = true ∧ asciiLower word = attr ∧ ∀ c ∈ blanks, isWhitespace c = true

/-- The attribute can be found where it stands, or seen to be absent: its value is not cut short by
a tag end in it, and if unquoted it is not empty. What stands before it does not look like it, and
has no tag end in it. -/
def Legible (attr : Str) : List Attribute → Prop
  | [] => True
  | a :: rest =>
      if asciiLower a.name = attr then '>' ∉ a.value ∧ (a.quoting = .unquoted → a.value ≠ [])
      else
        ¬ Lookalike attr (a.value.takeWhile (· ≠ '>')) ∧
          (if '>' ∈ a.value then lookup attr rest = none else Legible attr rest)

/-- The attribute is unquoted, and directly before the end of its tag. -/
def EndsBare (attr : Str) : List Attribute → Prop
  | [] => False
  | a :: rest =>
      if asciiLower a.name = attr then a.quoting = .unquoted ∧ rest = [] else EndsBare attr rest

instance decidableEndsBare (attr : Str) : (attributes : List Attribute) →
    Decidable (EndsBare attr attributes)
  | [] => inferInstanceAs (Decidable False)
  | a :: rest =>
      have := decidableEndsBare attr rest
      inferInstanceAs (Decidable (if asciiLower a.name = attr then _ else _))

/-- What stands behind a tag end that is part of a value. -/
def hiddenText : List Attribute → Str
  | [] => []
  | a :: rest =>
      if '>' ∈ a.value then
        (a.value.dropWhile (· ≠ '>')).tail ++ (a.quoting.mark ++ attributesText rest)
      else hiddenText rest

/-- The attribute can be compared with the key: where a tag end is read with its value, it is the
key neither with it nor without. -/
structure Comparable (key attr : Str) (attributes : List Attribute) : Prop where
  legible : Legible attr attributes
  other : EndsBare attr attributes → ∀ value ∈ lookup attr attributes,
    eqIgnoreAsciiCase value key = false ∧ eqIgnoreAsciiCase (value ++ ['>']) key = false

/-- Those attributes can be read that are looked at, and no tag seems to begin in what is passed
over. -/
structure MetaElement.Readable (key : Str) (e : MetaElement) : Prop where
  name : Comparable key "name".toList e.attributes
  property : (lookup "name".toList e.attributes).any (eqIgnoreAsciiCase · key) = false →
    Comparable key "property".toList e.attributes
  content : e.isFor key = true → Legible "content".toList e.attributes
  passed : e.contentFor key = none →
    ∀ j, ¬ metaOpen <+: (asciiLower (hiddenText e.attributes)).drop j

/-- The elements up to the one that is wanted are readable. -/
def Readable (key : Str) : List MetaElement → Prop
  | [] => True
  | e :: rest => e.Readable key ∧ (e.contentFor key = none → Readable key rest)

/-- The content that is wanted is directly before the end of its tag. -/
def BareContent (key : Str) (elements : List MetaElement) : Prop :=
  ∃ e ∈ elements.find? (fun e => (e.contentFor key).isSome), EndsBare "content".toList e.attributes

instance (key : Str) (elements : List MetaElement) : Decidable (BareContent key elements) :=
  inferInstanceAs (Decidable (∃ e ∈ _, _))

/-! Words that are searched for. -/

structure Word (attr : Str) : Prop where
  present : attr ≠ []
  lower : attr.all Char.isLower = true

theorem isAlpha_of_isLower {c : Char} (lower : c.isLower = true) : c.isAlpha = true := by
  rw [Char.isAlpha, lower, Bool.or_true]

theorem lower_of_plain {c : Char} (plain : c.isAlpha = false) : c.toLower = c := by
  apply Char.toLower_eq_of_not_isUpper
  intro upper
  rw [Char.isAlpha, upper] at plain
  cases plain

theorem isAlpha_of_white {c : Char} (white : isWhitespace c = true) : c.isAlpha = false := by
  by_contra alpha
  rw [Bool.not_eq_false] at alpha
  have all : ∀ n < 0x80, (Char.ofNat n).isAlpha = true → isWhitespace (Char.ofNat n) = false := by
    decide +kernel
  have small : c.toNat < 0x80 := by
    rcases Bool.or_eq_true_iff.mp alpha with upper | lower
    · exact ascii_of_isUpper upper
    · have most : c.toNat ≤ 'z'.toNat := of_decide_eq_true (Bool.and_eq_true_iff.mp lower).2
      exact Nat.lt_of_le_of_lt most (by decide)
  have own := all c.toNat small
  rw [Char.ofNat_toNat, white] at own
  exact absurd (own alpha) (by decide)

section

variable {attr : Str} (word : Word attr)

include word

theorem Word.white : ∀ c ∈ attr, isWhitespace c = false := by
  intro c member
  have alpha := isAlpha_of_isLower (List.all_eq_true.mp word.lower c member)
  by_contra white
  rw [isAlpha_of_white (by simpa using white)] at alpha
  cases alpha

theorem Word.lowered : asciiLower attr = attr := by
  have own : ∀ c ∈ attr, c.toLower = id c := fun c member =>
    Char.toLower_eq_of_not_isUpper
      (Char.not_isUpper_of_isLower (List.all_eq_true.mp word.lower c member))
  rw [asciiLower, List.map_congr_left own, List.map_id]

theorem Word.named (name : Str) : eqIgnoreAsciiCase name attr = true ↔ asciiLower name = attr := by
  rw [eqIgnoreAsciiCase, beq_iff_eq]
  exact Eq.congr_right word.lowered

/-- It cannot reach beyond a character that is no letter. -/
theorem Word.within {front back : Str} {stop : Char} (symbol : stop.isAlpha = false)
    (here : attr <+: asciiLower (front ++ stop :: back)) :
    ∃ name rest, front = name ++ rest ∧ asciiLower name = attr := by
  have lower := List.all_eq_true.mp word.lower
  clear word
  induction front generalizing attr with
  | nil =>
      cases attr with
      | nil => exact ⟨[], [], rfl, rfl⟩
      | cons h t =>
          have same : h = stop.toLower := (List.cons_prefix_cons.mp here).1
          have letter := isAlpha_of_isLower (lower h List.mem_cons_self)
          rw [same, lower_of_plain symbol, symbol] at letter
          cases letter
  | cons c front ih =>
      cases attr with
      | nil => exact ⟨[], c :: front, rfl, rfl⟩
      | cons h t =>
          obtain ⟨same, later⟩ : h = c.toLower ∧ t <+: asciiLower (front ++ stop :: back) :=
            List.cons_prefix_cons.mp here
          obtain ⟨name, rest, rfl, lowered⟩ :=
            ih later (fun d member => lower d (List.mem_cons_of_mem _ member))
          exact ⟨c :: name, rest, rfl, by rw [same, ← lowered]; rfl⟩

/-! Where it does not stand. -/

omit word in
theorem trimStart_solid {c : Char} (solid : isWhitespace c = false) (rest : Str) :
    trimStart (c :: rest) = c :: rest := List.dropWhile_cons_of_neg (by simp [solid])

omit word in
theorem stripPrefix_other {c : Char} (other : c ≠ '=') (rest : Str) :
    stripPrefix ['='] (c :: rest) = none := by
  simp [stripPrefix, List.isPrefixOf?, other.symm]

theorem Word.hit_symbol {c : Char} (symbol : c.isAlpha = false) (prev : Option Char) (rest : Str) :
    hit attr prev (c :: rest) = none := by
  apply hit_absent
  intro here
  obtain ⟨name, others, shape, lowered⟩ :=
    word.within symbol (show attr <+: asciiLower ([] ++ c :: rest) from here)
  obtain ⟨rfl, -⟩ := List.append_eq_nil_iff.mp shape.symm
  exact word.present lowered.symm

theorem Word.quiet_symbols {front : Str} (symbols : ∀ c ∈ front, c.isAlpha = false)
    (prev : Option Char) (back : Str) : Quiet attr prev front back := by
  induction front generalizing prev with
  | nil => trivial
  | cons c rest ih =>
      obtain ⟨here, later⟩ := List.forall_mem_cons.mp symbols
      exact ⟨word.hit_symbol here prev _, ih later (some c)⟩

/-- Another name is not taken for it, though it may begin with it. -/
theorem Word.hit_name {name : Str} (plain : ∀ c ∈ name, isWhitespace c = false ∧ c ≠ '=')
    (other : asciiLower name ≠ attr) (prev : Option Char) (back : Str) :
    hit attr prev (name ++ '=' :: back) = none := by
  by_cases here : attr <+: asciiLower (name ++ '=' :: back)
  · obtain ⟨front, rest, rfl, lowered⟩ := word.within (by decide) here
    rw [List.append_assoc, hit_front lowered]
    cases rest with
    | nil =>
        rw [List.append_nil] at other
        exact absurd lowered other
    | cons c more =>
        obtain ⟨solid, unequal⟩ := plain c (by simp)
        rw [valueBehind, List.cons_append, trimStart_solid solid, stripPrefix_other unequal]
        exact ite_self none
  · exact hit_absent here prev

/-- A value that does not look like it is passed over. -/
theorem Word.hit_value {front rest back : Str} {space stop : Char}
    (symbol : stop.isAlpha = false) (solid : isWhitespace stop = false) (unequal : stop ≠ '=')
    (other : ¬ Lookalike attr (front ++ space :: rest)) (white : isWhitespace space = true) :
    hit attr (some space) (rest ++ stop :: back) = none := by
  by_cases here : attr <+: asciiLower (rest ++ stop :: back)
  · obtain ⟨name, after, rfl, lowered⟩ := word.within symbol here
    rw [List.append_assoc, hit_front lowered, if_pos (by simpa using white), valueBehind]
    have split := List.takeWhile_append_dropWhile (p := isWhitespace) (l := after)
    have blanks : ∀ c ∈ after.takeWhile isWhitespace, isWhitespace c = true :=
      fun c member => List.mem_takeWhile_imp member
    have behind : trimStart (after ++ stop :: back) =
        trimStart (after.dropWhile isWhitespace ++ stop :: back) := by
      rw [← split, List.append_assoc, trimStart, List.dropWhile_append_of_pos blanks, split]
      rfl
    rw [behind]
    cases left : after.dropWhile isWhitespace with
    | nil => rw [List.nil_append, trimStart_solid solid, stripPrefix_other unequal, Option.map_none]
    | cons d more =>
        have begins : isWhitespace d = false := by
          have head := List.head?_dropWhile_not isWhitespace after
          rw [left] at head
          simpa using head
        have different : d ≠ '=' := by
          rintro rfl
          rw [left] at split
          exact other ⟨front, space, name, _, more, by rw [split], white, lowered, blanks⟩
        rw [List.cons_append, trimStart_solid begins, stripPrefix_other different, Option.map_none]
  · exact hit_absent here _

/-! Passing over what it is not. -/

theorem Word.pass_symbols {front : Str} (symbols : ∀ c ∈ front, c.isAlpha = false)
    (prev : Option Char) (back : Str) :
    firstHit attr prev (front ++ back) = firstHit attr (front.getLast?.or prev) back :=
  firstHit_quiet back (word.quiet_symbols symbols prev back)

theorem Word.pass_symbol {c : Char} (symbol : c.isAlpha = false) (prev : Option Char) (back : Str) :
    firstHit attr prev (c :: back) = firstHit attr (some c) back :=
  word.pass_symbols (List.forall_mem_singleton.mpr symbol) prev back

theorem Word.pass_name {name : Str} (plain : ∀ c ∈ name, isWhitespace c = false ∧ c ≠ '=')
    (other : asciiLower name ≠ attr) (prev : Option Char) (back : Str) :
    firstHit attr prev (name ++ '=' :: back) = firstHit attr (some '=') back := by
  have quiet : Quiet attr prev name ('=' :: back) := by
    cases name with
    | nil => trivial
    | cons c rest =>
        obtain ⟨here, later⟩ := List.forall_mem_cons.mp plain
        have inside : (some c).any isWhitespace = false := here.1
        exact ⟨word.hit_name plain other prev back,
          quiet_inside inside (fun d member => (later d member).1) _⟩
  rw [firstHit_quiet _ quiet, word.pass_symbol (by decide)]

/-- A value between its quotes, or in front of the tag end that cuts it. -/
theorem Word.pass_quoted {quote stop : Char} {value : Str} (quotes : quote.isAlpha = false)
    (opens : isWhitespace quote = false) (symbol : stop.isAlpha = false)
    (solid : isWhitespace stop = false) (unequal : stop ≠ '=') (other : ¬ Lookalike attr value)
    (prev : Option Char) (back : Str) :
    firstHit attr prev (quote :: (value ++ stop :: back)) = firstHit attr (some stop) back := by
  have quiet (front rest : Str) (before : Option Char) (shape : value = front ++ rest)
      (here : hit attr before (rest ++ stop :: back) = none) :
      Quiet attr before rest (stop :: back) := by
    induction rest generalizing front before with
    | nil => trivial
    | cons c rest ih =>
        refine ⟨here, ih (front ++ [c]) (some c) (by simp [shape]) ?_⟩
        by_cases white : isWhitespace c = true
        · exact word.hit_value symbol solid unequal (by rwa [← shape]) white
        · have inside : (some c).any isWhitespace = false := Bool.eq_false_iff.mpr white
          exact hit_inside inside _
  have inside : (some quote).any isWhitespace = false := opens
  have first : hit attr (some quote) (value ++ stop :: back) = none := hit_inside inside _
  rw [word.pass_symbol quotes, firstHit_quiet _ (quiet [] value (some quote) rfl first),
    word.pass_symbol symbol]

theorem Word.found {name : Str} (same : asciiLower name = attr) {prev : Option Char}
    (behind : prev.any isWhitespace = true) (back : Str) :
    firstHit attr prev (name ++ '=' :: back) = some (plainValue (trimStart back)) := by
  have present : name ≠ [] := by
    rintro rfl
    exact word.present same.symm
  obtain ⟨c, rest, rfl⟩ := List.exists_cons_of_ne_nil present
  have here : hit attr prev (c :: rest ++ '=' :: back) = some (plainValue (trimStart back)) := by
    rw [hit_front same, if_pos behind, valueBehind, trimStart_solid (by decide)]
    rfl
  rw [List.cons_append, firstHit, ← List.cons_append, here, Option.some_or]

end

/-! A tag up to its first end. -/

def shownText : List Attribute → Str
  | [] => []
  | a :: rest =>
      a.gap ++ (a.name ++ '=' :: (a.quoting.mark ++
        (if '>' ∈ a.value then a.value.takeWhile (· ≠ '>')
          else a.value ++ (a.quoting.mark ++ shownText rest))))

theorem attributesText_eq (attributes : List Attribute) :
    attributesText attributes = shownText attributes ++ '>' :: hiddenText attributes := by
  induction attributes with
  | nil => rfl
  | cons a rest ih =>
      have first : attributesText (a :: rest) = a.text ++ attributesText rest := by
        simp [attributesText]
      rw [first, Attribute.text, shownText, hiddenText]
      by_cases cut : '>' ∈ a.value
      · rw [if_pos cut, if_pos cut]
        nth_rewrite 1 [Search.cut_of_mem cut]
        simp
      · rw [if_neg cut, if_neg cut, ih]
        simp

theorem Attribute.named (a : Attribute) :
    ∀ c ∈ a.name, isWhitespace c = false ∧ c ≠ '=' ∧ c ≠ '>' := by
  have plain := a.plain
  simpa [and_assoc] using plain

theorem Attribute.white (a : Attribute) : ∀ c ∈ a.gap, isWhitespace c = true :=
  List.all_eq_true.mp a.blank

theorem shownText_closed (attributes : List Attribute) : '>' ∉ shownText attributes := by
  induction attributes with
  | nil => exact List.not_mem_nil
  | cons a rest ih =>
      have inGap : '>' ∉ a.gap := fun inside => absurd (a.white '>' inside) (by decide)
      have inName : '>' ∉ a.name := fun inside => (a.named '>' inside).2.2 rfl
      have inMark : '>' ∉ a.quoting.mark := by cases a.quoting <;> decide
      have inValue : '>' ∉ (if '>' ∈ a.value then a.value.takeWhile (· ≠ '>')
          else a.value ++ (a.quoting.mark ++ shownText rest)) := by
        split
        · intro inside
          have kept := List.mem_takeWhile_imp inside
          simp at kept
        case isFalse closed => simp [closed, inMark, ih]
      rw [shownText]
      simp only [List.mem_append, List.mem_cons, not_or]
      exact ⟨inGap, inName, by decide, inMark, inValue⟩

/-! Reading an attribute off it. -/

theorem unquoted_solid {value : Str} (written : Quoting.unquoted.allows value = true) :
    ∀ c ∈ value, isWhitespace c = false ∧ c ≠ '"' ∧ c ≠ '\'' ∧ c ≠ '=' ∧ c ≠ '>' := by
  simpa [Quoting.allows, and_assoc] using written

theorem plainValue_quoted {quote : Char} (quotes : quote = '"' ∨ quote = '\'') {value : Str}
    (free : quote ∉ value) (back : Str) :
    plainValue (trimStart (quote :: (value ++ quote :: back))) = value := by
  have solid : isWhitespace quote = false := by rcases quotes with rfl | rfl <;> decide
  rw [trimStart_solid solid, plainValue]
  simp only [List.head?_cons, if_pos quotes, List.tail_cons]
  exact Search.takeWhile_stop free back

theorem plainValue_bare {word back : Str} (present : word ≠ [])
    (solid : ∀ c ∈ word, isWhitespace c = false) (open' : ∀ c ∈ word.head?, ¬ (c = '"' ∨ c = '\''))
    (ended : ∀ c ∈ back.head?, isWhitespace c = true) :
    plainValue (trimStart (word ++ back)) = word := by
  have read := splitWhitespace_word present solid ended
  obtain ⟨c, rest, rfl⟩ := List.exists_cons_of_ne_nil present
  rw [List.cons_append] at read ⊢
  rw [trimStart_solid (solid c List.mem_cons_self), plainValue]
  simp only [List.head?_cons, if_neg (open' c rfl), read, List.headD_cons]

theorem lookup_cons {attr : Str} (a : Attribute) (rest : List Attribute) :
    lookup attr (a :: rest) =
      if eqIgnoreAsciiCase a.name attr = true then some a.value else lookup attr rest := by
  rw [lookup, List.find?_cons]
  split
  case h_1 same => rw [same]; rfl
  case h_2 other => rw [other]; rfl

theorem shownText_head {attributes : List Attribute} (present : attributes ≠ []) (back : Str) :
    ∀ c ∈ (shownText attributes ++ back).head?, isWhitespace c = true := by
  obtain ⟨a, rest, rfl⟩ := List.exists_cons_of_ne_nil present
  intro c head
  rw [shownText, List.append_assoc, List.head?_append_of_ne_nil _ a.apart] at head
  exact a.white c (List.mem_of_mem_head? head)

/-- The value that is read behind the name, with the tag end if that is all that follows. -/
theorem plainValue_text {a : Attribute} {rest : List Attribute}
    (bare : a.quoting = .unquoted → a.value ≠ []) :
    plainValue (trimStart (a.quoting.mark ++ (a.value ++ (a.quoting.mark ++
      (shownText rest ++ ['>']))))) =
        if a.quoting = .unquoted ∧ rest = [] then a.value ++ ['>'] else a.value := by
  have written := a.written
  cases style : a.quoting with
  | double =>
      rw [style] at written
      have free : '"' ∉ a.value := by simpa [Quoting.allows] using written
      exact plainValue_quoted (Or.inl rfl) free _
  | single =>
      rw [style] at written
      have free : '\'' ∉ a.value := by simpa [Quoting.allows] using written
      exact plainValue_quoted (Or.inr rfl) free _
  | unquoted =>
      rw [style] at written
      have present := bare style
      have solid : ∀ c ∈ a.value, isWhitespace c = false :=
        fun c member => (unquoted_solid written c member).1
      have open' : ∀ c ∈ a.value.head?, ¬ (c = '"' ∨ c = '\'') := by
        intro c head
        have own := unquoted_solid written c (List.mem_of_mem_head? head)
        simp [own.2.1, own.2.2.1]
      simp only [Quoting.mark, List.nil_append, true_and]
      by_cases last : rest = []
      · have head : ∀ c ∈ (a.value ++ ['>']).head?, ¬ (c = '"' ∨ c = '\'') := by
          rw [List.head?_append_of_ne_nil _ present]
          exact open'
        have closing : ∀ c ∈ a.value ++ ['>'], isWhitespace c = false :=
          List.forall_mem_append.mpr ⟨solid, by simp; decide⟩
        have read : plainValue (trimStart (a.value ++ ['>'] ++ [])) = a.value ++ ['>'] :=
          plainValue_bare (by simp) closing head (by simp)
        rw [List.append_nil] at read
        rw [if_pos last, last]
        exact read
      · rw [if_neg last]
        exact plainValue_bare present solid open' (shownText_head last _)

/-- A value that does not look like the attribute is passed over with its quotes. -/
theorem Word.pass_value {attr : Str} (word : Word attr) {a : Attribute}
    (other : ¬ Lookalike attr a.value) (back : Str) :
    ∃ prev, firstHit attr (some '=') (a.quoting.mark ++ (a.value ++ (a.quoting.mark ++ back))) =
      firstHit attr prev back := by
  cases style : a.quoting with
  | double =>
      exact ⟨some '"', word.pass_quoted (by decide) (by decide) (by decide) (by decide) (by decide)
        other _ back⟩
  | single =>
      exact ⟨some '\'', word.pass_quoted (by decide) (by decide) (by decide) (by decide) (by decide)
        other _ back⟩
  | unquoted =>
      have written := a.written
      rw [style] at written
      have solid : ∀ c ∈ a.value, isWhitespace c = false :=
        fun c member => (unquoted_solid written c member).1
      exact ⟨_, firstHit_quiet back (quiet_inside (by decide) solid _)⟩

/-- A tag end in a value that does not look like the attribute ends the search. -/
theorem Word.pass_cut {attr : Str} (word : Word attr) {a : Attribute} (cut : '>' ∈ a.value)
    (other : ¬ Lookalike attr (a.value.takeWhile (· ≠ '>'))) :
    firstHit attr (some '=') (a.quoting.mark ++ (a.value.takeWhile (· ≠ '>') ++ ['>'])) = none := by
  cases style : a.quoting with
  | double =>
      exact word.pass_quoted (by decide) (by decide) (by decide) (by decide) (by decide) other _ []
  | single =>
      exact word.pass_quoted (by decide) (by decide) (by decide) (by decide) (by decide) other _ []
  | unquoted =>
      have written := a.written
      rw [style] at written
      exact absurd rfl (unquoted_solid written '>' cut).2.2.2.2

/-- What is read off a tag: the value, or the value and the tag end. -/
def readAs (attr : Str) (attributes : List Attribute) : Option Str :=
  (lookup attr attributes).map (fun value =>
    if EndsBare attr attributes then value ++ ['>'] else value)

theorem Word.reads {attr : Str} (word : Word attr) {attributes : List Attribute}
    (legible : Legible attr attributes) (prev : Option Char) :
    firstHit attr prev (shownText attributes ++ ['>']) = readAs attr attributes := by
  induction attributes generalizing prev with
  | nil =>
      rw [shownText, List.nil_append, word.pass_symbol (by decide)]
      rfl
  | cons a rest ih =>
      have symbols : ∀ c ∈ a.gap, c.isAlpha = false :=
        fun c member => isAlpha_of_white (a.white c member)
      have behind : (a.gap.getLast?.or prev).any isWhitespace = true := by
        rw [List.getLast?_eq_some_getLast a.apart]
        exact a.white _ (List.getLast_mem a.apart)
      have plain : ∀ c ∈ a.name, isWhitespace c = false ∧ c ≠ '=' :=
        fun c member => ⟨(a.named c member).1, (a.named c member).2.1⟩
      rw [shownText, List.append_assoc, word.pass_symbols symbols, readAs, lookup_cons]
      simp only [List.append_assoc, List.cons_append, EndsBare]
      by_cases same : asciiLower a.name = attr
      · rw [Legible, if_pos same] at legible
        obtain ⟨closed, bare⟩ := legible
        rw [if_pos ((word.named _).mpr same), if_neg closed, word.found same behind]
        simp only [List.append_assoc, plainValue_text bare, if_pos same, Option.map_some]
      · rw [Legible, if_neg same] at legible
        obtain ⟨unlike, later⟩ := legible
        rw [if_neg (same ∘ (word.named _).mp), word.pass_name plain same]
        simp only [if_neg same]
        by_cases cut : '>' ∈ a.value
        · rw [if_pos cut] at later ⊢
          rw [word.pass_cut cut unlike, later]
          rfl
        · rw [if_neg cut] at later ⊢
          rw [Search.takeWhile_absent cut] at unlike
          obtain ⟨last, passed⟩ := word.pass_value unlike (shownText rest ++ ['>'])
          simp only [List.append_assoc]
          rw [passed]
          exact ih later last

/-! Elements. -/

theorem Comparable.any_eq {key attr : Str} {attributes : List Attribute}
    (comparable : Comparable key attr attributes) :
    (readAs attr attributes).any (eqIgnoreAsciiCase · key) =
      (lookup attr attributes).any (eqIgnoreAsciiCase · key) := by
  rw [readAs]
  by_cases bare : EndsBare attr attributes
  · have other := comparable.other bare
    cases found : lookup attr attributes with
    | none => rfl
    | some value =>
        obtain ⟨without, behind⟩ := other value found
        simp only [if_pos bare, Option.map_some, Option.any_some, without, behind]
  · simp only [if_neg bare, Option.map_id']

/-- The text of a tag, up to its first end. -/
def MetaElement.tag (e : MetaElement) : Str := metaOpen ++ shownText e.attributes ++ ['>']

theorem tag_reads {attr : Str} (word : Word attr) {e : MetaElement}
    (legible : Legible attr e.attributes) :
    firstHit attr none e.tag = readAs attr e.attributes := by
  have solid : metaOpen.any isWhitespace = false := by decide
  have quiet : Quiet attr none metaOpen (shownText e.attributes ++ ['>']) :=
    quiet_inside rfl (by simpa using solid) _
  rw [MetaElement.tag, List.append_assoc, firstHit_quiet _ quiet, word.reads legible]

theorem word_name : Word "name".toList := ⟨by decide, by decide⟩
theorem word_property : Word "property".toList := ⟨by decide, by decide⟩
theorem word_content : Word "content".toList := ⟨by decide, by decide⟩

theorem matchesKey_tag {key : Str} {e : MetaElement} (readable : e.Readable key) :
    matchesKey e.tag key = e.isFor key := by
  rw [matchesKey, tag_reads word_name readable.name.legible, readable.name.any_eq,
    MetaElement.isFor]
  cases named : (lookup "name".toList e.attributes).any (eqIgnoreAsciiCase · key) with
  | true => rfl
  | false =>
      have comparable := readable.property named
      rw [tag_reads word_property comparable.legible, comparable.any_eq]

theorem contentOf_tag {key : Str} {e : MetaElement} (readable : e.Readable key) :
    contentOf e.tag key = (e.contentFor key).map (fun value =>
      if EndsBare "content".toList e.attributes then value ++ ['>'] else value) := by
  rw [contentOf, matchesKey_tag readable, MetaElement.contentFor]
  cases wanted : e.isFor key with
  | false => rfl
  | true => exact tag_reads word_content (readable.content wanted)

theorem metaScan_lead {key lead : Str} (untagged : '<' ∉ lead) (back : Str) :
    metaScan key 0 (lead ++ back) = metaScan key 0 back := by
  induction lead with
  | nil => rfl
  | cons c rest ih =>
      rw [List.mem_cons, not_or] at untagged
      have lowered : c.toLower = '<' → c = '<' :=
        toLower_induction (P := fun lower c => lower = '<' → c = '<') (fun _ same => same)
          (by decide +kernel) c
      have other : ¬ metaOpen <+: asciiLower (c :: (rest ++ back)) := by
        intro here
        have same : '<' = c.toLower := (List.cons_prefix_cons.mp here).1
        exact untagged.1 (lowered same.symm).symm
      rw [List.cons_append, metaScan, if_neg other, ih untagged.2]

theorem hiddenText_ended (attributes : List Attribute) :
    hiddenText attributes = [] ∨ ∃ front, hiddenText attributes = front ++ ['>'] := by
  induction attributes with
  | nil => exact Or.inl rfl
  | cons a rest ih =>
      rw [hiddenText]
      split
      · refine Or.inr ⟨(a.value.dropWhile (· ≠ '>')).tail ++ (a.quoting.mark ++
          rest.flatMap Attribute.text), ?_⟩
        simp [attributesText]
      · exact ih

theorem metaScan_hidden {key : Str} {attributes : List Attribute}
    (passed : ∀ j, ¬ metaOpen <+: (asciiLower (hiddenText attributes)).drop j) (back : Str) :
    metaScan key 0 (hiddenText attributes ++ back) = metaScan key 0 back := by
  apply metaScan_gap
  intro j below here
  rcases hiddenText_ended attributes with empty | ⟨front, shape⟩
  · rw [empty] at below
    cases below
  · have inside : j ≤ (asciiLower front).length := by
      rw [shape, List.length_append, List.length_singleton] at below
      rw [length_asciiLower]
      omega
    rw [shape] at passed here
    have cut : (asciiLower (front ++ ['>'] ++ back)).drop j =
        (asciiLower front).drop j ++ '>' :: asciiLower back := by
      rw [asciiLower_append, asciiLower_append, List.append_assoc,
        List.drop_append_of_le_length inside]
      rfl
    rw [cut] at here
    apply passed j
    rw [asciiLower_append, List.drop_append_of_le_length inside]
    exact (Search.prefix_before (by decide) here).trans (List.prefix_append _ _)

/-- The content of an element, as it is read, or what is found behind the element. -/
theorem metaScan_element {key : Str} {e : MetaElement} (readable : e.Readable key) (back : Str) :
    metaScan key 0 (e.text ++ back) =
      ((e.contentFor key).map (fun value =>
        if EndsBare "content".toList e.attributes then value ++ ['>'] else value)).or
          (metaScan key 0 back) := by
  have opened : metaOpen <+: asciiLower ((metaOpen ++ shownText e.attributes) ++
      '>' :: (hiddenText e.attributes ++ back)) := by
    have same : asciiLower metaOpen = metaOpen := by decide
    rw [List.append_assoc, asciiLower_append, same]
    exact List.prefix_append _ _
  have closed : '>' ∉ metaOpen ++ shownText e.attributes :=
    List.not_mem_append (by decide) (shownText_closed _)
  have shape : e.text ++ back = e.lead ++ ((metaOpen ++ shownText e.attributes) ++
      '>' :: (hiddenText e.attributes ++ back)) := by
    simp [MetaElement.text, attributesText_eq]
  have read := contentOf_tag readable
  rw [MetaElement.tag] at read
  rw [shape, metaScan_lead e.untagged, metaScan_tag opened closed, read]
  cases wanted : e.contentFor key with
  | some value => rfl
  | none => exact metaScan_hidden (readable.passed wanted) back

theorem metaScan_elements {key : Str} {elements : List MetaElement}
    (readable : Readable key elements)
    {back : Str} (ended : metaScan key 0 back = none) :
    metaScan key 0 (elements.flatMap MetaElement.text ++ back) =
      (metadata key elements).map (fun value =>
        if BareContent key elements then value ++ ['>'] else value) := by
  induction elements with
  | nil => exact ended
  | cons e rest ih =>
      obtain ⟨here, later⟩ := readable
      rw [List.flatMap_cons, List.append_assoc, metaScan_element here, metadata,
        List.findSome?_cons]
      cases wanted : e.contentFor key with
      | some value =>
          have first : BareContent key (e :: rest) ↔ EndsBare "content".toList e.attributes := by
            simp [BareContent, wanted]
          simp only [Option.map_some, Option.some_or, first]
      | none =>
          have others : BareContent key (e :: rest) ↔ BareContent key rest := by
            simp [BareContent, wanted]
          rw [Option.map_none, Option.none_or, ih (later wanted)]
          simp only [others, metadata]

theorem extract_readable {key : Str} {elements : List MetaElement}
    (readable : Readable key elements) :
    extractMetaContent (utf8 (headText elements)) key =
      some ((metadata key elements).map (fun value =>
        if BareContent key elements then value ++ ['>'] else value)) := by
  have ended : metaScan key 0 "</head>".toList = none := by rfl
  have page : headText elements =
      "<head>".toList ++ (elements.flatMap MetaElement.text ++ "</head>".toList) := rfl
  have begun (s : Str) : metaScan key 0 ("<head>".toList ++ s) = metaScan key 0 s := by rfl
  rw [extractMetaContent_eq, lossy_utf8, page, begun, metaScan_elements readable ended]

theorem bareContent_some {key : Str} {elements : List MetaElement}
    (bare : BareContent key elements) :
    ∃ value, metadata key elements = some value := by
  obtain ⟨e, found, -⟩ := bare
  have wanted := List.find?_some found
  obtain ⟨value, said⟩ := Option.isSome_iff_exists.mp wanted
  apply Option.ne_none_iff_exists'.mp
  intro none
  rw [List.findSome?_eq_none_iff.mp none e (List.mem_of_find?_eq_some found)] at said
  cases said

/-- Where the elements are readable, what they say is found unless it stands unquoted before the
end of its tag. -/
theorem metadata_found_iff {key : Str} {elements : List MetaElement}
    (readable : Readable key elements) :
    extractMetaContent (utf8 (headText elements)) key = some (metadata key elements) ↔
      ¬ BareContent key elements := by
  rw [extract_readable readable]
  constructor
  · intro same bare
    obtain ⟨value, said⟩ := bareContent_some bare
    rw [said, Option.map_some, if_pos bare] at same
    have lengths := congrArg List.length (Option.some.inj (Option.some.inj same))
    simp at lengths
  · intro quoted
    simp only [if_neg quoted, Option.map_id']

/-! Pages. -/

theorem unlike_of_solid {attr value : Str} (solid : value.any isWhitespace = false) :
    ¬ Lookalike attr value := by
  intro ⟨front, space, word, blanks, rest, shape, white, _⟩
  subst shape
  simp [white] at solid

theorem unlike_of_unequal {attr value : Str} (unequal : '=' ∉ value) : ¬ Lookalike attr value := by
  intro ⟨front, space, word, blanks, rest, shape, _⟩
  subst shape
  simp at unequal

section

variable {attr : Str} {a : Attribute} {rest : List Attribute}

theorem legible_here (same : asciiLower a.name = attr) (closed : '>' ∉ a.value)
    (present : a.value ≠ []) : Legible attr (a :: rest) := by
  rw [Legible, if_pos same]
  exact ⟨closed, fun _ => present⟩

theorem legible_behind (other : asciiLower a.name ≠ attr) (closed : '>' ∉ a.value)
    (unlike : ¬ Lookalike attr a.value) (later : Legible attr rest) : Legible attr (a :: rest) := by
  rw [Legible, if_neg other, Search.takeWhile_absent closed, if_neg closed]
  exact ⟨unlike, later⟩

theorem legible_cut (other : asciiLower a.name ≠ attr) (cut : '>' ∈ a.value)
    (unlike : ¬ Lookalike attr (a.value.takeWhile (· ≠ '>'))) (absent : lookup attr rest = none) :
    Legible attr (a :: rest) := by
  rw [Legible, if_neg other, if_pos cut]
  exact ⟨unlike, absent⟩

end

theorem nothing_hidden {attributes : List Attribute} (shown : hiddenText attributes = []) :
    ∀ j, ¬ metaOpen <+: (asciiLower (hiddenText attributes)).drop j := by
  intro j here
  have empty : (asciiLower []).drop j = [] := List.drop_nil
  rw [shown, empty, List.prefix_nil] at here
  exact absurd here (by decide)

def ogTitle : Str := "og:title".toList

def viewport : MetaElement where
  lead := []
  untagged := by decide
  attributes :=
    [⟨[' '], "name".toList, .double, "viewport".toList, by decide, by decide, by decide, by decide⟩,
      ⟨[' '], "content".toList, .single, "width=device-width".toList, by decide, by decide,
        by decide, by decide⟩]

/-- With a tag end in a value behind the content. -/
def titled : MetaElement where
  lead := ['\n']
  untagged := by decide
  attributes :=
    [⟨[' '], "Content".toList, .double, "Vite + React".toList, by decide, by decide, by decide,
        by decide⟩,
      ⟨[' '], "property".toList, .unquoted, "og:title".toList, by decide, by decide, by decide,
        by decide⟩,
      ⟨[' '], "data-path".toList, .double, "a > b".toList, by decide, by decide, by decide,
        by decide⟩]

/-- `<meta property=og:title content=Vite>` -/
def bareTitle : MetaElement where
  lead := []
  untagged := by decide
  attributes :=
    [⟨[' '], "property".toList, .unquoted, "og:title".toList, by decide, by decide, by decide,
        by decide⟩,
      ⟨[' '], "content".toList, .unquoted, "Vite".toList, by decide, by decide, by decide,
        by decide⟩]

theorem viewport_readable : viewport.Readable ogTitle where
  name := ⟨legible_here (by decide) (by decide) (by decide), fun bare => absurd bare (by decide)⟩
  property := fun _ => ⟨legible_behind (by decide) (by decide) (unlike_of_solid (by decide))
    (legible_behind (by decide) (by decide) (unlike_of_solid (by decide)) trivial),
    fun bare => absurd bare (by decide)⟩
  content := fun wanted => absurd wanted (by decide)
  passed := fun _ => nothing_hidden (by decide)

theorem titled_readable : Readable ogTitle [viewport, titled] := by
  refine ⟨viewport_readable, fun _ => ⟨⟨?_, fun _ => ?_, fun _ => ?_, ?_⟩, fun _ => trivial⟩⟩
  · exact ⟨legible_behind (by decide) (by decide) (unlike_of_unequal (by decide))
      (legible_behind (by decide) (by decide) (unlike_of_solid (by decide))
        (legible_cut (by decide) (by decide) (unlike_of_unequal (by decide)) (by decide))),
      fun bare => absurd bare (by decide)⟩
  · exact ⟨legible_behind (by decide) (by decide) (unlike_of_unequal (by decide))
      (legible_here (by decide) (by decide) (by decide)), fun bare => absurd bare (by decide)⟩
  · exact legible_here (by decide) (by decide) (by decide)
  · exact fun absent => absurd absent (by decide)

theorem titled_found :
    extractMetaContent (utf8 (headText [viewport, titled])) ogTitle =
        some (metadata ogTitle [viewport, titled]) ↔
      ¬ BareContent ogTitle [viewport, titled] :=
  metadata_found_iff titled_readable

theorem bareTitle_misread :
    extractMetaContent (utf8 (headText [bareTitle])) ogTitle ≠
        some (metadata ogTitle [bareTitle]) := by
  decide +kernel

end RaemoteServer.Discovery
