import RaemoteServer.Library.Utf8
import RaemoteServer.Slugs

/-! How long slugs get. A slug is cut out of the words of its text, and the cut is one byte further
where a word begins at the cap. -/

namespace RaemoteServer

open Text Spacing

def slugGap (c : Char) : Bool := !c.isAlphanum

/-- The words of a text that is split at its gaps, in lower case. -/
def wordsOf (pieces : List Str) : List Str :=
  (pieces.filter (· ≠ [])).map (·.map Char.toLower)

def slugWords (input : Str) : List Str := wordsOf (input.splitOnP slugGap)

/-- The slug without a cap. -/
def wholeSlug (input : Str) : Str := join ['-'] (slugWords input)

/-- 48 bytes, and one more if the last of them is a dash. -/
def capped (slug : Str) : Str := slug.take (if slug[47]? = some '-' then 49 else 48)

/-! The loop without the test. -/

/-- What is pushed behind a slug, which may be empty. -/
def pushedBehind (started pendingDash : Bool) : Str → Str
  | [] => []
  | ch :: rest =>
      if ch.isAlphanum then
        (if pendingDash && started then ['-', ch.toLower] else [ch.toLower]) ++
          pushedBehind true false rest
      else pushedBehind started true rest

theorem capped_short {slug : Str} (short : slug.length ≤ 48) : capped slug = slug := by
  rw [capped]
  split
  · exact List.take_of_length_le (by omega)
  · exact List.take_of_length_le short

theorem toLower_ne_dash {ch : Char} (alphanum : ch.isAlphanum = true) : ch.toLower ≠ '-' := by
  have other := slugDash_letter (slugLetter_toLower alphanum)
  simpa [slugDash] using other

/-- The push that fills the slug ends it where it is cut. -/
theorem capped_full {out : Str} (room : out.length < 48) {pendingDash : Bool} {ch : Char}
    (alphanum : ch.isAlphanum = true) (full : 48 ≤ (pushSlug out pendingDash ch).length)
    (behind : Str) :
    capped (pushSlug out pendingDash ch ++ behind) = pushSlug out pendingDash ch := by
  have letter := toLower_ne_dash alphanum
  unfold pushSlug at full ⊢
  split at full
  case isTrue dashed =>
    rw [if_pos dashed]
    simp only [List.length_append, List.length_singleton] at full
    by_cases even : out.length = 46
    · have last : (out ++ ['-'] ++ [ch.toLower] ++ behind)[47]? = some ch.toLower := by
        simp [List.getElem?_append, even]
      rw [capped, last, if_neg (by simpa using letter)]
      exact List.take_left' (by simp [even])
    · have one : out.length = 47 := by omega
      have last : (out ++ ['-'] ++ [ch.toLower] ++ behind)[47]? = some '-' := by
        simp [one]
      rw [capped, last, if_pos rfl]
      exact List.take_left' (by simp [one])
  case isFalse plain =>
    rw [if_neg plain]
    simp only [List.length_append, List.length_singleton] at full
    have one : out.length = 47 := by omega
    have last : (out ++ [ch.toLower] ++ behind)[47]? = some ch.toLower := by
      simp [one]
    rw [capped, last, if_neg (by simpa using letter)]
    exact List.take_left' (by simp [one])

theorem slugifyLoop_eq {out : Str} (room : out.length < 48) (pendingDash : Bool) (input : Str) :
    slugifyLoop out pendingDash input =
      capped (out ++ pushedBehind (!out.isEmpty) pendingDash input) := by
  induction input generalizing out pendingDash with
  | nil =>
      rw [slugifyLoop, pushedBehind, List.append_nil, capped_short (Nat.le_of_lt room)]
  | cons ch rest ih =>
      by_cases alphanum : ch.isAlphanum = true
      · have pushed : out ++ pushedBehind (!out.isEmpty) pendingDash (ch :: rest) =
            pushSlug out pendingDash ch ++ pushedBehind true false rest := by
          rw [pushedBehind, if_pos alphanum, pushSlug]
          split <;> simp
        have started : (!(pushSlug out pendingDash ch).isEmpty) = true := by
          simpa using pushSlug_ne_nil out pendingDash ch
        simp only [slugifyLoop, alphanum, if_true]
        rw [pushed]
        split
        case isTrue full => exact (capped_full room alphanum full _).symm
        case isFalse more =>
          have next := ih (Nat.lt_of_not_le more) false
          rwa [started] at next
      · simp only [slugifyLoop, pushedBehind, alphanum, Bool.false_eq_true, if_false,
          if_neg (Nat.not_le_of_lt room)]
        exact ih room true

/-! What it pushes are the words. -/

theorem wordsOf_gap (pieces : List Str) : wordsOf ([] :: pieces) = wordsOf pieces := by
  simp [wordsOf]

theorem wordsOf_word (ch : Char) (word : Str) (pieces : List Str) :
    wordsOf ((ch :: word) :: pieces) = (ch :: word).map Char.toLower :: wordsOf pieces := by
  simp [wordsOf]

theorem join_cons (word : Str) (words : List Str) :
    join ['-'] (word :: words) = word ++ words.flatMap ('-' :: ·) := by
  induction words generalizing word with
  | nil => simp [join]
  | cons next rest ih =>
      have tail := ih next
      rw [join] at tail ⊢
      rw [List.intercalate_cons_cons, tail, List.flatMap_cons]
      simp

/-- Behind a slug each word has its dash, but for one that goes on. -/
theorem pushedBehind_started {input first : Str} {others : List Str}
    (pieces : input.splitOnP slugGap = first :: others) :
    pushedBehind true false input = first.map Char.toLower ++ (wordsOf others).flatMap ('-' :: ·) ∧
      pushedBehind true true input = (wordsOf (first :: others)).flatMap ('-' :: ·) := by
  induction input generalizing first others with
  | nil =>
      obtain ⟨rfl, rfl⟩ := List.cons.inj pieces
      exact ⟨rfl, rfl⟩
  | cons ch rest ih =>
      obtain ⟨word, more, shape⟩ := List.exists_cons_of_ne_nil (List.splitOnP_ne_nil slugGap rest)
      obtain ⟨going, dashed⟩ := ih shape
      rw [List.splitOnP_cons_eq_if_modifyHead, shape] at pieces
      by_cases alphanum : ch.isAlphanum = true
      · rw [if_neg (by simpa [slugGap] using alphanum)] at pieces
        obtain ⟨rfl, rfl⟩ := List.cons.inj pieces
        constructor
        · simp [pushedBehind, alphanum, going]
        · simp [pushedBehind, alphanum, going, wordsOf_word]
      · rw [if_pos (by simpa [slugGap] using alphanum)] at pieces
        obtain ⟨rfl, rfl⟩ := List.cons.inj pieces
        constructor
        · simp [pushedBehind, alphanum, dashed]
        · simp [pushedBehind, alphanum, dashed, wordsOf_gap]

theorem pushedBehind_first (pendingDash : Bool) (input : Str) :
    pushedBehind false pendingDash input = wholeSlug input := by
  induction input generalizing pendingDash with
  | nil => rfl
  | cons ch rest ih =>
      obtain ⟨word, more, shape⟩ := List.exists_cons_of_ne_nil (List.splitOnP_ne_nil slugGap rest)
      by_cases alphanum : ch.isAlphanum = true
      · have gap : ¬ slugGap ch = true := by simpa [slugGap] using alphanum
        rw [wholeSlug, slugWords, List.splitOnP_cons_eq_if_modifyHead, if_neg gap, shape,
          List.modifyHead_cons, wordsOf_word, join_cons, pushedBehind, if_pos alphanum,
          (pushedBehind_started shape).1]
        simp
      · have gap : slugGap ch = true := by simpa [slugGap] using alphanum
        rw [wholeSlug, slugWords, List.splitOnP_cons_eq_if_modifyHead, if_pos gap, wordsOf_gap,
          pushedBehind, if_neg alphanum, ih]
        rfl

theorem slugify_eq (input : Str) : slugify input = capped (wholeSlug input) := by
  rw [slugify, slugifyLoop_eq (by decide), ← pushedBehind_first false]
  rfl

/-! Where it is cut. -/

theorem slugWords_proper {input word : Str} (member : word ∈ slugWords input) :
    word ≠ [] ∧ '-' ∉ word := by
  obtain ⟨piece, inside, rfl⟩ := List.mem_map.mp member
  obtain ⟨split, present⟩ := List.mem_filter.mp inside
  constructor
  · simpa using present
  · intro dash
    obtain ⟨c, here, same⟩ := List.mem_map.mp dash
    have plain := plain_of_mem_splitOnP split c here
    exact toLower_ne_dash (by simpa [slugGap] using plain) same

/-- A word begins at the cap. -/
def WordAtCap (input : Str) : Prop :=
  ∃ k < (slugWords input).length, (join ['-'] ((slugWords input).take k)).length = 47

theorem dash_at_cap (input : Str) : (wholeSlug input)[47]? = some '-' ↔ WordAtCap input := by
  rw [wholeSlug, join, getElem?_intercalate (fun word member => (slugWords_proper member).2)]
  constructor
  · intro found
    obtain ⟨front, back, -, more, shape, count⟩ := found
    have sizes := List.length_pos_iff.mpr more
    refine ⟨front.length, ?_, ?_⟩
    · rw [shape, List.length_append]
      omega
    · rw [shape, List.take_left, join, count]
  · intro found
    obtain ⟨k, below, count⟩ := found
    refine ⟨(slugWords input).take k, (slugWords input).drop k, ?_, ?_,
      (List.take_append_drop k _).symm, count⟩
    · intro none
      rw [none] at count
      cases count
    · rw [← List.length_pos_iff, List.length_drop]
      omega

/-- The word behind the dash is longer than nothing. -/
theorem wholeSlug_beyond {input : Str} (cut : (wholeSlug input)[47]? = some '-') :
    49 ≤ (wholeSlug input).length := by
  have proper (word : Str) (member : word ∈ slugWords input) := slugWords_proper member
  obtain ⟨front, back, present, more, shape, count⟩ :=
    (getElem?_intercalate (fun word member => (proper word member).2)).mp cut
  obtain ⟨word, rest, rfl⟩ := List.exists_cons_of_ne_nil more
  have letters : 0 < word.length := List.length_pos_iff.mpr (proper word (by simp [shape])).1
  have behind := congrArg List.length (join_cons word rest)
  rw [join, List.length_append] at behind
  rw [wholeSlug, shape, join, intercalate_append _ present more, List.length_append,
    List.length_append, List.length_singleton, count]
  omega

theorem length_slugify (input : Str) :
    (slugify input).length = min (wholeSlug input).length
      (if (wholeSlug input)[47]? = some '-' then 49 else 48) := by
  rw [slugify_eq, capped, List.length_take, Nat.min_comm]

theorem slugChar_ascii {c : Char} (slug : slugChar c = true) : c.toNat < 0x80 := by
  simp only [slugChar, Bool.or_eq_true, beq_iff_eq] at slug
  rcases slug with (lower | digit) | rfl
  · simp only [Char.isLower, Bool.and_eq_true, decide_eq_true_eq, UInt32.le_iff_toNat_le] at lower
    have high : c.toNat ≤ 122 := lower.2
    omega
  · simp only [Char.isDigit, Bool.and_eq_true, decide_eq_true_eq, UInt32.le_iff_toNat_le] at digit
    have high : c.toNat ≤ 57 := digit.2
    omega
  · decide

theorem length_utf8_slugify (input : Str) :
    (utf8 (slugify input)).length = (slugify input).length := by
  apply length_utf8_ascii
  intro c member
  exact slugChar_ascii (plain_slugify input c member)

/-- The dash that is pushed as the 48th byte takes its letter beyond the cap. -/
theorem slug_fits_iff (input : Str) : (utf8 (slugify input)).length ≤ 48 ↔ ¬ WordAtCap input := by
  rw [length_utf8_slugify, length_slugify, ← dash_at_cap]
  constructor
  · intro fits cut
    have beyond := wholeSlug_beyond cut
    rw [if_pos cut] at fits
    omega
  · intro uncut
    rw [if_neg uncut]
    exact Nat.min_le_right _ _

def atCap : Str := List.replicate 47 'a' ++ " b".toList

theorem slug_beyond_cap : ¬ (utf8 (slugify atCap)).length ≤ 48 := by decide

end RaemoteServer
