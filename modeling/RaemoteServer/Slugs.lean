import RaemoteServer.Catalog
import RaemoteServer.Library.Spacing

/-! The slugs that generated names are made of. -/

namespace RaemoteServer

open Text Discovery Spacing

def slugLetter (c : Char) : Bool := c.isLower || c.isDigit

def slugDash (c : Char) : Bool := c == '-'

theorem slugChar_iff {c : Char} : slugChar c = true ↔ slugLetter c = true ∨ slugDash c = true :=
  Bool.or_eq_true_iff

theorem slugLetter_toLower {c : Char} (alphanum : c.isAlphanum = true) :
    slugLetter c.toLower = true := by
  by_cases alpha : c.isAlpha = true
  · simp only [slugLetter, Char.isLower_toLower_eq_isAlpha, alpha, Bool.true_or]
  · have digit := (Bool.or_eq_true_iff.mp alphanum).resolve_left alpha
    have small : ¬ c.isUpper = true := fun upper => alpha (Bool.or_eq_true_iff.mpr (Or.inl upper))
    rw [Char.toLower_eq_of_not_isUpper small]
    exact Bool.or_eq_true_iff.mpr (Or.inr digit)

theorem slugDash_letter {c : Char} (letter : slugLetter c = true) : slugDash c = false := by
  have other : c ≠ '-' := by
    rintro rfl
    exact absurd letter (by decide)
  exact beq_false_of_ne other

/-- A letter of a slug is pushed as it is. -/
theorem slugLetter_kept {c : Char} (letter : slugLetter c = true) :
    c.isAlphanum = true ∧ c.toLower = c := by
  rcases Bool.or_eq_true_iff.mp letter with lower | digit
  · refine ⟨by simp [Char.isAlphanum, Char.isAlpha, lower], Char.toLower_eq_of_not_isUpper ?_⟩
    simp only [Char.isUpper, Char.isLower, Bool.and_eq_true, decide_eq_true_eq,
      UInt32.le_iff_toNat_le, ge_iff_le] at lower ⊢
    grind
  · refine ⟨by simp [Char.isAlphanum, digit], Char.toLower_eq_of_not_isUpper ?_⟩
    simp only [Char.isUpper, Char.isDigit, Bool.and_eq_true, decide_eq_true_eq,
      UInt32.le_iff_toNat_le, ge_iff_le] at digit ⊢
    grind

/-- `slugify` stops behind the character that makes the slug 48 bytes long, or 49 with the dash
before it; no part of a slug that is that long goes on. -/
structure Slugged (out : Str) : Prop where
  plain : Plain out
  tidy : Tidy slugDash out
  short : ∀ front c rest, out = front ++ c :: rest → front.getLast? ≠ some '-' → front.length < 48

theorem slugged_nil : Slugged [] where
  plain := plain_nil
  tidy := tidy_nil slugDash
  short := by simp

theorem proper_prefix {front s rest : Str} {c last : Char}
    (shape : s ++ [last] = front ++ c :: rest) :
    front <+: s := by
  rcases List.prefix_concat_iff.mp (shape ▸ List.prefix_append front (c :: rest)) with rfl | inside
  · have sizes := congrArg List.length shape
    simp at sizes
  · exact inside

/-- Pushing a letter onto a slug that is not cut off. -/
theorem Slugged.push {out : Str} (slugged : Slugged out) (room : out.length < 48)
    (pendingDash : Bool)
    {ch : Char} (alphanum : ch.isAlphanum = true) : Slugged (pushSlug out pendingDash ch) := by
  have letter := slugDash_letter (slugLetter_toLower alphanum)
  refine ⟨plain_pushSlug slugged.plain pendingDash alphanum, ?_, ?_⟩
  · unfold pushSlug
    split
    · rename_i dashed
      have present : out ≠ [] := by simpa using (Bool.and_eq_true_iff.mp dashed).2
      exact (slugged.tidy.loose.concat_gap present slugged.tidy.back '-').tidy_concat letter
    · exact slugged.tidy.loose.tidy_concat letter
  · intro front c rest shape ending
    unfold pushSlug at shape
    have inside := proper_prefix shape
    split at inside
    · rcases List.prefix_concat_iff.mp inside with rfl | before
      · simp at ending
      · exact before.length_le.trans_lt room
    · exact inside.length_le.trans_lt room

theorem slugged_slugify (input : Str) : Slugged (slugify input) :=
  slugifyLoop_keeps Slugged Slugged.push slugged_nil (by decide) false input

theorem pushSlug_ne_nil (out : Str) (pendingDash : Bool) (ch : Char) :
    pushSlug out pendingDash ch ≠ [] := by simp [pushSlug]

theorem slugifyLoop_eq_nil (pendingDash : Bool) (input : Str) :
    slugifyLoop [] pendingDash input = [] ↔ ∀ c ∈ input, c.isAlphanum = false := by
  induction input generalizing pendingDash with
  | nil => simp [slugifyLoop]
  | cons ch rest ih =>
      rw [List.forall_mem_cons]
      by_cases alphanum : ch.isAlphanum = true
      · have grown := pushSlug_ne_nil [] pendingDash ch
        refine iff_of_false ?_ (by simp [alphanum])
        simp only [slugifyLoop, alphanum, if_true]
        split
        · exact grown
        case isFalse more =>
          exact slugifyLoop_keeps (· ≠ []) (fun _ _ _ _ _ => pushSlug_ne_nil _ _ _) grown
            (Nat.lt_of_not_le more) false rest
      · have plain : ch.isAlphanum = false := by simpa using alphanum
        simp only [slugifyLoop, plain, Bool.false_eq_true, if_false, true_and]
        exact ih true

/-- A slug that is read again goes through unchanged; a pending dash stands for the one that was
read. -/
theorem slugifyLoop_slugged {out dash rest : Str} {pendingDash : Bool}
    (slugged : Slugged (out ++ dash ++ rest))
    (pending : pendingDash = true ∧ out ≠ [] ∧ rest ≠ [] ∧ dash = ['-'] ∨ pendingDash = false ∧
      dash = []) :
    slugifyLoop out pendingDash rest = out ++ dash ++ rest := by
  induction rest generalizing out dash pendingDash with
  | nil =>
      rcases pending with ⟨-, -, none, -⟩ | ⟨-, rfl⟩
      · exact absurd rfl none
      · simp [slugifyLoop]
  | cons c rest ih =>
      rcases slugChar_iff.mp (slugged.plain c (by simp)) with letter | dashed
      · obtain ⟨alphanum, small⟩ := slugLetter_kept letter
        have pushed : pushSlug out pendingDash c = out ++ dash ++ [c] := by
          rcases pending with ⟨rfl, present, -, rfl⟩ | ⟨rfl, rfl⟩
          · simp [pushSlug, small, present]
          · simp [pushSlug, small]
        have shape : out ++ dash ++ c :: rest = out ++ dash ++ [c] ++ [] ++ rest := by simp
        have ending : (out ++ dash ++ [c]).getLast? ≠ some '-' := by
          have other := slugDash_letter letter
          simpa [slugDash] using other
        simp only [slugifyLoop, alphanum, if_true, pushed]
        split
        · rename_i full
          cases rest with
          | nil => rfl
          | cons d more =>
              have short := slugged.short (out ++ dash ++ [c]) d more (by simp) ending
              omega
        · rw [shape] at slugged ⊢
          exact ih slugged (Or.inr ⟨rfl, rfl⟩)
      · obtain rfl : c = '-' := by simpa [slugDash] using dashed
        have single := slugged.tidy.single
        have fresh : pendingDash = false ∧ dash = [] := by
          apply pending.resolve_left
          rintro ⟨-, -, -, rfl⟩
          have plain := @plain_of_beside _ _ _ out rest '-' '-' single (by simp) rfl
          cases plain
        obtain ⟨rfl, rfl⟩ := fresh
        rw [List.append_nil] at slugged ⊢
        have present : out ≠ [] := by
          rintro rfl
          cases slugged.tidy.front '-' rfl
        have more : rest ≠ [] := by
          rintro rfl
          cases slugged.tidy.back '-' (by simp)
        have before : out.getLast? ≠ some '-' := by
          intro last
          obtain ⟨front, rfl⟩ := List.getLast?_eq_some_iff.mp last
          have plain := @plain_of_beside _ _ _ front rest '-' '-' slugged.tidy.single (by simp) rfl
          cases plain
        have room := slugged.short out '-' rest rfl before
        have letters : '-'.isAlphanum = false := by decide
        have next := @ih out ['-'] true (by simpa using slugged) (Or.inl ⟨rfl, present, more, rfl⟩)
        simp only [slugifyLoop, letters, Bool.false_eq_true, if_false,
          if_neg (Nat.not_le_of_lt room), next]
        simp

theorem slugify_slugged {slug : Str} (slugged : Slugged slug) : slugify slug = slug :=
  @slugifyLoop_slugged [] [] slug false slugged (Or.inr ⟨rfl, rfl⟩)

theorem Slugged.runs {slug : Str} (slugged : Slugged slug) :
    ∃ runs, slug = join ['-'] runs ∧ ∀ run ∈ runs, run ≠ [] ∧ ∀ c ∈ run, slugLetter c = true := by
  obtain ⟨runs, shape, each⟩ := slugged.tidy.words
  refine ⟨runs, shape, fun run member => ⟨(each run member).1, ?_⟩⟩
  intro c inside
  have here : c ∈ slug := shape ▸ mem_intercalate ['-'] member inside
  apply (slugChar_iff.mp (slugged.plain c here)).resolve_right
  intro dashed
  obtain rfl : c = '-' := by simpa [slugDash] using dashed
  exact (each run member).2 inside

theorem nameBase_ne_nil (d : DiscoveredApp) : nameBase d ≠ [] := by
  dsimp only [nameBase]
  split
  · assumption
  · split
    · assumption
    · decide

/-- Slugs are runs of letters and digits joined by single dashes; only a text without any has none,
and a slug is its own. The name an app gets from its slug is a path segment. -/
theorem slugs_canonical :
    (∀ input, (∃ runs, slugify input = join ['-'] runs ∧
          ∀ run ∈ runs, run ≠ [] ∧ ∀ c ∈ run, slugLetter c = true) ∧
        (slugify input = [] ↔ ∀ c ∈ input, c.isAlphanum = false) ∧
        slugify (slugify input) = slugify input) ∧
      ∀ d, nameBase d ≠ [] ∧ '/' ∉ nameBase d := by
  refine ⟨fun input => ⟨(slugged_slugify input).runs, slugifyLoop_eq_nil false input,
    slugify_slugged (slugged_slugify input)⟩, fun d => ⟨nameBase_ne_nil d, ?_⟩⟩
  intro slash
  exact absurd (plain_nameBase d '/' slash) (by decide)

end RaemoteServer
