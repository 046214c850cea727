import RaemoteServer.Library.Numbers

/-! URI references: their parts (RFC 3986, Appendix B) and their resolution against a base URI
(section 5.2). -/

namespace Rfc3986

open Text

structure Reference where
  scheme : Option Str
  authority : Option Str
  path : Str
  query : Option Str
  fragment : Option Str
  deriving DecidableEq

/-! Parsing. -/

def splitScheme (s : Str) : Option Str × Str :=
  match s.takeWhile (fun c => c ∉ [':', '/', '?', '#']),
    s.dropWhile (fun c => c ∉ [':', '/', '?', '#']) with
  | c :: scheme, ':' :: rest => (some (c :: scheme), rest)
  | _, _ => (none, s)

def splitAuthority (s : Str) : Option Str × Str :=
  match s with
  | '/' :: '/' :: rest => (some (rest.takeWhile (· ≠ '/')), rest.dropWhile (· ≠ '/'))
  | _ => (none, s)

def parse (s : Str) : Reference :=
  let (s, fragment) := splitOnce '#' s
  let (s, query) := splitOnce '?' s
  let (scheme, s) := splitScheme s
  let (authority, path) := splitAuthority s
  { scheme, authority, path, query, fragment }

/-! Removing dot segments (section 5.2.4). -/

/-- The output buffer without its last segment and the slash before it. -/
def dropLastSegment (out : Str) : Str := ((out.reverse.dropWhile (· ≠ '/')).drop 1).reverse

/-- The first path segment with the slash before it, and what follows. -/
def firstSegment (input : Str) : Str × Str :=
  (input.take 1 ++ (input.drop 1).takeWhile (· ≠ '/'), (input.drop 1).dropWhile (· ≠ '/'))

/-- Every turn shortens the input, so its length is enough fuel. -/
def removeDots : Nat → Str → Str → Str
  | 0, _, out => out
  | fuel + 1, input, out =>
      if input = [] then out
      else if ['.', '.', '/'] <+: input then removeDots fuel (input.drop 3) out
      else if ['.', '/'] <+: input then removeDots fuel (input.drop 2) out
      else if ['/', '.', '/'] <+: input then removeDots fuel (input.drop 2) out
      else if input = ['/', '.'] then removeDots fuel ['/'] out
      else if ['/', '.', '.', '/'] <+: input then
        removeDots fuel (input.drop 3) (dropLastSegment out)
      else if input = ['/', '.', '.'] then removeDots fuel ['/'] (dropLastSegment out)
      else if input = ['.'] ∨ input = ['.', '.'] then removeDots fuel [] out
      else removeDots fuel (firstSegment input).2 (out ++ (firstSegment input).1)

def removeDotSegments (path : Str) : Str := removeDots path.length path []

/-! Resolution. -/

/-- Section 5.2.3. -/
def mergePaths (base : Reference) (path : Str) : Str :=
  if base.authority.isSome && base.path.isEmpty then '/' :: path
  else (base.path.reverse.dropWhile (· ≠ '/')).reverse ++ path

def resolve (base ref : Reference) : Reference :=
  if ref.scheme.isSome then { ref with path := removeDotSegments ref.path }
  else if ref.authority.isSome then
    { ref with scheme := base.scheme, path := removeDotSegments ref.path }
  else
    { scheme := base.scheme
      authority := base.authority
      path :=
        if ref.path = [] then base.path
        else if ref.path.head? = some '/' then removeDotSegments ref.path
        else removeDotSegments (mergePaths base ref.path)
      query := if ref.path = [] ∧ ref.query = none then base.query else ref.query
      fragment := ref.fragment }

example : resolve (parse "http://a/b/c/d;p?q".toList) (parse "../../g".toList) =
    parse "http://a/g".toList := by decide

/-! References that begin with a slash. -/

/-- A path followed by a query and a fragment. -/
def withSuffix (path : Str) (query fragment : Option Str) : Str :=
  path ++ (query.map ('?' :: ·)).getD [] ++ (fragment.map ('#' :: ·)).getD []

theorem splitOnce_suffix (separator : Char) (front : Str) (rest : Option Str)
    (absent : separator ∉ front) :
    splitOnce separator (front ++ (rest.map (separator :: ·)).getD []) = (front, rest) := by
  cases rest with
  | none => simpa using splitOnce_absent separator front absent
  | some rest => exact splitOnce_append separator front rest absent

theorem splitScheme_rooted (rest : Str) : splitScheme ('/' :: rest) = (none, '/' :: rest) := by
  simp [splitScheme]

theorem parse_rooted (rest : Str) (query fragment : Option Str)
    (noQuery : '?' ∉ '/' :: rest) (noFragment : '#' ∉ '/' :: rest)
    (ends : ∀ text, query = some text → '#' ∉ text) :
    parse (withSuffix ('/' :: rest) query fragment) =
      { scheme := none
        authority := (splitAuthority ('/' :: rest)).1
        path := (splitAuthority ('/' :: rest)).2
        query, fragment } := by
  have front : '#' ∉ '/' :: rest ++ (query.map ('?' :: ·)).getD [] := by
    intro inside
    rcases List.mem_append.mp inside with path | suffix
    · exact noFragment path
    · cases query with
      | none => cases suffix
      | some text =>
          rcases List.mem_cons.mp suffix with same | later
          · exact absurd same (by decide)
          · exact ends text rfl later
  simp only [parse, withSuffix, splitOnce_suffix '#' _ fragment front,
    splitOnce_suffix '?' _ query noQuery, splitScheme_rooted]

theorem splitAuthority_path {rest : Str} (single : rest.head? ≠ some '/') :
    splitAuthority ('/' :: rest) = (none, '/' :: rest) := by
  unfold splitAuthority
  split
  · rename_i shape
    obtain rfl := (List.cons.inj shape).2
    exact absurd rfl single
  · rfl

/-! Hosts and ports. -/

/-- 80 is the port that need not be written. -/
def portOf : Option Str → Option UInt16
  | none | some [] => some 80
  | some port => parseU16 port

theorem portOf_decimal (port : UInt16) : portOf (some (decimal port.toNat)) = some port := by
  cases shape : decimal port.toNat with
  | nil => exact absurd shape Nat.toDigits_ne_nil
  | cons digit rest =>
      rw [portOf, ← shape]
      · exact parseU16_decimal port
      · exact nofun

/-- User information ends with an at sign, and an IP literal stands in brackets (section
3.2). -/
def hostAndPort (authority : Str) : Option (Str × UInt16) :=
  let named := ((splitOnce '@' authority).2).getD authority
  let (host, port) :=
    match stripPrefix ['['] named with
    | some literal =>
        let (host, rest) := splitOnce ']' literal
        (host, rest.bind (stripPrefix [':']))
    | none => splitOnce ':' named
  (portOf port).map (fun port => (host, port))

example : hostAndPort "me@[::1]:8080".toList = some ("::1".toList, 8080) := by decide

theorem hostAndPort_named {host : Str} (plain : ∀ c ∈ host, c ∉ ['@', '[', ':']) (port : UInt16) :
    hostAndPort (host ++ ':' :: decimal port.toNat) = some (host, port) := by
  have absent {c : Char} (special : c ∈ ['@', '[']) : c ∉ host ++ ':' :: decimal port.toNat := by
    intro inside
    rcases List.mem_append.mp inside with early | late
    · exact plain c early (List.mem_append_left [':'] special)
    · have digit : c = ':' ∨ c.isDigit = true :=
        (List.mem_cons.mp late).imp_right isDigit_of_mem_decimal
      simp only [List.mem_cons, List.not_mem_nil, or_false] at special
      rcases special with rfl | rfl
      · exact absurd digit (by decide)
      · exact absurd digit (by decide)
  have bare : stripPrefix ['['] (host ++ ':' :: decimal port.toNat) = none := by
    rw [Option.eq_none_iff_forall_ne_some]
    intro rest found
    have shape := List.isPrefixOf?_eq_some_iff_append_eq.mp found
    have bracket : '[' ∉ host ++ ':' :: decimal port.toNat := absent (by decide)
    rw [← shape] at bracket
    exact bracket List.mem_cons_self
  have whole : ':' ∉ host := fun inside => plain ':' inside (by decide)
  simp [hostAndPort, splitOnce_absent '@' _ (absent (by decide)), bare,
    splitOnce_append ':' host (decimal port.toNat) whole, portOf_decimal]

theorem hostAndPort_literal {host : Str} (plain : ∀ c ∈ host, c ∉ ['@', ']']) (port : UInt16) :
    hostAndPort ('[' :: host ++ "]:".toList ++ decimal port.toNat) = some (host, port) := by
  have shape : '[' :: host ++ "]:".toList ++ decimal port.toNat =
      ['['] ++ (host ++ ']' :: ([':'] ++ decimal port.toNat)) := by simp
  have noUser : '@' ∉ ['['] ++ (host ++ ']' :: ([':'] ++ decimal port.toNat)) := by
    have early : '@' ∉ host := fun inside => plain '@' inside (by decide)
    have late : '@' ∉ decimal port.toNat :=
      fun inside => absurd (isDigit_of_mem_decimal inside) (by decide)
    simp [early, late]
  have whole : ']' ∉ host := fun inside => plain ']' inside (by decide)
  rw [shape]
  simp only [hostAndPort, splitOnce_absent '@' _ noUser, Option.getD_none, stripPrefix_append,
    splitOnce_append ']' host _ whole, Option.bind_some, portOf_decimal, Option.map_some]

theorem splitOnce_behind {separator : Char} {front : Str} (absent : separator ∉ front) (s : Str) :
    (splitOnce separator (front ++ s)).1 = front ++ (splitOnce separator s).1 := by
  by_cases present : separator ∈ s
  · obtain ⟨before, after, rfl, early⟩ := List.eq_append_cons_of_mem present
    have whole : separator ∉ front ++ before := by simp [absent, early]
    rw [← List.append_assoc, splitOnce_append separator _ after whole,
      splitOnce_append separator before after early]
  · have whole : separator ∉ front ++ s := by simp [absent, present]
    rw [splitOnce_absent separator _ whole, splitOnce_absent separator s present]

/-- Nothing behind the slash that ends an authority changes it. -/
theorem parse_authority {scheme authority : Str} (named : scheme ≠ [])
    (plain : ∀ c ∈ scheme, c ∉ [':', '/', '?', '#']) (ends : ∀ c ∈ authority, c ∉ ['/', '?', '#'])
    (rest : Str) :
    (parse (scheme ++ "://".toList ++ authority ++ '/' :: rest)).authority = some authority := by
  have keep {c : Char} (other : c ∉ "://".toList) (delimiter : c ∈ ['/', '?', '#']) :
      c ∉ scheme ++ "://".toList ++ authority := by
    simp only [List.mem_append, not_or]
    exact ⟨⟨fun inside => plain c inside (List.mem_cons_of_mem _ delimiter), other⟩,
      fun inside => ends c inside delimiter⟩
  obtain ⟨more, cut⟩ : ∃ more, (splitOnce '?' (splitOnce '#'
      (scheme ++ "://".toList ++ authority ++ '/' :: rest)).1).1 =
        scheme ++ ':' :: '/' :: '/' :: (authority ++ '/' :: more) := by
    have fragment : '#' ∉ scheme ++ "://".toList ++ authority ++ ['/'] := by
      rw [List.mem_append, not_or]
      exact ⟨keep (by decide) (by decide), by decide⟩
    have query : '?' ∉ scheme ++ "://".toList ++ authority ++ ['/'] := by
      rw [List.mem_append, not_or]
      exact ⟨keep (by decide) (by decide), by decide⟩
    rw [List.append_cons, splitOnce_behind fragment, splitOnce_behind query]
    exact ⟨(splitOnce '?' (splitOnce '#' rest).1).1, by simp⟩
  have all : ∀ c ∈ scheme, decide (c ∉ [':', '/', '?', '#']) = true :=
    fun c member => decide_eq_true (plain c member)
  have split : splitScheme (scheme ++ ':' :: '/' :: '/' :: (authority ++ '/' :: more)) =
      (some scheme, '/' :: '/' :: (authority ++ '/' :: more)) := by
    rw [splitScheme, List.takeWhile_append_of_pos all, List.dropWhile_append_of_pos all]
    cases scheme with
    | nil => exact absurd rfl named
    | cons head tail => simp
  have whole : '/' ∉ authority := fun inside => ends '/' inside List.mem_cons_self
  simp only [parse, cut, split, splitAuthority, Search.takeWhile_stop whole]

/-! Paths without dot segments. -/

/-- Segments with a slash before each. -/
def rooted (segments : List Str) : Str := segments.flatMap ('/' :: ·)

/-- A path segment that is not a dot segment. -/
def NormalSegment (segment : Str) : Prop := '/' ∉ segment ∧ segment ≠ ['.'] ∧ segment ≠ ['.', '.']

theorem takeWhile_segment {segment : Str} (whole : '/' ∉ segment) (rest : List Str) :
    (segment ++ rooted rest).takeWhile (· ≠ '/') = segment ∧
      (segment ++ rooted rest).dropWhile (· ≠ '/') = rooted rest := by
  cases rest with
  | nil =>
      have alone : segment ++ rooted [] = segment := List.append_nil segment
      rw [alone]
      exact ⟨Search.takeWhile_absent whole, Search.dropWhile_absent whole⟩
  | cons next others =>
      exact ⟨Search.takeWhile_stop whole (next ++ rooted others),
        Search.dropWhile_stop whole (next ++ rooted others)⟩

theorem removeDots_rooted {segments : List Str}
    (normal : ∀ segment ∈ segments, NormalSegment segment)
    {fuel : Nat} (enough : segments.length ≤ fuel) (out : Str) :
    removeDots fuel (rooted segments) out = out ++ rooted segments := by
  induction segments generalizing fuel out with
  | nil => cases fuel <;> simp [removeDots, rooted]
  | cons segment rest ih =>
      obtain ⟨⟨whole, one, two⟩, others⟩ := List.forall_mem_cons.mp normal
      obtain ⟨taken, dropped⟩ := takeWhile_segment whole rest
      cases fuel with
      | zero => simp at enough
      | succ fuel =>
          have input : rooted (segment :: rest) = '/' :: (segment ++ rooted rest) := rfl
          -- a dot segment in front would be the first segment
          have first {dots : Str} (dotted : '/' ∉ dots)
              (front : dots ++ ['/'] <+: segment ++ rooted rest ∨ segment ++ rooted rest = dots) :
              segment = dots := by
            rw [← taken]
            rcases front with ⟨more, shape⟩ | shape
            · rw [← shape, List.append_assoc]
              exact Search.takeWhile_stop dotted more
            · rw [shape]
              exact Search.takeWhile_absent dotted
          have current : ¬ ['/', '.', '/'] <+: '/' :: (segment ++ rooted rest) := fun front =>
            one (first (by decide) (Or.inl (List.cons_prefix_cons.mp front).2))
          have lastCurrent : '/' :: (segment ++ rooted rest) ≠ ['/', '.'] := fun same =>
            one (first (by decide) (Or.inr (List.cons.inj same).2))
          have parent : ¬ ['/', '.', '.', '/'] <+: '/' :: (segment ++ rooted rest) := fun front =>
            two (first (by decide) (Or.inl (List.cons_prefix_cons.mp front).2))
          have lastParent : '/' :: (segment ++ rooted rest) ≠ ['/', '.', '.'] := fun same =>
            two (first (by decide) (Or.inr (List.cons.inj same).2))
          rw [input, removeDots, if_neg (by simp), if_neg (by simp), if_neg (by simp),
            if_neg current, if_neg lastCurrent, if_neg parent, if_neg lastParent,
            if_neg (by simp)]
          have tail := ih others (Nat.le_of_succ_le_succ enough) (out ++ ('/' :: segment))
          simp only [firstSegment, List.take_succ_cons, List.take_zero, List.drop_succ_cons,
            List.drop_zero, taken, dropped, List.cons_append, List.nil_append]
          rw [tail, List.append_assoc]
          rfl

theorem length_le_rooted (segments : List Str) : segments.length ≤ (rooted segments).length := by
  induction segments with
  | nil => exact Nat.le_refl _
  | cons segment rest ih =>
      simp only [rooted, List.flatMap_cons, List.length_append, List.length_cons] at ih ⊢
      omega

theorem removeDotSegments_rooted {segments : List Str}
    (normal : ∀ segment ∈ segments, NormalSegment segment) :
    removeDotSegments (rooted segments) = rooted segments := by
  rw [removeDotSegments, removeDots_rooted normal (length_le_rooted segments), List.nil_append]

theorem dropLastSegment_length (out : Str) : (dropLastSegment out).length ≤ out.length := by
  have shorter : (out.reverse.dropWhile (· ≠ '/')).length ≤ out.reverse.length :=
    (List.dropWhile_sublist _).length_le
  simp only [dropLastSegment, List.length_reverse, List.length_drop] at shorter ⊢
  omega

theorem removeDots_length (fuel : Nat) (input out : Str) :
    (removeDots fuel input out).length ≤ input.length + out.length := by
  induction fuel generalizing input out with
  | zero => exact Nat.le_add_left _ _
  | succ fuel ih =>
      have shorter := dropLastSegment_length out
      have dropped (n : Nat) (out' : Str) (bound : out'.length ≤ out.length) :
          (removeDots fuel (input.drop n) out').length ≤ input.length + out.length := by
        have next := ih (input.drop n) out'
        rw [List.length_drop] at next
        omega
      unfold removeDots
      split
      · exact Nat.le_add_left _ _
      split
      · exact dropped 3 out (le_refl _)
      split
      · exact dropped 2 out (le_refl _)
      split
      · exact dropped 2 out (le_refl _)
      split
      · rename_i shape
        subst shape
        exact le_trans (ih _ _) (by simp)
      split
      · exact dropped 3 _ shorter
      split
      · rename_i shape
        subst shape
        exact le_trans (ih _ _) (by simp; omega)
      split
      · exact le_trans (ih _ _) (by simp)
      · have next := ih (firstSegment input).2 (out ++ (firstSegment input).1)
        have whole : (input.drop 1).takeWhile (· ≠ '/') ++ (input.drop 1).dropWhile (· ≠ '/') =
            input.drop 1 := List.takeWhile_append_dropWhile
        have parts := congrArg List.length whole
        simp only [firstSegment, List.length_append, List.length_take,
          List.length_drop] at next parts ⊢
        omega

end Rfc3986
