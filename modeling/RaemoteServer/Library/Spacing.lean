import RaemoteServer.Library.Text

/-! Lists whose gaps stand alone and inside: none at either end, and no two side by side. -/

namespace Spacing

variable {α : Type} {gap drop : α → Bool} {space : α} {cap : Nat}

/-- Two neighbours of which at least one is no gap. -/
def Apart (gap : α → Bool) (a b : α) : Prop := gap a = false ∨ gap b = false

structure Tidy (gap : α → Bool) (s : List α) : Prop where
  front : ∀ c ∈ s.head?, gap c = false
  back : ∀ c ∈ s.getLast?, gap c = false
  single : s.IsChain (Apart gap)

/-- As far as it goes: there may be a gap at the end. -/
structure Loose (gap : α → Bool) (s : List α) : Prop where
  front : ∀ c ∈ s.head?, gap c = false
  single : s.IsChain (Apart gap)

/-- Beside a gap there is none. -/
theorem plain_of_beside {s front back : List α} {a b : α} (single : s.IsChain (Apart gap))
    (shape : s = front ++ a :: b :: back) (white : gap a = true) : gap b = false :=
  (List.isChain_iff_forall_rel_of_append_cons_cons.mp single shape).resolve_left (by simp [white])

theorem tidy_nil (gap : α → Bool) : Tidy gap [] := ⟨by simp, by simp, .nil⟩

theorem loose_nil (gap : α → Bool) : Loose gap [] := ⟨by simp, .nil⟩

theorem Tidy.loose {s : List α} (tidy : Tidy gap s) : Loose gap s := ⟨tidy.front, tidy.single⟩

theorem Loose.left {front back : List α} (loose : Loose gap (front ++ back)) : Loose gap front := by
  refine ⟨?_, loose.single.left_of_append⟩
  cases front with
  | nil => simp
  | cons c rest => exact loose.front

theorem Loose.concat {s : List α} (loose : Loose gap s) {c : α} (plain : gap c = false) :
    Loose gap (s ++ [c]) := by
  refine ⟨?_, List.isChain_append.mpr ⟨loose.single, .singleton c, ?_⟩⟩
  · cases s with
    | nil => simpa using plain
    | cons d rest => exact loose.front
  · intro a _ b same
    obtain rfl : c = b := by simpa using same
    exact Or.inr plain

theorem Loose.concat_gap {s : List α} (loose : Loose gap s) (present : s ≠ [])
    (plain : ∀ c ∈ s.getLast?, gap c = false) (space : α) : Loose gap (s ++ [space]) := by
  refine ⟨?_, List.isChain_append.mpr ⟨loose.single, .singleton space, fun a last _ _ =>
    Or.inl (plain a last)⟩⟩
  cases s with
  | nil => exact absurd rfl present
  | cons d rest => exact loose.front

theorem Loose.tidy_concat {s : List α} (loose : Loose gap s) {c : α} (plain : gap c = false) :
    Tidy gap (s ++ [c]) := by
  have longer := loose.concat plain
  exact ⟨longer.front, by simpa using plain, longer.single⟩

/-- What has no gaps is tidy. -/
theorem tidy_of_plain {s : List α} (plain : ∀ c ∈ s, gap c = false) : Tidy gap s := by
  refine ⟨fun c first => plain c (List.mem_of_mem_head? first),
    fun c last => plain c (List.mem_of_mem_getLast? last), ?_⟩
  exact List.isChain_iff_forall_rel_of_append_cons_cons.mpr (by
    rintro a b front back rfl
    exact Or.inl (plain a (by simp)))

/-- Without the gaps at its end a list is tidy. -/
theorem Loose.strip {s : List α} (loose : Loose gap s) : Tidy gap (s.rdropWhile gap) := by
  obtain ⟨tail, shape⟩ := List.rdropWhile_prefix gap (l := s)
  have kept : Loose gap (s.rdropWhile gap) := Loose.left (shape.symm ▸ loose)
  refine ⟨kept.front, ?_, kept.single⟩
  intro c last
  obtain ⟨present, rfl⟩ := List.mem_getLast?_eq_getLast last
  simpa using List.rdropWhile_last_not gap s present

theorem Loose.dropWhile {s : List α} (loose : Loose gap s) : s.dropWhile gap = s := by
  cases s with
  | nil => rfl
  | cons c rest => exact List.dropWhile_cons_of_neg (by simp [loose.front c rfl])

theorem Loose.strip_eq_nil {s : List α} (loose : Loose gap s) : s.rdropWhile gap = [] ↔ s = [] := by
  constructor
  · intro none
    cases s with
    | nil => rfl
    | cons c rest =>
        have all := List.rdropWhile_eq_nil_iff.mp none c List.mem_cons_self
        rw [loose.front c rfl] at all
        cases all
  · rintro rfl
    rfl

theorem Tidy.strip {s : List α} (tidy : Tidy gap s) : s.rdropWhile gap = s := by
  rw [List.rdropWhile_eq_self_iff]
  intro present
  simp [tidy.back _ (List.getLast?_eq_some_getLast present)]

theorem mem_intercalate (separator : List α) {words : List (List α)} {word : List α}
    (member : word ∈ words) {c : α} (inside : c ∈ word) : c ∈ separator.intercalate words := by
  induction words with
  | nil => cases member
  | cons first rest ih =>
      cases rest with
      | nil =>
          obtain rfl := List.mem_singleton.mp member
          rwa [List.intercalate_singleton]
      | cons next more =>
          rw [List.intercalate_cons_cons]
          rcases List.mem_cons.mp member with rfl | later
          · exact List.mem_append_left _ (List.mem_append_left _ inside)
          · exact List.mem_append_right _ (ih later)

theorem intercalate_append (separator : List α) {front back : List (List α)} (present : front ≠ [])
    (more : back ≠ []) : separator.intercalate (front ++ back) =
      separator.intercalate front ++ separator ++ separator.intercalate back := by
  induction front with
  | nil => exact absurd rfl present
  | cons word rest ih =>
      by_cases last : rest = []
      · rw [last, List.singleton_append, List.intercalate_singleton,
          List.intercalate_cons_of_ne_nil more]
      · have behind : rest ++ back ≠ [] := List.append_ne_nil_of_left_ne_nil last back
        rw [List.cons_append, List.intercalate_cons_of_ne_nil behind,
          List.intercalate_cons_of_ne_nil last, ih last]
        simp only [List.append_assoc]

/-- Separators stand between words only. -/
theorem getElem?_intercalate {separator : α} {words : List (List α)}
    (absent : ∀ word ∈ words, separator ∉ word) {i : Nat} :
    ([separator].intercalate words)[i]? = some separator ↔
      ∃ front back, front ≠ [] ∧ back ≠ [] ∧ words = front ++ back ∧
        ([separator].intercalate front).length = i := by
  constructor
  · intro here
    induction words generalizing i with
    | nil => cases here
    | cons word rest ih =>
        obtain ⟨own, others⟩ := List.forall_mem_cons.mp absent
        by_cases last : rest = []
        · rw [last, List.intercalate_singleton] at here
          exact absurd (List.mem_of_getElem? here) own
        · rw [List.intercalate_cons_of_ne_nil last, List.append_assoc,
            List.singleton_append] at here
          rcases Nat.lt_trichotomy i word.length with inside | rfl | behind
          · rw [List.getElem?_append_left inside] at here
            exact absurd (List.mem_of_getElem? here) own
          · exact ⟨[word], rest, List.cons_ne_nil _ _, last, rfl, by
              rw [List.intercalate_singleton]⟩
          · obtain ⟨j, rfl⟩ := Nat.exists_eq_add_of_lt behind
            have inner : ([separator].intercalate rest)[j]? = some separator := by
              rw [Nat.add_assoc, List.getElem?_append_right (Nat.le_add_right _ _),
                Nat.add_sub_cancel_left, List.getElem?_cons_succ] at here
              exact here
            obtain ⟨front, back, present, more, shape, count⟩ := ih others inner
            refine ⟨word :: front, back, List.cons_ne_nil _ _, more, by rw [shape]; rfl, ?_⟩
            rw [List.intercalate_cons_of_ne_nil present, List.length_append,
              List.length_append, count,
              List.length_singleton]
            omega
  · intro ⟨front, back, present, more, shape, count⟩
    rw [shape, intercalate_append _ present more, List.append_assoc, ← count,
      List.getElem?_append_right (le_refl _), Nat.sub_self]
    rfl

/-- Words with one separator between any two of them, perhaps behind a separator. -/
theorem words_of_single [DecidableEq α] {separator : α} {s : List α}
    (back : ∀ c ∈ s.getLast?, (c == separator) = false)
    (single : s.IsChain (Apart (· == separator))) :
    ∃ words, (∀ word ∈ words, word ≠ [] ∧ separator ∉ word) ∧
      (s = [separator].intercalate words ∨
        words ≠ [] ∧ s = separator :: [separator].intercalate words) := by
  induction s with
  | nil => exact ⟨[], nofun, Or.inl rfl⟩
  | cons c rest ih =>
      obtain ⟨words, each, shape⟩ :=
        ih (fun d last => back d (List.mem_getLast?_cons last)) single.tail
      by_cases same : c = separator
      · subst same
        have inner : rest = [c].intercalate words := by
          apply shape.resolve_right
          rintro ⟨-, rfl⟩
          simp [Apart] at single
        refine ⟨words, each, Or.inr ⟨?_, congrArg (c :: ·) inner⟩⟩
        rintro rfl
        obtain rfl : rest = [] := inner
        simpa using back c rfl
      · have other : separator ∉ [c] := by simpa using Ne.symm same
        rcases shape with rfl | ⟨present, rfl⟩
        · cases words with
          | nil => exact ⟨[[c]], by simpa using other, Or.inl rfl⟩
          | cons word more =>
              obtain ⟨⟨-, absent⟩, later⟩ := List.forall_mem_cons.mp each
              refine ⟨(c :: word) :: more, List.forall_mem_cons.mpr
                ⟨⟨List.cons_ne_nil _ _, ?_⟩, later⟩,
                Or.inl List.intercalate_cons_cons_left.symm⟩
              simpa [Ne.symm same] using absent
        · refine ⟨[c] :: words, List.forall_mem_cons.mpr ⟨⟨List.cons_ne_nil _ _, other⟩, each⟩,
            Or.inl ?_⟩
          rw [List.intercalate_cons_of_ne_nil present]
          rfl

/-- A tidy list is made of words with one separator between any two of them. -/
theorem Tidy.words [DecidableEq α] {separator : α} {s : List α} (tidy : Tidy (· == separator) s) :
    ∃ words, s = [separator].intercalate words ∧
      ∀ word ∈ words, word ≠ [] ∧ separator ∉ word := by
  obtain ⟨words, each, shape | ⟨-, rfl⟩⟩ := words_of_single tidy.back tidy.single
  · exact ⟨words, shape, each⟩
  · simpa using tidy.front separator rfl

theorem trim_loose {s : Text.Str} (loose : Loose Text.isWhitespace s) :
    Text.trim s = s.rdropWhile Text.isWhitespace := by
  rw [Text.trim, loose.dropWhile]
  rfl

/-! One space in the place of each group of gaps. -/

/-- Gaps in front and elements to drop leave nothing behind; with `cap` elements there it stops.
`prev` tells whether the last element that counted was a gap. -/
def squeeze (gap drop : α → Bool) (space : α) (cap : Nat) (out : List α) (prev : Bool) :
    List α → List α
  | [] => out
  | c :: rest =>
      if gap c then
        let out := if !prev && !out.isEmpty then out ++ [space] else out
        if out.length ≥ cap then out else squeeze gap drop space cap out true rest
      else if drop c then squeeze gap drop space cap out prev rest
      else
        let out := out ++ [c]
        if out.length ≥ cap then out else squeeze gap drop space cap out false rest

/-- The output while the loop goes on. -/
structure Squeezed (gap drop : α → Bool) (space : α) (out : List α) : Prop where
  loose : Loose gap out
  kept : ∀ c ∈ out, c = space ∨ gap c = false ∧ drop c = false

theorem squeezed_nil (gap drop : α → Bool) (space : α) : Squeezed gap drop space [] :=
  ⟨loose_nil gap, nofun⟩

theorem Squeezed.concat {out : List α} (squeezed : Squeezed gap drop space out) {c : α}
    (plain : gap c = false) (kept : drop c = false) : Squeezed gap drop space (out ++ [c]) :=
  ⟨squeezed.loose.concat plain, List.forall_mem_append.mpr
    ⟨squeezed.kept, List.forall_mem_singleton.mpr (Or.inr ⟨plain, kept⟩)⟩⟩

theorem Squeezed.widen {out : List α} (squeezed : Squeezed gap drop space out) {prev : Bool}
    (behind : prev = false → ∀ c ∈ out.getLast?, gap c = false) :
    Squeezed gap drop space (if !prev && !out.isEmpty then out ++ [space] else out) := by
  split
  · rename_i fresh
    obtain ⟨first, present⟩ := Bool.and_eq_true_iff.mp fresh
    exact ⟨squeezed.loose.concat_gap (by simpa using present) (behind (by simpa using first)) space,
      List.forall_mem_append.mpr ⟨squeezed.kept, List.forall_mem_singleton.mpr (Or.inl rfl)⟩⟩
  · exact squeezed

/-- The loop keeps it, and stays within the cap. -/
theorem squeeze_spec {out : List α} (squeezed : Squeezed gap drop space out)
    (short : out.length < cap)
    {prev : Bool} (behind : prev = false → ∀ c ∈ out.getLast?, gap c = false) (s : List α) :
    Squeezed gap drop space (squeeze gap drop space cap out prev s) ∧
      (squeeze gap drop space cap out prev s).length ≤ cap := by
  induction s generalizing out prev with
  | nil => exact ⟨squeezed, short.le⟩
  | cons c rest ih =>
      rw [squeeze]
      split
      · have next := squeezed.widen behind
        have bound : (if !prev && !out.isEmpty then out ++ [space] else out).length ≤ cap := by
          split
          · rw [List.length_append, List.length_singleton]
            exact short
          · exact short.le
        generalize (if !prev && !out.isEmpty then out ++ [space] else out) = wider at next bound ⊢
        dsimp only
        split
        · exact ⟨next, bound⟩
        · rename_i room
          exact ih next (Nat.lt_of_not_le room) nofun
      · rename_i plain
        split
        · exact ih squeezed short behind
        · rename_i kept
          have next := squeezed.concat (by simpa using plain) (by simpa using kept)
          dsimp only
          split
          · rw [List.length_append, List.length_singleton]
            exact ⟨next, short⟩
          · rename_i room
            exact ih next (Nat.lt_of_not_le room) (by simpa using plain)

/-- What is there stays there. -/
theorem prefix_squeeze (out : List α) (prev : Bool) (s : List α) :
    out <+: squeeze gap drop space cap out prev s := by
  induction s generalizing out prev with
  | nil => exact List.prefix_refl out
  | cons c rest ih =>
      have longer (next : List α) : out <+: out ++ next := List.prefix_append out next
      have widened : out <+: if !prev && !out.isEmpty then out ++ [space] else out := by
        split
        · exact longer [space]
        · exact List.prefix_refl out
      rw [squeeze]
      split
      · generalize (if !prev && !out.isEmpty then out ++ [space] else out) = next at widened ⊢
        dsimp only
        split
        · exact widened
        · exact widened.trans (ih _ _)
      · split
        · exact ih _ _
        · dsimp only
          split
          · exact longer [c]
          · exact (longer [c]).trans (ih _ _)

/-- Nothing is left exactly of gaps and of what is dropped. -/
theorem squeeze_eq_nil (positive : 0 < cap) (prev : Bool) (s : List α) :
    squeeze gap drop space cap [] prev s = [] ↔ ∀ c ∈ s, gap c = true ∨ drop c = true := by
  have room : ¬ ([] : List α).length ≥ cap := Nat.not_le_of_lt positive
  induction s generalizing prev with
  | nil => simp [squeeze]
  | cons c rest ih =>
      rw [List.forall_mem_cons, squeeze]
      by_cases white : gap c = true
      · simp only [white, if_true, List.isEmpty_nil, Bool.not_true, Bool.and_false,
          Bool.false_eq_true, if_false, room, true_or, true_and]
        exact ih true
      · by_cases dropped : drop c = true
        · simp only [white, dropped, if_true, Bool.false_eq_true, if_false, or_true, true_and]
          exact ih prev
        · refine iff_of_false ?_ (by simp [white, dropped])
          simp only [white, dropped, Bool.false_eq_true, if_false, List.nil_append]
          split
          · exact List.cons_ne_nil _ _
          · intro none
            have start : [c] <+: squeeze gap drop space cap [c] false rest :=
              prefix_squeeze [c] false rest
            rw [none] at start
            exact absurd (List.prefix_nil.mp start) (List.cons_ne_nil _ _)

/-- A list that is squeezed already, and not too long, comes through as it is. -/
theorem squeeze_eq {out rest : List α} (squeezed : Squeezed gap drop space (out ++ rest))
    (short : (out ++ rest).length ≤ cap) {prev : Bool}
    (behind : prev = true → ∀ c ∈ rest.head?, gap c = false) (white : gap space = true) :
    squeeze gap drop space cap out prev rest = out ++ rest := by
  induction rest generalizing out prev with
  | nil => rw [squeeze, List.append_nil]
  | cons c rest ih =>
      have shape : out ++ c :: rest = (out ++ [c]) ++ rest := List.append_cons out c rest
      have sizes : (out ++ [c]).length + rest.length ≤ cap := by
        rw [← List.length_append, ← shape]
        exact short
      have stop : (out ++ [c]).length ≥ cap → out ++ [c] = out ++ c :: rest := by
        intro full
        obtain rfl := List.eq_nil_of_length_eq_zero (by omega : rest.length = 0)
        rfl
      have next : (c' : Bool) → (c' = true → ∀ d ∈ rest.head?, gap d = false) →
          squeeze gap drop space cap (out ++ [c]) c' rest = out ++ c :: rest := by
        intro c' alone
        rw [shape]
        exact ih (shape ▸ squeezed) (shape ▸ short) alone
      rcases squeezed.kept c (by simp) with rfl | ⟨plain, kept⟩
      · have first : prev = false := by
          by_contra again
          have plain := behind (by simpa using again) c rfl
          rw [white] at plain
          cases plain
        have present : out ≠ [] := by
          rintro rfl
          have plain := squeezed.loose.front c rfl
          rw [white] at plain
          cases plain
        have alone : ∀ d ∈ rest.head?, gap d = false := by
          intro d here
          obtain ⟨tail, rfl⟩ := List.head?_eq_some_iff.mp here
          exact plain_of_beside squeezed.loose.single rfl white
        simp only [squeeze, white, if_true, first, Bool.not_false, Bool.true_and,
          List.isEmpty_eq_false_iff.mpr present]
        split
        · rename_i full
          exact stop full
        · exact next true (fun _ => alone)
      · simp only [squeeze, plain, kept, Bool.false_eq_true, if_false]
        split
        · rename_i full
          exact stop full
        · exact next false nofun

end Spacing
