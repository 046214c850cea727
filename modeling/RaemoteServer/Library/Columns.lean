import RaemoteServer.Library.Numbers

/-! Columns of a text: words between white space, digits of a fixed width, pieces of a fixed
length. -/

namespace Text

/-! Words. -/

theorem splitWhitespace_white {white : Str} (all : ∀ c ∈ white, isWhitespace c = true) (s : Str) :
    splitWhitespace (white ++ s) = splitWhitespace s := by
  induction white with
  | nil => rfl
  | cons c rest ih =>
      have tail := ih (fun d member => all d (List.mem_cons_of_mem _ member))
      rw [← tail, splitWhitespace, splitWhitespace, List.cons_append,
        List.splitOnP_cons_eq_if_modifyHead, if_pos (all c List.mem_cons_self)]
      rfl

/-- A word ends where the text does, or in front of white space. -/
theorem splitWhitespace_word {word rest : Str} (present : word ≠ [])
    (plain : ∀ c ∈ word, isWhitespace c = false) (ended : ∀ c ∈ rest.head?, isWhitespace c = true) :
    splitWhitespace (word ++ rest) = word :: splitWhitespace rest := by
  cases rest with
  | nil =>
      rw [List.append_nil, splitWhitespace, List.splitOnP_eq_singleton plain]
      simp [present, splitWhitespace]
  | cons c more =>
      have white : isWhitespace c = true := ended c rfl
      have behind : splitWhitespace (c :: more) = splitWhitespace more :=
        splitWhitespace_white (List.forall_mem_singleton.mpr white) more
      rw [behind, splitWhitespace, List.splitOnP_append_cons_of_forall_mem plain c white,
        splitWhitespace]
      simp [present]

/-! Lines. -/

theorem lines_line {line : Str} (unbroken : '\n' ∉ line) (rest : Str) :
    lines (line ++ '\n' :: rest) = stripCarriageReturn line :: lines rest := by
  rw [lines_append, List.splitOn_eq_singleton unbroken]
  rfl

theorem stripCarriageReturn_append {front : Str} (other : front.getLast? ≠ some '\r') (back : Str) :
    stripCarriageReturn (front ++ back) = front ++ stripCarriageReturn back := by
  cases back with
  | nil => simp [stripCarriageReturn, other]
  | cons c more =>
      rw [stripCarriageReturn, stripCarriageReturn, List.getLast?_append_cons]
      split
      · rw [List.dropLast_append_cons]
      · rfl

theorem head_stripCarriageReturn {s : Str} {c : Char} (head : c ∈ (stripCarriageReturn s).head?) :
    c ∈ s.head? := by
  rw [stripCarriageReturn] at head
  split at head
  · match s with
    | [] => exact head
    | [_] => cases head
    | _ :: _ :: _ => exact head
  · exact head

/-! Hexadecimal digits. -/

def upperDigit (digit : Nat) : Char := (Nat.digitChar digit).toUpper

/-- `{:0width$X}` of a number that fits. -/
def hexDigits : Nat → Nat → Str
  | 0, _ => []
  | width + 1, n => hexDigits width (n / 16) ++ [upperDigit (n % 16)]

theorem hexDigit_upperDigit : ∀ digit < 16, hexDigit (upperDigit digit) = some digit := by decide

@[simp] theorem length_hexDigits (width n : Nat) : (hexDigits width n).length = width := by
  induction width generalizing n with
  | zero => rfl
  | succ width ih => rw [hexDigits, List.length_append, ih, List.length_singleton]

theorem hexDigits_ne_nil {width : Nat} (wide : 0 < width) (n : Nat) : hexDigits width n ≠ [] := by
  rw [← List.length_pos_iff, length_hexDigits]
  exact wide

theorem hexDigit_of_mem {width n : Nat} {c : Char} (member : c ∈ hexDigits width n) :
    (hexDigit c).isSome = true := by
  induction width generalizing n with
  | zero => cases member
  | succ width ih =>
      rcases List.mem_append.mp member with front | last
      · exact ih front
      · rw [List.mem_singleton.mp last, hexDigit_upperDigit _ (Nat.mod_lt _ (by decide))]
        rfl

theorem parseHexDigits_hexDigits {width n : Nat} (fits : n < 16 ^ width) :
    parseHexDigits 0 (hexDigits width n) = some n := by
  induction width generalizing n with
  | zero =>
      obtain rfl : n = 0 := by simpa using fits
      rfl
  | succ width ih =>
      have front : n / 16 < 16 ^ width := by
        rw [Nat.pow_succ] at fits
        omega
      rw [hexDigits, parseHexDigits_append, ih front, Option.bind_some, parseHexDigits,
        hexDigit_upperDigit _ (Nat.mod_lt _ (by decide)), Option.bind_some, parseHexDigits,
        Nat.div_add_mod' n 16]

theorem hexDigits_injective {width n m : Nat} (fits : n < 16 ^ width) (fits' : m < 16 ^ width)
    (same : hexDigits width n = hexDigits width m) : n = m := by
  have read := parseHexDigits_hexDigits fits
  rw [same, parseHexDigits_hexDigits fits'] at read
  exact (Option.some.inj read).symm

theorem parseHex_hexDigits {size width n : Nat} (wide : 0 < width) (fits : n < 16 ^ width)
    (small : n < size) : parseHex size (hexDigits width n) = some n := by
  have present := hexDigits_ne_nil wide n
  have unsigned : (hexDigits width n).head? ≠ some '+' := by
    intro plus
    exact absurd (hexDigit_of_mem (List.mem_of_mem_head? plus)) (by decide)
  rw [parseHex, if_neg unsigned, if_neg present, parseHexDigits_hexDigits fits]
  simp [Option.filter, small]

/-- What has a digit's value is ASCII. -/
theorem ascii_of_hexDigit {c : Char} (digit : (hexDigit c).isSome = true) : c.toNat < 0x80 := by
  have below {last : Char} (most : c ≤ last) : c.toNat ≤ last.toNat := most
  unfold hexDigit at digit
  split at digit
  case isTrue decimal =>
    rw [Char.isDigit, Bool.and_eq_true, decide_eq_true_eq, decide_eq_true_eq] at decimal
    exact Nat.lt_of_le_of_lt (below decimal.2) (by decide)
  case isFalse =>
    split at digit
    case isTrue lower => exact Nat.lt_of_le_of_lt (below lower.2) (by decide)
    case isFalse =>
      split at digit
      case isTrue upper => exact Nat.lt_of_le_of_lt (below upper.2) (by decide)
      case isFalse => cases digit

theorem plain_of_hexDigit {c : Char} (digit : (hexDigit c).isSome = true) :
    isWhitespace c = false ∧ c ≠ ':' := by
  have all : ∀ n < 0x80, (hexDigit (Char.ofNat n)).isSome = true →
      isWhitespace (Char.ofNat n) = false ∧ Char.ofNat n ≠ ':' := by decide +kernel
  have own := all c.toNat (ascii_of_hexDigit digit)
  rw [Char.ofNat_toNat] at own
  exact own digit

theorem hexDigits_of_parse {value n : Nat} {s : Str} (read : parseHexDigits value s = some n) :
    ∀ c ∈ s, (hexDigit c).isSome = true := by
  induction s generalizing value with
  | nil => exact List.forall_mem_nil _
  | cons c rest ih =>
      rw [parseHexDigits] at read
      obtain ⟨digit, here, more⟩ := Option.bind_eq_some_iff.mp read
      exact List.forall_mem_cons.mpr ⟨by rw [here]; rfl, ih more⟩

theorem ascii_of_parseHex {size n : Nat} {s : Str} (read : parseHex size s = some n) :
    ∀ c ∈ s, c.toNat < 0x80 := by
  have digits : parseHexDigits 0 (if s.head? = some '+' then s.tail else s) = some n := by
    simp only [parseHex] at read
    generalize (if s.head? = some '+' then s.tail else s) = digits at read ⊢
    split at read
    · cases read
    · exact (Option.filter_eq_some_iff.mp read).1
  have valued := hexDigits_of_parse digits
  cases s with
  | nil => exact List.forall_mem_nil _
  | cons c rest =>
      split at valued
      case isTrue plus =>
        obtain rfl : c = '+' := by simpa using plus
        exact List.forall_mem_cons.mpr
          ⟨by decide, fun d member => ascii_of_hexDigit (valued d member)⟩
      case isFalse => exact fun d member => ascii_of_hexDigit (valued d member)

end Text

namespace List

variable {α β : Type}

theorem toChunks_go {n room : Nat} (xs : List α) (piece : Array α) (done : Array (List α))
    (fits : piece.size + room = n + 1) :
    toChunks.go (n + 1) xs piece done =
      done.toList ++ (piece.toList ++ xs.take room) :: (xs.drop room).toChunks (n + 1) := by
  induction xs generalizing piece done room with
  | nil => simp [toChunks.go, toChunks]
  | cons x rest ih =>
      cases room with
      | zero =>
          have full : piece.size = n + 1 := by omega
          have next : (x :: rest).toChunks (n + 1) =
              ([x] ++ rest.take n) :: (rest.drop n).toChunks (n + 1) :=
            ih #[x] #[] (by simp; omega)
          rw [toChunks.go, if_pos (by simpa using full), @ih n _ _ (by simp; omega)]
          simp [next]
      | succ room =>
          have more : piece.size ≠ n + 1 := by omega
          rw [toChunks.go, if_neg (by simpa using more), @ih room _ _ (by simp; omega)]
          simp

/-- Pieces of a length are cut off one after the other. -/
theorem toChunks_eq {n : Nat} {xs : List α} (present : xs ≠ []) :
    xs.toChunks (n + 1) = xs.take (n + 1) :: (xs.drop (n + 1)).toChunks (n + 1) := by
  cases xs with
  | nil => exact absurd rfl present
  | cons x rest => exact toChunks_go rest #[x] #[] (by simp; omega)

theorem length_toChunks {n k : Nat} {xs : List α} (size : xs.length = k * (n + 1)) :
    (xs.toChunks (n + 1)).length = k ∧ ∀ chunk ∈ xs.toChunks (n + 1), chunk.length = n + 1 := by
  induction k generalizing xs with
  | zero =>
      obtain rfl : xs = [] := List.eq_nil_of_length_eq_zero (by omega)
      exact ⟨rfl, List.forall_mem_nil _⟩
  | succ k ih =>
      rw [Nat.succ_mul] at size
      have present : xs ≠ [] := by
        rw [← List.length_pos_iff]
        omega
      have left : (xs.drop (n + 1)).length = k * (n + 1) := by
        rw [List.length_drop]
        omega
      obtain ⟨count, each⟩ := ih left
      rw [List.toChunks_eq present, List.length_cons, count]
      exact ⟨rfl, List.forall_mem_cons.mpr ⟨by rw [List.length_take]; omega, each⟩⟩

theorem flatten_toChunks (n : Nat) (xs : List α) : (xs.toChunks (n + 1)).flatten = xs := by
  induction size : xs.length using Nat.strong_induction_on generalizing xs with
  | _ length ih =>
      by_cases empty : xs = []
      · rw [empty]
        rfl
      · have present := List.length_pos_iff.mpr empty
        rw [toChunks_eq empty, List.flatten_cons,
          ih (xs.drop (n + 1)).length (by rw [List.length_drop]; omega) _ rfl,
          List.take_append_drop]

theorem toChunks_map (f : α → β) (n : Nat) (xs : List α) :
    (xs.map f).toChunks (n + 1) = (xs.toChunks (n + 1)).map (List.map f) := by
  induction size : xs.length using Nat.strong_induction_on generalizing xs with
  | _ length ih =>
      by_cases empty : xs = []
      · rw [empty]
        rfl
      · have present := List.length_pos_iff.mpr empty
        have mapped : xs.map f ≠ [] := by simpa using empty
        rw [toChunks_eq empty, toChunks_eq mapped, ← List.map_take, ← List.map_drop,
          ih (xs.drop (n + 1)).length (by rw [List.length_drop]; omega) _ rfl, List.map_cons]

theorem toChunks_append {n : Nat} {front : List α} (full : front.length = n + 1) (back : List α) :
    (front ++ back).toChunks (n + 1) = front :: back.toChunks (n + 1) := by
  have present : front ++ back ≠ [] := by
    rw [← List.length_pos_iff, List.length_append]
    omega
  rw [toChunks_eq present, ← full, List.take_left, List.drop_left]

theorem mapM_some {f : α → Option β} {xs : List α} {ys : List β}
    (all : xs.mapM f = some ys) : ∀ x ∈ xs, ∃ y, f x = some y := by
  induction xs generalizing ys with
  | nil => exact List.forall_mem_nil _
  | cons x rest ih =>
      rw [List.mapM_cons] at all
      obtain ⟨y, here, more⟩ := Option.bind_eq_some_iff.mp all
      obtain ⟨others, later, -⟩ := Option.bind_eq_some_iff.mp more
      exact List.forall_mem_cons.mpr ⟨⟨y, here⟩, ih later⟩

theorem mapM_congr {f g : α → Option β} {xs : List α} (same : ∀ x ∈ xs, f x = g x) :
    xs.mapM f = xs.mapM g := by
  induction xs with
  | nil => rfl
  | cons x rest ih =>
      obtain ⟨here, later⟩ := List.forall_mem_cons.mp same
      rw [List.mapM_cons, List.mapM_cons, here, ih later]

end List
