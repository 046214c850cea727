import RaemoteServer.Library.Search
import RaemoteServer.Library.Text

/-! Slices of byte strings and of `str`, which fail out of range, and within a character. -/

namespace Text

/-! Byte strings. -/

section

variable {α : Type}

/-- `&list[start..]` -/
def listFrom (start : Nat) (list : List α) : Option (List α) :=
  if start ≤ list.length then some (list.drop start) else none

/-- `&list[..stop]` -/
def listTo (stop : Nat) (list : List α) : Option (List α) :=
  if stop ≤ list.length then some (list.take stop) else none

/-- `&list[start..stop]` -/
def listSlice (start stop : Nat) (list : List α) : Option (List α) :=
  if start ≤ stop then (listTo stop list).bind (listFrom start) else none

theorem listFrom_some {start : Nat} {list : List α} (inside : start ≤ list.length) :
    listFrom start list = some (list.drop start) := if_pos inside

theorem listTo_some {stop : Nat} {list : List α} (inside : stop ≤ list.length) :
    listTo stop list = some (list.take stop) := if_pos inside

theorem listSlice_some {start stop : Nat} {list : List α} (ordered : start ≤ stop)
    (inside : stop ≤ list.length) :
    listSlice start stop list = some ((list.take stop).drop start) := by
  rw [listSlice, if_pos ordered, listTo_some inside, Option.bind_some, listFrom_some]
  rwa [List.length_take_of_le inside]

end

/-! Strings, by byte offsets. -/

/-- `str::len` -/
def byteLen : Str → Nat
  | [] => 0
  | c :: rest => c.utf8Size + byteLen rest

@[simp] theorem byteLen_nil : byteLen [] = 0 := rfl

@[simp] theorem byteLen_cons (c : Char) (rest : Str) :
    byteLen (c :: rest) = c.utf8Size + byteLen rest := rfl

@[simp] theorem byteLen_append (front back : Str) :
    byteLen (front ++ back) = byteLen front + byteLen back := by
  induction front with
  | nil => simp
  | cons c rest ih => simp [ih, Nat.add_assoc]

/-- `str::split_at` -/
def splitBytes : Nat → Str → Option (Str × Str)
  | 0, s => some ([], s)
  | _ + 1, [] => none
  | n + 1, c :: rest =>
      if c.utf8Size ≤ n + 1 then
        (splitBytes (n + 1 - c.utf8Size) rest).map (fun (front, back) => (c :: front, back))
      else none

/-- `&s[start..]` -/
def strFrom (start : Nat) (s : Str) : Option Str := (splitBytes start s).map Prod.snd

/-- `&s[..stop]` -/
def strTo (stop : Nat) (s : Str) : Option Str := (splitBytes stop s).map Prod.fst

/-- `&s[start..stop]` -/
def strSlice (start stop : Nat) (s : Str) : Option Str :=
  if start ≤ stop then (strTo stop s).bind (strFrom start) else none

theorem splitBytes_append (front back : Str) :
    splitBytes (byteLen front) (front ++ back) = some (front, back) := by
  induction front with
  | nil => cases back <;> rfl
  | cons c rest ih =>
      have positive := c.utf8Size_pos
      obtain ⟨n, shape⟩ : ∃ n, byteLen (c :: rest) = n + 1 :=
        Nat.exists_eq_add_one.mpr (by rw [byteLen_cons]; omega)
      have left : n + 1 - c.utf8Size = byteLen rest := by
        rw [← shape, byteLen_cons, Nat.add_sub_cancel_left]
      rw [shape, List.cons_append, splitBytes, left, ih, if_pos]
      · rfl
      · rw [← shape, byteLen_cons]
        exact Nat.le_add_right _ _

theorem strFrom_append (front back : Str) :
    strFrom (byteLen front) (front ++ back) = some back := by
  rw [strFrom, splitBytes_append]
  rfl

theorem strTo_append (front back : Str) : strTo (byteLen front) (front ++ back) = some front := by
  rw [strTo, splitBytes_append]
  rfl

theorem strSlice_append (front middle back : Str) :
    strSlice (byteLen front) (byteLen front + byteLen middle) (front ++ (middle ++ back)) =
      some middle := by
  rw [strSlice, if_pos (Nat.le_add_right _ _), ← List.append_assoc, ← byteLen_append,
    strTo_append, Option.bind_some, strFrom_append]

/-! Searching. -/

/-- `str::find` -/
def findStr (needle s : Str) : Option Nat :=
  if needle = [] then some 0
  else (Search.position needle s).map (fun i => byteLen (s.take i))

theorem findStr_none {needle s : Str} (present : needle ≠ []) (absent : findStr needle s = none) :
    ∀ j, ¬ needle <+: s.drop j := by
  rw [findStr, if_neg present, Option.map_eq_none_iff] at absent
  exact (Search.position_eq_none present).mp absent

/-- What is found stands at a boundary, behind a part in which it does not begin. -/
theorem findStr_some {needle s : Str} {offset : Nat} (present : needle ≠ [])
    (found : findStr needle s = some offset) :
    ∃ front back, s = front ++ back ∧ offset = byteLen front ∧ needle <+: back ∧
      ∀ j < front.length, ¬ needle <+: s.drop j := by
  rw [findStr, if_neg present] at found
  obtain ⟨i, first, rfl⟩ := Option.map_eq_some_iff.mp found
  obtain ⟨here, before⟩ := (Search.position_eq_some present).mp first
  refine ⟨s.take i, s.drop i, (List.take_append_drop i s).symm, rfl, here, ?_⟩
  intro j below
  exact before j (Nat.lt_of_lt_of_le below (List.length_take_le i s))

/-! Lower-case forms of ASCII letters. -/

theorem ascii_of_isUpper {c : Char} (upper : c.isUpper = true) : c.toNat < 0x80 := by
  have most : c.toNat ≤ 'Z'.toNat := (of_decide_eq_true upper).2
  exact Nat.lt_of_le_of_lt most (by decide)

/-- What holds of the ASCII characters that change holds of all. -/
theorem toLower_induction {P : Char → Char → Prop} (same : ∀ c, P c c)
    (ascii : ∀ n < 0x80, P (Char.ofNat n).toLower (Char.ofNat n)) (c : Char) : P c.toLower c := by
  by_cases upper : c.isUpper = true
  · have own := ascii c.toNat (ascii_of_isUpper upper)
    rwa [Char.ofNat_toNat] at own
  · rw [Char.toLower_eq_of_not_isUpper upper]
    exact same c

theorem utf8Size_toLower (c : Char) : c.toLower.utf8Size = c.utf8Size :=
  toLower_induction (P := fun lower c => lower.utf8Size = c.utf8Size) (fun _ => rfl)
    (by decide +kernel) c

theorem isWhitespace_toLower (c : Char) : isWhitespace c.toLower = isWhitespace c :=
  toLower_induction (P := fun lower c => isWhitespace lower = isWhitespace c) (fun _ => rfl)
    (by decide +kernel) c

theorem byteLen_lower (s : Str) : byteLen (s.map Char.toLower) = byteLen s := by
  induction s with
  | nil => rfl
  | cons c rest ih => rw [List.map_cons, byteLen_cons, byteLen_cons, utf8Size_toLower, ih]

end Text
