import RaemoteServer.Library.Text

/-! Reading bytes as UTF-8, strictly as `str::from_utf8` and with replacement characters as
`String::from_utf8_lossy`. -/

namespace Text

/-- The character encoded at the front. -/
def decodeFront (bytes : List UInt8) : Option Char := bytes.toByteArray.utf8DecodeChar? 0

theorem decodeFront_encode (c : Char) (rest : List UInt8) :
    decodeFront (String.utf8EncodeChar c ++ rest) = some c := by
  rw [decodeFront, List.toByteArray_append]
  exact ByteArray.utf8DecodeChar?_utf8EncodeChar_append

theorem decodeFront_some {bytes : List UInt8} {c : Char} (front : decodeFront bytes = some c) :
    ∃ rest, bytes = String.utf8EncodeChar c ++ rest := by
  obtain ⟨rest, shape⟩ := ByteArray.exists_of_utf8DecodeChar?_eq_some front
  refine ⟨rest.data.toList, ?_⟩
  have lists := congrArg (fun array => array.data.toList) shape
  simpa using lists

def isContinuation (byte : UInt8) : Bool := byte &&& 0xC0 == 0x80

/-- Second bytes that can follow the first byte of a longer character. -/
def mayFollow (first second : UInt8) : Bool :=
  if first == 0xE0 then 0xA0 ≤ second && second ≤ 0xBF
  else if first == 0xED then 0x80 ≤ second && second ≤ 0x9F
  else if first == 0xF0 then 0x90 ≤ second && second ≤ 0xBF
  else if first == 0xF4 then 0x80 ≤ second && second ≤ 0x8F
  else 0x80 ≤ second && second ≤ 0xBF

/-- How many bytes at the front make one error: as many as could start a character. -/
def invalidLength : List UInt8 → Nat
  | first :: second :: rest =>
      if 0xE0 ≤ first && first ≤ 0xEF then if mayFollow first second then 2 else 1
      else if 0xF0 ≤ first && first ≤ 0xF4 then
        if mayFollow first second then if rest.head?.any isContinuation then 3 else 2 else 1
      else 1
  | _ => 1

/-- What stands at the front, a character or an error, and how many bytes it takes. -/
def frontUnit (bytes : List UInt8) : Option Char × Nat :=
  match decodeFront bytes with
  | some c => (some c, c.utf8Size)
  | none => (none, invalidLength bytes)

/-- The characters and errors of a byte string. The first `skip` bytes belong to a unit that has
been read. -/
def units : Nat → List UInt8 → List (Option Char)
  | _, [] => []
  | skip + 1, _ :: rest => units skip rest
  | 0, byte :: rest =>
      let (unit, length) := frontUnit (byte :: rest)
      unit :: units (length - 1) rest

def replacement : Char := '\uFFFD'

/-- `String::from_utf8_lossy`. -/
def lossy (bytes : List UInt8) : Str := (units 0 bytes).map (·.getD replacement)

/-- `str::from_utf8`. -/
def fromUtf8 (bytes : List UInt8) : Option Str :=
  if ∀ unit ∈ units 0 bytes, unit.isSome then some (lossy bytes) else none

theorem units_skip (skip : Nat) (bytes : List UInt8) :
    units skip bytes = units 0 (bytes.drop skip) := by
  induction skip generalizing bytes with
  | zero => rfl
  | succ skip ih =>
      cases bytes with
      | nil => rfl
      | cons byte rest => exact ih rest

theorem units_encode (c : Char) (rest : List UInt8) :
    units 0 (String.utf8EncodeChar c ++ rest) = some c :: units 0 rest := by
  have length := String.length_utf8EncodeChar c
  cases shape : String.utf8EncodeChar c with
  | nil =>
      rw [shape] at length
      exact absurd length c.utf8Size_pos.ne
  | cons byte more =>
      have front := decodeFront_encode c rest
      rw [shape, List.cons_append] at front
      rw [shape, List.length_cons] at length
      have size : c.utf8Size - 1 = more.length := by omega
      rw [List.cons_append, units]
      simp only [frontUnit, front]
      rw [size, units_skip, List.drop_left]

theorem units_utf8 (s : Str) (rest : List UInt8) :
    units 0 (utf8 s ++ rest) = s.map some ++ units 0 rest := by
  induction s with
  | nil => rfl
  | cons c s ih =>
      have shape : utf8 (c :: s) ++ rest = String.utf8EncodeChar c ++ (utf8 s ++ rest) := by
        simp [utf8]
      rw [shape, units_encode, ih]
      rfl

/-- Text is decoded as it is, whatever bytes follow it. -/
theorem lossy_append (s : Str) (rest : List UInt8) : lossy (utf8 s ++ rest) = s ++ lossy rest := by
  rw [lossy, units_utf8, List.map_append, List.map_map]
  have same : (fun unit : Option Char => unit.getD replacement) ∘ some = id := rfl
  rw [same, List.map_id]
  rfl

theorem lossy_utf8 (s : Str) : lossy (utf8 s) = s := by
  have whole := lossy_append s []
  simpa [lossy, units] using whole

theorem lossy_encode (c : Char) (rest : List UInt8) :
    lossy (String.utf8EncodeChar c ++ rest) = c :: lossy rest := by
  rw [lossy, units_encode]
  rfl

/-- Bytes that hold no error are the encoding of what is read. -/
theorem utf8_lossy {bytes : List UInt8} (whole : ∀ unit ∈ units 0 bytes, unit.isSome) :
    utf8 (lossy bytes) = bytes := by
  induction size : bytes.length using Nat.strong_induction_on generalizing bytes with
  | _ n ih =>
      cases bytes with
      | nil => rfl
      | cons byte rest =>
          cases front : decodeFront (byte :: rest) with
          | none =>
              have error : none ∈ units 0 (byte :: rest) := by
                simp [units, frontUnit, front]
              cases whole none error
          | some c =>
              obtain ⟨others, shape⟩ := decodeFront_some front
              have shorter : others.length < n := by
                have lengths := congrArg List.length shape
                have positive := c.utf8Size_pos
                rw [List.length_append, String.length_utf8EncodeChar] at lengths
                omega
              rw [shape, units_encode] at whole
              have tail := ih _ shorter (fun unit member => whole unit (by simp [member])) rfl
              rw [shape, lossy_encode]
              exact congrArg (String.utf8EncodeChar c ++ ·) tail

theorem fromUtf8_eq_some {bytes : List UInt8} {s : Str} :
    fromUtf8 bytes = some s ↔ bytes = utf8 s := by
  rw [fromUtf8]
  constructor
  · intro read
    split at read
    · rename_i whole
      rw [← Option.some.inj read, utf8_lossy whole]
    · cases read
  · intro encoded
    have whole := units_utf8 s []
    rw [List.append_nil, ← encoded] at whole
    rw [if_pos (by simp [whole, units]), encoded, lossy_utf8]

/-- What follows an encoded prefix of some text encodes the rest of it. -/
theorem utf8_split {s front : Str} {rest : List UInt8} (whole : utf8 s = utf8 front ++ rest) :
    ∃ back, s = front ++ back ∧ rest = utf8 back := by
  have read := congrArg lossy whole
  rw [lossy_utf8, lossy_append] at read
  subst read
  rw [utf8_append] at whole
  exact ⟨lossy rest, rfl, (List.append_cancel_left whole).symm⟩

theorem firstByte_utf8 {byte : UInt8} {rest : List UInt8} {s : Str}
    (shape : utf8 s = byte :: rest) :
    byte.IsUTF8FirstByte := by
  cases s with
  | nil => cases shape
  | cons c s =>
      have positive : 0 < (String.utf8EncodeChar c).length := by
        rw [String.length_utf8EncodeChar]
        exact c.utf8Size_pos
      have front : utf8 (c :: s) = String.utf8EncodeChar c ++ utf8 s := rfl
      have same : (String.utf8EncodeChar c)[0] = byte := by
        have heads := congrArg (·[0]?) (front.symm.trans shape)
        simpa [List.getElem?_append_left positive, List.getElem?_eq_getElem positive] using heads
      rw [← same]
      exact UInt8.isUTF8FirstByte_getElem_utf8EncodeChar.mpr rfl

/-- A byte that is a character of its own occurs in no other character. -/
theorem mem_of_single {byte : UInt8} {d : Char} (single : String.utf8EncodeChar d = [byte])
    {s : Str}
    (inside : byte ∈ utf8 s) : d ∈ s := by
  obtain ⟨c, member, here⟩ := List.mem_flatMap.mp inside
  obtain ⟨i, bound, position⟩ := List.mem_iff_getElem.mp here
  have first : byte.IsUTF8FirstByte := by
    apply @firstByte_utf8 byte [] [d]
    simpa [utf8] using single
  rw [← position] at first
  obtain rfl := UInt8.isUTF8FirstByte_getElem_utf8EncodeChar.mp first
  cases shape : String.utf8EncodeChar c with
  | nil => simp [shape] at bound
  | cons head more =>
      have own := decodeFront_encode c []
      have other := decodeFront_encode d more
      simp only [shape, List.getElem_cons_zero] at position
      rw [single, List.singleton_append, ← position] at other
      rw [shape, List.append_nil, other] at own
      rwa [Option.some.inj own]

/-- What precedes an encoded suffix of some text encodes the rest of it. -/
theorem utf8_split_back {s back : Str} {front : List UInt8} (whole : utf8 s = front ++ utf8 back) :
    ∃ start, front = utf8 start ∧ s = start ++ back := by
  induction s generalizing front with
  | nil =>
      obtain ⟨rfl, none⟩ := List.append_eq_nil_iff.mp whole.symm
      exact ⟨[], rfl, (utf8_injective none).symm⟩
  | cons c s ih =>
      have cut : String.utf8EncodeChar c ++ utf8 s = front ++ utf8 back := whole
      rcases List.append_eq_append_iff.mp cut with ⟨more, rfl, rest⟩ | ⟨more, shape, rest⟩
      · obtain ⟨start, rfl, rfl⟩ := ih rest
        exact ⟨c :: start, rfl, rfl⟩
      · cases front with
        | nil =>
            exact ⟨[], rfl, utf8_injective whole⟩
        | cons byte front =>
            cases more with
            | nil =>
                rw [List.append_nil] at shape
                have same : s = back := utf8_injective rest.symm
                exact ⟨[c], by simp [utf8, shape], by rw [same]; rfl⟩
            | cons next more =>
                -- a byte inside a character starts no text
                have inside : (byte :: front).length < (String.utf8EncodeChar c).length := by
                  simp [shape]
                have first := firstByte_utf8 rest
                have here : (String.utf8EncodeChar c)[(byte :: front).length] = next := by
                  simp [shape]
                rw [← here] at first
                have zero := UInt8.isUTF8FirstByte_getElem_utf8EncodeChar.mp first
                cases zero

/-! A byte below 0x80 is a character of its own wherever it stands. -/

theorem decodeFront_append {byte : UInt8} {c : Char} (single : String.utf8EncodeChar c = [byte])
    (first : UInt8) (more rest : List UInt8) :
    decodeFront (first :: more ++ byte :: rest) = decodeFront (first :: more) := by
  cases front : decodeFront (first :: more) with
  | some d =>
      obtain ⟨others, shape⟩ := decodeFront_some front
      rw [shape, List.append_assoc, decodeFront_encode]
  | none =>
      cases whole : decodeFront (first :: more ++ byte :: rest) with
      | none => rfl
      | some d =>
          have alone (others : List UInt8) : first :: more ≠ String.utf8EncodeChar d ++ others := by
            intro shape
            rw [shape, decodeFront_encode] at front
            cases front
          obtain ⟨others, shape⟩ := decodeFront_some whole
          rcases List.append_eq_append_iff.mp shape with ⟨back, encoded, tail⟩ | ⟨back, shape, -⟩
          · cases back with
            | nil => exact (alone [] (by rw [encoded, List.append_nil, List.append_nil])).elim
            | cons next back =>
                obtain ⟨rfl, -⟩ := List.cons.inj tail
                have start : byte.IsUTF8FirstByte := by
                  apply @firstByte_utf8 byte [] [c]
                  simpa [utf8] using single
                have inside : (first :: more).length < (String.utf8EncodeChar d).length := by
                  simp [encoded]
                have here : (String.utf8EncodeChar d)[(first :: more).length] = byte := by
                  simp [encoded]
                rw [← here] at start
                cases UInt8.isUTF8FirstByte_getElem_utf8EncodeChar.mp start
          · exact (alone back shape).elim

theorem mayFollow_small (first : UInt8) {byte : UInt8} (small : byte < 0x80) :
    mayFollow first byte = false := by
  have low (bound : UInt8) (large : 0x80 ≤ bound) : decide (bound ≤ byte) = false := by
    rw [decide_eq_false_iff_not, UInt8.not_le]
    exact UInt8.lt_of_lt_of_le small large
  have e0 := low 0xA0 (by decide)
  have f0 := low 0x90 (by decide)
  have other := low 0x80 (by decide)
  simp only [mayFollow, e0, f0, other, Bool.false_and, ite_self]

theorem isContinuation_small {byte : UInt8} (small : byte < 0x80) :
    isContinuation byte = false := by
  have all : ∀ byte : UInt8, byte < 0x80 → isContinuation byte = false := by decide +kernel
  exact all byte small

theorem invalidLength_append {byte : UInt8} (small : byte < 0x80) (first : UInt8)
    (more rest : List UInt8) :
    invalidLength (first :: more ++ byte :: rest) = invalidLength (first :: more) := by
  cases more with
  | nil => simp [invalidLength, mayFollow_small first small]
  | cons second more =>
      cases more with
      | nil => simp [invalidLength, isContinuation_small small]
      | cons third more => rfl

theorem frontUnit_length_le (first : UInt8) (more : List UInt8) :
    (frontUnit (first :: more)).2 ≤ (first :: more).length := by
  rw [frontUnit]
  cases front : decodeFront (first :: more) with
  | some d =>
      obtain ⟨others, shape⟩ := decodeFront_some front
      rw [shape, List.length_append, String.length_utf8EncodeChar]
      exact Nat.le_add_right _ _
  | none =>
      cases more with
      | nil => exact le_refl 1
      | cons second more =>
          cases more with
          | nil => simp only [invalidLength, List.head?_nil]; grind
          | cons third more => simp only [invalidLength]; grind

theorem units_cons (first : UInt8) (more : List UInt8) :
    units 0 (first :: more) = (frontUnit (first :: more)).1 ::
      units ((frontUnit (first :: more)).2 - 1) more := rfl

theorem units_small {byte : UInt8} {c : Char} (single : String.utf8EncodeChar c = [byte])
    (small : byte < 0x80) {skip : Nat} {front : List UInt8} (inside : skip ≤ front.length)
    (rest : List UInt8) :
    units skip (front ++ byte :: rest) = units skip front ++ some c :: units 0 rest := by
  induction front generalizing skip with
  | nil =>
      obtain rfl := Nat.le_zero.mp inside
      have encoded := units_encode c rest
      rwa [single] at encoded
  | cons first more ih =>
      cases skip with
      | succ skip => exact ih (Nat.le_of_succ_le_succ inside)
      | zero =>
          have same : frontUnit (first :: more ++ byte :: rest) = frontUnit (first :: more) := by
            rw [frontUnit, decodeFront_append single, invalidLength_append small, frontUnit]
          have bound := frontUnit_length_le first more
          rw [List.length_cons] at bound
          rw [List.cons_append] at same
          rw [List.cons_append, units_cons, same, units_cons, ih (by omega), List.cons_append]

theorem lossy_small {byte : UInt8} {c : Char} (single : String.utf8EncodeChar c = [byte])
    (small : byte < 0x80) (front rest : List UInt8) :
    lossy (front ++ byte :: rest) = lossy front ++ c :: lossy rest := by
  rw [lossy, units_small single small (Nat.zero_le _), List.map_append]
  rfl

theorem mem_of_units {byte : UInt8} {c : Char} (single : String.utf8EncodeChar c = [byte])
    {skip : Nat} {bytes : List UInt8} (read : some c ∈ units skip bytes) : byte ∈ bytes := by
  induction bytes generalizing skip with
  | nil => cases skip <;> cases read
  | cons first more ih =>
      cases skip with
      | succ skip => exact List.mem_cons_of_mem _ (ih read)
      | zero =>
          rw [units_cons] at read
          rcases List.mem_cons.mp read with here | later
          · cases front : decodeFront (first :: more) with
            | none =>
                simp only [frontUnit, front] at here
                cases here
            | some d =>
                simp only [frontUnit, front] at here
                obtain rfl := Option.some.inj here
                obtain ⟨others, shape⟩ := decodeFront_some front
                rw [shape, single]
                exact List.mem_cons_self
          · exact List.mem_cons_of_mem _ (ih later)

theorem mem_of_lossy {byte : UInt8} {c : Char} (single : String.utf8EncodeChar c = [byte])
    (real : c ≠ replacement) {bytes : List UInt8} (read : c ∈ lossy bytes) : byte ∈ bytes := by
  obtain ⟨unit, member, same⟩ := List.mem_map.mp read
  cases unit with
  | none => exact absurd same.symm real
  | some d =>
      obtain rfl : d = c := same
      exact mem_of_units single member

/-! ASCII. -/

theorem utf8_ascii {c : Char} (ascii : c.toNat < 0x80) :
    String.utf8EncodeChar c = [UInt8.ofNat c.toNat] := by
  have size : c.utf8Size = 1 := by
    have low : c.val ≤ 0x7F := by
      rw [UInt32.le_iff_toNat_le]
      exact Nat.le_of_lt_succ ascii
    rw [Char.utf8Size]
    exact if_pos low
  rw [String.utf8EncodeChar_eq_singleton size]
  rfl

theorem utf8_map {s : Str} (ascii : ∀ c ∈ s, c.toNat < 0x80) :
    utf8 s = s.map (fun c => UInt8.ofNat c.toNat) := by
  induction s with
  | nil => rfl
  | cons c rest ih =>
      have tail := ih (fun d member => ascii d (List.mem_cons_of_mem _ member))
      rw [List.map_cons, ← tail, utf8, List.flatMap_cons, utf8_ascii (ascii c List.mem_cons_self)]
      rfl

theorem length_utf8_ascii {s : Str} (ascii : ∀ c ∈ s, c.toNat < 0x80) :
    (utf8 s).length = s.length := by
  rw [utf8_map ascii, List.length_map]

end Text
