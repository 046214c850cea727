import RaemoteServer.Library.Text

/-! Rust's unsigned integers and `bool` from their texts. -/

namespace Text

def parseDigits (s : Str) : Option Nat :=
  if s ≠ [] ∧ s.all Char.isDigit then some (Nat.ofDigitChars 10 s 0) else none

/-- A leading plus sign is allowed, and the value is below `size`. -/
def parseUnsigned (size : Nat) (s : Str) : Option Nat :=
  (parseDigits (if s.head? = some '+' then s.tail else s)).filter (· < size)

def parseU16 (s : Str) : Option UInt16 := (parseUnsigned UInt16.size s).map UInt16.ofNat
def parseU32 (s : Str) : Option UInt32 := (parseUnsigned UInt32.size s).map UInt32.ofNat
def parseU64 (s : Str) : Option UInt64 := (parseUnsigned UInt64.size s).map UInt64.ofNat

theorem parseUnsigned_decimal {size n : Nat} (small : n < size) :
    parseUnsigned size (decimal n) = some n := by
  have digits : ∀ c ∈ decimal n, c.isDigit = true := fun c => isDigit_of_mem_decimal
  have present : decimal n ≠ [] := Nat.toDigits_ne_nil
  have unsigned : (decimal n).head? ≠ some '+' := by
    intro plus
    exact absurd (digits '+' (List.mem_of_mem_head? plus)) (by decide)
  have parsed : parseDigits (decimal n) = some n := by
    rw [parseDigits, if_pos ⟨present, List.all_eq_true.mpr digits⟩]
    exact congrArg some Nat.ofDigitChars_ten_toDigits
  rw [parseUnsigned, if_neg unsigned, parsed]
  simp [Option.filter, small]

theorem parseU16_decimal (port : UInt16) : parseU16 (decimal port.toNat) = some port := by
  rw [parseU16, parseUnsigned_decimal port.toNat_lt]
  simp

theorem parseU32_decimal (n : UInt32) : parseU32 (decimal n.toNat) = some n := by
  rw [parseU32, parseUnsigned_decimal n.toNat_lt]
  simp

theorem parseU64_decimal (n : UInt64) : parseU64 (decimal n.toNat) = some n := by
  rw [parseU64, parseUnsigned_decimal n.toNat_lt]
  simp

/-- `char::to_digit(16)` -/
def hexDigit (c : Char) : Option Nat :=
  if c.isDigit then some (c.toNat - '0'.toNat)
  else if 'a' ≤ c ∧ c ≤ 'f' then some (c.toNat - 'a'.toNat + 10)
  else if 'A' ≤ c ∧ c ≤ 'F' then some (c.toNat - 'A'.toNat + 10)
  else none

def parseHexDigits (value : Nat) : Str → Option Nat
  | [] => some value
  | c :: rest => (hexDigit c).bind (fun digit => parseHexDigits (value * 16 + digit) rest)

theorem parseHexDigits_append (value : Nat) (front back : Str) :
    parseHexDigits value (front ++ back) =
      (parseHexDigits value front).bind (parseHexDigits · back) := by
  induction front generalizing value with
  | nil => rfl
  | cons c rest ih =>
      rw [List.cons_append, parseHexDigits, parseHexDigits]
      cases hexDigit c with
      | none => rfl
      | some digit => exact ih _

/-- `from_str_radix(_, 16)` of an unsigned integer below `size`. -/
def parseHex (size : Nat) (s : Str) : Option Nat :=
  let digits := if s.head? = some '+' then s.tail else s
  if digits = [] then none else (parseHexDigits 0 digits).filter (· < size)

example : parseHex UInt16.size "1F90".toList = some 8080 := by decide
example : parseHex UInt16.size "10000".toList = none := by decide

def parseBool (s : Str) : Option Bool :=
  if s = "true".toList then some true else if s = "false".toList then some false else none

def boolText (value : Bool) : Str := if value then "true".toList else "false".toList

theorem parseBool_text (value : Bool) : parseBool (boolText value) = some value := by
  cases value <;> rfl

example : parseU16 "+080".toList = some 80 := by decide
example : parseU16 "65536".toList = none := by decide

/-- `rsplit_once`: the parts before and after the last separator. -/
def rsplitOnce (separator : Char) (s : Str) : Option (Str × Str) :=
  match splitOnce separator s.reverse with
  | (_, none) => none
  | (back, some front) => some (front.reverse, back.reverse)

theorem rsplitOnce_append (separator : Char) (front back : Str) (absent : separator ∉ back) :
    rsplitOnce separator (front ++ separator :: back) = some (front, back) := by
  have reversed : (front ++ separator :: back).reverse =
      back.reverse ++ separator :: front.reverse := by
    simp
  rw [rsplitOnce, reversed, splitOnce_append separator _ _ (by simpa using absent)]
  simp

end Text
