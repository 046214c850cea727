import RaemoteServer.Library.Text

/-! Heads of HTTP/1.1 messages: their lines, and a request head read back from its text. -/

namespace HttpHead

open Text

/-- `str::split("\r\n")` -/
def crlfLines : Str → List Str
  | [] => [[]]
  | '\r' :: '\n' :: rest => [] :: crlfLines rest
  | c :: rest =>
      match crlfLines rest with
      | [] => [[c]]
      | line :: more => (c :: line) :: more

/-- Carriage returns that end lines, and no others. -/
theorem crlfLines_append {line : Str} (plain : '\r' ∉ line) (rest : Str) :
    crlfLines (line ++ '\r' :: '\n' :: rest) = line :: crlfLines rest := by
  induction line with
  | nil => simp [crlfLines]
  | cons c line ih =>
      rw [List.mem_cons, not_or] at plain
      rw [List.cons_append, crlfLines, ih plain.2]
      intro _ same
      exact absurd same.symm plain.1

def isBlank (c : Char) : Bool := c == ' ' || c == '\t'

/-- The white space around a field's value does not belong to it. -/
def trimBlank (s : Str) : Str := ((s.dropWhile isBlank).reverse.dropWhile isBlank).reverse

/-- No white space at either end. -/
structure Trimmed (s : Str) : Prop where
  front : ∀ c ∈ s.head?, isBlank c = false
  back : ∀ c ∈ s.getLast?, isBlank c = false

theorem dropWhile_head {s : Str} (front : ∀ c ∈ s.head?, isBlank c = false) :
    s.dropWhile isBlank = s := by
  cases s with
  | nil => rfl
  | cons c rest => exact List.dropWhile_cons_of_neg (by simp [front c rfl])

theorem trimBlank_trimmed {s : Str} (trimmed : Trimmed s) : trimBlank s = s := by
  have back : s.reverse.dropWhile isBlank = s.reverse := by
    apply dropWhile_head
    rw [List.head?_reverse]
    exact trimmed.back
  rw [trimBlank, dropWhile_head trimmed.front, back, List.reverse_reverse]

/-! A request head. -/

structure RequestHead where
  method : Str
  target : Str
  fields : List (Str × Str)

def fieldText (field : Str × Str) : Str := field.1 ++ ": ".toList ++ field.2 ++ "\r\n".toList

def RequestHead.text (head : RequestHead) : Str :=
  head.method ++ ' ' :: head.target ++ " HTTP/1.1\r\n".toList ++
    head.fields.flatMap fieldText ++ "\r\n".toList

def readRequestLine (line : Str) : Option (Str × Str) :=
  match splitOnce ' ' line with
  | (method, some rest) =>
      match splitOnce ' ' rest with
      | (target, some version) =>
          if version = "HTTP/1.1".toList then some (method, target) else none
      | (_, none) => none
  | (_, none) => none

/-- Names of fields are case-insensitive. -/
def readField (line : Str) : Option (Str × Str) :=
  match splitOnce ':' line with
  | (name, some value) => some (name.map Char.toLower, trimBlank value)
  | (_, none) => none

/-- The fields end at the empty line. -/
def readFields : List Str → Option (List (Str × Str))
  | [] => none
  | line :: rest =>
      if line = [] then some []
      else do
        let field ← readField line
        let fields ← readFields rest
        some (field :: fields)

def readHead (text : Str) : Option RequestHead :=
  match crlfLines text with
  | [] => none
  | first :: rest => do
      let (method, target) ← readRequestLine first
      let fields ← readFields rest
      some ⟨method, target, fields⟩

/-- A part of a head that does not end its line. -/
def Unbroken (s : Str) : Prop := '\r' ∉ s

/-- A head that can be told apart into its parts. -/
structure RequestHead.WellFormed (head : RequestHead) : Prop where
  method : ' ' ∉ head.method ∧ Unbroken head.method
  target : ' ' ∉ head.target ∧ Unbroken head.target
  names : ∀ field ∈ head.fields, ':' ∉ field.1 ∧ Unbroken field.1
  values : ∀ field ∈ head.fields, Trimmed field.2 ∧ Unbroken field.2

theorem readField_text {field : Str × Str} (name : ':' ∉ field.1) (value : Trimmed field.2) :
    readField (field.1 ++ ": ".toList ++ field.2) = some (field.1.map Char.toLower, field.2) := by
  have shape : field.1 ++ ": ".toList ++ field.2 = field.1 ++ ':' :: ' ' :: field.2 := by simp
  have blank : trimBlank (' ' :: field.2) = trimBlank field.2 := by
    rw [trimBlank, List.dropWhile_cons_of_pos (by rfl)]
    rfl
  rw [shape, readField, splitOnce_append ':' _ _ name]
  dsimp only
  rw [blank, trimBlank_trimmed value]

theorem readFields_text {fields : List (Str × Str)}
    (names : ∀ field ∈ fields, ':' ∉ field.1 ∧ Unbroken field.1)
    (values : ∀ field ∈ fields, Trimmed field.2 ∧ Unbroken field.2) :
    readFields (crlfLines (fields.flatMap fieldText ++ "\r\n".toList)) =
      some (fields.map (fun field => (field.1.map Char.toLower, field.2))) := by
  induction fields with
  | nil => simp [crlfLines, readFields]
  | cons field rest ih =>
      obtain ⟨name, names⟩ := List.forall_mem_cons.mp names
      obtain ⟨value, values⟩ := List.forall_mem_cons.mp values
      have shape : (field :: rest).flatMap fieldText ++ "\r\n".toList =
          (field.1 ++ ": ".toList ++ field.2) ++ '\r' :: '\n' ::
            (rest.flatMap fieldText ++ "\r\n".toList) := by
        simp [fieldText]
      have plain : '\r' ∉ field.1 ++ ": ".toList ++ field.2 := by
        simp only [List.mem_append, not_or]
        exact ⟨⟨name.2, by decide⟩, value.2⟩
      have present : field.1 ++ ": ".toList ++ field.2 ≠ [] := by simp
      rw [shape, crlfLines_append plain, readFields, if_neg present,
        readField_text name.1 value.1, ih names values]
      rfl

/-- A well-formed head is read back from its text, with its names in lower case. -/
theorem readHead_text {head : RequestHead} (formed : head.WellFormed) :
    readHead head.text = some { head with
      fields := head.fields.map (fun field => (field.1.map Char.toLower, field.2)) } := by
  have shape : head.text = (head.method ++ ' ' :: (head.target ++ ' ' :: "HTTP/1.1".toList)) ++
      '\r' :: '\n' :: (head.fields.flatMap fieldText ++ "\r\n".toList) := by
    simp [RequestHead.text]
  have plain : '\r' ∉ head.method ++ ' ' :: (head.target ++ ' ' :: "HTTP/1.1".toList) := by
    simp only [List.mem_append, List.mem_cons, not_or]
    exact ⟨formed.method.2, by decide, formed.target.2, by decide, by decide⟩
  have line : readRequestLine (head.method ++ ' ' :: (head.target ++ ' ' :: "HTTP/1.1".toList)) =
      some (head.method, head.target) := by
    simp only [readRequestLine, splitOnce_append ' ' _ _ formed.method.1,
      splitOnce_append ' ' _ _ formed.target.1, if_true]
  rw [readHead, shape, crlfLines_append plain]
  simp only [line, readFields_text formed.names formed.values]
  rfl

end HttpHead
