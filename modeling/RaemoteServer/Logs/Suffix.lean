import RaemoteServer.Logs.Tail

/-! What `tail_lines` returns, against the lines of the file. -/

namespace RaemoteServer.Logs

open Text Collections

/-- `tail_lines` of a file that keeps these bytes during the call. -/
def tailOf (bytes : List UInt8) (lines : Nat) : List Str :=
  tailLines bytes (bytes.length - tailWindow) lines

/-! The lines of a file, by its bytes: a newline ends one, and a carriage return in front of it is
not of the line. -/

def stripReturn (line : List UInt8) : List UInt8 :=
  if line.getLast? = some 0x0D then line.dropLast else line

def endedLines : List (List UInt8) → List (List UInt8)
  | [] => []
  | [last] => if last = [] then [] else [last]
  | line :: rest => stripReturn line :: endedLines rest

def byteLines (bytes : List UInt8) : List (List UInt8) := endedLines (bytes.splitOn 0x0A)

/-- Each of them decoded by itself. -/
def fileLines (bytes : List UInt8) : List Str :=
  (byteLines bytes).map (fun line => stripAnsi (lossy line))

/-! Decoding the whole file decodes each line. -/

theorem return_single : String.utf8EncodeChar '\r' = [0x0D] := by decide +kernel

theorem lossy_eq_nil {bytes : List UInt8} : lossy bytes = [] ↔ bytes = [] := by
  constructor
  · intro empty
    cases bytes with
    | nil => rfl
    | cons first more =>
        rw [lossy, units_cons] at empty
        cases empty
  · rintro rfl
    rfl

theorem lossy_splitOn (bytes : List UInt8) :
    (lossy bytes).splitOn '\n' = (bytes.splitOn 0x0A).map lossy := by
  by_cases broken : 0x0A ∈ bytes
  · obtain ⟨front, back, shape, absent⟩ := List.eq_append_cons_of_mem broken
    have single : '\n' ∉ lossy front := fun inside =>
      absent (mem_of_lossy newline_single (by decide) inside)
    have shorter : back.length < bytes.length := by
      rw [shape, List.length_append, List.length_cons]
      omega
    rw [shape, lossy_small newline_single (by decide), List.splitOn_append_cons_self,
      List.splitOn_append_cons_self, List.splitOn_eq_singleton single,
      List.splitOn_eq_singleton absent, lossy_splitOn back, List.map_append]
    rfl
  · have single : '\n' ∉ lossy bytes := fun inside =>
      broken (mem_of_lossy newline_single (by decide) inside)
    rw [List.splitOn_eq_singleton single, List.splitOn_eq_singleton broken]
    rfl
termination_by bytes.length

/-- A carriage return read at the end stands there. -/
theorem getLast_lossy {bytes : List UInt8} (read : (lossy bytes).getLast? = some '\r') :
    bytes.getLast? = some 0x0D := by
  have inside : 0x0D ∈ bytes :=
    mem_of_lossy return_single (by decide) (List.mem_of_getLast? read)
  obtain ⟨front, back, shape, -⟩ := List.eq_append_cons_of_mem inside
  have shorter : back.length < bytes.length := by
    rw [shape, List.length_append, List.length_cons]
    omega
  rw [shape, lossy_small return_single (by decide)] at read
  rw [shape]
  cases back with
  | nil => simp
  | cons next more =>
      have present : lossy (next :: more) ≠ [] := fun empty => nomatch lossy_eq_nil.mp empty
      rw [List.getLast?_append_cons, List.getLast?_cons_of_ne_nil present] at read
      rw [List.getLast?_append_cons, List.getLast?_cons_cons]
      exact getLast_lossy read
termination_by bytes.length

theorem lossy_stripReturn (line : List UInt8) :
    lossy (stripReturn line) = stripCarriageReturn (lossy line) := by
  by_cases ended : line.getLast? = some 0x0D
  · obtain ⟨front, rfl⟩ := List.getLast?_eq_some_iff.mp ended
    have decoded : lossy (front ++ [0x0D]) = lossy front ++ ['\r'] :=
      lossy_small return_single (by decide) front []
    simp [stripReturn, stripCarriageReturn, decoded]
  · have other : (lossy line).getLast? ≠ some '\r' := fun read => ended (getLast_lossy read)
    rw [stripReturn, if_neg ended, stripCarriageReturn, if_neg other]

theorem linesFrom_lossy (pieces : List (List UInt8)) :
    linesFrom (pieces.map lossy) = (endedLines pieces).map lossy := by
  induction pieces with
  | nil => rfl
  | cons line rest ih =>
      cases rest with
      | nil =>
          by_cases empty : line = []
          · simp [linesFrom, endedLines, empty, lossy, units]
          · simp [linesFrom, endedLines, empty, lossy_eq_nil]
      | cons next more =>
          have front : linesFrom ([lossy line] ++ (next :: more).map lossy) =
              [stripCarriageReturn (lossy line)] ++ linesFrom ((next :: more).map lossy) :=
            linesFrom_append _ (List.cons_ne_nil _ _)
          rw [ih, ← lossy_stripReturn] at front
          exact front

theorem lines_lossy (bytes : List UInt8) :
    Text.lines (lossy bytes) = (byteLines bytes).map lossy := by
  rw [Text.lines, lossy_splitOn, linesFrom_lossy, byteLines]

theorem map_lines (bytes : List UInt8) :
    (Text.lines (lossy bytes)).map stripAnsi = fileLines bytes := by
  rw [lines_lossy, List.map_map]
  rfl

/-! The suffix. -/

theorem lastN_suffix {α : Type} (n : Nat) (list : List α) : lastN n list <:+ list :=
  List.drop_suffix _ _

theorem length_lastN {α : Type} (n : Nat) (list : List α) :
    (lastN n list).length = min n list.length := by
  rw [lastN, List.length_drop]
  omega

/-- Where it is read from its middle on, the lines of the file behind the first newline there are
left. -/
theorem lines_window (bytes : List UInt8) (start : Nat) :
    (Text.lines (lossy (bytes.drop start))).drop 1 <:+ Text.lines (lossy bytes) := by
  by_cases broken : 0x0A ∈ bytes.drop start
  · obtain ⟨front, back, shape, absent⟩ := List.eq_append_cons_of_mem broken
    obtain ⟨first, window, one⟩ := lines_behind front back
    obtain ⟨before, whole, -⟩ := lines_behind (bytes.take start ++ front) back
    rw [List.append_assoc, ← shape, List.take_append_drop] at whole
    rw [shape, window, whole, ← one absent, List.drop_left]
    exact List.suffix_append before _
  · have few := lines_unbroken broken
    rw [List.drop_eq_nil_of_le few]
    exact List.nil_suffix

theorem tailLines_suffix (bytes : List UInt8) (start lines : Nat) :
    tailLines bytes start lines <:+ fileLines bytes := by
  rw [← map_lines, tailLines]
  apply List.IsSuffix.map
  split
  · exact (lastN_suffix _ _).trans (lines_window bytes start)
  case isFalse atStart =>
    obtain rfl : start = 0 := by omega
    exact lastN_suffix _ _

theorem tailLines_length (bytes : List UInt8) (start lines : Nat) :
    (tailLines bytes start lines).length ≤ lines := by
  rw [tailLines, List.length_map, length_lastN]
  exact Nat.min_le_left _ _

/-- Whole lines from the end of the file, as many as are asked for at most, and exactly so many as
there are when the window holds the file. -/
theorem tail_true_suffix (bytes : List UInt8) (lines : Nat) :
    tailOf bytes lines <:+ fileLines bytes ∧
      (tailOf bytes lines).length ≤ lines ∧
      (bytes.length ≤ tailWindow →
        tailOf bytes lines = lastN lines (fileLines bytes) ∧
          (tailOf bytes lines).length = min lines (fileLines bytes).length) := by
  refine ⟨tailLines_suffix _ _ _, tailLines_length _ _ _, ?_⟩
  intro small
  have fromStart : bytes.length - tailWindow = 0 := by omega
  have all : tailOf bytes lines = lastN lines (fileLines bytes) := by
    rw [tailOf, fromStart, tailLines_eq (Or.inl rfl), lastLines, ← map_lines, lastN, lastN,
      List.map_drop, List.length_map]
  exact ⟨all, by rw [all, length_lastN]⟩

end RaemoteServer.Logs
