import RaemoteServer.Logs.Tail

/-! What `strip_ansi` leaves of a text: its two loops on one iterator, and the text between the
sequences. -/

namespace RaemoteServer.Logs

open Text

/-- The inner loop, which takes characters up to a final one. -/
def takeCsi : Str → Str
  | [] => []
  | next :: rest => if isFinal next then rest else takeCsi rest

theorem takeCsi_length (s : Str) : (takeCsi s).length ≤ s.length := by
  induction s with
  | nil => exact Nat.le_refl 0
  | cons next rest ih =>
      rw [takeCsi, List.length_cons]
      split <;> omega

/-- The outer loop, on what the iterator still has. -/
def stripLoop : Str → Str
  | [] => []
  | ch :: rest =>
      if ch ≠ esc then ch :: stripLoop rest
      else if rest.head? = some '[' then stripLoop (takeCsi rest.tail)
      else stripLoop rest
termination_by s => s.length
decreasing_by
  all_goals
    have inner := takeCsi_length rest.tail
    simp only [List.length_cons, List.length_tail] at inner ⊢
    omega

/-! Character by character. -/

theorem strip_plain {c : Char} (plain : c ≠ esc) (rest : Str) :
    stripAnsi (c :: rest) = c :: stripAnsi rest := by
  simp only [stripAnsi, stripFrom, if_neg plain]

theorem strip_escape {rest : Str} (other : rest.head? ≠ some '[') :
    stripAnsi (esc :: rest) = stripAnsi rest := by
  have ended : Escape.begun.continues rest = false := by
    simpa [Escape.continues] using other
  have begun : stripAnsi (esc :: rest) = stripFrom .begun rest := by
    simp only [stripAnsi, stripFrom, if_true]
  rw [begun, stripFrom_outside ended]

theorem strip_bracket (rest : Str) : stripAnsi (esc :: '[' :: rest) = stripAnsi (takeCsi rest) := by
  have begun : stripAnsi (esc :: '[' :: rest) = stripFrom .csi rest := by
    simp only [stripAnsi, stripFrom, if_true]
  rw [begun]
  induction rest with
  | nil => rfl
  | cons next rest ih =>
      rw [stripFrom, takeCsi]
      split
      · rfl
      · exact ih (by simp only [stripAnsi, stripFrom, if_true])

theorem stripLoop_eq (input : Str) : stripLoop input = stripAnsi input := by
  induction input using stripLoop.induct with
  | case1 =>
      rw [stripLoop]
      rfl
  | case2 ch rest plain ih => rw [stripLoop, if_pos plain, ih, strip_plain plain]
  | case3 ch rest escape bracket ih =>
      obtain rfl := not_not.mp escape
      obtain ⟨params, rfl⟩ := List.head?_eq_some_iff.mp bracket
      rw [stripLoop, if_neg escape, if_pos bracket, ih, strip_bracket, List.tail_cons]
  | case4 ch rest escape other ih =>
      obtain rfl := not_not.mp escape
      rw [stripLoop, if_neg escape, if_neg other, ih, strip_escape other]

/-! A text with sequences in it. -/

/-- A well-formed CSI sequence, by what stands behind its bracket. -/
structure Csi where
  params : Str
  unended : ∀ c ∈ params, isFinal c = false
  final : Char
  ends : isFinal final = true

def Csi.text (csi : Csi) : Str := esc :: '[' :: (csi.params ++ [csi.final])

inductive Segment where
  | text (content : Str) (free : esc ∉ content)
  | csi (sequence : Csi)

def Segment.written : Segment → Str
  | .text content _ => content
  | .csi sequence => sequence.text

def Segment.shown : Segment → Str
  | .text content _ => content
  | .csi _ => []

theorem takeCsi_params {params : Str} (unended : ∀ c ∈ params, isFinal c = false) {final : Char}
    (ends : isFinal final = true) (back : Str) : takeCsi (params ++ final :: back) = back := by
  induction params with
  | nil => rw [List.nil_append, takeCsi, if_pos ends]
  | cons c rest ih =>
      have first : ¬ isFinal c = true := Bool.eq_false_iff.mp (unended c List.mem_cons_self)
      rw [List.cons_append, takeCsi, if_neg first]
      exact ih (fun d member => unended d (List.mem_cons_of_mem _ member))

theorem strip_csi (csi : Csi) (back : Str) : stripAnsi (csi.text ++ back) = stripAnsi back := by
  have shape : csi.text ++ back = esc :: '[' :: (csi.params ++ csi.final :: back) := by
    simp [Csi.text]
  rw [shape, strip_bracket, takeCsi_params csi.unended csi.ends]

theorem strip_free {text : Str} (free : esc ∉ text) (back : Str) :
    stripAnsi (text ++ back) = text ++ stripAnsi back := by
  induction text with
  | nil => rfl
  | cons c rest ih =>
      rw [List.mem_cons, not_or] at free
      rw [List.cons_append, strip_plain (Ne.symm free.1), ih free.2, List.cons_append]

theorem strip_segments (segments : List Segment) :
    stripAnsi (segments.flatMap Segment.written) = segments.flatMap Segment.shown := by
  induction segments with
  | nil => rfl
  | cons segment rest ih =>
      rw [List.flatMap_cons, List.flatMap_cons, ← ih]
      cases segment with
      | text content free => exact strip_free free _
      | csi sequence => exact strip_csi sequence _

theorem esc_not_mem_strip (mode : Escape) (input : Str) : esc ∉ stripFrom mode input := by
  induction input generalizing mode with
  | nil => cases mode <;> exact List.not_mem_nil
  | cons c rest ih =>
      cases mode with
      | outside =>
          rw [stripFrom]
          split
          · exact ih .begun
          case isFalse plain =>
              exact List.not_mem_cons_of_ne_of_not_mem (Ne.symm plain) (ih .outside)
      | begun =>
          rw [stripFrom]
          split
          · exact ih .csi
          split
          · exact ih .begun
          case isFalse plain =>
              exact List.not_mem_cons_of_ne_of_not_mem (Ne.symm plain) (ih .outside)
      | csi =>
          rw [stripFrom]
          split
          · exact ih .outside
          · exact ih .csi

theorem strip_stripped (input : Str) : stripAnsi (stripAnsi input) = stripAnsi input := by
  have same := strip_free (esc_not_mem_strip .outside input) []
  rw [List.append_nil] at same
  calc
    _ = stripAnsi input ++ stripAnsi [] := same
    _ = stripAnsi input := List.append_nil _

/-- The two loops take exactly the sequences out of a text, and of any text no escape is left. -/
theorem ansi_stripped :
    (∀ input, stripLoop input = stripAnsi input) ∧
    (∀ segments : List Segment,
      stripAnsi (segments.flatMap Segment.written) = segments.flatMap Segment.shown) ∧
    ∀ input, esc ∉ stripAnsi input ∧ stripAnsi (stripAnsi input) = stripAnsi input :=
  ⟨stripLoop_eq, strip_segments, fun input => ⟨esc_not_mem_strip .outside input,
    strip_stripped input⟩⟩

example : stripAnsi "a\x1b[3mid\x1b[0m\x1b[2m=\x1b[0mb".toList = "aid=b".toList := by decide

end RaemoteServer.Logs
