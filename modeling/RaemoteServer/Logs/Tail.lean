import RaemoteServer.Library.Collections
import RaemoteServer.Library.Utf8

/-! The daemon's log files: which one is the newest, its last lines, and what is removed of
them. -/

namespace RaemoteServer.Logs

open Text Collections

/-- The bytes of an `OsString`. -/
abbrev Name := List UInt8

/-- What the data directory holds, with the contents of the files. -/
abbrev Directory := HashMap Name (List UInt8)

def logPrefix : Str := "raemoted.".toList

def logSuffix : Str := ".log".toList

def tailWindow : Nat := 256 * 1024

def isLogFile (name : Name) : Bool :=
  match fromUtf8 name with
  | some s => logPrefix.isPrefixOf s && logSuffix.isSuffixOf s
  | none => false

/-- One turn of the loop over the directory. -/
def newer (best : Option Name) (name : Name) : Option Name :=
  if isLogFile name then
    match best with
    | some current => if current < name then some name else best
    | none => some name
  else best

def latestLogFile (files : Directory) : Option Name := files.keys.foldl newer none

/-! What `strip_ansi` has read of an escape sequence. -/

inductive Escape where
  | outside
  /-- Behind an ESC. -/
  | begun
  /-- Behind the bracket of a CSI sequence. -/
  | csi
  deriving DecidableEq

def esc : Char := '\x1b'

/-- The byte that ends a CSI sequence is in `'@'..='~'`. -/
def isFinal (c : Char) : Bool := '@' ≤ c && c ≤ '~'

def stripFrom : Escape → Str → Str
  | _, [] => []
  | .csi, c :: rest => if isFinal c then stripFrom .outside rest else stripFrom .csi rest
  | .begun, c :: rest =>
      if c = '[' then stripFrom .csi rest
      else if c = esc then stripFrom .begun rest
      else c :: stripFrom .outside rest
  | .outside, c :: rest =>
      if c = esc then stripFrom .begun rest else c :: stripFrom .outside rest

def stripAnsi (input : Str) : Str := stripFrom .outside input

def escapeAfter : Escape → Str → Escape
  | mode, [] => mode
  | .csi, c :: rest => if isFinal c then escapeAfter .outside rest else escapeAfter .csi rest
  | .begun, c :: rest =>
      if c = '[' then escapeAfter .csi rest
      else if c = esc then escapeAfter .begun rest
      else escapeAfter .outside rest
  | .outside, c :: rest =>
      if c = esc then escapeAfter .begun rest else escapeAfter .outside rest

/-- Whether the text goes on with the sequence. -/
def Escape.continues : Escape → Str → Bool
  | .outside, _ => false
  | .begun, next => next.head? == some '['
  | .csi, _ => true

theorem stripFrom_append (mode : Escape) (front back : Str) :
    stripFrom mode (front ++ back) =
      stripFrom mode front ++ stripFrom (escapeAfter mode front) back := by
  induction front generalizing mode with
  | nil => cases mode <;> rfl
  | cons c rest ih =>
      cases mode with
      | outside =>
          simp only [List.cons_append, stripFrom, escapeAfter]
          split
          · exact ih .begun
          · rw [ih, List.cons_append]
      | begun =>
          simp only [List.cons_append, stripFrom, escapeAfter]
          split
          · exact ih .csi
          · split
            · exact ih .begun
            · rw [ih, List.cons_append]
      | csi =>
          simp only [List.cons_append, stripFrom, escapeAfter]
          split
          · exact ih .outside
          · exact ih .csi

theorem stripFrom_outside {mode : Escape} {next : Str} (ended : mode.continues next = false) :
    stripFrom mode next = stripAnsi next := by
  cases mode with
  | outside => rfl
  | csi => cases ended
  | begun =>
      cases next with
      | nil => rfl
      | cons c rest =>
          have other : c ≠ '[' := by simpa [Escape.continues] using ended
          simp only [stripAnsi, stripFrom, if_neg other]

/-- Neither a character nor an escape sequence stands across the cut. -/
structure CleanCut (front back : List UInt8) : Prop where
  characters : lossy (front ++ back) = lossy front ++ lossy back
  sequences : (escapeAfter .outside (lossy front)).continues (lossy back) = false

instance (front back : List UInt8) : Decidable (CleanCut front back) :=
  decidable_of_iff (_ ∧ _) ⟨fun both => ⟨both.1, both.2⟩, fun cut => ⟨cut.1, cut.2⟩⟩

theorem CleanCut.strip {front back : List UInt8} (cut : CleanCut front back) :
    stripAnsi (lossy (front ++ back)) = stripAnsi (lossy front) ++ stripAnsi (lossy back) := by
  rw [cut.characters, stripAnsi, stripFrom_append, stripFrom_outside cut.sequences]
  rfl

/-! The last lines. -/

/-- Up to `n` elements from the end. -/
def lastN {α : Type} (n : Nat) (list : List α) : List α := list.drop (list.length - n)

theorem lastN_zero {α : Type} (list : List α) : lastN 0 list = [] := by
  rw [lastN, Nat.sub_zero, List.drop_length]

/-- What `tail_lines` makes of the bytes of the file from `start` on. -/
def tailLines (bytes : List UInt8) (start lines : Nat) : List Str :=
  let all := Text.lines (lossy (bytes.drop start))
  let all := if 0 < start then all.drop 1 else all
  (lastN lines all).map stripAnsi

def lastLines (bytes : List UInt8) (lines : Nat) : List Str :=
  (lastN lines (Text.lines (lossy bytes))).map stripAnsi

theorem lastN_append {α : Type} {n : Nat} (front : List α) {back : List α}
    (enough : n ≤ back.length) : lastN n (front ++ back) = lastN n back := by
  have skipped : (front ++ back).length - n = front.length + (back.length - n) := by
    rw [List.length_append]
    omega
  rw [lastN, skipped, ← List.drop_drop, List.drop_left, lastN]

theorem newline_single : String.utf8EncodeChar '\n' = [0x0A] := by decide +kernel

/-- Behind the first newline the lines are those of the bytes there. -/
theorem lines_behind (front back : List UInt8) :
    ∃ before, Text.lines (lossy (front ++ 0x0A :: back)) = before ++ Text.lines (lossy back) ∧
      (0x0A ∉ front → before.length = 1) := by
  rw [lossy_small newline_single (by decide), lines_append]
  refine ⟨_, rfl, ?_⟩
  intro absent
  have single : '\n' ∉ lossy front := fun inside =>
    absent (mem_of_lossy newline_single (by decide) inside)
  rw [List.splitOn_eq_singleton single]
  rfl

theorem lines_unbroken {bytes : List UInt8} (unbroken : 0x0A ∉ bytes) :
    (Text.lines (lossy bytes)).length ≤ 1 := by
  have single : '\n' ∉ lossy bytes := fun inside =>
    unbroken (mem_of_lossy newline_single (by decide) inside)
  rw [Text.lines, List.splitOn_eq_singleton single, linesFrom]
  split <;> simp

/-- The window is enough when it is the whole file, or holds more lines than are asked for. -/
theorem tailLines_eq {bytes : List UInt8} {start lines : Nat}
    (enough : start = 0 ∨ lines < (Text.lines (lossy (bytes.drop start))).length) :
    tailLines bytes start lines = lastLines bytes lines := by
  rcases enough with rfl | enough
  · rfl
  cases start with
  | zero => rfl
  | succ start =>
      simp only [tailLines, lastLines, Nat.succ_pos, if_true]
      apply congrArg (List.map stripAnsi)
      cases lines with
      | zero => rw [lastN_zero, lastN_zero]
      | succ lines =>
          have broken : 0x0A ∈ bytes.drop (start + 1) := by
            by_contra unbroken
            have few := lines_unbroken unbroken
            omega
          obtain ⟨front, back, shape, absent⟩ := List.eq_append_cons_of_mem broken
          obtain ⟨first, window, one⟩ := lines_behind front back
          obtain ⟨before, whole, -⟩ := lines_behind (bytes.take (start + 1) ++ front) back
          rw [List.append_assoc, ← shape, List.take_append_drop] at whole
          rw [← shape] at window
          rw [window, List.length_append, one absent] at enough
          have rest : (first ++ Text.lines (lossy back)).drop 1 = Text.lines (lossy back) := by
            rw [← one absent, List.drop_left]
          rw [window, whole, rest, lastN_append before (by omega)]

/-! The newest file. -/

def Newest (files : Directory) (path : Name) : Prop :=
  path ∈ files ∧ isLogFile path = true ∧ ∀ other ∈ files.keys, isLogFile other → other ≤ path

theorem newer_skip {name : Name} (other : isLogFile name = false) (best : Option Name) :
    newer best name = best := by
  simp [newer, other]

/-- The greater one of a log file and what was found before it. -/
theorem newer_log {name : Name} (log : isLogFile name = true) (best : Option Name) :
    ∃ path, newer best name = some path ∧ (best = some path ∨ path = name) ∧
      (∀ other ∈ best, other ≤ path) ∧ name ≤ path := by
  unfold newer
  rw [if_pos log]
  cases best with
  | none => exact ⟨name, rfl, Or.inr rfl, by simp, List.le_refl name⟩
  | some current =>
      by_cases less : current < name
      · refine ⟨name, if_pos less, Or.inr rfl, ?_, List.le_refl name⟩
        simpa using List.le_of_lt less
      · refine ⟨current, if_neg less, Or.inl rfl, ?_, List.not_lt.mp less⟩
        simp

instance (files : Directory) (path : Name) : Decidable (Newest files path) :=
  inferInstanceAs (Decidable (_ ∧ _ ∧ _))

theorem Newest.unique {files : Directory} {path other : Name} (newest : Newest files path)
    (newest' : Newest files other) : other = path := by
  have below := newest.2.2 other (AList.mem_keys.mp newest'.1) newest'.2.1
  have above := newest'.2.2 path (AList.mem_keys.mp newest.1) newest.2.1
  exact List.le_antisymm below above

/-- The greatest log file among the one found before and those that follow. -/
theorem foldl_newer {names : List Name} {best : Option Name} {path : Name}
    (found : names.foldl newer best = some path) :
    (best = some path ∨ path ∈ names ∧ isLogFile path = true) ∧
      (∀ other ∈ best, other ≤ path) ∧ ∀ other ∈ names, isLogFile other → other ≤ path := by
  induction names generalizing best with
  | nil =>
      obtain rfl : best = some path := found
      exact ⟨Or.inl rfl, by simp, List.forall_mem_nil _⟩
  | cons name rest ih =>
      obtain ⟨source, earlier, later⟩ := ih found
      cases log : isLogFile name with
      | false =>
          rw [newer_skip log] at source earlier
          refine ⟨source.imp_right (fun ⟨member, log⟩ => ⟨List.mem_cons_of_mem _ member, log⟩),
            earlier, List.forall_mem_cons.mpr ⟨?_, later⟩⟩
          simp [log]
      | true =>
          obtain ⟨best', chosen, origin, above, name_le⟩ := newer_log log best
          rw [chosen] at source earlier
          have best_le : best' ≤ path := earlier best' rfl
          refine ⟨?_, fun other member => List.le_trans (above other member) best_le,
            List.forall_mem_cons.mpr ⟨fun _ => List.le_trans name_le best_le, later⟩⟩
          rcases source with same | ⟨member, log⟩
          · obtain rfl := Option.some.inj same
            rcases origin with old | rfl
            · exact Or.inl old
            · exact Or.inr ⟨List.mem_cons_self, log⟩
          · exact Or.inr ⟨List.mem_cons_of_mem _ member, log⟩

theorem latest_newest {files : Directory} {path : Name} (found : latestLogFile files = some path) :
    Newest files path := by
  obtain ⟨source, -, greatest⟩ := foldl_newer found
  obtain ⟨member, log⟩ := source.resolve_left nofun
  exact ⟨member, log, greatest⟩

theorem latest_some {files : Directory} {name : Name} (member : name ∈ files)
    (log : isLogFile name = true) : ∃ path, latestLogFile files = some path := by
  have kept (names : List Name) (best : Option Name) (present : best ≠ none ∨ name ∈ names) :
      names.foldl newer best ≠ none := by
    induction names generalizing best with
    | nil => exact present.resolve_right List.not_mem_nil
    | cons head rest ih =>
        apply ih
        cases here : isLogFile head with
        | true =>
            obtain ⟨path, chosen, -⟩ := newer_log here best
            exact Or.inl (by rw [chosen]; exact nofun)
        | false =>
            rw [newer_skip here]
            refine present.imp_right (fun member => (List.mem_cons.mp member).resolve_left ?_)
            rintro rfl
            rw [log] at here
            cases here
  exact Option.ne_none_iff_exists'.mp (kept files.keys none (Or.inr member))

/-! Files and what is appended to them. -/

def content (files : Directory) (name : Name) : List UInt8 := (files.lookup name).getD []

def append (files : Directory) (name : Name) (bytes : List UInt8) : Directory :=
  files.insert name (content files name ++ bytes)

@[simp] theorem content_append (files : Directory) (name : Name) (bytes : List UInt8) :
    content (append files name bytes) name = content files name ++ bytes := by
  rw [content, append, AList.lookup_insert, Option.getD_some]

theorem content_append_ne {name other : Name} (different : other ≠ name) (files : Directory)
    (bytes : List UInt8) : content (append files name bytes) other = content files other := by
  rw [content, append, AList.lookup_insert_ne different, content]

@[simp] theorem mem_append {files : Directory} {name other : Name} {bytes : List UInt8} :
    other ∈ append files name bytes ↔ other = name ∨ other ∈ files := AList.mem_insert _

theorem content_absent {files : Directory} {name : Name} (absent : name ∉ files) :
    content files name = [] := by
  rw [content, AList.lookup_eq_none.mpr absent, Option.getD_none]

end RaemoteServer.Logs
