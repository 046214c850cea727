import RaemoteServer.Library.Runs
import RaemoteServer.Logs.Tail

/-! `raemote logs -n N --follow` beside the daemon that writes the logs. An operation on the file
system is one step. -/

namespace RaemoteServer.Logs

open Text Collections Runs

structure LogsOptions where
  lines : Nat
  follow : Bool

inductive LogsPhase where
  | starting
  /-- `cmd_logs` has found a file. -/
  | found (path : Name)
  /-- `tail_lines` has its length, and where the window starts. -/
  | measured (path : Name) (start : Nat)
  /-- Between two polls. -/
  | sleeping
  | chosen (path : Name)
  /-- The length of the file is not the offset. -/
  | stated (path : Name) (len : Nat)
  | finished
  deriving DecidableEq

structure Follower where
  files : Directory
  phase : LogsPhase
  current : Option Name
  offset : Nat
  output : Str

inductive LogsEvent where
  /-- The daemon writes to a log file, which may be a new one. -/
  | append (name : Name) (bytes : List UInt8)
  | latest
  | openTail
  | readTail
  | list
  | stat
  | read
  /-- `read_to_end` fails. -/
  | readFailed
  /-- Another operation of the command fails. -/
  | failed
  deriving DecidableEq

def printLines (lines : List Str) : Str := lines.flatMap (· ++ ['\n'])

/-- A new file is followed from its beginning. -/
def Follower.choose (state : Follower) (path : Name) : Follower :=
  if state.current = some path then { state with phase := .chosen path }
  else { state with phase := .chosen path, current := some path, offset := 0 }

def Follower.measure (state : Follower) (path : Name) : Follower :=
  let len := (content state.files path).length
  let offset := if len < state.offset then 0 else state.offset
  { state with offset, phase := if len = offset then .sleeping else .stated path len }

/-- What is in the file from the offset on. -/
def Follower.rest (state : Follower) (path : Name) : List UInt8 :=
  (content state.files path).drop state.offset

def logsStep (options : LogsOptions) (state : Follower) (event : LogsEvent) :
    Option (Unit × Follower) :=
  match event, state.phase with
  | .append name bytes, _ =>
      if isLogFile name then some ((), { state with files := append state.files name bytes })
      else none
  | .latest, .starting =>
      match latestLogFile state.files with
      | some path => some ((), { state with phase := .found path })
      | none => some ((), { state with phase := .finished })
  | .openTail, .found path =>
      some ((), { state with
        phase := .measured path ((content state.files path).length - tailWindow) })
  | .readTail, .measured path start =>
      some ((), { state with
        output := state.output ++
          printLines (tailLines (content state.files path) start options.lines)
        phase := if options.follow then .sleeping else .finished })
  | .list, .sleeping =>
      match latestLogFile state.files with
      | some path => some ((), state.choose path)
      | none => some ((), state)
  | .stat, .chosen path => some ((), state.measure path)
  | .read, .stated path len =>
      some ((), { state with
        output := state.output ++ stripAnsi (lossy (state.rest path))
        offset := len
        phase := .sleeping })
  | .readFailed, .stated _ len => some ((), { state with offset := len, phase := .sleeping })
  | .failed, .starting | .failed, .found _ | .failed, .measured _ _ =>
      some ((), { state with phase := .finished })
  | .failed, .sleeping | .failed, .chosen _ | .failed, .stated _ _ =>
      some ((), { state with phase := .sleeping })
  | _, _ => none

def logsMachine (options : LogsOptions) : Machine Follower LogsEvent Unit := ⟨logsStep options⟩

def Follower.start (files : Directory) : Follower := ⟨files, .starting, none, 0, []⟩

variable {options : LogsOptions}

/-- The steps, one constructor for each branch. -/
inductive Took (options : LogsOptions) (state : Follower) : LogsEvent → Follower → Prop
  | append (name : Name) (bytes : List UInt8) (log : isLogFile name = true) :
      Took options state (.append name bytes)
        { state with files := append state.files name bytes }
  | latest (path : Name) (phase : state.phase = .starting)
      (found : latestLogFile state.files = some path) :
      Took options state .latest { state with phase := .found path }
  | nothing (phase : state.phase = .starting) (none : latestLogFile state.files = none) :
      Took options state .latest { state with phase := .finished }
  | openTail (path : Name) (phase : state.phase = .found path) :
      Took options state .openTail { state with
        phase := .measured path ((content state.files path).length - tailWindow) }
  | readTail (path : Name) (start : Nat) (phase : state.phase = .measured path start) :
      Took options state .readTail { state with
        output := state.output ++
          printLines (tailLines (content state.files path) start options.lines)
        phase := if options.follow then .sleeping else .finished }
  | list (path : Name) (phase : state.phase = .sleeping)
      (found : latestLogFile state.files = some path) :
      Took options state .list (state.choose path)
  | gone (phase : state.phase = .sleeping) (none : latestLogFile state.files = none) :
      Took options state .list state
  | stat (path : Name) (phase : state.phase = .chosen path) :
      Took options state .stat (state.measure path)
  | read (path : Name) (len : Nat) (phase : state.phase = .stated path len) :
      Took options state .read { state with
        output := state.output ++ stripAnsi (lossy (state.rest path))
        offset := len
        phase := .sleeping }
  | readFailed (path : Name) (len : Nat) (phase : state.phase = .stated path len) :
      Took options state .readFailed { state with offset := len, phase := .sleeping }
  | gaveUp (phase : state.phase = .starting ∨ (∃ path, state.phase = .found path) ∨
        ∃ path start, state.phase = .measured path start) :
      Took options state .failed { state with phase := .finished }
  | missed (phase : state.phase = .sleeping ∨ (∃ path, state.phase = .chosen path) ∨
        ∃ path len, state.phase = .stated path len) :
      Took options state .failed { state with phase := .sleeping }

theorem took {state next : Follower} {event : LogsEvent} {output : Unit}
    (taken : (logsMachine options).step state event = some (output, next)) :
    Took options state event next := by
  simp only [logsMachine, logsStep] at taken
  split at taken
  · split at taken
    · rename_i log
      obtain rfl := next_eq taken
      exact .append _ _ log
    · cases taken
  · rename_i phase
    split at taken
    · rename_i found
      obtain rfl := next_eq taken
      exact .latest _ phase found
    · rename_i none
      obtain rfl := next_eq taken
      exact .nothing phase none
  · rename_i phase
    obtain rfl := next_eq taken
    exact .openTail _ phase
  · rename_i phase
    obtain rfl := next_eq taken
    exact .readTail _ _ phase
  · rename_i phase
    split at taken
    · rename_i found
      obtain rfl := next_eq taken
      exact .list _ phase found
    · rename_i none
      obtain rfl := next_eq taken
      exact .gone phase none
  · rename_i phase
    obtain rfl := next_eq taken
    exact .stat _ phase
  · rename_i phase
    obtain rfl := next_eq taken
    exact .read _ _ phase
  · rename_i phase
    obtain rfl := next_eq taken
    exact .readFailed _ _ phase
  · rename_i phase
    obtain rfl := next_eq taken
    exact .gaveUp (Or.inl phase)
  · rename_i phase
    obtain rfl := next_eq taken
    exact .gaveUp (Or.inr (Or.inl ⟨_, phase⟩))
  · rename_i phase
    obtain rfl := next_eq taken
    exact .gaveUp (Or.inr (Or.inr ⟨_, _, phase⟩))
  · rename_i phase
    obtain rfl := next_eq taken
    exact .missed (Or.inl phase)
  · rename_i phase
    obtain rfl := next_eq taken
    exact .missed (Or.inr (Or.inl ⟨_, phase⟩))
  · rename_i phase
    obtain rfl := next_eq taken
    exact .missed (Or.inr (Or.inr ⟨_, _, phase⟩))
  · cases taken

/-! What has been written, and what of it has been read. -/

abbrev LogsEntry := Entry Follower LogsEvent Unit

abbrev Writes := List (Name × List UInt8)

def bytesOf (writes : Writes) : List UInt8 := writes.flatMap Prod.snd

def bytesTo (name : Name) (writes : Writes) : List UInt8 := bytesOf (writes.filter (·.1 = name))

/-- The file that `tail_lines` reads. -/
def tailed (entry : LogsEntry) : Option Name :=
  match entry.event, entry.before.phase with
  | .readTail, .measured path _ => some path
  | _, _ => none

/-- The file that `tail_lines` or a poll reads. -/
def readFile (entry : LogsEntry) : Option Name :=
  match entry.event, entry.before.phase with
  | .readTail, .measured path _ => some path
  | .read, .stated path _ => some path
  | _, _ => none

/-- What the daemon has written since the command looked for its first file, less what a step took
that read the file. -/
def remaining (takes : LogsEntry → Option Name) : List LogsEntry → Writes
  | [] => []
  | entry :: earlier =>
      match entry.event with
      | .append name bytes => remaining takes earlier ++ [(name, bytes)]
      | .latest => []
      | _ =>
          match takes entry with
          | some path => (remaining takes earlier).filter (·.1 ≠ path)
          | none => remaining takes earlier

/-- What has been written behind the tail. -/
def behind (log : List LogsEntry) : Writes := remaining tailed log

/-- What has been written, and not been read since. -/
def unread (log : List LogsEntry) : Writes := remaining readFile log

/-- How much of the file there was when it was read last. -/
def readUpTo (name : Name) : List LogsEntry → Nat
  | [] => 0
  | entry :: earlier =>
      if readFile entry = some name then (content entry.before.files name).length
      else readUpTo name earlier

/-- What the polls have read. -/
def bytesRead : List LogsEntry → List UInt8
  | [] => []
  | entry :: earlier =>
      match entry.event, entry.before.phase with
      | .read, .stated path _ => bytesRead earlier ++ entry.before.rest path
      | _, _ => bytesRead earlier

/-- The condition on one step: the daemon writes to the newest file, the window of the tail is large
enough, and a poll finds all that is unread in its file and reads on from where the last read of
that file ended. -/
def Meets (options : LogsOptions) (earlier : List LogsEntry) (entry : LogsEntry) : Prop :=
  let state := entry.before
  match entry.event, state.phase with
  | .append name _, _ => ∀ other ∈ state.files.keys, isLogFile other → other ≤ name
  | .latest, _ => ∃ name ∈ state.files.keys, isLogFile name = true
  | .readTail, .measured path start =>
      start = 0 ∨
        options.lines < (Text.lines (lossy ((content state.files path).drop start))).length
  | .list, _ => ∀ write ∈ unread earlier, write.2 = [] ∨ Newest state.files write.1
  | .read, .stated path _ =>
      state.offset = readUpTo path earlier ∧ CleanCut (bytesRead earlier) (state.rest path)
  | .readFailed, _ => False
  | .failed, .starting | .failed, .found _ | .failed, .measured _ _ => False
  | _, _ => True

def Met (options : LogsOptions) : List LogsEntry → Prop
  | [] => True
  | entry :: earlier => Meets options earlier entry ∧ Met options earlier

/-- The file was the newest when `cmd_logs` looked. -/
def NewestAt (path : Name) (log : List LogsEntry) : Prop :=
  Since (fun entry => entry.event ≠ .latest)
    (fun entry _ => entry.event = .latest ∧ Newest entry.before.files path) log

/-- The newest file held these bytes when `tail_lines` read it. -/
def TailOf (path : Name) (bytes : List UInt8) (log : List LogsEntry) : Prop :=
  Since (fun entry => entry.event ≠ .readTail)
    (fun entry before => entry.event = .readTail ∧ content entry.before.files path = bytes ∧
      NewestAt path before) log

/-- The last poll has met neither an append nor an error. -/
def Polled (log : List LogsEntry) : Prop :=
  Since (fun entry => entry.event = .stat ∨ entry.event = .read)
    (fun entry _ => entry.event = .list) log

/-- The output is the last lines, and behind them a part of what was written behind the tail, from
its beginning; all of it after an undisturbed poll. -/
def Printed (lines : Nat) (log : List LogsEntry) (state : Follower) : Prop :=
  ∃ path bytes printed pending, TailOf path bytes log ∧
    bytesOf (behind log) = printed ++ pending ∧
    state.output = printLines (lastLines bytes lines) ++ stripAnsi (lossy printed) ∧
    (state.phase = .sleeping → Polled log → pending = [])

/-- The command goes on as it is told to, and prints nothing before the tail. -/
def Follows (options : LogsOptions) (log : List LogsEntry) (state : Follower) : Prop :=
  (options.follow = true → state.phase ≠ .finished) ∧
    ((∀ entry ∈ log, entry.event ≠ .readTail) ∧ state.output = [] ∨
      Printed options.lines log state)

/-! The tail and the polls one after another. -/

@[simp] theorem bytesOf_append (front back : Writes) :
    bytesOf (front ++ back) = bytesOf front ++ bytesOf back := List.flatMap_append

theorem bytesTo_append (name : Name) (front back : Writes) :
    bytesTo name (front ++ back) = bytesTo name front ++ bytesTo name back := by
  rw [bytesTo, List.filter_append, bytesOf_append, bytesTo, bytesTo]

theorem bytesTo_self (name : Name) (bytes : List UInt8) : bytesTo name [(name, bytes)] = bytes := by
  simp [bytesTo, bytesOf]

theorem bytesTo_ne {name other : Name} (different : name ≠ other) (bytes : List UInt8) :
    bytesTo name [(other, bytes)] = [] := by
  simp [bytesTo, bytesOf, different.symm]

/-- Writes that are empty do not count. -/
theorem bytesTo_all {name : Name} {writes : Writes}
    (all : ∀ write ∈ writes, write.2 = [] ∨ write.1 = name) :
    bytesTo name writes = bytesOf writes := by
  induction writes with
  | nil => rfl
  | cons write rest ih =>
      obtain ⟨here, later⟩ := List.forall_mem_cons.mp all
      rw [← List.singleton_append, bytesTo_append, bytesOf_append, ih later]
      obtain ⟨other, bytes⟩ := write
      rcases here with rfl | rfl
      · simp [bytesTo, bytesOf, List.filter_cons]
      · rw [bytesTo_self]
        simp [bytesOf]

theorem bytesTo_none {name : Name} {writes : Writes} (none : ∀ write ∈ writes, write.1 ≠ name) :
    bytesTo name writes = [] := by
  rw [bytesTo, List.filter_eq_nil_iff.mpr (by simpa using none)]
  rfl

theorem bytesTo_filter_self (name : Name) (writes : Writes) :
    bytesTo name (writes.filter (·.1 ≠ name)) = [] :=
  bytesTo_none (fun write member => by simpa using (List.mem_filter.mp member).2)

theorem bytesTo_filter {name other : Name} (different : name ≠ other) (writes : Writes) :
    bytesTo name (writes.filter (·.1 ≠ other)) = bytesTo name writes := by
  rw [bytesTo, bytesTo, List.filter_filter]
  apply congrArg bytesOf
  apply List.filter_congr
  intro write _
  by_cases same : write.1 = name
  · simp [same, different]
  · simp [same]

/-- Of the log files in question, what was not there at the last read is what is unread. -/
structure Counted (counts : Name → Prop) (log : List LogsEntry) (state : Follower) : Prop where
  bound : ∀ name, isLogFile name = true → counts name →
    readUpTo name log ≤ (content state.files name).length
  missing : ∀ name, isLogFile name = true → counts name →
    bytesTo name (unread log) = (content state.files name).drop (readUpTo name log)
  named : ∀ write ∈ unread log, write.1 ∈ state.files ∧ isLogFile write.1 = true

theorem counted_append {counts : Name → Prop} {log : List LogsEntry} {before after : Follower}
    {name : Name} {bytes : List UInt8} (counted : Counted counts log before)
    (files : after.files = append before.files name bytes) (isLog : isLogFile name = true) :
    Counted counts (⟨before, .append name bytes, (), after⟩ :: log) after := by
  have grown (other : Name) : content after.files other =
      content before.files other ++ bytesTo other [(name, bytes)] := by
    rw [files]
    by_cases same : other = name
    · subst same
      rw [content_append, bytesTo_self]
    · rw [content_append_ne same, bytesTo_ne same, List.append_nil]
  constructor
  · intro other otherLog inside
    have old := counted.bound other otherLog inside
    rw [grown, List.length_append]
    exact Nat.le_trans old (Nat.le_add_right _ _)
  · intro other otherLog inside
    have old := counted.missing other otherLog inside
    have bound := counted.bound other otherLog inside
    calc bytesTo other (unread (⟨before, .append name bytes, (), after⟩ :: log))
        = bytesTo other (unread log) ++ bytesTo other [(name, bytes)] := bytesTo_append _ _ _
      _ = (content before.files other).drop (readUpTo other log) ++
            bytesTo other [(name, bytes)] := by rw [old]
      _ = (content after.files other).drop (readUpTo other log) := by
          rw [grown, List.drop_append_of_le_length bound]
  · intro write member
    rw [files]
    rcases List.mem_append.mp member with old | new
    · have earlier := counted.named write old
      exact ⟨mem_append.mpr (Or.inr earlier.1), earlier.2⟩
    · rw [List.mem_singleton.mp new]
      exact ⟨mem_append.mpr (Or.inl rfl), isLog⟩

/-- A step that writes to no file and reads none. -/
structure Quiet (entry : LogsEntry) : Prop where
  write : ∀ name bytes, entry.event ≠ .append name bytes
  first : entry.event ≠ .latest
  tail : entry.event ≠ .readTail
  poll : entry.event ≠ .read
  files : entry.after.files = entry.before.files

theorem remaining_none {takes : LogsEntry → Option Name} {entry : LogsEntry} (quiet : Quiet entry)
    (nothing : takes entry = none) (log : List LogsEntry) :
    remaining takes (entry :: log) = remaining takes log := by
  have write := quiet.write
  have first := quiet.first
  rw [remaining]
  split
  · rename_i shape
    exact absurd shape (write _ _)
  · rename_i shape
    exact absurd shape first
  · rw [nothing]

theorem Quiet.readFile {entry : LogsEntry} (quiet : Quiet entry) : readFile entry = none := by
  unfold Logs.readFile
  split
  · rename_i shape _
    exact absurd shape quiet.tail
  · rename_i shape _
    exact absurd shape quiet.poll
  · rfl

theorem Quiet.tailed {entry : LogsEntry} (quiet : Quiet entry) : tailed entry = none := by
  unfold Logs.tailed
  split
  · rename_i shape _
    exact absurd shape quiet.tail
  · rfl

theorem Quiet.unread {entry : LogsEntry} (quiet : Quiet entry) (log : List LogsEntry) :
    unread (entry :: log) = unread log := remaining_none quiet quiet.readFile log

theorem Quiet.behind {entry : LogsEntry} (quiet : Quiet entry) (log : List LogsEntry) :
    behind (entry :: log) = behind log := remaining_none quiet quiet.tailed log

theorem Quiet.readUpTo {entry : LogsEntry} (quiet : Quiet entry) (name : Name)
    (log : List LogsEntry) : readUpTo name (entry :: log) = readUpTo name log := by
  rw [Logs.readUpTo, quiet.readFile]
  rfl

theorem Quiet.bytesRead {entry : LogsEntry} (quiet : Quiet entry) (log : List LogsEntry) :
    bytesRead (entry :: log) = bytesRead log := by
  rw [Logs.bytesRead]
  split
  · rename_i shape _
    exact absurd shape quiet.poll
  · rfl

theorem counted_quiet {counts : Name → Prop} {log : List LogsEntry} {entry : LogsEntry}
    (quiet : Quiet entry) (counted : Counted counts log entry.before) :
    Counted counts (entry :: log) entry.after := by
  constructor
  · intro name isLog inside
    rw [quiet.readUpTo, quiet.files]
    exact counted.bound name isLog inside
  · intro name isLog inside
    rw [quiet.unread, quiet.readUpTo, quiet.files]
    exact counted.missing name isLog inside
  · rw [quiet.unread, quiet.files]
    exact counted.named

/-- A file is read to its end. -/
theorem counted_read {counts counts' : Name → Prop} {log : List LogsEntry} {entry : LogsEntry}
    {path : Name} (reads : readFile entry = some path)
    (left : unread (entry :: log) = (unread log).filter (·.1 ≠ path))
    (files : entry.after.files = entry.before.files)
    (wider : ∀ name, counts' name → name = path ∨ counts name)
    (counted : Counted counts log entry.before) : Counted counts' (entry :: log) entry.after := by
  have elsewhere {name : Name} (different : name ≠ path) :
      readUpTo name (entry :: log) = readUpTo name log := by
    rw [readUpTo, reads, if_neg]
    intro same
    exact different (Option.some.inj same).symm
  have here : readUpTo path (entry :: log) = (content entry.before.files path).length := by
    rw [readUpTo, if_pos reads]
  constructor
  · intro name isLog inside
    rw [files]
    by_cases same : name = path
    · rw [same, here]
    · rw [elsewhere same]
      exact counted.bound name isLog ((wider name inside).resolve_left same)
  · intro name isLog inside
    rw [files, left]
    by_cases same : name = path
    · rw [same, here, bytesTo_filter_self, List.drop_length]
    · rw [elsewhere same, bytesTo_filter same]
      exact counted.missing name isLog ((wider name inside).resolve_left same)
  · rw [files, left]
    intro write member
    exact counted.named write (List.mem_of_mem_filter member)

/-- The first file is chosen, and not read yet. -/
structure Looked (path : Name) (log : List LogsEntry) (state : Follower) : Prop where
  newest : NewestAt path log
  present : path ∈ state.files
  isLog : isLogFile path = true
  counted : Counted (path < ·) log state

/-- `tail_lines` has not read yet. -/
structure Early (log : List LogsEntry) (state : Follower) : Prop where
  quiet : ∀ entry ∈ log, entry.event ≠ .readTail ∧ entry.event ≠ .read
  output : state.output = []
  current : state.current = none
  phase : state.phase = .starting ∨ ∃ path, Looked path log state ∧
    (state.phase = .found path ∨ ∃ start, state.phase = .measured path start)

/-- Within a poll: what is unread was written to its file, and then to newer ones. -/
structure Reading (path : Name) (log : List LogsEntry) (state : Follower) : Prop where
  current : state.current = some path
  present : path ∈ state.files
  isLog : isLogFile path = true
  order : ∃ front back, unread log = front ++ back ∧
    (∀ write ∈ front, write.2 = [] ∨ write.1 = path) ∧ (∀ write ∈ back, path < write.1) ∧
      (Polled log → back = [])

/-- Where the loop of `follow_log` is, and what is unread there. -/
inductive Polls (options : LogsOptions) (log : List LogsEntry) (state : Follower) : Prop
  | finished (phase : state.phase = .finished) (off : options.follow = false)
  | sleeping (phase : state.phase = .sleeping) (done : Polled log → bytesOf (unread log) = [])
  | chosen (path : Name) (phase : state.phase = .chosen path) (reading : Reading path log state)
  | stated (path : Name) (len : Nat) (phase : state.phase = .stated path len)
      (reading : Reading path log state) (bound : len ≤ (content state.files path).length)

/-- `tail_lines` has read. -/
structure Late (options : LogsOptions) (path : Name) (bytes : List UInt8) (log : List LogsEntry)
    (state : Follower) : Prop where
  tail : TailOf path bytes log
  present : path ∈ state.files
  isLog : isLogFile path = true
  current : ∀ file ∈ state.current, path ≤ file ∧ state.offset ≤ readUpTo file log
  counted : Counted (path ≤ ·) log state
  output : state.output =
    printLines (lastLines bytes options.lines) ++ stripAnsi (lossy (bytesRead log))
  stream : bytesOf (behind log) = bytesRead log ++ bytesOf (unread log)
  polls : Polls options log state

theorem early_nothing {log : List LogsEntry}
    (quiet : ∀ entry ∈ log, entry.event ≠ .readTail ∧ entry.event ≠ .read) :
    bytesRead log = [] ∧ (∀ name, readUpTo name log = 0) ∧ behind log = unread log := by
  induction log with
  | nil => exact ⟨rfl, fun _ => rfl, rfl⟩
  | cons entry earlier ih =>
      obtain ⟨⟨noTail, noRead⟩, rest⟩ := List.forall_mem_cons.mp quiet
      obtain ⟨nothing, zero, same⟩ := ih rest
      have noFile : readFile entry = none := by
        unfold readFile
        split
        · contradiction
        · contradiction
        · rfl
      have noTailed : tailed entry = none := by
        unfold tailed
        split
        · contradiction
        · rfl
      refine ⟨?_, ?_, ?_⟩
      · unfold bytesRead
        split
        · contradiction
        · exact nothing
      · intro name
        rw [readUpTo, noFile]
        exact zero name
      · rw [behind, unread] at same
        rw [behind, unread, remaining, remaining, noFile, noTailed, same]

theorem not_polled {entry : LogsEntry} {log : List LogsEntry} (list : entry.event ≠ .list)
    (stat : entry.event ≠ .stat) (read : entry.event ≠ .read) : ¬ Polled (entry :: log) := by
  rw [Polled, since_cons]
  rintro (same | ⟨same | same, -⟩)
  · exact list same
  · exact stat same
  · exact read same

theorem polled_before {entry : LogsEntry} {log : List LogsEntry} (list : entry.event ≠ .list)
    (polled : Polled (entry :: log)) : Polled log :=
  ((since_cons.mp polled).resolve_left list).2

/-- The daemon writes within a poll. -/
theorem reading_append {path name : Name} {bytes : List UInt8} {log : List LogsEntry}
    {before after : Follower} (reading : Reading path log before)
    (named : ∀ write ∈ unread log, write.1 ∈ before.files ∧ isLogFile write.1 = true)
    (newest : ∀ other ∈ before.files.keys, isLogFile other → other ≤ name)
    (files : after.files = append before.files name bytes)
    (current : after.current = before.current) :
    Reading path (⟨before, .append name bytes, (), after⟩ :: log) after := by
  obtain ⟨here, present, isLog, front, back, shape, own, others, polled⟩ := reading
  have disturbed : ¬ Polled (⟨before, .append name bytes, (), after⟩ :: log) :=
    not_polled nofun nofun nofun
  have unread' : unread (⟨before, .append name bytes, (), after⟩ :: log) =
      front ++ back ++ [(name, bytes)] := by
    rw [← shape]
    rfl
  refine ⟨current ▸ here, ?_, isLog, ?_⟩
  · rw [files]
    exact mem_append.mpr (Or.inr present)
  have above := newest path (AList.mem_keys.mp present) isLog
  by_cases same : name = path
  · subst same
    -- a write to a newer file would have come before this one
    have none : back = [] := by
      rw [List.eq_nil_iff_forall_not_mem]
      intro write member
      have inside := named write (by rw [shape]; exact List.mem_append_right front member)
      have below := newest write.1 (AList.mem_keys.mp inside.1) inside.2
      exact List.not_lt.mpr below (others write member)
    refine ⟨front ++ [(name, bytes)], [], ?_, ?_, by simp, fun _ => rfl⟩
    · rw [unread', none, List.append_nil, List.append_nil]
    · intro write member
      rcases List.mem_append.mp member with old | new
      · exact own write old
      · exact Or.inr (by rw [List.mem_singleton.mp new])
  · refine ⟨front, back ++ [(name, bytes)], by rw [unread', List.append_assoc], own, ?_,
      fun polled => (disturbed polled).elim⟩
    intro write member
    rcases List.mem_append.mp member with old | new
    · exact others write old
    · rw [List.mem_singleton.mp new]
      by_contra less
      exact same (List.le_antisymm (List.not_lt.mp less) above)

/-- What a poll reads is what is unread of its file, and comes first. -/
theorem reading_bytes {path : Name} {log : List LogsEntry} {state : Follower}
    (reading : Reading path log state) :
    bytesOf (unread log) = bytesTo path (unread log) ++
        bytesOf ((unread log).filter (·.1 ≠ path)) ∧
      (Polled log → bytesOf ((unread log).filter (·.1 ≠ path)) = []) := by
  obtain ⟨-, -, -, front, back, shape, own, others, polled⟩ := reading
  have apart : ∀ write ∈ back, write.1 ≠ path := by
    intro write member same
    have less := others write member
    rw [same] at less
    exact List.lt_irrefl path less
  have empty : bytesOf (front.filter (·.1 ≠ path)) = [] := by
    rw [bytesOf, List.flatMap_eq_nil_iff]
    intro write member
    obtain ⟨inside, different⟩ := List.mem_filter.mp member
    exact (own write inside).resolve_right (by simpa using different)
  have kept : back.filter (·.1 ≠ path) = back :=
    List.filter_eq_self.mpr (fun write member => by simpa using apart write member)
  rw [shape, bytesTo_append, bytesTo_all own, bytesTo_none apart, List.filter_append,
    bytesOf_append, bytesOf_append, empty, kept, List.append_nil, List.nil_append]
  refine ⟨rfl, ?_⟩
  intro quiet
  rw [polled quiet]
  rfl

theorem early_append {name : Name} {bytes : List UInt8} {log : List LogsEntry}
    {before after : Follower} (early : Early log before) (isLog : isLogFile name = true)
    (same : after = { before with files := append before.files name bytes }) :
    Early (⟨before, .append name bytes, (), after⟩ :: log) after := by
  subst same
  refine ⟨List.forall_mem_cons.mpr ⟨⟨nofun, nofun⟩, early.quiet⟩, early.output, early.current,
    early.phase.imp_right ?_⟩
  rintro ⟨path, ⟨newest, present, pathLog, counted⟩, phase⟩
  exact ⟨path, ⟨since_cons.mpr (Or.inr ⟨nofun, newest⟩), mem_append.mpr (Or.inr present), pathLog,
    counted_append counted rfl isLog⟩, phase⟩

/-- What is there of newer files when `cmd_logs` looks: nothing. -/
theorem looked_latest {path : Name} {log : List LogsEntry} {before after : Follower}
    (newest : Newest before.files path) (quiet : ∀ name, readUpTo name log = 0)
    (files : after.files = before.files) :
    Looked path (⟨before, .latest, (), after⟩ :: log) after := by
  have zero (name : Name) : readUpTo name (⟨before, .latest, (), after⟩ :: log) = 0 := quiet name
  refine ⟨since_cons.mpr (Or.inl ⟨rfl, newest⟩), files ▸ newest.1, newest.2.1, ?_, ?_, nofun⟩
  · intro name _ _
    rw [zero]
    exact Nat.zero_le _
  · intro name isLog newer
    have absent : name ∉ before.files := by
      intro present
      have below := newest.2.2 name (AList.mem_keys.mp present) isLog
      exact List.not_lt.mpr below newer
    rw [files, content_absent absent, List.drop_nil]
    rfl

theorem looked_quiet {path : Name} {log : List LogsEntry} {entry : LogsEntry}
    (looked : Looked path log entry.before) (quiet : Quiet entry) :
    Looked path (entry :: log) entry.after where
  newest := since_cons.mpr (Or.inr ⟨quiet.first, looked.newest⟩)
  present := quiet.files ▸ looked.present
  isLog := looked.isLog
  counted := counted_quiet quiet looked.counted

/-- The tail is read. -/
theorem late_tail {path : Name} {start : Nat} {log : List LogsEntry} {entry : LogsEntry}
    (early : Early log entry.before) (looked : Looked path log entry.before)
    (event : entry.event = .readTail) (phase : entry.before.phase = .measured path start)
    (enough : start = 0 ∨
      options.lines < (Text.lines (lossy ((content entry.before.files path).drop start))).length)
    (files : entry.after.files = entry.before.files)
    (current : entry.after.current = entry.before.current)
    (output : entry.after.output = entry.before.output ++
      printLines (tailLines (content entry.before.files path) start options.lines))
    (next : entry.after.phase = if options.follow then .sleeping else .finished) :
    Late options path (content entry.before.files path) (entry :: log) entry.after := by
  obtain ⟨nothing, -, together⟩ := early_nothing early.quiet
  have reads : readFile entry = some path := by simp only [readFile, event, phase]
  have tails : tailed entry = some path := by simp only [tailed, event, phase]
  have left : unread (entry :: log) = (unread log).filter (·.1 ≠ path) := by
    simp only [unread, remaining, event, reads]
  have left' : behind (entry :: log) = (behind log).filter (·.1 ≠ path) := by
    simp only [behind, remaining, event, tails]
  have read : bytesRead (entry :: log) = [] := by
    simpa only [bytesRead, event] using nothing
  constructor
  case tail => exact since_cons.mpr (Or.inl ⟨event, rfl, looked.newest⟩)
  case present => exact files ▸ looked.present
  case isLog => exact looked.isLog
  case current =>
    intro file member
    rw [current, early.current] at member
    cases member
  case counted =>
    refine counted_read reads left files ?_ looked.counted
    intro name above
    by_cases same : name = path
    · exact Or.inl same
    · refine Or.inr ?_
      by_contra less
      exact same (List.le_antisymm (List.not_lt.mp less) above)
  case output =>
    rw [output, early.output, tailLines_eq enough, read]
    simp [lossy, units, stripAnsi, stripFrom]
  case stream => rw [left, left', read, together, List.nil_append]
  case polls =>
    cases on : options.follow with
    | false => exact .finished (by rw [next, on]; rfl) on
    | true =>
        refine .sleeping (by rw [next, on]; rfl) (fun polled => (not_polled ?_ ?_ ?_ polled).elim)
        all_goals simp [event]

/-- A poll reads. -/
theorem late_read {path file : Name} {bytes : List UInt8} {len : Nat} {log : List LogsEntry}
    {entry : LogsEntry} (late : Late options path bytes log entry.before)
    (reading : Reading file log entry.before)
    (bound : len ≤ (content entry.before.files file).length)
    (event : entry.event = .read) (phase : entry.before.phase = .stated file len)
    (position : entry.before.offset = readUpTo file log)
    (cut : CleanCut (bytesRead log) (entry.before.rest file))
    (same : entry.after = { entry.before with
      output := entry.before.output ++ stripAnsi (lossy (entry.before.rest file))
      offset := len
      phase := .sleeping }) :
    Late options path bytes (entry :: log) entry.after := by
  have reads : readFile entry = some file := by simp only [readFile, event, phase]
  have tails : tailed entry = none := by simp only [tailed, event]
  have left : unread (entry :: log) = (unread log).filter (·.1 ≠ file) := by
    simp only [unread, remaining, event, reads]
  have left' : behind (entry :: log) = behind log := by
    simp only [behind, remaining, event, tails]
  have read : bytesRead (entry :: log) = bytesRead log ++ entry.before.rest file := by
    simp only [bytesRead, event, phase]
  have above : path ≤ file := (late.current file reading.current).1
  have rest : entry.before.rest file = bytesTo file (unread log) := by
    rw [Follower.rest, position, late.counted.missing file reading.isLog above]
  obtain ⟨apart, all⟩ := reading_bytes reading
  have files : entry.after.files = entry.before.files := by rw [same]
  constructor
  case tail => exact since_cons.mpr (Or.inr ⟨by rw [event]; exact nofun, late.tail⟩)
  case present => exact files ▸ late.present
  case isLog => exact late.isLog
  case current =>
    intro other member
    have current : entry.after.current = some file := by rw [same]; exact reading.current
    obtain rfl := Option.some.inj (member.symm.trans current)
    refine ⟨above, ?_⟩
    rw [readUpTo, if_pos reads, same]
    exact bound
  case counted => exact counted_read reads left files (fun _ => Or.inr) late.counted
  case output => rw [same, read, cut.strip, ← List.append_assoc, ← late.output]
  case stream => rw [left, left', read, late.stream, apart, rest, List.append_assoc]
  case polls =>
    refine .sleeping (by rw [same]) ?_
    intro polled
    rw [left]
    exact all (polled_before (by rw [event]; exact nofun) polled)

theorem late_append {path name : Name} {bytes written : List UInt8} {log : List LogsEntry}
    {before after : Follower} (late : Late options path bytes log before)
    (isLog : isLogFile name = true)
    (newest : ∀ other ∈ before.files.keys, isLogFile other → other ≤ name)
    (same : after = { before with files := append before.files name written }) :
    Late options path bytes (⟨before, .append name written, (), after⟩ :: log) after := by
  have files : after.files = append before.files name written := by rw [same]
  have current : after.current = before.current := by rw [same]
  have phase : after.phase = before.phase := by rw [same]
  have disturbed : ¬ Polled (⟨before, .append name written, (), after⟩ :: log) :=
    not_polled nofun nofun nofun
  have reads {file : Name} (reading : Reading file log before) :=
    reading_append reading late.counted.named newest files current
  constructor
  case tail => exact since_cons.mpr (Or.inr ⟨nofun, late.tail⟩)
  case present => exact files ▸ mem_append.mpr (Or.inr late.present)
  case isLog => exact late.isLog
  case current => subst same; exact late.current
  case counted => exact counted_append late.counted files isLog
  case output => subst same; exact late.output
  case stream =>
    calc bytesOf (behind log ++ [(name, written)])
        = bytesRead log ++ bytesOf (unread log) ++ bytesOf [(name, written)] := by
          rw [bytesOf_append, late.stream]
      _ = bytesRead log ++ bytesOf (unread log ++ [(name, written)]) := by
          rw [bytesOf_append, List.append_assoc]
  case polls =>
    rcases late.polls with ⟨ended, off⟩ | ⟨asleep, -⟩ | ⟨file, here, reading⟩ |
      ⟨file, len, here, reading, bound⟩
    · exact .finished (phase.trans ended) off
    · exact .sleeping (phase.trans asleep) (fun polled => (disturbed polled).elim)
    · exact .chosen file (phase.trans here) (reads reading)
    · refine .stated file len (phase.trans here) (reads reading) ?_
      rw [files]
      by_cases same : file = name
      · subst same
        rw [content_append, List.length_append]
        exact Nat.le_trans bound (Nat.le_add_right _ _)
      · rw [content_append_ne same]
        exact bound

/-- A step that neither writes nor reads. -/
theorem late_quiet {path : Name} {bytes : List UInt8} {log : List LogsEntry} {entry : LogsEntry}
    (late : Late options path bytes log entry.before) (quiet : Quiet entry)
    (current : ∀ file ∈ entry.after.current,
      path ≤ file ∧ entry.after.offset ≤ readUpTo file log)
    (output : entry.after.output = entry.before.output)
    (polls : Polls options (entry :: log) entry.after) :
    Late options path bytes (entry :: log) entry.after := by
  constructor
  case tail => exact since_cons.mpr (Or.inr ⟨quiet.tail, late.tail⟩)
  case present => exact quiet.files ▸ late.present
  case isLog => exact late.isLog
  case current =>
    intro file member
    rw [quiet.readUpTo]
    exact current file member
  case counted => exact counted_quiet quiet late.counted
  case output => rw [output, late.output, quiet.bytesRead]
  case stream => rw [quiet.behind, quiet.unread, quiet.bytesRead, late.stream]
  case polls => exact polls

/-- A poll starts. -/
theorem late_list {path file : Name} {bytes : List UInt8} {log : List LogsEntry}
    {before : Follower} (late : Late options path bytes log before)
    (found : latestLogFile before.files = some file)
    (there : ∀ write ∈ unread log, write.2 = [] ∨ Newest before.files write.1) :
    Late options path bytes (⟨before, .list, (), before.choose file⟩ :: log)
      (before.choose file) := by
  have newest := latest_newest found
  have above := newest.2.2 path (AList.mem_keys.mp late.present) late.isLog
  have files : (before.choose file).files = before.files := by
    unfold Follower.choose
    split <;> rfl
  have current : (before.choose file).current = some file := by
    unfold Follower.choose
    split
    · assumption
    · rfl
  have offset : (before.choose file).offset ≤ readUpTo file log := by
    unfold Follower.choose
    split
    · rename_i same
      exact (late.current file same).2
    · exact Nat.zero_le _
  have quiet : Quiet ⟨before, .list, (), before.choose file⟩ :=
    ⟨nofun, nofun, nofun, nofun, files⟩
  apply late_quiet late quiet
  · intro other member
    obtain rfl := Option.some.inj (member.symm.trans current)
    exact ⟨above, offset⟩
  · change (before.choose file).output = before.output
    unfold Follower.choose
    split <;> rfl
  · refine .chosen file (by unfold Follower.choose; split <;> rfl) ⟨current, ?_, newest.2.1, ?_⟩
    · exact files ▸ newest.1
    · refine ⟨unread log, [], by rw [quiet.unread, List.append_nil], ?_, by simp, fun _ => rfl⟩
      exact fun write member => (there write member).imp_right newest.unique

/-- A poll reads the length of its file. -/
theorem late_stat {path file : Name} {bytes : List UInt8} {log : List LogsEntry}
    {before : Follower} (late : Late options path bytes log before)
    (reading : Reading file log before) :
    Late options path bytes (⟨before, .stat, (), before.measure file⟩ :: log)
      (before.measure file) := by
  obtain ⟨above, behindRead⟩ := late.current file reading.current
  have bound := late.counted.bound file reading.isLog above
  -- the file has not become shorter
  have measured : before.measure file = { before with
      phase := if (content before.files file).length = before.offset then .sleeping
        else .stated file (content before.files file).length } := by
    have long : ¬ (content before.files file).length < before.offset := by omega
    simp only [Follower.measure, if_neg long]
  have quiet : Quiet ⟨before, .stat, (), before.measure file⟩ :=
    ⟨nofun, nofun, nofun, nofun, by rw [measured]⟩
  apply late_quiet late quiet
  · intro other member
    rw [measured] at member ⊢
    exact late.current other member
  · change (before.measure file).output = before.output
    rw [measured]
  · rw [measured] at quiet ⊢
    by_cases same : (content before.files file).length = before.offset
    · refine .sleeping (if_pos same) ?_
      intro polled
      obtain ⟨apart, all⟩ := reading_bytes reading
      have missing := late.counted.missing file reading.isLog above
      have short : (content before.files file).length ≤ readUpTo file log := by omega
      rw [List.drop_eq_nil_of_le short] at missing
      rw [quiet.unread, apart, missing, all (polled_before (by simp) polled)]
      rfl
    · refine .stated file _ (if_neg same) ?_ (le_refl _)
      obtain ⟨front, back, shape, own, others, polled⟩ := reading.order
      exact ⟨reading.current, reading.present, reading.isLog, front, back,
        by rw [quiet.unread, shape], own, others, fun now => polled (polled_before (by simp) now)⟩

theorem late_missed {path : Name} {bytes : List UInt8} {log : List LogsEntry} {before : Follower}
    (late : Late options path bytes log before) :
    Late options path bytes (⟨before, .failed, (), { before with phase := .sleeping }⟩ :: log)
      { before with phase := .sleeping } := by
  have quiet : Quiet ⟨before, .failed, (), { before with phase := .sleeping }⟩ := by
    constructor <;> simp
  apply late_quiet late quiet late.current rfl
  exact .sleeping rfl (fun polled => (not_polled (by simp) (by simp) (by simp) polled).elim)

theorem early_phase {log : List LogsEntry} {state : Follower} (early : Early log state) :
    state.phase ≠ .sleeping ∧ (∀ path, state.phase ≠ .chosen path) ∧
      ∀ path len, state.phase ≠ .stated path len := by
  rcases early.phase with here | ⟨_, -, here | ⟨_, here⟩⟩ <;> simp [here]

theorem late_phase {path : Name} {bytes : List UInt8} {log : List LogsEntry} {state : Follower}
    (late : Late options path bytes log state) :
    state.phase ≠ .starting ∧ (∀ path, state.phase ≠ .found path) ∧
      ∀ path start, state.phase ≠ .measured path start := by
  rcases late.polls with ⟨here, -⟩ | ⟨here, -⟩ | ⟨_, here, -⟩ | ⟨_, _, here, -, -⟩ <;> simp [here]

/-- A step before the tail is read. -/
theorem early_quiet {log : List LogsEntry} {entry : LogsEntry} (early : Early log entry.before)
    (tail : entry.event ≠ .readTail) (poll : entry.event ≠ .read)
    (output : entry.after.output = entry.before.output)
    (current : entry.after.current = entry.before.current)
    {path : Name} (looked : Looked path (entry :: log) entry.after)
    (phase : entry.after.phase = .found path ∨ ∃ start, entry.after.phase = .measured path start) :
    Early (entry :: log) entry.after where
  quiet := List.forall_mem_cons.mpr ⟨⟨tail, poll⟩, early.quiet⟩
  output := output.trans early.output
  current := current.trans early.current
  phase := Or.inr ⟨path, looked, phase⟩

/-- Up to the tail. -/
theorem early_step {event : LogsEvent} {log : List LogsEntry} {before after : Follower}
    (early : Early log before) (taken : Took options before event after)
    (meets : Meets options log ⟨before, event, (), after⟩) :
    Early (⟨before, event, (), after⟩ :: log) after ∨
      ∃ path bytes, Late options path bytes (⟨before, event, (), after⟩ :: log) after := by
  obtain ⟨notSleeping, notChosen, notStated⟩ := early_phase early
  have looked {path : Name} (here : before.phase = .found path ∨
      ∃ start, before.phase = .measured path start) : Looked path log before := by
    rcases early.phase with other | ⟨found, looked, there⟩
    · simp [other] at here
    · rcases here with here | ⟨start, here⟩
      all_goals
        simp [here] at there
        obtain rfl := there
        exact looked
  cases taken with
  | append name bytes isLog => exact Or.inl (early_append early isLog rfl)
  | latest path phase found =>
      have chosen : Looked path (⟨before, .latest, (), { before with phase := .found path }⟩ :: log)
          { before with phase := .found path } :=
        looked_latest (latest_newest found) (early_nothing early.quiet).2.1 rfl
      exact Or.inl (early_quiet early nofun nofun rfl rfl chosen (Or.inl rfl))
  | nothing phase none =>
      obtain ⟨name, member, isLog⟩ := meets
      obtain ⟨path, found⟩ := latest_some (AList.mem_keys.mpr member) isLog
      rw [none] at found
      cases found
  | openTail path phase =>
      exact Or.inl (early_quiet early nofun nofun rfl rfl
        (looked_quiet (looked (Or.inl phase)) ⟨nofun, nofun, nofun, nofun, rfl⟩) (Or.inr ⟨_, rfl⟩))
  | readTail path start phase =>
      simp only [Meets, phase] at meets
      exact Or.inr ⟨path, _, late_tail early (looked (Or.inr ⟨start, phase⟩)) rfl phase meets rfl
        rfl rfl rfl⟩
  | list path phase found => exact absurd phase notSleeping
  | gone phase none => exact absurd phase notSleeping
  | stat path phase => exact absurd phase (notChosen path)
  | read path len phase => exact absurd phase (notStated path len)
  | readFailed path len phase => exact absurd phase (notStated path len)
  | gaveUp phase =>
      rcases phase with here | ⟨path, here⟩ | ⟨path, start, here⟩ <;> simp [Meets, here] at meets
  | missed phase =>
      rcases phase with here | ⟨path, here⟩ | ⟨path, len, here⟩
      · exact absurd here notSleeping
      · exact absurd here (notChosen path)
      · exact absurd here (notStated path len)

/-- From the tail on. -/
theorem late_step {path : Name} {bytes : List UInt8} {event : LogsEvent} {log : List LogsEntry}
    {before after : Follower} (late : Late options path bytes log before)
    (taken : Took options before event after)
    (meets : Meets options log ⟨before, event, (), after⟩) :
    Late options path bytes (⟨before, event, (), after⟩ :: log) after := by
  obtain ⟨notStarting, notFound, notMeasured⟩ := late_phase late
  cases taken with
  | append name written isLog => exact late_append late isLog meets rfl
  | latest file phase found => exact absurd phase notStarting
  | nothing phase none => exact absurd phase notStarting
  | openTail file phase => exact absurd phase (notFound file)
  | readTail file start phase => exact absurd phase (notMeasured file start)
  | list file phase found => exact late_list late found meets
  | gone phase none =>
      obtain ⟨file, found⟩ := latest_some late.present late.isLog
      rw [none] at found
      cases found
  | stat file phase =>
      rcases late.polls with ⟨here, -⟩ | ⟨here, -⟩ | ⟨other, here, reading⟩ |
        ⟨other, len, here, -, -⟩
      all_goals
        rw [phase] at here
        cases here
      exact late_stat late reading
  | read file len phase =>
      rcases late.polls with ⟨here, -⟩ | ⟨here, -⟩ | ⟨other, here, -⟩ |
        ⟨other, len, here, reading, bound⟩
      all_goals
        rw [phase] at here
        cases here
      simp only [Meets, phase] at meets
      exact late_read late reading bound rfl phase meets.1 meets.2 rfl
  | readFailed file len phase => exact meets.elim
  | gaveUp phase =>
      rcases phase with here | ⟨path, here⟩ | ⟨path, start, here⟩
      · exact absurd here notStarting
      · exact absurd here (notFound path)
      · exact absurd here (notMeasured path start)
  | missed phase => exact late_missed late

theorem followed {files : Directory} {log : List LogsEntry} {final : Follower}
    (run : Run (logsMachine options) (.start files) log final) (met : Met options log) :
    Early log final ∨ ∃ path bytes, Late options path bytes log final := by
  induction run with
  | start => exact Or.inl ⟨List.forall_mem_nil _, rfl, rfl, Or.inl rfl⟩
  | step earlier taken ih =>
      rcases ih met.2 with early | ⟨path, bytes, late⟩
      · exact early_step early (took taken) met.1
      · exact Or.inr ⟨path, bytes, late_step late (took taken) met.1⟩

/-- A run whose steps meet the condition prints the last lines of the newest file and behind them
what is written behind the tail, once and in order. -/
theorem logs_followed {files : Directory} {log : List LogsEntry} {final : Follower}
    (run : Run (logsMachine options) (.start files) log final) (met : Met options log) :
    Follows options log final := by
  rcases followed run met with early | ⟨path, bytes, late⟩
  · refine ⟨fun _ => ?_, Or.inl ⟨fun entry member => (early.quiet entry member).1, early.output⟩⟩
    rcases early.phase with here | ⟨_, -, here | ⟨_, here⟩⟩ <;> simp [here]
  · constructor
    · intro on
      rcases late.polls with ⟨-, off⟩ | ⟨here, -⟩ | ⟨_, here, -⟩ | ⟨_, _, here, -, -⟩
      · rw [on] at off
        cases off
      all_goals simp [here]
    · refine Or.inr ⟨path, bytes, _, _, late.tail, late.stream, late.output, ?_⟩
      intro asleep polled
      rcases late.polls with ⟨here, -⟩ | ⟨-, done⟩ | ⟨_, here, -⟩ | ⟨_, _, here, -, -⟩
      · simp [here] at asleep
      · exact done polled
      · simp [here] at asleep
      · simp [here] at asleep

/-! A day's log with one line in it. -/

instance (options : LogsOptions) (earlier : List LogsEntry) (entry : LogsEntry) :
    Decidable (Meets options earlier entry) := by
  unfold Meets
  dsimp only
  split <;> infer_instance

instance decidableMet (options : LogsOptions) : ∀ log, Decidable (Met options log)
  | [] => inferInstanceAs (Decidable True)
  | _ :: earlier =>
      have := decidableMet options earlier
      inferInstanceAs (Decidable (_ ∧ _))

def dayLog : Name := utf8 "raemoted.2026-01-01.log".toList

def nextLog : Name := utf8 "raemoted.2026-01-02.log".toList

def oneLine : Directory := AList.singleton dayLog (utf8 "started\n".toList)

def tailSteps : List LogsEvent := [.latest, .openTail, .readTail]

def pollSteps : List LogsEvent := [.list, .stat, .read]

theorem rotation_followed : ∃ log final,
    Run (logsMachine ⟨10, true⟩) (.start oneLine) log final ∧ Met ⟨10, true⟩ log ∧
      Follows ⟨10, true⟩ log final ∧
      final.output = "started\nrotated\nstopped\n".toList := by
  obtain ⟨log, final, -, run, met, output⟩ := exec_checked
    (logsMachine ⟨10, true⟩) (.start oneLine)
    (tailSteps ++ [.append nextLog (utf8 "rotated\n".toList)] ++ pollSteps ++
      [.append nextLog (utf8 "stopped\n".toList)] ++ pollSteps)
    (fun log final => Met ⟨10, true⟩ log ∧ final.output = "started\nrotated\nstopped\n".toList)
    (by decide +kernel)
  exact ⟨log, final, run, met, logs_followed run met, output⟩

/-- Only the daemon writes. -/
theorem files_kept {files : Directory} {log : List LogsEntry} {final : Follower}
    (run : Run (logsMachine options) (.start files) log final)
    (nothing : ∀ entry ∈ log, ∀ name bytes, entry.event ≠ .append name bytes) :
    final.files = files := by
  apply run.invariant_of_allowed (fun state => state.files = files)
    (fun entry => ∀ name bytes, entry.event ≠ .append name bytes) nothing rfl
  intro before event output after taken calm same
  cases took taken with
  | append name bytes isLog => exact absurd rfl (calm name bytes)
  | list path phase found =>
      unfold Follower.choose
      split <;> exact same
  | _ => exact same

/-- With nothing written, the tail is of the newest file as it is. -/
theorem tail_unchanged {files : Directory} {path : Name} {bytes : List UInt8}
    {log : List LogsEntry} {final : Follower}
    (run : Run (logsMachine options) (.start files) log final)
    (nothing : ∀ entry ∈ log, ∀ name bytes, entry.event ≠ .append name bytes)
    (tail : TailOf path bytes log) : Newest files path ∧ bytes = content files path := by
  have same {later earlier : List LogsEntry} {entry : LogsEntry}
      (shape : log = later ++ entry :: earlier) : entry.before.files = files := by
    subst shape
    apply files_kept run.split.1
    intro other member
    exact nothing other (List.mem_append_right later (List.mem_cons_of_mem entry member))
  obtain ⟨later, read, before, shape, ⟨-, held, newest⟩, -⟩ := tail
  obtain ⟨between, look, earlier, rfl, ⟨-, newest⟩, -⟩ := newest
  rw [same shape] at held
  rw [@same (later ++ read :: between) earlier look (by simp [shape])] at newest
  exact ⟨newest, held.symm⟩

/-- The first poll prints the file again from its beginning. -/
theorem tail_repeated : ∃ log final,
    Run (logsMachine ⟨10, true⟩) (.start oneLine) log final ∧
      (∀ entry ∈ log, ∀ name bytes, entry.event ≠ .append name bytes) ∧
      final.output = "started\nstarted\n".toList ∧ ¬ Follows ⟨10, true⟩ log final := by
  obtain ⟨log, final, -, run, listed, readTail, none, output⟩ := exec_checked
    (logsMachine ⟨10, true⟩) (.start oneLine) (tailSteps ++ pollSteps)
    (fun log final => (∀ entry ∈ log, entry.event ∈ tailSteps ++ pollSteps) ∧
      (∃ entry ∈ log, entry.event = .readTail) ∧ behind log = [] ∧
      final.output = "started\nstarted\n".toList)
    (by decide +kernel)
  have quiet : ∀ entry ∈ log, ∀ name bytes, entry.event ≠ .append name bytes := by
    intro entry member name bytes writes
    have inside := listed entry member
    rw [writes] at inside
    simp [tailSteps, pollSteps] at inside
  refine ⟨log, final, run, quiet, output, ?_⟩
  rintro ⟨-, ⟨noTail, -⟩ | ⟨path, bytes, printed, pending, tail, stream, shape, -⟩⟩
  · obtain ⟨entry, member, reads⟩ := readTail
    exact noTail entry member reads
  · rw [none] at stream
    obtain ⟨rfl, -⟩ := List.append_eq_nil_iff.mp stream.symm
    obtain ⟨newest, rfl⟩ := tail_unchanged run quiet tail
    have here : path = dayLog := by
      have member := AList.mem_keys.mp newest.1
      simpa [oneLine, AList.keys_singleton] using member
    rw [output, here] at shape
    revert shape
    decide +kernel

end RaemoteServer.Logs
