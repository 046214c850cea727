import Mathlib.Logic.Function.Basic
import RaemoteServer.EndpointId
import RaemoteServer.Library.Numbers
import RaemoteServer.Library.Runs
import RaemoteServer.Library.Utf8

/-! The processes of one data directory: daemons, and commands that only ask whether the lock is
held. Any of them can die between two system calls, and the kernel then drops its lock and closes
its socket; the files stay. -/

namespace RaemoteServer.Instance

open Text Runs

abbrev Pid := UInt32

structure DaemonInfo where
  pid : Pid
  startedAtUnix : UInt64
  socketPath : Str
  ipcToken : Str
  version : Str
  deriving DecidableEq

/-- `serde_json` at `DaemonInfo`. What is written is read back. -/
structure JsonDaemonInfo where
  toStringPretty : DaemonInfo → Option Str
  fromStr : Str → Option DaemonInfo
  read_back : ∀ info text, toStringPretty info = some text → fromStr text = some info

/-- `serde_json` at one value, with its text. -/
def JsonDaemonInfo.only (info : DaemonInfo) (text : Str) : JsonDaemonInfo where
  toStringPretty other := if other = info then some text else none
  fromStr other := if other = text then some info else none
  read_back other written same := by
    split at same
    · rename_i equal
      rw [if_pos (Option.some.inj same).symm, equal]
    · cases same

inductive Role where
  /-- `daemon::run` -/
  | daemon
  /-- `is_held`, which gives the lock back at once. -/
  | check
  deriving DecidableEq

/-- The last system call that a process made. -/
inductive Stage where
  | opened
  | refused
  | locked
  /-- `set_len(0)` is called, and its error ignored. -/
  | cleared (emptied : Bool)
  /-- `acquire` has returned the lock. -/
  | held
  /-- The first bytes of `daemon.tmp` are written. -/
  | writing (info : DaemonInfo) (content : List UInt8) (written : Nat)
  | published (info : DaemonInfo)
  | unlinked (info : DaemonInfo) (removed : Bool)
  | serving (info : DaemonInfo)
  /-- The IPC server has failed, and the daemon runs on without it. -/
  | headless (info : DaemonInfo)
  | stopping (info : DaemonInfo)
  | socketRemoved (info : DaemonInfo)
  | infoRemoved (info : DaemonInfo)
  deriving DecidableEq

/-- The shutdown is requested. -/
def Stage.leaving : Stage → Bool
  | .stopping _ | .socketRemoved _ | .infoRemoved _ => true
  | _ => false

structure Process where
  role : Role
  stage : Stage
  /-- The lock file is emptied and the whole pid is written to it. -/
  recorded : Bool
  deriving DecidableEq

structure System where
  /-- `daemon.lock` -/
  lock : Option (List UInt8)
  holder : Option Pid
  /-- `daemon.tmp` -/
  temporary : Option (List UInt8)
  /-- `daemon.json` -/
  metadata : Option (List UInt8)
  /-- `daemon.sock`, with the process that listens on it. -/
  socket : Option (Option Pid)
  process : Pid → Option Process

inductive Event where
  | open (pid : Pid) (role : Role)
  | tryLock (pid : Pid)
  | setLen (pid : Pid) (succeeds : Bool)
  /-- The first bytes of the pid are written. -/
  | record (pid : Pid) (written : Nat)
  | readOwner (pid : Pid)
  | drop (pid : Pid)
  | create (pid : Pid) (startedAtUnix : UInt64) (random : Bytes32)
  | write (pid : Pid) (written : Nat)
  | rename (pid : Pid)
  | unlink (pid : Pid) (succeeds : Bool)
  | bind (pid : Pid) (succeeds : Bool)
  | shutdown (pid : Pid)
  /-- The aborted IPC task is dropped, with its listener. -/
  | closeListener (pid : Pid)
  | removeSocket (pid : Pid) (succeeds : Bool)
  | removeInfo (pid : Pid) (succeeds : Bool)
  /-- The process returns, fails or is killed. -/
  | exit (pid : Pid)
  deriving DecidableEq

inductive Effect where
  | none
  /-- `daemon::run` gives up and names the owner. -/
  | bails (owner : Option UInt32)
  | isHeld (held : Bool)
  | listening
  | addressInUse
  deriving DecidableEq

/-- An empty data directory. -/
def start : System := ⟨none, none, none, none, none, fun _ => none⟩

def ownerPid (system : System) : Option UInt32 :=
  (system.lock.bind fromUtf8).bind (fun text => parseU32 (trim text))

/-- `read_daemon_json` -/
def readDaemonJson (json : JsonDaemonInfo) (system : System) : Option DaemonInfo :=
  (system.metadata.bind fromUtf8).bind json.fromStr

/-- The process that a client of `daemon.sock` is connected to. -/
def connect (system : System) : Option Pid := system.socket.join

/-- `daemon_running` of the CLI. -/
def daemonRunning (json : JsonDaemonInfo) (system : System) : Bool :=
  (readDaemonJson json system).isSome && (connect system).isSome

def pidBytes (pid : Pid) : List UInt8 := utf8 (decimal pid.toNat)

def daemonInfo (socketPath version : Str) (pid : Pid) (startedAtUnix : UInt64) (random : Bytes32) :
    DaemonInfo :=
  ⟨pid, startedAtUnix, socketPath, toHex random.bytes, version⟩

def System.put (system : System) (pid : Pid) (process : Option Process) : System :=
  { system with process := Function.update system.process pid process }

def System.enter (system : System) (pid : Pid) (process : Process) (stage : Stage) : System :=
  system.put pid (some { process with stage })

/-- The kernel closes the files of a process, its lock and its listener at once. A daemon that
returns drops its lock a little before the aborted IPC task drops the listener. -/
def System.release (system : System) (pid : Pid) : System :=
  { system.put pid none with
    holder := if system.holder = some pid then none else system.holder
    socket := if system.socket = some (some pid) then some none else system.socket }

section

variable (json : JsonDaemonInfo) (socketPath version : Str)

/-- One system call of one process. -/
def step (system : System) : Event → Option (Effect × System)
  | .open pid role =>
      match system.process pid with
      | some _ => none
      | none =>
          some (.none, { system.put pid (some ⟨role, .opened, false⟩) with
            lock := some (system.lock.getD []) })
  | .tryLock pid =>
      match system.process pid with
      | some ⟨role, .opened, recorded⟩ =>
          match system.holder, role with
          | none, _ =>
              some (.none, { system.put pid (some ⟨role, .locked, false⟩) with holder := some pid })
          | some _, .daemon => some (.none, system.enter pid ⟨role, .opened, recorded⟩ .refused)
          | some _, .check => some (.isHeld true, system.put pid none)
      | _ => none
  | .setLen pid succeeds =>
      match system.process pid with
      | some ⟨role, .locked, _⟩ =>
          some (.none, { system.put pid (some ⟨role, .cleared succeeds, false⟩) with
            lock := if succeeds then some [] else system.lock })
      | _ => none
  | .record pid written =>
      match system.process pid with
      | some ⟨role, .cleared emptied, _⟩ =>
          let recorded := emptied && decide ((pidBytes pid).length ≤ written)
          some (.none, { system.put pid (some ⟨role, .held, recorded⟩) with
            lock := some ((pidBytes pid).take written ++ (system.lock.getD []).drop written) })
      | _ => none
  | .readOwner pid =>
      match system.process pid with
      | some ⟨_, .refused, _⟩ => some (.bails (ownerPid system), system.put pid none)
      | _ => none
  | .drop pid =>
      match system.process pid with
      | some ⟨.check, .held, _⟩ => some (.isHeld false, system.release pid)
      | _ => none
  | .create pid startedAtUnix random =>
      match system.process pid with
      | some ⟨.daemon, .held, recorded⟩ =>
          let info := daemonInfo socketPath version pid startedAtUnix random
          (json.toStringPretty info).map (fun content =>
            (.none, { system.enter pid ⟨.daemon, .held, recorded⟩
            (.writing info (utf8 content) 0) with
              temporary := some [] }))
      | _ => none
  | .write pid written =>
      match system.process pid with
      | some ⟨role, .writing info content before, recorded⟩ =>
          some (.none, { system.enter pid ⟨role, .writing info content before, recorded⟩
              (.writing info content written) with
            temporary := some (content.take written) })
      | _ => none
  | .rename pid =>
      match system.process pid with
      | some ⟨role, .writing info content written, recorded⟩ =>
          if content.length ≤ written ∧ system.temporary.isSome then
            some (.none, { system.enter pid ⟨role, .writing info content written, recorded⟩
                (.published info) with
              temporary := none, metadata := system.temporary })
          else none
      | _ => none
  | .unlink pid succeeds =>
      match system.process pid with
      | some ⟨role, .published info, recorded⟩ =>
          some (.none, { system.enter pid ⟨role, .published info, recorded⟩
              (.unlinked info succeeds) with
            socket := if succeeds then none else system.socket })
      | _ => none
  | .bind pid succeeds =>
      match system.process pid with
      | some ⟨role, .unlinked info removed, recorded⟩ =>
          let process := ⟨role, .unlinked info removed, recorded⟩
          if system.socket.isSome then
            some (.addressInUse, system.enter pid process (.headless info))
          else if succeeds then
            some (.listening, { system.enter pid process (.serving info) with
              socket := some (some pid) })
          else some (.none, system.enter pid process (.headless info))
      | _ => none
  | .shutdown pid =>
      match system.process pid with
      | some ⟨role, .serving info, recorded⟩ =>
          some (.none, system.enter pid ⟨role, .serving info, recorded⟩ (.stopping info))
      | _ => none
  | .closeListener pid =>
      match system.process pid with
      | some process =>
          if process.stage.leaving ∧ system.socket = some (some pid) then
            some (.none, { system with socket := some none })
          else none
      | none => none
  | .removeSocket pid succeeds =>
      match system.process pid with
      | some ⟨role, .stopping info, recorded⟩ =>
          some (.none, { system.enter pid ⟨role, .stopping info, recorded⟩
              (.socketRemoved info) with
            socket := if succeeds then none else system.socket })
      | _ => none
  | .removeInfo pid succeeds =>
      match system.process pid with
      | some ⟨role, .socketRemoved info, recorded⟩ =>
          some (.none, { system.enter pid ⟨role, .socketRemoved info, recorded⟩
              (.infoRemoved info) with
            metadata := if succeeds then none else system.metadata })
      | _ => none
  | .exit pid =>
      match system.process pid with
      | some _ => some (.none, system.release pid)
      | none => none

def machine : Machine System Event Effect := ⟨step json socketPath version⟩

end

/-- What one step can do. -/
inductive Stepped (json : JsonDaemonInfo) (socketPath version : Str) (before : System) :
    Event → Effect → System → Prop
  | opens {pid : Pid} {role : Role} (absent : before.process pid = none) :
      Stepped json socketPath version before (.open pid role) .none
        { before.put pid (some ⟨role, .opened, false⟩) with lock := some (before.lock.getD []) }
  | locks {pid : Pid} {role : Role} {recorded : Bool}
      (here : before.process pid = some ⟨role, .opened, recorded⟩) (free : before.holder = none) :
      Stepped json socketPath version before (.tryLock pid) .none
        { before.put pid (some ⟨role, .locked, false⟩) with holder := some pid }
  | refuses {pid holder : Pid} {recorded : Bool}
      (here : before.process pid = some ⟨.daemon, .opened, recorded⟩)
      (taken : before.holder = some holder) :
      Stepped json socketPath version before (.tryLock pid) .none
        (before.put pid (some ⟨.daemon, .refused, recorded⟩))
  | isHeld {pid holder : Pid} {recorded : Bool}
      (here : before.process pid = some ⟨.check, .opened, recorded⟩)
      (taken : before.holder = some holder) :
      Stepped json socketPath version before (.tryLock pid) (.isHeld true) (before.put pid none)
  | empties {pid : Pid} {succeeds : Bool} {role : Role} {recorded : Bool}
      (here : before.process pid = some ⟨role, .locked, recorded⟩) :
      Stepped json socketPath version before (.setLen pid succeeds) .none
        { before.put pid (some ⟨role, .cleared succeeds, false⟩) with
          lock := if succeeds then some [] else before.lock }
  | records {pid : Pid} {written : Nat} {role : Role} {emptied recorded : Bool}
      (here : before.process pid = some ⟨role, .cleared emptied, recorded⟩) :
      Stepped json socketPath version before (.record pid written) .none
        { before.put pid
            (some ⟨role, .held, emptied && decide ((pidBytes pid).length ≤ written)⟩) with
          lock := some ((pidBytes pid).take written ++ (before.lock.getD []).drop written) }
  | bails {pid : Pid} {role : Role} {recorded : Bool}
      (here : before.process pid = some ⟨role, .refused, recorded⟩) :
      Stepped json socketPath version before (.readOwner pid) (.bails (ownerPid before))
        (before.put pid none)
  | drops {pid : Pid} {recorded : Bool}
      (here : before.process pid = some ⟨.check, .held, recorded⟩) :
      Stepped json socketPath version before (.drop pid) (.isHeld false) (before.release pid)
  | creates {pid : Pid} {startedAtUnix : UInt64} {random : Bytes32} {recorded : Bool} {text : Str}
      (here : before.process pid = some ⟨.daemon, .held, recorded⟩)
      (rendered : json.toStringPretty (daemonInfo socketPath version pid startedAtUnix random) =
        some text) :
      Stepped json socketPath version before (.create pid startedAtUnix random) .none
        { before.put pid (some ⟨.daemon,
            .writing (daemonInfo socketPath version pid startedAtUnix random) (utf8 text) 0,
            recorded⟩) with
          temporary := some [] }
  | writes {pid : Pid} {written earlier : Nat} {role : Role} {info : DaemonInfo}
      {content : List UInt8} {recorded : Bool}
      (here : before.process pid = some ⟨role, .writing info content earlier, recorded⟩) :
      Stepped json socketPath version before (.write pid written) .none
        { before.put pid (some ⟨role, .writing info content written, recorded⟩) with
          temporary := some (content.take written) }
  | renames {pid : Pid} {written : Nat} {role : Role} {info : DaemonInfo} {content : List UInt8}
      {recorded : Bool}
      (here : before.process pid = some ⟨role, .writing info content written, recorded⟩)
      (all : content.length ≤ written) :
      Stepped json socketPath version before (.rename pid) .none
        { before.put pid (some ⟨role, .published info, recorded⟩) with
          temporary := none, metadata := before.temporary }
  | unlinks {pid : Pid} {succeeds : Bool} {role : Role} {info : DaemonInfo} {recorded : Bool}
      (here : before.process pid = some ⟨role, .published info, recorded⟩) :
      Stepped json socketPath version before (.unlink pid succeeds) .none
        { before.put pid (some ⟨role, .unlinked info succeeds, recorded⟩) with
          socket := if succeeds then none else before.socket }
  | listens {pid : Pid} {role : Role} {info : DaemonInfo} {removed recorded : Bool}
      (here : before.process pid = some ⟨role, .unlinked info removed, recorded⟩)
      (free : before.socket = none) :
      Stepped json socketPath version before (.bind pid true) .listening
        { before.put pid (some ⟨role, .serving info, recorded⟩) with socket := some (some pid) }
  | fails {pid : Pid} {succeeds : Bool} {effect : Effect} {role : Role} {info : DaemonInfo}
      {removed recorded : Bool}
      (here : before.process pid = some ⟨role, .unlinked info removed, recorded⟩)
      (used : effect = .addressInUse ↔ before.socket.isSome) (silent : effect ≠ .listening) :
      Stepped json socketPath version before (.bind pid succeeds) effect
        (before.put pid (some ⟨role, .headless info, recorded⟩))
  | shutsDown {pid : Pid} {role : Role} {info : DaemonInfo} {recorded : Bool}
      (here : before.process pid = some ⟨role, .serving info, recorded⟩) :
      Stepped json socketPath version before (.shutdown pid) .none
        (before.put pid (some ⟨role, .stopping info, recorded⟩))
  | closes {pid : Pid} {process : Process} (here : before.process pid = some process)
      (leaving : process.stage.leaving = true) (listens : before.socket = some (some pid)) :
      Stepped json socketPath version before (.closeListener pid) .none
        { before with socket := some none }
  | removesSocket {pid : Pid} {succeeds : Bool} {role : Role} {info : DaemonInfo} {recorded : Bool}
      (here : before.process pid = some ⟨role, .stopping info, recorded⟩) :
      Stepped json socketPath version before (.removeSocket pid succeeds) .none
        { before.put pid (some ⟨role, .socketRemoved info, recorded⟩) with
          socket := if succeeds then none else before.socket }
  | removesInfo {pid : Pid} {succeeds : Bool} {role : Role} {info : DaemonInfo} {recorded : Bool}
      (here : before.process pid = some ⟨role, .socketRemoved info, recorded⟩) :
      Stepped json socketPath version before (.removeInfo pid succeeds) .none
        { before.put pid (some ⟨role, .infoRemoved info, recorded⟩) with
          metadata := if succeeds then none else before.metadata }
  | exits {pid : Pid} {process : Process} (here : before.process pid = some process) :
      Stepped json socketPath version before (.exit pid) .none (before.release pid)

theorem step_cases {json : JsonDaemonInfo} {socketPath version : Str} {before after : System}
    {event : Event} {effect : Effect}
    (taken : step json socketPath version before event = some (effect, after)) :
    Stepped json socketPath version before event effect after := by
  cases event with
  | «open» pid role =>
      simp only [step] at taken
      split at taken
      · cases taken
      · rename_i absent
        cases taken
        exact .opens absent
  | tryLock pid =>
      simp only [step] at taken
      split at taken
      · rename_i role recorded here
        split at taken
        · rename_i free
          cases taken
          exact .locks here free
        · rename_i holder held
          cases taken
          exact .refuses here held
        · rename_i holder held
          cases taken
          exact .isHeld here held
      · cases taken
  | setLen pid succeeds =>
      simp only [step] at taken
      split at taken
      · rename_i here
        cases taken
        exact .empties here
      · cases taken
  | record pid written =>
      simp only [step] at taken
      split at taken
      · rename_i here
        cases taken
        exact .records here
      · cases taken
  | readOwner pid =>
      simp only [step] at taken
      split at taken
      · rename_i here
        cases taken
        exact .bails here
      · cases taken
  | drop pid =>
      simp only [step] at taken
      split at taken
      · rename_i here
        cases taken
        exact .drops here
      · cases taken
  | create pid startedAtUnix random =>
      simp only [step] at taken
      split at taken
      · rename_i here
        obtain ⟨text, rendered, same⟩ := Option.map_eq_some_iff.mp taken
        cases same
        exact .creates here rendered
      · cases taken
  | write pid written =>
      simp only [step] at taken
      split at taken
      · rename_i here
        cases taken
        exact .writes here
      · cases taken
  | rename pid =>
      simp only [step] at taken
      split at taken
      · rename_i here
        split at taken
        · rename_i ready
          cases taken
          exact .renames here ready.1
        · cases taken
      · cases taken
  | unlink pid succeeds =>
      simp only [step] at taken
      split at taken
      · rename_i here
        cases taken
        exact .unlinks here
      · cases taken
  | bind pid succeeds =>
      simp only [step] at taken
      split at taken
      · rename_i here
        by_cases used : before.socket.isSome
        · rw [if_pos used] at taken
          cases taken
          exact .fails here (by simp [used]) (by simp)
        · rw [if_neg used] at taken
          split at taken
          · rename_i succeeded
            cases taken
            subst succeeded
            exact .listens here (by simpa using used)
          · cases taken
            exact .fails here (by simp [used]) (by simp)
      · cases taken
  | shutdown pid =>
      simp only [step] at taken
      split at taken
      · rename_i here
        cases taken
        exact .shutsDown here
      · cases taken
  | closeListener pid =>
      simp only [step] at taken
      split at taken
      · rename_i here
        split at taken
        · rename_i ready
          cases taken
          exact .closes here ready.1 ready.2
        · cases taken
      · cases taken
  | removeSocket pid succeeds =>
      simp only [step] at taken
      split at taken
      · rename_i here
        cases taken
        exact .removesSocket here
      · cases taken
  | removeInfo pid succeeds =>
      simp only [step] at taken
      split at taken
      · rename_i here
        cases taken
        exact .removesInfo here
      · cases taken
  | exit pid =>
      simp only [step] at taken
      split at taken
      · rename_i here
        cases taken
        exact .exits here
      · cases taken

end RaemoteServer.Instance
