import RaemoteServer.Ipc
import RaemoteServer.Library.Runs

/-! Both ends of one IPC connection, with the bytes that are under way between them. The kernel
hands them over in pieces of any size, and either end can go away at any time. -/

namespace RaemoteServer.Ipc

open Text Runs

/-- One direction of the socket. -/
structure Pipe where
  /-- What `write_all` has not handed to the kernel yet. -/
  unsent : List UInt8
  flight : List UInt8
  /-- What the `read_line` at the other end has of its line. -/
  pending : List UInt8
  deriving DecidableEq

def Pipe.new : Pipe := ⟨[], [], []⟩

def Pipe.send (pipe : Pipe) (text : Str) : Pipe :=
  { pipe with unsent := pipe.unsent ++ utf8 text ++ [newline] }

def Pipe.write (pipe : Pipe) (size : Nat) : Pipe :=
  { pipe with
    unsent := pipe.unsent.drop size, flight := pipe.flight ++ pipe.unsent.take size }

/-- The writer goes away. -/
def Pipe.abandon (pipe : Pipe) : Pipe := { pipe with unsent := [] }

/-- One read of a buffered reader. A completed line drops the reader, with all it holds beyond. -/
def Pipe.receive (pipe : Pipe) (size : Nat) : Option (List UInt8) × Pipe :=
  match cutLine (pipe.flight.take size) with
  | some (front, _) =>
      (some (pipe.pending ++ front ++ [newline]), { pipe with
        flight := pipe.flight.drop size, pending := [] })
  | none =>
      (none, { pipe with
        flight := pipe.flight.drop size, pending := pipe.pending ++ pipe.flight.take size })

/-- What `serde_json` writes: one line, that starts and ends with a brace or a quote. It is read
back, and no beginning of it is a message. -/
structure JsonLine {Message : Type} (fromStr : Str → Option Message) (message : Message)
    (text : Str) : Prop where
  read_back : fromStr text = some message
  one_line : '\n' ∉ text
  tight : trim text = text
  present : text ≠ []
  closed : ∀ front back, text = front ++ back → back ≠ [] → fromStr (trim front) = none

/-- `serde_json` at the messages. -/
structure JsonMessage (Message : Type) where
  toString : Message → Option Str
  fromStr : Str → Option Message
  line : ∀ message text, toString message = some text → JsonLine fromStr message text

/-- How far a method of `IpcClient` is. -/
inductive Client where
  | connecting
  | greeting
  | ready
  | awaiting (request : Request)
  /-- The client is dropped with its error. -/
  | failed (message : Str)
  /-- The process is done, or killed. -/
  | gone
  deriving DecidableEq

def Client.left : Client → Bool
  | .failed _ | .gone => true
  | _ => false

def Client.reads : Client → Bool
  | .greeting | .awaiting _ => true
  | _ => false

/-- How far `handle_client` is. -/
inductive Server where
  | greeting
  | reading
  | handling (request : Request)
  | denying
  | finished (outcome : Except Str Unit)
  /-- With the daemon. -/
  | exited
  deriving DecidableEq

def Server.left : Server → Bool
  | .finished _ | .exited => true
  | _ => false

def Server.reads : Server → Bool
  | .greeting | .reading => true
  | _ => false

theorem Client.present_of_reads {client : Client} (reads : client.reads = true) :
    client.left = false := by
  cases client with
  | greeting | awaiting => rfl
  | _ => cases reads

theorem Server.present_of_reads {server : Server} (reads : server.reads = true) :
    server.left = false := by
  cases server with
  | greeting | reading => rfl
  | _ => cases reads

structure Connection (Answer : Type) where
  client : Client
  server : Server
  up : Pipe
  down : Pipe
  /-- The requests that the client has begun to send. -/
  asked : List Request
  served : List (Request × Answer)
  answered : List (Request × Answer)
  deriving DecidableEq

def Connection.new {Answer : Type} : Connection Answer :=
  ⟨.connecting, .greeting, .new, .new, [], [], []⟩

inductive Event (Answer : Type) where
  | hello
  | request (request : Request)
  | clientWrites (size : Nat)
  | serverReads (size : Nat)
  /-- The handler of the daemon returns. -/
  | handled (answer : Answer)
  | serverWrites (size : Nat)
  | clientReads (size : Nat)
  | serverCloses
  /-- The other end is closed, and all of its bytes are read. -/
  | serverEnds
  | clientEnds
  | clientDrops
  | daemonExits
  deriving DecidableEq

section

variable {Answer : Type} [DecidableEq Answer] (requests : JsonMessage Request)
  (answers : JsonMessage Answer) (ok denied : Answer)

/-- `read_raw`, at a line. -/
def readAnswer (read : List UInt8) : Except Str (Option Answer) :=
  match readText read with
  | none => .error "stream did not contain valid UTF-8".toList
  | some line =>
      if line = [] then .ok none
      else
        match answers.fromStr line with
        | none => .error "failed to parse IPC response".toList
        | some answer => .ok (some answer)

/-- The rest of `connect`. -/
def greeted (answer : Except Str (Option Answer)) : Client :=
  match answer with
  | .error message => .failed message
  | .ok (some answer) =>
      if answer = ok then .ready
      else if answer = denied then .failed "IPC authentication denied".toList
      else .failed "unexpected IPC response".toList
  | .ok none => .failed "IPC connection closed during handshake".toList

/-- `read_raw` returns. -/
def Connection.clientLine (connection : Connection Answer)
    (answer : Except Str (Option Answer)) : Connection Answer :=
  match connection.client with
  | .greeting => { connection with client := greeted ok denied answer }
  | .awaiting request =>
      match answer with
      | .error message => { connection with client := .failed message }
      | .ok none => { connection with client := .failed "IPC connection closed".toList }
      | .ok (some answer) =>
          { connection with
            client := .ready, answered := connection.answered ++ [(request, answer)] }
  | _ => connection

/-- `send_response`, and what the server goes on with. -/
def Connection.reply (connection : Connection Answer) (answer : Answer) (server : Server) :
    Connection Answer :=
  match answers.toString answer with
  | none => { connection with server := .finished (.error "failed to serialize".toList) }
  | some text => { connection with down := connection.down.send text, server }

/-- `read_request` returns. -/
def Connection.serverLine (ipcToken : Str) (connection : Connection Answer)
    (request : Except Str (Option (Str × Request))) : Connection Answer :=
  match connection.server with
  | .greeting =>
      match request with
      | .error message => { connection with server := .finished (.error message) }
      | .ok (some (_, .hello token)) =>
          if constantTimeEq token ipcToken then connection.reply answers ok .reading
          else connection.reply answers denied .denying
      | .ok _ => connection.reply answers denied .denying
  | .reading =>
      match request with
      | .error message => { connection with server := .finished (.error message) }
      | .ok none => { connection with server := .finished (.ok ()) }
      | .ok (some (_, request)) => { connection with server := .handling request }
  | _ => connection

def Connection.serverReads (ipcToken : Str) (connection : Connection Answer) (size : Nat) :
    Connection Answer :=
  match connection.up.receive size with
  | (none, up) => { connection with up }
  | (some read, up) =>
      Connection.serverLine answers ok denied ipcToken { connection with up }
        (readRequest requests.fromStr read)

def Connection.clientReads (connection : Connection Answer) (size : Nat) : Connection Answer :=
  match connection.down.receive size with
  | (none, down) => { connection with down }
  | (some read, down) =>
      Connection.clientLine ok denied { connection with down } (readAnswer answers read)

/-- The end of the stream, perhaps in the middle of a line. -/
def Connection.serverEnds (ipcToken : Str) (connection : Connection Answer) : Connection Answer :=
  Connection.serverLine answers ok denied ipcToken { connection with up := .new }
    (if connection.up.pending = [] then .ok none
      else readRequest requests.fromStr connection.up.pending)

def Connection.clientEnds (connection : Connection Answer) : Connection Answer :=
  Connection.clientLine ok denied { connection with down := .new }
    (if connection.down.pending = [] then .ok none
      else readAnswer answers connection.down.pending)

/-- `token` is what the client has read in `daemon.json`, and `ipcToken` the secret of the
daemon. -/
def step (token ipcToken : Str) (connection : Connection Answer) :
    Event Answer → Option (Unit × Connection Answer)
  | .hello =>
      match connection.client with
      | .connecting =>
          some ((), match requests.toString (.hello token) with
            | none => { connection with client := .failed "failed to serialize".toList }
            | some text => { connection with client := .greeting, up := connection.up.send text })
      | _ => none
  | .request request =>
      match connection.client with
      | .ready =>
          some ((), match requests.toString request with
            | none => connection
            | some text => { connection with
                client := .awaiting request, up := connection.up.send text
                asked := connection.asked ++ [request] })
      | _ => none
  | .clientWrites size =>
      if connection.client.left ∨ connection.up.unsent = [] then none
      else if connection.server.left then
        some ((), { connection with
          client := .failed "Broken pipe".toList, up := connection.up.abandon })
      else some ((), { connection with up := connection.up.write size })
  | .serverReads size =>
      if connection.server.reads ∧ connection.down.unsent = [] ∧ 0 < size ∧
          size ≤ connection.up.flight.length then
        some ((), connection.serverReads requests answers ok denied ipcToken size)
      else none
  | .handled answer =>
      match connection.server with
      | .handling request =>
          some ((), Connection.reply answers { connection with
            served := connection.served ++ [(request, answer)] } answer .reading)
      | _ => none
  | .serverWrites size =>
      if connection.server.left ∨ connection.down.unsent = [] then none
      else if connection.client.left then
        some ((), { connection with
          server := .finished (.error "Broken pipe".toList), down := connection.down.abandon })
      else some ((), { connection with down := connection.down.write size })
  | .clientReads size =>
      if connection.client.reads ∧ connection.up.unsent = [] ∧ 0 < size ∧
          size ≤ connection.down.flight.length then
        some ((), connection.clientReads answers ok denied size)
      else none
  | .serverCloses =>
      if connection.server = .denying ∧ connection.down.unsent = [] then
        some ((), { connection with server := .finished (.ok ()) })
      else none
  | .serverEnds =>
      if connection.server.reads ∧ connection.down.unsent = [] ∧ connection.client.left ∧
          connection.up.flight = [] then
        some ((), connection.serverEnds requests answers ok denied ipcToken)
      else none
  | .clientEnds =>
      if connection.client.reads ∧ connection.up.unsent = [] ∧ connection.server.left ∧
          connection.down.flight = [] then
        some ((), connection.clientEnds answers ok denied)
      else none
  | .clientDrops =>
      if connection.client.left then none
      else some ((), { connection with client := .gone, up := connection.up.abandon })
  | .daemonExits =>
      if connection.server.left then none
      else some ((), { connection with server := .exited, down := connection.down.abandon })

def machine (token ipcToken : Str) : Machine (Connection Answer) (Event Answer) Unit :=
  ⟨step requests answers ok denied token ipcToken⟩

end

/-! Lines and their beginnings. -/

/-- The line is under way; what is not sent any more is missing at its end. -/
structure Pipe.Carries (pipe : Pipe) (cut : Bool) (text : Str) : Prop where
  whole : ∃ rest, pipe.pending ++ pipe.flight ++ rest = utf8 text ++ [newline] ∧
    (pipe.unsent = rest ∨ cut = true ∧ pipe.unsent = [])
  unbroken : newline ∉ pipe.pending

def Pipe.Has (pipe : Pipe) (cut : Bool) : Option Str → Prop
  | none => pipe = .new
  | some text => pipe.Carries cut text

theorem Pipe.Has.idle {pipe : Pipe} {cut : Bool} {text : Option Str} (has : pipe.Has cut text)
    (nothing : text = none) : pipe = .new := by
  subst nothing
  exact has

theorem carries_send {cut : Bool} (text : Str) : (Pipe.new.send text).Carries cut text :=
  ⟨⟨utf8 text ++ [newline], by simp [Pipe.new, Pipe.send], Or.inl (by simp [Pipe.new, Pipe.send])⟩,
    by simp [Pipe.new, Pipe.send]⟩

theorem Pipe.Carries.write {pipe : Pipe} {cut : Bool} {text : Str} (carries : pipe.Carries cut text)
    (size : Nat) : (pipe.write size).Carries cut text := by
  obtain ⟨⟨rest, whole, unsent⟩, unbroken⟩ := carries
  rcases unsent with rfl | ⟨left, none⟩
  · refine ⟨⟨pipe.unsent.drop size, ?_, Or.inl rfl⟩, unbroken⟩
    simp only [Pipe.write, List.append_assoc, List.take_append_drop]
    rwa [List.append_assoc] at whole
  · refine ⟨⟨rest, ?_, Or.inr ⟨left, ?_⟩⟩, unbroken⟩
    · simpa [Pipe.write, none] using whole
    · simp [Pipe.write, none]

theorem Pipe.Has.write {pipe : Pipe} {cut : Bool} {text : Option Str} (has : pipe.Has cut text)
    (size : Nat) : (pipe.write size).Has cut text := by
  cases text with
  | none =>
      obtain rfl : pipe = .new := has
      simp [Pipe.Has, Pipe.write, Pipe.new]
  | some text => exact Pipe.Carries.write has size

theorem Pipe.Has.abandon {pipe : Pipe} {cut : Bool} {text : Option Str} (has : pipe.Has cut text) :
    pipe.abandon.Has true text := by
  cases text with
  | none =>
      obtain rfl : pipe = .new := has
      rfl
  | some text =>
      obtain ⟨⟨rest, whole, -⟩, unbroken⟩ := has
      exact ⟨⟨rest, whole, Or.inr ⟨rfl, rfl⟩⟩, unbroken⟩

theorem Pipe.Has.cut {pipe : Pipe} {cut : Bool} {text : Option Str} (has : pipe.Has cut text) :
    pipe.Has true text := by
  cases text with
  | none => exact has
  | some text =>
      obtain ⟨⟨rest, whole, unsent⟩, unbroken⟩ := has
      exact ⟨⟨rest, whole, unsent.imp id (fun left => ⟨rfl, left.2⟩)⟩, unbroken⟩

theorem write_nothing {pipe : Pipe} (done : pipe.unsent = []) (size : Nat) :
    pipe.write size = pipe := by
  obtain ⟨unsent, flight, pending⟩ := pipe
  obtain rfl : unsent = [] := done
  simp [Pipe.write]

theorem flush_carries {pipe : Pipe} {text : Str} (carries : pipe.Carries false text) :
    (pipe.write pipe.unsent.length).Carries false text ∧
      (pipe.write pipe.unsent.length).unsent = [] :=
  ⟨carries.write _, by simp [Pipe.write]⟩

theorem new_has (text : Option Str) : Pipe.new.Has true text := by
  cases text with
  | none => rfl
  | some text =>
      exact ⟨⟨utf8 text ++ [newline], by simp [Pipe.new], Or.inr ⟨rfl, rfl⟩⟩, by simp [Pipe.new]⟩

/-- A read either stays within the line or completes it, and then drops nothing. -/
theorem Pipe.Carries.receive {pipe : Pipe} {cut : Bool} {text : Str}
    (carries : pipe.Carries cut text) (unbroken : '\n' ∉ text) (size : Nat) :
    (pipe.receive size).1 = none ∧ (pipe.receive size).2.Carries cut text ∨
      (pipe.receive size).1 = some (utf8 text ++ [newline]) ∧ (pipe.receive size).2 = .new := by
  obtain ⟨⟨rest, whole, unsent⟩, absent⟩ := carries
  have delivered : pipe.flight.take size ++ (pipe.flight.drop size ++ rest) =
      pipe.flight ++ rest := by
    rw [← List.append_assoc, List.take_append_drop]
  unfold Pipe.receive
  cases found : cutLine (pipe.flight.take size) with
  | none =>
      refine Or.inl ⟨rfl, ⟨rest, ?_, unsent⟩, ?_⟩
      · rw [← whole]
        simp [List.append_assoc]
      · simp [absent, cutLine_none.mp found]
  | some ends =>
      obtain ⟨front, back⟩ := ends
      obtain ⟨shape, clean⟩ := cutLine_some found
      have same : (pipe.pending ++ front) ++ newline :: (back ++ (pipe.flight.drop size ++ rest)) =
          utf8 text ++ newline :: [] := by
        rw [← whole, List.append_assoc pipe.pending pipe.flight, ← delivered, shape]
        simp
      obtain ⟨line, nothing⟩ := first_line (by simp [absent, clean]) (newline_not_mem unbroken) same
      simp only [List.append_eq_nil_iff] at nothing
      obtain ⟨-, empty, rfl⟩ := nothing
      refine Or.inr ⟨by simp [← line], ?_⟩
      have sent : pipe.unsent = [] := unsent.elim id And.right
      simp [Pipe.new, empty, sent]

section

variable {Message : Type} {fromStr : Str → Option Message} {message : Message} {text : Str}

theorem trim_newline (s : Str) : trim (s ++ ['\n']) = trim s := by
  apply trim_append_white
  intro c member
  rw [List.mem_singleton.mp member]
  rfl

theorem JsonLine.readText (json : JsonLine fromStr message text) :
    readText (utf8 text ++ [newline]) = some text := by
  have ends : utf8 text ++ [newline] = utf8 (text ++ ['\n']) := by
    rw [utf8_append]
    rfl
  rw [Ipc.readText, ends, fromUtf8_eq_some.mpr rfl, Option.map_some, trim_newline, json.tight]

/-- The beginning of a line is no other message. -/
theorem JsonLine.readText_part (json : JsonLine fromStr message text)
    {pending rest : List UInt8} (whole : pending ++ rest = utf8 text ++ [newline]) :
    (∀ other, Ipc.readText pending = some other → fromStr other = none) ∨
      Ipc.readText pending = some text := by
  cases decoded : fromUtf8 pending with
  | none => exact Or.inl (by simp [Ipc.readText, decoded])
  | some front =>
      have read : Ipc.readText pending = some (trim front) := by
        rw [Ipc.readText, decoded, Option.map_some]
      have line : utf8 (text ++ ['\n']) = utf8 front ++ rest := by
        rw [← fromUtf8_eq_some.mp decoded, whole, utf8_append]
        rfl
      obtain ⟨back, shape, -⟩ := utf8_split line
      rcases List.eq_nil_or_concat back with rfl | ⟨inner, last, rfl⟩
      · right
        rw [List.append_nil] at shape
        rw [read, ← shape, trim_newline, json.tight]
      · rw [List.concat_eq_append, ← List.append_assoc] at shape
        have parts := (List.append_inj' shape rfl).1
        by_cases missing : inner = []
        · right
          rw [missing, List.append_nil] at parts
          rw [read, ← parts, json.tight]
        · left
          intro other same
          rw [read] at same
          rw [← Option.some.inj same]
          exact json.closed front inner parts missing

end

end RaemoteServer.Ipc
