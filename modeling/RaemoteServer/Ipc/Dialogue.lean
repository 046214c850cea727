import RaemoteServer.Ipc.Connection

/-! The two ends take turns: where their dialogue stands, and what each step makes of it. -/

namespace RaemoteServer.Ipc

open Text Runs

inductive Position (Answer : Type) where
  | start
  | greeting
  | welcomed
  | denying
  | refused
  | idle
  | asking (request : Request)
  | handling (request : Request)
  | answering (request : Request) (answer : Answer)

variable {Answer : Type} {requests : JsonMessage Request} {answers : JsonMessage Answer}
  {ok denied : Answer} {token ipcToken : Str}

namespace Position

def client : Position Answer → Client
  | .start => .connecting
  | .greeting | .welcomed | .denying => .greeting
  | .refused => .failed "IPC authentication denied".toList
  | .idle => .ready
  | .asking request | .handling request | .answering request _ => .awaiting request

def server : Position Answer → Server
  | .start | .greeting => .greeting
  | .denying | .refused => .denying
  | .welcomed | .idle | .asking _ | .answering _ _ => .reading
  | .handling request => .handling request

/-- What is under way to the server. -/
def request (token : Str) : Position Answer → Option Request
  | .greeting => some (.hello token)
  | .asking request => some request
  | _ => none

/-- What is under way to the client. -/
def answer (ok denied : Answer) : Position Answer → Option Answer
  | .welcomed => some ok
  | .denying => some denied
  | .answering _ answer => some answer
  | _ => none

/-- The server has read what was under way. -/
def received (token ipcToken : Str) : Position Answer → Position Answer
  | .greeting => if token = ipcToken then .welcomed else .denying
  | .asking request => .handling request
  | position => position

/-- The client has read what was under way. -/
def answered : Position Answer → Position Answer
  | .welcomed | .answering _ _ => .idle
  | .denying => .refused
  | position => position

/-- What the two ends have done so far. -/
def Logs (requests : JsonMessage Request) (token ipcToken : Str) (connection : Connection Answer) :
    Position Answer → Prop
  | .start | .greeting =>
      connection.asked = [] ∧ connection.served = [] ∧ connection.answered = []
  | .welcomed =>
      token = ipcToken ∧
        connection.asked = [] ∧ connection.served = [] ∧ connection.answered = []
  | .denying | .refused =>
      token ≠ ipcToken ∧
        connection.asked = [] ∧ connection.served = [] ∧ connection.answered = []
  | .idle =>
      token = ipcToken ∧ connection.asked = connection.served.map Prod.fst ∧
        connection.served = connection.answered
  | .asking request | .handling request =>
      token = ipcToken ∧ connection.asked = connection.served.map Prod.fst ++ [request] ∧
        connection.served = connection.answered ∧ (requests.toString request).isSome
  | .answering request answer =>
      token = ipcToken ∧ connection.asked = connection.served.map Prod.fst ∧
        connection.served = connection.answered ++ [(request, answer)]

end Position

/-- Why the client is gone: by itself, or refused, or left alone. -/
def ClientLeft (token ipcToken : Str) (connection : Connection Answer) : Prop :=
  connection.client = .gone ∨ (∃ message, connection.client = .failed message) ∧
    (token ≠ ipcToken ∨ connection.server = .exited)

def ServerLeft (token ipcToken : Str) (connection : Connection Answer) : Prop :=
  connection.server = .exited ∨
    (connection.server = .denying ∨ ∃ outcome, connection.server = .finished outcome) ∧
      (token ≠ ipcToken ∨ connection.client = .gone)

structure Stands (requests : JsonMessage Request) (answers : JsonMessage Answer)
    (ok denied : Answer)
    (token ipcToken : Str) (connection : Connection Answer)
    (position : Position Answer) : Prop where
  client : connection.client = position.client ∨ ClientLeft token ipcToken connection
  server : connection.server = position.server ∨ ServerLeft token ipcToken connection
  up : connection.server.left = false →
    connection.up.Has connection.client.left ((position.request token).bind requests.toString)
  down : connection.client.left = false →
    connection.down.Has connection.server.left ((position.answer ok denied).bind answers.toString)
  logs : position.Logs requests token ipcToken connection

def Dialogue (requests : JsonMessage Request) (answers : JsonMessage Answer) (ok denied : Answer)
    (token ipcToken : Str) (connection : Connection Answer) : Prop :=
  ∃ position, Stands requests answers ok denied token ipcToken connection position

theorem new_stands : Stands requests answers ok denied token ipcToken .new .start :=
  ⟨Or.inl rfl, Or.inl rfl, fun _ => rfl, fun _ => rfl, ⟨rfl, rfl, rfl⟩⟩

variable {before : Connection Answer} {position : Position Answer}

theorem ClientLeft.left (gone : ClientLeft token ipcToken before) : before.client.left = true := by
  rcases gone with gone | ⟨⟨message, failed⟩, -⟩
  · rw [gone]
    rfl
  · rw [failed]
    rfl

theorem ServerLeft.reads (gone : ServerLeft token ipcToken before) :
    before.server.reads = false := by
  rcases gone with exited | ⟨denying | ⟨outcome, finished⟩, -⟩
  · rw [exited]
    rfl
  · rw [denying]
    rfl
  · rw [finished]
    rfl

theorem Stands.reading (stands : Stands requests answers ok denied token ipcToken before position)
    (reads : before.server.reads = true) : before.server = position.server := by
  rcases stands.server with same | gone
  · exact same
  · rw [gone.reads] at reads
    cases reads

theorem Stands.present (stands : Stands requests answers ok denied token ipcToken before position)
    (present : before.client.left = false) : before.client = position.client := by
  rcases stands.client with same | gone
  · exact same
  · rw [gone.left] at present
    cases present

/-! One step of either end. -/

variable {after : Connection Answer} {position' : Position Answer}

theorem ServerLeft.kept (gone : ServerLeft token ipcToken before)
    (server : after.server = before.server)
    (client : before.client = .gone → after.client = .gone) :
    ServerLeft token ipcToken after := by
  unfold ServerLeft at *
  rw [server]
  exact gone.imp_right (And.imp_right (Or.imp_right client))

theorem ClientLeft.kept (gone : ClientLeft token ipcToken before)
    (client : after.client = before.client) (server : before.server = .exited → after.server =
      .exited) :
    ClientLeft token ipcToken after := by
  unfold ClientLeft at *
  rw [client]
  exact gone.imp_right (And.imp_right (Or.imp_right server))

/-- The client acts, and its process lives on. -/
theorem Stands.client_acts
    (stands : Stands requests answers ok denied token ipcToken before position)
    (alive : before.client.left = false) (server : after.server = before.server)
    (same : position'.server = position.server)
    (client : after.client = position'.client ∨ ClientLeft token ipcToken after)
    (up : before.server.left = false →
      after.up.Has after.client.left ((position'.request token).bind requests.toString))
    (down : after.client.left = false →
      after.down.Has before.server.left ((position'.answer ok denied).bind answers.toString))
    (logs : position'.Logs requests token ipcToken after) :
    Stands requests answers ok denied token ipcToken after position' := by
  refine ⟨client, ?_, by rwa [server], by rwa [server], logs⟩
  rw [server, same]
  refine stands.server.imp_right (fun gone => gone.kept server ?_)
  intro absent
  rw [absent] at alive
  cases alive

/-- The server acts, and the daemon lives on. -/
theorem Stands.server_acts
    (stands : Stands requests answers ok denied token ipcToken before position)
    (alive : before.server.left = false) (client : after.client = before.client)
    (same : position'.client = position.client)
    (server : after.server = position'.server ∨ ServerLeft token ipcToken after)
    (up : after.server.left = false →
      after.up.Has before.client.left ((position'.request token).bind requests.toString))
    (down : before.client.left = false →
      after.down.Has after.server.left ((position'.answer ok denied).bind answers.toString))
    (logs : position'.Logs requests token ipcToken after) :
    Stands requests answers ok denied token ipcToken after position' := by
  refine ⟨?_, server, by rwa [client], by rwa [client], logs⟩
  rw [client, same]
  refine stands.client.imp_right (fun gone => gone.kept client ?_)
  intro exited
  rw [exited] at alive
  cases alive

theorem hello_stands (stands : Stands requests answers ok denied token ipcToken before position)
    (client : before.client = .connecting) {text : Str}
    (written : requests.toString (.hello token) = some text) :
    Stands requests answers ok denied token ipcToken
      { before with client := .greeting, up := before.up.send text } .greeting := by
  have alive : before.client.left = false := by rw [client]; rfl
  have here := stands.present alive
  rw [client] at here
  cases position with
  | start =>
      refine stands.client_acts alive rfl rfl (Or.inl rfl) ?_ ?_ stands.logs
      · intro listening
        rw [(stands.up listening).idle rfl, Position.request, Option.bind_some, written]
        exact carries_send _
      · intro _
        exact stands.down alive
  | _ => cases here

theorem request_stands (stands : Stands requests answers ok denied token ipcToken before position)
    (client : before.client = .ready) {request : Request} {text : Str}
    (written : requests.toString request = some text) :
    Dialogue requests answers ok denied token ipcToken { before with
      client := .awaiting request, up := before.up.send text
      asked := before.asked ++ [request] } := by
  have alive : before.client.left = false := by rw [client]; rfl
  have here := stands.present alive
  rw [client] at here
  cases position with
  | idle =>
      obtain ⟨matching, asked, settled⟩ := stands.logs
      refine ⟨.asking request, stands.client_acts alive rfl rfl (Or.inl rfl) ?_ ?_
        ⟨matching, congrArg (· ++ [request]) asked, settled,
          Option.isSome_of_eq_some written⟩⟩
      · intro listening
        rw [(stands.up listening).idle rfl, Position.request, Option.bind_some, written]
        exact carries_send _
      · intro _
        exact stands.down alive
  | _ => cases here

theorem clientWrites_stands
    (stands : Stands requests answers ok denied token ipcToken before position)
    (alive : before.client.left = false) (size : Nat) :
    Stands requests answers ok denied token ipcToken { before with up := before.up.write size }
      position :=
  stands.client_acts alive rfl rfl (Or.inl (stands.present alive))
    (fun listening => (stands.up listening).write size) (fun _ => stands.down alive) stands.logs

theorem handled_stands (stands : Stands requests answers ok denied token ipcToken before position)
    {request : Request} (server : before.server = .handling request) {answer : Answer} {text : Str}
    (written : answers.toString answer = some text) :
    Stands requests answers ok denied token ipcToken (Connection.reply answers
      { before with served := before.served ++ [(request, answer)] } answer .reading)
      (.answering request answer) := by
  have alive : before.server.left = false := by rw [server]; rfl
  have here : before.server = position.server := by
    rcases stands.server with same | exited | ⟨denying | ⟨outcome, finished⟩, -⟩
    · exact same
    · rw [exited] at alive; cases alive
    · rw [server] at denying; cases denying
    · rw [finished] at alive; cases alive
  rw [server] at here
  cases position with
  | handling other =>
      obtain rfl := Server.handling.inj here
      obtain ⟨matching, asked, settled, -⟩ := stands.logs
      simp only [Connection.reply, written]
      refine stands.server_acts alive rfl rfl (Or.inl rfl) ?_ ?_
        ⟨matching, by simp [asked], by simp [settled]⟩
      · intro _
        exact stands.up alive
      · intro present
        rw [(stands.down present).idle rfl, Position.answer, Option.bind_some, written]
        exact carries_send _
  | _ => cases here

theorem serverWrites_stands
    (stands : Stands requests answers ok denied token ipcToken before position)
    (present : before.client.left = false) (size : Nat) :
    Stands requests answers ok denied token ipcToken { before with down := before.down.write size }
      position := by
  refine ⟨stands.client, stands.server, stands.up, ?_, stands.logs⟩
  intro _
  exact (stands.down present).write size

/-- A client that finds the server gone was refused, or the daemon has exited. -/
theorem Stands.server_blamed
    (stands : Stands requests answers ok denied token ipcToken before position)
    (alive : before.client.left = false) (gone : before.server.left = true) :
    token ≠ ipcToken ∨ before.server = .exited := by
  rcases stands.server with same | exited | ⟨-, differ | absent⟩
  · rw [same] at gone
    cases position <;> cases gone
  · exact Or.inr exited
  · exact Or.inl differ
  · rw [absent] at alive
    cases alive

theorem Stands.client_blamed
    (stands : Stands requests answers ok denied token ipcToken before position)
    (alive : before.server.left = false) (gone : before.client.left = true) :
    token ≠ ipcToken ∨ before.client = .gone := by
  rcases stands.client with same | absent | ⟨-, differ | exited⟩
  · cases position with
    | refused => exact Or.inl stands.logs.1
    | _ =>
        rw [same] at gone
        cases gone
  · exact Or.inr absent
  · exact Or.inl differ
  · rw [exited] at alive
    cases alive

/-- The client gives up because of what the server has done. -/
theorem Stands.client_fails
    (stands : Stands requests answers ok denied token ipcToken before position)
    (alive : before.client.left = false) (blamed : token ≠ ipcToken ∨ before.server = .exited)
    {message : Str} (client : after.client = .failed message)
    (server : after.server = before.server)
    (up : before.server.left = false →
      after.up.Has true ((position.request token).bind requests.toString))
    (logs : position.Logs requests token ipcToken after) :
    Stands requests answers ok denied token ipcToken after position := by
  refine stands.client_acts alive server rfl (Or.inr (Or.inr ⟨⟨message, client⟩, ?_⟩)) ?_ ?_ logs
  · rwa [server]
  · rw [client]
    exact up
  · intro present
    rw [client] at present
    cases present

theorem Stands.server_fails
    (stands : Stands requests answers ok denied token ipcToken before position)
    (alive : before.server.left = false) (gone : before.client.left = true)
    (server : after.server = .denying ∨ ∃ outcome, after.server = .finished outcome)
    (client : after.client = before.client)
    (up : after.server.left = false →
      after.up.Has true ((position.request token).bind requests.toString))
    (logs : position.Logs requests token ipcToken after) :
    Stands requests answers ok denied token ipcToken after position := by
  refine stands.server_acts alive client rfl (Or.inr (Or.inr ⟨server, ?_⟩)) ?_ ?_ logs
  · rw [client]
    exact stands.client_blamed alive gone
  · rw [gone]
    exact up
  · intro present
    rw [gone] at present
    cases present

theorem clientBreaks_stands
    (stands : Stands requests answers ok denied token ipcToken before position)
    (alive : before.client.left = false) (gone : before.server.left = true) (message : Str) :
    Stands requests answers ok denied token ipcToken
      { before with client := .failed message, up := before.up.abandon } position := by
  refine stands.client_fails alive (stands.server_blamed alive gone) rfl rfl ?_ stands.logs
  intro listening
  rw [gone] at listening
  cases listening

theorem serverBreaks_stands
    (stands : Stands requests answers ok denied token ipcToken before position)
    (alive : before.server.left = false) (gone : before.client.left = true) (message : Str) :
    Stands requests answers ok denied token ipcToken
      { before with server := .finished (.error message), down := before.down.abandon }
      position := by
  refine stands.server_fails alive gone (Or.inr ⟨_, rfl⟩) rfl ?_ stands.logs
  intro listening
  cases listening

theorem clientDrops_stands
    (stands : Stands requests answers ok denied token ipcToken before position)
    (alive : before.client.left = false) :
    Stands requests answers ok denied token ipcToken
      { before with client := .gone, up := before.up.abandon } position := by
  refine stands.client_acts alive rfl rfl (Or.inr (Or.inl rfl)) ?_ ?_ stands.logs
  · intro listening
    exact (stands.up listening).abandon
  · intro present
    cases present

theorem daemonExits_stands
    (stands : Stands requests answers ok denied token ipcToken before position)
    (alive : before.server.left = false) :
    Stands requests answers ok denied token ipcToken
      { before with server := .exited, down := before.down.abandon } position := by
  refine stands.server_acts alive rfl rfl (Or.inr (Or.inl rfl)) ?_ ?_ stands.logs
  · intro listening
    cases listening
  · intro present
    exact (stands.down present).abandon

theorem serverCloses_stands
    (stands : Stands requests answers ok denied token ipcToken before position)
    (server : before.server = .denying) :
    Stands requests answers ok denied token ipcToken
      { before with server := .finished (.ok ()) } position := by
  have blamed : token ≠ ipcToken ∨ before.client = .gone := by
    rcases stands.server with same | exited | ⟨-, blamed⟩
    · cases position with
      | denying | refused => exact Or.inl stands.logs.1
      | _ =>
          rw [server] at same
          cases same
    · rw [server] at exited
      cases exited
    · exact blamed
  refine stands.server_acts (by rw [server]; rfl) rfl rfl
    (Or.inr (Or.inr ⟨Or.inr ⟨_, rfl⟩, blamed⟩)) ?_ ?_ stands.logs
  · intro listening
    cases listening
  · intro present
    exact (stands.down present).cut

/-! Lines that arrive. -/

theorem readRequest_line {request : Request} {text : Str}
    (json : JsonLine requests.fromStr request text) :
    readRequest requests.fromStr (utf8 text ++ [newline]) = .ok (some (text, request)) :=
  readRequest_of_text json.readText json.present json.read_back

theorem readAnswer_of_text {answer : Answer} {text : Str}
    (json : JsonLine answers.fromStr answer text) {read : List UInt8}
    (found : readText read = some text) : readAnswer answers read = .ok (some answer) := by
  simp only [readAnswer, found, if_neg json.present, json.read_back]

theorem readRequest_part {request : Request} {text : Str}
    (json : JsonLine requests.fromStr request text) {pending rest : List UInt8}
    (whole : pending ++ rest = utf8 text ++ [newline]) :
    (∃ message, readRequest requests.fromStr pending = .error message) ∨
      readRequest requests.fromStr pending = .ok none ∨
      readRequest requests.fromStr pending = .ok (some (text, request)) := by
  rcases json.readText_part whole with other | same
  · unfold readRequest
    cases found : readText pending with
    | none => exact Or.inl ⟨_, rfl⟩
    | some line =>
        by_cases blank : line = []
        · exact Or.inr (Or.inl (if_pos blank))
        · simp only [if_neg blank, other line found]
          exact Or.inl ⟨_, rfl⟩
  · exact Or.inr (Or.inr (readRequest_of_text same json.present json.read_back))

theorem readAnswer_part {answer : Answer} {text : Str}
    (json : JsonLine answers.fromStr answer text) {pending rest : List UInt8}
    (whole : pending ++ rest = utf8 text ++ [newline]) :
    (∃ message, readAnswer answers pending = .error message) ∨
      readAnswer answers pending = .ok none ∨ readAnswer answers pending = .ok (some answer) := by
  rcases json.readText_part whole with other | same
  · unfold readAnswer
    cases found : readText pending with
    | none => exact Or.inl ⟨_, rfl⟩
    | some line =>
        by_cases blank : line = []
        · exact Or.inr (Or.inl (if_pos blank))
        · simp only [if_neg blank, other line found]
          exact Or.inl ⟨_, rfl⟩
  · exact Or.inr (Or.inr (readAnswer_of_text json same))

/-- `serde_json::to_string` writes every answer. -/
def Writes (answers : JsonMessage Answer) : Prop :=
  ∀ answer, ∃ text, answers.toString answer = some text

/-- The server takes the request that was under way, and the pipe is empty. -/
theorem serverLine_stands (writes : Writes answers)
    (stands : Stands requests answers ok denied token ipcToken before position)
    (reads : before.server.reads = true) {request : Request}
    (arrived : position.request token = some request) (text : Str) :
    Stands requests answers ok denied token ipcToken
      (Connection.serverLine answers ok denied ipcToken { before with up := .new }
        (.ok (some (text, request)))) (position.received token ipcToken) := by
  have here := stands.reading reads
  have alive := Server.present_of_reads reads
  cases position with
  | greeting =>
      obtain rfl := Option.some.inj arrived
      have server : before.server = .greeting := here
      by_cases matching : token = ipcToken
      · have same : constantTimeEq token ipcToken = true :=
          (Auth.constantTimeEq_utf8 _ _).mpr matching
        obtain ⟨reply, written⟩ := writes ok
        simp only [Connection.serverLine, server, same, if_true, Connection.reply, written,
          Position.received, if_pos matching]
        refine stands.server_acts alive rfl rfl (Or.inl rfl) (fun _ => rfl) ?_
          ⟨matching, stands.logs⟩
        intro present
        rw [(stands.down present).idle rfl, Position.answer, Option.bind_some, written]
        exact carries_send _
      · have differ : constantTimeEq token ipcToken = false :=
          Bool.eq_false_iff.mpr (fun same => matching ((Auth.constantTimeEq_utf8 _ _).mp same))
        obtain ⟨reply, written⟩ := writes denied
        simp only [Connection.serverLine, server, differ, Bool.false_eq_true, if_false,
          Connection.reply, written, Position.received, if_neg matching]
        refine stands.server_acts alive rfl rfl (Or.inl rfl) (fun _ => rfl) ?_
          ⟨matching, stands.logs⟩
        intro present
        rw [(stands.down present).idle rfl, Position.answer, Option.bind_some, written]
        exact carries_send _
  | asking asked =>
      obtain rfl := Option.some.inj arrived
      have server : before.server = .reading := here
      simp only [Connection.serverLine, server]
      exact stands.server_acts alive rfl rfl (Or.inl rfl) (fun _ => rfl) stands.down stands.logs
  | _ => cases arrived

/-- The client takes the answer that was under way, and the pipe is empty. -/
theorem clientLine_stands [DecidableEq Answer] (distinct : ok ≠ denied)
    (stands : Stands requests answers ok denied token ipcToken before position)
    (alive : before.client.left = false) {answer : Answer}
    (arrived : position.answer ok denied = some answer) :
    Stands requests answers ok denied token ipcToken
      (Connection.clientLine ok denied { before with down := .new } (.ok (some answer)))
      position.answered := by
  have here := stands.present alive
  cases position with
  | welcomed =>
      obtain rfl := Option.some.inj arrived
      have client : before.client = .greeting := here
      obtain ⟨matching, asked, served, answered⟩ := stands.logs
      simp only [Connection.clientLine, client, greeted, if_true]
      refine stands.client_acts alive rfl rfl (Or.inl rfl) ?_ (fun _ => rfl) ⟨matching, ?_⟩
      · intro listening
        have up := stands.up listening
        exact up.idle rfl
      · simp [asked, served, answered]
  | denying =>
      obtain rfl := Option.some.inj arrived
      have client : before.client = .greeting := here
      simp only [Connection.clientLine, client, greeted, if_neg distinct.symm, if_true]
      refine stands.client_acts alive rfl rfl (Or.inl rfl) ?_ ?_ stands.logs
      · intro listening
        have up := stands.up listening
        exact up.idle rfl
      · intro present
        cases present
  | answering request other =>
      obtain rfl := Option.some.inj arrived
      have client : before.client = .awaiting request := here
      obtain ⟨matching, asked, served⟩ := stands.logs
      simp only [Connection.clientLine, client]
      refine stands.client_acts alive rfl rfl (Or.inl rfl) ?_ (fun _ => rfl)
        ⟨matching, asked, served⟩
      intro listening
      have up := stands.up listening
      exact up.idle rfl
  | _ => cases arrived

/-- The server has not got a whole request, and the client has left. -/
theorem serverLine_fails (writes : Writes answers)
    (stands : Stands requests answers ok denied token ipcToken before position)
    (reads : before.server.reads = true) (gone : before.client.left = true)
    {result : Except Str (Option (Str × Request))}
    (missing : (∃ message, result = .error message) ∨ result = .ok none) :
    Stands requests answers ok denied token ipcToken
      (Connection.serverLine answers ok denied ipcToken { before with up := .new } result)
      position := by
  have alive := Server.present_of_reads reads
  cases server : before.server with
  | greeting =>
      rcases missing with ⟨message, rfl⟩ | rfl
      · simp only [Connection.serverLine]
        exact stands.server_fails alive gone (Or.inr ⟨_, rfl⟩) rfl (fun _ => new_has _) stands.logs
      · obtain ⟨reply, written⟩ := writes denied
        simp only [Connection.serverLine, Connection.reply, written]
        exact stands.server_fails alive gone (Or.inl rfl) rfl (fun _ => new_has _) stands.logs
  | reading =>
      rcases missing with ⟨message, rfl⟩ | rfl
      · simp only [Connection.serverLine]
        exact stands.server_fails alive gone (Or.inr ⟨_, rfl⟩) rfl (fun _ => new_has _) stands.logs
      · simp only [Connection.serverLine]
        exact stands.server_fails alive gone (Or.inr ⟨_, rfl⟩) rfl (fun _ => new_has _) stands.logs
  | _ =>
      rw [server] at reads
      cases reads

theorem serverReads_stands (writes : Writes answers)
    (stands : Stands requests answers ok denied token ipcToken before position)
    (reads : before.server.reads = true) {size : Nat} (positive : 0 < size)
    (delivered : size ≤ before.up.flight.length) :
    Dialogue requests answers ok denied token ipcToken
      (before.serverReads requests answers ok denied ipcToken size) := by
  have alive := Server.present_of_reads reads
  have has := stands.up alive
  cases arrived : (position.request token).bind requests.toString with
  | none =>
      rw [has.idle arrived] at delivered
      exact absurd delivered (by simp [Pipe.new, positive.ne'])
  | some text =>
      obtain ⟨request, sent, written⟩ := Option.bind_eq_some_iff.mp arrived
      have json := requests.line request text written
      rw [arrived] at has
      unfold Connection.serverReads
      rcases Pipe.Carries.receive has json.one_line size with ⟨nothing, more⟩ | ⟨line, done⟩
      · rw [← Prod.eta (before.up.receive size), nothing]
        refine ⟨position, stands.server_acts alive rfl rfl stands.server ?_ stands.down stands.logs⟩
        rw [arrived]
        exact fun _ => more
      · rw [← Prod.eta (before.up.receive size), line, done]
        simp only [readRequest_line json]
        exact ⟨_, serverLine_stands writes stands reads sent _⟩

theorem serverEnds_stands (writes : Writes answers)
    (stands : Stands requests answers ok denied token ipcToken before position)
    (reads : before.server.reads = true) (gone : before.client.left = true)
    (drained : before.up.flight = []) :
    Dialogue requests answers ok denied token ipcToken
      (before.serverEnds requests answers ok denied ipcToken) := by
  have has := stands.up (Server.present_of_reads reads)
  unfold Connection.serverEnds
  by_cases nothing : before.up.pending = []
  · rw [if_pos nothing]
    exact ⟨position, serverLine_fails writes stands reads gone (Or.inr rfl)⟩
  · rw [if_neg nothing]
    cases arrived : (position.request token).bind requests.toString with
    | none =>
        rw [has.idle arrived] at nothing
        exact absurd rfl nothing
    | some text =>
        obtain ⟨request, sent, written⟩ := Option.bind_eq_some_iff.mp arrived
        rw [arrived] at has
        obtain ⟨⟨rest, whole, -⟩, -⟩ := has
        rw [drained, List.append_nil] at whole
        rcases readRequest_part (requests.line request text written) whole with
          failed | blank | parsed
        · exact ⟨position, serverLine_fails writes stands reads gone (Or.inl failed)⟩
        · exact ⟨position, serverLine_fails writes stands reads gone (Or.inr blank)⟩
        · rw [parsed]
          exact ⟨_, serverLine_stands writes stands reads sent _⟩

variable [DecidableEq Answer]

theorem clientLine_fails
    (stands : Stands requests answers ok denied token ipcToken before position)
    (reads : before.client.reads = true) (gone : before.server.left = true)
    {result : Except Str (Option Answer)}
    (missing : (∃ message, result = .error message) ∨ result = .ok none) :
    Stands requests answers ok denied token ipcToken
      (Connection.clientLine ok denied { before with down := .new } result) position := by
  have alive := Client.present_of_reads reads
  have blamed := stands.server_blamed alive gone
  have up (listening : before.server.left = false) :
      before.up.Has true ((position.request token).bind requests.toString) := by
    rw [gone] at listening
    cases listening
  cases client : before.client with
  | greeting =>
      rcases missing with ⟨message, rfl⟩ | rfl
      · simp only [Connection.clientLine, greeted]
        exact stands.client_fails alive blamed rfl rfl up stands.logs
      · simp only [Connection.clientLine, greeted]
        exact stands.client_fails alive blamed rfl rfl up stands.logs
  | awaiting request =>
      rcases missing with ⟨message, rfl⟩ | rfl
      · simp only [Connection.clientLine]
        exact stands.client_fails alive blamed rfl rfl up stands.logs
      · simp only [Connection.clientLine]
        exact stands.client_fails alive blamed rfl rfl up stands.logs
  | _ =>
      rw [client] at reads
      cases reads

theorem clientReads_stands (distinct : ok ≠ denied)
    (stands : Stands requests answers ok denied token ipcToken before position)
    (reads : before.client.reads = true) {size : Nat} (positive : 0 < size)
    (delivered : size ≤ before.down.flight.length) :
    Dialogue requests answers ok denied token ipcToken
      (before.clientReads answers ok denied size) := by
  have alive := Client.present_of_reads reads
  have has := stands.down alive
  cases arrived : (position.answer ok denied).bind answers.toString with
  | none =>
      rw [has.idle arrived] at delivered
      exact absurd delivered (by simp [Pipe.new, positive.ne'])
  | some text =>
      obtain ⟨answer, sent, written⟩ := Option.bind_eq_some_iff.mp arrived
      have json := answers.line answer text written
      rw [arrived] at has
      unfold Connection.clientReads
      rcases Pipe.Carries.receive has json.one_line size with ⟨nothing, more⟩ | ⟨line, done⟩
      · rw [← Prod.eta (before.down.receive size), nothing]
        refine ⟨position, stands.client_acts alive rfl rfl stands.client stands.up ?_ stands.logs⟩
        rw [arrived]
        exact fun _ => more
      · rw [← Prod.eta (before.down.receive size), line, done]
        simp only [readAnswer_of_text json json.readText]
        exact ⟨_, clientLine_stands distinct stands alive sent⟩

theorem clientEnds_stands (distinct : ok ≠ denied)
    (stands : Stands requests answers ok denied token ipcToken before position)
    (reads : before.client.reads = true) (gone : before.server.left = true)
    (drained : before.down.flight = []) :
    Dialogue requests answers ok denied token ipcToken (before.clientEnds answers ok denied) := by
  have alive := Client.present_of_reads reads
  have has := stands.down alive
  unfold Connection.clientEnds
  by_cases nothing : before.down.pending = []
  · rw [if_pos nothing]
    exact ⟨position, clientLine_fails stands reads gone (Or.inr rfl)⟩
  · rw [if_neg nothing]
    cases arrived : (position.answer ok denied).bind answers.toString with
    | none =>
        rw [has.idle arrived] at nothing
        exact absurd rfl nothing
    | some text =>
        obtain ⟨answer, sent, written⟩ := Option.bind_eq_some_iff.mp arrived
        rw [arrived] at has
        obtain ⟨⟨rest, whole, -⟩, -⟩ := has
        rw [drained, List.append_nil] at whole
        rcases readAnswer_part (answers.line answer text written) whole with
          failed | blank | parsed
        · exact ⟨position, clientLine_fails stands reads gone (Or.inl failed)⟩
        · exact ⟨position, clientLine_fails stands reads gone (Or.inr blank)⟩
        · rw [parsed]
          exact ⟨_, clientLine_stands distinct stands alive sent⟩

theorem step_dialogue (distinct : ok ≠ denied) (writes : Writes answers)
    (greets : ∃ text, requests.toString (.hello token) = some text) {event : Event Answer}
    {output : Unit}
    (dialogue : Dialogue requests answers ok denied token ipcToken before)
    (taken : step requests answers ok denied token ipcToken before event = some (output, after)) :
    Dialogue requests answers ok denied token ipcToken after := by
  obtain ⟨position, stands⟩ := dialogue
  cases event with
  | hello =>
      simp only [step] at taken
      split at taken
      · rename_i client
        obtain ⟨text, written⟩ := greets
        rw [written] at taken
        cases taken
        exact ⟨_, hello_stands stands client written⟩
      · cases taken
  | request request =>
      simp only [step] at taken
      split at taken
      · rename_i client
        cases written : requests.toString request with
        | none =>
            rw [written] at taken
            cases taken
            exact ⟨position, stands⟩
        | some text =>
            rw [written] at taken
            cases taken
            exact request_stands stands client written
      · cases taken
  | clientWrites size =>
      simp only [step] at taken
      split at taken
      · cases taken
      · rename_i writes
        rw [not_or, Bool.not_eq_true] at writes
        split at taken
        · rename_i gone
          cases taken
          exact ⟨position, clientBreaks_stands stands writes.1 gone _⟩
        · cases taken
          exact ⟨position, clientWrites_stands stands writes.1 size⟩
  | serverReads size =>
      simp only [step] at taken
      split at taken
      · rename_i ready
        cases taken
        exact serverReads_stands writes stands ready.1 ready.2.2.1 ready.2.2.2
      · cases taken
  | handled answer =>
      simp only [step] at taken
      split at taken
      · rename_i server
        cases taken
        obtain ⟨text, written⟩ := writes answer
        exact ⟨_, handled_stands stands server written⟩
      · cases taken
  | serverWrites size =>
      simp only [step] at taken
      split at taken
      · cases taken
      · rename_i writes
        rw [not_or, Bool.not_eq_true] at writes
        split at taken
        · rename_i gone
          cases taken
          exact ⟨position, serverBreaks_stands stands writes.1 gone _⟩
        · rename_i present
          cases taken
          exact ⟨position, serverWrites_stands stands (Bool.eq_false_iff.mpr present) size⟩
  | clientReads size =>
      simp only [step] at taken
      split at taken
      · rename_i ready
        cases taken
        exact clientReads_stands distinct stands ready.1 ready.2.2.1 ready.2.2.2
      · cases taken
  | serverCloses =>
      simp only [step] at taken
      split at taken
      · rename_i ready
        cases taken
        exact ⟨position, serverCloses_stands stands ready.1⟩
      · cases taken
  | serverEnds =>
      simp only [step] at taken
      split at taken
      · rename_i ready
        cases taken
        exact serverEnds_stands writes stands ready.1 ready.2.2.1 ready.2.2.2
      · cases taken
  | clientEnds =>
      simp only [step] at taken
      split at taken
      · rename_i ready
        cases taken
        exact clientEnds_stands distinct stands ready.1 ready.2.2.1 ready.2.2.2
      · cases taken
  | clientDrops =>
      simp only [step] at taken
      split at taken
      · cases taken
      · rename_i alive
        cases taken
        exact ⟨position, clientDrops_stands stands (Bool.eq_false_iff.mpr alive)⟩
  | daemonExits =>
      simp only [step] at taken
      split at taken
      · cases taken
      · rename_i alive
        cases taken
        exact ⟨position, daemonExits_stands stands (Bool.eq_false_iff.mpr alive)⟩

end RaemoteServer.Ipc
