import RaemoteServer.Ipc.Dialogue

/-! What a client gets of the requests it makes, over a whole connection. -/

namespace RaemoteServer.Ipc

open Text Runs

variable {Answer : Type} {requests : JsonMessage Request} {answers : JsonMessage Answer}
  {ok denied : Answer} {token ipcToken : Str} {before after final : Connection Answer}
  {position : Position Answer}
  {log : History (Connection Answer) (Event Answer) Unit}

/-- What holds however the bytes are cut and whenever either end dies. -/
structure InStep (token ipcToken : Str) (connection : Connection Answer) : Prop where
  served_in_order : connection.served.map Prod.fst <+: connection.asked
  answered_in_order : connection.answered <+: connection.served
  one_outstanding : connection.asked.length ≤ connection.answered.length + 1
  settled : connection.client = .ready →
    connection.answered = connection.served ∧ connection.served.map Prod.fst = connection.asked
  refused : token ≠ ipcToken →
    connection.asked = [] ∧ connection.served = [] ∧ connection.client ≠ .ready
  client_fails : ∀ message, connection.client = .failed message →
    token ≠ ipcToken ∨ connection.server = .exited
  server_finishes : ∀ outcome, connection.server = .finished outcome →
    token ≠ ipcToken ∨ connection.client = .gone

theorem Stands.idle_of_ready
    (stands : Stands requests answers ok denied token ipcToken before position)
    (ready : before.client = .ready) : position = .idle := by
  have here := stands.present (by rw [ready]; rfl)
  rw [ready] at here
  cases position with
  | idle => rfl
  | _ => cases here

theorem Stands.in_step
    (stands : Stands requests answers ok denied token ipcToken before position) :
    InStep token ipcToken before := by
  have logs := stands.logs
  refine ⟨?_, ?_, ?_, ?_, ?_, ?_, ?_⟩
  · cases position <;> simp_all [Position.Logs]
  · cases position <;> simp_all [Position.Logs]
  · cases position <;> simp_all [Position.Logs]
  · intro ready
    obtain rfl := stands.idle_of_ready ready
    exact ⟨logs.2.2.symm, logs.2.1.symm⟩
  · intro differ
    refine ⟨?_, ?_, ?_⟩
    · cases position <;> simp_all [Position.Logs]
    · cases position <;> simp_all [Position.Logs]
    · intro ready
      obtain rfl := stands.idle_of_ready ready
      exact differ logs.1
  · intro message failed
    rcases stands.client with same | gone | ⟨-, blamed⟩
    · rw [failed] at same
      cases position with
      | refused => exact Or.inl logs.1
      | _ => cases same
    · rw [failed] at gone
      cases gone
    · exact blamed
  · intro outcome finished
    rcases stands.server with same | exited | ⟨-, blamed⟩
    · rw [finished] at same
      cases position <;> cases same
    · rw [finished] at exited
      cases exited
    · exact blamed

variable [DecidableEq Answer]

theorem run_dialogue (distinct : ok ≠ denied) (writes : Writes answers)
    (greets : ∃ text, requests.toString (.hello token) = some text)
    (run : Run (machine requests answers ok denied token ipcToken) .new log final) :
    Dialogue requests answers ok denied token ipcToken final :=
  run.invariant (Dialogue requests answers ok denied token ipcToken) ⟨.start, new_stands⟩
    (fun _ _ _ _ taken dialogue => step_dialogue distinct writes greets dialogue taken)

/-- However the bytes are cut, and whenever either end dies, the answers of the client are those of
the handler to its own requests, in order. -/
theorem exchange_in_step (distinct : ok ≠ denied) (writes : Writes answers)
    (greets : ∃ text, requests.toString (.hello token) = some text)
    (run : Run (machine requests answers ok denied token ipcToken) .new log final) :
    InStep token ipcToken final := by
  obtain ⟨position, stands⟩ := run_dialogue distinct writes greets run
  exact stands.in_step

/-! Nothing but the two ends can keep a request from its answer. -/

/-- The event takes a dialogue on that has begun. -/
def Event.delivers : Event Answer → Bool
  | .request _ | .clientDrops | .daemonExits => false
  | _ => true

def Reaches (requests : JsonMessage Request) (answers : JsonMessage Answer) (ok denied : Answer)
    (token ipcToken : Str) (before after : Connection Answer) : Prop :=
  ∃ log, Run (machine requests answers ok denied token ipcToken) before log after ∧
    ∀ entry ∈ log, entry.event.delivers = true

theorem Reaches.refl : Reaches requests answers ok denied token ipcToken before before :=
  ⟨[], .start, by simp⟩

theorem Reaches.step (event : Event Answer)
    (reaches : Reaches requests answers ok denied token ipcToken before after)
    (taken : step requests answers ok denied token ipcToken after event = some ((), final))
    (delivers : event.delivers = true) :
    Reaches requests answers ok denied token ipcToken before final := by
  obtain ⟨log, run, every⟩ := reaches
  refine ⟨_, run.step taken, ?_⟩
  intro entry member
  rcases List.mem_cons.mp member with rfl | old
  · exact delivers
  · exact every entry old

theorem Reaches.trans (first : Reaches requests answers ok denied token ipcToken before after)
    (second : Reaches requests answers ok denied token ipcToken after final) :
    Reaches requests answers ok denied token ipcToken before final := by
  obtain ⟨log, run, every⟩ := first
  obtain ⟨later, more, rest⟩ := second
  refine ⟨later ++ log, run.trans more, ?_⟩
  intro entry member
  rcases List.mem_append.mp member with new | old
  · exact rest entry new
  · exact every entry old

/-- All of the line is read at once. -/
theorem receive_all {pipe : Pipe} {text : Str} (carries : pipe.Carries false text)
    (unbroken : '\n' ∉ text) (sent : pipe.unsent = []) :
    0 < pipe.flight.length ∧
      pipe.receive pipe.flight.length = (some (utf8 text ++ [newline]), .new) := by
  obtain ⟨⟨rest, whole, unsent⟩, absent⟩ := id carries
  have nothing : rest = [] := by
    rcases unsent with same | ⟨wrong, -⟩
    · rw [← same, sent]
    · cases wrong
  rw [nothing, List.append_nil] at whole
  have ends : newline ∈ pipe.pending ++ pipe.flight := by
    rw [whole]
    exact List.mem_append_right _ (List.mem_singleton_self _)
  rcases carries.receive unbroken pipe.flight.length with ⟨missing, -⟩ | ⟨line, done⟩
  · have clean : newline ∉ pipe.flight := by
      apply cutLine_none.mp
      unfold Pipe.receive at missing
      rw [List.take_length] at missing
      cases found : cutLine pipe.flight with
      | none => rfl
      | some cut => simp [found] at missing
    exact absurd ends (by simp [absent, clean])
  · refine ⟨?_, Prod.ext line done⟩
    rcases List.mem_append.mp ends with old | new
    · exact absurd old absent
    · exact List.length_pos_of_mem new

theorem reaches_request
    (stands : Stands requests answers ok denied token ipcToken before position)
    (present : before.client.left = false) (reads : before.server.reads = true)
    (silent : before.down.unsent = []) {request : Request} {text : Str}
    (sent : position.request token = some request)
    (written : requests.toString request = some text) :
    Reaches requests answers ok denied token ipcToken before
      (Connection.serverLine answers ok denied ipcToken { before with up := .new }
        (.ok (some (text, request)))) := by
  have alive := Server.present_of_reads reads
  have json := requests.line request text written
  have carries : before.up.Carries false text := by
    have has := stands.up alive
    rwa [sent, Option.bind_some, written, present] at has
  have flushed : Reaches requests answers ok denied token ipcToken before
      { before with up := before.up.write before.up.unsent.length } := by
    by_cases done : before.up.unsent = []
    · rw [write_nothing done]
      exact .refl
    · refine Reaches.refl.step (.clientWrites before.up.unsent.length) ?_ rfl
      simp [step, present, alive, done]
  obtain ⟨whole, empty⟩ := flush_carries carries
  obtain ⟨positive, read⟩ := receive_all whole json.one_line empty
  refine flushed.step (.serverReads (before.up.write before.up.unsent.length).flight.length)
    ?_ rfl
  simp only [step, reads, silent, positive, le_refl, and_self, if_true,
    Connection.serverReads, read,
    readRequest_line json]

theorem reaches_answer
    (stands : Stands requests answers ok denied token ipcToken before position)
    (reads : before.client.reads = true) (alive : before.server.left = false)
    (silent : before.up.unsent = []) {answer : Answer} {text : Str}
    (sent : position.answer ok denied = some answer)
    (written : answers.toString answer = some text) :
    Reaches requests answers ok denied token ipcToken before
      (Connection.clientLine ok denied { before with down := .new } (.ok (some answer))) := by
  have present := Client.present_of_reads reads
  have json := answers.line answer text written
  have carries : before.down.Carries false text := by
    have has := stands.down present
    rwa [sent, Option.bind_some, written, alive] at has
  have flushed : Reaches requests answers ok denied token ipcToken before
      { before with down := before.down.write before.down.unsent.length } := by
    by_cases done : before.down.unsent = []
    · rw [write_nothing done]
      exact .refl
    · refine Reaches.refl.step (.serverWrites before.down.unsent.length) ?_ rfl
      simp [step, present, alive, done]
  obtain ⟨whole, empty⟩ := flush_carries carries
  obtain ⟨positive, read⟩ := receive_all whole json.one_line empty
  refine flushed.step
    (.clientReads (before.down.write before.down.unsent.length).flight.length) ?_ rfl
  simp only [step, reads, silent, positive, le_refl, and_self, if_true,
    Connection.clientReads, read,
    readAnswer_of_text json json.readText]

/-- The client has got all it asked for. What was still to be handled is answered with `reply`. -/
def Completes (requests : JsonMessage Request) (answers : JsonMessage Answer) (ok denied : Answer)
    (token ipcToken : Str) (reply : Request → Answer) (before : Connection Answer) : Prop :=
  ∃ last new, Reaches requests answers ok denied token ipcToken before last ∧
    last.client = .ready ∧ last.asked = before.asked ∧ last.served = before.served ++ new ∧
      ∀ pair ∈ new, pair.2 = reply pair.1

variable {reply : Request → Answer}

theorem Reaches.completes {new : List (Request × Answer)}
    (reaches : Reaches requests answers ok denied token ipcToken before after)
    (asked : after.asked = before.asked) (served : after.served = before.served ++ new)
    (replies : ∀ pair ∈ new, pair.2 = reply pair.1)
    (completes : Completes requests answers ok denied token ipcToken reply after) :
    Completes requests answers ok denied token ipcToken reply before := by
  obtain ⟨last, more, further, ready, same, all, others⟩ := completes
  refine ⟨last, new ++ more, reaches.trans further, ready, same.trans asked, ?_, ?_⟩
  · rw [all, served, List.append_assoc]
  · intro pair member
    rcases List.mem_append.mp member with first | later
    · exact replies pair first
    · exact others pair later

omit [DecidableEq Answer] in
theorem Stands.serving
    (stands : Stands requests answers ok denied token ipcToken before position)
    (matching : token = ipcToken) (present : before.client.left = false)
    (alive : before.server.left = false) : before.server = position.server := by
  rcases stands.server with same | exited | ⟨-, differ | gone⟩
  · exact same
  · rw [exited] at alive
    cases alive
  · exact absurd matching differ
  · rw [gone] at present
    cases present

theorem idle_completes (ready : before.client = .ready) :
    Completes requests answers ok denied token ipcToken reply before :=
  ⟨before, [], .refl, ready, rfl, (List.append_nil _).symm, by simp⟩

theorem welcomed_completes (writes : Writes answers)
    (stands : Stands requests answers ok denied token ipcToken before .welcomed)
    (present : before.client.left = false) (alive : before.server.left = false) :
    Completes requests answers ok denied token ipcToken reply before := by
  have client := stands.present present
  obtain ⟨text, written⟩ := writes ok
  have silent : before.up.unsent = [] := by
    rw [(stands.up alive).idle rfl]
    rfl
  have reaches := reaches_answer stands (by rw [client]; rfl) alive silent rfl written
  simp only [Connection.clientLine, client, Position.client, greeted, if_true] at reaches
  exact reaches.completes rfl (List.append_nil _).symm (by simp) (idle_completes rfl)

theorem answering_completes (writes : Writes answers) {request : Request} {answer : Answer}
    (stands : Stands requests answers ok denied token ipcToken before (.answering request answer))
    (present : before.client.left = false) (alive : before.server.left = false) :
    Completes requests answers ok denied token ipcToken reply before := by
  have client := stands.present present
  obtain ⟨text, written⟩ := writes answer
  have silent : before.up.unsent = [] := by
    rw [(stands.up alive).idle rfl]
    rfl
  have reaches := reaches_answer stands (by rw [client]; rfl) alive silent rfl written
  simp only [Connection.clientLine, client, Position.client] at reaches
  exact reaches.completes rfl (List.append_nil _).symm (by simp) (idle_completes rfl)

theorem handling_completes (writes : Writes answers) {request : Request}
    (stands : Stands requests answers ok denied token ipcToken before (.handling request))
    (present : before.client.left = false) (alive : before.server.left = false) :
    Completes requests answers ok denied token ipcToken reply before := by
  have server := stands.serving stands.logs.1 present alive
  obtain ⟨text, written⟩ := writes (reply request)
  have next := handled_stands stands server written
  have reaches : Reaches requests answers ok denied token ipcToken before
      (Connection.reply answers { before with
        served := before.served ++ [(request, reply request)] } (reply request) .reading) := by
    refine Reaches.refl.step (.handled (reply request)) ?_ rfl
    simp only [step, server, Position.server]
  simp only [Connection.reply, written] at reaches next
  exact reaches.completes rfl rfl (by simp) (answering_completes writes next present rfl)

theorem asking_completes (writes : Writes answers) {request : Request}
    (stands : Stands requests answers ok denied token ipcToken before (.asking request))
    (present : before.client.left = false) (alive : before.server.left = false) :
    Completes requests answers ok denied token ipcToken reply before := by
  have server := stands.serving stands.logs.1 present alive
  have reads : before.server.reads = true := by rw [server]; rfl
  obtain ⟨text, written⟩ := Option.isSome_iff_exists.mp stands.logs.2.2.2
  have silent : before.down.unsent = [] := by
    rw [(stands.down present).idle rfl]
    rfl
  have next := serverLine_stands writes stands reads rfl text
  have reaches := reaches_request stands present reads silent rfl written
  simp only [Connection.serverLine, server, Position.server] at reaches next
  exact reaches.completes rfl (List.append_nil _).symm (by simp)
    (handling_completes writes next present rfl)

theorem greeting_completes (writes : Writes answers) (matching : token = ipcToken)
    (greets : ∃ text, requests.toString (.hello token) = some text)
    (stands : Stands requests answers ok denied token ipcToken before .greeting)
    (present : before.client.left = false) (alive : before.server.left = false) :
    Completes requests answers ok denied token ipcToken reply before := by
  have server := stands.serving matching present alive
  have reads : before.server.reads = true := by rw [server]; rfl
  obtain ⟨text, written⟩ := greets
  obtain ⟨answer, welcome⟩ := writes ok
  have silent : before.down.unsent = [] := by
    rw [(stands.down present).idle rfl]
    rfl
  have same : constantTimeEq token ipcToken = true := (Auth.constantTimeEq_utf8 _ _).mpr matching
  have next := serverLine_stands writes stands reads rfl text
  have reaches := reaches_request stands present reads silent rfl written
  simp only [Connection.serverLine, server, Position.server, same, if_true, Connection.reply,
    welcome, Position.received, if_pos matching] at reaches next
  exact reaches.completes rfl (List.append_nil _).symm (by simp)
    (welcomed_completes writes next present rfl)

theorem start_completes (writes : Writes answers) (matching : token = ipcToken)
    (greets : ∃ text, requests.toString (.hello token) = some text)
    (stands : Stands requests answers ok denied token ipcToken before .start)
    (present : before.client.left = false) (alive : before.server.left = false) :
    Completes requests answers ok denied token ipcToken reply before := by
  have client := stands.present present
  obtain ⟨text, written⟩ := id greets
  have next := hello_stands stands client written
  have reaches : Reaches requests answers ok denied token ipcToken before
      { before with client := .greeting, up := before.up.send text } := by
    refine Reaches.refl.step .hello ?_ rfl
    simp only [step, client, Position.client, written]
  exact reaches.completes rfl (List.append_nil _).symm (by simp)
    (greeting_completes writes matching greets next rfl alive)

theorem dialogue_completes (reply : Request → Answer) (writes : Writes answers)
    (greets : ∃ text, requests.toString (.hello token) = some text) (matching : token = ipcToken)
    (dialogue : Dialogue requests answers ok denied token ipcToken before)
    (present : before.client.left = false) (alive : before.server.left = false) :
    Completes requests answers ok denied token ipcToken reply before := by
  obtain ⟨position, stands⟩ := dialogue
  cases position with
  | start => exact start_completes writes matching greets stands present alive
  | greeting => exact greeting_completes writes matching greets stands present alive
  | welcomed => exact welcomed_completes writes stands present alive
  | denying | refused => exact absurd matching stands.logs.1
  | idle => exact idle_completes (stands.present present)
  | asking request => exact asking_completes writes stands present alive
  | handling request => exact handling_completes writes stands present alive
  | answering request answer => exact answering_completes writes stands present alive

/-- As long as both ends are there, what the client has asked for can be brought to its answer by
the bytes that are under way and the handler alone. -/
theorem exchange_completes (distinct : ok ≠ denied) (writes : Writes answers)
    (greets : ∃ text, requests.toString (.hello token) = some text) (matching : token = ipcToken)
    (run : Run (machine requests answers ok denied token ipcToken) .new log final)
    (present : final.client.left = false) (alive : final.server.left = false)
    (reply : Request → Answer) :
    ∃ last new, Reaches requests answers ok denied token ipcToken final last ∧
      last.client = .ready ∧ last.answered = final.served ++ new ∧
        last.answered.map Prod.fst = final.asked ∧ ∀ pair ∈ new, pair.2 = reply pair.1 := by
  have dialogue := run_dialogue distinct writes greets run
  obtain ⟨last, new, reaches, ready, asked, served, replies⟩ :=
    dialogue_completes reply writes greets matching dialogue present alive
  obtain ⟨later, more, -⟩ := id reaches
  obtain ⟨position, stands⟩ := run_dialogue distinct writes greets (run.trans more)
  obtain ⟨same, inOrder⟩ := stands.in_step.settled ready
  refine ⟨last, new, reaches, ready, same.trans served, ?_, replies⟩
  rw [same, inOrder, asked]

/-! The messages of a client that asks for the status of a daemon that has none. -/

/-- A message of the table, with its text. -/
theorem jsonLine_of_table {Message : Type} {fromStr : Str → Option Message} {message : Message}
    {text : Str} (read : fromStr text = some message) (tight : trim text = text)
    (unbroken : '\n' ∉ text) (present : text ≠ [])
    (closed : ∀ size < text.length, fromStr (trim (text.take size)) = none) :
    JsonLine fromStr message text where
  read_back := read
  one_line := unbroken
  tight := tight
  present := present
  closed front back shape more := by
    have shorter : front.length < text.length := by
      rw [shape, List.length_append]
      exact Nat.lt_add_of_pos_right (List.length_pos_of_ne_nil more)
    have taken : text.take front.length = front := by rw [shape, List.take_left]
    rw [← taken]
    exact closed front.length shorter

def sampleRequests : JsonMessage Request where
  toString request :=
    if request = .hello "5ec2e7".toList then some helloText
    else if request = .status then some statusText
    else none
  fromStr := sampleJson
  line message text written := by
    split at written
    · rename_i same
      obtain rfl := Option.some.inj written
      rw [same]
      exact jsonLine_of_table (by decide) (by decide) (by decide) (by decide) (by decide)
    · split at written
      · rename_i same
        obtain rfl := Option.some.inj written
        rw [same]
        exact jsonLine_of_table (by decide) (by decide) (by decide) (by decide) (by decide)
      · cases written

inductive SampleAnswer where
  | ok
  | denied
  | error
  deriving DecidableEq

def SampleAnswer.text : SampleAnswer → Str
  | .ok => "\"Ok\"".toList
  | .denied => "\"Denied\"".toList
  | .error => "\x7b\"Error\":\"no active token\"\x7d".toList

def sampleAnswers : JsonMessage SampleAnswer where
  toString answer := some answer.text
  fromStr text := [.ok, .denied, .error].find? (fun answer => answer.text = text)
  line answer text written := by
    obtain rfl := Option.some.inj written
    cases answer with
    | ok => exact jsonLine_of_table (by decide) (by decide) (by decide) (by decide) (by decide)
    | denied => exact jsonLine_of_table (by decide) (by decide) (by decide) (by decide) (by decide)
    | error => exact jsonLine_of_table (by decide) (by decide) (by decide) (by decide) (by decide)

/-- The daemon dies within its answer, of which the client makes nothing. -/
theorem exchange_in_step_cut : ∃ final : Connection SampleAnswer,
    final.served = [(.status, .error)] ∧ final.answered = [] ∧
      final.client = .failed "failed to parse IPC response".toList ∧
        InStep "5ec2e7".toList "5ec2e7".toList final := by
  obtain ⟨history, final, -, run, served, answered, failed⟩ := exec_checked
    (machine sampleRequests sampleAnswers .ok .denied "5ec2e7".toList "5ec2e7".toList) .new
    [.hello, .clientWrites 9, .serverReads 4, .clientWrites 99, .serverReads 25, .serverWrites 9,
      .clientReads 5, .request .status, .clientWrites 99, .serverReads 9, .handled .error,
      .serverWrites 12, .daemonExits, .clientReads 12, .clientEnds]
    (fun _ final => final.served = [(.status, .error)] ∧ final.answered = [] ∧
      final.client = .failed "failed to parse IPC response".toList)
    (by decide +kernel)
  exact ⟨final, served, answered, failed, exchange_in_step (by decide) (fun _ => ⟨_, rfl⟩)
    ⟨helloText, rfl⟩ run⟩

theorem exchange_completes_status : ∃ last : Connection SampleAnswer,
    last.client = .ready ∧ last.answered = [(.status, .error)] := by
  obtain ⟨history, final, -, run, present, alive, served, asked⟩ := exec_checked
    (machine sampleRequests sampleAnswers .ok .denied "5ec2e7".toList "5ec2e7".toList) .new
    [.hello, .clientWrites 9, .serverReads 4, .clientWrites 99, .serverReads 25, .serverWrites 9,
      .clientReads 5, .request .status, .clientWrites 3]
    (fun _ final => final.client.left = false ∧ final.server.left = false ∧ final.served = [] ∧
      final.asked = [.status])
    (by decide +kernel)
  obtain ⟨last, new, -, ready, answered, inOrder, replies⟩ := exchange_completes (by decide)
    (fun _ => ⟨_, rfl⟩) ⟨helloText, rfl⟩ rfl run present alive (fun _ => .error)
  refine ⟨last, ready, ?_⟩
  rw [served, List.nil_append] at answered
  rw [answered, asked] at inOrder
  obtain ⟨pair, rest, rfl, shape, nothing⟩ := List.map_eq_cons_iff.mp inOrder
  obtain rfl := List.map_eq_nil_iff.mp nothing
  rw [answered, ← Prod.eta pair, shape, replies pair (List.mem_singleton_self pair)]

end RaemoteServer.Ipc
