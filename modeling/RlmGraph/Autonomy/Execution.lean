import RlmGraph.Autonomy.Deliberation
import RlmGraph.Autonomy.Preparation
import RlmGraph.Lib.Interleavings

/-! # Executions of inquiries

The background thread of an inquiry, and the runs of calls and threads on one
store. A call runs through; a thread performs one operation at a time, and other
calls come in between. Preparing a task is one operation of a thread, so
preparations that overlap are left out. The chat launches an inquiry once, when
it has been created. -/
namespace RlmGraph.Autonomy.Execution
open RlmGraph.Lib RlmGraph.Lib.Programs RlmGraph.Autonomy.Records
open RlmGraph.Autonomy.Deliberation RlmGraph.Autonomy.Preparation

/-- `next(... for session in store.chat_sessions() for item in ...)`. -/
def findInquiry (inquiryId : String) : List String → Act Op Reply Local PyError AutonomousInquiry
  | [] => Act.fail (.other "StopIteration" "")
  | sessionId :: others => do
    let tables ← read
    match (tables.autonomousInquiries sessionId).find? (·.id == inquiryId) with
    | some inquiry => pure inquiry
    | none => findInquiry inquiryId others

/-- What follows the report that the inquiry is running: its outcome, and
whether the policy of its session is enabled. -/
def conclude (inquiry : AutonomousInquiry) (requestId : String) :
    Act Op Reply Local PyError (String × Bool) := do
  let _ ← callOut (.investigate inquiry.question)
  let response ← callOut (.completeWork requestId)
  let _ ← complete inquiry response.result
  let policy ← policy inquiry.sessionId
  pure (inquiry.sessionId, policy.enabled)

/-- The steps of `_execute_autonomous_inquiry` before `prepare_latest`. -/
def investigate (inquiryId : String) : Act Op Reply Local PyError (String × Bool) := do
  let listed ← callOut .chatSessions
  let inquiry ← findInquiry inquiryId listed.sessions
  assign inquiry
  let known ← read
  let _ ← Act.ofExcept (first (·.id == inquiry.branchId) (known.conceptBranches inquiry.sessionId))
  let _ ← callOut (.conversationFacts inquiry.sessionId)
  let _ ← callOut (.saveConversationInterpretation inquiry.question)
  let request ← callOut (.submit inquiry.sessionId inquiry.question)
  let inquiry := { inquiry with workRequestId := some request.requestId, status := .running }
  assign inquiry
  save (.inquiry inquiry)
  conclude inquiry request.requestId

/-- `prepare_latest`, called by a thread. -/
structure Prepare where
  sessionId : String

abbrev Prepared : Type := AutonomousTask × Option AutonomousTaskPlan

abbrev ThreadOp : Type := Op ⊕ Prepare

abbrev ThreadReply : ThreadOp → Type := Either Reply fun _ : Prepare => Except PyError Prepared

def prepare (sessionId : String) : Act ThreadOp ThreadReply Local PyError Unit := do
  let reply : Except PyError Prepared ← Act.perform (Sum.inr (Prepare.mk sessionId) : ThreadOp)
  let _ ← Act.ofExcept reply

/-- `except Exception` of the worker. -/
def recover (e : PyError) : Act ThreadOp ThreadReply Local PyError Unit := do
  match ← Act.get with
  | none => pure ()
  | some inquiry => Act.left (fail inquiry e.className)

/-- The statements under the `try` of the worker. -/
def work (inquiryId : String) : Act ThreadOp ThreadReply Local PyError Unit := do
  let (sessionId, enabled) ← Act.left (investigate inquiryId)
  Act.when (enabled = true) ((prepare sessionId).onError isValueError fun _ => pure ())

def executeInquiry (inquiryId : String) : Act ThreadOp ThreadReply Local PyError Unit :=
  (work inquiryId).onError PyError.isException recover

/-- What each operation of a thread replies and does. -/
def performThread (host : Host) : Meaning ThreadOp ThreadReply World
  | .inl op, w => perform host op w
  | .inr call, w => (prepareLatest host call.sessionId).run (perform host) () w

/-! ## Runs -/

abbrev Program : Type := Prog ThreadOp ThreadReply (Except PyError Unit × Local)

structure Thread where
  inquiryId : String
  program : Program

/-- The tables, who drew each identifier, the threads that run, and the inquiries
whose execution has ended. -/
structure State where
  tables : Tables
  drawn : List String := []
  threads : List Thread := []
  ended : List String := []

def State.start (branches : List ConceptBranch) (policies : List AutonomousWorkPolicy) : State where
  tables := { branches, policies }

def State.world (s : State) (drawer : String) (answers : List Answer) : World :=
  ⟨s.tables, s.drawn, drawer, answers⟩

def State.leave (s : State) (w : World) : State := { s with tables := w.tables, drawn := w.drawn }

def State.launched (s : State) (inquiryId : String) : Bool :=
  s.threads.any (·.inquiryId == inquiryId) || s.ended.contains inquiryId

/-- `_launch_autonomous_inquiry`. -/
def State.launch (s : State) (inquiryId : String) : State :=
  { s with threads := s.threads ++ [⟨inquiryId, executeInquiry inquiryId none⟩] }

inductive Event where
  | branch (branch : ConceptBranch)
  | deliberate (sessionId : String) (answers : List Answer)
  | runAutonomy (sessionId : String) (answers : List Answer)
  | prepareLatest (sessionId : String) (answers : List Answer)
  | enable (sessionId actor : String) (answers : List Answer)
  | disable (sessionId : String) (answers : List Answer)
  /-- An inquiry that has been created is launched. -/
  | execute (inquiryId : String)
  /-- A thread performs its next operation, or ends. -/
  | turn (inquiryId : String) (answers : List Answer)

/-- A call by a user of the session. -/
def State.call {α : Type} (s : State) (host : Host) (sessionId : String) (answers : List Answer)
    (x : Act Op Reply Unit PyError α) : Except PyError α × State :=
  let r := x.run (perform host) () (s.world sessionId answers)
  (r.1, s.leave r.2)

/-- The turn of a thread. -/
def State.turn (host : Host) (s : State) (thread : Thread) (answers : List Answer) : State :=
  let others := s.threads.filter (·.inquiryId != thread.inquiryId)
  match thread.program with
  | .done _ => { s with threads := others, ended := s.ended ++ [thread.inquiryId] }
  | .op op next =>
    let r := performThread host op (s.world thread.inquiryId answers)
    { s.leave r.2 with threads := others ++ [⟨thread.inquiryId, next r.1⟩] }

def step (host : Host) (s : State) : Event → State
  | .branch b => { s with tables := s.tables.saveConceptBranch b }
  | .deliberate sessionId answers => (s.call host sessionId answers (deliberate host sessionId)).2
  | .runAutonomy sessionId answers =>
    match s.call host sessionId answers (runAutonomy host sessionId) with
    | (.ok (some inquiry), s') => s'.launch inquiry.id
    | (_, s') => s'
  | .prepareLatest sessionId answers =>
    (s.call host sessionId answers (Preparation.prepareLatest host sessionId)).2
  | .enable sessionId actor answers =>
    (s.call host sessionId answers (Preparation.enable sessionId actor)).2
  | .disable sessionId answers => (s.call host sessionId answers (Preparation.disable sessionId)).2
  | .execute inquiryId =>
    if s.tables.inquiries.any (·.id == inquiryId) = true ∧ s.launched inquiryId = false then
      s.launch inquiryId
    else s
  | .turn inquiryId answers =>
    match s.threads.find? (·.inquiryId == inquiryId) with
    | some thread => s.turn host thread answers
    | none => s

def run (host : Host) (s : State) (events : List Event) : State := events.foldl (step host) s

end RlmGraph.Autonomy.Execution
