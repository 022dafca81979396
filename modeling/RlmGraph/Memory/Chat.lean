import RlmGraph.Lib.PyError
import RlmGraph.Memory.Facts

/-! # Turns and retries

A message is answered by a turn whose interpretation is committed; the latest
answer of a session may be retried. What a model answers, and where a call
breaks off, is given with the call. -/
namespace RlmGraph.Memory.Chat

open RlmGraph.Lib RlmGraph.Lib.PyText RlmGraph.Lib.Rows
open RlmGraph.Memory.Conversation RlmGraph.Memory.Facts

/-- What is answered to a message: the turn's id, route and intent, the
interpretation with its id, the ids and times of the facts, and the time. -/
structure Reply where
  turnId : String
  route : String
  intent : String := "CONVERSE"
  interpretation : Option (String × ConversationInterpretation)
  mint : Nat → String × Nat
  updatedAt : Nat

/-- The record of the interpretation, made for the session. -/
def Reply.record (reply : Reply) (sessionId : String) : Option ConversationInterpretationRecord :=
  reply.interpretation.map fun (id, interpretation) => { id, sessionId, interpretation }

/-- How `reply` ends: an exception before anything is saved; one after the turn
and a number of its facts have been saved; or an answer. -/
inductive Outcome where
  | recovered
  | broken (reply : Reply) (facts : Nat)
  | answered (reply : Reply)

/-- The turn `_persist` makes of a reply. -/
def turnOf (s : Store) (sessionId message : String) (reply : Reply) : ChatTurn where
  id := reply.turnId
  sessionId := sessionId
  ordinal := ((s.chatTurns sessionId).map (·.ordinal)).foldl max 0 + 1
  userMessage := message
  route := reply.route
  intent := reply.intent
  interpretationId := reply.interpretation.map (·.1)
  supersededByTurnId := none

/-- The facts `_persist` commits for a turn. -/
def candidates (tables : CaseTables) (turn : ChatTurn) (reply : Reply) : List ConversationFact :=
  match reply.record turn.sessionId with
  | some record => if reply.route ≠ "RLM_RECOVERY" then extract tables reply.mint turn record else []
  | none => []

/-- `_persist`; `broken` is where it breaks off, if it does. -/
def persist (tables : CaseTables) (s : Store) (session : ChatSession) (message : String)
    (reply : Reply) (broken : Option Nat) : Store :=
  let turn := turnOf s session.id message reply
  let s := s.saveChatTurn turn
  let s := match reply.record session.id with
    | some record =>
      if reply.route ≠ "RLM_RECOVERY" then s.saveConversationInterpretation record else s
    | none => s
  let facts := candidates tables turn reply
  match broken with
  | some n => commitFacts tables s turn (facts.take n)
  | none =>
    (commitFacts tables s turn facts).saveChatSession { session with updatedAt := reply.updatedAt }

/-- `safe_reply`: the store, the route, and the turn's id if one is returned. -/
def safeReply (tables : CaseTables) (s : Store) (session : ChatSession) (message : String) :
    Outcome → Store × String × Option String
  | .recovered => (s, "RLM_RECOVERY", none)
  | .broken reply n => (persist tables s session message reply (some n), "RLM_RECOVERY", none)
  | .answered reply =>
    (persist tables s session message reply none, reply.route, some reply.turnId)

/-- `_turns`: those that have not been superseded. -/
def liveTurns (s : Store) (sessionId : String) : List ChatTurn :=
  (s.chatTurns sessionId).filter fun turn => !truthy turn.supersededByTurnId

def supersede (s : Store) (turn : ChatTurn) (by' : String) : Store :=
  s.saveChatTurn { turn with supersededByTurnId := some by' }

/-- What `retry_answer` checks: the session and its latest answer. -/
def latestAnswer (s : Store) (sessionId turnId profileId : String) (includeLegacyMemory : Bool) :
    Except PyError (ChatSession × ChatTurn) :=
  match s.chatSessions.find? (·.id == sessionId) with
  | none => .error (.value "Conversation is unavailable for this profile.")
  | some session =>
    if session.profileId ≠ profileId ∧
        ¬ (includeLegacyMemory ∧ session.profileId = "LOCAL-LEGACY") then
      .error (.value "Conversation is unavailable for this profile.")
    else
      match (liveTurns s sessionId).getLast? with
      | none => .error (.value "Only the latest answer can be retried. Refresh the conversation.")
      | some previous =>
        if previous.id ≠ turnId then
          .error (.value "Only the latest answer can be retried. Refresh the conversation.")
        else if previous.route = "RLM_CONVERSATION_TASK" ∨ previous.intent = "CHANGE" then
          .error (.value "Use task controls to continue project work.")
        else .ok (session, previous)

/-- The answer is no answer: a recovery or a clarification. -/
def failed (route : String) : Bool :=
  route == "RLM_RECOVERY" || route == "RLM_CONVERSATION_CLARIFICATION"

/-- The replacement is committed once more; its facts get their ids from `again`. -/
def recommit (tables : CaseTables) (s : Store) (turn : ChatTurn) (again : Nat → String × Nat) :
    Store :=
  match s.interpretations.find? fun record =>
      record.sessionId == turn.sessionId && some record.id == turn.interpretationId with
  | some record => commitWithAssociations tables again s turn record
  | none => s

/-- `retry_answer`. -/
def retryAnswer (tables : CaseTables) (s : Store) (sessionId turnId profileId : String)
    (includeLegacyMemory : Bool) (outcome : Outcome) (again : Nat → String × Nat) :
    Except PyError Store := do
  let (session, previous) ← latestAnswer s sessionId turnId profileId includeLegacyMemory
  let (s, route, answer) := safeReply tables s session previous.userMessage outcome
  match answer with
  | none => return s
  | some answer =>
    let some turn := (s.chatTurns sessionId).find? (·.id == answer)
      | throw (.other "StopIteration" "")
    if failed route then return supersede s turn previous.id
    else return recommit tables (supersede s previous answer) turn again

/-! ## Runs -/

/-- A session is opened, a message is answered in it, or its latest answer is
retried. -/
inductive Event where
  | opened (session : ChatSession)
  | said (sessionId message : String) (outcome : Outcome)
  | retried (sessionId turnId profileId : String) (includeLegacyMemory : Bool) (outcome : Outcome)
      (again : Nat → String × Nat)

def step (tables : CaseTables) (s : Store) : Event → Store
  | .opened session => s.saveChatSession session
  | .said sessionId message outcome =>
    match s.chatSessions.find? (·.id == sessionId) with
    | some session => (safeReply tables s session message outcome).1
    | none => s
  | .retried sessionId turnId profileId includeLegacyMemory outcome again =>
    match retryAnswer tables s sessionId turnId profileId includeLegacyMemory outcome again with
    | .ok s' => s'
    | .error _ => s

def after (tables : CaseTables) (events : List Event) : Store :=
  events.foldl (step tables) {}

/-! ## New ids -/

/-- The ids of a reply are new, and so are those of all facts that are built. -/
structure Reply.Fresh (s : Store) (reply : Reply) (built : List ConversationFact) : Prop where
  turn : reply.turnId ≠ "" ∧ reply.turnId ∉ s.turns.map (·.id)
  interpretation : ∀ x ∈ reply.interpretation, x.1 ∉ s.interpretations.map (·.id)
  facts : ∀ fact ∈ built, fact.id ≠ "" ∧ fact.id ∉ s.facts.map (·.id)
  distinct : (built.map (·.id)).Nodup

def Outcome.Fresh (s : Store) (built : Reply → List ConversationFact) : Outcome → Prop
  | .recovered => True
  | .broken reply _ | .answered reply => reply.Fresh s (built reply)

/-- What the second commit of a reply builds. -/
def rebuilt (tables : CaseTables) (turn : ChatTurn) (reply : Reply)
    (again : Nat → String × Nat) : List ConversationFact :=
  match reply.record turn.sessionId with
  | some record => extract tables again turn record
  | none => []

/-- `new_id` gives ids that are not used yet. -/
def Fresh (tables : CaseTables) (s : Store) : Event → Prop
  | .opened session => session.id ≠ "" ∧ session.id ∉ s.sessions.map (·.id)
  | .said sessionId message outcome =>
    outcome.Fresh s fun reply => candidates tables (turnOf s sessionId message reply) reply
  | .retried sessionId _ _ _ outcome again =>
    ∀ previous ∈ (liveTurns s sessionId).getLast?, outcome.Fresh s fun reply =>
      let turn := turnOf s sessionId previous.userMessage reply
      candidates tables turn reply ++ rebuilt tables turn reply again

end RlmGraph.Memory.Chat
