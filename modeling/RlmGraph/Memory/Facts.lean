import RlmGraph.Lib.Rows
import RlmGraph.Memory.Conversation

/-! # Facts of a conversation

What `ConversationMemory` reads as the active facts of a session and of its
profile, and what it commits for a turn. A fact is withdrawn with its source
turn; among the others a fact is active unless one of them supersedes it. -/
namespace RlmGraph.Memory.Facts

open RlmGraph.Lib.PyText RlmGraph.Lib.Rows RlmGraph.Memory.Conversation

/-- The tables the conversation is kept in. -/
structure Store where
  sessions : List ChatSession := []
  turns : List ChatTurn := []
  interpretations : List ConversationInterpretationRecord := []
  facts : List ConversationFact := []

namespace Store

variable (s : Store)

/-! ## Readers -/

/-- `chat_sessions`: the last updated first. -/
def chatSessions : List ChatSession :=
  s.sessions.mergeSort fun a b => decide (b.updatedAt ≤ a.updatedAt)

def chatTurns (sessionId : String) : List ChatTurn :=
  (s.turns.filter (·.sessionId == sessionId)).mergeSort fun a b => decide (a.ordinal ≤ b.ordinal)

def conversationFacts (sessionId : String) : List ConversationFact :=
  (s.facts.filter (·.sessionId == sessionId)).mergeSort fun a b =>
    decide (a.createdAt < b.createdAt) || (decide (a.createdAt = b.createdAt) && decide (a.id ≤ b.id))

/-- `_session_ids`: of a profile, or of all if the profile is not given. -/
def sessionIds (profileId : Option String) (includeLegacyMemory : Bool) : List String :=
  let allowed := fun (session : ChatSession) =>
    !truthy profileId || profileId == some session.profileId ||
      (includeLegacyMemory && session.profileId == "LOCAL-LEGACY")
  (s.chatSessions.filter allowed).map (·.id)

/-- The sessions `_global_items` reads. -/
def globalSessions (fallback : Option String) (ids : Option (List String)) : List String :=
  let chosen := match ids with
    | some ids => ids
    | none =>
      if truthy fallback then
        match s.chatSessions.find? fun session => fallback == some session.id with
        | some session => s.sessionIds (some session.profileId) false
        | none => []
      else s.sessionIds none false
  match fallback with
  | some id => if id ≠ "" ∧ id ∉ chosen then chosen ++ [id] else chosen
  | none => chosen

/-- The turns of a session that have been superseded. -/
def supersededTurns (sessionId : String) : List String :=
  ((s.chatTurns sessionId).filter fun turn => truthy turn.supersededByTurnId).map (·.id)

/-- `_global_items` of the facts. -/
def globalItems (fallback : Option String) (ids : Option (List String)) : List ConversationFact :=
  ((s.globalSessions fallback ids).flatMap fun id =>
    (s.conversationFacts id).filter fun fact => fact.sourceTurnId ∉ s.supersededTurns id).mergeSort
      fun a b => decide (a.createdAt ≤ b.createdAt)

/-- The facts that none of them supersedes. -/
def unreplaced (facts : List ConversationFact) : List ConversationFact :=
  let superseded := (facts.filter fun fact => truthy fact.supersedesFactId).map (·.supersedesFactId)
  facts.filter fun fact => some fact.id ∉ superseded

/-- `_active_facts`. -/
def activeFacts (sessionId : String) : List ConversationFact :=
  unreplaced (s.globalItems (some sessionId) (some [sessionId]))

/-- `_active_all_facts`. -/
def activeAllFacts (fallback : Option String) (ids : Option (List String)) :
    List ConversationFact :=
  unreplaced (s.globalItems fallback ids)

/-! ## Writers -/

def saveChatSession (session : ChatSession) : Store :=
  { s with sessions := upsert (·.id) session s.sessions }

def saveChatTurn (turn : ChatTurn) : Store := { s with turns := upsert (·.id) turn s.turns }

def saveConversationInterpretation (record : ConversationInterpretationRecord) : Store :=
  { s with interpretations := upsert (·.id) record s.interpretations }

def saveConversationFact (fact : ConversationFact) : Store :=
  { s with facts := upsert (·.id) fact s.facts }

end Store

/-! ## Commits -/

/-- The last fact about each thing. -/
def byKey (facts : List ConversationFact) : Key → Option ConversationFact :=
  fun key => (facts.filter (·.key == key)).getLast?

/-- The store while a turn is committed, and the facts that are found by what
they are about: those of the session, and those of the profile (`true`). -/
structure Commit where
  store : Store
  index : Bool → Key → Option ConversationFact

/-- A fact is saved and found from then on. -/
def Commit.write (c : Commit) (fact : ConversationFact) : Commit where
  store := c.store.saveConversationFact fact
  index := Function.update c.index fact.profileMemory
    (Function.update (c.index fact.profileMemory) fact.key (some fact))

/-- A prior fact with one more turn that supports it; the last eight are kept. -/
def confirm (turn : ChatTurn) (fact prior : ConversationFact) : ConversationFact :=
  let supporting := prior.supportingTurnIds ++ [turn.id]
  { prior with
    supportingTurnIds := supporting.drop (supporting.length - 8)
    lastConfirmedAt := some fact.createdAt }

/-- One candidate of `commit_with_associations`: a repeated value supports the
prior fact, another one supersedes it. -/
def commitFact (tables : CaseTables) (turn : ChatTurn) (c : Commit) (fact : ConversationFact) :
    Commit :=
  match c.index fact.profileMemory fact.key with
  | some prior =>
    if casefold tables prior.value = casefold tables fact.value then
      if turn.id ≠ prior.sourceTurnId ∧ turn.id ∉ prior.supportingTurnIds then
        c.write (confirm turn fact prior)
      else c
    else c.write { fact with supersedesFactId := some prior.id }
  | none => c.write fact

/-- What a commit finds when it starts. -/
def Commit.start (s : Store) (sessionId : String) : Commit where
  store := s
  index
    | false => byKey (s.activeFacts sessionId)
    | true => byKey ((s.activeAllFacts (some sessionId) none).filter (·.profileMemory))

def commitFacts (tables : CaseTables) (s : Store) (turn : ChatTurn)
    (facts : List ConversationFact) : Store :=
  (facts.foldl (commitFact tables turn) (Commit.start s turn.sessionId)).store

/-- `commit_with_associations`. -/
def commitWithAssociations (tables : CaseTables) (mint : Nat → String × Nat) (s : Store)
    (turn : ChatTurn) (record : ConversationInterpretationRecord) : Store :=
  commitFacts tables s turn (extract tables mint turn record)

/-! ## What the readers return -/

section
variable {s : Store} {fact : ConversationFact} {turn : ChatTurn} {id : String}

@[simp] theorem mem_chatSessions {session : ChatSession} :
    session ∈ s.chatSessions ↔ session ∈ s.sessions := by
  simp [Store.chatSessions, List.mem_mergeSort]

@[simp] theorem mem_chatTurns : turn ∈ s.chatTurns id ↔ turn ∈ s.turns ∧ turn.sessionId = id := by
  simp [Store.chatTurns, List.mem_mergeSort]

@[simp] theorem mem_conversationFacts :
    fact ∈ s.conversationFacts id ↔ fact ∈ s.facts ∧ fact.sessionId = id := by
  simp [Store.conversationFacts, List.mem_mergeSort]

theorem mem_supersededTurns {turnId : String} : turnId ∈ s.supersededTurns id ↔
    ∃ turn ∈ s.turns, turn.sessionId = id ∧ turn.id = turnId ∧
      truthy turn.supersededByTurnId = true := by
  simp only [Store.supersededTurns, List.mem_map, List.mem_filter, mem_chatTurns]
  constructor
  · rintro ⟨turn, ⟨⟨hmem, hsession⟩, hsup⟩, hid⟩
    exact ⟨turn, hmem, hsession, hid, hsup⟩
  · rintro ⟨turn, hmem, hsession, hid, hsup⟩
    exact ⟨turn, ⟨⟨hmem, hsession⟩, hsup⟩, hid⟩

/-- A fact whose source turn has not been superseded. -/
def Valid (s : Store) (fact : ConversationFact) : Prop :=
  fact.sourceTurnId ∉ s.supersededTurns fact.sessionId

instance (s : Store) (fact : ConversationFact) : Decidable (Valid s fact) :=
  inferInstanceAs (Decidable (¬ _))

theorem mem_globalItems {fallback : Option String} {ids : Option (List String)} :
    fact ∈ s.globalItems fallback ids ↔
      fact ∈ s.facts ∧ fact.sessionId ∈ s.globalSessions fallback ids ∧ Valid s fact := by
  simp only [Store.globalItems, List.mem_mergeSort, List.mem_flatMap, List.mem_filter,
    mem_conversationFacts, decide_eq_true_eq, Valid]
  constructor
  · rintro ⟨session, hsession, ⟨hmem, rfl⟩, hvalid⟩
    exact ⟨hmem, hsession, hvalid⟩
  · rintro ⟨hmem, hsession, hvalid⟩
    exact ⟨fact.sessionId, hsession, ⟨hmem, rfl⟩, hvalid⟩

theorem mem_unreplaced {facts : List ConversationFact} (hid : fact.id ≠ "") :
    fact ∈ Store.unreplaced facts ↔
      fact ∈ facts ∧ ∀ other ∈ facts, other.supersedesFactId ≠ some fact.id := by
  simp only [Store.unreplaced, List.mem_filter, List.mem_map, decide_eq_true_eq, not_exists,
    not_and]
  refine and_congr_right fun _ => forall_congr' fun other => ?_
  constructor
  · intro h hmem heq
    exact h ⟨hmem, by simp [heq, truthy, hid]⟩ heq
  · rintro h ⟨hmem, -⟩ heq
    exact h hmem heq

theorem globalSessions_some (sessionId : String) :
    s.globalSessions (some sessionId) (some [sessionId]) = [sessionId] := by
  simp [Store.globalSessions]

end

end RlmGraph.Memory.Facts
