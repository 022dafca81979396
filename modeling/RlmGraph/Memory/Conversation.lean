import Mathlib.Algebra.Order.Field.Rat
import RlmGraph.Lib.PyText

/-! # Conversation records

Sessions, turns, interpretations and facts, and the facts that `_extract` makes
of a turn and its interpretation. Facts of the profile have a subject that
starts with `user.`, facts of the session one that starts with
`conversation.`. -/
namespace RlmGraph.Memory.Conversation

open RlmGraph.Lib.PyText

/-! ## Records -/

inductive ConversationFactKind where
  | identity | objective | preference | context | episodic
  deriving DecidableEq

inductive Meaning where
  | reported | requirement | preference | convention
  deriving DecidableEq

inductive Sensitivity where
  | normal | sensitive | secret
  deriving DecidableEq

structure ConversationMemoryCandidate where
  kind : ConversationFactKind
  subject : String
  predicate : String := "is"
  value : String
  aliases : List String := []
  confidence : ℚ
  sensitivity : Sensitivity := .normal
  meaning : Meaning := .reported
  sourceExcerpt : String := ""
  usefulWhen : String := ""

/-- What is read of a `ConversationInterpretation`. -/
structure ConversationInterpretation where
  confidence : ℚ
  objectiveUpdate : Option String := none
  memoryCandidates : List ConversationMemoryCandidate := []

structure ConversationInterpretationRecord where
  id : String
  sessionId : String
  interpretation : ConversationInterpretation

/-- A profile always has an id. Times are microseconds. -/
structure ChatSession where
  id : String
  profileId : String
  updatedAt : Nat
  profiled : profileId ≠ ""

structure ChatTurn where
  id : String
  sessionId : String
  ordinal : Nat
  userMessage : String
  route : String
  intent : String
  interpretationId : Option String
  supersededByTurnId : Option String
  deriving DecidableEq

structure ConversationFact where
  id : String := ""
  sessionId : String
  kind : ConversationFactKind
  subject : String
  predicate : String
  value : String
  sourceTurnId : String
  sourceInterpretationId : String
  confidence : ℚ
  aliases : List String := []
  profileMemory : Bool := false
  meaning : Meaning := .reported
  sourceExcerpt : String := ""
  usefulWhen : String := ""
  supportingTurnIds : List String := []
  lastConfirmedAt : Option Nat := none
  supersedesFactId : Option String := none
  createdAt : Nat := 0
  deriving DecidableEq

/-- What a fact is about: its subject, predicate and meaning. -/
abbrev Key := String × String × Meaning

def ConversationFact.key (fact : ConversationFact) : Key :=
  (fact.subject, fact.predicate, fact.meaning)

/-- Whether an optional text is there and not empty. -/
def truthy (text : Option String) : Bool := text.any (· != "")

/-! ## Extraction -/

/-- A character as it is compared when case is ignored: four letters outside
ASCII are compared as ASCII ones. -/
def foldCase (c : Char) : Char :=
  if c.toNat = 0x130 ∨ c.toNat = 0x131 then 'i'
  else if c.toNat = 0x17f then 's'
  else if c.toNat = 0x212a then 'k'
  else c.toLower

def sameWord (text word : String) : Bool := text.toList.map foldCase == word.toList

/-- The value an identity statement ends with: without a last `.` or `!` and the
blanks before it, if something is left. -/
def identityValue (rest : String) : String :=
  let chars := rest.toList
  if 2 ≤ chars.length ∧ (chars.getLast? = some '.' ∨ chars.getLast? = some '!') then
    String.ofList (chars.dropLast.reverse.dropWhile isSpace).reverse
  else rest

/-- `_IDENTITY.fullmatch(" ".join(message.split()))`: subject and value. The
verbs `is called` and `is named` are never reached: `is` matches first, with the
rest as the value. -/
def identityMatch (message : String) : Option (String × String) :=
  match words message with
  | owner :: subject :: verb :: rest =>
    if ["this", "the", "my", "our"].any (sameWord owner) &&
        ["project", "system", "app", "application", "graph", "repository", "repo"].any
          (sameWord subject) then
      if (sameWord verb "is" || sameWord verb "means") && rest ≠ [] then
        some (subject, identityValue (" ".intercalate rest))
      else
        match rest with
        | second :: rest =>
          if sameWord verb "refers" && sameWord second "to" && rest ≠ [] then
            some (subject, identityValue (" ".intercalate rest))
          else none
        | [] => none
    else none
  | _ => none

/-- The facts without their ids and times, which they get from `extract`. -/
def identityDraft (tables : CaseTables) (turn : ChatTurn)
    (record : ConversationInterpretationRecord) : List ConversationFact :=
  match identityMatch turn.userMessage with
  | some (subject, value) =>
    let subject := casefold tables subject
    let canonical :=
      if subject ∈ ["project", "repository", "repo"] then "current_project" else subject
    [{
      sessionId := turn.sessionId, kind := .identity
      subject := "conversation." ++ canonical, predicate := "is", value := strip value
      sourceTurnId := turn.id, sourceInterpretationId := record.id
      confidence := max (9 / 10) record.interpretation.confidence }]
  | none => []

def objectiveDraft (turn : ChatTurn) (record : ConversationInterpretationRecord) : List ConversationFact :=
  match record.interpretation.objectiveUpdate with
  | some objective =>
    if objective = "" then []
    else [{
      sessionId := turn.sessionId, kind := .objective
      subject := "conversation.active_objective", predicate := "is", value := objective
      sourceTurnId := turn.id, sourceInterpretationId := record.id
      confidence := record.interpretation.confidence }]
  | none => []

/-- `re.sub(r"[^a-z0-9]+", ".", text.casefold()).strip(".")`. -/
def dotted (tables : CaseTables) (text : String) : String :=
  ".".intercalate ((((casefold tables text).toList.splitOnP
    fun c => !(('a' ≤ c && c ≤ 'z') || ('0' ≤ c && c ≤ '9'))).filter (· ≠ [])).map String.ofList)

def candidateDraft (tables : CaseTables) (turn : ChatTurn)
    (record : ConversationInterpretationRecord) (candidate : ConversationMemoryCandidate) :
    Option ConversationFact :=
  let subject := dotted tables candidate.subject
  if candidate.sensitivity = .secret ∨ subject = "" then none
  else some {
    sessionId := turn.sessionId, kind := candidate.kind
    subject := "user." ++ subject
    predicate := casefold tables (strip candidate.predicate)
    value := strip candidate.value
    sourceTurnId := turn.id, sourceInterpretationId := record.id
    confidence := candidate.confidence
    aliases := (distinct ((candidate.aliases.map strip).filter (· ≠ ""))).take 12
    profileMemory := true, meaning := candidate.meaning
    sourceExcerpt :=
      if hasPart turn.userMessage candidate.sourceExcerpt then candidate.sourceExcerpt else ""
    usefulWhen := candidate.usefulWhen }

def drafts (tables : CaseTables) (turn : ChatTurn) (record : ConversationInterpretationRecord) :
    List ConversationFact :=
  identityDraft tables turn record ++ objectiveDraft turn record ++
    record.interpretation.memoryCandidates.filterMap (candidateDraft tables turn record)

/-- `_extract`; `mint` gives the facts their ids and times, in order. -/
def extract (tables : CaseTables) (mint : Nat → String × Nat) (turn : ChatTurn)
    (record : ConversationInterpretationRecord) : List ConversationFact :=
  (drafts tables turn record).mapIdx fun i draft =>
    { draft with id := (mint i).1, createdAt := (mint i).2 }

/-! ## What is extracted -/

/-- A fact as `_extract` leaves it. -/
structure Extracted (turn : ChatTurn) (fact : ConversationFact) : Prop where
  session : fact.sessionId = turn.sessionId
  source : fact.sourceTurnId = turn.id
  unsupported : fact.supportingTurnIds = []
  replacesNone : fact.supersedesFactId = none
  subject : fact.subject.toList.head? = some (if fact.profileMemory then 'u' else 'c')

variable {tables : CaseTables} {turn : ChatTurn} {record : ConversationInterpretationRecord}

theorem extracted_of_draft {draft : ConversationFact} (h : draft ∈ drafts tables turn record) :
    Extracted turn draft := by
  rcases List.mem_append.mp h with h | h
  · rcases List.mem_append.mp h with h | h
    · unfold identityDraft at h
      split at h
      · obtain rfl := List.mem_singleton.mp h
        exact ⟨rfl, rfl, rfl, rfl, by simp⟩
      · cases h
    · unfold objectiveDraft at h
      split at h
      · split at h
        · cases h
        · obtain rfl := List.mem_singleton.mp h
          exact ⟨rfl, rfl, rfl, rfl, by simp⟩
      · cases h
  · obtain ⟨candidate, -, hdraft⟩ := List.mem_filterMap.mp h
    unfold candidateDraft at hdraft
    dsimp only at hdraft
    split at hdraft
    · cases hdraft
    · obtain rfl := Option.some.inj hdraft
      exact ⟨rfl, rfl, rfl, rfl, by simp⟩

theorem extracted {mint : Nat → String × Nat} {fact : ConversationFact}
    (h : fact ∈ extract tables mint turn record) : Extracted turn fact := by
  obtain ⟨i, hi, rfl⟩ := List.mem_mapIdx.mp h
  have hdraft := extracted_of_draft (List.getElem_mem hi)
  exact ⟨hdraft.session, hdraft.source, hdraft.unsupported, hdraft.replacesNone, hdraft.subject⟩

/-- What a fact says, wherever it was said. -/
def ConversationFact.content (fact : ConversationFact) : Bool × Key × String :=
  (fact.profileMemory, fact.key, fact.value)

/-- The ids that are drawn do not matter for what is said. -/
theorem content_extract (mint again : Nat → String × Nat) :
    (extract tables mint turn record).map (·.content) =
      (extract tables again turn record).map (·.content) := by
  unfold extract
  refine List.ext_getElem (by simp) fun i _ _ => ?_
  simp only [List.getElem_map, List.getElem_mapIdx]
  rfl

/-- Facts of the session and facts of the profile are never about the same. -/
theorem profileMemory_of_key {other : ChatTurn} {a b : ConversationFact} (ha : Extracted turn a)
    (hb : Extracted other b) (hkey : a.key = b.key) : a.profileMemory = b.profileMemory := by
  have hsubject : a.subject = b.subject := congrArg Prod.fst hkey
  have h := ha.subject.symm.trans ((congrArg (·.toList.head?) hsubject).trans hb.subject)
  revert h
  cases a.profileMemory <;> cases b.profileMemory <;> simp

end RlmGraph.Memory.Conversation
