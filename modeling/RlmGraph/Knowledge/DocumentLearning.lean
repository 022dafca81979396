import RlmGraph.Knowledge.Lessons

/-! # Learning from documents

A document is read by an interpreter twice: it extracts candidates, and it
reviews them. What comes back is checked, and the lessons, their collections
and the receipt are written in one transaction. One lock admits one ingest at
a time; lessons can be learned by hand while the interpreter works, so an
ingest is a machine of three steps. -/
namespace RlmGraph.Knowledge.DocumentLearning
open RlmGraph.Lib.JsonText RlmGraph.Lib.PyText RlmGraph.Lib.Results RlmGraph.Knowledge.Lessons

structure DocumentInput where
  title : String
  sourceRef : String
  text : String
  deriving DecidableEq

structure DocumentFact where
  topic : String
  statement : String
  excerpt : String
  appliesWhen : String
  limitations : String
  collection : String
  deriving DecidableEq

inductive Verdict where
  | supported | unsupported | conflict | duplicate
  deriving DecidableEq

structure FactVerdict where
  candidate : Nat
  verdict : Verdict
  reason : String
  relatedLessonIds : List String := []
  deriving DecidableEq

inductive Outcome where
  | reviewed (verdict : Verdict)
  | rejected
  | duplicate
  | saved
  deriving DecidableEq

structure Decision where
  candidate : Nat
  statement : String
  excerpt : String
  outcome : Outcome
  reason : String
  relatedLessonIds : List String
  lessonId : Option String := none
  collection : Option String := none
  deriving DecidableEq

structure Receipt where
  documentId : String
  title : String
  sourceRef : String
  sourceSha256 : String
  recordedBy : String
  recordedAt : String
  status : String := "REVIEWED"
  reused : Bool := false
  decisions : List Decision := []
  savedCount : Nat := 0
  collectionNames : List String := []
  reviewScope : String :=
    "Source support and up to 24 related stored lessons; not independent truth verification."
  deriving DecidableEq

structure DocumentRow where
  id : String
  projectId : String
  source : DocumentInput
  receipt : Receipt
  deriving DecidableEq

structure CollectionRow where
  id : String
  projectId : String
  name : String
  deriving DecidableEq

structure Tables where
  lessons : List Lesson := []
  documents : List DocumentRow := []
  collections : List CollectionRow := []
  deriving DecidableEq

def documentLimit : Nat := 100

/-! ## Before the interpreter -/

/-- An ingest that waits for the candidates. -/
structure Reading where
  projectId : String
  document : DocumentInput
  actor : String
  digest : String
  documentId : String
  collections : List String
  deriving DecidableEq

def documentId (host : Host) (projectId digest sourceRef : String) : String :=
  "DOCUMENT-" ++ takeText 24 (host.sha256 (dumps ⟨true, true⟩
    (.arr [.str projectId, .str digest, .str sourceRef])))

def collectionId (host : Host) (projectId name : String) : String :=
  "COLLECTION-" ++ takeText 20 (host.sha256 (projectId ++ "\x00" ++ name))

def checkDocument (document : DocumentInput) : Except LearningError Unit :=
  require (!([document.title, document.sourceRef, document.text].any isBlankText ||
      document.text.toList.contains '\x00'))
    (.value "Supply readable document text, a title, and a source reference.")

def checkLock (running : Bool) : Except LearningError Unit :=
  require (!running)
    (.value "Another document is being learned. Wait for it to finish before trying again.")

/-- What an ingest does before it asks the interpreter: a document that was
learned before has its receipt. -/
def startIngest (host : Host) (projects : List String) (running : Bool) (projectId : String)
    (document : DocumentInput) (actor : String) (t : Tables) :
    Except LearningError (Receipt ⊕ Reading) := do
  checkProject projects projectId
  checkDocument document
  checkLock running
  let digest := host.sha256 document.text
  let id := documentId host projectId digest document.sourceRef
  match t.documents.find? (·.id == id) with
  | some row => return .inl { row.receipt with reused := true }
  | none =>
    require (!(documentLimit ≤ t.documents.length))
      (.value "The 100-document limit is reached; nothing was discarded.")
    return .inr {
      projectId := projectId, document := document, actor := actor, digest := digest,
      documentId := id,
      collections := (t.collections.filter (·.projectId == projectId)).map (·.name) }

/-! ## Between the two calls -/

/-- An ingest that waits for the review. -/
structure Reviewing extends Reading where
  candidates : List DocumentFact
  existing : List Lesson
  related : List Lesson
  deriving DecidableEq

/-- The 24 lessons that share most terms with the candidates. -/
def relatedLessons (host : Host) (candidates : List DocumentFact) (existing : List Lesson) :
    List Lesson :=
  let query := terms host (" ".intercalate (candidates.map (·.statement)))
  let shared (lesson : Lesson) := (query.filter ((terms host lesson.draft.statement).contains ·)).length
  (existing.mergeSort fun a b => decide (shared b ≤ shared a)).take 24

def takeCandidates (host : Host) (projects : List String) (reading : Reading)
    (candidates : List DocumentFact) (t : Tables) : Except LearningError Reviewing := do
  checkProject projects reading.projectId
  let existing := lessonsOf t.lessons reading.projectId
  return { reading with
           candidates := candidates, existing := existing,
           related := relatedLessons host candidates existing }

/-! ## After the review -/

/-- The review covers each candidate exactly once. -/
def covers (verdicts : List FactVerdict) (count : Nat) : Bool :=
  let ids := verdicts.map (·.candidate)
  decide ids.Nodup && ids.all (· < count) && (List.range count).all (ids.contains ·)

/-- `text.find(part)`. -/
def findText (part : List Char) : List Char → Nat → Option Nat
  | [], start => if part.isPrefixOf [] then some start else none
  | c :: rest, start => if part.isPrefixOf (c :: rest) then some start else findText part rest (start + 1)

/-- `text[start:end]`. -/
def slice (text : String) (first last : Nat) : String :=
  String.ofList ((text.toList.drop first).take (last - first))

/-- A text up to case and white space. -/
def folded (host : Host) (text : String) : String := squeeze (casefold host.tables text)

/-- What makes two lessons duplicates. -/
def sameKey (host : Host) (statement appliesWhen limitations : String) : String × String × String :=
  (folded host statement, folded host appliesWhen, folded host limitations)

def Lesson.key (host : Host) (lesson : Lesson) : String × String × String :=
  sameKey host lesson.draft.statement lesson.draft.appliesWhen lesson.draft.limitations

def DocumentFact.key (host : Host) (fact : DocumentFact) : String × String × String :=
  sameKey host fact.statement fact.appliesWhen fact.limitations

def draftOf (document : DocumentInput) (fact : DocumentFact) : LessonDraft where
  topic := fact.topic
  statement := fact.statement
  sourceKind := .publication
  sourceRef := document.sourceRef
  sourceExcerpt := fact.excerpt
  appliesWhen := fact.appliesWhen
  limitations := fact.limitations

/-- The decision before the checks of the host. -/
def reviewedDecision (index : Nat) (fact : DocumentFact) (verdict : FactVerdict) : Decision where
  candidate := index
  statement := fact.statement
  excerpt := fact.excerpt
  outcome := .reviewed verdict.verdict
  reason := verdict.reason
  relatedLessonIds := verdict.relatedLessonIds

/-- The lesson of a supported candidate. -/
def supportedLesson (host : Host) (projects : List String) (now : String) (r : Reviewing)
    (fact : DocumentFact) (verdict : FactVerdict) (start : Nat) : Except LearningError Lesson := do
  let name := casefold host.tables (squeeze fact.collection)
  require (name != "") (.value "A candidate has an empty collection. No facts were saved.")
  let lesson ← prepare host projects now r.projectId (draftOf r.document fact) r.actor
  return { lesson with
           status := "SOURCE_SUPPORTED"
           support := some {
             documentId := r.documentId, collectionId := collectionId host r.projectId name,
             collectionName := name, spanStart := start,
             spanEnd := start + fact.excerpt.toList.length, sourceReview := verdict.reason } }

/-- The decision about a candidate, and the lesson it is saved as. -/
def judge (host : Host) (projects : List String) (now : String) (r : Reviewing)
    (pending : List Lesson) (index : Nat) (fact : DocumentFact) (verdict : FactVerdict) :
    Except LearningError (Decision × Option Lesson) :=
  let decision := reviewedDecision index fact verdict
  match findText fact.excerpt.toList r.document.text.toList 0, isBlankText fact.excerpt with
  | none, _ | some _, true =>
    .ok ({ decision with
           outcome := .rejected
           reason := "The supporting excerpt is not present in the supplied document." }, none)
  | some start, false =>
    if verdict.relatedLessonIds.any fun ref => !r.related.any (·.id == ref) then
      .ok ({ decision with
             outcome := .rejected
             reason := "The review cited an unavailable memory reference." }, none)
    else if verdict.verdict = .supported then
      match (r.existing ++ pending).find? (Lesson.key host · == fact.key host) with
      | some duplicate =>
        .ok ({ decision with outcome := .duplicate, relatedLessonIds := [duplicate.id] }, none)
      | none => do
        let lesson ← supportedLesson host projects now r fact verdict start
        return ({ decision with
                  outcome := .saved, lessonId := some lesson.id
                  collection := lesson.support.map (·.collectionName) }, some lesson)
    else .ok (decision, none)

/-- The decisions about the candidates from an index on, with the lessons that
are pending. -/
def judgeAll (host : Host) (projects : List String) (now : String) (r : Reviewing)
    (verdicts : List FactVerdict) :
    Nat → List DocumentFact → List Lesson → Except LearningError (List Decision × List Lesson)
  | _, [], pending => .ok ([], pending)
  | index, fact :: rest, pending =>
    match verdicts.find? (·.candidate == index) with
    | none => .error (.integrity "verdicts")
    | some verdict => do
      let (decision, lesson) ← judge host projects now r pending index fact verdict
      let (decisions, pending) ←
        judgeAll host projects now r verdicts (index + 1) rest (pending ++ lesson.toList)
      return (decision :: decisions, pending)

def insertLessons : List Lesson → List Lesson → Except LearningError (List Lesson)
  | lessons, [] => .ok lessons
  | lessons, lesson :: rest => do
    let lessons ← insertLesson lessons lesson
    insertLessons lessons rest

/-- `INSERT OR IGNORE INTO knowledge_collections` for a lesson. -/
def addCollection (projectId : String) (rows : List CollectionRow) (lesson : Lesson) :
    List CollectionRow :=
  match lesson.support with
  | none => rows
  | some support =>
    if rows.any (·.id == support.collectionId) then rows
    else rows ++ [⟨support.collectionId, projectId, support.collectionName⟩]

def receiptOf (now : String) (r : Reviewing) (decisions : List Decision) (pending : List Lesson) :
    Receipt where
  documentId := r.documentId
  title := r.document.title
  sourceRef := r.document.sourceRef
  sourceSha256 := r.digest
  recordedBy := r.actor
  recordedAt := now
  decisions := decisions
  savedCount := pending.length
  collectionNames := sortedSet (pending.filterMap fun lesson => lesson.support.map (·.collectionName))

/-- The transaction of an ingest. -/
def commit (r : Reviewing) (receipt : Receipt) (pending : List Lesson) (t : Tables) :
    Except LearningError Tables := do
  require (!(documentLimit ≤ t.documents.length))
    (.value "The document limit was reached. No facts were saved.")
  require (!(lessonLimit < t.lessons.length + pending.length))
    (.value "Saving this document would exceed the lesson limit. No facts were saved.")
  let lessons ← insertLessons t.lessons pending
  require (t.documents.all (·.id != r.documentId)) (.integrity "learned_documents.id")
  return {
    lessons := lessons
    collections := pending.foldl (addCollection r.projectId) t.collections
    documents := t.documents ++ [⟨r.documentId, r.projectId, r.document, receipt⟩] }

/-- The verdicts of the review. Without candidates there is no review. -/
def verdictsOf (r : Reviewing) (review : Except String (List FactVerdict)) :
    Except LearningError (List FactVerdict) :=
  if r.candidates.isEmpty then .ok [] else review.mapError .interpreter

/-- What an ingest does with the review. -/
def finishIngest (host : Host) (projects : List String) (now : String) (r : Reviewing)
    (review : Except String (List FactVerdict)) (t : Tables) :
    Except LearningError (Receipt × Tables) := do
  let verdicts ← verdictsOf r review
  require (covers verdicts r.candidates.length)
    (.value "The source review did not cover each candidate exactly once. No facts were saved.")
  let (decisions, pending) ← judgeAll host projects now r verdicts 0 r.candidates []
  let receipt := receiptOf now r decisions pending
  let t ← commit r receipt pending t
  return (receipt, t)

/-! ## Histories -/

/-- The ingest that holds the lock. -/
inductive Stage where
  | extracting (reading : Reading)
  | reviewing (reviewing : Reviewing)
  deriving DecidableEq

structure State where
  tables : Tables := {}
  running : Option Stage := none
  deriving DecidableEq

/-- Calls of `learn` and `ingest`, with the connected projects and the time;
what the interpreter returns to the running ingest, or its failure; and any
other failure of that ingest. -/
inductive Event where
  | learn (projects : List String) (now projectId : String) (draft : LessonDraft) (actor : String)
  | ingest (projects : List String) (projectId : String) (document : DocumentInput) (actor : String)
  | extracted (projects : List String) (extraction : Except String (List DocumentFact))
  | reviewed (projects : List String) (now : String) (review : Except String (List FactVerdict))
  | failed (message : String)

inductive Reply where
  | nothing
  | learned (result : Except LearningError Lesson)
  | waiting
  | ingested (result : Except LearningError Receipt)

def step (host : Host) (s : State) : Event → Reply × State
  | .learn projects now projectId draft actor =>
    match learn host projects now projectId draft actor s.tables.lessons with
    | .error e => (.learned (.error e), s)
    | .ok (lesson, lessons) =>
      (.learned (.ok lesson), { s with tables := { s.tables with lessons := lessons } })
  | .ingest projects projectId document actor =>
    match startIngest host projects s.running.isSome projectId document actor s.tables with
    | .error e => (.ingested (.error e), s)
    | .ok (.inl receipt) => (.ingested (.ok receipt), s)
    | .ok (.inr reading) => (.waiting, { s with running := some (.extracting reading) })
  | .extracted projects extraction =>
    match s.running with
    | some (.extracting reading) =>
      match (extraction.mapError .interpreter).bind
          (takeCandidates host projects reading · s.tables) with
      | .error e => (.ingested (.error e), { s with running := none })
      | .ok reviewing => (.waiting, { s with running := some (.reviewing reviewing) })
    | _ => (.nothing, s)
  | .reviewed projects now review =>
    match s.running with
    | some (.reviewing r) =>
      match finishIngest host projects now r review s.tables with
      | .error e => (.ingested (.error e), { s with running := none })
      | .ok (receipt, tables) => (.ingested (.ok receipt), ⟨tables, none⟩)
    | _ => (.nothing, s)
  | .failed message =>
    match s.running with
    | some _ => (.ingested (.error (.interpreter message)), { s with running := none })
    | none => (.nothing, s)

inductive Reachable (host : Host) : State → Prop
  | empty : Reachable host {}
  | step {s : State} (h : Reachable host s) (event : Event) : Reachable host (step host s event).2

/-! ## What is checked -/

variable {host : Host} {s : State} {r : Reviewing} {projects : List String} {now : String}
  {verdicts : List FactVerdict} {t t' : Tables}

/-- A part that is found stands in the text from its place on. -/
theorem findText_spec {part : List Char} {text : List Char} {start i : Nat}
    (h : findText part text start = some i) : start ≤ i ∧ part <+: text.drop (i - start) := by
  induction text generalizing start with
  | nil =>
    simp only [findText] at h
    split at h
    · rename_i hpart
      cases h
      exact ⟨Nat.le_refl _, by simpa using List.isPrefixOf_iff_prefix.mp hpart⟩
    · cases h
  | cons c rest ih =>
    simp only [findText] at h
    split at h
    · rename_i hpart
      cases h
      exact ⟨Nat.le_refl _, by simpa using List.isPrefixOf_iff_prefix.mp hpart⟩
    · obtain ⟨hle, hprefix⟩ := ih h
      refine ⟨by omega, ?_⟩
      rw [show i - start = (i - (start + 1)) + 1 by omega, List.drop_succ_cons]
      exact hprefix

theorem slice_findText {text part : String} {i : Nat}
    (h : findText part.toList text.toList 0 = some i) :
    slice text i (i + part.toList.length) = part := by
  obtain ⟨-, rest, hrest⟩ := findText_spec h
  rw [slice, Nat.add_sub_cancel_left]
  rw [Nat.sub_zero] at hrest
  rw [← hrest, List.take_left, String.ofList_toList]

/-- The candidate that a lesson was saved from, its only verdict, and its
excerpt in the document. -/
structure SavedFrom (r : Reviewing) (verdicts : List FactVerdict) (lesson : Lesson) (index : Nat)
    (fact : DocumentFact) (verdict : FactVerdict) (support : DocumentSupport) : Prop where
  candidate : r.candidates[index]? = some fact
  single : verdicts.filter (·.candidate == index) = [verdict]
  supported : verdict.verdict = .supported
  project : lesson.projectId = r.projectId
  draft : lesson.draft = draftOf r.document fact
  supports : lesson.support = some support
  document : support.documentId = r.documentId
  quoted : slice r.document.text support.spanStart support.spanEnd = fact.excerpt

def Saved (r : Reviewing) (verdicts : List FactVerdict) (lesson : Lesson) : Prop :=
  ∃ index fact verdict support, SavedFrom r verdicts lesson index fact verdict support

/-- No pending lesson is a duplicate of another one or of an existing one. -/
structure Fresh (host : Host) (r : Reviewing) (pending : List Lesson) : Prop where
  distinct : pending.Pairwise fun a b => Lesson.key host a ≠ Lesson.key host b
  unknown : ∀ lesson ∈ pending, ∀ other ∈ r.existing, Lesson.key host other ≠ Lesson.key host lesson

theorem Fresh.append {pending : List Lesson} {lesson : Lesson} (h : Fresh host r pending)
    (hnew : ∀ other ∈ r.existing ++ pending, Lesson.key host other ≠ Lesson.key host lesson) :
    Fresh host r (pending ++ [lesson]) where
  distinct := by
    refine List.pairwise_append.mpr ⟨h.distinct, List.pairwise_singleton _ _, ?_⟩
    intro other hother new hnew'
    rw [List.mem_singleton] at hnew'
    subst hnew'
    exact hnew other (List.mem_append_right _ hother)
  unknown lesson' hlesson other hother := by
    rcases List.mem_append.mp hlesson with hpending | hlesson
    · exact h.unknown lesson' hpending other hother
    · rw [List.mem_singleton] at hlesson
      subst hlesson
      exact hnew other (List.mem_append_left _ hother)

/-- The lesson a decision reports as saved. -/
def Decision.savedId (decision : Decision) : Option String :=
  if decision.outcome = .saved then decision.lessonId else none

theorem supportedLesson_ok {fact : DocumentFact} {verdict : FactVerdict} {start : Nat}
    {lesson : Lesson} (h : supportedLesson host projects now r fact verdict start = .ok lesson) :
    lesson.projectId = r.projectId ∧ lesson.draft = draftOf r.document fact ∧
      ∃ support, lesson.support = some support ∧ support.documentId = r.documentId ∧
        support.spanStart = start ∧ support.spanEnd = start + fact.excerpt.toList.length := by
  obtain ⟨_, -, h⟩ := bind_ok h
  obtain ⟨prepared, hprepare, h⟩ := bind_ok h
  obtain rfl := prepare_ok hprepare
  cases h
  exact ⟨rfl, rfl, _, rfl, rfl, rfl, rfl⟩

/-- **One candidate.** It is saved only when it is supported, quoted and new,
and then the decision names the lesson. -/
theorem judge_ok {pending : List Lesson} {index : Nat} {fact : DocumentFact} {verdict : FactVerdict}
    {decision : Decision} {lesson : Option Lesson}
    (h : judge host projects now r pending index fact verdict = .ok (decision, lesson)) :
    decision.savedId = lesson.map (·.id) ∧ ∀ saved, lesson = some saved →
      verdict.verdict = .supported ∧ saved.projectId = r.projectId ∧
      saved.draft = draftOf r.document fact ∧
      (∃ support, saved.support = some support ∧ support.documentId = r.documentId ∧
        slice r.document.text support.spanStart support.spanEnd = fact.excerpt) ∧
      ∀ other ∈ r.existing ++ pending, Lesson.key host other ≠ Lesson.key host saved := by
  unfold judge at h
  split at h
  · cases h
    exact ⟨rfl, fun _ hsaved => by cases hsaved⟩
  · cases h
    exact ⟨rfl, fun _ hsaved => by cases hsaved⟩
  · rename_i start hfind _
    split at h
    · cases h
      exact ⟨rfl, fun _ hsaved => by cases hsaved⟩
    · split at h
      · rename_i hsupported
        split at h
        · cases h
          exact ⟨rfl, fun _ hsaved => by cases hsaved⟩
        · rename_i hnew
          obtain ⟨saved, hlesson, h⟩ := bind_ok h
          cases h
          refine ⟨rfl, ?_⟩
          rintro _ ⟨⟩
          obtain ⟨hproject, hdraft, support, hsupport, hdocument, hstart, hend⟩ :=
            supportedLesson_ok hlesson
          refine ⟨hsupported, hproject, hdraft, ⟨support, hsupport, hdocument, ?_⟩, ?_⟩
          · rw [hstart, hend]
            exact slice_findText hfind
          · intro other hother hkey
            have hne := List.find?_eq_none.mp hnew other hother
            rw [beq_iff_eq, hkey, Lesson.key, hdraft] at hne
            exact hne rfl
      · cases h
        exact ⟨rfl, fun _ hsaved => by cases hsaved⟩

/-- A verdict that is found is the only one of its candidate. -/
theorem single_of_nodup {index : Nat} {verdict : FactVerdict}
    (hn : (verdicts.map (·.candidate)).Nodup)
    (h : verdicts.find? (·.candidate == index) = some verdict) :
    verdicts.filter (·.candidate == index) = [verdict] := by
  have hmem := List.mem_of_find?_eq_some h
  have hindex : verdict.candidate = index := by simpa using List.find?_some h
  refine List.perm_singleton.mp ((List.perm_ext_iff_of_nodup (hn.of_map.filter _)
    (List.nodup_singleton _)).mpr fun other => ?_)
  rw [List.mem_filter, beq_iff_eq, List.mem_singleton]
  constructor
  · rintro ⟨hother, hsame⟩
    exact List.inj_on_of_nodup_map hn hother hmem (hsame.trans hindex.symm)
  · rintro rfl
    exact ⟨hmem, hindex⟩

/-- **All candidates.** What is pending in the end was saved from a candidate,
and the decisions name it in order. -/
theorem judgeAll_ok (hn : (verdicts.map (·.candidate)).Nodup) {facts : List DocumentFact}
    {index : Nat} {pending all : List Lesson} {decisions : List Decision}
    (hfacts : ∀ i, facts[i]? = r.candidates[index + i]?) (hfresh : Fresh host r pending)
    (h : judgeAll host projects now r verdicts index facts pending = .ok (decisions, all)) :
    ∃ new, all = pending ++ new ∧ new.map (·.id) = decisions.filterMap Decision.savedId ∧
      (∀ lesson ∈ new, Saved r verdicts lesson) ∧ Fresh host r all := by
  induction facts generalizing index pending decisions with
  | nil =>
    cases h
    exact ⟨[], (List.append_nil _).symm, rfl, fun _ h => (by cases h), hfresh⟩
  | cons fact rest ih =>
    rw [judgeAll] at h
    split at h
    · cases h
    · rename_i verdict hverdict
      obtain ⟨⟨decision, lesson⟩, hjudge, h⟩ := bind_ok h
      obtain ⟨⟨later, all'⟩, hrest, h⟩ := bind_ok h
      cases h
      obtain ⟨hid, hsaved⟩ := judge_ok hjudge
      have hcandidate : r.candidates[index]? = some fact := (hfacts 0).symm
      have hfacts' : ∀ i, rest[i]? = r.candidates[index + 1 + i]? := by
        intro i
        rw [show index + 1 + i = index + (i + 1) by omega]
        exact hfacts (i + 1)
      cases lesson with
      | none =>
        simp only [Option.toList_none, List.append_nil] at hrest
        obtain ⟨new, hall, hids, hnew, hfresh'⟩ := ih hfacts' hfresh hrest
        refine ⟨new, hall, ?_, hnew, hfresh'⟩
        rw [List.filterMap_cons, hid]
        exact hids
      | some lesson =>
        obtain ⟨hsupported, hproject, hdraft, ⟨support, hsupport, hdocument, hquoted⟩, hother⟩ :=
          hsaved lesson rfl
        obtain ⟨new, rfl, hids, hnew, hfresh'⟩ := ih hfacts' (hfresh.append hother) hrest
        refine ⟨lesson :: new, List.append_cons .. |>.symm, ?_, ?_, hfresh'⟩
        · rw [List.filterMap_cons, hid, List.map_cons, hids]
          rfl
        · intro other hmem
          rcases List.mem_cons.mp hmem with rfl | hmem
          · exact ⟨index, fact, verdict, support, hcandidate, single_of_nodup hn hverdict, hsupported,
              hproject, hdraft, hsupport, hdocument, hquoted⟩
          · exact hnew other hmem

theorem insertLessons_ok {lessons pending lessons' : List Lesson}
    (h : insertLessons lessons pending = .ok lessons') : lessons' = lessons ++ pending := by
  induction pending generalizing lessons with
  | nil =>
    cases h
    exact (List.append_nil _).symm
  | cons lesson rest ih =>
    obtain ⟨_, hinsert, h⟩ := bind_ok h
    rw [insertLesson_ok hinsert] at h
    rw [ih h, List.append_assoc]
    rfl

/-- What an ingest that returns a new receipt has stored. -/
structure Stored (host : Host) (r : Reviewing) (verdicts : List FactVerdict) (receipt : Receipt)
    (pending : List Lesson) (t t' : Tables) : Prop where
  lessons : t'.lessons = t.lessons ++ pending
  documents : t'.documents = t.documents ++ [⟨r.documentId, r.projectId, r.document, receipt⟩]
  collections : t'.collections = pending.foldl (addCollection r.projectId) t.collections
  reported : pending.map (·.id) = receipt.decisions.filterMap Decision.savedId
  savedCount : receipt.savedCount = pending.length
  saved : ∀ lesson ∈ pending, Saved r verdicts lesson
  fresh : Fresh host r pending
  lessonRoom : t.lessons.length + pending.length ≤ lessonLimit
  documentRoom : t.documents.length < documentLimit
  new : receipt.reused = false

/-- **The transaction.** An ingest that returns has stored its receipt and the
lessons that the receipt reports. -/
theorem finishIngest_ok {review : Except String (List FactVerdict)} {receipt : Receipt}
    (h : finishIngest host projects now r review t = .ok (receipt, t')) :
    ∃ verdicts pending, verdictsOf r review = .ok verdicts ∧
      Stored host r verdicts receipt pending t t' := by
  obtain ⟨verdicts, hreview, h⟩ := bind_ok h
  obtain ⟨_, hcovers, h⟩ := bind_ok h
  obtain ⟨⟨decisions, pending⟩, hjudge, h⟩ := bind_ok h
  obtain ⟨_, hcommit, h⟩ := bind_ok h
  cases h
  have hn : (verdicts.map (·.candidate)).Nodup := by
    have hcovers := require_ok hcovers
    rw [covers, Bool.and_assoc, Bool.and_eq_true] at hcovers
    exact of_decide_eq_true hcovers.1
  obtain ⟨_, rfl, hids, hsaved, hfresh⟩ := judgeAll_ok hn (fun i => by rw [Nat.zero_add])
    ⟨List.Pairwise.nil, fun _ h => (by cases h)⟩ hjudge
  obtain ⟨_, hdocuments, hcommit⟩ := bind_ok hcommit
  obtain ⟨_, hlessons, hcommit⟩ := bind_ok hcommit
  obtain ⟨_, hinsert, hcommit⟩ := bind_ok hcommit
  obtain ⟨_, -, hcommit⟩ := bind_ok hcommit
  cases hcommit
  refine ⟨verdicts, _, hreview, insertLessons_ok hinsert, rfl, rfl, hids, rfl, hsaved, hfresh, ?_, ?_,
    rfl⟩
  · simpa using require_ok hlessons
  · simpa using require_ok hdocuments

end RlmGraph.Knowledge.DocumentLearning
