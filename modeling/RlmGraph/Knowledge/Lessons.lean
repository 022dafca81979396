import RlmGraph.Lib.JsonText
import RlmGraph.Lib.PyText
import RlmGraph.Lib.Results

/-! # The lesson library

Lessons of connected projects, in one table of at most 500 rows. A lesson that
was learned from a document carries where the document supports it. The hash
and the case tables of the host are parameters. -/
namespace RlmGraph.Knowledge.Lessons
open RlmGraph.Lib.JsonText RlmGraph.Lib.PyText RlmGraph.Lib.Results

/-- The hash of a text, in hexadecimal, and case conversion. -/
structure Host where
  sha256 : String → String
  tables : CaseTables

inductive LearningError where
  | value (message : String)
  | integrity (column : String)
  | interpreter (message : String)
  deriving DecidableEq

def require (ok : Bool) (e : LearningError) : Except LearningError Unit :=
  if ok then .ok () else .error e

theorem require_ok {ok : Bool} {e : LearningError} {u : Unit} (h : require ok e = .ok u) :
    ok = true := by
  cases ok with
  | true => rfl
  | false => cases h

/-- The first `n` characters of a text. -/
def takeText (n : Nat) (text : String) : String := String.ofList (text.toList.take n)

/-! ## Terms -/

def stopWords : List String :=
  ["a", "an", "and", "are", "as", "be", "because", "does", "for", "from", "how", "in", "is", "it",
    "of", "on", "or", "the", "this", "to", "what", "when", "where", "which", "why", "with"]

def aliases : List (String × String) :=
  [("failed", "fail"), ("failing", "fail"), ("fails", "fail"), ("failure", "fail"),
    ("percentages", "percent"), ("percentage", "percent"), ("percent", "percent")]

def isWordChar (c : Char) : Bool :=
  ('a' ≤ c && c ≤ 'z') || ('A' ≤ c && c ≤ 'Z') || ('0' ≤ c && c ≤ '9') || c == '_'

/-- The matches of `[A-Za-z_][A-Za-z0-9_]*`: runs of word characters from their
first character that is no digit. -/
def tokens (text : String) : List String :=
  (((text.toList.splitOnP (!isWordChar ·)).map (·.dropWhile Char.isDigit)).filter (· ≠ [])).map
    String.ofList

def stem (token : String) : String :=
  let n := token.toList.length
  if endsWith token "ing" && 6 < n then takeText (n - 3) token
  else if endsWith token "ed" && 5 < n then takeText (n - 2) token
  else if endsWith token "s" && 4 < n && !token.toList.contains '_' then takeText (n - 1) token
  else token

def terms (host : Host) (text : String) : List String :=
  (((tokens (lower host.tables text)).filter fun raw =>
    !stopWords.contains raw && 2 ≤ raw.toList.length).map fun raw =>
      stem ((aliases.lookup raw).getD raw)).dedup

/-! ## Lessons -/

inductive SourceKind where
  | publication | gptExplanation | experience
  deriving DecidableEq

def SourceKind.value : SourceKind → String
  | publication => "PUBLICATION"
  | gptExplanation => "GPT_EXPLANATION"
  | experience => "EXPERIENCE"

structure LessonDraft where
  topic : String
  statement : String
  sourceKind : SourceKind
  sourceRef : String
  sourceExcerpt : String
  appliesWhen : String
  limitations : String
  deriving DecidableEq

def LessonDraft.dump (draft : LessonDraft) : List (String × String) :=
  [("topic", draft.topic), ("statement", draft.statement), ("source_kind", draft.sourceKind.value),
    ("source_ref", draft.sourceRef), ("source_excerpt", draft.sourceExcerpt),
    ("applies_when", draft.appliesWhen), ("limitations", draft.limitations)]

/-- What a lesson from a document has beside its draft. -/
structure DocumentSupport where
  documentId : String
  collectionId : String
  collectionName : String
  spanStart : Nat
  spanEnd : Nat
  sourceReview : String
  deriving DecidableEq

structure Lesson where
  id : String
  projectId : String
  draft : LessonDraft
  recordedBy : String
  recordedAt : String
  status : String := "UNTESTED"
  support : Option DocumentSupport := none
  deriving DecidableEq

def checkProject (projects : List String) (projectId : String) : Except LearningError Unit :=
  require (projects.contains projectId) (.value "Select a connected project for this lesson.")

def lessonId (host : Host) (projectId : String) (draft : LessonDraft) : String :=
  "LESSON-" ++ takeText 24 (host.sha256 (dumps ⟨true, true⟩
    (.arr [.str projectId, .obj (draft.dump.map fun field => (field.1, .str field.2))])))

def prepare (host : Host) (projects : List String) (now : String) (projectId : String)
    (draft : LessonDraft) (actor : String) : Except LearningError Lesson := do
  checkProject projects projectId
  require (!draft.dump.any (isBlankText ·.2))
    (.value "Lesson fields must contain meaningful text.")
  return { id := lessonId host projectId draft, projectId := projectId, draft := draft,
           recordedBy := actor, recordedAt := now }

def lessonLimit : Nat := 500

/-- `INSERT INTO lessons`: no other row has the identifier. -/
def insertLesson (lessons : List Lesson) (lesson : Lesson) : Except LearningError (List Lesson) := do
  require (lessons.all (·.id != lesson.id)) (.integrity "lessons.id")
  return lessons ++ [lesson]

/-- The lessons of a project, the latest first. -/
def lessonsOf (lessons : List Lesson) (projectId : String) : List Lesson :=
  (lessons.filter (·.projectId == projectId)).reverse

def learn (host : Host) (projects : List String) (now : String) (projectId : String)
    (draft : LessonDraft) (actor : String) (lessons : List Lesson) :
    Except LearningError (Lesson × List Lesson) := do
  let lesson ← prepare host projects now projectId draft actor
  match lessons.find? (·.id == lesson.id) with
  | some prior => return (prior, lessons)
  | none =>
    require (!(lessonLimit ≤ lessons.length))
      (.value "The 500-lesson storage limit is reached. No lesson was discarded.")
    let lessons ← insertLesson lessons lesson
    return (lesson, lessons)

theorem mem_lessonsOf {lessons : List Lesson} {projectId : String} {lesson : Lesson} :
    lesson ∈ lessonsOf lessons projectId ↔ lesson ∈ lessons ∧ lesson.projectId = projectId := by
  simp [lessonsOf]

theorem insertLesson_ok {lessons lessons' : List Lesson} {lesson : Lesson}
    (h : insertLesson lessons lesson = .ok lessons') : lessons' = lessons ++ [lesson] := by
  obtain ⟨_, -, h⟩ := bind_ok h
  cases h
  rfl

section
variable {host : Host} {projects : List String} {now projectId actor : String} {draft : LessonDraft}
  {lesson : Lesson}

/-- A prepared lesson is its draft, not yet tested and without a document. -/
theorem prepare_ok (h : prepare host projects now projectId draft actor = .ok lesson) :
    lesson = { id := lessonId host projectId draft, projectId := projectId, draft := draft,
               recordedBy := actor, recordedAt := now } := by
  obtain ⟨_, -, h⟩ := bind_ok h
  obtain ⟨_, -, h⟩ := bind_ok h
  cases h
  rfl

/-- **Learning** adds at most one lesson, within the limit. -/
theorem learn_ok {lessons lessons' : List Lesson}
    (h : learn host projects now projectId draft actor lessons = .ok (lesson, lessons')) :
    lessons' = lessons ∨
      lessons' = lessons ++ [lesson] ∧ lessons.length < lessonLimit ∧ lesson.support = none := by
  obtain ⟨prepared, hprepare, h⟩ := bind_ok h
  obtain rfl := prepare_ok hprepare
  split at h
  · cases h
    exact Or.inl rfl
  · obtain ⟨_, hroom, h⟩ := bind_ok h
    obtain ⟨_, hinsert, h⟩ := bind_ok h
    cases h
    exact Or.inr ⟨insertLesson_ok hinsert, by simpa using require_ok hroom, rfl⟩

end

end RlmGraph.Knowledge.Lessons
