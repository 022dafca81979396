import RlmGraph.Knowledge.DocumentLearning

/-! # Histories of document learning

In every history of `learn` and `ingest` calls whose lock is the one of the
process: while an ingest waits for its review, it knows every lesson that was
learned from a document of its project, since only lessons by hand are added
meanwhile. So what it finds new is new when it is stored. -/
namespace RlmGraph.Knowledge.LearningRuns
open RlmGraph.Lib.PyText RlmGraph.Lib.Results RlmGraph.Knowledge.Lessons
open RlmGraph.Knowledge.DocumentLearning

variable {host : Host} {s : State} {r : Reviewing} {projects : List String} {now : String}
  {verdicts : List FactVerdict} {t t' : Tables}

/-- Two lessons that documents of one project support differ up to case and white space. -/
def Apart (host : Host) (a b : Lesson) : Prop :=
  a.support.isSome = true → b.support.isSome = true → a.projectId = b.projectId →
    Lesson.key host a ≠ Lesson.key host b

/-- The document that supports a lesson is stored and has its excerpt where the lesson says. -/
def Quoted (documents : List DocumentRow) (lesson : Lesson) : Prop :=
  ∀ support, lesson.support = some support →
    ∃ row ∈ documents, row.id = support.documentId ∧ row.projectId = lesson.projectId ∧
      row.source.sourceRef = lesson.draft.sourceRef ∧
      slice row.source.text support.spanStart support.spanEnd = lesson.draft.sourceExcerpt

/-- The identifier of an ingest is the one of its document. -/
def Reading.Identified (host : Host) (reading : Reading) : Prop :=
  reading.documentId = documentId host reading.projectId (host.sha256 reading.document.text)
    reading.document.sourceRef

/-- A running ingest knows the lessons from documents of its project. -/
def Informed (host : Host) (t : Tables) : Option Stage → Prop
  | none => True
  | some (.extracting reading) => Reading.Identified host reading
  | some (.reviewing r) => Reading.Identified host r.toReading ∧
      ∀ lesson ∈ t.lessons, lesson.support.isSome = true → lesson.projectId = r.projectId →
        lesson ∈ r.existing

structure Invariant (host : Host) (s : State) : Prop where
  lessons : s.tables.lessons.length ≤ lessonLimit
  documents : s.tables.documents.length ≤ documentLimit
  ids : ∀ row ∈ s.tables.documents,
    row.id = documentId host row.projectId (host.sha256 row.source.text) row.source.sourceRef
  apart : s.tables.lessons.Pairwise (Apart host)
  quoted : ∀ lesson ∈ s.tables.lessons, Quoted s.tables.documents lesson
  informed : Informed host s.tables s.running

theorem invariant_empty (host : Host) : Invariant host {} where
  lessons := Nat.zero_le _
  documents := Nat.zero_le _
  ids _ h := by cases h
  apart := List.Pairwise.nil
  quoted _ h := by cases h
  informed := trivial

theorem Invariant.release (h : Invariant host s) : Invariant host { s with running := none } :=
  { h with informed := trivial }

/-- A lesson by hand is apart from every lesson, and a running ingest need not know it. -/
theorem Invariant.addLesson (h : Invariant host s) {lesson : Lesson}
    (hroom : s.tables.lessons.length < lessonLimit) (hhand : lesson.support = none) :
    Invariant host { s with tables := { s.tables with lessons := s.tables.lessons ++ [lesson] } } where
  lessons := by
    show (s.tables.lessons ++ [lesson]).length ≤ lessonLimit
    rw [List.length_append, List.length_singleton]
    exact hroom
  documents := h.documents
  ids := h.ids
  apart := by
    refine List.pairwise_append.mpr ⟨h.apart, List.pairwise_singleton _ _, ?_⟩
    intro other _ new hnew _ hsome
    rw [List.mem_singleton.mp hnew, hhand] at hsome
    cases hsome
  quoted other hother support hsupport := by
    rcases List.mem_append.mp hother with hother | hother
    · exact h.quoted other hother support hsupport
    · rw [List.mem_singleton.mp hother, hhand] at hsupport
      cases hsupport
  informed := by
    have hinformed := h.informed
    cases hrunning : s.running with
    | none => trivial
    | some stage =>
      rw [hrunning] at hinformed
      cases stage with
      | extracting reading => exact hinformed
      | reviewing r =>
        refine ⟨hinformed.1, fun other hother hsome hproject => ?_⟩
        rcases List.mem_append.mp hother with hother | hother
        · exact hinformed.2 other hother hsome hproject
        · rw [List.mem_singleton.mp hother, hhand] at hsome
          cases hsome

/-- An ingest starts with the receipt of its document, or goes on to read one
that is not stored. -/
theorem startIngest_ok {running : Bool} {projectId : String} {document : DocumentInput}
    {actor : String} {started : Receipt ⊕ Reading}
    (h : startIngest host projects running projectId document actor t = .ok started) :
    (∃ receipt, started = .inl receipt ∧ receipt.reused = true) ∨
      ∃ reading, started = .inr reading ∧ Reading.Identified host reading ∧
        ∀ row ∈ t.documents,
          row.id ≠ documentId host projectId (host.sha256 document.text) document.sourceRef := by
  obtain ⟨_, -, h⟩ := bind_ok h
  obtain ⟨_, -, h⟩ := bind_ok h
  obtain ⟨_, -, h⟩ := bind_ok h
  dsimp only at h
  split at h
  · cases h
    exact Or.inl ⟨_, rfl, rfl⟩
  · rename_i hnone
    obtain ⟨_, -, h⟩ := bind_ok h
    cases h
    refine Or.inr ⟨_, rfl, rfl, fun row hrow hid => ?_⟩
    have hne := List.find?_eq_none.mp hnone row hrow
    rw [hid, beq_self_eq_true] at hne
    exact hne rfl

theorem takeCandidates_ok {reading : Reading} {candidates : List DocumentFact}
    (h : takeCandidates host projects reading candidates t = .ok r) :
    r.toReading = reading ∧ r.candidates = candidates ∧
      r.existing = lessonsOf t.lessons reading.projectId := by
  obtain ⟨_, -, h⟩ := bind_ok h
  cases h
  exact ⟨rfl, rfl, rfl⟩

/-- **The transaction keeps the invariant.** -/
theorem Invariant.commit (h : Invariant host s) (hrunning : s.running = some (.reviewing r))
    {receipt : Receipt} {pending : List Lesson}
    (hs : Stored host r verdicts receipt pending s.tables t) : Invariant host ⟨t, none⟩ := by
  obtain ⟨hid, hknown⟩ : Reading.Identified host r.toReading ∧ ∀ lesson ∈ s.tables.lessons,
      lesson.support.isSome = true → lesson.projectId = r.projectId → lesson ∈ r.existing := by
    have hinformed := h.informed
    rw [hrunning] at hinformed
    exact hinformed
  constructor
  · show t.lessons.length ≤ lessonLimit
    rw [hs.lessons, List.length_append]
    exact hs.lessonRoom
  · show t.documents.length ≤ documentLimit
    rw [hs.documents, List.length_append, List.length_singleton]
    exact hs.documentRoom
  · intro row hrow
    have hrow : row ∈ t.documents := hrow
    rw [hs.documents] at hrow
    rcases List.mem_append.mp hrow with hrow | hrow
    · exact h.ids row hrow
    · rw [List.mem_singleton.mp hrow]
      exact hid
  · show t.lessons.Pairwise (Apart host)
    rw [hs.lessons]
    refine List.pairwise_append.mpr ⟨h.apart, hs.fresh.distinct.imp fun hne _ _ _ => hne, ?_⟩
    intro old hold new hnew hsome _ hproject
    obtain ⟨index, fact, verdict, support, hfrom⟩ := hs.saved new hnew
    exact hs.fresh.unknown new hnew old (hknown old hold hsome (hproject.trans hfrom.project))
  · intro lesson hlesson support hsupport
    have hlesson : lesson ∈ t.lessons := hlesson
    show ∃ row ∈ t.documents, _
    rw [hs.lessons] at hlesson
    rw [hs.documents]
    rcases List.mem_append.mp hlesson with hold | hnew
    · obtain ⟨row, hrow, hfacts⟩ := h.quoted lesson hold support hsupport
      exact ⟨row, List.mem_append_left _ hrow, hfacts⟩
    · obtain ⟨index, fact, verdict, support', hfrom⟩ := hs.saved lesson hnew
      obtain rfl : support' = support := Option.some.inj (hfrom.supports.symm.trans hsupport)
      refine ⟨_, List.mem_append_right _ (List.mem_singleton_self _), hfrom.document.symm,
        hfrom.project.symm, ?_, ?_⟩
      · rw [hfrom.draft]
        rfl
      · rw [hfrom.draft]
        exact hfrom.quoted
  · trivial

/-- **Each step keeps the invariant.** -/
theorem Invariant.step (h : Invariant host s) (event : Event) :
    Invariant host (step host s event).2 := by
  cases event with
  | learn projects now projectId draft actor =>
    simp only [DocumentLearning.step]
    split
    · exact h
    · rename_i lesson lessons hlearn
      rcases learn_ok hlearn with rfl | ⟨rfl, hroom, hhand⟩
      · exact h
      · exact h.addLesson hroom hhand
  | ingest projects projectId document actor =>
    simp only [DocumentLearning.step]
    split
    · exact h
    · exact h
    · rename_i reading hstart
      rcases startIngest_ok hstart with ⟨_, hold, -⟩ | ⟨_, hnew, hid, -⟩
      · cases hold
      · cases hnew
        exact { h with informed := hid }
  | extracted projects extraction =>
    simp only [DocumentLearning.step]
    split
    · rename_i reading hrunning
      split
      · exact h.release
      · rename_i r htake
        have hid : Reading.Identified host reading := by
          have hinformed := h.informed
          rw [hrunning] at hinformed
          exact hinformed
        obtain ⟨candidates, -, htake⟩ := bind_ok htake
        obtain ⟨hreading, -, hexisting⟩ := takeCandidates_ok htake
        refine { h with informed := ⟨by rw [hreading]; exact hid, ?_⟩ }
        intro lesson hlesson _ hproject
        rw [hexisting, mem_lessonsOf]
        exact ⟨hlesson, by rw [hproject, hreading]⟩
    · exact h
  | reviewed projects now review =>
    simp only [DocumentLearning.step]
    split
    · rename_i r hrunning
      split
      · exact h.release
      · rename_i receipt tables hfinish
        obtain ⟨verdicts, pending, -, hstored⟩ := finishIngest_ok hfinish
        exact h.commit hrunning hstored
    · exact h
  | failed message =>
    simp only [DocumentLearning.step]
    split
    · exact h.release
    · exact h

theorem Reachable.invariant (h : Reachable host s) : Invariant host s := by
  induction h with
  | empty => exact invariant_empty host
  | step _ event ih => exact ih.step event

/-! ## Replies -/

/-- A reply that an ingest gives without storing anything. -/
def Reply.idle : Reply → Prop
  | .waiting => True
  | .ingested (.error _) => True
  | .ingested (.ok receipt) => receipt.reused = true
  | _ => False

/-- An ingest that raises, waits or returns an old receipt has changed no table. -/
theorem step_idle {event : Event} (h : Reply.idle (step host s event).1) :
    (step host s event).2.tables = s.tables := by
  cases event with
  | learn projects now projectId draft actor =>
    simp only [DocumentLearning.step] at h ⊢
    split at h <;> exact h.elim
  | ingest projects projectId document actor =>
    simp only [DocumentLearning.step]
    split <;> rfl
  | extracted projects extraction =>
    simp only [DocumentLearning.step]
    split
    · split <;> rfl
    · rfl
  | reviewed projects now review =>
    simp only [DocumentLearning.step] at h ⊢
    split
    · rename_i r hrunning
      simp only [hrunning] at h
      split
      · rfl
      · rename_i receipt tables hfinish
        simp only [hfinish] at h
        obtain ⟨verdicts, pending, -, hstored⟩ := finishIngest_ok hfinish
        have hold : receipt.reused = true := h
        rw [hstored.new] at hold
        cases hold
    · rfl
  | failed message =>
    simp only [DocumentLearning.step]
    split <;> rfl

/-- What waits for its review are the candidates that were returned. -/
theorem step_extracted {extraction : Except String (List DocumentFact)}
    (h : (step host s (.extracted projects extraction)).1 = .waiting) :
    ∃ reading r, s.running = some (.extracting reading) ∧ r.toReading = reading ∧
      extraction = .ok r.candidates ∧
      (step host s (.extracted projects extraction)).2.running = some (.reviewing r) := by
  simp only [DocumentLearning.step] at h ⊢
  split at h
  · rename_i reading hrunning
    split at h
    · cases h
    · rename_i r htake
      simp only
      obtain ⟨candidates, hextraction, htake⟩ := bind_ok htake
      obtain ⟨hreading, hcandidates, -⟩ := takeCandidates_ok htake
      cases extraction with
      | error e => cases hextraction
      | ok facts =>
        cases hextraction
        exact ⟨reading, r, hrunning, hreading, by rw [hcandidates], rfl⟩
  · cases h

/-- A new receipt comes from the transaction of the running ingest, on the
verdicts of the review that was returned to it. -/
theorem step_stored {event : Event} {receipt : Receipt}
    (h : (step host s event).1 = .ingested (.ok receipt)) (hnew : receipt.reused = false) :
    ∃ projects now review r verdicts pending, event = .reviewed projects now review ∧
      s.running = some (.reviewing r) ∧ verdictsOf r review = .ok verdicts ∧
      Stored host r verdicts receipt pending s.tables (step host s event).2.tables := by
  cases event with
  | learn projects now projectId draft actor =>
    simp only [DocumentLearning.step] at h
    split at h <;> cases h
  | ingest projects projectId document actor =>
    simp only [DocumentLearning.step] at h
    split at h
    · cases h
    · rename_i old hstart
      cases h
      rcases startIngest_ok hstart with ⟨_, hold, hreused⟩ | ⟨_, hread, -⟩
      · cases hold
        rw [hreused] at hnew
        cases hnew
      · cases hread
    · cases h
  | extracted projects extraction =>
    simp only [DocumentLearning.step] at h
    split at h
    · split at h <;> cases h
    · cases h
  | reviewed projects now review =>
    simp only [DocumentLearning.step] at h ⊢
    split at h
    · rename_i r hrunning
      split at h
      · cases h
      · rename_i receipt' tables hfinish
        cases h
        obtain ⟨verdicts, pending, hreview, hstored⟩ := finishIngest_ok hfinish
        exact ⟨projects, now, review, r, verdicts, pending, rfl, hrunning, hreview, hstored⟩
    · cases h
  | failed message =>
    simp only [DocumentLearning.step] at h
    split at h <;> cases h

/-- **A document that was learned is not learned again**, whatever its title and
whoever supplies it. -/
theorem step_repeated (h : Invariant host s) {row : DocumentRow} (hrow : row ∈ s.tables.documents)
    (projects : List String) (document : DocumentInput) (actor : String)
    (htext : document.text = row.source.text) (href : document.sourceRef = row.source.sourceRef) :
    (step host s (.ingest projects row.projectId document actor)).2 = s := by
  simp only [DocumentLearning.step]
  split
  · rfl
  · rfl
  · rename_i reading hstart
    rcases startIngest_ok hstart with ⟨_, hold, -⟩ | ⟨_, -, -, hfree⟩
    · cases hold
    · have hne := hfree row hrow
      rw [htext, href] at hne
      exact absurd (h.ids row hrow) hne

/-- **Document learning is atomic and bound to its source.** -/
theorem document_learning_atomic (h : Reachable host s) :
    (∀ event, Reply.idle (step host s event).1 → (step host s event).2.tables = s.tables) ∧
    (∀ projects extraction, (step host s (.extracted projects extraction)).1 = .waiting →
      ∃ reading r, s.running = some (.extracting reading) ∧ r.toReading = reading ∧
        extraction = .ok r.candidates ∧
        (step host s (.extracted projects extraction)).2.running = some (.reviewing r)) ∧
    (∀ event receipt, (step host s event).1 = .ingested (.ok receipt) → receipt.reused = false →
      ∃ projects now review r verdicts pending, event = .reviewed projects now review ∧
        s.running = some (.reviewing r) ∧ verdictsOf r review = .ok verdicts ∧
        Stored host r verdicts receipt pending s.tables (step host s event).2.tables) ∧
    (∀ lesson ∈ s.tables.lessons, Quoted s.tables.documents lesson) ∧
    s.tables.lessons.Pairwise (Apart host) ∧
    (∀ row ∈ s.tables.documents, ∀ projects document actor, document.text = row.source.text →
      document.sourceRef = row.source.sourceRef →
      (step host s (.ingest projects row.projectId document actor)).2 = s) ∧
    s.tables.lessons.length ≤ lessonLimit ∧ s.tables.documents.length ≤ documentLimit := by
  have hinv := Reachable.invariant h
  refine ⟨fun event => step_idle, fun projects extraction => step_extracted,
    fun event receipt => step_stored, hinv.quoted, hinv.apart, ?_, hinv.lessons, hinv.documents⟩
  exact fun row hrow projects document actor htext href =>
    step_repeated hinv hrow projects document actor htext href

/-! ## A sample document -/

def plainHost : Host := ⟨id, ⟨id, id, id⟩⟩

def manual : DocumentInput :=
  ⟨"Luma manual", "fixture:luma-v1", "In Luma: Tiles need a gap."⟩

def gapFact : DocumentFact :=
  ⟨"Luma tiles", "Tiles need a gap.", "Tiles need a gap.", "Laying out tiles", "Only Luma", "Luma layout"⟩

/-- The manual is learned, and the one candidate is supported. -/
def learned : State :=
  [.ingest ["P"] "P" manual "owner", .extracted ["P"] (.ok [gapFact]),
    .reviewed ["P"] "now" (.ok [⟨0, .supported, "The source states this rule.", []⟩])].foldl
      (fun s event => (step plainHost s event).2) {}

theorem learned_reachable : Reachable plainHost learned :=
  .step (.step (.step .empty _) _) _

/-- The manual under another title is not learned again. -/
theorem document_learning_atomic_manual : ∃ row ∈ learned.tables.documents,
    row.receipt.savedCount = 1 ∧ (step plainHost learned
      (.ingest ["P"] row.projectId { manual with title := "Luma" } "guest")).2 = learned := by
  have hmanual : learned.tables.documents.any (fun row => decide (row.receipt.savedCount = 1) &&
      decide (row.source = manual)) = true := by
    decide +kernel
  obtain ⟨row, hrow, hfacts⟩ := List.any_eq_true.mp hmanual
  obtain ⟨hcount, hsource⟩ : row.receipt.savedCount = 1 ∧ row.source = manual := by
    simpa using hfacts
  have hatomic := document_learning_atomic learned_reachable
  exact ⟨row, hrow, hcount, hatomic.2.2.2.2.2.1 row hrow ["P"] { manual with title := "Luma" } "guest"
    (by rw [hsource]) (by rw [hsource])⟩

end RlmGraph.Knowledge.LearningRuns
