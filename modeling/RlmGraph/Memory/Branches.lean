import Mathlib.Algebra.Order.Field.Rat
import Mathlib.Data.Finset.Card
import Mathlib.Data.List.Sort
import RlmGraph.Lib.Interleavings
import RlmGraph.Lib.PyError
import RlmGraph.Lib.PyText

/-! # Concept branches

`ConceptBranchManager.consider` reads the branches of the session of an
interpretation, computes a branch, and writes it; calls of any sessions may come
between its read and its write. The table of branches is one for all sessions,
and so is its `UNIQUE` signature, while a call looks for its signature in its
own session only: a branch whose signature another session has is returned and
not stored. Apart from that sessions do not depend on each other
(`separate_iff`). -/
namespace RlmGraph.Memory.Branches

open RlmGraph.Lib RlmGraph.Lib.PyText RlmGraph.Lib.Interleavings

/-! ## Records -/

/-- What `consider` reads of a `MemoryRelationshipInterpretation`. -/
structure Interpretation where
  id : String
  sessionId : String
  sourceMemoryIds : List String
  sharedPattern : String
  differences : List String
  possibleAbstraction : String
  confidence : ℚ
  sources : 2 ≤ sourceMemoryIds.length
  confident : 0 ≤ confidence ∧ confidence ≤ 1

/-- `ConceptBranch`; its bounds are those of the pydantic model. Times are
microseconds. -/
structure ConceptBranch where
  id : String
  sessionId : String
  signature : String
  concept : String
  insight : String
  originInterpretationId : String
  supportingFactIds : List String
  parentBranchId : Option String
  depth : Nat
  status : String
  confidence : ℚ
  createdAt : Nat
  supported : 2 ≤ supportingFactIds.length
  bounded : 1 ≤ depth ∧ depth ≤ 4
  confident : 0 ≤ confidence ∧ confidence ≤ 1
  deriving DecidableEq

/-! ## The manager -/

/-- The case tables of the host and `sha256(text.encode()).hexdigest()`. -/
structure Host where
  tables : CaseTables
  hexdigest : String → String

structure ConceptBranchManager where
  host : Host
  maximumDepth : Int := 4

/-- A character that `[a-z0-9_]` matches when case is ignored: four letters
outside ASCII are among them. -/
def isWordChar (c : Char) : Bool :=
  c.isAlphanum || c == '_' || c.toNat ∈ [0x130, 0x131, 0x17f, 0x212a]

/-- `set(_WORDS.findall(text))`. -/
def wordSet (text : String) : Finset String :=
  (((text.toList.splitOnP fun c => !isWordChar c).filter (· ≠ [])).map String.ofList).toFinset

namespace ConceptBranchManager

variable (m : ConceptBranchManager)

def normalized (text : String) : String := squeeze (casefold m.host.tables text)

/-- The signature of an abstraction. -/
def signature (abstraction : String) : String :=
  "concept-branch-v1:" ++
    String.ofList ((m.host.hexdigest (m.normalized abstraction)).toList.take 20)

def overlap (terms branchTerms : Finset String) : ℚ :=
  ((terms ∩ branchTerms).card : ℚ) / (max (terms ∪ branchTerms).card 1 : Nat)

/-- The branches that may become the parent, each with its overlap. -/
def parents (terms : Finset String) (existing : List ConceptBranch) : List (ℚ × ConceptBranch) :=
  existing.filterMap fun branch =>
    let shared := overlap terms (wordSet (casefold m.host.tables branch.concept))
    if 0 < shared ∧ (branch.depth : Int) < m.maximumDepth then some (shared, branch) else none

/-- Whether the key of an item, its overlap and confidence, is above that of
another. -/
def above (item best : ℚ × ConceptBranch) : Bool :=
  decide (best.1 < item.1) ||
    (decide (best.1 = item.1) && decide (best.2.confidence < item.2.confidence))

/-- `max(parents, key=...)`: the first of the greatest. -/
def parentOf : List (ℚ × ConceptBranch) → Option ConceptBranch
  | [] => none
  | first :: rest => some (rest.foldl (fun best item => if above item best then item else best)
      first).2

def depthBelow : Option ConceptBranch → Nat
  | some parent => parent.depth + 1
  | none => 1

/-- The shared pattern, and the differences or that there are none. -/
def insight (interpretation : Interpretation) : String :=
  let differences := " ".intercalate interpretation.differences
  interpretation.sharedPattern ++ ". " ++
    if differences = "" then "No material difference was identified." else differences

/-- `consider` up to its write: what it makes of the branches it has read. The
depth of a branch is checked when the record is built. -/
def branchOf (interpretation : Interpretation) (id : String) (createdAt : Nat)
    (existing : List ConceptBranch) : Except PyError (Option ConceptBranch) :=
  let signature := m.signature interpretation.possibleAbstraction
  if existing.any (·.signature == signature) then .ok none
  else
    let terms := wordSet (m.normalized interpretation.possibleAbstraction)
    let parent := parentOf (m.parents terms existing)
    let depth := depthBelow parent
    if h : 1 ≤ depth ∧ depth ≤ 4 then
      .ok (some {
        id, sessionId := interpretation.sessionId, signature
        concept := interpretation.possibleAbstraction
        insight := insight interpretation
        originInterpretationId := interpretation.id
        supportingFactIds := interpretation.sourceMemoryIds
        parentBranchId := parent.map (·.id)
        depth, status := "EXPLORING"
        confidence := interpretation.confidence, createdAt
        supported := interpretation.sources, bounded := h
        confident := interpretation.confident })
    else .error (.value "depth")

end ConceptBranchManager

/-! ## The table -/

/-- `INSERT OR IGNORE`: a row whose id or signature the table has is dropped. -/
def insertOrIgnore (branch : ConceptBranch) (table : List ConceptBranch) : List ConceptBranch :=
  if table.any fun row => row.id == branch.id || row.signature == branch.signature then table
  else table ++ [branch]

/-- `ORDER BY depth, created_at, id`. -/
def ordered (a b : ConceptBranch) : Bool :=
  decide (a.depth < b.depth) || (decide (a.depth = b.depth) &&
    (decide (a.createdAt < b.createdAt) || (decide (a.createdAt = b.createdAt) &&
      decide (a.id ≤ b.id))))

/-- `concept_branches(session_id)`. -/
def branchesOf (session : String) (table : List ConceptBranch) : List ConceptBranch :=
  (table.filter (·.sessionId == session)).mergeSort ordered

/-! ## Interleaved calls -/

/-- The table, and for each session the branches its calls have computed and
not written yet, and those they have returned. -/
structure State where
  table : List ConceptBranch
  pending : String → List ConceptBranch
  returned : String → List ConceptBranch

def State.start : State := ⟨[], fun _ => [], fun _ => []⟩

/-- A call reads and computes, with the id and the time its branch gets; or the
`k`-th pending call of a session writes and returns. -/
inductive Event where
  | reads (interpretation : Interpretation) (id : String) (createdAt : Nat)
  | writes (session : String) (k : Nat)

def Event.session : Event → String
  | .reads interpretation _ _ => interpretation.sessionId
  | .writes session _ => session

def State.step (m : ConceptBranchManager) (s : State) : Event → State
  | .reads interpretation id createdAt =>
    let session := interpretation.sessionId
    match m.branchOf interpretation id createdAt (branchesOf session s.table) with
    | .ok (some branch) =>
      { s with pending := Function.update s.pending session (s.pending session ++ [branch]) }
    | _ => s
  | .writes session k =>
    match (s.pending session)[k]? with
    | none => s
    | some branch =>
      { table := insertOrIgnore branch s.table
        pending := Function.update s.pending session ((s.pending session).eraseIdx k)
        returned := Function.update s.returned session (s.returned session ++ [branch]) }

def after (m : ConceptBranchManager) (events : List Event) : State :=
  events.foldl (State.step m) State.start

/-! ## What sessions are promised -/

/-- Sessions do not depend on each other, and the branches of each form trees
of bounded depth. -/
structure Separate (m : ConceptBranchManager) (events : List Event) : Prop where
  readBack : ∀ session, ∀ b ∈ (after m events).returned session,
    b ∈ branchesOf session (after m events).table
  alone : ∀ session, let own := after m (events.filter (·.session == session))
    branchesOf session (after m events).table = branchesOf session own.table ∧
      (after m events).returned session = own.returned session
  distinct : ∀ session, ((branchesOf session (after m events).table).map (·.signature)).Nodup
  parent : ∀ session, ∀ b ∈ branchesOf session (after m events).table,
    ∀ p, b.parentBranchId = some p → ∃ q, List.Sublist [q, b] (after m events).table ∧
      q.id = p ∧ q.sessionId = session ∧ q.depth + 1 = b.depth
  depth : ∀ session, ∀ b ∈ branchesOf session (after m events).table,
    (b.depth : Int) ≤ m.maximumDepth

/-- A write finds its signature and its id in no row but the branch's own, and
the configured maximum leaves room for a branch. -/
def Clear (m : ConceptBranchManager) (s : State) : Event → Prop
  | .reads .. => True
  | .writes session k => ∀ branch ∈ (s.pending session)[k]?, 1 ≤ m.maximumDepth ∧
      ∀ row ∈ s.table, row.id = branch.id ∨ row.signature = branch.signature → row = branch

/-! ## One call -/

variable {m : ConceptBranchManager} {s : State} {table : List ConceptBranch}

@[simp] theorem mem_branchesOf {session : String} {b : ConceptBranch} :
    b ∈ branchesOf session table ↔ b ∈ table ∧ b.sessionId = session := by
  simp [branchesOf, List.mem_mergeSort]

theorem mem_of_parentOf {ps : List (ℚ × ConceptBranch)} {b : ConceptBranch}
    (h : ConceptBranchManager.parentOf ps = some b) : ∃ shared, (shared, b) ∈ ps := by
  cases ps with
  | nil => cases h
  | cons first rest =>
    have hmem : ∀ (rest : List (ℚ × ConceptBranch)) (best : ℚ × ConceptBranch),
        rest.foldl (fun best item => if ConceptBranchManager.above item best then item else best)
          best ∈ best :: rest := by
      intro rest
      induction rest with
      | nil => intro best; exact List.mem_cons_self
      | cons item rest ih =>
        intro best
        rw [List.foldl_cons]
        split
        · exact List.mem_cons_of_mem _ (ih item)
        · rcases List.mem_cons.mp (ih best) with hbest | hrest
          · exact List.mem_cons.mpr (Or.inl hbest)
          · exact List.mem_cons_of_mem _ (List.mem_cons_of_mem _ hrest)
    have hb := hmem rest first
    rw [← Option.some.inj h]
    exact ⟨_, hb⟩

/-- The place of a branch in the tree of its session: below a branch of the
table, one deeper, and within the maximum if that leaves room for any. -/
structure Placed (m : ConceptBranchManager) (table : List ConceptBranch) (b : ConceptBranch) :
    Prop where
  parent : ∀ p, b.parentBranchId = some p →
    ∃ q ∈ table, q.id = p ∧ q.sessionId = b.sessionId ∧ q.depth + 1 = b.depth
  depth : 1 ≤ m.maximumDepth → (b.depth : Int) ≤ m.maximumDepth

theorem parentOf_spec {terms : Finset String} {existing : List ConceptBranch} {q : ConceptBranch}
    (h : ConceptBranchManager.parentOf (m.parents terms existing) = some q) :
    q ∈ existing ∧ (q.depth : Int) < m.maximumDepth := by
  obtain ⟨shared, hmem⟩ := mem_of_parentOf h
  obtain ⟨q', hq', hsome⟩ := List.mem_filterMap.mp hmem
  obtain ⟨hroom, heq⟩ := Option.ite_none_right_eq_some.mp hsome
  obtain ⟨-, rfl⟩ := Prod.mk.inj (Option.some.inj heq)
  exact ⟨hq', hroom.2⟩

/-- A computed branch belongs to the session of its interpretation and is placed
among what has been read. -/
theorem branchOf_placed {i : Interpretation} {id : String} {createdAt : Nat} {b : ConceptBranch}
    (h : m.branchOf i id createdAt (branchesOf i.sessionId table) = .ok (some b)) :
    b.sessionId = i.sessionId ∧ Placed m table b := by
  unfold ConceptBranchManager.branchOf at h
  dsimp only at h
  split at h
  · cases h
  split at h
  next =>
    obtain rfl := Option.some.inj (Except.ok.inj h)
    refine ⟨rfl, fun p hp => ?_, fun hmax => ?_⟩
    · obtain ⟨q, hq, rfl⟩ := Option.map_eq_some_iff.mp hp
      obtain ⟨htable, hsession⟩ := mem_branchesOf.mp (parentOf_spec hq).1
      exact ⟨q, htable, rfl, hsession, by simp [hq, ConceptBranchManager.depthBelow]⟩
    · dsimp only
      cases hq : ConceptBranchManager.parentOf
          (m.parents (wordSet (m.normalized i.possibleAbstraction))
            (branchesOf i.sessionId table)) with
      | none => exact hmax
      | some q =>
        have hroom := (parentOf_spec hq).2
        simp only [ConceptBranchManager.depthBelow]
        omega
  next => cases h

theorem Placed.mono {more : List ConceptBranch} {b : ConceptBranch} (h : Placed m table b)
    (hsub : table ⊆ more) : Placed m more b where
  parent p hp := by
    obtain ⟨q, hq, hparent⟩ := h.parent p hp
    exact ⟨q, hsub hq, hparent⟩
  depth := h.depth

/-! ## One step -/

theorem insertOrIgnore_cases (b : ConceptBranch) (table : List ConceptBranch) :
    ((∃ row ∈ table, row.id = b.id ∨ row.signature = b.signature) ∧
        insertOrIgnore b table = table) ∨
      ((∀ row ∈ table, row.id ≠ b.id ∧ row.signature ≠ b.signature) ∧
        insertOrIgnore b table = table ++ [b]) := by
  unfold insertOrIgnore
  split
  next h =>
    obtain ⟨row, hrow, heq⟩ := List.any_eq_true.mp h
    exact Or.inl ⟨⟨row, hrow, by simpa using heq⟩, rfl⟩
  next h =>
    refine Or.inr ⟨fun row hrow => ?_, rfl⟩
    simp only [List.any_eq_true, not_exists, not_and] at h
    simpa using h row hrow

theorem subset_insertOrIgnore (b : ConceptBranch) (table : List ConceptBranch) :
    table ⊆ insertOrIgnore b table := by
  rcases insertOrIgnore_cases b table with ⟨-, heq⟩ | ⟨-, heq⟩ <;> simp [heq]

/-- What one event does: nothing, or a call computes a branch, or a pending
branch is written and returned. -/
theorem step_cases (m : ConceptBranchManager) (s : State) (e : Event) :
    State.step m s e = s ∨
      (∃ b, b.sessionId = e.session ∧ Placed m s.table b ∧ State.step m s e =
        { s with pending := Function.update s.pending e.session (s.pending e.session ++ [b]) }) ∨
      (∃ b k, e = .writes e.session k ∧ (s.pending e.session)[k]? = some b ∧ State.step m s e =
        { table := insertOrIgnore b s.table
          pending := Function.update s.pending e.session ((s.pending e.session).eraseIdx k)
          returned := Function.update s.returned e.session (s.returned e.session ++ [b]) }) := by
  cases e with
  | reads i id createdAt =>
    rcases hb : m.branchOf i id createdAt (branchesOf i.sessionId s.table) with error | _ | b
    · simp [State.step, hb]
    · simp [State.step, hb]
    · obtain ⟨hsession, hplaced⟩ := branchOf_placed hb
      refine Or.inr (Or.inl ⟨b, hsession, hplaced, ?_⟩)
      simp [State.step, hb, Event.session]
  | writes session k =>
    rcases hb : (s.pending session)[k]? with _ | b
    · simp [State.step, hb]
    · refine Or.inr (Or.inr ⟨b, k, rfl, hb, ?_⟩)
      simp [State.step, hb, Event.session]

/-- What holds of the table and of the calls under way, whatever the order of
the events. -/
structure Inv (m : ConceptBranchManager) (s : State) : Prop where
  ids : (s.table.map (·.id)).Nodup
  signatures : (s.table.map (·.signature)).Nodup
  parent : ∀ b ∈ s.table, ∀ p, b.parentBranchId = some p → ∃ q, List.Sublist [q, b] s.table ∧
    q.id = p ∧ q.sessionId = b.sessionId ∧ q.depth + 1 = b.depth
  depth : ∀ b ∈ s.table, 1 ≤ m.maximumDepth → (b.depth : Int) ≤ m.maximumDepth
  pending : ∀ session, ∀ b ∈ s.pending session, b.sessionId = session ∧ Placed m s.table b
  returned : ∀ session, ∀ b ∈ s.returned session, b.sessionId = session

theorem inv_start (m : ConceptBranchManager) : Inv m State.start := by
  constructor <;> simp [State.start]

/-- A stored branch finds its parent among the rows before it. -/
theorem Inv.insert {b : ConceptBranch} (h : Inv m s) (hb : Placed m s.table b) :
    Inv m { s with table := insertOrIgnore b s.table } := by
  rcases insertOrIgnore_cases b s.table with ⟨-, heq⟩ | ⟨hnew, heq⟩
  · rw [heq]
    exact h
  · rw [heq]
    refine ⟨?_, ?_, fun row hrow p hp => ?_, fun row hrow => ?_, fun session row hrow => ?_,
      h.returned⟩
    · rw [List.map_append, List.map_singleton, List.nodup_append]
      refine ⟨h.ids, List.nodup_singleton _, ?_⟩
      intro x hx y hy hxy
      obtain ⟨row, hrow, rfl⟩ := List.mem_map.mp hx
      exact (hnew row hrow).1 (hxy.trans (List.mem_singleton.mp hy))
    · rw [List.map_append, List.map_singleton, List.nodup_append]
      refine ⟨h.signatures, List.nodup_singleton _, ?_⟩
      intro x hx y hy hxy
      obtain ⟨row, hrow, rfl⟩ := List.mem_map.mp hx
      exact (hnew row hrow).2 (hxy.trans (List.mem_singleton.mp hy))
    · rcases List.mem_append.mp hrow with hrow | hrow
      · obtain ⟨q, hq, hrest⟩ := h.parent row hrow p hp
        exact ⟨q, hq.trans (List.sublist_append_left ..), hrest⟩
      · obtain rfl := List.mem_singleton.mp hrow
        obtain ⟨q, hq, hrest⟩ := hb.parent p hp
        exact ⟨q, (List.singleton_sublist.mpr hq).append (List.Sublist.refl [row]), hrest⟩
    · rcases List.mem_append.mp hrow with hrow | hrow
      · exact h.depth row hrow
      · obtain rfl := List.mem_singleton.mp hrow
        exact hb.depth
    · obtain ⟨hsession, hplaced⟩ := h.pending session row hrow
      exact ⟨hsession, hplaced.mono (List.subset_append_left ..)⟩

/-- What a session has after an update was in the update or was there before. -/
theorem mem_update {f : String → List ConceptBranch} {a session : String}
    {branches : List ConceptBranch} {b : ConceptBranch}
    (h : b ∈ Function.update f a branches session) :
    (session = a ∧ b ∈ branches) ∨ b ∈ f session := by
  by_cases hs : session = a
  · subst hs
    rw [Function.update_self] at h
    exact Or.inl ⟨rfl, h⟩
  · rw [Function.update_of_ne hs] at h
    exact Or.inr h

theorem Inv.step (h : Inv m s) (e : Event) : Inv m (State.step m s e) := by
  rcases step_cases m s e with heq | ⟨b, hsession, hplaced, heq⟩ | ⟨b, k, -, hb, heq⟩
  · rw [heq]
    exact h
  · rw [heq]
    refine { h with pending := fun session row hrow => ?_ }
    rcases mem_update hrow with ⟨rfl, hown⟩ | hrow
    · rcases List.mem_append.mp hown with hrow | hrow
      · exact h.pending _ row hrow
      · obtain rfl := List.mem_singleton.mp hrow
        exact ⟨hsession, hplaced⟩
    · exact h.pending session row hrow
  · rw [heq]
    obtain ⟨hsession, hplaced⟩ := h.pending _ b (List.mem_of_getElem? hb)
    refine { h.insert hplaced with pending := fun session row hrow => ?_, returned := ?_ }
    · refine (h.insert hplaced).pending session row ?_
      rcases mem_update hrow with ⟨rfl, hown⟩ | hrow
      · exact List.mem_of_mem_eraseIdx hown
      · exact hrow
    · intro session row hrow
      rcases mem_update hrow with ⟨rfl, hown⟩ | hrow
      · rcases List.mem_append.mp hown with hrow | hrow
        · exact h.returned _ row hrow
        · obtain rfl := List.mem_singleton.mp hrow
          exact hsession
      · exact h.returned session row hrow

theorem inv_after (m : ConceptBranchManager) (events : List Event) : Inv m (after m events) :=
  keeps events (fun _ e h => h.step e) (inv_start m)

theorem Inv.distinct (h : Inv m s) (session : String) :
    ((branchesOf session s.table).map (·.signature)).Nodup :=
  ((List.mergeSort_perm _ _).map _).nodup_iff.mpr
    (h.signatures.sublist (List.filter_sublist.map _))

/-! ## Clear writes -/

/-- Clear writes store what they return, and leave no branch too deep. -/
structure Stored (m : ConceptBranchManager) (s : State) : Prop extends Inv m s where
  readBack : ∀ session, ∀ b ∈ s.returned session, b ∈ s.table
  room : s.table ≠ [] → 1 ≤ m.maximumDepth

theorem Stored.step (h : Stored m s) {e : Event} (hclear : Clear m s e) :
    Stored m (State.step m s e) := by
  refine { h.toInv.step e with readBack := ?_, room := ?_ }
  all_goals
    rcases step_cases m s e with heq | ⟨b, -, -, heq⟩ | ⟨b, k, he, hb, heq⟩
  · rw [heq]
    exact h.readBack
  · rw [heq]
    exact h.readBack
  · rw [heq]
    rw [he] at hclear
    have hwritten : b ∈ insertOrIgnore b s.table := by
      rcases insertOrIgnore_cases b s.table with ⟨⟨row, hrow, hsame⟩, hins⟩ | ⟨-, hins⟩
      · rw [hins, ← (hclear b hb).2 row hrow hsame]
        exact hrow
      · simp [hins]
    intro session row hrow
    rcases mem_update hrow with ⟨rfl, hown⟩ | hrow
    · rcases List.mem_append.mp hown with hrow | hrow
      · exact subset_insertOrIgnore b s.table (h.readBack _ row hrow)
      · obtain rfl := List.mem_singleton.mp hrow
        exact hwritten
    · exact subset_insertOrIgnore b s.table (h.readBack session row hrow)
  · rw [heq]
    exact h.room
  · rw [heq]
    exact h.room
  · rw [he] at hclear
    exact fun _ => (hclear b hb).1

/-- What a session sees of the state. -/
def view (session : String) (s : State) : State where
  table := s.table.filter (·.sessionId == session)
  pending := Function.update (fun _ => []) session (s.pending session)
  returned := Function.update (fun _ => []) session (s.returned session)

@[simp] theorem view_table (session : String) (s : State) :
    branchesOf session (view session s).table = branchesOf session s.table := by
  simp [branchesOf, view]

@[simp] theorem view_pending (session : String) (s : State) :
    (view session s).pending session = s.pending session := by
  simp [view]

@[simp] theorem view_returned (session : String) (s : State) :
    (view session s).returned session = s.returned session := by
  simp [view]

/-- An event of another session adds rows of that session only. -/
theorem view_step_other {session : String} {e : Event} (h : Inv m s) (he : e.session ≠ session) :
    view session (State.step m s e) = view session s := by
  rcases step_cases m s e with heq | ⟨b, -, -, heq⟩ | ⟨b, k, -, hb, heq⟩
  · rw [heq]
  · rw [heq]
    simp [view, Function.update_of_ne (Ne.symm he)]
  · have hsession : b.sessionId ≠ session := by
      rw [(h.pending _ b (List.mem_of_getElem? hb)).1]
      exact he
    have htable : (insertOrIgnore b s.table).filter (·.sessionId == session) =
        s.table.filter (·.sessionId == session) := by
      rcases insertOrIgnore_cases b s.table with ⟨-, hins⟩ | ⟨-, hins⟩ <;> simp [hins, hsession]
    rw [heq]
    simp [view, Function.update_of_ne (Ne.symm he), htable]

/-- A clear write is stored, or ignored, alike where the other sessions' rows
are left out. -/
theorem filter_insertOrIgnore {b : ConceptBranch}
    (hsame : ∀ row ∈ s.table, row.id = b.id ∨ row.signature = b.signature → row = b) :
    (insertOrIgnore b s.table).filter (·.sessionId == b.sessionId) =
      insertOrIgnore b (s.table.filter (·.sessionId == b.sessionId)) := by
  rcases insertOrIgnore_cases b s.table with ⟨⟨row, hrow, heq⟩, hins⟩ | ⟨hnew, hins⟩
  · obtain rfl := hsame row hrow heq
    rcases insertOrIgnore_cases row (s.table.filter (·.sessionId == row.sessionId)) with
      ⟨-, hins'⟩ | ⟨hnew, -⟩
    · rw [hins, hins']
    · exact absurd rfl (hnew row (by simpa using hrow)).1
  · rcases insertOrIgnore_cases b (s.table.filter (·.sessionId == b.sessionId)) with
      ⟨⟨row, hrow, heq⟩, -⟩ | ⟨-, hins'⟩
    · obtain ⟨hid, hsignature⟩ := hnew row (List.mem_filter.mp hrow).1
      exact absurd heq (not_or.mpr ⟨hid, hsignature⟩)
    · simp [hins, hins']

/-- An own event does to what a session sees what it does to the whole. -/
theorem view_step_own {e : Event} (h : Inv m s) (hclear : Clear m s e) :
    view e.session (State.step m s e) = State.step m (view e.session s) e := by
  cases e with
  | reads i id createdAt =>
    simp only [State.step, Event.session, view_table, view_pending]
    rcases m.branchOf i id createdAt (branchesOf i.sessionId s.table) with error | _ | b
    · rfl
    · rfl
    · simp [view]
  | writes session k =>
    simp only [State.step, Event.session, view_pending, view_returned]
    rcases hb : (s.pending session)[k]? with _ | b
    · rfl
    · obtain rfl := (h.pending session b (List.mem_of_getElem? hb)).1
      simp [view, filter_insertOrIgnore (hclear b hb).2]

/-! ## Runs -/

theorem view_start (session : String) : view session State.start = State.start := by
  simp [view, State.start]

theorem stored_start (m : ConceptBranchManager) : Stored m State.start :=
  { inv_start m with readBack := by simp [State.start], room := by simp [State.start] }

/-- Nothing is taken from the table, nor from what calls have returned. -/
theorem grows (m : ConceptBranchManager) (s : State) (events : List Event) :
    s.table ⊆ (events.foldl (State.step m) s).table ∧
      ∀ session, s.returned session ⊆ (events.foldl (State.step m) s).returned session := by
  refine keeps events (I := fun s' : State => s.table ⊆ s'.table ∧
    ∀ session, s.returned session ⊆ s'.returned session) (fun s' e h => ?_)
    ⟨List.Subset.refl _, fun _ => List.Subset.refl _⟩
  rcases step_cases m s' e with heq | ⟨b, -, -, heq⟩ | ⟨b, k, -, -, heq⟩
  · rwa [heq]
  · rwa [heq]
  · rw [heq]
    refine ⟨List.Subset.trans h.1 (subset_insertOrIgnore b s'.table), fun session row hrow => ?_⟩
    have hrow := h.2 session hrow
    by_cases hs : session = e.session
    · subst hs
      simp [hrow]
    · simpa [Function.update_of_ne hs] using hrow

/-- **Sessions are separate exactly when writes are clear.** Every branch that
`consider` returns is stored for its session, as in a run of that session alone,
iff no write finds its signature or its id in another row, and the configured
maximum is at least one. -/
theorem separate_iff (m : ConceptBranchManager) (events : List Event) :
    Separate m events ↔ Along (Clear m) (State.step m) State.start events := by
  have hinv := inv_after m events
  constructor
  · intro h
    refine along_iff.mpr fun before e rest heq => ?_
    cases e with
    | reads => trivial
    | writes session k =>
      intro b hb
      have hafter : after m events =
          rest.foldl (State.step m) (State.step m (before.foldl (State.step m) State.start)
            (.writes session k)) := by
        rw [after, heq, List.foldl_append, List.foldl_cons]
      obtain ⟨htable, hreturned⟩ := grows m
        (State.step m (before.foldl (State.step m) State.start) (.writes session k)) rest
      rw [← hafter] at htable hreturned
      have hb' : b ∈ (after m events).returned session := by
        refine hreturned session ?_
        simp [State.step, Option.mem_def.mp hb]
      have hstored := h.readBack session b hb'
      have hmem := (mem_branchesOf.mp hstored).1
      refine ⟨?_, fun row hrow hsame => ?_⟩
      · have := h.depth session b hstored
        have := b.bounded.1
        omega
      · have hrow' : row ∈ (after m events).table := by
          refine htable ?_
          simp only [State.step, Option.mem_def.mp hb]
          exact subset_insertOrIgnore b _ hrow
        rcases hsame with hid | hsignature
        · exact List.inj_on_of_nodup_map hinv.ids hrow' hmem hid
        · exact List.inj_on_of_nodup_map hinv.signatures hrow' hmem hsignature
  · intro h
    have hstored : Stored m (after m events) :=
      h.keeps (fun _ _ hs hclear => hs.step hclear) (stored_start m)
    refine ⟨fun session b hb => ?_, fun session => ?_, fun session => ?_,
      fun session b hb p hp => ?_, fun session b hb => ?_⟩
    · exact mem_branchesOf.mpr ⟨hstored.readBack session b hb, hinv.returned session b hb⟩
    · have hview : view session (after m events) =
          after m (events.filter (·.session == session)) := by
        refine (h.alone (I := Inv m) (·.session == session) (view session)
          (fun _ e hs _ => hs.step e) (fun s e hs hclear he => ?_)
          (fun s e hs _ he => ?_) (inv_start m)).trans ?_
        · obtain rfl := beq_iff_eq.mp he
          exact view_step_own hs hclear
        · exact view_step_other hs (by simpa using he)
        · rw [view_start, after]
      refine ⟨?_, ?_⟩
      · rw [← hview, view_table]
      · rw [← hview, view_returned]
    · exact hinv.distinct session
    · obtain ⟨hmem, rfl⟩ := mem_branchesOf.mp hb
      exact hinv.parent b hmem p hp
    · have hmem := (mem_branchesOf.mp hb).1
      exact hinv.depth b hmem (hstored.room (List.ne_nil_of_mem hmem))

/-! ## An abstraction of two sessions -/

theorem branchesOf_eq_nil {session : String} (h : ∀ row ∈ table, row.sessionId ≠ session) :
    branchesOf session table = [] := by
  refine List.eq_nil_iff_forall_not_mem.mpr fun b hb => ?_
  obtain ⟨hmem, hsession⟩ := mem_branchesOf.mp hb
  exact h b hmem hsession

/-- The first branch of a session is a root. -/
theorem branchOf_nil (m : ConceptBranchManager) (i : Interpretation) (id : String)
    (createdAt : Nat) : ∃ b, m.branchOf i id createdAt [] = .ok (some b) ∧
      b.sessionId = i.sessionId ∧ b.signature = m.signature i.possibleAbstraction := by
  simp [ConceptBranchManager.branchOf, ConceptBranchManager.parents,
    ConceptBranchManager.parentOf, ConceptBranchManager.depthBelow]

/-- The second session to form an abstraction is returned a branch that is not
stored. -/
theorem not_separate_of_shared {i j : Interpretation} (hsession : i.sessionId ≠ j.sessionId)
    (hshared : m.signature i.possibleAbstraction = m.signature j.possibleAbstraction)
    (first second : String) (t u : Nat) :
    ¬ Separate m [.reads i first t, .writes i.sessionId 0, .reads j second u,
      .writes j.sessionId 0] := by
  intro h
  obtain ⟨b, hb, hbsession, hbsignature⟩ := branchOf_nil m i first t
  obtain ⟨b', hb', hbsession', hbsignature'⟩ := branchOf_nil m j second u
  have hnone : ∀ session, branchesOf session [] = [] := fun session =>
    branchesOf_eq_nil (by simp)
  have hother : branchesOf j.sessionId [b] = [] :=
    branchesOf_eq_nil (by simpa [hbsession] using hsession)
  have hback := h.readBack j.sessionId b' (by
    simp [after, State.step, State.start, insertOrIgnore, hnone, hb, hb', hother])
  have hmem := (mem_branchesOf.mp hback).1
  simp only [after, State.step, State.start, insertOrIgnore, hnone, hb, List.foldl_cons,
    List.foldl_nil] at hmem
  simp [hother, hb', hbsignature, hbsignature', hshared] at hmem
  exact hsession (by rw [← hbsession, ← hbsession', hmem])

/-- An interpretation of a session, of one abstraction. -/
def favouriteDrink (session : String) : Interpretation where
  id := "MRI-" ++ session
  sessionId := session
  sourceMemoryIds := ["FACT-1", "FACT-2"]
  sharedPattern := "favourite"
  differences := []
  possibleAbstraction := "a favourite drink"
  confidence := 1
  sources := by simp
  confident := ⟨by decide, by decide⟩

theorem abstraction_taken :
    ¬ ∀ (m : ConceptBranchManager) (events : List Event), Separate m events := by
  intro h
  have hab : (favouriteDrink "a").sessionId ≠ (favouriteDrink "b").sessionId := by decide
  exact not_separate_of_shared (m := { host := ⟨⟨id, id, id⟩, id⟩ }) hab rfl "B-1" "B-2" 1 2 (h _ _)

end RlmGraph.Memory.Branches
