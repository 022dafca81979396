import Mathlib.Data.List.TakeWhile
import RlmGraph.Lib.Unfolding
import RlmGraph.Memory.Pathways

/-! # Expanding a pathway

A token is expanded through its pathway and those it refers to, to a depth. The
tokens met are kept for the whole expansion, not for the path to a token, so a
token that two others refer to stops the expansion as a cycle does: the
expansion tells the two apart if and only if no token is met twice
(`expand_iff`). -/
namespace RlmGraph.Memory.PathwayExpansion
open RlmGraph.Lib.Search RlmGraph.Lib.Unfolding
open RlmGraph.Knowledge.Records RlmGraph.Memory.Pathways

/-! ## The expansion -/

structure Expansion where
  token : String
  pathwayId : Option String := none
  requestedDepth : Nat
  expandedTokens : List String := []
  claimIds : List String := []
  evidence : List Evidence := []
  sourceFiles : List SourceFile := []
  expansionTrace : List String := []
  tokenCost : Nat := 0
  complete : Bool := false
  reason : String

/-- What an expansion stops at. -/
inductive ExpansionStop where
  | cycle (token : String)
  | missing (token : String)
  | inactive (validityReason : String)

def ExpansionStop.reason : ExpansionStop → String
  | cycle token => "Cycle detected while expanding " ++ token ++ "."
  | missing token => "Nested token " ++ token ++ " was not found."
  | inactive validityReason => validityReason

/-- What the calls of `visit` share. -/
structure Visiting where
  expansion : Expansion
  visited : List String
  table : PathwayTable

abbrev Visited := Except ExpansionStop Unit × Visiting

/-- `_current_pathway`. -/
def currentPathway (table : PathwayTable) (token : String) : Option VirtualMemoryPathway :=
  table.rows.find? (·.token == token)

/-- One claim of a pathway, unless the expansion has it. -/
def addClaim (expansion : Expansion) (nodeId : String) : Expansion :=
  if nodeId ∈ expansion.claimIds then expansion
  else { expansion with
    claimIds := expansion.claimIds ++ [nodeId]
    expansionTrace := expansion.expansionTrace ++ ["CLAIM " ++ nodeId] }

/-- What an active pathway adds before those it refers to. -/
def enter (token : String) (pathway : VirtualMemoryPathway) (remaining : Nat)
    (expansion : Expansion) : Expansion :=
  let expansion := { expansion with
    pathwayId := match expansion.pathwayId with
      | some id => if id = "" then some pathway.id else some id
      | none => some pathway.id
    expandedTokens := expansion.expandedTokens ++ [token]
    expansionTrace := expansion.expansionTrace ++ ["TOKEN " ++ token] ++
      if 1 ≤ remaining then
        ["PATHWAY " ++ pathway.id ++ " v" ++ toString pathway.version]
      else [] }
  if 2 ≤ remaining then pathway.nodeIds.foldl addClaim expansion else expansion

/-- `item.line or '-'`. -/
def lineText : Option Int → String
  | none => "-"
  | some line => if line = 0 then "-" else toString line

/-- What an active pathway adds after those it refers to. -/
def leave (claims : List Claim) (remaining : Nat) (expansion : Expansion) : Expansion :=
  let known := expansion.claimIds.filterMap (getClaim claims)
  let expansion := if 3 ≤ remaining then
      let evidence := (known.flatMap (·.evidence)).eraseDups
      { expansion with
        evidence
        expansionTrace := expansion.expansionTrace ++ evidence.map fun item =>
          "EVIDENCE " ++ item.path ++ ":" ++ lineText item.line }
    else expansion
  if 4 ≤ remaining then
    let sourceFiles := pathwaySources known
    { expansion with
      sourceFiles
      expansionTrace := expansion.expansionTrace ++ sourceFiles.map fun item =>
        "SOURCE " ++ item.path ++ "@" ++ String.ofList (item.contentHash.toList.take 12) }
  else expansion

/-- The tokens a pathway refers to, until one fails. -/
def visitAll (below : String → Visiting → Visited) : List String → Visiting → Visited
  | [], s => (.ok (), s)
  | token :: tokens, s =>
    match below token s with
    | (.error stop, s) => (.error stop, s)
    | (.ok (), s) => visitAll below tokens s

/-- The end of a visit, once the tokens below are visited. -/
def leaveVisited (claims : List Claim) (remaining : Nat) : Visited → Visited
  | (.error stop, s) => (.error stop, s)
  | (.ok (), s) => (.ok (), { s with expansion := leave claims remaining s.expansion })

/-- The body of `visit`, with the call for the tokens below. -/
def visitToken (host : PathwayHost) (claims : List Claim) (remaining : Nat)
    (below : String → Visiting → Visited) (token : String) (s : Visiting) : Visited :=
  if token ∈ s.visited then (.error (.cycle token), s)
  else
    let s := { s with visited := s.visited ++ [token] }
    match currentPathway s.table token with
    | none => (.error (.missing token), s)
    | some stored =>
      let (pathway, table) := synchronizeValidity host claims stored s.table
      let s := { s with table }
      if pathway.lifecycle ≠ .active then (.error (.inactive pathway.validityReason), s)
      else
        let s := { s with expansion := enter token pathway remaining s.expansion }
        leaveVisited claims remaining
          (if 2 ≤ remaining then visitAll below pathway.childTokens s else (.ok (), s))

/-- `visit`. -/
def visit (host : PathwayHost) (claims : List Claim) : Nat → String → Visiting → Visited
  | 0 => visitToken host claims 0 fun _ s => (.ok (), s)
  | remaining + 1 => visitToken host claims (remaining + 1) (visit host claims remaining)

def startVisiting (store : PathwayStore) (token : String) (depth : Nat) : Visiting where
  expansion := {
    token
    requestedDepth := depth
    reason := "Virtual memory token was not found." }
  visited := []
  table := store.pathways

/-- What `visit` has made of an expansion. -/
def Visited.expansion (visited : Visited) : Expansion :=
  match visited.1 with
  | .ok () => visited.2.expansion
  | .error stop => { visited.2.expansion with reason := stop.reason }

/-- `expand`, with the count of the tokens of an expansion. -/
def expand (host : PathwayHost) (countExpansion : Expansion → Nat) (store : PathwayStore)
    (token : String) (depth maxTokens : Nat) : Expansion × PathwayTable :=
  let visited := visit host store.claims depth token (startVisiting store token depth)
  let expansion := { visited.expansion with tokenCost := countExpansion visited.expansion }
  let expansion :=
    if maxTokens < expansion.tokenCost then { expansion with
      complete := false
      reason := "Expansion cost " ++ toString expansion.tokenCost ++ " exceeds budget " ++
        toString maxTokens ++ "." }
    else match visited.1 with
    | .ok () => { expansion with
        complete := true
        reason := "Token expanded through pathway, claims, evidence, and source files." }
    | .error _ => expansion
  (expansion, visited.2.table)

/-! ## The graph of the references -/

section
variable {host : PathwayHost} {store : PathwayStore} {token : String} {depth remaining : Nat}

/-- `child_tokens` of a token's pathway. -/
def references (store : PathwayStore) (token : String) : List String :=
  match currentPathway store.pathways token with
  | none => []
  | some pathway => pathway.childTokens

/-- Why a token does not stand: its pathway is gone, or is not active once its
validity is synchronized. -/
def fault (host : PathwayHost) (store : PathwayStore) (token : String) : Option ExpansionStop :=
  match currentPathway store.pathways token with
  | none => some (.missing token)
  | some stored =>
    let pathway := (synchronizeValidity host store.claims stored store.pathways).1
    if pathway.lifecycle = .active then none else some (.inactive pathway.validityReason)

/-- Within the depth, a token is met again on its own reference path. -/
def Cyclic (store : PathwayStore) (token : String) (depth : Nat) : Prop :=
  ∃ other m n, Walk (references store) m token other ∧
    Walk (references store) (n + 1) other other ∧ m + (n + 1) ≤ depth - 1

/-- The tokens that are met within the depth, each before those it refers to. -/
def metTokens (store : PathwayStore) (token : String) (depth : Nat) : List String :=
  unfolding (references store) (depth - 1) token

/-- What the stop of a sweep is called. -/
def stopOf : Stop String ExpansionStop → ExpansionStop
  | .again token => .cycle token
  | .fault stop => stop

/-- A visit ends as a sweep does, and leaves the table as it is. -/
def Follows (store : PathwayStore) (result : Visited) :
    Except (Stop String ExpansionStop) (List String) → Prop
  | .ok met => result.1 = .ok () ∧ result.2.visited = met ∧ result.2.table = store.pathways
  | .error stop => result.1 = .error (stopOf stop)

/-- A pathway that is active once synchronized was left as it is. -/
theorem synchronizeValidity_active {claims : List Claim} {pathway : VirtualMemoryPathway}
    {table : PathwayTable}
    (h : (synchronizeValidity host claims pathway table).1.lifecycle = .active) :
    synchronizeValidity host claims pathway table = (pathway, table) := by
  unfold synchronizeValidity at h ⊢
  dsimp only at h ⊢
  split at h
  · cases h
  · next hfresh => rw [if_neg hfresh]

theorem follows_visitAll {below : String → Visiting → Visited} {n : Nat}
    (hbelow : ∀ token s, s.table = store.pathways → Follows store (below token s)
      (sweep (fault host store) s.visited (unfolding (references store) n token)))
    (tokens : List String) (s : Visiting) (hs : s.table = store.pathways) :
    Follows store (visitAll below tokens s) (sweep (fault host store) s.visited
      (tokens.flatMap (unfolding (references store) n))) := by
  induction tokens generalizing s with
  | nil => exact ⟨rfl, rfl, hs⟩
  | cons token tokens ih =>
    have hfirst := hbelow token s hs
    rw [List.flatMap_cons, sweep_append, visitAll]
    cases hresult : below token s with
    | mk result after =>
      rw [hresult] at hfirst
      cases hsweep : sweep (fault host store) s.visited (unfolding (references store) n token) with
      | error stop =>
        rw [hsweep] at hfirst
        obtain rfl : result = .error (stopOf stop) := hfirst
        exact rfl
      | ok met =>
        rw [hsweep] at hfirst
        obtain ⟨hok, hvisited, htable⟩ := hfirst
        obtain rfl : result = .ok () := hok
        change after.visited = met at hvisited
        subst hvisited
        exact ih after htable

theorem Follows.leave {claims : List Claim} {result : Visited}
    {swept : Except (Stop String ExpansionStop) (List String)} (h : Follows store result swept) :
    Follows store (leaveVisited claims remaining result) swept := by
  obtain ⟨result, s⟩ := result
  cases swept with
  | error stop =>
    obtain rfl : result = .error (stopOf stop) := h
    exact rfl
  | ok met =>
    obtain ⟨hok, hvisited, htable⟩ := h
    obtain rfl : result = .ok () := hok
    exact ⟨rfl, hvisited, htable⟩

/-- One token, when the tokens below are visited as they are swept. -/
theorem follows_visitToken {below : String → Visiting → Visited} {n : Nat} (remaining : Nat)
    (hbelow : 2 ≤ remaining → ∀ token s, s.table = store.pathways → Follows store (below token s)
      (sweep (fault host store) s.visited (unfolding (references store) n token)))
    (token : String) (s : Visiting) (hs : s.table = store.pathways) :
    Follows store (visitToken host store.claims remaining below token s)
      (sweep (fault host store) s.visited (token ::
        if 2 ≤ remaining then (references store token).flatMap (unfolding (references store) n)
        else [])) := by
  unfold visitToken
  by_cases hmet : token ∈ s.visited
  · rw [if_pos hmet, sweep_again hmet]
    exact rfl
  · rw [if_neg hmet]
    dsimp only
    rw [hs]
    cases hstored : currentPathway store.pathways token with
    | none =>
      have hfault : fault host store token = some (.missing token) := by rw [fault, hstored]
      rw [sweep_fault hmet hfault]
      exact rfl
    | some stored =>
      dsimp only
      by_cases hactive : (synchronizeValidity host store.claims stored store.pathways).1.lifecycle = .active
      · have hfault : fault host store token = none := by
          rw [fault, hstored]
          exact if_pos hactive
        have hrefs : references store token = stored.childTokens := by rw [references, hstored]
        rw [sweep_cons hmet hfault, synchronizeValidity_active hactive, hrefs]
        have hlifecycle : ¬stored.lifecycle ≠ .active := by
          rw [synchronizeValidity_active hactive] at hactive
          exact not_not_intro hactive
        dsimp only
        rw [if_neg hlifecycle]
        refine Follows.leave ?_
        by_cases hdeep : 2 ≤ remaining
        · rw [if_pos hdeep, if_pos hdeep]
          exact follows_visitAll (hbelow hdeep) _ _ rfl
        · rw [if_neg hdeep, if_neg hdeep]
          exact ⟨rfl, rfl, rfl⟩
      · have hfault : fault host store token = some (.inactive
            (synchronizeValidity host store.claims stored store.pathways).1.validityReason) := by
          rw [fault, hstored]
          exact if_neg hactive
        rw [if_pos hactive, sweep_fault hmet hfault]
        exact rfl

/-- **A visit sweeps the unfolding of the references.** -/
theorem follows_visit (depth : Nat) (token : String) (s : Visiting) (hs : s.table = store.pathways) :
    Follows store (visit host store.claims depth token s)
      (sweep (fault host store) s.visited (metTokens store token depth)) := by
  induction depth generalizing token s with
  | zero => exact follows_visitToken (n := 0) 0 (fun hdeep => absurd hdeep (by decide)) token s hs
  | succ depth ih =>
    have hbelow : 2 ≤ depth + 1 → ∀ token s, s.table = store.pathways →
        Follows store (visit host store.claims depth token s)
          (sweep (fault host store) s.visited (unfolding (references store) (depth - 1) token)) :=
      fun _ token s hs => ih token s hs
    have h := follows_visitToken (depth + 1) hbelow token s hs
    cases depth with
    | zero => exact h
    | succ depth => exact h

/-! ## What an expansion tells -/

/-- The expansion stops at a cycle. -/
def ReportsCycle (host : PathwayHost) (store : PathwayStore) (token : String) (depth : Nat) : Prop :=
  ∃ other, (visit host store.claims depth token (startVisiting store token depth)).1 =
    .error (.cycle other)

/-- An expansion that fits its budget completes when every token within the depth stands
and none recurs on its own path, and it reports a cycle only when one does. -/
structure Expands (host : PathwayHost) (countExpansion : Expansion → Nat) (store : PathwayStore)
    (token : String) (depth : Nat) : Prop where
  completes : (∀ other, Within (references store) [token] (depth - 1) other →
      fault host store other = none) → ¬Cyclic store token depth → ∀ maxTokens,
    (expand host countExpansion store token depth maxTokens).1.tokenCost ≤ maxTokens →
      (expand host countExpansion store token depth maxTokens).1.complete = true
  honest : ReportsCycle host store token depth → Cyclic store token depth

theorem fault_not_cycle (host : PathwayHost) (store : PathwayStore) (token other : String) :
    fault host store token ≠ some (.cycle other) := by
  unfold fault
  split
  · exact fun h => nomatch h
  · dsimp only
    split <;> exact fun h => nomatch h

/-- The tokens met before the first that does not stand. -/
def standing (host : PathwayHost) (store : PathwayStore) (token : String) (depth : Nat) : List String :=
  (metTokens store token depth).takeWhile fun other => (fault host store other).isNone

theorem reportsCycle_iff : ReportsCycle host store token depth ↔
    ¬(standing host store token depth).Nodup := by
  have hfollows : Follows store (visit host store.claims depth token (startVisiting store token depth))
      (sweep (fault host store) [] (metTokens store token depth)) :=
    follows_visit depth token (startVisiting store token depth) rfl
  have hagain : (∃ other, sweep (fault host store) [] (metTokens store token depth) =
      .error (.again other)) ↔ ¬(standing host store token depth).Nodup :=
    sweep_again_iff List.nodup_nil fun _ hmem => nomatch hmem
  rw [← hagain, ReportsCycle]
  cases hsweep : sweep (fault host store) [] (metTokens store token depth) with
  | ok met =>
    rw [hsweep] at hfollows
    rw [hfollows.1]
    exact iff_of_false (fun ⟨_, h⟩ => nomatch h) (fun ⟨_, h⟩ => nomatch h)
  | error stop =>
    rw [hsweep] at hfollows
    have hstop : (visit host store.claims depth token (startVisiting store token depth)).1 =
        .error (stopOf stop) := hfollows
    rw [hstop]
    cases stop with
    | again other => exact iff_of_true ⟨other, rfl⟩ ⟨other, rfl⟩
    | fault stop =>
      obtain ⟨other, -, hfault⟩ := exists_fault_of_sweep hsweep
      refine iff_of_false (fun ⟨again, h⟩ => ?_) (fun ⟨_, h⟩ => nomatch h)
      obtain rfl : stop = .cycle again := by
        injection h
      exact fault_not_cycle host store other again hfault

/-- A visit that ends makes the expansion complete, within the budget. -/
theorem complete_of_visited {countExpansion : Expansion → Nat} {maxTokens : Nat}
    (hvisit : (visit host store.claims depth token (startVisiting store token depth)).1 = .ok ())
    (hcost : (expand host countExpansion store token depth maxTokens).1.tokenCost ≤ maxTokens) :
    (expand host countExpansion store token depth maxTokens).1.complete = true := by
  unfold expand at hcost ⊢
  dsimp only at hcost ⊢
  rw [hvisit] at hcost ⊢
  split at hcost
  · next hexceeds => exact absurd hcost (Nat.not_le.mpr hexceeds)
  · next hfits => rw [if_neg hfits]

/-- **Expansion tells cycles and shared tokens apart if it meets no token twice.** -/
theorem expand_iff (host : PathwayHost) (countExpansion : Expansion → Nat) (store : PathwayStore)
    (token : String) (depth : Nat) : Expands host countExpansion store token depth ↔
      Cyclic store token depth ∨ (standing host store token depth).Nodup := by
  constructor
  · intro h
    by_contra hneither
    obtain ⟨hacyclic, hrepeats⟩ := not_or.mp hneither
    exact hacyclic (h.honest (reportsCycle_iff.mpr hrepeats))
  · rintro (hcyclic | hnodup)
    · exact ⟨fun _ hacyclic => absurd hcyclic hacyclic, fun _ => hcyclic⟩
    · refine ⟨fun hstands _ maxTokens hcost => ?_, fun hreports =>
        absurd hnodup (reportsCycle_iff.mp hreports)⟩
      have hall : ∀ other ∈ metTokens store token depth, fault host store other = none :=
        fun other hother => hstands other (mem_unfolding_iff.mp hother)
      have hwhole : standing host store token depth = metTokens store token depth :=
        List.takeWhile_eq_self_iff.mpr fun other hother => by rw [hall other hother]; rfl
      rw [hwhole] at hnodup
      have hfollows : Follows store
          (visit host store.claims depth token (startVisiting store token depth))
          (sweep (fault host store) [] (metTokens store token depth)) :=
        follows_visit depth token (startVisiting store token depth) rfl
      rw [sweep_ok List.nodup_nil hall hnodup] at hfollows
      exact complete_of_visited hfollows.1 hcost

end

/-! ## A token that two others refer to -/

def plainPathway (token : String) (childTokens : List String) : VirtualMemoryPathway where
  id := "PATHWAY " ++ token
  token := token
  version := 1
  signature := token
  projectRoot := "root"
  nodeIds := []
  childTokens := childTokens
  accessFrequency := 3
  averageTokensSaved := 380
  confidence := 1
  stability := 1
  validityReason := "Every pathway claim and source file is current."
  validFrom := "state"
  policyDecisionId := "DECISION"

/-- Two pathways below the first refer to the last. -/
def sharedStore : PathwayStore where
  pathways := {
    rows := [plainPathway "A" ["B", "C"], plainPathway "B" ["D"], plainPathway "C" ["D"],
      plainPathway "D" []]
    ids := by decide
    tokens := by decide }
  claims := []
  edges := []
  benchmarkRuns := []

/-- Every reference of the sample leads to a later token. -/
theorem references_sharedStore {u v : String} (h : v ∈ references sharedStore u) : u < v := by
  unfold references at h
  cases hpathway : currentPathway sharedStore.pathways u with
  | none =>
    rw [hpathway] at h
    cases h
  | some pathway =>
    rw [hpathway] at h
    have hlater : ∀ row ∈ sharedStore.pathways.rows, ∀ child ∈ row.childTokens, row.token < child := by
      decide
    have htoken : pathway.token = u := by
      simpa using List.find?_some hpathway
    rw [← htoken]
    exact hlater pathway (List.mem_of_find?_eq_some hpathway) v h

theorem not_cyclic_sharedStore (token : String) (depth : Nat) : ¬Cyclic sharedStore token depth := by
  have hlater : ∀ {n : Nat} {u w : String},
      Walk (references sharedStore) n u w → u = w ∨ u < w := fun hwalk => by
    induction hwalk with
    | nil => exact .inl rfl
    | snoc _ hlast ih =>
      have hstep := references_sharedStore hlast
      exact .inr (ih.elim (fun heq => heq ▸ hstep) fun hlt => lt_trans hlt hstep)
  intro ⟨other, m, n, _, hround, _⟩
  obtain ⟨next, hnext, hback⟩ := walk_succ_iff.mp hround
  have hstep := references_sharedStore hnext
  exact lt_irrefl other ((hlater hback).elim (fun heq => heq ▸ hstep) fun hlt => lt_trans hstep hlt)

/-- The last token is below two others, and the expansion reports a cycle. -/
theorem shared_token_stops : ¬∀ store token depth,
    Expands (plainHost "01234567") (fun _ => 0) store token depth := by
  intro h
  have hreports : ReportsCycle (plainHost "01234567") sharedStore "A" 4 :=
    reportsCycle_iff.mpr (by decide +kernel)
  exact not_cyclic_sharedStore "A" 4 ((h sharedStore "A" 4).honest hreports)

end RlmGraph.Memory.PathwayExpansion
