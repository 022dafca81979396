import RlmGraph.Scheduler.Work

/-! # The two claim paths

`claim_next` takes the first admissible candidate; `try_claim` takes one item,
and only when it is the first admissible candidate. The checks are written out
once for each path, in different orders. Here they are shown to agree, candidate
by candidate (`aheadRefusal_eq`, `targetRefusal_eq_none`), and with them the two
loops: either both start the target and save the same items, or neither starts
it (`Agree`). -/
namespace RlmGraph.Scheduler.ClaimPaths
open RlmGraph.Lib RlmGraph.Lib.Programs RlmGraph.Scheduler.Work

/-! ## The candidates -/

theorem mem_candidates {items : List ScheduledWorkItem} {item : ScheduledWorkItem} :
    item ∈ candidates items ↔ item ∈ items ∧ item.status.waiting = true := by
  simp [candidates, List.mem_mergeSort]

theorem nodup_candidates {items : List ScheduledWorkItem} (h : (items.map (·.id)).Nodup) :
    ((candidates items).map (·.id)).Nodup :=
  ((List.mergeSort_perm _ _).map _).nodup_iff.mpr (h.sublist (List.filter_sublist.map _))

/-! ## The checks -/

section
variable {host : SchedulerHost} {limits : SchedulerLimits} {sur : Surroundings}
  {active : List ScheduledWorkItem} {item target : ScheduledWorkItem}

/-- The units left over, as `claim_next` counts them. -/
def availableUnits (limits : SchedulerLimits) (active : List ScheduledWorkItem) : Int :=
  limits.capacityUnits - unitsOf active

theorem availableUnits_lt {units : Nat} :
    availableUnits limits active < units ↔ limits.capacityUnits < units + unitsOf active := by
  unfold availableUnits
  omega

/-- The checks of a candidate ahead of a target are those of `claim_next`. -/
theorem aheadRefusal_eq : aheadRefusal host limits sur active item =
    claimNextRefusal host limits sur active (availableUnits limits active) item := by
  unfold aheadRefusal claimNextRefusal
  simp only [availableUnits_lt]

/-- **A target passes its checks** when the global limit leaves room and
`claim_next` would pass it. -/
theorem targetRefusal_eq_none : targetRefusal host limits sur active item = .ok none ↔
    active.length < limits.globalConcurrency ∧
      claimNextRefusal host limits sur active (availableUnits limits active) item = .ok none := by
  unfold targetRefusal claimNextRefusal
  simp only [availableUnits_lt]
  by_cases hglobal : limits.globalConcurrency ≤ active.length
  · rw [if_pos hglobal]
    simp [Nat.not_lt.mpr hglobal]
  · rw [if_neg hglobal]
    cases currentBudgetReasons host sur item with
    | error e =>
      simp only [bind, Except.bind]
      split_ifs <;> simp
    | ok reasons =>
      simp only [bind, Except.bind, pure, Except.pure]
      split_ifs <;> simp_all

/-! ## The loops -/

@[simp] theorem start_id (now : Int) : (start now item).id = item.id := rfl

/-- A decision to start an item. -/
def Starts (decision : Decision) (itemId : String) : Prop :=
  ∃ item, decision.result = .ok (some item) ∧ item.id = itemId

/-- Both decisions start the item and are the same, or neither starts it. -/
def Agree (tried next : Decision) (itemId : String) : Prop :=
  (Starts tried itemId ∧ tried = next) ∨ (¬Starts tried itemId ∧ ¬Starts next itemId)

/-- What a decision puts in front changes nothing about the agreement. -/
theorem Agree.prepend {tried next : Decision} {itemId : String} (h : Agree tried next itemId)
    (saves : List ScheduledWorkItem) :
    Agree ⟨saves ++ tried.saves, tried.result⟩ ⟨saves ++ next.saves, next.result⟩ itemId := by
  rcases h with ⟨hstarts, rfl⟩ | hneither
  · exact Or.inl ⟨hstarts, rfl⟩
  · exact Or.inr hneither

/-- `claim_next` starts one of its candidates. -/
theorem exists_of_starts_admitFirst {units : Int} {cs : List ScheduledWorkItem} {itemId : String}
    (h : Starts (admitFirst host limits sur active units cs) itemId) : ∃ c ∈ cs, c.id = itemId := by
  induction cs with
  | nil =>
    obtain ⟨item, hresult, -⟩ := h
    cases hresult
  | cons c cs ih =>
    unfold admitFirst at h
    split at h
    · obtain ⟨item, hresult, -⟩ := h
      cases hresult
    · obtain ⟨d, hd, hid⟩ := ih h
      exact ⟨d, List.mem_cons_of_mem c hd, hid⟩
    · obtain ⟨item, hresult, hid⟩ := h
      cases hresult
      exact ⟨c, List.mem_cons_self, hid⟩

/-- At the target itself: it is started by both paths or by neither. -/
theorem agree_at_target {cs : List ScheduledWorkItem}
    (hglobal : active.length < limits.globalConcurrency)
    (hids : ((target :: cs).map (·.id)).Nodup) :
    Agree (admitTarget host limits sur active target)
      (admitFirst host limits sur active (availableUnits limits active) (target :: cs))
      target.id := by
  unfold admitTarget admitFirst
  cases hnext : claimNextRefusal host limits sur active (availableUnits limits active) target with
  | ok refusal =>
    cases refusal with
    | none =>
      rw [targetRefusal_eq_none.mpr ⟨hglobal, hnext⟩]
      exact Or.inl ⟨⟨_, rfl, rfl⟩, rfl⟩
    | some refusal =>
      refine Or.inr ⟨?_, ?_⟩
      · rintro ⟨item, hresult, -⟩
        split at hresult
        · cases hresult
        · cases hresult
        · have hnone := (targetRefusal_eq_none.mp ‹_›).2
          rw [hnext] at hnone
          cases hnone
      · -- the target is refused, and no later candidate has its identifier
        rintro hstarts
        obtain ⟨c, hc, hid⟩ := exists_of_starts_admitFirst
          (h := (hstarts : Starts (admitFirst host limits sur active _ cs) target.id))
        rw [List.map_cons, List.nodup_cons] at hids
        exact hids.1 (List.mem_map.mpr ⟨c, hc, hid⟩)
  | error e =>
    refine Or.inr ⟨?_, ?_⟩
    · rintro ⟨item, hresult, -⟩
      split at hresult
      · cases hresult
      · cases hresult
      · have hnone := (targetRefusal_eq_none.mp ‹_›).2
        rw [hnext] at hnone
        cases hnone
    · rintro ⟨item, hresult, -⟩
      cases hresult

/-- **The loops agree** on a target among the candidates, below the global limit. -/
theorem agree_loops {cs : List ScheduledWorkItem}
    (hglobal : active.length < limits.globalConcurrency) (htarget : target ∈ cs)
    (hids : (cs.map (·.id)).Nodup) :
    Agree (admitRanked host limits sur active target cs)
      (admitFirst host limits sur active (availableUnits limits active) cs) target.id := by
  induction cs with
  | nil => cases htarget
  | cons c cs ih =>
    by_cases hid : c.id = target.id
    · obtain rfl : c = target := List.inj_on_of_nodup_map hids List.mem_cons_self htarget hid
      unfold admitRanked
      rw [if_pos rfl]
      exact agree_at_target hglobal hids
    · have hrest : target ∈ cs := by
        cases htarget with
        | head => exact (hid rfl).elim
        | tail _ h => exact h
      have hagree := ih hrest (List.nodup_cons.mp hids).2
      unfold admitRanked admitFirst
      rw [if_neg hid, aheadRefusal_eq]
      cases claimNextRefusal host limits sur active (availableUnits limits active) c with
      | error e =>
        refine Or.inr ⟨?_, ?_⟩ <;>
        · rintro ⟨item, hresult, -⟩
          cases hresult
      | ok refusal =>
        cases refusal with
        | some refusal => exact hagree.prepend _
        | none =>
          refine Or.inr ⟨?_, ?_⟩
          · rintro ⟨item, hresult, -⟩
            cases hresult
          · rintro ⟨item, hresult, hitem⟩
            cases hresult
            exact hid hitem

/-- At the global limit `try_claim` starts nothing. -/
theorem not_starts_admitRanked {cs : List ScheduledWorkItem} {itemId : String}
    (hglobal : limits.globalConcurrency ≤ active.length) :
    ¬Starts (admitRanked host limits sur active target cs) itemId := by
  have htarget : ¬Starts (admitTarget host limits sur active target) itemId := by
    unfold admitTarget targetRefusal
    rw [if_pos hglobal]
    rintro ⟨item, hresult, -⟩
    cases hresult
  induction cs with
  | nil => exact htarget
  | cons c cs ih =>
    unfold admitRanked
    split
    · exact htarget
    · split
      · rintro ⟨item, hresult, -⟩
        cases hresult
      · exact ih
      · rintro ⟨item, hresult, -⟩
        cases hresult

section
variable {items : List ScheduledWorkItem} {itemId : String}

theorem not_starts_of_full (hglobal : limits.globalConcurrency ≤ (activeItems items).length) :
    ¬Starts (claimNextDecision host limits sur items) itemId := by
  unfold claimNextDecision
  rw [if_pos hglobal]
  rintro ⟨item, hresult, -⟩
  cases hresult

theorem claimNextDecision_of_room
    (hglobal : (activeItems items).length < limits.globalConcurrency) :
    claimNextDecision host limits sur items = admitFirst host limits sur (activeItems items)
      (availableUnits limits (activeItems items)) (candidates items) :=
  if_neg (Nat.not_le.mpr hglobal)

/-- `claim_next` starts a waiting item. -/
theorem exists_of_starts_claimNext (h : Starts (claimNextDecision host limits sur items) itemId) :
    ∃ c ∈ candidates items, c.id = itemId := by
  by_cases hglobal : (activeItems items).length < limits.globalConcurrency
  · rw [claimNextDecision_of_room hglobal] at h
    exact exists_of_starts_admitFirst h
  · exact (not_starts_of_full (Nat.not_lt.mp hglobal) h).elim

end

/-- **The bodies agree** on every item that is not running. -/
theorem agree_decisions {items : List ScheduledWorkItem} {itemId : String}
    (hids : (items.map (·.id)).Nodup)
    (hidle : ∀ item ∈ items, item.id = itemId → item.status ≠ .running) :
    Agree (tryClaimDecision host limits sur itemId items) (claimNextDecision host limits sur items)
      itemId := by
  unfold tryClaimDecision
  cases hfound : items.find? (·.id == itemId) with
  | none =>
    refine Or.inr ⟨?_, fun hstarts => ?_⟩
    · rintro ⟨item, hresult, -⟩
      cases hresult
    · obtain ⟨c, hc, hid⟩ := exists_of_starts_claimNext hstarts
      exact List.find?_eq_none.mp hfound c (mem_candidates.mp hc).1 (by simpa using hid)
  | some target =>
    have hmem : target ∈ items := List.mem_of_find?_eq_some hfound
    obtain rfl : target.id = itemId := by simpa using List.find?_some hfound
    simp only [if_neg (hidle target hmem rfl)]
    by_cases hwaiting : target.status.waiting = true
    · rw [if_neg (by simp [hwaiting])]
      by_cases hglobal : (activeItems items).length < limits.globalConcurrency
      · rw [claimNextDecision_of_room hglobal]
        exact agree_loops hglobal (mem_candidates.mpr ⟨hmem, hwaiting⟩) (nodup_candidates hids)
      · exact Or.inr ⟨not_starts_admitRanked (Nat.not_lt.mp hglobal),
          not_starts_of_full (Nat.not_lt.mp hglobal)⟩
    · rw [if_pos (by simpa using hwaiting)]
      refine Or.inr ⟨?_, fun hstarts => ?_⟩
      · rintro ⟨item, hresult, -⟩
        cases hresult
      · obtain ⟨c, hc, hid⟩ := exists_of_starts_claimNext hstarts
        obtain ⟨hc, hstatus⟩ := mem_candidates.mp hc
        rw [List.inj_on_of_nodup_map hids hc hmem hid] at hstatus
        exact hwaiting hstatus

end

/-! ## The calls -/

section
variable {host : SchedulerHost} {limits : SchedulerLimits} {sur : Surroundings}
  {work : ScheduledWorkTable} {itemId : String}

theorem run_forM_save (items : List ScheduledWorkItem) (result : Except PyError α) :
    ((items.forM saveScheduledWork >>= fun _ => Act.ofExcept result : SchedulerAct α).run perform ()
      work) = (result, work.saveAll items) := by
  induction items generalizing work with
  | nil => rfl
  | cons item items ih => exact ih

theorem run_claimNext : (claimNext host limits sur).run perform () work =
    ((claimNextDecision host limits sur work.items).result,
      work.saveAll (claimNextDecision host limits sur work.items).saves) :=
  run_forM_save _ _

theorem run_tryClaim : (tryClaim host limits sur itemId).run perform () work =
    ((tryClaimDecision host limits sur itemId work.items).result,
      work.saveAll (tryClaimDecision host limits sur itemId work.items).saves) :=
  run_forM_save _ _

/-- A call that has returned the item, now running and stored so. -/
def StartsItem (outcome : Except PyError (Option ScheduledWorkItem) × ScheduledWorkTable)
    (itemId : String) : Prop :=
  ∃ item, outcome.1 = .ok (some item) ∧ item.id = itemId ∧ item.status = .running ∧
    outcome.2.lookup itemId = some item

theorem lookup_saveAll_last (kept : List ScheduledWorkItem) (item : ScheduledWorkItem) :
    (work.saveAll (kept ++ [item])).lookup item.id = some item := by
  rw [ScheduledWorkTable.saveAll_append]
  exact ScheduledWorkTable.lookup_save_self

/-- A decision whose started item, if any, is running and saved last. -/
def SavesStarted (decision : Decision) : Prop :=
  ∀ item, decision.result = .ok (some item) →
    item.status = .running ∧ ∃ kept, decision.saves = kept ++ [item]

theorem SavesStarted.prepend {decision : Decision} (h : SavesStarted decision)
    (saves : List ScheduledWorkItem) : SavesStarted ⟨saves ++ decision.saves, decision.result⟩ := by
  intro item hresult
  obtain ⟨hstatus, kept, hsaves⟩ := h item hresult
  exact ⟨hstatus, saves ++ kept, by simp [hsaves]⟩

theorem savesStarted_start (item : ScheduledWorkItem) :
    SavesStarted ⟨[start sur.now item], .ok (some (start sur.now item))⟩ := by
  rintro started hresult
  cases hresult
  exact ⟨rfl, [], rfl⟩

theorem savesStarted_of_not_some {saves : List ScheduledWorkItem}
    {result : Except PyError (Option ScheduledWorkItem)} (h : ∀ item, result ≠ .ok (some item)) :
    SavesStarted ⟨saves, result⟩ :=
  fun item hresult => (h item hresult).elim

theorem savesStarted_admitFirst {active cs : List ScheduledWorkItem} {units : Int} :
    SavesStarted (admitFirst host limits sur active units cs) := by
  induction cs with
  | nil => exact savesStarted_of_not_some (by simp)
  | cons c cs ih =>
    unfold admitFirst
    split
    · exact savesStarted_of_not_some (by simp)
    · exact ih.prepend _
    · exact savesStarted_start c

theorem savesStarted_claimNext (host : SchedulerHost) (limits : SchedulerLimits) (sur : Surroundings)
    (items : List ScheduledWorkItem) :
    SavesStarted (claimNextDecision host limits sur items) := by
  by_cases hglobal : (activeItems items).length < limits.globalConcurrency
  · rw [claimNextDecision_of_room hglobal]
    exact savesStarted_admitFirst
  · intro item hresult
    exact (not_starts_of_full (Nat.not_lt.mp hglobal) ⟨item, hresult, rfl⟩).elim

/-- What a decision to start amounts to in the table. -/
theorem SavesStarted.startsItem_iff {decision : Decision} (h : SavesStarted decision) :
    StartsItem (decision.result, work.saveAll decision.saves) itemId ↔ Starts decision itemId := by
  constructor
  · rintro ⟨item, hresult, hid, -⟩
    exact ⟨item, hresult, hid⟩
  · rintro ⟨item, hresult, rfl⟩
    obtain ⟨hstatus, kept, hsaves⟩ := h item hresult
    refine ⟨item, hresult, rfl, hstatus, ?_⟩
    rw [hsaves]
    exact lookup_saveAll_last kept item

/-- **The two claim paths agree.** For an item that is not running, `try_claim`
starts it exactly when `claim_next`, on the same table and in the same
surroundings, would start that item; then both end the same way and leave the
same table. -/
theorem claim_paths_agree (host : SchedulerHost) (limits : SchedulerLimits) (sur : Surroundings)
    (work : ScheduledWorkTable) (itemId : String)
    (hidle : ∀ item, work.lookup itemId = some item → item.status ≠ .running) :
    (StartsItem ((tryClaim host limits sur itemId).run perform () work) itemId ↔
      StartsItem ((claimNext host limits sur).run perform () work) itemId) ∧
    (StartsItem ((tryClaim host limits sur itemId).run perform () work) itemId →
      (tryClaim host limits sur itemId).run perform () work =
        (claimNext host limits sur).run perform () work) := by
  have hagree : Agree (tryClaimDecision host limits sur itemId work.items)
      (claimNextDecision host limits sur work.items) itemId :=
    agree_decisions work.unique fun item hmem hid =>
      hidle item (ScheduledWorkTable.lookup_eq_some.mpr ⟨hmem, hid⟩)
  have hnext := savesStarted_claimNext host limits sur work.items
  rw [run_tryClaim, run_claimNext]
  rcases hagree with ⟨-, heq⟩ | ⟨htried, hnot⟩
  · rw [heq]
    exact ⟨Iff.rfl, fun _ => rfl⟩
  · have hstarts : ¬StartsItem ((tryClaimDecision host limits sur itemId work.items).result,
        work.saveAll (tryClaimDecision host limits sur itemId work.items).saves) itemId := by
      rintro ⟨item, hresult, hid, -⟩
      exact htried ⟨item, hresult, hid⟩
    refine ⟨⟨fun h => (hstarts h).elim, fun h => ?_⟩, fun h => (hstarts h).elim⟩
    exact (hnot (hnext.startsItem_iff.mp h)).elim

end

/-- Work of another ticket, which runs. -/
def running : ScheduledWorkItem :=
  { plainItem with id := "r", ticketId := "u", projectId := "q", status := .running }

def urgent : ScheduledWorkItem :=
  { plainItem with id := "wide", priority := "URGENT", capacityUnits := 2, schedulingScore := 400 }

/-- A queue by score: its first item is too large for the capacity left. -/
def queue : ScheduledWorkTable where
  items := [running, urgent, plainItem, { plainItem with id := "late", enqueuedAt := 1 }]
  unique := by decide

theorem candidates_queue : candidates queue.items = queue.items.tail :=
  List.mergeSort_of_pairwise (by decide +kernel)

theorem starts_queue : Starts (claimNextDecision plainHost {} plainSurroundings queue.items) "w" := by
  refine ⟨start plainSurroundings.now plainItem, ?_, rfl⟩
  rw [claimNextDecision_of_room (by decide), candidates_queue]
  rfl

theorem claim_paths_agree_queue :
    StartsItem ((tryClaim plainHost {} plainSurroundings "w").run perform () queue) "w" ∧
      (tryClaim plainHost {} plainSurroundings "w").run perform () queue =
        (claimNext plainHost {} plainSurroundings).run perform () queue := by
  have hidle : ∀ item, queue.lookup "w" = some item → item.status ≠ .running := by
    intro item h
    obtain rfl := Option.some.inj h
    decide
  obtain ⟨hiff, hsame⟩ := claim_paths_agree plainHost {} plainSurroundings queue "w" hidle
  have hnext : StartsItem ((claimNext plainHost {} plainSurroundings).run perform () queue) "w" := by
    rw [run_claimNext]
    exact (savesStarted_claimNext _ _ _ _).startsItem_iff.mpr starts_queue
  exact ⟨hiff.mpr hnext, hsame (hiff.mpr hnext)⟩

end RlmGraph.Scheduler.ClaimPaths
