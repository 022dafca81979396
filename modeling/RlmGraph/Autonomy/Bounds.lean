import RlmGraph.Autonomy.Deliberation
import RlmGraph.Autonomy.Preparation

/-! # The bounds of autonomous work

What the tables of autonomy keep: at most one active inquiry of a session, each
branch inquired once, no more inquiries than decisions allow and no more tasks
than the policy does. Each save of the calls keeps it, and so does each call,
wherever it raises. -/
namespace RlmGraph.Autonomy.Bounds
open RlmGraph.Lib RlmGraph.Lib.Rows RlmGraph.Lib.Programs RlmGraph.Autonomy.Records
open RlmGraph.Autonomy.Deliberation RlmGraph.Autonomy.Preparation

/-- An identifier that somebody drew. -/
def Drawn (host : Host) (drawn : List String) (id : String) : Prop :=
  ∃ n < drawn.length, id = host.newId n

def DrawnBy (host : Host) (drawn : List String) (who id : String) : Prop :=
  ∃ n, drawn[n]? = some who ∧ id = host.newId n

/-- The same inquiry at another time. -/
structure Version (k i : AutonomousInquiry) : Prop where
  ident : i.id = k.id
  session : i.sessionId = k.sessionId
  decision : i.decisionId = k.decisionId
  branch : i.branchId = k.branchId

theorem Version.refl (i : AutonomousInquiry) : Version i i := ⟨rfl, rfl, rfl, rfl⟩

theorem Version.trans {i j k : AutonomousInquiry} (h : Version k i) (h' : Version i j) :
    Version k j :=
  ⟨h'.ident.trans h.ident, h'.session.trans h.session, h'.decision.trans h.decision,
    h'.branch.trans h.branch⟩

theorem Version.symm {i k : AutonomousInquiry} (h : Version k i) : Version i k :=
  ⟨h.ident.symm, h.session.symm, h.decision.symm, h.branch.symm⟩

structure Sound (host : Host) (limit : String → Nat) (drawn : List String) (t : Tables) : Prop where
  decisionIds : (t.decisions.map (·.id)).Nodup
  inquiryIds : (t.inquiries.map (·.id)).Nodup
  outcomeIds : (t.outcomes.map (·.id)).Nodup
  taskIds : (t.tasks.map (·.id)).Nodup
  drawnDecisions : ∀ d ∈ t.decisions, Drawn host drawn d.id
  drawnInquiries : ∀ i ∈ t.inquiries, Drawn host drawn i.id
  drawnOutcomes : ∀ o ∈ t.outcomes, DrawnBy host drawn o.inquiryId o.id
  drawnTasks : ∀ k ∈ t.tasks, Drawn host drawn k.id
  decided : ∀ i ∈ t.inquiries, ∃ d ∈ t.decisions, d.id = i.decisionId ∧ d.sessionId = i.sessionId
  onBranch : ∀ i ∈ t.inquiries, ∃ b ∈ t.branches, b.id = i.branchId ∧ b.sessionId = i.sessionId
  oneActive : ∀ i ∈ t.inquiries, ∀ j ∈ t.inquiries, i.sessionId = j.sessionId →
    i.status.active = true → j.status.active = true → i.id = j.id
  branchOnce : ∀ i ∈ t.inquiries, ∀ j ∈ t.inquiries, i.sessionId = j.sessionId →
    i.branchId = j.branchId → i.id = j.id
  inquiryCount : ∀ s, (t.autonomousInquiries s).length ≤ (t.autonomousDecisions s).length
  inquiryBound : ∀ s, (t.autonomousInquiries s).length ≤ host.budget.maxDecisionsPerSession
  outcomeInquiry : ∀ o ∈ t.outcomes, ∃ i ∈ t.inquiries,
    i.id = o.inquiryId ∧ i.sessionId = o.sessionId ∧ i.branchId = o.branchId
  oneOutcome : ∀ o ∈ t.outcomes, ∀ o' ∈ t.outcomes, o.inquiryId = o'.inquiryId → o.id = o'.id
  taskBound : ∀ s, (t.autonomousTasks s).length ≤ limit s
  taskOutcomes : ∀ k ∈ t.tasks, ∀ k' ∈ t.tasks, k.sessionId = k'.sessionId →
    k.outcomeId = k'.outcomeId → k.id = k'.id
  limits : ∀ s, (policyOf t s).maxTasksPerSession = limit s

variable {host : Host} {limit : String → Nat} {drawn : List String} {t t' : Tables}

theorem Drawn.append {id : String} (h : Drawn host drawn id) (more : List String) :
    Drawn host (drawn ++ more) id := by
  obtain ⟨n, hn, rfl⟩ := h
  exact ⟨n, by rw [List.length_append]; omega, rfl⟩

theorem DrawnBy.append {who id : String} (h : DrawnBy host drawn who id) (more : List String) :
    DrawnBy host (drawn ++ more) who id := by
  obtain ⟨n, hn, rfl⟩ := h
  exact ⟨n, by rw [List.getElem?_append_left (List.getElem?_eq_some_iff.mp hn).1, hn], rfl⟩

/-- Nobody draws an identifier twice. -/
theorem DrawnBy.unique {who who' id : String} (h : DrawnBy host drawn who id)
    (h' : DrawnBy host drawn who' id) : who = who' := by
  obtain ⟨n, hn, rfl⟩ := h
  obtain ⟨n', hn', hid⟩ := h'
  cases host.newId_injective hid
  exact Option.some.inj (hn.symm.trans hn')

theorem drawn_new (who : String) : Drawn host (drawn ++ [who]) (host.newId drawn.length) :=
  ⟨drawn.length, by simp, rfl⟩

theorem drawnBy_new (who : String) : DrawnBy host (drawn ++ [who]) who (host.newId drawn.length) :=
  ⟨drawn.length, by simp, rfl⟩

theorem not_drawn {n : Nat} (h : drawn.length ≤ n) : ¬Drawn host drawn (host.newId n) := by
  rintro ⟨m, hm, hid⟩
  have := host.newId_injective hid
  omega

/-- More identifiers are drawn. -/
theorem Sound.draw (h : Sound host limit drawn t) (more : List String) :
    Sound host limit (drawn ++ more) t :=
  { h with
    drawnDecisions := fun d hd => (h.drawnDecisions d hd).append more
    drawnInquiries := fun i hi => (h.drawnInquiries i hi).append more
    drawnOutcomes := fun o ho => (h.drawnOutcomes o ho).append more
    drawnTasks := fun k hk => (h.drawnTasks k hk).append more }

theorem sound_start {branches : List ConceptBranch} {policies : List AutonomousWorkPolicy} :
    Sound host (fun s => (policyOf { branches, policies } s).maxTasksPerSession) []
      { branches, policies } := by
  constructor <;> simp [Tables.autonomousInquiries, Tables.autonomousDecisions,
    Tables.autonomousTasks]

theorem Sound.saveConceptBranch (h : Sound host limit drawn t) (branch : ConceptBranch) :
    Sound host limit drawn (t.saveConceptBranch branch) := by
  unfold Tables.saveConceptBranch
  split
  · exact h
  · refine { h with onBranch := fun i hi => ?_ }
    obtain ⟨b, hb, hfacts⟩ := h.onBranch i hi
    exact ⟨b, List.mem_append_left _ hb, hfacts⟩

/-! ## Saves -/

section Decisions
variable {d : AutonomousDecision}

theorem Sound.newDecision (h : Sound host limit drawn t) (hnew : d.id ∉ t.decisions.map (·.id))
    (hdrawn : Drawn host drawn d.id) : Sound host limit drawn (t.save (.decision d)) where
  __ := h
  decisionIds := nodup_upsert h.decisionIds
  drawnDecisions := by
    intro d' hd'
    rcases mem_upsert.mp hd' with rfl | ⟨hd', -⟩
    · exact hdrawn
    · exact h.drawnDecisions d' hd'
  decided := by
    intro i hi
    obtain ⟨d', hd', hfacts⟩ := h.decided i hi
    exact ⟨d', mem_upsert.mpr (Or.inr ⟨hd', fun heq => hnew (List.mem_map.mpr ⟨d', hd', heq⟩)⟩),
      hfacts⟩
  inquiryCount := by
    intro s
    refine (h.inquiryCount s).trans ?_
    unfold Tables.autonomousDecisions Tables.save
    rw [length_filter_upsert_new hnew]
    omega

/-- A decision that is stored is saved again. -/
theorem Sound.oldDecision (h : Sound host limit drawn t)
    (hold : ∃ d' ∈ t.decisions, d'.id = d.id ∧ d'.sessionId = d.sessionId) :
    Sound host limit drawn (t.save (.decision d)) := by
  obtain ⟨old, hmem, hid, hsession⟩ := hold
  have hkey : d.id ∈ t.decisions.map (·.id) := List.mem_map.mpr ⟨old, hmem, hid⟩
  refine { h with
    decisionIds := nodup_upsert h.decisionIds
    drawnDecisions := fun d' hd' => ?_
    decided := fun i hi => ?_
    inquiryCount := fun s => ?_ }
  · rcases mem_upsert.mp hd' with rfl | ⟨hd', -⟩
    · exact hid ▸ h.drawnDecisions old hmem
    · exact h.drawnDecisions d' hd'
  · obtain ⟨d', hd', hdecision, hof⟩ := h.decided i hi
    by_cases heq : d'.id = d.id
    · refine ⟨d, mem_upsert.mpr (Or.inl rfl), heq.symm.trans hdecision, ?_⟩
      rw [← hsession, ← hof]
      exact congrArg _ (List.inj_on_of_nodup_map h.decisionIds hmem hd' (hid.trans heq.symm))
    · exact ⟨d', mem_upsert.mpr (Or.inr ⟨hd', heq⟩), hdecision, hof⟩
  · have hsame : ((t.save (.decision d)).autonomousDecisions s).length =
        (t.autonomousDecisions s).length := by
      refine length_filter_upsert_old hkey fun x hx heq => ?_
      rw [List.inj_on_of_nodup_map h.decisionIds hx hmem (heq.trans hid.symm), hsession]
    rw [hsame]
    exact h.inquiryCount s

end Decisions

section Inquiries
variable {i : AutonomousInquiry}

theorem Sound.newInquiry (h : Sound host limit drawn t) (hnew : i.id ∉ t.inquiries.map (·.id))
    (hdrawn : Drawn host drawn i.id)
    (hdecided : ∃ d ∈ t.decisions, d.id = i.decisionId ∧ d.sessionId = i.sessionId)
    (hbranch : ∃ b ∈ t.branches, b.id = i.branchId ∧ b.sessionId = i.sessionId)
    (hidle : ∀ j ∈ t.inquiries, j.sessionId = i.sessionId → j.status.active = false)
    (hattempted : ∀ j ∈ t.inquiries, j.sessionId = i.sessionId → j.branchId ≠ i.branchId)
    (hcount : (t.autonomousInquiries i.sessionId).length <
      (t.autonomousDecisions i.sessionId).length)
    (hbound : (t.autonomousInquiries i.sessionId).length < host.budget.maxDecisionsPerSession) :
    Sound host limit drawn (t.save (.inquiry i)) := by
  have hmem : ∀ j ∈ (t.save (.inquiry i)).inquiries, j = i ∨ j ∈ t.inquiries := by
    intro j hj
    rcases mem_upsert.mp hj with rfl | ⟨hj, -⟩
    · exact Or.inl rfl
    · exact Or.inr hj
  have hcounts : ∀ s, ((t.save (.inquiry i)).autonomousInquiries s).length =
      (t.autonomousInquiries s).length + if i.sessionId = s then 1 else 0 := by
    intro s
    refine (length_filter_upsert_new hnew).trans ?_
    simp [Tables.autonomousInquiries]
  refine { h with
    inquiryIds := nodup_upsert h.inquiryIds
    drawnInquiries := fun j hj => ?_
    decided := fun j hj => ?_
    onBranch := fun j hj => ?_
    oneActive := fun a ha b hb hsame hact hact' => ?_
    branchOnce := fun a ha b hb hsame hbr => ?_
    inquiryCount := fun s => ?_
    inquiryBound := fun s => ?_
    outcomeInquiry := fun o ho => ?_ }
  · rcases hmem j hj with rfl | hj
    · exact hdrawn
    · exact h.drawnInquiries j hj
  · rcases hmem j hj with rfl | hj
    · exact hdecided
    · exact h.decided j hj
  · rcases hmem j hj with rfl | hj
    · exact hbranch
    · exact h.onBranch j hj
  · rcases hmem a ha with rfl | ha' <;> rcases hmem b hb with rfl | hb'
    · rfl
    · rw [hidle b hb' hsame.symm] at hact'
      cases hact'
    · rw [hidle a ha' hsame] at hact
      cases hact
    · exact h.oneActive a ha' b hb' hsame hact hact'
  · rcases hmem a ha with rfl | ha' <;> rcases hmem b hb with rfl | hb'
    · rfl
    · exact absurd hbr.symm (hattempted b hb' hsame.symm)
    · exact absurd hbr (hattempted a ha' hsame)
    · exact h.branchOnce a ha' b hb' hsame hbr
  · rw [hcounts]
    split
    · rename_i hs
      subst hs
      exact hcount
    · exact h.inquiryCount s
  · rw [hcounts]
    split
    · rename_i hs
      subst hs
      exact hbound
    · exact h.inquiryBound s
  · obtain ⟨j, hj, hfacts⟩ := h.outcomeInquiry o ho
    exact ⟨j, mem_upsert.mpr (Or.inr ⟨hj, fun heq => hnew (List.mem_map.mpr ⟨j, hj, heq⟩)⟩), hfacts⟩

/-- An inquiry that is stored is saved again, and does not become active. -/
theorem Sound.oldInquiry (h : Sound host limit drawn t) {k : AutonomousInquiry}
    (hk : k ∈ t.inquiries) (hv : Version k i)
    (hactive : i.status.active = true → k.status.active = true) :
    Sound host limit drawn (t.save (.inquiry i)) := by
  have hkey : i.id ∈ t.inquiries.map (·.id) := List.mem_map.mpr ⟨k, hk, hv.ident.symm⟩
  have origin : ∀ x ∈ (t.save (.inquiry i)).inquiries, ∃ y ∈ t.inquiries, Version y x ∧
      (x.status.active = true → y.status.active = true) := by
    intro x hx
    rcases mem_upsert.mp hx with rfl | ⟨hx, -⟩
    · exact ⟨k, hk, hv, hactive⟩
    · exact ⟨x, hx, Version.refl x, fun hact => hact⟩
  have image : ∀ y ∈ t.inquiries, ∃ x ∈ (t.save (.inquiry i)).inquiries, Version y x := by
    intro y hy
    by_cases heq : y.id = i.id
    · obtain rfl := List.inj_on_of_nodup_map h.inquiryIds hy hk (heq.trans hv.ident)
      exact ⟨i, mem_upsert.mpr (Or.inl rfl), hv⟩
    · exact ⟨y, mem_upsert.mpr (Or.inr ⟨hy, heq⟩), Version.refl y⟩
  have hcounts : ∀ s, ((t.save (.inquiry i)).autonomousInquiries s).length =
      (t.autonomousInquiries s).length := by
    intro s
    refine length_filter_upsert_old hkey fun x hx heq => ?_
    rw [List.inj_on_of_nodup_map h.inquiryIds hx hk (heq.trans hv.ident), hv.session]
  refine { h with
    inquiryIds := nodup_upsert h.inquiryIds
    drawnInquiries := fun x hx => ?_
    decided := fun x hx => ?_
    onBranch := fun x hx => ?_
    oneActive := fun a ha b hb hsame hact hact' => ?_
    branchOnce := fun a ha b hb hsame hbr => ?_
    inquiryCount := fun s => (hcounts s).symm ▸ h.inquiryCount s
    inquiryBound := fun s => (hcounts s).symm ▸ h.inquiryBound s
    outcomeInquiry := fun o ho => ?_ }
  · obtain ⟨y, hy, hyx, -⟩ := origin x hx
    exact hyx.ident.symm ▸ h.drawnInquiries y hy
  · obtain ⟨y, hy, hyx, -⟩ := origin x hx
    rw [hyx.decision, hyx.session]
    exact h.decided y hy
  · obtain ⟨y, hy, hyx, -⟩ := origin x hx
    rw [hyx.branch, hyx.session]
    exact h.onBranch y hy
  · obtain ⟨a', ha', hva, hacta⟩ := origin a ha
    obtain ⟨b', hb', hvb, hactb⟩ := origin b hb
    rw [hva.ident, hvb.ident]
    refine h.oneActive a' ha' b' hb' ?_ (hacta hact) (hactb hact')
    rw [← hva.session, ← hvb.session, hsame]
  · obtain ⟨a', ha', hva, -⟩ := origin a ha
    obtain ⟨b', hb', hvb, -⟩ := origin b hb
    rw [hva.ident, hvb.ident]
    refine h.branchOnce a' ha' b' hb' ?_ ?_
    · rw [← hva.session, ← hvb.session, hsame]
    · rw [← hva.branch, ← hvb.branch, hbr]
  · obtain ⟨y, hy, hid, hsession, hbr⟩ := h.outcomeInquiry o ho
    obtain ⟨x, hx, hyx⟩ := image y hy
    exact ⟨x, hx, hyx.ident.trans hid, hyx.session.trans hsession, hyx.branch.trans hbr⟩

end Inquiries

/-- The first outcome of an inquiry is saved by the one who drew its identifier. -/
theorem Sound.newOutcome (h : Sound host limit drawn t) {o : ConceptBranchOutcome}
    (hnone : ∀ o' ∈ t.outcomes, o'.inquiryId ≠ o.inquiryId)
    (hdrawn : DrawnBy host drawn o.inquiryId o.id)
    (hinquiry : ∃ i ∈ t.inquiries,
      i.id = o.inquiryId ∧ i.sessionId = o.sessionId ∧ i.branchId = o.branchId) :
    Sound host limit drawn (t.save (.outcome o)) := by
  refine { h with
    outcomeIds := nodup_upsert h.outcomeIds
    drawnOutcomes := fun x hx => ?_
    outcomeInquiry := fun x hx => ?_
    oneOutcome := fun a ha b hb hsame => ?_ }
  · rcases mem_upsert.mp hx with rfl | ⟨hx, -⟩
    · exact hdrawn
    · exact h.drawnOutcomes x hx
  · rcases mem_upsert.mp hx with rfl | ⟨hx, -⟩
    · exact hinquiry
    · exact h.outcomeInquiry x hx
  · rcases mem_upsert.mp ha with rfl | ⟨ha', -⟩ <;> rcases mem_upsert.mp hb with rfl | ⟨hb', -⟩
    · rfl
    · exact absurd hsame.symm (hnone b hb')
    · exact absurd hsame (hnone a ha')
    · exact h.oneOutcome a ha' b hb' hsame

/-- A policy is found after it is saved, and the others as before. -/
theorem policyOf_save (t : Tables) (p : AutonomousWorkPolicy) (s : String) :
    policyOf (t.save (.policy p)) s = if s = p.sessionId then p else policyOf t s := by
  unfold policyOf Tables.save
  dsimp only
  split
  · rename_i hs
    subst hs
    rw [find?_upsert_self , Option.getD_some]
  · rename_i hs
    rw [find?_upsert_other  hs]

theorem Sound.savePolicy (h : Sound host limit drawn t) {p : AutonomousWorkPolicy}
    (hlimit : p.maxTasksPerSession = limit p.sessionId) :
    Sound host limit drawn (t.save (.policy p)) := by
  refine { h with limits := fun s => ?_ }
  rw [policyOf_save]
  split
  · rename_i hs
    rw [hs, hlimit]
  · exact h.limits s

theorem Sound.savePlan (h : Sound host limit drawn t) (p : AutonomousTaskPlan) :
    Sound host limit drawn (t.save (.plan p)) :=
  { h with }

section Tasks
variable {k : AutonomousTask}

theorem Sound.newTask (h : Sound host limit drawn t) (hnew : k.id ∉ t.tasks.map (·.id))
    (hdrawn : Drawn host drawn k.id)
    (hroom : (t.autonomousTasks k.sessionId).length < limit k.sessionId)
    (hunused : ∀ k' ∈ t.tasks, k'.sessionId = k.sessionId → k'.outcomeId ≠ k.outcomeId) :
    Sound host limit drawn (t.save (.task k)) := by
  refine { h with
    taskIds := nodup_upsert h.taskIds
    drawnTasks := fun x hx => ?_
    taskBound := fun s => ?_
    taskOutcomes := fun a ha b hb hsame hout => ?_ }
  · rcases mem_upsert.mp hx with rfl | ⟨hx, -⟩
    · exact hdrawn
    · exact h.drawnTasks x hx
  · have hcount : ((t.save (.task k)).autonomousTasks s).length =
        (t.autonomousTasks s).length + if k.sessionId = s then 1 else 0 := by
      refine (length_filter_upsert_new hnew).trans ?_
      simp [Tables.autonomousTasks]
    rw [hcount]
    split
    · rename_i hs
      subst hs
      exact hroom
    · exact h.taskBound s
  · rcases mem_upsert.mp ha with rfl | ⟨ha', -⟩ <;> rcases mem_upsert.mp hb with rfl | ⟨hb', -⟩
    · rfl
    · exact absurd hout.symm (hunused b hb' hsame.symm)
    · exact absurd hout (hunused a ha' hsame)
    · exact h.taskOutcomes a ha' b hb' hsame hout

/-- A task that is stored is saved again. -/
theorem Sound.oldTask (h : Sound host limit drawn t) {old : AutonomousTask} (hold : old ∈ t.tasks)
    (hid : k.id = old.id) (hsession : k.sessionId = old.sessionId)
    (houtcome : k.outcomeId = old.outcomeId) : Sound host limit drawn (t.save (.task k)) := by
  have hkey : k.id ∈ t.tasks.map (·.id) := List.mem_map.mpr ⟨old, hold, hid.symm⟩
  have origin : ∀ x ∈ (t.save (.task k)).tasks, ∃ y ∈ t.tasks,
      x.id = y.id ∧ x.sessionId = y.sessionId ∧ x.outcomeId = y.outcomeId := by
    intro x hx
    rcases mem_upsert.mp hx with rfl | ⟨hx, -⟩
    · exact ⟨old, hold, hid, hsession, houtcome⟩
    · exact ⟨x, hx, rfl, rfl, rfl⟩
  refine { h with
    taskIds := nodup_upsert h.taskIds
    drawnTasks := fun x hx => ?_
    taskBound := fun s => ?_
    taskOutcomes := fun a ha b hb hsame hout => ?_ }
  · obtain ⟨y, hy, hxy, -⟩ := origin x hx
    exact hxy.symm ▸ h.drawnTasks y hy
  · have hcount : ((t.save (.task k)).autonomousTasks s).length = (t.autonomousTasks s).length := by
      refine length_filter_upsert_old hkey fun x hx heq => ?_
      rw [List.inj_on_of_nodup_map h.taskIds hx hold (heq.trans hid), hsession]
    rw [hcount]
    exact h.taskBound s
  · obtain ⟨a', ha', hida, hsa, hoa⟩ := origin a ha
    obtain ⟨b', hb', hidb, hsb, hob⟩ := origin b hb
    rw [hida, hidb]
    exact h.taskOutcomes a' ha' b' hb' (hsa.symm.trans (hsame.trans hsb))
      (hoa.symm.trans (hout.trans hob))

end Tasks
end RlmGraph.Autonomy.Bounds
