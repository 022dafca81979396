import RlmGraph.Autonomy.Bounds

/-! # What the calls of autonomy leave

A call that nobody interrupts keeps the bounds, wherever it raises: what is
stored of the inquiries and their outcomes stays, and an inquiry that is new is
active. -/
namespace RlmGraph.Autonomy.Calls
open RlmGraph.Lib RlmGraph.Lib.Rows RlmGraph.Lib.Programs RlmGraph.Autonomy.Records
open RlmGraph.Autonomy.Deliberation RlmGraph.Autonomy.Preparation RlmGraph.Autonomy.Bounds

structure Kept (t t' : Tables) : Prop where
  old : ∀ i ∈ t.inquiries, i ∈ t'.inquiries
  new : ∀ i ∈ t'.inquiries, i ∈ t.inquiries ∨
    (i.id ∉ t.inquiries.map (·.id) ∧ i.status.active = true)
  outcomes : t'.outcomes = t.outcomes

theorem Kept.refl (t : Tables) : Kept t t := ⟨fun _ h => h, fun _ h => Or.inl h, rfl⟩

/-- What a call leaves of the tables `t` and the identifiers `drawn` it found. -/
structure Leaves (host : Host) (limit : String → Nat) (t : Tables) (drawn : List String)
    (w : World) : Prop where
  sound : Sound host limit w.drawn w.tables
  kept : Kept t w.tables
  drawn : ∃ more, w.drawn = drawn ++ more

/-- An inquiry that the call has created. -/
structure Created (t t' : Tables) (i : AutonomousInquiry) : Prop where
  stored : i ∈ t'.inquiries
  new : i.id ∉ t.inquiries.map (·.id)

variable {host : Host} {limit : String → Nat} {t t' : Tables} {drawn : List String} {w : World}
  {sessionId : String}

theorem kept_of_eq (hinquiries : t'.inquiries = t.inquiries) (houtcomes : t'.outcomes = t.outcomes) :
    Kept t t' :=
  ⟨fun _ h => hinquiries ▸ h, fun _ h => Or.inl (hinquiries ▸ h), houtcomes⟩

theorem leaves_self (h : Sound host limit w.drawn w.tables) :
    Leaves host limit w.tables w.drawn w :=
  ⟨h, Kept.refl _, [], (List.append_nil _).symm⟩

theorem not_mem_ids {α : Type} {key : α → String} {rows : List α} {n : Nat}
    (hdrawn : ∀ row ∈ rows, Drawn host drawn (key row)) (hn : drawn.length ≤ n) :
    host.newId n ∉ rows.map key := by
  intro hmem
  obtain ⟨row, hrow, hkey⟩ := List.mem_map.mp hmem
  exact not_drawn hn (hkey ▸ hdrawn row hrow)

/-! ## Deliberation -/

/-- What a deliberation leaves, and the inquiry it returns. -/
structure Deliberated (host : Host) (limit : String → Nat) (t : Tables) (drawn : List String)
    (sessionId : String) (r : Except PyError (AutonomousDecision × Option AutonomousInquiry))
    (w : World) : Prop where
  leaves : Leaves host limit t drawn w
  created : ∀ d i, r = .ok (d, some i) →
    i.sessionId = sessionId ∧ i.status.active = true ∧ Created t w.tables i

theorem deliberated_error {e : PyError} (h : Leaves host limit t drawn w) :
    Deliberated host limit t drawn sessionId (.error e) w :=
  ⟨h, fun _ _ heq => by cases heq⟩

theorem decline_wp {reason : String} {status : DecisionStatus}
    (h : Sound host limit w.drawn w.tables) :
    (decline host sessionId reason status).wp (alone host) (fun r _ w' =>
      Deliberated host limit w.tables w.drawn sessionId r w') () w := by
  unfold decline
  refine wp_newId (wp_save ?_ fun e _ => ?_)
  · have hnew : host.newId w.drawn.length ∉ w.tables.decisions.map (·.id) :=
      not_mem_ids h.drawnDecisions (Nat.le_refl _)
    refine ⟨⟨(h.draw [w.drawer]).newDecision hnew (drawn_new w.drawer), kept_of_eq rfl rfl, _, rfl⟩, ?_⟩
    intro d i heq
    cases heq
  · exact deliberated_error ⟨h.draw [w.drawer], Kept.refl _, _, rfl⟩

theorem mem_eligible {budget : AutonomyBudget} {branches : List ConceptBranch}
    {attempted : List String} {branch : ConceptBranch}
    (h : branch ∈ eligible budget branches attempted) : branch ∈ branches ∧
      branch.id ∉ attempted := by
  obtain ⟨hmem, hcond⟩ := List.mem_filter.mp h
  simp only [Bool.and_eq_true, Bool.not_eq_true', List.contains_eq_mem] at hcond
  exact ⟨hmem, by simpa using hcond.2⟩

/-- A decision and the inquiry it is about are stored, where none is active, for
a branch that none has been about. -/
theorem sound_inquired {d : AutonomousDecision} {i : AutonomousInquiry}
    (h : Sound host limit drawn t) (hdecision : d.id ∉ t.decisions.map (·.id))
    (hinquiry : i.id ∉ t.inquiries.map (·.id)) (hdrawn : Drawn host drawn d.id)
    (hdrawn' : Drawn host drawn i.id) (hof : i.decisionId = d.id)
    (hsession : i.sessionId = d.sessionId)
    (hbranch : ∃ b ∈ t.branches, b.id = i.branchId ∧ b.sessionId = i.sessionId)
    (hroom : (t.autonomousDecisions d.sessionId).length < host.budget.maxDecisionsPerSession)
    (hidle : ∀ j ∈ t.inquiries, j.sessionId = d.sessionId → j.status.active = false)
    (hattempted : ∀ j ∈ t.inquiries, j.sessionId = d.sessionId → j.branchId ≠ i.branchId) :
    Sound host limit drawn ((t.save (.decision d)).save (.inquiry i)) := by
  have hcount : (t.autonomousInquiries d.sessionId).length ≤
      (t.autonomousDecisions d.sessionId).length := h.inquiryCount d.sessionId
  have hmore : ((t.save (.decision d)).autonomousDecisions d.sessionId).length =
      (t.autonomousDecisions d.sessionId).length + 1 := by
    refine (length_filter_upsert_new hdecision).trans ?_
    simp [Tables.autonomousDecisions]
  refine (h.newDecision hdecision hdrawn).newInquiry hinquiry hdrawn' ?_ hbranch ?_ ?_ ?_ ?_
  · exact ⟨d, mem_upsert.mpr (Or.inl rfl), hof.symm, hsession.symm⟩
  · intro j hj hs
    exact hidle j hj (hs.trans hsession)
  · intro j hj hs
    exact hattempted j hj (hs.trans hsession)
  · rw [hsession, hmore]
    exact Nat.lt_succ_of_le hcount
  · rw [hsession]
    exact Nat.lt_of_le_of_lt hcount hroom

theorem inquire_wp {scores : List AutonomousCandidateScore} {selected : AutonomousCandidateScore}
    {branch : ConceptBranch} (h : Sound host limit w.drawn w.tables)
    (hbranch : branch ∈ w.tables.branches) (hsession : branch.sessionId = sessionId)
    (hroom : (w.tables.autonomousDecisions sessionId).length < host.budget.maxDecisionsPerSession)
    (hidle : ∀ j ∈ w.tables.inquiries, j.sessionId = sessionId → j.status.active = false)
    (hattempted : ∀ j ∈ w.tables.inquiries, j.sessionId = sessionId → j.branchId ≠ branch.id) :
    (inquire host sessionId scores selected branch).wp (alone host) (fun r _ w' =>
      Deliberated host limit w.tables w.drawn sessionId r w') () w := by
  unfold inquire
  have hsound := (h.draw [w.drawer]).draw [w.drawer]
  have hmore : ∃ more, w.draws.draws.drawn = w.drawn ++ more :=
    ⟨[w.drawer] ++ [w.drawer], List.append_assoc _ _ _⟩
  have hdecision : host.newId w.drawn.length ∉ w.tables.decisions.map (·.id) :=
    not_mem_ids h.drawnDecisions (Nat.le_refl _)
  have hinquiry : host.newId w.draws.drawn.length ∉ w.tables.inquiries.map (·.id) :=
    not_mem_ids h.drawnInquiries (by simp [World.draws])
  have hfirst : Drawn host w.draws.draws.drawn (host.newId w.drawn.length) :=
    (drawn_new w.drawer).append [w.drawer]
  have hsecond : Drawn host w.draws.draws.drawn (host.newId w.draws.drawn.length) :=
    drawn_new w.drawer
  refine wp_newId (wp_newId ?_)
  refine wp_save ?_ fun e _ => deliberated_error ⟨hsound, Kept.refl _, hmore⟩
  refine wp_save ?_ fun e _ =>
    deliberated_error ⟨hsound.newDecision hdecision hfirst, kept_of_eq rfl rfl, hmore⟩
  refine ⟨⟨sound_inquired hsound hdecision hinquiry hfirst hsecond rfl rfl
    ⟨branch, hbranch, rfl, hsession⟩ hroom hidle hattempted, ⟨?_, ?_, rfl⟩, hmore⟩, ?_⟩
  · intro i hi
    exact mem_upsert.mpr (Or.inr ⟨hi, fun heq => hinquiry (List.mem_map.mpr ⟨i, hi, heq⟩)⟩)
  · intro i hi
    rcases mem_upsert.mp hi with rfl | ⟨hi, -⟩
    · exact Or.inr ⟨hinquiry, rfl⟩
    · exact Or.inl hi
  · intro d i heq
    cases heq
    exact ⟨rfl, rfl, mem_upsert.mpr (Or.inl rfl), hinquiry⟩

/-- **Deliberation keeps the bounds.** -/
theorem deliberate_wp (h : Sound host limit w.drawn w.tables) :
    (deliberate host sessionId).wp (alone host) (fun r _ w' =>
      Deliberated host limit w.tables w.drawn sessionId r w') () w := by
  have hself : Leaves host limit w.tables w.drawn w := leaves_self h
  unfold deliberate
  refine wp_read ?_ fun e _ => deliberated_error ⟨h, Kept.refl _, hself.drawn⟩
  rw [Act.wp_ite]
  split
  · exact decline_wp h
  rename_i hroom
  refine wp_read (wp_read ?_ ?_) fun e _ => deliberated_error ⟨h, Kept.refl _, hself.drawn⟩
  · dsimp only
    rw [Act.wp_ite]
    split
    · exact decline_wp h
    rename_i hidle
    split
    · exact decline_wp h
    refine wp_first ?_ fun _ => deliberated_error ⟨h, Kept.refl _, hself.drawn⟩
    intro branch hbranch _
    obtain ⟨hmem, hattempted⟩ := mem_eligible hbranch
    obtain ⟨hmem, hsession⟩ := List.mem_filter.mp hmem
    refine inquire_wp h hmem (beq_iff_eq.mp hsession) (Nat.lt_of_not_le hroom) ?_ ?_
    · intro j hj hs
      have hnone := fun hact => hidle (List.any_eq_true.mpr
        ⟨j, List.mem_filter.mpr ⟨hj, beq_iff_eq.mpr hs⟩, hact⟩)
      exact Bool.eq_false_iff.mpr hnone
    · intro j hj hs heq
      exact hattempted (List.mem_map.mpr ⟨j, List.mem_filter.mpr ⟨hj, beq_iff_eq.mpr hs⟩, heq⟩)
  · intro e _
    exact deliberated_error ⟨h, Kept.refl _, hself.drawn⟩

/-! ## The turn of the chat -/

theorem Kept.queued {i queued : AutonomousInquiry} (h : Kept t t') (hnew : i.id ∉ t.inquiries.map (·.id))
    (hid : queued.id = i.id) (hactive : queued.status.active = true) :
    Kept t (t'.save (.inquiry queued)) where
  old := fun j hj => mem_upsert.mpr
    (Or.inr ⟨h.old j hj, fun heq => hnew (List.mem_map.mpr ⟨j, hj, heq.trans hid⟩)⟩)
  new := by
    intro j hj
    rcases mem_upsert.mp hj with rfl | ⟨hj, -⟩
    · exact Or.inr ⟨hid ▸ hnew, hactive⟩
    · exact h.new j hj
  outcomes := h.outcomes

/-- **A cycle of the chat keeps the bounds**, and launches an inquiry it has created. -/
theorem runAutonomy_wp (h : Sound host limit w.drawn w.tables) :
    (runAutonomy host sessionId).wp (alone host) (fun r _ w' =>
      Leaves host limit w.tables w.drawn w' ∧
        ∀ i, r = .ok (some i) → Created w.tables w'.tables i) () w := by
  unfold runAutonomy
  refine Act.wp_seq (deliberate_wp h) (fun found _ w' hfound => ?_)
    fun e _ w' hfound => ⟨hfound.leaves, fun i heq => by cases heq⟩
  obtain ⟨decision, found⟩ := found
  cases found with
  | none => exact ⟨hfound.leaves, fun i heq => by cases heq⟩
  | some inquiry =>
    obtain ⟨-, hactive, hstored, hnew⟩ := hfound.created decision inquiry rfl
    refine wp_read ?_ fun e _ => ⟨⟨hfound.leaves.sound, hfound.leaves.kept, hfound.leaves.drawn⟩,
      fun i heq => by cases heq⟩
    refine wp_first (fun branch _ _ => ?_) fun _ => ⟨⟨hfound.leaves.sound, hfound.leaves.kept,
      hfound.leaves.drawn⟩, fun i heq => by cases heq⟩
    refine wp_save ?_ fun e _ => ⟨⟨hfound.leaves.sound, hfound.leaves.kept, hfound.leaves.drawn⟩,
      fun i heq => by cases heq⟩
    refine ⟨⟨hfound.leaves.sound.oldInquiry hstored ⟨rfl, rfl, rfl, rfl⟩ fun _ => hactive,
      hfound.leaves.kept.queued hnew rfl rfl, hfound.leaves.drawn⟩, fun i heq => ?_⟩
    cases heq
    exact ⟨mem_upsert.mpr (Or.inl rfl), hnew⟩

/-! ## Policies -/

theorem Leaves.savePolicy (h : Leaves host limit t drawn w) {p : AutonomousWorkPolicy}
    (hlimit : p.maxTasksPerSession = limit p.sessionId) :
    Leaves host limit t drawn (w.saved (.policy p)) :=
  ⟨h.sound.savePolicy hlimit, ⟨h.kept.old, h.kept.new, h.kept.outcomes⟩, h.drawn⟩

theorem policyOf_sessionId (t : Tables) (sessionId : String) :
    (policyOf t sessionId).sessionId = sessionId := by
  unfold policyOf
  cases hfound : t.policies.find? (·.sessionId == sessionId) with
  | none => rfl
  | some policy =>
    have hmatches := List.find?_some hfound
    exact beq_iff_eq.mp hmatches

theorem Sound.limit_policyOf (h : Sound host limit drawn t) (sessionId : String) :
    (policyOf t sessionId).maxTasksPerSession = limit (policyOf t sessionId).sessionId := by
  rw [policyOf_sessionId]
  exact h.limits sessionId

theorem enable_wp (h : Sound host limit w.drawn w.tables) (actor : String) :
    (enable sessionId actor).wp (alone host) (fun _ _ w' =>
      Leaves host limit w.tables w.drawn w') () w := by
  have hself := leaves_self h
  refine wp_read (wp_save ?_ fun e _ => ⟨h, hself.kept, hself.drawn⟩) fun e _ =>
    ⟨h, hself.kept, hself.drawn⟩
  exact Leaves.savePolicy (w := w.next) ⟨h, hself.kept, hself.drawn⟩ (Sound.limit_policyOf h sessionId)

theorem disable_wp (h : Sound host limit w.drawn w.tables) :
    (disable sessionId).wp (alone host) (fun _ _ w' =>
      Leaves host limit w.tables w.drawn w') () w := by
  have hself := leaves_self h
  refine wp_read (wp_save ?_ fun e _ => ⟨h, hself.kept, hself.drawn⟩) fun e _ =>
    ⟨h, hself.kept, hself.drawn⟩
  exact Leaves.savePolicy (w := w.next) ⟨h, hself.kept, hself.drawn⟩ (Sound.limit_policyOf h sessionId)

/-! ## Preparation -/

/-- A preparation whose task has been stored. -/
structure Preparing (host : Host) (limit : String → Nat) (t : Tables) (drawn : List String)
    (task : AutonomousTask) (w : World) : Prop extends Leaves host limit t drawn w where
  stored : ∃ old ∈ w.tables.tasks, task.id = old.id ∧ task.sessionId = old.sessionId ∧
    task.outcomeId = old.outcomeId

section Preparing
variable {task : AutonomousTask}

theorem Preparing.next (h : Preparing host limit t drawn task w) :
    Preparing host limit t drawn task w.next :=
  ⟨⟨h.sound, h.kept, h.drawn⟩, h.stored⟩

theorem Preparing.draws (h : Preparing host limit t drawn task w) :
    Preparing host limit t drawn task w.draws := by
  obtain ⟨more, hmore⟩ := h.drawn
  refine ⟨⟨h.sound.draw [w.drawer], h.kept, more ++ [w.drawer], ?_⟩, h.stored⟩
  rw [World.draws, hmore, List.append_assoc]

theorem Preparing.savePlan (h : Preparing host limit t drawn task w) (plan : AutonomousTaskPlan) :
    Preparing host limit t drawn task (w.saved (.plan plan)) :=
  ⟨⟨h.sound.savePlan plan, ⟨h.kept.old, h.kept.new, h.kept.outcomes⟩, h.drawn⟩, h.stored⟩

theorem Preparing.saveTask (h : Preparing host limit t drawn task w) {task' : AutonomousTask}
    (hid : task'.id = task.id) (hsession : task'.sessionId = task.sessionId)
    (houtcome : task'.outcomeId = task.outcomeId) :
    Leaves host limit t drawn (w.saved (.task task')) := by
  obtain ⟨old, hold, hoid, hosession, hooutcome⟩ := h.stored
  exact ⟨h.sound.oldTask hold (hid.trans hoid) (hsession.trans hosession) (houtcome.trans hooutcome),
    ⟨h.kept.old, h.kept.new, h.kept.outcomes⟩, h.drawn⟩

theorem block_wp (h : Preparing host limit t drawn task w) (blocker : String) :
    (block task blocker).wp (alone host) (fun _ _ w' => Leaves host limit t drawn w') () w :=
  wp_save (h.saveTask rfl rfl rfl) fun _ _ => h.next.toLeaves

theorem propose_wp (h : Preparing host limit t drawn task w) (outcome : ConceptBranchOutcome)
    (ticket : CreatedTicket) : (propose task outcome ticket).wp (alone host) (fun _ _ w' =>
      Leaves host limit t drawn w') () w := by
  refine wp_newId (wp_save (wp_save ?_ fun _ _ => ?_) fun _ _ => h.draws.next.toLeaves)
  · exact (h.draws.savePlan _).saveTask rfl rfl rfl
  · exact (h.draws.savePlan _).next.toLeaves

theorem assignTicket_wp (h : Preparing host limit t drawn task w) (outcome : ConceptBranchOutcome) :
    (assignTicket host task outcome).wp (alone host) (fun _ _ w' =>
      Leaves host limit t drawn w') () w := by
  refine wp_callOut ?_ fun _ _ => h.next.toLeaves
  split
  · exact block_wp h.next _
  · next project _ =>
    have hcreated : ((fun answer : Answer => (Except.ok answer.ticket : Except PyError CreatedTicket)) <$>
        callOut (.createTicket (ticketRequest project.id task outcome)) :
          Act Op Reply Unit PyError (Except PyError CreatedTicket)).wp (alone host)
        (fun _ _ w' => Preparing host limit t drawn task w') () w.next :=
      wp_callOut h.next.next fun _ _ => h.next.next
    refine Act.wp_seq (R := fun _ _ w' => Preparing host limit t drawn task w') ?_
      (fun created _ w' h' => ?_) fun _ _ _ h' => h'.toLeaves
    · exact Act.wp_onError hcreated (fun _ _ _ h' => h') (fun _ _ _ h' _ => h') fun _ _ _ h' _ => h'
    · cases created with
      | error e => exact block_wp h' e.message
      | ok ticket => exact propose_wp h' outcome ticket

end Preparing

theorem mem_usable {outcomes : List ConceptBranchOutcome} {tasks : List AutonomousTask}
    {o : ConceptBranchOutcome} (h : o ∈ usable outcomes tasks) :
    o ∈ outcomes ∧ ∀ k ∈ tasks, k.outcomeId ≠ o.id := by
  obtain ⟨hmem, hcond⟩ := List.mem_filter.mp h
  obtain ⟨hunused, -⟩ := Bool.and_eq_true_iff.mp hcond
  refine ⟨hmem, fun k hk heq => ?_⟩
  have hused : (tasks.map (·.outcomeId)).contains o.id = true :=
    List.contains_iff_mem.mpr (List.mem_map.mpr ⟨k, hk, heq⟩)
  rw [hused] at hunused
  cases hunused

theorem wp_policy {L β : Type} {Q : Except PyError β → L → World → Prop} {l : L}
    {f : AutonomousWorkPolicy → Act Op Reply L PyError β}
    (hok : (f (policyOf w.tables sessionId)).wp (alone host) Q l w.next)
    (herror : ∀ e, w.answer.fault = some e → Q (.error e) l w.next) :
    (policy sessionId >>= f).wp (alone host) Q l w := by
  rw [Act.wp_bind]
  exact wp_read hok herror

/-- **Preparing a task keeps the bounds**, wherever it raises. -/
theorem prepareLatest_wp (h : Sound host limit w.drawn w.tables) :
    (prepareLatest host sessionId).wp (alone host) (fun _ _ w' =>
      Leaves host limit w.tables w.drawn w') () w := by
  have hself := leaves_self h
  have hread : ∀ w', w'.tables = w.tables → w'.drawn = w.drawn →
      Leaves host limit w.tables w.drawn w' := by
    intro w' htables hdrawn
    exact ⟨hdrawn ▸ htables ▸ h, htables ▸ Kept.refl _, [], hdrawn.trans (List.append_nil _).symm⟩
  refine wp_policy ?_ fun _ _ => hread _ rfl rfl
  refine Act.wp_check (fun _ => ?_) fun _ => hread _ rfl rfl
  refine wp_read ?_ fun _ _ => hread _ rfl rfl
  refine Act.wp_check (fun hroom => ?_) fun _ => hread _ rfl rfl
  refine wp_read ?_ fun _ _ => hread _ rfl rfl
  split
  · exact hread _ rfl rfl
  · next outcome hlast =>
    obtain ⟨-, hunused⟩ := mem_usable (List.mem_of_getLast? hlast)
    refine wp_read ?_ fun _ _ => hread _ rfl rfl
    refine wp_first (fun branch _ _ => ?_) fun _ => hread _ rfl rfl
    refine wp_newId (wp_save ?_ fun _ _ => ⟨h.draw [w.drawer], Kept.refl _, [w.drawer], rfl⟩)
    have hroom' : (w.tables.autonomousTasks sessionId).length < limit sessionId :=
      h.limits sessionId ▸ hroom
    have hnew : host.newId w.drawn.length ∉ w.tables.tasks.map (·.id) :=
      not_mem_ids h.drawnTasks (Nat.le_refl _)
    refine assignTicket_wp ⟨⟨?_, ?_, ?_⟩, ?_⟩ outcome
    · refine (h.draw [w.drawer]).newTask hnew (drawn_new w.drawer) hroom' fun k hk hsession => ?_
      exact hunused k (List.mem_filter.mpr ⟨hk, beq_iff_eq.mpr hsession⟩)
    · exact kept_of_eq rfl rfl
    · exact ⟨[w.drawer], rfl⟩
    · exact ⟨_, mem_upsert.mpr (Or.inl rfl), rfl, rfl, rfl⟩

end RlmGraph.Autonomy.Calls
