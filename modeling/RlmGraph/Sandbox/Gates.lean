import RlmGraph.Governance.Evaluation
import RlmGraph.Lib.Results
import RlmGraph.Sandbox.Lifecycle

/-! # The validation gates of an attempt

A gate of an attempt is one of its validation decisions as it is stored. Here
the gate is attested: a call records a verdict of an actor and evaluates all
that was attested so far. The verdict of the call itself is not asked for, so a
denial satisfies a gate whose rules are met by what was recorded before. -/
namespace RlmGraph.Sandbox.Gates
open RlmGraph.Lib RlmGraph.Lib.PyText RlmGraph.Lib.Programs RlmGraph.Lib.Results
open RlmGraph.Governance.Policy RlmGraph.Governance.ArtifactKinds RlmGraph.Governance.Evaluation
open RlmGraph.Sandbox.Records RlmGraph.Sandbox.Operations RlmGraph.Sandbox.Approval
open RlmGraph.Sandbox.Review RlmGraph.Sandbox.Standing RlmGraph.Sandbox.Lifecycle

/-! ## The manager at rest -/

/-- The columns of the attempts and the world between two calls. -/
structure Desk where
  columns : Columns
  world : World

section
variable {α β : Type} {host : ReviewHost}

/-- A complete call: how it ends, and what it leaves. -/
def Desk.call (host : ReviewHost) (x : ReviewAct α) (desk : Desk) : Except PyError α × Desk :=
  let ending := (x desk.columns).exec (perform host.toSandboxHost) desk.world
  (ending.1.1, ⟨ending.1.2, ending.2⟩)

theorem Desk.call_of_wp {x : ReviewAct α} {desk : Desk}
    {Q : Except PyError α → Columns → World → Prop}
    (h : x.wp (freely host.toSandboxHost) Q desk.columns desk.world) :
    Q (desk.call host x).1 (desk.call host x).2.columns (desk.call host x).2.world :=
  wp_exec h

/-- The gate as it is stored. -/
def Desk.gate (ticketId attemptId decisionId : String) (desk : Desk) :
    Option SandboxValidationDecision :=
  (listed ticketId attemptId desk.world.store).bind fun attempt =>
    attempt.validationDecisions.find? (·.id == decisionId)

/-- The policy a call reads that has looked up an attempt of the project: the
stored one, or a new one, by the name drawn for it. -/
def policyInForce (host : SandboxHost) (projectId : String) (world : World) :
    Except PyError ProjectGovernancePolicy :=
  (policyOf host.toGovernanceHost world.store.projects (host.newId (world.tick + 2)) projectId
    world.store.policies).1

/-- The rule of a policy that is read after the attempt. -/
theorem wp_policy {L : Type} {host : SandboxHost} {projectId : String} {world : World} {l : L}
    {g : ProjectGovernancePolicy → SandboxAct L β} {Q : Except PyError β → L → World → Prop}
    (hok : ∀ policy world', policyInForce host projectId world = .ok policy →
      world'.store.sandboxes = world.store.sandboxes → (g policy).wp (freely host) Q l world')
    (herror : ∀ e world', world'.store.sandboxes = world.store.sandboxes → Q (.error e) l world') :
    (policy host projectId >>= g).wp (freely host) Q l (world.next host) := by
  unfold policy
  simp only [Act.wp_bind, Act.wp_perform, Act.onOk_ok, Act.wp_ofExcept]
  refine ⟨trivial, trivial, ?_⟩
  change Act.onOk _ _ (policyInForce host projectId world) _ _
  cases hpolicy : policyInForce host projectId world with
  | error e => exact herror e _ rfl
  | ok policy =>
    rw [Act.onOk_ok, Act.wp_bind, Act.wp_when]
    split
    · exact ⟨trivial, hok policy _ hpolicy rfl⟩
    · exact hok policy _ hpolicy rfl

/-! ## The decisions of an attempt -/

theorem find?_modify_findIdx {p : α → Bool} {xs : List α} {y : α} (h : ∃ x ∈ xs, p x = true)
    (hy : p y = true) : (xs.modify (xs.findIdx p) fun _ => y).find? p = some y := by
  induction xs with
  | nil => simp at h
  | cons x xs ih =>
    by_cases hx : p x = true
    · simp [List.findIdx_cons, hx, hy]
    · have hrest : ∃ x ∈ xs, p x = true := by simpa [hx] using h
      simp [List.findIdx_cons, hx, ih hrest]

theorem validationDecision_ok {attempt : ImplementationSandboxAttempt} {decisionId : String}
    {decision : SandboxValidationDecision} (h : validationDecision attempt decisionId = .ok decision) :
    attempt.validationDecisions.find? (·.id == decisionId) = some decision := by
  unfold validationDecision at h
  split at h
  · cases h
    assumption
  · cases h

/-- The decision that replaces one of its identifier. -/
theorem find?_withDecision {attempt : ImplementationSandboxAttempt}
    {before after : SandboxValidationDecision} {decisionId : String}
    (h : validationDecision attempt decisionId = .ok before) (hid : after.id = before.id) :
    (withDecision attempt after).validationDecisions.find? (·.id == decisionId) = some after := by
  have hfind := validationDecision_ok h
  have hbefore := List.find?_some hfind
  have hsame : decisionId = after.id := by
    rw [hid]
    exact (beq_iff_eq.mp hbefore).symm
  subst hsame
  exact find?_modify_findIdx ⟨before, List.mem_of_find?_eq_some hfind, hbefore⟩ (by simp)

/-- The attempt a call has saved, as the next call finds it. -/
theorem listed_save {ticketId attemptId : String} {store : Store}
    {attempt : ImplementationSandboxAttempt} (hticket : attempt.ticketId = ticketId)
    (hid : attempt.id = attemptId) :
    listed ticketId attemptId (store.saveImplementationSandbox attempt) = some attempt := by
  unfold listed Store.saveImplementationSandbox
  rw [List.find?_append]
  have hnone : (store.sandboxes.filter (·.id != attempt.id)).find? (fun item =>
      item.ticketId == ticketId && item.id == attemptId) = none := by
    rw [List.find?_eq_none]
    intro item hitem
    simp only [List.mem_filter, bne_iff_ne, ne_eq] at hitem
    simp [← hid, hitem.2]
  rw [hnone]
  simp [hticket, hid]

/-- What a call saves of an attempt it has found, with one gate decided. -/
theorem wp_decide {L : Type} {host : SandboxHost} {ticketId attemptId decisionId stage detail : String}
    {attempt : ImplementationSandboxAttempt} {before after : SandboxValidationDecision}
    {world : World} {l : L}
    {Q : Except PyError ImplementationSandboxAttempt → L → World → Prop}
    (hticket : attempt.ticketId = ticketId) (hid : attempt.id = attemptId)
    (hgate : validationDecision attempt decisionId = .ok before) (hafter : after.id = before.id)
    (hQ : ∀ saved world', (∀ columns,
      Desk.gate ticketId attemptId decisionId ⟨columns, world'⟩ = some after) →
        Q (.ok saved) l world') :
    (checkpoint (withDecision attempt after) stage detail).wp (freely host) Q l world := by
  refine ⟨trivial, hQ _ _ fun columns => ?_⟩
  have hsaved := find?_withDecision hgate hafter
  unfold Desk.gate
  refine Eq.trans (congrArg (Option.bind · _) (listed_save (by exact hticket) (by exact hid))) ?_
  exact hsaved

/-! ## Attestations -/

/-- A call of `satisfy_validation`. -/
structure Attestation where
  ticketId : String
  attemptId : String
  decisionId : String
  actor : String
  detail : String
  governanceDecision : String := "APPROVED"

def Attestation.call (host : ReviewHost) (a : Attestation) (desk : Desk) :
    Except PyError ImplementationSandboxAttempt × Desk :=
  desk.call host (satisfyValidation host a.ticketId a.attemptId a.decisionId a.actor a.detail
    a.governanceDecision)

/-- The desk after some attestations. -/
def attested (host : ReviewHost) (calls : List Attestation) (desk : Desk) : Desk :=
  calls.foldl (fun desk a => (a.call host desk).2) desk

abbrev Desk.gateOf (desk : Desk) (a : Attestation) : Option SandboxValidationDecision :=
  desk.gate a.ticketId a.attemptId a.decisionId

/-- The records of a call have one verdict. -/
theorem recordDecisions_verdict {host : GovernanceHost} {policy : ProjectGovernancePolicy}
    {req : DecisionRequest} {newId : String → String} {records : List GovernanceDecision}
    (h : recordDecisions host policy req newId = .ok records) :
    ∃ verdict, ∀ record ∈ records, record.decision = verdict := by
  unfold recordDecisions at h
  split at h
  · cases h
  · next verdict _ =>
    refine ⟨verdict, fun record hrecord => ?_⟩
    obtain ⟨-, h⟩ := ite_throw_bind_ok h
    obtain ⟨rules, -, h⟩ := bind_ok h
    obtain ⟨roles, -, h⟩ := bind_ok h
    obtain ⟨-, h⟩ := ite_throw_bind_ok h
    cases h
    obtain ⟨rule, -, rfl⟩ := List.mem_map.mp hrecord
    rfl

/-- What is denied counts towards no rule. -/
theorem ruleMet_append {host : GovernanceHost} {policy : ProjectGovernancePolicy}
    {action bindingSha256 : String} {history records : List GovernanceDecision}
    {rule : ApprovalPolicyRule} (h : ∀ record ∈ records, record.decision = .denied) :
    RuleMet host policy action bindingSha256 (history ++ records) rule ↔
      RuleMet host policy action bindingSha256 history rule := by
  have hold : ∀ item, Approves host policy action bindingSha256 rule item →
      (item ∈ history ++ records ↔ item ∈ history) := by
    intro item happroves
    rw [List.mem_append, or_iff_left]
    intro hnew
    have hdenied := h item hnew
    rw [happroves.approved] at hdenied
    cases hdenied
  have hactors : approvers host policy action bindingSha256 (history ++ records) rule =
      approvers host policy action bindingSha256 history rule := by
    ext actor
    constructor
    · intro ⟨item, hitem, happroves, hactor⟩
      exact ⟨item, (hold item happroves).mp hitem, happroves, hactor⟩
    · intro ⟨item, hitem, happroves, hactor⟩
      exact ⟨item, (hold item happroves).mpr hitem, happroves, hactor⟩
  constructor
  · intro hmet
    refine ⟨hactors ▸ hmet.enough, fun role hrole => ?_⟩
    obtain ⟨item, hitem, happroves, hin⟩ := hmet.roles role hrole
    exact ⟨item, (hold item happroves).mp hitem, happroves, hin⟩
  · intro hmet
    refine ⟨hactors.symm ▸ hmet.enough, fun role hrole => ?_⟩
    obtain ⟨item, hitem, happroves, hin⟩ := hmet.roles role hrole
    exact ⟨item, (hold item happroves).mpr hitem, happroves, hin⟩

/-- The evidence of an attestation. -/
def Attestation.evidence (a : Attestation) (gate : SandboxValidationDecision) : Evidence :=
  { path := gate.path, detail := strip a.detail }

/-- The gate with what a call has recorded and evaluated. -/
def decidedGate (a : Attestation) (gate : SandboxValidationDecision)
    (records : List GovernanceDecision) (report : Evaluation) (actors : String) :
    SandboxValidationDecision :=
  let recorded := { gate with
    attestationHistory := gate.attestationHistory ++ records
    attestationMissing := report.missing }
  if report.approved = true then { recorded with
    status := "SATISFIED"
    satisfiedBy := some actors
    evidence := gate.evidence ++ [a.evidence gate] } else recorded

def withEvidence (a : Attestation) (gate : SandboxValidationDecision) (columns : ReviewColumns) :
    ReviewColumns :=
  { columns with validationEvidence := columns.validationEvidence ++ [a.evidence gate] }

section
variable (a : Attestation) (gate : SandboxValidationDecision) (records : List GovernanceDecision)
  (report : Evaluation) (actors : String)

theorem decidedGate_id : (decidedGate a gate records report actors).id = gate.id := by
  unfold decidedGate
  split <;> rfl

theorem decidedGate_history : (decidedGate a gate records report actors).attestationHistory =
    gate.attestationHistory ++ records := by
  unfold decidedGate
  split <;> rfl

theorem decidedGate_status : (decidedGate a gate records report actors).status =
    if report.approved = true then "SATISFIED" else gate.status := by
  unfold decidedGate
  split <;> rfl

theorem decidedGate_evidence : (decidedGate a gate records report actors).evidence =
    gate.evidence ++ if report.approved = true then [a.evidence gate] else [] := by
  unfold decidedGate
  split
  · rfl
  · exact (List.append_nil _).symm

end

/-- What a call leaves that has recorded an attestation. -/
structure Recorded (host : ReviewHost) (a : Attestation) (before after : Desk)
    (attempt : ImplementationSandboxAttempt) (policy : ProjectGovernancePolicy)
    (gate gate' : SandboxValidationDecision) (records : List GovernanceDecision)
    (report : Evaluation) : Prop where
  found : listed a.ticketId a.attemptId before.world.store = some attempt
  inForce : policyInForce host.toSandboxHost attempt.projectId before.world = .ok policy
  held : before.gateOf a = some gate
  left : after.gateOf a = some gate'
  verdict : ∃ verdict, ∀ record ∈ records, record.decision = verdict
  evaluated : evaluate host.toGovernanceHost policy "ATTESTATION" [gate.artifactKind]
    (attestationBinding host.toSandboxHost policy attempt gate) (gate.attestationHistory ++ records) =
      .ok report
  history : gate'.attestationHistory = gate.attestationHistory ++ records
  status : gate'.status = if report.approved = true then "SATISFIED" else gate.status
  evidence : gate'.evidence = gate.evidence ++ if report.approved = true then [a.evidence gate] else []
  columns : (after.columns a.attemptId).validationEvidence =
    (before.columns a.attemptId).validationEvidence ++
      if report.approved = true then [a.evidence gate] else []

/-- What a call leaves that has raised. -/
structure Untouched (before after : Desk) : Prop where
  sandboxes : after.world.store.sandboxes = before.world.store.sandboxes
  columns : after.columns = before.columns

theorem wp_satisfyValidation (host : ReviewHost) (a : Attestation) (desk : Desk) :
    (satisfyValidation host a.ticketId a.attemptId a.decisionId a.actor a.detail
      a.governanceDecision).wp (freely host.toSandboxHost) (fun r columns world => match r with
        | .ok _ => ∃ attempt policy gate gate' records report,
          Recorded host a desk ⟨columns, world⟩ attempt policy gate gate' records report
        | .error _ => Untouched desk ⟨columns, world⟩) desk.columns desk.world := by
  unfold satisfyValidation
  refine wp_ask trivial (fun attempt hattempt => ?_) fun e _ => ⟨rfl, rfl⟩
  refine Act.wp_check (fun _ => ?_) fun _ => ⟨rfl, rfl⟩
  refine Act.wp_check (fun _ => ?_) fun _ => ⟨rfl, rfl⟩
  refine Act.wp_result (fun gate hgate => ?_) fun e _ => ⟨rfl, rfl⟩
  refine Act.wp_check (fun _ => ?_) fun _ => ⟨rfl, rfl⟩
  refine Act.wp_check (fun _ => ?_) fun _ => ⟨rfl, rfl⟩
  refine wp_policy (fun policy world hpolicy hworld => ?_) fun e world hworld => ⟨hworld, rfl⟩
  refine Act.wp_op ⟨trivial, ?_⟩
  refine Act.wp_result (fun records hrecords => ?_) fun e _ => ⟨hworld, rfl⟩
  refine Act.wp_result (fun report hreport => ?_) fun e _ => ⟨hworld, rfl⟩
  obtain ⟨hlisted, hticket⟩ := attemptOf_listed hattempt
  have hid := (attemptOf_id hattempt).2
  have hverdict := recordDecisions_verdict hrecords
  have hheld : desk.gateOf a = some gate := by
    unfold Desk.gateOf Desk.gate
    rw [hlisted]
    exact validationDecision_ok hgate
  change Act.wp _ (Act.when (report.approved = true) (updateColumns attempt.id (withEvidence a gate)) >>=
    fun _ => checkpoint (withDecision attempt (decidedGate a gate records report _)) _ _) _ _ _
  rw [Act.wp_bind, Act.wp_when]
  split
  · next happroved =>
    rw [updateColumns, Act.wp_modify, Act.onOk_ok]
    refine wp_decide hticket hid hgate (decidedGate_id ..) fun saved world' hleft => ?_
    refine ⟨attempt, policy, gate, _, records, report, hlisted, hpolicy, hheld, hleft _, hverdict,
      hreport, decidedGate_history .., decidedGate_status .., decidedGate_evidence .., ?_⟩
    rw [if_pos happroved, ← hid]
    simp only [Function.update_self]
    rfl
  · next hmissing =>
    rw [Act.onOk_ok]
    refine wp_decide hticket hid hgate (decidedGate_id ..) fun saved world' hleft => ?_
    refine ⟨attempt, policy, gate, _, records, report, hlisted, hpolicy, hheld, hleft _, hverdict,
      hreport, decidedGate_history .., decidedGate_status .., decidedGate_evidence .., ?_⟩
    rw [if_neg hmissing, List.append_nil]

theorem attestation_spec (host : ReviewHost) (a : Attestation) (desk : Desk) :
    Untouched desk (a.call host desk).2 ∨ ∃ attempt policy gate gate' records report,
      Recorded host a desk (a.call host desk).2 attempt policy gate gate' records report := by
  have h := Desk.call_of_wp (wp_satisfyValidation host a desk)
  revert h
  change (match (a.call host desk).1 with
    | .ok _ => _
    | .error _ => _) → _
  split
  · exact Or.inr
  · exact Or.inl

/-! ## Denials -/

/-- The call has recorded a denial. -/
def RecordsDenial (a : Attestation) (before after : Desk) : Prop :=
  ∃ gate gate' record, before.gateOf a = some gate ∧ after.gateOf a = some gate' ∧
    record ∈ gate'.attestationHistory.drop gate.attestationHistory.length ∧ record.decision = .denied

/-- The call has left the gate unsatisfied, and without evidence of its own. -/
structure Withheld (a : Attestation) (before after : Desk) : Prop where
  status : ∀ gate, after.gateOf a = some gate → gate.status ≠ "SATISFIED"
  evidence : (after.gateOf a).map (·.evidence) = (before.gateOf a).map (·.evidence)
  columns : (after.columns a.attemptId).validationEvidence =
    (before.columns a.attemptId).validationEvidence

/-- The gate is not satisfied, and an applicable rule is not met by what was
attested before. -/
def Open (host : ReviewHost) (a : Attestation) (desk : Desk) : Prop :=
  ∀ attempt policy gate, listed a.ticketId a.attemptId desk.world.store = some attempt →
    policyInForce host.toSandboxHost attempt.projectId desk.world = .ok policy →
    desk.gateOf a = some gate → gate.status ≠ "SATISFIED" ∧
      ∃ rule ∈ applicableRules host.toGovernanceHost policy "ATTESTATION" [gate.artifactKind],
        ¬RuleMet host.toGovernanceHost policy "ATTESTATION"
          (attestationBinding host.toSandboxHost policy attempt gate) gate.attestationHistory rule

/-- The evaluation of a denial is that of the attestations before it. -/
theorem approved_iff_met {host : GovernanceHost} {policy : ProjectGovernancePolicy}
    {action bindingSha256 : String} {artifactKinds : List String}
    {history records : List GovernanceDecision} {report : Evaluation}
    (hdenied : ∀ record ∈ records, record.decision = .denied)
    (hreport : evaluate host policy action artifactKinds bindingSha256 (history ++ records) =
      .ok report) :
    report.approved = true ↔ ∀ rule ∈ applicableRules host policy action artifactKinds,
      RuleMet host policy action bindingSha256 history rule := by
  have hiff := evaluate_approved_iff host policy action artifactKinds bindingSha256 (history ++ records)
  rw [hreport] at hiff
  simp only [Except.ok.injEq, exists_eq_left', ruleMet_append hdenied] at hiff
  have happlies : applicableRules host policy action artifactKinds ≠ [] := by
    intro hnone
    simp [evaluate, rules, hnone] at hreport
  exact hiff.trans (and_iff_right happlies)

/-- **A denial is withheld exactly from an open gate.** Where the gate is
satisfied already, or the attestations before the denial meet every applicable
rule, the denial leaves it satisfied. -/
theorem denial_withheld_iff (host : ReviewHost) (start : Desk) (earlier : List Attestation)
    (a : Attestation)
    (h : RecordsDenial a (attested host earlier start) (attested host (earlier ++ [a]) start)) :
    Withheld a (attested host earlier start) (attested host (earlier ++ [a]) start) ↔
      Open host a (attested host earlier start) := by
  have hafter : attested host (earlier ++ [a]) start =
      (a.call host (attested host earlier start)).2 := by
    simp [attested]
  rw [hafter] at h ⊢
  generalize attested host earlier start = desk at h ⊢
  obtain ⟨gate, gate', record, hheld, hleft, hrecord, hdenied⟩ := h
  obtain huntouched | ⟨attempt, policy, gate₁, gate₂, records, report, hr⟩ :=
    attestation_spec host a desk
  · have hsame : (a.call host desk).2.gateOf a = desk.gateOf a := by
      unfold Desk.gateOf Desk.gate listed
      rw [huntouched.sandboxes]
    rw [hleft, hheld] at hsame
    cases hsame
    simp at hrecord
  · obtain rfl : gate = gate₁ := Option.some.inj (hheld.symm.trans hr.held)
    obtain rfl : gate' = gate₂ := Option.some.inj (hleft.symm.trans hr.left)
    rw [hr.history, List.drop_left] at hrecord
    obtain ⟨verdict, hverdict⟩ := hr.verdict
    have hall : ∀ item ∈ records, item.decision = .denied := by
      intro item hitem
      rw [hverdict item hitem, ← hverdict record hrecord, hdenied]
    have hmet := approved_iff_met hall hr.evaluated
    constructor
    · intro hw attempt' policy' gate'' hfound hforce hgate
      cases Option.some.inj (hfound.symm.trans hr.found)
      cases Except.ok.inj (hforce.symm.trans hr.inForce)
      cases Option.some.inj (hgate.symm.trans hr.held)
      have hstatus := hw.status gate' hr.left
      rw [hr.status] at hstatus
      have hmissing : ¬report.approved = true := by
        intro happroved
        rw [if_pos happroved] at hstatus
        exact hstatus rfl
      rw [if_neg hmissing] at hstatus
      refine ⟨hstatus, ?_⟩
      by_contra hnone
      push Not at hnone
      exact hmissing (hmet.mpr hnone)
    · intro hopen
      obtain ⟨hstatus, rule, hrule, hunmet⟩ := hopen attempt policy gate hr.found hr.inForce hr.held
      have hmissing : ¬report.approved = true := fun happroved => hunmet (hmet.mp happroved rule hrule)
      refine ⟨fun g hg => ?_, ?_, ?_⟩
      · cases Option.some.inj (hg.symm.trans hr.left)
        rw [hr.status, if_neg hmissing]
        exact hstatus
      · rw [hr.left, hr.held, Option.map_some, Option.map_some, hr.evidence, if_neg hmissing,
          List.append_nil]
      · rw [hr.columns, if_neg hmissing, List.append_nil]

end

/-! ## A denial of an approved gate -/

def reviewGate : SandboxValidationDecision where
  id := "gate"
  path := "docs/guide.md"
  artifactKind := "OTHER"
  category := "REVIEW"
  requirement := "Perform artifact-specific human review before promotion."
  status := "REQUIRED"

def reviewAttempt : ImplementationSandboxAttempt where
  id := "attempt"
  ticketId := "ticket"
  projectId := "project"
  projectRoot := "root"
  status := "READY_FOR_REVIEW"
  authorizedPaths := ["docs/guide.md"]
  changes := [{ path := "docs/guide.md", beforeHash := "before", afterHash := "after" }]
  validations := []
  validationDecisions := [reviewGate]
  initialManifestSha256 := "initial"

/-- An attempt that waits for the attestation of one gate. -/
def reviewDesk : Desk where
  columns := fun _ => {}
  world := { unrestored with store := { unrestored.store with sandboxes := [reviewAttempt] } }

def approval : Attestation := ⟨"ticket", "attempt", "gate", "ada", "Reads well.", "APPROVED"⟩

def denial : Attestation := ⟨"ticket", "attempt", "gate", "ben", "The example is wrong.", "DENIED"⟩

theorem denial_recorded : RecordsDenial denial (attested quietHost [] reviewDesk)
    (attested quietHost [denial] reviewDesk) := by
  have hafter : ((attested quietHost [denial] reviewDesk).gateOf denial).any fun gate =>
      gate.attestationHistory.any (·.decision == .denied) := by decide +kernel
  obtain ⟨gate, hgate, hrecords⟩ := (Option.any_eq_true _ _).mp hafter
  obtain ⟨record, hrecord, hdenied⟩ := List.any_eq_true.mp hrecords
  exact ⟨reviewGate, gate, record, rfl, hgate, hrecord, beq_iff_eq.mp hdenied⟩

/-- A denial of a gate that nobody has approved. -/
theorem denial_withheld_iff_first :
    Withheld denial (attested quietHost [] reviewDesk) (attested quietHost [denial] reviewDesk) ↔
      Open quietHost denial (attested quietHost [] reviewDesk) :=
  denial_withheld_iff quietHost reviewDesk [] denial denial_recorded

/-- A denial after an approval leaves the gate satisfied. -/
theorem denial_satisfies :
    ¬∀ (host : ReviewHost) (start : Desk) (earlier : List Attestation) (a : Attestation),
      RecordsDenial a (attested host earlier start) (attested host (earlier ++ [a]) start) →
        Withheld a (attested host earlier start) (attested host (earlier ++ [a]) start) := by
  intro hkept
  have happroved : ((attested quietHost [approval] reviewDesk).gateOf denial).any fun gate =>
      gate.attestationHistory.length == 1 := by decide +kernel
  have hdenied : ((attested quietHost [approval, denial] reviewDesk).gateOf denial).any fun gate =>
      gate.status == "SATISFIED" && (gate.attestationHistory.drop 1).any (·.decision == .denied) := by
    decide +kernel
  obtain ⟨gate, hgate, hlength⟩ := (Option.any_eq_true _ _).mp happroved
  obtain ⟨gate', hgate', hboth⟩ := (Option.any_eq_true _ _).mp hdenied
  obtain ⟨hstatus, hrecords⟩ := Bool.and_eq_true_iff.mp hboth
  obtain ⟨record, hrecord, hverdict⟩ := List.any_eq_true.mp hrecords
  have hwithheld := hkept quietHost reviewDesk [approval] denial
    ⟨gate, gate', record, hgate, hgate', by rw [beq_iff_eq.mp hlength]; exact hrecord,
      beq_iff_eq.mp hverdict⟩
  exact hwithheld.status gate' hgate' (beq_iff_eq.mp hstatus)

end RlmGraph.Sandbox.Gates
