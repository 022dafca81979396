import Mathlib.Data.Set.Card
import RlmGraph.Governance.Policy

/-! # What an evaluation counts

An evaluation approves an action exactly when every applicable rule has its
number of approving actors and its reviewer roles (`evaluate_approved_iff`).
An approval is a recorded decision; the log is append-only and a denial is a
further record, which the evaluation neither counts nor sets off against an
approval (`latest_denial_still_counts`). -/
namespace RlmGraph.Governance.Evaluation
open RlmGraph.Lib RlmGraph.Lib.PyText RlmGraph.Governance.Policy

/-- The decision counts towards a rule: an approval under the present policy
version and binding, authenticated where the policy asks for it. -/
structure Approves (host : GovernanceHost) (policy : ProjectGovernancePolicy)
    (action bindingSha256 : String) (rule : ApprovalPolicyRule) (item : GovernanceDecision) : Prop where
  approved : item.decision = .approved
  action : item.action = upper host.text action
  rule : item.ruleId = rule.id
  policyId : item.policyId = policy.id
  policyVersion : item.policyVersion = policy.version
  binding : item.bindingSha256 = bindingSha256
  authenticated : policy.isTeam = true → item.authenticatedSubject = some item.actor ∧
    item.organizationId = policy.terms.authorityOrganizationId ∧
    ∃ method, item.authenticationMethod = some method ∧ method ≠ ""

/-- The distinct actors that approve under a rule. -/
def approvers (host : GovernanceHost) (policy : ProjectGovernancePolicy)
    (action bindingSha256 : String) (history : List GovernanceDecision)
    (rule : ApprovalPolicyRule) : Set String :=
  {actor | ∃ item ∈ history, Approves host policy action bindingSha256 rule item ∧ item.actor = actor}

/-- A rule is met: enough approving actors, and each reviewer role among the
roles of a counted approval. -/
structure RuleMet (host : GovernanceHost) (policy : ProjectGovernancePolicy)
    (action bindingSha256 : String) (history : List GovernanceDecision)
    (rule : ApprovalPolicyRule) : Prop where
  enough : rule.minimumApprovals ≤ (approvers host policy action bindingSha256 history rule).ncard
  roles : ∀ role ∈ rule.requiredRoles, ∃ item ∈ history,
    Approves host policy action bindingSha256 rule item ∧ role ∈ item.actorRoles

theorem isCurrent_iff {host : GovernanceHost} {policy : ProjectGovernancePolicy}
    {action bindingSha256 : String} {rule : ApprovalPolicyRule} {item : GovernanceDecision} :
    isCurrent host policy action bindingSha256 rule item = true ↔
      item.action = upper host.text action ∧ item.ruleId = rule.id ∧ item.policyId = policy.id ∧
        item.policyVersion = policy.version ∧ item.bindingSha256 = bindingSha256 := by
  simp [isCurrent, and_assoc]

theorem isAuthenticated_iff {policy : ProjectGovernancePolicy} {item : GovernanceDecision} :
    isAuthenticated policy item = true ↔ item.authenticatedSubject = some item.actor ∧
      item.organizationId = policy.terms.authorityOrganizationId ∧
      ∃ method, item.authenticationMethod = some method ∧ method ≠ "" := by
  unfold isAuthenticated
  cases item.authenticationMethod <;> simp [and_assoc]

/-- The candidates of a rule are the decisions that count towards it. -/
theorem mem_candidates {host : GovernanceHost} {policy : ProjectGovernancePolicy}
    {action bindingSha256 : String} {history : List GovernanceDecision} {rule : ApprovalPolicyRule}
    {item : GovernanceDecision} :
    item ∈ candidates host policy action bindingSha256 history rule ↔
      item ∈ history ∧ Approves host policy action bindingSha256 rule item := by
  by_cases hteam : policy.isTeam = true
  · simp only [candidates, hteam, if_true, List.mem_filter, Bool.and_eq_true, isCurrent_iff,
      isAuthenticated_iff, beq_iff_eq]
    constructor
    · intro ⟨⟨hmem, ⟨ha, hr, hp, hv, hb⟩, hd⟩, hauth⟩
      exact ⟨hmem, hd, ha, hr, hp, hv, hb, fun _ => hauth⟩
    · intro ⟨hmem, h⟩
      exact ⟨⟨hmem, ⟨h.action, h.rule, h.policyId, h.policyVersion, h.binding⟩, h.approved⟩,
        h.authenticated hteam⟩
  · simp only [candidates, hteam, Bool.false_eq_true, if_false, List.mem_filter, Bool.and_eq_true, isCurrent_iff, beq_iff_eq]
    constructor
    · intro ⟨hmem, ⟨ha, hr, hp, hv, hb⟩, hd⟩
      exact ⟨hmem, hd, ha, hr, hp, hv, hb, fun h => absurd h hteam⟩
    · intro ⟨hmem, h⟩
      exact ⟨hmem, ⟨h.action, h.rule, h.policyId, h.policyVersion, h.binding⟩, h.approved⟩

theorem countedActors_length (items : List GovernanceDecision) :
    (countedActors items).length = {actor | ∃ item ∈ items, item.actor = actor}.ncard := by
  have hset : {actor | ∃ item ∈ items, item.actor = actor} =
      ((items.map (·.actor)).toFinset : Set String) := by
    ext actor; simp
  rw [hset, Set.ncard_coe_finset, List.card_toFinset, countedActors]

theorem countedActors_candidates (host : GovernanceHost) (policy : ProjectGovernancePolicy)
    (action bindingSha256 : String) (history : List GovernanceDecision) (rule : ApprovalPolicyRule) :
    (countedActors (candidates host policy action bindingSha256 history rule)).length =
      (approvers host policy action bindingSha256 history rule).ncard := by
  rw [countedActors_length]
  congr 1
  ext actor
  simp only [approvers, Set.mem_ofPred_eq, mem_candidates, and_assoc]

/-- Nothing is missing for a rule exactly when it is met. -/
theorem missingFor_eq_nil {host : GovernanceHost} {policy : ProjectGovernancePolicy}
    {action bindingSha256 : String} {history : List GovernanceDecision} {rule : ApprovalPolicyRule} :
    missingFor host policy action bindingSha256 history rule = [] ↔
      RuleMet host policy action bindingSha256 history rule := by
  have hcount := countedActors_candidates host policy action bindingSha256 history rule
  simp only [missingFor, List.append_eq_nil_iff, List.map_eq_nil_iff, List.filter_eq_nil_iff,
    Bool.not_eq_true', Bool.not_eq_false, List.any_eq_true, List.contains_iff_mem, mem_candidates,
    and_assoc, hcount]
  constructor
  · intro ⟨henough, hroles⟩
    refine ⟨?_, hroles⟩
    by_contra hlt
    rw [if_pos (Nat.lt_of_not_le hlt)] at henough
    exact absurd henough (List.cons_ne_nil _ _)
  · intro h
    exact ⟨if_neg (Nat.not_lt.mpr h.enough), h.roles⟩

/-- **An action is approved exactly when every applicable rule is met.** Some
rule has to apply: without one the evaluation raises. -/
theorem evaluate_approved_iff (host : GovernanceHost) (policy : ProjectGovernancePolicy)
    (action : String) (artifactKinds : List String) (bindingSha256 : String)
    (history : List GovernanceDecision) :
    (∃ report, evaluate host policy action artifactKinds bindingSha256 history = .ok report ∧
        report.approved = true) ↔
      applicableRules host policy action artifactKinds ≠ [] ∧
      ∀ rule ∈ applicableRules host policy action artifactKinds,
        RuleMet host policy action bindingSha256 history rule := by
  simp only [evaluate, rules]
  cases happly : applicableRules host policy action artifactKinds with
  | nil => simp
  | cons rule rest =>
    simp only [Except.ok.injEq, exists_eq_left', List.isEmpty_iff, List.flatMap_eq_nil_iff,
      missingFor_eq_nil, ne_eq, reduceCtorEq, not_false_eq_true, true_and]

/-! ## Denials -/

/-- The actor's most recent decision for a rule under the present policy
version and binding. -/
def latestVerdict (host : GovernanceHost) (policy : ProjectGovernancePolicy)
    (action bindingSha256 : String) (history : List GovernanceDecision) (rule : ApprovalPolicyRule)
    (actor : String) : Option Verdict :=
  ((history.filter fun item => isCurrent host policy action bindingSha256 rule item &&
    (!policy.isTeam || isAuthenticated policy item) && item.actor == actor).getLast?).map (·.decision)

/-- A rule met by the actors whose last word was an approval. -/
def MetByLatest (host : GovernanceHost) (policy : ProjectGovernancePolicy)
    (action bindingSha256 : String) (history : List GovernanceDecision)
    (rule : ApprovalPolicyRule) : Prop :=
  rule.minimumApprovals ≤
      {actor | latestVerdict host policy action bindingSha256 history rule actor = some .approved}.ncard ∧
    ∀ role ∈ rule.requiredRoles, ∃ actor, role ∈ rolesOf policy.terms.actorRoles actor ∧
      latestVerdict host policy action bindingSha256 history rule actor = some .approved

def plainHost : GovernanceHost where
  text := ⟨id, id, id⟩
  resolve := id
  commonPath _ _ := none
  sha256 bytes := toString bytes.length

def twoReviewers : ApprovalPolicyRule where
  id := "PLAN-REVIEW"
  action := "PLAN"
  minimumApprovals := 2

def twoReviewerPolicy : ProjectGovernancePolicy where
  id := "PROJECT-POLICY-1"
  projectId := "PROJECT-1"
  projectRoot := "/p"
  terms := { approvalRules := [twoReviewers] }

def planDecision (id actor : String) (decision : Verdict) : GovernanceDecision where
  id := id
  projectId := "PROJECT-1"
  projectRoot := "/p"
  action := "PLAN"
  artifactId := "PLAN-1"
  decision := decision
  actor := actor
  actorRoles := []
  authenticatedSubject := none
  authenticationMethod := none
  organizationId := none
  sessionId := none
  reason := "Reviewed."
  policyId := "PROJECT-POLICY-1"
  policyVersion := 1
  ruleId := "PLAN-REVIEW"
  bindingSha256 := "B"
  sourceManifestSha256 := none
  patchSha256 := none
  requirementsSha256 := none
  evidenceSha256 := none

/-- Ada approves, then denies; Ben approves. -/
def withdrawnHistory : List GovernanceDecision :=
  [planDecision "D1" "ada" .approved, planDecision "D2" "ada" .denied,
    planDecision "D3" "ben" .approved]

theorem latestVerdict_withdrawnHistory {actor : String}
    (h : latestVerdict plainHost twoReviewerPolicy "PLAN" "B" withdrawnHistory twoReviewers actor =
      some .approved) : actor = "ben" := by
  by_contra hben
  by_cases hada : actor = "ada"
  · subst hada
    revert h
    decide
  · have hada' : ("ada" == actor) = false := by simpa using Ne.symm hada
    have hben' : ("ben" == actor) = false := by simpa using Ne.symm hben
    simp [latestVerdict, withdrawnHistory, planDecision, hada', hben'] at h

/-- The evaluation approves with one standing approval where two are asked for. -/
theorem latest_denial_still_counts :
    ¬((∃ report, evaluate plainHost twoReviewerPolicy "PLAN" [] "B" withdrawnHistory = .ok report ∧
          report.approved = true) ↔
      ∀ rule ∈ applicableRules plainHost twoReviewerPolicy "PLAN" [],
        MetByLatest plainHost twoReviewerPolicy "PLAN" "B" withdrawnHistory rule) := by
  intro h
  have happroved : evaluate plainHost twoReviewerPolicy "PLAN" [] "B" withdrawnHistory =
      .ok ⟨true, [], []⟩ := by rfl
  have hmet := (h.mp ⟨_, happroved, rfl⟩ twoReviewers (by decide)).1
  have hone : {actor | latestVerdict plainHost twoReviewerPolicy "PLAN" "B" withdrawnHistory
      twoReviewers actor = some .approved}.ncard ≤ 1 := by
    rw [← Set.ncard_singleton "ben"]
    exact Set.ncard_le_ncard fun actor hactor => latestVerdict_withdrawnHistory hactor
  exact absurd (Nat.le_trans hmet hone) (by decide)

end RlmGraph.Governance.Evaluation
