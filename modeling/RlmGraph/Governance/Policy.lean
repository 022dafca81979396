import RlmGraph.Lib.JsonText
import RlmGraph.Lib.PyError
import RlmGraph.Lib.PyText

/-! # Project governance

The approval policy of a project, the decisions recorded under it, and their
evaluation. A policy is versioned: every configuration writes a new version
and appends it to the revision history. A decision names the policy version
and the digest of what it was made about; the evaluation counts the approvals
that name the present ones. Files, case tables and the digest come from the
host. -/
namespace RlmGraph.Governance.Policy
open RlmGraph.Lib RlmGraph.Lib.JsonText RlmGraph.Lib.PyText

structure GovernanceHost where
  text : CaseTables
  resolve : String → String
  commonPath : String → String → Option String
  sha256 : Bytes → String

def GovernanceHost.canonicalRoot (host : GovernanceHost) (root : String) : String :=
  casefold host.text (host.resolve root)

/-! ## Records -/

structure ProjectRecord where
  id : String
  root : String
  explicitlySelected : Bool
  readOnly : Bool
  deriving DecidableEq

structure ApprovalPolicyRule where
  id : String
  action : String
  requiredRoles : List String := []
  minimumApprovals : Nat := 1
  artifactKinds : List String := []
  requiredValidationCategories : List String := []
  positive : 1 ≤ minimumApprovals := by decide
  deriving DecidableEq

inductive Verdict where
  | approved | denied
  deriving DecidableEq

structure GovernanceDecision where
  id : String
  projectId : String
  projectRoot : String
  action : String
  artifactId : String
  decision : Verdict
  actor : String
  actorRoles : List String
  authenticatedSubject : Option String
  authenticationMethod : Option String
  organizationId : Option String
  sessionId : Option String
  reason : String
  policyId : String
  policyVersion : Nat
  ruleId : String
  bindingSha256 : String
  sourceManifestSha256 : Option String
  patchSha256 : Option String
  requirementsSha256 : Option String
  evidenceSha256 : Option String
  deriving DecidableEq

structure AuthenticatedIdentity where
  subject : String
  organizationId : String
  sessionId : String
  authenticationMethod : String

structure TicketBudget where
  maxTokens : Nat := 50000
  maxModelCalls : Nat := 10
  maxWorkerCalls : Nat := 10
  maxWallTimeSeconds : Nat := 900
  maxBranchDepth : Nat := 4
  deriving DecidableEq

/-- What a revision keeps of a policy, and what a configuration sets. -/
structure PolicyTerms where
  permittedWorkerIds : List String := ["*"]
  requiredValidationCategories : List String := []
  planApprovers : List String := ["*"]
  promotionApprovers : List String := ["*"]
  actorRoles : List (String × List String) := []
  authorityMode : String := "INDIVIDUAL_LOCAL"
  authorityOrganizationId : Option String := none
  authenticatedRoleBindings : List (String × List String) := []
  approvalRules : List ApprovalPolicyRule := [
    { id := "PLAN-APPROVAL", action := "PLAN" },
    { id := "PROMOTION-APPROVAL", action := "PROMOTION" },
    { id := "VALIDATION-ATTESTATION", action := "ATTESTATION" }]
  artifactValidationRequirements : List (String × List String) := []
  maxTicketBudget : TicketBudget := {}
  configuredBy : String := "RLMGraph default governance"
  reason : String := "Compatibility policy created for an explicitly registered project."
  deriving DecidableEq

structure ProjectPolicyRevision where
  version : Nat
  terms : PolicyTerms
  deriving DecidableEq

structure ProjectGovernancePolicy where
  id : String
  projectId : String
  projectRoot : String
  terms : PolicyTerms := {}
  version : Nat := 1
  revisionHistory : List ProjectPolicyRevision := []
  deriving DecidableEq

/-- The policy rows; the project identifier is unique. -/
abbrev PolicyTable := String → Option ProjectGovernancePolicy

def ProjectGovernancePolicy.revision (policy : ProjectGovernancePolicy) : ProjectPolicyRevision :=
  ⟨policy.version, policy.terms⟩

/-- `mapping.get(key, [])`. -/
def rolesOf (mapping : List (String × List String)) (key : String) : List String :=
  (mapping.lookup key).getD []

/-! ## The project and its policy -/

def overlapsAnother (host : GovernanceHost) (projects : List ProjectRecord)
    (project : ProjectRecord) : Bool :=
  let wanted := host.canonicalRoot project.root
  projects.any fun other =>
    other.id != project.id &&
      let candidate := host.canonicalRoot other.root
      match host.commonPath wanted candidate with
      | none => false
      | some common => casefold host.text common == wanted || casefold host.text common == candidate

def governedProject (host : GovernanceHost) (projects : List ProjectRecord) (projectId : String) :
    Except PyError ProjectRecord :=
  match projects.find? (·.id == projectId) with
  | none => .error (.value "Governance requires an explicitly registered read-only project.")
  | some project =>
    if project.explicitlySelected = false ∨ project.readOnly = false then
      .error (.value "Governance requires an explicitly registered read-only project.")
    else if (projects.filter fun item =>
        host.canonicalRoot item.root == host.canonicalRoot project.root).length ≠ 1 then
      .error (.value "Registered project roots must map to exactly one project identity.")
    else if overlapsAnother host projects project then
      .error (.value "Registered project roots must not overlap or contain one another.")
    else .ok project

def validateBinding (host : GovernanceHost) (policy : ProjectGovernancePolicy)
    (project : ProjectRecord) : Except PyError Unit :=
  if policy.projectId ≠ project.id ∨
      host.canonicalRoot policy.projectRoot ≠ host.canonicalRoot project.root then
    .error (.value "Project governance policy identity does not match its registered root.")
  else .ok ()

/-- `policy`: the stored policy, or the default one, which is stored. `newId` is
the identifier drawn for a new policy. -/
def policyOf (host : GovernanceHost) (projects : List ProjectRecord) (newId projectId : String)
    (policies : PolicyTable) : Except PyError ProjectGovernancePolicy × PolicyTable :=
  match governedProject host projects projectId with
  | .error e => (.error e, policies)
  | .ok project =>
    match policies projectId with
    | some existing =>
      match validateBinding host existing project with
      | .error e => (.error e, policies)
      | .ok () => (.ok existing, policies)
    | none =>
      let policy : ProjectGovernancePolicy :=
        { id := newId, projectId := project.id, projectRoot := host.resolve project.root }
      let policy := { policy with revisionHistory := policy.revisionHistory ++ [policy.revision] }
      (.ok policy, Function.update policies project.id (some policy))

/-! ## Configuration -/

/-- The arguments of a configuration; an absent one keeps the current value. -/
structure PolicyRequest where
  permittedWorkerIds : List String
  requiredValidationCategories : List String
  planApprovers : List String
  promotionApprovers : List String
  maxTicketBudget : TicketBudget
  actor : String
  reason : String
  actorRoles : Option (List (String × List String)) := none
  approvalRules : Option (List ApprovalPolicyRule) := none
  artifactValidationRequirements : Option (List (String × List String)) := none
  authorityMode : Option String := none
  authorityOrganizationId : Option String := none
  authenticatedRoleBindings : Option (List (String × List String)) := none

/-- The terms a request asks for over the current ones. -/
def requestedTerms (host : GovernanceHost) (req : PolicyRequest) (current : PolicyTerms) :
    PolicyTerms where
  permittedWorkerIds := distinct req.permittedWorkerIds
  requiredValidationCategories := distinct (req.requiredValidationCategories.map (upper host.text))
  planApprovers := distinct req.planApprovers
  promotionApprovers := distinct req.promotionApprovers
  actorRoles := req.actorRoles.getD current.actorRoles
  authorityMode := (orText req.authorityMode (some current.authorityMode)).getD ""
  authorityOrganizationId := req.authorityOrganizationId.orElse fun _ =>
    current.authorityOrganizationId
  authenticatedRoleBindings := req.authenticatedRoleBindings.getD current.authenticatedRoleBindings
  approvalRules := req.approvalRules.getD current.approvalRules
  artifactValidationRequirements :=
    (req.artifactValidationRequirements.getD current.artifactValidationRequirements).map
      fun (kind, categories) => (upper host.text kind, distinct (categories.map (upper host.text)))
  maxTicketBudget := req.maxTicketBudget
  configuredBy := strip req.actor
  reason := strip req.reason

def isBlankText (text : String) : Bool := strip text == ""

def validateRequest (req : PolicyRequest) : Except PyError Unit :=
  if isBlankText req.actor ∨ isBlankText req.reason then
    .error (.value "Project policy changes require an attributable actor and reason.")
  else if req.permittedWorkerIds = [] ∨ req.permittedWorkerIds.any isBlankText then
    .error (.value "Project policy requires explicit permitted workers.")
  else if req.planApprovers = [] ∨ req.planApprovers.any isBlankText then
    .error (.value "Project policy requires explicit plan approvers.")
  else if req.promotionApprovers = [] ∨ req.promotionApprovers.any isBlankText then
    .error (.value "Project policy requires explicit promotion approvers.")
  else .ok ()

/-- `_validate_rules`. -/
def validateRules (host : GovernanceHost) (terms : PolicyTerms) : Except PyError Unit :=
  if terms.authorityMode ≠ "INDIVIDUAL_LOCAL" ∧ terms.authorityMode ≠ "AUTHENTICATED_TEAM" then
    .error (.value "Authority mode must be INDIVIDUAL_LOCAL or AUTHENTICATED_TEAM.")
  else if terms.authorityMode = "AUTHENTICATED_TEAM" ∧
      terms.authorityOrganizationId.elim true (· == "") then
    .error (.value "Authenticated team policy requires an organization identity.")
  else if terms.authorityMode = "AUTHENTICATED_TEAM" ∧ terms.authenticatedRoleBindings = [] then
    .error (.value "Authenticated team policy requires durable subject role bindings.")
  else if ¬ (terms.approvalRules.map (·.id)).Nodup then
    .error (.value "Project approval policy rule IDs must be unique.")
  else match ["PLAN", "PROMOTION", "ATTESTATION"].find? fun action =>
      terms.approvalRules.all fun rule => upper host.text rule.action != action with
    | some action => .error (.value s!"Project policy requires at least one {action} rule.")
    | none => .ok ()

/-- `configure`: a new version over the current policy, or the first one. -/
def configure (host : GovernanceHost) (projects : List ProjectRecord) (newId projectId : String)
    (req : PolicyRequest) (policies : PolicyTable) :
    Except PyError ProjectGovernancePolicy × PolicyTable :=
  match governedProject host projects projectId with
  | .error e => (.error e, policies)
  | .ok project =>
    match validateRequest req with
    | .error e => (.error e, policies)
    | .ok () =>
      let current := policies projectId
      let policy : ProjectGovernancePolicy :=
        { id := current.elim newId (·.id)
          projectId := project.id
          projectRoot := host.resolve project.root
          terms := requestedTerms host req (current.elim {} (·.terms))
          version := current.elim 1 (·.version + 1)
          revisionHistory := current.elim [] (·.revisionHistory) }
      match validateRules host policy.terms with
      | .error e => (.error e, policies)
      | .ok () =>
        let policy := { policy with revisionHistory := policy.revisionHistory ++ [policy.revision] }
        (.ok policy, Function.update policies project.id (some policy))

/-! ## Rules, decisions and their evaluation -/

/-- The digest of canonical JSON text. -/
def binding (host : GovernanceHost) (values : Json) : String :=
  host.sha256 (utf8 (dumps ⟨true, false⟩ values))

/-- Whether a rule applies to an action on artifacts of these kinds. -/
def applies (host : GovernanceHost) (action : String) (artifactKinds : List String)
    (rule : ApprovalPolicyRule) : Bool :=
  upper host.text rule.action == upper host.text action &&
    (rule.artifactKinds.isEmpty ||
      artifactKinds.any fun kind => rule.artifactKinds.contains (upper host.text kind))

def applicableRules (host : GovernanceHost) (policy : ProjectGovernancePolicy) (action : String)
    (artifactKinds : List String) : List ApprovalPolicyRule :=
  policy.terms.approvalRules.filter (applies host action artifactKinds)

def rules (host : GovernanceHost) (policy : ProjectGovernancePolicy) (action : String)
    (artifactKinds : List String) : Except PyError (List ApprovalPolicyRule) :=
  match applicableRules host policy action artifactKinds with
  | [] => .error (.value s!"Project policy has no rule for {upper host.text action} decisions.")
  | rules => .ok rules

def ProjectGovernancePolicy.isTeam (policy : ProjectGovernancePolicy) : Bool :=
  policy.terms.authorityMode == "AUTHENTICATED_TEAM"

/-- The fields of the decisions of one call; each record adds its rule and its
identifier. -/
structure DecisionRequest where
  action : String
  artifactId : String
  artifactKinds : List String
  decision : String
  actor : String
  reason : String
  bindingSha256 : String
  sourceManifestSha256 : Option String := none
  patchSha256 : Option String := none
  requirementsSha256 : Option String := none
  evidenceSha256 : Option String := none
  identity : Option AuthenticatedIdentity := none

def verdictOf (decision : String) : Option Verdict :=
  if decision = "APPROVED" then some .approved
  else if decision = "DENIED" then some .denied
  else none

/-- The roles the actor decides under. -/
def decidingRoles (policy : ProjectGovernancePolicy) (actor : String)
    (identity : Option AuthenticatedIdentity) : Except PyError (List String) :=
  if policy.isTeam then
    match identity with
    | none => .error (.value "Team approval requires an authenticated, unexpired session.")
    | some identity =>
      if actor ≠ identity.subject then
        .error (.value "Actor label does not match the authenticated subject.")
      else if some identity.organizationId ≠ policy.terms.authorityOrganizationId then
        .error (.value "Authenticated identity belongs to a different organization.")
      else .ok (rolesOf policy.terms.authenticatedRoleBindings identity.subject)
  else .ok (rolesOf policy.terms.actorRoles actor)

def decisionRecord (host : GovernanceHost) (policy : ProjectGovernancePolicy)
    (req : DecisionRequest) (verdict : Verdict) (roles : List String) (rule : ApprovalPolicyRule)
    (id : String) : GovernanceDecision :=
  { id := id
    projectId := policy.projectId
    projectRoot := policy.projectRoot
    action := upper host.text req.action
    artifactId := req.artifactId
    decision := verdict
    actor := strip req.actor
    actorRoles := roles
    authenticatedSubject := req.identity.map (·.subject)
    authenticationMethod := req.identity.map (·.authenticationMethod)
    organizationId := req.identity.map (·.organizationId)
    sessionId := req.identity.map (·.sessionId)
    reason := strip req.reason
    policyId := policy.id
    policyVersion := policy.version
    ruleId := rule.id
    bindingSha256 := req.bindingSha256
    sourceManifestSha256 := req.sourceManifestSha256
    patchSha256 := req.patchSha256
    requirementsSha256 := req.requirementsSha256
    evidenceSha256 := req.evidenceSha256 }

/-- The applicable rules whose roles the actor meets. -/
def rulesWithin (roles : List String) (rules : List ApprovalPolicyRule) : List ApprovalPolicyRule :=
  rules.filter fun rule => rule.requiredRoles.isEmpty || rule.requiredRoles.any roles.contains

/-- `record_decisions`; `newId` draws the identifier of the record of a rule. -/
def recordDecisions (host : GovernanceHost) (policy : ProjectGovernancePolicy)
    (req : DecisionRequest) (newId : String → String) :
    Except PyError (List GovernanceDecision) :=
  match verdictOf (upper host.text req.decision) with
  | none => .error (.value "Governance decisions require an actor, reason, and APPROVED or DENIED decision.")
  | some verdict => do
    if isBlankText req.actor || isBlankText req.reason then
      throw (.value "Governance decisions require an actor, reason, and APPROVED or DENIED decision.")
    let rules ← rules host policy (upper host.text req.action) req.artifactKinds
    let roles ← decidingRoles policy (strip req.actor) req.identity
    let records := (rulesWithin roles rules).map fun rule =>
      decisionRecord host policy req verdict roles rule (newId rule.id)
    if records.isEmpty then
      throw (.value ("Actor lacks a role required by the applicable policy rules: " ++
        ", ".intercalate (sortedSet (rules.flatMap (·.requiredRoles)))))
    return records

/-- Whether a decision names this action and the present policy version and
binding. -/
def isCurrent (host : GovernanceHost) (policy : ProjectGovernancePolicy) (action bindingSha256 : String)
    (rule : ApprovalPolicyRule) (item : GovernanceDecision) : Bool :=
  item.action == upper host.text action && item.ruleId == rule.id &&
    item.policyId == policy.id && item.policyVersion == policy.version &&
    item.bindingSha256 == bindingSha256

/-- Whether a decision was made by an authenticated subject of the organization. -/
def isAuthenticated (policy : ProjectGovernancePolicy) (item : GovernanceDecision) : Bool :=
  item.authenticatedSubject == some item.actor &&
    item.organizationId == policy.terms.authorityOrganizationId &&
    item.authenticationMethod.elim false (· != "")

/-- The decisions that count towards a rule. -/
def candidates (host : GovernanceHost) (policy : ProjectGovernancePolicy)
    (action bindingSha256 : String) (history : List GovernanceDecision)
    (rule : ApprovalPolicyRule) : List GovernanceDecision :=
  let approved := history.filter fun item =>
    isCurrent host policy action bindingSha256 rule item && item.decision == .approved
  if policy.isTeam then approved.filter (isAuthenticated policy) else approved

def countedActors (items : List GovernanceDecision) : List String := (items.map (·.actor)).dedup

def missingFor (host : GovernanceHost) (policy : ProjectGovernancePolicy)
    (action bindingSha256 : String) (history : List GovernanceDecision)
    (rule : ApprovalPolicyRule) : List String :=
  let items := candidates host policy action bindingSha256 history rule
  let actors := (countedActors items).length
  (if actors < rule.minimumApprovals then
      [s!"{rule.id}: {rule.minimumApprovals - actors} additional independent approval(s)"]
    else []) ++
    (rule.requiredRoles.filter fun role => !items.any (·.actorRoles.contains role)).map
      fun role => s!"{rule.id}: reviewer role {role}"

/-- Why decisions of this action no longer count. -/
def expiredReasons (host : GovernanceHost) (policy : ProjectGovernancePolicy)
    (action bindingSha256 : String) (history : List GovernanceDecision) : List String :=
  distinct ((history.filter (·.action == upper host.text action)).filterMap fun item =>
    if item.policyId ≠ policy.id ∨ item.policyVersion ≠ policy.version then
      some s!"{item.id}: policy version changed"
    else if item.bindingSha256 ≠ bindingSha256 then
      some s!"{item.id}: bound source, patch, requirements, or evidence changed"
    else none)

/-- What an evaluation reports. -/
structure Evaluation where
  approved : Bool
  missing : List String
  expired : List String
  deriving DecidableEq

def evaluate (host : GovernanceHost) (policy : ProjectGovernancePolicy) (action : String)
    (artifactKinds : List String) (bindingSha256 : String) (history : List GovernanceDecision) :
    Except PyError Evaluation :=
  match rules host policy action artifactKinds with
  | .error e => .error e
  | .ok rules =>
    let missing := rules.flatMap (missingFor host policy action bindingSha256 history)
    .ok ⟨missing.isEmpty, missing, expiredReasons host policy action bindingSha256 history⟩

end RlmGraph.Governance.Policy
