import RlmGraph.Governance.ArtifactKinds
import RlmGraph.Lib.Results

/-! # The letter case of artifact kinds

`rules` writes the kinds of the changed paths in upper case and compares them
with the kinds of a rule as these were configured. A rule scoped to one of the
kinds of the paths therefore applies in upper case and not in another. -/
namespace RlmGraph.Governance.KindCase
open RlmGraph.Lib RlmGraph.Lib.PyText RlmGraph.Governance.Policy RlmGraph.Governance.ArtifactKinds

/-- The same rule, its kinds written in another letter case. -/
structure Recased (text : CaseTables) (rule rule' : ApprovalPolicyRule) : Prop where
  kinds : List.Forall₂ (fun kind kind' => upper text kind' = upper text kind)
    rule.artifactKinds rule'.artifactKinds
  others : rule' = { rule with artifactKinds := rule'.artifactKinds }

/-- What `rules` is asked for: the plan of a ticket, the promotion of a patch,
or the attestation of one validation decision. -/
inductive Stage where
  | plan
  | promotion
  | attestation (decision : SandboxValidationDecision)

/-- The action a stage is decided under. -/
def Stage.action : Stage → String
  | .plan => "PLAN"
  | .promotion => "PROMOTION"
  | .attestation _ => "ATTESTATION"

/-- How the sandbox classifies the changed paths. -/
structure Classifier where
  fileName : String → String
  index : ProjectIndex
  newId : String → String
  commandedPython : String → Bool

/-- The kinds that a stage selects its rules by. -/
def Stage.kinds (text : CaseTables) (c : Classifier) (paths : List String) : Stage → List String
  | .plan => artifactKinds ⟨text, c.fileName⟩ paths
  | .promotion => promotionKinds
      (validationDecisions ⟨text, c.fileName⟩ c.index c.newId c.commandedPython paths)
  | .attestation decision => [decision.artifactKind]

/-- The rules that `rules` selects, by their identifiers. -/
def selectedIds (host : GovernanceHost) (policy : ProjectGovernancePolicy) (action : String)
    (kinds : List String) : Except PyError (List String) :=
  (rules host policy action kinds).map (·.map (·.id))

variable {host : GovernanceHost} {act : String} {kinds : List String}
  {rule rule' : ApprovalPolicyRule} {rs rs' : List ApprovalPolicyRule}
  {policy policy' : ProjectGovernancePolicy} {projects : List ProjectRecord}
  {newId projectId : String} {req : PolicyRequest} {policies policies' : PolicyTable}

theorem Recased.id (h : Recased host.text rule rule') : rule'.id = rule.id := by rw [h.others]

theorem Recased.action (h : Recased host.text rule rule') : rule'.action = rule.action := by
  rw [h.others]

/-- The rule with each kind rewritten to another letter case. -/
def recase (f : String → String) (rule : ApprovalPolicyRule) : ApprovalPolicyRule :=
  { rule with artifactKinds := rule.artifactKinds.map f }

theorem recased_recase {f : String → String} (hf : ∀ kind, upper host.text (f kind) = upper host.text kind)
    (rule : ApprovalPolicyRule) : Recased host.text rule (recase f rule) where
  kinds := List.forall₂_map_right_iff.mpr (List.forall₂_same.mpr fun kind _ => hf kind)
  others := rfl

theorem forall₂_recase {f : String → String} (hf : ∀ kind, upper host.text (f kind) = upper host.text kind)
    (rs : List ApprovalPolicyRule) : List.Forall₂ (Recased host.text) rs (rs.map (recase f)) :=
  List.forall₂_map_right_iff.mpr (List.forall₂_same.mpr fun rule _ => recased_recase hf rule)

/-! ## Acceptance -/

theorem map_id_of_recased (h : List.Forall₂ (Recased host.text) rs rs') :
    rs'.map (·.id) = rs.map (·.id) := by
  induction h with
  | nil => rfl
  | cons hrule _ ih => rw [List.map_cons, List.map_cons, hrule.id, ih]

theorem map_action_of_recased (h : List.Forall₂ (Recased host.text) rs rs') :
    rs'.map (·.action) = rs.map (·.action) := by
  induction h with
  | nil => rfl
  | cons hrule _ ih => rw [List.map_cons, List.map_cons, hrule.action, ih]

/-- Acceptance does not look at the kinds. -/
theorem validateRules_recased {terms : PolicyTerms}
    (h : List.Forall₂ (Recased host.text) terms.approvalRules rs') :
    validateRules host { terms with approvalRules := rs' } = validateRules host terms := by
  have hall : ∀ a, (rs'.all fun rule => upper host.text rule.action != a) =
      terms.approvalRules.all fun rule => upper host.text rule.action != a := by
    intro a
    have hmap : ∀ rules : List ApprovalPolicyRule,
        (rules.all fun rule => upper host.text rule.action != a) =
          (rules.map (·.action)).all fun name => upper host.text name != a := by
      intro rules
      rw [List.all_map]
      rfl
    rw [hmap, hmap, map_action_of_recased h]
  unfold validateRules
  simp only [map_id_of_recased h, hall]

/-- What `configure` accepts, it accepts with the kinds in another letter case. -/
theorem configure_recased
    (hok : configure host projects newId projectId req policies = (.ok policy, policies'))
    (h : List.Forall₂ (Recased host.text) policy.terms.approvalRules rs') :
    ∃ policy' policies'', configure host projects newId projectId
        { req with approvalRules := some rs' } policies = (.ok policy', policies'') ∧
      policy'.terms.approvalRules = rs' := by
  unfold configure at hok ⊢
  cases hproject : governedProject host projects projectId with
  | error e =>
    rw [hproject] at hok
    cases hok
  | ok project =>
    rw [hproject] at hok
    have hrequest : validateRequest { req with approvalRules := some rs' } = validateRequest req := rfl
    dsimp only at hok ⊢
    rw [hrequest]
    cases hvalid : validateRequest req with
    | error e =>
      rw [hvalid] at hok
      cases hok
    | ok u =>
      rw [hvalid] at hok
      dsimp only at hok ⊢
      have hterms : ∀ current : PolicyTerms,
          requestedTerms host { req with approvalRules := some rs' } current =
            { requestedTerms host req current with approvalRules := rs' } := fun _ => rfl
      rw [hterms]
      split at hok
      · cases hok
      · rename_i hrules
        obtain ⟨hpolicy, -⟩ := Prod.mk.inj hok
        obtain rfl := Except.ok.inj hpolicy
        rw [validateRules_recased h, hrules]
        exact ⟨_, _, rfl, rfl⟩

theorem validateRules_ids {terms : PolicyTerms} (h : validateRules host terms = .ok ()) :
    (terms.approvalRules.map (·.id)).Nodup := by
  unfold validateRules at h
  split at h
  · cases h
  · split at h
    · cases h
    · split at h
      · cases h
      · split at h
        · cases h
        · rename_i hids
          exact not_not.mp hids

/-- The identifiers of the rules of an accepted policy are its own. -/
theorem accepted_ids
    (hok : configure host projects newId projectId req policies = (.ok policy, policies')) :
    (policy.terms.approvalRules.map (·.id)).Nodup := by
  unfold configure at hok
  split at hok
  · cases hok
  · split at hok
    · cases hok
    · dsimp only at hok
      split at hok
      · cases hok
      · rename_i hrules
        obtain ⟨hpolicy, -⟩ := Prod.mk.inj hok
        obtain rfl := Except.ok.inj hpolicy
        exact validateRules_ids hrules

/-! ## Selection -/

/-- What `rules` returns, or that it raises, is known by the rules that apply. -/
theorem selectedIds_eq_iff :
    selectedIds host policy' act kinds = selectedIds host policy act kinds ↔
      (applicableRules host policy' act kinds).map (·.id) =
        (applicableRules host policy act kinds).map (·.id) := by
  unfold selectedIds rules
  cases applicableRules host policy' act kinds with
  | nil =>
    cases applicableRules host policy act kinds with
    | nil => exact iff_of_true rfl rfl
    | cons rule rules => simp [Except.map]
  | cons rule rules =>
    cases applicableRules host policy act kinds with
    | nil => simp [Except.map]
    | cons rule' rules' => simp [Except.map]

/-- One of the kinds, in upper case, is this text. -/
def Met (host : GovernanceHost) (kinds : List String) (text : String) : Prop :=
  ∃ kind ∈ kinds, upper host.text kind = text

/-- A rule is scoped, in some letter case, to one of the kinds. -/
def Names (host : GovernanceHost) (kinds : List String) (rule : ApprovalPolicyRule) : Prop :=
  ∃ kind ∈ rule.artifactKinds, ∃ spelling, upper host.text spelling = upper host.text kind ∧
    Met host kinds spelling

/-- A rule is scoped to a kind whose every spelling is one of the kinds: a name
without letters. -/
def Caseless (host : GovernanceHost) (kinds : List String) (rule : ApprovalPolicyRule) : Prop :=
  ∃ kind ∈ rule.artifactKinds, ∀ spelling, upper host.text spelling = upper host.text kind →
    Met host kinds spelling

theorem applies_iff : applies host act kinds rule = true ↔
    upper host.text rule.action = upper host.text act ∧ (rule.artifactKinds = [] ∨
      ∃ kind ∈ rule.artifactKinds, Met host kinds kind) := by
  have hmet : (kinds.any fun kind => rule.artifactKinds.contains (upper host.text kind)) = true ↔
      ∃ kind ∈ rule.artifactKinds, Met host kinds kind := by
    rw [List.any_eq_true]
    constructor
    · rintro ⟨kind, hkind, hmem⟩
      exact ⟨_, List.contains_iff_mem.mp hmem, kind, hkind, rfl⟩
    · rintro ⟨_, hmem, kind, hkind, rfl⟩
      exact ⟨kind, hkind, List.contains_iff_mem.mpr hmem⟩
  rw [applies, Bool.and_eq_true, Bool.or_eq_true, beq_iff_eq, List.isEmpty_iff, hmet]

/-- A rule that names none of the kinds, or a kind without letters, applies in
every letter case or in none. -/
theorem applies_recased (h : Recased host.text rule rule')
    (hnames : upper host.text rule.action = upper host.text act →
      ¬Names host kinds rule ∨ Caseless host kinds rule) :
    applies host act kinds rule' = applies host act kinds rule := by
  have hself : Recased host.text rule rule := ⟨List.forall₂_same.mpr fun _ _ => rfl, rfl⟩
  have hempty : rule'.artifactKinds = [] ↔ rule.artifactKinds = [] := by
    rw [← List.length_eq_zero_iff, ← List.length_eq_zero_iff, h.kinds.length_eq]
  rw [Bool.eq_iff_iff, applies_iff, applies_iff, h.action, hempty]
  refine and_congr_right fun haction => or_congr_right ?_
  rcases hnames haction with hno | ⟨kind, hkind, hall⟩
  · have hnone : ∀ r, Recased host.text rule r → ¬∃ kind ∈ r.artifactKinds, Met host kinds kind := by
      rintro r hr ⟨kind, hkind, hmet⟩
      obtain ⟨written, hwritten, hsame⟩ := Results.mem_of_forall₂ hr.kinds hkind
      exact hno ⟨written, hwritten, kind, hsame, hmet⟩
    exact iff_of_false (hnone rule' h) (hnone rule hself)
  · have hsome : ∀ r, Recased host.text rule r → ∃ kind ∈ r.artifactKinds, Met host kinds kind := by
      intro r hr
      obtain ⟨written, hwritten, hsame⟩ := Results.mem_of_forall₂ hr.kinds.flip hkind
      exact ⟨written, hwritten, hall _ hsame⟩
    exact iff_of_true (hsome rule' h) (hsome rule hself)

theorem selected_recased (h : List.Forall₂ (Recased host.text) rs rs')
    (hnames : ∀ rule ∈ rs, upper host.text rule.action = upper host.text act →
      ¬Names host kinds rule ∨ Caseless host kinds rule) :
    (rs'.filter (applies host act kinds)).map (·.id) =
      (rs.filter (applies host act kinds)).map (·.id) := by
  induction h with
  | nil => rfl
  | @cons rule rule' rs rs' hrule _ ih =>
    have hsame := applies_recased hrule (hnames rule List.mem_cons_self)
    have hrest := ih fun r hr => hnames r (List.mem_cons_of_mem _ hr)
    cases happlies : applies host act kinds rule with
    | true =>
      rw [List.filter_cons_of_pos happlies, List.filter_cons_of_pos (hsame.trans happlies),
        List.map_cons, List.map_cons, hrule.id, hrest]
    | false =>
      have hoff : ¬applies host act kinds rule = true := by
        simp [happlies]
      have hoff' : ¬applies host act kinds rule' = true :=
        hsame ▸ hoff
      rw [List.filter_cons_of_neg hoff', List.filter_cons_of_neg hoff, hrest]

/-! ## Two spellings -/

/-- Each kind in a spelling that `wanted` holds of, where it has one. -/
def Respells (text : CaseTables) (wanted : String → Prop) (f : String → String) : Prop :=
  ∀ kind, upper text (f kind) = upper text kind ∧
    ((∃ spelling, upper text spelling = upper text kind ∧ wanted spelling) → wanted (f kind))

theorem respells_exists (text : CaseTables) (wanted : String → Prop) :
    ∃ f, Respells text wanted f := by
  have hone : ∀ kind, ∃ spelling, upper text spelling = upper text kind ∧
      ((∃ s, upper text s = upper text kind ∧ wanted s) → wanted spelling) := by
    intro kind
    by_cases h : ∃ s, upper text s = upper text kind ∧ wanted s
    · obtain ⟨s, hs, hwanted⟩ := h
      exact ⟨s, hs, fun _ => hwanted⟩
    · exact ⟨kind, rfl, fun hs => absurd hs h⟩
  choose f hf using hone
  exact ⟨f, hf⟩

/-- In the spellings met, a rule that names one of the kinds applies. -/
theorem applies_respelled {f : String → String} (hf : Respells host.text (Met host kinds) f)
    (haction : upper host.text rule.action = upper host.text act)
    (hnames : Names host kinds rule) : applies host act kinds (recase f rule) = true := by
  obtain ⟨kind, hkind, hspelling⟩ := hnames
  exact applies_iff.mpr ⟨haction, Or.inr ⟨f kind, List.mem_map_of_mem hkind, (hf kind).2 hspelling⟩⟩

/-- In spellings that are not met, it does not, unless it names a kind without letters. -/
theorem not_applies_respelled {f : String → String}
    (hf : Respells host.text (¬Met host kinds ·) f) (hnames : Names host kinds rule)
    (hletters : ¬Caseless host kinds rule) : applies host act kinds (recase f rule) = false := by
  obtain ⟨written, hwritten, -⟩ := hnames
  rw [Bool.eq_false_iff]
  intro happlies
  obtain ⟨-, hempty | ⟨_, hspelled, hmet⟩⟩ := applies_iff.mp happlies
  · rw [List.map_eq_nil_iff.mp hempty] at hwritten
    cases hwritten
  · obtain ⟨kind, hkind, rfl⟩ := List.mem_map.mp hspelled
    refine hletters ⟨kind, hkind, fun spelling hspelling => ?_⟩
    by_contra hnot
    exact (hf kind).2 ⟨spelling, hspelling, hnot⟩ hmet

theorem mem_selected {p : ApprovalPolicyRule → Bool} (hids : (rs.map (·.id)).Nodup)
    (hrule : rule ∈ rs) : rule.id ∈ (rs.filter p).map (·.id) ↔ p rule = true := by
  rw [List.mem_map]
  constructor
  · rintro ⟨other, hother, hid⟩
    obtain ⟨hmem, hp⟩ := List.mem_filter.mp hother
    rwa [List.inj_on_of_nodup_map hids hmem hrule hid] at hp
  · exact fun hp => ⟨rule, List.mem_filter.mpr ⟨hrule, hp⟩, rfl⟩

/-- The selection of an accepted policy, by any kinds, is the same in every
letter case exactly when each rule of the action names none of them or names
one without letters. -/
theorem selectedIds_recased_iff (act : String) (kinds : List String)
    (hok : configure host projects newId projectId req policies = (.ok policy, policies')) :
    (∀ rs' policy' policies'', List.Forall₂ (Recased host.text) policy.terms.approvalRules rs' →
      configure host projects newId projectId { req with approvalRules := some rs' } policies =
        (.ok policy', policies'') →
      selectedIds host policy' act kinds = selectedIds host policy act kinds) ↔
    ∀ rule ∈ policy.terms.approvalRules, upper host.text rule.action = upper host.text act →
      ¬Names host kinds rule ∨ Caseless host kinds rule := by
  constructor
  · intro h rule hrule haction
    by_contra hneither
    obtain ⟨hnames, hletters⟩ := not_or.mp hneither
    have hids := accepted_ids hok
    -- in every spelling the rule applies as it does in the configured one
    have hmem : ∀ wanted f, Respells host.text wanted f →
        (applies host act kinds (recase f rule) = true ↔ applies host act kinds rule = true) := by
      intro wanted f hf
      have hrecased := forall₂_recase (fun kind => (hf kind).1) policy.terms.approvalRules
      obtain ⟨policy', policies'', hok', hrules⟩ := configure_recased hok hrecased
      have hsame := selectedIds_eq_iff.mp (h _ _ _ hrecased hok')
      rw [applicableRules, applicableRules, hrules] at hsame
      have hids' : ((policy.terms.approvalRules.map (recase f)).map (·.id)).Nodup := by
        rwa [map_id_of_recased hrecased]
      rw [← mem_selected hids hrule, ← hsame]
      exact (mem_selected hids' (List.mem_map_of_mem hrule)).symm
    obtain ⟨met, hmet⟩ := respells_exists host.text (Met host kinds)
    obtain ⟨unmet, hunmet⟩ := respells_exists host.text (¬Met host kinds ·)
    have happlies := (hmem _ _ hunmet).mpr ((hmem _ _ hmet).mp
      (applies_respelled hmet haction (not_not.mp hnames)))
    rw [not_applies_respelled hunmet (not_not.mp hnames) hletters] at happlies
    cases happlies
  · intro hnames rs' policy' policies'' hrecased hok'
    obtain ⟨policy'', _, hok'', hrules⟩ := configure_recased hok hrecased
    obtain ⟨hpolicy, -⟩ := Prod.mk.inj (hok''.symm.trans hok')
    obtain rfl := Except.ok.inj hpolicy
    rw [selectedIds_eq_iff, applicableRules, applicableRules, hrules]
    exact selected_recased hrecased hnames

/-- **Letter case.** At every stage the selection of an accepted policy is the
same in every letter case of its kinds iff each rule of the stage names none of
the kinds that the stage selects by, or names one without letters. -/
theorem selection_ignores_case_iff (c : Classifier) (paths : List String) (stage : Stage)
    (hok : configure host projects newId projectId req policies = (.ok policy, policies')) :
    (∀ rs' policy' policies'', List.Forall₂ (Recased host.text) policy.terms.approvalRules rs' →
      configure host projects newId projectId { req with approvalRules := some rs' } policies =
        (.ok policy', policies'') →
      selectedIds host policy' stage.action (stage.kinds host.text c paths) =
        selectedIds host policy stage.action (stage.kinds host.text c paths)) ↔
    ∀ rule ∈ policy.terms.approvalRules,
      upper host.text rule.action = upper host.text stage.action →
      ¬Names host (stage.kinds host.text c paths) rule ∨
        Caseless host (stage.kinds host.text c paths) rule :=
  selectedIds_recased_iff stage.action (stage.kinds host.text c paths) hok

/-! ## The names of the source

The kinds of a plan, and those of a changed file that the Unreal index does not
know, have letters: there a rule that names one of them depends on its case. -/

def asciiLower (kind : String) : String := String.ofList (kind.toList.map Char.toLower)

theorem asciiLower_names : ∀ name ∈ planNames ++ fallbackNames,
    asciiLower name ∉ planNames ++ fallbackNames := by decide

theorem upper_asciiLower (text : CaseTables) :
    ∀ name ∈ planNames ++ fallbackNames, upper text (asciiLower name) = name := by
  intro name hname
  have hascii : ∀ n ∈ planNames ++ fallbackNames, isAscii (asciiLower n) = true ∧
      String.ofList ((asciiLower n).toList.map Char.toUpper) = n := by decide
  obtain ⟨hall, hupper⟩ := hascii name hname
  rw [upper, if_pos hall, hupper]

theorem not_caseless (h : ∀ kind ∈ kinds, kind ∈ planNames ++ fallbackNames) :
    ¬Caseless host kinds rule := by
  have hmet : ∀ text, Met host kinds text → text ∈ planNames ++ fallbackNames := by
    rintro _ ⟨kind, hkind, rfl⟩
    rw [upper_names host.text kind (h kind hkind)]
    exact h kind hkind
  rintro ⟨kind, -, hall⟩
  have hname := hmet kind (hall kind rfl)
  have hlower := hall (asciiLower kind)
    ((upper_asciiLower host.text kind hname).trans (upper_names host.text kind hname).symm)
  exact asciiLower_names kind hname (hmet _ hlower)

theorem plan_not_caseless {c : Classifier} {paths : List String} :
    ¬Caseless host (Stage.plan.kinds host.text c paths) rule := by
  refine not_caseless fun kind hkind => ?_
  obtain ⟨path, -, rfl⟩ := List.mem_map.mp (mem_sortedSet.mp hkind)
  exact List.mem_append_left _ (plannedKind_mem _ path)

theorem promotion_not_caseless {c : Classifier} {paths : List String}
    (h : ∀ path ∈ paths, c.index.unrealKind path = none) :
    ¬Caseless host (Stage.promotion.kinds host.text c paths) rule := by
  refine not_caseless fun kind hkind => ?_
  obtain ⟨path, hpath, rfl⟩ := mem_promotionKinds.mp hkind
  rw [classifiedKind, h path hpath]
  exact List.mem_append_right _ (fallbackArtifactKind_mem _ path _)

theorem single_approval : 1 ≤ 1 := le_rfl

/-- The rules of a policy that asks for a second approval of Python plans. -/
def pythonRules (kind : String) : List ApprovalPolicyRule :=
  [{ id := "PLAN-APPROVAL", action := "PLAN", positive := single_approval },
    { id := "PROMOTION-APPROVAL", action := "PROMOTION", positive := single_approval },
    { id := "VALIDATION-ATTESTATION", action := "ATTESTATION", positive := single_approval },
    { id := "PYTHON-PLAN", action := "PLAN", artifactKinds := [kind], positive := single_approval }]

def pythonRequest (kind : String) : PolicyRequest where
  permittedWorkerIds := ["*"]
  requiredValidationCategories := []
  planApprovers := ["*"]
  promotionApprovers := ["*"]
  maxTicketBudget := {}
  actor := "owner"
  reason := "Python plans need a second approval."
  approvalRules := some (pythonRules kind)

/-- The policy that `configure` accepts. -/
def pythonPolicy (kind : String) : Except PyError ProjectGovernancePolicy × PolicyTable :=
  configure plainGovernance [⟨"p", "/p", true, true⟩] "POLICY" "p" (pythonRequest kind) fun _ => none

/-- No index; a file is its own name. -/
def plainClassifier : Classifier := ⟨id, noIndex, id, fun _ => false⟩

theorem selection_ignores_case_iff_python :
    ∃ policy policies', pythonPolicy "PYTHON" = (.ok policy, policies') ∧
      ((∀ rs' policy' policies'',
        List.Forall₂ (Recased plainGovernance.text) policy.terms.approvalRules rs' →
        configure plainGovernance [⟨"p", "/p", true, true⟩] "POLICY" "p"
          { pythonRequest "PYTHON" with approvalRules := some rs' } (fun _ => none) =
            (.ok policy', policies'') →
        selectedIds plainGovernance policy' Stage.plan.action
            (Stage.plan.kinds plainGovernance.text plainClassifier ["a.py"]) =
          selectedIds plainGovernance policy Stage.plan.action
            (Stage.plan.kinds plainGovernance.text plainClassifier ["a.py"])) ↔
      ∀ rule ∈ policy.terms.approvalRules,
        upper plainGovernance.text rule.action = upper plainGovernance.text Stage.plan.action →
        ¬Names plainGovernance (Stage.plan.kinds plainGovernance.text plainClassifier ["a.py"]) rule ∨
          Caseless plainGovernance
            (Stage.plan.kinds plainGovernance.text plainClassifier ["a.py"]) rule) :=
  ⟨_, _, rfl, selection_ignores_case_iff plainClassifier ["a.py"] .plan rfl⟩

/-- **A rule for Python in lower case applies to no Python file.** -/
theorem python_in_lower_case_is_not_selected :
    ∃ policy policies' policy' policies'', pythonPolicy "PYTHON" = (.ok policy, policies') ∧
      pythonPolicy "python" = (.ok policy', policies'') ∧
      List.Forall₂ (Recased plainGovernance.text) policy.terms.approvalRules
        policy'.terms.approvalRules ∧
      selectedIds plainGovernance policy' "PLAN" (artifactKinds ⟨plainGovernance.text, id⟩ ["a.py"]) ≠
        selectedIds plainGovernance policy "PLAN" (artifactKinds ⟨plainGovernance.text, id⟩ ["a.py"]) := by
  refine ⟨_, _, _, _, rfl, rfl, ?_, ?_⟩
  · have hkinds : upper plainGovernance.text "python" = upper plainGovernance.text "PYTHON" := by
      decide
    exact .cons ⟨.nil, rfl⟩ (.cons ⟨.nil, rfl⟩ (.cons ⟨.nil, rfl⟩
      (.cons ⟨.cons hkinds .nil, rfl⟩ .nil)))
  · rw [Ne, selectedIds_eq_iff]
    decide +kernel

end RlmGraph.Governance.KindCase
