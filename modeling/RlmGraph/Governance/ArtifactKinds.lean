import RlmGraph.Governance.Policy

/-! # Artifact kinds at planning and at promotion

The plan of a ticket names the kinds of its files by their suffix
(`artifactKinds`); the sandbox names the kind of each changed file by the
Unreal index, and without an entry there by name, suffix and language
(`validationDecisions`). Rules are selected by either set of names. The two
vocabularies share `PYTHON` and `CONFIG` only; `sameSelection_iff` says for
which lists of paths the two stages select alike. -/
namespace RlmGraph.Governance.ArtifactKinds
open RlmGraph.Lib RlmGraph.Lib.JsonText RlmGraph.Lib.PyText RlmGraph.Governance.Policy

/-- `Path(path).name` and the case tables. -/
structure PathHost where
  text : CaseTables
  fileName : String → String

/-! ## Planning -/

def planTable : List (String × String) :=
  [(".py", "PYTHON"), (".pyi", "PYTHON"), (".cpp", "CPP"), (".cc", "CPP"), (".cxx", "CPP"),
    (".h", "CPP"), (".hpp", "CPP"), (".uasset", "UNREAL_ASSET"), (".umap", "UNREAL_MAP"),
    (".ini", "CONFIG"), (".json", "CONFIG"), (".uproject", "UNREAL_PROJECT"),
    (".uplugin", "UNREAL_PLUGIN")]

def lowerSuffix (host : PathHost) (path : String) : String :=
  lower host.text (suffix (host.fileName path))

def plannedKind (host : PathHost) (path : String) : String :=
  (planTable.lookup (lowerSuffix host path)).getD "FILE"

/-- `artifact_kinds`. -/
def artifactKinds (host : PathHost) (paths : List String) : List String :=
  sortedSet (paths.map (plannedKind host))

/-! ## Promotion -/

structure Evidence where
  path : String
  detail : String
  line : Option Int := none
  deriving DecidableEq

structure SandboxValidationDecision where
  id : String
  path : String
  artifactKind : String
  category : String
  requirement : String
  status : String
  requiresUnrealEditor : Bool := false
  workerExecutionId : Option String := none
  externalReportId : Option String := none
  evidence : List Evidence := []
  satisfiedBy : Option String := none
  attestationHistory : List GovernanceDecision := []
  attestationMissing : List String := []
  deriving DecidableEq

/-- What the store knows of the files of a project, by path: the kind of the
Unreal artifact, and the language of the indexed file. -/
structure ProjectIndex where
  unrealKind : String → Option String
  language : String → Option String

def fallbackTable (path : String) : List (String × String) :=
  [(".cpp", "CPP_SOURCE"), (".h", "CPP_HEADER"), (".py", "PYTHON"),
    (".uasset", if hasPart ("/" ++ path) "/Blueprints/" then "BLUEPRINT" else "ASSET"),
    (".umap", "MAP"), (".ini", "CONFIG"), (".uproject", "PROJECT_DESCRIPTOR"),
    (".uplugin", "PLUGIN_DESCRIPTOR")]

def foldedSuffix (host : PathHost) (path : String) : String :=
  casefold host.text (suffix (host.fileName path))

def fallbackArtifactKind (host : PathHost) (path : String) (language : Option String) : String :=
  if endsWith (host.fileName path) ".Build.cs" then "MODULE_RULES"
  else if endsWith (host.fileName path) ".Target.cs" then "TARGET_RULES"
  else ((fallbackTable path).lookup (foldedSuffix host path)).getD
    (if language = some "python" then "PYTHON" else "OTHER")

def classifiedKind (host : PathHost) (index : ProjectIndex) (path : String) : String :=
  (index.unrealKind path).getD (fallbackArtifactKind host path (index.language path))

/-- How a changed file of a kind is to be validated. -/
structure ValidationRoute where
  category : String
  requirement : String
  status : String
  editor : Bool

def validationRoute (kind : String) (commanded : Bool) : ValidationRoute :=
  if kind ∈ ["CPP_SOURCE", "CPP_HEADER", "MODULE_RULES", "TARGET_RULES"] then
    ⟨"COMPILE", "Compile the affected Unreal target/module in a separately bounded worker before promotion.", "REQUIRED", false⟩
  else if kind ∈ ["BLUEPRINT", "MAP", "ASSET"] then
    ⟨"UNREAL_EDITOR", "Open and validate the affected artifact in Unreal Editor, including references and load/save integrity.", "REQUIRED", true⟩
  else if kind ∈ ["CONFIG", "PROJECT_DESCRIPTOR", "PLUGIN_DESCRIPTOR"] then
    ⟨"UNREAL_EDITOR_CONFIG", "Validate configuration parsing and affected project/plugin behavior in Unreal Editor.", "REQUIRED", true⟩
  else if kind = "PYTHON" ∧ commanded = true then
    ⟨"PYTHON_TEST", "Run the indexed targeted Python test under the ticket wall-time budget.", "PENDING", false⟩
  else if kind = "PYTHON" then
    ⟨"PYTHON_TEST", "No indexed targeted Python test is available in the authorized slice; add or identify one before promotion.", "REQUIRED", false⟩
  else ⟨"REVIEW", "Perform artifact-specific human review before promotion.", "REQUIRED", false⟩

/-- `_validation_decisions`: one decision for each changed path. `newId` draws
the identifier of a decision. -/
def validationDecisions (host : PathHost) (index : ProjectIndex) (newId : String → String)
    (commandedPython : String → Bool) (changedPaths : List String) :
    List SandboxValidationDecision :=
  changedPaths.map fun path =>
    let kind := classifiedKind host index path
    let route := validationRoute kind (commandedPython path)
    { id := newId path
      path := path
      artifactKind := kind
      category := route.category
      requirement := route.requirement
      status := route.status
      requiresUnrealEditor := route.editor
      evidence := [{
        path := path
        detail := if (index.unrealKind path).isSome then
            s!"Validation route classified from Unreal index metadata as {kind}."
          else s!"Validation route classified from indexed path metadata as {kind}." }] }

/-- The kinds the rules of a promotion are selected by. -/
def promotionKinds (decisions : List SandboxValidationDecision) : List String :=
  sortedSet (decisions.map (·.artifactKind))

theorem mem_promotionKinds {host : PathHost} {index : ProjectIndex} {newId : String → String}
    {commanded : String → Bool} {paths : List String} {kind : String} :
    kind ∈ promotionKinds (validationDecisions host index newId commanded paths) ↔
      ∃ path ∈ paths, classifiedKind host index path = kind := by
  simp [promotionKinds, validationDecisions]

/-! ## The two vocabularies -/

/-- The suffix of a path is planned under a name. -/
def PlannedAs (host : PathHost) (name path : String) : Prop :=
  (lowerSuffix host path, name) ∈ planTable ∨
    (name = "FILE" ∧ ∀ entry ∈ planTable, entry.1 ≠ lowerSuffix host path)

/-- A path without an index entry that the sandbox takes for Python. -/
structure TakenForPython (host : PathHost) (index : ProjectIndex) (path : String) : Prop where
  unindexed : index.unrealKind path = none
  notModule : endsWith (host.fileName path) ".Build.cs" = false
  notTarget : endsWith (host.fileName path) ".Target.cs" = false
  python : foldedSuffix host path = ".py" ∨
    (index.language path = some "python" ∧
      ∀ entry ∈ fallbackTable path, entry.1 ≠ foldedSuffix host path)

/-- A path without an index entry that the sandbox takes for configuration. -/
structure TakenForConfig (host : PathHost) (index : ProjectIndex) (path : String) : Prop where
  unindexed : index.unrealKind path = none
  notModule : endsWith (host.fileName path) ".Build.cs" = false
  notTarget : endsWith (host.fileName path) ".Target.cs" = false
  config : foldedSuffix host path = ".ini"

theorem lookup_eq_none_iff {β : Type} {table : List (String × β)} {key : String} :
    table.lookup key = none ↔ ∀ entry ∈ table, entry.1 ≠ key := by
  induction table with
  | nil => simp
  | cons entry table ih =>
    obtain ⟨k, v⟩ := entry
    by_cases hk : key = k
    · simp [List.lookup, hk]
    · have hb : (key == k) = false := by simpa using hk
      simp [List.lookup, hb, ih, Ne.symm hk]

theorem plannedKind_eq_iff {host : PathHost} {name path : String} :
    plannedKind host path = name ↔ PlannedAs host name path := by
  have hkeys : (planTable.map Prod.fst).Nodup := by decide
  unfold plannedKind PlannedAs
  rw [← lookup_eq_some_iff hkeys (lowerSuffix host path) name, ← lookup_eq_none_iff]
  cases planTable.lookup (lowerSuffix host path) with
  | some planned => simp
  | none => simp [eq_comm]

def planNames : List String :=
  ["PYTHON", "CPP", "UNREAL_ASSET", "UNREAL_MAP", "CONFIG", "UNREAL_PROJECT", "UNREAL_PLUGIN", "FILE"]

def fallbackNames : List String :=
  ["MODULE_RULES", "TARGET_RULES", "CPP_SOURCE", "CPP_HEADER", "PYTHON", "BLUEPRINT", "ASSET", "MAP",
    "CONFIG", "PROJECT_DESCRIPTOR", "PLUGIN_DESCRIPTOR", "OTHER"]

/-- **The names the two stages share.** -/
theorem shared_names : ∀ name ∈ fallbackNames, name ∈ planNames → name = "PYTHON" ∨ name = "CONFIG" := by
  decide

theorem plannedKind_mem (host : PathHost) (path : String) : plannedKind host path ∈ planNames := by
  have htable : ∀ entry ∈ planTable, entry.2 ∈ planNames := by decide
  rcases plannedKind_eq_iff.mp (Eq.refl (plannedKind host path)) with hmem | ⟨hfile, -⟩
  · exact htable _ hmem
  · rw [hfile]; decide

theorem fallbackTable_keys (path : String) : ((fallbackTable path).map Prod.fst).Nodup := by
  simp [fallbackTable]

theorem fallbackTable_names {path : String} {entry : String × String}
    (h : entry ∈ fallbackTable path) : entry.2 ∈ fallbackNames := by
  unfold fallbackTable at h
  by_cases hpart : hasPart ("/" ++ path) "/Blueprints/" = true
  · rw [if_pos hpart] at h
    revert entry
    decide
  · rw [if_neg hpart] at h
    revert entry
    decide

theorem fallbackArtifactKind_mem (host : PathHost) (path : String) (language : Option String) :
    fallbackArtifactKind host path language ∈ fallbackNames := by
  unfold fallbackArtifactKind
  split
  · decide
  · split
    · decide
    · cases h : (fallbackTable path).lookup (foldedSuffix host path) with
      | some name =>
        exact fallbackTable_names ((lookup_eq_some_iff (fallbackTable_keys path) _ _).mp h)
      | none => rw [Option.getD_none]; split <;> decide

theorem upper_names (text : CaseTables) : ∀ name ∈ planNames ++ fallbackNames, upper text name = name := by
  intro name hname
  have hascii : ∀ n ∈ planNames ++ fallbackNames, isAscii n = true ∧
      String.ofList (n.toList.map Char.toUpper) = n := by decide
  obtain ⟨hall, hupper⟩ := hascii name hname
  rw [upper, if_pos hall, hupper]

/-! ## Which paths the sandbox takes for Python and for configuration -/

/-- The values of the fallback table under each suffix. -/
theorem fallback_of_suffix {host : PathHost} {path : String} {language : Option String}
    (hmodule : endsWith (host.fileName path) ".Build.cs" = false)
    (htarget : endsWith (host.fileName path) ".Target.cs" = false) :
    fallbackArtifactKind host path language =
      ((fallbackTable path).lookup (foldedSuffix host path)).getD
        (if language = some "python" then "PYTHON" else "OTHER") := by
  rw [fallbackArtifactKind, hmodule, htarget]
  rfl

theorem fallback_not_rules {host : PathHost} {path : String} {language : Option String}
    {name : String} (h : fallbackArtifactKind host path language = name)
    (hname : name ≠ "MODULE_RULES" ∧ name ≠ "TARGET_RULES") :
    endsWith (host.fileName path) ".Build.cs" = false ∧
      endsWith (host.fileName path) ".Target.cs" = false := by
  unfold fallbackArtifactKind at h
  split at h
  · exact absurd h.symm hname.1
  · rename_i hmodule
    split at h
    · exact absurd h.symm hname.2
    · rename_i htarget
      exact ⟨by simpa using hmodule, by simpa using htarget⟩

theorem fallbackTable_python (path : String) {suffix : String} :
    (suffix, "PYTHON") ∈ fallbackTable path ↔ suffix = ".py" := by
  by_cases hpart : hasPart ("/" ++ path) "/Blueprints/" = true <;> simp [fallbackTable, hpart]

theorem fallbackTable_config (path : String) {suffix : String} :
    (suffix, "CONFIG") ∈ fallbackTable path ↔ suffix = ".ini" := by
  by_cases hpart : hasPart ("/" ++ path) "/Blueprints/" = true <;> simp [fallbackTable, hpart]

theorem takenForPython_iff {host : PathHost} {index : ProjectIndex} {path : String}
    (hindex : index.unrealKind path = none) :
    fallbackArtifactKind host path (index.language path) = "PYTHON" ↔
      TakenForPython host index path := by
  have hkeys := fallbackTable_keys path
  have hlookup : ((fallbackTable path).lookup (foldedSuffix host path)).getD
        (if index.language path = some "python" then "PYTHON" else "OTHER") = "PYTHON" ↔
      foldedSuffix host path = ".py" ∨ (index.language path = some "python" ∧
        ∀ entry ∈ fallbackTable path, entry.1 ≠ foldedSuffix host path) := by
    rw [← fallbackTable_python path, ← lookup_eq_some_iff hkeys, ← lookup_eq_none_iff]
    cases (fallbackTable path).lookup (foldedSuffix host path) <;> simp
  constructor
  · intro h
    obtain ⟨hmodule, htarget⟩ := fallback_not_rules h (by decide)
    rw [fallback_of_suffix hmodule htarget] at h
    exact ⟨hindex, hmodule, htarget, hlookup.mp h⟩
  · intro h
    rw [fallback_of_suffix h.notModule h.notTarget]
    exact hlookup.mpr h.python

theorem takenForConfig_iff {host : PathHost} {index : ProjectIndex} {path : String}
    (hindex : index.unrealKind path = none) :
    fallbackArtifactKind host path (index.language path) = "CONFIG" ↔
      TakenForConfig host index path := by
  have hkeys := fallbackTable_keys path
  have hlookup : ((fallbackTable path).lookup (foldedSuffix host path)).getD
        (if index.language path = some "python" then "PYTHON" else "OTHER") = "CONFIG" ↔
      foldedSuffix host path = ".ini" := by
    rw [← fallbackTable_config path, ← lookup_eq_some_iff hkeys]
    cases (fallbackTable path).lookup (foldedSuffix host path) with
    | some name => simp
    | none => by_cases hl : index.language path = some "python" <;> simp [hl]
  constructor
  · intro h
    obtain ⟨hmodule, htarget⟩ := fallback_not_rules h (by decide)
    rw [fallback_of_suffix hmodule htarget] at h
    exact ⟨hindex, hmodule, htarget, hlookup.mp h⟩
  · intro h
    rw [fallback_of_suffix h.notModule h.notTarget]
    exact hlookup.mpr h.config

/-! ## Selection of rules -/

/-- A rule pair keyed on the same artifact kinds is selected at planning
exactly when it is selected at promotion, under every policy. -/
def SameSelection (gov : GovernanceHost) (fileName : String → String) (index : ProjectIndex)
    (paths : List String) : Prop :=
  ∀ (newId : String → String) (commandedPython : String → Bool) (policy : ProjectGovernancePolicy),
    ∀ planRule ∈ policy.terms.approvalRules, ∀ promotionRule ∈ policy.terms.approvalRules,
      upper gov.text planRule.action = "PLAN" → upper gov.text promotionRule.action = "PROMOTION" →
      planRule.artifactKinds = promotionRule.artifactKinds →
      (planRule ∈ applicableRules gov policy "PLAN" (artifactKinds ⟨gov.text, fileName⟩ paths) ↔
        promotionRule ∈ applicableRules gov policy "PROMOTION" (promotionKinds
          (validationDecisions ⟨gov.text, fileName⟩ index newId commandedPython paths)))

/-- When the two stages name the same kinds, path by path through the list:
an indexed kind is the planning name of some path; a path without an index
entry is taken for Python or for configuration, and some path has a suffix
planned so; and a path is planned as Python or configuration where some path is
taken so, or under a name that some path is indexed under. -/
structure SameNames (host : PathHost) (index : ProjectIndex) (paths : List String) : Prop where
  indexed : ∀ path ∈ paths, ∀ kind, index.unrealKind path = some kind →
    ∃ other ∈ paths, PlannedAs host (upper host.text kind) other
  unindexed : ∀ path ∈ paths, index.unrealKind path = none →
    (TakenForPython host index path ∧ ∃ other ∈ paths, PlannedAs host "PYTHON" other) ∨
    (TakenForConfig host index path ∧ ∃ other ∈ paths, PlannedAs host "CONFIG" other)
  planned : ∀ path ∈ paths,
    (PlannedAs host "PYTHON" path ∧ ∃ other ∈ paths, TakenForPython host index other) ∨
    (PlannedAs host "CONFIG" path ∧ ∃ other ∈ paths, TakenForConfig host index other) ∨
    ∃ other ∈ paths, ∃ kind, index.unrealKind other = some kind ∧
      PlannedAs host (upper host.text kind) path

/-- The kind names met at planning and at promotion. -/
def SameKindSets (host : PathHost) (index : ProjectIndex) (paths : List String) : Prop :=
  ∀ name, (∃ path ∈ paths, plannedKind host path = name) ↔
    ∃ path ∈ paths, upper host.text (classifiedKind host index path) = name

theorem upper_classifiedKind (host : PathHost) (index : ProjectIndex) (path : String) :
    upper host.text (classifiedKind host index path) =
      (index.unrealKind path).elim (fallbackArtifactKind host path (index.language path))
        (upper host.text) := by
  unfold classifiedKind
  cases index.unrealKind path with
  | some kind => rfl
  | none =>
    exact upper_names host.text _ (List.mem_append_right _ (fallbackArtifactKind_mem host path _))

/-- The name a path is promoted under, when planning knows that name. -/
theorem promotedName_cases {host : PathHost} {index : ProjectIndex} {path : String}
    (h : upper host.text (classifiedKind host index path) ∈ planNames) :
    (∃ kind, index.unrealKind path = some kind ∧
      upper host.text (classifiedKind host index path) = upper host.text kind) ∨
    (TakenForPython host index path ∧
      upper host.text (classifiedKind host index path) = "PYTHON") ∨
    (TakenForConfig host index path ∧
      upper host.text (classifiedKind host index path) = "CONFIG") := by
  rw [upper_classifiedKind] at h ⊢
  cases hindex : index.unrealKind path with
  | some kind => exact Or.inl ⟨kind, rfl, rfl⟩
  | none =>
    rw [hindex, Option.elim_none] at h
    rw [Option.elim_none]
    rcases shared_names _ (fallbackArtifactKind_mem host path _) h with hname | hname
    · exact Or.inr (Or.inl ⟨(takenForPython_iff hindex).mp hname, hname⟩)
    · exact Or.inr (Or.inr ⟨(takenForConfig_iff hindex).mp hname, hname⟩)

theorem upper_takenForPython {host : PathHost} {index : ProjectIndex} {path : String}
    (h : TakenForPython host index path) :
    upper host.text (classifiedKind host index path) = "PYTHON" := by
  rw [upper_classifiedKind, h.unindexed, Option.elim_none, takenForPython_iff h.unindexed]
  exact h

theorem upper_takenForConfig {host : PathHost} {index : ProjectIndex} {path : String}
    (h : TakenForConfig host index path) :
    upper host.text (classifiedKind host index path) = "CONFIG" := by
  rw [upper_classifiedKind, h.unindexed, Option.elim_none, takenForConfig_iff h.unindexed]
  exact h

theorem upper_indexed {host : PathHost} {index : ProjectIndex} {path kind : String}
    (h : index.unrealKind path = some kind) :
    upper host.text (classifiedKind host index path) = upper host.text kind := by
  rw [upper_classifiedKind, h, Option.elim_some]

theorem sameNames_of_sameKindSets {host : PathHost} {index : ProjectIndex} {paths : List String}
    (h : SameKindSets host index paths) : SameNames host index paths where
  indexed path hpath kind hkind := by
    obtain ⟨other, hother, hplanned⟩ := (h _).mpr ⟨path, hpath, upper_indexed hkind⟩
    exact ⟨other, hother, plannedKind_eq_iff.mp hplanned⟩
  unindexed path hpath hindex := by
    obtain ⟨other, hother, hplanned⟩ := (h _).mpr ⟨path, hpath, rfl⟩
    have hmem := plannedKind_mem host other
    rw [hplanned] at hmem
    rcases promotedName_cases hmem with ⟨kind, hkind, -⟩ | ⟨hp, hname⟩ | ⟨hc, hname⟩
    · rw [hindex] at hkind; cases hkind
    · exact Or.inl ⟨hp, other, hother, plannedKind_eq_iff.mp (hplanned.trans hname)⟩
    · exact Or.inr ⟨hc, other, hother, plannedKind_eq_iff.mp (hplanned.trans hname)⟩
  planned path hpath := by
    obtain ⟨other, hother, hpromoted⟩ := (h _).mp ⟨path, hpath, rfl⟩
    have hmem := plannedKind_mem host path
    rw [← hpromoted] at hmem
    rcases promotedName_cases hmem with ⟨kind, hkind, hname⟩ | ⟨hp, hname⟩ | ⟨hc, hname⟩
    · exact Or.inr (Or.inr ⟨other, hother, kind, hkind,
        plannedKind_eq_iff.mp (hpromoted.symm.trans hname)⟩)
    · exact Or.inl ⟨plannedKind_eq_iff.mp (hpromoted.symm.trans hname), other, hother, hp⟩
    · exact Or.inr (Or.inl ⟨plannedKind_eq_iff.mp (hpromoted.symm.trans hname), other, hother, hc⟩)

theorem sameKindSets_of_sameNames {host : PathHost} {index : ProjectIndex} {paths : List String}
    (h : SameNames host index paths) : SameKindSets host index paths := by
  intro name
  constructor
  · intro ⟨path, hpath, hname⟩
    subst hname
    rcases h.planned path hpath with ⟨hp, other, hother, ht⟩ | ⟨hc, other, hother, ht⟩ |
      ⟨other, hother, kind, hkind, hp⟩
    · exact ⟨other, hother, (upper_takenForPython ht).trans (plannedKind_eq_iff.mpr hp).symm⟩
    · exact ⟨other, hother, (upper_takenForConfig ht).trans (plannedKind_eq_iff.mpr hc).symm⟩
    · exact ⟨other, hother, (upper_indexed hkind).trans (plannedKind_eq_iff.mpr hp).symm⟩
  · intro ⟨path, hpath, hname⟩
    subst hname
    cases hindex : index.unrealKind path with
    | some kind =>
      obtain ⟨other, hother, hp⟩ := h.indexed path hpath kind hindex
      exact ⟨other, hother, (plannedKind_eq_iff.mpr hp).trans (upper_indexed hindex).symm⟩
    | none =>
      rcases h.unindexed path hpath hindex with ⟨ht, other, hother, hp⟩ | ⟨ht, other, hother, hp⟩
      · exact ⟨other, hother, (plannedKind_eq_iff.mpr hp).trans (upper_takenForPython ht).symm⟩
      · exact ⟨other, hother, (plannedKind_eq_iff.mpr hp).trans (upper_takenForConfig ht).symm⟩

theorem mem_applicableRules {gov : GovernanceHost} {policy : ProjectGovernancePolicy}
    {action : String} {kinds : List String} {rule : ApprovalPolicyRule}
    (hrule : rule ∈ policy.terms.approvalRules) (haction : upper gov.text rule.action = upper gov.text action) :
    rule ∈ applicableRules gov policy action kinds ↔
      rule.artifactKinds = [] ∨ ∃ kind ∈ kinds, upper gov.text kind ∈ rule.artifactKinds := by
  simp [applicableRules, applies, hrule, haction]

theorem upper_plan (text : CaseTables) : upper text "PLAN" = "PLAN" := by rfl
theorem upper_promotion (text : CaseTables) : upper text "PROMOTION" = "PROMOTION" := by rfl

/-- Selected alike under every policy means: the same names. The policy with
one rule pair keyed on a single name tells two sets of names apart. -/
theorem sameSelection_iff_sameKindSets {gov : GovernanceHost} {fileName : String → String}
    {index : ProjectIndex} {paths : List String} :
    SameSelection gov fileName index paths ↔ SameKindSets ⟨gov.text, fileName⟩ index paths := by
  have hplan : ∀ keys : List String,
      (∃ kind ∈ artifactKinds ⟨gov.text, fileName⟩ paths, upper gov.text kind ∈ keys) ↔
        ∃ path ∈ paths, plannedKind ⟨gov.text, fileName⟩ path ∈ keys := by
    intro keys
    have hupper : ∀ path, upper gov.text (plannedKind ⟨gov.text, fileName⟩ path) =
        plannedKind ⟨gov.text, fileName⟩ path := fun path =>
      upper_names gov.text _ (List.mem_append_left _ (plannedKind_mem _ path))
    simp [artifactKinds, hupper]
  have hpromotion : ∀ (newId : String → String) (commanded : String → Bool) (keys : List String),
      (∃ kind ∈ promotionKinds (validationDecisions ⟨gov.text, fileName⟩ index newId commanded paths),
          upper gov.text kind ∈ keys) ↔
        ∃ path ∈ paths, upper gov.text (classifiedKind ⟨gov.text, fileName⟩ index path) ∈ keys := by
    intro newId commanded keys
    simp [mem_promotionKinds]
  constructor
  · intro h name
    let planRule : ApprovalPolicyRule := { id := "PLAN-RULE", action := "PLAN", artifactKinds := [name] }
    let promotionRule : ApprovalPolicyRule :=
      { id := "PROMOTION-RULE", action := "PROMOTION", artifactKinds := [name] }
    let policy : ProjectGovernancePolicy := { id := "", projectId := "", projectRoot := ""
                                              terms := { approvalRules := [planRule, promotionRule] } }
    have hmemPlan : planRule ∈ policy.terms.approvalRules := by simp [policy]
    have hmemPromotion : promotionRule ∈ policy.terms.approvalRules := by simp [policy]
    have hsame := h id (fun _ => false) policy planRule hmemPlan promotionRule hmemPromotion
      (upper_plan gov.text) (upper_promotion gov.text) rfl
    rw [mem_applicableRules hmemPlan (Eq.refl (upper gov.text "PLAN")),
      mem_applicableRules hmemPromotion (Eq.refl (upper gov.text "PROMOTION")),
      hplan, hpromotion] at hsame
    simpa [planRule, promotionRule] using hsame
  · intro h newId commanded policy planRule hplanRule promotionRule hpromotionRule ha hb hkeys
    rw [mem_applicableRules hplanRule (ha.trans (upper_plan gov.text).symm),
      mem_applicableRules hpromotionRule (hb.trans (upper_promotion gov.text).symm),
      hplan, hpromotion, hkeys]
    refine or_congr_right ⟨?_, ?_⟩
    · intro ⟨path, hpath, hmem⟩
      obtain ⟨other, hother, hname⟩ := (h _).mp ⟨path, hpath, rfl⟩
      exact ⟨other, hother, by rw [hname]; exact hmem⟩
    · intro ⟨path, hpath, hmem⟩
      obtain ⟨other, hother, hname⟩ := (h _).mpr ⟨path, hpath, rfl⟩
      exact ⟨other, hother, by rw [hname]; exact hmem⟩

/-- **Planning and promotion select the same rules exactly for the lists of
paths with the same names**: none with a C++, Unreal or other suffix unless the
index supplies the planning name, and Python and configuration on both sides. -/
theorem sameSelection_iff (gov : GovernanceHost) (fileName : String → String)
    (index : ProjectIndex) (paths : List String) :
    SameSelection gov fileName index paths ↔ SameNames ⟨gov.text, fileName⟩ index paths := by
  rw [sameSelection_iff_sameKindSets]
  exact ⟨sameNames_of_sameKindSets, sameKindSets_of_sameNames⟩

def plainGovernance : GovernanceHost where
  text := ⟨id, id, id⟩
  resolve := id
  commonPath _ _ := none
  sha256 bytes := toString bytes.length

def noIndex : ProjectIndex := ⟨fun _ => none, fun _ => none⟩

/-- A C++ file without an index entry: planned as `CPP`, promoted as
`CPP_SOURCE`. -/
theorem cpp_selected_at_planning_only : ¬SameSelection plainGovernance id noIndex ["core.cpp"] := by
  rw [sameSelection_iff_sameKindSets]
  intro h
  have hplanned : plannedKind ⟨plainGovernance.text, id⟩ "core.cpp" = "CPP" := by decide
  obtain ⟨path, hpath, hname⟩ := (h "CPP").mp ⟨"core.cpp", List.mem_singleton_self _, hplanned⟩
  rw [List.mem_singleton.mp hpath] at hname
  revert hname
  decide

end RlmGraph.Governance.ArtifactKinds
