import Anemoi.Core.Types
import Anemoi.Systems.Table
import Mathlib.Data.List.Sort

/-!
# Configuration

The operator's configuration and its validation. The maps of the source are
finite tables here. Nothing may depend on the order in which a hash map is
iterated, and `validateConfig` sorts every map by the text of its keys before it
looks at an entry.

Most checks of `validateConfig` are one check with other arguments: a list of
references, each of which must be known. `unknownReferences` is that check.
-/

namespace Anemoi

open Systems

/-! ### Schema -/

structure DomainConfig where
  rosters : List ResidencyGroupId := []
  liveRoster : Option RuntimeId := none
  deriving DecidableEq, Repr

structure RuntimeResidentConfig where
  modelId : ModelId
  state : ResidencyState
  vramMb : Option UInt64
  ramMb : Option UInt64
  kvCacheMb : Option UInt64
  deriving DecidableEq, Repr

structure RuntimeConfig where
  adapter : String
  baseUrl : Option String
  authToken : Option String
  initialResidents : List RuntimeResidentConfig := []
  configPath : Option String := none
  deriving DecidableEq, Repr

def knownRuntimeAdapters : List String :=
  ["mock", "ollama", "llama_cpp", "llama_server", "llama_swap"]

structure ContinuityConfig where
  keepSmallWorkerHot : Bool := true
  backgroundLoad : Bool := true
  maxBlankWaitMs : UInt64 := 1500
  preferDegradedResponseOverSilence : Bool := true
  deriving DecidableEq, Repr

structure ResidencyGroupConfig where
  purpose : List String := []
  models : List ModelId
  keepHot : Bool := false
  allowBackgroundLoad : Bool := false
  pinned : Bool := false
  deriving DecidableEq, Repr

def ResidencyGroupConfig.intoGroup (group : ResidencyGroupConfig) (id : ResidencyGroupId) :
    ResidencyGroup where
  id := id
  purpose := group.purpose
  models := group.models
  keepHot := group.keepHot
  allowBackgroundLoad := group.allowBackgroundLoad
  pinned := group.pinned

structure ModelProfileConfig where
  family : String
  parameterClass : String
  contextWindow : Option UInt32 := none
  vramRequiredMb : Option UInt64 := none
  ramRequiredMb : Option UInt64 := none
  coldLoadEstimateMs : Option UInt64 := none
  supportedRuntimes : List RuntimeId
  supportsStreaming : Option Bool := none
  deriving DecidableEq, Repr

def ModelProfileConfig.intoProfile (profile : ModelProfileConfig) (id : ModelId) :
    ModelProfile where
  id := id
  family := profile.family
  parameterClass := profile.parameterClass
  contextWindow := profile.contextWindow
  vramRequiredMb := profile.vramRequiredMb
  ramRequiredMb := profile.ramRequiredMb
  coldLoadEstimateMs := profile.coldLoadEstimateMs
  supportedRuntimes := profile.supportedRuntimes
  supportsStreaming := profile.supportsStreaming

structure AnemoiConfig where
  domains : Table DomainId DomainConfig
  residencyGroups : Table ResidencyGroupId ResidencyGroupConfig
  models : Table ModelId ModelProfileConfig
  runtimes : Table RuntimeId RuntimeConfig
  continuity : ContinuityConfig := {}
  deriving DecidableEq

/-! ### Validation -/

inductive DiagnosticSeverity where
  | error
  | warning
  deriving DecidableEq, Repr

/-- The derived order of severities: errors first. -/
def DiagnosticSeverity.rank : DiagnosticSeverity → ℕ
  | error => 0
  | warning => 1

structure ConfigDiagnostic where
  path : String
  severity : DiagnosticSeverity
  message : String
  deriving DecidableEq, Repr

namespace ConfigDiagnostic

def error (path message : String) : ConfigDiagnostic :=
  { path, severity := .error, message }

/-- The reporting order: by path, then severity, then message. -/
def le (left right : ConfigDiagnostic) : Bool :=
  ((compare left.path right.path).then
    ((compare left.severity.rank right.severity.rank).then
      (compare left.message right.message))).isLE

end ConfigDiagnostic

/-- One diagnostic for every entry of `refs` that is not `known`, in order. -/
def unknownReferences {α : Type} (refs : List α) (known : α → Bool) (path : ℕ → String)
    (message : α → String) : List ConfigDiagnostic :=
  refs.zipIdx.filterMap fun e =>
    if known e.1 then none else some (.error (path e.2) (message e.1))

def validateDomain (config : AnemoiConfig) (domainId : DomainId) (domain : DomainConfig) :
    List ConfigDiagnostic :=
  (if domain.rosters.isEmpty && domain.liveRoster.isNone then
    [.error s!"domains.{domainId}.rosters"
      "domain must reference at least one residency group or set live_roster"]
  else []) ++
  unknownReferences domain.rosters (fun groupId => groupId ∈ config.residencyGroups)
    (fun index => s!"domains.{domainId}.rosters[{index}]")
    (fun groupId => s!"unknown residency group '{groupId}'")

def validateGroup (config : AnemoiConfig) (groupId : ResidencyGroupId)
    (group : ResidencyGroupConfig) : List ConfigDiagnostic :=
  (if group.models.isEmpty then
    [.error s!"residency_groups.{groupId}.models"
      "residency group must reference at least one model"]
  else []) ++
  unknownReferences group.models (fun modelId => modelId ∈ config.models)
    (fun index => s!"residency_groups.{groupId}.models[{index}]")
    (fun modelId => s!"unknown model '{modelId}'")

def validateModel (config : AnemoiConfig) (modelId : ModelId)
    (model : ModelProfileConfig) : List ConfigDiagnostic :=
  unknownReferences model.supportedRuntimes (fun runtimeId => runtimeId ∈ config.runtimes)
    (fun index => s!"models.{modelId}.supported_runtimes[{index}]")
    (fun runtimeId => s!"unknown runtime '{runtimeId}'")

def validateRuntime (config : AnemoiConfig) (runtimeId : RuntimeId)
    (runtime : RuntimeConfig) : List ConfigDiagnostic :=
  (if knownRuntimeAdapters.contains runtime.adapter then []
  else
    [.error s!"runtimes.{runtimeId}.adapter"
      s!"unknown runtime adapter '{runtime.adapter}'"]) ++
  (if knownRuntimeAdapters.contains runtime.adapter && runtime.adapter != "mock" &&
      runtime.baseUrl.isNone then
    [.error s!"runtimes.{runtimeId}.base_url"
      s!"runtime adapter '{runtime.adapter}' requires a base_url"]
  else []) ++
  unknownReferences runtime.initialResidents
    (fun resident => resident.modelId ∈ config.models)
    (fun index => s!"runtimes.{runtimeId}.initial_residents[{index}].model_id")
    (fun resident => s!"unknown model '{resident.modelId}'")

/-- The bindings of a map in the order of the text of their keys. -/
def sortedItems {κ ν : Type} [ToString κ] (m : Table κ ν) : List (κ × ν) :=
  m.items.insertionSort fun a b => toString a.1 ≤ toString b.1

/-- The checks of every map of the configuration, before the report is sorted. -/
def collectDiagnostics (config : AnemoiConfig) : List ConfigDiagnostic :=
  (sortedItems config.domains).flatMap (fun e => validateDomain config e.1 e.2) ++
  (sortedItems config.residencyGroups).flatMap (fun e => validateGroup config e.1 e.2) ++
  (sortedItems config.models).flatMap (fun e => validateModel config e.1 e.2) ++
  (sortedItems config.runtimes).flatMap (fun e => validateRuntime config e.1 e.2)

def validateConfig (config : AnemoiConfig) : List ConfigDiagnostic :=
  (collectDiagnostics config).insertionSort fun left right => left.le right

/-! ### What a valid configuration satisfies -/

theorem unknownReferences_eq_nil_iff {α : Type} {refs : List α} {known : α → Bool}
    {path : ℕ → String} {message : α → String} :
    unknownReferences refs known path message = [] ↔ ∀ r ∈ refs, known r := by
  unfold unknownReferences
  rw [List.filterMap_eq_nil_iff]
  constructor
  · intro h r hr
    obtain ⟨i, hi⟩ := List.mem_iff_getElem?.mp hr
    have hcheck := h (r, i) (List.mem_zipIdx_iff_getElem?.mpr hi)
    by_contra hr'
    simp [hr'] at hcheck
  · rintro h ⟨r, i⟩ he
    have hr : r ∈ refs := List.fst_mem_of_mem_zipIdx he
    simp [h r hr]

theorem mem_sortedItems {κ ν : Type} [ToString κ] [DecidableEq κ] {m : Table κ ν} {k : κ}
    {v : ν} : (k, v) ∈ sortedItems m ↔ m.lookup k = some v := by
  rw [sortedItems, List.mem_insertionSort, AList.mem_items]

theorem flatMap_sortedItems_eq_nil_iff {κ ν α : Type} [ToString κ] [DecidableEq κ]
    {m : Table κ ν} {f : κ → ν → List α} :
    (sortedItems m).flatMap (fun e => f e.1 e.2) = [] ↔
      ∀ k v, m.lookup k = some v → f k v = [] := by
  rw [List.flatMap_eq_nil_iff]
  constructor
  · intro h k v hk
    exact h (k, v) (mem_sortedItems.mpr hk)
  · intro h e he
    exact h e.1 e.2 (mem_sortedItems.mp he)

/-- A configuration is valid when every one of its entries is. -/
theorem validateConfig_eq_nil_iff {config : AnemoiConfig} :
    validateConfig config = [] ↔
      (∀ k v, config.domains.lookup k = some v → validateDomain config k v = []) ∧
      (∀ k v, config.residencyGroups.lookup k = some v → validateGroup config k v = []) ∧
      (∀ k v, config.models.lookup k = some v → validateModel config k v = []) ∧
      (∀ k v, config.runtimes.lookup k = some v → validateRuntime config k v = []) := by
  have hperm := List.perm_insertionSort (fun left right => left.le right)
    (collectDiagnostics config)
  have hsorted : validateConfig config = [] ↔ collectDiagnostics config = [] := by
    constructor
    · intro h
      exact (h ▸ hperm : [].Perm (collectDiagnostics config)).nil_eq.symm
    · intro h
      exact (h ▸ hperm : (validateConfig config).Perm []).eq_nil
  rw [hsorted, collectDiagnostics, List.append_eq_nil_iff, List.append_eq_nil_iff,
    List.append_eq_nil_iff]
  simp only [flatMap_sortedItems_eq_nil_iff, and_assoc]

/-- A valid domain names only known groups, and at least one unless it follows a
live runtime. -/
theorem validateDomain_eq_nil_iff {config : AnemoiConfig} {domainId : DomainId}
    {domain : DomainConfig} :
    validateDomain config domainId domain = [] ↔
      (domain.liveRoster = none → domain.rosters ≠ []) ∧
      ∀ groupId ∈ domain.rosters, groupId ∈ config.residencyGroups := by
  rw [validateDomain, List.append_eq_nil_iff, unknownReferences_eq_nil_iff]
  simp only [decide_eq_true_eq]
  refine and_congr ?_ Iff.rfl
  cases domain.liveRoster with
  | none => simp
  | some runtimeId => simp

/-- A valid runtime has an adapter that the daemon knows. -/
theorem adapter_mem_of_validateRuntime {config : AnemoiConfig} {runtimeId : RuntimeId}
    {runtime : RuntimeConfig} (h : validateRuntime config runtimeId runtime = []) :
    runtime.adapter ∈ knownRuntimeAdapters := by
  rw [validateRuntime, List.append_eq_nil_iff, List.append_eq_nil_iff] at h
  have hknown := h.1.1
  by_contra hunknown
  rw [← List.contains_iff_mem] at hunknown
  rw [if_neg hunknown] at hknown
  cases hknown

end Anemoi
