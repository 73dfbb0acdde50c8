import Anemoi.Core.Config
import Anemoi.Text.ModelName

/-!
# Governance overrides

Operator edits are kept apart from the baseline configuration and merged onto it:
`applyOverrides baseline overrides` is the effective configuration that the
scheduler consumes. The merge is read key by key through `lookup_residencyGroups`,
`lookup_domains` and `lookup_models`.
-/

namespace Anemoi

open Systems

/-- An operator-editable residency group. -/
structure RosterOverride where
  purpose : List String := []
  models : List ModelId := []
  keepHot : Bool := false
  allowBackgroundLoad : Bool := false
  pinned : Bool := false
  deriving DecidableEq, Repr

namespace RosterOverride

def intoConfig (roster : RosterOverride) : ResidencyGroupConfig where
  purpose := roster.purpose
  models := roster.models
  keepHot := roster.keepHot
  allowBackgroundLoad := roster.allowBackgroundLoad
  pinned := roster.pinned

def fromConfig (config : ResidencyGroupConfig) : RosterOverride where
  purpose := config.purpose
  models := config.models
  keepHot := config.keepHot
  allowBackgroundLoad := config.allowBackgroundLoad
  pinned := config.pinned

@[simp] theorem intoConfig_fromConfig (config : ResidencyGroupConfig) :
    (fromConfig config).intoConfig = config := rfl

end RosterOverride

/-- Operator-set profile fields; a field that is not set falls through. -/
structure ModelProfileOverride where
  family : Option String := none
  parameterClass : Option String := none
  contextWindow : Option UInt32 := none
  vramRequiredMb : Option UInt64 := none
  ramRequiredMb : Option UInt64 := none
  coldLoadEstimateMs : Option UInt64 := none
  supportsStreaming : Option Bool := none
  supportedRuntimes : Option (List RuntimeId) := none
  deriving DecidableEq, Repr

def ModelProfileOverride.isEmpty (o : ModelProfileOverride) : Bool :=
  o.family.isNone && o.parameterClass.isNone && o.contextWindow.isNone &&
    o.vramRequiredMb.isNone && o.ramRequiredMb.isNone && o.coldLoadEstimateMs.isNone &&
    o.supportsStreaming.isNone && o.supportedRuntimes.isNone

/-- What the operator changed: rosters created or edited, baseline rosters removed,
domains reassigned, and profile fields set. -/
structure GovernanceOverrides where
  residencyGroups : Table ResidencyGroupId RosterOverride := ∅
  removedResidencyGroups : KeySet ResidencyGroupId := ∅
  domainRosters : Table DomainId (List ResidencyGroupId) := ∅
  modelProfiles : Table ModelId ModelProfileOverride := ∅
  deriving DecidableEq

/-- The family and the parameter class of a model, read off its id. -/
def inferFamilyAndClass (modelId : String) : String × String :=
  (familyPrefix modelId, parameterToken modelId)

/-- Field by field: the operator's value, else the baseline's, else the one
inferred from the id. -/
def mergeProfile (modelId : ModelId) (base : Option ModelProfileConfig)
    (profileOverride : ModelProfileOverride) : ModelProfileConfig where
  family := (profileOverride.family.or (base.map (·.family))).getD
    (inferFamilyAndClass modelId.text).1
  parameterClass := (profileOverride.parameterClass.or (base.map (·.parameterClass))).getD
    (inferFamilyAndClass modelId.text).2
  contextWindow := profileOverride.contextWindow.or (base.bind (·.contextWindow))
  vramRequiredMb := profileOverride.vramRequiredMb.or (base.bind (·.vramRequiredMb))
  ramRequiredMb := profileOverride.ramRequiredMb.or (base.bind (·.ramRequiredMb))
  coldLoadEstimateMs :=
    profileOverride.coldLoadEstimateMs.or (base.bind (·.coldLoadEstimateMs))
  supportedRuntimes :=
    (profileOverride.supportedRuntimes.or (base.map (·.supportedRuntimes))).getD []
  supportsStreaming :=
    profileOverride.supportsStreaming.or (base.bind (·.supportsStreaming))

/-- Merge operator overrides onto a baseline. Removal wins over replacement, and a
domain the baseline does not have is ignored. -/
def applyOverrides (baseline : AnemoiConfig) (overrides : GovernanceOverrides) :
    AnemoiConfig :=
  { baseline with
    residencyGroups :=
      (baseline.residencyGroups.mergeWith (fun _ _ roster => some roster.intoConfig)
        overrides.residencyGroups).eraseAll overrides.removedResidencyGroups
    domains :=
      baseline.domains.mergeWith
        (fun _ domain rosters => domain.map fun domain => { domain with rosters })
        overrides.domainRosters
    models :=
      baseline.models.mergeWith
        (fun modelId base profileOverride => some (mergeProfile modelId base profileOverride))
        overrides.modelProfiles }

namespace applyOverrides

variable (baseline : AnemoiConfig) (overrides : GovernanceOverrides)

theorem lookup_residencyGroups (id : ResidencyGroupId) :
    (applyOverrides baseline overrides).residencyGroups.lookup id =
      if id ∈ overrides.removedResidencyGroups then none
      else ((overrides.residencyGroups.lookup id).map RosterOverride.intoConfig).or
        (baseline.residencyGroups.lookup id) := by
  simp only [applyOverrides, AList.lookup_eraseAll, AList.lookup_mergeWith]
  cases overrides.residencyGroups.lookup id with
  | none => rfl
  | some roster => rfl

theorem lookup_domains (id : DomainId) :
    (applyOverrides baseline overrides).domains.lookup id =
      (baseline.domains.lookup id).map fun domain =>
        { domain with rosters := (overrides.domainRosters.lookup id).getD domain.rosters } := by
  simp only [applyOverrides, AList.lookup_mergeWith]
  cases overrides.domainRosters.lookup id with
  | none => cases baseline.domains.lookup id <;> rfl
  | some rosters => cases baseline.domains.lookup id <;> rfl

theorem lookup_models (id : ModelId) :
    (applyOverrides baseline overrides).models.lookup id =
      match overrides.modelProfiles.lookup id with
      | some profileOverride =>
          some (mergeProfile id (baseline.models.lookup id) profileOverride)
      | none => baseline.models.lookup id := by
  simp only [applyOverrides, AList.lookup_mergeWith]
  cases overrides.modelProfiles.lookup id with
  | none => rfl
  | some profileOverride => rfl

end applyOverrides

end Anemoi
