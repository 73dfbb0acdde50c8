import Anemoi.Core.Governance

/-!
# What merging overrides guarantees

Overrides are merged onto the baseline on every start and after every edit. Merging them
onto their own result changes nothing, everything they do not mention stays as the baseline
has it, and a model profile is layered field by field.
-/

namespace Anemoi

open Systems

/-- Equal configurations: their tables have the same bindings. -/
structure AnemoiConfig.Same (c d : AnemoiConfig) : Prop where
  domains : SameBindings c.domains d.domains
  residencyGroups : SameBindings c.residencyGroups d.residencyGroups
  models : SameBindings c.models d.models
  runtimes : SameBindings c.runtimes d.runtimes
  continuity : c.continuity = d.continuity

namespace AnemoiConfig.Same

variable {c d e : AnemoiConfig}

theorem refl (c : AnemoiConfig) : c.Same c :=
  ⟨fun _ => rfl, fun _ => rfl, fun _ => rfl, fun _ => rfl, rfl⟩

theorem symm (h : c.Same d) : d.Same c :=
  ⟨fun k => (h.domains k).symm, fun k => (h.residencyGroups k).symm, fun k => (h.models k).symm,
    fun k => (h.runtimes k).symm, h.continuity.symm⟩

theorem trans (h : c.Same d) (h' : d.Same e) : c.Same e :=
  ⟨fun k => (h.domains k).trans (h'.domains k),
    fun k => (h.residencyGroups k).trans (h'.residencyGroups k),
    fun k => (h.models k).trans (h'.models k), fun k => (h.runtimes k).trans (h'.runtimes k),
    h.continuity.trans h'.continuity⟩

end AnemoiConfig.Same

/-- `value` is what the operator set, else what the baseline has, else the fallback. -/
def Layered {α : Type} (operator base : Option α) (fallback value : α) : Prop :=
  (∀ v, operator = some v → value = v) ∧
  (∀ v, operator = none → base = some v → value = v) ∧
  (operator = none → base = none → value = fallback)

/-- A profile is layered field by field. -/
structure ProfileLayers (id : ModelId) (base : Option ModelProfileConfig)
    (o : ModelProfileOverride) (profile : ModelProfileConfig) : Prop where
  family : Layered o.family (base.map (·.family)) (inferFamilyAndClass id.text).1 profile.family
  parameterClass : Layered o.parameterClass (base.map (·.parameterClass))
    (inferFamilyAndClass id.text).2 profile.parameterClass
  contextWindow : Layered (o.contextWindow.map some) (base.map (·.contextWindow)) none
    profile.contextWindow
  vramRequiredMb : Layered (o.vramRequiredMb.map some) (base.map (·.vramRequiredMb)) none
    profile.vramRequiredMb
  ramRequiredMb : Layered (o.ramRequiredMb.map some) (base.map (·.ramRequiredMb)) none
    profile.ramRequiredMb
  coldLoadEstimateMs : Layered (o.coldLoadEstimateMs.map some) (base.map (·.coldLoadEstimateMs))
    none profile.coldLoadEstimateMs
  supportedRuntimes : Layered o.supportedRuntimes (base.map (·.supportedRuntimes)) []
    profile.supportedRuntimes
  supportsStreaming : Layered (o.supportsStreaming.map some) (base.map (·.supportsStreaming)) none
    profile.supportsStreaming

/-- `effective` is `baseline` with `overrides` merged onto it, and nothing else. -/
structure MergedFrom (baseline : AnemoiConfig) (overrides : GovernanceOverrides)
    (effective : AnemoiConfig) : Prop where
  idempotent : (applyOverrides effective overrides).Same effective
  runtimes : effective.runtimes = baseline.runtimes
  continuity : effective.continuity = baseline.continuity
  domains : ∀ id, id ∈ effective.domains ↔ id ∈ baseline.domains
  liveRoster : ∀ id, (effective.domains.lookup id).map DomainConfig.liveRoster =
    (baseline.domains.lookup id).map DomainConfig.liveRoster
  groups_kept : ∀ id, id ∉ overrides.residencyGroups → id ∉ overrides.removedResidencyGroups →
    effective.residencyGroups.lookup id = baseline.residencyGroups.lookup id
  domains_kept : ∀ id, id ∉ overrides.domainRosters →
    effective.domains.lookup id = baseline.domains.lookup id
  models_kept : ∀ id, id ∉ overrides.modelProfiles →
    effective.models.lookup id = baseline.models.lookup id
  groups_removed : ∀ id ∈ overrides.removedResidencyGroups, id ∉ effective.residencyGroups
  groups_set : ∀ id roster, overrides.residencyGroups.lookup id = some roster →
    id ∉ overrides.removedResidencyGroups →
    (effective.residencyGroups.lookup id).map RosterOverride.fromConfig = some roster
  models_set : ∀ id o, overrides.modelProfiles.lookup id = some o →
    ∃ profile, effective.models.lookup id = some profile ∧
      ProfileLayers id (baseline.models.lookup id) o profile

/-! ### Profiles -/

theorem layered_getD {α : Type} (operator base : Option α) (fallback : α) :
    Layered operator base fallback ((operator.or base).getD fallback) := by
  refine ⟨?_, ?_, ?_⟩
  · rintro v rfl
    rfl
  · rintro v rfl rfl
    rfl
  · rintro rfl rfl
    rfl

theorem layered_or {α β : Type} (operator : Option α) (base : Option β) (field : β → Option α) :
    Layered (operator.map some) (base.map field) none (operator.or (base.bind field)) := by
  cases operator <;> cases base <;> simp [Layered]

theorem profileLayers_mergeProfile (id : ModelId) (base : Option ModelProfileConfig)
    (o : ModelProfileOverride) : ProfileLayers id base o (mergeProfile id base o) where
  family := layered_getD ..
  parameterClass := layered_getD ..
  contextWindow := layered_or ..
  vramRequiredMb := layered_or ..
  ramRequiredMb := layered_or ..
  coldLoadEstimateMs := layered_or ..
  supportedRuntimes := layered_getD ..
  supportsStreaming := layered_or ..

theorem or_getD_or_getD {α : Type} (operator base : Option α) (fallback : α) :
    (operator.or (some ((operator.or base).getD fallback))).getD fallback =
      (operator.or base).getD fallback := by
  cases operator <;> rfl

theorem or_or_self {α : Type} (operator base : Option α) :
    operator.or (operator.or base) = operator.or base := by
  cases operator <;> rfl

/-- A profile that was merged once is not changed by the same override. -/
theorem mergeProfile_mergeProfile (id : ModelId) (base : Option ModelProfileConfig)
    (o : ModelProfileOverride) :
    mergeProfile id (some (mergeProfile id base o)) o = mergeProfile id base o := by
  simp only [mergeProfile, Option.map_some, Option.bind_some, or_getD_or_getD, or_or_self]

/-! ### The whole configuration -/

/-- Merging the same overrides a second time changes nothing. -/
theorem applyOverrides_idempotent (baseline : AnemoiConfig) (overrides : GovernanceOverrides) :
    (applyOverrides (applyOverrides baseline overrides) overrides).Same
      (applyOverrides baseline overrides) where
  domains := by
    intro id
    rw [applyOverrides.lookup_domains, applyOverrides.lookup_domains]
    cases baseline.domains.lookup id with
    | none => rfl
    | some domain => cases overrides.domainRosters.lookup id <;> rfl
  residencyGroups := by
    intro id
    rw [applyOverrides.lookup_residencyGroups, applyOverrides.lookup_residencyGroups]
    by_cases hremoved : id ∈ overrides.removedResidencyGroups
    · rw [if_pos hremoved, if_pos hremoved]
    · rw [if_neg hremoved, if_neg hremoved, or_or_self]
  models := by
    intro id
    rw [applyOverrides.lookup_models]
    cases ho : overrides.modelProfiles.lookup id with
    | none => rfl
    | some o =>
        have hmerged := applyOverrides.lookup_models baseline overrides id
        rw [ho] at hmerged
        rw [hmerged]
        exact congrArg some (mergeProfile_mergeProfile id _ o)
  runtimes := fun _ => rfl
  continuity := rfl

theorem mergedFrom_applyOverrides (baseline : AnemoiConfig) (overrides : GovernanceOverrides) :
    MergedFrom baseline overrides (applyOverrides baseline overrides) where
  idempotent := applyOverrides_idempotent baseline overrides
  runtimes := rfl
  continuity := rfl
  domains := by
    intro id
    rw [← AList.lookup_isSome, ← AList.lookup_isSome, applyOverrides.lookup_domains,
      Option.isSome_map]
  liveRoster := by
    intro id
    rw [applyOverrides.lookup_domains, Option.map_map]
    rfl
  groups_kept := by
    intro id hset hremoved
    rw [applyOverrides.lookup_residencyGroups, if_neg hremoved, AList.lookup_eq_none.mpr hset]
    rfl
  domains_kept := by
    intro id hset
    rw [applyOverrides.lookup_domains, AList.lookup_eq_none.mpr hset]
    exact Option.map_id'
  models_kept := by
    intro id hset
    rw [applyOverrides.lookup_models, AList.lookup_eq_none.mpr hset]
  groups_removed := by
    intro id hremoved
    rw [← AList.lookup_eq_none, applyOverrides.lookup_residencyGroups, if_pos hremoved]
  groups_set := by
    intro id roster hroster hremoved
    rw [applyOverrides.lookup_residencyGroups, if_neg hremoved, hroster]
    rfl
  models_set := by
    intro id o ho
    have hmerged := applyOverrides.lookup_models baseline overrides id
    rw [ho] at hmerged
    exact ⟨_, hmerged, profileLayers_mergeProfile id _ o⟩

end Anemoi
