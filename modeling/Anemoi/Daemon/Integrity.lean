import Anemoi.Daemon.Edits
import Anemoi.Systems.Machine

/-!
# Referential integrity of governance

Whatever operators edit, in whatever order: the roster overrides and the removed
rosters stay disjoint, the roster an edit sees is the one the scheduler sees, and
every effective domain refers to existing rosters and has one, unless it follows a
live runtime.

`EditEffect` lists the four things an accepted edit can do, and `Sound` is the
invariant that each of them keeps.
-/

namespace Anemoi

open Systems

/-! ### What an accepted edit does -/

/-- The ways an accepted edit changes the overrides. -/
inductive EditEffect (overrides : GovernanceOverrides) (baseline : AnemoiConfig) :
    GovernanceOverrides → Prop
  | put (id : ResidencyGroupId) (roster : RosterOverride) :
      EditEffect overrides baseline (overrides.putRoster id roster)
  | drop (id : ResidencyGroupId)
      (unused : ∀ domainId domain, baseline.domains.lookup domainId = some domain →
        id ∉ effectiveRosters overrides domainId domain) :
      EditEffect overrides baseline (overrides.dropRoster id)
  | assign {domain : DomainConfig} (domainId : DomainId) (rosters : List ResidencyGroupId)
      (domain_eq : baseline.domains.lookup domainId = some domain)
      (nonempty : domain.liveRoster = none → rosters ≠ [])
      (defined : ∀ r ∈ rosters, (currentRoster overrides baseline r).isSome) :
      EditEffect overrides baseline
        { overrides with domainRosters := overrides.domainRosters.insert domainId rosters }
  | profile (modelProfiles : Table ModelId ModelProfileOverride) :
      EditEffect overrides baseline { overrides with modelProfiles }

section Effects

variable {overrides new : GovernanceOverrides} {baseline : AnemoiConfig}

theorem effect_of_editRoster {id : ResidencyGroupId} {change : RosterOverride → RosterOverride}
    (h : editRoster id change overrides baseline = .ok new) :
    EditEffect overrides baseline new := by
  unfold editRoster at h
  cases hcurrent : currentRoster overrides baseline id with
  | none =>
      rw [hcurrent] at h
      cases h
  | some roster =>
      rw [hcurrent, Except.ok.injEq] at h
      rw [← h]
      exact .put id (change roster)

theorem effect_of_createRoster {req : CreateRosterRequest}
    (h : createRoster req overrides baseline = .ok new) :
    EditEffect overrides baseline new := by
  unfold createRoster at h
  by_cases hcurrent : (currentRoster overrides baseline ⟨req.id⟩).isSome = true
  · rw [if_pos hcurrent] at h
    cases h
  · rw [if_neg hcurrent, Except.ok.injEq] at h
    rw [← h]
    exact .put _ _

theorem effect_of_deleteRoster {id : String}
    (h : deleteRoster id overrides baseline = .ok new) :
    EditEffect overrides baseline new := by
  unfold deleteRoster at h
  by_cases hcurrent : (currentRoster overrides baseline ⟨id⟩).isNone = true
  · simp only [hcurrent, if_true] at h
    cases h
  · simp only [hcurrent, Bool.false_eq_true, if_false] at h
    split at h
    · cases h
    · next hnone =>
        rw [Except.ok.injEq] at h
        rw [← h]
        refine .drop _ fun domainId domain hdomain hmem => hnone ?_
        rw [Bool.not_eq_true', List.isEmpty_eq_false_iff]
        refine List.ne_nil_of_mem (List.mem_filter.mpr ⟨AList.mem_items.mpr hdomain, ?_⟩)
        exact List.contains_iff_mem.mpr hmem

theorem effect_of_patchDomainRosters {id : String} {rosters : List String}
    (h : patchDomainRosters id rosters overrides baseline = .ok new) :
    EditEffect overrides baseline new := by
  unfold patchDomainRosters at h
  cases hdomain : baseline.domains.lookup ⟨id⟩ with
  | none =>
      simp only [hdomain] at h
      cases h
  | some domain =>
      simp only [hdomain] at h
      split at h
      · cases h
      · next hallowed =>
          split at h
          · cases h
          · next hdefined =>
              rw [Except.ok.injEq] at h
              rw [← h]
              refine .assign _ _ hdomain ?_ ?_
              · intro hlive hempty
                rw [List.map_eq_nil_iff] at hempty
                exact hallowed (by simp [hlive, hempty])
              · intro r hr
                have hsome := List.find?_eq_none.mp hdefined r hr
                rw [Option.isSome_iff_ne_none]
                intro hnone
                exact hsome (by rw [hnone]; rfl)

theorem effect_of_setModelProfile {modelId : String} {req : ModelProfileOverride}
    (h : setModelProfile modelId req overrides baseline = .ok new) :
    EditEffect overrides baseline new := by
  unfold setModelProfile at h
  by_cases hempty : req.isEmpty = true
  · rw [if_pos hempty, Except.ok.injEq] at h
    rw [← h]
    exact .profile _
  · rw [if_neg hempty, Except.ok.injEq] at h
    rw [← h]
    exact .profile _

theorem effect_of_edit {req : EditRequest} (h : req.edit overrides baseline = .ok new) :
    EditEffect overrides baseline new := by
  cases req with
  | createRoster => exact effect_of_createRoster h
  | patchRoster | addRosterModel | removeRosterModel => exact effect_of_editRoster h
  | deleteRoster => exact effect_of_deleteRoster h
  | patchDomainRosters => exact effect_of_patchDomainRosters h
  | setModelProfile => exact effect_of_setModelProfile h

end Effects

/-! ### The invariant -/

theorem currentRoster_putRoster (overrides : GovernanceOverrides) (baseline : AnemoiConfig)
    (id k : ResidencyGroupId) (roster : RosterOverride) :
    currentRoster (overrides.putRoster id roster) baseline k =
      if k = id then some roster else currentRoster overrides baseline k := by
  unfold currentRoster GovernanceOverrides.putRoster
  by_cases hk : k = id
  · subst hk
    simp
  · simp [hk, AList.lookup_insert_ne, AList.mem_erase]

theorem currentRoster_dropRoster (overrides : GovernanceOverrides) (baseline : AnemoiConfig)
    (id k : ResidencyGroupId) :
    currentRoster (overrides.dropRoster id) baseline k =
      if k = id then none else currentRoster overrides baseline k := by
  unfold currentRoster GovernanceOverrides.dropRoster
  by_cases hk : k = id
  · subst hk
    simp
  · simp [hk, AList.lookup_erase_ne, AList.mem_insert]

/-- No roster is both defined and removed. -/
def GovernanceOverrides.Disjoint (overrides : GovernanceOverrides) : Prop :=
  ∀ id ∈ overrides.residencyGroups, id ∉ overrides.removedResidencyGroups

namespace GovernanceOverrides.Disjoint

variable {baseline : AnemoiConfig} {overrides new : GovernanceOverrides}

theorem empty : GovernanceOverrides.Disjoint {} :=
  fun id hid => absurd hid (AList.notMem_empty id)

theorem effect (h : overrides.Disjoint) (heffect : EditEffect overrides baseline new) :
    new.Disjoint := by
  cases heffect with
  | put id roster =>
      intro k hk hremoved
      obtain ⟨hne, hremoved⟩ := AList.mem_erase.mp hremoved
      rcases (AList.mem_insert _).mp hk with rfl | hk
      · exact hne rfl
      · exact h k hk hremoved
  | drop id unused =>
      intro k hk hremoved
      obtain ⟨hne, hk⟩ := AList.mem_erase.mp hk
      rcases (AList.mem_insert _).mp hremoved with rfl | hremoved
      · exact hne rfl
      · exact h k hk hremoved
  | assign => exact h
  | profile => exact h

/-- The roster that an edit sees is the one in force. -/
theorem currentRoster_eq (h : overrides.Disjoint) (baseline : AnemoiConfig)
    (id : ResidencyGroupId) :
    (currentRoster overrides baseline id).map RosterOverride.intoConfig =
      (applyOverrides baseline overrides).residencyGroups.lookup id := by
  rw [applyOverrides.lookup_residencyGroups, currentRoster]
  cases hroster : overrides.residencyGroups.lookup id with
  | some roster =>
      have hkept := h id (AList.mem_iff_lookup.mpr ⟨roster, hroster⟩)
      simp [hkept]
  | none =>
      by_cases hremoved : id ∈ overrides.removedResidencyGroups
      · simp [hremoved]
      · simp [hremoved, Function.comp_def]

end GovernanceOverrides.Disjoint

/-- What every accepted edit keeps. -/
structure Sound (baseline : AnemoiConfig) (overrides : GovernanceOverrides) : Prop where
  disjoint : overrides.Disjoint
  defined : ∀ domainId domain, baseline.domains.lookup domainId = some domain →
    ∀ id ∈ effectiveRosters overrides domainId domain,
      (currentRoster overrides baseline id).isSome
  nonempty : ∀ domainId domain, baseline.domains.lookup domainId = some domain →
    domain.liveRoster = none → effectiveRosters overrides domainId domain ≠ []

theorem sound_empty {baseline : AnemoiConfig} (hvalid : validateConfig baseline = []) :
    Sound baseline {} := by
  obtain ⟨hdomains, -, -, -⟩ := validateConfig_eq_nil_iff.mp hvalid
  refine ⟨.empty, fun domainId domain hdomain => ?_, fun domainId domain hdomain => ?_⟩
  · intro id hid
    obtain ⟨group, hgroup⟩ := AList.mem_iff_lookup.mp
      ((validateDomain_eq_nil_iff.mp (hdomains _ _ hdomain)).2 id hid)
    have hcurrent : currentRoster {} baseline id =
        (baseline.residencyGroups.lookup id).map RosterOverride.fromConfig := rfl
    rw [hcurrent, hgroup]
    rfl
  · exact (validateDomain_eq_nil_iff.mp (hdomains _ _ hdomain)).1

theorem Sound.effect {baseline : AnemoiConfig} {overrides new : GovernanceOverrides}
    (hsound : Sound baseline overrides) (h : EditEffect overrides baseline new) :
    Sound baseline new := by
  have hdisjoint := hsound.disjoint.effect h
  cases h with
  | put id roster =>
      refine ⟨hdisjoint, fun domainId domain hdomain k hk => ?_, hsound.nonempty⟩
      rw [currentRoster_putRoster]
      split
      · rfl
      · exact hsound.defined domainId domain hdomain k hk
  | drop id unused =>
      refine ⟨hdisjoint, fun domainId domain hdomain k hk => ?_, hsound.nonempty⟩
      have hne : k ≠ id := by
        rintro rfl
        exact unused domainId domain hdomain hk
      rw [currentRoster_dropRoster, if_neg hne]
      exact hsound.defined domainId domain hdomain k hk
  | assign domainId rosters hdomain hnonempty hdefined =>
      refine ⟨hdisjoint, fun k domain hk id hid => ?_, fun k domain hk hlive => ?_⟩
      · rw [effectiveRosters, AList.lookup_insert_eq_ite] at hid
        by_cases heq : k = domainId
        · rw [if_pos heq] at hid
          exact hdefined id hid
        · rw [if_neg heq] at hid
          exact hsound.defined k domain hk id hid
      · rw [effectiveRosters, AList.lookup_insert_eq_ite]
        by_cases heq : k = domainId
        · subst heq
          rw [hdomain, Option.some.injEq] at hk
          rw [if_pos rfl]
          exact hnonempty (hk ▸ hlive)
        · rw [if_neg heq]
          exact hsound.nonempty k domain hk hlive
  | profile modelProfiles => exact ⟨hdisjoint, hsound.defined, hsound.nonempty⟩

/-! ### Runs of edits -/

/-- The references among the overrides and the effective configuration are intact. -/
structure ReferentialIntegrity (baseline : AnemoiConfig) (overrides : GovernanceOverrides)
    (effective : AnemoiConfig) : Prop where
  disjoint : ∀ id ∈ overrides.residencyGroups, id ∉ overrides.removedResidencyGroups
  current_eq : ∀ id, (currentRoster overrides baseline id).map RosterOverride.intoConfig =
    effective.residencyGroups.lookup id
  rosters_known : ∀ domainId domain, effective.domains.lookup domainId = some domain →
    ∀ id ∈ domain.rosters, id ∈ effective.residencyGroups
  rosters_nonempty : ∀ domainId domain, effective.domains.lookup domainId = some domain →
    domain.liveRoster = none → domain.rosters ≠ []

theorem Sound.referentialIntegrity {baseline : AnemoiConfig}
    {overrides : GovernanceOverrides} (h : Sound baseline overrides) :
    ReferentialIntegrity baseline overrides (applyOverrides baseline overrides) := by
  refine ⟨h.disjoint, h.disjoint.currentRoster_eq baseline, ?_, ?_⟩
  · intro domainId domain hdomain id hid
    rw [applyOverrides.lookup_domains, Option.map_eq_some_iff] at hdomain
    obtain ⟨base, hbase, rfl⟩ := hdomain
    obtain ⟨roster, hroster⟩ := Option.isSome_iff_exists.mp
      (h.defined domainId base hbase id hid)
    rw [AList.mem_iff_lookup, ← h.disjoint.currentRoster_eq baseline id, hroster]
    exact ⟨_, rfl⟩
  · intro domainId domain hdomain
    rw [applyOverrides.lookup_domains, Option.map_eq_some_iff] at hdomain
    obtain ⟨base, hbase, rfl⟩ := hdomain
    exact h.nonempty domainId base hbase

/-- Every edit ends with the holder as it was or with accepted overrides swapped in. -/
theorem mutate_result (toJson : GovernanceOverrides → Except String String)
    (pattern : FailurePattern) (gov : Governance) (f : Edit) (s : FileState) :
    ((gov.mutate toJson f).run pattern.handle s).result.2 = gov ∨
      ∃ new, f gov.overrides gov.baseline = .ok new ∧
        ((gov.mutate toJson f).run pattern.handle s).result.2 = gov.swapIn new := by
  cases hf : f gov.overrides gov.baseline with
  | error e =>
      rw [Governance.mutate_of_rejected toJson hf]
      exact Or.inl rfl
  | ok new =>
      cases hpath : gov.overridesPath with
      | none =>
          rw [Governance.mutate_of_unpersisted toJson hf hpath]
          exact Or.inr ⟨new, rfl, rfl⟩
      | some path =>
          rw [Governance.mutate_of_accepted toJson hf hpath, Program.result_bind]
          cases ((writeOverridesAtomic toJson path new).run pattern.handle s).result with
          | error e => exact Or.inl rfl
          | ok _ => exact Or.inr ⟨new, rfl, rfl⟩

/-- The baseline of a holder is fixed, and its bundle is the one derived from its
overrides. -/
structure Derived (baseline : AnemoiConfig) (gov : Governance) : Prop where
  baseline_eq : gov.baseline = baseline
  effective_eq : gov.effective = buildBundle baseline gov.overrides

theorem derived_new (baseline : AnemoiConfig) (overrides : GovernanceOverrides)
    (path : Option OverridesPath) : Derived baseline (.new baseline overrides path) :=
  ⟨rfl, rfl⟩

/-- The scheduler in force is that of the configuration in force. -/
theorem Derived.scheduler_eq {baseline : AnemoiConfig} {gov : Governance}
    (h : Derived baseline gov) : gov.effective.scheduler = ⟨gov.effective.config⟩ := by
  rw [h.effective_eq]
  rfl

theorem Derived.swapIn {baseline : AnemoiConfig} {gov : Governance}
    (h : Derived baseline gov) (new : GovernanceOverrides) :
    Derived baseline (gov.swapIn new) :=
  ⟨h.baseline_eq, by rw [Governance.swapIn, h.baseline_eq]⟩

theorem Derived.editStep {baseline : AnemoiConfig}
    {toJson : GovernanceOverrides → Except String String} {s : Governance × Disk}
    (h : Derived baseline s.1) (i : EditRequest × FailurePattern) :
    Derived baseline (editStep toJson s i).2.1 := by
  rcases mutate_result toJson i.2 s.1 i.1.edit ⟨s.2, 0⟩ with heq | ⟨new, _, heq⟩
  · rw [Anemoi.editStep, heq]
    exact h
  · rw [Anemoi.editStep, heq]
    exact h.swapIn new

/-- The bundle stays derived from the overrides through every run of edits. -/
theorem derived_edits (baseline : AnemoiConfig) (overrides : GovernanceOverrides)
    (toJson : GovernanceOverrides → Except String String) (path : Option OverridesPath)
    (disk : Disk) (edits : List (EditRequest × FailurePattern)) :
    Derived baseline
      (Machine.runFrom (editStep toJson) (.new baseline overrides path, disk) edits).1 :=
  Machine.invariant_runFrom (editStep toJson) (I := fun s => Derived baseline s.1)
    (G := fun _ => True) (fun _ i h _ => h.editStep i) (fun _ _ => trivial)
    (derived_new baseline overrides path)

/-- The holder of a run that starts without overrides: these stay sound. -/
structure Holds (baseline : AnemoiConfig) (gov : Governance) : Prop
    extends Derived baseline gov where
  sound : Sound baseline gov.overrides

theorem Holds.editStep {baseline : AnemoiConfig}
    {toJson : GovernanceOverrides → Except String String} {s : Governance × Disk}
    (h : Holds baseline s.1) (i : EditRequest × FailurePattern) :
    Holds baseline (editStep toJson s i).2.1 := by
  refine ⟨h.toDerived.editStep i, ?_⟩
  rcases mutate_result toJson i.2 s.1 i.1.edit ⟨s.2, 0⟩ with heq | ⟨new, hnew, heq⟩
  · rw [Anemoi.editStep, heq]
    exact h.sound
  · rw [Anemoi.editStep, heq]
    rw [h.baseline_eq] at hnew
    exact h.sound.effect (effect_of_edit hnew)

/-- Referential integrity holds after every run of edits, accepted or rejected, from
empty overrides. -/
theorem referentialIntegrity_edits {baseline : AnemoiConfig}
    (hvalid : validateConfig baseline = [])
    (toJson : GovernanceOverrides → Except String String) (path : Option OverridesPath)
    (disk : Disk) (edits : List (EditRequest × FailurePattern)) :
    let gov := (Machine.runFrom (editStep toJson) (.new baseline {} path, disk) edits).1
    ReferentialIntegrity baseline gov.overrides gov.effective.config := by
  intro gov
  have hrun : Holds baseline gov :=
    Machine.invariant_runFrom (editStep toJson) (I := fun s => Holds baseline s.1)
      (G := fun _ => True) (fun s i h _ => h.editStep i) (fun _ _ => trivial)
      ⟨derived_new baseline {} path, sound_empty hvalid⟩
  rw [hrun.effective_eq]
  exact hrun.sound.referentialIntegrity

/-- One domain with one roster of one model. -/
def codingConfig : AnemoiConfig where
  domains := .ofList [(⟨"coding"⟩, { rosters := [⟨"fast"⟩] })]
  residencyGroups := .ofList [(⟨"fast"⟩, { models := [⟨"qwen9b"⟩] })]
  models := .ofList
    [(⟨"qwen9b"⟩, { family := "qwen", parameterClass := "9b", supportedRuntimes := [⟨"a"⟩] })]
  runtimes := .ofList [(⟨"a"⟩, { adapter := "mock", baseUrl := none, authToken := none })]

/-- A roster replaces the baseline's, which is then deleted and created again. -/
def replaceRosterEdits : List (EditRequest × FailurePattern) :=
  [.createRoster { id := "large" }, .patchDomainRosters "coding" ["large"],
   .deleteRoster "fast", .createRoster { id := "fast" }, .deleteRoster "large"].map
    fun req => (req, ⟨none, none, fun _ => none, none⟩)

theorem referentialIntegrity_replaceRoster :
    let gov := (Machine.runFrom (editStep fun _ => .error "unused")
      (.new codingConfig {} none, ⟨none, none⟩) replaceRosterEdits).1
    ReferentialIntegrity codingConfig gov.overrides gov.effective.config :=
  referentialIntegrity_edits (by decide) _ none _ replaceRosterEdits

end Anemoi
