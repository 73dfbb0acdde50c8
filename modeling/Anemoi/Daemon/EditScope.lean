import Anemoi.Daemon.PolicyApi
import Anemoi.Policy.Scope
import Anemoi.Policy.Validation

/-!
# How far an edit reaches

Operators edit rosters that several domains may share. An edit reaches the domains whose
rosters list other models or are kept hot from then on, the domain it assigns rosters to, and
the domains that list the model whose profile it sets. Rosters are created and deleted only
where no domain uses them.

`decide_of_untouched` says that nothing else changes: along any run of edits, a domain that no
edit reaches is decided as before.
-/

namespace Anemoi

open Systems

/-- Can the edit change what is decided for the domain? -/
def EditRequest.touches (config : AnemoiConfig) (domainId : DomainId) : EditRequest → Bool
  | createRoster _ | deleteRoster _ => false
  | patchRoster id req =>
      (config.staticRosters domainId).contains ⟨id⟩ &&
        (config.rosterReading ⟨id⟩).any fun roster =>
          (req.models.any fun models => models.map ModelId.mk != roster.1) ||
            req.keepHot.any fun keepHot => keepHot != roster.2
  | addRosterModel id modelId =>
      (config.staticRosters domainId).contains ⟨id⟩ && !(config.modelsOf ⟨id⟩).contains ⟨modelId⟩
  | removeRosterModel id modelId =>
      (config.staticRosters domainId).contains ⟨id⟩ && (config.modelsOf ⟨id⟩).contains ⟨modelId⟩
  | patchDomainRosters id _ => (⟨id⟩ : DomainId) = domainId
  | setModelProfile modelId _ => (config.rosterModels domainId).contains ⟨modelId⟩

/-! ### Edits of one configuration -/

section Edits

variable {domainId : DomainId} {store new : PolicyStore}

theorem readsAlike_putGroup (store : PolicyStore) {id : ResidencyGroupId}
    {group : ResidencyGroupConfig}
    (h : id ∈ store.config.staticRosters domainId →
      store.config.rosterReading id = some (group.models, group.keepHot)) :
    ReadsAlike domainId store.config (store.putGroup id group).config where
  domain := rfl
  roster k hk := by
    have hlookup : (store.putGroup id group).config.rosterReading k =
        if k = id then some (group.models, group.keepHot) else store.config.rosterReading k := by
      unfold AnemoiConfig.rosterReading PolicyStore.putGroup
      rw [AList.lookup_insert_eq_ite]
      by_cases hkey : k = id
      · rw [if_pos hkey, if_pos hkey]
        rfl
      · rw [if_neg hkey, if_neg hkey]
    rw [hlookup]
    by_cases hkey : k = id
    · rw [if_pos hkey, hkey, h (hkey ▸ hk)]
    · rw [if_neg hkey]
  profile _ _ := rfl
  continuity := rfl

/-- What is read of a roster, by its group. -/
theorem rosterReading_eq {id : ResidencyGroupId} {group : ResidencyGroupConfig}
    (hgroup : store.config.residencyGroups.lookup id = some group) :
    store.config.rosterReading id = some (group.models, group.keepHot) := by
  rw [AnemoiConfig.rosterReading, hgroup]
  rfl

theorem modelsOf_eq {id : ResidencyGroupId} {group : ResidencyGroupConfig}
    (hgroup : store.config.residencyGroups.lookup id = some group) :
    store.config.modelsOf id = group.models := by
  rw [AnemoiConfig.modelsOf, rosterReading_eq hgroup]
  rfl

/-- A value that is not sent, or is sent as it was, stays. -/
theorem getD_eq_of_any_ne {α : Type} [BEq α] [LawfulBEq α] {sent : Option α} {value : α}
    (h : (sent.any fun v => v != value) = false) : sent.getD value = value := by
  cases sent with
  | none => rfl
  | some v => exact bne_eq_false_iff_eq.mp h

theorem readsAlike_editGroup {id : String}
    {change : ResidencyGroupConfig → ResidencyGroupConfig}
    (hedit : store.editGroup id change = .ok new)
    (h : ⟨id⟩ ∈ store.config.staticRosters domainId → ∀ group,
      store.config.residencyGroups.lookup ⟨id⟩ = some group →
      (change group).models = group.models ∧ (change group).keepHot = group.keepHot) :
    ReadsAlike domainId store.config new.config := by
  unfold PolicyStore.editGroup at hedit
  cases hgroup : store.config.residencyGroups.lookup ⟨id⟩ with
  | none =>
      rw [hgroup] at hedit
      cases hedit
  | some group =>
      rw [hgroup, Except.ok.injEq] at hedit
      rw [← hedit]
      refine readsAlike_putGroup store fun hid => ?_
      obtain ⟨hmodels, hhot⟩ := h hid group hgroup
      rw [hmodels, hhot]
      exact rosterReading_eq hgroup

variable {baseline : AnemoiConfig}

theorem readsAlike_createRoster {req : CreateRosterRequest}
    (hknown : ∀ id ∈ store.config.staticRosters domainId, id ∈ store.config.residencyGroups)
    (hedit : PolicyStore.edit baseline store (.createRoster req) = .ok new) :
    ReadsAlike domainId store.config new.config := by
  rw [PolicyStore.edit] at hedit
  by_cases hmem : ⟨req.id⟩ ∈ store.config.residencyGroups
  · rw [if_pos hmem] at hedit
    cases hedit
  · rw [if_neg hmem, Except.ok.injEq] at hedit
    rw [← hedit]
    exact readsAlike_putGroup store fun hid => absurd (hknown _ hid) hmem

theorem readsAlike_deleteRoster {id : String}
    (hedit : PolicyStore.edit baseline store (.deleteRoster id) = .ok new) :
    ReadsAlike domainId store.config new.config := by
  rw [PolicyStore.edit] at hedit
  by_cases hmem : ⟨id⟩ ∉ store.config.residencyGroups
  · rw [if_pos hmem] at hedit
    cases hedit
  · rw [if_neg hmem] at hedit
    dsimp only at hedit
    split at hedit
    · cases hedit
    · next hunused =>
        rw [Except.ok.injEq] at hedit
        rw [← hedit]
        refine ⟨rfl, fun k hk => ?_, fun _ _ => rfl, rfl⟩
        -- a roster of the domain would be one that refers to the deleted one
        have hne : k ≠ ⟨id⟩ := by
          rintro rfl
          obtain ⟨domain, hdomain, -, hroster⟩ := AnemoiConfig.mem_staticRosters.mp hk
          refine hunused ?_
          rw [Bool.not_eq_true', List.isEmpty_eq_false_iff]
          exact List.ne_nil_of_mem (List.mem_filter.mpr
            ⟨AList.mem_items.mpr hdomain, List.contains_iff_mem.mpr hroster⟩)
        rw [AnemoiConfig.rosterReading, AnemoiConfig.rosterReading, AList.lookup_erase_eq_ite,
          if_neg hne]

theorem readsAlike_patchDomainRosters {id : String} {rosters : List String}
    (hedit : PolicyStore.edit baseline store (.patchDomainRosters id rosters) = .ok new)
    (hne : ⟨id⟩ ≠ domainId) : ReadsAlike domainId store.config new.config := by
  have hconfig : ∃ domain, new.config =
      { store.config with domains := store.config.domains.insert ⟨id⟩ domain } := by
    rw [PolicyStore.edit] at hedit
    split at hedit
    · cases hedit
    · split at hedit
      · cases hedit
      · dsimp only at hedit
        split at hedit
        · cases hedit
        · rw [Except.ok.injEq] at hedit
          rw [← hedit]
          exact ⟨_, rfl⟩
  obtain ⟨domain, hconfig⟩ := hconfig
  rw [hconfig]
  refine ⟨?_, fun _ _ => rfl, fun _ _ => rfl, rfl⟩
  rw [AList.lookup_insert_eq_ite, if_neg hne.symm]

theorem readsAlike_setModelProfile {modelId : String} {req : ModelProfileOverride}
    (hedit : PolicyStore.edit baseline store (.setModelProfile modelId req) = .ok new)
    (hunused : ⟨modelId⟩ ∉ store.config.rosterModels domainId) :
    ReadsAlike domainId store.config new.config := by
  rw [PolicyStore.edit, Except.ok.injEq] at hedit
  rw [← hedit]
  refine ⟨rfl, fun _ _ => rfl, fun k hk => ?_, rfl⟩
  have hne : k ≠ ⟨modelId⟩ := by
    rintro rfl
    exact hunused hk
  rw [AList.lookup_set, if_neg hne]

/-- An accepted edit shows a domain that it does not touch the same as before. -/
theorem readsAlike_edit {request : EditRequest}
    (hknown : ∀ id ∈ store.config.staticRosters domainId, id ∈ store.config.residencyGroups)
    (hedit : PolicyStore.edit baseline store request = .ok new)
    (hfree : request.touches store.config domainId = false) :
    ReadsAlike domainId store.config new.config := by
  cases request with
  | createRoster req => exact readsAlike_createRoster hknown hedit
  | deleteRoster id => exact readsAlike_deleteRoster hedit
  | patchRoster id req =>
      refine readsAlike_editGroup hedit fun hid group hgroup => ?_
      simp only [EditRequest.touches, List.contains_iff_mem.mpr hid, Bool.true_and,
        rosterReading_eq hgroup, Option.any_some, Bool.or_eq_false_iff] at hfree
      refine ⟨getD_eq_of_any_ne ?_, getD_eq_of_any_ne hfree.2⟩
      rw [Option.any_map]
      exact hfree.1
  | addRosterModel id modelId =>
      refine readsAlike_editGroup hedit fun hid group hgroup => ?_
      simp only [EditRequest.touches, List.contains_iff_mem.mpr hid, Bool.true_and,
        Bool.not_eq_false', modelsOf_eq hgroup] at hfree
      rw [if_pos hfree]
      exact ⟨rfl, rfl⟩
  | removeRosterModel id modelId =>
      refine readsAlike_editGroup hedit fun hid group hgroup => ⟨?_, rfl⟩
      simp only [EditRequest.touches, List.contains_iff_mem.mpr hid, Bool.true_and,
        modelsOf_eq hgroup] at hfree
      refine List.filter_eq_self.mpr fun model hmodel => ?_
      rw [bne_iff_ne]
      rintro rfl
      rw [List.contains_iff_mem.mpr hmodel] at hfree
      cases hfree
  | patchDomainRosters id rosters =>
      exact readsAlike_patchDomainRosters hedit (of_decide_eq_false hfree)
  | setModelProfile modelId req =>
      refine readsAlike_setModelProfile hedit fun hmem => ?_
      rw [EditRequest.touches, List.contains_iff_mem.mpr hmem] at hfree
      cases hfree

end Edits

/-! ### Runs of edits -/

section Runs

variable {domainId : DomainId} {c c' : AnemoiConfig}

/-- What an edit touches is read off the part of the configuration that the domain shows. -/
theorem touches_congr (h : c.Same c') (request : EditRequest) :
    request.touches c domainId = request.touches c' domainId := by
  have hrosters := (h.readsAlike domainId).staticRosters_eq
  have hmodels := (h.readsAlike domainId).rosterModels_eq
  have hreading : ∀ id, c.rosterReading id = c'.rosterReading id := by
    intro id
    rw [AnemoiConfig.rosterReading, AnemoiConfig.rosterReading, h.residencyGroups id]
  have hof : ∀ id, c.modelsOf id = c'.modelsOf id := by
    intro id
    rw [AnemoiConfig.modelsOf, AnemoiConfig.modelsOf, hreading id]
  cases request <;> simp only [EditRequest.touches, hrosters, hmodels, hreading, hof]

/-- The rosters of a domain are defined. -/
theorem Sound.known {baseline : AnemoiConfig} {overrides : GovernanceOverrides}
    (hsound : Sound baseline overrides) :
    ∀ id ∈ (listingOf baseline overrides).staticRosters domainId,
      id ∈ (listingOf baseline overrides).residencyGroups := by
  intro id hid
  obtain ⟨domain, hdomain, -, hroster⟩ := AnemoiConfig.mem_staticRosters.mp hid
  rw [(same_listingOf baseline overrides).domains] at hdomain
  exact hsound.referentialIntegrity.rosters_known _ domain hdomain id hroster

variable {baseline : AnemoiConfig} {s : Governance × Disk}

/-- One edit of the holder. -/
theorem Holds.readsAlike_editStep (h : Holds baseline s.1)
    (toJson : GovernanceOverrides → Except String String) (i : EditRequest × FailurePattern)
    (hfree : i.1.touches s.1.effective.config domainId = false) :
    ReadsAlike domainId s.1.effective.config
      (Anemoi.editStep toJson s i).2.1.effective.config := by
  have hconfig : s.1.effective.config = applyOverrides baseline s.1.overrides := by
    rw [h.effective_eq]
    rfl
  have hsame := (same_listingOf baseline s.1.overrides).symm
  rw [hconfig, touches_congr hsame] at hfree
  have hagrees : Agrees baseline (i.1.edit s.1.overrides baseline) (PolicyStore.edit baseline
      ⟨listingOf baseline s.1.overrides, fun model => model ∈ s.1.overrides.modelProfiles⟩ i.1) :=
    agrees_edit (fun _ => rfl) h.sound.disjoint i.1
  generalize hedit : PolicyStore.edit baseline
    ⟨listingOf baseline s.1.overrides, fun model => model ∈ s.1.overrides.modelProfiles⟩ i.1 =
      edited at hagrees
  rcases editStep_answers toJson s i with
    ⟨err, -, -, hgov⟩ | ⟨new, hf, -, hgov⟩ | ⟨new, e, -, -, hgov⟩
  · rw [hgov]
    exact (AnemoiConfig.Same.refl _).readsAlike domainId
  · rw [h.baseline_eq] at hf
    rw [hf] at hagrees
    cases hagrees with
    | accepted same _ =>
        rw [hgov, hconfig, Governance.swapIn, h.baseline_eq]
        exact ((hsame.readsAlike domainId).trans
          (readsAlike_edit h.sound.known hedit hfree)).trans (same.symm.readsAlike domainId)
  · rw [hgov]
    exact (AnemoiConfig.Same.refl _).readsAlike domainId

end Runs

/-- A domain that no edit of a run touches is decided at its end as at its start. -/
theorem decide_of_untouched {baseline : AnemoiConfig} {overrides : GovernanceOverrides}
    (hsound : Sound baseline overrides) (toJson : GovernanceOverrides → Except String String)
    (path : Option OverridesPath) (disk : Disk) (edits : List (EditRequest × FailurePattern))
    (request : InferenceRequest)
    (hfree : ∀ r ∈ Machine.logFrom (editStep toJson) (.new baseline overrides path, disk) edits,
      r.input.1.touches r.before.1.effective.config request.domain = false)
    (snapshots : List RuntimeSnapshot) (stamp : Stamp) :
    let first := Governance.new baseline overrides path
    let last := (Machine.runFrom (editStep toJson) (first, disk) edits).1
    last.effective.scheduler.decide request snapshots stamp =
      first.effective.scheduler.decide request snapshots stamp := by
  intro first last
  obtain ⟨hlast, hreads⟩ : Holds baseline last ∧
      ReadsAlike request.domain first.effective.config last.effective.config :=
    Machine.invariant_runFrom (editStep toJson)
      (I := fun s => Holds baseline s.1 ∧
        ReadsAlike request.domain first.effective.config s.1.effective.config)
      (G := fun r => r.input.1.touches r.before.1.effective.config request.domain = false)
      (fun s i h hG => ⟨h.1.editStep i, h.2.trans (h.1.readsAlike_editStep toJson i hG)⟩)
      hfree ⟨⟨derived_new baseline overrides path, hsound⟩,
        (AnemoiConfig.Same.refl _).readsAlike _⟩
  rw [hlast.scheduler_eq]
  exact (decide_congr hreads stamp).symm

/-- Two domains, each with a roster of its own. -/
def twoDomainsConfig : AnemoiConfig where
  domains := .ofList
    [(⟨"coding"⟩, { rosters := [⟨"fast"⟩] }), (⟨"chat"⟩, { rosters := [⟨"small"⟩] })]
  residencyGroups := .ofList
    [(⟨"fast"⟩, { models := [⟨"qwen9b"⟩] }), (⟨"small"⟩, { models := [⟨"gemma4b"⟩] })]
  models := .ofList
    [(⟨"qwen9b"⟩, { family := "qwen", parameterClass := "9b", supportedRuntimes := [⟨"a"⟩] }),
     (⟨"gemma4b"⟩, { family := "gemma", parameterClass := "4b", supportedRuntimes := [⟨"a"⟩] })]
  runtimes := .ofList [(⟨"a"⟩, { adapter := "mock", baseUrl := none, authToken := none })]

/-- The roster of `chat` is changed and then deleted, when the domain uses that of `coding`. -/
def chatEdits : List (EditRequest × FailurePattern) :=
  [.setModelProfile "gemma4b" { contextWindow := some 8192 },
   .addRosterModel "small" "qwen9b",
   .patchRoster "fast" { purpose := some ["chat", "coding"], models := some ["qwen9b"] },
   .patchDomainRosters "chat" ["fast"], .deleteRoster "small"].map
    fun req => (req, ⟨none, none, fun _ => none, none⟩)

theorem decide_of_untouched_chatEdits :
    let first := Governance.new twoDomainsConfig {} none
    let last := (Machine.runFrom (editStep fun _ => .error "unused") (first, ⟨none, none⟩)
      chatEdits).1
    last.effective.scheduler.decide (domainRequest ⟨"coding"⟩) [idleSnapshot ⟨"a"⟩] ⟨⟨0⟩, ⟨0⟩⟩ =
      first.effective.scheduler.decide (domainRequest ⟨"coding"⟩) [idleSnapshot ⟨"a"⟩] ⟨⟨0⟩, ⟨0⟩⟩ :=
  decide_of_untouched (sound_empty (by decide)) _ none _ chatEdits (domainRequest ⟨"coding"⟩)
    (by decide) [idleSnapshot ⟨"a"⟩] _

end Anemoi
