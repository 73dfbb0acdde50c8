import Anemoi.Core.Merging
import Anemoi.Policy.Scheduler

/-!
# What a decision reads

A decision for a domain reads the domain, the models and the hotness of its rosters, the
profiles of these models and the continuity section. Configurations that agree on that decide
alike, whatever else they hold.
-/

namespace Anemoi

open Systems

/-! ### The part of a configuration -/

namespace AnemoiConfig

variable (config : AnemoiConfig)

/-- The rosters that a domain takes its candidates from; a live domain has none. -/
def staticRosters (id : DomainId) : List ResidencyGroupId :=
  match config.domains.lookup id with
  | some domain => if domain.liveRoster.isSome then [] else domain.rosters
  | none => []

/-- What is read of a roster: its models, and whether it is kept hot. -/
def rosterReading (id : ResidencyGroupId) : Option (List ModelId × Bool) :=
  (config.residencyGroups.lookup id).map fun group => (group.models, group.keepHot)

/-- The models of a roster. -/
def modelsOf (id : ResidencyGroupId) : List ModelId :=
  (config.rosterReading id).elim [] Prod.fst

/-- The models of a domain's rosters. -/
def rosterModels (id : DomainId) : List ModelId :=
  (config.staticRosters id).flatMap config.modelsOf

variable {config} in
theorem mem_staticRosters {id : DomainId} {rosterId : ResidencyGroupId} :
    rosterId ∈ config.staticRosters id ↔
      ∃ domain, config.domains.lookup id = some domain ∧ domain.liveRoster = none ∧
        rosterId ∈ domain.rosters := by
  unfold staticRosters
  cases config.domains.lookup id with
  | none => simp
  | some domain => cases hlive : domain.liveRoster <;> simp [hlive]

variable {config} in
theorem staticRosters_eq {id : DomainId} {domain : DomainConfig}
    (hdomain : config.domains.lookup id = some domain) (hstatic : domain.liveRoster = none) :
    config.staticRosters id = domain.rosters := by
  rw [staticRosters, hdomain]
  simp only [hstatic, Option.isSome_none, Bool.false_eq_true, if_false]

end AnemoiConfig

/-- Two configurations that show the scheduler the same for a domain. -/
structure ReadsAlike (domainId : DomainId) (c c' : AnemoiConfig) : Prop where
  domain : c.domains.lookup domainId = c'.domains.lookup domainId
  roster : ∀ id ∈ c.staticRosters domainId, c.rosterReading id = c'.rosterReading id
  profile : ∀ id ∈ c.rosterModels domainId, c.models.lookup id = c'.models.lookup id
  continuity : c.continuity = c'.continuity

namespace ReadsAlike

variable {domainId : DomainId} {c c' c'' : AnemoiConfig}

theorem staticRosters_eq (h : ReadsAlike domainId c c') :
    c.staticRosters domainId = c'.staticRosters domainId := by
  rw [AnemoiConfig.staticRosters, AnemoiConfig.staticRosters, h.domain]

theorem rosterModels_eq (h : ReadsAlike domainId c c') :
    c.rosterModels domainId = c'.rosterModels domainId := by
  rw [AnemoiConfig.rosterModels, AnemoiConfig.rosterModels, ← h.staticRosters_eq]
  exact List.flatMap_congr fun id hid => by
    rw [AnemoiConfig.modelsOf, AnemoiConfig.modelsOf, h.roster id hid]

theorem trans (h : ReadsAlike domainId c c') (h' : ReadsAlike domainId c' c'') :
    ReadsAlike domainId c c'' where
  domain := h.domain.trans h'.domain
  roster id hid := (h.roster id hid).trans (h'.roster id (h.staticRosters_eq ▸ hid))
  profile id hid := (h.profile id hid).trans (h'.profile id (h.rosterModels_eq ▸ hid))
  continuity := h.continuity.trans h'.continuity

end ReadsAlike

theorem AnemoiConfig.Same.readsAlike {c c' : AnemoiConfig} (h : c.Same c')
    (domainId : DomainId) : ReadsAlike domainId c c' where
  domain := h.domains domainId
  roster id _ := by rw [rosterReading, rosterReading, h.residencyGroups id]
  profile id _ := h.models id
  continuity := h.continuity

/-! ### Candidates -/

namespace CandidateSet

theorem collect_congr {α : Type} {l : List α} {f g : α → CandidateSet}
    (h : ∀ a ∈ l, f a = g a) : collect l f = collect l g := by
  induction l with
  | nil => rfl
  | cons a l ih =>
      obtain ⟨ha, hl⟩ := List.forall_mem_cons.mp h
      change append (f a) (collect l f) = append (g a) (collect l g)
      rw [ha, ih hl]

theorem collect_filterMap {α β : Type} (l : List α) (f : α → Option β) (g : β → CandidateSet) :
    collect (l.filterMap f) g = collect l fun a => (f a).elim empty g := by
  induction l with
  | nil => rfl
  | cons a l ih =>
      change _ = append ((f a).elim empty g) (collect l fun a => (f a).elim empty g)
      rw [← ih]
      cases h : f a with
      | none => rw [List.filterMap_cons_none h]; rfl
      | some b => rw [List.filterMap_cons_some h]; rfl

end CandidateSet

section Congruence

variable {domainId : DomainId} {c c' : AnemoiConfig} {request : InferenceRequest}
  {snapshots : List RuntimeSnapshot}

/-- Of a group, a candidate has the id and the hotness. -/
theorem generateCandidate_congr {group group' : ResidencyGroup} (hid : group.id = group'.id)
    (hhot : group.keepHot = group'.keepHot) (model : ModelProfile) (runtimeId : RuntimeId)
    (snapshot : RuntimeSnapshot) :
    generateCandidate group model runtimeId snapshot =
      generateCandidate group' model runtimeId snapshot := by
  rw [generateCandidate, generateCandidate, hid, hhot]

theorem candidatesForModel_congr {models models' : Table ModelId ModelProfileConfig}
    {group group' : ResidencyGroup} {modelId : ModelId} (hid : group.id = group'.id)
    (hhot : group.keepHot = group'.keepHot)
    (hprofile : models.lookup modelId = models'.lookup modelId) :
    candidatesForModel request snapshots models group modelId =
      candidatesForModel request snapshots models' group' modelId := by
  unfold candidatesForModel
  simp only [hprofile, generateCandidate_congr hid hhot]

/-- The candidates of one roster. -/
def rosterCandidates (config : AnemoiConfig) (request : InferenceRequest)
    (snapshots : List RuntimeSnapshot) (id : ResidencyGroupId) : CandidateSet :=
  ((config.residencyGroups.lookup id).map fun group => group.intoGroup id).elim
    CandidateSet.empty fun group => .collect group.models fun modelId =>
      candidatesForModel request snapshots config.models group modelId

theorem rosterCandidates_congr (h : ReadsAlike domainId c c') {id : ResidencyGroupId}
    (hid : id ∈ c.staticRosters domainId) :
    rosterCandidates c request snapshots id = rosterCandidates c' request snapshots id := by
  have hreading := h.roster id hid
  have hmodels : ∀ group, c.residencyGroups.lookup id = some group → ∀ modelId ∈ group.models,
      c.models.lookup modelId = c'.models.lookup modelId := by
    intro group hgroup modelId hmodel
    refine h.profile modelId (List.mem_flatMap.mpr ⟨id, hid, ?_⟩)
    rw [AnemoiConfig.modelsOf, AnemoiConfig.rosterReading, hgroup]
    exact hmodel
  unfold AnemoiConfig.rosterReading at hreading
  unfold rosterCandidates
  cases hgroup : c.residencyGroups.lookup id with
  | none =>
      rw [hgroup, Option.map_none, eq_comm, Option.map_eq_none_iff] at hreading
      rw [hreading]
      rfl
  | some group =>
      rw [hgroup, Option.map_some, eq_comm, Option.map_eq_some_iff] at hreading
      obtain ⟨group', hgroup', heq⟩ := hreading
      obtain ⟨hlist, hhot⟩ := Prod.mk.inj heq
      rw [hgroup']
      change CandidateSet.collect group.models _ = CandidateSet.collect group'.models _
      rw [hlist]
      exact CandidateSet.collect_congr fun modelId hmodel =>
        candidatesForModel_congr rfl hhot.symm (hmodels group hgroup modelId hmodel)

theorem generateCandidates_congr (h : ReadsAlike request.domain c c') :
    Scheduler.generateCandidates ⟨c⟩ request snapshots =
      Scheduler.generateCandidates ⟨c'⟩ request snapshots := by
  unfold Scheduler.generateCandidates
  rw [← h.domain]
  cases hdomain : c.domains.lookup request.domain with
  | none => rfl
  | some domain =>
      cases hlive : domain.liveRoster with
      | some runtimeId => simp only [hlive]
      | none =>
          have hrosters := AnemoiConfig.staticRosters_eq hdomain hlive
          simp only [hlive, Scheduler.domainGroups, CandidateSet.collect_filterMap]
          have hcollect :
              CandidateSet.collect domain.rosters (rosterCandidates c request snapshots) =
                .collect domain.rosters (rosterCandidates c' request snapshots) :=
            CandidateSet.collect_congr fun id hid => rosterCandidates_congr h (hrosters ▸ hid)
          unfold rosterCandidates at hcollect
          rw [hcollect]

theorem scoreCandidate_congr (hcontinuity : c.continuity = c'.continuity)
    (candidate : Candidate) :
    scoreCandidate request candidate c = scoreCandidate request candidate c' := by
  rw [scoreCandidate, scoreCandidate, hcontinuity]

/-- Configurations that show the same for a domain decide its requests alike. -/
theorem decide_congr (h : ReadsAlike request.domain c c') (stamp : Stamp) :
    Scheduler.decide ⟨c⟩ request snapshots stamp =
      Scheduler.decide ⟨c'⟩ request snapshots stamp := by
  unfold Scheduler.decide Scheduler.scoredCandidates
  rw [generateCandidates_congr h]
  simp only [scoreCandidate_congr h.continuity, h.continuity]

end Congruence

end Anemoi
