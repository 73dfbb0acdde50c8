import Anemoi.Policy.Selection

/-!
# Staged pairs

A decision that stages a model names two: the hot or warm one that ranks first, which is
served, and of the slow cold loads that meet the floor the one of the highest quality. The
two are chosen from different lists, and nothing compares them. This module says when the
staged model is better than the one that is served.

Whether anything is staged is up to the continuity policy. The `allow_background_load`
flags of the residency groups are not looked at.
-/

namespace Anemoi

open Systems

/-- A cold load that keeps the user waiting too long and meets the floor. -/
structure Candidate.IsSlowLoad (request : InferenceRequest) (continuity : ContinuityConfig)
    (c : Candidate) : Prop where
  action_eq : c.action = .coldLoad
  slow : continuity.maxBlankWaitMs < c.loadEstimateMs
  meets_floor : c.satisfiesFloor (qualityFloorValue request)

/-- What slow cold loads are compared by. -/
def Candidate.stageKey (c : Candidate) : ℤ ×ₗ String :=
  toLex ((qualityScore c.modelProfile).toInt, c.modelId.text)

/-- Of the hot and warm candidates, the first with the largest total. -/
def IsFallback (scheduler : Scheduler) (request : InferenceRequest) (generated : CandidateSet)
    (c : Candidate) : Prop :=
  FirstBest (totalOf request scheduler.config) Candidate.isHotOrWarm generated.candidates c

/-- The profile by which a domain's candidates of a model are judged. -/
def Scheduler.profileOf (scheduler : Scheduler) (domain : DomainId) (modelId : ModelId) :
    Option ModelProfile := do
  let domain ← scheduler.config.domains.lookup domain
  match domain.liveRoster with
  | some runtimeId => return synthesizeProfile modelId runtimeId
  | none => (scheduler.config.models.lookup modelId).map fun profile => profile.intoProfile modelId

namespace Scheduler

variable {scheduler : Scheduler} {request : InferenceRequest}
  {snapshots : List RuntimeSnapshot} {stamp : Stamp} {generated : CandidateSet} {d : Decision}

theorem Generated.profileOf_eq {c : Candidate} (h : Generated scheduler request snapshots c) :
    scheduler.profileOf request.domain c.modelId = some c.modelProfile := by
  cases h with
  | static hdomain hstatic _ _ _ hprofile _ _ _ =>
      simp only [profileOf, hdomain, bind, Option.bind, hstatic, generateCandidate,
        ModelProfileConfig.intoProfile, hprofile, Option.map_some]
  | live hdomain hlive _ _ _ _ =>
      simp only [profileOf, hdomain, bind, Option.bind, hlive, generateCandidate,
        synthesizeProfile, pure]

/-- The staged candidate is a slow load, and no other slow load has a larger key. -/
theorem isSlowLoad_coldLarge {cold : ScoredCandidate} {continuity : ContinuityConfig}
    (h : coldLarge (scheduler.eligible request generated) continuity = some cold) :
    cold.candidate ∈ generated.candidates ∧ cold.candidate.IsSlowLoad request continuity ∧
      ∀ c ∈ generated.candidates, c.IsSlowLoad request continuity →
        c.stageKey ≤ cold.candidate.stageKey := by
  obtain ⟨hmem, hslow⟩ := List.mem_filter.mp (mem_of_maxByKey h)
  obtain ⟨c, hc, hfloor, rfl⟩ := mem_eligible.mp hmem
  rw [isSlowColdLoad, Bool.and_eq_true, decide_eq_true_eq, decide_eq_true_eq] at hslow
  refine ⟨hc, ⟨hslow.1, hslow.2, hfloor⟩, fun c' hc' hslow' => ?_⟩
  refine key_le_of_maxByKey (b := scoreCandidate request c' scheduler.config) h ?_
  refine List.mem_filter.mpr ⟨mem_eligible.mpr ⟨c', hc', hslow'.meets_floor, rfl⟩, ?_⟩
  rw [isSlowColdLoad, Bool.and_eq_true, decide_eq_true_eq, decide_eq_true_eq]
  exact ⟨hslow'.action_eq, hslow'.slow⟩

theorem stageReason_mem_stageBehind (request : InferenceRequest)
    (floor : Option (String × Int32)) (cold fallback : ScoredCandidate) :
    stageReason request cold fallback ∈ (stageBehind request floor cold fallback).reasons := by
  have hstaged : stageReason request cold fallback ∈
      fallback.reasons ++ [stageReason request cold fallback] :=
    List.mem_append_right _ List.mem_cons_self
  unfold stageBehind
  cases floor with
  | none => exact hstaged
  | some f =>
      dsimp only
      split
      · exact List.mem_append_left _ hstaged
      · exact hstaged

/-- The two candidates of a staged decision. -/
structure StagedPair (scheduler : Scheduler) (request : InferenceRequest)
    (snapshots : List RuntimeSnapshot) (generated : CandidateSet) (d : Decision)
    (cold fallback : Candidate) : Prop where
  cold_generated : Generated scheduler request snapshots cold
  cold_slow : cold.IsSlowLoad request scheduler.config.continuity
  cold_best : ∀ c ∈ generated.candidates, c.IsSlowLoad request scheduler.config.continuity →
    c.stageKey ≤ cold.stageKey
  fallback_generated : Generated scheduler request snapshots fallback
  fallback_first : IsFallback scheduler request generated fallback
  selects : Selects d fallback
  background_eq : d.backgroundModel = some cold.modelId
  announced : stageReason request (scoreCandidate request cold scheduler.config)
    (scoreCandidate request fallback scheduler.config) ∈ d.explanation.reasons
  background_load : scheduler.config.continuity.backgroundLoad = true

theorem stagedPair_of_decide
    (hgenerated : scheduler.generateCandidates request snapshots = .ok generated)
    (h : scheduler.decide request snapshots stamp = .ok d)
    (haction : d.action = .stageBackground) :
    ∃ cold fallback, StagedPair scheduler request snapshots generated d cold fallback := by
  rcases decide_cases hgenerated h with ⟨-, rejectedOptions, rfl⟩ | ⟨best, _, hbest, -⟩
  · cases haction
  have hbestAction := (action_of_mem_eligible hgenerated (List.mem_of_head? hbest)).2
  obtain ⟨selected, _, houtcome, rfl⟩ := outcome_of_decide hgenerated h hbest
  cases houtcome with
  | @staged cold fallback hcold hfallback hwants _ =>
      obtain ⟨hmem, hslow, hmax⟩ := isSlowLoad_coldLarge hcold
      obtain ⟨f, rfl, hfirst⟩ := firstBest_of_hotFallback hfallback
      obtain ⟨c, -, -, rfl⟩ := mem_eligible.mp (List.mem_filter.mp (mem_of_maxByKey hcold)).1
      exact ⟨c, f,
        { cold_generated := (mem_candidates_iff hgenerated).mp hmem
          cold_slow := hslow
          cold_best := hmax
          fallback_generated := (mem_candidates_iff hgenerated).mp hfirst.mem
          fallback_first := hfirst
          selects := ⟨rfl, rfl, rfl⟩
          background_eq := rfl
          announced := stageReason_mem_stageBehind ..
          background_load := (wantsStage_iff.mp hwants).1 }⟩
  | blocked => exact absurd haction hbestAction
  | kept => exact absurd haction hbestAction

/-! ### Is staging an upgrade? -/

/-- The staged model is of a higher quality than the one that is served meanwhile; in
particular it is another model. -/
structure StagesUpgrade (scheduler : Scheduler) (request : InferenceRequest) (d : Decision) :
    Prop where
  better : ∃ selected background p q, d.selectedModel = some selected ∧
    d.backgroundModel = some background ∧
    scheduler.profileOf request.domain selected = some p ∧
    scheduler.profileOf request.domain background = some q ∧ qualityScore p < qualityScore q
  differs : d.backgroundModel ≠ d.selectedModel

theorem StagedPair.stagesUpgrade_iff {cold fallback : Candidate}
    (h : StagedPair scheduler request snapshots generated d cold fallback) :
    StagesUpgrade scheduler request d ↔
      qualityScore fallback.modelProfile < qualityScore cold.modelProfile := by
  constructor
  · rintro ⟨⟨selected, background, p, q, hselected, hbackground, hp, hq, hlt⟩, -⟩
    rw [h.selects.model_eq, Option.some.injEq] at hselected
    rw [h.background_eq, Option.some.injEq] at hbackground
    rw [← hselected, h.fallback_generated.profileOf_eq, Option.some.injEq] at hp
    rw [← hbackground, h.cold_generated.profileOf_eq, Option.some.injEq] at hq
    rw [hp, hq]
    exact hlt
  · intro hlt
    refine ⟨⟨_, _, _, _, h.selects.model_eq, h.background_eq, h.fallback_generated.profileOf_eq,
      h.cold_generated.profileOf_eq, hlt⟩, fun hsame => ?_⟩
    rw [h.background_eq, h.selects.model_eq, Option.some.injEq] at hsame
    rw [h.cold_generated.profile_eq h.fallback_generated hsame] at hlt
    exact Int32.lt_irrefl hlt

theorem qualityScore_le_of_stageKey_le {c c' : Candidate} (h : c.stageKey ≤ c'.stageKey) :
    qualityScore c.modelProfile ≤ qualityScore c'.modelProfile := by
  rw [Candidate.stageKey, Candidate.stageKey, Prod.Lex.toLex_le_toLex] at h
  dsimp only at h
  rw [Int32.le_iff_toInt_le]
  rcases h with hless | ⟨hequal, -⟩
  · exact hless.le
  · exact hequal.le

/-- Staging is an upgrade exactly when some slow cold load is of a higher quality than the
hot or warm candidate that ranks first. -/
theorem stagesUpgrade_decide_iff
    (hgenerated : scheduler.generateCandidates request snapshots = .ok generated)
    (h : scheduler.decide request snapshots stamp = .ok d)
    (haction : d.action = .stageBackground) :
    StagesUpgrade scheduler request d ↔
      ∀ fallback, IsFallback scheduler request generated fallback →
        ∃ cold ∈ generated.candidates, cold.IsSlowLoad request scheduler.config.continuity ∧
          qualityScore fallback.modelProfile < qualityScore cold.modelProfile := by
  obtain ⟨cold, fallback, hpair⟩ := stagedPair_of_decide hgenerated h haction
  rw [hpair.stagesUpgrade_iff]
  constructor
  · intro hlt fallback' hfallback'
    rw [← hpair.fallback_first.unique hfallback']
    exact ⟨cold, (mem_candidates_iff hgenerated).mpr hpair.cold_generated, hpair.cold_slow, hlt⟩
  · intro hsome
    obtain ⟨c, hc, hslow, hlt⟩ := hsome fallback hpair.fallback_first
    have hquality := qualityScore_le_of_stageKey_le (hpair.cold_best c hc hslow)
    exact Int32.lt_of_lt_of_le hlt hquality

/-- A request for a quick answer, of whatever quality. -/
def quickRequest : InferenceRequest :=
  { floorRequest with qualityFloor := none }

/-- The largest model is staged behind the hot ones. -/
theorem decide_busy : ∃ d,
    (Scheduler.mk busyConfig).decide quickRequest busySnapshots sampleStamp = .ok d ∧
      d.action = .stageBackground :=
  exists_ok_of_map (by decide +kernel)

theorem stagesUpgrade_iff_busy : ∃ generated d,
    (Scheduler.mk busyConfig).generateCandidates quickRequest busySnapshots = .ok generated ∧
    (Scheduler.mk busyConfig).decide quickRequest busySnapshots sampleStamp = .ok d ∧
    (StagesUpgrade (Scheduler.mk busyConfig) quickRequest d ↔
      ∀ fallback, IsFallback (Scheduler.mk busyConfig) quickRequest generated fallback →
        ∃ cold ∈ generated.candidates, cold.IsSlowLoad quickRequest busyConfig.continuity ∧
          qualityScore fallback.modelProfile < qualityScore cold.modelProfile) := by
  obtain ⟨d, h, haction⟩ := decide_busy
  obtain ⟨generated, hgenerated⟩ := generateCandidates_of_decide h
  exact ⟨generated, d, hgenerated, h, stagesUpgrade_decide_iff hgenerated h haction⟩

/-- The largest model is hot. -/
def largestHotSnapshots : List RuntimeSnapshot :=
  [{ runtimeId := ⟨"a"⟩, available := true, residents := [hotResident "qwen70b"]
     configuredModels := [], memory := {}, activeRequests := [], colocation := none },
   { runtimeId := ⟨"b"⟩, available := true, residents := []
     configuredModels := [], memory := {}, activeRequests := [], colocation := none }]

/-- Then a smaller one is staged behind it. -/
theorem not_stagesUpgrade_largestHot : ∃ d,
    (Scheduler.mk busyConfig).decide quickRequest largestHotSnapshots sampleStamp = .ok d ∧
    d.action = .stageBackground ∧ d.selectedModel = some ⟨"qwen70b"⟩ ∧
    d.backgroundModel = some ⟨"qwen35b"⟩ ∧
    ¬StagesUpgrade (Scheduler.mk busyConfig) quickRequest d := by
  have h : (Scheduler.mk busyConfig).decide quickRequest largestHotSnapshots sampleStamp =
    .ok _ := rfl
  refine ⟨_, h, by decide +kernel, by decide +kernel, by decide +kernel, fun hupgrade => ?_⟩
  obtain ⟨selected, background, p, q, hselected, hbackground, hp, hq, hlt⟩ := hupgrade.better
  have hselected' : some (ModelId.mk "qwen70b") = some selected := hselected
  have hbackground' : some (ModelId.mk "qwen35b") = some background := hbackground
  cases hselected'
  cases hbackground'
  cases hp
  cases hq
  exact absurd hlt (by decide)

end Scheduler

/-! ### The flags of the groups -/

/-- The group without its `allow_background_load` flag. -/
def ResidencyGroupConfig.unflagged (group : ResidencyGroupConfig) : ResidencyGroupConfig :=
  { group with allowBackgroundLoad := false }

/-- The configurations differ in the `allow_background_load` flags of their groups at
most. -/
structure SameButFlags (config config' : AnemoiConfig) : Prop where
  domains : config'.domains = config.domains
  groups : ∀ id, (config'.residencyGroups.lookup id).map ResidencyGroupConfig.unflagged =
    (config.residencyGroups.lookup id).map ResidencyGroupConfig.unflagged
  models : config'.models = config.models
  runtimes : config'.runtimes = config.runtimes
  continuity : config'.continuity = config.continuity

theorem candidatesForModel_unflagged (request : InferenceRequest)
    (snapshots : List RuntimeSnapshot) (models : Table ModelId ModelProfileConfig)
    (group : ResidencyGroupConfig) (id : ResidencyGroupId) (modelId : ModelId) :
    candidatesForModel request snapshots models (group.unflagged.intoGroup id) modelId =
      candidatesForModel request snapshots models (group.intoGroup id) modelId := rfl

namespace Scheduler

variable {scheduler scheduler' : Scheduler} {request : InferenceRequest}
  {snapshots : List RuntimeSnapshot} {stamp : Stamp} {d : Decision}

/-- What is collected over the groups of a domain, when it does not depend on their
flags. -/
theorem collect_domainGroups_eq (h : SameButFlags scheduler.config scheduler'.config)
    (domain : DomainConfig) {f : ResidencyGroup → CandidateSet}
    (hf : ∀ (group : ResidencyGroupConfig) id,
      f (group.unflagged.intoGroup id) = f (group.intoGroup id)) :
    CandidateSet.collect (scheduler'.domainGroups domain) f =
      CandidateSet.collect (scheduler.domainGroups domain) f := by
  unfold domainGroups
  induction domain.rosters with
  | nil => rfl
  | cons id rosters ih =>
      have hgroup := h.groups id
      cases hnew : scheduler'.config.residencyGroups.lookup id with
      | none =>
          cases hold : scheduler.config.residencyGroups.lookup id with
          | none =>
              rw [List.filterMap_cons_none (by rw [hnew]; rfl),
                List.filterMap_cons_none (by rw [hold]; rfl), ih]
          | some group =>
              rw [hnew, hold] at hgroup
              cases hgroup
      | some group' =>
          cases hold : scheduler.config.residencyGroups.lookup id with
          | none =>
              rw [hnew, hold] at hgroup
              cases hgroup
          | some group =>
              rw [hnew, hold, Option.map_some, Option.map_some, Option.some.injEq] at hgroup
              rw [List.filterMap_cons_some (by rw [hnew]; rfl),
                List.filterMap_cons_some (by rw [hold]; rfl)]
              -- the two groups are one but for their flags
              have hone : f (group'.intoGroup id) = f (group.intoGroup id) := by
                rw [← hf group', hgroup, hf group]
              change CandidateSet.append (f (group'.intoGroup id)) _ =
                CandidateSet.append (f (group.intoGroup id)) _
              rw [hone]
              exact congrArg (CandidateSet.append _) ih

theorem generateCandidates_unflagged (h : SameButFlags scheduler.config scheduler'.config) :
    scheduler'.generateCandidates request snapshots =
      scheduler.generateCandidates request snapshots := by
  unfold generateCandidates
  have hcollect := fun domain => collect_domainGroups_eq h domain
    (f := fun group => .collect group.models fun modelId =>
      candidatesForModel request snapshots scheduler.config.models group modelId)
    fun group id => congrArg (CandidateSet.collect group.models) <| funext fun modelId =>
      candidatesForModel_unflagged request snapshots scheduler.config.models group id modelId
  simp only [h.domains, h.models, hcollect]

theorem scoreCandidate_unflagged {config config' : AnemoiConfig}
    (h : SameButFlags config config') (c : Candidate) :
    scoreCandidate request c config' = scoreCandidate request c config := by
  unfold scoreCandidate
  rw [h.continuity]

/-- The flags make no difference to any decision. -/
theorem decide_unflagged (h : SameButFlags scheduler.config scheduler'.config) :
    scheduler'.decide request snapshots stamp = scheduler.decide request snapshots stamp := by
  have hscored : scheduler'.scoredCandidates request = scheduler.scoredCandidates request := by
    funext generated
    simp only [scoredCandidates, scoreCandidate_unflagged h]
  unfold decide
  rw [generateCandidates_unflagged h, hscored, h.continuity]

/-- A static domain's candidate is a model of one of its groups. -/
theorem Generated.exists_group {domain : DomainConfig} {c : Candidate}
    (h : Generated scheduler request snapshots c)
    (hdomain : scheduler.config.domains.lookup request.domain = some domain)
    (hstatic : domain.liveRoster = none) :
    ∃ groupId ∈ domain.rosters, ∃ group,
      scheduler.config.residencyGroups.lookup groupId = some group ∧
        c.modelId ∈ group.models := by
  cases h with
  | static hdomain' _ hgroupId hgroup hmodel _ _ _ _ =>
      rw [hdomain, Option.some.injEq] at hdomain'
      subst hdomain'
      exact ⟨_, hgroupId, _, hgroup, hmodel⟩
  | live hdomain' hlive _ _ _ _ =>
      exact absurd hlive (liveRoster_ne_some hdomain hstatic hdomain')

/-- Staging is up to the continuity policy: it allows background loads whenever a decision
stages one, and the same is staged whatever the groups' flags say. -/
theorem staging_whatever_flags (h : scheduler.decide request snapshots stamp = .ok d)
    (haction : d.action = .stageBackground) :
    scheduler.config.continuity.backgroundLoad = true ∧
    (∀ domain background, scheduler.config.domains.lookup request.domain = some domain →
      domain.liveRoster = none → d.backgroundModel = some background →
      ∃ groupId ∈ domain.rosters, ∃ group,
        scheduler.config.residencyGroups.lookup groupId = some group ∧
          background ∈ group.models) ∧
    ∀ config', SameButFlags scheduler.config config' →
      (Scheduler.mk config').decide request snapshots stamp = .ok d := by
  obtain ⟨generated, hgenerated⟩ := generateCandidates_of_decide h
  obtain ⟨cold, fallback, hpair⟩ := stagedPair_of_decide hgenerated h haction
  refine ⟨hpair.background_load, fun domain background hdomain hstatic hbackground => ?_,
    fun config' hflags => ?_⟩
  · rw [hpair.background_eq, Option.some.injEq] at hbackground
    rw [← hbackground]
    exact hpair.cold_generated.exists_group hdomain hstatic
  · have hsame : (Scheduler.mk config').decide request snapshots stamp =
        scheduler.decide request snapshots stamp := decide_unflagged hflags
    rw [hsame, h]

theorem staging_whatever_flags_busy : ∃ d,
    (Scheduler.mk busyConfig).decide quickRequest busySnapshots sampleStamp = .ok d ∧
    busyConfig.continuity.backgroundLoad = true ∧
    (∀ domain background, busyConfig.domains.lookup quickRequest.domain = some domain →
      domain.liveRoster = none → d.backgroundModel = some background →
      ∃ groupId ∈ domain.rosters, ∃ group,
        busyConfig.residencyGroups.lookup groupId = some group ∧ background ∈ group.models) ∧
    ∀ config', SameButFlags busyConfig config' →
      (Scheduler.mk config').decide quickRequest busySnapshots sampleStamp = .ok d := by
  obtain ⟨d, h, haction⟩ := decide_busy
  exact ⟨d, h, staging_whatever_flags h haction⟩

/-- A model is staged although no group that has it allows background loads. -/
theorem staged_without_flag_busy : ∃ d domain,
    (Scheduler.mk busyConfig).decide quickRequest busySnapshots sampleStamp = .ok d ∧
    d.action = .stageBackground ∧ d.backgroundModel = some ⟨"qwen70b"⟩ ∧
    busyConfig.domains.lookup quickRequest.domain = some domain ∧ domain.liveRoster = none ∧
    ¬∃ groupId ∈ domain.rosters, ∃ group,
      busyConfig.residencyGroups.lookup groupId = some group ∧
        ⟨"qwen70b"⟩ ∈ group.models ∧ group.allowBackgroundLoad = true := by
  refine ⟨_, _, rfl, by decide +kernel, by decide +kernel, rfl, rfl, ?_⟩
  rintro ⟨groupId, hgroupId, group, hgroup, -, hflag⟩
  have hnone : ∀ id ∈ [ResidencyGroupId.mk "fast", ⟨"large"⟩], ∀ g,
      busyConfig.residencyGroups.lookup id = some g → g.allowBackgroundLoad = false := by
    decide
  rw [hnone groupId hgroupId group hgroup] at hflag
  cases hflag

end Scheduler

end Anemoi
