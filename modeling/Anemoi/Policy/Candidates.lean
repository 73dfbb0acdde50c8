import Anemoi.Core.Config
import Anemoi.Text.ModelName

/-!
# Candidates

A candidate is a model on a runtime, as a member of a residency group. A static
domain takes its candidates from the configured groups and profiles, a live domain
from the models one runtime reports, with profiles made up from their ids.

`Generated` lists the two ways a candidate comes about, with everything that was
checked on the way. `mem_candidates_iff` says that these are exactly the candidates
of `generateCandidates`, and the scheduler's proofs go through it.
-/

namespace Anemoi

open Systems

inductive PolicyError where
  | unknownDomain (domain : DomainId)
  | emptyRoster (domain : DomainId)
  | liveRosterRuntimeMissing (domain : DomainId) (runtime : RuntimeId)
  deriving DecidableEq, Repr

instance : ToString PolicyError where
  toString
    | .unknownDomain domain => s!"unknown domain {domain}"
    | .emptyRoster domain => s!"domain {domain} has no configured roster"
    | .liveRosterRuntimeMissing domain runtime =>
        s!"domain {domain} live_roster references unknown runtime {runtime}"

structure Candidate where
  action : DecisionAction
  modelId : ModelId
  runtimeId : RuntimeId
  groupId : ResidencyGroupId
  modelProfile : ModelProfile
  residencyState : ResidencyState
  loadEstimateMs : UInt64
  runtimeMemory : RuntimeMemorySnapshot
  activeRequestCount : ℕ
  groupKeepHot : Bool
  colocation : Option ColocationConstraints
  deriving DecidableEq, Repr

structure CandidateSet where
  candidates : List Candidate
  rejectedOptions : List RejectedOption
  deriving DecidableEq, Repr

/-! ### One candidate -/

/-- The state of a model on a runtime; a model that is not resident is cold. -/
def residencyOf (snapshot : RuntimeSnapshot) (modelId : ModelId) : ResidencyState :=
  match snapshot.residents.find? fun resident => resident.modelId = modelId with
  | some resident => resident.state
  | none => .cold

def actionFor : ResidencyState → DecisionAction
  | .hotGpu | .serving => .reuseHot
  | .warmCpu | .partial_ | .loading => .promoteWarm
  | .cold | .failed => .coldLoad
  | .draining | .evicting => .defer

def loadEstimateFor (action : DecisionAction) (model : ModelProfile) : UInt64 :=
  match action with
  | .coldLoad => model.coldLoadEstimateMs.getD 30000
  | .promoteWarm => model.coldLoadEstimateMs.getD 10000 / 3
  | _ => 0

def generateCandidate (group : ResidencyGroup) (model : ModelProfile)
    (runtimeId : RuntimeId) (snapshot : RuntimeSnapshot) : Candidate :=
  let state := residencyOf snapshot model.id
  let action := actionFor state
  { action
    modelId := model.id
    runtimeId
    groupId := group.id
    modelProfile := model
    residencyState := state
    loadEstimateMs := loadEstimateFor action model
    runtimeMemory := snapshot.memory
    activeRequestCount := snapshot.activeRequests.length
    groupKeepHot := group.keepHot
    colocation := snapshot.colocation }

/-! ### Profiles of live models -/

def extractParameterClass (id : String) : String :=
  parameterToken id

/-- The profile of a model that a live runtime reports, made up from its id. -/
def synthesizeProfile (modelId : ModelId) (runtimeId : RuntimeId) : ModelProfile where
  id := modelId
  family := familyPrefix modelId.text
  parameterClass := extractParameterClass modelId.text
  contextWindow := none
  vramRequiredMb := none
  ramRequiredMb := none
  coldLoadEstimateMs := none
  supportsStreaming := some true
  supportedRuntimes := [runtimeId]

/-! ### The context window -/

/-- `u32::saturating_add`. -/
def saturatingAdd (a b : UInt32) : UInt32 :=
  UInt32.ofNat (min (a.toNat + b.toNat) (2 ^ 32 - 1))

def requestRequiredTokens (request : InferenceRequest) : Option UInt32 :=
  request.promptTokensEstimate.map fun prompt =>
    saturatingAdd prompt (request.maxOutputTokens.getD 0)

def contextWindowFit (request : InferenceRequest) (model : ModelProfile) :
    Option (UInt32 × UInt32) := do
  let required ← requestRequiredTokens request
  let available ← model.contextWindow
  if required ≤ available then some (required, available) else none

def contextWindowRejection (request : InferenceRequest) (model : ModelProfile) :
    Option String := do
  let required ← requestRequiredTokens request
  let available ← model.contextWindow
  if available < required then
    some (s!"request requires {required} token(s) but {model.id} context window is " ++
      s!"{available} token(s)")
  else none

/-! ### All candidates of a request -/

structure Scheduler where
  config : AnemoiConfig

namespace CandidateSet

def empty : CandidateSet := ⟨[], []⟩

def reject (modelId : ModelId) (reason : String) : CandidateSet :=
  ⟨[], [{ modelId := some modelId, runtimeId := none, reason }]⟩

/-- One set after the other, candidates and rejections in order. -/
def append (a b : CandidateSet) : CandidateSet :=
  ⟨a.candidates ++ b.candidates, a.rejectedOptions ++ b.rejectedOptions⟩

/-- The sets that `f` gives for the elements of `l`, one after the other. -/
def collect {α : Type} (l : List α) (f : α → CandidateSet) : CandidateSet :=
  l.foldr (fun a rest => append (f a) rest) empty

@[simp] theorem candidates_reject (modelId : ModelId) (reason : String) :
    (reject modelId reason).candidates = [] := rfl

theorem mem_candidates_collect {α : Type} {l : List α} {f : α → CandidateSet}
    {c : Candidate} :
    c ∈ (collect l f).candidates ↔ ∃ a ∈ l, c ∈ (f a).candidates := by
  induction l with
  | nil => simp [collect, empty]
  | cons a l ih =>
      have hcons : (collect (a :: l) f).candidates =
          (f a).candidates ++ (collect l f).candidates := rfl
      rw [hcons, List.mem_append, ih, List.exists_mem_cons_iff]

end CandidateSet

/-- The snapshot that makes a runtime available, if one does. -/
def availableSnapshot (snapshots : List RuntimeSnapshot) (runtimeId : RuntimeId) :
    Option RuntimeSnapshot :=
  snapshots.find? fun snapshot => snapshot.runtimeId = runtimeId && snapshot.available

/-- The candidates of one model of one group, or why there are none. -/
def candidatesForModel (request : InferenceRequest) (snapshots : List RuntimeSnapshot)
    (models : Table ModelId ModelProfileConfig) (group : ResidencyGroup)
    (modelId : ModelId) : CandidateSet :=
  match models.lookup modelId with
  | none =>
      .reject modelId "model is referenced by a residency group but has no profile"
  | some profile =>
      let model := profile.intoProfile modelId
      match contextWindowRejection request model with
      | some reason => .reject modelId reason
      | none =>
          let runtimeCandidates := model.supportedRuntimes.filterMap fun runtimeId =>
            (availableSnapshot snapshots runtimeId).map fun snapshot =>
              generateCandidate group model runtimeId snapshot
          if runtimeCandidates.isEmpty then
            .reject modelId "no supported runtime is currently available"
          else ⟨runtimeCandidates, []⟩

/-- The group that stands for the models a live runtime reports. -/
def liveGroup (models : List ModelId) : ResidencyGroup where
  id := ⟨"live"⟩
  purpose := []
  models := models
  keepHot := false
  allowBackgroundLoad := true
  pinned := false

/-- The candidates that an available live runtime reports. -/
def liveCandidates (request : InferenceRequest) (runtimeId : RuntimeId)
    (snapshot : RuntimeSnapshot) : List Candidate :=
  snapshot.configuredModels.filterMap fun modelId =>
    let profile := synthesizeProfile modelId runtimeId
    if (contextWindowRejection request profile).isSome then none
    else
      some (generateCandidate (liveGroup snapshot.configuredModels) profile runtimeId snapshot)

namespace Scheduler

/-- The groups of a domain that the configuration defines. -/
def domainGroups (scheduler : Scheduler) (domain : DomainConfig) : List ResidencyGroup :=
  domain.rosters.filterMap fun id =>
    (scheduler.config.residencyGroups.lookup id).map fun group => group.intoGroup id

def generateCandidates (scheduler : Scheduler) (request : InferenceRequest)
    (snapshots : List RuntimeSnapshot) : Except PolicyError CandidateSet :=
  match scheduler.config.domains.lookup request.domain with
  | none => .error (.unknownDomain request.domain)
  | some domain =>
      match domain.liveRoster with
      | some liveRuntimeId =>
          match snapshots.find? fun s => s.runtimeId = liveRuntimeId with
          | none => .error (.liveRosterRuntimeMissing request.domain liveRuntimeId)
          | some snapshot =>
              if snapshot.available then
                .ok ⟨liveCandidates request liveRuntimeId snapshot, []⟩
              else
                .ok ⟨[], [{ modelId := none
                            runtimeId := some liveRuntimeId
                            reason :=
                              s!"live_roster runtime {liveRuntimeId} is not available" }]⟩
      | none =>
          if domain.rosters.isEmpty then .error (.emptyRoster request.domain)
          else
            .ok (.collect (scheduler.domainGroups domain) fun group =>
              .collect group.models fun modelId =>
                candidatesForModel request snapshots scheduler.config.models group modelId)

/-! ### Which candidates there are -/

/-- The ways a candidate comes about. -/
inductive Generated (scheduler : Scheduler) (request : InferenceRequest)
    (snapshots : List RuntimeSnapshot) : Candidate → Prop
  | static {domain : DomainConfig} {groupId : ResidencyGroupId}
      {group : ResidencyGroupConfig} {modelId : ModelId} {profile : ModelProfileConfig}
      {runtimeId : RuntimeId} {snapshot : RuntimeSnapshot}
      (domain_eq : scheduler.config.domains.lookup request.domain = some domain)
      (not_live : domain.liveRoster = none)
      (group_mem : groupId ∈ domain.rosters)
      (group_eq : scheduler.config.residencyGroups.lookup groupId = some group)
      (model_mem : modelId ∈ group.models)
      (profile_eq : scheduler.config.models.lookup modelId = some profile)
      (fits : contextWindowRejection request (profile.intoProfile modelId) = none)
      (runtime_mem : runtimeId ∈ profile.supportedRuntimes)
      (snapshot_eq : availableSnapshot snapshots runtimeId = some snapshot) :
      Generated scheduler request snapshots
        (generateCandidate (group.intoGroup groupId) (profile.intoProfile modelId)
          runtimeId snapshot)
  | live {domain : DomainConfig} {runtimeId : RuntimeId} {snapshot : RuntimeSnapshot}
      {modelId : ModelId}
      (domain_eq : scheduler.config.domains.lookup request.domain = some domain)
      (is_live : domain.liveRoster = some runtimeId)
      (snapshot_eq : snapshots.find? (fun s => s.runtimeId = runtimeId) = some snapshot)
      (available : snapshot.available = true)
      (model_mem : modelId ∈ snapshot.configuredModels)
      (fits : contextWindowRejection request (synthesizeProfile modelId runtimeId) = none) :
      Generated scheduler request snapshots
        (generateCandidate (liveGroup snapshot.configuredModels)
          (synthesizeProfile modelId runtimeId) runtimeId snapshot)

theorem mem_candidatesForModel_iff {request : InferenceRequest}
    {snapshots : List RuntimeSnapshot} {models : Table ModelId ModelProfileConfig}
    {group : ResidencyGroup} {modelId : ModelId} {c : Candidate} :
    c ∈ (candidatesForModel request snapshots models group modelId).candidates ↔
      ∃ profile, models.lookup modelId = some profile ∧
        contextWindowRejection request (profile.intoProfile modelId) = none ∧
        ∃ runtimeId ∈ profile.supportedRuntimes, ∃ snapshot,
          availableSnapshot snapshots runtimeId = some snapshot ∧
          c = generateCandidate group (profile.intoProfile modelId) runtimeId snapshot := by
  unfold candidatesForModel
  cases hprofile : models.lookup modelId with
  | none => simp
  | some profile =>
      cases hfits : contextWindowRejection request (profile.intoProfile modelId) with
      | some reason => simp [hfits]
      | none =>
          simp only [hfits, Option.some.injEq, exists_eq_left', true_and]
          have hmem : (c ∈ (profile.intoProfile modelId).supportedRuntimes.filterMap
              fun runtimeId => (availableSnapshot snapshots runtimeId).map fun snapshot =>
                generateCandidate group (profile.intoProfile modelId) runtimeId snapshot) ↔
              ∃ runtimeId ∈ profile.supportedRuntimes, ∃ snapshot,
                availableSnapshot snapshots runtimeId = some snapshot ∧
                c = generateCandidate group (profile.intoProfile modelId) runtimeId
                  snapshot := by
            rw [List.mem_filterMap]
            refine exists_congr fun runtimeId => and_congr Iff.rfl ?_
            rw [Option.map_eq_some_iff]
            exact exists_congr fun snapshot => and_congr Iff.rfl eq_comm
          rw [← hmem]
          -- an empty list of candidates is reported as a rejection
          split
          · next hempty =>
              rw [List.isEmpty_iff.mp hempty]
              rfl
          · rfl

theorem mem_liveCandidates_iff {request : InferenceRequest} {runtimeId : RuntimeId}
    {snapshot : RuntimeSnapshot} {c : Candidate} :
    c ∈ liveCandidates request runtimeId snapshot ↔
      ∃ modelId ∈ snapshot.configuredModels,
        contextWindowRejection request (synthesizeProfile modelId runtimeId) = none ∧
        c = generateCandidate (liveGroup snapshot.configuredModels)
          (synthesizeProfile modelId runtimeId) runtimeId snapshot := by
  rw [liveCandidates, List.mem_filterMap]
  refine exists_congr fun modelId => and_congr Iff.rfl ?_
  by_cases hfits : contextWindowRejection request (synthesizeProfile modelId runtimeId) = none
  · simp only [hfits, Option.isSome_none, Bool.false_eq_true, if_false, Option.some.injEq,
      true_and]
    exact eq_comm
  · have hrejected := Option.isSome_iff_ne_none.mpr hfits
    simp [hrejected, hfits]

/-- What a successful generation read: an available or unavailable live runtime, or
the static rosters of the domain. -/
theorem generateCandidates_cases {scheduler : Scheduler} {request : InferenceRequest}
    {snapshots : List RuntimeSnapshot} {generated : CandidateSet}
    (h : scheduler.generateCandidates request snapshots = .ok generated) :
    ∃ domain, scheduler.config.domains.lookup request.domain = some domain ∧
      ((∃ runtimeId snapshot, domain.liveRoster = some runtimeId ∧
          snapshots.find? (fun s => s.runtimeId = runtimeId) = some snapshot ∧
          generated.candidates =
            if snapshot.available then liveCandidates request runtimeId snapshot else []) ∨
        (domain.liveRoster = none ∧
          generated = .collect (scheduler.domainGroups domain) fun group =>
            .collect group.models fun modelId =>
              candidatesForModel request snapshots scheduler.config.models group modelId)) := by
  unfold generateCandidates at h
  cases hdomain : scheduler.config.domains.lookup request.domain with
  | none =>
      simp only [hdomain] at h
      cases h
  | some domain =>
      simp only [hdomain] at h
      refine ⟨domain, rfl, ?_⟩
      cases hlive : domain.liveRoster with
      | some runtimeId =>
          simp only [hlive] at h
          cases hsnapshot : snapshots.find? fun s => s.runtimeId = runtimeId with
          | none =>
              simp only [hsnapshot] at h
              cases h
          | some snapshot =>
              simp only [hsnapshot] at h
              refine Or.inl ⟨runtimeId, snapshot, rfl, hsnapshot, ?_⟩
              by_cases havailable : snapshot.available = true
              · rw [if_pos havailable, Except.ok.injEq] at h
                rw [if_pos havailable, ← h]
              · rw [if_neg havailable, Except.ok.injEq] at h
                rw [if_neg havailable, ← h]
      | none =>
          simp only [hlive] at h
          by_cases hempty : domain.rosters.isEmpty = true
          · rw [if_pos hempty] at h
            cases h
          · rw [if_neg hempty, Except.ok.injEq] at h
            exact Or.inr ⟨rfl, h.symm⟩

theorem mem_domainGroups_iff {scheduler : Scheduler} {domain : DomainConfig}
    {group : ResidencyGroup} :
    group ∈ scheduler.domainGroups domain ↔
      ∃ groupId ∈ domain.rosters, ∃ config,
        scheduler.config.residencyGroups.lookup groupId = some config ∧
        group = config.intoGroup groupId := by
  rw [domainGroups, List.mem_filterMap]
  refine exists_congr fun groupId => and_congr Iff.rfl ?_
  rw [Option.map_eq_some_iff]
  exact exists_congr fun config => and_congr Iff.rfl eq_comm

/-- A domain does not have both a live roster and a static one. -/
theorem liveRoster_ne_some {domains : Table DomainId DomainConfig} {id : DomainId}
    {domain domain' : DomainConfig} {runtimeId : RuntimeId}
    (hdomain : domains.lookup id = some domain) (hstatic : domain.liveRoster = none)
    (hdomain' : domains.lookup id = some domain') : domain'.liveRoster ≠ some runtimeId := by
  rw [hdomain, Option.some.injEq] at hdomain'
  rw [← hdomain', hstatic]
  exact (Option.some_ne_none runtimeId).symm

theorem mem_candidates_iff {scheduler : Scheduler} {request : InferenceRequest}
    {snapshots : List RuntimeSnapshot} {generated : CandidateSet} {c : Candidate}
    (h : scheduler.generateCandidates request snapshots = .ok generated) :
    c ∈ generated.candidates ↔ Generated scheduler request snapshots c := by
  obtain ⟨domain, hdomain, hcases⟩ := generateCandidates_cases h
  rcases hcases with ⟨runtimeId, snapshot, hlive, hsnapshot, heq⟩ | ⟨hstatic, heq⟩
  · rw [heq]
    constructor
    · intro hc
      by_cases havailable : snapshot.available = true
      · rw [if_pos havailable, mem_liveCandidates_iff] at hc
        obtain ⟨modelId, hmodel, hfits, rfl⟩ := hc
        exact .live hdomain hlive hsnapshot havailable hmodel hfits
      · rw [if_neg havailable] at hc
        cases hc
    · intro hc
      cases hc with
      | static hdomain' hstatic =>
          exact absurd hlive (liveRoster_ne_some hdomain' hstatic hdomain)
      | live hdomain' hlive' hsnapshot' havailable hmodel hfits =>
          rw [hdomain, Option.some.injEq] at hdomain'
          rw [← hdomain', hlive, Option.some.injEq] at hlive'
          subst hlive'
          rw [hsnapshot, Option.some.injEq] at hsnapshot'
          subst hsnapshot'
          rw [if_pos havailable, mem_liveCandidates_iff]
          exact ⟨_, hmodel, hfits, rfl⟩
  · subst heq
    simp only [CandidateSet.mem_candidates_collect, mem_domainGroups_iff,
      mem_candidatesForModel_iff]
    constructor
    · rintro ⟨group, ⟨groupId, hgroupId, config, hgroup, rfl⟩, modelId, hmodel, profile,
        hprofile, hfits, runtimeId, hruntime, snapshot, hsnapshot, rfl⟩
      exact .static hdomain hstatic hgroupId hgroup hmodel hprofile hfits hruntime hsnapshot
    · intro hc
      cases hc with
      | static hdomain' _ hgroupId hgroup hmodel hprofile hfits hruntime hsnapshot =>
          rw [hdomain, Option.some.injEq] at hdomain'
          subst hdomain'
          exact ⟨_, ⟨_, hgroupId, _, hgroup, rfl⟩, _, hmodel, _, hprofile, hfits, _, hruntime,
            _, hsnapshot, rfl⟩
      | live hdomain' hlive =>
          exact absurd hlive (liveRoster_ne_some hdomain hstatic hdomain')

/-- A candidate's runtime is available in one of the snapshots, and the candidate is
generated from that snapshot. -/
theorem Generated.exists_snapshot {scheduler : Scheduler} {request : InferenceRequest}
    {snapshots : List RuntimeSnapshot} {c : Candidate}
    (h : Generated scheduler request snapshots c) :
    ∃ snapshot ∈ snapshots, snapshot.runtimeId = c.runtimeId ∧ snapshot.available = true ∧
      c.residencyState = residencyOf snapshot c.modelId ∧
      c.colocation = snapshot.colocation := by
  cases h with
  | static _ _ _ _ _ _ _ _ hsnapshot =>
      have hfound := List.find?_some hsnapshot
      rw [Bool.and_eq_true, decide_eq_true_eq] at hfound
      exact ⟨_, List.mem_of_find?_eq_some hsnapshot, hfound.1, hfound.2, rfl, rfl⟩
  | live _ _ hsnapshot havailable _ _ =>
      have hfound := List.find?_some hsnapshot
      rw [decide_eq_true_eq] at hfound
      exact ⟨_, List.mem_of_find?_eq_some hsnapshot, hfound, havailable, rfl, rfl⟩

/-- One snapshot is enough for a candidate: that of its runtime, which is available. -/
theorem Generated.of_snapshot {scheduler : Scheduler} {request : InferenceRequest}
    {snapshots : List RuntimeSnapshot} {c : Candidate}
    (h : Generated scheduler request snapshots c) :
    ∃ snapshot ∈ snapshots, snapshot.runtimeId = c.runtimeId ∧ snapshot.available = true ∧
      Generated scheduler request [snapshot] c := by
  cases h with
  | @static _ _ _ _ _ runtimeId snapshot hdomain hstatic hg hgroup hm hp hfits hruntime
      hsnapshot =>
      have hfound := List.find?_some hsnapshot
      have honly : availableSnapshot [snapshot] runtimeId = some snapshot :=
        List.find?_cons_of_pos hfound
      rw [Bool.and_eq_true, decide_eq_true_eq] at hfound
      exact ⟨_, List.mem_of_find?_eq_some hsnapshot, hfound.1, hfound.2,
        .static hdomain hstatic hg hgroup hm hp hfits hruntime honly⟩
  | @live _ runtimeId snapshot _ hdomain hlive hsnapshot havailable hm hfits =>
      have hfound := List.find?_some hsnapshot
      have honly : [snapshot].find? (fun s => s.runtimeId = runtimeId) = some snapshot :=
        List.find?_cons_of_pos hfound
      rw [decide_eq_true_eq] at hfound
      exact ⟨_, List.mem_of_find?_eq_some hsnapshot, hfound, havailable,
        .live hdomain hlive honly havailable hm hfits⟩

/-- What a candidate asks for is decided by its model's state. -/
theorem Generated.action_eq {scheduler : Scheduler} {request : InferenceRequest}
    {snapshots : List RuntimeSnapshot} {c : Candidate}
    (h : Generated scheduler request snapshots c) : c.action = actionFor c.residencyState := by
  cases h with
  | static => rfl
  | live => rfl

/-- A candidate is determined by its group, model and runtime. -/
theorem Generated.unique {scheduler : Scheduler} {request : InferenceRequest}
    {snapshots : List RuntimeSnapshot} {c c' : Candidate}
    (h : Generated scheduler request snapshots c)
    (h' : Generated scheduler request snapshots c') (hgroup : c.groupId = c'.groupId)
    (hmodel : c.modelId = c'.modelId) (hruntime : c.runtimeId = c'.runtimeId) : c = c' := by
  cases h with
  | static hdomain hstatic _ hg _ hp _ _ hs =>
      cases h' with
      | static _ _ _ hg' _ hp' _ _ hs' =>
          cases hgroup
          cases hmodel
          cases hruntime
          rw [hg, Option.some.injEq] at hg'
          rw [hp, Option.some.injEq] at hp'
          rw [hs, Option.some.injEq] at hs'
          rw [hg', hp', hs']
      | live hdomain' hlive =>
          exact absurd hlive (liveRoster_ne_some hdomain hstatic hdomain')
  | live hdomain hlive hs =>
      cases h' with
      | static hdomain' hstatic =>
          exact absurd hlive (liveRoster_ne_some hdomain' hstatic hdomain)
      | live hdomain' hlive' hs' =>
          cases hmodel
          cases hruntime
          rw [hs, Option.some.injEq] at hs'
          rw [hs']

/-- A candidate's runtime is one of those its profile supports. -/
theorem Generated.runtime_supported {scheduler : Scheduler} {request : InferenceRequest}
    {snapshots : List RuntimeSnapshot} {c : Candidate}
    (h : Generated scheduler request snapshots c) :
    c.runtimeId ∈ c.modelProfile.supportedRuntimes := by
  cases h with
  | static _ _ _ _ _ _ _ hruntime _ => exact hruntime
  | live => exact List.mem_singleton.mpr rfl

/-- All candidates of a model have one profile. -/
theorem Generated.profile_eq {scheduler : Scheduler} {request : InferenceRequest}
    {snapshots : List RuntimeSnapshot} {c c' : Candidate}
    (h : Generated scheduler request snapshots c)
    (h' : Generated scheduler request snapshots c') (hmodel : c.modelId = c'.modelId) :
    c.modelProfile = c'.modelProfile := by
  cases h with
  | static hdomain hstatic _ _ _ hp _ _ _ =>
      cases h' with
      | static _ _ _ _ _ hp' _ _ _ =>
          cases hmodel
          rw [hp, Option.some.injEq] at hp'
          rw [hp']
          rfl
      | live hdomain' hlive =>
          exact absurd hlive (liveRoster_ne_some hdomain hstatic hdomain')
  | live hdomain hlive hs =>
      cases h' with
      | static hdomain' hstatic =>
          exact absurd hlive (liveRoster_ne_some hdomain' hstatic hdomain)
      | live hdomain' hlive' hs' =>
          cases hmodel
          rw [hdomain, Option.some.injEq] at hdomain'
          subst hdomain'
          rw [hlive, Option.some.injEq] at hlive'
          subst hlive'
          rfl

/-- With one snapshot for each runtime, the snapshot that makes a runtime available is
the runtime's available one. -/
theorem availableSnapshot_eq_some {snapshots : List RuntimeSnapshot}
    (hnodup : (snapshots.map RuntimeSnapshot.runtimeId).Nodup) {snapshot : RuntimeSnapshot}
    (hmem : snapshot ∈ snapshots) (havailable : snapshot.available = true) :
    availableSnapshot snapshots snapshot.runtimeId = some snapshot := by
  have hfound : (availableSnapshot snapshots snapshot.runtimeId).isSome = true := by
    rw [availableSnapshot, List.find?_isSome]
    exact ⟨snapshot, hmem, by simp [havailable]⟩
  obtain ⟨other, hother⟩ := Option.isSome_iff_exists.mp hfound
  have hspec := List.find?_some hother
  rw [Bool.and_eq_true, decide_eq_true_eq] at hspec
  have heq := List.inj_on_of_nodup_map hnodup (List.mem_of_find?_eq_some hother) hmem hspec.1
  rw [hother, heq]

/-- A candidate's model is also a candidate on any other runtime that supports it and is
available, with the action that its state there asks for. -/
theorem Generated.exists_on {scheduler : Scheduler} {request : InferenceRequest}
    {snapshots : List RuntimeSnapshot}
    (hnodup : (snapshots.map RuntimeSnapshot.runtimeId).Nodup) {c : Candidate}
    (h : Generated scheduler request snapshots c) {snapshot : RuntimeSnapshot}
    (hmem : snapshot ∈ snapshots) (havailable : snapshot.available = true)
    (hsupported : snapshot.runtimeId ∈ c.modelProfile.supportedRuntimes) :
    ∃ c', Generated scheduler request snapshots c' ∧ c'.modelId = c.modelId ∧
      c'.runtimeId = snapshot.runtimeId ∧
      c'.action = actionFor (residencyOf snapshot c.modelId) := by
  cases h with
  | static hdomain hstatic hg hgroup hm hp hfits _ _ =>
      have hs := availableSnapshot_eq_some hnodup hmem havailable
      exact ⟨_, .static hdomain hstatic hg hgroup hm hp hfits hsupported hs, rfl, rfl, rfl⟩
  | live hdomain hlive hs havailable' hm hfits =>
      have hruntime := List.find?_some hs
      rw [decide_eq_true_eq] at hruntime
      have hsame := List.mem_singleton.mp hsupported
      have heq := List.inj_on_of_nodup_map hnodup (List.mem_of_find?_eq_some hs) hmem
        (hruntime.trans hsame.symm)
      subst heq
      rw [hsame]
      exact ⟨_, .live hdomain hlive hs havailable' hm hfits, rfl, rfl, rfl⟩

end Scheduler

end Anemoi
