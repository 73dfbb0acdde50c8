import Anemoi.Core.GovernanceWarnings
import Anemoi.Policy.Rosters

/-!
# What validation promises the scheduler

Two validators look at a configuration before the scheduler does. `validateConfig`
checks that every reference is known, except that of a domain to the runtime it
follows live. `validateGovernance` warns about domains that have nothing to offer,
except where the models of the rosters support no runtime that is configured. Both
exceptions are exact: without them a valid configuration makes no error, and one
without warnings has candidates.
-/

namespace Anemoi

/-- The list has a snapshot of every configured runtime. -/
def Covers (config : AnemoiConfig) (snapshots : List RuntimeSnapshot) : Prop :=
  ∀ runtimeId ∈ config.runtimes, ∃ snapshot ∈ snapshots, snapshot.runtimeId = runtimeId

/-- The list shows every configured runtime to be available. -/
def AllAvailable (config : AnemoiConfig) (snapshots : List RuntimeSnapshot) : Prop :=
  ∀ runtimeId ∈ config.runtimes, isAvailable snapshots runtimeId = true

/-- An available runtime that does nothing. -/
def idleSnapshot (runtimeId : RuntimeId) : RuntimeSnapshot where
  runtimeId := runtimeId
  available := true
  residents := []
  configuredModels := []
  memory := {}
  activeRequests := []
  colocation := none

/-- One idle snapshot for each configured runtime. -/
def idleSnapshots (config : AnemoiConfig) : List RuntimeSnapshot :=
  config.runtimes.keys.map idleSnapshot

theorem mem_idleSnapshots {config : AnemoiConfig} {snapshot : RuntimeSnapshot} :
    snapshot ∈ idleSnapshots config ↔
      ∃ runtimeId ∈ config.runtimes, idleSnapshot runtimeId = snapshot := by
  rw [idleSnapshots, List.mem_map]
  rfl

theorem covers_idleSnapshots (config : AnemoiConfig) : Covers config (idleSnapshots config) :=
  fun runtimeId h => ⟨idleSnapshot runtimeId, mem_idleSnapshots.mpr ⟨runtimeId, h, rfl⟩, rfl⟩

theorem allAvailable_idleSnapshots (config : AnemoiConfig) :
    AllAvailable config (idleSnapshots config) := by
  intro runtimeId h
  rw [isAvailable, List.any_eq_true]
  exact ⟨idleSnapshot runtimeId, mem_idleSnapshots.mpr ⟨runtimeId, h, rfl⟩, by
    simp [idleSnapshot]⟩

/-- A plain request to a domain. -/
def domainRequest (domain : DomainId) : InferenceRequest where
  id := ⟨"request"⟩
  domain := domain
  mode := .interactive
  promptTokensEstimate := none
  maxOutputTokens := none
  latencyBudgetMs := none
  qualityFloor := none
  escalationIntent := none

namespace Scheduler

/-! ### Errors of the scheduler -/

/-- Generation fails on a known domain only if the live runtime has no snapshot or a
static domain has no roster. -/
theorem exists_generateCandidates_iff {scheduler : Scheduler} {request : InferenceRequest}
    {snapshots : List RuntimeSnapshot} {domain : DomainConfig}
    (hdomain : scheduler.config.domains.lookup request.domain = some domain) :
    (∃ generated, scheduler.generateCandidates request snapshots = .ok generated) ↔
      (∀ runtimeId, domain.liveRoster = some runtimeId →
        ∃ snapshot ∈ snapshots, snapshot.runtimeId = runtimeId) ∧
      (domain.liveRoster = none → domain.rosters ≠ []) := by
  cases hlive : domain.liveRoster with
  | none =>
      rw [generateCandidates_static hdomain hlive]
      by_cases hrosters : domain.rosters = []
      · simp [hrosters]
      · rw [if_neg (by simpa using hrosters)]
        exact ⟨fun _ => ⟨fun _ h => (nomatch h), fun _ => hrosters⟩, fun _ => ⟨_, rfl⟩⟩
  | some runtimeId =>
      unfold generateCandidates
      simp only [hdomain, hlive]
      cases hsnapshot : snapshots.find? fun s => s.runtimeId = runtimeId with
      | none =>
          rw [List.find?_eq_none] at hsnapshot
          constructor
          · rintro ⟨generated, h⟩
            cases h
          · rintro ⟨hfound, -⟩
            obtain ⟨snapshot, hmem, heq⟩ := hfound runtimeId rfl
            exact absurd (decide_eq_true heq) (hsnapshot snapshot hmem)
      | some snapshot =>
          have hmem := List.mem_of_find?_eq_some hsnapshot
          have hfound := List.find?_some hsnapshot
          rw [decide_eq_true_eq] at hfound
          constructor
          · rintro -
            refine ⟨fun r hr => ⟨snapshot, hmem, ?_⟩, fun h => (nomatch h)⟩
            rw [← Option.some.inj hr]
            exact hfound
          · rintro -
            by_cases havailable : snapshot.available = true
            · exact ⟨_, if_pos havailable⟩
            · exact ⟨_, if_neg havailable⟩

/-- Scheduling fails only where generation does. -/
theorem exists_decide_iff {scheduler : Scheduler} {request : InferenceRequest}
    {snapshots : List RuntimeSnapshot} {stamp : Stamp} :
    (∃ d, scheduler.decide request snapshots stamp = .ok d) ↔
      ∃ generated, scheduler.generateCandidates request snapshots = .ok generated := by
  constructor
  · rintro ⟨d, h⟩
    exact generateCandidates_of_decide h
  · rintro ⟨generated, h⟩
    unfold decide
    simp only [h, bind, Except.bind, pure, Except.pure]
    split
    · exact ⟨_, rfl⟩
    · exact ⟨_, rfl⟩

/-- A valid configuration never makes the scheduler fail, whatever the snapshots say of
the configured runtimes, exactly when every live domain follows a configured one. -/
theorem decide_ok_iff_of_valid {config : AnemoiConfig} (hvalid : validateConfig config = [])
    (stamp : Stamp) :
    (∀ snapshots, Covers config snapshots → ∀ request : InferenceRequest,
      request.domain ∈ config.domains →
        ∃ d, (Scheduler.mk config).decide request snapshots stamp = .ok d) ↔
      ∀ id domain runtimeId, config.domains.lookup id = some domain →
        domain.liveRoster = some runtimeId → runtimeId ∈ config.runtimes := by
  constructor
  · intro hok id domain runtimeId hdomain hlive
    have hknown : (domainRequest id).domain ∈ config.domains :=
      AList.mem_iff_lookup.mpr ⟨domain, hdomain⟩
    have hgenerated := exists_decide_iff.mp
      (hok (idleSnapshots config) (covers_idleSnapshots config) (domainRequest id) hknown)
    obtain ⟨snapshot, hsnapshot, rfl⟩ :=
      ((exists_generateCandidates_iff hdomain).mp hgenerated).1 runtimeId hlive
    obtain ⟨runtimeId, hruntime, rfl⟩ := mem_idleSnapshots.mp hsnapshot
    exact hruntime
  · intro hlive snapshots hcovers request hknown
    obtain ⟨domain, hdomain⟩ := AList.mem_iff_lookup.mp hknown
    have hrosters := validateDomain_eq_nil_iff.mp
      ((validateConfig_eq_nil_iff.mp hvalid).1 request.domain domain hdomain)
    refine exists_decide_iff.mpr ((exists_generateCandidates_iff hdomain).mpr ⟨?_, hrosters.1⟩)
    intro runtimeId hfollows
    exact hcovers runtimeId (hlive request.domain domain runtimeId hdomain hfollows)

/-- One mock runtime, and a domain that follows a runtime live. -/
def followingConfig (runtimeId : RuntimeId) : AnemoiConfig where
  domains := .ofList [(⟨"coding"⟩, { liveRoster := some runtimeId })]
  residencyGroups := ∅
  models := ∅
  runtimes := .ofList [(⟨"mock"⟩, { adapter := "mock", baseUrl := none, authToken := none })]

theorem decide_ok_following : ∃ d, (Scheduler.mk (followingConfig ⟨"mock"⟩)).decide
    (domainRequest ⟨"coding"⟩) (idleSnapshots (followingConfig ⟨"mock"⟩)) sampleStamp =
      .ok d := by
  have hvalid : validateConfig (followingConfig ⟨"mock"⟩) = [] := by decide +kernel
  refine (decide_ok_iff_of_valid hvalid sampleStamp).mpr ?_ _ (covers_idleSnapshots _)
    (domainRequest ⟨"coding"⟩) (by decide)
  intro id domain runtimeId hdomain hlive
  have hmem := AList.mem_items.mpr hdomain
  have hitems : (followingConfig ⟨"mock"⟩).domains.items =
      [(⟨"coding"⟩, { liveRoster := some ⟨"mock"⟩ })] := rfl
  rw [hitems] at hmem
  cases List.mem_singleton.mp hmem
  cases hlive
  decide

/-- A runtime that is not configured is accepted as well, and then every request to the
domain fails. -/
theorem not_decide_ok_following : ¬∀ config : AnemoiConfig, validateConfig config = [] →
    ∀ snapshots, Covers config snapshots → ∀ request : InferenceRequest,
      request.domain ∈ config.domains → ∀ stamp,
        ∃ d, (Scheduler.mk config).decide request snapshots stamp = .ok d := by
  intro h
  obtain ⟨d, hd⟩ := h (followingConfig ⟨"llama_swap"⟩) (by decide +kernel) _
    (covers_idleSnapshots _) (domainRequest ⟨"coding"⟩) (by decide) sampleStamp
  have hfails : (Scheduler.mk (followingConfig ⟨"llama_swap"⟩)).decide
      (domainRequest ⟨"coding"⟩) (idleSnapshots (followingConfig ⟨"llama_swap"⟩)) sampleStamp =
        .error (.liveRosterRuntimeMissing ⟨"coding"⟩ ⟨"llama_swap"⟩) := rfl
  rw [hfails] at hd
  cases hd

/-! ### Domains without candidates -/

/-- Some model of the domain's rosters has a profile that supports a configured
runtime. -/
def OffersConfigured (config : AnemoiConfig) (domain : DomainConfig) : Prop :=
  ∃ groupId ∈ domain.rosters, ∃ group, config.residencyGroups.lookup groupId = some group ∧
    ∃ modelId ∈ group.models, ∃ profile, config.models.lookup modelId = some profile ∧
      ∃ runtimeId ∈ profile.supportedRuntimes, runtimeId ∈ config.runtimes

theorem exists_availableSnapshot {snapshots : List RuntimeSnapshot} {runtimeId : RuntimeId}
    (h : isAvailable snapshots runtimeId = true) :
    ∃ snapshot, availableSnapshot snapshots runtimeId = some snapshot := by
  rw [isAvailable_eq_isSome] at h
  exact Option.isSome_iff_exists.mp h

/-- A request without an estimate fits every model. -/
theorem contextWindowRejection_of_no_estimate {request : InferenceRequest}
    (h : request.promptTokensEstimate = none) (model : ModelProfile) :
    contextWindowRejection request model = none := by
  rw [contextWindowRejection_eq_none_iff]
  intro prompt hprompt
  rw [h] at hprompt
  cases hprompt

section Offers

variable {effective : AnemoiConfig} {request : InferenceRequest} {domain : DomainConfig}
  (hdomain : effective.domains.lookup request.domain = some domain)
  (hstatic : domain.liveRoster = none)

include hdomain hstatic

/-- A candidate on idle snapshots runs on a configured runtime. -/
theorem offersConfigured_of_candidates {generated : CandidateSet}
    (hgenerated : (Scheduler.mk effective).generateCandidates request
      (idleSnapshots effective) = .ok generated)
    (hne : generated.candidates ≠ []) : OffersConfigured effective domain := by
  obtain ⟨c, hc⟩ := List.exists_mem_of_ne_nil _ hne
  cases (mem_candidates_iff hgenerated).mp hc with
  | static hdomain' _ hg hgroup hm hp _ hruntime hsnapshot =>
      cases hdomain.symm.trans hdomain'
      refine ⟨_, hg, _, hgroup, _, hm, _, hp, _, hruntime, ?_⟩
      have hfound := List.find?_some hsnapshot
      rw [Bool.and_eq_true, decide_eq_true_eq] at hfound
      obtain ⟨r, hr, hidle⟩ := mem_idleSnapshots.mp (List.mem_of_find?_eq_some hsnapshot)
      rw [← hfound.1, ← hidle]
      exact hr
  | live hdomain' hlive =>
      cases hdomain.symm.trans hdomain'
      rw [hstatic] at hlive
      cases hlive

/-- A model that supports a configured runtime is a candidate there. -/
theorem candidates_ne_nil_of_offersConfigured {snapshots : List RuntimeSnapshot}
    {generated : CandidateSet} (hoffers : OffersConfigured effective domain)
    (hestimate : request.promptTokensEstimate = none)
    (havailable : AllAvailable effective snapshots)
    (hgenerated : (Scheduler.mk effective).generateCandidates request snapshots =
      .ok generated) : generated.candidates ≠ [] := by
  obtain ⟨groupId, hg, group, hgroup, modelId, hm, profile, hp, runtimeId, hruntime,
    hconfigured⟩ := hoffers
  obtain ⟨snapshot, hsnapshot⟩ := exists_availableSnapshot (havailable runtimeId hconfigured)
  intro hnil
  have hmem := (mem_candidates_iff hgenerated).mpr
    (.static hdomain hstatic hg hgroup hm hp
      (contextWindowRejection_of_no_estimate hestimate _) hruntime hsnapshot)
  rw [hnil] at hmem
  cases hmem

end Offers

/-- In a configuration without warnings a static domain makes no error, and it has
candidates, whatever is available besides the configured runtimes, exactly when one of
its models supports a configured runtime. -/
theorem candidates_iff_of_noWarnings {effective : AnemoiConfig}
    (hwarnings : validateGovernance effective = []) {id : DomainId} {domain : DomainConfig}
    (hdomain : effective.domains.lookup id = some domain) (hstatic : domain.liveRoster = none) :
    (∀ request : InferenceRequest, request.domain = id → ∀ snapshots, ∃ generated,
      (Scheduler.mk effective).generateCandidates request snapshots = .ok generated) ∧
    ((∀ request : InferenceRequest, request.domain = id →
        request.promptTokensEstimate = none → ∀ snapshots, AllAvailable effective snapshots →
          ∃ generated, (Scheduler.mk effective).generateCandidates request snapshots =
            .ok generated ∧ generated.candidates ≠ []) ↔
      OffersConfigured effective domain) := by
  have hrosters : domain.rosters ≠ [] :=
    ((validateRosters_eq_nil_iff hstatic).mp
      ((validateGovernance_eq_nil_iff.mp hwarnings).2 id domain hdomain)).1
  have hok : ∀ request : InferenceRequest, request.domain = id → ∀ snapshots, ∃ generated,
      (Scheduler.mk effective).generateCandidates request snapshots = .ok generated := by
    rintro request rfl snapshots
    refine (exists_generateCandidates_iff hdomain).mpr ⟨?_, fun _ => hrosters⟩
    intro runtimeId hlive
    rw [hstatic] at hlive
    cases hlive
  refine ⟨hok, ?_, ?_⟩
  · intro hcandidates
    obtain ⟨generated, hgenerated, hne⟩ := hcandidates (domainRequest id) rfl rfl
      (idleSnapshots effective) (allAvailable_idleSnapshots effective)
    exact offersConfigured_of_candidates hdomain hstatic
      hgenerated hne
  · rintro hoffers request rfl hestimate snapshots havailable
    obtain ⟨generated, hgenerated⟩ := hok request rfl snapshots
    exact ⟨generated, hgenerated, candidates_ne_nil_of_offersConfigured hdomain hstatic
      hoffers hestimate havailable hgenerated⟩

theorem candidates_busy : ∃ generated,
    (Scheduler.mk busyConfig).generateCandidates (domainRequest ⟨"coding"⟩)
      (idleSnapshots busyConfig) = .ok generated ∧ generated.candidates ≠ [] := by
  have hwarnings : validateGovernance busyConfig = [] := by decide +kernel
  have hdomain : busyConfig.domains.lookup ⟨"coding"⟩ =
      some { rosters := [⟨"fast"⟩, ⟨"large"⟩] } := rfl
  exact (candidates_iff_of_noWarnings hwarnings hdomain rfl).2.mpr
    ⟨⟨"fast"⟩, by decide, _, rfl, ⟨"qwen9b"⟩, by decide, _, rfl, ⟨"a"⟩, by decide, by decide⟩
    (domainRequest ⟨"coding"⟩) rfl rfl _ (allAvailable_idleSnapshots busyConfig)

/-- The operator assigns to `coding` a new roster with a discovered model, for which only
streaming support is set. -/
def discoveredModel : GovernanceOverrides where
  residencyGroups := .ofList [(⟨"discovered"⟩, { models := [⟨"gemma-4-31b"⟩] })]
  domainRosters := .ofList [(⟨"coding"⟩, [⟨"discovered"⟩])]
  modelProfiles := .ofList [(⟨"gemma-4-31b"⟩, { supportsStreaming := some true })]

/-- The merged profile supports no runtime, and no warning says so. -/
theorem no_candidates_discoveredModel : ¬∀ effective : AnemoiConfig,
    validateGovernance effective = [] → ∀ request : InferenceRequest, ∀ domain,
      effective.domains.lookup request.domain = some domain → domain.liveRoster = none →
      request.promptTokensEstimate = none → ∀ snapshots, AllAvailable effective snapshots →
        ∃ generated, (Scheduler.mk effective).generateCandidates request snapshots =
          .ok generated ∧ generated.candidates ≠ [] := by
  intro h
  obtain ⟨generated, hgenerated, hne⟩ := h (applyOverrides busyConfig discoveredModel)
    (by decide +kernel) (domainRequest ⟨"coding"⟩) { rosters := [⟨"discovered"⟩] } rfl rfl rfl _
    (allAvailable_idleSnapshots _)
  have hnone : (Scheduler.mk (applyOverrides busyConfig discoveredModel)).generateCandidates
      (domainRequest ⟨"coding"⟩)
      (idleSnapshots (applyOverrides busyConfig discoveredModel)) =
        .ok ⟨[], [{ modelId := some ⟨"gemma-4-31b"⟩, runtimeId := none
                    reason := "no supported runtime is currently available" }]⟩ := rfl
  rw [hnone, Except.ok.injEq] at hgenerated
  rw [← hgenerated] at hne
  exact hne rfl

end Scheduler

end Anemoi
