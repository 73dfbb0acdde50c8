import Anemoi.Daemon.Calls
import Anemoi.Daemon.Integrity
import Anemoi.Policy.StagedPairs

/-!
# What a caller waits for

A request says how long its caller is willing to wait. Staging compares that with the
estimate of the cold load that it avoids, and not with the estimate of the warm model that
it serves instead. The gateway compares it with the estimate of the selected model's
profile, and lets the load through if there is none, while the scheduler had assumed one.
-/

namespace Anemoi

open Systems

/-! ### Staged decisions -/

/-- A staged decision serves a model that is hot now, as it says: its plan does not load
the model, and the model is ready within the budget. -/
structure ServesNow (request : InferenceRequest) (generated : CandidateSet) (d : Decision) :
    Prop where
  announced : ∃ cold fallback : ScoredCandidate,
    d.selectedModel = some fallback.candidate.modelId ∧
      stageReason request cold fallback ∈ d.explanation.reasons
  not_loaded : ∀ models dryRun, ∀ action ∈ (actionPlanFor models d dryRun).actions,
    action.kind = .load → action.modelId ≠ d.selectedModel
  in_time : ∀ c ∈ generated.candidates, Selects d c →
    ∀ budget, request.latencyBudgetMs = some budget → c.loadEstimateMs ≤ budget

namespace Scheduler

variable {scheduler : Scheduler} {request : InferenceRequest}
  {snapshots : List RuntimeSnapshot} {stamp : Stamp} {generated : CandidateSet} {d : Decision}

theorem Generated.loadEstimateMs_eq {c : Candidate}
    (h : Generated scheduler request snapshots c) :
    c.loadEstimateMs = loadEstimateFor c.action c.modelProfile := by
  cases h with
  | static => rfl
  | live => rfl

/-- A hot model is there at once, a warm one takes a third of its cold load. -/
theorem loadEstimateMs_le_iff {c : Candidate} (h : Generated scheduler request snapshots c)
    (hready : c.isHotOrWarm = true) {budget : UInt64} :
    c.loadEstimateMs ≤ budget ↔
      c.action = .reuseHot ∨ c.modelProfile.coldLoadEstimateMs.getD 10000 / 3 ≤ budget := by
  rw [h.loadEstimateMs_eq]
  rw [Candidate.isHotOrWarm, Bool.or_eq_true, decide_eq_true_eq, decide_eq_true_eq] at hready
  rcases hready with hhot | hwarm
  · rw [hhot]
    exact ⟨fun _ => .inl rfl, fun _ => UInt64.zero_le⟩
  · rw [hwarm]
    exact ⟨.inr, fun hbudget => hbudget.resolve_left (by decide)⟩

/-- The one load in the plan of a staged decision is that of the staged model. -/
theorem StagedPair.not_loaded_iff {cold fallback : Candidate}
    (h : StagedPair scheduler request snapshots generated d cold fallback)
    (haction : d.action = .stageBackground) :
    (∀ models dryRun, ∀ action ∈ (actionPlanFor models d dryRun).actions,
      action.kind = .load → action.modelId ≠ d.selectedModel) ↔
      cold.modelId ≠ fallback.modelId := by
  have hactions : ∀ models dryRun, ∃ action,
      (actionPlanFor models d dryRun).actions = [action] ∧ action.kind = .load ∧
        action.modelId = some cold.modelId := by
    intro models dryRun
    unfold actionPlanFor
    rw [haction, h.selects.runtime_eq, h.background_eq]
    exact ⟨_, rfl, rfl, rfl⟩
  rw [h.selects.model_eq]
  constructor
  · intro hother hsame
    obtain ⟨action, hall, hload, hmodel⟩ := hactions ∅ true
    refine hother ∅ true action ?_ hload (hmodel.trans (congrArg some hsame))
    rw [hall]
    exact List.mem_cons_self
  · intro hother models dryRun action hmem _
    obtain ⟨action', hall, _, hmodel⟩ := hactions models dryRun
    rw [hall, List.mem_singleton] at hmem
    rw [hmem, hmodel]
    exact fun hsame => hother (Option.some.inj hsame)

/-- The slow load of a model is not the one that is staged if another one has a larger
key. -/
theorem StagedPair.modelId_ne_iff {cold fallback : Candidate}
    (h : StagedPair scheduler request snapshots generated d cold fallback)
    (hgenerated : scheduler.generateCandidates request snapshots = .ok generated) :
    cold.modelId ≠ fallback.modelId ↔
      ∀ c ∈ generated.candidates, c.IsSlowLoad request scheduler.config.continuity →
        c.modelId = fallback.modelId → ∃ c' ∈ generated.candidates,
          c'.IsSlowLoad request scheduler.config.continuity ∧ c.stageKey < c'.stageKey := by
  have hcold := (mem_candidates_iff hgenerated).mpr h.cold_generated
  constructor
  · intro hother c hc hslow hmodel
    refine ⟨cold, hcold, h.cold_slow, lt_of_le_of_ne (h.cold_best c hc hslow) fun hkey => ?_⟩
    -- the key ends in the name of the model
    have htext : c.modelId.text = cold.modelId.text := congrArg (fun k => (ofLex k).2) hkey
    refine hother (Eq.trans ?_ hmodel)
    cases hc' : c.modelId
    cases hcold' : cold.modelId
    rw [hc', hcold'] at htext
    exact congrArg ModelId.mk htext.symm
  · intro hsome hsame
    obtain ⟨c', hc', hslow', hlt⟩ := hsome cold hcold h.cold_slow hsame
    exact absurd (h.cold_best c' hc' hslow') (not_le.mpr hlt)

/-- A staged decision serves a model that is there in time exactly when the hot or warm
candidate that ranks first is hot, or is promoted within the budget, and is not the very
model that is staged. -/
theorem servesNow_decide_iff
    (hgenerated : scheduler.generateCandidates request snapshots = .ok generated)
    (h : scheduler.decide request snapshots stamp = .ok d)
    (haction : d.action = .stageBackground) :
    ServesNow request generated d ↔
      ∀ fallback, IsFallback scheduler request generated fallback →
        (∀ budget, request.latencyBudgetMs = some budget → fallback.action = .reuseHot ∨
          fallback.modelProfile.coldLoadEstimateMs.getD 10000 / 3 ≤ budget) ∧
        ∀ c ∈ generated.candidates, c.IsSlowLoad request scheduler.config.continuity →
          c.modelId = fallback.modelId → ∃ c' ∈ generated.candidates,
            c'.IsSlowLoad request scheduler.config.continuity ∧ c.stageKey < c'.stageKey := by
  obtain ⟨cold, fallback, hpair⟩ := stagedPair_of_decide hgenerated h haction
  have hfallback := (mem_candidates_iff hgenerated).mpr hpair.fallback_generated
  have htime := @loadEstimateMs_le_iff scheduler request snapshots fallback
    hpair.fallback_generated hpair.fallback_first.holds
  constructor
  · intro hserves fallback' hfallback'
    rw [← hpair.fallback_first.unique hfallback']
    exact ⟨fun budget hbudget => htime.mp
        (hserves.in_time fallback hfallback hpair.selects budget hbudget),
      (hpair.modelId_ne_iff hgenerated).mp
        ((hpair.not_loaded_iff haction).mp hserves.not_loaded)⟩
  · intro hall
    obtain ⟨hready, hother⟩ := hall fallback hpair.fallback_first
    refine ⟨⟨_, _, hpair.selects.model_eq, hpair.announced⟩,
      (hpair.not_loaded_iff haction).mpr ((hpair.modelId_ne_iff hgenerated).mpr hother),
      fun c hc hselects budget hbudget => ?_⟩
    rw [eq_of_selects hgenerated hc hfallback hselects hpair.selects]
    exact htime.mpr (hready budget hbudget)

theorem servesNow_iff_busy : ∃ generated d,
    (Scheduler.mk busyConfig).generateCandidates quickRequest busySnapshots = .ok generated ∧
    (Scheduler.mk busyConfig).decide quickRequest busySnapshots sampleStamp = .ok d ∧
    (ServesNow quickRequest generated d ↔
      ∀ fallback, IsFallback (Scheduler.mk busyConfig) quickRequest generated fallback →
        (∀ budget, quickRequest.latencyBudgetMs = some budget → fallback.action = .reuseHot ∨
          fallback.modelProfile.coldLoadEstimateMs.getD 10000 / 3 ≤ budget) ∧
        ∀ c ∈ generated.candidates, c.IsSlowLoad quickRequest busyConfig.continuity →
          c.modelId = fallback.modelId → ∃ c' ∈ generated.candidates,
            c'.IsSlowLoad quickRequest busyConfig.continuity ∧ c.stageKey < c'.stageKey) := by
  obtain ⟨d, h, haction⟩ := decide_busy
  obtain ⟨generated, hgenerated⟩ := generateCandidates_of_decide h
  exact ⟨generated, d, hgenerated, h, servesNow_decide_iff hgenerated h haction⟩

/-- Nothing is hot, and the small model is warm. -/
def warmSnapshots : List RuntimeSnapshot :=
  [{ runtimeId := ⟨"a"⟩, available := true
     residents := [{ hotResident "qwen9b" with state := .warmCpu }], configuredModels := []
     memory := {}, activeRequests := [], colocation := none }]

/-- The warm model that is served takes more than three seconds, the caller allows one and
a half. -/
theorem not_servesNow_warm : ∃ generated d,
    (Scheduler.mk busyConfig).generateCandidates quickRequest warmSnapshots = .ok generated ∧
    (Scheduler.mk busyConfig).decide quickRequest warmSnapshots sampleStamp = .ok d ∧
    d.action = .stageBackground ∧ d.selectedModel = some ⟨"qwen9b"⟩ ∧
    ∃ c ∈ generated.candidates, Selects d c ∧ c.loadEstimateMs = 3333 ∧
      quickRequest.latencyBudgetMs = some 1500 ∧ ¬ServesNow quickRequest generated d := by
  have hgenerated :
      (Scheduler.mk busyConfig).generateCandidates quickRequest warmSnapshots = .ok _ := rfl
  have h : (Scheduler.mk busyConfig).decide quickRequest warmSnapshots sampleStamp = .ok _ := rfl
  refine ⟨_, _, hgenerated, h, by decide +kernel, by decide +kernel, _, List.mem_cons_self,
    by decide +kernel, by decide +kernel, rfl, fun hserves => ?_⟩
  have hlate := hserves.in_time _ List.mem_cons_self (by decide +kernel) 1500 rfl
  exact absurd hlate (by decide +kernel)

/-! ### Cold loads -/

/-- The candidate of a decision to load is a cold load itself. -/
theorem coldLoad_of_decide
    (hgenerated : scheduler.generateCandidates request snapshots = .ok generated)
    (h : scheduler.decide request snapshots stamp = .ok d) (haction : d.action = .coldLoad) :
    ∃ c ∈ generated.candidates, Selects d c ∧ c.action = .coldLoad := by
  have houtcome := outcome_decide hgenerated h
  cases houtcome with
  | denied => cases haction
  | served hbest => exact ⟨_, hbest, ⟨rfl, rfl, rfl⟩, haction⟩
  | staged => cases haction

theorem selectedModel_of_deny
    (hgenerated : scheduler.generateCandidates request snapshots = .ok generated)
    (h : scheduler.decide request snapshots stamp = .ok d) (haction : d.action = .deny) :
    d.selectedModel = none := by
  have houtcome := outcome_decide hgenerated h
  cases houtcome with
  | denied => rfl
  | served hbest =>
      exact absurd haction ((mem_candidates_iff hgenerated).mp hbest).action_ne.1
  | staged => cases haction

/-- A candidate's own estimate is that of its configured profile; a live candidate has
none. -/
theorem Generated.coldLoadEstimateMs_eq_some_iff {c : Candidate} {estimate : UInt64}
    (h : Generated scheduler request snapshots c) :
    c.modelProfile.coldLoadEstimateMs = some estimate ↔
      ∃ domain profile, scheduler.config.domains.lookup request.domain = some domain ∧
        domain.liveRoster = none ∧ scheduler.config.models.lookup c.modelId = some profile ∧
        profile.coldLoadEstimateMs = some estimate := by
  cases h with
  | @static domain _ _ _ profile _ _ hdomain hstatic _ _ _ hprofile _ _ _ =>
      constructor
      · intro hestimate
        exact ⟨domain, profile, hdomain, hstatic, hprofile, hestimate⟩
      · rintro ⟨domain', profile', _, _, hprofile', hestimate⟩
        have hsame : some profile = some profile' := hprofile.symm.trans hprofile'
        rw [Option.some.injEq] at hsame
        exact hsame ▸ hestimate
  | live hdomain hlive _ _ _ _ =>
      constructor
      · intro hestimate
        cases hestimate
      · rintro ⟨domain', profile', hdomain', hstatic, _, _⟩
        exact absurd hlive (liveRoster_ne_some hdomain' hstatic hdomain)

end Scheduler

/-! ### Forwarded decisions -/

/-- The request was handed to a runtime, or a mock's answer stands for the runtime's. -/
def HandsOn (codec : Codec) (d : Decision)
    (run : Program.Outcome Cmd.Resp Response World) : Prop :=
  (∃ e ∈ run.trace, e.1.area = .forwarding) ∨
    ∃ model, d.selectedModel = some model ∧
      run.result = gatewayStreamResponse codec (mockChatCompletion model.text) d model

/-- The gateway turns the body into `request`, decides `d` and forwards it. -/
structure Forwards (state : AppState) (codec : Codec) (env : ℕ → Surroundings) (w : World)
    (body : Json) (request : InferenceRequest) (d : Decision) : Prop where
  request_eq : ∃ modelField, (body.get "model").bind Json.asStr = some modelField ∧
    gatewayInferenceRequest codec ⟨(env w.clock).newUuid.toText⟩ (resolveDomain modelField)
      body = .ok request
  decided : ((state.decide request).run (handle codec env)
    (Daemon.newUuid.run (handle codec env) w).state).result = .ok d
  handed_on : HandsOn codec d ((state.chatCompletions codec body).run (handle codec env) w)

section HandsOn

variable {codec : Codec} {env : ℕ → Surroundings} {w : World} {d : Decision}

/-- What a mock answers is relayed, unless a name cannot stand in a header. -/
theorem status_mockChatCompletion (model : ModelId) :
    (gatewayStreamResponse codec (mockChatCompletion model.text) d model).status = 200 ∨
      (gatewayStreamResponse codec (mockChatCompletion model.text) d model).status = 500 := by
  unfold gatewayStreamResponse
  dsimp only
  split
  · exact .inl rfl
  · exact .inr rfl

/-- An answer of the gateway itself hands nothing on. -/
theorem not_handsOn_pure {response : Response} (status : ℕ)
    (h : response.status = status) (hok : status ≠ 200) (hserver : status ≠ 500) :
    ¬HandsOn codec d ((Pure.pure response : Daemon Response).run (handle codec env) w) := by
  rintro (⟨e, he, -⟩ | ⟨model, -, hresponse⟩)
  · cases he
  · rw [show response = _ from hresponse] at h
    rcases @status_mockChatCompletion codec d model with hmock | hmock
    · exact hok (h.symm.trans hmock)
    · exact hserver (h.symm.trans hmock)

/-- A program that forwards nothing leaves it to what follows. -/
theorem HandsOn.of_bind {α : Type} {areas : List Area} {p : Daemon α} {f : α → Daemon Response}
    (hp : Within areas p) (hareas : Area.forwarding ∉ areas)
    (h : HandsOn codec d ((p >>= f).run (handle codec env) w)) :
    HandsOn codec d ((f (p.run (handle codec env) w).result).run (handle codec env)
      (p.run (handle codec env) w).state) := by
  rw [Program.run_bind] at h
  rcases h with ⟨e, he, hforwards⟩ | hmock
  · rcases List.mem_append.mp he with he | he
    · have hwithin := Program.forall_mem_trace hp (fun _ _ => trivial) w e he
      exact absurd (hforwards ▸ hwithin) hareas
    · exact .inl ⟨e, he, hforwards⟩
  · exact .inr hmock

end HandsOn

namespace AppState

variable {state : AppState} {codec : Codec} {env : ℕ → Surroundings}
  {request : InferenceRequest} {d : Decision} {w : World}

theorem result_newUuid (w : World) :
    (Daemon.newUuid.run (handle codec env) w).result = (env w.clock).newUuid := rfl

theorem result_effective (w : World) :
    (Daemon.effective.run (handle codec env) w).result = w.governance.effective := rfl

/-- What is handed on names a model, and its cold load is not known to be too long. -/
theorem handsOn_completeDecision {body : Json} {domain : String}
    (h : HandsOn codec d ((state.completeDecision codec body domain request d).run
      (handle codec env) w)) :
    ∃ model, d.selectedModel = some model ∧
      excessiveColdLoad w.governance.effective.config request d model = none := by
  unfold completeDecision at h
  split at h
  next model runtimeId hmodel hruntime =>
    refine ⟨model, hmodel, ?_⟩
    have hallowed := state.within_executionAllowed runtimeId.text
    have hgovernance := governance_run codec env hallowed (by decide) w
    have hrest := h.of_bind hallowed (by decide)
    split at hrest
    · have hlast := hrest.of_bind within_effective (by decide)
      rw [result_effective, hgovernance] at hlast
      cases hexcess : excessiveColdLoad w.governance.effective.config request d model with
      | none => rfl
      | some estimate =>
          rw [hexcess] at hlast
          exact absurd hlast (not_handsOn_pure 503 rfl (by decide) (by decide))
    · exact absurd hrest (not_handsOn_pure 403 rfl (by decide) (by decide))
  · exact absurd h (not_handsOn_pure 503 rfl (by decide) (by decide))

/-- What is forwarded was decided, names a model, and its cold load is not known to be too
long. -/
theorem excessiveColdLoad_of_forwards {body : Json}
    (h : Forwards state codec env w body request d) :
    ∃ model, d.selectedModel = some model ∧
      excessiveColdLoad w.governance.effective.config request d model = none := by
  obtain ⟨⟨modelField, hmodel, hrequest⟩, hdecided, hhanded⟩ := h
  have hid : Within [.ambient] Daemon.newUuid := Within.perform (by decide)
  have hgovernance := governance_run codec env (state.within_decide request) (by decide)
    (Daemon.newUuid.run (handle codec env) w).state
  unfold chatCompletions at hhanded
  rw [hmodel] at hhanded
  dsimp only at hhanded
  split at hhanded
  · exact absurd hhanded (not_handsOn_pure 400 rfl (by decide) (by decide))
  · have hrest := hhanded.of_bind hid (by decide)
    rw [result_newUuid, hrequest] at hrest
    have hlast := HandsOn.of_bind (state.within_decide request) (by decide) hrest
    rw [hdecided] at hlast
    have hfound := handsOn_completeDecision hlast
    rw [hgovernance] at hfound
    exact hfound

/-- A decision for a mock is forwarded unless its cold load is known to be too long. -/
theorem forwards_of_isMockRuntime {body : Json} {modelField : String} {model : ModelId}
    {runtimeId : RuntimeId} (hfield : (body.get "model").bind Json.asStr = some modelField)
    (hdomain : ⟨resolveDomain modelField⟩ ∈ state.config.domains)
    (hrequest : gatewayInferenceRequest codec ⟨(env w.clock).newUuid.toText⟩
      (resolveDomain modelField) body = .ok request)
    (hdecided : ((state.decide request).run (handle codec env)
      (Daemon.newUuid.run (handle codec env) w).state).result = .ok d)
    (hmodel : d.selectedModel = some model) (hruntime : d.selectedRuntime = some runtimeId)
    (hmock : state.isMockRuntime runtimeId.text = true)
    (hexcess : excessiveColdLoad w.governance.effective.config request d model = none) :
    Forwards state codec env w body request d := by
  have hgovernance := governance_run codec env (state.within_decide request) (by decide)
    (Daemon.newUuid.run (handle codec env) w).state
  refine ⟨⟨modelField, hfield, hrequest⟩, hdecided, .inr ⟨model, hmodel, ?_⟩⟩
  unfold chatCompletions
  rw [hfield]
  dsimp only
  rw [if_neg (not_not_intro hdomain), Program.result_bind, result_newUuid, hrequest]
  dsimp only
  rw [Program.result_bind, hdecided]
  dsimp only
  rw [completeDecision, hmodel, hruntime]
  dsimp only
  have hsame : (Daemon.newUuid.run (handle codec env) w).state.governance = w.governance := rfl
  rw [executionAllowed, if_pos hmock, Program.result_bind, Program.run_pure]
  dsimp only
  rw [if_pos rfl, Program.result_bind, result_effective, hgovernance, hsame, hexcess]
  dsimp only
  rw [forward, if_pos hmock, Program.run_pure]

theorem latencyBudgetMs_gatewayInferenceRequest {id : RequestId} {domain : String}
    {body : Json} (h : gatewayInferenceRequest codec id domain body = .ok request) :
    ∃ budget, request.latencyBudgetMs = some budget := by
  unfold gatewayInferenceRequest at h
  cases hmetadata : gatewaySelectionMetadata codec body with
  | error e =>
      rw [hmetadata] at h
      cases h
  | ok metadata =>
      rw [hmetadata] at h
      cases h
      dsimp only
      cases metadata.latencyBudgetMs with
      | none => exact ⟨_, rfl⟩
      | some budget => exact ⟨budget, rfl⟩

/-- A decision is made by the scheduler in force, on the snapshots that were read. -/
theorem decide_ok (h : ((state.decide request).run (handle codec env) w).result = .ok d) :
    ∃ stamp, w.governance.effective.scheduler.decide request
      (state.readSnapshots.run (handle codec env) w).result stamp = .ok d := by
  have hgovernance := governance_run codec env state.within_readSnapshots (by decide) w
  rw [run_decide] at h
  dsimp only at h
  obtain ⟨stamp, hdecide⟩ := decideOn_ok h
  rw [hgovernance] at hdecide
  exact ⟨stamp, hdecide⟩

end AppState

/-- The decision is no denial, and if it is to load a model, the load takes no longer than
the caller allows, by the estimate that the scheduler used. -/
structure WithinPatience (scheduler : Scheduler) (request : InferenceRequest)
    (snapshots : List RuntimeSnapshot) (d : Decision) : Prop where
  not_denied : d.action ≠ .deny
  patient : d.action = .coldLoad →
    ∀ generated, scheduler.generateCandidates request snapshots = .ok generated →
      ∀ c ∈ generated.candidates, Selects d c →
        ∃ budget, request.latencyBudgetMs = some budget ∧ c.loadEstimateMs ≤ budget

/-- The model is one of a static domain, and its profile has an estimate. -/
def HasEstimate (config : AnemoiConfig) (domainId : DomainId) (model : Option ModelId) : Prop :=
  ∃ domain profile, config.domains.lookup domainId = some domain ∧ domain.liveRoster = none ∧
    model.bind config.models.lookup = some profile ∧ profile.coldLoadEstimateMs ≠ none

namespace Scheduler

variable {scheduler : Scheduler} {request : InferenceRequest}
  {snapshots : List RuntimeSnapshot} {stamp : Stamp} {d : Decision}

theorem Generated.hasEstimate_iff {c : Candidate} (h : Generated scheduler request snapshots c) :
    HasEstimate scheduler.config request.domain (some c.modelId) ↔
      c.modelProfile.coldLoadEstimateMs ≠ none := by
  constructor
  · rintro ⟨domain, profile, hdomain, hstatic, hprofile, hknown⟩
    obtain ⟨estimate, hestimate⟩ := Option.ne_none_iff_exists'.mp hknown
    rw [h.coldLoadEstimateMs_eq_some_iff.mpr
      ⟨domain, profile, hdomain, hstatic, hprofile, hestimate⟩]
    exact Option.some_ne_none _
  · intro hknown
    obtain ⟨estimate, hestimate⟩ := Option.ne_none_iff_exists'.mp hknown
    obtain ⟨domain, profile, hdomain, hstatic, hprofile, hsome⟩ :=
      h.coldLoadEstimateMs_eq_some_iff.mp hestimate
    refine ⟨domain, profile, hdomain, hstatic, hprofile, ?_⟩
    rw [hsome]
    exact Option.some_ne_none _

/-- A candidate's own estimate is the one that the gateway looks up. -/
theorem Generated.le_of_excessiveColdLoad {c : Candidate} {budget estimate : UInt64}
    (h : Generated scheduler request snapshots c) (haction : d.action = .coldLoad)
    (hbudget : request.latencyBudgetMs = some budget)
    (hexcess : excessiveColdLoad scheduler.config request d c.modelId = none)
    (hestimate : c.modelProfile.coldLoadEstimateMs = some estimate) : estimate ≤ budget := by
  obtain ⟨domain, profile, -, -, hprofile, hsome⟩ :=
    h.coldLoadEstimateMs_eq_some_iff.mp hestimate
  simp only [excessiveColdLoad, haction, hbudget, Option.getD_some, Option.filter_eq_none_iff,
    decide_eq_true_eq] at hexcess
  refine UInt64.not_lt.mp (hexcess estimate ?_)
  rw [hprofile]
  exact hsome

/-- A load that the gateway does not turn away is short enough, if the budget allows for the
default estimate or there is another one. -/
theorem Generated.loadEstimateMs_le_iff {c : Candidate} {budget : UInt64}
    (h : Generated scheduler request snapshots c) (hcold : c.action = .coldLoad)
    (haction : d.action = .coldLoad) (hbudget : request.latencyBudgetMs = some budget)
    (hexcess : excessiveColdLoad scheduler.config request d c.modelId = none) :
    c.loadEstimateMs ≤ budget ↔
      30000 ≤ budget ∨ HasEstimate scheduler.config request.domain (some c.modelId) := by
  rw [h.loadEstimateMs_eq, hcold, h.hasEstimate_iff, loadEstimateFor]
  cases hestimate : c.modelProfile.coldLoadEstimateMs with
  | none =>
      -- the scheduler assumes thirty seconds, the gateway has nothing to compare
      exact ⟨.inl, fun hlong => hlong.resolve_right fun hknown => hknown rfl⟩
  | some estimate =>
      exact ⟨fun _ => .inr (Option.some_ne_none _), fun _ =>
        h.le_of_excessiveColdLoad haction hbudget hexcess hestimate⟩

/-- A gateway that turns away the loads it knows to be too long lets through those that
only the scheduler has an estimate of. -/
theorem withinPatience_iff_of_decide {model : ModelId} {budget : UInt64}
    (h : scheduler.decide request snapshots stamp = .ok d)
    (hmodel : d.selectedModel = some model) (hbudget : request.latencyBudgetMs = some budget)
    (hexcess : excessiveColdLoad scheduler.config request d model = none) :
    WithinPatience scheduler request snapshots d ↔
      (d.action = .coldLoad →
        (∃ budget, request.latencyBudgetMs = some budget ∧ 30000 ≤ budget) ∨
        HasEstimate scheduler.config request.domain d.selectedModel) := by
  obtain ⟨generated, hgenerated⟩ := generateCandidates_of_decide h
  have hdenied : d.action ≠ .deny := by
    intro hdeny
    rw [selectedModel_of_deny hgenerated h hdeny] at hmodel
    cases hmodel
  have hselected : ∀ c, Selects d c → model = c.modelId := fun c hselects =>
    Option.some.inj (hmodel.symm.trans hselects.model_eq)
  constructor
  · intro hpatience haction
    obtain ⟨c, hc, hselects, hcold⟩ := coldLoad_of_decide hgenerated h haction
    have hc' := (mem_candidates_iff hgenerated).mp hc
    obtain ⟨allowed, hallowed, hle⟩ :=
      hpatience.patient haction generated hgenerated c hc hselects
    rw [hbudget, Option.some.injEq] at hallowed
    rw [← hallowed] at hle
    rw [hselected c hselects] at hexcess
    rcases (hc'.loadEstimateMs_le_iff hcold haction hbudget hexcess).mp hle with hlong | hknown
    · exact .inl ⟨budget, hbudget, hlong⟩
    · exact .inr (hselects.model_eq ▸ hknown)
  · intro hlong
    refine ⟨hdenied, fun haction generated' hgenerated' c hc hselects => ⟨budget, hbudget, ?_⟩⟩
    obtain ⟨c', hc', hselects', hcold⟩ := coldLoad_of_decide hgenerated h haction
    rw [hgenerated, Except.ok.injEq] at hgenerated'
    rw [eq_of_selects hgenerated (hgenerated' ▸ hc) hc' hselects hselects']
    rw [hselected c' hselects'] at hexcess
    refine (((mem_candidates_iff hgenerated).mp hc').loadEstimateMs_le_iff hcold haction hbudget
      hexcess).mpr ?_
    rcases hlong haction with ⟨allowed, hallowed, hle⟩ | hknown
    · rw [hbudget, Option.some.injEq] at hallowed
      exact .inl (hallowed ▸ hle)
    · exact .inr (hselects'.model_eq ▸ hknown)

end Scheduler

namespace AppState

variable {state : AppState} {codec : Codec} {env : ℕ → Surroundings} {body : Json}
  {request : InferenceRequest} {d : Decision} {w : World}

/-- After any run of edits and over any cache, a forwarded decision is within the caller's
patience exactly when the model it loads, if any, has an estimate of its own, or the caller
allows for the default one. -/
theorem withinPatience_iff (baseline : AnemoiConfig) (overrides : GovernanceOverrides)
    (path : Option OverridesPath) (disk : Disk) (edits : List (EditRequest × FailurePattern))
    (w : World) :
    let gov := (Machine.runFrom (editStep codec.overridesToJson)
      (.new baseline overrides path, disk) edits).1
    let world := { w with governance := gov }
    Forwards state codec env world body request d →
      (WithinPatience gov.effective.scheduler request
          (state.readSnapshots.run (handle codec env)
            (Daemon.newUuid.run (handle codec env) world).state).result d ↔
        (d.action = .coldLoad →
          (∃ budget, request.latencyBudgetMs = some budget ∧ 30000 ≤ budget) ∨
          HasEstimate gov.effective.config request.domain d.selectedModel)) := by
  intro gov world h
  have hderived : Derived baseline gov :=
    derived_edits baseline overrides codec.overridesToJson path disk edits
  obtain ⟨model, hmodel, hexcess⟩ := excessiveColdLoad_of_forwards h
  obtain ⟨stamp, hdecide⟩ := decide_ok h.decided
  obtain ⟨_, -, hrequest⟩ := h.request_eq
  obtain ⟨budget, hbudget⟩ := latencyBudgetMs_gatewayInferenceRequest hrequest
  -- the gateway looks into the configuration that the scheduler decided with
  have hconfig : gov.effective.config = gov.effective.scheduler.config := by
    rw [hderived.scheduler_eq]
  rw [show world.governance = gov from rfl, hconfig] at hexcess
  rw [hconfig]
  exact Scheduler.withinPatience_iff_of_decide hdecide hmodel hbudget hexcess

/-! ### A hasty caller -/

def hastyBody : Json :=
  .object [("model", .string "coding"), ("anemoi", .object [("latency_budget_ms", .ofU64 1000)])]

/-- Libraries that read the budget of the hasty body. -/
def hastyCodec : Codec :=
  { (default : Codec) with
    selectionMetadata := fun _ => .ok { latencyBudgetMs := some 1000 }
    isHeaderValue := fun _ => true }

/-- Both runtimes answer, and nothing is loaded. -/
def nothingLoaded : Surroundings :=
  { (default : Surroundings) with inspect := fun r => hotAnswer r [] }

def hastyRequest : InferenceRequest where
  id := ⟨(Uuid.mk 0).toText⟩
  domain := ⟨"coding"⟩
  mode := .interactive
  promptTokensEstimate := none
  maxOutputTokens := none
  latencyBudgetMs := some 1000
  qualityFloor := none
  escalationIntent := none

/-- The small model has no estimate, and it is forwarded to although it is cold. -/
theorem forwards_hastyRequest : ∃ d,
    Forwards twoRuntimes hastyCodec (fun _ => nothingLoaded) twoRuntimesStart hastyBody
      hastyRequest d ∧ (d.action, d.selectedModel, d.selectedRuntime) =
        (.coldLoad, some ⟨"qwen9b"⟩, some ⟨"a"⟩) := by
  obtain ⟨d, hdecided, hfields⟩ : ∃ d, ((twoRuntimes.decide hastyRequest).run
      (handle hastyCodec fun _ => nothingLoaded)
      (Daemon.newUuid.run (handle hastyCodec fun _ => nothingLoaded)
        twoRuntimesStart).state).result = .ok d ∧
      (d.action, d.selectedModel, d.selectedRuntime) =
        (.coldLoad, some ⟨"qwen9b"⟩, some ⟨"a"⟩) :=
    exists_ok_of_map (by decide +kernel)
  refine ⟨d, ?_, hfields⟩
  simp only [Prod.mk.injEq] at hfields
  obtain ⟨haction, hmodel, hruntime⟩ := hfields
  have hfield : (hastyBody.get "model").bind Json.asStr = some "coding" := rfl
  refine forwards_of_isMockRuntime hfield (by decide) rfl hdecided hmodel hruntime (by decide) ?_
  rw [excessiveColdLoad, haction]
  decide

/-- The snapshots that the hasty request is decided on. -/
def hastySnapshots : List RuntimeSnapshot :=
  (twoRuntimes.readSnapshots.run (handle hastyCodec fun _ => nothingLoaded)
    (Daemon.newUuid.run (handle hastyCodec fun _ => nothingLoaded) twoRuntimesStart).state).result

theorem withinPatience_iff_hasty : ∃ d,
    Forwards twoRuntimes hastyCodec (fun _ => nothingLoaded) twoRuntimesStart hastyBody
      hastyRequest d ∧
    (WithinPatience twoRuntimesStart.governance.effective.scheduler hastyRequest
        hastySnapshots d ↔
      (d.action = .coldLoad →
        (∃ budget, hastyRequest.latencyBudgetMs = some budget ∧ 30000 ≤ budget) ∨
        HasEstimate twoRuntimesStart.governance.effective.config hastyRequest.domain
          d.selectedModel)) := by
  obtain ⟨d, hforwards, -⟩ := forwards_hastyRequest
  exact ⟨d, hforwards,
    withinPatience_iff twoRuntimesConfig {} none ⟨none, none⟩ [] twoRuntimesStart hforwards⟩

/-- The scheduler expects the load to take thirty seconds, the caller waits for one. -/
theorem not_withinPatience_hasty : ∃ d,
    Forwards twoRuntimes hastyCodec (fun _ => nothingLoaded) twoRuntimesStart hastyBody
      hastyRequest d ∧ d.action = .coldLoad ∧ d.selectedModel = some ⟨"qwen9b"⟩ ∧
    ¬WithinPatience twoRuntimesStart.governance.effective.scheduler hastyRequest
      hastySnapshots d := by
  obtain ⟨d, hforwards, hfields⟩ := forwards_hastyRequest
  simp only [Prod.mk.injEq] at hfields
  obtain ⟨haction, hmodel, -⟩ := hfields
  refine ⟨d, hforwards, haction, hmodel, fun hpatience => ?_⟩
  obtain ⟨stamp, hdecide⟩ := decide_ok hforwards.decided
  obtain ⟨model, hmodel', hexcess⟩ := excessiveColdLoad_of_forwards hforwards
  have hlong := (Scheduler.withinPatience_iff_of_decide hdecide hmodel' rfl hexcess).mp hpatience
  rcases hlong haction with ⟨budget, hbudget, hle⟩ | ⟨_, profile, -, -, hprofile, hknown⟩
  · cases hbudget
    exact absurd hle (by decide)
  · rw [hmodel] at hprofile
    have hnone : (twoRuntimesConfig.models.lookup ⟨"qwen9b"⟩).bind
        ModelProfileConfig.coldLoadEstimateMs = none := by decide
    rw [show twoRuntimesConfig.models.lookup ⟨"qwen9b"⟩ = some profile from hprofile] at hnone
    exact hknown hnone

end AppState

end Anemoi
