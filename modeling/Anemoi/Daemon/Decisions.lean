import Anemoi.Daemon.AppState

/-!
# What a decision leaves behind

A decision that stages a load names one runtime, that of the model it serves meanwhile.
The daemon queues the load for that runtime and the action plan loads it there. The
scheduler had found the load on the runtime of the cold candidate, which may be another
one: the load is placed where the scheduler found it, or where it could have found it
too, exactly when `HostsStaged` holds.
-/

namespace Anemoi

open Systems

namespace AppState

variable {state : AppState} {codec : Codec} {env : ℕ → Surroundings}
  {request : InferenceRequest} {snapshots : List RuntimeSnapshot} {d : Decision} {w : World}

/-! ### A decision of the daemon -/

theorem result_commitDecision {decision : Decision}
    (h : ((state.commitDecision request decision).run (handle codec env) w).result = .ok d) :
    decision = d := by
  rw [commitDecision, Program.result_bind] at h
  split at h
  · cases h
  · rw [Program.result_bind] at h
    split at h
    · cases h
    · exact Except.ok.inj h

/-- The snapshots that a decision is made from. -/
def readSnapshots (state : AppState) : Daemon (List RuntimeSnapshot) := do
  state.refresh
  Daemon.getSnapshots

theorem run_decide :
    let read := state.readSnapshots.run (handle codec env) w
    let decided := (state.decideOn request read.result).run (handle codec env) read.state
    (state.decide request).run (handle codec env) w =
      ⟨decided.result, decided.state, read.trace ++ decided.trace⟩ := by
  simp only [decide, readSnapshots, Program.run_bind, List.append_assoc]

/-- The decision of the daemon is one of the effective scheduler. -/
theorem decideOn_ok
    (h : ((state.decideOn request snapshots).run (handle codec env) w).result = .ok d) :
    ∃ stamp, w.governance.effective.scheduler.decide request snapshots stamp = .ok d := by
  rw [decideOn, Program.result_bind, Program.result_bind] at h
  split at h
  · cases h
  · next decision hdecide =>
      rw [result_commitDecision h] at hdecide
      exact ⟨_, hdecide⟩

theorem state_executionAllowed (runtimeId : String) :
    (((state.executionAllowed runtimeId).run (handle codec env) w).state).stagingWorker =
      w.stagingWorker := by
  unfold executionAllowed liveExecuteEnabled
  split
  · rfl
  · split <;> rfl

/-- The intent that a decision to stage `background` queues. -/
def prepareIntent (state : AppState) (request : InferenceRequest) (d : Decision)
    (runtimeId : RuntimeId) (background : ModelId) : Daemon StagingIntent := do
  let runnable ← state.executionAllowed runtimeId.text
  let stamp ← Daemon.stamp
  return .queued stamp d.id d.selectedModel background runtimeId d.explanation.summary
    (request.escalationIntent.bind EscalationIntent.context) runnable

def statusEvent (intent : StagingIntent) : TelemetryEvent :=
  .recordStagingStatus intent.id intent.decisionId intent.backgroundModel.text
    intent.targetRuntime.text intent.reason intent.state.name

theorem result_prepareIntent (runtimeId : RuntimeId) (background : ModelId) :
    let allowed := (state.executionAllowed runtimeId.text).run (handle codec env) w
    ((state.prepareIntent request d runtimeId background).run (handle codec env) w).result =
      .queued ⟨(env allowed.state.clock).newUuid, (env (allowed.state.clock + 1)).now⟩ d.id
        d.selectedModel background runtimeId d.explanation.summary
        (request.escalationIntent.bind EscalationIntent.context) allowed.result := by
  simp only [prepareIntent, Program.result_bind]
  rfl

theorem clock_prepareIntent (runtimeId : RuntimeId) (background : ModelId) :
    ((state.prepareIntent request d runtimeId background).run (handle codec env) w).state.clock =
      ((state.executionAllowed runtimeId.text).run (handle codec env) w).state.clock + 2 := by
  simp only [prepareIntent, Program.state_bind]
  rfl

/-- Staging a load queues the intent, whatever the log answers to its status. -/
theorem queueStage_staged {runtimeId : RuntimeId} {background : ModelId}
    (haction : d.action = .stageBackground) (hruntime : d.selectedRuntime = some runtimeId)
    (hbackground : d.backgroundModel = some background) :
    let prepared := (state.prepareIntent request d runtimeId background).run (handle codec env) w
    let queued := (state.queueStage request d).run (handle codec env) w
    queued.result = (env (prepared.state.clock + 1)).record (statusEvent prepared.result) ∧
      queued.state.stagingWorker.queue = w.stagingWorker.queue ++ [prepared.result] ∧
      queued.state.clock = prepared.state.clock + 2 := by
  intro prepared queued
  have hworker := @state_executionAllowed state codec env w runtimeId.text
  simp only [prepared, queued, queueStage, haction, hruntime, hbackground, prepareIntent,
    Program.result_bind, Program.state_bind]
  generalize ((state.executionAllowed runtimeId.text).run (handle codec env) w).result =
    runnable
  generalize ((state.executionAllowed runtimeId.text).run (handle codec env) w).state = w'
    at hworker ⊢
  refine ⟨rfl, ?_, rfl⟩
  rw [← hworker]
  rfl

/-- Recording the decision leaves the queue alone. -/
theorem stagingWorker_commitDecision :
    ((state.commitDecision request d).run (handle codec env) w).state.stagingWorker =
      ((state.queueStage request d).run (handle codec env) w).state.stagingWorker := by
  rw [commitDecision, Program.state_bind]
  split
  · rfl
  · rw [Program.state_bind]
    split <;> rfl

/-- The load that a decision stages is queued for the runtime that the decision names. -/
theorem queue_commitDecision {runtimeId : RuntimeId} {background : ModelId}
    (haction : d.action = .stageBackground) (hruntime : d.selectedRuntime = some runtimeId)
    (hbackground : d.backgroundModel = some background) :
    ∃ intent : StagingIntent,
      ((state.commitDecision request d).run (handle codec env) w).state.stagingWorker.queue =
        w.stagingWorker.queue ++ [intent] ∧
      intent.decisionId = d.id ∧ intent.backgroundModel = background ∧
      intent.targetRuntime = runtimeId := by
  obtain ⟨-, hqueue, -⟩ := @queueStage_staged state codec env request d w runtimeId background
    haction hruntime hbackground
  refine ⟨_, stagingWorker_commitDecision ▸ hqueue, ?_⟩
  rw [result_prepareIntent]
  exact ⟨StagingIntent.queued_decisionId .., StagingIntent.queued_backgroundModel ..,
    StagingIntent.queued_targetRuntime ..⟩

theorem queue_decideOn {runtimeId : RuntimeId} {background : ModelId}
    (h : ((state.decideOn request snapshots).run (handle codec env) w).result = .ok d)
    (haction : d.action = .stageBackground) (hruntime : d.selectedRuntime = some runtimeId)
    (hbackground : d.backgroundModel = some background) :
    ∃ intent : StagingIntent,
      ((state.decideOn request snapshots).run (handle codec env) w).state.stagingWorker.queue =
        w.stagingWorker.queue ++ [intent] ∧
      intent.decisionId = d.id ∧ intent.backgroundModel = background ∧
      intent.targetRuntime = runtimeId := by
  rw [decideOn, Program.result_bind, Program.result_bind] at h
  rw [decideOn, Program.state_bind, Program.state_bind]
  split at h
  · cases h
  · next decision _ =>
      have hd := result_commitDecision h
      subst hd
      exact queue_commitDecision haction hruntime hbackground

/-- The action plan of such a decision loads on the same runtime. -/
theorem background_actionPlanFor (models : Table ModelId ModelProfileConfig) (dryRun : Bool)
    {runtimeId : RuntimeId} {background : ModelId}
    (haction : d.action = .stageBackground) (hruntime : d.selectedRuntime = some runtimeId)
    (hbackground : d.backgroundModel = some background) :
    ∃ action, (actionPlanFor models d dryRun).getBackgroundLoad = some action ∧
      action.modelId = some background ∧ action.runtimeId = runtimeId := by
  unfold actionPlanFor
  rw [haction, hruntime, hbackground]
  exact ⟨_, rfl, rfl, rfl⟩

end AppState

/-! ### Where a staged load goes -/

/-- A runtime can run the model `background`: the scheduler generated a cold load of it
there, so the model's profile supports the runtime and the runtime is available. If it is
the runtime that serves the decision, its matrix admits the model next to `served`. -/
structure CanRun (scheduler : Scheduler) (request : InferenceRequest)
    (snapshots : List RuntimeSnapshot) (d : Decision) (served background : ModelId)
    (runtimeId : RuntimeId) : Prop where
  cold_load : ∃ generated, scheduler.generateCandidates request snapshots = .ok generated ∧
    ∃ c ∈ generated.candidates, c.action = .coldLoad ∧ c.modelId = background ∧
      c.runtimeId = runtimeId ∧ runtimeId ∈ c.modelProfile.supportedRuntimes
  available : ∃ snapshot ∈ snapshots, snapshot.runtimeId = runtimeId ∧
    snapshot.available = true
  colocated : d.selectedRuntime = some runtimeId →
    ∀ snapshot ∈ snapshots, snapshot.runtimeId = runtimeId →
      ∀ constraints, snapshot.colocation = some constraints →
        constraints.canColocate served background = true

/-- The staged load goes to a runtime that can run the model, both in the queue and in
every action plan of the decision. -/
structure PlacesLoad (scheduler : Scheduler) (request : InferenceRequest)
    (snapshots : List RuntimeSnapshot) (d : Decision) (served background : ModelId)
    (before after : List StagingIntent) : Prop where
  queued : ∃ intent : StagingIntent, after = before ++ [intent] ∧
    intent.decisionId = d.id ∧ intent.backgroundModel = background ∧
    CanRun scheduler request snapshots d served background intent.targetRuntime
  planned : ∀ models dryRun, ∃ action,
    (actionPlanFor models d dryRun).getBackgroundLoad = some action ∧
    action.modelId = some background ∧
    CanRun scheduler request snapshots d served background action.runtimeId

/-- The two candidates of the staged decision are on one runtime, or the runtime of the
one that is served could also have loaded the other: it supports the model, which is cold
there, and its matrix admits the pair. -/
def HostsStaged (snapshots : List RuntimeSnapshot) (cold fallback : Candidate) : Prop :=
  cold.runtimeId = fallback.runtimeId ∨
    (fallback.runtimeId ∈ cold.modelProfile.supportedRuntimes ∧
      ∃ snapshot ∈ snapshots, snapshot.runtimeId = fallback.runtimeId ∧
        snapshot.available = true ∧
        actionFor (residencyOf snapshot cold.modelId) = .coldLoad ∧
        ∀ constraints, snapshot.colocation = some constraints →
          constraints.canColocate fallback.modelId cold.modelId = true)

section Staged

variable {scheduler : Scheduler} {request : InferenceRequest}
  {snapshots : List RuntimeSnapshot} {generated : CandidateSet}
  {cold fallback : ScoredCandidate} {d : Decision}

/-- The runtime that serves a staged decision can run the staged model exactly when it
hosts both. -/
theorem canRun_iff_hostsStaged
    (hnodup : (snapshots.map RuntimeSnapshot.runtimeId).Nodup)
    (hgenerated : scheduler.generateCandidates request snapshots = .ok generated)
    (hstages : Stages request scheduler.config.continuity
      (scheduler.scoredCandidates request generated) cold fallback)
    (hserved : d.selectedRuntime = some fallback.candidate.runtimeId) :
    CanRun scheduler request snapshots d fallback.candidate.modelId cold.candidate.modelId
        fallback.candidate.runtimeId ↔
      HostsStaged snapshots cold.candidate fallback.candidate := by
  obtain ⟨⟨hcold, hcoldLoad, _⟩, hfallback, _⟩ := hstages.candidates
  rw [Scheduler.mem_candidates_iff hgenerated] at hcold hfallback
  constructor
  · rintro ⟨⟨generated', hgenerated', c, hc, haction, hmodel, hruntime, hsupported⟩, _,
      hcolocated⟩
    rw [hgenerated, Except.ok.injEq] at hgenerated'
    subst hgenerated'
    rw [Scheduler.mem_candidates_iff hgenerated] at hc
    obtain ⟨snapshot, hmem, hid, havailable, hresidency, _⟩ := hc.exists_snapshot
    rw [hc.action_eq, hresidency, hmodel] at haction
    rw [hc.profile_eq hcold hmodel] at hsupported
    exact Or.inr ⟨hsupported, snapshot, hmem, hid.trans hruntime, havailable, haction,
      hcolocated hserved snapshot hmem (hid.trans hruntime)⟩
  · rintro (hsame | ⟨hsupported, snapshot, hmem, hid, havailable, haction, hadmits⟩)
    · obtain ⟨snapshot, hmem, hid, havailable, _, _⟩ := hfallback.exists_snapshot
      refine ⟨⟨generated, hgenerated, cold.candidate, ?_, hcoldLoad, rfl, hsame,
        hsame ▸ hcold.runtime_supported⟩, ⟨snapshot, hmem, hid, havailable⟩, ?_⟩
      · exact (Scheduler.mem_candidates_iff hgenerated).mpr hcold
      · intro _ other hother hotherId constraints hconstraints
        obtain ⟨own, hown, hownId, _, _, hcolocation⟩ := hfallback.exists_snapshot
        have heq := List.inj_on_of_nodup_map hnodup hother hown (hotherId.trans hownId.symm)
        refine colocationAdmits_iff.mp hstages.admits hsame constraints ?_
        rw [hcolocation, ← heq, hconstraints]
    · obtain ⟨c, hc, hmodel, hruntime, hcAction⟩ :=
        hcold.exists_on hnodup hmem havailable (hid ▸ hsupported)
      refine ⟨⟨generated, hgenerated, c, ?_, hcAction.trans haction, hmodel,
        hruntime.trans hid, ?_⟩, ⟨snapshot, hmem, hid, havailable⟩, ?_⟩
      · exact (Scheduler.mem_candidates_iff hgenerated).mpr hc
      · rw [hc.profile_eq hcold hmodel]
        exact hsupported
      · intro _ other hother hotherId
        rw [List.inj_on_of_nodup_map hnodup hother hmem (hotherId.trans hid.symm)]
        exact hadmits

end Staged

namespace AppState

variable {state : AppState} {codec : Codec} {env : ℕ → Surroundings}
  {request : InferenceRequest} {snapshots : List RuntimeSnapshot} {d : Decision} {w : World}
  {served background : ModelId}

/-- A staged load is placed on a runtime that can run the model exactly when the runtime
that serves the decision hosts both candidates of the pair. -/
theorem placesLoad_decideOn_iff
    (hnodup : (snapshots.map RuntimeSnapshot.runtimeId).Nodup)
    (h : ((state.decideOn request snapshots).run (handle codec env) w).result = .ok d)
    (haction : d.action = .stageBackground) (hserved : d.selectedModel = some served)
    (hbackground : d.backgroundModel = some background) :
    let scheduler := w.governance.effective.scheduler
    PlacesLoad scheduler request snapshots d served background w.stagingWorker.queue
        ((state.decideOn request snapshots).run (handle codec env) w).state.stagingWorker.queue ↔
      ∀ generated cold fallback,
        scheduler.generateCandidates request snapshots = .ok generated →
        Stages request scheduler.config.continuity
          (scheduler.scoredCandidates request generated) cold fallback →
        HostsStaged snapshots cold.candidate fallback.candidate := by
  intro scheduler
  obtain ⟨stamp, hdecide⟩ := decideOn_ok h
  obtain ⟨generated, cold, fallback, hgenerated, hstages, hmodel, hruntime, hcold⟩ :=
    Scheduler.stages_of_decide hdecide haction
  rw [hmodel, Option.some.injEq] at hserved
  rw [hcold, Option.some.injEq] at hbackground
  subst hserved hbackground
  have hcanRun := canRun_iff_hostsStaged hnodup hgenerated hstages hruntime
  obtain ⟨intent, hqueue, hid, hintent, htarget⟩ := queue_decideOn h haction hruntime hcold
  constructor
  · intro hplaces generated' cold' fallback' hgenerated' hstages'
    rw [hgenerated, Except.ok.injEq] at hgenerated'
    subst hgenerated'
    have hcoldEq := hstages.cold_eq.symm.trans hstages'.cold_eq
    have hfallbackEq := hstages.fallback_eq.symm.trans hstages'.fallback_eq
    rw [Option.some.injEq] at hcoldEq hfallbackEq
    subst hcoldEq hfallbackEq
    obtain ⟨action, hload, _, hcan⟩ := hplaces.planned ∅ true
    obtain ⟨action', hload', _, htarget'⟩ := background_actionPlanFor ∅ true haction hruntime
      hcold
    rw [hload, Option.some.injEq] at hload'
    rw [← hload'] at htarget'
    exact hcanRun.mp (htarget' ▸ hcan)
  · intro hhosts
    have hcan := hcanRun.mpr (hhosts generated cold fallback hgenerated hstages)
    refine ⟨⟨intent, hqueue, hid, hintent, htarget ▸ hcan⟩, fun models dryRun => ?_⟩
    obtain ⟨action, hload, hmodel', htarget'⟩ := background_actionPlanFor models dryRun
      haction hruntime hcold
    exact ⟨action, hload, hmodel', htarget' ▸ hcan⟩

/-! ### A daemon of two runtimes -/

/-- A mock runs the small model, and only a live runtime supports the large one. -/
def twoRuntimesConfig : AnemoiConfig where
  domains := .ofList [(⟨"coding"⟩, { rosters := [⟨"fast"⟩, ⟨"large"⟩] })]
  residencyGroups := .ofList
    [(⟨"fast"⟩, { models := [⟨"qwen9b"⟩], keepHot := true }),
     (⟨"large"⟩, { models := [⟨"qwen70b"⟩] })]
  models := .ofList
    [(⟨"qwen9b"⟩, { family := "qwen", parameterClass := "9b", supportedRuntimes := [⟨"a"⟩] }),
     (⟨"qwen70b"⟩,
      { family := "qwen", parameterClass := "70b", coldLoadEstimateMs := some 60000
        supportedRuntimes := [⟨"b"⟩] })]
  runtimes := .ofList
    [(⟨"a"⟩, { adapter := "mock", baseUrl := none, authToken := none }),
     (⟨"b"⟩,
      { adapter := "ollama", baseUrl := some "http://localhost:11434", authToken := none })]

def twoRuntimes : AppState where
  config := twoRuntimesConfig
  valid := by decide

/-- Its state at the start, with the baseline in force. -/
def twoRuntimesStart : World :=
  .start (.new twoRuntimesConfig {} none) ⟨none, none⟩

/-- An available runtime with the given hot models. -/
def hotSnapshot (runtimeId : String) (models : List String) : RuntimeSnapshot where
  runtimeId := ⟨runtimeId⟩
  available := true
  residents := models.map fun model => ⟨⟨model⟩, .hotGpu, none, none, none, none⟩
  configuredModels := []
  memory := {}
  activeRequests := []
  colocation := none

/-- An inspection that finds the given models hot. -/
def hotAnswer (runtimeId : String) (models : List String) :
    Except String (SnapshotOf runtimeId) :=
  .ok ⟨hotSnapshot runtimeId models, rfl⟩

def codingRequest : InferenceRequest where
  id := ⟨"request"⟩
  domain := ⟨"coding"⟩
  mode := .interactive
  promptTokensEstimate := none
  maxOutputTokens := none
  latencyBudgetMs := some 1500
  qualityFloor := none
  escalationIntent := none

/-- The small model is hot, and the live runtime has nothing loaded. -/
def twoRuntimesSnapshots : List RuntimeSnapshot :=
  [hotSnapshot "a" ["qwen9b"], hotSnapshot "b" []]

/-- Then the small model is served, and the large one is staged. -/
theorem decideOn_twoRuntimes :
    ∃ d, ((twoRuntimes.decideOn codingRequest twoRuntimesSnapshots).run
        (handle default fun _ => default) twoRuntimesStart).result = .ok d ∧
      (d.action, d.selectedModel, d.selectedRuntime, d.backgroundModel) =
        (.stageBackground, some ⟨"qwen9b"⟩, some ⟨"a"⟩, some ⟨"qwen70b"⟩) :=
  exists_ok_of_map (by decide +kernel)

theorem placesLoad_iff_twoRuntimes :
    ∃ d, ((twoRuntimes.decideOn codingRequest twoRuntimesSnapshots).run
        (handle default fun _ => default) twoRuntimesStart).result = .ok d ∧
      (PlacesLoad twoRuntimesStart.governance.effective.scheduler codingRequest
          twoRuntimesSnapshots d ⟨"qwen9b"⟩ ⟨"qwen70b"⟩ twoRuntimesStart.stagingWorker.queue
          ((twoRuntimes.decideOn codingRequest twoRuntimesSnapshots).run
            (handle default fun _ => default) twoRuntimesStart).state.stagingWorker.queue ↔
        ∀ generated cold fallback,
          twoRuntimesStart.governance.effective.scheduler.generateCandidates codingRequest
            twoRuntimesSnapshots = .ok generated →
          Stages codingRequest twoRuntimesStart.governance.effective.scheduler.config.continuity
            (twoRuntimesStart.governance.effective.scheduler.scoredCandidates codingRequest
              generated) cold fallback →
          HostsStaged twoRuntimesSnapshots cold.candidate fallback.candidate) := by
  obtain ⟨d, h, hfields⟩ := decideOn_twoRuntimes
  simp only [Prod.mk.injEq] at hfields
  obtain ⟨haction, hserved, _, hbackground⟩ := hfields
  exact ⟨d, h, placesLoad_decideOn_iff (by decide) h haction hserved hbackground⟩

/-- The large model is queued and planned for the mock, which does not support it. -/
theorem not_placesLoad_twoRuntimes :
    (twoRuntimesSnapshots.map RuntimeSnapshot.runtimeId).Nodup ∧
    ∃ d, ((twoRuntimes.decideOn codingRequest twoRuntimesSnapshots).run
        (handle default fun _ => default) twoRuntimesStart).result = .ok d ∧
      d.action = .stageBackground ∧ d.selectedModel = some ⟨"qwen9b"⟩ ∧
      d.backgroundModel = some ⟨"qwen70b"⟩ ∧
      ¬PlacesLoad twoRuntimesStart.governance.effective.scheduler codingRequest
        twoRuntimesSnapshots d ⟨"qwen9b"⟩ ⟨"qwen70b"⟩ twoRuntimesStart.stagingWorker.queue
        ((twoRuntimes.decideOn codingRequest twoRuntimesSnapshots).run
          (handle default fun _ => default) twoRuntimesStart).state.stagingWorker.queue := by
  obtain ⟨d, h, hfields⟩ := decideOn_twoRuntimes
  simp only [Prod.mk.injEq] at hfields
  obtain ⟨haction, hserved, hruntime, hbackground⟩ := hfields
  refine ⟨by decide, d, h, haction, hserved, hbackground, fun hplaces => ?_⟩
  obtain ⟨action, hload, _, hcan⟩ := hplaces.planned ∅ true
  obtain ⟨action', hload', _, htarget⟩ := background_actionPlanFor ∅ true haction hruntime
    hbackground
  rw [hload, Option.some.injEq] at hload'
  obtain ⟨generated, hgenerated, c, hc, _, hmodel, hsame, _⟩ := hcan.cold_load
  have honly : ∀ c ∈ generated.candidates, c.modelId = ⟨"qwen70b"⟩ → c.runtimeId = ⟨"b"⟩ := by
    rw [← Except.ok.inj hgenerated]
    decide
  have hb := honly c hc hmodel
  rw [hsame, hload', htarget] at hb
  exact absurd hb (by decide)

end AppState

end Anemoi
