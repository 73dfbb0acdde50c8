import Anemoi.Daemon.Effects
import Anemoi.Policy.Eviction

/-!
# The daemon

The operations of `AppState`: reconciliation and staging ticks, decisions, action plans
and evictions, as programs over the daemon's effects.

Loading or unloading a model on a runtime that is not a mock needs live execution. Each
operation checks this itself: some read the adapter's name in the configuration, one asks
the adapter, and some read the state's override of the environment variable while others
read only the variable.
-/

namespace Anemoi

open Systems

/-- May a model be loaded or unloaded here? The variable is read for a runtime that is
not a mock only. -/
def mutationAllowed (isMock : Bool) : Daemon Bool :=
  if isMock then pure true else Daemon.liveExecutionEnabled

/-! ### Adapters -/

/-- The adapters that a daemon may hold. -/
inductive Adapter where
  | ollama
  | mock
  | llamaSwap
  | llamaCpp
  deriving DecidableEq, Repr

namespace Adapter

/-- The adapter built for an `adapter` string; an unknown one gets a mock. -/
def ofName : String → Adapter
  | "ollama" => ollama
  | "mock" => mock
  | "llama_swap" => llamaSwap
  | "llama_cpp" | "llama_server" => llamaCpp
  | _ => mock

def isMock : Adapter → Bool
  | mock => true
  | ollama | llamaSwap | llamaCpp => false

end Adapter

/-- The part of the state that does not change: the baseline configuration, which is
valid, and the override of the live-execution variable. -/
structure AppState where
  config : AnemoiConfig
  valid : validateConfig config = []
  liveExecute : Option Bool := none

namespace AppState

variable (state : AppState)

/-- The adapters by the text of the runtime's id. -/
def runtimes : Table String Adapter :=
  .ofList (state.config.runtimes.items.map fun e => (e.1.text, .ofName e.2.adapter))

def runtimeAdapterType (runtimeId : String) : Option String :=
  (state.config.runtimes.lookup ⟨runtimeId⟩).map RuntimeConfig.adapter

/-- Is the runtime configured with the mock adapter? -/
def isMockRuntime (runtimeId : String) : Bool :=
  state.runtimeAdapterType runtimeId = some "mock"

def runtimeForwardTarget (runtimeId : String) : Option ForwardTarget := do
  let config ← state.config.runtimes.lookup ⟨runtimeId⟩
  let baseUrl ← config.baseUrl
  return { baseUrl, authToken := config.authToken }

/-- The override, or the environment variable. -/
def liveExecuteEnabled : Daemon Bool :=
  match state.liveExecute with
  | some enabled => pure enabled
  | none => Daemon.liveExecutionEnabled

/-- Is the runtime a mock, or live execution enabled? The flag is read for a runtime that
is not a mock only. -/
def executionAllowed (runtimeId : String) : Daemon Bool :=
  if state.isMockRuntime runtimeId then pure true else state.liveExecuteEnabled

/-! ### Reconciliation -/

def emitResidentTransitions (runtimeId : String) (previous current : List ModelResident)
    (round : UInt64) : Daemon Unit := do
  let transitions := residentTransitions previous current
  if transitions.isEmpty then return
  else
    let adapter := (state.runtimeAdapterType runtimeId).getD "unknown"
    let evidence := s!"{adapter} reconciliation round {round}"
    let observedAt ← Daemon.now
    transitions.forM fun transition => do
      let note :=
        if transition.firstObservation then
          some "first observation; prior state inferred as cold"
        else none
      let _ ← Daemon.record (.recordResidentTransition
        { modelId := transition.modelId.text
          runtimeId
          fromState := transition.fromState
          toState := transition.toState
          observedAt
          evidenceSource := evidence
          decisionId := none
          note })

/-- Record what a successful inspection changed, before the cache has it. -/
def recordInspection (runtimeId : String) (snapshot : RuntimeSnapshot) (round : UInt64) :
    Daemon Unit := do
  let previous ← Daemon.getReconciled runtimeId
  let priorResidents := (previous.map fun p => p.snapshot.residents).getD []
  state.emitResidentTransitions runtimeId priorResidents snapshot.residents round
  let observedAt ← Daemon.now
  let id ← Daemon.newUuid
  let _ ← Daemon.record (.recordRuntimeSnapshot id runtimeId snapshot observedAt)

/-- Inspect one runtime and store the outcome in the cache. -/
def reconcileRuntime (runtimeId : String) (round : UInt64) : Daemon Unit := do
  match ← Daemon.inspect runtimeId with
  | .ok snapshot =>
      state.recordInspection runtimeId snapshot round
      Daemon.updateSnapshot runtimeId snapshot
  | .error e => Daemon.recordError runtimeId e

def runReconciliationTick : Daemon Unit := do
  let round ← Daemon.nextRound
  state.runtimes.keys.forM fun runtimeId => state.reconcileRuntime runtimeId round

/-! ### Decisions -/

/-- Inspect the runtimes again when the cache must not be relied on. -/
def refresh : Daemon Unit := do
  if ← Daemon.needsRefresh then state.runReconciliationTick else return

/-- Queue the background load of a decision that stages one. -/
def queueStage (request : InferenceRequest) (decision : Decision) :
    Daemon (Except String Unit) := do
  match decision.action, decision.selectedRuntime, decision.backgroundModel with
  | .stageBackground, some runtimeId, some modelId =>
      let pendingContext := request.escalationIntent.bind EscalationIntent.context
      let runnable ← state.executionAllowed runtimeId.text
      let stamp ← Daemon.stamp
      let intent := StagingIntent.queued stamp decision.id decision.selectedModel modelId
        runtimeId decision.explanation.summary pendingContext runnable
      Daemon.enqueue intent
      Daemon.record (.recordStagingStatus intent.id intent.decisionId
        intent.backgroundModel.text intent.targetRuntime.text intent.reason intent.state.name)
  | _, _, _ => return .ok ()

/-- Queue what the decision stages, and record it. -/
def commitDecision (request : InferenceRequest) (decision : Decision) :
    Daemon (Except String Decision) := do
  match ← state.queueStage request decision with
  | .error e => return .error e
  | .ok () =>
  match ← Daemon.record (.recordDecision decision) with
  | .error e => return .error e
  | .ok () => return .ok decision

/-- The part of a decision that follows the reading of the snapshots. -/
def decideOn (request : InferenceRequest) (snapshots : List RuntimeSnapshot) :
    Daemon (Except String Decision) := do
  let effective ← Daemon.effective
  let stamp ← Daemon.stamp
  match effective.scheduler.decide request snapshots stamp with
  | .error e => return .error (toString e)
  | .ok decision => state.commitDecision request decision

def decide (request : InferenceRequest) : Daemon (Except String Decision) := do
  state.refresh
  let snapshots ← Daemon.getSnapshots
  state.decideOn request snapshots

end AppState

/-! ### Action plans -/

/-- The plan of a decision; estimates come from the given profiles. -/
def actionPlanFor (models : Table ModelId ModelProfileConfig) (decision : Decision)
    (dryRun : Bool) : ActionPlan :=
  let plan := ActionPlan.new decision.id dryRun
  let estimate (modelId : ModelId) : Option UInt64 :=
    (models.lookup modelId).bind ModelProfileConfig.coldLoadEstimateMs
  match decision.action with
  | .reuseHot =>
      plan.addNoop (decision.selectedRuntime.getD ⟨"unknown"⟩)
        "Reuse hot model - no action needed"
  | .promoteWarm =>
      match decision.selectedRuntime, decision.selectedModel with
      | some runtimeId, some modelId =>
          plan.addLoad runtimeId modelId true "Promote warm model to hot" (estimate modelId)
      | _, _ => plan
  | .coldLoad =>
      match decision.selectedRuntime, decision.selectedModel with
      | some runtimeId, some modelId =>
          plan.addLoad runtimeId modelId true "Cold load required model" (estimate modelId)
      | _, _ => plan
  | .stageBackground =>
      match decision.selectedRuntime, decision.backgroundModel with
      | some runtimeId, some modelId =>
          plan.addLoad runtimeId modelId false "Background staging load" (estimate modelId)
      | _, _ => plan
  | .downgrade | .defer | .deny =>
      plan.addNoop (decision.selectedRuntime.getD ⟨"none"⟩)
        s!"{decision.action.debug} - no action"

def generateActionPlan (decision : Decision) (dryRun : Bool) : Daemon ActionPlan := do
  let effective ← Daemon.effective
  return actionPlanFor effective.config.models decision dryRun

/-! ### Evictions -/

/-- The flags of one group, added if the model is a member. -/
def addProtection (modelId : ModelId) (flags : Bool × Bool) (group : ResidencyGroupConfig) :
    Bool × Bool :=
  if group.models.contains modelId then (flags.1 || group.keepHot, flags.2 || group.pinned)
  else flags

/-- Is the model in a keep-hot group, and is it in a pinned one? -/
def groupProtection (config : AnemoiConfig) (modelId : ModelId) : Bool × Bool :=
  config.residencyGroups.values.foldl (addProtection modelId) (false, false)

/-- A resident of a snapshot as the planner sees it, by the groups of `config`. -/
def evictionResident (config : AnemoiConfig) (now : DateTime) (snapshot : RuntimeSnapshot)
    (resident : ModelResident) : EvictionCandidateResident :=
  let (keepHot, pinned) := groupProtection config resident.modelId
  let serving := snapshot.activeRequests.any fun active => active.modelId = resident.modelId
  { modelId := resident.modelId
    runtimeId := snapshot.runtimeId
    state := if serving then .serving else resident.state
    keepHot
    pinned
    idleSecs := resident.loadedSince.map fun since =>
      UInt64.ofInt (max (now.secondsSince since) 0) }

/-- The residents of all snapshots. -/
def evictionResidents (config : AnemoiConfig) (now : DateTime)
    (snapshots : List RuntimeSnapshot) : List EvictionCandidateResident :=
  snapshots.flatMap fun snapshot =>
    snapshot.residents.map (evictionResident config now snapshot)

namespace AppState

variable (state : AppState)

def planEvictions (force : Bool) : Daemon EvictionPlan := do
  let snapshots ← Daemon.getSnapshots
  let now ← Daemon.now
  return Anemoi.planEvictions { residents := evictionResidents state.config now snapshots, force }

/-- Walk the actions of an approved plan; the results so far are kept. -/
def unloadAll : List RuntimeAction → List String → Daemon (Except String (List String))
  | [], results => return .ok results
  | action :: rest, results => do
      match action.kind, action.modelId with
      | .unload, some modelId =>
          let runtimeId := action.runtimeId.text
          if ← mutationAllowed (state.isMockRuntime runtimeId) then
            match state.runtimes.lookup runtimeId with
            | none => unloadAll rest results
            | some _ =>
                match ← Daemon.unloadModel runtimeId modelId with
                | .error e => return .error e
                | .ok () =>
                    unloadAll rest
                      (results ++ [s!"Unloaded {modelId} on {action.runtimeId}"])
          else return .error "Live eviction requires ANEMOI_ENABLE_LIVE_EXECUTE=1"
      | _, _ => unloadAll rest results

def executeEvictionPlan (plan : ActionPlan) (approved : Bool) :
    Daemon (Except String (List String)) :=
  if plan.dryRun || !approved then return .ok [] else state.unloadAll plan.actions []

end AppState

/-! ### Staging -/

/-- The models of the residents in one of the given states. -/
def modelsIn (states : ResidencyState → Bool) (snapshots : List RuntimeSnapshot) :
    List ModelId :=
  ((snapshots.flatMap RuntimeSnapshot.residents).filter fun r => states r.state).map
    ModelResident.modelId

def readyModels : Daemon (List ModelId) := do
  let snapshots ← Daemon.getSnapshots
  return modelsIn (fun state => state = .hotGpu || state = .serving) snapshots

def drainingModels : Daemon (List ModelId) := do
  let snapshots ← Daemon.getSnapshots
  return modelsIn (fun state => state = .draining || state = .evicting) snapshots

/-- Store the contexts that wait for a foreground model which is draining now. -/
def commitDraining : Daemon Unit := do
  let draining ← drainingModels
  if draining.isEmpty then return
  else
    let _ ← Daemon.commitEvictionContext draining

/-- Complete the pending intents whose model is ready. -/
def completeReady : Daemon Unit := do
  let ready ← readyModels
  if ready.isEmpty then return
  else
    let _ ← Daemon.reconcileReady ready

/-- Load the model of an intent and store the outcome. -/
def loadIntent (runtimeId : String) (intent : StagingIntent) : Daemon Unit := do
  match ← Daemon.loadModel runtimeId intent.backgroundModel with
  | .ok _ => Daemon.updateState intent.id .completed none
  | .error e => Daemon.updateState intent.id .failed (some e)

namespace AppState

variable (state : AppState)

/-- One pending intent of a staging tick. -/
def stageIntent (intent : StagingIntent) : Daemon Unit := do
  let runtimeId := intent.targetRuntime.text
  if ← mutationAllowed (state.isMockRuntime runtimeId) then
    Daemon.noteTick intent.id none
    match state.runtimes.lookup runtimeId with
    | none => return
    | some _ => loadIntent runtimeId intent
  else
    Daemon.noteTick intent.id
      (some (s!"live execution disabled: runtime '{runtimeId}' is not mock and " ++
        "ANEMOI_ENABLE_LIVE_EXECUTE is not set"))

def runStagingTick : Daemon Unit := do
  commitDraining
  completeReady
  let pending ← Daemon.getPending
  pending.forM state.stageIntent

end AppState

/-- Run every pending intent on one adapter, whatever runtime the intent is for. -/
def StagingWorker.executePending (runtimeId : String) (adapter : Adapter) :
    Daemon Unit := do
  if ← mutationAllowed adapter.isMock then
    let pending ← Daemon.getPending
    pending.forM (loadIntent runtimeId)

/-- The escalation context staged for a model, which is consumed. -/
def takeEscalationContext (model : ModelId) : Daemon (Option String) := do
  match ← Daemon.takeContextRef model with
  | none => return none
  | some contextRef => Daemon.takeContext contextRef

end Anemoi
