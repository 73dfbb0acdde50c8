import Anemoi.Daemon.Edits
import Anemoi.Daemon.Reconciler
import Anemoi.Daemon.Staging
import Anemoi.Systems.Logic

/-!
# The daemon's effects

A handler of the daemon is a program over the commands of this file: it reads the
clock, calls a runtime, records telemetry, or runs one operation under a lock of the
shared state. Between two commands of one handler other handlers may run.

The runtimes, the telemetry store and the environment are not the daemon's:
`Surroundings` is any way in which they may answer, and `handle` plays a program
against them. Of a runtime the model knows that a snapshot carries the id of the
runtime that was inspected, which every adapter of the source sees to.
-/

namespace Anemoi

open Systems

/-! ### Messages -/

/-- A JSON value. A number keeps its text, and its value when `as_u64` has one. -/
inductive Json where
  | null
  | bool (value : Bool)
  | number (asU64 : Option UInt64) (text : String)
  | string (text : String)
  | array (elements : List Json)
  | object (fields : List (String × Json))

namespace Json

def ofU64 (n : UInt64) : Json :=
  number (some n) (toString n)

/-- The field of an object; another value has none. -/
def get (value : Json) (field : String) : Option Json :=
  match value with
  | object fields => fields.lookup field
  | _ => none

def asStr : Json → Option String
  | string text => some text
  | _ => none

def asU64 : Json → Option UInt64
  | number value _ => value
  | _ => none

def asArray : Json → Option (List Json)
  | array elements => some elements
  | _ => none

end Json

/-- Where a forwarded chat completion goes. -/
structure ForwardTarget where
  baseUrl : String
  authToken : Option String
  deriving DecidableEq, Repr

/-- What a runtime answers to a forwarded chat completion. The body is a stream, each
chunk of which may fail. -/
structure ForwardedChatCompletion where
  status : UInt16
  contentType : Option String
  body : List (Except String ByteArray)

structure LoadHandle where
  id : Uuid
  modelId : ModelId
  deriving DecidableEq, Repr

structure ResidentTransitionRecord where
  modelId : String
  runtimeId : String
  fromState : ResidencyState
  toState : ResidencyState
  observedAt : DateTime
  evidenceSource : String
  decisionId : Option Uuid
  note : Option String
  deriving DecidableEq, Repr

/-- The calls to the decision log that record something. -/
inductive TelemetryEvent where
  | recordDecision (decision : Decision)
  | recordStagingStatus (intentId decisionId : Uuid)
      (backgroundModel targetRuntime reason state : String)
  | recordActionPlan (plan : ActionPlan)
  | recordRuntimeSnapshot (id : Uuid) (runtimeId : String) (snapshot : RuntimeSnapshot)
      (observedAt : DateTime)
  | recordResidentTransition (record : ResidentTransitionRecord)
  deriving DecidableEq, Repr

/-- What the gateway reads from the `anemoi` field of a request. -/
structure GatewaySelectionMetadata where
  promptTokensEstimate : Option UInt32 := none
  maxOutputTokens : Option UInt32 := none
  latencyBudgetMs : Option UInt64 := none
  qualityFloor : Option QualityFloor := none
  escalationIntent : Option EscalationIntent := none
  deriving DecidableEq, Repr

/-- What libraries decide: how overrides are serialized, how selection metadata is
decoded, and which texts are header values. -/
structure Codec where
  overridesToJson : GovernanceOverrides → Except String String
  selectionMetadata : Json → Except String GatewaySelectionMetadata
  isHeaderValue : String → Bool

/-! ### Commands -/

/-- A snapshot of the runtime with the given id. -/
abbrev SnapshotOf (runtimeId : String) :=
  { snapshot : RuntimeSnapshot // snapshot.runtimeId.text = runtimeId }

inductive Cmd where
  | now
  | newUuid
  | liveExecutionEnabled
  | inspect (runtimeId : String)
  | loadModel (runtimeId : String) (model : ModelId)
  | unloadModel (runtimeId : String) (model : ModelId)
  /-- The runtime's id is not sent; it names the runtime whose target this is. -/
  | forwardChatCompletion (runtimeId : String) (target : ForwardTarget) (body : Json)
  | record (event : TelemetryEvent)
  | nextRound
  | needsRefresh
  | getSnapshots
  | getReconciled (runtimeId : String)
  | updateSnapshot (runtimeId : String) (snapshot : RuntimeSnapshot)
  | recordError (runtimeId error : String)
  | enqueue (intent : StagingIntent)
  | getPending
  | updateState (intentId : Uuid) (state : StagingState) (error : Option String)
  | noteTick (intentId : Uuid) (skipReason : Option String)
  | reconcileReady (readyModels : List ModelId)
  | commitEvictionContext (drainingModels : List ModelId)
  | takeContextRef (model : ModelId)
  | takeContext (contextRef : ContextRef)
  | effective
  | mutate (request : EditRequest)

@[reducible] def Cmd.Resp : Cmd → Type
  | now => DateTime
  | newUuid => Uuid
  | liveExecutionEnabled | needsRefresh => Bool
  | inspect runtimeId => Except String (SnapshotOf runtimeId)
  | loadModel _ _ => Except String LoadHandle
  | unloadModel _ _ => Except String Unit
  | forwardChatCompletion _ _ _ => Except String ForwardedChatCompletion
  | record _ => Except String Unit
  | nextRound => UInt64
  | getSnapshots => List RuntimeSnapshot
  | getReconciled _ => Option ReconciledSnapshot
  | updateSnapshot _ _ | recordError _ _ | enqueue _ | updateState _ _ _ | noteTick _ _ =>
      Unit
  | getPending => List StagingIntent
  | reconcileReady _ | commitEvictionContext _ => List Uuid
  | takeContextRef _ => Option ContextRef
  | takeContext _ => Option String
  | effective => EffectiveBundle
  | mutate _ => Except GovernanceError Unit

abbrev Daemon := Program Cmd Cmd.Resp

/-- The events of a daemon's run. -/
abbrev History := List (Program.Event Cmd.Resp)

namespace Daemon

def now : Daemon DateTime := Program.perform Cmd.now

def newUuid : Daemon Uuid := Program.perform Cmd.newUuid

/-- The fresh id and the time that a new decision or intent carries. -/
def stamp : Daemon Stamp := do
  let id ← newUuid
  let createdAt ← now
  return { id, createdAt }

def liveExecutionEnabled : Daemon Bool := Program.perform Cmd.liveExecutionEnabled

def inspect (runtimeId : String) : Daemon (Except String (SnapshotOf runtimeId)) :=
  Program.perform (Cmd.inspect runtimeId)

def loadModel (runtimeId : String) (model : ModelId) : Daemon (Except String LoadHandle) :=
  Program.perform (Cmd.loadModel runtimeId model)

def unloadModel (runtimeId : String) (model : ModelId) : Daemon (Except String Unit) :=
  Program.perform (Cmd.unloadModel runtimeId model)

def forwardChatCompletion (runtimeId : String) (target : ForwardTarget) (body : Json) :
    Daemon (Except String ForwardedChatCompletion) :=
  Program.perform (Cmd.forwardChatCompletion runtimeId target body)

def record (event : TelemetryEvent) : Daemon (Except String Unit) :=
  Program.perform (Cmd.record event)

def nextRound : Daemon UInt64 := Program.perform Cmd.nextRound

def needsRefresh : Daemon Bool := Program.perform Cmd.needsRefresh

def getSnapshots : Daemon (List RuntimeSnapshot) := Program.perform Cmd.getSnapshots

def getReconciled (runtimeId : String) : Daemon (Option ReconciledSnapshot) :=
  Program.perform (Cmd.getReconciled runtimeId)

def updateSnapshot (runtimeId : String) (snapshot : RuntimeSnapshot) : Daemon Unit :=
  Program.perform (Cmd.updateSnapshot runtimeId snapshot)

def recordError (runtimeId error : String) : Daemon Unit :=
  Program.perform (Cmd.recordError runtimeId error)

def enqueue (intent : StagingIntent) : Daemon Unit := Program.perform (Cmd.enqueue intent)

def getPending : Daemon (List StagingIntent) := Program.perform Cmd.getPending

def updateState (intentId : Uuid) (state : StagingState) (error : Option String) :
    Daemon Unit :=
  Program.perform (Cmd.updateState intentId state error)

def noteTick (intentId : Uuid) (skipReason : Option String) : Daemon Unit :=
  Program.perform (Cmd.noteTick intentId skipReason)

def reconcileReady (readyModels : List ModelId) : Daemon (List Uuid) :=
  Program.perform (Cmd.reconcileReady readyModels)

def commitEvictionContext (drainingModels : List ModelId) : Daemon (List Uuid) :=
  Program.perform (Cmd.commitEvictionContext drainingModels)

def takeContextRef (model : ModelId) : Daemon (Option ContextRef) :=
  Program.perform (Cmd.takeContextRef model)

def takeContext (contextRef : ContextRef) : Daemon (Option String) :=
  Program.perform (Cmd.takeContext contextRef)

def effective : Daemon EffectiveBundle := Program.perform Cmd.effective

def mutate (request : EditRequest) : Daemon (Except GovernanceError Unit) :=
  Program.perform (Cmd.mutate request)

end Daemon

/-! ### Running the daemon -/

/-- The state that the handlers share. -/
structure World where
  reconciler : Reconciler
  stagingWorker : StagingWorker
  escalationContext : EscalationContextCache
  governance : Governance
  disk : Disk
  reconciliationRound : UInt64
  clock : ℕ

namespace World

/-- The state of a daemon that has just started. -/
def start (governance : Governance) (disk : Disk) : World where
  reconciler := .new Reconciler.defaultReconciliationTtlMs
  stagingWorker := {}
  escalationContext := .default
  governance := governance
  disk := disk
  reconciliationRound := 0
  clock := 0

end World

/-- How everything outside the daemon answers one command. The hash order is the order
in which the cache happens to be iterated. -/
structure Surroundings where
  now : DateTime
  newUuid : Uuid
  liveExecutionEnabled : Bool
  inspect : (runtimeId : String) → Except String (SnapshotOf runtimeId)
  loadModel : String → ModelId → Except String LoadHandle
  unloadModel : String → ModelId → Except String Unit
  forwardChatCompletion : ForwardTarget → Json → Except String ForwardedChatCompletion
  record : TelemetryEvent → Except String Unit
  hashOrder : List RuntimeSnapshot → List RuntimeSnapshot
  hashOrder_perm : ∀ snapshots, (hashOrder snapshots).Perm snapshots
  disk : FailurePattern

/-- Libraries that fail at everything they may fail at. -/
instance : Inhabited Codec where
  default :=
    { overridesToJson := fun _ => .error "unsupported"
      selectionMetadata := fun _ => .error "unsupported"
      isHeaderValue := fun _ => false }

/-- Surroundings where no runtime answers, live execution is disabled and everything is
recorded. -/
instance : Inhabited Surroundings where
  default :=
    { now := ⟨0⟩
      newUuid := ⟨0⟩
      liveExecutionEnabled := false
      inspect := fun _ => .error "connection refused"
      loadModel := fun _ model => .ok ⟨⟨0⟩, model⟩
      unloadModel := fun _ _ => .ok ()
      forwardChatCompletion := fun _ _ => .error "connection refused"
      record := fun _ => .ok ()
      hashOrder := id
      hashOrder_perm := fun _ => List.Perm.refl _
      disk := ⟨none, none, fun _ => none, none⟩ }

/-- Answer a command. The surroundings may answer differently at every command. -/
def handle (codec : Codec) (env : ℕ → Surroundings) : Program.Handler Cmd.Resp World :=
  fun w c =>
    let outside := env w.clock
    let w := { w with clock := w.clock + 1 }
    match c with
    | .now => (outside.now, w)
    | .newUuid => (outside.newUuid, w)
    | .liveExecutionEnabled => (outside.liveExecutionEnabled, w)
    | .inspect runtimeId => (outside.inspect runtimeId, w)
    | .loadModel runtimeId model => (outside.loadModel runtimeId model, w)
    | .unloadModel runtimeId model => (outside.unloadModel runtimeId model, w)
    | .forwardChatCompletion _ target body => (outside.forwardChatCompletion target body, w)
    | .record event => (outside.record event, w)
    | .nextRound =>
        let round := w.reconciliationRound + 1
        (round, { w with reconciliationRound := round })
    | .needsRefresh => (w.reconciler.needsRefresh outside.now, w)
    | .getSnapshots => (outside.hashOrder (w.reconciler.getSnapshots outside.now), w)
    | .getReconciled runtimeId => (w.reconciler.get runtimeId outside.now, w)
    | .updateSnapshot runtimeId snapshot =>
        ((), { w with reconciler := w.reconciler.update runtimeId snapshot outside.now })
    | .recordError runtimeId error =>
        ((), { w with reconciler := w.reconciler.recordError runtimeId error outside.now })
    | .enqueue intent => ((), { w with stagingWorker := w.stagingWorker.enqueue intent })
    | .getPending => (w.stagingWorker.getPending, w)
    | .updateState intentId state error =>
        ((), { w with stagingWorker := w.stagingWorker.updateState intentId state error })
    | .noteTick intentId skipReason =>
        ((), { w with stagingWorker := w.stagingWorker.noteTick intentId skipReason })
    | .reconcileReady readyModels =>
        let completed := w.stagingWorker.reconcileReady readyModels
        (completed.1, { w with stagingWorker := completed.2 })
    | .commitEvictionContext drainingModels =>
        let committed := w.stagingWorker.commitEvictionContext drainingModels
          w.escalationContext outside.now
        (committed.1,
         { w with stagingWorker := committed.2.1, escalationContext := committed.2.2 })
    | .takeContextRef model =>
        let taken := w.stagingWorker.takeContextRefForBackground model
        (taken.1, { w with stagingWorker := taken.2 })
    | .takeContext contextRef =>
        let taken := w.escalationContext.takeAt contextRef outside.now
        (taken.1, { w with escalationContext := taken.2 })
    | .effective => (w.governance.effective, w)
    | .mutate request =>
        let edited := editStep codec.overridesToJson (w.governance, w.disk)
          (request, outside.disk)
        (edited.1, { w with governance := edited.2.1, disk := edited.2.2 })

end Anemoi
