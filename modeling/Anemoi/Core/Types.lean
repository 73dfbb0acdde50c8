import Anemoi.Text.Hex
import Mathlib.Algebra.Group.Nat.Defs
import Mathlib.Data.Int.Notation
import Mathlib.Data.Nat.Notation

/-!
# Domain types

The identifiers, requests, snapshots and decisions that every layer of the
control plane exchanges. Field names follow the source; `u32`, `u64` and `i32`
are Lean's fixed-width integers, so their arithmetic wraps as it does in a
release build.
-/

namespace Anemoi

/-- `u64::MAX`. -/
def maxU64 : UInt64 := 0xFFFFFFFFFFFFFFFF

/-! ### Identifiers -/

structure RequestId where
  text : String
  deriving DecidableEq, Repr

structure DomainId where
  text : String
  deriving DecidableEq, Repr

structure ModelId where
  text : String
  deriving DecidableEq, Repr

structure RuntimeId where
  text : String
  deriving DecidableEq, Repr

structure ResidencyGroupId where
  text : String
  deriving DecidableEq, Repr

instance : ToString RequestId := ⟨RequestId.text⟩
instance : ToString DomainId := ⟨DomainId.text⟩
instance : ToString ModelId := ⟨ModelId.text⟩
instance : ToString RuntimeId := ⟨RuntimeId.text⟩
instance : ToString ResidencyGroupId := ⟨ResidencyGroupId.text⟩

/-- A 128-bit identifier. -/
structure Uuid where
  bits : BitVec 128
  deriving DecidableEq, Repr

/-- The hyphenated lowercase form `8-4-4-4-12`. -/
def Uuid.toText (u : Uuid) : String :=
  let digits := hexDigits 32 u.bits.toNat
  let part (start len : ℕ) := String.ofList ((digits.drop start).take len)
  s!"{part 0 8}-{part 8 4}-{part 12 4}-{part 16 4}-{part 20 12}"

instance : ToString Uuid := ⟨Uuid.toText⟩

/-- An instant, in nanoseconds. -/
structure DateTime where
  nanos : ℤ
  deriving DecidableEq, Repr

/-- `signed_duration_since(earlier).num_milliseconds()`: whole milliseconds,
truncated toward zero. -/
def DateTime.millisecondsSince (now earlier : DateTime) : ℤ :=
  (now.nanos - earlier.nanos).tdiv 1000000

/-- `(now - earlier).num_seconds()`: whole seconds, truncated toward zero. -/
def DateTime.secondsSince (now earlier : DateTime) : ℤ :=
  (now.nanos - earlier.nanos).tdiv 1000000000

/-! ### Residency -/

inductive ResidencyState where
  | cold
  | loading
  | warmCpu
  | partial_
  | hotGpu
  | serving
  | draining
  | evicting
  | failed
  deriving DecidableEq, Repr

namespace ResidencyState

/-- The name a `{:?}` placeholder prints. -/
def debug : ResidencyState → String
  | cold => "Cold"
  | loading => "Loading"
  | warmCpu => "WarmCpu"
  | partial_ => "Partial"
  | hotGpu => "HotGpu"
  | serving => "Serving"
  | draining => "Draining"
  | evicting => "Evicting"
  | failed => "Failed"

def reuseBonus : ResidencyState → Int32
  | hotGpu | serving => 60
  | warmCpu => 35
  | partial_ | loading => 15
  | draining | evicting => -10
  | cold | failed => 0

end ResidencyState

/-! ### Runtimes and models -/

structure ModelProfile where
  id : ModelId
  family : String
  parameterClass : String
  contextWindow : Option UInt32
  vramRequiredMb : Option UInt64
  ramRequiredMb : Option UInt64
  coldLoadEstimateMs : Option UInt64
  supportedRuntimes : List RuntimeId
  supportsStreaming : Option Bool
  deriving DecidableEq, Repr

structure ResidencyGroup where
  id : ResidencyGroupId
  purpose : List String
  models : List ModelId
  keepHot : Bool
  allowBackgroundLoad : Bool
  pinned : Bool
  deriving DecidableEq, Repr

/-- The declared co-resident loadouts of a runtime. -/
structure ColocationConstraints where
  loadouts : List (List ModelId)
  deriving DecidableEq, Repr

/-- Whether some declared loadout contains both models. -/
def ColocationConstraints.canColocate (c : ColocationConstraints) (a b : ModelId) : Bool :=
  c.loadouts.any fun loadout => loadout.contains a && loadout.contains b

structure RuntimeMemorySnapshot where
  vramTotalMb : Option UInt64 := none
  vramUsedMb : Option UInt64 := none
  ramTotalMb : Option UInt64 := none
  ramUsedMb : Option UInt64 := none
  deriving DecidableEq, Repr

structure ModelResident where
  modelId : ModelId
  state : ResidencyState
  vramMb : Option UInt64
  ramMb : Option UInt64
  kvCacheMb : Option UInt64
  loadedSince : Option DateTime
  deriving DecidableEq, Repr

structure ActiveExecution where
  requestId : RequestId
  modelId : ModelId
  startedAt : DateTime
  deriving DecidableEq, Repr

structure RuntimeSnapshot where
  runtimeId : RuntimeId
  available : Bool
  residents : List ModelResident
  configuredModels : List ModelId
  memory : RuntimeMemorySnapshot
  activeRequests : List ActiveExecution
  colocation : Option ColocationConstraints
  deriving DecidableEq, Repr

/-! ### Requests -/

inductive ExecutionMode where
  | interactive
  | batch
  | background
  deriving DecidableEq, Repr

structure QualityFloor where
  minimumParameterClass : Option String
  deriving DecidableEq, Repr

structure EscalationIntent where
  taskType : Option String
  context : Option String
  deriving DecidableEq, Repr

structure InferenceRequest where
  id : RequestId
  domain : DomainId
  mode : ExecutionMode
  promptTokensEstimate : Option UInt32
  maxOutputTokens : Option UInt32
  latencyBudgetMs : Option UInt64
  qualityFloor : Option QualityFloor
  escalationIntent : Option EscalationIntent
  deriving DecidableEq, Repr

/-! ### Decisions -/

inductive DecisionAction where
  | reuseHot
  | promoteWarm
  | coldLoad
  | stageBackground
  | downgrade
  | defer
  | deny
  deriving DecidableEq, Repr

/-- The name a `{:?}` placeholder prints. -/
def DecisionAction.debug : DecisionAction → String
  | reuseHot => "ReuseHot"
  | promoteWarm => "PromoteWarm"
  | coldLoad => "ColdLoad"
  | stageBackground => "StageBackground"
  | downgrade => "Downgrade"
  | defer => "Defer"
  | deny => "Deny"

structure ScoreContribution where
  label : String
  value : Int32
  deriving DecidableEq, Repr

structure DecisionScore where
  total : Int32 := 0
  contributions : List ScoreContribution := []
  deriving DecidableEq, Repr

structure DecisionReason where
  code : String
  detail : String
  impact : Int32
  deriving DecidableEq, Repr

structure RejectedOption where
  modelId : Option ModelId
  runtimeId : Option RuntimeId
  reason : String
  deriving DecidableEq, Repr

structure Explanation where
  summary : String
  reasons : List DecisionReason
  rejectedOptions : List RejectedOption
  deriving DecidableEq, Repr

structure Decision where
  id : Uuid
  requestId : RequestId
  action : DecisionAction
  selectedModel : Option ModelId
  selectedRuntime : Option RuntimeId
  selectedGroup : Option ResidencyGroupId
  backgroundModel : Option ModelId
  score : DecisionScore
  explanation : Explanation
  createdAt : DateTime
  deriving DecidableEq, Repr

/-! ### Action plans -/

inductive ActionKind where
  | load
  | unload
  | keep
  | stage
  | defer
  | deny
  | noOp
  deriving DecidableEq, Repr

/-- The name a `{:?}` placeholder prints. -/
def ActionKind.debug : ActionKind → String
  | load => "Load"
  | unload => "Unload"
  | keep => "Keep"
  | stage => "Stage"
  | defer => "Defer"
  | deny => "Deny"
  | noOp => "NoOp"

structure RuntimeAction where
  kind : ActionKind
  runtimeId : RuntimeId
  modelId : Option ModelId
  isForeground : Bool
  isMutating : Bool
  reason : String
  expectedCostMs : Option UInt64
  deriving DecidableEq, Repr

structure ActionPlan where
  decisionId : Uuid
  actions : List RuntimeAction
  dryRun : Bool
  deriving DecidableEq, Repr

namespace ActionPlan

def new (decisionId : Uuid) (dryRun : Bool) : ActionPlan :=
  ⟨decisionId, [], dryRun⟩

def addLoad (plan : ActionPlan) (runtimeId : RuntimeId) (modelId : ModelId)
    (isForeground : Bool) (reason : String) (expectedCostMs : Option UInt64) : ActionPlan :=
  { plan with
    actions := plan.actions ++
      [{ kind := .load, runtimeId, modelId := some modelId, isForeground,
         isMutating := true, reason, expectedCostMs }] }

def addNoop (plan : ActionPlan) (runtimeId : RuntimeId) (reason : String) : ActionPlan :=
  { plan with
    actions := plan.actions ++
      [{ kind := .noOp, runtimeId, modelId := none, isForeground := false,
         isMutating := false, reason, expectedCostMs := none }] }

/-- The first load that is not in the foreground. -/
def getBackgroundLoad (plan : ActionPlan) : Option RuntimeAction :=
  plan.actions.find? fun a => a.kind = .load && !a.isForeground

end ActionPlan

end Anemoi
