import Anemoi.Policy.Candidates
import Anemoi.Policy.Pressure

/-!
# Scoring and floors

Every candidate gets a score, as a list of contributions with a reason each. A
request may put a floor under the quality of the model that serves it; the quality
of a model is the number in its parameter class.

Scores are `i32` and wrap.
-/

namespace Anemoi

/-! ### Quality -/

/-- `str::parse::<i32>` on a string of ASCII digits: it fails on the empty string
and beyond the range of `i32`. -/
def parseI32 (digits : List Char) : Option Int32 :=
  if digits.isEmpty then none
  else if decimalValue digits < 2 ^ 31 then some (Int32.ofNat (decimalValue digits))
  else none

def parameterClassValue (parameterClass : String) : Int32 :=
  let digits := (parseI32 (parameterClass.toList.filter Char.isDigit)).getD 1
  if digits < 1 then 1 else if 100 < digits then 100 else digits

def qualityScore (model : ModelProfile) : Int32 :=
  parameterClassValue model.parameterClass

/-! ### Scores -/

structure ScoredCandidate where
  action : DecisionAction
  candidate : Candidate
  backgroundModel : Option ModelId
  score : DecisionScore
  reasons : List DecisionReason
  deriving DecidableEq, Repr

/-- A score under construction, with the reasons given so far. -/
structure Tally where
  score : DecisionScore := {}
  reasons : List DecisionReason := []

/-- Account for a reason, as the contribution `label`. -/
def Tally.record (t : Tally) (reason : DecisionReason) (label : String) : Tally where
  score :=
    { total := t.score.total + reason.impact
      contributions := t.score.contributions ++ [{ label, value := reason.impact }] }
  reasons := t.reasons ++ [reason]

def Tally.push (t : Tally) (label : String) (value : Int32) (detail : String) : Tally :=
  t.record { code := label, detail, impact := value } label

/-- `n as i32`: the low 32 bits. -/
def asI32 (n : UInt64) : Int32 :=
  Int32.ofNat n.toNat

def scoreCandidate (request : InferenceRequest) (candidate : Candidate)
    (config : AnemoiConfig) : ScoredCandidate :=
  let model := candidate.modelProfile
  let state := candidate.residencyState
  let tally : Tally := {}
  let tally := tally.push "quality" (qualityScore model)
    s!"{model.id} satisfies the configured roster quality target"
  let tally := tally.push "residency" state.reuseBonus
    s!"{model.id} is currently {state.debug}"
  let tally := tally.push "load_penalty" (-asI32 (candidate.loadEstimateMs / 1000))
    s!"estimated load cost is {candidate.loadEstimateMs}ms"
  let tally := match request.latencyBudgetMs with
    | some budget =>
        let penalty :=
          if budget < candidate.loadEstimateMs then
            -asI32 ((candidate.loadEstimateMs - budget) / 500)
          else 10
        tally.push "latency_budget" penalty s!"latency budget is {budget}ms"
    | none => tally
  let tally := match contextWindowFit request model with
    | some (required, available) =>
        tally.push "context_window.fit" 10
          (s!"request requires {required} token(s) and {model.id} provides a {available} " ++
            "token context window")
    | none => tally
  let pressure := ({} : PressureModel).assess
    { memory := candidate.runtimeMemory
      vramRequiredMb := model.vramRequiredMb
      ramRequiredMb := model.ramRequiredMb
      isColdLoad := candidate.action = .coldLoad
      activeRequestCount := candidate.activeRequestCount }
  let tally := pressure.reasons.foldl
    (fun tally reason => tally.push reason.code reason.impact reason.detail) tally
  let tally :=
    if candidate.groupKeepHot || config.continuity.keepSmallWorkerHot then
      tally.push "continuity" 20 s!"{model.id} belongs to a continuity-friendly residency group"
    else tally
  let tally := match model.supportsStreaming with
    | some true =>
        tally.push "streaming_capability" 0 s!"{model.id} supports streaming responses"
    | some false =>
        tally.push "streaming_capability" 0 s!"{model.id} does not support streaming responses"
    | none => tally
  { action := candidate.action
    candidate
    backgroundModel := none
    score := tally.score
    reasons := tally.reasons }

@[simp] theorem scoreCandidate_candidate (request : InferenceRequest) (candidate : Candidate)
    (config : AnemoiConfig) :
    (scoreCandidate request candidate config).candidate = candidate := rfl

/-! ### Floors -/

def qualityFloorValue (request : InferenceRequest) : Option (String × Int32) := do
  let floor ← (← request.qualityFloor).minimumParameterClass
  return (floor, parameterClassValue floor)

def candidateSatisfiesFloor (candidate : ScoredCandidate) (floor : Option (String × Int32)) :
    Bool :=
  match floor with
  | none => true
  | some (_, minimum) => minimum ≤ qualityScore candidate.candidate.modelProfile

def qualityFloorRejections (candidates : List ScoredCandidate)
    (floor : Option (String × Int32)) (selectedModel : Option ModelId) :
    List RejectedOption :=
  match floor with
  | none => []
  | some (floorLabel, minimum) =>
      (candidates.filter fun c =>
        selectedModel != some c.candidate.modelId &&
          qualityScore c.candidate.modelProfile < minimum).map fun c =>
        { modelId := some c.candidate.modelId
          runtimeId := some c.candidate.runtimeId
          reason := s!"{c.candidate.modelId} parameter class " ++
            s!"{c.candidate.modelProfile.parameterClass} is below requested quality floor " ++
            s!"{floorLabel}" }

def combineRejected (first second : List RejectedOption) : List RejectedOption :=
  first ++ second

/-! ### Decisions -/

/-- The fresh identifier and the time that a new decision carries. -/
structure Stamp where
  id : Uuid
  createdAt : DateTime
  deriving DecidableEq, Repr

def ScoredCandidate.intoDecision (scored : ScoredCandidate) (request : InferenceRequest)
    (rejectedOptions : List RejectedOption) (stamp : Stamp) : Decision :=
  let summary := match scored.action, scored.backgroundModel with
    | .stageBackground, some background =>
        s!"Selected {scored.candidate.modelId} via {scored.candidate.runtimeId} and staged " ++
          s!"{background} to avoid an interactive cold-load wait."
    | _, _ =>
        s!"Selected {scored.candidate.modelId} via {scored.candidate.runtimeId} with action " ++
          s!"{scored.action.debug}."
  { id := stamp.id
    requestId := request.id
    action := scored.action
    selectedModel := some scored.candidate.modelId
    selectedRuntime := some scored.candidate.runtimeId
    selectedGroup := some scored.candidate.groupId
    backgroundModel := scored.backgroundModel
    score := scored.score
    explanation := { summary, reasons := scored.reasons, rejectedOptions }
    createdAt := stamp.createdAt }

def denyDecision (request : InferenceRequest) (rejectedOptions : List RejectedOption)
    (stamp : Stamp) : Decision where
  id := stamp.id
  requestId := request.id
  action := .deny
  selectedModel := none
  selectedRuntime := none
  selectedGroup := none
  backgroundModel := none
  score := {}
  explanation :=
    { summary := "No runnable model candidate was available."
      reasons :=
        [{ code := "no_candidate"
           detail := "all configured model/runtime options were rejected"
           impact := -100 }]
      rejectedOptions }
  createdAt := stamp.createdAt

end Anemoi
