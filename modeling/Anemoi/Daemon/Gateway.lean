import Anemoi.Daemon.AppState
import Mathlib.Data.UInt

/-!
# The execution handlers

`/execute` decides, plans and walks the plan. `/v1/chat/completions` decides and forwards
the request to the selected runtime, in the OpenAI format: the caller's `model` names a
domain, and the body that is forwarded names the selected model.

The estimate of the prompt's size works in `u32`; where the source saturates it does here,
the sum over the parts of one message wraps as in a release build.
-/

namespace Anemoi

/-! ### Execute -/

structure ExecuteHandoff where
  loadRequested : Bool
  fullInferenceForwarded : Bool
  escalationContext : Option String
  message : String
  deriving DecidableEq, Repr

structure ExecuteResponse where
  decision : Decision
  actionPlan : ActionPlan
  actionResults : List String
  handoff : ExecuteHandoff
  deriving DecidableEq, Repr

/-- The answer of a handler that failed: a status code and a text. -/
structure HttpError where
  status : ℕ
  message : String
  deriving DecidableEq, Repr

def internalError (error : String) : HttpError :=
  ⟨500, error⟩

namespace AppState

variable (state : AppState)

/-- One action of a plan: whether a load was made, and what to report. -/
def executeAction (live : Bool) (action : RuntimeAction) : Daemon (Bool × String) := do
  match action.kind with
  | .load =>
      let runtimeId := action.runtimeId.text
      match action.modelId with
      | none => return (false, s!"Skipped load on {runtimeId}: action has no model id")
      | some modelId =>
      if !state.isMockRuntime runtimeId && !live then
        return (false, s!"Skipped load of {modelId} on {runtimeId}: live execution " ++
          "disabled (set ANEMOI_ENABLE_LIVE_EXECUTE=1)")
      else
        match state.runtimes.lookup runtimeId with
        | none =>
            return (false, s!"Skipped load of {modelId}: runtime {runtimeId} not configured")
        | some _ =>
            match ← Daemon.loadModel runtimeId modelId with
            | .ok handle =>
                return (true, s!"Loaded {modelId} on {runtimeId} (handle: {handle.id})")
            | .error e => return (false, s!"Failed to load {modelId} on {runtimeId}: {e}")
  | kind => return (false, s!"No-op ({kind.debug}): {action.reason}")

/-- The actions of a plan in order: whether any load was made, and the reports. -/
def executeActions (live : Bool) : List RuntimeAction → Daemon (Bool × List String)
  | [] => return (false, [])
  | action :: rest => do
      let one ← state.executeAction live action
      let others ← executeActions live rest
      return (one.1 || others.1, one.2 :: others.2)

/-- The escalation context that is waiting for the selected model. -/
def handOffContext (decision : Decision) : Daemon (Option String) :=
  match decision.selectedModel with
  | some model => takeEscalationContext model
  | none => return none

/-- The part of `/execute` that follows a decision. -/
def executeDecision (decision : Decision) : Daemon (Except HttpError ExecuteResponse) := do
  let escalationContext ← handOffContext decision
  let live ← state.liveExecuteEnabled
  let dryRun := !live
  let actionPlan ← generateActionPlan decision dryRun
  match ← Daemon.record (.recordActionPlan actionPlan) with
  | .error e => return .error (internalError e)
  | .ok () =>
      let (loadRequested, actionResults) ← state.executeActions live actionPlan.actions
      return .ok
        { decision
          actionPlan
          actionResults
          handoff :=
            { loadRequested
              fullInferenceForwarded := false
              escalationContext
              message :=
                if dryRun then
                  "v1 execute performs dry-run action plan and model-load handoff only"
                else "v1 execute performs decision logging and model-load handoff only" } }

def execute (request : InferenceRequest) : Daemon (Except HttpError ExecuteResponse) := do
  match ← state.decide request with
  | .error e => return .error (internalError e)
  | .ok decision => state.executeDecision decision

end AppState

/-! ### Requests of the gateway -/

def defaultGatewayLatencyBudgetMs : UInt64 := 30000

/-- The domain a `model` field names: an optional prefix is dropped. -/
def resolveDomain (modelField : String) : String :=
  let letters := "anemoi-".toList
  if letters.isPrefixOf modelField.toList then
    String.ofList (modelField.toList.drop letters.length)
  else modelField

def estimateTextTokens (text : String) : UInt32 :=
  let chars := UInt32.ofNat (min text.length (2 ^ 32 - 1))
  if chars = 0 then 0 else saturatingAdd chars 3 / 4

/-- The tokens of an optional text field. -/
def estimateField (value : Json) (field : String) : UInt32 :=
  (((value.get field).bind Json.asStr).map estimateTextTokens).getD 0

def estimatePartTokens : Json → UInt32
  | .string text => estimateTextTokens text
  | .object fields => estimateField (.object fields) "text"
  | _ => 0

def estimateMessageContentTokens : Option Json → UInt32
  | some (.string text) => estimateTextTokens text
  | some (.array parts) => (parts.map estimatePartTokens).sum
  | some (.object fields) => estimateField (.object fields) "text"
  | _ => 0

def estimatePromptTokensFromMessages (body : Json) : Option UInt32 := do
  let messages ← (← body.get "messages").asArray
  return messages.foldl
    (fun total message =>
      let total := saturatingAdd total 4
      let total := saturatingAdd total (estimateField message "role")
      let total := saturatingAdd total (estimateField message "name")
      saturatingAdd total (estimateMessageContentTokens (message.get "content")))
    2

def numericBodyFieldU32 (body : Json) (field : String) : Option UInt32 := do
  let value ← (← body.get field).asU64
  if value.toNat < 2 ^ 32 then some value.toUInt32 else none

section Codec

variable (codec : Codec)

def gatewaySelectionMetadata (body : Json) : Except String GatewaySelectionMetadata :=
  match body.get "anemoi" with
  | none => .ok {}
  | some value =>
      match codec.selectionMetadata value with
      | .ok metadata => .ok metadata
      | .error error => .error s!"invalid `anemoi` selection metadata: {error}"

/-- The request that the gateway decides, under the id `id`. -/
def gatewayInferenceRequest (id : RequestId) (domain : String) (body : Json) :
    Except String InferenceRequest := do
  let metadata ← gatewaySelectionMetadata codec body
  return {
    id
    domain := ⟨domain⟩
    mode := .interactive
    promptTokensEstimate :=
      metadata.promptTokensEstimate.or (estimatePromptTokensFromMessages body)
    maxOutputTokens :=
      (metadata.maxOutputTokens.or (numericBodyFieldU32 body "max_tokens")).or
        (numericBodyFieldU32 body "max_completion_tokens")
    latencyBudgetMs := metadata.latencyBudgetMs.or (some defaultGatewayLatencyBudgetMs)
    qualityFloor := metadata.qualityFloor
    escalationIntent := metadata.escalationIntent }

/-! ### Responses of the gateway -/

inductive ResponseBody where
  | json (value : Json)
  | stream (chunks : List (Except String ByteArray))

structure Response where
  status : ℕ
  headers : List (String × String)
  body : ResponseBody

/-- The headers that are values; the others are left out. -/
def headerValues (headers : List (String × String)) : List (String × String) :=
  headers.filter fun e => codec.isHeaderValue e.2

def gatewayError (status : ℕ) (message : String) (decisionId : Option Uuid) : Response where
  status := status
  headers := headerValues codec
    (decisionId.toList.map fun id => ("x-anemoi-decision-id", id.toText))
  body := .json (.object
    [("error", .object
      [("message", .string message),
       ("type", .string "anemoi_gateway_error"),
       ("decision_id", (decisionId.map fun id => Json.string id.toText).getD .null)])])

/-- The serialized name of an action. -/
def decisionActionStr : DecisionAction → String
  | .reuseHot => "reuse_hot"
  | .promoteWarm => "promote_warm"
  | .coldLoad => "cold_load"
  | .stageBackground => "stage_background"
  | .downgrade => "downgrade"
  | .defer => "defer"
  | .deny => "deny"

/-- `u64::saturating_add`. -/
def saturatingAddU64 (a b : UInt64) : UInt64 :=
  UInt64.ofNat (min (a.toNat + b.toNat) (2 ^ 64 - 1))

/-- A cold load would outlast the caller's patience: come back in whole seconds. -/
def coldLoadUnavailable (decision : Decision) (selectedModel : ModelId)
    (coldLoadEstimateMs : UInt64) : Response :=
  let retryAfterSecs := max (saturatingAddU64 coldLoadEstimateMs 999 / 1000) 1
  { status := 503
    headers := headerValues codec
      [("retry-after", toString retryAfterSecs),
       ("x-anemoi-decision-id", decision.id.toText),
       ("x-anemoi-selected-model", selectedModel.text),
       ("x-anemoi-action", decisionActionStr decision.action)]
    body := .json (.object
      [("error", .object
        [("message", .string
          (s!"selected model `{selectedModel}` needs a cold load (~{coldLoadEstimateMs} ms) " ++
            s!"that exceeds the request wait allowance; retry in ~{retryAfterSecs}s or poll " ++
            s!"/explain/{decision.id}")),
         ("type", .string "anemoi_cold_load_pending"),
         ("code", .string "cold_load_exceeds_budget"),
         ("decision_id", .string decision.id.toText)]),
       ("cold_load_estimate_ms", .ofU64 coldLoadEstimateMs),
       ("retry_after_seconds", .ofU64 retryAfterSecs),
       ("explanation", .string decision.explanation.summary)]) }

/-- Relay what the runtime answered. A header that is no header value fails the whole
response. -/
def gatewayStreamResponse (forwarded : ForwardedChatCompletion) (decision : Decision)
    (selectedModel : ModelId) : Response :=
  let status := forwarded.status.toNat
  let headers :=
    [("content-type", forwarded.contentType.getD "text/event-stream"),
     ("x-anemoi-decision-id", decision.id.toText),
     ("x-anemoi-selected-model", selectedModel.text),
     ("x-anemoi-action", decisionActionStr decision.action)]
  if headers.all fun e => codec.isHeaderValue e.2 then
    { status := if 100 ≤ status ∧ status < 1000 then status else 200
      headers
      body := .stream forwarded.body }
  else gatewayError codec 500 "failed to parse header value" (some decision.id)

/-- The body with the caller's `model` replaced and the private metadata removed. -/
def gatewayForwardBody (body : Json) (selectedModel : ModelId) : Json :=
  match body with
  | .object fields =>
      let fields := fields.filter fun e => e.1 != "anemoi" && e.1 != "model"
      .object (fields ++ [("model", .string selectedModel.text)])
  | body => body

/-- The event stream of a mock runtime. -/
def mockChatCompletion (selectedModel : String) : ForwardedChatCompletion :=
  let chunk := "data: \x7b\"object\":\"chat.completion.chunk\",\"model\":\"" ++
    selectedModel ++ "\"," ++ "\"choices\":[\x7b\"index\":0,\"delta\":\x7b" ++
    "\"role\":\"assistant\",\"content\":\"mock response from " ++ selectedModel ++
    "\"\x7d\x7d]\x7d\n\n"
  { status := 200
    contentType := some "text/event-stream"
    body := [.ok chunk.toUTF8, .ok "data: [DONE]\n\n".toUTF8] }

/-! ### Chat completions -/

/-- The estimate of the selected model's cold load, when it exceeds what the caller is
willing to wait. -/
def excessiveColdLoad (effective : AnemoiConfig) (request : InferenceRequest)
    (decision : Decision) (selectedModel : ModelId) : Option UInt64 :=
  let waitAllowanceMs := request.latencyBudgetMs.getD effective.continuity.maxBlankWaitMs
  match decision.action with
  | .coldLoad =>
      ((effective.models.lookup selectedModel).bind
        ModelProfileConfig.coldLoadEstimateMs).filter fun estimate =>
          waitAllowanceMs < estimate
  | _ => none

namespace AppState

variable (state : AppState)

/-- Forward the request to the runtime, or answer in a mock's place. -/
def forward (body : Json) (decision : Decision) (selectedModel : ModelId)
    (runtimeId : String) : Daemon Response := do
  if state.isMockRuntime runtimeId then
    return gatewayStreamResponse codec (mockChatCompletion selectedModel.text) decision
      selectedModel
  else
    match state.runtimeForwardTarget runtimeId with
    | none =>
        return gatewayError codec 502 s!"runtime `{runtimeId}` has no base_url configured"
          (some decision.id)
    | some target =>
        match ← Daemon.forwardChatCompletion runtimeId target
          (gatewayForwardBody body selectedModel) with
        | .error error =>
            return gatewayError codec 502 s!"runtime forward failed: {error}"
              (some decision.id)
        | .ok forwarded => return gatewayStreamResponse codec forwarded decision selectedModel

/-- The part of `/v1/chat/completions` that follows a decision. -/
def completeDecision (body : Json) (domain : String) (request : InferenceRequest)
    (decision : Decision) : Daemon Response := do
  match decision.selectedModel, decision.selectedRuntime with
  | some selectedModel, some selectedRuntime =>
      let runtimeId := selectedRuntime.text
      if ← state.executionAllowed runtimeId then
        let effective ← Daemon.effective
        match excessiveColdLoad effective.config request decision selectedModel with
        | some estimate => return coldLoadUnavailable codec decision selectedModel estimate
        | none => state.forward codec body decision selectedModel runtimeId
      else
        return gatewayError codec 403
          "forwarding to a non-mock runtime requires ANEMOI_ENABLE_LIVE_EXECUTE=1"
          (some decision.id)
  | _, _ =>
      return gatewayError codec 503
        s!"no runnable model for domain `{domain}`: {decision.explanation.summary}"
        (some decision.id)

def chatCompletions (body : Json) : Daemon Response := do
  match (body.get "model").bind Json.asStr with
  | none =>
      return gatewayError codec 400 "request is missing a string `model` field" none
  | some modelField =>
  let domain := resolveDomain modelField
  if ⟨domain⟩ ∉ state.config.domains then
    return gatewayError codec 400 s!"unknown domain `{domain}`" none
  else
  let id ← Daemon.newUuid
  match gatewayInferenceRequest codec ⟨id.toText⟩ domain body with
  | .error error => return gatewayError codec 400 error none
  | .ok request =>
  match ← state.decide request with
  | .error error => return gatewayError codec 500 error none
  | .ok decision => state.completeDecision codec body domain request decision

end AppState

end Codec

end Anemoi
