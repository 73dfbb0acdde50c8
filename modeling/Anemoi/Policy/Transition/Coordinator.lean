import Anemoi.Core.Types
import Anemoi.Systems.Table

/-!
# The transition coordinator

Concurrent requests may ask for incompatible residency states of one runtime. The
coordinator arbitrates them: at most one transition owns a runtime, under a lease
and a fencing token, and every request is answered with a path and the reasons
for it. It only decides; it never loads anything.

`requestTransition` follows the source branch by branch. `Arbitration` says, once,
what a request can lead to: the path it is answered with and the coordinator it
leaves, with the guards of each branch. Every invariant is derived from it.
-/

namespace Anemoi

open Systems

/-- A request to bring a runtime's residency to `desiredModel`. -/
structure TransitionRequest where
  runtimeId : RuntimeId
  residencyGroupId : ResidencyGroupId
  desiredModel : ModelId
  ownerInstance : String
  priority : UInt32
  latencyBudgetMs : Option UInt64
  interactive : Bool
  background : Bool
  runtimeAvailable : Bool
  hotCompatibleModel : Option ModelId
  deriving DecidableEq, Repr

/-- An in-flight transition that owns a runtime under a fenced lease. -/
structure ActiveTransition where
  runtimeId : RuntimeId
  residencyGroupId : ResidencyGroupId
  desiredModel : ModelId
  ownerInstance : String
  fencingToken : UInt64
  leaseExpiresAtMs : UInt64
  servingLeases : UInt32
  priority : UInt32
  interactive : Bool
  deriving DecidableEq, Repr

/-- The arbitration outcome for a transition request. -/
inductive TransitionPath where
  | joined (fencingToken : UInt64)
  | started (fencingToken : UInt64)
  | staged (fencingToken : UInt64)
  | tookOver (fencingToken : UInt64) (previousOwner : String)
  | servedHot (model : ModelId)
  | rejected (winnerInstance : String)
  | runtimeUnavailable
  deriving DecidableEq, Repr

/-- The fencing token a path newly issues, if it issues one. -/
def TransitionPath.issued : TransitionPath → Option UInt64
  | started token | staged token | tookOver token _ => some token
  | joined _ | servedHot _ | rejected _ | runtimeUnavailable => none

structure TransitionDecision where
  path : TransitionPath
  reasons : List DecisionReason
  rejected : List RejectedOption
  deriving DecidableEq, Repr

/-- A reason that explains a transition without scoring it. -/
def transitionReason (code detail : String) : DecisionReason :=
  { code, detail, impact := 0 }

/-- Does `incoming` preempt the `active` owner? Serving leases protect the active
transition; an owner wins its own runtime; then higher priority, interactive over
background and the smaller instance id decide. -/
def incomingWins (incoming : TransitionRequest) (active : ActiveTransition) : Bool :=
  if 0 < active.servingLeases then false
  else if incoming.ownerInstance = active.ownerInstance then true
  else if active.priority < incoming.priority then true
  else if incoming.priority < active.priority then false
  else match incoming.interactive, active.interactive with
    | true, false => true
    | false, true => false
    | _, _ => incoming.ownerInstance < active.ownerInstance

/-- The lease table: one active transition per runtime, keyed by the runtime's id,
and the next fencing token. -/
structure TransitionCoordinator where
  leaseTtlMs : UInt64
  active : Table String ActiveTransition
  nextFencingToken : UInt64

namespace TransitionCoordinator

def new (leaseTtlMs : UInt64) : TransitionCoordinator :=
  { leaseTtlMs, active := ∅, nextFencingToken := 1 }

/-- The active transition of a runtime, whether or not its lease has expired. -/
def activeTransition (c : TransitionCoordinator) (runtimeId : RuntimeId) :
    Option ActiveTransition :=
  c.active.lookup runtimeId.text

def issueToken (c : TransitionCoordinator) : UInt64 × TransitionCoordinator :=
  (c.nextFencingToken, { c with nextFencingToken := c.nextFencingToken + 1 })

/-- The transition that `install` stores for a request. -/
def installed (c : TransitionCoordinator) (req : TransitionRequest) (nowMs : UInt64) :
    ActiveTransition where
  runtimeId := req.runtimeId
  residencyGroupId := req.residencyGroupId
  desiredModel := req.desiredModel
  ownerInstance := req.ownerInstance
  fencingToken := c.nextFencingToken
  leaseExpiresAtMs := nowMs + c.leaseTtlMs
  servingLeases := 0
  priority := req.priority
  interactive := req.interactive

def install (c : TransitionCoordinator) (req : TransitionRequest) (nowMs : UInt64) :
    UInt64 × TransitionCoordinator :=
  let (fencingToken, c') := c.issueToken
  (fencingToken,
    { c' with active := c'.active.insert req.runtimeId.text (c.installed req nowMs) })

def startFresh (c : TransitionCoordinator) (req : TransitionRequest) (nowMs : UInt64) :
    TransitionDecision × TransitionCoordinator :=
  let (token, c') := c.install req nowMs
  let (path, code, detail) :=
    if req.background then
      (TransitionPath.staged token, "transition.staged",
        s!"{req.ownerInstance} staged background load of {req.desiredModel} on {req.runtimeId} " ++
        s!"(no transition in flight); fencing token {token}")
    else
      (TransitionPath.started token, "transition.started",
        s!"{req.ownerInstance} started transition of {req.runtimeId} to {req.desiredModel}; " ++
        s!"fencing token {token}")
  ({ path, reasons := [transitionReason code detail], rejected := [] }, c')

def join (req : TransitionRequest) (active : ActiveTransition) : TransitionDecision where
  path := .joined active.fencingToken
  reasons := [transitionReason "transition.joined"
    (s!"{req.ownerInstance} joined the in-flight transition of {req.runtimeId} to " ++
     s!"{req.desiredModel} owned by {active.ownerInstance} (fencing token " ++
     s!"{active.fencingToken}); no duplicate load started")]
  rejected := []

def takeOver (c : TransitionCoordinator) (req : TransitionRequest) (nowMs : UInt64)
    (previous : ActiveTransition) (why : String) :
    TransitionDecision × TransitionCoordinator :=
  let previousOwner := previous.ownerInstance
  let (token, c') := c.install req nowMs
  ({ path := .tookOver token previousOwner
     reasons := [transitionReason "transition.took_over"
       (s!"{req.ownerInstance} took over {req.runtimeId} from {previousOwner} ({why}); " ++
        s!"previous fencing token {previous.fencingToken} fenced off, new token {token}")]
     rejected :=
       [{ modelId := some previous.desiredModel
          runtimeId := some req.runtimeId
          reason := s!"previous owner {previousOwner} {why}" }] },
    c')

def servedHot (req : TransitionRequest) (active : ActiveTransition) (hot : ModelId) :
    TransitionDecision where
  path := .servedHot hot
  reasons := [transitionReason "transition.served_hot"
    (s!"{req.ownerInstance} served hot worker {hot} now instead of waiting on " ++
     s!"{active.ownerInstance}'s in-flight load of {active.desiredModel} on {req.runtimeId} " ++
     "(continuity over a blank wait)")]
  rejected :=
    [{ modelId := some req.desiredModel
       runtimeId := some req.runtimeId
       reason := s!"would collide with {active.ownerInstance}'s in-flight transition to " ++
         s!"{active.desiredModel}; served hot {hot} instead" }]

def stageBlocked (req : TransitionRequest) (active : ActiveTransition) :
    TransitionDecision where
  path := .rejected active.ownerInstance
  reasons := [transitionReason "transition.stage_blocked"
    (s!"background stage of {req.desiredModel} on {req.runtimeId} blocked: " ++
     s!"{active.ownerInstance} holds an in-flight transition to {active.desiredModel} (fencing " ++
     s!"token {active.fencingToken})")]
  rejected :=
    [{ modelId := some req.desiredModel
       runtimeId := some req.runtimeId
       reason := s!"active transition to {active.desiredModel} owned by " ++
         s!"{active.ownerInstance} must not be displaced by a background stage" }]

def conflictLost (req : TransitionRequest) (active : ActiveTransition) :
    TransitionDecision :=
  let servingNote :=
    if 0 < active.servingLeases then
      s!" ({active.servingLeases} active serving lease(s) protect it from preemption)"
    else ""
  { path := .rejected active.ownerInstance
    reasons := [transitionReason "transition.rejected"
      (s!"{req.ownerInstance}'s request for {req.desiredModel} on {req.runtimeId} lost to " ++
       s!"{active.ownerInstance}'s in-flight transition to {active.desiredModel}{servingNote}")]
    rejected :=
      [{ modelId := some req.desiredModel
         runtimeId := some req.runtimeId
         reason := s!"conflicting transition to {active.desiredModel} owned by " ++
           s!"{active.ownerInstance} won on policy inputs" }] }

/-- The hot worker an interactive request may be served instead of waiting. -/
def hotFallback (req : TransitionRequest) : Option ModelId :=
  if req.interactive then req.hotCompatibleModel else none

def resolveConflict (c : TransitionCoordinator) (req : TransitionRequest) (nowMs : UInt64)
    (active : ActiveTransition) : TransitionDecision × TransitionCoordinator :=
  match hotFallback req with
  | some hot => (servedHot req active hot, c)
  | none =>
      if req.background then (stageBlocked req active, c)
      else if incomingWins req active then
        c.takeOver req nowMs active "won the conflict on policy inputs"
      else (conflictLost req active, c)

def runtimeUnavailable (req : TransitionRequest) : TransitionDecision where
  path := .runtimeUnavailable
  reasons := [transitionReason "transition.runtime_unavailable"
    (s!"runtime {req.runtimeId} is unavailable; {req.ownerInstance} cannot transition to " ++
     s!"{req.desiredModel} now")]
  rejected :=
    [{ modelId := some req.desiredModel
       runtimeId := some req.runtimeId
       reason := "target runtime is unavailable" }]

/-- Arbitrate a request against the current active transition of its runtime. -/
def requestTransition (c : TransitionCoordinator) (req : TransitionRequest)
    (nowMs : UInt64) : TransitionDecision × TransitionCoordinator :=
  if !req.runtimeAvailable then (runtimeUnavailable req, c)
  else match c.active.lookup req.runtimeId.text with
    | none => c.startFresh req nowMs
    | some active =>
        if active.leaseExpiresAtMs ≤ nowMs then
          c.takeOver req nowMs active "owner lease expired"
        else if active.desiredModel = req.desiredModel then (join req active, c)
        else c.resolveConflict req nowMs active

/-- Record a serving lease; false when the runtime has no active transition. -/
def acquireServingLease (c : TransitionCoordinator) (runtimeId : RuntimeId) :
    Bool × TransitionCoordinator :=
  match c.active.lookup runtimeId.text with
  | some active =>
      (true,
        { c with
          active := c.active.insert runtimeId.text
            { active with servingLeases := active.servingLeases + 1 } })
  | none => (false, c)

/-- Release a serving lease; the count saturates at zero. -/
def releaseServingLease (c : TransitionCoordinator) (runtimeId : RuntimeId) :
    TransitionCoordinator :=
  match c.active.lookup runtimeId.text with
  | some active =>
      { c with
        active := c.active.insert runtimeId.text
          { active with
            servingLeases :=
              if active.servingLeases = 0 then 0 else active.servingLeases - 1 } }
  | none => c

/-- Complete and clear the active transition, for its current fencing token only. -/
def complete (c : TransitionCoordinator) (runtimeId : RuntimeId) (fencingToken : UInt64) :
    Bool × TransitionCoordinator :=
  match c.active.lookup runtimeId.text with
  | some active =>
      if active.fencingToken = fencingToken then
        (true, { c with active := c.active.erase runtimeId.text })
      else (false, c)
  | none => (false, c)

/-! ### What a request can lead to -/

theorem install_eq (c : TransitionCoordinator) (req : TransitionRequest) (nowMs : UInt64) :
    c.install req nowMs =
      (c.nextFencingToken,
        { c with
          active := c.active.insert req.runtimeId.text (c.installed req nowMs)
          nextFencingToken := c.nextFencingToken + 1 }) := rfl

/-- `Arbitration c req nowMs path c'`: the request may be answered with `path` and
leaves the coordinator `c'`. There is one constructor for each branch. -/
inductive Arbitration (c : TransitionCoordinator) (req : TransitionRequest)
    (nowMs : UInt64) : TransitionPath → TransitionCoordinator → Prop
  | unavailable (h : req.runtimeAvailable = false) :
      Arbitration c req nowMs .runtimeUnavailable c
  | fresh (h : req.runtimeAvailable) (hnone : c.activeTransition req.runtimeId = none) :
      Arbitration c req nowMs
        (if req.background then .staged c.nextFencingToken else .started c.nextFencingToken)
        (c.install req nowMs).2
  | expired (active : ActiveTransition) (h : req.runtimeAvailable)
      (hsome : c.activeTransition req.runtimeId = some active)
      (hexpired : active.leaseExpiresAtMs ≤ nowMs) :
      Arbitration c req nowMs (.tookOver c.nextFencingToken active.ownerInstance)
        (c.install req nowMs).2
  | joins (active : ActiveTransition) (h : req.runtimeAvailable)
      (hsome : c.activeTransition req.runtimeId = some active)
      (hlease : nowMs < active.leaseExpiresAtMs)
      (hmodel : active.desiredModel = req.desiredModel) :
      Arbitration c req nowMs (.joined active.fencingToken) c
  | hot (active : ActiveTransition) (model : ModelId) (h : req.runtimeAvailable)
      (hsome : c.activeTransition req.runtimeId = some active)
      (hlease : nowMs < active.leaseExpiresAtMs)
      (hmodel : active.desiredModel ≠ req.desiredModel)
      (hhot : hotFallback req = some model) :
      Arbitration c req nowMs (.servedHot model) c
  | blocked (active : ActiveTransition) (h : req.runtimeAvailable)
      (hsome : c.activeTransition req.runtimeId = some active)
      (hlease : nowMs < active.leaseExpiresAtMs)
      (hmodel : active.desiredModel ≠ req.desiredModel)
      (hhot : hotFallback req = none) (hbackground : req.background) :
      Arbitration c req nowMs (.rejected active.ownerInstance) c
  | wins (active : ActiveTransition) (h : req.runtimeAvailable)
      (hsome : c.activeTransition req.runtimeId = some active)
      (hlease : nowMs < active.leaseExpiresAtMs)
      (hmodel : active.desiredModel ≠ req.desiredModel)
      (hhot : hotFallback req = none) (hbackground : req.background = false)
      (hwins : incomingWins req active) :
      Arbitration c req nowMs (.tookOver c.nextFencingToken active.ownerInstance)
        (c.install req nowMs).2
  | loses (active : ActiveTransition) (h : req.runtimeAvailable)
      (hsome : c.activeTransition req.runtimeId = some active)
      (hlease : nowMs < active.leaseExpiresAtMs)
      (hmodel : active.desiredModel ≠ req.desiredModel)
      (hhot : hotFallback req = none) (hbackground : req.background = false)
      (hloses : incomingWins req active = false) :
      Arbitration c req nowMs (.rejected active.ownerInstance) c

theorem arbitration_resolveConflict (c : TransitionCoordinator) (req : TransitionRequest)
    (nowMs : UInt64) (active : ActiveTransition) (h : req.runtimeAvailable)
    (hsome : c.activeTransition req.runtimeId = some active)
    (hlease : nowMs < active.leaseExpiresAtMs)
    (hmodel : active.desiredModel ≠ req.desiredModel) :
    Arbitration c req nowMs (c.resolveConflict req nowMs active).1.path
      (c.resolveConflict req nowMs active).2 := by
  unfold resolveConflict
  cases hhot : hotFallback req with
  | some model => exact .hot active model h hsome hlease hmodel hhot
  | none =>
      by_cases hbackground : req.background = true
      · simp only [hbackground, if_true]
        exact .blocked active h hsome hlease hmodel hhot hbackground
      · rw [Bool.not_eq_true] at hbackground
        cases hwins : incomingWins req active with
        | true =>
            simp only [hbackground, Bool.false_eq_true, if_false, if_true]
            exact .wins active h hsome hlease hmodel hhot hbackground hwins
        | false =>
            simp only [hbackground, Bool.false_eq_true, if_false]
            exact .loses active h hsome hlease hmodel hhot hbackground hwins

/-- `requestTransition` takes one of the branches of `Arbitration`. -/
theorem arbitration_requestTransition (c : TransitionCoordinator)
    (req : TransitionRequest) (nowMs : UInt64) :
    Arbitration c req nowMs (c.requestTransition req nowMs).1.path
      (c.requestTransition req nowMs).2 := by
  unfold requestTransition
  cases h : req.runtimeAvailable with
  | false => exact .unavailable h
  | true =>
      simp only [Bool.not_true, Bool.false_eq_true, if_false]
      cases hsome : c.active.lookup req.runtimeId.text with
      | none =>
          have hpath : (c.startFresh req nowMs).1.path =
              if req.background then .staged c.nextFencingToken
              else .started c.nextFencingToken := by
            unfold startFresh
            cases req.background <;> rfl
          rw [hpath]
          exact .fresh h hsome
      | some active =>
          by_cases hexpired : active.leaseExpiresAtMs ≤ nowMs
          · simp only [hexpired, if_true]
            exact .expired active h hsome hexpired
          · have hlease : nowMs < active.leaseExpiresAtMs := UInt64.not_le.mp hexpired
            by_cases hmodel : active.desiredModel = req.desiredModel
            · simp only [hexpired, hmodel, if_true, if_false]
              exact .joins active h hsome hlease hmodel
            · simp only [hexpired, hmodel, if_false]
              exact arbitration_resolveConflict c req nowMs active h hsome hlease hmodel

end TransitionCoordinator

end Anemoi
