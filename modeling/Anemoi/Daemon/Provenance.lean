import Anemoi.Daemon.Handoff
import Anemoi.Daemon.StagedLoads
import Mathlib.Algebra.Order.Group.Multiset

/-!
# Why the daemon does what it does

Every effect of the daemon has a reason that is found earlier in the trace. A decision is
recorded when the scheduler has made it, for a request that was asked, from what the handler
had read; a completion is forwarded on account of the decision recorded last; a load is one of
a plan that was recorded, or of an intent that was queued; an unload is one of a plan that was
approved. What is done on a runtime is done on a mock, or with live execution enabled, and a
uuid that is given to something has been drawn.

`Dossier` is what one handler has on file, as a function of its own events. `warranted_trace`
says of every interleaving of handlers that each command was `Warranted` by its handler's file.
The walk over the operations is made here once (`files_perform_operation`): what else is said
of their commands follows from the reasons they have.
-/

namespace Anemoi

open Systems

/-- What a handler has read last, the decision and the plan it has recorded last, and the uuids
it has drawn and not given away yet. A decision that was carried out by a forward is closed, and
so it is when the handler turns to the pending intents. -/
structure Dossier where
  effective : Option EffectiveBundle := none
  snapshots : Option (List RuntimeSnapshot) := none
  pending : List StagingIntent := []
  live : Bool := false
  decision : Option Decision := none
  plan : Option ActionPlan := none
  uuids : Multiset Uuid := 0

namespace Dossier

def file (dossier : Dossier) : Program.Event Cmd.Resp → Dossier
  | ⟨.effective, effective⟩ => { dossier with effective := some effective }
  | ⟨.getSnapshots, snapshots⟩ => { dossier with snapshots := some snapshots }
  | ⟨.getPending, pending⟩ => { dossier with pending, decision := none, plan := none }
  | ⟨.liveExecutionEnabled, live⟩ => { dossier with live }
  | ⟨.newUuid, id⟩ => { dossier with uuids := dossier.uuids + {id} }
  | ⟨.enqueue intent, _⟩ => { dossier with uuids := dossier.uuids - {intent.id} }
  | ⟨.record (.recordDecision decision), .ok _⟩ =>
      { dossier with
        decision := some decision, plan := none, uuids := dossier.uuids - {decision.id} }
  | ⟨.record (.recordDecision decision), .error _⟩ =>
      { dossier with uuids := dossier.uuids - {decision.id} }
  | ⟨.record (.recordActionPlan plan), .ok _⟩ => { dossier with plan := some plan }
  | ⟨.forwardChatCompletion _ _ _, _⟩ => { dossier with decision := none, plan := none }
  | _ => dossier

/-- What the thread `i` has on file after a trace. -/
abbrev after (i : ℕ) (trace : List (ℕ × Program.Event Cmd.Resp)) : Dossier :=
  Pool.phaseAfter file {} i trace

end Dossier

/-! ### Reasons -/

section Reasons

variable (state : AppState) (codec : Codec) (operations : List Operation)

/-- The gateway makes this request of the body, for the domain that the body's model names. -/
def MadeOf (body : Json) (request : InferenceRequest) : Prop :=
  ∃ modelField id, (body.get "model").bind Json.asStr = some modelField ∧
    gatewayInferenceRequest codec id (resolveDomain modelField) body = .ok request

/-- The request was asked: to be decided, to be executed, or as a chat completion. -/
def Asked (request : InferenceRequest) : Prop :=
  .decide request ∈ operations ∨ .execute request ∈ operations ∨
    ∃ body, .chatCompletions body ∈ operations ∧ MadeOf codec body request

/-- A decision of the scheduler that is on file, for a request that was asked and on the
snapshots on file. -/
def Decided (dossier : Dossier) (decision : Decision) : Prop :=
  ∃ effective snapshots request stamp, dossier.effective = some effective ∧
    dossier.snapshots = some snapshots ∧ Asked codec operations request ∧
    effective.scheduler.decide request snapshots stamp = .ok decision

/-- The action is this one. -/
structure RuntimeAction.Is (action : RuntimeAction) (kind : ActionKind)
    (runtimeId : String) (model : ModelId) : Prop where
  kind_eq : action.kind = kind
  runtime_eq : action.runtimeId.text = runtimeId
  model_eq : action.modelId = some model

/-- The load is an action of the plan on file, which is a plan of the decision on file; the
decision has selected the runtime, and the model is its own or the one it stages. -/
def PlannedLoad (dossier : Dossier) (runtimeId : String) (model : ModelId) : Prop :=
  ∃ decision plan action, dossier.decision = some decision ∧ dossier.plan = some plan ∧
    plan.decisionId = decision.id ∧ action ∈ plan.actions ∧ action.Is .load runtimeId model ∧
    decision.selectedRuntime = some ⟨runtimeId⟩ ∧
    (decision.selectedModel = some model ∨ decision.backgroundModel = some model)

/-- No plan is on file, and the load is that of one of the intents, on its target or on the
runtime that `execute_pending` was called for. -/
def StagedLoad (intents : StagingIntent → Prop) (dossier : Dossier) (runtimeId : String)
    (model : ModelId) : Prop :=
  dossier.plan = none ∧ ∃ intent, intents intent ∧ intent.backgroundModel = model ∧
    (intent.targetRuntime.text = runtimeId ∨ .executePending runtimeId ∈ operations)

/-- The runtime is a mock, or live execution is enabled: by the daemon's own setting, or as the
handler has read it. -/
def OpenTo (dossier : Dossier) (runtimeId : String) : Prop :=
  state.isMockRuntime runtimeId = true ∨ state.liveExecute = some true ∨ dossier.live = true

/-- The completion that is forwarded was asked, and carries out the decision on file, which
was made for its request: to the decision's runtime, in the name of its model. -/
def CarriesOut (dossier : Dossier) (runtimeId : String) (target : ForwardTarget)
    (forwarded : Json) : Prop :=
  ∃ body request decision model, .chatCompletions body ∈ operations ∧
    MadeOf codec body request ∧ dossier.decision = some decision ∧
    (∃ effective : EffectiveBundle, ∃ snapshots stamp,
      effective.scheduler.decide request snapshots stamp = .ok decision) ∧
    decision.selectedModel = some model ∧ decision.selectedRuntime = some ⟨runtimeId⟩ ∧
    state.isMockRuntime runtimeId = false ∧
    state.runtimeForwardTarget runtimeId = some target ∧
    forwarded = gatewayForwardBody body model

/-- The reason for a command, given what its handler has on file and the intents that
were queued. -/
def Warranted (intents : StagingIntent → Prop) (dossier : Dossier) : Cmd → Prop
  | .record (.recordDecision decision) =>
      Decided codec operations dossier decision ∧ decision.id ∈ dossier.uuids
  | .record (.recordActionPlan plan) =>
      ∃ decision effective dryRun, dossier.decision = some decision ∧
        dossier.effective = some effective ∧
        plan = actionPlanFor effective.config.models decision dryRun
  | .enqueue intent =>
      (∃ decision, Decided codec operations dossier decision ∧ StagesFor decision intent ∧
        intent.contextRef = none) ∧ intent.id ∈ dossier.uuids
  | .updateState intentId newState _ =>
      newState.isTerminal = true ∧ ∃ intent, intents intent ∧ intent.id = intentId
  | .loadModel runtimeId model =>
      OpenTo state dossier runtimeId ∧ (PlannedLoad dossier runtimeId model ∨
        StagedLoad operations intents dossier runtimeId model)
  | .unloadModel runtimeId model =>
      OpenTo state dossier runtimeId ∧ ∃ plan action,
        .executeEvictionPlan plan true ∈ operations ∧ plan.dryRun = false ∧
        action ∈ plan.actions ∧ action.Is .unload runtimeId model
  | .forwardChatCompletion runtimeId target forwarded =>
      OpenTo state dossier runtimeId ∧
        CarriesOut state codec operations dossier runtimeId target forwarded
  | .mutate request => .edit request ∈ operations
  | _ => True

end Reasons

/-- The commands that need no reason, and are not filed but for the uuids that are drawn. -/
def Cmd.incidental : Cmd → Bool
  | effective | getSnapshots | getPending | liveExecutionEnabled | record (.recordDecision _)
  | record (.recordActionPlan _) | enqueue _ | updateState _ _ _ | loadModel _ _
  | unloadModel _ _ | forwardChatCompletion _ _ _ | mutate _ => false
  | _ => true

/-- The same is on file, and some more uuids have been drawn. -/
def Dossier.Draws (dossier after : Dossier) : Prop :=
  ∃ drawn, after = { dossier with uuids := dossier.uuids + drawn }

instance : IsPreorder Dossier Dossier.Draws where
  refl dossier := ⟨0, by rw [add_zero]⟩
  trans := by
    rintro dossier _ _ ⟨drawn, rfl⟩ ⟨drawn', rfl⟩
    exact ⟨drawn + drawn', by rw [add_assoc]⟩

section Threads

variable (state : AppState) (codec : Codec) (operations : List Operation)

/-- The program issues only commands that its file warrants. -/
abbrev Files {α : Type} (post : α → Dossier → Prop) (dossier : Dossier) (p : Daemon α) : Prop :=
  Program.Follows Dossier.file (fun _ _ => True)
    (fun q => Warranted state codec operations (fun intent => intent ∈ q.pending) q) post
    dossier p

variable {state codec operations} {α : Type} {p : Daemon α} {dossier : Dossier}

theorem warranted_of_incidental {c : Cmd} (hc : c.incidental = true)
    (intents : StagingIntent → Prop) (dossier : Dossier) :
    Warranted state codec operations intents dossier c := by
  cases c with
  | record event =>
      cases event with
      | recordDecision d => cases hc
      | recordActionPlan plan => cases hc
      | _ => trivial
  | enqueue | updateState | loadModel | unloadModel | forwardChatCompletion | mutate => cases hc
  | _ => trivial

theorem draws_file_of_incidental {c : Cmd} (hc : c.incidental = true) (dossier : Dossier)
    (r : c.Resp) : dossier.Draws (dossier.file ⟨c, r⟩) := by
  cases c with
  | record event =>
      cases event with
      | recordDecision d => cases hc
      | recordActionPlan plan => cases hc
      | _ => exact refl_of Dossier.Draws dossier
  | newUuid => exact ⟨{r}, rfl⟩
  | effective | getSnapshots | getPending | liveExecutionEnabled | enqueue
  | forwardChatCompletion => cases hc
  | _ => exact refl_of Dossier.Draws dossier

/-- The program issues only incidental commands. -/
abbrev Incidental {α : Type} (p : Daemon α) : Prop :=
  Program.Respects (fun _ _ => True) (fun c => c.incidental = true) p

theorem files_of_incidental (hp : Incidental p) (dossier : Dossier) :
    Files state codec operations (fun _ q => dossier.Draws q) dossier p := by
  have hdraws : Files state codec operations (fun _ q => True ∧ dossier.Draws q) dossier p :=
    Program.follows_of_ensures_trans hp (fun q _ hc => warranted_of_incidental hc _ q)
      (fun q _ r hc => draws_file_of_incidental hc q r) dossier
  exact hdraws.mono fun _ _ h => h.2

theorem files_perform {c : Cmd}
    (hc : Warranted state codec operations (fun intent => intent ∈ dossier.pending) dossier c) :
    Files state codec operations (fun r q => q = dossier.file ⟨c, r⟩) dossier
      (Program.perform c) :=
  Program.follows_perform hc fun _ _ => rfl

theorem incidental_perform {c : Cmd} (hc : c.incidental = true) : Incidental (Program.perform c) :=
  Program.ensures_perform hc fun _ _ => trivial

theorem Cmd.incidental_of_ticks {c : Cmd} (hc : c.ticks = true) :
    c.incidental = true := by
  cases c with
  | record event =>
      cases event with
      | recordDecision | recordActionPlan => cases hc
      | _ => rfl
  | effective | getSnapshots | getPending | liveExecutionEnabled | enqueue | updateState
  | loadModel | unloadModel | forwardChatCompletion | mutate => cases hc
  | _ => rfl

theorem incidental_of_ticking (hp : Ticking p) : Incidental p :=
  Program.Ensures.mono hp (fun _ => Cmd.incidental_of_ticks) fun _ h => h

theorem incidental_handOffContext (decision : Decision) :
    Incidental (AppState.handOffContext decision) := by
  refine Program.Ensures.mono (AppState.within_handOffContext decision) (fun c hc => ?_)
    fun _ h => h
  cases c with
  | record event => cases event <;> cases List.mem_singleton.mp hc
  | takeContextRef | takeContext => rfl
  | _ => cases List.mem_singleton.mp hc

/-- The uuid of a stamp is one that has been drawn. -/
theorem files_stamp (dossier : Dossier) :
    Files state codec operations
      (fun stamp q => q = { dossier with uuids := dossier.uuids + {stamp.id} }) dossier
      Daemon.stamp := by
  refine Program.Follows.bind (files_perform trivial) ?_
  rintro id q rfl
  refine Program.Follows.bind (files_perform trivial) ?_
  rintro createdAt q rfl
  rfl

/-! ### The gate -/

theorem files_mutationAllowed (isMock : Bool) (dossier : Dossier) :
    Files state codec operations (fun allowed q => ∃ live, q = { dossier with live } ∧
        (allowed = true → isMock = true ∨ live = true)) dossier (mutationAllowed isMock) := by
  unfold mutationAllowed
  split
  · next hmock => exact ⟨dossier.live, rfl, fun _ => .inl hmock⟩
  · exact (files_perform (c := .liveExecutionEnabled) trivial).mono
      fun live _ hq => ⟨live, hq, .inr⟩

theorem files_liveExecuteEnabled (dossier : Dossier) :
    Files state codec operations (fun enabled q => ∃ live, q = { dossier with live } ∧
        (enabled = true → state.liveExecute = some true ∨ live = true)) dossier
      state.liveExecuteEnabled := by
  unfold AppState.liveExecuteEnabled
  split
  · next enabled hexecute =>
      exact ⟨dossier.live, rfl, fun henabled => .inl (by rw [hexecute, henabled])⟩
  · exact (files_perform (c := .liveExecutionEnabled) trivial).mono
      fun live _ hq => ⟨live, hq, .inr⟩

theorem files_executionAllowed (runtimeId : String) (dossier : Dossier) :
    Files state codec operations (fun allowed q => ∃ live, q = { dossier with live } ∧
        (allowed = true → OpenTo state q runtimeId)) dossier
      (state.executionAllowed runtimeId) := by
  unfold AppState.executionAllowed
  split
  · next hmock => exact ⟨dossier.live, rfl, fun _ => .inl hmock⟩
  · refine (files_liveExecuteEnabled dossier).mono ?_
    rintro enabled q ⟨live, rfl, henabled⟩
    exact ⟨live, rfl, fun h => .inr (henabled h)⟩

/-! ### Decisions -/

/-- A handler that has decided has the decision on file, and it is one for the request. -/
def HasDecided (request : InferenceRequest) (result : Except String Decision)
    (dossier : Dossier) : Prop :=
  ∀ decision, result = .ok decision → dossier.decision = some decision ∧
    ∃ effective : EffectiveBundle, ∃ snapshots stamp,
      effective.scheduler.decide request snapshots stamp = .ok decision

theorem files_queueStage {request : InferenceRequest} {decision : Decision}
    (hdecided : Decided codec operations dossier decision) :
    Files state codec operations (fun _ q => ∃ live, Dossier.Draws { dossier with live } q)
      dossier (state.queueStage request decision) := by
  unfold AppState.queueStage
  split
  next runtimeId modelId haction hruntime hmodel =>
    refine Program.Follows.bind (files_executionAllowed _ dossier) ?_
    rintro runnable q ⟨live, rfl, -⟩
    refine Program.Follows.bind (files_stamp _) ?_
    rintro stamp q rfl
    refine Program.Follows.bind (files_perform ⟨?_, ?_⟩) ?_
    · refine ⟨decision, hdecided, ⟨?_, haction, ?_, ?_⟩, StagingIntent.queued_contextRef ..⟩
      · rw [StagingIntent.queued_decisionId]
      · rw [StagingIntent.queued_targetRuntime, hruntime]
      · rw [StagingIntent.queued_backgroundModel, hmodel]
    · rw [StagingIntent.queued_id]
      exact Multiset.mem_add.mpr (.inr (Multiset.mem_singleton_self _))
    · rintro _ q' rfl
      refine (files_of_incidental (incidental_perform rfl) _).mono fun _ q' hdraws => ⟨live, ?_⟩
      -- the uuid of the stamp has been given to the intent
      simpa only [Dossier.file, StagingIntent.queued_id, add_tsub_cancel_right] using hdraws
  next => exact ⟨dossier.live, refl_of Dossier.Draws dossier⟩

theorem files_commitDecision {request : InferenceRequest} {decision : Decision}
    (hdecided : Decided codec operations dossier decision)
    (hid : decision.id ∈ dossier.uuids) :
    Files state codec operations
      (fun result q => ∀ d, result = .ok d → d = decision ∧ q.decision = some decision)
      dossier (state.commitDecision request decision) := by
  refine Program.Follows.bind (files_queueStage hdecided) ?_
  rintro queued q ⟨live, drawn, rfl⟩
  cases queued with
  | error e => rintro d ⟨⟩
  | ok _ =>
      refine ⟨⟨hdecided, Multiset.mem_add.mpr (.inl hid)⟩, fun recorded _ => ?_⟩
      cases recorded with
      | error e => rintro d ⟨⟩
      | ok _ =>
          rintro d hd
          exact ⟨(Except.ok.inj hd).symm, rfl⟩

theorem files_decide {request : InferenceRequest} (hasked : Asked codec operations request)
    (dossier : Dossier) :
    Files state codec operations (HasDecided request) dossier (state.decide request) := by
  have hrefresh := incidental_of_ticking (AppState.ticking_refresh state)
  refine Program.Follows.bind (files_of_incidental hrefresh dossier) ?_
  rintro _ q -
  refine Program.Follows.bind (files_perform trivial) ?_
  rintro snapshots q' rfl
  refine Program.Follows.bind (files_perform trivial) ?_
  rintro effective q' rfl
  refine Program.Follows.bind (files_stamp _) ?_
  rintro stamp q' rfl
  cases hdecide : effective.scheduler.decide request snapshots stamp with
  | error e =>
      dsimp only
      rintro decision ⟨⟩
  | ok decision =>
      dsimp only
      refine (files_commitDecision ⟨effective, snapshots, request, stamp, rfl, rfl, hasked,
        hdecide⟩ ?_).mono ?_
      · rw [Scheduler.id_decide hdecide]
        exact Multiset.mem_add.mpr (.inr (Multiset.mem_singleton_self _))
      · rintro result q' hcommitted d hd
        obtain ⟨rfl, hfiled⟩ := hcommitted d hd
        exact ⟨hfiled, effective, snapshots, stamp, hdecide⟩

/-! ### Plans -/

/-- A plan loads what its decision has selected or stages, where it has selected. -/
theorem selected_of_mem_actionPlanFor {models : Table ModelId ModelProfileConfig}
    {decision : Decision} {dryRun : Bool} {action : RuntimeAction} {runtimeId : String}
    {model : ModelId} (hmem : action ∈ (actionPlanFor models decision dryRun).actions)
    (his : action.Is .load runtimeId model) :
    decision.selectedRuntime = some ⟨runtimeId⟩ ∧
      (decision.selectedModel = some model ∨ decision.backgroundModel = some model) := by
  obtain ⟨hkind, rfl, hmodel⟩ := his
  have hnoop : ∀ (runtimeId : RuntimeId) (reason : String),
      action ∉ ((ActionPlan.new decision.id dryRun).addNoop runtimeId reason).actions := by
    intro runtimeId reason hmem
    rw [List.mem_singleton.mp hmem] at hkind
    cases hkind
  have hload : ∀ (runtimeId : RuntimeId) (modelId : ModelId) (isForeground : Bool)
      (reason : String) (cost : Option UInt64), action ∈ ((ActionPlan.new decision.id
        dryRun).addLoad runtimeId modelId isForeground reason cost).actions →
      action.runtimeId = runtimeId ∧ modelId = model := by
    intro runtimeId modelId isForeground reason cost hmem
    rw [List.mem_singleton.mp hmem] at hmodel ⊢
    exact ⟨rfl, Option.some.inj hmodel⟩
  unfold actionPlanFor at hmem
  cases haction : decision.action with
  | reuseHot | downgrade | defer | deny =>
      simp only [haction] at hmem
      exact absurd hmem (hnoop _ _)
  | promoteWarm | coldLoad =>
      simp only [haction] at hmem
      split at hmem
      next hruntime hselected =>
        obtain ⟨rfl, rfl⟩ := hload _ _ _ _ _ hmem
        exact ⟨hruntime, .inl hselected⟩
      next => cases hmem
  | stageBackground =>
      simp only [haction] at hmem
      split at hmem
      next hruntime hbackground =>
        obtain ⟨rfl, rfl⟩ := hload _ _ _ _ _ hmem
        exact ⟨hruntime, .inr hbackground⟩
      next => cases hmem

theorem files_executeAction {live : Bool} {action : RuntimeAction}
    (hlive : live = true → state.liveExecute = some true ∨ dossier.live = true)
    (hplanned : ∀ runtimeId model, action.Is .load runtimeId model →
      PlannedLoad dossier runtimeId model) :
    Files state codec operations (fun _ q => q = dossier) dossier
      (state.executeAction live action) := by
  unfold AppState.executeAction
  dsimp only
  split
  next hkind =>
    split
    next => exact rfl
    next modelId hmodel =>
      split
      · exact rfl
      · next hgate =>
        split
        · exact rfl
        · have hopen : OpenTo state dossier action.runtimeId.text := by
            by_cases hmock : state.isMockRuntime action.runtimeId.text = true
            · exact .inl hmock
            · refine .inr (hlive ?_)
              simpa [hmock] using hgate
          refine Program.Follows.bind
            (files_perform ⟨hopen, .inl (hplanned _ _ ⟨hkind, rfl, hmodel⟩)⟩) ?_
          rintro loaded q rfl
          cases loaded with
          | ok handle => exact rfl
          | error e => exact rfl
  next => exact rfl

theorem files_executeActions {live : Bool} {actions : List RuntimeAction}
    (hlive : live = true → state.liveExecute = some true ∨ dossier.live = true)
    (hplanned : ∀ action ∈ actions, ∀ runtimeId model, action.Is .load runtimeId model →
      PlannedLoad dossier runtimeId model) :
    Files state codec operations (fun _ q => q = dossier) dossier
      (state.executeActions live actions) := by
  induction actions with
  | nil => exact rfl
  | cons action rest ih =>
      rw [List.forall_mem_cons] at hplanned
      refine Program.Follows.bind (files_executeAction hlive hplanned.1) ?_
      rintro one q rfl
      refine Program.Follows.bind (ih hplanned.2) ?_
      rintro others q' rfl
      exact rfl

theorem files_executeDecision {decision : Decision}
    (hfiled : dossier.decision = some decision) :
    Files state codec operations (fun _ _ => True) dossier
      (state.executeDecision decision) := by
  refine Program.Follows.bind
    (files_of_incidental (incidental_handOffContext decision) dossier) ?_
  rintro context q ⟨drawn, rfl⟩
  refine Program.Follows.bind (files_liveExecuteEnabled _) ?_
  rintro enabled q ⟨live, rfl, henabled⟩
  refine Program.Follows.bind (Program.Follows.bind (files_perform trivial) ?_)
    (R := fun plan q' => ∃ effective : EffectiveBundle, q'.decision = some decision ∧
      q'.effective = some effective ∧ q'.live = live ∧
      plan = actionPlanFor effective.config.models decision (!enabled)) ?_
  · rintro effective q' rfl
    exact ⟨effective, hfiled, rfl, rfl, rfl⟩
  rintro plan q' ⟨effective, hdecision, heffective, rfl, rfl⟩
  refine Program.Follows.bind
    (files_perform ⟨decision, effective, !enabled, hdecision, heffective, rfl⟩) ?_
  rintro recorded q'' rfl
  cases recorded with
  | error e => exact trivial
  | ok _ =>
      refine Program.Follows.bind (files_executeActions henabled ?_) fun _ _ _ => trivial
      intro action hmem runtimeId model his
      obtain ⟨hruntime, hmodel⟩ := selected_of_mem_actionPlanFor hmem his
      exact ⟨decision, _, action, hdecision, rfl,
        (AppState.planOf_actionPlanFor _ decision _).decisionId, hmem, his, hruntime, hmodel⟩

/-! ### Chat completions -/

theorem files_completeDecision {body : Json} {domain : String} {request : InferenceRequest}
    {decision : Decision} (hasked : .chatCompletions body ∈ operations)
    (hrequest : MadeOf codec body request)
    (hfiled : dossier.decision = some decision)
    (hmade : ∃ effective : EffectiveBundle, ∃ snapshots stamp,
      effective.scheduler.decide request snapshots stamp = .ok decision) :
    Files state codec operations (fun _ _ => True) dossier
      (state.completeDecision codec body domain request decision) := by
  unfold AppState.completeDecision
  split
  next model runtimeId hmodel hruntime =>
    refine Program.Follows.bind (files_executionAllowed _ dossier) ?_
    rintro allowed q ⟨live, rfl, hopen⟩
    split
    · next hallowed =>
      refine Program.Follows.bind (files_perform trivial) ?_
      rintro effective q' rfl
      split
      next => exact trivial
      next =>
        unfold AppState.forward
        split
        next => exact trivial
        next hlive =>
          split
          next => exact trivial
          next target htarget =>
            have hcarries : CarriesOut state codec operations dossier runtimeId.text target
                (gatewayForwardBody body model) :=
              ⟨body, request, decision, model, hasked, hrequest, hfiled, hmade, hmodel, hruntime,
                Bool.eq_false_iff.mpr hlive, htarget, rfl⟩
            refine Program.Follows.bind (files_perform ⟨hopen hallowed, hcarries⟩) ?_
            rintro answer q' -
            cases answer with
            | error e => exact trivial
            | ok forwarded => exact trivial
    · exact trivial
  next => exact trivial

theorem files_chatCompletions {body : Json} (hasked : .chatCompletions body ∈ operations)
    (dossier : Dossier) :
    Files state codec operations (fun _ _ => True) dossier
      (state.chatCompletions codec body) := by
  unfold AppState.chatCompletions
  split
  next => exact trivial
  next modelField hfield =>
    dsimp only
    split
    next => exact trivial
    next =>
      refine Program.Follows.bind (files_perform trivial) ?_
      rintro id q rfl
      split
      next => exact trivial
      next request hrequest =>
        have hmadeOf : MadeOf codec body request := ⟨modelField, _, hfield, hrequest⟩
        refine Program.Follows.bind
          (files_decide (.inr (.inr ⟨body, hasked, hmadeOf⟩)) _) ?_
        rintro decided q hdecided
        cases decided with
        | error e => exact trivial
        | ok decision =>
            obtain ⟨hfiled, hmade⟩ := hdecided decision rfl
            exact files_completeDecision hasked hmadeOf hfiled hmade

/-! ### Staging and evictions -/

theorem files_loadIntent {runtimeId : String} {intent : StagingIntent}
    (hopen : OpenTo state dossier runtimeId) (hplan : dossier.plan = none)
    (hpending : intent ∈ dossier.pending)
    (hruntime : intent.targetRuntime.text = runtimeId ∨
      .executePending runtimeId ∈ operations) :
    Files state codec operations (fun _ q => q = dossier) dossier
      (loadIntent runtimeId intent) := by
  refine Program.Follows.bind
    (files_perform ⟨hopen, .inr ⟨hplan, intent, hpending, rfl, hruntime⟩⟩) ?_
  rintro loaded q rfl
  cases loaded with
  | ok handle => exact files_perform ⟨rfl, intent, hpending, rfl⟩
  | error e => exact files_perform ⟨rfl, intent, hpending, rfl⟩

theorem files_stageIntent {intent : StagingIntent} (hplan : dossier.plan = none)
    (hpending : intent ∈ dossier.pending) :
    Files state codec operations (fun _ q => ∃ live, q = { dossier with live }) dossier
      (state.stageIntent intent) := by
  refine Program.Follows.bind (files_mutationAllowed _ dossier) ?_
  rintro allowed q ⟨live, rfl, hallowed⟩
  split
  · next h =>
    refine Program.Follows.bind (files_perform trivial) ?_
    rintro _ q' rfl
    split
    · exact ⟨live, rfl⟩
    · have hopen : OpenTo state { dossier with live } intent.targetRuntime.text :=
        (hallowed h).imp_right .inr
      exact (files_loadIntent hopen hplan hpending (.inl rfl)).mono fun _ _ hq => ⟨live, hq⟩
  · exact Program.Follows.mono (files_perform trivial) fun _ _ hq => ⟨live, hq⟩

theorem files_commitDraining (dossier : Dossier) :
    Files state codec operations (fun _ _ => True) dossier commitDraining := by
  refine Program.Follows.bind (R := fun _ _ => True)
    (Program.Follows.bind (files_perform trivial) fun _ _ _ => trivial) fun draining q _ => ?_
  split
  · exact trivial
  · exact Program.Follows.bind (files_perform trivial) fun _ _ _ => trivial

theorem files_completeReady (dossier : Dossier) :
    Files state codec operations (fun _ _ => True) dossier completeReady := by
  refine Program.Follows.bind (R := fun _ _ => True)
    (Program.Follows.bind (files_perform trivial) fun _ _ _ => trivial) fun ready q _ => ?_
  split
  · exact trivial
  · exact Program.Follows.bind (files_perform trivial) fun _ _ _ => trivial

theorem files_runStagingTick (dossier : Dossier) :
    Files state codec operations (fun _ _ => True) dossier state.runStagingTick := by
  refine Program.Follows.bind (files_commitDraining dossier) fun _ q _ => ?_
  refine Program.Follows.bind (files_completeReady q) fun _ q' _ => ?_
  refine Program.Follows.bind (files_perform trivial) ?_
  rintro pending q'' rfl
  refine Program.Follows.mono (Program.Follows.forM
    (I := fun q : Dossier => q.plan = none ∧ q.pending = pending) ?_ ⟨rfl, rfl⟩)
    fun _ _ _ => trivial
  rintro intent hmem q ⟨hplan, hpending⟩
  refine (files_stageIntent hplan (hpending ▸ hmem)).mono ?_
  rintro _ q' ⟨live, rfl⟩
  exact ⟨hplan, hpending⟩

theorem files_executePendingOn {runtimeId : String}
    (hasked : .executePending runtimeId ∈ operations) (dossier : Dossier) :
    Files state codec operations (fun _ _ => True) dossier
      (state.executePendingOn runtimeId) := by
  unfold AppState.executePendingOn
  split
  · exact trivial
  · next adapter hadapter =>
    refine Program.Follows.bind (files_mutationAllowed _ dossier) ?_
    rintro allowed q ⟨live, rfl, hallowed⟩
    split
    · next h =>
      have hgate := (hallowed h).imp_left (AppState.isMockRuntime_of_isMock hadapter)
      refine Program.Follows.bind (files_perform trivial) ?_
      rintro pending q' rfl
      refine Program.Follows.mono (Program.Follows.forM
        (I := fun q' => q' = Dossier.file { dossier with live } ⟨.getPending, pending⟩) ?_ rfl)
        fun _ _ _ => trivial
      rintro intent hmem q' rfl
      exact files_loadIntent (hgate.imp_right .inr) rfl hmem (.inr hasked)
    · exact trivial

theorem files_unloadAll {plan : ActionPlan} {actions : List RuntimeAction}
    (hasked : .executeEvictionPlan plan true ∈ operations) (hdryRun : plan.dryRun = false)
    (hactions : actions ⊆ plan.actions) (results : List String) (dossier : Dossier) :
    Files state codec operations (fun _ _ => True) dossier
      (state.unloadAll actions results) := by
  induction actions generalizing results dossier with
  | nil => exact trivial
  | cons action rest ih =>
      obtain ⟨hmem, hrest⟩ := List.cons_subset.mp hactions
      unfold AppState.unloadAll
      split
      next modelId hkind hmodel =>
        refine Program.Follows.bind (files_mutationAllowed _ dossier) ?_
        rintro allowed q ⟨live, rfl, hallowed⟩
        split
        · next h =>
          split
          · exact ih hrest results _
          · refine Program.Follows.bind (files_perform ⟨(hallowed h).imp_right .inr, plan, action,
              hasked, hdryRun, hmem, hkind, rfl, hmodel⟩) ?_
            rintro unloaded q' rfl
            cases unloaded with
            | error e => exact trivial
            | ok _ => exact ih hrest _ _
        · exact trivial
      next => exact ih hrest results dossier

theorem files_perform_operation {operation : Operation} (hasked : operation ∈ operations)
    (dossier : Dossier) :
    Files state codec operations (fun _ _ => True) dossier (state.perform codec operation) := by
  cases operation with
  | decide request =>
      exact Program.Follows.bind (files_decide (.inl hasked) dossier) fun _ _ _ => trivial
  | execute request =>
      refine Program.Follows.bind (R := fun _ _ => True) ?_ fun _ _ _ => trivial
      refine Program.Follows.bind (files_decide (.inr (.inl hasked)) dossier) ?_
      rintro decided q hdecided
      cases decided with
      | error e => exact trivial
      | ok decision => exact files_executeDecision (hdecided decision rfl).1
  | chatCompletions body =>
      exact Program.Follows.bind (files_chatCompletions hasked dossier) fun _ _ _ => trivial
  | reconciliationTick =>
      have htick := incidental_of_ticking (AppState.ticking_runReconciliationTick state)
      exact (files_of_incidental htick dossier).mono fun _ _ _ => trivial
  | stagingTick => exact files_runStagingTick dossier
  | executePending runtimeId => exact files_executePendingOn hasked dossier
  | executeEvictionPlan plan approved =>
      refine Program.Follows.bind (R := fun _ _ => True) ?_ fun _ _ _ => trivial
      unfold AppState.executeEvictionPlan
      split
      next => exact trivial
      next hproceeds =>
        simp only [Bool.or_eq_true, Bool.not_eq_true', not_or, Bool.not_eq_true,
          Bool.not_eq_false] at hproceeds
        obtain ⟨hdryRun, rfl⟩ := hproceeds
        exact files_unloadAll hasked hdryRun (List.Subset.refl _) [] dossier
  | edit request => exact Program.Follows.bind (files_perform hasked) fun _ _ _ => trivial

theorem files_performAll {own : List Operation} (hasked : own ⊆ operations)
    (dossier : Dossier) :
    Files state codec operations (fun _ _ => True) dossier (state.performAll codec own) :=
  Program.Follows.forM (I := fun _ => True)
    (fun _ hmem q _ => files_perform_operation (hasked hmem) q) trivial

end Threads

/-! ### Interleavings -/

/-- The intent in the queue is the one that was queued: it has its ids, model and target. -/
structure StemsFrom (queued intent : StagingIntent) : Prop where
  id : intent.id = queued.id
  decisionId : intent.decisionId = queued.decisionId
  backgroundModel : intent.backgroundModel = queued.backgroundModel
  targetRuntime : intent.targetRuntime = queued.targetRuntime

theorem StemsFrom.refl (intent : StagingIntent) : StemsFrom intent intent :=
  ⟨rfl, rfl, rfl, rfl⟩

theorem StemsFrom.trans {a b c : StagingIntent} (h : StemsFrom a b) (h' : StemsFrom b c) :
    StemsFrom a c :=
  ⟨h'.id.trans h.id, h'.decisionId.trans h.decisionId,
    h'.backgroundModel.trans h.backgroundModel, h'.targetRuntime.trans h.targetRuntime⟩

theorem SameStage.stemsFrom {intent after : StagingIntent} (h : SameStage intent after) :
    StemsFrom intent after :=
  ⟨h.id, h.decisionId, h.backgroundModel, h.targetRuntime⟩

/-- The intent stems from one that was queued in the trace. -/
def Queued (trace : List (ℕ × Program.Event Cmd.Resp)) (intent : StagingIntent) : Prop :=
  ∃ queued ∈ enqueuedIntents trace, StemsFrom queued intent

section Commands

variable (codec : Codec) (env : ℕ → Surroundings)

/-- A command that queues no intent leaves those in the queue in their places. -/
theorem forall₂_stemsFrom_handle {c : Cmd} (hc : c.area ≠ .enqueueing) (w : World) :
    List.Forall₂ StemsFrom w.stagingWorker.queue
      (handle codec env w c).2.stagingWorker.queue := by
  by_cases hstores : c.stores = true
  · cases c with
    | updateState intentId newState error =>
        refine forall₂_updateFirst StemsFrom.refl (fun before _ => ?_) _
        cases newState <;> exact ⟨rfl, rfl, rfl, rfl⟩
    | _ => cases hstores
  · exact (sameStages_handle codec env hc (Bool.eq_false_iff.mpr hstores) w).imp
      fun _ _ => SameStage.stemsFrom

/-- A command that is in the area of queueing queues an intent. -/
theorem eq_enqueue_of_area {c : Cmd} (hc : c.area = .enqueueing) :
    ∃ intent, c = .enqueue intent := by
  cases c with
  | enqueue intent => exact ⟨intent, rfl⟩
  | record event => cases event <;> cases hc
  | _ => cases hc

/-- What is in the queue after a command was in it before, or has been queued by it. -/
theorem stemsFrom_handle {c : Cmd} {w : World} {intent : StagingIntent}
    (h : intent ∈ (handle codec env w c).2.stagingWorker.queue) :
    c = .enqueue intent ∨ ∃ before ∈ w.stagingWorker.queue, StemsFrom before intent := by
  by_cases henqueue : c.area = .enqueueing
  · obtain ⟨queued, rfl⟩ := eq_enqueue_of_area henqueue
    rcases List.mem_append.mp h with hold | hnew
    · exact .inr ⟨intent, hold, .refl intent⟩
    · exact .inl (by rw [List.mem_singleton.mp hnew])
  · exact .inr (exists_of_mem_forall₂ (forall₂_stemsFrom_handle codec env henqueue w) h)

/-- What a handler has read as pending was in the queue, or was read before. -/
theorem pending_file {c : Cmd} {w : World} {dossier : Dossier} {intent : StagingIntent}
    (h : intent ∈ (dossier.file ⟨c, (handle codec env w c).1⟩).pending) :
    intent ∈ dossier.pending ∨ intent ∈ w.stagingWorker.queue := by
  cases c with
  | getPending => exact .inr (List.mem_of_mem_filter h)
  | record event =>
      refine .inl ?_
      change intent ∈ (dossier.file ⟨.record event, (env w.clock).record event⟩).pending at h
      generalize (env w.clock).record event = answer at h
      cases event <;> cases answer <;> exact h
  | _ => exact .inl h

end Commands

theorem Queued.append {trace : List (ℕ × Program.Event Cmd.Resp)} {intent : StagingIntent}
    (h : Queued trace intent) (e : ℕ × Program.Event Cmd.Resp) :
    Queued (trace ++ [e]) intent := by
  obtain ⟨queued, hmem, hstems⟩ := h
  refine ⟨queued, ?_, hstems⟩
  rw [enqueuedIntents_concat]
  exact List.mem_append_left _ hmem

/-- A reason stays one when the intents are traced back to where they stem from. -/
theorem Warranted.trace_back {state : AppState} {codec : Codec} {operations : List Operation}
    {intents intents' : StagingIntent → Prop} {dossier : Dossier} {c : Cmd}
    (h : Warranted state codec operations intents dossier c)
    (hback : ∀ intent, intents intent → ∃ queued, intents' queued ∧ StemsFrom queued intent) :
    Warranted state codec operations intents' dossier c := by
  cases c with
  | loadModel runtimeId model =>
      refine h.imp_right fun hload => hload.imp_right ?_
      rintro ⟨hplan, intent, hintent, hmodel, hruntime⟩
      obtain ⟨queued, hqueued, hstems⟩ := hback intent hintent
      rw [hstems.backgroundModel] at hmodel
      rw [hstems.targetRuntime] at hruntime
      exact ⟨hplan, queued, hqueued, hmodel, hruntime⟩
  | updateState intentId newState error =>
      obtain ⟨hterminal, intent, hintent, hid⟩ := h
      obtain ⟨queued, hqueued, hstems⟩ := hback intent hintent
      exact ⟨hterminal, queued, hqueued, hstems.id ▸ hid⟩
  | record event => cases event <;> exact h
  | _ => exact h

section Interleavings

variable (state : AppState) (codec : Codec) (env : ℕ → Surroundings)

/-- Some handlers, each with the operations it is to perform, over a daemon's state. -/
def AppState.serving (handlers : List (List Operation)) (w : World) :
    Pool Cmd Cmd.Resp Unit World :=
  ⟨handlers.map (state.performAll codec), w⟩

theorem files_serving (handlers : List (List Operation)) (w : World) :
    ∀ p ∈ (state.serving codec handlers w).threads,
      Files state codec handlers.flatten (fun _ _ => True) {} p := by
  intro p hp
  obtain ⟨own, hown, rfl⟩ := List.mem_map.mp hp
  exact files_performAll (fun operation hoperation =>
    List.mem_flatten.mpr ⟨own, hown, hoperation⟩) {}

/-- The command had a reason when it was issued: in what its handler had on file and in the
intents that were queued by then. -/
def AccountedFor (operations : List Operation) (before : List (ℕ × Program.Event Cmd.Resp))
    (e : ℕ × Program.Event Cmd.Resp) : Prop :=
  Warranted state codec operations (fun intent => intent ∈ enqueuedIntents before)
    (Dossier.after e.1 before) e.2.1

/-- What holds after every event. -/
structure OnRecord (operations : List Operation) (trace : List (ℕ × Program.Event Cmd.Resp))
    (w : World) : Prop where
  queue : ∀ intent ∈ w.stagingWorker.queue, Queued trace intent
  pending : ∀ i, ∀ intent ∈ (Dossier.after i trace).pending, Queued trace intent
  accounted : Always (AccountedFor state codec operations) trace

variable {state codec env} {operations : List Operation}
  {trace : List (ℕ × Program.Event Cmd.Resp)} {w : World}

theorem OnRecord.start (hqueue : w.stagingWorker.queue = []) :
    OnRecord state codec operations [] w where
  queue := by
    rw [hqueue]
    exact List.forall_mem_nil _
  pending := fun _ _ h => (List.not_mem_nil h).elim
  accounted := .nil

theorem OnRecord.step (h : OnRecord state codec operations trace w) {i : ℕ} {c : Cmd}
    (hc : Warranted state codec operations
      (fun intent => intent ∈ (Dossier.after i trace).pending) (Dossier.after i trace) c) :
    OnRecord state codec operations (trace ++ [(i, ⟨c, (handle codec env w c).1⟩)])
      (handle codec env w c).2 where
  queue := by
    intro intent hintent
    rcases stemsFrom_handle codec env hintent with rfl | ⟨before, hbefore, hstems⟩
    · refine ⟨intent, ?_, .refl intent⟩
      rw [enqueuedIntents_concat]
      exact List.mem_append_right _ (List.mem_singleton_self _)
    · obtain ⟨queued, hmem, hstems'⟩ := (h.queue before hbefore).append _
      exact ⟨queued, hmem, hstems'.trans hstems⟩
  pending := by
    intro j intent hintent
    rw [Dossier.after, Pool.phaseAfter_concat] at hintent
    by_cases hji : i = j
    · subst hji
      rw [if_pos rfl] at hintent
      rcases pending_file codec env hintent with hold | hqueue
      · exact (h.pending i intent hold).append _
      · exact (h.queue intent hqueue).append _
    · rw [if_neg hji] at hintent
      exact (h.pending j intent hintent).append _
  accounted :=
    Always.concat_iff.mpr ⟨h.accounted, hc.trace_back fun intent hintent => by
      obtain ⟨queued, hmem, hstems⟩ := h.pending i intent hintent
      exact ⟨queued, hmem, hstems⟩⟩

end Interleavings

/-! ### A load and a forward -/

open AppState

/-- The libraries decode every selection metadata as none. -/
def lenientCodec : Codec :=
  { (default : Codec) with selectionMetadata := fun _ => .ok {} }

/-- Live execution is enabled as well. -/
def growsHotLive (n : ℕ) : Surroundings :=
  { growsHot n with liveExecutionEnabled := true }

/-- One handler decides and stages, another completes a chat. -/
def servingHandlers : List (List Operation) :=
  [[.decide codingRequest, .stagingTick],
   [.chatCompletions (.object [("model", .string "coding")])]]

def servingTrace : List (ℕ × Program.Event Cmd.Resp) :=
  Pool.trace (handle lenientCodec growsHotLive)
    (twoRuntimes.serving lenientCodec servingHandlers twoRuntimesStart)
    (List.replicate 32 0 ++ List.replicate 30 1)

end Anemoi
