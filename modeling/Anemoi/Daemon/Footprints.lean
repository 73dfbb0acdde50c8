import Anemoi.Daemon.Operations

/-!
# Footprints

Every command belongs to one area of the daemon: to nothing that is shared, to the cache
of snapshots, to the staging queue, to the escalation contexts, to governance, or to the
runtimes. An operation's footprint is the list of areas its commands are in; a condition
that no command of these areas disturbs survives the operation.

Towards what decisions are based on every operation is a `Routine`: reconciliation ticks and
edits, one after the other, with programs in between that change nothing of it.
-/

namespace Anemoi

open Systems

inductive Area where
  /-- It reads, or it records something that is not a transition. -/
  | ambient
  | reconciliation
  | enqueueing
  | staging
  | committing
  | handingOff
  | loading
  | unloading
  | forwarding
  | governance
  deriving DecidableEq

def Cmd.area : Cmd → Area
  | now | newUuid | liveExecutionEnabled | needsRefresh | getSnapshots | getPending | effective =>
      .ambient
  | record (.recordResidentTransition _) => .reconciliation
  | record _ => .ambient
  | nextRound | inspect _ | getReconciled _ | updateSnapshot _ _ | recordError _ _ =>
      .reconciliation
  | enqueue _ => .enqueueing
  | updateState _ _ _ | noteTick _ _ | reconcileReady _ => .staging
  | commitEvictionContext _ => .committing
  | takeContextRef _ | takeContext _ => .handingOff
  | loadModel _ _ => .loading
  | unloadModel _ _ => .unloading
  | forwardChatCompletion _ _ _ => .forwarding
  | mutate _ => .governance

/-- The command touches nothing that is shared, or queues an intent that has no context in
the cache yet. -/
def Cmd.Decides (c : Cmd) : Prop :=
  c.area = .ambient ∨ ∃ intent, c = .enqueue intent ∧ intent.contextRef = none

/-- The program issues commands of these areas only. -/
abbrev Within (areas : List Area) {α : Type} (p : Daemon α) : Prop :=
  Program.Respects (fun _ _ => True) (fun c => c.area ∈ areas) p

namespace Within

variable {areas areas' : List Area} {α β : Type}

theorem mono {p : Daemon α} (hp : Within areas p) (h : areas ⊆ areas') : Within areas' p :=
  Program.Ensures.mono hp (fun _ hc => h hc) fun _ h => h

theorem bind {p : Daemon α} {f : α → Daemon β} (hp : Within areas p)
    (hf : ∀ a, Within areas (f a)) : Within areas (p >>= f) :=
  Program.Ensures.bind hp fun a _ => hf a

theorem perform {c : Cmd} (hc : c.area ∈ areas) : Within areas (Program.perform c) :=
  Program.ensures_perform hc fun _ _ => trivial

theorem pure (a : α) : Within areas (Pure.pure a) := trivial

end Within

theorem within_stamp : Within [.ambient] Daemon.stamp :=
  (Within.perform (by decide)).bind fun _ => (Within.perform (by decide)).bind fun _ => .pure _

theorem within_getSnapshots : Within [.ambient] Daemon.getSnapshots :=
  .perform (by decide)

theorem within_effective : Within [.ambient] Daemon.effective :=
  .perform (by decide)

theorem within_generateActionPlan (decision : Decision) (dryRun : Bool) :
    Within [.ambient] (generateActionPlan decision dryRun) :=
  within_effective.bind fun _ => .pure _

theorem within_recordActionPlan (plan : ActionPlan) :
    Within [.ambient] (Daemon.record (.recordActionPlan plan)) :=
  .perform (by simp [Cmd.area])

/-- The commands that record what an inspection has found. -/
def Cmd.observes : Cmd → Bool
  | now | newUuid | getReconciled _ | record (.recordRuntimeSnapshot _ _ _ _)
  | record (.recordResidentTransition _) => true
  | _ => false

/-- The commands of a reconciliation tick, and the one that asks whether there is to be one. -/
def Cmd.ticks : Cmd → Bool
  | needsRefresh | nextRound | inspect _ | updateSnapshot _ _ | recordError _ _ => true
  | c => c.observes

abbrev Observing {α : Type} (p : Daemon α) : Prop :=
  Program.Respects (fun _ _ => True) (fun c => c.observes = true) p

abbrev Ticking {α : Type} (p : Daemon α) : Prop :=
  Program.Respects (fun _ _ => True) (fun c => c.ticks = true) p

theorem Cmd.ticks_of_observes {c : Cmd} (hc : c.observes = true) : c.ticks = true := by
  cases c <;> first | rfl | exact hc

theorem observing_perform {c : Cmd} (hc : c.observes = true) : Observing (Program.perform c) :=
  Program.ensures_perform hc fun _ _ => trivial

theorem ticking_perform {c : Cmd} (hc : c.ticks = true) :
    Ticking (Program.perform c) :=
  Program.ensures_perform hc fun _ _ => trivial

theorem Cmd.area_of_ticks {c : Cmd} (hc : c.ticks = true) :
    c.area ∈ [Area.ambient, .reconciliation] := by
  cases c with
  | record event =>
      cases event with
      | recordRuntimeSnapshot | recordResidentTransition => simp [Cmd.area]
      | recordDecision | recordStagingStatus | recordActionPlan => cases hc
  | now | newUuid | needsRefresh | nextRound | inspect | getReconciled | updateSnapshot
  | recordError => simp [Cmd.area]
  | _ => cases hc

theorem within_of_ticking {α : Type} {p : Daemon α} (hp : Ticking p) :
    Within [.ambient, .reconciliation] p :=
  Program.Ensures.mono hp (fun _ => Cmd.area_of_ticks) fun _ h => h

/-- The program queues at most fresh intents, and touches nothing else that is shared. -/
abbrev Deciding {α : Type} (p : Daemon α) : Prop :=
  Program.Respects (fun _ _ => True) Cmd.Decides p

theorem deciding_of_within {α : Type} {p : Daemon α} (hp : Within [.ambient] p) : Deciding p :=
  Program.Ensures.mono hp (fun _ hc => Or.inl (List.mem_singleton.mp hc)) fun _ h => h

theorem deciding_perform {c : Cmd} (hc : c.area = .ambient) : Deciding (Program.perform c) :=
  Program.ensures_perform (Or.inl hc) fun _ _ => trivial

theorem deciding_enqueue {intent : StagingIntent} (h : intent.contextRef = none) :
    Deciding (Daemon.enqueue intent) := by
  have henqueue : (Cmd.enqueue intent).Decides := Or.inr ⟨intent, rfl, h⟩
  exact Program.ensures_perform henqueue fun _ _ => trivial

/-- The program issues no command that affects decisions. -/
abbrev Blind {α : Type} (p : Daemon α) : Prop :=
  Program.Respects (fun _ _ => True) (fun c => c.affectsDecisions = false) p

theorem blind_of_within {areas : List Area} {α : Type} {p : Daemon α} (hp : Within areas p)
    (hreconciliation : Area.reconciliation ∉ areas) (hgovernance : Area.governance ∉ areas) :
    Blind p := by
  refine Program.Ensures.mono hp (fun c hc => ?_) fun _ h => h
  cases c with
  | inspect | updateSnapshot | recordError => exact absurd hc hreconciliation
  | mutate => exact absurd hc hgovernance
  | _ => rfl

namespace AppState

variable (state : AppState)

/-! ### Reconciliation -/

theorem observing_emitResidentTransitions (runtimeId : String)
    (previous current : List ModelResident) (round : UInt64) :
    Observing (state.emitResidentTransitions runtimeId previous current round) := by
  unfold emitResidentTransitions
  dsimp only
  split
  · exact trivial
  · refine (observing_perform rfl).bind fun observedAt _ => .forM fun transition _ => ?_
    exact (observing_perform rfl).bind fun _ _ => trivial

theorem observing_recordInspection (runtimeId : String) (snapshot : RuntimeSnapshot)
    (round : UInt64) : Observing (state.recordInspection runtimeId snapshot round) := by
  refine (observing_perform rfl).bind fun previous _ => ?_
  refine (observing_emitResidentTransitions state runtimeId _ _ round).bind fun _ _ => ?_
  refine (observing_perform rfl).bind fun observedAt _ => ?_
  refine (observing_perform rfl).bind fun id _ => ?_
  exact (observing_perform rfl).bind fun _ _ => trivial

theorem ticking_reconcileRuntime (runtimeId : String) (round : UInt64) :
    Ticking (state.reconcileRuntime runtimeId round) := by
  refine (ticking_perform rfl).bind fun answer _ => ?_
  cases answer with
  | error e => exact ticking_perform rfl
  | ok snapshot =>
      have hrecord : Ticking (state.recordInspection runtimeId snapshot round) :=
        Program.Ensures.mono (observing_recordInspection state runtimeId snapshot round)
          (fun _ => Cmd.ticks_of_observes) fun _ h => h
      exact hrecord.bind fun _ _ => ticking_perform rfl

theorem ticking_runReconciliationTick : Ticking state.runReconciliationTick :=
  (ticking_perform rfl).bind fun round _ =>
    .forM fun runtimeId _ => ticking_reconcileRuntime state runtimeId round

theorem ticking_refresh : Ticking state.refresh := by
  refine (ticking_perform rfl).bind fun stale _ => ?_
  split
  · exact ticking_runReconciliationTick state
  · exact trivial

theorem within_runReconciliationTick :
    Within [.ambient, .reconciliation] state.runReconciliationTick :=
  within_of_ticking (ticking_runReconciliationTick state)

theorem within_refresh : Within [.ambient, .reconciliation] state.refresh :=
  within_of_ticking (ticking_refresh state)

/-! ### Decisions -/

theorem within_liveExecuteEnabled : Within [.ambient] state.liveExecuteEnabled := by
  unfold liveExecuteEnabled
  split
  · exact .pure _
  · exact .perform (by decide)

theorem within_executionAllowed (runtimeId : String) :
    Within [.ambient] (state.executionAllowed runtimeId) := by
  unfold executionAllowed
  split
  · exact .pure _
  · exact within_liveExecuteEnabled state

theorem deciding_queueStage (request : InferenceRequest) (decision : Decision) :
    Deciding (state.queueStage request decision) := by
  unfold queueStage
  split
  · refine Program.Ensures.bind (deciding_of_within (within_executionAllowed state _))
      fun runnable _ => ?_
    refine Program.Ensures.bind (deciding_of_within within_stamp) fun stamp _ => ?_
    refine Program.Ensures.bind (deciding_enqueue (StagingIntent.queued_contextRef ..))
      fun _ _ => ?_
    exact deciding_perform rfl
  · exact trivial

theorem deciding_commitDecision (request : InferenceRequest) (decision : Decision) :
    Deciding (state.commitDecision request decision) := by
  refine Program.Ensures.bind (deciding_queueStage state request decision) fun queued _ => ?_
  cases queued with
  | error e => exact trivial
  | ok _ =>
      refine Program.Ensures.bind (deciding_perform rfl) fun recorded _ => ?_
      cases recorded with
      | error e => exact trivial
      | ok _ => exact trivial

theorem deciding_decideOn (request : InferenceRequest) (snapshots : List RuntimeSnapshot) :
    Deciding (state.decideOn request snapshots) := by
  refine Program.Ensures.bind (deciding_perform rfl) fun effective _ => ?_
  refine Program.Ensures.bind (deciding_of_within within_stamp) fun stamp _ => ?_
  split
  · exact trivial
  · exact deciding_commitDecision state request _

/-- A decision reads, inspects the runtimes, and queues. -/
theorem within_decide (request : InferenceRequest) :
    Within [.ambient, .reconciliation, .enqueueing] (state.decide request) := by
  refine (state.within_refresh.mono (by decide)).bind fun _ => ?_
  refine (within_getSnapshots.mono (by decide)).bind fun snapshots => ?_
  refine Program.Ensures.mono (deciding_decideOn state request snapshots) ?_ fun _ h => h
  rintro c (hc | ⟨intent, rfl, -⟩)
  · rw [hc]
    decide
  · simp [Cmd.area]

/-! ### Plans and staging -/

theorem within_executeAction (live : Bool) (action : RuntimeAction) :
    Within [.loading] (state.executeAction live action) := by
  unfold executeAction
  dsimp only
  split
  · split
    · exact .pure _
    · split
      · exact .pure _
      · split
        · exact .pure _
        · refine (Within.perform (by simp [Cmd.area])).bind fun loaded => ?_
          cases loaded with
          | ok handle => exact .pure _
          | error e => exact .pure _
  · exact .pure _

theorem within_executeActions (live : Bool) (actions : List RuntimeAction) :
    Within [.loading] (state.executeActions live actions) := by
  induction actions with
  | nil => exact .pure _
  | cons action rest ih =>
      refine (within_executeAction state live action).bind fun one => ?_
      exact ih.bind fun _ => .pure _

theorem within_handOffContext (d : Decision) : Within [.handingOff] (handOffContext d) := by
  unfold handOffContext
  split
  · refine (Within.perform (by simp [Cmd.area])).bind fun contextRef => ?_
    cases contextRef with
    | none => exact .pure _
    | some contextRef => exact .perform (by simp [Cmd.area])
  · exact .pure _

theorem within_executeDecision (d : Decision) :
    Within [.handingOff, .ambient, .loading] (state.executeDecision d) := by
  refine ((within_handOffContext d).mono (by simp)).bind fun context => ?_
  refine (state.within_liveExecuteEnabled.mono (by simp)).bind fun live => ?_
  refine ((within_generateActionPlan d _).mono (by simp)).bind fun plan => ?_
  refine ((within_recordActionPlan plan).mono (by simp)).bind fun recorded => ?_
  cases recorded with
  | error e => exact .pure _
  | ok _ =>
      exact ((state.within_executeActions live plan.actions).mono (by simp)).bind
        fun _ => .pure _

theorem within_mutationAllowed (isMock : Bool) : Within [.ambient] (mutationAllowed isMock) := by
  unfold mutationAllowed
  split
  · exact .pure _
  · exact .perform (by decide)

theorem within_loadIntent (runtimeId : String) (intent : StagingIntent) :
    Within [.staging, .loading] (loadIntent runtimeId intent) := by
  refine (Within.perform (by simp [Cmd.area])).bind fun loaded => ?_
  cases loaded with
  | ok handle => exact .perform (by simp [Cmd.area])
  | error e => exact .perform (by simp [Cmd.area])

theorem within_stageIntent (intent : StagingIntent) :
    Within [.ambient, .staging, .loading] (state.stageIntent intent) := by
  refine ((within_mutationAllowed _).mono (by simp)).bind fun allowed => ?_
  split
  · refine (Within.perform (by simp [Cmd.area])).bind fun _ => ?_
    split
    · exact .pure _
    · exact (within_loadIntent _ intent).mono (by simp)
  · exact .perform (by simp [Cmd.area])

theorem within_commitDraining : Within [.ambient, .committing] commitDraining := by
  refine Within.bind ((Within.perform (by simp [Cmd.area])).bind fun _ => .pure _)
    fun draining => ?_
  split
  · exact .pure _
  · exact (Within.perform (by simp [Cmd.area])).bind fun _ => .pure _

theorem within_completeReady : Within [.ambient, .staging] completeReady := by
  refine Within.bind ((Within.perform (by simp [Cmd.area])).bind fun _ => .pure _)
    fun ready => ?_
  split
  · exact .pure _
  · exact (Within.perform (by simp [Cmd.area])).bind fun _ => .pure _

theorem within_runStagingTick :
    Within [.ambient, .staging, .committing, .loading] state.runStagingTick := by
  refine (within_commitDraining.mono (by simp)).bind fun _ => ?_
  refine (within_completeReady.mono (by simp)).bind fun _ => ?_
  refine (Within.perform (by simp [Cmd.area])).bind fun pending => ?_
  exact .forM fun intent _ => (within_stageIntent state intent).mono (by simp)

theorem within_executePendingOn (runtimeId : String) :
    Within [.ambient, .staging, .loading] (state.executePendingOn runtimeId) := by
  unfold executePendingOn
  split
  · exact .pure _
  · refine ((within_mutationAllowed _).mono (by simp)).bind fun allowed => ?_
    split
    · refine (Within.perform (by simp [Cmd.area])).bind fun pending => ?_
      exact .forM fun intent _ => (within_loadIntent runtimeId intent).mono (by simp)
    · exact .pure _

/-! ### Evictions and forwards -/

theorem within_unloadAll (actions : List RuntimeAction) (results : List String) :
    Within [.ambient, .unloading] (state.unloadAll actions results) := by
  induction actions generalizing results with
  | nil => exact .pure _
  | cons action rest ih =>
      unfold unloadAll
      split
      · refine ((within_mutationAllowed _).mono (by simp)).bind fun allowed => ?_
        split
        · split
          · exact ih results
          · refine (Within.perform (by simp [Cmd.area])).bind fun unloaded => ?_
            cases unloaded with
            | error e => exact .pure _
            | ok _ => exact ih _
        · exact .pure _
      · exact ih results

theorem within_executeEvictionPlan (plan : ActionPlan) (approved : Bool) :
    Within [.ambient, .unloading] (state.executeEvictionPlan plan approved) := by
  unfold executeEvictionPlan
  split
  · exact .pure _
  · exact within_unloadAll state plan.actions []

theorem within_completeDecision (codec : Codec) (body : Json) (domain : String)
    (request : InferenceRequest) (d : Decision) :
    Within [.ambient, .forwarding] (state.completeDecision codec body domain request d) := by
  unfold completeDecision
  split
  · refine ((state.within_executionAllowed _).mono (by simp)).bind fun allowed => ?_
    split
    · refine (within_effective.mono (by simp)).bind fun effective => ?_
      split
      · exact .pure _
      · unfold forward
        split
        · exact .pure _
        · split
          · exact .pure _
          · refine (Within.perform (by simp [Cmd.area])).bind fun answer => ?_
            cases answer with
            | error e => exact .pure _
            | ok forwarded => exact .pure _
    · exact .pure _
  · exact .pure _

/-! ### Routines -/

theorem blind_recordInspection (runtimeId : String) (snapshot : RuntimeSnapshot)
    (round : UInt64) : Blind (state.recordInspection runtimeId snapshot round) := by
  refine Program.Ensures.mono (observing_recordInspection state runtimeId snapshot round)
    (fun c hc => ?_) fun _ h => h
  cases c with
  | inspect | updateSnapshot | recordError | mutate => cases hc
  | _ => rfl

/-- A decision after the refresh is made blindly. -/
theorem blind_decideOn (request : InferenceRequest) (snapshots : List RuntimeSnapshot) :
    Blind (state.decideOn request snapshots) := by
  refine Program.Ensures.mono (deciding_decideOn state request snapshots) ?_ fun _ h => h
  rintro c (hc | ⟨intent, rfl, -⟩)
  · cases c with
    | inspect | updateSnapshot | recordError | mutate => cases hc
    | _ => rfl
  · rfl

/-- Reconciliation ticks, edits and blind programs, one after the other. -/
inductive Routine : {α : Type} → Daemon α → Prop
  | blind {α : Type} {p : Daemon α} (h : Blind p) : Routine p
  | tick : Routine state.runReconciliationTick
  | edit (request : EditRequest) : Routine (Daemon.mutate request)
  | bind {α β : Type} {p : Daemon α} {f : α → Daemon β} (hp : Routine p)
      (hf : ∀ a, Routine (f a)) : Routine (p >>= f)

namespace Routine

variable {state} {codec : Codec}

theorem done {α : Type} (a : α) : state.Routine (pure a : Daemon α) :=
  .blind trivial

theorem of_within {areas : List Area} {α : Type} {p : Daemon α} (hp : Within areas p)
    (hreconciliation : Area.reconciliation ∉ areas) (hgovernance : Area.governance ∉ areas) :
    state.Routine p :=
  .blind (blind_of_within hp hreconciliation hgovernance)

theorem decide (request : InferenceRequest) : state.Routine (state.decide request) := by
  have hrefresh : state.Routine state.refresh := by
    refine (blind (Program.ensures_perform rfl fun _ _ => trivial)).bind fun stale => ?_
    split
    · exact tick
    · exact done ()
  refine hrefresh.bind fun _ => ?_
  refine (of_within within_getSnapshots (by decide) (by decide)).bind fun snapshots => ?_
  exact .blind (blind_decideOn state request snapshots)

/-- Every operation of the daemon is a routine. -/
theorem perform (operation : Operation) : state.Routine (state.perform codec operation) := by
  cases operation with
  | decide request => exact (decide request).bind fun _ => done ()
  | execute request =>
      refine Routine.bind ((decide request).bind fun decided => ?_) fun _ => done ()
      cases decided with
      | error e => exact done _
      | ok d => exact of_within (state.within_executeDecision d) (by decide) (by decide)
  | chatCompletions body =>
      refine Routine.bind ?_ fun _ => done ()
      unfold AppState.chatCompletions
      split
      · exact done _
      · dsimp only
        split
        · exact done _
        · refine (blind (Program.ensures_perform rfl fun _ _ => trivial)).bind fun id => ?_
          split
          · exact done _
          · refine (decide _).bind fun decided => ?_
            cases decided with
            | error e => exact done _
            | ok d =>
                exact of_within (within_completeDecision state codec body _ _ d) (by decide)
                  (by decide)
  | reconciliationTick => exact tick
  | stagingTick => exact of_within state.within_runStagingTick (by decide) (by decide)
  | executePending runtimeId =>
      exact of_within (within_executePendingOn state runtimeId) (by decide) (by decide)
  | executeEvictionPlan plan approved =>
      exact (of_within (within_executeEvictionPlan state plan approved) (by decide)
        (by decide)).bind fun _ => done ()
  | edit request => exact (edit request).bind fun _ => done ()

theorem performAll (operations : List Operation) :
    state.Routine (state.performAll codec operations) := by
  induction operations with
  | nil => exact done ()
  | cons operation rest ih => exact (perform operation).bind fun _ => ih

end Routine

end AppState

end Anemoi
