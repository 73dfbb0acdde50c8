import Anemoi.Daemon.Calls
import Anemoi.Systems.Machine

/-!
# What a failed decision leaves behind

`decide` queues the load that it stages before it writes the staging status and the
decision to the log, and either write may fail. Then the caller gets an error, and the
intent stays in the queue. A call leaves nothing behind when it fails exactly if the log
accepts both writes of what it would stage; a run of such calls queues intents of recorded
decisions only.
-/

namespace Anemoi

open Systems

namespace AppState

/-- What the scheduler is asked with: the snapshots, and the stamp of the decision. -/
def prepareDecision (state : AppState) : Daemon (List RuntimeSnapshot × Stamp) := do
  let snapshots ← state.readSnapshots
  let _ ← Daemon.effective
  let stamp ← Daemon.stamp
  return (snapshots, stamp)

/-- The log accepts the status of the intent at the command `n`, and the decision next. -/
structure Accepts (env : ℕ → Surroundings) (n : ℕ) (intent : StagingIntent) (d : Decision) :
    Prop where
  status : (env n).record (statusEvent intent) = .ok ()
  decision : (env (n + 1)).record (.recordDecision d) = .ok ()

section Commit

variable {state : AppState} {codec : Codec} {env : ℕ → Surroundings}
  {request : InferenceRequest} {d : Decision} {w : World}

/-- A decision that stages a load fails unless the log accepts both writes, and has queued
its intent either way. -/
theorem commitDecision_staged {runtimeId : RuntimeId} {background : ModelId}
    (haction : d.action = .stageBackground) (hruntime : d.selectedRuntime = some runtimeId)
    (hbackground : d.backgroundModel = some background) :
    let prepared := (state.prepareIntent request d runtimeId background).run (handle codec env) w
    let committed := (state.commitDecision request d).run (handle codec env) w
    committed.state.stagingWorker.queue = w.stagingWorker.queue ++ [prepared.result] ∧
      ((∃ e, committed.result = .error e) ↔
        ¬Accepts env (prepared.state.clock + 1) prepared.result d) := by
  intro prepared committed
  obtain ⟨hstatus, hqueue, hclock⟩ := @queueStage_staged state codec env request d w runtimeId
    background haction hruntime hbackground
  constructor
  · rw [← hqueue]
    exact congrArg StagingWorker.queue stagingWorker_commitDecision
  · have hwrite : ∀ w' : World, ((Daemon.record (.recordDecision d)).run
        (handle codec env) w').result = (env w'.clock).record (.recordDecision d) := fun _ => rfl
    simp only [committed, commitDecision, Program.result_bind]
    cases hqueued : ((state.queueStage request d).run (handle codec env) w).result with
    | error e =>
        rw [hqueued] at hstatus
        refine ⟨fun _ haccepts => ?_, fun _ => ⟨e, rfl⟩⟩
        rw [haccepts.status] at hstatus
        cases hstatus
    | ok _ =>
        rw [hqueued] at hstatus
        simp only [Program.result_bind, hwrite, hclock]
        cases hdecision : (env (prepared.state.clock + 2)).record (.recordDecision d) with
        | error e =>
            refine ⟨fun _ haccepts => ?_, fun _ => ⟨e, rfl⟩⟩
            rw [haccepts.decision] at hdecision
            cases hdecision
        | ok _ =>
            refine ⟨?_, fun hrefuses => absurd ⟨hstatus.symm, hdecision⟩ hrefuses⟩
            rintro ⟨e, he⟩
            cases he

theorem within_prepareDecision (state : AppState) :
    Within [.ambient, .reconciliation] state.prepareDecision :=
  state.within_readSnapshots.bind fun _ =>
    (within_effective.mono (by decide)).bind fun _ =>
      (within_stamp.mono (by decide)).bind fun _ => .pure _

/-- A decision is what the scheduler in force answers, committed. -/
theorem decide_prepared (request : InferenceRequest) :
    let prepared := state.prepareDecision.run (handle codec env) w
    let decided := (match w.governance.effective.scheduler.decide request prepared.result.1
        prepared.result.2 with
      | .error e => pure (.error (toString e))
      | .ok d => state.commitDecision request d : Daemon (Except String Decision)).run
        (handle codec env) prepared.state
    ((state.decide request).run (handle codec env) w).result = decided.result ∧
      ((state.decide request).run (handle codec env) w).state = decided.state := by
  have hgovernance := governance_run codec env state.within_readSnapshots (by decide) w
  rw [run_decide]
  simp only [prepareDecision, decideOn, Program.result_bind, Program.state_bind, Program.run_pure]
  generalize state.readSnapshots.run (handle codec env) w = read at hgovernance ⊢
  rw [← hgovernance]
  exact ⟨rfl, rfl⟩

end Commit

/-- If the scheduler answers with a load to stage, the log accepts both writes. -/
def StagesOnlyIfLogged (state : AppState) (codec : Codec) (env : ℕ → Surroundings)
    (request : InferenceRequest) (w : World) : Prop :=
  let asked := state.prepareDecision.run (handle codec env) w
  ∀ d runtimeId background,
    w.governance.effective.scheduler.decide request asked.result.1 asked.result.2 = .ok d →
    d.action = .stageBackground → d.selectedRuntime = some runtimeId →
    d.backgroundModel = some background →
    let prepared :=
      (state.prepareIntent request d runtimeId background).run (handle codec env) asked.state
    Accepts env (prepared.state.clock + 1) prepared.result d

/-- A call that fails leaves the queue as it was. -/
def LeavesNothing (state : AppState) (codec : Codec) (env : ℕ → Surroundings)
    (request : InferenceRequest) (w : World) : Prop :=
  let decided := (state.decide request).run (handle codec env) w
  ∀ e, decided.result = .error e → decided.state.stagingWorker.queue = w.stagingWorker.queue

section Leftovers

variable {state : AppState} {codec : Codec} {env : ℕ → Surroundings}
  {request : InferenceRequest} {d : Decision} {w : World}

theorem queue_commitDecision_unstaged (hunstaged : ¬(d.action = .stageBackground ∧
      ∃ runtimeId background, d.selectedRuntime = some runtimeId ∧
        d.backgroundModel = some background)) :
    ((state.commitDecision request d).run (handle codec env) w).state.stagingWorker.queue =
      w.stagingWorker.queue := by
  rw [stagingWorker_commitDecision]
  rcases state.queueStage_cases codec env request d w with hsame | ⟨intent, -, -, -, hstages⟩
  · exact hsame
  · exact absurd ⟨hstages.action, _, _, hstages.selectedRuntime, hstages.backgroundModel⟩
      hunstaged

theorem leavesNothing_iff :
    LeavesNothing state codec env request w ↔ StagesOnlyIfLogged state codec env request w := by
  have hworker := stagingWorker_run codec env (within_prepareDecision state) (by decide) w
  obtain ⟨hresult, hstate⟩ := @decide_prepared state codec env w request
  unfold LeavesNothing StagesOnlyIfLogged
  dsimp only
  rw [hresult, hstate, ← hworker]
  generalize state.prepareDecision.run (handle codec env) w = asked
  cases hdecide : w.governance.effective.scheduler.decide request asked.result.1
      asked.result.2 with
  | error e =>
      constructor
      · intro _ d runtimeId background hd
        cases hd
      · intro _ _ _
        rfl
  | ok d =>
      dsimp only
      by_cases hstaged : d.action = .stageBackground ∧ ∃ runtimeId background,
          d.selectedRuntime = some runtimeId ∧ d.backgroundModel = some background
      · obtain ⟨haction, runtimeId, background, hruntime, hbackground⟩ := hstaged
        -- the queue has grown, so nothing may be left to fail
        obtain ⟨hqueue, herror⟩ := @commitDecision_staged state codec env request d asked.state
          runtimeId background haction hruntime hbackground
        constructor
        · intro hnothing d' runtimeId' background' hd _ hruntime' hbackground'
          cases hd
          rw [hruntime, Option.some.injEq] at hruntime'
          rw [hbackground, Option.some.injEq] at hbackground'
          subst hruntime' hbackground'
          by_contra hrefuses
          obtain ⟨e, he⟩ := herror.mpr hrefuses
          rw [hnothing e he] at hqueue
          exact List.cons_ne_nil _ _ (List.self_eq_append_right.mp hqueue)
        · intro haccepts e he
          exact absurd (haccepts d runtimeId background rfl haction hruntime hbackground)
            (herror.mp ⟨e, he⟩)
      · constructor
        · rintro - d' runtimeId background hd haction hruntime hbackground
          cases hd
          exact absurd ⟨haction, runtimeId, background, hruntime, hbackground⟩ hstaged
        · intro _ _ _
          exact queue_commitDecision_unstaged hstaged

/-! ### Runs of decisions -/

theorem recorded_commitDecision {decision : Decision}
    (h : ((state.commitDecision request decision).run (handle codec env) w).result = .ok d) :
    ⟨.record (.recordDecision d), .ok ()⟩ ∈
      ((state.commitDecision request decision).run (handle codec env) w).trace := by
  rw [commitDecision, Program.result_bind] at h
  rw [commitDecision, Program.trace_bind]
  split at h
  · cases h
  · refine List.mem_append_right _ ?_
    generalize ((state.queueStage request decision).run (handle codec env) w).state = w' at h ⊢
    have hresult : ((Daemon.record (.recordDecision decision)).run (handle codec env) w').result =
        (env w'.clock).record (.recordDecision decision) := rfl
    have htrace : ((Daemon.record (.recordDecision decision)).run (handle codec env) w').trace =
        [⟨.record (.recordDecision decision),
          (env w'.clock).record (.recordDecision decision)⟩] := rfl
    rw [Program.result_bind, hresult] at h
    rw [Program.trace_bind, htrace]
    refine List.mem_append_left _ ?_
    cases hrecorded : (env w'.clock).record (.recordDecision decision) with
    | error e =>
        rw [hrecorded] at h
        cases h
    | ok _ =>
        rw [hrecorded] at h
        cases h
        exact List.mem_cons_self

/-- A decision that is answered was recorded. -/
theorem recorded_decide
    (h : ((state.decide request).run (handle codec env) w).result = .ok d) :
    ⟨.record (.recordDecision d), .ok ()⟩ ∈
      ((state.decide request).run (handle codec env) w).trace := by
  rw [run_decide] at h ⊢
  dsimp only at h ⊢
  refine List.mem_append_right _ ?_
  generalize state.readSnapshots.run (handle codec env) w = read at h ⊢
  simp only [decideOn, Program.result_bind, Program.trace_bind] at h ⊢
  refine List.mem_append_right _ (List.mem_append_right _ ?_)
  split at h
  · cases h
  · exact recorded_commitDecision h

end Leftovers

/-- One call of `decide`; its outcome is its output. -/
def decideStep (state : AppState) (codec : Codec) (env : ℕ → Surroundings) (w : World)
    (request : InferenceRequest) :
    Program.Outcome Cmd.Resp (Except String Decision) World × World :=
  let decided := (state.decide request).run (handle codec env) w
  (decided, decided.state)

/-- One step of a run of decisions. -/
abbrev DecideRecord :=
  Record World InferenceRequest (Program.Outcome Cmd.Resp (Except String Decision) World)

/-- In the step the log accepted a decision of this id. -/
def Recorded (r : DecideRecord) (id : Uuid) : Prop :=
  ∃ d : Decision, d.id = id ∧ ⟨.record (.recordDecision d), .ok ()⟩ ∈ r.output.trace

section Runs

variable {state : AppState} {codec : Codec} {env : ℕ → Surroundings}

/-- A call that stages only what is logged queues the intent of a recorded decision. -/
theorem recorded_of_mem_queue {request : InferenceRequest} {w : World}
    (hlogged : StagesOnlyIfLogged state codec env request w) {intent : StagingIntent}
    (hintent : intent ∈ (state.decideStep codec env w request).2.stagingWorker.queue) :
    intent ∈ w.stagingWorker.queue ∨
      Recorded (Machine.record (state.decideStep codec env) w request) intent.decisionId := by
  have hnothing := leavesNothing_iff.mpr hlogged
  rcases state.queuesAtMostOne_decide codec env request w with
    hsame | ⟨added, -, -, -, hqueue, hstages⟩
  · exact .inl (hsame ▸ hintent)
  · rcases List.mem_append.mp (hqueue ▸ hintent : intent ∈ w.stagingWorker.queue ++ [added]) with
      hold | hnew
    · exact .inl hold
    · cases hresult : ((state.decide request).run (handle codec env) w).result with
      | error e =>
          rw [hnothing e hresult] at hqueue
          exact absurd (List.self_eq_append_right.mp hqueue) (List.cons_ne_nil _ _)
      | ok d =>
          rw [List.mem_singleton.mp hnew]
          exact .inr ⟨d, ((hstages d hresult).decisionId).symm, recorded_decide hresult⟩

/-- Over a run of such calls, every intent in the queue is that of a recorded decision. -/
theorem recorded_of_mem_queue_runFrom {requests : List InferenceRequest} {w : World}
    (hlogged : ∀ r ∈ Machine.logFrom (state.decideStep codec env) w requests,
      StagesOnlyIfLogged state codec env r.input r.before) {intent : StagingIntent}
    (hintent : intent ∈ (Machine.runFrom (state.decideStep codec env) w
      requests).stagingWorker.queue) :
    intent ∈ w.stagingWorker.queue ∨
      ∃ r ∈ Machine.logFrom (state.decideStep codec env) w requests,
        Recorded r intent.decisionId := by
  induction requests generalizing w with
  | nil => exact .inl hintent
  | cons request requests ih =>
      rw [Machine.logFrom_cons, List.forall_mem_cons] at hlogged
      rw [Machine.logFrom_cons]
      rcases ih hlogged.2 hintent with hold | ⟨r, hr, hrecorded⟩
      · rcases recorded_of_mem_queue hlogged.1 hold with hold | hrecorded
        · exact .inl hold
        · exact .inr ⟨_, List.mem_cons_self, hrecorded⟩
      · exact .inr ⟨r, List.mem_cons_of_mem _ hr, hrecorded⟩

end Runs

/-- A call leaves nothing behind when it fails exactly if it stages only what is logged;
over every run of such calls, every intent that is queued is that of a recorded decision. -/
theorem leavesNothing_decide (state : AppState) (codec : Codec) (env : ℕ → Surroundings) :
    (∀ request w, LeavesNothing state codec env request w ↔
      StagesOnlyIfLogged state codec env request w) ∧
    ∀ requests w, (∀ r ∈ Machine.logFrom (state.decideStep codec env) w requests,
        StagesOnlyIfLogged state codec env r.input r.before) →
      ∀ intent ∈ (Machine.runFrom (state.decideStep codec env) w requests).stagingWorker.queue,
        intent ∈ w.stagingWorker.queue ∨
          ∃ r ∈ Machine.logFrom (state.decideStep codec env) w requests,
            Recorded r intent.decisionId :=
  ⟨fun _ _ => leavesNothing_iff, fun _ _ hlogged _ hintent =>
    recorded_of_mem_queue_runFrom hlogged hintent⟩

/-- The small model is hot, and the log accepts everything. -/
def acceptsEverything (n : ℕ) : Surroundings :=
  { (default : Surroundings) with
    newUuid := ⟨n⟩
    inspect := fun r => hotAnswer r (if r = "a" then ["qwen9b"] else []) }

/-- Two calls queue the large model, each for a decision of its own. -/
theorem leavesNothing_decide_acceptsEverything :
    let step := twoRuntimes.decideStep default acceptsEverything
    let requests := [codingRequest, codingRequest]
    let last := Machine.runFrom step twoRuntimesStart requests
    last.stagingWorker.queue.map StagingIntent.backgroundModel = [⟨"qwen70b"⟩, ⟨"qwen70b"⟩] ∧
      ∀ intent ∈ last.stagingWorker.queue, intent ∈ twoRuntimesStart.stagingWorker.queue ∨
        ∃ r ∈ Machine.logFrom step twoRuntimesStart requests, Recorded r intent.decisionId :=
  ⟨by decide +kernel, (leavesNothing_decide twoRuntimes default acceptsEverything).2
    [codingRequest, codingRequest] twoRuntimesStart fun _ _ _ _ _ _ _ _ _ => ⟨rfl, rfl⟩⟩

/-- Did the log accept a decision? -/
def acceptsDecision : Program.Event Cmd.Resp → Bool
  | ⟨.record (.recordDecision _), .ok _⟩ => true
  | _ => false

/-- The small model is hot, and the log refuses decisions. -/
def refusesDecisions : Surroundings :=
  { (default : Surroundings) with
    inspect := fun r => hotAnswer r (if r = "a" then ["qwen9b"] else [])
    record := fun event =>
      match event with
      | .recordDecision _ => .error "disk full"
      | _ => .ok () }

/-- The call fails, and the large model is queued all the same. -/
theorem not_leavesNothing_refusesDecisions :
    let run := (twoRuntimes.decide codingRequest).run (handle default fun _ => refusesDecisions)
      twoRuntimesStart
    run.result = .error "disk full" ∧
      twoRuntimesStart.stagingWorker.queue = [] ∧
      run.state.stagingWorker.queue.map StagingIntent.backgroundModel = [⟨"qwen70b"⟩] ∧
      ¬LeavesNothing twoRuntimes default (fun _ => refusesDecisions) codingRequest
        twoRuntimesStart ∧
      ∀ intent ∈ run.state.stagingWorker.queue,
        ¬Recorded (Machine.record (twoRuntimes.decideStep default fun _ => refusesDecisions)
          twoRuntimesStart codingRequest) intent.decisionId := by
  intro run
  have hresult : run.result = .error "disk full" := by decide +kernel
  have hqueue : run.state.stagingWorker.queue.map StagingIntent.backgroundModel =
      [⟨"qwen70b"⟩] := by decide +kernel
  refine ⟨hresult, rfl, hqueue, fun hnothing => ?_, fun intent _ => ?_⟩
  · have hsame : run.state.stagingWorker.queue = [] := hnothing _ hresult
    rw [hsame] at hqueue
    cases hqueue
  · rintro ⟨d, -, hevent⟩
    have hnone : run.trace.any acceptsDecision = false := by decide +kernel
    exact absurd rfl (List.any_eq_false.mp hnone _ hevent)

end AppState

end Anemoi
