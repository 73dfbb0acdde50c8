import Anemoi.Daemon.Decisions
import Anemoi.Daemon.Operations
import Anemoi.Systems.Pool

/-!
# Terminal staging states

The staging worker is shared: a staging tick, an executor of pending intents and the
readiness path may run at the same time. An executor reads the pending intents, calls the
runtime, and stores the outcome afterwards; `updateState` stores it whatever has become of
the intent in between.

`terminalKept_iff` says of every interleaving exactly when completed and failed intents
keep their state and error: when no outcome is stored for an intent that has another one
already. `lateFailure` is a pool of threads for which this goes wrong.
-/

namespace Anemoi

open Systems

/-- The calls that may overlap. -/
inductive StagingCall where
  | queueIntent (decisionId : Uuid) (foregroundModel : Option ModelId)
      (backgroundModel : ModelId) (targetRuntime : RuntimeId) (reason : String)
      (pendingContext : Option String) (runnable : Bool)
  | reconcileReady (readyModels : List ModelId)
  | stagingTick
  | executePending (runtimeId : String)

/-- Queue an intent, with a fresh id and the current time. -/
def StagingWorker.queueIntent (decisionId : Uuid) (foregroundModel : Option ModelId)
    (backgroundModel : ModelId) (targetRuntime : RuntimeId) (reason : String)
    (pendingContext : Option String) (runnable : Bool) : Daemon StagingIntent := do
  let stamp ← Daemon.stamp
  let intent := StagingIntent.queued stamp decisionId foregroundModel backgroundModel
    targetRuntime reason pendingContext runnable
  Daemon.enqueue intent
  return intent

def AppState.stagingCall (state : AppState) : StagingCall → Daemon Unit
  | .queueIntent decisionId foregroundModel backgroundModel targetRuntime reason
      pendingContext runnable => do
      let _ ← StagingWorker.queueIntent decisionId foregroundModel backgroundModel
        targetRuntime reason pendingContext runnable
  | .reconcileReady readyModels => do
      let _ ← Daemon.reconcileReady readyModels
  | .stagingTick => state.runStagingTick
  | .executePending runtimeId => state.executePendingOn runtimeId

namespace StagingWorker

/-- The terminal intents of the first queue have the same state and error in the second. -/
def TerminalKept (worker later : StagingWorker) : Prop :=
  ∀ (n : ℕ) (intent : StagingIntent), worker.queue[n]? = some intent →
    intent.state.isTerminal = true →
    ∃ intent', later.queue[n]? = some intent' ∧ intent'.state = intent.state ∧
      intent'.lastError = intent.lastError

namespace TerminalKept

theorem refl (worker : StagingWorker) : TerminalKept worker worker :=
  fun _ intent h _ => ⟨intent, h, rfl, rfl⟩

theorem trans {a b c : StagingWorker} (hab : TerminalKept a b) (hbc : TerminalKept b c) :
    TerminalKept a c := by
  intro n intent h hterminal
  obtain ⟨intent', h', hstate', herror'⟩ := hab n intent h hterminal
  obtain ⟨intent'', h'', hstate'', herror''⟩ := hbc n intent' h' (hstate' ▸ hterminal)
  exact ⟨intent'', h'', hstate''.trans hstate', herror''.trans herror'⟩

end TerminalKept

theorem terminalKept_enqueue (worker : StagingWorker) (intent : StagingIntent) :
    TerminalKept worker (worker.enqueue intent) := by
  intro n i h _
  have hlt := (List.getElem?_eq_some_iff.mp h).1
  exact ⟨i, (List.getElem?_append_left hlt).trans h, rfl, rfl⟩

theorem terminalKept_noteTick (worker : StagingWorker) (intentId : Uuid)
    (skipReason : Option String) : TerminalKept worker (worker.noteTick intentId skipReason) := by
  intro n i h _
  rcases getElem?_updateFirst (p := fun i => i.id = intentId)
    (f := fun i => i.noteTick skipReason) h with hsame | ⟨-, hchanged⟩
  · exact ⟨i, hsame, rfl, rfl⟩
  · exact ⟨_, hchanged, rfl, rfl⟩

theorem terminalKept_takeContextRef (worker : StagingWorker) (model : ModelId) :
    TerminalKept worker (worker.takeContextRefForBackground model).2 := by
  intro n i h _
  rcases getElem?_updateFirst (p := fun i => i.backgroundModel = model && i.contextRef.isSome)
    (f := fun i => { i with contextRef := none }) h with hsame | ⟨-, hchanged⟩
  · exact ⟨i, hsame, rfl, rfl⟩
  · exact ⟨_, hchanged, rfl, rfl⟩

/-- Readiness completes pending intents only. -/
theorem terminalKept_reconcileReady (worker : StagingWorker) (readyModels : List ModelId) :
    TerminalKept worker (worker.reconcileReady readyModels).2 := by
  intro n i h hterminal
  have hnotready : (i.state = .pending && readyModels.contains i.backgroundModel) = false := by
    cases hstate : i.state <;> simp_all [StagingState.isTerminal]
  refine ⟨i, ?_, rfl, rfl⟩
  simp only [reconcileReady, List.getElem?_map, h, Option.map_some, hnotready]
  rfl

theorem state_commitOne (drainingModels : List ModelId) (now : DateTime)
    (cache : EscalationContextCache) (intent : StagingIntent) :
    (commitOne drainingModels now cache intent).1.state = intent.state ∧
      (commitOne drainingModels now cache intent).1.lastError = intent.lastError := by
  unfold commitOne
  dsimp only
  split
  · split <;> exact ⟨rfl, rfl⟩
  · exact ⟨rfl, rfl⟩

theorem terminalKept_commit (worker : StagingWorker) (drainingModels : List ModelId)
    (cache : EscalationContextCache) (now : DateTime) :
    TerminalKept worker (worker.commitEvictionContext drainingModels cache now).2.1 := by
  have hall : ∀ (queue : List StagingIntent) (cache : EscalationContextCache) (n : ℕ)
      (i : StagingIntent), queue[n]? = some i →
      ∃ i', (commitAll drainingModels now cache queue).1[n]? = some i' ∧
        i'.state = i.state ∧ i'.lastError = i.lastError := by
    intro queue
    induction queue with
    | nil =>
        intro cache n i h
        cases h
    | cons first rest ih =>
        intro cache n i h
        rw [commitAll]
        cases n with
        | zero =>
            obtain rfl : first = i := Option.some.inj h
            exact ⟨_, rfl, state_commitOne drainingModels now cache first⟩
        | succ n => exact ih _ n i h
  intro n i h _
  exact hall worker.queue cache n i h

/-- Storing an outcome for an intent that has none, or has this one. -/
def StoresFirst (worker : StagingWorker) (intentId : Uuid) (newState : StagingState)
    (error : Option String) : Prop :=
  ∀ intent, worker.queue.find? (fun i => i.id = intentId) = some intent →
    intent.state.isTerminal = true →
    intent.state = newState ∧ (newState = .failed → intent.lastError = some (error.getD ""))

/-- What `updateState` makes of the intent it finds. -/
def stored (newState : StagingState) (error : Option String) (intent : StagingIntent) :
    StagingIntent :=
  match newState with
  | .pending => intent.markPending
  | .completed => intent.markCompleted
  | .failed => intent.markFailed (error.getD "")
  | .blocked => { intent with state := .blocked }

theorem queue_updateState (worker : StagingWorker) (intentId : Uuid)
    (newState : StagingState) (error : Option String) :
    (worker.updateState intentId newState error).queue =
      updateFirst (fun i => i.id = intentId) (stored newState error) worker.queue := rfl

theorem stored_iff {newState : StagingState} {error : Option String} {intent : StagingIntent} :
    (stored newState error intent).state = intent.state ∧
        (stored newState error intent).lastError = intent.lastError ↔
      intent.state = newState ∧
        (newState = .failed → intent.lastError = some (error.getD "")) := by
  cases newState <;>
    simp [stored, StagingIntent.markPending, StagingIntent.markCompleted,
      StagingIntent.markFailed, eq_comm]

theorem terminalKept_updateState_iff (worker : StagingWorker) (intentId : Uuid)
    (newState : StagingState) (error : Option String) :
    TerminalKept worker (worker.updateState intentId newState error) ↔
      worker.StoresFirst intentId newState error := by
  constructor
  · intro hkept intent hfind hterminal
    obtain ⟨n, hn, hn'⟩ := exists_getElem?_updateFirst hfind (stored newState error)
    obtain ⟨intent', hintent', hsame⟩ := hkept n intent hn hterminal
    rw [queue_updateState, hn', Option.some.injEq] at hintent'
    exact stored_iff.mp (hintent' ▸ hsame)
  · intro hfirst n intent hn hterminal
    rcases getElem?_updateFirst (p := fun i => i.id = intentId) (f := stored newState error) hn
      with hsame | ⟨hfind, hchanged⟩
    · exact ⟨intent, hsame, rfl, rfl⟩
    · exact ⟨_, hchanged, stored_iff.mpr (hfirst intent hfind hterminal)⟩

end StagingWorker

open StagingWorker

/-! ### Interleavings -/

/-- The command stores an outcome, if at all, for an intent that has no other. -/
def Cmd.StoresFirst (worker : StagingWorker) : Cmd → Prop
  | updateState intentId newState error => worker.StoresFirst intentId newState error
  | _ => True

/-- What one command does to the terminal intents. -/
theorem terminalKept_handle_iff (codec : Codec) (env : ℕ → Surroundings) (w : World)
    (c : Cmd) :
    TerminalKept w.stagingWorker (handle codec env w c).2.stagingWorker ↔
      c.StoresFirst w.stagingWorker := by
  cases c with
  | updateState intentId newState error => exact terminalKept_updateState_iff _ _ _ _
  | enqueue intent => exact iff_of_true (terminalKept_enqueue _ intent) trivial
  | noteTick intentId reason => exact iff_of_true (terminalKept_noteTick _ _ reason) trivial
  | reconcileReady models => exact iff_of_true (terminalKept_reconcileReady _ models) trivial
  | commitEvictionContext models =>
      exact iff_of_true (terminalKept_commit _ models _ _) trivial
  | takeContextRef model => exact iff_of_true (terminalKept_takeContextRef _ model) trivial
  | _ => exact iff_of_true (TerminalKept.refl _) trivial

/-- The threads of some calls, over a daemon's state. -/
def AppState.overlapping (state : AppState) (calls : List StagingCall) (w : World) :
    Pool Cmd Cmd.Resp Unit World :=
  ⟨calls.map state.stagingCall, w⟩

section Run

variable {codec : Codec} {env : ℕ → Surroundings}

/-- The state after some steps of a schedule. -/
abbrev afterSteps (codec : Codec) (env : ℕ → Surroundings)
    (pool : Pool Cmd Cmd.Resp Unit World) (schedule : List ℕ) : StagingWorker :=
  (Machine.runFrom (Pool.step (handle codec env)) pool schedule).shared.stagingWorker

theorem terminalKept_step_iff (pool : Pool Cmd Cmd.Resp Unit World) (i : ℕ) :
    TerminalKept pool.shared.stagingWorker
        (Pool.step (handle codec env) pool i).2.shared.stagingWorker ↔
      ∀ e ∈ (Pool.step (handle codec env) pool i).1,
        e.1.StoresFirst pool.shared.stagingWorker := by
  rcases Pool.shared_step (handle codec env) pool i with ⟨hnone, hsame⟩ | ⟨c, hevent, hshared⟩
  · rw [hnone, hsame]
    exact iff_of_true (TerminalKept.refl _) fun e he => absurd he (Option.not_mem_none e)
  · rw [hevent, hshared, terminalKept_handle_iff]
    simp

/-- In every interleaving of staging calls, completed and failed intents keep their state
and their error for good exactly when no outcome is ever stored for an intent that has
another one already. -/
theorem terminalKept_iff (state : AppState) (codec : Codec) (env : ℕ → Surroundings)
    (calls : List StagingCall) (w : World) (schedule : List ℕ) :
    let start := state.overlapping calls w
    (∀ before later after, schedule = before ++ later ++ after →
      TerminalKept (afterSteps codec env start before)
        (afterSteps codec env start (before ++ later))) ↔
    ∀ r ∈ Machine.logFrom (Pool.step (handle codec env)) start schedule,
      ∀ e ∈ r.output, e.1.StoresFirst r.before.shared.stagingWorker := by
  intro start
  constructor
  · intro hkept r hr
    obtain ⟨before, i, after, rfl, rfl⟩ := (Machine.mem_logFrom_iff _).mp hr
    have hstep := hkept before [i] after (by simp)
    rw [afterSteps, afterSteps, Machine.runFrom_append] at hstep
    exact (terminalKept_step_iff _ i).mp hstep
  · rintro hfirst before later after rfl
    rw [afterSteps, afterSteps, Machine.runFrom_append]
    apply Machine.rel_runFrom (Pool.step (handle codec env))
      (R := fun a b => TerminalKept a.shared.stagingWorker b.shared.stagingWorker)
      (fun a => TerminalKept.refl _) (fun a b c => TerminalKept.trans)
    intro r hr
    rw [Machine.eq_record_of_mem_logFrom _ hr]
    apply (terminalKept_step_iff _ _).mpr
    have hlog : r ∈ Machine.logFrom (Pool.step (handle codec env)) start
        (before ++ later ++ after) := by
      rw [Machine.logFrom_append, Machine.logFrom_append]
      exact List.mem_append_left _ (List.mem_append_right _ hr)
    have hr' := hfirst r hlog
    rw [Machine.eq_record_of_mem_logFrom _ hr] at hr'
    exact hr'

end Run

/-! ### A late failure -/

/-- Live execution is enabled, and loads time out. -/
def loadsTimeOut (_ : ℕ) : Surroundings :=
  { (default : Surroundings) with
    liveExecutionEnabled := true
    loadModel := fun _ _ => .error "timed out" }

/-- An intent is queued, a staging tick takes it up, and its model becomes ready while the
load is under way. -/
def lateFailure : Pool Cmd Cmd.Resp Unit World :=
  AppState.twoRuntimes.overlapping
    [.queueIntent ⟨7⟩ none ⟨"qwen70b"⟩ ⟨"b"⟩ "staged" none true, .stagingTick,
      .reconcileReady [⟨"qwen70b"⟩]]
    AppState.twoRuntimesStart

/-- The intent is completed by the readiness path; then the tick stores that its load
failed. -/
theorem not_terminalKept_lateFailure :
    (afterSteps default loadsTimeOut lateFailure [0, 0, 0, 1, 1, 1, 1, 1, 1, 2]).queue.map
        (fun i => (i.state, i.lastError)) = [(.completed, none)] ∧
      (afterSteps default loadsTimeOut lateFailure
        ([0, 0, 0, 1, 1, 1, 1, 1, 1, 2] ++ [1])).queue.map
        (fun i => (i.state, i.lastError)) = [(.failed, some "timed out")] ∧
      ¬TerminalKept
        (afterSteps default loadsTimeOut lateFailure [0, 0, 0, 1, 1, 1, 1, 1, 1, 2])
        (afterSteps default loadsTimeOut lateFailure
          ([0, 0, 0, 1, 1, 1, 1, 1, 1, 2] ++ [1])) := by
  have hbefore : (afterSteps default loadsTimeOut lateFailure
      [0, 0, 0, 1, 1, 1, 1, 1, 1, 2]).queue.map (fun i => (i.state, i.lastError)) =
        [(.completed, none)] := by
    decide +kernel
  have hafter : (afterSteps default loadsTimeOut lateFailure
      ([0, 0, 0, 1, 1, 1, 1, 1, 1, 2] ++ [1])).queue.map (fun i => (i.state, i.lastError)) =
        [(.failed, some "timed out")] := by
    decide +kernel
  refine ⟨hbefore, hafter, fun hkept => ?_⟩
  obtain ⟨intent, hqueue, hstate⟩ := List.map_eq_singleton_iff.mp hbefore
  obtain ⟨intent', hqueue', hstate'⟩ := List.map_eq_singleton_iff.mp hafter
  obtain ⟨hstate, -⟩ := Prod.mk.inj hstate
  obtain ⟨hstate', -⟩ := Prod.mk.inj hstate'
  obtain ⟨i, hi, hsame, -⟩ := hkept 0 intent (by rw [hqueue]; rfl) (by rw [hstate]; rfl)
  rw [hqueue'] at hi
  obtain rfl : intent' = i := Option.some.inj hi
  rw [hstate, hstate'] at hsame
  cases hsame

end Anemoi
