import Anemoi.Daemon.Provenance

/-!
# The live-execution gate

With live execution disabled no operation of the daemon loads a model on a runtime,
unloads one or forwards a request to it, unless the runtime is configured with the mock
adapter. Every handler and tick carries its own copy of the check, and an intent that one
of them queues is executed by another; each copy is part of the reason that a command has
(`OpenTo`), so it holds on its own, whatever is in the queue.
-/

namespace Anemoi

open Systems

/-- The answer does not enable live execution. -/
def Denies : (c : Cmd) → c.Resp → Prop
  | .liveExecutionEnabled, enabled => enabled = false
  | _, _ => True

/-- A handler goes by the last answer that it got from the gate. -/
theorem Dossier.live_file {dossier : Dossier} (h : dossier.live = false) {c : Cmd} {r : c.Resp}
    (hr : Denies c r) : (dossier.file ⟨c, r⟩).live = false := by
  cases c with
  | liveExecutionEnabled => exact hr
  | record event => cases event <;> cases r <;> exact h
  | _ => exact h

/-- What mutates a runtime is warranted for a runtime that is open to it. -/
theorem Warranted.openTo {state : AppState} {codec : Codec} {operations : List Operation}
    {intents : StagingIntent → Prop} {dossier : Dossier} {c : Cmd}
    (h : Warranted state codec operations intents dossier c) {runtimeId : String}
    (hmutated : c.mutatedRuntime = some runtimeId) : OpenTo state dossier runtimeId := by
  cases c with
  | loadModel | unloadModel | forwardChatCompletion =>
      cases hmutated
      exact h.1
  | _ => cases hmutated

namespace AppState

/-- While live execution is disabled, only mocks are mutated. -/
theorem respects_performAll {state : AppState} (hstate : state.liveExecute ≠ some true)
    (codec : Codec) (operations : List Operation) :
    Program.Respects Denies
      (fun c => ∀ runtimeId, c.mutatedRuntime = some runtimeId →
        state.isMockRuntime runtimeId = true)
      (state.performAll codec operations) := by
  have hfiles : Files state codec operations (fun _ _ => True) {}
      (state.performAll codec operations) := files_performAll (List.Subset.refl _) {}
  refine hfiles.respects_of (J := fun q => q.live = false) rfl (fun _ _ _ => trivial)
    (fun q c r hq hr => Dossier.live_file hq hr) fun q c hq hc runtimeId hmutated => ?_
  rcases hc.openTo hmutated with hmock | hexecute | hlive
  · exact hmock
  · exact absurd hexecute hstate
  · rw [hq] at hlive
    cases hlive

/-- In every run of operations with live execution disabled, in any order and from any
state, only runtimes with the mock adapter are mutated or forwarded to. -/
theorem liveExecutionGate (state : AppState) (codec : Codec) (env : ℕ → Surroundings)
    (w : World) (operations : List Operation) (hstate : state.liveExecute ≠ some true)
    (henv : ∀ t, (env t).liveExecutionEnabled = false) :
    ∀ e ∈ ((state.performAll codec operations).run (handle codec env) w).trace,
      ∀ runtimeId, e.1.mutatedRuntime = some runtimeId →
        state.runtimeAdapterType runtimeId = some "mock" := by
  intro e he runtimeId hmutated
  have hdenies : ∀ s c, Denies c (handle codec env s c).1 := by
    intro s c
    cases c with
    | liveExecutionEnabled => exact henv s.clock
    | _ => exact trivial
  have hmock := Program.forall_mem_trace (respects_performAll hstate codec operations) hdenies w
    e he runtimeId hmutated
  exact of_decide_eq_true hmock

/-! ### A run behind the gate -/

/-- Both runtimes answer, and the small model is hot on each. -/
def answering : Surroundings :=
  { (default : Surroundings) with inspect := fun r => hotAnswer r ["qwen9b"] }

/-- Everything a daemon may be asked to do, also on the runtime that is not a mock. -/
def mixedOperations : List Operation :=
  [.decide codingRequest, .executePending "b", .stagingTick, .reconciliationTick,
   .edit (.patchRoster "large" { pinned := some true }), .execute codingRequest,
   .chatCompletions .null,
   .executeEvictionPlan
     { decisionId := ⟨0⟩
       actions := ["a", "b"].map fun runtimeId =>
         { kind := .unload, runtimeId := ⟨runtimeId⟩, modelId := some ⟨"qwen9b"⟩
           isForeground := false, isMutating := true, reason := "idle"
           expectedCostMs := none }
       dryRun := false } true]

def mixedTrace : History :=
  ((twoRuntimes.performAll default mixedOperations).run (handle default fun _ => answering)
    twoRuntimesStart).trace

/-- The mock loads and unloads, and nothing else does. -/
theorem liveExecutionGate_mixedTrace :
    (mixedTrace.filterMap fun e => e.1.mutatedRuntime) = ["a", "a", "a"] ∧
      ∀ e ∈ mixedTrace, ∀ runtimeId, e.1.mutatedRuntime = some runtimeId →
        twoRuntimes.runtimeAdapterType runtimeId = some "mock" :=
  ⟨by decide +kernel,
    liveExecutionGate twoRuntimes default (fun _ => answering) twoRuntimesStart
      mixedOperations (by decide) fun _ => rfl⟩

end AppState

end Anemoi
