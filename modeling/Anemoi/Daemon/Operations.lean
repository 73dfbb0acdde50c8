import Anemoi.Daemon.Gateway

/-!
# The operations of a daemon

What a running daemon does is a sequence of operations: requests, ticks and edits.
`performAll` runs such a sequence.

Two kinds of commands matter to what is said of them elsewhere: those that load, unload or
forward on a runtime, and those that change what decisions are based on.
-/

namespace Anemoi

open Systems

inductive Operation where
  | decide (request : InferenceRequest)
  | execute (request : InferenceRequest)
  | chatCompletions (body : Json)
  | reconciliationTick
  | stagingTick
  | executePending (runtimeId : String)
  | executeEvictionPlan (plan : ActionPlan) (approved : Bool)
  | edit (request : EditRequest)

namespace AppState

variable (state : AppState) (codec : Codec)

/-- `execute_pending` on the adapter of a runtime, if there is one. -/
def executePendingOn (runtimeId : String) : Daemon Unit :=
  match state.runtimes.lookup runtimeId with
  | none => return
  | some adapter => StagingWorker.executePending runtimeId adapter

/-- Run an operation; what it answers does not matter here. -/
def perform : Operation → Daemon Unit
  | .decide request => do
      let _ ← state.decide request
  | .execute request => do
      let _ ← state.execute request
  | .chatCompletions body => do
      let _ ← state.chatCompletions codec body
  | .reconciliationTick => state.runReconciliationTick
  | .stagingTick => state.runStagingTick
  | .executePending runtimeId => state.executePendingOn runtimeId
  | .executeEvictionPlan plan approved => do
      let _ ← state.executeEvictionPlan plan approved
  | .edit request => do
      let _ ← Daemon.mutate request

def performAll (operations : List Operation) : Daemon Unit :=
  operations.forM (state.perform codec)

end AppState

/-! ### Kinds of commands -/

namespace Cmd

/-- The runtime that a command loads or unloads on, or forwards to. -/
def mutatedRuntime : Cmd → Option String
  | loadModel runtimeId _ | unloadModel runtimeId _ | forwardChatCompletion runtimeId _ _ =>
      some runtimeId
  | _ => none

/-- The commands that inspect a runtime, write the cache or edit the governance. -/
def affectsDecisions : Cmd → Bool
  | inspect _ | updateSnapshot _ _ | recordError _ _ | mutate _ => true
  | _ => false

end Cmd

namespace AppState

/-! ### Adapters -/

theorem lookup_runtimes (state : AppState) (runtimeId : String) :
    state.runtimes.lookup runtimeId =
      (state.config.runtimes.lookup ⟨runtimeId⟩).map fun config =>
        .ofName config.adapter := by
  have hkeys : ((state.config.runtimes.items.map fun e =>
      (e.1.text, Adapter.ofName e.2.adapter)).map Prod.fst).Nodup := by
    have hinjective : Function.Injective RuntimeId.text := fun a b h => by
      cases a
      cases b
      rw [RuntimeId.mk.injEq]
      exact h
    have hnodup := (AList.nodup_map_fst_items state.config.runtimes).map hinjective
    rw [List.map_map] at hnodup ⊢
    exact hnodup
  ext adapter
  rw [runtimes, AList.lookup_ofList hkeys, List.mem_map, Option.map_eq_some_iff]
  constructor
  · rintro ⟨⟨id, config⟩, hmem, heq⟩
    obtain ⟨rfl, rfl⟩ := Prod.mk.inj heq
    exact ⟨config, AList.mem_items.mp hmem, rfl⟩
  · rintro ⟨config, hlookup, rfl⟩
    exact ⟨(⟨runtimeId⟩, config), AList.mem_items.mpr hlookup, rfl⟩

/-- In a valid configuration only the adapter `mock` builds a mock. -/
theorem isMock_ofName {name : String} (hknown : name ∈ knownRuntimeAdapters)
    (hmock : (Adapter.ofName name).isMock = true) : name = "mock" := by
  simp only [knownRuntimeAdapters, List.mem_cons, List.not_mem_nil, or_false] at hknown
  rcases hknown with rfl | rfl | rfl | rfl | rfl
  · rfl
  all_goals cases hmock

/-- The two ways to ask agree: an adapter of the daemon is a mock only on a runtime that
is configured with `mock`. -/
theorem isMockRuntime_of_isMock {state : AppState} {runtimeId : String} {adapter : Adapter}
    (hadapter : state.runtimes.lookup runtimeId = some adapter)
    (hmock : adapter.isMock = true) : state.isMockRuntime runtimeId = true := by
  rw [lookup_runtimes, Option.map_eq_some_iff] at hadapter
  obtain ⟨config, hconfig, rfl⟩ := hadapter
  have hvalid := (validateConfig_eq_nil_iff.mp state.valid).2.2.2 _ config hconfig
  have hname := isMock_ofName (adapter_mem_of_validateRuntime hvalid) hmock
  rw [isMockRuntime, runtimeAdapterType, hconfig, Option.map_some, hname]
  decide

end AppState

end Anemoi
