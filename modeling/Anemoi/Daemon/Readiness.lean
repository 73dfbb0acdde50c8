import Anemoi.Daemon.Decisions

/-!
# Completion by readiness

The readiness step of a staging tick completes the pending intents whose model the cache
reports as ready. It asks for the models that are ready on any runtime, while an intent
stages its model on one. `completesReady_iff` says for which queues and caches the two are
the same: those where no pending intent's model is ready elsewhere only.
-/

namespace Anemoi

open Systems

/-- The snapshot reports the model hot or serving. -/
def ReportsReady (snapshot : RuntimeSnapshot) (model : ModelId) : Prop :=
  ∃ resident ∈ snapshot.residents,
    resident.modelId = model ∧ (resident.state = .hotGpu ∨ resident.state = .serving)

/-- The cache holds a snapshot of the runtime that reports the model hot or serving. -/
def Reconciler.ReadyOn (reconciler : Reconciler) (runtimeId : RuntimeId) (model : ModelId) :
    Prop :=
  ∃ k r, reconciler.cache.lookup k = some r ∧ r.snapshot.runtimeId = runtimeId ∧
    ReportsReady r.snapshot model

/-- The snapshots of the cache are of different runtimes. -/
def Reconciler.DistinctRuntimes (reconciler : Reconciler) : Prop :=
  ∀ k k' r r', reconciler.cache.lookup k = some r → reconciler.cache.lookup k' = some r' →
    r.snapshot.runtimeId = r'.snapshot.runtimeId → k = k'

/-- The models of `ready_models`. -/
theorem mem_readyModels {snapshots : List RuntimeSnapshot} {model : ModelId} :
    model ∈ modelsIn (fun state => state = .hotGpu || state = .serving) snapshots ↔
      ∃ snapshot ∈ snapshots, ReportsReady snapshot model := by
  simp only [modelsIn, List.mem_map, List.mem_filter, List.mem_flatMap, Bool.or_eq_true,
    decide_eq_true_eq]
  constructor
  · rintro ⟨resident, ⟨⟨snapshot, hsnapshot, hresident⟩, hstate⟩, rfl⟩
    exact ⟨snapshot, hsnapshot, resident, hresident, rfl, hstate⟩
  · rintro ⟨snapshot, hsnapshot, resident, hresident, rfl, hstate⟩
    exact ⟨resident, ⟨⟨snapshot, hsnapshot, hresident⟩, hstate⟩, rfl⟩

/-- What completing does to a queue: the pending intents with the property `ready`. -/
def completeWhere (ready : StagingIntent → Prop) [DecidablePred ready]
    (queue : List StagingIntent) : List StagingIntent :=
  queue.map fun i => if i.state = .pending ∧ ready i then i.markCompleted else i

theorem completeWhere_eq_iff {ready ready' : StagingIntent → Prop} [DecidablePred ready]
    [DecidablePred ready'] {queue : List StagingIntent} :
    completeWhere ready queue = completeWhere ready' queue ↔
      ∀ i ∈ queue, i.state = .pending → (ready i ↔ ready' i) := by
  rw [completeWhere, completeWhere, List.map_inj_left]
  refine forall₂_congr fun i _ => ?_
  have hne : i.state = .pending → i.markCompleted ≠ i := by
    intro hstate hsame
    have hcompleted := congrArg StagingIntent.state hsame
    rw [hstate] at hcompleted
    cases hcompleted
  by_cases hstate : i.state = .pending
  · by_cases h : ready i <;> by_cases h' : ready' i <;>
      simp [hstate, h, h', hne hstate, (hne hstate).symm]
  · simp [hstate]

section Step

variable (codec : Codec) (env : ℕ → Surroundings) (w : World)

/-- Some snapshot of the cache reports the model hot or serving. -/
def Reconciler.ReadySomewhere (reconciler : Reconciler) (model : ModelId) : Prop :=
  ∃ runtimeId, reconciler.ReadyOn runtimeId model

/-- The models that the readiness step asks for are those that are ready somewhere. -/
theorem mem_result_readyModels {model : ModelId} :
    model ∈ (readyModels.run (handle codec env) w).result ↔
      w.reconciler.ReadySomewhere model := by
  have hresult : (readyModels.run (handle codec env) w).result =
      modelsIn (fun state => state = .hotGpu || state = .serving)
        ((env w.clock).hashOrder (w.reconciler.getSnapshots (env w.clock).now)) := rfl
  simp only [hresult, mem_readyModels, ((env w.clock).hashOrder_perm _).mem_iff,
    Reconciler.mem_getSnapshots_iff, Reconciler.ReadySomewhere, Reconciler.ReadyOn]
  constructor
  · rintro ⟨snapshot, ⟨k, r, hr, rfl⟩, hready⟩
    exact ⟨_, k, r, hr, rfl, hready⟩
  · rintro ⟨_, k, r, hr, -, hready⟩
    exact ⟨_, ⟨k, r, hr, rfl⟩, hready⟩

open Classical in
/-- The readiness step completes the pending intents whose model is ready somewhere. -/
theorem queue_completeReady :
    (completeReady.run (handle codec env) w).state.stagingWorker.queue =
      completeWhere (fun i => w.reconciler.ReadySomewhere i.backgroundModel)
        w.stagingWorker.queue := by
  have hmem := @mem_result_readyModels codec env w
  have hstate : (readyModels.run (handle codec env) w).state.stagingWorker = w.stagingWorker :=
    rfl
  rw [completeReady, Program.state_bind]
  generalize (readyModels.run (handle codec env) w).result = ready at hmem ⊢
  generalize (readyModels.run (handle codec env) w).state = w' at hstate ⊢
  by_cases hempty : ready.isEmpty = true
  · rw [if_pos hempty, Program.run_pure, hstate]
    have hnone : ∀ model, ¬w.reconciler.ReadySomewhere model := by
      intro model hready
      rw [List.isEmpty_iff.mp hempty] at hmem
      exact List.not_mem_nil (hmem.mpr hready)
    simp [completeWhere, hnone]
  · rw [if_neg hempty, Program.state_bind, Program.run_pure, Daemon.reconcileReady,
      Program.perform, Program.run_call]
    simp only [handle, StagingWorker.reconcileReady, Program.run, hstate, completeWhere,
      Bool.and_eq_true, decide_eq_true_eq, List.contains_iff_mem, hmem]

open Classical in
/-- For every queue and every cache, the readiness step completes a pending intent exactly
when its model is ready on its own target, and changes no other intent, if and only if no
pending intent has its model ready on other runtimes only. -/
theorem completesReady_iff :
    (completeReady.run (handle codec env) w).state.stagingWorker.queue =
        completeWhere (fun i => w.reconciler.ReadyOn i.targetRuntime i.backgroundModel)
          w.stagingWorker.queue ↔
      ∀ i ∈ w.stagingWorker.queue, i.state = .pending →
        ∀ runtimeId, w.reconciler.ReadyOn runtimeId i.backgroundModel →
          w.reconciler.ReadyOn i.targetRuntime i.backgroundModel := by
  rw [queue_completeReady, completeWhere_eq_iff]
  refine forall₃_congr fun i _ _ => ?_
  constructor
  · intro hiff runtimeId hready
    exact hiff.mp ⟨runtimeId, hready⟩
  · intro hall
    exact ⟨fun ⟨runtimeId, hready⟩ => hall runtimeId hready, fun hready => ⟨_, hready⟩⟩

end Step

/-! ### A model that is ready elsewhere -/

/-- The small model is hot on `b`, and an intent waits for it on `a`. -/
def readyElsewhere : World :=
  { AppState.twoRuntimesStart with
    reconciler :=
      ((Reconciler.new 5000).update "a" (AppState.hotSnapshot "a" []) ⟨0⟩).update "b"
        (AppState.hotSnapshot "b" ["qwen9b"]) ⟨0⟩
    stagingWorker :=
      ⟨[.queued ⟨⟨1⟩, ⟨0⟩⟩ ⟨7⟩ none ⟨"qwen9b"⟩ ⟨"a"⟩ "staged" none true]⟩ }

theorem cache_readyElsewhere {k : String} {r : ReconciledSnapshot}
    (h : readyElsewhere.reconciler.cache.lookup k = some r) :
    (k = "a" ∧ r.snapshot = AppState.hotSnapshot "a" []) ∨
      (k = "b" ∧ r.snapshot = AppState.hotSnapshot "b" ["qwen9b"]) := by
  have hall : readyElsewhere.reconciler.cache.items.all (fun e =>
      (e.1 = "a" ∧ e.2.snapshot = AppState.hotSnapshot "a" []) ∨
        (e.1 = "b" ∧ e.2.snapshot = AppState.hotSnapshot "b" ["qwen9b"])) = true := by
    decide +kernel
  exact of_decide_eq_true (List.all_eq_true.mp hall (k, r) (AList.mem_items.mpr h))

open Classical in
/-- The intent is completed although nothing is loaded on its target. -/
theorem not_completesReady_readyElsewhere :
    readyElsewhere.reconciler.DistinctRuntimes ∧
      (completeReady.run (handle default fun _ => default)
        readyElsewhere).state.stagingWorker.queue.map StagingIntent.state = [.completed] ∧
      (completeReady.run (handle default fun _ => default)
          readyElsewhere).state.stagingWorker.queue ≠
        completeWhere
          (fun i => readyElsewhere.reconciler.ReadyOn i.targetRuntime i.backgroundModel)
          readyElsewhere.stagingWorker.queue := by
  have hstates : (completeReady.run (handle default fun _ => default)
      readyElsewhere).state.stagingWorker.queue.map StagingIntent.state = [.completed] := by
    decide +kernel
  have hnot : ¬readyElsewhere.reconciler.ReadyOn ⟨"a"⟩ ⟨"qwen9b"⟩ := by
    rintro ⟨k, r, hr, hruntime, hready⟩
    rcases cache_readyElsewhere hr with ⟨-, hsnapshot⟩ | ⟨-, hsnapshot⟩
    · rw [hsnapshot] at hready
      obtain ⟨resident, hmem, -⟩ := hready
      cases hmem
    · rw [hsnapshot] at hruntime
      exact absurd hruntime (by decide)
  refine ⟨?_, hstates, fun hsame => ?_⟩
  · intro k k' r r' hr hr' hruntime
    rcases cache_readyElsewhere hr with ⟨rfl, hs⟩ | ⟨rfl, hs⟩ <;>
      rcases cache_readyElsewhere hr' with ⟨rfl, hs'⟩ | ⟨rfl, hs'⟩
    · rfl
    · rw [hs, hs'] at hruntime
      exact absurd hruntime (by decide)
    · rw [hs, hs'] at hruntime
      exact absurd hruntime (by decide)
    · rfl
  · obtain ⟨i, hqueue, htarget, hmodel⟩ : ∃ i, readyElsewhere.stagingWorker.queue = [i] ∧
        i.targetRuntime = ⟨"a"⟩ ∧ i.backgroundModel = ⟨"qwen9b"⟩ := ⟨_, rfl, rfl, rfl⟩
    have hpending : i.state = .pending := by
      obtain rfl : _ = i := List.singleton_injective hqueue
      rfl
    rw [hsame, hqueue, completeWhere, List.map_singleton, List.map_singleton, htarget, hmodel,
      if_neg fun h => hnot h.2, hpending] at hstates
    cases hstates

end Anemoi
