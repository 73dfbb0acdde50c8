import Anemoi.Core.Types
import Anemoi.Systems.Table

/-!
# The reconciler

The reconciler caches the last snapshot of every runtime. A failed inspection keeps
the last good snapshot and flags it stale; only a runtime that was never inspected
successfully gets an unavailable placeholder.

Each operation here is one that the source runs under the cache's lock, with the
clock's time as an argument.
-/

namespace Anemoi

open Systems

/-- The snapshot of a runtime about which nothing is known. -/
def RuntimeSnapshot.unavailable (runtimeId : RuntimeId) : RuntimeSnapshot where
  runtimeId := runtimeId
  available := false
  residents := []
  configuredModels := []
  memory := {}
  activeRequests := []
  colocation := none

structure ReconciledSnapshot where
  snapshot : RuntimeSnapshot
  lastInspected : DateTime
  lastError : Option String
  isStale : Bool
  deriving DecidableEq, Repr

namespace ReconciledSnapshot

def fresh (snapshot : RuntimeSnapshot) (now : DateTime) : ReconciledSnapshot where
  snapshot := snapshot
  lastInspected := now
  lastError := none
  isStale := false

def fromError (runtimeId : RuntimeId) (error : String) (now : DateTime) :
    ReconciledSnapshot where
  snapshot := .unavailable runtimeId
  lastInspected := now
  lastError := some error
  isStale := true

/-- Has the entry aged past the time to live? -/
def expired (r : ReconciledSnapshot) (ttlMs : UInt64) (now : DateTime) : Bool :=
  ttlMs.toInt64.toInt < now.millisecondsSince r.lastInspected

/-- The entry with its staleness at the time `now`. -/
def aged (r : ReconciledSnapshot) (ttlMs : UInt64) (now : DateTime) : ReconciledSnapshot :=
  { r with isStale := r.isStale || r.expired ttlMs now }

end ReconciledSnapshot

structure Reconciler where
  cache : Table String ReconciledSnapshot
  ttlMs : UInt64

namespace Reconciler

def defaultReconciliationTtlMs : UInt64 := 5000

def new (ttlMs : UInt64) : Reconciler where
  cache := ∅
  ttlMs := ttlMs

def update (c : Reconciler) (runtimeId : String) (snapshot : RuntimeSnapshot)
    (now : DateTime) : Reconciler :=
  { c with cache := c.cache.insert runtimeId (.fresh snapshot now) }

def recordError (c : Reconciler) (runtimeId error : String) (now : DateTime) : Reconciler :=
  match c.cache.lookup runtimeId with
  | some existing =>
      { c with
        cache := c.cache.insert runtimeId
          { existing with isStale := true, lastError := some error } }
  | none =>
      { c with cache := c.cache.insert runtimeId (.fromError ⟨runtimeId⟩ error now) }

def get (c : Reconciler) (runtimeId : String) (now : DateTime) : Option ReconciledSnapshot :=
  (c.cache.lookup runtimeId).map fun r => r.aged c.ttlMs now

/-- Every entry, in the table's order. -/
def all (c : Reconciler) (now : DateTime) : List ReconciledSnapshot :=
  c.cache.values.map fun r => r.aged c.ttlMs now

def getSnapshots (c : Reconciler) (now : DateTime) : List RuntimeSnapshot :=
  (c.all now).map ReconciledSnapshot.snapshot

/-- Must a decision inspect again before it relies on the cache? -/
def needsRefresh (c : Reconciler) (now : DateTime) : Bool :=
  if c.cache.values.isEmpty then true
  else c.cache.values.any fun r => r.isStale || r.lastError.isSome || r.expired c.ttlMs now

theorem mem_getSnapshots_iff {c : Reconciler} {now : DateTime} {snapshot : RuntimeSnapshot} :
    snapshot ∈ c.getSnapshots now ↔
      ∃ k r, c.cache.lookup k = some r ∧ r.snapshot = snapshot := by
  simp only [getSnapshots, all, List.map_map, List.mem_map, AList.mem_values,
    Function.comp_apply, ReconciledSnapshot.aged]
  constructor
  · rintro ⟨r, ⟨k, hk⟩, rfl⟩
    exact ⟨k, r, hk, rfl⟩
  · rintro ⟨k, r, hk, rfl⟩
    exact ⟨r, ⟨k, hk⟩, rfl⟩

/-- What the cache holds for a runtime after an error is recorded: the snapshot it
held, or the placeholder. -/
theorem lookup_recordError (c : Reconciler) (runtimeId error : String) (now : DateTime)
    (k : String) :
    ((c.recordError runtimeId error now).cache.lookup k).map ReconciledSnapshot.snapshot =
      if k = runtimeId then
        some (((c.cache.lookup k).map ReconciledSnapshot.snapshot).getD
          (RuntimeSnapshot.unavailable ⟨k⟩))
      else (c.cache.lookup k).map ReconciledSnapshot.snapshot := by
  unfold recordError
  cases h : c.cache.lookup runtimeId with
  | some existing =>
      simp only [AList.lookup_insert_eq_ite]
      by_cases hk : k = runtimeId
      · subst hk
        simp [h]
      · simp [hk]
  | none =>
      simp only [AList.lookup_insert_eq_ite]
      by_cases hk : k = runtimeId
      · subst hk
        simp [h, ReconciledSnapshot.fromError]
      · simp [hk]

theorem lookup_update (c : Reconciler) (runtimeId : String) (snapshot : RuntimeSnapshot)
    (now : DateTime) (k : String) :
    ((c.update runtimeId snapshot now).cache.lookup k).map ReconciledSnapshot.snapshot =
      if k = runtimeId then some snapshot
      else (c.cache.lookup k).map ReconciledSnapshot.snapshot := by
  simp only [update, AList.lookup_insert_eq_ite]
  by_cases hk : k = runtimeId
  · simp [hk, ReconciledSnapshot.fresh]
  · simp [hk]

end Reconciler

/-! ### Resident transitions -/

structure ResidentTransitionDetail where
  modelId : ModelId
  fromState : ResidencyState
  toState : ResidencyState
  firstObservation : Bool
  deriving DecidableEq, Repr

/-- The states of the previous residents by model; a later entry of a model wins. -/
def priorStates (previous : List ModelResident) : Table ModelId ResidencyState :=
  .ofList (previous.map fun r => (r.modelId, r.state))

/-- The residents whose state changed, or that appeared. A model that vanished makes
no transition. -/
def residentTransitions (previous current : List ModelResident) :
    List ResidentTransitionDetail :=
  current.filterMap fun resident =>
    match (priorStates previous).lookup resident.modelId with
    | some prev =>
        if prev = resident.state then none
        else
          some
            { modelId := resident.modelId
              fromState := prev
              toState := resident.state
              firstObservation := false }
    | none =>
        some
          { modelId := resident.modelId
            fromState := .cold
            toState := resident.state
            firstObservation := true }

end Anemoi
