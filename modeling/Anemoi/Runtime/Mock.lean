import Anemoi.Core.Types
import Mathlib.Data.List.Nodup

/-!
# The mock runtime

`MockRuntimeAdapter` keeps its snapshot itself: a load adds a resident unless the model is
one, an unload removes every resident of the model, and a request that is executed stays
active. What is resident after some calls is read off the calls: `find?_residents_after`.
-/

namespace Anemoi

structure MockRuntimeAdapter where
  id : RuntimeId
  snapshot : RuntimeSnapshot
  runtime_eq : snapshot.runtimeId = id

/-- A resident of which nothing but its state is known. -/
def ModelResident.bare (modelId : ModelId) (state : ResidencyState) : ModelResident where
  modelId := modelId
  state := state
  vramMb := none
  ramMb := none
  kvCacheMb := none
  loadedSince := none

structure ExecutionRequest where
  requestId : RequestId
  modelId : ModelId
  deriving DecidableEq, Repr

namespace MockRuntimeAdapter

def new (id : RuntimeId) (residents : List ModelResident) : MockRuntimeAdapter where
  id := id
  snapshot :=
    { runtimeId := id
      available := true
      residents
      configuredModels := []
      memory := {}
      activeRequests := []
      colocation := none }
  runtime_eq := rfl

variable (adapter : MockRuntimeAdapter)

def inspect : RuntimeSnapshot :=
  adapter.snapshot

def isResident (model : ModelId) : Bool :=
  adapter.snapshot.residents.any fun resident => resident.modelId = model

def loadModel (model : ModelId) : MockRuntimeAdapter :=
  if adapter.isResident model then adapter
  else
    { adapter with
      snapshot :=
        { adapter.snapshot with
          residents := adapter.snapshot.residents ++ [.bare model .loading] }
      runtime_eq := adapter.runtime_eq }

def unloadModel (model : ModelId) : MockRuntimeAdapter where
  id := adapter.id
  snapshot :=
    { adapter.snapshot with
      residents := adapter.snapshot.residents.filter fun resident => resident.modelId != model }
  runtime_eq := adapter.runtime_eq

def execute (request : ExecutionRequest) (now : DateTime) : MockRuntimeAdapter where
  id := adapter.id
  snapshot :=
    { adapter.snapshot with
      activeRequests := adapter.snapshot.activeRequests ++
        [⟨request.requestId, request.modelId, now⟩] }
  runtime_eq := adapter.runtime_eq

end MockRuntimeAdapter

/-! ### Calls -/

/-- A call that changes a mock runtime. -/
inductive MockCall where
  | load (model : ModelId)
  | unload (model : ModelId)
  | execute (request : ExecutionRequest) (now : DateTime)

namespace MockRuntimeAdapter

def call (adapter : MockRuntimeAdapter) : MockCall → MockRuntimeAdapter
  | .load model => adapter.loadModel model
  | .unload model => adapter.unloadModel model
  | .execute request now => adapter.execute request now

def after (adapter : MockRuntimeAdapter) (calls : List MockCall) : MockRuntimeAdapter :=
  calls.foldl call adapter

theorem after_concat (adapter : MockRuntimeAdapter) (calls : List MockCall) (c : MockCall) :
    adapter.after (calls ++ [c]) = (adapter.after calls).call c := by
  rw [after, List.foldl_append, ← after]
  rfl

/-- The resident that `residencyOf` and the readers of a snapshot find for a model. -/
def residentOf (adapter : MockRuntimeAdapter) (model : ModelId) : Option ModelResident :=
  adapter.snapshot.residents.find? fun resident => resident.modelId = model

theorem isResident_iff {adapter : MockRuntimeAdapter} {model : ModelId} :
    adapter.isResident model = true ↔ (adapter.residentOf model).isSome := by
  rw [isResident, residentOf, List.find?_isSome, List.any_eq_true]

theorem residentOf_loadModel (adapter : MockRuntimeAdapter) (loaded model : ModelId) :
    (adapter.loadModel loaded).residentOf model =
      (adapter.residentOf model).or
        (if model = loaded then some (.bare loaded .loading) else none) := by
  by_cases hmodel : model = loaded
  · subst hmodel
    rw [if_pos rfl, loadModel]
    split
    · next hresident =>
        obtain ⟨resident, hsome⟩ := Option.isSome_iff_exists.mp (isResident_iff.mp hresident)
        rw [hsome, Option.some_or]
    · next habsent =>
        rw [isResident_iff, Option.not_isSome_iff_eq_none] at habsent
        rw [residentOf, List.find?_append, ← residentOf, habsent]
        simp [ModelResident.bare]
  · rw [if_neg hmodel, Option.or_none, loadModel]
    split
    · rfl
    · rw [residentOf, List.find?_append, ← residentOf]
      simp [ModelResident.bare, Ne.symm hmodel]

theorem residentOf_unloadModel (adapter : MockRuntimeAdapter) (unloaded model : ModelId) :
    (adapter.unloadModel unloaded).residentOf model =
      if model = unloaded then none else adapter.residentOf model := by
  unfold residentOf unloadModel
  rw [List.find?_filter]
  by_cases hmodel : model = unloaded
  · subst hmodel
    simp
  · rw [if_neg hmodel]
    congr 1
    funext resident
    by_cases hresident : resident.modelId = model <;> simp [hresident, hmodel]

/-- What a call makes of the resident of one model. -/
def cell (model : ModelId) (resident : Option ModelResident) : MockCall → Option ModelResident
  | .load loaded =>
      resident.or (if model = loaded then some (.bare loaded .loading) else none)
  | .unload unloaded => if model = unloaded then none else resident
  | .execute _ _ => resident

theorem residentOf_call (adapter : MockRuntimeAdapter) (model : ModelId) (c : MockCall) :
    (adapter.call c).residentOf model = cell model (adapter.residentOf model) c := by
  cases c with
  | load loaded => exact residentOf_loadModel adapter loaded model
  | unload unloaded => exact residentOf_unloadModel adapter unloaded model
  | execute request now => rfl

/-- Models do not interfere. -/
theorem residentOf_after (adapter : MockRuntimeAdapter) (model : ModelId)
    (calls : List MockCall) :
    (adapter.after calls).residentOf model =
      calls.foldl (cell model) (adapter.residentOf model) := by
  induction calls generalizing adapter with
  | nil => rfl
  | cons c calls ih => exact (ih (adapter.call c)).trans (by rw [residentOf_call]; rfl)

theorem mem_loadModel {adapter : MockRuntimeAdapter} {model : ModelId}
    {resident : ModelResident} (h : resident ∈ (adapter.loadModel model).snapshot.residents) :
    resident ∈ adapter.snapshot.residents ∨ resident = .bare model .loading := by
  unfold loadModel at h
  split at h
  · exact Or.inl h
  · exact (List.mem_append.mp h).imp_right List.mem_singleton.mp

theorem mem_unloadModel {adapter : MockRuntimeAdapter} {model : ModelId}
    {resident : ModelResident} :
    resident ∈ (adapter.unloadModel model).snapshot.residents ↔
      resident ∈ adapter.snapshot.residents ∧ resident.modelId ≠ model := by
  rw [unloadModel, List.mem_filter, bne_iff_ne]

/-- What is resident on a mock was there from the start and never unloaded, or it was loaded
and is loading. -/
theorem mem_residents_after {adapter : MockRuntimeAdapter} {calls : List MockCall}
    {resident : ModelResident} (h : resident ∈ (adapter.after calls).snapshot.residents) :
    resident ∈ adapter.snapshot.residents ∧ MockCall.unload resident.modelId ∉ calls ∨
      resident = .bare resident.modelId .loading ∧ MockCall.load resident.modelId ∈ calls := by
  induction calls generalizing adapter with
  | nil => exact Or.inl ⟨h, List.not_mem_nil⟩
  | cons c calls ih =>
      have hlater : resident ∈ ((adapter.call c).after calls).snapshot.residents := h
      rcases ih hlater with ⟨hmem, hkept⟩ | ⟨hbare, hload⟩
      · cases c with
        | load loaded =>
            rcases mem_loadModel hmem with hold | rfl
            · exact Or.inl ⟨hold, fun hunload => hkept (by simpa using hunload)⟩
            · exact Or.inr ⟨rfl, List.mem_cons_self⟩
        | unload unloaded =>
            obtain ⟨hold, hne⟩ := mem_unloadModel.mp hmem
            refine Or.inl ⟨hold, fun hunload => ?_⟩
            rcases List.mem_cons.mp hunload with heq | hlater
            · exact hne (MockCall.unload.inj heq)
            · exact hkept hlater
        | execute request now =>
            exact Or.inl ⟨hmem, fun hunload => hkept (by simpa using hunload)⟩
      · exact Or.inr ⟨hbare, List.mem_cons_of_mem c hload⟩

/-- The ids of the residents are distinct. -/
def DistinctResidents (adapter : MockRuntimeAdapter) : Prop :=
  (adapter.snapshot.residents.map ModelResident.modelId).Nodup

theorem DistinctResidents.loadModel {adapter : MockRuntimeAdapter}
    (h : adapter.DistinctResidents) (model : ModelId) :
    (adapter.loadModel model).DistinctResidents := by
  unfold MockRuntimeAdapter.loadModel
  split
  · exact h
  · next habsent =>
      have hnew : ∀ id ∈ adapter.snapshot.residents.map ModelResident.modelId, id ≠ model := by
        rintro id hid rfl
        obtain ⟨resident, hresident, hid⟩ := List.mem_map.mp hid
        exact habsent (List.any_eq_true.mpr ⟨resident, hresident, by simpa using hid⟩)
      unfold DistinctResidents
      rw [List.map_append, List.nodup_append]
      refine ⟨h, List.nodup_singleton _, fun id hid id' hid' => ?_⟩
      rw [List.mem_singleton.mp hid']
      exact hnew id hid

/-- No call makes two residents of one model. -/
theorem DistinctResidents.after {adapter : MockRuntimeAdapter} (h : adapter.DistinctResidents)
    (calls : List MockCall) : (adapter.after calls).DistinctResidents := by
  induction calls generalizing adapter with
  | nil => exact h
  | cons c calls ih =>
      have hcall : (adapter.call c).DistinctResidents := by
        cases c with
        | load loaded => exact h.loadModel loaded
        | unload unloaded => exact List.Nodup.sublist (List.filter_sublist.map _) h
        | execute request now => exact h
      exact ih hcall

end MockRuntimeAdapter

end Anemoi
