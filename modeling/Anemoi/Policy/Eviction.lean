import Anemoi.Core.Types
import Mathlib.Data.List.Sort
import Mathlib.Data.String.Basic

/-!
# Eviction planning

The planner goes over the residents once and makes each one a candidate, a protected
resident or a blocked one, with a reason. The candidates are then ranked, the most idle
first.

`candidates_planEvictions` and `protected_planEvictions` say which residents end up
where.
-/

namespace Anemoi

/-- A resident with what policy needs to know about it. -/
structure EvictionCandidateResident where
  modelId : ModelId
  runtimeId : RuntimeId
  state : ResidencyState
  keepHot : Bool
  pinned : Bool
  idleSecs : Option UInt64
  deriving DecidableEq, Repr

namespace EvictionCandidateResident

def isServing (resident : EvictionCandidateResident) : Bool :=
  resident.state = .serving

end EvictionCandidateResident

structure EvictionRequest where
  residents : List EvictionCandidateResident
  force : Bool

structure EvictionCandidate where
  modelId : ModelId
  runtimeId : RuntimeId
  idleSecs : Option UInt64
  reason : String
  deriving DecidableEq, Repr

structure ProtectedResident where
  modelId : ModelId
  reason : String
  deriving DecidableEq, Repr

structure BlockedEviction where
  modelId : ModelId
  reason : String
  deriving DecidableEq, Repr

structure EvictionPlan where
  candidates : List EvictionCandidate := []
  protected_ : List ProtectedResident := []
  blocked : List BlockedEviction := []
  reasons : List DecisionReason := []
  deriving DecidableEq, Repr

namespace EvictionPlan

/-- Add a reason; the planner's reasons have no impact on a score. -/
def explain (plan : EvictionPlan) (code detail : String) : EvictionPlan :=
  { plan with reasons := plan.reasons ++ [{ code, detail, impact := 0 }] }

def protect (plan : EvictionPlan) (modelId : ModelId) (reason : String) : EvictionPlan :=
  { plan with protected_ := plan.protected_ ++ [{ modelId, reason }] }

def block (plan : EvictionPlan) (modelId : ModelId) (reason : String) : EvictionPlan :=
  { plan with blocked := plan.blocked ++ [{ modelId, reason }] }

def propose (plan : EvictionPlan) (resident : EvictionCandidateResident) : EvictionPlan :=
  { plan with
    candidates := plan.candidates ++
      [{ modelId := resident.modelId
         runtimeId := resident.runtimeId
         idleSecs := resident.idleSecs
         reason := "idle, unpinned resident eligible for eviction" }] }

/-- One round of the planner's loop. -/
def consider (force : Bool) (plan : EvictionPlan) (resident : EvictionCandidateResident) :
    EvictionPlan :=
  let model := resident.modelId
  if resident.keepHot && !force then
    (plan.protect model "keep-hot continuity worker is protected from eviction").explain
      "eviction.protected.keep_hot"
      s!"{model} is protected as a keep-hot continuity worker"
  else if resident.pinned && !force then
    (plan.protect model "pinned model is protected from eviction").explain
      "eviction.protected.pinned"
      s!"{model} is protected because its residency group is pinned"
  else if resident.isServing && !force then
    (plan.block model "model is actively serving; eviction requires a force policy").explain
      "eviction.blocked.serving"
      s!"{model} is actively serving and cannot be evicted without force"
  else
    (plan.propose resident).explain "eviction.candidate"
      s!"{model} is an eligible eviction candidate"

end EvictionPlan

/-- The order by idle time: the most idle first, an unknown time last. -/
def compareIdle : Option UInt64 → Option UInt64 → Ordering
  | some x, some y => compare y x
  | some _, none => .lt
  | none, some _ => .gt
  | none, none => .eq

/-- The ranking of candidates: by idle time, then by the text of the model's id. -/
def EvictionCandidate.le (a b : EvictionCandidate) : Bool :=
  ((compareIdle a.idleSecs b.idleSecs).then (compare a.modelId.text b.modelId.text)).isLE

def planEvictions (request : EvictionRequest) : EvictionPlan :=
  let plan := request.residents.foldl (EvictionPlan.consider request.force) {}
  { plan with candidates := plan.candidates.insertionSort fun a b => a.le b }

/-! ### Where the residents end up -/

namespace EvictionCandidateResident

/-- A member of a keep-hot or pinned group, which only force may evict. -/
def isProtected (resident : EvictionCandidateResident) (force : Bool) : Bool :=
  (resident.keepHot || resident.pinned) && !force

/-- Neither protected nor serving, or overridden by force. -/
def isEvictable (resident : EvictionCandidateResident) (force : Bool) : Bool :=
  !resident.isProtected force && !(resident.isServing && !force)

end EvictionCandidateResident

namespace EvictionPlan

/-- A round reports the resident as protected, proposes it, or does neither. -/
theorem consider_cases (force : Bool) (plan : EvictionPlan)
    (resident : EvictionCandidateResident) :
    (resident.isProtected force = true ∧ resident.isEvictable force = false ∧
      (plan.consider force resident).candidates = plan.candidates ∧
      ∃ reason, (plan.consider force resident).protected_ =
        plan.protected_ ++ [{ modelId := resident.modelId, reason }]) ∨
    (resident.isProtected force = false ∧ resident.isEvictable force = true ∧
      (∃ reason, (plan.consider force resident).candidates =
        plan.candidates ++
          [{ modelId := resident.modelId
             runtimeId := resident.runtimeId
             idleSecs := resident.idleSecs
             reason }]) ∧
      (plan.consider force resident).protected_ = plan.protected_) ∨
    (resident.isProtected force = false ∧ resident.isEvictable force = false ∧
      (plan.consider force resident).candidates = plan.candidates ∧
      (plan.consider force resident).protected_ = plan.protected_) := by
  unfold consider EvictionCandidateResident.isEvictable EvictionCandidateResident.isProtected
  cases force with
  | true =>
      -- force overrides every protection
      cases resident.keepHot <;> cases resident.pinned <;> cases resident.isServing <;>
        exact Or.inr (Or.inl ⟨rfl, rfl, ⟨_, rfl⟩, rfl⟩)
  | false =>
      cases resident.keepHot with
      | true => exact Or.inl ⟨rfl, rfl, rfl, _, rfl⟩
      | false =>
          cases resident.pinned with
          | true => exact Or.inl ⟨rfl, rfl, rfl, _, rfl⟩
          | false =>
              cases resident.isServing with
              | true => exact Or.inr (Or.inr ⟨rfl, rfl, rfl, rfl⟩)
              | false => exact Or.inr (Or.inl ⟨rfl, rfl, ⟨_, rfl⟩, rfl⟩)

theorem mem_candidates_consider {force : Bool} {plan : EvictionPlan}
    {resident : EvictionCandidateResident} {modelId : ModelId} :
    (∃ c ∈ (plan.consider force resident).candidates, c.modelId = modelId) ↔
      (∃ c ∈ plan.candidates, c.modelId = modelId) ∨
        resident.isEvictable force = true ∧ resident.modelId = modelId := by
  obtain ⟨-, hkept, hsame, -⟩ | ⟨-, hevictable, ⟨reason, hmore⟩, -⟩ | ⟨-, hkept, hsame, -⟩ :=
    consider_cases force plan resident
  · simp [hsame, hkept]
  · simp [hmore, hevictable, or_and_right, exists_or]
  · simp [hsame, hkept]

theorem mem_protected_consider {force : Bool} {plan : EvictionPlan}
    {resident : EvictionCandidateResident} {modelId : ModelId} :
    (∃ p ∈ (plan.consider force resident).protected_, p.modelId = modelId) ↔
      (∃ p ∈ plan.protected_, p.modelId = modelId) ∨
        resident.isProtected force = true ∧ resident.modelId = modelId := by
  obtain ⟨hprotected, -, -, reason, hmore⟩ | ⟨hopen, -, -, hsame⟩ | ⟨hopen, -, -, hsame⟩ :=
    consider_cases force plan resident
  · simp [hmore, hprotected, or_and_right, exists_or]
  · simp [hsame, hopen]
  · simp [hsame, hopen]

theorem mem_candidates_foldl {force : Bool} {residents : List EvictionCandidateResident}
    {plan : EvictionPlan} {modelId : ModelId} :
    (∃ c ∈ (residents.foldl (consider force) plan).candidates, c.modelId = modelId) ↔
      (∃ c ∈ plan.candidates, c.modelId = modelId) ∨
        ∃ r ∈ residents, r.isEvictable force = true ∧ r.modelId = modelId := by
  induction residents generalizing plan with
  | nil => simp
  | cons r residents ih =>
      rw [List.foldl_cons, ih, mem_candidates_consider, List.exists_mem_cons_iff, or_assoc]

theorem mem_protected_foldl {force : Bool} {residents : List EvictionCandidateResident}
    {plan : EvictionPlan} {modelId : ModelId} :
    (∃ p ∈ (residents.foldl (consider force) plan).protected_, p.modelId = modelId) ↔
      (∃ p ∈ plan.protected_, p.modelId = modelId) ∨
        ∃ r ∈ residents, r.isProtected force = true ∧ r.modelId = modelId := by
  induction residents generalizing plan with
  | nil => simp
  | cons r residents ih =>
      rw [List.foldl_cons, ih, mem_protected_consider, List.exists_mem_cons_iff, or_assoc]

end EvictionPlan

/-- A model is a candidate when one of its residents is evictable. -/
theorem candidates_planEvictions {request : EvictionRequest} {modelId : ModelId} :
    (∃ c ∈ (planEvictions request).candidates, c.modelId = modelId) ↔
      ∃ r ∈ request.residents, r.isEvictable request.force = true ∧ r.modelId = modelId := by
  simp only [planEvictions, List.mem_insertionSort]
  rw [EvictionPlan.mem_candidates_foldl]
  simp

/-- A model is reported as protected when one of its residents is. -/
theorem protected_planEvictions {request : EvictionRequest} {modelId : ModelId} :
    (∃ p ∈ (planEvictions request).protected_, p.modelId = modelId) ↔
      ∃ r ∈ request.residents, r.isProtected request.force = true ∧ r.modelId = modelId := by
  simp only [planEvictions]
  rw [EvictionPlan.mem_protected_foldl]
  simp

end Anemoi
