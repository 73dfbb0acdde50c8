import Anemoi.Policy.Scheduler

/-!
# The quality floor of a decision

A request may demand a minimum parameter class. The floor decides which candidates
are eligible, but the model served while another one is staged is taken from all of
them. This module says what the floor promises nevertheless: a denial means that no
candidate meets it, and a model below it is served only while one that meets it is
being loaded. It also says when a model below the floor is served although one that
meets it is already hot.
-/

namespace Anemoi

/-- The candidate that a decision selects. -/
structure Selects (d : Decision) (c : Candidate) : Prop where
  group_eq : d.selectedGroup = some c.groupId
  model_eq : d.selectedModel = some c.modelId
  runtime_eq : d.selectedRuntime = some c.runtimeId

/-- A model is served below the floor while a cold one that meets it is staged, and
the explanation says so. -/
structure DegradedFallback (candidates : List Candidate) (m : Int32) (d : Decision) :
    Prop where
  action_eq : d.action = .stageBackground
  background : ∃ b ∈ candidates, b.action = .coldLoad ∧ m ≤ qualityScore b.modelProfile ∧
    d.backgroundModel = some b.modelId
  explained : ∃ reason ∈ d.explanation.reasons, reason.code = "quality_floor.degraded_fallback"

/-- What the floor `m` promises about a decision among `candidates`. -/
structure HardQualityFloor (candidates : List Candidate) (m : Int32) (d : Decision) :
    Prop where
  deny_iff : d.action = .deny ↔ ¬∃ c ∈ candidates, m ≤ qualityScore c.modelProfile
  selects : d.action ≠ .deny → ∃ c ∈ candidates, Selects d c
  below : ∀ c ∈ candidates, Selects d c → qualityScore c.modelProfile < m →
    DegradedFallback candidates m d
  otherwise : ∀ c ∈ candidates, Selects d c → ¬DegradedFallback candidates m d →
    m ≤ qualityScore c.modelProfile
  unstaged : d.action ≠ .stageBackground → ∀ c ∈ candidates, Selects d c →
    m ≤ qualityScore c.modelProfile

/-- A model below the floor `m` is served only when no model that meets it is hot. -/
def NoQualifyingHot (candidates : List Candidate) (m : Int32) (d : Decision) : Prop :=
  ∀ c ∈ candidates, Selects d c → qualityScore c.modelProfile < m →
    ∀ q ∈ candidates, m ≤ qualityScore q.modelProfile → q.action ≠ .reuseHot

/-- A decision that selects one of the candidates keeps the floor when that candidate
meets it or stands in for one that does. -/
theorem HardQualityFloor.of_selects {candidates : List Candidate} {m : Int32} {d : Decision}
    {c : Candidate} (hc : c ∈ candidates) (hselects : Selects d c)
    (hunique : ∀ c' ∈ candidates, Selects d c' → c' = c) (haction : d.action ≠ .deny)
    (hqualified : ∃ q ∈ candidates, m ≤ qualityScore q.modelProfile)
    (hbelow : qualityScore c.modelProfile < m → DegradedFallback candidates m d) :
    HardQualityFloor candidates m d where
  deny_iff := ⟨fun h => absurd h haction, fun h => absurd hqualified h⟩
  selects := fun _ => ⟨c, hc, hselects⟩
  below := by
    intro c' hc' hselects' hlt
    rw [hunique c' hc' hselects'] at hlt
    exact hbelow hlt
  otherwise := by
    intro c' hc' hselects' hnot
    rw [hunique c' hc' hselects']
    exact Int32.not_lt.mp fun hlt => hnot (hbelow hlt)
  unstaged := by
    intro hunstaged c' hc' hselects'
    rw [hunique c' hc' hselects']
    exact Int32.not_lt.mp fun hlt => hunstaged (hbelow hlt).action_eq

theorem qualityFloorValue_eq {request : InferenceRequest} {label : String}
    (hfloor : request.qualityFloor = some ⟨some label⟩) :
    qualityFloorValue request = some (label, parameterClassValue label) := by
  unfold qualityFloorValue
  rw [hfloor]
  rfl

theorem satisfiesFloor_iff {request : InferenceRequest} {label : String}
    (hfloor : request.qualityFloor = some ⟨some label⟩) (c : Candidate) :
    c.satisfiesFloor (qualityFloorValue request) ↔
      parameterClassValue label ≤ qualityScore c.modelProfile := by
  rw [qualityFloorValue_eq hfloor]
  constructor
  · intro h
    exact h label _ rfl
  · rintro h label' minimum heq
    cases heq
    exact h

theorem stageBehind_explained {request : InferenceRequest} {label : String}
    {minimum : Int32} {cold fallback : ScoredCandidate}
    (h : qualityScore fallback.candidate.modelProfile < minimum) :
    ∃ reason ∈ (stageBehind request (some (label, minimum)) cold fallback).reasons,
      reason.code = "quality_floor.degraded_fallback" := by
  refine ⟨degradedReason label cold fallback, ?_, rfl⟩
  simp [stageBehind, h, Tally.record]

namespace Scheduler

section Decide

variable {scheduler : Scheduler} {request : InferenceRequest}
  {snapshots : List RuntimeSnapshot} {stamp : Stamp} {generated : CandidateSet}
  {d : Decision} {label : String}

/-- The candidate a decision selects is the one the decision was made from. -/
theorem eq_of_selects {c c' : Candidate}
    (hgenerated : scheduler.generateCandidates request snapshots = .ok generated)
    (hc : c ∈ generated.candidates) (hc' : c' ∈ generated.candidates)
    (h : Selects d c) (h' : Selects d c') : c = c' := by
  have hgroup := h.group_eq.symm.trans h'.group_eq
  have hmodel := h.model_eq.symm.trans h'.model_eq
  have hruntime := h.runtime_eq.symm.trans h'.runtime_eq
  rw [Option.some.injEq] at hgroup hmodel hruntime
  exact ((mem_candidates_iff hgenerated).mp hc).unique ((mem_candidates_iff hgenerated).mp hc')
    hgroup hmodel hruntime

/-- Every decision keeps the hard quality floor. -/
theorem hardQualityFloor_decide
    (hfloor : request.qualityFloor = some ⟨some label⟩)
    (hgenerated : scheduler.generateCandidates request snapshots = .ok generated)
    (h : scheduler.decide request snapshots stamp = .ok d) :
    HardQualityFloor generated.candidates (parameterClassValue label) d := by
  cases outcome_decide hgenerated h with
  | denied hnone =>
      constructor
      · refine ⟨fun _ => ?_, fun _ => rfl⟩
        rintro ⟨c, hc, hm⟩
        exact hnone c hc ((satisfiesFloor_iff hfloor c).mpr hm)
      · intro haction
        exact absurd rfl haction
      · intro c _ hselects
        cases hselects.model_eq
      · intro c _ hselects
        cases hselects.model_eq
      · intro _ c _ hselects
        cases hselects.model_eq
  | served hbest hmeets hnone =>
      have hm := (satisfiesFloor_iff hfloor _).mp hmeets
      refine .of_selects hbest ⟨rfl, rfl, rfl⟩
        (fun c hc hselects => eq_of_selects hgenerated hc hbest hselects ⟨rfl, rfl, rfl⟩)
        ?_ ⟨_, hbest, hm⟩ fun hlt => absurd hm (Int32.not_le.mpr hlt)
      exact ((mem_candidates_iff hgenerated).mp hbest).action_ne.1
  | staged hstages =>
      obtain ⟨⟨hcold, hload, hmeets⟩, hfallback, -⟩ := hstages.candidates
      have hm := (satisfiesFloor_iff hfloor _).mp hmeets
      refine .of_selects hfallback ⟨rfl, rfl, rfl⟩
        (fun c hc hselects => eq_of_selects hgenerated hc hfallback hselects ⟨rfl, rfl, rfl⟩)
        nofun ⟨_, hcold, hm⟩ fun hlt => ?_
      refine ⟨rfl, ⟨_, hcold, hload, hm, rfl⟩, ?_⟩
      rw [qualityFloorValue_eq hfloor]
      exact stageBehind_explained hlt

/-- A model below the floor is served next to a hot one that meets it exactly when it
outranks every other hot or warm model and a cold one is staged behind it. -/
theorem noQualifyingHot_decide_iff
    (hfloor : request.qualityFloor = some ⟨some label⟩)
    (hgenerated : scheduler.generateCandidates request snapshots = .ok generated)
    (h : scheduler.decide request snapshots stamp = .ok d) :
    NoQualifyingHot generated.candidates (parameterClassValue label) d ↔
      (∀ q ∈ generated.candidates, parameterClassValue label ≤ qualityScore q.modelProfile →
        q.action ≠ .reuseHot) ∨
      ∀ cold fallback, Stages request scheduler.config.continuity
          (scheduler.scoredCandidates request generated) cold fallback →
        parameterClassValue label ≤ qualityScore fallback.candidate.modelProfile := by
  have hkeeps := hardQualityFloor_decide hfloor hgenerated h
  cases outcome_decide hgenerated h with
  | denied hnone =>
      refine ⟨fun _ => Or.inl fun q hq hm => ?_, fun _ c _ hselects => ?_⟩
      · exact absurd ((satisfiesFloor_iff hfloor q).mpr hm) (hnone q hq)
      · cases hselects.model_eq
  | served hbest hmeets hnone =>
      have hstaged := ((mem_candidates_iff hgenerated).mp hbest).action_ne.2
      refine ⟨fun _ => Or.inr fun cold fallback hstages => ?_, fun _ c hc hselects hlt => ?_⟩
      · exact absurd hstages (hnone cold fallback)
      · exact absurd (hkeeps.unstaged hstaged c hc hselects) (Int32.not_le.mpr hlt)
  | @staged cold fallback _ _ hstages =>
      obtain ⟨-, hfallback, -⟩ := hstages.candidates
      constructor
      · intro hkept
        by_cases hm : parameterClassValue label ≤
            qualityScore fallback.candidate.modelProfile
        · refine Or.inr fun cold' fallback' hstages' => ?_
          have heq := hstages'.fallback_eq.symm.trans hstages.fallback_eq
          rw [Option.some.injEq] at heq
          rw [heq]
          exact hm
        · exact Or.inl (hkept _ hfallback ⟨rfl, rfl, rfl⟩ (Int32.not_le.mp hm))
      · rintro (hcold | hmeets) c hc hselects hlt
        · exact hcold
        · have heq := eq_of_selects hgenerated hc hfallback hselects ⟨rfl, rfl, rfl⟩
          rw [heq] at hlt
          exact absurd (hmeets _ _ hstages) (Int32.not_le.mpr hlt)

end Decide

/-! ### A busy model that meets the floor -/

/-- A small hot model on one runtime, a busy larger one on another, and a cold one
larger still. -/
def busyConfig : AnemoiConfig where
  domains := .ofList [(⟨"coding"⟩, { rosters := [⟨"fast"⟩, ⟨"large"⟩] })]
  residencyGroups := .ofList
    [(⟨"fast"⟩, { models := [⟨"qwen9b"⟩] }),
     (⟨"large"⟩, { models := [⟨"qwen35b"⟩, ⟨"qwen70b"⟩] })]
  models := .ofList
    [(⟨"qwen9b"⟩, { family := "qwen", parameterClass := "9b", supportedRuntimes := [⟨"a"⟩] }),
     (⟨"qwen35b"⟩,
      { family := "qwen", parameterClass := "35b", supportedRuntimes := [⟨"b"⟩] }),
     (⟨"qwen70b"⟩,
      { family := "qwen", parameterClass := "70b", coldLoadEstimateMs := some 60000
        supportedRuntimes := [⟨"a"⟩] })]
  runtimes := .ofList
    [(⟨"a"⟩, { adapter := "mock", baseUrl := none, authToken := none }),
     (⟨"b"⟩, { adapter := "mock", baseUrl := none, authToken := none })]

def hotResident (model : String) : ModelResident where
  modelId := ⟨model⟩
  state := .hotGpu
  vramMb := none
  ramMb := none
  kvCacheMb := none
  loadedSince := none

def busySnapshots : List RuntimeSnapshot :=
  [{ runtimeId := ⟨"a"⟩, available := true, residents := [hotResident "qwen9b"]
     configuredModels := [], memory := {}, activeRequests := [], colocation := none },
   { runtimeId := ⟨"b"⟩, available := true, residents := [hotResident "qwen35b"]
     configuredModels := [], memory := {}
     activeRequests := .replicate 10 ⟨⟨"busy"⟩, ⟨"qwen35b"⟩, ⟨0⟩⟩, colocation := none }]

def floorRequest : InferenceRequest where
  id := ⟨"request"⟩
  domain := ⟨"coding"⟩
  mode := .interactive
  promptTokensEstimate := none
  maxOutputTokens := none
  latencyBudgetMs := some 1500
  qualityFloor := some ⟨some "32b"⟩
  escalationIntent := none

def sampleStamp : Stamp := ⟨⟨0⟩, ⟨0⟩⟩

theorem hardQualityFloor_busy : ∃ generated d,
    (Scheduler.mk busyConfig).generateCandidates floorRequest busySnapshots = .ok generated ∧
    (Scheduler.mk busyConfig).decide floorRequest busySnapshots sampleStamp = .ok d ∧
    HardQualityFloor generated.candidates (parameterClassValue "32b") d := by
  have hgenerated :
      (Scheduler.mk busyConfig).generateCandidates floorRequest busySnapshots = .ok _ := rfl
  have h : (Scheduler.mk busyConfig).decide floorRequest busySnapshots sampleStamp = .ok _ := rfl
  exact ⟨_, _, hgenerated, h, hardQualityFloor_decide rfl hgenerated h⟩

theorem noQualifyingHot_iff_busy : ∃ generated d,
    (Scheduler.mk busyConfig).generateCandidates floorRequest busySnapshots = .ok generated ∧
    (Scheduler.mk busyConfig).decide floorRequest busySnapshots sampleStamp = .ok d ∧
    (NoQualifyingHot generated.candidates (parameterClassValue "32b") d ↔
      (∀ q ∈ generated.candidates, parameterClassValue "32b" ≤ qualityScore q.modelProfile →
        q.action ≠ .reuseHot) ∨
      ∀ cold fallback, Stages floorRequest busyConfig.continuity
          ((Scheduler.mk busyConfig).scoredCandidates floorRequest generated) cold fallback →
        parameterClassValue "32b" ≤ qualityScore fallback.candidate.modelProfile) := by
  have hgenerated :
      (Scheduler.mk busyConfig).generateCandidates floorRequest busySnapshots = .ok _ := rfl
  have h : (Scheduler.mk busyConfig).decide floorRequest busySnapshots sampleStamp = .ok _ := rfl
  exact ⟨_, _, hgenerated, h, noQualifyingHot_decide_iff rfl hgenerated h⟩

instance (d : Decision) (c : Candidate) : Decidable (Selects d c) :=
  decidable_of_iff
    (d.selectedGroup = some c.groupId ∧ d.selectedModel = some c.modelId ∧
      d.selectedRuntime = some c.runtimeId)
    ⟨fun h => ⟨h.1, h.2.1, h.2.2⟩, fun h => ⟨h.group_eq, h.model_eq, h.runtime_eq⟩⟩

instance (candidates : List Candidate) (m : Int32) (d : Decision) :
    Decidable (NoQualifyingHot candidates m d) := by
  unfold NoQualifyingHot; infer_instance

theorem noQualifyingHot_busy : ∃ generated d,
    (Scheduler.mk busyConfig).generateCandidates floorRequest busySnapshots = .ok generated ∧
    (Scheduler.mk busyConfig).decide floorRequest busySnapshots sampleStamp = .ok d ∧
    d.action ≠ .deny ∧ ¬NoQualifyingHot generated.candidates (parameterClassValue "32b") d := by
  refine ⟨_, _, rfl, rfl, ?_, ?_⟩
  · decide
  · decide

end Scheduler

end Anemoi
