import Anemoi.Policy.Scoring
import Anemoi.Systems.Ranking
import Mathlib.Data.Prod.Lex
import Mathlib.Data.String.Basic

/-!
# The scheduler

`Scheduler.decide` ranks the scored candidates, drops those below the quality floor
and takes the best one, unless continuity staging answers with a hot model now and
loads a better one in the background.

`decide_cases` says once what a decision can be: a denial, the best eligible
candidate, or a staged pair. The properties of decisions are derived from it.
-/

namespace Anemoi

open Systems

/-- A result with known fields is a success. -/
theorem exists_ok_of_map {ε α β : Type} {r : Except ε α} {f : α → β} {b : β}
    (h : r.toOption.map f = some b) : ∃ a, r = .ok a ∧ f a = b := by
  cases r with
  | error e => cases h
  | ok a => exact ⟨a, rfl, Option.some.inj h⟩

/-- What the ranking compares. -/
def ScoredCandidate.rankKey (scored : ScoredCandidate) : ℤ :=
  scored.score.total.toInt

def isHotOrWarm (scored : ScoredCandidate) : Bool :=
  scored.candidate.action = .reuseHot || scored.candidate.action = .promoteWarm

/-! ### Continuity staging -/

/-- What the choice of the model to stage compares: quality, then the model's id. -/
def coldKey (scored : ScoredCandidate) : ℤ ×ₗ String :=
  toLex ((qualityScore scored.candidate.modelProfile).toInt, scored.candidate.modelId.text)

/-- Would loading this candidate keep the user waiting too long? -/
def isSlowColdLoad (continuity : ContinuityConfig) (scored : ScoredCandidate) : Bool :=
  scored.candidate.action = .coldLoad &&
    continuity.maxBlankWaitMs < scored.candidate.loadEstimateMs

/-- The slow cold load of the highest quality. -/
def coldLarge (eligible : List ScoredCandidate) (continuity : ContinuityConfig) :
    Option ScoredCandidate :=
  maxByKey coldKey (eligible.filter (isSlowColdLoad continuity))

/-- The best-ranked candidate that is hot or warm. -/
def hotFallback (candidates : List ScoredCandidate) : Option ScoredCandidate :=
  candidates.find? isHotOrWarm

def wantsStage (request : InferenceRequest) (continuity : ContinuityConfig)
    (cold : ScoredCandidate) : Bool :=
  continuity.backgroundLoad && continuity.preferDegradedResponseOverSilence &&
    request.latencyBudgetMs.getD maxU64 < cold.candidate.loadEstimateMs

/-- The pair may be co-resident: it is on two runtimes, or the runtime's matrix, if
it has one, admits it. -/
def colocationAdmits (cold fallback : ScoredCandidate) : Bool :=
  cold.candidate.runtimeId != fallback.candidate.runtimeId ||
    match fallback.candidate.colocation with
    | none => true
    | some constraints =>
        constraints.canColocate fallback.candidate.modelId cold.candidate.modelId

def stageReason (request : InferenceRequest) (cold fallback : ScoredCandidate) :
    DecisionReason where
  code := "continuity.stage_background"
  detail :=
    s!"selected hot {fallback.candidate.modelId} now and staged {cold.candidate.modelId} " ++
    s!"because cold load estimate {cold.candidate.loadEstimateMs}ms exceeded latency " ++
    s!"budget {request.latencyBudgetMs.getD maxU64}ms and continuity policy prefers " ++
    "degraded response over silence"
  impact := 50

def degradedReason (floorLabel : String) (cold fallback : ScoredCandidate) :
    DecisionReason where
  code := "quality_floor.degraded_fallback"
  detail :=
    s!"request required at least {floorLabel}; selected hot {fallback.candidate.modelId} " ++
    s!"({fallback.candidate.modelProfile.parameterClass}) only as an immediate fallback " ++
    s!"while staging qualifying {cold.candidate.modelId} " ++
    s!"({cold.candidate.modelProfile.parameterClass})"
  impact := -25

/-- The answer that serves `fallback` now and loads `cold` in the background. -/
def stageBehind (request : InferenceRequest) (floor : Option (String × Int32))
    (cold fallback : ScoredCandidate) : ScoredCandidate :=
  let tally : Tally := ⟨fallback.score, fallback.reasons⟩
  let tally := tally.record (stageReason request cold fallback)
    "continuity background staging"
  let tally := match floor with
    | none => tally
    | some (floorLabel, floorValue) =>
        if qualityScore fallback.candidate.modelProfile < floorValue then
          tally.record (degradedReason floorLabel cold fallback)
            "quality floor degraded fallback"
        else tally
  { fallback with
    action := .stageBackground
    backgroundModel := some cold.candidate.modelId
    score := tally.score
    reasons := tally.reasons }

/-- `best`, with the reason why nothing was staged. -/
def noteBlockedColocation (cold fallback best : ScoredCandidate) : ScoredCandidate :=
  { best with
    reasons := best.reasons ++
      [{ code := "continuity.stage_blocked_colocation"
         detail := s!"did not stage {cold.candidate.modelId} alongside " ++
           s!"{fallback.candidate.modelId} for background load because the " ++
           s!"{fallback.candidate.runtimeId} colocation matrix does not admit them as " ++
           s!"co-resident; serving {best.candidate.modelId} alone preserves the hot worker"
         impact := 0 }] }

def applyContinuityStaging (request : InferenceRequest) (candidates : List ScoredCandidate)
    (eligible : List ScoredCandidate) (best : ScoredCandidate) (continuity : ContinuityConfig)
    (floor : Option (String × Int32)) : ScoredCandidate :=
  match coldLarge eligible continuity, hotFallback candidates with
  | some cold, some fallback =>
      if wantsStage request continuity cold && colocationAdmits cold fallback then
        stageBehind request floor cold fallback
      else if wantsStage request continuity cold then
        noteBlockedColocation cold fallback best
      else best
  | _, _ => best

/-! ### Decisions -/

namespace Scheduler

def scoredCandidates (scheduler : Scheduler) (request : InferenceRequest)
    (generated : CandidateSet) : List ScoredCandidate :=
  rankBy ScoredCandidate.rankKey
    (generated.candidates.map fun candidate =>
      scoreCandidate request candidate scheduler.config)

def decide (scheduler : Scheduler) (request : InferenceRequest)
    (snapshots : List RuntimeSnapshot) (stamp : Stamp) : Except PolicyError Decision := do
  let generated ← scheduler.generateCandidates request snapshots
  let candidates := scheduler.scoredCandidates request generated
  let floor := qualityFloorValue request
  let eligible := candidates.filter fun candidate => candidateSatisfiesFloor candidate floor
  match eligible.head? with
  | none =>
      let rejectedOptions := combineRejected generated.rejectedOptions
        (qualityFloorRejections candidates floor none)
      return denyDecision request rejectedOptions stamp
  | some best =>
      let selected := applyContinuityStaging request candidates eligible best
        scheduler.config.continuity floor
      let rejectedOptions := combineRejected generated.rejectedOptions
        (qualityFloorRejections candidates floor (some selected.candidate.modelId))
      return selected.intoDecision request rejectedOptions stamp

end Scheduler

/-! ### What a decision can be -/

/-- A candidate meets the floor, if there is one. -/
def Candidate.satisfiesFloor (c : Candidate) (floor : Option (String × Int32)) : Prop :=
  ∀ label minimum, floor = some (label, minimum) → minimum ≤ qualityScore c.modelProfile

theorem candidateSatisfiesFloor_iff {scored : ScoredCandidate}
    {floor : Option (String × Int32)} :
    candidateSatisfiesFloor scored floor = true ↔ scored.candidate.satisfiesFloor floor := by
  unfold candidateSatisfiesFloor Candidate.satisfiesFloor
  cases floor with
  | none => simp
  | some f =>
      obtain ⟨label, minimum⟩ := f
      simp

/-- `cold` is staged behind `fallback`: they are the two candidates continuity
staging looks at, the wait would be too long, and they may be co-resident. -/
structure Stages (request : InferenceRequest) (continuity : ContinuityConfig)
    (candidates : List ScoredCandidate) (cold fallback : ScoredCandidate) : Prop where
  cold_eq : coldLarge
    (candidates.filter fun c => candidateSatisfiesFloor c (qualityFloorValue request))
    continuity = some cold
  fallback_eq : hotFallback candidates = some fallback
  wants : wantsStage request continuity cold = true
  admits : colocationAdmits cold fallback = true

theorem applyContinuityStaging_cases (request : InferenceRequest)
    (candidates : List ScoredCandidate) (best : ScoredCandidate)
    (continuity : ContinuityConfig) :
    (∃ cold fallback, Stages request continuity candidates cold fallback ∧
      applyContinuityStaging request candidates
        (candidates.filter fun c => candidateSatisfiesFloor c (qualityFloorValue request))
        best continuity (qualityFloorValue request) =
        stageBehind request (qualityFloorValue request) cold fallback) ∨
    ((∀ cold fallback, ¬Stages request continuity candidates cold fallback) ∧
      ∃ reasons, applyContinuityStaging request candidates
        (candidates.filter fun c => candidateSatisfiesFloor c (qualityFloorValue request))
        best continuity (qualityFloorValue request) = { best with reasons }) := by
  unfold applyContinuityStaging
  cases hcold : coldLarge
      (candidates.filter fun c => candidateSatisfiesFloor c (qualityFloorValue request))
      continuity with
  | none =>
      refine Or.inr ⟨fun cold fallback h => ?_, best.reasons, rfl⟩
      rw [h.cold_eq] at hcold
      cases hcold
  | some cold =>
      cases hfallback : hotFallback candidates with
      | none =>
          refine Or.inr ⟨fun cold' fallback h => ?_, best.reasons, rfl⟩
          rw [h.fallback_eq] at hfallback
          cases hfallback
      | some fallback =>
          by_cases hstage : wantsStage request continuity cold = true ∧
              colocationAdmits cold fallback = true
          · refine Or.inl ⟨cold, fallback, ⟨hcold, hfallback, hstage.1, hstage.2⟩, ?_⟩
            simp [hstage]
          · refine Or.inr ⟨fun cold' fallback' h => ?_, ?_⟩
            · obtain ⟨hcold', hfallback', hwants, hadmits⟩ := h
              rw [hcold, Option.some.injEq] at hcold'
              rw [hfallback, Option.some.injEq] at hfallback'
              subst hcold' hfallback'
              exact hstage ⟨hwants, hadmits⟩
            · rw [← Bool.and_eq_true] at hstage
              simp only [hstage, Bool.false_eq_true, if_false]
              by_cases hwants : wantsStage request continuity cold = true
              · exact ⟨_, by rw [if_pos hwants]; rfl⟩
              · exact ⟨best.reasons, by rw [if_neg hwants]⟩

namespace Scheduler

theorem mem_scoredCandidates_iff {scheduler : Scheduler} {request : InferenceRequest}
    {generated : CandidateSet} {scored : ScoredCandidate} :
    scored ∈ scheduler.scoredCandidates request generated ↔
      ∃ c ∈ generated.candidates, scoreCandidate request c scheduler.config = scored := by
  rw [scoredCandidates, mem_rankBy, List.mem_map]

/-- The ways a decision comes about. -/
inductive Outcome (scheduler : Scheduler) (request : InferenceRequest)
    (generated : CandidateSet) : Decision → Prop
  | denied {rejectedOptions : List RejectedOption} {stamp : Stamp}
      (none_eligible : ∀ c ∈ generated.candidates,
        ¬c.satisfiesFloor (qualityFloorValue request)) :
      Outcome scheduler request generated (denyDecision request rejectedOptions stamp)
  | served {best : Candidate} {reasons : List DecisionReason}
      {rejectedOptions : List RejectedOption} {stamp : Stamp}
      (best_mem : best ∈ generated.candidates)
      (eligible : best.satisfiesFloor (qualityFloorValue request))
      (not_staged : ∀ cold fallback, ¬Stages request scheduler.config.continuity
        (scheduler.scoredCandidates request generated) cold fallback) :
      Outcome scheduler request generated
        (ScoredCandidate.intoDecision
          { scoreCandidate request best scheduler.config with reasons }
          request rejectedOptions stamp)
  | staged {cold fallback : ScoredCandidate} {rejectedOptions : List RejectedOption}
      {stamp : Stamp}
      (stages : Stages request scheduler.config.continuity
        (scheduler.scoredCandidates request generated) cold fallback) :
      Outcome scheduler request generated
        ((stageBehind request (qualityFloorValue request) cold fallback).intoDecision
          request rejectedOptions stamp)

theorem outcome_decide {scheduler : Scheduler} {request : InferenceRequest}
    {snapshots : List RuntimeSnapshot} {stamp : Stamp} {generated : CandidateSet}
    {d : Decision} (hgenerated : scheduler.generateCandidates request snapshots = .ok generated)
    (h : scheduler.decide request snapshots stamp = .ok d) :
    Outcome scheduler request generated d := by
  simp only [decide, hgenerated, bind, Except.bind, pure, Except.pure] at h
  cases hbest : ((scheduler.scoredCandidates request generated).filter fun c =>
      candidateSatisfiesFloor c (qualityFloorValue request)).head? with
  | none =>
      rw [hbest, Except.ok.injEq] at h
      rw [← h]
      refine .denied fun c hc hfloor => ?_
      have hnone := List.filter_eq_nil_iff.mp (List.head?_eq_none_iff.mp hbest)
      apply hnone _ (mem_scoredCandidates_iff.mpr ⟨c, hc, rfl⟩)
      exact candidateSatisfiesFloor_iff.mpr hfloor
  | some best =>
      rw [hbest, Except.ok.injEq] at h
      rw [← h]
      obtain ⟨hmem, hfloor⟩ := List.mem_filter.mp (List.mem_of_head? hbest)
      obtain ⟨c, hc, rfl⟩ := mem_scoredCandidates_iff.mp hmem
      rcases applyContinuityStaging_cases request (scheduler.scoredCandidates request generated)
          (scoreCandidate request c scheduler.config) scheduler.config.continuity with
        ⟨cold, fallback, hstages, heq⟩ | ⟨hnone, reasons, heq⟩
      · rw [heq]
        exact .staged hstages
      · rw [heq]
        have heligible := candidateSatisfiesFloor_iff.mp hfloor
        rw [scoreCandidate_candidate] at heligible
        exact .served hc heligible hnone

end Scheduler

/-! ### The two candidates of a staged decision -/

theorem coldLarge_spec {eligible : List ScoredCandidate} {continuity : ContinuityConfig}
    {cold : ScoredCandidate} (h : coldLarge eligible continuity = some cold) :
    cold ∈ eligible ∧ cold.candidate.action = .coldLoad := by
  obtain ⟨hmem, hslow⟩ := List.mem_filter.mp (mem_of_maxByKey h)
  rw [isSlowColdLoad, Bool.and_eq_true, decide_eq_true_eq] at hslow
  exact ⟨hmem, hslow.1⟩

theorem hotFallback_spec {candidates : List ScoredCandidate} {fallback : ScoredCandidate}
    (h : hotFallback candidates = some fallback) :
    fallback ∈ candidates ∧
      (fallback.candidate.action = .reuseHot ∨ fallback.candidate.action = .promoteWarm) := by
  have hhot := List.find?_some h
  rw [isHotOrWarm, Bool.or_eq_true, decide_eq_true_eq, decide_eq_true_eq] at hhot
  exact ⟨List.mem_of_find?_eq_some h, hhot⟩

/-- The staged model is a generated cold load that meets the floor, the model served
meanwhile is a generated hot or warm one. -/
theorem Stages.candidates {scheduler : Scheduler} {request : InferenceRequest}
    {generated : CandidateSet} {continuity : ContinuityConfig}
    {cold fallback : ScoredCandidate}
    (h : Stages request continuity (scheduler.scoredCandidates request generated)
      cold fallback) :
    (cold.candidate ∈ generated.candidates ∧ cold.candidate.action = .coldLoad ∧
      cold.candidate.satisfiesFloor (qualityFloorValue request)) ∧
    (fallback.candidate ∈ generated.candidates ∧
      (fallback.candidate.action = .reuseHot ∨ fallback.candidate.action = .promoteWarm)) := by
  obtain ⟨hcold, hcoldLoad⟩ := coldLarge_spec h.cold_eq
  obtain ⟨hcoldMem, hcoldFloor⟩ := List.mem_filter.mp hcold
  obtain ⟨hfallback, hhot⟩ := hotFallback_spec h.fallback_eq
  obtain ⟨c, hc, rfl⟩ := Scheduler.mem_scoredCandidates_iff.mp hcoldMem
  obtain ⟨f, hf, rfl⟩ := Scheduler.mem_scoredCandidates_iff.mp hfallback
  exact ⟨⟨hc, hcoldLoad, candidateSatisfiesFloor_iff.mp hcoldFloor⟩, hf, hhot⟩

/-- On one runtime a pair is staged only if the runtime's matrix, if any, admits it. -/
theorem colocationAdmits_iff {cold fallback : ScoredCandidate} :
    colocationAdmits cold fallback = true ↔
      (cold.candidate.runtimeId = fallback.candidate.runtimeId →
        ∀ constraints, fallback.candidate.colocation = some constraints →
          constraints.canColocate fallback.candidate.modelId cold.candidate.modelId =
            true) := by
  unfold colocationAdmits
  by_cases hsame : cold.candidate.runtimeId = fallback.candidate.runtimeId
  · cases fallback.candidate.colocation with
    | none => simp
    | some constraints => simp [hsame]
  · simp [hsame]

namespace Scheduler

/-- No candidate asks for a denial or for staging: those come from the scheduler. -/
theorem Generated.action_ne {scheduler : Scheduler} {request : InferenceRequest}
    {snapshots : List RuntimeSnapshot} {c : Candidate}
    (h : Generated scheduler request snapshots c) :
    c.action ≠ .deny ∧ c.action ≠ .stageBackground := by
  rw [h.action_eq]
  cases c.residencyState <;> decide

/-- A decision was made from generated candidates. -/
theorem generateCandidates_of_decide {scheduler : Scheduler} {request : InferenceRequest}
    {snapshots : List RuntimeSnapshot} {stamp : Stamp} {d : Decision}
    (h : scheduler.decide request snapshots stamp = .ok d) :
    ∃ generated, scheduler.generateCandidates request snapshots = .ok generated := by
  unfold decide at h
  cases hgenerated : scheduler.generateCandidates request snapshots with
  | error e =>
      rw [hgenerated] at h
      cases h
  | ok generated => exact ⟨generated, rfl⟩

/-- A decision that stages a model selects the fallback of the pair and names the other
one. -/
theorem stages_of_decide {scheduler : Scheduler} {request : InferenceRequest}
    {snapshots : List RuntimeSnapshot} {stamp : Stamp} {d : Decision}
    (h : scheduler.decide request snapshots stamp = .ok d)
    (haction : d.action = .stageBackground) :
    ∃ generated cold fallback,
      scheduler.generateCandidates request snapshots = .ok generated ∧
      Stages request scheduler.config.continuity
        (scheduler.scoredCandidates request generated) cold fallback ∧
      d.selectedModel = some fallback.candidate.modelId ∧
      d.selectedRuntime = some fallback.candidate.runtimeId ∧
      d.backgroundModel = some cold.candidate.modelId := by
  obtain ⟨generated, hgenerated⟩ := generateCandidates_of_decide h
  cases outcome_decide hgenerated h with
  | denied => cases haction
  | served hbest =>
      exact absurd haction ((mem_candidates_iff hgenerated).mp hbest).action_ne.2
  | staged hstages => exact ⟨generated, _, _, hgenerated, hstages, rfl, rfl, rfl⟩

/-- A decision that selects a runtime selects that of a generated candidate. -/
theorem exists_candidate_of_decide {scheduler : Scheduler} {request : InferenceRequest}
    {snapshots : List RuntimeSnapshot} {stamp : Stamp} {d : Decision} {runtimeId : RuntimeId}
    (h : scheduler.decide request snapshots stamp = .ok d)
    (hruntime : d.selectedRuntime = some runtimeId) :
    ∃ c, Generated scheduler request snapshots c ∧ c.runtimeId = runtimeId := by
  obtain ⟨generated, hgenerated⟩ := generateCandidates_of_decide h
  cases outcome_decide hgenerated h with
  | denied => cases hruntime
  | served hbest =>
      exact ⟨_, (mem_candidates_iff hgenerated).mp hbest, Option.some.inj hruntime⟩
  | staged hstages =>
      exact ⟨_, (mem_candidates_iff hgenerated).mp hstages.candidates.2.1,
        Option.some.inj hruntime⟩

end Scheduler

end Anemoi
