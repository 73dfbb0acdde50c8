import Anemoi.Policy.Selection
import Anemoi.Systems.WrappingSum

/-!
# Score accounting

A score is kept three times: as a total, as the list of its contributions and in the
impacts of the reasons. `scoreCandidate_eq` gives all three from one list, the reasons of a
candidate. What continuity staging adds to a candidate keeps them in step, so a decision's
total is the sum of its contributions and of the impacts of its reasons.
-/

namespace Anemoi

open Systems

/-! ### The reasons of a candidate -/

def DecisionReason.contribution (r : DecisionReason) : ScoreContribution where
  label := r.code
  value := r.impact

/-- The tally after the given reasons, each a contribution under its code. -/
def Tally.of (reasons : List DecisionReason) : Tally where
  score :=
    { total := wrappingSum (reasons.map DecisionReason.impact)
      contributions := reasons.map DecisionReason.contribution }
  reasons := reasons

theorem Tally.push_of (reasons : List DecisionReason) (label : String) (value : Int32)
    (detail : String) :
    (Tally.of reasons).push label value detail =
      .of (reasons ++ [{ code := label, detail, impact := value }]) := by
  simp only [Tally.of, Tally.push, Tally.record, List.map_append, List.map_cons, List.map_nil,
    wrappingSum_concat, DecisionReason.contribution]

theorem Tally.foldl_push_of (reasons : List DecisionReason) (added : List PressureReason) :
    added.foldl (fun t r => t.push r.code r.impact r.detail) (Tally.of reasons) =
      .of (reasons ++ added.map fun r =>
        { code := r.code, detail := r.detail, impact := r.impact }) := by
  induction added generalizing reasons with
  | nil => rw [List.map_nil, List.append_nil, List.foldl_nil]
  | cons r added ih =>
      rw [List.foldl_cons, Tally.push_of, ih, List.map_cons, List.append_assoc,
        List.singleton_append]

/-- What is added for the latency budget. -/
def latencyImpact (budget loadEstimateMs : UInt64) : Int32 :=
  if budget < loadEstimateMs then -asI32 ((loadEstimateMs - budget) / 500) else 10

def pressureInputs (c : Candidate) : PressureInputs where
  memory := c.runtimeMemory
  vramRequiredMb := c.modelProfile.vramRequiredMb
  ramRequiredMb := c.modelProfile.ramRequiredMb
  isColdLoad := c.action = .coldLoad
  activeRequestCount := c.activeRequestCount

/-- Why a candidate scores what it scores: three reasons that every candidate has, then
those of the budget, the context window, the pressure, the continuity of the group and the
streaming capability. -/
def scoreReasons (request : InferenceRequest) (c : Candidate) (config : AnemoiConfig) :
    List DecisionReason :=
  let model := c.modelProfile
  let state := c.residencyState
  [{ code := "quality", impact := qualityScore model
     detail := s!"{model.id} satisfies the configured roster quality target" },
   { code := "residency", impact := state.reuseBonus
     detail := s!"{model.id} is currently {state.debug}" },
   { code := "load_penalty", impact := -asI32 (c.loadEstimateMs / 1000)
     detail := s!"estimated load cost is {c.loadEstimateMs}ms" }] ++
  (request.latencyBudgetMs.map fun budget =>
    { code := "latency_budget", impact := latencyImpact budget c.loadEstimateMs
      detail := s!"latency budget is {budget}ms" }).toList ++
  ((contextWindowFit request model).map fun fit =>
    { code := "context_window.fit", impact := 10
      detail := s!"request requires {fit.1} token(s) and {model.id} provides a {fit.2} " ++
        "token context window" }).toList ++
  ((({} : PressureModel).assess (pressureInputs c)).reasons.map fun r =>
    { code := r.code, detail := r.detail, impact := r.impact }) ++
  (if c.groupKeepHot || config.continuity.keepSmallWorkerHot then
    [{ code := "continuity", impact := 20
       detail := s!"{model.id} belongs to a continuity-friendly residency group" }]
  else []) ++
  (model.supportsStreaming.map fun supports =>
    { code := "streaming_capability", impact := 0
      detail := if supports then s!"{model.id} supports streaming responses"
        else s!"{model.id} does not support streaming responses" }).toList

/-- The total, the contributions and the reasons of a candidate all come from its
reasons. -/
theorem scoreCandidate_eq (request : InferenceRequest) (c : Candidate) (config : AnemoiConfig) :
    scoreCandidate request c config =
      { action := c.action
        candidate := c
        backgroundModel := none
        score := (Tally.of (scoreReasons request c config)).score
        reasons := scoreReasons request c config } := by
  have hnil : ({} : Tally) = Tally.of [] := rfl
  unfold scoreCandidate scoreReasons
  dsimp only
  -- the optional terms are there or not
  cases request.latencyBudgetMs <;> cases contextWindowFit request c.modelProfile <;>
    cases c.groupKeepHot || config.continuity.keepSmallWorkerHot <;>
    rcases c.modelProfile.supportsStreaming with _ | _ | _ <;>
    simp only [hnil, Tally.push_of, Tally.foldl_push_of] <;> rfl

/-! ### The accounts of a decision -/

/-- The values of the contributions, in order. -/
def DecisionScore.values (score : DecisionScore) : List Int32 :=
  score.contributions.map ScoreContribution.value

theorem Tally.values_of (reasons : List DecisionReason) :
    (Tally.of reasons).score.values = reasons.map DecisionReason.impact := List.map_map

/-- The total is what adding up the contributions gives, and the reasons account for as
much. -/
structure Accounted (score : DecisionScore) (reasons : List DecisionReason) : Prop where
  total_eq : score.total = wrappingSum score.values
  impacts_eq : exactSum (reasons.map DecisionReason.impact) = exactSum score.values

theorem Tally.accounted_of (reasons : List DecisionReason) :
    Accounted (Tally.of reasons).score reasons := by
  constructor
  · rw [Tally.values_of, Tally.of]
  · rw [Tally.values_of]

theorem accounted_scoreCandidate (request : InferenceRequest) (c : Candidate)
    (config : AnemoiConfig) :
    Accounted (scoreCandidate request c config).score
      (scoreCandidate request c config).reasons := by
  rw [scoreCandidate_eq]
  exact Tally.accounted_of (scoreReasons request c config)

theorem Accounted.record {t : Tally} (h : Accounted t.score t.reasons) (r : DecisionReason)
    (label : String) : Accounted (t.record r label).score (t.record r label).reasons := by
  have hvalues : (t.record r label).score.values = t.score.values ++ [r.impact] :=
    List.map_append
  constructor
  · rw [hvalues, wrappingSum_concat, ← h.total_eq]
    rfl
  · have himpacts : (t.record r label).reasons.map DecisionReason.impact =
        t.reasons.map DecisionReason.impact ++ [r.impact] := List.map_append
    rw [hvalues, himpacts, exactSum_append, exactSum_append, h.impacts_eq]

theorem Accounted.stageBehind {fallback : ScoredCandidate}
    (h : Accounted fallback.score fallback.reasons) (request : InferenceRequest)
    (floor : Option (String × Int32)) (cold : ScoredCandidate) :
    Accounted (Anemoi.stageBehind request floor cold fallback).score
      (Anemoi.stageBehind request floor cold fallback).reasons := by
  have hstaged := Accounted.record (t := ⟨fallback.score, fallback.reasons⟩) h
    (stageReason request cold fallback) "continuity background staging"
  unfold Anemoi.stageBehind
  cases floor with
  | none => exact hstaged
  | some f =>
      dsimp only
      split
      · exact hstaged.record (degradedReason f.1 cold fallback) "quality floor degraded fallback"
      · exact hstaged

/-- A reason without impact does not count. -/
theorem Accounted.noteBlockedColocation {best : ScoredCandidate}
    (h : Accounted best.score best.reasons) (cold fallback : ScoredCandidate) :
    Accounted (Anemoi.noteBlockedColocation cold fallback best).score
      (Anemoi.noteBlockedColocation cold fallback best).reasons := by
  refine ⟨h.total_eq, ?_⟩
  unfold Anemoi.noteBlockedColocation
  rw [List.map_append, exactSum_append, h.impacts_eq]
  exact add_zero _

theorem StagingOutcome.accounted {request : InferenceRequest}
    {candidates eligible : List ScoredCandidate} {best selected : ScoredCandidate}
    {continuity : ContinuityConfig} {floor : Option (String × Int32)}
    (h : StagingOutcome request candidates eligible best continuity floor selected)
    (hbest : Accounted best.score best.reasons)
    (hcandidates : ∀ c ∈ candidates, Accounted c.score c.reasons) :
    Accounted selected.score selected.reasons := by
  cases h with
  | staged _ hfallback => exact (hcandidates _ (hotFallback_spec hfallback).1).stageBehind ..
  | blocked => exact hbest.noteBlockedColocation ..
  | kept => exact hbest

namespace Scheduler

variable {scheduler : Scheduler} {request : InferenceRequest}
  {snapshots : List RuntimeSnapshot} {stamp : Stamp} {d : Decision}

/-- The accounts of every decision that selects something are in order. -/
theorem accounted_decide (h : scheduler.decide request snapshots stamp = .ok d)
    (hdeny : d.action ≠ .deny) : Accounted d.score d.explanation.reasons := by
  obtain ⟨generated, hgenerated⟩ := generateCandidates_of_decide h
  rcases decide_cases hgenerated h with ⟨-, rejectedOptions, rfl⟩ | ⟨best, _, hbest, rfl⟩
  · exact absurd rfl hdeny
  obtain ⟨c, -, -, rfl⟩ := mem_eligible.mp (List.mem_of_head? hbest)
  refine (stagingOutcome_apply ..).accounted (accounted_scoreCandidate ..) fun scored hscored => ?_
  obtain ⟨c', -, rfl⟩ := mem_scoredCandidates_iff.mp hscored
  exact accounted_scoreCandidate ..

/-- While no addition overflows, the total is the sum of the contributions and the sum of
the impacts. -/
theorem total_eq_sums_decide (h : scheduler.decide request snapshots stamp = .ok d)
    (hdeny : d.action ≠ .deny) (hfits : RunningTotalsFit d.score.values) :
    d.score.total.toInt = (d.score.contributions.map fun c => c.value.toInt).sum ∧
      d.score.total.toInt = (d.explanation.reasons.map fun r => r.impact.toInt).sum := by
  have haccounted := accounted_decide h hdeny
  have htotal : d.score.total.toInt = exactSum d.score.values := by
    rw [haccounted.total_eq, hfits.toInt_eq]
  constructor
  · rw [htotal, exactSum, DecisionScore.values, List.map_map]
    rfl
  · rw [htotal, ← haccounted.impacts_eq, exactSum, List.map_map]
    rfl

/-- A small model is served below the floor while a large one is staged. -/
theorem total_eq_sums_busy : ∃ d,
    (Scheduler.mk busyConfig).decide floorRequest busySnapshots sampleStamp = .ok d ∧
    d.score.total.toInt = (d.score.contributions.map fun c => c.value.toInt).sum ∧
      d.score.total.toInt = (d.explanation.reasons.map fun r => r.impact.toInt).sum := by
  have h : (Scheduler.mk busyConfig).decide floorRequest busySnapshots sampleStamp = .ok _ := rfl
  exact ⟨_, h, total_eq_sums_decide h (by decide) (by decide +kernel)⟩

end Scheduler

end Anemoi
