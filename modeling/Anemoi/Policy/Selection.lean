import Anemoi.Policy.QualityFloor
import Anemoi.Policy.Rosters

/-!
# The selection of a candidate

What a decision selects, exactly. Of the candidates that meet the floor, the best is the
first with the largest score in the order of generation. Continuity staging hands it back
as it is, unless it stages another one behind the hot or warm candidate that ranks first,
or notes that the matrix of their runtime does not admit the two.

`decide_cases` is the equation of a decision that the other modules start from;
`Outcome` is what remains of it without the reasons.
-/

namespace Anemoi

open Systems

namespace Scheduler

/-- The ranked candidates that meet the floor. -/
def eligible (scheduler : Scheduler) (request : InferenceRequest) (generated : CandidateSet) :
    List ScoredCandidate :=
  (scheduler.scoredCandidates request generated).filter fun c =>
    candidateSatisfiesFloor c (qualityFloorValue request)

theorem mem_eligible {scheduler : Scheduler} {request : InferenceRequest}
    {generated : CandidateSet} {scored : ScoredCandidate} :
    scored ∈ scheduler.eligible request generated ↔
      ∃ c ∈ generated.candidates, c.satisfiesFloor (qualityFloorValue request) ∧
        scoreCandidate request c scheduler.config = scored := by
  rw [eligible, List.mem_filter, mem_scoredCandidates_iff, candidateSatisfiesFloor_iff]
  constructor
  · rintro ⟨⟨c, hc, rfl⟩, hfloor⟩
    exact ⟨c, hc, hfloor, rfl⟩
  · rintro ⟨c, hc, hfloor, rfl⟩
    exact ⟨⟨c, hc, rfl⟩, hfloor⟩

section Decide

variable {scheduler : Scheduler} {request : InferenceRequest}
  {snapshots : List RuntimeSnapshot} {stamp : Stamp} {generated : CandidateSet} {d : Decision}

/-- A decision is a denial when no candidate meets the floor, and else what continuity
staging makes of the best one. -/
theorem decide_cases (hgenerated : scheduler.generateCandidates request snapshots = .ok generated)
    (h : scheduler.decide request snapshots stamp = .ok d) :
    (scheduler.eligible request generated).head? = none ∧
        (∃ rejectedOptions, d = denyDecision request rejectedOptions stamp) ∨
      ∃ best rejectedOptions, (scheduler.eligible request generated).head? = some best ∧
        d = (applyContinuityStaging request (scheduler.scoredCandidates request generated)
          (scheduler.eligible request generated) best scheduler.config.continuity
          (qualityFloorValue request)).intoDecision request rejectedOptions stamp := by
  simp only [decide, hgenerated, bind, Except.bind, pure, Except.pure] at h
  rw [← eligible] at h
  cases hbest : (scheduler.eligible request generated).head? with
  | none =>
      rw [hbest, Except.ok.injEq] at h
      exact Or.inl ⟨rfl, _, h.symm⟩
  | some best =>
      rw [hbest, Except.ok.injEq] at h
      exact Or.inr ⟨best, _, rfl, h.symm⟩

theorem action_of_mem_eligible
    (hgenerated : scheduler.generateCandidates request snapshots = .ok generated)
    {scored : ScoredCandidate} (h : scored ∈ scheduler.eligible request generated) :
    scored.action ≠ .deny ∧ scored.action ≠ .stageBackground := by
  obtain ⟨c, hc, -, rfl⟩ := mem_eligible.mp h
  exact ((mem_candidates_iff hgenerated).mp hc).action_ne

end Decide

end Scheduler

/-! ### What continuity staging answers -/

/-- The answers of continuity staging, exactly: a pair is staged, or the pair that would be
is not admitted on its runtime, or nothing is staged. -/
inductive StagingOutcome (request : InferenceRequest) (candidates : List ScoredCandidate)
    (eligible : List ScoredCandidate) (best : ScoredCandidate) (continuity : ContinuityConfig)
    (floor : Option (String × Int32)) : ScoredCandidate → Prop
  | staged {cold fallback : ScoredCandidate}
      (cold_eq : coldLarge eligible continuity = some cold)
      (fallback_eq : hotFallback candidates = some fallback)
      (wants : wantsStage request continuity cold = true)
      (admits : colocationAdmits cold fallback = true) :
      StagingOutcome request candidates eligible best continuity floor
        (stageBehind request floor cold fallback)
  | blocked {cold fallback : ScoredCandidate}
      (cold_eq : coldLarge eligible continuity = some cold)
      (fallback_eq : hotFallback candidates = some fallback)
      (wants : wantsStage request continuity cold = true)
      (refuses : colocationAdmits cold fallback = false) :
      StagingOutcome request candidates eligible best continuity floor
        (noteBlockedColocation cold fallback best)
  | kept (unwanted : ∀ cold fallback, coldLarge eligible continuity = some cold →
        hotFallback candidates = some fallback → wantsStage request continuity cold = false) :
      StagingOutcome request candidates eligible best continuity floor best

theorem stagingOutcome_apply (request : InferenceRequest)
    (candidates eligible : List ScoredCandidate) (best : ScoredCandidate)
    (continuity : ContinuityConfig) (floor : Option (String × Int32)) :
    StagingOutcome request candidates eligible best continuity floor
      (applyContinuityStaging request candidates eligible best continuity floor) := by
  unfold applyContinuityStaging
  cases hcold : coldLarge eligible continuity with
  | none => exact .kept fun cold fallback h => by simp [hcold] at h
  | some cold =>
      cases hfallback : hotFallback candidates with
      | none => exact .kept fun cold fallback _ h => by simp [hfallback] at h
      | some fallback =>
          cases hwants : wantsStage request continuity cold with
          | false =>
              simp only [hwants, Bool.false_and, Bool.false_eq_true, if_false]
              refine .kept fun cold' fallback' hcold' _ => ?_
              rw [hcold, Option.some.injEq] at hcold'
              exact hcold' ▸ hwants
          | true =>
              cases hadmits : colocationAdmits cold fallback with
              | true =>
                  simp only [hwants, hadmits, Bool.and_self, if_true]
                  exact .staged hcold hfallback hwants hadmits
              | false =>
                  simp only [hwants, hadmits, Bool.and_false, Bool.false_eq_true, if_false,
                    if_true]
                  exact .blocked hcold hfallback hwants hadmits

/-- A decision that is no denial of everything is what continuity staging answers for the best
eligible candidate. -/
theorem Scheduler.outcome_of_decide {scheduler : Scheduler} {request : InferenceRequest}
    {snapshots : List RuntimeSnapshot} {stamp : Stamp} {d : Decision}
    {generated : CandidateSet} {best : ScoredCandidate}
    (hgenerated : scheduler.generateCandidates request snapshots = .ok generated)
    (h : scheduler.decide request snapshots stamp = .ok d)
    (hbest : (scheduler.eligible request generated).head? = some best) :
    ∃ selected rejectedOptions,
      StagingOutcome request (scheduler.scoredCandidates request generated)
        (scheduler.eligible request generated) best scheduler.config.continuity
        (qualityFloorValue request) selected ∧
      d = selected.intoDecision request rejectedOptions stamp := by
  rcases Scheduler.decide_cases hgenerated h with
    ⟨hnone, -⟩ | ⟨best', rejectedOptions, hbest', hd⟩
  · rw [hbest] at hnone
    cases hnone
  · rw [hbest, Option.some.injEq] at hbest'
    subst hbest'
    exact ⟨_, rejectedOptions, stagingOutcome_apply .., hd⟩

/-! ### The tie-break -/

/-- The candidates of one model of one group, in the order of the runtimes that the model's
profile supports. -/
def candidatesAt (config : AnemoiConfig) (request : InferenceRequest)
    (snapshots : List RuntimeSnapshot) (o : ResidencyGroup × ModelId) : List Candidate :=
  match config.models.lookup o.2 with
  | none => []
  | some profile =>
      let model := profile.intoProfile o.2
      if (contextWindowRejection request model).isSome then []
      else model.supportedRuntimes.filterMap fun runtimeId =>
        (availableSnapshot snapshots runtimeId).map fun snapshot =>
          generateCandidate o.1 model runtimeId snapshot

/-- The candidates of a static domain: by the order of its rosters, of each group's models
and of the runtimes that each model's profile supports. -/
def rosterOrder (config : AnemoiConfig) (request : InferenceRequest)
    (snapshots : List RuntimeSnapshot) (domain : DomainConfig) : List Candidate :=
  (occurrences config domain).flatMap (candidatesAt config request snapshots)

/-- What candidates are compared by: the total of their scores. -/
def totalOf (request : InferenceRequest) (config : AnemoiConfig) (c : Candidate) : ℤ :=
  (scoreCandidate request c config).score.total.toInt

def meetsFloor (request : InferenceRequest) (c : Candidate) : Bool :=
  match qualityFloorValue request with
  | none => true
  | some (_, minimum) => minimum ≤ qualityScore c.modelProfile

def Candidate.isHotOrWarm (c : Candidate) : Bool :=
  c.action = .reuseHot || c.action = .promoteWarm

theorem candidates_candidatesForModel (config : AnemoiConfig) (request : InferenceRequest)
    (snapshots : List RuntimeSnapshot) (group : ResidencyGroup) (modelId : ModelId) :
    (candidatesForModel request snapshots config.models group modelId).candidates =
      candidatesAt config request snapshots (group, modelId) := by
  unfold candidatesForModel candidatesAt
  dsimp only
  cases config.models.lookup modelId with
  | none => rfl
  | some profile =>
      dsimp only
      cases contextWindowRejection request (profile.intoProfile modelId) with
      | some reason => rfl
      | none =>
          simp only [Option.isSome_none, Bool.false_eq_true, if_false]
          split
          · next hempty =>
              rw [List.isEmpty_iff.mp hempty]
              rfl
          · rfl

namespace Scheduler

variable {scheduler : Scheduler} {request : InferenceRequest}
  {snapshots : List RuntimeSnapshot} {stamp : Stamp} {generated : CandidateSet} {d : Decision}

/-- Candidates are generated in the order of the rosters. -/
theorem candidates_eq_rosterOrder {domain : DomainConfig}
    (hdomain : scheduler.config.domains.lookup request.domain = some domain)
    (hstatic : domain.liveRoster = none)
    (hgenerated : scheduler.generateCandidates request snapshots = .ok generated) :
    generated.candidates = rosterOrder scheduler.config request snapshots domain := by
  rw [generateCandidates_static hdomain hstatic] at hgenerated
  split at hgenerated
  · cases hgenerated
  · rw [Except.ok.injEq] at hgenerated
    subst hgenerated
    simp only [CandidateSet.candidates_collect, candidates_candidatesForModel]
    exact flatMap_domainGroups scheduler domain (candidatesAt scheduler.config request snapshots)

/-- The best eligible candidate is the first with the largest total among those that meet
the floor. -/
theorem firstBest_of_head?_eligible {best : ScoredCandidate}
    (h : (scheduler.eligible request generated).head? = some best) :
    ∃ c, scoreCandidate request c scheduler.config = best ∧
      FirstBest (totalOf request scheduler.config) (meetsFloor request)
        generated.candidates c := by
  rw [eligible, List.head?_filter, scoredCandidates, find?_rankBy_eq_some_iff] at h
  exact h.of_map

theorem firstBest_of_hotFallback {fallback : ScoredCandidate}
    (h : hotFallback (scheduler.scoredCandidates request generated) = some fallback) :
    ∃ c, scoreCandidate request c scheduler.config = fallback ∧
      FirstBest (totalOf request scheduler.config) Candidate.isHotOrWarm
        generated.candidates c := by
  rw [hotFallback, scoredCandidates, find?_rankBy_eq_some_iff] at h
  exact h.of_map

/-- Without staging a decision selects, of the candidates that meet the floor, the first
with the largest total. -/
theorem selects_firstBest_decide (h : scheduler.decide request snapshots stamp = .ok d)
    (hdeny : d.action ≠ .deny) (hstage : d.action ≠ .stageBackground) :
    ∃ generated domain c,
      scheduler.generateCandidates request snapshots = .ok generated ∧
      scheduler.config.domains.lookup request.domain = some domain ∧
      (domain.liveRoster = none →
        generated.candidates = rosterOrder scheduler.config request snapshots domain) ∧
      FirstBest (totalOf request scheduler.config) (meetsFloor request)
        generated.candidates c ∧
      Selects d c := by
  obtain ⟨generated, hgenerated⟩ := generateCandidates_of_decide h
  obtain ⟨domain, hdomain, -⟩ := generateCandidates_cases hgenerated
  rcases decide_cases hgenerated h with ⟨-, rejectedOptions, rfl⟩ | ⟨best, _, hbest, hd⟩
  · exact absurd rfl hdeny
  obtain ⟨c, hc, hfirst⟩ := firstBest_of_head?_eligible hbest
  refine ⟨generated, domain, c, hgenerated, hdomain,
    fun hstatic => candidates_eq_rosterOrder hdomain hstatic hgenerated, hfirst, ?_⟩
  rcases applyContinuityStaging_cases request (scheduler.scoredCandidates request generated)
      best scheduler.config.continuity with ⟨cold, fallback, -, heq⟩ | ⟨-, reasons, heq⟩
  · rw [← eligible] at heq
    rw [heq] at hd
    exact absurd (congrArg Decision.action hd) hstage
  · rw [← eligible] at heq
    rw [heq, ← hc] at hd
    rw [hd]
    exact ⟨rfl, rfl, rfl⟩

/-- A request that can wait for any load. -/
def patientRequest : InferenceRequest :=
  { floorRequest with latencyBudgetMs := none }

theorem selects_firstBest_busy : ∃ d,
    (Scheduler.mk busyConfig).decide patientRequest busySnapshots sampleStamp = .ok d ∧
    ∃ generated domain c,
      (Scheduler.mk busyConfig).generateCandidates patientRequest busySnapshots =
        .ok generated ∧
      busyConfig.domains.lookup patientRequest.domain = some domain ∧
      (domain.liveRoster = none →
        generated.candidates = rosterOrder busyConfig patientRequest busySnapshots domain) ∧
      FirstBest (totalOf patientRequest busyConfig) (meetsFloor patientRequest)
        generated.candidates c ∧
      Selects d c := by
  have h : (Scheduler.mk busyConfig).decide patientRequest busySnapshots sampleStamp =
      .ok _ := rfl
  exact ⟨_, h, selects_firstBest_decide h (by decide) (by decide)⟩

end Scheduler

/-! ### The colocation gate -/

/-- The colocation constraints of an available runtime, if it has a matrix. -/
def runtimeColocation (snapshots : List RuntimeSnapshot) (runtimeId : RuntimeId) :
    Option ColocationConstraints :=
  (availableSnapshot snapshots runtimeId).bind RuntimeSnapshot.colocation

/-- `cold` would be staged behind `fallback`, but the matrix of the runtime they share has
no loadout of both. -/
structure StageConflict (request : InferenceRequest) (continuity : ContinuityConfig)
    (snapshots : List RuntimeSnapshot) (cold fallback : Candidate) : Prop where
  background_load : continuity.backgroundLoad = true
  prefers_degraded : continuity.preferDegradedResponseOverSilence = true
  over_budget : request.latencyBudgetMs.getD maxU64 < cold.loadEstimateMs
  same_runtime : cold.runtimeId = fallback.runtimeId
  no_loadout : ∃ constraints,
    runtimeColocation snapshots fallback.runtimeId = some constraints ∧
      ∀ loadout ∈ constraints.loadouts, ¬(fallback.modelId ∈ loadout ∧ cold.modelId ∈ loadout)

/-- The decision is `best`'s, with `notes` after its reasons. -/
def ServesBest (request : InferenceRequest) (stamp : Stamp) (best : ScoredCandidate)
    (notes : List DecisionReason) (d : Decision) : Prop :=
  ∃ rejectedOptions, d = ScoredCandidate.intoDecision
    { best with reasons := best.reasons ++ notes } request rejectedOptions stamp

/-- What continuity staging does with the best candidate, the slow cold load and the
fallback it looks at. -/
structure ColocationGate (request : InferenceRequest) (continuity : ContinuityConfig)
    (snapshots : List RuntimeSnapshot) (stamp : Stamp) (best : ScoredCandidate)
    (cold fallback : Option ScoredCandidate) (d : Decision) : Prop where
  staged : d.action = .stageBackground → ∃ c f, cold = some c ∧ fallback = some f ∧
    (c.candidate.runtimeId = f.candidate.runtimeId →
      runtimeColocation snapshots f.candidate.runtimeId = none ∨
      ∃ constraints, runtimeColocation snapshots f.candidate.runtimeId = some constraints ∧
        ∃ loadout ∈ constraints.loadouts,
          f.candidate.modelId ∈ loadout ∧ c.candidate.modelId ∈ loadout)
  blocked : ∀ c f, cold = some c → fallback = some f →
    StageConflict request continuity snapshots c.candidate f.candidate →
    ∃ detail, ServesBest request stamp best
      [{ code := "continuity.stage_blocked_colocation", detail, impact := 0 }] d
  otherwise : d.action ≠ .stageBackground →
    (∀ c f, cold = some c → fallback = some f →
      ¬StageConflict request continuity snapshots c.candidate f.candidate) →
    ServesBest request stamp best [] d

theorem ColocationConstraints.canColocate_iff {constraints : ColocationConstraints}
    {a b : ModelId} :
    constraints.canColocate a b = true ↔
      ∃ loadout ∈ constraints.loadouts, a ∈ loadout ∧ b ∈ loadout := by
  simp [ColocationConstraints.canColocate]

theorem wantsStage_iff {request : InferenceRequest} {continuity : ContinuityConfig}
    {cold : ScoredCandidate} :
    wantsStage request continuity cold = true ↔
      continuity.backgroundLoad = true ∧
      continuity.preferDegradedResponseOverSilence = true ∧
      request.latencyBudgetMs.getD maxU64 < cold.candidate.loadEstimateMs := by
  rw [wantsStage, Bool.and_eq_true, Bool.and_eq_true, decide_eq_true_eq, and_assoc]

theorem find?_and_eq_some {α : Type} {l : List α} {p q : α → Bool} {a : α}
    (h : l.find? p = some a) (ha : q a = true) :
    l.find? (fun b => p b && q b) = some a := by
  rw [List.find?_eq_some_iff_append] at h ⊢
  obtain ⟨hp, before, after, hl, hbefore⟩ := h
  refine ⟨by simp [hp, ha], before, after, hl, fun b hb => ?_⟩
  have hpb := hbefore b hb
  rw [Bool.not_eq_true'] at hpb
  simp [hpb]

namespace Scheduler

variable {scheduler : Scheduler} {request : InferenceRequest}
  {snapshots : List RuntimeSnapshot} {stamp : Stamp} {generated : CandidateSet} {d : Decision}

/-- A candidate carries the constraints of its runtime. -/
theorem Generated.colocation_eq {c : Candidate}
    (h : Generated scheduler request snapshots c) :
    c.colocation = runtimeColocation snapshots c.runtimeId := by
  cases h with
  | static _ _ _ _ _ _ _ _ hsnapshot =>
      rw [runtimeColocation, generateCandidate, hsnapshot]
      rfl
  | @live _ runtimeId snapshot _ _ _ hsnapshot havailable _ _ =>
      have hfound : availableSnapshot snapshots runtimeId = some snapshot :=
        find?_and_eq_some hsnapshot havailable
      rw [runtimeColocation, generateCandidate, hfound]
      rfl

/-- The pair is refused exactly when the runtime they share has no loadout of both. -/
theorem colocationAdmits_eq_false_iff {cold fallback : ScoredCandidate}
    (hfallback : Generated scheduler request snapshots fallback.candidate) :
    colocationAdmits cold fallback = false ↔
      cold.candidate.runtimeId = fallback.candidate.runtimeId ∧
      ∃ constraints,
        runtimeColocation snapshots fallback.candidate.runtimeId = some constraints ∧
        ∀ loadout ∈ constraints.loadouts,
          ¬(fallback.candidate.modelId ∈ loadout ∧ cold.candidate.modelId ∈ loadout) := by
  rw [← hfallback.colocation_eq, ← Bool.not_eq_true, colocationAdmits_iff]
  constructor
  · intro h
    push Not at h
    obtain ⟨hsame, constraints, hconstraints, hrefused⟩ := h
    refine ⟨hsame, constraints, hconstraints, fun loadout hloadout hboth => hrefused ?_⟩
    exact ColocationConstraints.canColocate_iff.mpr ⟨loadout, hloadout, hboth⟩
  · rintro ⟨hsame, constraints, hconstraints, hnone⟩ hadmits
    obtain ⟨loadout, hloadout, hboth⟩ :=
      ColocationConstraints.canColocate_iff.mp (hadmits hsame constraints hconstraints)
    exact hnone loadout hloadout hboth

/-- A pair that is admitted on one runtime has a loadout there, if the runtime has a matrix. -/
theorem exists_loadout_of_colocationAdmits {cold fallback : ScoredCandidate}
    (hfallback : Generated scheduler request snapshots fallback.candidate)
    (hadmits : colocationAdmits cold fallback = true)
    (hsame : cold.candidate.runtimeId = fallback.candidate.runtimeId) :
    runtimeColocation snapshots fallback.candidate.runtimeId = none ∨
      ∃ constraints,
        runtimeColocation snapshots fallback.candidate.runtimeId = some constraints ∧
        ∃ loadout ∈ constraints.loadouts,
          fallback.candidate.modelId ∈ loadout ∧ cold.candidate.modelId ∈ loadout := by
  rw [← hfallback.colocation_eq]
  cases hmatrix : fallback.candidate.colocation with
  | none => exact Or.inl rfl
  | some constraints =>
      have hboth := colocationAdmits_iff.mp hadmits hsame constraints hmatrix
      exact Or.inr ⟨constraints, rfl, ColocationConstraints.canColocate_iff.mp hboth⟩

theorem stageConflict_iff {continuity : ContinuityConfig} {cold fallback : ScoredCandidate}
    (hfallback : Generated scheduler request snapshots fallback.candidate) :
    StageConflict request continuity snapshots cold.candidate fallback.candidate ↔
      wantsStage request continuity cold = true ∧ colocationAdmits cold fallback = false := by
  rw [wantsStage_iff, colocationAdmits_eq_false_iff hfallback]
  constructor
  · intro h
    exact ⟨⟨h.background_load, h.prefers_degraded, h.over_budget⟩, h.same_runtime,
      h.no_loadout⟩
  · rintro ⟨⟨hload, hprefers, hbudget⟩, hsame, hnone⟩
    exact ⟨hload, hprefers, hbudget, hsame, hnone⟩

/-- Runtimes that hold one model at a time. -/
def exclusiveSnapshots : List RuntimeSnapshot :=
  busySnapshots.map fun s => { s with colocation := some ⟨[[⟨"qwen9b"⟩], [⟨"qwen70b"⟩]]⟩ }

/-- The matrix holds the large model back, and the explanation says so. -/
example : ((Scheduler.mk busyConfig).decide floorRequest exclusiveSnapshots
    sampleStamp).toOption.map (fun d => (d.action, d.selectedModel, d.backgroundModel)) =
      some (.reuseHot, some ⟨"qwen35b"⟩, none) := by
  decide +kernel

end Scheduler

end Anemoi
