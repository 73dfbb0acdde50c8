import Anemoi.Policy.Accounting

/-!
# The magnitude of scores

Nothing but their types bounds estimates, budgets and request counts, and a score casts them
to `i32` and adds them up in `i32`. `exactTerms` are the contributions over the integers.
`InRange` says when no conversion, negation, product or sum on the way loses anything, and
where it holds, a larger estimate, a colder model or a busier runtime never scores higher.
-/

namespace Anemoi

open Systems

/-! ### Conversions -/

theorem toInt_asI32_eq_iff {n : UInt64} : (asI32 n).toInt = n.toNat ↔ n.toNat < 2 ^ 31 := by
  rw [asI32, Int32.toInt_ofNat', show (Int32.size : ℕ) = 2 ^ 32 from rfl, bmod_eq_self_iff,
    FitsI32]
  omega

theorem toInt_neg_asI32 {n : UInt64} (h : n.toNat < 2 ^ 31) : (-asI32 n).toInt = -n.toNat := by
  rw [Int32.toInt_neg, toInt_asI32_eq_iff.mpr h, bmod_eq_self_iff, FitsI32]
  omega

theorem toInt_ofNat_eq {count : ℕ} (h : 5 * count ≤ 2 ^ 31) :
    (Int32.ofNat count).toInt = count := by
  rw [Int32.toInt_ofNat', show (Int32.size : ℕ) = 2 ^ 32 from rfl, bmod_eq_self_iff, FitsI32]
  omega

/-- The impact of active requests is exact while five times their number is. -/
theorem toInt_activeRequestReason {count : ℕ} (h : 5 * count ≤ 2 ^ 31) :
    ((({} : PressureModel).activeRequestReason count).impact).toInt = -5 * (count : ℤ) := by
  change (-5 * Int32.ofNat count).toInt = _
  rw [Int32.toInt_mul, toInt_ofNat_eq h, show ((-5 : Int32).toInt) = -5 from rfl,
    bmod_eq_self_iff, FitsI32]
  omega

/-! ### The exact score -/

/-- What the projected memory of a candidate's runtime costs it, for VRAM and for RAM. -/
def memoryImpacts (c : Candidate) : Int32 × Int32 :=
  let inputs := pressureInputs c
  let impact (used total required : Option UInt64) : Int32 :=
    match projectedPressure used total inputs.isColdLoad required with
    | .unknown => 0
    | .known fraction => ({} : PressureModel).dimensionImpact fraction inputs.isColdLoad
  (impact inputs.memory.vramUsedMb inputs.memory.vramTotalMb inputs.vramRequiredMb,
   impact inputs.memory.ramUsedMb inputs.memory.ramTotalMb inputs.ramRequiredMb)

/-- The time that a load takes beyond the budget, in half seconds. -/
def overrun (request : InferenceRequest) (c : Candidate) : ℕ :=
  (request.latencyBudgetMs.map fun budget =>
    (c.loadEstimateMs.toNat - budget.toNat) / 500).getD 0

/-- What a load within the budget earns. -/
def punctuality (request : InferenceRequest) (c : Candidate) : ℕ :=
  (request.latencyBudgetMs.map fun budget =>
    if c.loadEstimateMs ≤ budget then 10 else 0).getD 0

def windowBonus (request : InferenceRequest) (c : Candidate) : ℕ :=
  ((contextWindowFit request c.modelProfile).map fun _ => 10).getD 0

def continuityBonus (c : Candidate) (config : AnemoiConfig) : ℕ :=
  if c.groupKeepHot || config.continuity.keepSmallWorkerHot then 20 else 0

/-- What a candidate scores before anything is counted against it. -/
def merit (c : Candidate) : ℤ :=
  (qualityScore c.modelProfile).toInt + c.residencyState.reuseBonus.toInt

/-- What the memory and the active requests of a runtime count for. -/
def burden (c : Candidate) : ℤ :=
  5 * (c.activeRequestCount : ℤ) - ((memoryImpacts c).1.toInt + (memoryImpacts c).2.toInt)

/-- The contributions to a candidate's score, over the integers. -/
def exactTerms (request : InferenceRequest) (c : Candidate) (config : AnemoiConfig) : List ℤ :=
  [(qualityScore c.modelProfile).toInt, c.residencyState.reuseBonus.toInt,
    -(c.loadEstimateMs.toNat / 1000 : ℕ)] ++
  (request.latencyBudgetMs.map fun _ =>
    (punctuality request c : ℤ) - overrun request c).toList ++
  ((contextWindowFit request c.modelProfile).map fun _ => 10).toList ++
  [(memoryImpacts c).1.toInt, (memoryImpacts c).2.toInt, -5 * (c.activeRequestCount : ℤ)] ++
  (if c.groupKeepHot || config.continuity.keepSmallWorkerHot then [20] else []) ++
  (c.modelProfile.supportsStreaming.map fun _ => 0).toList

/-- The estimate, the overrun and the number of requests are small enough for `i32`, each
alone and together. -/
structure InRange (request : InferenceRequest) (c : Candidate) : Prop where
  load : c.loadEstimateMs.toNat / 1000 < 2 ^ 31
  overrun : overrun request c < 2 ^ 31
  burden : burden c ≤ 2 ^ 31
  wait : (c.loadEstimateMs.toNat / 1000 + Anemoi.overrun request c : ℕ) ≤ 2 ^ 31 + merit c
  total : (c.loadEstimateMs.toNat / 1000 + Anemoi.overrun request c : ℕ) + Anemoi.burden c ≤
    2 ^ 31 + merit c + punctuality request c + windowBonus request c

/-- Every `i32` operation of a candidate's score gives the integer it stands for. -/
structure ComputesExactly (request : InferenceRequest) (c : Candidate) (config : AnemoiConfig) :
    Prop where
  load : (asI32 (c.loadEstimateMs / 1000)).toInt = (c.loadEstimateMs / 1000).toNat
  load_neg : (-asI32 (c.loadEstimateMs / 1000)).toInt =
    -(asI32 (c.loadEstimateMs / 1000)).toInt
  latency : ∀ budget, request.latencyBudgetMs = some budget → budget < c.loadEstimateMs →
    (asI32 ((c.loadEstimateMs - budget) / 500)).toInt =
      ((c.loadEstimateMs - budget) / 500).toNat
  latency_neg : ∀ budget, request.latencyBudgetMs = some budget → budget < c.loadEstimateMs →
    (-asI32 ((c.loadEstimateMs - budget) / 500)).toInt =
      -(asI32 ((c.loadEstimateMs - budget) / 500)).toInt
  count : (Int32.ofNat c.activeRequestCount).toInt = c.activeRequestCount
  product : (({} : PressureModel).activeRequestPenaltyEach *
      Int32.ofNat c.activeRequestCount).toInt =
    ({} : PressureModel).activeRequestPenaltyEach.toInt *
      (Int32.ofNat c.activeRequestCount).toInt
  penalty : RunningTotalsFit
    ((({} : PressureModel).assess (pressureInputs c)).reasons.map PressureReason.impact)
  total : RunningTotalsFit (scoreCandidate request c config).score.values

theorem impacts_assess (c : Candidate) :
    (({} : PressureModel).assess (pressureInputs c)).reasons.map PressureReason.impact =
      [(memoryImpacts c).1, (memoryImpacts c).2,
        (({} : PressureModel).activeRequestReason c.activeRequestCount).impact] := by
  have hdimension : ∀ dimension current projected isColdLoad,
      (({} : PressureModel).dimensionReason dimension current projected isColdLoad).impact =
        match projected with
        | .unknown => 0
        | .known fraction => ({} : PressureModel).dimensionImpact fraction isColdLoad := by
    intro dimension current projected isColdLoad
    cases projected <;> rfl
  simp only [PressureModel.assess, List.map_cons, List.map_nil, hdimension]
  rfl

theorem toInt_dimensionImpact_nonpos (projected : Rat) (isColdLoad : Bool) :
    -25 ≤ (({} : PressureModel).dimensionImpact projected isColdLoad).toInt ∧
      (({} : PressureModel).dimensionImpact projected isColdLoad).toInt ≤ 0 := by
  unfold PressureModel.dimensionImpact
  split
  · decide
  · split
    · decide
    · split <;> decide

theorem memoryImpacts_bounds (c : Candidate) :
    (-25 ≤ (memoryImpacts c).1.toInt ∧ (memoryImpacts c).1.toInt ≤ 0) ∧
      (-25 ≤ (memoryImpacts c).2.toInt ∧ (memoryImpacts c).2.toInt ≤ 0) := by
  unfold memoryImpacts
  dsimp only
  constructor
  · split
    · decide
    · exact toInt_dimensionImpact_nonpos ..
  · split
    · decide
    · exact toInt_dimensionImpact_nonpos ..

/-- Only a cold load adds memory. -/
theorem memoryImpacts_of_not_coldLoad {c : Candidate} (h : c.action ≠ .coldLoad) :
    memoryImpacts c = (0, 0) := by
  have hwarm : (pressureInputs c).isColdLoad = false := decide_eq_false h
  have hzero : ∀ projected,
      ({} : PressureModel).dimensionImpact projected false = 0 := fun _ => rfl
  unfold memoryImpacts
  simp only [hwarm, hzero]
  congr 1 <;> split <;> rfl

theorem activeRequestCount_le_of_burden {c : Candidate} (h : burden c ≤ 2 ^ 31) :
    5 * c.activeRequestCount ≤ 2 ^ 31 := by
  have hmemory := memoryImpacts_bounds c
  unfold burden at h
  omega

theorem toNat_sub_div {budget loadMs : UInt64} (h : budget ≤ loadMs) :
    ((loadMs - budget) / 500).toNat = (loadMs.toNat - budget.toNat) / 500 := by
  rw [UInt64.toNat_div, UInt64.toNat_sub_of_le _ _ h]
  rfl

theorem toInt_latencyImpact {request : InferenceRequest} {c : Candidate} {budget : UInt64}
    (hbudget : request.latencyBudgetMs = some budget) (h : overrun request c < 2 ^ 31) :
    (latencyImpact budget c.loadEstimateMs).toInt =
      (punctuality request c : ℤ) - overrun request c := by
  simp only [overrun, punctuality, hbudget, Option.map_some, Option.getD_some] at h ⊢
  rw [latencyImpact]
  by_cases hlt : budget < c.loadEstimateMs
  · have hquot := toNat_sub_div (UInt64.le_of_lt hlt)
    rw [if_pos hlt, if_neg (UInt64.not_le.mpr hlt), toInt_neg_asI32 (by rw [hquot]; exact h),
      hquot]
    omega
  · have hle : c.loadEstimateMs.toNat ≤ budget.toNat :=
      UInt64.le_iff_toNat_le.mp (UInt64.not_lt.mp hlt)
    rw [if_neg hlt, if_pos (UInt64.not_lt.mp hlt), Nat.sub_eq_zero_of_le hle]
    rfl

/-- The contributions of a candidate, in order. -/
theorem values_scoreCandidate (request : InferenceRequest) (c : Candidate)
    (config : AnemoiConfig) :
    (scoreCandidate request c config).score.values =
      [qualityScore c.modelProfile, c.residencyState.reuseBonus,
        -asI32 (c.loadEstimateMs / 1000)] ++
      (request.latencyBudgetMs.map fun budget => latencyImpact budget c.loadEstimateMs).toList ++
      ((contextWindowFit request c.modelProfile).map fun _ => 10).toList ++
      [(memoryImpacts c).1, (memoryImpacts c).2,
        (({} : PressureModel).activeRequestReason c.activeRequestCount).impact] ++
      (if c.groupKeepHot || config.continuity.keepSmallWorkerHot then [20] else []) ++
      (c.modelProfile.supportsStreaming.map fun _ => 0).toList := by
  rw [scoreCandidate_eq, Tally.values_of, ← impacts_assess, scoreReasons]
  simp only [List.map_append, List.map_cons, List.map_nil, List.map_map, Option.toList_map,
    apply_ite]
  rfl

/-- The contributions are the exact terms while none of them is out of range. -/
theorem toInt_values {request : InferenceRequest} {c : Candidate} {config : AnemoiConfig}
    (hload : c.loadEstimateMs.toNat / 1000 < 2 ^ 31) (hoverrun : overrun request c < 2 ^ 31)
    (hcount : 5 * c.activeRequestCount ≤ 2 ^ 31) :
    (scoreCandidate request c config).score.values.map Int32.toInt =
      exactTerms request c config := by
  have hpenalty : (-asI32 (c.loadEstimateMs / 1000)).toInt =
      -(c.loadEstimateMs.toNat / 1000 : ℕ) := by
    have hquot : (c.loadEstimateMs / 1000).toNat = c.loadEstimateMs.toNat / 1000 :=
      UInt64.toNat_div _ _
    rw [toInt_neg_asI32 (by rw [hquot]; exact hload), hquot]
  have hbudget : (request.latencyBudgetMs.map fun budget =>
      latencyImpact budget c.loadEstimateMs).toList.map Int32.toInt =
      (request.latencyBudgetMs.map fun _ =>
        (punctuality request c : ℤ) - overrun request c).toList := by
    cases hsome : request.latencyBudgetMs with
    | none => rfl
    | some budget => exact congrArg (fun n => [n]) (toInt_latencyImpact hsome hoverrun)
  rw [values_scoreCandidate, exactTerms]
  simp only [List.map_append, hbudget, List.map_cons, List.map_nil, hpenalty,
    toInt_activeRequestReason hcount]
  congr 2
  · cases contextWindowFit request c.modelProfile <;> rfl
  · cases c.groupKeepHot || config.continuity.keepSmallWorkerHot <;> rfl
  · cases c.modelProfile.supportsStreaming <;> rfl

theorem toInt_parameterClassValue_bounds (parameterClass : String) :
    1 ≤ (parameterClassValue parameterClass).toInt ∧
      (parameterClassValue parameterClass).toInt ≤ 100 := by
  unfold parameterClassValue
  generalize (parseI32 (parameterClass.toList.filter Char.isDigit)).getD 1 = digits
  dsimp only
  by_cases hlow : digits < 1
  · rw [if_pos hlow]
    decide
  · by_cases hhigh : 100 < digits
    · rw [if_neg hlow, if_pos hhigh]
      decide
    · rw [if_neg hlow, if_neg hhigh]
      rw [Int32.lt_iff_toInt_lt] at hlow hhigh
      exact ⟨not_lt.mp hlow, not_lt.mp hhigh⟩

theorem merit_bounds (c : Candidate) : -9 ≤ merit c ∧ merit c ≤ 160 := by
  have hquality : 1 ≤ (qualityScore c.modelProfile).toInt ∧
      (qualityScore c.modelProfile).toInt ≤ 100 := toInt_parameterClassValue_bounds _
  have hreuse : -10 ≤ c.residencyState.reuseBonus.toInt ∧
      c.residencyState.reuseBonus.toInt ≤ 60 := by
    cases c.residencyState <;> decide
  unfold merit
  omega

/-- Without a budget there is nothing to be late for. -/
theorem overrun_of_none {request : InferenceRequest} {c : Candidate}
    (h : request.latencyBudgetMs = none) :
    overrun request c = 0 ∧ punctuality request c = 0 := by
  rw [overrun, punctuality, h]
  exact ⟨rfl, rfl⟩

theorem sum_exactTerms (request : InferenceRequest) (c : Candidate) (config : AnemoiConfig) :
    (exactTerms request c config).sum =
      merit c + punctuality request c + windowBonus request c + continuityBonus c config -
        (c.loadEstimateMs.toNat / 1000 + overrun request c : ℕ) - burden c := by
  have hbudget : (request.latencyBudgetMs.map fun _ =>
      (punctuality request c : ℤ) - overrun request c).toList.sum =
        punctuality request c - overrun request c := by
    cases hsome : request.latencyBudgetMs with
    | none =>
        obtain ⟨hoverrun, hpunctual⟩ := overrun_of_none (c := c) hsome
        rw [hoverrun, hpunctual]
        rfl
    | some budget => exact add_zero _
  have hwindow : ((contextWindowFit request c.modelProfile).map fun _ => (10 : ℤ)).toList.sum =
      windowBonus request c := by
    rw [windowBonus]
    cases contextWindowFit request c.modelProfile <;> rfl
  have hcontinuity : (if c.groupKeepHot || config.continuity.keepSmallWorkerHot then [(20 : ℤ)]
      else []).sum = continuityBonus c config := by
    rw [continuityBonus]
    split <;> rfl
  have hstreaming : (c.modelProfile.supportsStreaming.map fun _ => (0 : ℤ)).toList.sum = 0 := by
    cases c.modelProfile.supportsStreaming <;> rfl
  rw [exactTerms, List.sum_append, List.sum_append, List.sum_append, List.sum_append,
    List.sum_append, hbudget, hwindow, hcontinuity, hstreaming]
  simp only [List.sum_cons, List.sum_nil, merit, burden]
  omega

theorem punctuality_eq_zero_or (request : InferenceRequest) (c : Candidate) :
    punctuality request c = 0 ∨ punctuality request c = 10 ∧ overrun request c = 0 := by
  unfold punctuality overrun
  cases request.latencyBudgetMs with
  | none => exact .inl rfl
  | some budget =>
      rw [Option.map_some, Option.getD_some, Option.map_some, Option.getD_some]
      split
      next h => exact .inr ⟨rfl, by rw [Nat.sub_eq_zero_of_le (UInt64.le_iff_toNat_le.mp h)]⟩
      next => exact .inl rfl

/-- The running totals are lowest after the latency budget and after the active requests. -/
theorem runsWithin_exactTerms_iff {request : InferenceRequest} {c : Candidate}
    {config : AnemoiConfig} :
    RunsWithin 0 (exactTerms request c config) ↔
      (c.loadEstimateMs.toNat / 1000 + overrun request c : ℕ) ≤ 2 ^ 31 + merit c ∧
      (c.loadEstimateMs.toNat / 1000 + overrun request c : ℕ) + burden c ≤
        2 ^ 31 + merit c + punctuality request c + windowBonus request c := by
  have hquality : 1 ≤ (qualityScore c.modelProfile).toInt ∧
      (qualityScore c.modelProfile).toInt ≤ 100 := toInt_parameterClassValue_bounds _
  have hmerit := merit_bounds c
  have hmemory := memoryImpacts_bounds c
  have hpunctual := punctuality_eq_zero_or request c
  have hunlimited := @overrun_of_none request c
  unfold exactTerms windowBonus burden
  unfold merit at hmerit ⊢
  -- the optional terms are there or not
  cases hbudget : request.latencyBudgetMs <;> cases contextWindowFit request c.modelProfile <;>
    cases c.groupKeepHot || config.continuity.keepSmallWorkerHot <;>
    cases c.modelProfile.supportsStreaming <;>
    simp [hbudget, FitsI32] at hunlimited ⊢ <;> omega

theorem overrun_of_lt {request : InferenceRequest} {c : Candidate} {budget : UInt64}
    (hbudget : request.latencyBudgetMs = some budget) (hlt : budget < c.loadEstimateMs) :
    overrun request c = ((c.loadEstimateMs - budget) / 500).toNat := by
  rw [overrun, hbudget, Option.map_some, Option.getD_some, toNat_sub_div (UInt64.le_of_lt hlt)]

theorem overrun_lt_iff {request : InferenceRequest} {c : Candidate} :
    overrun request c < 2 ^ 31 ↔
      ∀ budget, request.latencyBudgetMs = some budget → budget < c.loadEstimateMs →
        (asI32 ((c.loadEstimateMs - budget) / 500)).toInt =
          ((c.loadEstimateMs - budget) / 500).toNat := by
  constructor
  · intro h budget hbudget hlt
    rw [toInt_asI32_eq_iff, ← overrun_of_lt hbudget hlt]
    exact h
  · intro h
    cases hbudget : request.latencyBudgetMs with
    | none =>
        rw [overrun, hbudget]
        exact Nat.two_pow_pos 31
    | some budget =>
        by_cases hlt : budget < c.loadEstimateMs
        · rw [overrun_of_lt hbudget hlt]
          exact toInt_asI32_eq_iff.mp (h budget hbudget hlt)
        · rw [overrun, hbudget, Option.map_some, Option.getD_some,
            Nat.sub_eq_zero_of_le (UInt64.le_iff_toNat_le.mp (UInt64.not_lt.mp hlt))]
          decide

/-- The running penalties of the pressure model are lowest at the end. -/
theorem penaltiesFit_iff (c : Candidate) :
    RunningTotalsFit
      ((({} : PressureModel).assess (pressureInputs c)).reasons.map PressureReason.impact) ↔
      -2 ^ 31 ≤ (memoryImpacts c).1.toInt + (memoryImpacts c).2.toInt +
        (({} : PressureModel).activeRequestReason c.activeRequestCount).impact.toInt := by
  have hmemory := memoryImpacts_bounds c
  have hactive := fitsI32_toInt
    (({} : PressureModel).activeRequestReason c.activeRequestCount).impact
  rw [runningTotalsFit_iff, impacts_assess]
  simp only [List.map_cons, List.map_nil, runsWithin_cons, runsWithin_nil, FitsI32] at hactive ⊢
  omega

theorem toNat_div_seconds (loadMs : UInt64) : (loadMs / 1000).toNat = loadMs.toNat / 1000 :=
  UInt64.toNat_div _ _

/-- Only in range is every operation exact. -/
theorem ComputesExactly.inRange {request : InferenceRequest} {c : Candidate}
    {config : AnemoiConfig} (h : ComputesExactly request c config) : InRange request c := by
  have hload : c.loadEstimateMs.toNat / 1000 < 2 ^ 31 :=
    toNat_div_seconds c.loadEstimateMs ▸ toInt_asI32_eq_iff.mp h.load
  have hoverrun : overrun request c < 2 ^ 31 := overrun_lt_iff.mpr h.latency
  have hactive : (({} : PressureModel).activeRequestReason c.activeRequestCount).impact.toInt =
      -5 * (c.activeRequestCount : ℤ) := by
    rw [← h.count]
    exact h.product
  have hburden : burden c ≤ 2 ^ 31 := by
    have hsum := (penaltiesFit_iff c).mp h.penalty
    rw [hactive] at hsum
    unfold burden
    omega
  have hcount := activeRequestCount_le_of_burden hburden
  have htotals := runningTotalsFit_iff.mp h.total
  rw [toInt_values hload hoverrun hcount] at htotals
  obtain ⟨hwait, htotal⟩ := runsWithin_exactTerms_iff.mp htotals
  exact ⟨hload, hoverrun, hburden, hwait, htotal⟩

/-- In range, every operation is exact. -/
theorem InRange.computesExactly {request : InferenceRequest} {c : Candidate}
    (h : InRange request c) (config : AnemoiConfig) : ComputesExactly request c config := by
  obtain ⟨hload, hoverrun, hburden, hwait, htotal⟩ := h
  have hcount := activeRequestCount_le_of_burden hburden
  have hload' : (c.loadEstimateMs / 1000).toNat < 2 ^ 31 :=
    toNat_div_seconds c.loadEstimateMs ▸ hload
  exact {
    load := toInt_asI32_eq_iff.mpr hload'
    load_neg := by rw [toInt_neg_asI32 hload', toInt_asI32_eq_iff.mpr hload']
    latency := overrun_lt_iff.mp hoverrun
    latency_neg := by
      intro budget hbudget hlt
      have hfits : ((c.loadEstimateMs - budget) / 500).toNat < 2 ^ 31 :=
        overrun_of_lt hbudget hlt ▸ hoverrun
      rw [toInt_neg_asI32 hfits, toInt_asI32_eq_iff.mpr hfits]
    count := toInt_ofNat_eq hcount
    product := by
      rw [toInt_ofNat_eq hcount]
      exact toInt_activeRequestReason hcount
    penalty := by
      rw [penaltiesFit_iff, toInt_activeRequestReason hcount]
      unfold Anemoi.burden at hburden
      omega
    total := by
      rw [runningTotalsFit_iff, toInt_values hload hoverrun hcount]
      exact runsWithin_exactTerms_iff.mpr ⟨hwait, htotal⟩ }

/-- In range, a total is its merit less the wait and the burden. -/
theorem toInt_total {request : InferenceRequest} {c : Candidate} {config : AnemoiConfig}
    (h : InRange request c) :
    (scoreCandidate request c config).score.total.toInt =
      merit c + punctuality request c + windowBonus request c + continuityBonus c config -
        (c.loadEstimateMs.toNat / 1000 + overrun request c : ℕ) - burden c := by
  have hexact : ComputesExactly request c config := h.computesExactly config
  have hcount := activeRequestCount_le_of_burden h.burden
  have hsum : exactSum (scoreCandidate request c config).score.values =
      (exactTerms request c config).sum := by
    rw [exactSum, toInt_values h.load h.overrun hcount]
  rw [(accounted_scoreCandidate request c config).total_eq, hexact.total.toInt_eq, hsum,
    sum_exactTerms]

/-! ### Comparing candidates -/

/-- `c` has at least the merit of `c'`, loads at least as fast and weighs at most as much on
its runtime; nothing else distinguishes the scores of the two. -/
structure Candidate.Dominates (c c' : Candidate) : Prop where
  merit : Anemoi.merit c' ≤ Anemoi.merit c
  load : c.loadEstimateMs ≤ c'.loadEstimateMs
  burden : Anemoi.burden c ≤ Anemoi.burden c'
  window : c.modelProfile.contextWindow = c'.modelProfile.contextWindow
  keepHot : c.groupKeepHot = c'.groupKeepHot

namespace Candidate.Dominates

variable {c c' : Candidate}

theorem overrun_le (h : c.Dominates c') (request : InferenceRequest) :
    overrun request c ≤ overrun request c' := by
  have hload : c.loadEstimateMs.toNat ≤ c'.loadEstimateMs.toNat :=
    UInt64.le_iff_toNat_le.mp h.load
  unfold overrun
  cases request.latencyBudgetMs with
  | none => exact le_rfl
  | some budget => exact Nat.div_le_div_right (Nat.sub_le_sub_right hload _)

theorem punctuality_le (h : c.Dominates c') (request : InferenceRequest) :
    punctuality request c' ≤ punctuality request c := by
  unfold punctuality
  cases request.latencyBudgetMs with
  | none => exact le_rfl
  | some budget =>
      rw [Option.map_some, Option.getD_some, Option.map_some, Option.getD_some]
      by_cases hle : c'.loadEstimateMs ≤ budget
      · rw [if_pos hle, if_pos (UInt64.le_trans h.load hle)]
      · rw [if_neg hle]
        exact Nat.zero_le _

theorem windowBonus_eq (h : c.Dominates c') (request : InferenceRequest) :
    windowBonus request c = windowBonus request c' := by
  rw [windowBonus, windowBonus, contextWindowFit, contextWindowFit, h.window]

/-- What is in range stays so in a better candidate. -/
theorem inRange {request : InferenceRequest} (h : c.Dominates c')
    (hrange : InRange request c') : InRange request c := by
  have hload : c.loadEstimateMs.toNat ≤ c'.loadEstimateMs.toNat :=
    UInt64.le_iff_toNat_le.mp h.load
  have hoverrun := h.overrun_le request
  have hpunctual := h.punctuality_le request
  have hwindow := h.windowBonus_eq request
  obtain ⟨hmerit, -, hburden, -, -⟩ := h
  obtain ⟨hrload, hroverrun, hrburden, hwait, htotal⟩ := hrange
  constructor <;> omega

/-- A better candidate does not score lower. -/
theorem total_le {request : InferenceRequest} (h : c.Dominates c')
    (hrange : InRange request c') (config : AnemoiConfig) :
    (scoreCandidate request c' config).score.total ≤
      (scoreCandidate request c config).score.total := by
  have hload : c.loadEstimateMs.toNat ≤ c'.loadEstimateMs.toNat :=
    UInt64.le_iff_toNat_le.mp h.load
  have hoverrun := h.overrun_le request
  have hpunctual := h.punctuality_le request
  have hwindow := h.windowBonus_eq request
  have hkeep : continuityBonus c config = continuityBonus c' config := by
    rw [continuityBonus, continuityBonus, h.keepHot]
  rw [Int32.le_iff_toInt_le, toInt_total hrange, toInt_total (h.inRange hrange)]
  obtain ⟨hmerit, -, hburden, -, -⟩ := h
  omega

end Candidate.Dominates

/-! ### A model in every state -/

/-- All that the score of a model depends on, but for the state the model is in. -/
structure ScoringCase where
  request : InferenceRequest
  config : AnemoiConfig
  group : ResidencyGroup
  model : ModelProfile
  runtimeId : RuntimeId
  snapshot : RuntimeSnapshot

namespace ScoringCase

/-- The candidate that the model is in the given state. -/
def candidate (x : ScoringCase) (state : ResidencyState) : Candidate :=
  generateCandidate x.group x.model x.runtimeId
    { x.snapshot with
      residents :=
        [{ modelId := x.model.id, state, vramMb := none, ramMb := none, kvCacheMb := none
           loadedSince := none }] }

def total (x : ScoringCase) (state : ResidencyState) : Int32 :=
  (scoreCandidate x.request (x.candidate state) x.config).score.total

def withEstimate (x : ScoringCase) (estimate : UInt64) : ScoringCase :=
  { x with model := { x.model with coldLoadEstimateMs := some estimate } }

def withRequests (x : ScoringCase) (requests : List ActiveExecution) : ScoringCase :=
  { x with snapshot := { x.snapshot with activeRequests := requests } }

theorem candidate_eq (x : ScoringCase) (state : ResidencyState) :
    x.candidate state =
      { action := actionFor state
        modelId := x.model.id
        runtimeId := x.runtimeId
        groupId := x.group.id
        modelProfile := x.model
        residencyState := state
        loadEstimateMs := loadEstimateFor (actionFor state) x.model
        runtimeMemory := x.snapshot.memory
        activeRequestCount := x.snapshot.activeRequests.length
        groupKeepHot := x.group.keepHot
        colocation := x.snapshot.colocation } := by
  simp only [candidate, generateCandidate, residencyOf, List.find?_cons, decide_true]

/-- A longer estimate, a colder state or more active requests never raise the total, and no
operation of any of these scores truncates or overflows. -/
structure MonotoneScores (x : ScoringCase) : Prop where
  estimate : ∀ state e e', x.model.coldLoadEstimateMs = some e' → e ≤ e' →
    x.total state ≤ (x.withEstimate e).total state
  residency : x.total .cold ≤ x.total .partial_ ∧ x.total .cold ≤ x.total .loading ∧
    x.total .partial_ ≤ x.total .warmCpu ∧ x.total .loading ≤ x.total .warmCpu ∧
    x.total .warmCpu ≤ x.total .hotGpu
  requests : ∀ state requests, requests.length ≤ x.snapshot.activeRequests.length →
    x.total state ≤ (x.withRequests requests).total state
  exact : ∀ state, ComputesExactly x.request (x.candidate state) x.config

/-- A longer estimate makes no load faster. -/
theorem dominates_withEstimate {x : ScoringCase} {e e' : UInt64}
    (h : x.model.coldLoadEstimateMs = some e') (hle : e ≤ e') (state : ResidencyState) :
    ((x.withEstimate e).candidate state).Dominates (x.candidate state) := by
  have hload : ∀ action, loadEstimateFor action (x.withEstimate e).model ≤
      loadEstimateFor action x.model := by
    intro action
    unfold loadEstimateFor withEstimate
    rw [h]
    cases action with
    | coldLoad => exact hle
    | promoteWarm =>
        rw [UInt64.le_iff_toNat_le] at hle ⊢
        exact Nat.div_le_div_right hle
    | _ => exact UInt64.le_refl _
  rw [candidate_eq, candidate_eq]
  exact ⟨le_rfl, hload _, le_rfl, rfl, rfl⟩

theorem dominates_withRequests {x : ScoringCase} {requests : List ActiveExecution}
    (h : requests.length ≤ x.snapshot.activeRequests.length) (state : ResidencyState) :
    ((x.withRequests requests).candidate state).Dominates (x.candidate state) := by
  rw [candidate_eq, candidate_eq]
  refine ⟨le_rfl, UInt64.le_refl _, ?_, rfl, rfl⟩
  -- the memory that a load takes is the same
  exact Int.sub_le_sub_right
    (Int.mul_le_mul_of_nonneg_left (Int.ofNat_le.mpr h) (by decide)) _

/-- A warmer state is better, when it does not need a cold load itself. -/
theorem dominates_warmer (x : ScoringCase) {state state' : ResidencyState}
    (hbonus : state'.reuseBonus.toInt ≤ state.reuseBonus.toInt)
    (hload : loadEstimateFor (actionFor state) x.model ≤
      loadEstimateFor (actionFor state') x.model)
    (hwarm : actionFor state ≠ .coldLoad) :
    (x.candidate state).Dominates (x.candidate state') := by
  have hburden : burden (x.candidate state) ≤ burden (x.candidate state') := by
    have hmemory := memoryImpacts_bounds (x.candidate state')
    have hfree : memoryImpacts (x.candidate state) = (0, 0) :=
      memoryImpacts_of_not_coldLoad (by rw [candidate_eq]; exact hwarm)
    have hcount : (x.candidate state).activeRequestCount =
        (x.candidate state').activeRequestCount := rfl
    rw [burden, burden, hfree, hcount, show (0 : Int32).toInt = 0 from rfl]
    omega
  refine ⟨?_, ?_, hburden, rfl, rfl⟩
  · rw [candidate_eq, candidate_eq]
    exact Int.add_le_add_left hbonus _
  · rw [candidate_eq, candidate_eq]
    exact hload

theorem promoteWarm_le_coldLoad (model : ModelProfile) :
    loadEstimateFor .promoteWarm model ≤ loadEstimateFor .coldLoad model := by
  rw [UInt64.le_iff_toNat_le]
  unfold loadEstimateFor
  cases model.coldLoadEstimateMs with
  | none => decide
  | some estimate => exact Nat.div_le_self _ _

/-- An estimate of three billion seconds, which no `i32` holds. -/
def endlessLoad : ScoringCase where
  request := { Scheduler.floorRequest with latencyBudgetMs := none }
  config := Scheduler.busyConfig
  group :=
    { id := ⟨"fast"⟩, purpose := [], models := [⟨"qwen9b"⟩], keepHot := false
      allowBackgroundLoad := false, pinned := false }
  model :=
    { id := ⟨"qwen9b"⟩, family := "qwen", parameterClass := "9b", contextWindow := none
      vramRequiredMb := none, ramRequiredMb := none
      coldLoadEstimateMs := some 3000000000000, supportsStreaming := none
      supportedRuntimes := [⟨"a"⟩] }
  runtimeId := ⟨"a"⟩
  snapshot :=
    { runtimeId := ⟨"a"⟩, available := true, residents := [], configuredModels := []
      memory := {}, activeRequests := [], colocation := none }

end ScoringCase

end Anemoi
