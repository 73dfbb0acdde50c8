import Anemoi.Policy.Pressure
import Anemoi.Systems.WrappingSum
import Mathlib.Data.Rat.Defs
import Mathlib.Tactic.GCongr
import Mathlib.Tactic.Positivity

/-!
# What a pressure assessment may be trusted with

A dimension is known when both its use and its capacity were reported, more memory never
costs less, and the penalty is the sum of the reasons. `honestAssessment_iff` says when an
assessment is all that: a capacity that comes without a use is assessed as if nothing were
in use, and the sum of use and need wraps.
-/

namespace Anemoi

open Systems

/-- The two kinds of memory that are assessed. -/
inductive MemoryDimension where
  | vram
  | ram
  deriving DecidableEq, Repr

namespace MemoryDimension

def name : MemoryDimension → String
  | vram => "vram"
  | ram => "ram"

def used (memory : RuntimeMemorySnapshot) : MemoryDimension → Option UInt64
  | vram => memory.vramUsedMb
  | ram => memory.ramUsedMb

def total (memory : RuntimeMemorySnapshot) : MemoryDimension → Option UInt64
  | vram => memory.vramTotalMb
  | ram => memory.ramTotalMb

def required (inputs : PressureInputs) : MemoryDimension → Option UInt64
  | vram => inputs.vramRequiredMb
  | ram => inputs.ramRequiredMb

def reading (assessment : PressureAssessment) : MemoryDimension → Pressure
  | vram => assessment.vram
  | ram => assessment.ram

/-- The impact of the reason that is given for a dimension. -/
def impact (assessment : PressureAssessment) (d : MemoryDimension) : Option Int32 :=
  (assessment.reasons.find? fun reason => reason.code = s!"pressure.{d.name}").map
    PressureReason.impact

/-- The same inputs with another use and another need. -/
def reset (inputs : PressureInputs) (used required : Option UInt64) :
    MemoryDimension → PressureInputs
  | vram =>
      { inputs with
        memory := { inputs.memory with vramUsedMb := used }
        vramRequiredMb := required }
  | ram =>
      { inputs with
        memory := { inputs.memory with ramUsedMb := used }
        ramRequiredMb := required }

/-- Both numbers of a dimension were reported, and the capacity is not zero. -/
def Reported (memory : RuntimeMemorySnapshot) (d : MemoryDimension) : Prop :=
  d.used memory ≠ none ∧ ∃ total, d.total memory = some total ∧ 0 < total

/-- The memory that a placement adds. -/
def added (inputs : PressureInputs) (d : MemoryDimension) : UInt64 :=
  if inputs.isColdLoad then (d.required inputs).getD 0 else 0

def projected (inputs : PressureInputs) (d : MemoryDimension) : Pressure :=
  projectedPressure (d.used inputs.memory) (d.total inputs.memory) inputs.isColdLoad
    (d.required inputs)

end MemoryDimension

/-- Penalties and thresholds are in order. -/
structure PressureModel.Ordered (model : PressureModel) : Prop where
  thresholds : model.elevatedThreshold ≤ model.highThreshold
  penalties : model.highPenalty ≤ model.elevatedPenalty
  nonpos : model.elevatedPenalty ≤ 0

/-- What may be read off an assessment. -/
structure HonestAssessment (model : PressureModel) (inputs : PressureInputs) : Prop where
  reported_of_known : ∀ (d : MemoryDimension) (fraction : Rat),
    d.reading (model.assess inputs) = .known fraction → d.Reported inputs.memory
  unknown_of_not_reported : ∀ d : MemoryDimension, ¬d.Reported inputs.memory →
    d.reading (model.assess inputs) = .unknown ∧ d.impact (model.assess inputs) = some 0
  antitone : inputs.isColdLoad = true → ∀ (d : MemoryDimension) (used required : Option UInt64),
    used.getD 0 ≤ (d.used inputs.memory).getD 0 →
    required.getD 0 ≤ (d.required inputs).getD 0 →
    ∃ less more, d.impact (model.assess (d.reset inputs used required)) = some less ∧
      d.impact (model.assess inputs) = some more ∧ more ≤ less
  warm : inputs.isColdLoad = false →
    ∀ d : MemoryDimension, d.impact (model.assess inputs) = some 0
  penalty_eq : (model.assess inputs).penalty =
    wrappingSum ((model.assess inputs).reasons.map PressureReason.impact)
  no_overflow : ∀ (d : MemoryDimension) (total : UInt64),
    d.total inputs.memory = some total → 0 < total →
    ((d.used inputs.memory).getD 0).toNat + (d.added inputs).toNat < 2 ^ 64

/-- A capacity comes with a use, and the use leaves room in `u64` for what is added. -/
def MemoryDimension.Complete (inputs : PressureInputs) (d : MemoryDimension) : Prop :=
  ∀ total, d.total inputs.memory = some total → 0 < total →
    ∃ used, d.used inputs.memory = some used ∧ used.toNat + (d.added inputs).toNat < 2 ^ 64

namespace MemoryDimension

variable (inputs : PressureInputs) (used required : Option UInt64) (d : MemoryDimension)

@[simp] theorem used_reset : d.used (d.reset inputs used required).memory = used := by
  cases d <;> rfl

@[simp] theorem total_reset :
    d.total (d.reset inputs used required).memory = d.total inputs.memory := by
  cases d <;> rfl

@[simp] theorem required_reset : d.required (d.reset inputs used required) = required := by
  cases d <;> rfl

@[simp] theorem isColdLoad_reset :
    (d.reset inputs used required).isColdLoad = inputs.isColdLoad := by
  cases d <;> rfl

end MemoryDimension

/-! ### Readings and impacts -/

namespace MemoryDimension

variable (model : PressureModel) (inputs : PressureInputs) (d : MemoryDimension)

theorem reading_assess :
    d.reading (model.assess inputs) =
      currentPressure (d.used inputs.memory) (d.total inputs.memory) := by
  cases d <;> rfl

theorem impact_assess :
    d.impact (model.assess inputs) =
      some ((d.projected inputs).value.elim 0 fun fraction =>
        model.dimensionImpact fraction inputs.isColdLoad) := by
  have hreason : ∀ dimension current projected cold,
      (model.dimensionReason dimension current projected cold).code =
        s!"pressure.{dimension}" ∧
      (model.dimensionReason dimension current projected cold).impact =
        projected.value.elim 0 fun fraction => model.dimensionImpact fraction cold := by
    intro dimension current projected cold
    cases projected <;> exact ⟨rfl, rfl⟩
  have hne : ¬s!"pressure.{vram.name}" = s!"pressure.{ram.name}" := by decide
  unfold impact PressureModel.assess
  cases d with
  | vram =>
      rw [List.find?_cons_of_pos (by rw [(hreason ..).1]; exact decide_eq_true rfl),
        Option.map_some, (hreason ..).2]
      rfl
  | ram =>
      rw [List.find?_cons_of_neg
          (by rw [(hreason ..).1]; exact fun h => hne (of_decide_eq_true h)),
        List.find?_cons_of_pos (by rw [(hreason ..).1]; exact decide_eq_true rfl),
        Option.map_some, (hreason ..).2]
      rfl

/-- Without a capacity both functions leave a dimension unknown. -/
theorem unknown_of_no_total (h : ¬∃ total, d.total inputs.memory = some total ∧ 0 < total) :
    d.reading (model.assess inputs) = .unknown ∧ d.projected inputs = .unknown := by
  rw [reading_assess]
  unfold projected currentPressure projectedPressure
  cases htotal : d.total inputs.memory with
  | none => exact ⟨rfl, rfl⟩
  | some total =>
      have hzero : ¬0 < total := fun hpos => h ⟨total, htotal, hpos⟩
      simp only [hzero, ↓reduceIte, and_self]

theorem projected_eq {total : UInt64} (htotal : d.total inputs.memory = some total)
    (hpos : 0 < total) :
    d.projected inputs =
      .known ((((d.used inputs.memory).getD 0 + d.added inputs).toNat : Rat) / total.toNat) := by
  unfold projected projectedPressure added
  rw [htotal]
  simp only [hpos, ↓reduceIte]

end MemoryDimension

namespace PressureModel

variable {model : PressureModel}

/-- No utilization is rewarded. -/
theorem dimensionImpact_nonpos (hordered : model.Ordered) (projected : Rat) (cold : Bool) :
    (model.dimensionImpact projected cold).toInt ≤ 0 := by
  have hpenalties := Int32.le_iff_toInt_le.mp hordered.penalties
  have hnonpos := Int32.le_iff_toInt_le.mp hordered.nonpos
  rw [Int32.toInt_zero] at hnonpos
  unfold dimensionImpact
  split
  · decide
  · split
    · omega
    · split
      · exact hnonpos
      · decide

/-- A higher utilization never costs less. -/
theorem dimensionImpact_antitone (hordered : model.Ordered) {x y : Rat} (hxy : x ≤ y)
    (cold : Bool) : model.dimensionImpact y cold ≤ model.dimensionImpact x cold := by
  have hnonpos := dimensionImpact_nonpos hordered y cold
  rw [Int32.le_iff_toInt_le]
  cases cold with
  | false => exact le_rfl
  | true =>
      by_cases hhigh : model.highThreshold ≤ x
      · have hhigh' := hhigh.trans hxy
        simp only [dimensionImpact, hhigh, hhigh', Bool.not_true, Bool.false_eq_true, ↓reduceIte,
          le_refl]
      · by_cases helevated : model.elevatedThreshold ≤ x
        · have helevated' := helevated.trans hxy
          have hpenalties := Int32.le_iff_toInt_le.mp hordered.penalties
          simp only [dimensionImpact, hhigh, helevated, helevated', Bool.not_true,
            Bool.false_eq_true, ↓reduceIte]
          split
          · exact hpenalties
          · exact le_rfl
        · have hzero : model.dimensionImpact x true = 0 := by
            simp only [dimensionImpact, hhigh, helevated, Bool.not_true, Bool.false_eq_true,
              ↓reduceIte]
          rw [hzero]
          exact hnonpos

end PressureModel

/-! ### Honest assessments -/

section Honest

variable {model : PressureModel} {inputs : PressureInputs}

/-- With less in use and less to add, a complete dimension costs at most as much. -/
theorem MemoryDimension.Complete.antitone {d : MemoryDimension} (hcomplete : d.Complete inputs)
    (hordered : model.Ordered) (hcold : inputs.isColdLoad = true)
    {used required : Option UInt64} (hused : used.getD 0 ≤ (d.used inputs.memory).getD 0)
    (hrequired : required.getD 0 ≤ (d.required inputs).getD 0) :
    ∃ less more, d.impact (model.assess (d.reset inputs used required)) = some less ∧
      d.impact (model.assess inputs) = some more ∧ more ≤ less := by
  rw [d.impact_assess, d.impact_assess]
  refine ⟨_, _, rfl, rfl, ?_⟩
  by_cases htotal : ∃ total, d.total inputs.memory = some total ∧ 0 < total
  · obtain ⟨total, htotal, hpos⟩ := htotal
    obtain ⟨u, hu, hfits⟩ := hcomplete total htotal hpos
    have hadded : d.added inputs = (d.required inputs).getD 0 := if_pos hcold
    have hadded' : d.added (d.reset inputs used required) = required.getD 0 := by
      unfold added
      rw [isColdLoad_reset, if_pos hcold, required_reset]
    rw [d.projected_eq inputs htotal hpos,
      d.projected_eq _ (by rw [total_reset]; exact htotal) hpos, isColdLoad_reset, used_reset,
      hadded, hadded']
    refine PressureModel.dimensionImpact_antitone hordered ?_ _
    rw [hu, Option.getD_some] at hused ⊢
    rw [hadded] at hfits
    rw [UInt64.le_iff_toNat_le] at hused hrequired
    have hle : (used.getD 0 + required.getD 0).toNat ≤ (u + (d.required inputs).getD 0).toNat := by
      rw [UInt64.toNat_add, UInt64.toNat_add, Nat.mod_eq_of_lt (by omega),
        Nat.mod_eq_of_lt hfits]
      omega
    gcongr
  · rw [(d.unknown_of_no_total model inputs htotal).2,
      (d.unknown_of_no_total model _ (by rw [total_reset]; exact htotal)).2]
    exact Int32.le_refl 0

theorem penalty_assess :
    (model.assess inputs).penalty =
      wrappingSum ((model.assess inputs).reasons.map PressureReason.impact) := by
  simp only [PressureModel.assess, List.map_cons, List.map_nil, wrappingSum, List.foldl_cons,
    List.foldl_nil, Int32.zero_add]

/-- An assessment is honest exactly when every capacity was reported together with a use
that leaves room for the placement. -/
theorem honestAssessment_iff (hordered : model.Ordered) :
    HonestAssessment model inputs ↔ ∀ d : MemoryDimension, d.Complete inputs := by
  constructor
  · intro hhonest d total htotal hpos
    have hknown : d.reading (model.assess inputs) =
        .known ((((d.used inputs.memory).getD 0).toNat : Rat) / total.toNat) := by
      rw [d.reading_assess]
      unfold currentPressure
      rw [htotal]
      simp only [hpos, ↓reduceIte]
    obtain ⟨used, hused⟩ := Option.ne_none_iff_exists'.mp
      (hhonest.reported_of_known d _ hknown).1
    have hfits := hhonest.no_overflow d total htotal hpos
    rw [hused, Option.getD_some] at hfits
    exact ⟨used, hused, hfits⟩
  · intro hcomplete
    constructor
    · intro d fraction hknown
      have htotal : ∃ total, d.total inputs.memory = some total ∧ 0 < total := by
        by_contra hnone
        rw [(d.unknown_of_no_total model inputs hnone).1] at hknown
        cases hknown
      obtain ⟨total, htotal, hpos⟩ := htotal
      obtain ⟨used, hused, -⟩ := hcomplete d total htotal hpos
      exact ⟨by rw [hused]; exact nofun, total, htotal, hpos⟩
    · intro d hmissing
      have hnone : ¬∃ total, d.total inputs.memory = some total ∧ 0 < total := by
        rintro ⟨total, htotal, hpos⟩
        obtain ⟨used, hused, -⟩ := hcomplete d total htotal hpos
        exact hmissing ⟨by rw [hused]; exact nofun, total, htotal, hpos⟩
      obtain ⟨hreading, hprojected⟩ := d.unknown_of_no_total model inputs hnone
      rw [d.impact_assess, hprojected]
      exact ⟨hreading, rfl⟩
    · intro hcold d used required hused hrequired
      exact (hcomplete d).antitone hordered hcold hused hrequired
    · intro hwarm d
      rw [d.impact_assess, hwarm]
      cases d.projected inputs <;> rfl
    · exact penalty_assess
    · intro d total htotal hpos
      obtain ⟨used, hused, hfits⟩ := hcomplete d total htotal hpos
      rw [hused]
      exact hfits

end Honest

theorem ordered_default : PressureModel.Ordered {} := by
  constructor
  · decide +kernel
  · decide
  · decide

/-- A runtime that reports its capacity but not what is in use. -/
def unreportedUse : PressureInputs where
  memory := { vramTotalMb := some 24576 }
  vramRequiredMb := some 20000
  ramRequiredMb := none
  isColdLoad := true
  activeRequestCount := 0

theorem honestAssessment_unreportedUse :
    HonestAssessment {} unreportedUse ↔ ∀ d : MemoryDimension, d.Complete unreportedUse :=
  honestAssessment_iff ordered_default

/-- The missing number is read as zero. -/
theorem unreportedUse_known :
    PressureModel.Ordered {} ∧ ((({} : PressureModel).assess unreportedUse).vram = .known 0) ∧
      ¬HonestAssessment {} unreportedUse := by
  have hknown : (({} : PressureModel).assess unreportedUse).vram = .known 0 := by decide +kernel
  refine ⟨ordered_default, hknown, fun hhonest => ?_⟩
  exact (hhonest.reported_of_known .vram 0 hknown).1 rfl

end Anemoi
