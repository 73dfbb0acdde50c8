import Anemoi.Core.Types
import Mathlib.Algebra.Order.Field.Rat

/-!
# Resource pressure

The pressure model turns a runtime's memory snapshot, the needs of a candidate and
the load on the runtime into readings, penalties and reasons. A capacity that was
not reported stays `unknown`.

Utilizations and thresholds are exact rationals; the source computes them in double
precision. It matters for the percents in the details of the reasons, which are rounded from a
product of doubles (`percent`).
-/

namespace Anemoi

/-- A utilization between 0 and 1, beyond 1 when capacity is overcommitted. -/
inductive Pressure where
  | known (fraction : Rat)
  | unknown
  deriving DecidableEq, Repr

def Pressure.value : Pressure → Option Rat
  | known fraction => some fraction
  | unknown => none

/-- The nearest integer, in a tie the even one. -/
def roundTiesEven (x : Rat) : ℤ :=
  if x - x.floor < 1 / 2 ∨ x - x.floor = 1 / 2 ∧ x.floor % 2 = 0 then x.floor else x.floor + 1

/-- The double that is nearest to a rational which is not negative. -/
def nearestDouble (x : Rat) : Rat :=
  let leading : ℤ := x.num.toNat.log2 - x.den.log2
  -- the lengths of the two numbers tell the leading bit up to one
  let exponent := if x < Rat.divInt (2 ^ leading.toNat) (2 ^ (-leading).toNat) then leading - 1
    else leading
  let scale : Rat := Rat.divInt (2 ^ (52 - exponent).toNat) (2 ^ (exponent - 52).toNat)
  roundTiesEven (x * scale) / scale

/-- The whole percents of a utilization: the product of doubles, rounded half up and capped at
`u64`. Sizes below `2 ^ 53` are doubles themselves. -/
def percent (fraction : Rat) : UInt64 :=
  let product := nearestDouble (nearestDouble fraction * 100)
  UInt64.ofNat (min (product + 1 / 2).floor.toNat (2 ^ 64 - 1))

/-- The double next to 0.285 is below it. -/
example : [percent (285 / 1000), percent (29 / 100), percent (3 / 2)] = [28, 29, 150] := by
  decide +kernel

def currentPressure (used total : Option UInt64) : Pressure :=
  match total with
  | some total =>
      if 0 < total then .known ((used.getD 0).toNat / total.toNat : Rat) else .unknown
  | none => .unknown

/-- The utilization once a cold load has added what the model requires. -/
def projectedPressure (used total : Option UInt64) (isColdLoad : Bool)
    (required : Option UInt64) : Pressure :=
  match total with
  | some total =>
      if 0 < total then
        let extra := if isColdLoad then required.getD 0 else 0
        .known ((used.getD 0 + extra).toNat / total.toNat : Rat)
      else .unknown
  | none => .unknown

structure PressureInputs where
  memory : RuntimeMemorySnapshot
  vramRequiredMb : Option UInt64
  ramRequiredMb : Option UInt64
  isColdLoad : Bool
  activeRequestCount : ℕ

structure PressureReason where
  code : String
  detail : String
  impact : Int32
  deriving DecidableEq, Repr

structure PressureAssessment where
  vram : Pressure
  ram : Pressure
  activeRequestCount : ℕ
  penalty : Int32
  reasons : List PressureReason

structure PressureModel where
  highThreshold : Rat := 85 / 100
  elevatedThreshold : Rat := 70 / 100
  highPenalty : Int32 := -25
  elevatedPenalty : Int32 := -10
  activeRequestPenaltyEach : Int32 := -5

namespace PressureModel

variable (model : PressureModel)

/-- The penalty of a projected utilization: only a cold load adds memory. -/
def dimensionImpact (projected : Rat) (isColdLoad : Bool) : Int32 :=
  if !isColdLoad then 0
  else if model.highThreshold ≤ projected then model.highPenalty
  else if model.elevatedThreshold ≤ projected then model.elevatedPenalty
  else 0

/-- One dimension's reason; its impact is the dimension's penalty. -/
def dimensionReason (dimension : String) (current projected : Pressure)
    (isColdLoad : Bool) : PressureReason :=
  match projected with
  | .unknown =>
      { code := s!"pressure.{dimension}"
        detail := s!"{dimension} capacity is unknown; treating residency as unproven " ++
          "and assigning no pressure credit"
        impact := 0 }
  | .known fraction =>
      let currentPct := (current.value.map percent).getD 0
      let projectedPct := percent fraction
      { code := s!"pressure.{dimension}"
        detail := s!"{dimension} pressure is {currentPct}% now and {projectedPct}% " ++
          "projected after this placement"
        impact := model.dimensionImpact fraction isColdLoad }

def activeRequestReason (count : ℕ) : PressureReason where
  code := "pressure.active_requests"
  detail := s!"runtime is serving {count} active request(s)"
  impact := model.activeRequestPenaltyEach * Int32.ofNat count

def assess (inputs : PressureInputs) : PressureAssessment :=
  let memory := inputs.memory
  let vram := currentPressure memory.vramUsedMb memory.vramTotalMb
  let projectedVram := projectedPressure memory.vramUsedMb memory.vramTotalMb
    inputs.isColdLoad inputs.vramRequiredMb
  let vramReason := model.dimensionReason "vram" vram projectedVram inputs.isColdLoad
  let ram := currentPressure memory.ramUsedMb memory.ramTotalMb
  let projectedRam := projectedPressure memory.ramUsedMb memory.ramTotalMb
    inputs.isColdLoad inputs.ramRequiredMb
  let ramReason := model.dimensionReason "ram" ram projectedRam inputs.isColdLoad
  let activeReason := model.activeRequestReason inputs.activeRequestCount
  { vram, ram
    activeRequestCount := inputs.activeRequestCount
    penalty := vramReason.impact + ramReason.impact + activeReason.impact
    reasons := [vramReason, ramReason, activeReason] }

end PressureModel

end Anemoi
