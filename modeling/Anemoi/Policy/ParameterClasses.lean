import Anemoi.Core.GovernanceWarnings
import Anemoi.Policy.Scoring
import Mathlib.Data.Rat.Defs
import Mathlib.Tactic.FieldSimp
import Mathlib.Tactic.Linarith
import Mathlib.Tactic.NormNum
import Mathlib.Tactic.Positivity
import Mathlib.Tactic.Ring

/-!
# Parameter classes as numbers

A parameter class such as `35b` or `1.5b` denotes a number. The scheduler reads the
digits of a class and clamps what they denote to `1..100`; the governance layer reads
the leading digits. On classes without a fraction both agree with the number up to
that clamp, and so does the floor.
-/

namespace Anemoi

/-! ### Decimal numerals -/

theorem foldl_decimal (start : ℕ) (digits : List Char) :
    digits.foldl (fun n c => 10 * n + (c.toNat - '0'.toNat)) start =
      start * 10 ^ digits.length + decimalValue digits := by
  induction digits generalizing start with
  | nil => simp [decimalValue]
  | cons c cs ih =>
      unfold decimalValue
      rw [List.foldl_cons, List.foldl_cons, ih, ih (10 * 0 + _), List.length_cons]
      ring

theorem decimalValue_append (xs ys : List Char) :
    decimalValue (xs ++ ys) = decimalValue xs * 10 ^ ys.length + decimalValue ys := by
  unfold decimalValue
  rw [List.foldl_append, foldl_decimal]
  rfl

/-- A class `Nb` or `N.Mb`: without fraction digits it is the former. -/
structure DecimalClass where
  whole : List Char
  fraction : List Char
  whole_ne_nil : whole ≠ []
  whole_digits : ∀ c ∈ whole, c.isDigit
  fraction_digits : ∀ c ∈ fraction, c.isDigit

namespace DecimalClass

def text (c : DecimalClass) : String :=
  String.ofList (c.whole ++ (if c.fraction.isEmpty then [] else '.' :: c.fraction) ++ ['b'])

/-- The number that a class denotes. -/
def number (c : DecimalClass) : ℚ :=
  decimalValue c.whole + decimalValue c.fraction / 10 ^ c.fraction.length

/-- The same number, counted in units of the last digit. -/
def units (c : DecimalClass) : ℕ :=
  decimalValue (c.whole ++ c.fraction)

variable (c f : DecimalClass)

theorem number_eq : c.number = c.units / 10 ^ c.fraction.length := by
  unfold number units
  rw [decimalValue_append]
  push_cast
  field_simp

theorem number_of_whole (h : c.fraction = []) : c.number = c.units := by
  rw [number_eq, h]
  simp

theorem number_le_iff (h : c.fraction.length = f.fraction.length) :
    f.number ≤ c.number ↔ f.units ≤ c.units := by
  rw [number_eq, number_eq, h, div_le_div_iff_of_pos_right (by positivity)]
  exact Nat.cast_le

/-! ### How the two readers see a class -/

theorem filter_text : c.text.toList.filter Char.isDigit = c.whole ++ c.fraction := by
  have hwhole : c.whole.filter Char.isDigit = c.whole :=
    List.filter_eq_self.mpr c.whole_digits
  have hfraction : c.fraction.filter Char.isDigit = c.fraction :=
    List.filter_eq_self.mpr c.fraction_digits
  unfold text
  rw [String.toList_ofList, List.filter_append, List.filter_append, hwhole]
  by_cases hempty : c.fraction = []
  · simp [hempty]
  · rw [if_neg (by simpa using hempty), List.filter_cons_of_neg (by decide), hfraction]
    simp

theorem takeWhile_text (h : c.fraction = []) :
    c.text.toList.takeWhile Char.isDigit = c.whole := by
  unfold text
  rw [String.toList_ofList, h, List.takeWhile_append_of_pos]
  · simp
  · simpa using c.whole_digits

/-- Below the range of `i32` the scheduler's value is the number, clamped. -/
theorem toInt_parameterClassValue (h : c.units < 2 ^ 31) :
    (parameterClassValue c.text).toInt = max 1 (min c.units 100) := by
  have hne : (c.whole ++ c.fraction).isEmpty = false := by
    simp [c.whole_ne_nil]
  have hparse : parseI32 (c.text.toList.filter Char.isDigit) = some (Int32.ofNat c.units) := by
    unfold parseI32
    rw [filter_text, hne, if_neg Bool.false_ne_true]
    exact if_pos h
  have hvalue : (Int32.ofNat c.units).toInt = c.units := Int32.toInt_ofNat_of_lt h
  have hone : (1 : Int32).toInt = 1 := rfl
  have hhundred : (100 : Int32).toInt = 100 := rfl
  unfold parameterClassValue
  rw [hparse, Option.getD_some]
  simp only [Int32.lt_iff_toInt_lt, hvalue, hone, hhundred]
  by_cases hlow : (c.units : ℤ) < 1
  · rw [if_pos hlow, hone]
    omega
  · rw [if_neg hlow]
    by_cases hhigh : (100 : ℤ) < c.units
    · rw [if_pos hhigh, hhundred]
      omega
    · rw [if_neg hhigh, hvalue]
      omega

theorem parameterClassValue_le_iff (hc : c.units < 2 ^ 31) (hf : f.units < 2 ^ 31) :
    parameterClassValue f.text ≤ parameterClassValue c.text ↔
      f.units ≤ c.units ∨ (100 ≤ c.units ∧ 100 ≤ f.units) ∨ (c.units ≤ 1 ∧ f.units ≤ 1) := by
  rw [Int32.le_iff_toInt_le, toInt_parameterClassValue c hc, toInt_parameterClassValue f hf]
  omega

theorem parameterBillions_text (hwhole : c.fraction = []) (h : c.units < 2 ^ 32) :
    parameterBillions c.text = some (UInt32.ofNat c.units) := by
  have hunits : c.units = decimalValue c.whole := by
    unfold units
    rw [hwhole, List.append_nil]
  unfold parameterBillions
  rw [takeWhile_text c hwhole]
  simp only [List.isEmpty_iff, c.whole_ne_nil, ↓reduceIte, parseU32, ← hunits]
  exact if_pos h

end DecimalClass

/-! ### Floors -/

/-- Two sizes that a clamp to `1..100` does not tell apart. -/
def SizesMerged (x y : ℚ) : Prop :=
  (100 ≤ x ∧ 100 ≤ y) ∨ (x ≤ 1 ∧ y ≤ 1)

/-- A class and a floor are compared by size, given whether the floor is met. -/
structure OrderedBySize (satisfied : Bool) (c f : DecimalClass) : Prop where
  whole : c.fraction = [] → f.fraction = [] →
    (satisfied ↔ f.number ≤ c.number ∨ SizesMerged c.number f.number)
  in_range : c.fraction.length = f.fraction.length → c.units ∈ Set.Icc 1 100 →
    f.units ∈ Set.Icc 1 100 → (satisfied ↔ f.number ≤ c.number)
  billions : c.fraction = [] → f.fraction = [] → ∃ m n : UInt32,
    parameterBillions c.text = some m ∧ parameterBillions f.text = some n ∧
    (m.toNat : ℚ) = c.number ∧ (n.toNat : ℚ) = f.number ∧
    (parameterClassValue f.text ≤ parameterClassValue c.text ↔
      n ≤ m ∨ SizesMerged m.toNat n.toNat)

theorem candidateSatisfiesFloor_iff_classes {candidate : ScoredCandidate}
    {request : InferenceRequest} {c f : String}
    (hclass : candidate.candidate.modelProfile.parameterClass = c)
    (hfloor : request.qualityFloor = some ⟨some f⟩) :
    candidateSatisfiesFloor candidate (qualityFloorValue request) ↔
      parameterClassValue f ≤ parameterClassValue c := by
  unfold qualityFloorValue candidateSatisfiesFloor qualityScore
  rw [hfloor, hclass]
  exact decide_eq_true_iff

/-- The scheduler orders classes by size on the scale it clamps them to, and so does
the governance layer. -/
theorem orderedBySize_classes {candidate : ScoredCandidate} {request : InferenceRequest}
    {c f : DecimalClass} (hclass : candidate.candidate.modelProfile.parameterClass = c.text)
    (hfloor : request.qualityFloor = some ⟨some f.text⟩)
    (hc : c.units < 2 ^ 31) (hf : f.units < 2 ^ 31) :
    OrderedBySize (candidateSatisfiesFloor candidate (qualityFloorValue request)) c f where
  whole := by
    intro hcw hfw
    rw [candidateSatisfiesFloor_iff_classes hclass hfloor, c.parameterClassValue_le_iff f hc hf,
      c.number_of_whole hcw, f.number_of_whole hfw, SizesMerged]
    norm_cast
  in_range := by
    rintro hscale ⟨hc1, hc100⟩ ⟨hf1, hf100⟩
    rw [candidateSatisfiesFloor_iff_classes hclass hfloor, c.parameterClassValue_le_iff f hc hf,
      c.number_le_iff f hscale]
    omega
  billions := by
    intro hcw hfw
    have hm := UInt32.toNat_ofNat_of_lt' (show c.units < UInt32.size by
      unfold UInt32.size; omega)
    have hn := UInt32.toNat_ofNat_of_lt' (show f.units < UInt32.size by
      unfold UInt32.size; omega)
    refine ⟨UInt32.ofNat c.units, UInt32.ofNat f.units,
      c.parameterBillions_text hcw (by omega), f.parameterBillions_text hfw (by omega), ?_, ?_, ?_⟩
    · rw [hm, c.number_of_whole hcw]
    · rw [hn, f.number_of_whole hfw]
    · rw [c.parameterClassValue_le_iff f hc hf, UInt32.le_iff_toNat_le, hm, hn, SizesMerged]
      norm_cast

/-! ### Where the order is lost -/

def sizedCandidate (parameterClass : String) : ScoredCandidate where
  action := .reuseHot
  candidate :=
    { action := .reuseHot
      modelId := ⟨"model"⟩
      runtimeId := ⟨"rt"⟩
      groupId := ⟨"fast"⟩
      modelProfile :=
        { id := ⟨"model"⟩
          family := "qwen"
          parameterClass
          contextWindow := none
          vramRequiredMb := none
          ramRequiredMb := none
          coldLoadEstimateMs := none
          supportedRuntimes := [⟨"rt"⟩]
          supportsStreaming := none }
      residencyState := .hotGpu
      loadEstimateMs := 0
      runtimeMemory := {}
      activeRequestCount := 0
      groupKeepHot := false
      colocation := none }
  backgroundModel := none
  score := {}
  reasons := []

def sizedRequest (minimumParameterClass : String) : InferenceRequest where
  id := ⟨"request"⟩
  domain := ⟨"coding"⟩
  mode := .interactive
  promptTokensEstimate := none
  maxOutputTokens := none
  latencyBudgetMs := none
  qualityFloor := some ⟨some minimumParameterClass⟩
  escalationIntent := none

theorem orderedBySize_sized :
    OrderedBySize (candidateSatisfiesFloor (sizedCandidate "35b")
        (qualityFloorValue (sizedRequest "32b")))
      ⟨"35".toList, [], by decide, List.all_eq_true.mp rfl, nofun⟩
      ⟨"32".toList, [], by decide, List.all_eq_true.mp rfl, nofun⟩ :=
  orderedBySize_classes (by rfl) (by rfl) (by decide) (by decide)

/-- The clamp merges sizes above it, the point is dropped, and long numerals are out of
range. -/
theorem classes_out_of_order :
    (∃ c f : DecimalClass, c.text = "122b" ∧ f.text = "405b" ∧ c.number < f.number ∧
      candidateSatisfiesFloor (sizedCandidate "122b")
        (qualityFloorValue (sizedRequest "405b")) = true) ∧
    (∃ c f : DecimalClass, c.text = "1.5b" ∧ f.text = "9b" ∧ c.number < f.number ∧
      candidateSatisfiesFloor (sizedCandidate "1.5b")
        (qualityFloorValue (sizedRequest "9b")) = true) ∧
    (∃ c f : DecimalClass, c.text = "2147483648b" ∧ f.text = "9b" ∧ f.number < c.number ∧
      candidateSatisfiesFloor (sizedCandidate "2147483648b")
        (qualityFloorValue (sizedRequest "9b")) = false) ∧
    parameterBillions "4294967296b" = none := by
  refine ⟨⟨⟨"122".toList, [], by decide, List.all_eq_true.mp rfl, nofun⟩,
      ⟨"405".toList, [], by decide, List.all_eq_true.mp rfl, nofun⟩, rfl, rfl, ?_, by decide⟩,
    ⟨⟨"1".toList, "5".toList, by decide, List.all_eq_true.mp rfl, List.all_eq_true.mp rfl⟩,
      ⟨"9".toList, [], by decide, List.all_eq_true.mp rfl, nofun⟩, rfl, rfl, ?_, by decide⟩,
    ⟨⟨"2147483648".toList, [], by decide, List.all_eq_true.mp rfl, nofun⟩,
      ⟨"9".toList, [], by decide, List.all_eq_true.mp rfl, nofun⟩, rfl, rfl, ?_, by decide⟩,
    by decide⟩
  all_goals
    rw [DecimalClass.number_eq, DecimalClass.number_eq]
    decide +kernel

end Anemoi
