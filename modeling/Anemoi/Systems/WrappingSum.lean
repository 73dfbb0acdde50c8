import Mathlib.Algebra.BigOperators.Group.List.Basic
import Mathlib.Algebra.Group.Nat.Defs
import Mathlib.Algebra.Ring.Int.Defs
import Mathlib.Data.List.Induction
import Mathlib.Data.List.Infix

/-!
# Wrapping sums

An `i32` that summands are added to one after the other. `wrappingSum l` is what it holds
after the list `l`, and `exactSum l` the sum over the integers. The two agree whenever the
exact sum is an `i32`, whatever the running totals were on the way; no addition overflows
when all running totals are.
-/

namespace Systems

/-- The integer is an `i32`. -/
def FitsI32 (n : ℤ) : Prop :=
  -2 ^ 31 ≤ n ∧ n < 2 ^ 31

instance (n : ℤ) : Decidable (FitsI32 n) :=
  inferInstanceAs (Decidable (_ ∧ _))

/-- An integer is its residue modulo `2 ^ 32`, read as an `i32`, exactly when it is one. -/
theorem bmod_eq_self_iff {n : ℤ} : n.bmod (2 ^ 32) = n ↔ FitsI32 n := by
  rw [Int.bmod_def, FitsI32]
  omega

theorem fitsI32_toInt (v : Int32) : FitsI32 v.toInt :=
  ⟨v.le_toInt, v.toInt_lt⟩

/-- What a total is after the summands of `l` were added to it in order. -/
def wrappingSum (l : List Int32) : Int32 :=
  l.foldl (· + ·) 0

def exactSum (l : List Int32) : ℤ :=
  (l.map Int32.toInt).sum

@[simp] theorem exactSum_nil : exactSum [] = 0 := rfl

theorem wrappingSum_concat (l : List Int32) (v : Int32) :
    wrappingSum (l ++ [v]) = wrappingSum l + v := by
  rw [wrappingSum, List.foldl_append]
  rfl

theorem exactSum_append (l l' : List Int32) : exactSum (l ++ l') = exactSum l + exactSum l' := by
  rw [exactSum, List.map_append, List.sum_append]
  rfl

@[simp] theorem exactSum_cons (v : Int32) (l : List Int32) :
    exactSum (v :: l) = v.toInt + exactSum l := by
  rw [exactSum, List.map_cons, List.sum_cons]
  rfl

theorem toInt_wrappingSum (l : List Int32) :
    (wrappingSum l).toInt = (exactSum l).bmod (2 ^ 32) := by
  induction l using List.reverseRecOn with
  | nil => rfl
  | append_singleton l v ih =>
      rw [wrappingSum_concat, Int32.toInt_add, ih, exactSum_append, exactSum_cons,
        exactSum_nil, add_zero, Int.bmod_add_bmod]

/-- The total is the exact sum when that is an `i32`. -/
theorem toInt_wrappingSum_eq_iff {l : List Int32} :
    (wrappingSum l).toInt = exactSum l ↔ FitsI32 (exactSum l) := by
  rw [toInt_wrappingSum, bmod_eq_self_iff]

/-- Every running total is an `i32`, so that no addition overflows. -/
def RunningTotalsFit (l : List Int32) : Prop :=
  ∀ l' ∈ l.inits, FitsI32 (exactSum l')

instance (l : List Int32) : Decidable (RunningTotalsFit l) :=
  List.decidableBAll _ _

/-- The running totals from `n` on are integers that the accumulator can hold. -/
def RunsWithin (n : ℤ) (l : List ℤ) : Prop :=
  ∀ l' ∈ l.inits, FitsI32 (n + l'.sum)

@[simp] theorem runsWithin_nil {n : ℤ} : RunsWithin n [] ↔ FitsI32 n := by
  simp only [RunsWithin, List.inits, List.mem_singleton, forall_eq, List.sum_nil, add_zero]

@[simp] theorem runsWithin_cons {n a : ℤ} {l : List ℤ} :
    RunsWithin n (a :: l) ↔ FitsI32 n ∧ RunsWithin (n + a) l := by
  simp only [RunsWithin, List.inits_cons, List.forall_mem_cons, List.forall_mem_map,
    List.sum_nil, List.sum_cons, add_zero, add_assoc]

theorem runningTotalsFit_iff {l : List Int32} :
    RunningTotalsFit l ↔ RunsWithin 0 (l.map Int32.toInt) := by
  simp only [RunningTotalsFit, RunsWithin, exactSum, List.map_inits, List.forall_mem_map,
    zero_add]

theorem RunningTotalsFit.toInt_eq {l : List Int32} (h : RunningTotalsFit l) :
    (wrappingSum l).toInt = exactSum l :=
  toInt_wrappingSum_eq_iff.mpr (h l ((List.mem_inits l l).mpr (List.prefix_refl l)))

end Systems
