import Mathlib.Data.Finset.Basic
import Mathlib.Data.Set.NAry

/-!
# Expressions of alternatives and combinations

An expression names items, combines them with "and" and offers alternatives with
"or"; parentheses group. `Expr α` is its syntax tree, indexed by the level of the grammar
at which the tree stands, so that a tree of level `sum` is a phrase of

    E ::= T ('|' T)*      T ::= F ('&' F)*      F ::= item | '(' E ')'

Its meaning is the set of groups it admits: an item admits itself alone, "or" is the
union and "and" puts every group of one side together with every group of the other.
`loadouts` computes the same groups as a list; `mem_loadouts` says that it does.
-/

namespace Systems

/-- The levels of the grammar: `E`, `T` and `F`. -/
inductive Level where
  | sum
  | product
  | factor

/-- The syntax trees; a chain of one operator nests to the left. -/
inductive Expr (α : Type*) : Level → Type _
  | item (a : α) : Expr α .factor
  | group (e : Expr α .sum) : Expr α .factor
  | single (f : Expr α .factor) : Expr α .product
  | both (t : Expr α .product) (f : Expr α .factor) : Expr α .product
  | only (t : Expr α .product) : Expr α .sum
  | either (e : Expr α .sum) (t : Expr α .product) : Expr α .sum

variable {α β : Type*} [DecidableEq β]

/-- Each group of `l` together with each group of `r`. -/
def pairUnions (l r : List (Finset β)) : List (Finset β) :=
  l.flatMap fun a => r.map fun b => a ∪ b

theorem mem_pairUnions {l r : List (Finset β)} {c : Finset β} :
    c ∈ pairUnions l r ↔ ∃ a ∈ l, ∃ b ∈ r, a ∪ b = c := by
  simp only [pairUnions, List.mem_flatMap, List.mem_map]

namespace Expr

/-- The groups that an expression admits, when `name` says what an item stands for. -/
def denotation (name : α → β) : {level : Level} → Expr α level → Set (Finset β)
  | _, item a => {{name a}}
  | _, group e => e.denotation name
  | _, single f => f.denotation name
  | _, both t f => Set.image2 (· ∪ ·) (t.denotation name) (f.denotation name)
  | _, only t => t.denotation name
  | _, either e t => e.denotation name ∪ t.denotation name

/-- The groups of an expression in the order in which they are written. -/
def loadouts (name : α → β) : {level : Level} → Expr α level → List (Finset β)
  | _, item a => [{name a}]
  | _, group e => e.loadouts name
  | _, single f => f.loadouts name
  | _, both t f => pairUnions (t.loadouts name) (f.loadouts name)
  | _, only t => t.loadouts name
  | _, either e t => e.loadouts name ++ t.loadouts name

/-- The list holds the groups of the meaning and no others. -/
theorem mem_loadouts (name : α → β) {level : Level} (e : Expr α level) {c : Finset β} :
    c ∈ e.loadouts name ↔ c ∈ e.denotation name := by
  induction e generalizing c with
  | item a => rw [loadouts, denotation, List.mem_singleton, Set.mem_singleton_iff]
  | group e ih => exact ih
  | single f ih => exact ih
  | both t f iht ihf =>
      rw [loadouts, denotation, mem_pairUnions, Set.mem_image2]
      simp only [iht, ihf]
  | only t ih => exact ih
  | either e t ihe iht =>
      rw [loadouts, denotation, List.mem_append, Set.mem_union, ihe, iht]

/-- Every expression admits some group. -/
theorem loadouts_ne_nil (name : α → β) {level : Level} (e : Expr α level) :
    e.loadouts name ≠ [] := by
  induction e with
  | item a => exact List.cons_ne_nil _ _
  | group e ih => exact ih
  | single f ih => exact ih
  | both t f iht ihf =>
      obtain ⟨a, ha⟩ := List.exists_mem_of_ne_nil _ iht
      obtain ⟨b, hb⟩ := List.exists_mem_of_ne_nil _ ihf
      exact List.ne_nil_of_mem (mem_pairUnions.mpr ⟨a, ha, b, hb, rfl⟩)
  | only t ih => exact ih
  | either e t ihe iht =>
      rw [loadouts]
      exact List.append_ne_nil_of_left_ne_nil ihe _

end Expr

end Systems
