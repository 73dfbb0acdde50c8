import Mathlib.Data.List.Basic

/-!
# Runs of a deterministic machine

A machine is a step function `step : σ → ι → ο × σ`: in a state it takes an input,
gives an output and moves on. `runFrom` is the state after a list of inputs and
`logFrom` the list of what happened, one `Record` for each step.

Statements about a whole run are proved from statements about one step.
`invariant_runFrom` and `forall_mem_logFrom` carry a state invariant along the
run, and `pairwise_logFrom` compares an earlier step with every later one: it
suffices that each step establishes a property of states that later steps keep.
-/

namespace Systems

/-- One step of a run. -/
structure Record (σ ι ο : Type*) where
  before : σ
  input : ι
  output : ο
  after : σ

namespace Machine

variable {σ ι ο : Type*} (step : σ → ι → ο × σ)

/-- The step from `s` on the input `i`, as a record. -/
def record (s : σ) (i : ι) : Record σ ι ο :=
  ⟨s, i, (step s i).1, (step s i).2⟩

/-- The state reached from `s` on the inputs `is`. -/
def runFrom (s : σ) : List ι → σ
  | [] => s
  | i :: is => runFrom (step s i).2 is

/-- The steps taken from `s` on the inputs `is`, oldest first. -/
def logFrom (s : σ) : List ι → List (Record σ ι ο)
  | [] => []
  | i :: is => record step s i :: logFrom (step s i).2 is

@[simp] theorem runFrom_nil (s : σ) : runFrom step s [] = s := rfl

@[simp] theorem runFrom_cons (s : σ) (i : ι) (is : List ι) :
    runFrom step s (i :: is) = runFrom step (step s i).2 is := rfl

@[simp] theorem logFrom_nil (s : σ) : logFrom step s [] = [] := rfl

@[simp] theorem logFrom_cons (s : σ) (i : ι) (is : List ι) :
    logFrom step s (i :: is) = record step s i :: logFrom step (step s i).2 is := rfl

theorem runFrom_append (s : σ) (is js : List ι) :
    runFrom step s (is ++ js) = runFrom step (runFrom step s is) js := by
  induction is generalizing s with
  | nil => rfl
  | cons i is ih => exact ih _

theorem logFrom_append (s : σ) (is js : List ι) :
    logFrom step s (is ++ js) = logFrom step s is ++ logFrom step (runFrom step s is) js := by
  induction is generalizing s with
  | nil => rfl
  | cons i is ih =>
      rw [List.cons_append, logFrom_cons, logFrom_cons, List.cons_append, ih, runFrom_cons]

/-- The steps of a run, by what was run before each of them. -/
theorem mem_logFrom_iff {s : σ} {is : List ι} {r : Record σ ι ο} :
    r ∈ logFrom step s is ↔
      ∃ before i after, is = before ++ i :: after ∧ r = record step (runFrom step s before) i := by
  induction is generalizing s with
  | nil => simp
  | cons i is ih =>
      rw [logFrom_cons, List.mem_cons, ih]
      constructor
      · rintro (rfl | ⟨before, j, after, rfl, rfl⟩)
        · exact ⟨[], i, is, rfl, rfl⟩
        · exact ⟨i :: before, j, after, rfl, rfl⟩
      · rintro ⟨before, j, after, hsplit, rfl⟩
        cases before with
        | nil =>
            obtain ⟨rfl, rfl⟩ := List.cons.inj hsplit
            exact Or.inl rfl
        | cons b before =>
            obtain ⟨rfl, rfl⟩ := List.cons.inj hsplit
            exact Or.inr ⟨before, j, after, rfl, rfl⟩

theorem map_input_logFrom (s : σ) (is : List ι) :
    (logFrom step s is).map Record.input = is := by
  induction is generalizing s with
  | nil => rfl
  | cons i is ih => rw [logFrom_cons, List.map_cons, ih, record]

theorem eq_record_of_mem_logFrom {s : σ} {is : List ι} {r : Record σ ι ο}
    (h : r ∈ logFrom step s is) : r = record step r.before r.input := by
  induction is generalizing s with
  | nil => cases h
  | cons i is ih =>
      rw [logFrom_cons] at h
      rcases List.mem_cons.mp h with rfl | hr
      · rfl
      · exact ih hr

/-- A predicate that every step of the run preserves holds at its end. The guard
`G` is what is known of the steps of this run. -/
theorem invariant_runFrom {I : σ → Prop} {G : Record σ ι ο → Prop}
    (hstep : ∀ s i, I s → G (record step s i) → I (step s i).2) {s : σ} {is : List ι}
    (hG : ∀ r ∈ logFrom step s is, G r) (hs : I s) : I (runFrom step s is) := by
  induction is generalizing s with
  | nil => exact hs
  | cons i is ih =>
      rw [logFrom_cons, List.forall_mem_cons] at hG
      exact ih hG.2 (hstep s i hs hG.1)

/-- A predicate on the steps so far and the state they lead to, which every further step
preserves, holds of the whole run. -/
theorem invariant_logFrom {I : List (Record σ ι ο) → σ → Prop} {s : σ}
    (hstep : ∀ log t i, I log t → I (log ++ [record step t i]) (step t i).2) (hs : I [] s)
    (is : List ι) : I (logFrom step s is) (runFrom step s is) := by
  have hfrom : ∀ log t, I log t → I (log ++ logFrom step t is) (runFrom step t is) := by
    induction is with
    | nil =>
        intro log t ht
        rw [logFrom_nil, List.append_nil]
        exact ht
    | cons i is ih =>
        intro log t ht
        have hrest := ih (log ++ [record step t i]) (step t i).2 (hstep log t i ht)
        rwa [List.append_assoc, List.singleton_append] at hrest
  exact hfrom [] s hs

/-- A preorder on states that holds along every step holds along the run. -/
theorem rel_runFrom {R : σ → σ → Prop} (hrefl : ∀ s, R s s)
    (htrans : ∀ s t u, R s t → R t u → R s u) {s : σ} {is : List ι}
    (hR : ∀ r ∈ logFrom step s is, R r.before r.after) : R s (runFrom step s is) := by
  induction is generalizing s with
  | nil => exact hrefl s
  | cons i is ih =>
      rw [logFrom_cons, List.forall_mem_cons] at hR
      exact htrans _ _ _ hR.1 (ih hR.2)

/-- A property of steps that a state invariant implies holds of every step of the
run. -/
theorem forall_mem_logFrom {I : σ → Prop} {G P : Record σ ι ο → Prop}
    (hstep : ∀ s i, I s → G (record step s i) → I (step s i).2)
    (hP : ∀ s i, I s → G (record step s i) → P (record step s i)) {s : σ} {is : List ι}
    (hG : ∀ r ∈ logFrom step s is, G r) (hs : I s) :
    ∀ r ∈ logFrom step s is, P r := by
  induction is generalizing s with
  | nil =>
      intro r hr
      cases hr
  | cons i is ih =>
      rw [logFrom_cons, List.forall_mem_cons] at hG ⊢
      exact ⟨hP s i hs hG.1, ih hG.2 (hstep s i hs hG.1)⟩

/-- Earlier steps against later ones: `Q r` is what the step `r` establishes of
every later state, and `R r r'` follows when the later step `r'` starts in such a
state. -/
theorem pairwise_logFrom {I : σ → Prop} {G : Record σ ι ο → Prop}
    {Q : Record σ ι ο → σ → Prop} {R : Record σ ι ο → Record σ ι ο → Prop}
    (hstep : ∀ s i, I s → G (record step s i) → I (step s i).2)
    (hestablish : ∀ s i, I s → G (record step s i) →
      Q (record step s i) (step s i).2)
    (hkeep : ∀ r s i, I s → G (record step s i) → Q r s → Q r (step s i).2)
    (hR : ∀ r s i, I s → G (record step s i) → Q r s → R r (record step s i))
    {s : σ} {is : List ι} (hG : ∀ r ∈ logFrom step s is, G r) (hs : I s) :
    (logFrom step s is).Pairwise R := by
  induction is generalizing s with
  | nil => exact List.Pairwise.nil
  | cons i is ih =>
      rw [logFrom_cons, List.forall_mem_cons] at hG
      have hnext := hstep s i hs hG.1
      rw [logFrom_cons, List.pairwise_cons]
      refine ⟨?_, ih hG.2 hnext⟩
      -- `Q` of the first step is an invariant of the rest of the run
      have hrest := forall_mem_logFrom step
        (I := fun s' => I s' ∧ Q (record step s i) s') (G := G) (P := R (record step s i))
        (fun s' i' h hG' => ⟨hstep s' i' h.1 hG', hkeep _ s' i' h.1 hG' h.2⟩)
        (fun s' i' h hG' => hR _ s' i' h.1 hG' h.2) hG.2
        ⟨hnext, hestablish s i hs hG.1⟩
      exact hrest

/-- The state after the whole run keeps what one of its steps established. -/
theorem kept_runFrom {I : σ → Prop} {G : Record σ ι ο → Prop}
    {Q : Record σ ι ο → σ → Prop}
    (hstep : ∀ s i, I s → G (record step s i) → I (step s i).2)
    (hestablish : ∀ s i, I s → G (record step s i) →
      Q (record step s i) (step s i).2)
    (hkeep : ∀ r s i, I s → G (record step s i) → Q r s → Q r (step s i).2)
    {s : σ} {is : List ι} (hG : ∀ r ∈ logFrom step s is, G r) (hs : I s) :
    ∀ r ∈ logFrom step s is, Q r (runFrom step s is) := by
  induction is generalizing s with
  | nil =>
      intro r hr
      cases hr
  | cons i is ih =>
      rw [logFrom_cons, List.forall_mem_cons] at hG ⊢
      have hnext := hstep s i hs hG.1
      refine ⟨?_, ih hG.2 hnext⟩
      have hlast := invariant_runFrom step
        (I := fun s' => I s' ∧ Q (record step s i) s') (G := G)
        (fun s' i' h hG' => ⟨hstep s' i' h.1 hG', hkeep _ s' i' h.1 hG' h.2⟩) hG.2
        ⟨hnext, hestablish s i hs hG.1⟩
      exact hlast.2

/-- A measure that no step lowers is at the end at least what each step left. -/
theorem le_runFrom_of_mem_logFrom {f : σ → ℕ} (hf : ∀ s i, f s ≤ f (step s i).2) {s : σ}
    {is : List ι} :
    ∀ r ∈ logFrom step s is, f r.after ≤ f (runFrom step s is) :=
  kept_runFrom step (I := fun _ => True) (G := fun _ => True)
    (Q := fun r t => f r.after ≤ f t) (fun _ _ _ _ => trivial) (fun _ _ _ _ => Nat.le_refl _)
    (fun _ t i _ _ h => Nat.le_trans h (hf t i)) (fun _ _ => trivial) trivial

end Machine

end Systems
