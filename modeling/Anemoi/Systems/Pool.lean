import Anemoi.Systems.Logic
import Anemoi.Systems.Machine

/-!
# Programs that run concurrently

A pool is a list of programs, its threads, over one shared state. A step lets one thread
issue its next command, which the handler answers atomically; between two commands of a
thread the others may issue any number of theirs. A schedule is the list of threads that
take the steps, so the runs of `Pool.step` on all schedules are all interleavings. A
step of a thread that has finished, or does not exist, does nothing.

`step_cases` says once what a step does. What every thread ensures of its commands it
goes on ensuring (`ensures_step`), so an invariant of the commands is an invariant of every
interleaving (`invariant_runFrom`).
-/

namespace Systems

open Program

/-- Threads over a shared state. -/
structure Pool (Cmd : Type) (Resp : Cmd → Type) (α σ : Type) where
  threads : List (Program Cmd Resp α)
  shared : σ

namespace Pool

variable {Cmd : Type} {Resp : Cmd → Type} {α σ : Type} (h : Handler Resp σ)

/-- The thread `i` issues its next command. -/
def step (pool : Pool Cmd Resp α σ) (i : ℕ) : Option (Event Resp) × Pool Cmd Resp α σ :=
  match pool.threads[i]? with
  | some (.call c k) =>
      (some ⟨c, (h pool.shared c).1⟩,
       ⟨pool.threads.set i (k (h pool.shared c).1), (h pool.shared c).2⟩)
  | some (.pure _) | none => (none, pool)

/-- All that a step may do. -/
theorem step_cases (pool : Pool Cmd Resp α σ) (i : ℕ) :
    step h pool i = (none, pool) ∨
      ∃ c k, pool.threads[i]? = some (.call c k) ∧
        step h pool i = (some ⟨c, (h pool.shared c).1⟩,
          ⟨pool.threads.set i (k (h pool.shared c).1), (h pool.shared c).2⟩) := by
  unfold step
  cases hthread : pool.threads[i]? with
  | none => exact Or.inl rfl
  | some p =>
      cases p with
      | pure a => exact Or.inl rfl
      | call c k => exact Or.inr ⟨c, k, rfl, rfl⟩

/-- What a step does to the shared state: nothing, or what the handler does on the
command that is issued. -/
theorem shared_step (pool : Pool Cmd Resp α σ) (i : ℕ) :
    ((step h pool i).1 = none ∧ (step h pool i).2.shared = pool.shared) ∨
      ∃ c, (step h pool i).1 = some ⟨c, (h pool.shared c).1⟩ ∧
        (step h pool i).2.shared = (h pool.shared c).2 := by
  rcases step_cases h pool i with hstep | ⟨c, k, -, hstep⟩
  · rw [hstep]
    exact Or.inl ⟨rfl, rfl⟩
  · rw [hstep]
    exact Or.inr ⟨c, rfl, rfl⟩

variable {h} {ans : ∀ c, Resp c → Prop} {ok : Cmd → Prop} {post : α → Prop}

/-- The threads go on ensuring what they ensured, and what they issue is in `ok`. -/
theorem ensures_step {pool : Pool Cmd Resp α σ} (hans : ∀ s c, ans c (h s c).1)
    (hthreads : ∀ p ∈ pool.threads, Ensures ans ok post p) (i : ℕ) :
    (∀ e ∈ (step h pool i).1, ok e.1) ∧
      ∀ p ∈ (step h pool i).2.threads, Ensures ans ok post p := by
  rcases step_cases h pool i with hstep | ⟨c, k, hthread, hstep⟩
  · rw [hstep]
    exact ⟨fun e he => absurd he (Option.not_mem_none e), hthreads⟩
  · rw [hstep]
    obtain ⟨hc, hk⟩ := hthreads _ (List.mem_of_getElem? hthread)
    refine ⟨fun e he => ?_, fun p hp => ?_⟩
    · rw [Option.mem_some.mp he |>.symm]
      exact hc
    · rcases List.mem_or_eq_of_mem_set hp with hold | rfl
      · exact hthreads p hold
      · exact hk _ (hans _ _)

/-- A condition on the shared state that every command in `ok` preserves holds in every
interleaving of threads that issue no other. -/
theorem invariant_runFrom {I : σ → Prop} {pool : Pool Cmd Resp α σ}
    (hans : ∀ s c, ans c (h s c).1)
    (hthreads : ∀ p ∈ pool.threads, Ensures ans ok post p)
    (hkeep : ∀ s c, ok c → I s → I (h s c).2) (hI : I pool.shared) (schedule : List ℕ) :
    I (Machine.runFrom (step h) pool schedule).shared := by
  have hguard : ∀ r ∈ Machine.logFrom (step h) pool schedule, True := fun _ _ => trivial
  have hrun := Machine.invariant_runFrom (step h)
    (I := fun pool => (∀ p ∈ pool.threads, Ensures ans ok post p) ∧ I pool.shared)
    (G := fun _ => True) ?_ hguard ⟨hthreads, hI⟩
  · exact hrun.2
  · rintro pool i ⟨hthreads, hI⟩ -
    obtain ⟨hok, hnext⟩ := ensures_step hans hthreads i
    refine ⟨hnext, ?_⟩
    rcases shared_step h pool i with ⟨-, hshared⟩ | ⟨c, hevent, hshared⟩
    · rw [hshared]
      exact hI
    · rw [hshared]
      exact hkeep _ c (hok ⟨c, _⟩ hevent) hI

end Pool

end Systems
