import Anemoi.Systems.Machine
import Anemoi.Systems.Phases

/-!
# Machines that refine a specification

A specification says which answers to an input are allowed in an abstract state and where
they may lead; it may leave a choice. A machine refines it along a relation between its
states and the abstract ones when each of its steps is an allowed one: then each of its runs
is a run of the specification, with the same inputs and the same answers.

The same holds of programs that run concurrently. What their commands are answered with may
be left to a specification of the shared state; if the handler keeps to it, every interleaving
of the programs is one over the specification, where they get the same answers and return the
same results.
-/

namespace Systems

variable {α σ ι ο : Type*}

/-- The allowed steps: from a state, on an input, with an answer, to a state. -/
abbrev Spec (α ι ο : Type*) := α → ι → ο → α → Prop

namespace Spec

/-- The runs of a specification with their inputs and answers, oldest first. -/
inductive Runs (spec : Spec α ι ο) : α → List (ι × ο) → α → Prop
  | nil (a : α) : Runs spec a [] a
  | cons {a b c : α} {i : ι} {o : ο} {rest : List (ι × ο)} (first : spec a i o b)
      (later : Runs spec b rest c) : Runs spec a ((i, o) :: rest) c

/-- What every allowed step keeps, every run keeps. -/
theorem Runs.invariant {spec : Spec α ι ο} {I : α → Prop}
    (hstep : ∀ a i o b, I a → spec a i o b → I b) {a b : α} {l : List (ι × ο)}
    (h : Runs spec a l b) (ha : I a) : I b := by
  induction h with
  | nil a => exact ha
  | cons first _ ih => exact ih (hstep _ _ _ _ ha first)

end Spec

namespace Machine

variable (step : σ → ι → ο × σ)

/-- The inputs of a run with the answers they got. -/
def answersFrom (s : σ) (is : List ι) : List (ι × ο) :=
  (logFrom step s is).map fun r => (r.input, r.output)

@[simp] theorem answersFrom_nil (s : σ) : answersFrom step s [] = [] := rfl

@[simp] theorem answersFrom_cons (s : σ) (i : ι) (is : List ι) :
    answersFrom step s (i :: is) = (i, (step s i).1) :: answersFrom step (step s i).2 is := rfl

/-- Forward simulation. The guard `G` is what is known of the inputs of the run. -/
theorem refines_runFrom {spec : Spec α ι ο} {R : σ → α → Prop} {G : ι → Prop}
    (hstep : ∀ s a i, R s a → G i → ∃ b, spec a i (step s i).1 b ∧ R (step s i).2 b)
    {s : σ} {a : α} {is : List ι} (hG : ∀ i ∈ is, G i) (h : R s a) :
    ∃ b, spec.Runs a (answersFrom step s is) b ∧ R (runFrom step s is) b := by
  induction is generalizing s a with
  | nil =>
      rw [answersFrom_nil, runFrom_nil]
      exact ⟨a, .nil a, h⟩
  | cons i is ih =>
      obtain ⟨hi, his⟩ := List.forall_mem_cons.mp hG
      obtain ⟨b, hfirst, hb⟩ := hstep s a i h hi
      obtain ⟨c, hlater, hc⟩ := ih his hb
      rw [answersFrom_cons, runFrom_cons]
      exact ⟨c, .cons hfirst hlater, hc⟩

end Machine

/-! ### Programs over a specification -/

namespace Pool

open Program

variable {Cmd : Type} {Resp : Cmd → Type} {α σ τ : Type}

/-- The answers that a specification of the shared state allows to a command, and where they
may lead. -/
abbrev CmdSpec (τ : Type) (Resp : Cmd → Type) := τ → (c : Cmd) → Resp c → τ → Prop

/-- The interleavings of the threads of a pool over a specification, with their events, each
with the thread that issued it, and with what is left of the threads. -/
inductive RunsOn (spec : CmdSpec τ Resp) :
    Pool Cmd Resp α τ → List (ℕ × Event Resp) → Pool Cmd Resp α τ → Prop
  | nil (pool : Pool Cmd Resp α τ) : RunsOn spec pool [] pool
  | cons {pool last : Pool Cmd Resp α τ} {i : ℕ} {c : Cmd} {k : Resp c → Program Cmd Resp α}
      {r : Resp c} {b : τ} {rest : List (ℕ × Event Resp)}
      (thread : pool.threads[i]? = some (.call c k)) (first : spec pool.shared c r b)
      (later : RunsOn spec ⟨pool.threads.set i (k r), b⟩ rest last) :
      RunsOn spec pool ((i, ⟨c, r⟩) :: rest) last

/-- Forward simulation, for every interleaving: a handler whose answers are allowed ones runs
the threads as the specification does. -/
theorem refines_trace {h : Handler Resp σ} {spec : CmdSpec τ Resp} {R : σ → τ → Prop}
    (hstep : ∀ s a c, R s a → ∃ b, spec a c (h s c).1 b ∧ R (h s c).2 b)
    (pool : Pool Cmd Resp α σ) {a : τ} (hR : R pool.shared a) (schedule : List ℕ) :
    ∃ b, RunsOn spec ⟨pool.threads, a⟩ (trace h pool schedule)
        ⟨(Machine.runFrom (step h) pool schedule).threads, b⟩ ∧
      R (Machine.runFrom (step h) pool schedule).shared b := by
  induction schedule generalizing pool a with
  | nil => exact ⟨a, .nil _, hR⟩
  | cons i schedule ih =>
      rw [trace, Machine.runFrom_cons]
      rcases step_cases h pool i with hidle | ⟨c, k, hthread, hcall⟩
      · rw [hidle]
        exact ih _ hR
      · obtain ⟨b, hfirst, hb⟩ := hstep pool.shared a c hR
        have hnext : R (step h pool i).2.shared b := by
          rw [hcall]
          exact hb
        obtain ⟨b', hlater, hb'⟩ := ih _ hnext
        rw [hcall] at hlater hb' ⊢
        exact ⟨b', .cons hthread hfirst hlater, hb'⟩

end Pool

end Systems
