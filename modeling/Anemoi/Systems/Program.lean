import Mathlib.Data.Sigma.Basic

/-!
# Programs that issue commands

`Program Cmd Resp α` is a program that issues commands to its surroundings,
continues with the response, and finally returns an `α`. A command `c` is
answered by a value of `Resp c`, so a program is a tree that branches over every
answer it may get.

A `Handler σ` answers commands out of a state, and `run` plays a program against
a handler, keeping the trace of the commands issued with their answers. `states`
are the states that a run passes through, where it may be cut off.
-/

namespace Systems

/-- A program over the commands `Cmd`, answered by `Resp`. -/
inductive Program (Cmd : Type) (Resp : Cmd → Type) (α : Type) where
  | pure (a : α)
  | call (c : Cmd) (k : Resp c → Program Cmd Resp α)

namespace Program

variable {Cmd : Type} {Resp : Cmd → Type} {α β σ : Type}

/-- Run `p` and continue with `f` on its result. -/
def bind : Program Cmd Resp α → (α → Program Cmd Resp β) → Program Cmd Resp β
  | pure a, f => f a
  | call c k, f => call c fun r => bind (k r) f

instance : Monad (Program Cmd Resp) where
  pure := pure
  bind := bind

/-- Issue one command and return its answer. -/
def perform (c : Cmd) : Program Cmd Resp (Resp c) :=
  call c pure

@[simp] theorem perform_bind (c : Cmd) (f : Resp c → Program Cmd Resp β) :
    perform c >>= f = call c f := rfl

@[simp] theorem call_bind (c : Cmd) (k : Resp c → Program Cmd Resp α)
    (f : α → Program Cmd Resp β) :
    (call c k : Program Cmd Resp α) >>= f = call c fun r => k r >>= f := rfl

theorem bind_assoc {γ : Type} (p : Program Cmd Resp α) (f : α → Program Cmd Resp β)
    (g : β → Program Cmd Resp γ) : p >>= f >>= g = p >>= fun a => f a >>= g := by
  induction p with
  | pure a => rfl
  | call c k ih => exact congrArg (call c) (funext ih)

/-- A loop over two lists is a loop over the one and then one over the other. -/
theorem forM_append (l l' : List α) (f : α → Program Cmd Resp PUnit) :
    (l ++ l').forM f = l.forM f >>= fun _ => l'.forM f := by
  induction l with
  | nil => rfl
  | cons a l ih =>
      change (f a >>= fun _ => (l ++ l').forM f) = (f a >>= fun _ => l.forM f) >>= _
      rw [bind_assoc]
      exact congrArg (f a >>= ·) (funext fun _ => ih)

/-! ### Running a program -/

/-- A command together with the answer it got. -/
abbrev Event (Resp : Cmd → Type) := Σ c : Cmd, Resp c

/-- How the surroundings answer a command, and the state they are left in. -/
abbrev Handler (Resp : Cmd → Type) (σ : Type) := σ → (c : Cmd) → Resp c × σ

/-- What a finished run leaves: its result, the final state and the commands
issued on the way, oldest first. -/
structure Outcome (Resp : Cmd → Type) (α σ : Type) where
  result : α
  state : σ
  trace : List (Event Resp)

/-- Play `p` against the handler `h` from the state `s`. -/
def run (h : Handler Resp σ) : Program Cmd Resp α → σ → Outcome Resp α σ
  | pure a, s => ⟨a, s, []⟩
  | call c k, s =>
      let r := h s c
      let o := run h (k r.1) r.2
      ⟨o.result, o.state, ⟨c, r.1⟩ :: o.trace⟩

variable (h : Handler Resp σ)

@[simp] theorem run_pure (a : α) (s : σ) :
    run h (Pure.pure a : Program Cmd Resp α) s = ⟨a, s, []⟩ := rfl

@[simp] theorem run_call (c : Cmd) (k : Resp c → Program Cmd Resp α) (s : σ) :
    run h (call c k) s =
      ⟨(run h (k (h s c).1) (h s c).2).result, (run h (k (h s c).1) (h s c).2).state,
        ⟨c, (h s c).1⟩ :: (run h (k (h s c).1) (h s c).2).trace⟩ := rfl

/-- The states that a run passes through, from the first one to the last. A program
that is cut off leaves one of them behind. -/
def states (h : Handler Resp σ) : Program Cmd Resp α → σ → List σ
  | pure _, s => [s]
  | call c k, s => s :: states h (k (h s c).1) (h s c).2

@[simp] theorem states_pure (a : α) (s : σ) :
    states h (Pure.pure a : Program Cmd Resp α) s = [s] := rfl

@[simp] theorem states_call (c : Cmd) (k : Resp c → Program Cmd Resp α) (s : σ) :
    states h (call c k) s = s :: states h (k (h s c).1) (h s c).2 := rfl

/-- A sequence of two programs runs the second from where the first ended. -/
theorem run_bind (p : Program Cmd Resp α) (f : α → Program Cmd Resp β) (s : σ) :
    run h (p >>= f) s =
      let o := run h p s
      let o' := run h (f o.result) o.state
      ⟨o'.result, o'.state, o.trace ++ o'.trace⟩ := by
  induction p generalizing s with
  | pure a => rfl
  | call c k ih =>
      rw [call_bind, run_call, ih (h s c).1 (h s c).2]
      rfl

@[simp] theorem result_bind (p : Program Cmd Resp α) (f : α → Program Cmd Resp β) (s : σ) :
    (run h (p >>= f) s).result =
      (run h (f (run h p s).result) (run h p s).state).result := by
  rw [run_bind]

@[simp] theorem state_bind (p : Program Cmd Resp α) (f : α → Program Cmd Resp β) (s : σ) :
    (run h (p >>= f) s).state =
      (run h (f (run h p s).result) (run h p s).state).state := by
  rw [run_bind]

@[simp] theorem trace_bind (p : Program Cmd Resp α) (f : α → Program Cmd Resp β) (s : σ) :
    (run h (p >>= f) s).trace =
      (run h p s).trace ++ (run h (f (run h p s).result) (run h p s).state).trace := by
  rw [run_bind]

theorem state_mem_states (p : Program Cmd Resp α) (s : σ) :
    (run h p s).state ∈ states h p s := by
  induction p generalizing s with
  | pure a => exact List.mem_singleton.mpr rfl
  | call c k ih => exact List.mem_cons_of_mem s (ih _ _)

theorem mem_states_bind {p : Program Cmd Resp α} {f : α → Program Cmd Resp β} {s t : σ} :
    t ∈ states h (p >>= f) s ↔
      t ∈ states h p s ∨ t ∈ states h (f (run h p s).result) (run h p s).state := by
  induction p generalizing s with
  | pure a =>
      have hfirst : s ∈ states h (f a) s := by
        cases f a with
        | pure b => exact List.mem_singleton.mpr rfl
        | call c k => exact List.mem_cons_self
      constructor
      · exact Or.inr
      · rintro (ht | ht)
        · rw [List.mem_singleton.mp ht]
          exact hfirst
        · exact ht
  | call c k ih =>
      rw [call_bind, states_call, states_call, List.mem_cons, List.mem_cons, ih, or_assoc]
      rfl

@[simp] theorem mem_states_perform {c : Cmd} {s t : σ} :
    t ∈ states h (perform c) s ↔ t = s ∨ t = (h s c).2 := by
  simp [perform, states]

end Program

end Systems
