import Anemoi.Systems.Logic
import Mathlib.Data.Nat.Notation
import Mathlib.Logic.Function.Basic

/-!
# Closed systems

An open system answers a command out of its state and of what is outside at that moment;
its state counts the commands, and `env n` is what is outside at command `n`. `close`
puts such a system into surroundings that are a state machine themselves and see every
command with its answer.

`exists_env` says that a closed system is an instance of the open one: each of its runs is
a run against some `env`. So what holds of an open system in any surroundings holds of
every system that is closed by some: `triple_close`.
-/

namespace Systems

namespace Program

variable {Cmd : Type} {Resp : Cmd → Type} {α ε σ τ : Type}

/-- A handler that reads the surroundings at the number of the command only. -/
structure OpenSystem (Resp : Cmd → Type) (ε σ : Type) where
  handler : (ℕ → ε) → Handler Resp σ
  clock : σ → ℕ
  clock_handler : ∀ env s c, clock (handler env s c).2 = clock s + 1
  handler_congr : ∀ {env env' : ℕ → ε} {s : σ}, env (clock s) = env' (clock s) →
    ∀ c, handler env s c = handler env' s c

/-- Surroundings with a state: what they show at command `n`, and what that command and its
answer make of them. -/
structure Environment (Resp : Cmd → Type) (ε τ : Type) where
  shows : ℕ → τ → ε
  next : ℕ → τ → (c : Cmd) → Resp c → τ

namespace OpenSystem

variable (S : OpenSystem Resp ε σ) (E : Environment Resp ε τ)

def close : Handler Resp (σ × τ) := fun s c =>
  let n := S.clock s.1
  let answered := S.handler (fun _ => E.shows n s.2) s.1 c
  (answered.1, answered.2, E.next n s.2 c answered.1)

/-- A run reads the surroundings from its first command on. -/
theorem run_congr (p : Program Cmd Resp α) {env env' : ℕ → ε} {s : σ}
    (h : ∀ n, S.clock s ≤ n → env n = env' n) :
    p.run (S.handler env) s = p.run (S.handler env') s := by
  induction p generalizing s with
  | pure a => rfl
  | call c k ih =>
      have hfirst := S.handler_congr (h _ (Nat.le_refl _)) c
      have hrest : ∀ r, (k r).run (S.handler env) (S.handler env' s c).2 =
          (k r).run (S.handler env') (S.handler env' s c).2 := by
        intro r
        refine ih r fun n hn => h n ?_
        rw [S.clock_handler] at hn
        exact Nat.le_of_succ_le hn
      rw [run_call, run_call, hfirst, hrest]

/-- A run of a closed system, in terms of the open one. -/
def Matches (env : ℕ → ε) (p : Program Cmd Resp α) (s : σ) (t : τ) : Prop :=
  (p.run (S.close E) (s, t)).result = (p.run (S.handler env) s).result ∧
  (p.run (S.close E) (s, t)).state.1 = (p.run (S.handler env) s).state ∧
  (p.run (S.close E) (s, t)).trace = (p.run (S.handler env) s).trace

/-- Every run of a closed system is one of the open system in some surroundings. -/
theorem exists_env (p : Program Cmd Resp α) (s : σ) (t : τ) :
    ∃ env, S.Matches E env p s t := by
  induction p generalizing s t with
  | pure a => exact ⟨fun n => E.shows n t, rfl, rfl, rfl⟩
  | call c k ih =>
      let answered := S.close E (s, t) c
      obtain ⟨later, hresult, hstate, htrace⟩ := ih answered.1 answered.2.1 answered.2.2
      -- what is shown at this command, and from the next one on what the rest was shown
      let env := Function.update later (S.clock s) (E.shows (S.clock s) t)
      have hshown : env (S.clock s) = E.shows (S.clock s) t := Function.update_self ..
      have hfirst : S.handler env s c = S.handler (fun _ => E.shows (S.clock s) t) s c := by
        refine S.handler_congr ?_ c
        exact hshown
      have hrest : (k answered.1).run (S.handler env) answered.2.1 =
          (k answered.1).run (S.handler later) answered.2.1 := by
        refine S.run_congr _ fun n hn => Function.update_of_ne ?_ _ _
        have hclock : S.clock answered.2.1 = S.clock s + 1 := S.clock_handler _ s c
        rw [hclock] at hn
        exact Nat.ne_of_gt hn
      rw [← hrest] at hresult hstate htrace
      refine ⟨env, ?_⟩
      unfold Matches
      rw [run_call, run_call, hfirst]
      exact ⟨hresult, hstate, congrArg (_ :: ·) htrace⟩

/-- What holds of the open system in any surroundings holds of the closed one. -/
theorem triple_close {p : Program Cmd Resp α} {P : Condition Resp σ} {Q : α → Condition Resp σ}
    (h : ∀ env, Triple (S.handler env) P p Q) :
    Triple (S.close E) (fun history s => P history s.1) p fun a history s => Q a history s.1 := by
  rintro history ⟨s, t⟩ hs
  obtain ⟨env, hresult, hstate, htrace⟩ := S.exists_env E p s t
  rw [hresult, hstate, htrace]
  exact h env history s hs

end OpenSystem

/-- A condition that every command keeps is kept by every program. -/
theorem triple_of_forall {h : Handler Resp σ} {P : Condition Resp σ}
    (hkeep : ∀ history s c, P history s → P (history ++ [⟨c, (h s c).1⟩]) (h s c).2)
    (p : Program Cmd Resp α) : Triple h P p fun _ => P := by
  have hany : Respects (fun _ _ => True) (fun _ => True) p := by
    induction p with
    | pure a => exact trivial
    | call c k ih => exact ⟨trivial, fun r _ => ih r⟩
  exact triple_of_ensures hany (fun _ _ => trivial) fun history s c _ => hkeep history s c

end Program

end Systems
