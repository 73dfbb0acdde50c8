import Anemoi.Systems.Phases
import Mathlib.Algebra.BigOperators.Group.Finset.Basic
import Mathlib.Algebra.Order.BigOperators.Group.Finset
import Mathlib.Data.Multiset.AddSub
import Mathlib.Tactic.Abel

/-!
# Tickets that are used once

An answer may give out tickets, and a command may use some up. A program is `Thrifty` when
it uses no ticket but those that it has drawn itself, and each of them once. What a program
holds is a phase, or a part of one.

In every interleaving of thrifty programs those used up and those still held by any of the
threads are among those given out (`accounts_trace`).
So if no ticket is given out twice then none is used twice, by whichever threads
(`nodup_usedIn`).
-/

namespace Systems

open Program

/-- Which tickets an answer gives out, and which a command uses up. -/
structure Tickets {Cmd : Type} (Resp : Cmd → Type) (T : Type) where
  drawn : Event Resp → Multiset T
  used : Cmd → Multiset T

namespace Tickets

variable {Cmd : Type} {Resp : Cmd → Type} {T α β σ : Type} (tickets : Tickets Resp T)

section Programs

variable [DecidableEq T]

/-- What is held after an event. -/
def hold (held : Multiset T) (e : Event Resp) : Multiset T :=
  held - tickets.used e.1 + tickets.drawn e

/-- The command uses up only what is held. -/
def Covers (held : Multiset T) (c : Cmd) : Prop :=
  tickets.used c ≤ held

/-- The program uses up only tickets that it has drawn, and each of them once. -/
abbrev Thrifty (p : Program Cmd Resp α) : Prop :=
  Follows tickets.hold (fun _ _ => True) tickets.Covers (fun _ _ => True) 0 p

end Programs

/-! ### Interleavings -/

section Interleavings

variable (trace : List (ℕ × Event Resp))

def drawnIn : Multiset T := (trace.map fun e => tickets.drawn e.2).sum

def usedIn : Multiset T := (trace.map fun e => tickets.used e.2.1).sum

theorem drawnIn_concat (e : ℕ × Event Resp) :
    tickets.drawnIn (trace ++ [e]) = tickets.drawnIn trace + tickets.drawn e.2 := by
  rw [drawnIn, List.map_append, List.sum_append, List.map_singleton, List.sum_singleton]
  rfl

theorem usedIn_concat (e : ℕ × Event Resp) :
    tickets.usedIn (trace ++ [e]) = tickets.usedIn trace + tickets.used e.2.1 := by
  rw [usedIn, List.map_append, List.sum_append, List.map_singleton, List.sum_singleton]
  rfl

variable [DecidableEq T]

/-- What the thread `i` holds after the trace. -/
abbrev heldAfter (i : ℕ) : Multiset T := Pool.phaseAfter tickets.hold 0 i trace

/-- The tickets used up and those held by some of the threads are among those given out. -/
def Accounts : Prop :=
  ∀ threads : Finset ℕ,
    tickets.usedIn trace + ∑ i ∈ threads, tickets.heldAfter trace i ≤ tickets.drawnIn trace

variable {tickets trace}

theorem heldAfter_concat_of_ne {i j : ℕ} (h : i ≠ j) (e : Event Resp) :
    tickets.heldAfter (trace ++ [(i, e)]) j = tickets.heldAfter trace j := by
  rw [heldAfter, Pool.phaseAfter_concat, if_neg h]

theorem heldAfter_concat_self (i : ℕ) (e : Event Resp) :
    tickets.heldAfter (trace ++ [(i, e)]) i = tickets.hold (tickets.heldAfter trace i) e := by
  rw [heldAfter, Pool.phaseAfter_concat, if_pos rfl]

/-- The books are kept right by a command that its thread can cover. -/
theorem Accounts.concat (h : tickets.Accounts trace) {i : ℕ} {c : Cmd}
    (hc : tickets.Covers (tickets.heldAfter trace i) c) (r : Resp c) :
    tickets.Accounts (trace ++ [(i, ⟨c, r⟩)]) := by
  -- the thread that issues the command is among those counted, and the others hold what they held
  have hwith : ∀ others : Finset ℕ, i ∉ others → tickets.usedIn (trace ++ [(i, ⟨c, r⟩)]) +
      ∑ j ∈ insert i others, tickets.heldAfter (trace ++ [(i, ⟨c, r⟩)]) j ≤
        tickets.drawnIn (trace ++ [(i, ⟨c, r⟩)]) := by
    intro others hi
    have hothers : ∑ j ∈ others, tickets.heldAfter (trace ++ [(i, ⟨c, r⟩)]) j =
        ∑ j ∈ others, tickets.heldAfter trace j :=
      Finset.sum_congr rfl fun j hj => heldAfter_concat_of_ne (ne_of_mem_of_not_mem hj hi).symm _
    obtain ⟨rest, hrest⟩ := Multiset.le_iff_exists_add.mp hc
    have hbefore := h (insert i others)
    rw [Finset.sum_insert hi, hrest] at hbefore
    rw [Finset.sum_insert hi, hothers, heldAfter_concat_self, usedIn_concat, drawnIn_concat, hold,
      hrest, add_tsub_cancel_left]
    calc tickets.usedIn trace + tickets.used c +
          (rest + tickets.drawn ⟨c, r⟩ + ∑ j ∈ others, tickets.heldAfter trace j)
        = tickets.usedIn trace + (tickets.used c + rest +
            ∑ j ∈ others, tickets.heldAfter trace j) + tickets.drawn ⟨c, r⟩ := by abel
      _ ≤ tickets.drawnIn trace + tickets.drawn ⟨c, r⟩ := Multiset.add_le_add_right hbefore
  intro threads
  refine le_trans ?_ (hwith (threads.erase i) (Finset.notMem_erase i threads))
  exact Multiset.add_le_add_left
    (Finset.sum_le_sum_of_subset (Finset.insert_erase_subset i threads))

variable {h : Handler Resp σ} {pool : Pool Cmd Resp α σ}

/-- In every interleaving of thrifty programs the books are right. -/
theorem accounts_trace (hthreads : ∀ p ∈ pool.threads, tickets.Thrifty p)
    (schedule : List ℕ) : tickets.Accounts (Pool.trace h pool schedule) := by
  have hstart : tickets.Accounts ([] : List (ℕ × Event Resp)) := by
    intro threads
    have hnone : ∑ i ∈ threads, tickets.heldAfter [] i = 0 := Finset.sum_eq_zero fun _ _ => rfl
    rw [hnone]
    exact le_refl 0
  exact (Pool.invariant_trace (h := h) (I := fun trace _ => tickets.Accounts trace)
    (G := fun _ _ => True) (fun _ _ => trivial) hthreads hstart
    (fun _ _ _ _ hbooks hc _ => hbooks.concat hc _) fun _ _ _ _ => trivial).1

theorem Accounts.usedIn_le_drawnIn (haccounts : tickets.Accounts trace) :
    tickets.usedIn trace ≤ tickets.drawnIn trace :=
  (Multiset.le_add_right _ _).trans (haccounts ∅)

/-- If no ticket is given out twice then none is used twice. -/
theorem nodup_usedIn (hthreads : ∀ p ∈ pool.threads, tickets.Thrifty p) {schedule : List ℕ}
    (hdrawn : (tickets.drawnIn (Pool.trace h pool schedule)).Nodup) :
    (tickets.usedIn (Pool.trace h pool schedule)).Nodup :=
  Multiset.nodup_of_le (accounts_trace hthreads schedule).usedIn_le_drawnIn hdrawn

end Interleavings

end Tickets

end Systems
