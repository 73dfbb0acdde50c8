import Anemoi.Systems.Pool
import Mathlib.Order.Nat
import Mathlib.Data.Nat.Find

/-!
# Programs among others

A program that runs among others is interfered with: between two of its commands others issue
theirs. `RunsAmong h ok p s a t` is such a run of `p`, where the others issue commands in `ok`,
and `Withstands h ok P p Q` says that every such run from `P` ends in `Q`. A condition that the
commands in `ok` keep is `Stable`; the rules of the judgement ask for it between any two commands.

A thread of a pool runs among the other threads (`runsAmong_thread`). On an endless schedule that
gives it a turn again and again it comes to its end, and what its program brings about stays
(`eventually_of_withstands`).
-/

namespace Systems

namespace Program

variable {Cmd : Type} {Resp : Cmd → Type} {α β σ : Type}

/-- The commands in `ok` keep the condition. -/
def Stable (h : Handler Resp σ) (ok : Cmd → Prop) (P : σ → Prop) : Prop :=
  ∀ s c, ok c → P s → P (h s c).2

/-- A run of a program from a state, with its result and the state it is left in, where others
issue commands in `ok` before, between and after its own. -/
inductive RunsAmong (h : Handler Resp σ) (ok : Cmd → Prop) :
    Program Cmd Resp α → σ → α → σ → Prop
  | done (a : α) (s : σ) : RunsAmong h ok (.pure a) s a s
  | interfered {p : Program Cmd Resp α} {s t : σ} {a : α} (c : Cmd) (hc : ok c)
      (later : RunsAmong h ok p (h s c).2 a t) : RunsAmong h ok p s a t
  | issued {c : Cmd} {k : Resp c → Program Cmd Resp α} {s t : σ} {a : α}
      (later : RunsAmong h ok (k (h s c).1) (h s c).2 a t) : RunsAmong h ok (.call c k) s a t

/-- Whatever others do in between, from `P` the program ends in `Q` of its result. -/
def Withstands (h : Handler Resp σ) (ok : Cmd → Prop) (P : σ → Prop) (p : Program Cmd Resp α)
    (Q : α → σ → Prop) : Prop :=
  ∀ s a t, RunsAmong h ok p s a t → P s → Q a t

variable {h : Handler Resp σ} {ok : Cmd → Prop} {P P' : σ → Prop} {Q : α → σ → Prop}

namespace Stable

theorem or (hP : Stable h ok P) (hP' : Stable h ok P') : Stable h ok fun s => P s ∨ P' s :=
  fun s c hc hs => hs.imp (hP s c hc) (hP' s c hc)

theorem const (φ : Prop) : Stable h ok fun _ => φ :=
  fun _ _ _ hφ => hφ

theorem and (hP : Stable h ok P) (hP' : Stable h ok P') : Stable h ok fun s => P s ∧ P' s :=
  fun s c hc hs => ⟨hP s c hc hs.1, hP' s c hc hs.2⟩

end Stable

/-- A program that has returned is interfered with, and does nothing more. -/
theorem RunsAmong.of_pure {a b : α} {s t : σ} (hrun : RunsAmong h ok (Pure.pure a) s b t)
    (hP : Stable h ok P) (hs : P s) : a = b ∧ P t := by
  generalize hp : (Pure.pure a : Program Cmd Resp α) = p at hrun
  induction hrun with
  | done b s =>
      cases hp
      exact ⟨rfl, hs⟩
  | interfered c hc _ ih => exact ih (hP _ c hc hs) hp
  | issued => cases hp

/-- Until its first command a program is only interfered with. -/
theorem RunsAmong.of_call {c : Cmd} {k : Resp c → Program Cmd Resp α} {a : α} {s t : σ}
    (hrun : RunsAmong h ok (call c k) s a t) (hP : Stable h ok P) (hs : P s) :
    ∃ s', P s' ∧ RunsAmong h ok (k (h s' c).1) (h s' c).2 a t := by
  generalize hp : (call c k : Program Cmd Resp α) = p at hrun
  induction hrun with
  | done => cases hp
  | interfered c' hc _ ih => exact ih (hP _ c' hc hs) hp
  | issued later =>
      cases hp
      exact ⟨_, hs, later⟩

theorem RunsAmong.of_bind {p : Program Cmd Resp α} {f : α → Program Cmd Resp β} {b : β}
    {s u : σ} (hrun : RunsAmong h ok (p >>= f) s b u) :
    ∃ a t, RunsAmong h ok p s a t ∧ RunsAmong h ok (f a) t b u := by
  generalize hq : p >>= f = q at hrun
  induction hrun generalizing p with
  | done b s =>
      cases p with
      | pure a => exact ⟨a, s, .done a s, by rw [show f a = .pure b from hq]; exact .done b s⟩
      | call c k => cases hq
  | interfered c hc later ih =>
      obtain ⟨a, t, hp, hf⟩ := ih hq
      exact ⟨a, t, .interfered c hc hp, hf⟩
  | @issued c k s u b later ih =>
      cases p with
      | pure a => exact ⟨a, s, .done a s, by rw [show f a = .call c k from hq]; exact .issued later⟩
      | call c' k' =>
          cases hq
          obtain ⟨a, t, hp, hf⟩ := ih rfl
          exact ⟨a, t, .issued hp, hf⟩

namespace Withstands

theorem pure {a : α} (hP : Stable h ok P) (hQ : ∀ s, P s → Q a s) :
    Withstands h ok P (Pure.pure a) Q := by
  intro s b t hrun hs
  obtain ⟨rfl, ht⟩ := hrun.of_pure hP hs
  exact hQ t ht

theorem call {c : Cmd} {k : Resp c → Program Cmd Resp α} (hP : Stable h ok P)
    {R : Resp c → σ → Prop} (hc : ∀ s, P s → R (h s c).1 (h s c).2)
    (hk : ∀ r, Withstands h ok (R r) (k r) Q) : Withstands h ok P (Program.call c k) Q := by
  intro s a t hrun hs
  obtain ⟨s', hs', hlater⟩ := hrun.of_call hP hs
  exact hk _ _ a t hlater (hc s' hs')

theorem perform {c : Cmd} {Q : Resp c → σ → Prop} (hP : Stable h ok P)
    (hQ : ∀ r, Stable h ok (Q r)) (hc : ∀ s, P s → Q (h s c).1 (h s c).2) :
    Withstands h ok P (Program.perform c) Q :=
  call hP hc fun r => pure (hQ r) fun _ hs => hs

theorem bind {p : Program Cmd Resp α} {f : α → Program Cmd Resp β} {R : β → σ → Prop}
    (hp : Withstands h ok P p Q) (hf : ∀ a, Withstands h ok (Q a) (f a) R) :
    Withstands h ok P (p >>= f) R := by
  intro s b u hrun hs
  obtain ⟨a, t, hrunp, hrunf⟩ := hrun.of_bind
  exact hf a t b u hrunf (hp s a t hrunp hs)

theorem or {p : Program Cmd Resp α} (hp : Withstands h ok P p Q) (hp' : Withstands h ok P' p Q) :
    Withstands h ok (fun s => P s ∨ P' s) p Q :=
  fun s a t hrun hs => hs.elim (hp s a t hrun) (hp' s a t hrun)

/-- A condition that holds of the state only if a fact does may be used with the fact. -/
theorem of_fact {φ : Prop} {p : Program Cmd Resp α} (hp : φ → Withstands h ok P p Q) :
    Withstands h ok (fun s => φ ∧ P s) p Q :=
  fun s a t hrun hs => hp hs.1 s a t hrun hs.2

/-- A program whose commands are in `ok` keeps what is stable. -/
theorem keeps {ans : ∀ c, Resp c → Prop} {post : α → Prop} {p : Program Cmd Resp α}
    (hp : Ensures ans ok post p) (hans : ∀ s c, ans c (h s c).1) (hP : Stable h ok P) :
    Withstands h ok P p fun _ => P := by
  induction p with
  | pure a => exact pure hP fun _ hs => hs
  | call c k ih =>
      refine call (R := fun r s => ans c r ∧ P s) hP
        (fun s hs => ⟨hans s c, hP s c hp.1 hs⟩) fun r => ?_
      exact of_fact fun hr => ih r (hp.2 r hr)

/-- A loop keeps what its body keeps. -/
theorem forM {l : List β} {f : β → Program Cmd Resp PUnit} (hP : Stable h ok P)
    (hf : ∀ b ∈ l, Withstands h ok P (f b) fun _ => P) :
    Withstands h ok P (l.forM f) fun _ => P := by
  induction l with
  | nil => exact pure hP fun _ hs => hs
  | cons b l ih =>
      exact (hf b List.mem_cons_self).bind fun _ =>
        ih fun b' hb' => hf b' (List.mem_cons_of_mem b hb')

/-- A loop brings about what its body brings about at one element, if the body keeps the
condition before that and what is brought about after that. -/
theorem forM_of_mem {R : σ → Prop} {l : List β} {f : β → Program Cmd Resp PUnit} {b : β}
    (hb : b ∈ l) (hf : Withstands h ok P (f b) fun _ => R) (hR : Stable h ok R)
    (hkeepP : ∀ b ∈ l, Withstands h ok P (f b) fun _ => P)
    (hkeepR : ∀ b ∈ l, Withstands h ok R (f b) fun _ => R) :
    Withstands h ok P (l.forM f) fun _ => R := by
  induction l with
  | nil => cases hb
  | cons b' l ih =>
      have hlaterR : ∀ b ∈ l, Withstands h ok R (f b) fun _ => R :=
        fun b hb => hkeepR b (List.mem_cons_of_mem b' hb)
      rcases List.mem_cons.mp hb with rfl | hmem
      · exact hf.bind fun _ => forM hR hlaterR
      · exact (hkeepP b' List.mem_cons_self).bind fun _ =>
          ih hmem (fun b hb => hkeepP b (List.mem_cons_of_mem b' hb)) hlaterR

end Withstands

/-- What a program with a continuation ensures, it ensures up to there. -/
theorem Ensures.of_bind {ans : ∀ c, Resp c → Prop} {post : β → Prop} {p : Program Cmd Resp α}
    {f : α → Program Cmd Resp β} (hp : Ensures ans ok post (p >>= f)) :
    Ensures ans ok (fun a => Ensures ans ok post (f a)) p := by
  induction p with
  | pure a => exact hp
  | call c k ih => exact ⟨hp.1, fun r hr => ih r (hp.2 r hr)⟩

end Program

/-! ### Threads of a pool -/

namespace Pool

open Program

variable {Cmd : Type} {Resp : Cmd → Type} {α σ : Type} {h : Handler Resp σ}
  {ans : ∀ c, Resp c → Prop} {ok : Cmd → Prop} {post : α → Prop} {pool : Pool Cmd Resp α σ}

/-- A step of another thread leaves a thread where it is. -/
theorem threads_step_of_ne {i j : ℕ} (hij : i ≠ j) (pool : Pool Cmd Resp α σ) :
    (step h pool i).2.threads[j]? = pool.threads[j]? := by
  rcases step_cases h pool i with hsame | ⟨c, k, -, hcall⟩
  · rw [hsame]
  · rw [hcall]
    exact List.getElem?_set_ne hij

/-- A thread with a command issues it when it gets a turn. -/
theorem step_of_call {i : ℕ} {c : Cmd} {k : Resp c → Program Cmd Resp α}
    (hthread : pool.threads[i]? = some (.call c k)) :
    (step h pool i).2.shared = (h pool.shared c).2 ∧
      (step h pool i).2.threads[i]? = some (k (h pool.shared c).1) := by
  have hlt : i < pool.threads.length := (List.getElem?_eq_some_iff.mp hthread).1
  rw [step, hthread]
  exact ⟨rfl, List.getElem?_set_self hlt⟩

/-- A thread that has come to its end has run among the others. -/
theorem runsAmong_thread (hans : ∀ s c, ans c (h s c).1)
    (hthreads : ∀ p ∈ pool.threads, Ensures ans ok post p) {j : ℕ} {p : Program Cmd Resp α}
    (hthread : pool.threads[j]? = some p) {schedule : List ℕ} {a : α}
    (hend : (Machine.runFrom (step h) pool schedule).threads[j]? = some (.pure a)) :
    RunsAmong h ok p pool.shared a (Machine.runFrom (step h) pool schedule).shared := by
  induction schedule generalizing pool p with
  | nil =>
      rw [Machine.runFrom_nil, hthread, Option.some.injEq] at hend
      rw [hend]
      exact .done a _
  | cons i schedule ih =>
      rw [Machine.runFrom_cons] at hend ⊢
      have hnext := (ensures_step hans hthreads i).2
      by_cases hij : i = j
      · subst hij
        cases p with
        | pure b =>
            have hstep : step h pool i = (none, pool) := by
              rw [step, hthread]
            rw [hstep] at hend ⊢
            exact ih hthreads hthread hend
        | call c k =>
            obtain ⟨hshared, hlater⟩ := step_of_call (h := h) hthread
            have hrun := ih hnext hlater hend
            rw [hshared] at hrun
            exact .issued hrun
      · have hsame := (threads_step_of_ne (h := h) hij pool).trans hthread
        have hrun := ih hnext hsame hend
        rcases step_cases h pool i with hidle | ⟨c, k, hother, hcall⟩
        · rw [hidle] at hrun ⊢
          exact hrun
        · rw [hcall] at hrun ⊢
          have hc : ok c := (hthreads _ (List.mem_of_getElem? hother)).1
          exact .interfered c hc hrun

/-! ### Endless schedules -/

/-- The pool after the first `n` steps of an endless schedule. -/
def after (h : Handler Resp σ) (pool : Pool Cmd Resp α σ) (schedule : ℕ → ℕ) (n : ℕ) :
    Pool Cmd Resp α σ :=
  Machine.runFrom (step h) pool ((List.range n).map schedule)

/-- A thread that gets a turn again and again. -/
def Recurs (schedule : ℕ → ℕ) (j : ℕ) : Prop :=
  ∀ n, ∃ m, n ≤ m ∧ schedule m = j

section Endless

variable {schedule : ℕ → ℕ}

theorem after_succ (pool : Pool Cmd Resp α σ) (n : ℕ) :
    after h pool schedule (n + 1) = (step h (after h pool schedule n) (schedule n)).2 := by
  rw [after, List.range_succ, List.map_append, Machine.runFrom_append]
  rfl

theorem after_add (pool : Pool Cmd Resp α σ) (n d : ℕ) :
    after h pool schedule (n + d) =
      Machine.runFrom (step h) (after h pool schedule n)
        ((List.range d).map fun i => schedule (n + i)) := by
  induction d with
  | zero => rfl
  | succ d ih =>
      rw [List.range_succ, List.map_append, Machine.runFrom_append, ← ih, ← Nat.add_assoc,
        after_succ]
      rfl

theorem ensures_after (hans : ∀ s c, ans c (h s c).1)
    (hthreads : ∀ p ∈ pool.threads, Ensures ans ok post p) (n : ℕ) :
    ∀ p ∈ (after h pool schedule n).threads, Ensures ans ok post p := by
  induction n with
  | zero => exact hthreads
  | succ n ih =>
      rw [after_succ]
      exact (ensures_step hans ih _).2

/-- What is stable stays. -/
theorem stable_after {P : σ → Prop} (hans : ∀ s c, ans c (h s c).1)
    (hthreads : ∀ p ∈ pool.threads, Ensures ans ok post p) (hP : Stable h ok P) {n m : ℕ}
    (hnm : n ≤ m) (hn : P (after h pool schedule n).shared) :
    P (after h pool schedule m).shared := by
  obtain ⟨d, rfl⟩ := Nat.exists_eq_add_of_le hnm
  rw [after_add]
  exact invariant_runFrom hans (ensures_after hans hthreads n) (fun s c hc hs => hP s c hc hs) hn _

/-- A thread waits for its next turn. -/
theorem threads_after_of_idle {j n : ℕ} (d : ℕ) (hidle : ∀ i < d, schedule (n + i) ≠ j) :
    (after h pool schedule (n + d)).threads[j]? = (after h pool schedule n).threads[j]? := by
  induction d with
  | zero => rfl
  | succ d ih =>
      rw [← Nat.add_assoc, after_succ, threads_step_of_ne (hidle d (Nat.lt_succ_self d))]
      exact ih fun i hi => hidle i (Nat.lt_succ_of_lt hi)

/-- The next turn of a thread that gets one again and again. -/
theorem Recurs.next {j : ℕ} (hturns : Recurs schedule j) (n : ℕ) :
    ∃ d, schedule (n + d) = j ∧ ∀ i < d, schedule (n + i) ≠ j := by
  have hexists : ∃ d, schedule (n + d) = j := by
    obtain ⟨m, hm, hj⟩ := hturns n
    exact ⟨m - n, by rw [Nat.add_sub_cancel' hm, hj]⟩
  exact ⟨Nat.find hexists, Nat.find_spec hexists, fun i hi => Nat.find_min hexists hi⟩

/-- A thread that gets a turn again and again comes to its end. -/
theorem exists_end {j : ℕ} (hturns : Recurs schedule j) {n : ℕ} {p : Program Cmd Resp α}
    (hthread : (after h pool schedule n).threads[j]? = some p) :
    ∃ m a, n ≤ m ∧ (after h pool schedule m).threads[j]? = some (.pure a) := by
  induction p generalizing n with
  | pure a => exact ⟨n, a, le_rfl, hthread⟩
  | call c k ih =>
      obtain ⟨d, hturn, hidle⟩ := hturns.next n
      have hwaits : (after h pool schedule (n + d)).threads[j]? = some (call c k) :=
        (threads_after_of_idle d hidle).trans hthread
      obtain ⟨-, hlater⟩ := step_of_call (h := h) hwaits
      rw [← hturn, ← after_succ] at hlater
      obtain ⟨m, a, hm, hend⟩ := ih _ (hturn ▸ hlater)
      exact ⟨m, a, le_trans (by omega) hm, hend⟩

/-- What a thread brings about whatever the others do, it brings about for good on every
schedule that gives it a turn again and again. -/
theorem eventually_of_withstands (hans : ∀ s c, ans c (h s c).1)
    (hthreads : ∀ p ∈ pool.threads, Ensures ans ok post p) {j : ℕ} (hturns : Recurs schedule j)
    {n : ℕ} {p : Program Cmd Resp α} {P R : σ → Prop}
    (hthread : (after h pool schedule n).threads[j]? = some p)
    (hp : Withstands h ok P p fun _ => R) (hR : Stable h ok R)
    (hn : P (after h pool schedule n).shared) :
    ∃ m, n ≤ m ∧ ∀ k, m ≤ k → R (after h pool schedule k).shared := by
  obtain ⟨m, a, hm, hend⟩ := exists_end hturns hthread
  refine ⟨m, hm, fun k hk => stable_after hans hthreads hR hk ?_⟩
  obtain ⟨d, rfl⟩ := Nat.exists_eq_add_of_le hm
  rw [after_add] at hend ⊢
  exact hp _ a _ (runsAmong_thread hans (ensures_after hans hthreads n) hthread hend) hn

end Endless

end Pool

end Systems
