import Anemoi.Systems.Pool
import Mathlib.Data.List.Induction

/-!
# Programs that go through phases

A program that runs among others is described by the phases it goes through: `next` says
how an event moves it from one phase to another, `ok` which commands it may issue in a
phase. `Follows next ans ok post q p` says that from the phase `q` on the program keeps to
this for as long as the answers it gets are in `ans`, and that `post` relates what it
returns to the phase it returns in. The rules are those of a sequence, a command and a
loop; `post_run` reads it off a run of the program alone.

The trace of a run of a pool is the list of its events, each with the thread that issued
it. A thread's phase is a function of the trace, so `invariant_trace` needs no thread any
more: a condition on the trace and the shared state holds after every schedule if each
command that is `ok` in its thread's phase preserves it. `Always` restricts the steps of
the runs that are looked at.
-/

namespace Systems

namespace Program

variable {Cmd : Type} {Resp : Cmd → Type} {α β σ Q : Type}

/-- From the phase `q` on the program issues only what is `ok` in its phase, and returns
in `post`. -/
def Follows (next : Q → Event Resp → Q) (ans : ∀ c, Resp c → Prop) (ok : Q → Cmd → Prop)
    (post : α → Q → Prop) : Q → Program Cmd Resp α → Prop
  | q, pure a => post a q
  | q, call c k => ok q c ∧ ∀ r, ans c r → Follows next ans ok post (next q ⟨c, r⟩) (k r)

variable {next : Q → Event Resp → Q} {ans : ∀ c, Resp c → Prop} {ok : Q → Cmd → Prop}

theorem follows_perform {c : Cmd} {post : Resp c → Q → Prop} {q : Q} (hc : ok q c)
    (hpost : ∀ r, ans c r → post r (next q ⟨c, r⟩)) :
    Follows next ans ok post q (perform c) :=
  ⟨hc, hpost⟩

namespace Follows

theorem bind {p : Program Cmd Resp α} {f : α → Program Cmd Resp β} {R : α → Q → Prop}
    {post : β → Q → Prop} {q : Q} (hp : Follows next ans ok R q p)
    (hf : ∀ a q', R a q' → Follows next ans ok post q' (f a)) :
    Follows next ans ok post q (p >>= f) := by
  induction p generalizing q with
  | pure a => exact hf a q hp
  | call c k ih => exact ⟨hp.1, fun r hr => ih r (hp.2 r hr)⟩

theorem mono {p : Program Cmd Resp α} {post post' : α → Q → Prop} {q : Q}
    (hp : Follows next ans ok post q p) (hpost : ∀ a q', post a q' → post' a q') :
    Follows next ans ok post' q p := by
  induction p generalizing q with
  | pure a => exact hpost a q hp
  | call c k ih => exact ⟨hp.1, fun r hr => ih r (hp.2 r hr)⟩

/-- A loop stays in the phases that its body comes back to. -/
theorem forM {l : List β} {f : β → Program Cmd Resp PUnit} {I : Q → Prop}
    (hf : ∀ b ∈ l, ∀ q, I q → Follows next ans ok (fun _ => I) q (f b)) {q : Q} (hq : I q) :
    Follows next ans ok (fun _ => I) q (l.forM f) := by
  induction l generalizing q with
  | nil => exact hq
  | cons b l ih =>
      exact (hf b List.mem_cons_self q hq).bind fun _ q' hq' =>
        ih (fun b' hb' => hf b' (List.mem_cons_of_mem b hb')) hq'

/-- What a run returns is in `post` with the phase that its trace leads to. -/
theorem post_run {h : Handler Resp σ} {p : Program Cmd Resp α} {post : α → Q → Prop} {q : Q}
    (hp : Follows next ans ok post q p) (hans : ∀ s c, ans c (h s c).1) (s : σ) :
    post (p.run h s).result ((p.run h s).trace.foldl next q) := by
  induction p generalizing q s with
  | pure a => exact hp
  | call c k ih => exact ih _ (hp.2 _ (hans s c)) _

/-- While the answers keep the phase in `J`, the program issues only what is `quiet`. -/
theorem respects_of {J : Q → Prop} {ans' : ∀ c, Resp c → Prop} {quiet : Cmd → Prop}
    {p : Program Cmd Resp α} {post : α → Q → Prop} {q : Q} (hp : Follows next ans ok post q p)
    (hq : J q) (hans : ∀ c r, ans' c r → ans c r)
    (hnext : ∀ q c r, J q → ans' c r → J (next q ⟨c, r⟩))
    (hok : ∀ q c, J q → ok q c → quiet c) : Respects ans' quiet p := by
  induction p generalizing q with
  | pure a => exact trivial
  | call c k ih =>
      exact ⟨hok q c hq hp.1, fun r hr => ih r (hp.2 r (hans c r hr)) (hnext q c r hq hr)⟩

theorem respects {quiet : Cmd → Prop} {p : Program Cmd Resp α} {post : α → Q → Prop} {q : Q}
    (hp : Follows next ans ok post q p) (hok : ∀ q c, ok q c → quiet c) :
    Respects ans quiet p :=
  hp.respects_of (J := fun _ => True) trivial (fun _ _ h => h) (fun _ _ _ _ _ => trivial)
    fun q c _ => hok q c

/-- A program follows phases that are a part of those it follows. -/
theorem map {Q' : Type} {next' : Q' → Event Resp → Q'} {ok' : Q' → Cmd → Prop}
    {p : Program Cmd Resp α} {post : α → Q → Prop} {q : Q} (hp : Follows next ans ok post q p)
    (π : Q → Q') (hnext : ∀ q e, π (next q e) = next' (π q) e)
    (hok : ∀ q c, ok q c → ok' (π q) c) :
    Follows next' ans ok' (fun _ _ => True) (π q) p := by
  induction p generalizing q with
  | pure a => exact trivial
  | call c k ih =>
      refine ⟨hok q c hp.1, fun r hr => ?_⟩
      rw [← hnext]
      exact ih r (hp.2 r hr)

end Follows

/-- A program whose commands are `ok` in a phase and leave it as it is stays in it. -/
theorem follows_of_ensures {quiet : Cmd → Prop} {post : α → Prop} {p : Program Cmd Resp α}
    (hp : Ensures ans quiet post p) {q : Q} (hok : ∀ c, quiet c → ok q c)
    (hnext : ∀ c r, quiet c → next q ⟨c, r⟩ = q) :
    Follows next ans ok (fun a q' => post a ∧ q' = q) q p := by
  induction p with
  | pure a => exact ⟨hp, rfl⟩
  | call c k ih =>
      refine ⟨hok c hp.1, fun r hr => ?_⟩
      rw [hnext c r hp.1]
      exact ih r (hp.2 r hr)

/-- A program whose commands are `ok` in any phase leads to a phase that its commands lead to. -/
theorem follows_of_ensures_trans {R : Q → Q → Prop} [IsPreorder Q R] {quiet : Cmd → Prop}
    {post : α → Prop} {p : Program Cmd Resp α} (hp : Ensures ans quiet post p)
    (hok : ∀ q c, quiet c → ok q c) (hnext : ∀ q c r, quiet c → R q (next q ⟨c, r⟩)) (q : Q) :
    Follows next ans ok (fun a q' => post a ∧ R q q') q p := by
  induction p generalizing q with
  | pure a => exact ⟨hp, refl_of R q⟩
  | call c k ih =>
      refine ⟨hok q c hp.1, fun r hr => (ih r (hp.2 r hr) _).mono fun a q' h => ?_⟩
      exact ⟨h.1, trans_of R (hnext q c r hp.1) h.2⟩

end Program

/-! ### Traces of a pool -/

/-- Every entry of the list, with the entries before it, is as `G` says. -/
def Always {α : Type} (G : List α → α → Prop) (l : List α) : Prop :=
  ∀ before a after, l = before ++ a :: after → G before a

namespace Always

variable {α : Type} {G : List α → α → Prop}

theorem nil : Always G [] := by
  intro before a after h
  simp at h

theorem concat_iff {l : List α} {a : α} :
    Always G (l ++ [a]) ↔ Always G l ∧ G l a := by
  constructor
  · intro h
    refine ⟨fun before b after hl => h before b (after ++ [a]) ?_, h l a [] rfl⟩
    rw [hl, List.append_assoc, List.cons_append]
  · rintro ⟨hl, ha⟩ before b after hsplit
    rcases List.eq_nil_or_concat after with rfl | ⟨after', b', rfl⟩
    · obtain ⟨rfl, hb⟩ := List.append_inj' hsplit rfl
      rw [← List.head_eq_of_cons_eq hb]
      exact ha
    · rw [List.concat_eq_append, ← List.cons_append, ← List.append_assoc] at hsplit
      exact hl before b after' (List.append_inj' hsplit rfl).1

theorem append_left {l l' : List α} (h : Always G (l ++ l')) : Always G l := by
  intro before a after hl
  refine h before a (after ++ l') ?_
  rw [hl, List.append_assoc, List.cons_append]

theorem iff_forall_lt {l : List α} :
    Always G l ↔ ∀ (n : ℕ) (h : n < l.length), G (l.take n) l[n] := by
  constructor
  · intro h n hn
    refine h _ _ (l.drop (n + 1)) ?_
    rw [List.getElem_cons_drop, List.take_append_drop]
  · rintro h before a after rfl
    have hat := h before.length (by simp)
    simpa using hat

instance [∀ before a, Decidable (G before a)] (l : List α) : Decidable (Always G l) :=
  decidable_of_iff _ iff_forall_lt.symm

end Always

namespace Pool

open Program

variable {Cmd : Type} {Resp : Cmd → Type} {α σ Q : Type} (h : Handler Resp σ)

/-- The events of a run, each with the thread that issued it. -/
def trace (pool : Pool Cmd Resp α σ) : List ℕ → List (ℕ × Event Resp)
  | [] => []
  | i :: schedule =>
      ((step h pool i).1.map fun e => (i, e)).toList ++ trace (step h pool i).2 schedule

theorem trace_concat (pool : Pool Cmd Resp α σ) (schedule : List ℕ) (i : ℕ) :
    trace h pool (schedule ++ [i]) = trace h pool schedule ++
      ((step h (Machine.runFrom (step h) pool schedule) i).1.map fun e => (i, e)).toList := by
  induction schedule generalizing pool with
  | nil =>
      rw [List.nil_append, trace, trace, trace, List.append_nil, List.nil_append]
      rfl
  | cons j schedule ih =>
      rw [List.cons_append, trace, ih, trace, List.append_assoc]
      rfl

/-- The phase a thread is in after a trace. -/
def phaseAfter (next : Q → Event Resp → Q) (start : Q) (i : ℕ)
    (trace : List (ℕ × Event Resp)) : Q :=
  trace.foldl (fun q e => if e.1 = i then next q e.2 else q) start

section PhaseAfter

variable (next : Q → Event Resp → Q) (start : Q) (i : ℕ) (trace : List (ℕ × Event Resp))

theorem phaseAfter_concat (e : ℕ × Event Resp) :
    phaseAfter next start i (trace ++ [e]) =
      if e.1 = i then next (phaseAfter next start i trace) e.2
      else phaseAfter next start i trace := by
  rw [phaseAfter, List.foldl_concat]
  rfl

end PhaseAfter

variable {h} {next : Q → Event Resp → Q} {start : Q} {ans : ∀ c, Resp c → Prop}
  {ok : Q → Cmd → Prop} {post : α → Q → Prop}

/-- Every thread follows its phases from the one it is in after the trace. -/
def InPhase (next : Q → Event Resp → Q) (start : Q) (ans : ∀ c, Resp c → Prop)
    (ok : Q → Cmd → Prop) (post : α → Q → Prop) (trace : List (ℕ × Event Resp))
    (threads : List (Program Cmd Resp α)) : Prop :=
  ∀ i p, threads[i]? = some p →
    Follows next ans ok post (phaseAfter next start i trace) p

/-- What the threads may do in their phases preserves a condition on the trace and the
shared state: then it holds after every schedule whose events are as `G` says. -/
theorem invariant_trace {I : List (ℕ × Event Resp) → σ → Prop}
    {G : List (ℕ × Event Resp) → ℕ × Event Resp → Prop} {pool : Pool Cmd Resp α σ}
    (hans : ∀ s c, ans c (h s c).1)
    (hthreads : ∀ p ∈ pool.threads, Follows next ans ok post start p)
    (hstart : I [] pool.shared)
    (hstep : ∀ trace s i c, I trace s → ok (phaseAfter next start i trace) c →
      G trace (i, ⟨c, (h s c).1⟩) → I (trace ++ [(i, ⟨c, (h s c).1⟩)]) (h s c).2)
    {schedule : List ℕ} (hG : Always G (trace h pool schedule)) :
    I (trace h pool schedule) (Machine.runFrom (step h) pool schedule).shared ∧
      InPhase next start ans ok post (trace h pool schedule)
        (Machine.runFrom (step h) pool schedule).threads := by
  induction schedule using List.reverseRecOn with
  | nil => exact ⟨hstart, fun i p hp => hthreads p (List.mem_of_getElem? hp)⟩
  | append_singleton schedule i ih =>
      rw [trace_concat] at hG ⊢
      obtain ⟨hI, hphase⟩ := ih hG.append_left
      rw [Machine.runFrom_append]
      generalize Machine.runFrom (step h) pool schedule = mid at hG hI hphase ⊢
      change I _ (step h mid i).2.shared ∧ InPhase _ _ _ _ _ _ (step h mid i).2.threads
      rcases step_cases h mid i with hsame | ⟨c, k, hthread, hcall⟩
      · rw [hsame, Option.map_none, Option.toList_none, List.append_nil]
        exact ⟨hI, hphase⟩
      · rw [hcall, Option.map_some, Option.toList_some] at hG ⊢
        obtain ⟨hc, hk⟩ := hphase i _ hthread
        refine ⟨hstep _ _ i c hI hc (Always.concat_iff.mp hG).2, ?_⟩
        intro j p hp
        rw [phaseAfter_concat]
        by_cases hji : i = j
        · subst hji
          have hlt : i < mid.threads.length := (List.getElem?_eq_some_iff.mp hthread).1
          rw [List.getElem?_set_self hlt] at hp
          rw [if_pos rfl, ← Option.some.inj hp]
          exact hk _ (hans _ _)
        · rw [List.getElem?_set_ne hji] at hp
          rw [if_neg hji]
          exact hphase j p hp

end Pool

end Systems
