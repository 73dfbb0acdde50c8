import Anemoi.Systems.Program

/-!
# Reasoning about programs

Two judgements about programs that issue commands.

`Ensures ans ok post p` is a property of the program alone: as long as the answers
stay within `ans`, it issues only commands in `ok` and returns a value in `post`.
`forall_mem_trace` turns it into a statement about the trace of every run.

`Triple h P p Q` is about runs against the handler `h`. Its conditions see the state
and the history, the events of everything that ran before. A program that issues only
commands which preserve a condition preserves it as a whole: `triple_of_ensures` takes
this from an `Ensures` fact.
-/

namespace Systems

namespace Program

variable {Cmd : Type} {Resp : Cmd → Type} {α β σ : Type}

/-! ### Commands a program may issue -/

/-- While every answer satisfies `ans`, the program issues only commands in `ok`, and
what it returns satisfies `post`. -/
def Ensures (ans : ∀ c, Resp c → Prop) (ok : Cmd → Prop) (post : α → Prop) :
    Program Cmd Resp α → Prop
  | pure a => post a
  | call c k => ok c ∧ ∀ r, ans c r → Ensures ans ok post (k r)

/-- The program issues only commands in `ok`. -/
abbrev Respects (ans : ∀ c, Resp c → Prop) (ok : Cmd → Prop) (p : Program Cmd Resp α) :
    Prop :=
  Ensures ans ok (fun _ => True) p

variable {ans : ∀ c, Resp c → Prop} {ok : Cmd → Prop} {post : α → Prop}

theorem ensures_perform {c : Cmd} {post : Resp c → Prop} (hc : ok c)
    (hpost : ∀ r, ans c r → post r) : Ensures ans ok post (perform c) :=
  ⟨hc, hpost⟩

namespace Ensures

theorem bind {p : Program Cmd Resp α} {f : α → Program Cmd Resp β} {post' : β → Prop}
    (hp : Ensures ans ok post p) (hf : ∀ a, post a → Ensures ans ok post' (f a)) :
    Ensures ans ok post' (p >>= f) := by
  induction p with
  | pure a => exact hf a hp
  | call c k ih => exact ⟨hp.1, fun r hr => ih r (hp.2 r hr)⟩

/-- The commands and the results may be more than those that are needed. -/
theorem mono {ok' : Cmd → Prop} {post' : α → Prop} {p : Program Cmd Resp α}
    (hp : Ensures ans ok post p) (hok : ∀ c, ok c → ok' c) (hpost : ∀ a, post a → post' a) :
    Ensures ans ok' post' p := by
  induction p with
  | pure a => exact hpost a hp
  | call c k ih => exact ⟨hok c hp.1, fun r hr => ih r (hp.2 r hr)⟩

/-- A loop issues only commands in `ok` when its body does at every element. -/
theorem forM {l : List β} {f : β → Program Cmd Resp PUnit}
    (hf : ∀ b ∈ l, Respects ans ok (f b)) : Respects ans ok (l.forM f) := by
  induction l with
  | nil => exact trivial
  | cons b l ih =>
      have htail := ih fun b' hb' => hf b' (List.mem_cons_of_mem b hb')
      exact (hf b List.mem_cons_self).bind fun _ _ => htail

end Ensures

/-- In a run whose answers stay within `ans`, a program issues only the commands it
ensures. -/
theorem forall_mem_trace {h : Handler Resp σ} {p : Program Cmd Resp α}
    (hp : Ensures ans ok post p) (hans : ∀ s c, ans c (h s c).1) (s : σ) :
    ∀ e ∈ (run h p s).trace, ok e.1 := by
  induction p generalizing s with
  | pure a =>
      intro e he
      cases he
  | call c k ih =>
      intro e he
      rcases List.mem_cons.mp he with rfl | htail
      · exact hp.1
      · exact ih _ (hp.2 _ (hans s c)) _ e htail

/-- A loop issues what its body issues at each element, from whichever state. -/
theorem exists_mem_trace_forM {h : Handler Resp σ} {l : List β}
    {f : β → Program Cmd Resp PUnit} {b : β} (hb : b ∈ l) {P : Event Resp → Prop}
    (hf : ∀ s, ∃ e ∈ (run h (f b) s).trace, P e) (s : σ) :
    ∃ e ∈ (run h (l.forM f) s).trace, P e := by
  induction l generalizing s with
  | nil => cases hb
  | cons b' l ih =>
      have htrace : (run h ((b' :: l).forM f) s).trace =
          (run h (f b') s).trace ++ (run h (l.forM f) (run h (f b') s).state).trace :=
        trace_bind ..
      rw [htrace]
      rcases List.mem_cons.mp hb with rfl | htail
      · obtain ⟨e, he, hP⟩ := hf s
        exact ⟨e, List.mem_append_left _ he, hP⟩
      · obtain ⟨e, he, hP⟩ := ih htail (run h (f b') s).state
        exact ⟨e, List.mem_append_right _ he, hP⟩

/-! ### Triples -/

/-- A condition on the history and the state. -/
abbrev Condition (Resp : Cmd → Type) (σ : Type) := List (Event Resp) → σ → Prop

/-- From a history and a state that satisfy `P`, a run of `p` ends in ones that satisfy
`Q` of its result. -/
def Triple (h : Handler Resp σ) (P : Condition Resp σ) (p : Program Cmd Resp α)
    (Q : α → Condition Resp σ) : Prop :=
  ∀ history s, P history s →
    Q (run h p s).result (history ++ (run h p s).trace) (run h p s).state

variable {h : Handler Resp σ} {P : Condition Resp σ}

namespace Triple

theorem pure {Q : α → Condition Resp σ} {a : α} (hQ : ∀ history s, P history s →
    Q a history s) : Triple h P (Pure.pure a) Q := by
  intro history s hs
  rw [run_pure, List.append_nil]
  exact hQ history s hs

/-- One command, answered by the handler. -/
theorem perform {c : Cmd} {Q : Resp c → Condition Resp σ}
    (hQ : ∀ history s, P history s → Q (h s c).1 (history ++ [⟨c, (h s c).1⟩]) (h s c).2) :
    Triple h P (Program.perform c) Q :=
  hQ

theorem bind {p : Program Cmd Resp α} {f : α → Program Cmd Resp β}
    {R : α → Condition Resp σ} {Q : β → Condition Resp σ} (hp : Triple h P p R)
    (hf : ∀ a, Triple h (R a) (f a) Q) : Triple h P (p >>= f) Q := by
  intro history s hs
  rw [run_bind, ← List.append_assoc]
  exact hf _ _ _ (hp history s hs)

theorem and {p : Program Cmd Resp α} {P' : Condition Resp σ} {Q Q' : α → Condition Resp σ}
    (hp : Triple h P p Q) (hp' : Triple h P' p Q') :
    Triple h (fun history s => P history s ∧ P' history s) p
      fun a history s => Q a history s ∧ Q' a history s :=
  fun history s hs => ⟨hp history s hs.1, hp' history s hs.2⟩

theorem weaken {p : Program Cmd Resp α} {P' : Condition Resp σ} {Q : α → Condition Resp σ}
    (hp : Triple h P p Q) (hP : ∀ history s, P' history s → P history s) : Triple h P' p Q :=
  fun history s hs => hp history s (hP history s hs)

/-- A loop preserves what its body preserves. -/
theorem forM {l : List β} {f : β → Program Cmd Resp PUnit}
    (hf : ∀ b ∈ l, Triple h P (f b) fun _ => P) : Triple h P (l.forM f) fun _ => P := by
  induction l with
  | nil => exact .pure fun _ _ hs => hs
  | cons b l ih =>
      have htail := ih fun b' hb' => hf b' (List.mem_cons_of_mem b hb')
      exact (hf b List.mem_cons_self).bind fun _ => htail

end Triple

/-- A condition that every command in `ok` preserves is preserved by a program that
issues no other. -/
theorem triple_of_ensures {p : Program Cmd Resp α} (hp : Ensures ans ok post p)
    (hans : ∀ s c, ans c (h s c).1)
    (hkeep : ∀ history s c, ok c → P history s →
      P (history ++ [⟨c, (h s c).1⟩]) (h s c).2) :
    Triple h P p fun _ => P := by
  intro history s hs
  induction p generalizing history s with
  | pure a =>
      have hnothing : (run h (Program.pure a) s).trace = [] := rfl
      rw [hnothing, List.append_nil]
      exact hs
  | call c k ih =>
      have hnext := ih _ (hp.2 _ (hans s c)) _ _ (hkeep history s c hp.1 hs)
      rw [List.append_assoc] at hnext
      exact hnext

end Program

end Systems
