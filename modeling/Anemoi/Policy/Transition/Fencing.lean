import Anemoi.Policy.Transition.Coordinator
import Anemoi.Systems.Machine
import Mathlib.Data.UInt

/-!
# Fencing

Every transition that is installed gets the next fencing token, and only the
holder of the current token may complete it. The coordinator is run as a machine
whose inputs are the four calls, by any instances and at any times.

`Fenced c` is the invariant: entries sit under their own runtime id, and active
tokens are pairwise distinct and below the next one. A token is `Spent` when it
was issued and no active entry carries it. No step revives a spent token, and
`complete` rejects it, which is what fences off a stale owner.
-/

namespace Anemoi

open Systems

namespace TransitionCoordinator

/-- A call on the coordinator. -/
inductive Call where
  | requestTransition (req : TransitionRequest) (nowMs : UInt64)
  | acquireServingLease (runtimeId : RuntimeId)
  | releaseServingLease (runtimeId : RuntimeId)
  | complete (runtimeId : RuntimeId) (fencingToken : UInt64)

/-- What a call returns. -/
inductive Answer where
  | decided (decision : TransitionDecision)
  | leased (acquired : Bool)
  | released
  | completed (accepted : Bool)
  deriving DecidableEq

/-- One call, as a machine step. -/
def step (c : TransitionCoordinator) : Call → Answer × TransitionCoordinator
  | .requestTransition req nowMs =>
      let (decision, c') := c.requestTransition req nowMs
      (.decided decision, c')
  | .acquireServingLease runtimeId =>
      let (acquired, c') := c.acquireServingLease runtimeId
      (.leased acquired, c')
  | .releaseServingLease runtimeId => (.released, c.releaseServingLease runtimeId)
  | .complete runtimeId fencingToken =>
      let (accepted, c') := c.complete runtimeId fencingToken
      (.completed accepted, c')

/-- A step of a run of the coordinator. -/
abbrev Step := Record TransitionCoordinator Call Answer

/-- The steps of a run from a new coordinator. -/
def history (leaseTtlMs : UInt64) (calls : List Call) : List Step :=
  Machine.logFrom step (new leaseTtlMs) calls

/-- The coordinator a run from a new one ends in. -/
def reached (leaseTtlMs : UInt64) (calls : List Call) : TransitionCoordinator :=
  Machine.runFrom step (new leaseTtlMs) calls

/-- Another token can be issued without exhausting the counter. -/
def TokensRemain (c : TransitionCoordinator) : Prop :=
  c.nextFencingToken.toNat + 1 < UInt64.size

instance (c : TransitionCoordinator) : Decidable c.TokensRemain :=
  inferInstanceAs (Decidable (_ < _))

/-- The token a step newly issues. -/
def issuedBy (r : Step) : Option UInt64 :=
  match r.output with
  | .decided decision => decision.path.issued
  | _ => none

/-- The token a step completes. -/
def acceptedBy (r : Step) : Option UInt64 :=
  match r.input, r.output with
  | .complete _ token, .completed true => some token
  | _, _ => none

/-- The token a step takes over: the one active before the request. -/
def overtakenBy (r : Step) : Option UInt64 :=
  match r.input, r.output with
  | .requestTransition req _, .decided ⟨.tookOver _ _, _, _⟩ =>
      (r.before.activeTransition req.runtimeId).map ActiveTransition.fencingToken
  | _, _ => none

/-! ### The invariant -/

/-- Entries sit under their own runtime id; active tokens are pairwise distinct
and below the next one. -/
structure Fenced (c : TransitionCoordinator) : Prop where
  own_runtime : ∀ k a, c.active.lookup k = some a → a.runtimeId.text = k
  token_lt : ∀ k a, c.active.lookup k = some a → a.fencingToken < c.nextFencingToken
  distinct : ∀ k k' a a', c.active.lookup k = some a → c.active.lookup k' = some a' →
    a.fencingToken = a'.fencingToken → k = k'

/-- A token that was issued and is no longer active. -/
structure Spent (token : UInt64) (c : TransitionCoordinator) : Prop where
  token_lt : token < c.nextFencingToken
  not_active : ∀ k a, c.active.lookup k = some a → a.fencingToken ≠ token

theorem fenced_new (leaseTtlMs : UInt64) : (new leaseTtlMs).Fenced :=
  ⟨fun _ _ h => (Option.some_ne_none _ h.symm).elim,
    fun _ _ h => (Option.some_ne_none _ h.symm).elim,
    fun _ _ _ _ h => (Option.some_ne_none _ h.symm).elim⟩

theorem next_lt_of_tokensRemain {c : TransitionCoordinator} (h : c.TokensRemain) :
    c.nextFencingToken < c.nextFencingToken + 1 := by
  have hlt : c.nextFencingToken.toNat + 1 < 2 ^ 64 := h
  rw [UInt64.lt_iff_toNat_lt, UInt64.toNat_add, UInt64.toNat_one, Nat.mod_eq_of_lt hlt]
  exact Nat.lt_succ_self _

/-- A change of one entry that keeps its runtime id and its token. -/
structure Retouches (c c' : TransitionCoordinator) : Prop where
  next_eq : c'.nextFencingToken = c.nextFencingToken
  lookup_old : ∀ k a', c'.active.lookup k = some a' → ∃ a, c.active.lookup k = some a ∧
    a'.runtimeId = a.runtimeId ∧ a'.fencingToken = a.fencingToken

theorem Retouches.refl (c : TransitionCoordinator) : c.Retouches c :=
  ⟨rfl, fun _ a h => ⟨a, h, rfl, rfl⟩⟩

theorem Retouches.fenced {c c' : TransitionCoordinator} (h : c.Retouches c')
    (hc : c.Fenced) : c'.Fenced := by
  constructor
  · intro k a' ha'
    obtain ⟨a, ha, hid, -⟩ := h.lookup_old k a' ha'
    rw [hid]
    exact hc.own_runtime k a ha
  · intro k a' ha'
    obtain ⟨a, ha, -, htoken⟩ := h.lookup_old k a' ha'
    rw [htoken, h.next_eq]
    exact hc.token_lt k a ha
  · intro k₁ k₂ a₁' a₂' h₁ h₂ heq
    obtain ⟨a₁, ha₁, -, htoken₁⟩ := h.lookup_old k₁ a₁' h₁
    obtain ⟨a₂, ha₂, -, htoken₂⟩ := h.lookup_old k₂ a₂' h₂
    exact hc.distinct k₁ k₂ a₁ a₂ ha₁ ha₂ (by rw [← htoken₁, ← htoken₂, heq])

theorem Retouches.spent {c c' : TransitionCoordinator} (h : c.Retouches c')
    {token : UInt64} (hc : Spent token c) : Spent token c' := by
  constructor
  · rw [h.next_eq]
    exact hc.token_lt
  · intro k a' ha'
    obtain ⟨a, ha, -, htoken⟩ := h.lookup_old k a' ha'
    rw [htoken]
    exact hc.not_active k a ha

/-! ### What each call does to the table -/

/-- Storing a change of an entry that keeps its runtime id and its token. -/
theorem retouches_insert {c : TransitionCoordinator} {k : String} {a a' : ActiveTransition}
    (ha : c.active.lookup k = some a) (hid : a'.runtimeId = a.runtimeId)
    (htoken : a'.fencingToken = a.fencingToken) :
    c.Retouches { c with active := c.active.insert k a' } := by
  refine ⟨rfl, fun k' b hb => ?_⟩
  rw [AList.lookup_insert_eq_ite] at hb
  by_cases hk : k' = k
  · rw [if_pos hk, Option.some.injEq] at hb
    rw [hk, ← hb]
    exact ⟨a, ha, hid, htoken⟩
  · rw [if_neg hk] at hb
    exact ⟨b, hb, rfl, rfl⟩

theorem retouches_acquireServingLease (c : TransitionCoordinator) (runtimeId : RuntimeId) :
    c.Retouches (c.acquireServingLease runtimeId).2 := by
  unfold acquireServingLease
  cases h : c.active.lookup runtimeId.text with
  | none => exact Retouches.refl c
  | some a => exact retouches_insert h rfl rfl

theorem retouches_releaseServingLease (c : TransitionCoordinator) (runtimeId : RuntimeId) :
    c.Retouches (c.releaseServingLease runtimeId) := by
  unfold releaseServingLease
  cases h : c.active.lookup runtimeId.text with
  | none => exact Retouches.refl c
  | some a => exact retouches_insert h rfl rfl

/-- `complete` accepts exactly the current token of the runtime and then removes
exactly its entry; otherwise it changes nothing. -/
theorem complete_cases (c : TransitionCoordinator) (runtimeId : RuntimeId)
    (token : UInt64) :
    (∃ a, c.activeTransition runtimeId = some a ∧ a.fencingToken = token ∧
      c.complete runtimeId token =
        (true, { c with active := c.active.erase runtimeId.text })) ∨
    ((∀ a, c.activeTransition runtimeId = some a → a.fencingToken ≠ token) ∧
      c.complete runtimeId token = (false, c)) := by
  unfold complete activeTransition
  cases h : c.active.lookup runtimeId.text with
  | none => exact Or.inr ⟨fun a ha => (Option.some_ne_none a ha.symm).elim, rfl⟩
  | some a =>
      by_cases htoken : a.fencingToken = token
      · exact Or.inl ⟨a, rfl, htoken, by simp [htoken]⟩
      · refine Or.inr ⟨fun a' ha' => ?_, by simp [htoken]⟩
        rw [← Option.some.inj ha']
        exact htoken

theorem retouches_complete (c : TransitionCoordinator) (runtimeId : RuntimeId)
    (token : UInt64) : c.Retouches (c.complete runtimeId token).2 := by
  obtain ⟨a, -, -, heq⟩ | ⟨-, heq⟩ := complete_cases c runtimeId token
  · rw [heq]
    refine ⟨rfl, fun k a' ha' => ?_⟩
    rw [AList.lookup_erase_eq_ite] at ha'
    by_cases hk : k = runtimeId.text
    · rw [if_pos hk] at ha'
      cases ha'
    · rw [if_neg hk] at ha'
      exact ⟨a', ha', rfl, rfl⟩
  · rw [heq]
    exact Retouches.refl c

theorem lookup_install (c : TransitionCoordinator) (req : TransitionRequest)
    (nowMs : UInt64) (k : String) :
    (c.install req nowMs).2.active.lookup k =
      if k = req.runtimeId.text then some (c.installed req nowMs)
      else c.active.lookup k := by
  rw [install_eq, AList.lookup_insert_eq_ite]

theorem Fenced.install {c : TransitionCoordinator} (hc : c.Fenced) (h : c.TokensRemain)
    (req : TransitionRequest) (nowMs : UInt64) : (c.install req nowMs).2.Fenced := by
  have hnext := next_lt_of_tokensRemain h
  constructor
  · intro k a ha
    rw [lookup_install] at ha
    by_cases hk : k = req.runtimeId.text
    · rw [if_pos hk, Option.some.injEq] at ha
      rw [← ha, hk]
      rfl
    · rw [if_neg hk] at ha
      exact hc.own_runtime k a ha
  · intro k a ha
    rw [lookup_install] at ha
    by_cases hk : k = req.runtimeId.text
    · rw [if_pos hk, Option.some.injEq] at ha
      rw [← ha]
      exact hnext
    · rw [if_neg hk] at ha
      exact UInt64.lt_trans (hc.token_lt k a ha) hnext
  · intro k₁ k₂ a₁ a₂ h₁ h₂ heq
    rw [lookup_install] at h₁ h₂
    by_cases hk₁ : k₁ = req.runtimeId.text <;> by_cases hk₂ : k₂ = req.runtimeId.text
    · rw [hk₁, hk₂]
    · -- the other entry still has an older token than the one just issued
      rw [if_pos hk₁, Option.some.injEq] at h₁
      rw [if_neg hk₂] at h₂
      have hlt := hc.token_lt k₂ a₂ h₂
      rw [← heq, ← h₁] at hlt
      exact absurd hlt (UInt64.lt_irrefl _)
    · rw [if_neg hk₁] at h₁
      rw [if_pos hk₂, Option.some.injEq] at h₂
      have hlt := hc.token_lt k₁ a₁ h₁
      rw [heq, ← h₂] at hlt
      exact absurd hlt (UInt64.lt_irrefl _)
    · rw [if_neg hk₁] at h₁
      rw [if_neg hk₂] at h₂
      exact hc.distinct k₁ k₂ a₁ a₂ h₁ h₂ heq

/-- Installing revives no spent token, and it spends the token of the entry it
replaces. -/
theorem spent_install {c : TransitionCoordinator} (h : c.TokensRemain)
    (req : TransitionRequest) (nowMs : UInt64) {token : UInt64}
    (hlt : token < c.nextFencingToken)
    (hother : ∀ k a, k ≠ req.runtimeId.text → c.active.lookup k = some a →
      a.fencingToken ≠ token) :
    Spent token (c.install req nowMs).2 := by
  refine ⟨UInt64.lt_trans hlt (next_lt_of_tokensRemain h), fun k a ha => ?_⟩
  rw [lookup_install] at ha
  by_cases hk : k = req.runtimeId.text
  · rw [if_pos hk, Option.some.injEq] at ha
    rw [← ha]
    exact (UInt64.ne_of_lt hlt).symm
  · rw [if_neg hk] at ha
    exact hother k a hk ha

/-! ### What each step preserves -/

/-- A step either installs the next token for a request or leaves every token
where it was. -/
theorem step_cases (c : TransitionCoordinator) (call : Call) :
    (∃ req nowMs, call = .requestTransition req nowMs ∧
      (step c call).2 = (c.install req nowMs).2 ∧
      issuedBy (Machine.record step c call) = some c.nextFencingToken) ∨
    (c.Retouches (step c call).2 ∧ issuedBy (Machine.record step c call) = none) := by
  cases call with
  | requestTransition req nowMs =>
      have hissued : issuedBy (Machine.record step c (.requestTransition req nowMs)) =
          (c.requestTransition req nowMs).1.path.issued := rfl
      have hafter : (step c (.requestTransition req nowMs)).2 =
          (c.requestTransition req nowMs).2 := rfl
      rw [hissued, hafter]
      have harb := arbitration_requestTransition c req nowMs
      generalize (c.requestTransition req nowMs).1.path = path at harb ⊢
      generalize (c.requestTransition req nowMs).2 = c' at harb ⊢
      cases harb with
      | fresh =>
          refine Or.inl ⟨req, nowMs, rfl, rfl, ?_⟩
          cases req.background <;> rfl
      | expired => exact Or.inl ⟨req, nowMs, rfl, rfl, rfl⟩
      | wins => exact Or.inl ⟨req, nowMs, rfl, rfl, rfl⟩
      | unavailable | joins | hot | blocked | loses =>
          exact Or.inr ⟨Retouches.refl c, rfl⟩
  | acquireServingLease runtimeId =>
      exact Or.inr ⟨retouches_acquireServingLease c runtimeId, rfl⟩
  | releaseServingLease runtimeId =>
      exact Or.inr ⟨retouches_releaseServingLease c runtimeId, rfl⟩
  | complete runtimeId token =>
      exact Or.inr ⟨retouches_complete c runtimeId token, rfl⟩

theorem fenced_step {c : TransitionCoordinator} (hc : c.Fenced) (h : c.TokensRemain)
    (call : Call) : (step c call).2.Fenced := by
  obtain ⟨req, nowMs, -, heq, -⟩ | ⟨hsame, -⟩ := step_cases c call
  · rw [heq]
    exact hc.install h req nowMs
  · exact hsame.fenced hc

theorem spent_step {c : TransitionCoordinator} (h : c.TokensRemain) {token : UInt64}
    (hspent : Spent token c) (call : Call) : Spent token (step c call).2 := by
  obtain ⟨req, nowMs, -, heq, -⟩ | ⟨hsame, -⟩ := step_cases c call
  · rw [heq]
    exact spent_install h req nowMs hspent.token_lt fun k a _ ha => hspent.not_active k a ha
  · exact hsame.spent hspent

/-- A request that takes a transition over spends the token of that transition. -/
theorem spent_of_overtaken {c : TransitionCoordinator} (hc : c.Fenced) (h : c.TokensRemain)
    {req : TransitionRequest} {nowMs : UInt64} {token : UInt64}
    (hover : overtakenBy (Machine.record step c (.requestTransition req nowMs)) = some token) :
    Spent token (c.requestTransition req nowMs).2 := by
  have hpath : ∃ token' previous, (c.requestTransition req nowMs).1.path =
        .tookOver token' previous ∧
      (c.activeTransition req.runtimeId).map ActiveTransition.fencingToken = some token := by
    simp only [overtakenBy, Machine.record, step] at hover
    split at hover
    · next h₁ h₂ =>
        cases h₁
        have hdecision := Answer.decided.inj h₂
        exact ⟨_, _, by rw [hdecision], hover⟩
    · cases hover
  obtain ⟨token', previous, hpath, hactive⟩ := hpath
  obtain ⟨a, ha, rfl⟩ := Option.map_eq_some_iff.mp hactive
  have hlt := hc.token_lt _ a ha
  -- any other entry with this token would sit under the same key
  have hother : ∀ k a', k ≠ req.runtimeId.text → c.active.lookup k = some a' →
      a'.fencingToken ≠ a.fencingToken := fun k a' hk ha' heq =>
    hk (hc.distinct k _ a' a ha' ha heq)
  have harb := arbitration_requestTransition c req nowMs
  rw [hpath] at harb
  generalize (c.requestTransition req nowMs).2 = c' at harb ⊢
  generalize hp : TransitionPath.tookOver token' previous = path at harb
  cases harb with
  | fresh => split at hp <;> cases hp
  | expired => exact spent_install h req nowMs hlt hother
  | wins => exact spent_install h req nowMs hlt hother
  | unavailable | joins | hot | blocked | loses => cases hp

/-- An accepted completion spends its token. -/
theorem spent_of_accepted {c : TransitionCoordinator} (hc : c.Fenced) {runtimeId : RuntimeId}
    {t token : UInt64}
    (haccepted : acceptedBy (Machine.record step c (.complete runtimeId t)) = some token) :
    Spent token (c.complete runtimeId t).2 := by
  obtain ⟨a, ha, htoken, heq⟩ | ⟨-, heq⟩ := complete_cases c runtimeId t
  · simp only [acceptedBy, Machine.record, step, heq, Option.some.injEq] at haccepted
    subst haccepted
    rw [heq]
    refine ⟨htoken ▸ hc.token_lt _ a ha, fun k a' ha' htoken' => ?_⟩
    rw [AList.lookup_erase_eq_ite] at ha'
    by_cases hk : k = runtimeId.text
    · rw [if_pos hk] at ha'
      cases ha'
    · rw [if_neg hk] at ha'
      exact hk (hc.distinct k _ a' a ha' ha (htoken'.trans htoken.symm))
  · simp [acceptedBy, Machine.record, step, heq] at haccepted

/-- A token that a step completes or takes over is spent after it. -/
theorem spent_of_ended {c : TransitionCoordinator} (hc : c.Fenced) (h : c.TokensRemain)
    (call : Call) {token : UInt64}
    (hended : acceptedBy (Machine.record step c call) = some token ∨
      overtakenBy (Machine.record step c call) = some token) :
    Spent token (step c call).2 := by
  cases call with
  | requestTransition req nowMs =>
      rcases hended with haccepted | hover
      · cases haccepted
      · exact spent_of_overtaken hc h hover
  | complete runtimeId t =>
      rcases hended with haccepted | hover
      · exact spent_of_accepted hc haccepted
      · cases hover
  | acquireServingLease | releaseServingLease => rcases hended with h | h <;> cases h

/-- A spent token is rejected on every runtime, without effect. -/
theorem complete_of_spent {c : TransitionCoordinator} {token : UInt64}
    (h : Spent token c) (runtimeId : RuntimeId) :
    c.complete runtimeId token = (false, c) := by
  obtain ⟨a, ha, htoken, -⟩ | ⟨-, heq⟩ := complete_cases c runtimeId token
  · exact absurd htoken (h.not_active _ a ha)
  · exact heq

/-! ### Whole runs -/

/-- What fencing promises in the state a run reaches, and of the run itself. As
every initial part of a run is a run, it holds all along the way. -/
structure FencingSafe (leaseTtlMs : UInt64) (calls : List Call) : Prop where
  /-- Every active entry is stored under its own runtime id. -/
  own_runtime : ∀ k a, (reached leaseTtlMs calls).active.lookup k = some a →
    a.runtimeId.text = k
  /-- The tokens of the active entries are pairwise distinct. -/
  distinct : ∀ k k' a a', (reached leaseTtlMs calls).active.lookup k = some a →
    (reached leaseTtlMs calls).active.lookup k' = some a' →
    a.fencingToken = a'.fencingToken → k = k'
  /-- They are smaller than the next token. -/
  token_lt : ∀ k a, (reached leaseTtlMs calls).active.lookup k = some a →
    a.fencingToken < (reached leaseTtlMs calls).nextFencingToken
  /-- A newly issued token exceeds all those issued before it. -/
  issued_increasing :
    ((history leaseTtlMs calls).filterMap issuedBy).Pairwise (· < ·)
  /-- `complete` accepts exactly the current token of the runtime. -/
  complete_iff : ∀ runtimeId token,
    ((reached leaseTtlMs calls).complete runtimeId token).1 = true ↔
      ∃ a, (reached leaseTtlMs calls).activeTransition runtimeId = some a ∧
        a.fencingToken = token
  /-- An accepted completion removes exactly the entry of the runtime. -/
  complete_removes : ∀ runtimeId token,
    ((reached leaseTtlMs calls).complete runtimeId token).1 = true →
      ((reached leaseTtlMs calls).complete runtimeId token).2 =
        { reached leaseTtlMs calls with
          active := (reached leaseTtlMs calls).active.erase runtimeId.text }
  /-- No token is accepted twice. -/
  accepted_once : ((history leaseTtlMs calls).filterMap acceptedBy).Nodup
  /-- A token completed or taken over in the run is rejected on every runtime, and
  the attempt changes nothing. -/
  ended_rejected : ∀ r ∈ history leaseTtlMs calls, ∀ token,
    (acceptedBy r = some token ∨ overtakenBy r = some token) → ∀ runtimeId,
      (reached leaseTtlMs calls).complete runtimeId token =
        (false, reached leaseTtlMs calls)

theorem complete_fst_iff (c : TransitionCoordinator) (runtimeId : RuntimeId)
    (token : UInt64) :
    (c.complete runtimeId token).1 = true ↔
      ∃ a, c.activeTransition runtimeId = some a ∧ a.fencingToken = token := by
  obtain ⟨a, ha, htoken, heq⟩ | ⟨hnone, heq⟩ := complete_cases c runtimeId token
  · rw [heq]
    exact ⟨fun _ => ⟨a, ha, htoken⟩, fun _ => rfl⟩
  · rw [heq]
    constructor
    · intro h
      cases h
    · rintro ⟨a, ha, htoken⟩
      exact absurd htoken (hnone a ha)

theorem complete_snd_of_accepted (c : TransitionCoordinator) (runtimeId : RuntimeId)
    (token : UInt64) (h : (c.complete runtimeId token).1 = true) :
    (c.complete runtimeId token).2 =
      { c with active := c.active.erase runtimeId.text } := by
  obtain ⟨a, -, -, heq⟩ | ⟨-, heq⟩ := complete_cases c runtimeId token
  · rw [heq]
  · rw [heq] at h
    cases h

/-- A step accepts a token only when it is active, so never a spent one. -/
theorem acceptedBy_ne_of_spent {c : TransitionCoordinator} {token : UInt64}
    (h : Spent token c) (call : Call) :
    acceptedBy (Machine.record step c call) ≠ some token := by
  intro haccepted
  cases call with
  | complete runtimeId t =>
      by_cases ht : t = token
      · subst ht
        simp [acceptedBy, Machine.record, step, complete_of_spent h] at haccepted
      · simp only [acceptedBy, Machine.record, step] at haccepted
        split at haccepted
        · next h₁ _ =>
            cases h₁
            exact ht (Option.some.inj haccepted)
        · cases haccepted
  | requestTransition | acquireServingLease | releaseServingLease => cases haccepted

section Run

variable {leaseTtlMs : UInt64} {calls : List Call}

theorem fenced_reached
    (h : ∀ r ∈ history leaseTtlMs calls, r.before.TokensRemain) :
    (reached leaseTtlMs calls).Fenced :=
  Machine.invariant_runFrom step (I := Fenced) (G := fun r => r.before.TokensRemain)
    (fun _ call hc hG => fenced_step hc hG call) h (fenced_new leaseTtlMs)

theorem issued_increasing
    (h : ∀ r ∈ history leaseTtlMs calls, r.before.TokensRemain) :
    ((history leaseTtlMs calls).filterMap issuedBy).Pairwise (· < ·) := by
  rw [List.pairwise_filterMap]
  refine Machine.pairwise_logFrom step (I := Fenced)
    (Q := fun r c => ∀ token, issuedBy r = some token → token < c.nextFencingToken)
    (fun _ call hc hG => fenced_step hc hG call) ?_ ?_ ?_ h (fenced_new leaseTtlMs)
  · intro c call _ hG token hissued
    obtain ⟨req, nowMs, -, heq, hnext⟩ | ⟨-, hnone⟩ := step_cases c call
    · rw [hnext, Option.some.injEq] at hissued
      rw [heq, ← hissued]
      exact next_lt_of_tokensRemain hG
    · rw [hnone] at hissued
      cases hissued
  · intro r c call _ hG hlt token hissued
    obtain ⟨req, nowMs, -, heq, -⟩ | ⟨hsame, -⟩ := step_cases c call
    · rw [heq]
      exact UInt64.lt_trans (hlt token hissued) (next_lt_of_tokensRemain hG)
    · rw [hsame.next_eq]
      exact hlt token hissued
  · intro r c call _ _ hlt token hissued token' hissued'
    obtain ⟨req, nowMs, -, -, hnext⟩ | ⟨-, hnone⟩ := step_cases c call
    · rw [hnext, Option.some.injEq] at hissued'
      rw [← hissued']
      exact hlt token hissued
    · rw [hnone] at hissued'
      cases hissued'

theorem accepted_once
    (h : ∀ r ∈ history leaseTtlMs calls, r.before.TokensRemain) :
    ((history leaseTtlMs calls).filterMap acceptedBy).Nodup := by
  rw [List.Nodup, List.pairwise_filterMap]
  refine Machine.pairwise_logFrom step (I := Fenced)
    (Q := fun r c => ∀ token, acceptedBy r = some token → Spent token c)
    (fun _ call hc hG => fenced_step hc hG call) ?_ ?_ ?_ h (fenced_new leaseTtlMs)
  · intro c call hc hG token haccepted
    exact spent_of_ended hc hG call (Or.inl haccepted)
  · intro r c call _ hG hspent token haccepted
    exact spent_step hG (hspent token haccepted) call
  · rintro r c call - - hspent token haccepted token' haccepted' rfl
    exact acceptedBy_ne_of_spent (hspent token haccepted) call haccepted'

theorem spent_reached
    (h : ∀ r ∈ history leaseTtlMs calls, r.before.TokensRemain) :
    ∀ r ∈ history leaseTtlMs calls, ∀ token,
      (acceptedBy r = some token ∨ overtakenBy r = some token) →
        Spent token (reached leaseTtlMs calls) := by
  refine Machine.kept_runFrom step (I := Fenced)
    (Q := fun r c => ∀ token, (acceptedBy r = some token ∨ overtakenBy r = some token) →
      Spent token c)
    (fun _ call hc hG => fenced_step hc hG call) ?_ ?_ h (fenced_new leaseTtlMs)
  · intro c call hc hG token hended
    exact spent_of_ended hc hG call hended
  · intro r c call _ hG hspent token hended
    exact spent_step hG (hspent token hended) call

/-- Fencing is safe along every run that does not exhaust the token counter. -/
theorem fencingSafe_of_tokensRemain
    (h : ∀ r ∈ history leaseTtlMs calls, r.before.TokensRemain) :
    FencingSafe leaseTtlMs calls where
  own_runtime := (fenced_reached h).own_runtime
  distinct := (fenced_reached h).distinct
  token_lt := (fenced_reached h).token_lt
  issued_increasing := issued_increasing h
  complete_iff := complete_fst_iff _
  complete_removes := complete_snd_of_accepted _
  accepted_once := accepted_once h
  ended_rejected := fun r hr token hended runtimeId =>
    complete_of_spent (spent_reached h r hr token hended) runtimeId

end Run

/-- A request of an instance for a model on the runtime `rt`. -/
def sampleRequest (ownerInstance desiredModel : String) : TransitionRequest where
  runtimeId := ⟨"rt"⟩
  residencyGroupId := ⟨"grp"⟩
  desiredModel := ⟨desiredModel⟩
  ownerInstance := ownerInstance
  priority := 5
  latencyBudgetMs := some 1500
  interactive := true
  background := false
  runtimeAvailable := true
  hotCompatibleModel := none

/-- The stale-owner run: an expired owner is taken over and then tries to
complete, and so does the new owner. -/
def staleOwnerRun : List Call :=
  [.requestTransition (sampleRequest "inst-a" "qwen9b") 0,
   .requestTransition (sampleRequest "inst-b" "qwen9b") 2000,
   .complete ⟨"rt"⟩ 1,
   .complete ⟨"rt"⟩ 2]

theorem fencingSafe_staleOwnerRun : FencingSafe 1000 staleOwnerRun :=
  fencingSafe_of_tokensRemain (by decide)

end TransitionCoordinator

end Anemoi
