import Anemoi.Policy.Transition.Leases

/-!
# Isolation of runtimes

The runtimes of a coordinator share its table and its token counter, and nothing of one
runtime shows in another. `callsOf` is a run without the calls to other runtimes, where a
completion presents the token of the same install: the tokens of a runtime's own installs
are numbered in the order they were issued, and any other token is one that is never
issued. `Projects` relates the coordinators of the two runs.

The counter wraps. Once the other runtimes have used up all tokens, the stale owner of an
earlier transition holds the token of a later one, which it does not in the run without them.
-/

namespace Anemoi

open Systems

/-! ### Renumbering -/

def ActiveTransition.renumbered (σ : UInt64 → UInt64) (a : ActiveTransition) :
    ActiveTransition :=
  { a with fencingToken := σ a.fencingToken }

def TransitionPath.renumbered (σ : UInt64 → UInt64) : TransitionPath → TransitionPath
  | joined token => .joined (σ token)
  | started token => .started (σ token)
  | staged token => .staged (σ token)
  | tookOver token previousOwner => .tookOver (σ token) previousOwner
  | servedHot model => .servedHot model
  | rejected winnerInstance => .rejected winnerInstance
  | runtimeUnavailable => .runtimeUnavailable

/-- The decisions take the same path for the same reasons, up to the renumbering; the
tokens are also part of the explaining texts. -/
structure TransitionDecision.Same (σ : UInt64 → UInt64) (d d' : TransitionDecision) : Prop where
  path : d'.path = d.path.renumbered σ
  codes : d'.reasons.map DecisionReason.code = d.reasons.map DecisionReason.code
  rejected : d'.rejected = d.rejected

namespace TransitionCoordinator

namespace Call

/-- The runtime that a call is addressed to. -/
def runtimeId : Call → RuntimeId
  | requestTransition req _ => req.runtimeId
  | acquireServingLease runtimeId => runtimeId
  | releaseServingLease runtimeId => runtimeId
  | complete runtimeId _ => runtimeId

def renumbered (σ : UInt64 → UInt64) : Call → Call
  | complete runtimeId token => .complete runtimeId (σ token)
  | call => call

end Call

/-- The answers are the same, up to the renumbering. -/
inductive Answer.Same (σ : UInt64 → UInt64) : Answer → Answer → Prop
  | decided {d d' : TransitionDecision} (h : d.Same σ d') : Same σ (.decided d) (.decided d')
  | leased (acquired : Bool) : Same σ (.leased acquired) (.leased acquired)
  | released : Same σ .released .released
  | completed (accepted : Bool) : Same σ (.completed accepted) (.completed accepted)

/-- The steps of a run that are addressed to the runtime. -/
def stepsOf (r : RuntimeId) (log : List Step) : List Step :=
  log.filter fun s => s.input.runtimeId = r

/-- The tokens issued to a runtime, in order. -/
def ownTokens (r : RuntimeId) (log : List Step) : List UInt64 :=
  (stepsOf r log).filterMap issuedBy

/-- The number of a token among those issued to a runtime, starting with 1 as a new
coordinator does; 0 stands for any other token. -/
def renumber (own : List UInt64) (token : UInt64) : UInt64 :=
  if token ∈ own then UInt64.ofNat (own.idxOf token + 1) else 0

/-- The calls to the runtime alone, with the tokens presented renumbered. -/
def callsOf (r : RuntimeId) (σ : UInt64 → UInt64) (calls : List Call) : List Call :=
  (calls.filter fun call => call.runtimeId = r).map (Call.renumbered σ)

section Own

variable {r : RuntimeId} {s : Step} {log : List Step} {call : Call} {calls : List Call}

theorem stepsOf_cons_of_eq (h : s.input.runtimeId = r) :
    stepsOf r (s :: log) = s :: stepsOf r log :=
  List.filter_cons_of_pos (decide_eq_true h)

theorem stepsOf_cons_of_ne (h : s.input.runtimeId ≠ r) : stepsOf r (s :: log) = stepsOf r log :=
  List.filter_cons_of_neg fun heq => h (of_decide_eq_true heq)

theorem ownTokens_cons_of_eq (h : s.input.runtimeId = r) :
    ownTokens r (s :: log) = (issuedBy s).toList ++ ownTokens r log := by
  rw [ownTokens, stepsOf_cons_of_eq h]
  cases hissued : issuedBy s with
  | none => exact List.filterMap_cons_none hissued
  | some token => exact List.filterMap_cons_some hissued

theorem ownTokens_cons_of_ne (h : s.input.runtimeId ≠ r) :
    ownTokens r (s :: log) = ownTokens r log := by
  rw [ownTokens, stepsOf_cons_of_ne h, ownTokens]

theorem callsOf_cons_of_eq (h : call.runtimeId = r) (σ : UInt64 → UInt64) :
    callsOf r σ (call :: calls) = call.renumbered σ :: callsOf r σ calls := by
  rw [callsOf, List.filter_cons_of_pos (by simpa using h), List.map_cons, callsOf]

theorem callsOf_cons_of_ne (h : call.runtimeId ≠ r) (σ : UInt64 → UInt64) :
    callsOf r σ (call :: calls) = callsOf r σ calls := by
  rw [callsOf, List.filter_cons_of_neg (by simpa using h), callsOf]

end Own

/-- The renumbering of a run for one of its runtimes. -/
def renumbering (leaseTtlMs : UInt64) (calls : List Call) (r : RuntimeId) : UInt64 → UInt64 :=
  renumber (ownTokens r (history leaseTtlMs calls))

/-- Without the calls to other runtimes, the runtime's calls get the same answers and leave
it the same active transition, up to the renumbering of tokens. -/
structure Isolated (leaseTtlMs : UInt64) (calls : List Call) (r : RuntimeId) : Prop where
  answers : List.Forall₂
    (fun s s' : Step => s.output.Same (renumbering leaseTtlMs calls r) s'.output)
    (stepsOf r (history leaseTtlMs calls))
    (history leaseTtlMs (callsOf r (renumbering leaseTtlMs calls r) calls))
  active : (reached leaseTtlMs
      (callsOf r (renumbering leaseTtlMs calls r) calls)).activeTransition r =
    ((reached leaseTtlMs calls).activeTransition r).map
      (ActiveTransition.renumbered (renumbering leaseTtlMs calls r))

/-! ### One call -/

/-- What `c'` has of the runtime is what `c` has of it, up to the renumbering. -/
structure Projects (r : RuntimeId) (σ : UInt64 → UInt64) (c c' : TransitionCoordinator) :
    Prop where
  leaseTtlMs_eq : c'.leaseTtlMs = c.leaseTtlMs
  active_eq : c'.activeTransition r = (c.activeTransition r).map (ActiveTransition.renumbered σ)

/-- The two coordinators answer the same, stay related, and the second one has used up a
token if the first one has. -/
structure Mirrors (σ : UInt64 → UInt64) (r : RuntimeId) (c' : TransitionCoordinator)
    (o o' : TransitionDecision × TransitionCoordinator) : Prop where
  same : o.1.Same σ o'.1
  projects : Projects r σ o.2 o'.2
  next_eq : o'.2.nextFencingToken =
    if o.1.path.issued.isSome then c'.nextFencingToken + 1 else c'.nextFencingToken

section Step

variable {r : RuntimeId} {σ : UInt64 → UInt64} {c c' : TransitionCoordinator}

theorem Projects.install (h : Projects r σ c c') {req : TransitionRequest}
    (hreq : req.runtimeId = r) (nowMs : UInt64)
    (htoken : σ c.nextFencingToken = c'.nextFencingToken) :
    Projects r σ (c.install req nowMs).2 (c'.install req nowMs).2 := by
  refine ⟨h.leaseTtlMs_eq, ?_⟩
  rw [activeTransition_install, activeTransition_install, if_pos hreq.symm, if_pos hreq.symm,
    Option.map_some, installed, installed, ← htoken, h.leaseTtlMs_eq]
  rfl

/-- A decision that installs nothing. -/
theorem mirrors_kept (h : Projects r σ c c') {d d' : TransitionDecision} (hsame : d.Same σ d')
    (hissued : d.path.issued = none) : Mirrors σ r c' (d, c) (d', c') :=
  ⟨hsame, h, by rw [hissued]; rfl⟩

theorem mirrors_startFresh (h : Projects r σ c c') {req : TransitionRequest}
    (hreq : req.runtimeId = r) (nowMs : UInt64)
    (htoken : ∀ token, (c.startFresh req nowMs).1.path.issued = some token →
      σ token = c'.nextFencingToken) :
    Mirrors σ r c' (c.startFresh req nowMs) (c'.startFresh req nowMs) := by
  have hnext : σ c.nextFencingToken = c'.nextFencingToken := by
    refine htoken c.nextFencingToken ?_
    unfold startFresh
    cases req.background <;> rfl
  have hprojects := h.install hreq nowMs hnext
  unfold startFresh
  cases req.background with
  | false => exact ⟨⟨congrArg TransitionPath.started hnext.symm, rfl, rfl⟩, hprojects, rfl⟩
  | true => exact ⟨⟨congrArg TransitionPath.staged hnext.symm, rfl, rfl⟩, hprojects, rfl⟩

theorem mirrors_takeOver (h : Projects r σ c c') {req : TransitionRequest}
    (hreq : req.runtimeId = r) (nowMs : UInt64) (a : ActiveTransition) (why : String)
    (htoken : ∀ token, (c.takeOver req nowMs a why).1.path.issued = some token →
      σ token = c'.nextFencingToken) :
    Mirrors σ r c' (c.takeOver req nowMs a why)
      (c'.takeOver req nowMs (a.renumbered σ) why) := by
  have hnext : σ c.nextFencingToken = c'.nextFencingToken := htoken _ rfl
  exact ⟨⟨congrArg (TransitionPath.tookOver · a.ownerInstance) hnext.symm, rfl, rfl⟩,
    h.install hreq nowMs hnext, rfl⟩

theorem mirrors_resolveConflict (h : Projects r σ c c') {req : TransitionRequest}
    (hreq : req.runtimeId = r) (nowMs : UInt64) (a : ActiveTransition)
    (htoken : ∀ token, (c.resolveConflict req nowMs a).1.path.issued = some token →
      σ token = c'.nextFencingToken) :
    Mirrors σ r c' (c.resolveConflict req nowMs a)
      (c'.resolveConflict req nowMs (a.renumbered σ)) := by
  -- priorities and instances settle a conflict, tokens do not
  have hwins : incomingWins req (a.renumbered σ) = incomingWins req a := rfl
  unfold resolveConflict at htoken ⊢
  rw [hwins]
  cases hhot : hotFallback req with
  | some hot => exact mirrors_kept h ⟨rfl, rfl, rfl⟩ rfl
  | none =>
      cases hbackground : req.background with
      | true => exact mirrors_kept h ⟨rfl, rfl, rfl⟩ rfl
      | false =>
          cases hincoming : incomingWins req a with
          | true =>
              simp only [hhot, hbackground, hincoming, Bool.false_eq_true, if_false,
                if_true] at htoken
              exact mirrors_takeOver h hreq nowMs a _ htoken
          | false => exact mirrors_kept h ⟨rfl, rfl, rfl⟩ rfl

/-- A request to the runtime is arbitrated the same. -/
theorem mirrors_requestTransition (h : Projects r σ c c') {req : TransitionRequest}
    (hreq : req.runtimeId = r) (nowMs : UInt64)
    (htoken : ∀ token, (c.requestTransition req nowMs).1.path.issued = some token →
      σ token = c'.nextFencingToken) :
    Mirrors σ r c' (c.requestTransition req nowMs) (c'.requestTransition req nowMs) := by
  have hlookup : c'.active.lookup req.runtimeId.text =
      (c.active.lookup req.runtimeId.text).map (ActiveTransition.renumbered σ) :=
    hreq ▸ h.active_eq
  unfold requestTransition at htoken ⊢
  rw [hlookup]
  cases havailable : req.runtimeAvailable with
  | false => exact mirrors_kept h ⟨rfl, rfl, rfl⟩ rfl
  | true =>
      cases hsome : c.active.lookup req.runtimeId.text with
      | none =>
          simp only [havailable, hsome] at htoken
          exact mirrors_startFresh h hreq nowMs htoken
      | some a =>
          simp only [havailable, hsome, Bool.not_true, Bool.false_eq_true, if_false,
            Option.map_some] at htoken ⊢
          have hexpiry : (a.renumbered σ).leaseExpiresAtMs = a.leaseExpiresAtMs := rfl
          have hmodel : (a.renumbered σ).desiredModel = a.desiredModel := rfl
          rw [hexpiry, hmodel]
          by_cases hexpired : a.leaseExpiresAtMs ≤ nowMs
          · simp only [if_pos hexpired] at htoken ⊢
            exact mirrors_takeOver h hreq nowMs a _ htoken
          · simp only [if_neg hexpired] at htoken ⊢
            by_cases hjoins : a.desiredModel = req.desiredModel
            · simp only [if_pos hjoins]
              exact mirrors_kept h ⟨rfl, rfl, rfl⟩ rfl
            · simp only [if_neg hjoins] at htoken ⊢
              exact mirrors_resolveConflict h hreq nowMs a htoken

theorem leaseTtlMs_step (c : TransitionCoordinator) (call : Call) :
    (step c call).2.leaseTtlMs = c.leaseTtlMs := by
  cases call with
  | requestTransition req nowMs =>
      change (c.requestTransition req nowMs).2.leaseTtlMs = c.leaseTtlMs
      rcases requestTransition_snd_cases c req nowMs with heq | heq <;> rw [heq]
      rfl
  | acquireServingLease runtimeId =>
      change (c.acquireServingLease runtimeId).2.leaseTtlMs = c.leaseTtlMs
      unfold acquireServingLease
      cases c.active.lookup runtimeId.text <;> rfl
  | releaseServingLease runtimeId =>
      change (c.releaseServingLease runtimeId).leaseTtlMs = c.leaseTtlMs
      unfold releaseServingLease
      cases c.active.lookup runtimeId.text <;> rfl
  | complete runtimeId token =>
      change (c.complete runtimeId token).2.leaseTtlMs = c.leaseTtlMs
      obtain ⟨a, -, -, heq⟩ | ⟨-, heq⟩ := complete_cases c runtimeId token <;> rw [heq]

/-- A call to another runtime leaves the runtime alone. -/
theorem activeTransition_step_of_ne {call : Call} (hcall : r ≠ call.runtimeId) :
    (step c call).2.activeTransition r = c.activeTransition r := by
  cases call with
  | requestTransition req nowMs =>
      have hother : r ≠ req.runtimeId := hcall
      change (c.requestTransition req nowMs).2.activeTransition r = _
      rcases requestTransition_snd_cases c req nowMs with heq | heq
      · rw [heq]
      · rw [heq, activeTransition_install, if_neg hother]
  | acquireServingLease runtimeId =>
      exact (activeTransition_acquireServingLease c runtimeId r).trans (if_neg hcall)
  | releaseServingLease runtimeId =>
      exact (activeTransition_releaseServingLease c runtimeId r).trans (if_neg hcall)
  | complete runtimeId token =>
      have hother : r.text ≠ runtimeId.text := mt text_eq_iff.mp hcall
      change (c.complete runtimeId token).2.activeTransition r = _
      obtain ⟨a, -, -, heq⟩ | ⟨-, heq⟩ := complete_cases c runtimeId token
      · rw [heq]
        exact AList.lookup_erase_ne hother
      · rw [heq]

theorem Projects.step_of_ne (h : Projects r σ c c') {call : Call} (hcall : r ≠ call.runtimeId) :
    Projects r σ (step c call).2 c' :=
  ⟨h.leaseTtlMs_eq.trans (leaseTtlMs_step c call).symm, by
    rw [activeTransition_step_of_ne hcall, h.active_eq]⟩

theorem acquireServingLease_fst (c : TransitionCoordinator) (runtimeId : RuntimeId) :
    (c.acquireServingLease runtimeId).1 = (c.activeTransition runtimeId).isSome := by
  unfold acquireServingLease activeTransition
  cases c.active.lookup runtimeId.text <;> rfl

/-- A token stands for no other one. -/
def Faithful (σ : UInt64 → UInt64) (token : UInt64) : Prop :=
  ∀ other, σ other = σ token → other = token

/-- The runtime's transition is completed by the same token. -/
theorem complete_projects (h : Projects r σ c c')
    (hfaithful : ∀ a, c.activeTransition r = some a → Faithful σ a.fencingToken)
    (token : UInt64) :
    (c'.complete r (σ token)).1 = (c.complete r token).1 ∧
      Projects r σ (c.complete r token).2 (c'.complete r (σ token)).2 ∧
      (c'.complete r (σ token)).2.nextFencingToken = c'.nextFencingToken := by
  obtain ⟨a, ha, htoken, heq⟩ | ⟨hother, heq⟩ := complete_cases c r token
  · obtain ⟨a', ha', htoken', heq'⟩ | ⟨hother', heq'⟩ := complete_cases c' r (σ token)
    · rw [heq, heq']
      refine ⟨rfl, ⟨h.leaseTtlMs_eq, ?_⟩, rfl⟩
      rw [activeTransition, activeTransition, AList.lookup_erase, AList.lookup_erase]
      rfl
    · have ha' : c'.activeTransition r = some (a.renumbered σ) := by rw [h.active_eq, ha]; rfl
      -- accepted in the first run only: the renumbered token is the active one as well
      exact absurd (congrArg σ htoken) (hother' _ ha')
  · obtain ⟨a', ha', htoken', heq'⟩ | ⟨hother', heq'⟩ := complete_cases c' r (σ token)
    · rw [h.active_eq] at ha'
      obtain ⟨a, ha, rfl⟩ := Option.map_eq_some_iff.mp ha'
      -- accepted in the second run only: another token has the number of the active one
      exact absurd (hfaithful a ha token htoken'.symm).symm (hother a ha)
    · rw [heq, heq']
      exact ⟨rfl, h, rfl⟩

/-- What rewrites the transition of the runtime without a look at its token keeps the
coordinators related. -/
theorem Projects.rewritten (h : Projects r σ c c') {d d' : TransitionCoordinator}
    {f : ActiveTransition → ActiveTransition} (httl : d'.leaseTtlMs = d.leaseTtlMs)
    (hactive : d.activeTransition r = (c.activeTransition r).map f)
    (hactive' : d'.activeTransition r = (c'.activeTransition r).map f)
    (hf : ∀ a, f (a.renumbered σ) = (f a).renumbered σ) : Projects r σ d d' := by
  refine ⟨httl, ?_⟩
  rw [hactive, hactive', h.active_eq, Option.map_map, Option.map_map]
  exact congrArg (fun g => (c.activeTransition r).map g) (funext hf)

/-- A call to the runtime is answered the same. -/
theorem Projects.step_of_eq (h : Projects r σ c c') {call : Call} (hcall : call.runtimeId = r)
    (htoken : ∀ token, issuedBy (Machine.record step c call) = some token →
      σ token = c'.nextFencingToken)
    (hfaithful : ∀ a, c.activeTransition r = some a → Faithful σ a.fencingToken) :
    (step c call).1.Same σ (step c' (call.renumbered σ)).1 ∧
      Projects r σ (step c call).2 (step c' (call.renumbered σ)).2 ∧
      (step c' (call.renumbered σ)).2.nextFencingToken =
        if (issuedBy (Machine.record step c call)).isSome then c'.nextFencingToken + 1
        else c'.nextFencingToken := by
  have httl : (step c' (call.renumbered σ)).2.leaseTtlMs = (step c call).2.leaseTtlMs := by
    rw [leaseTtlMs_step, leaseTtlMs_step, h.leaseTtlMs_eq]
  cases call with
  | requestTransition req nowMs =>
      have hmirrors := mirrors_requestTransition h hcall nowMs htoken
      exact ⟨.decided hmirrors.same, hmirrors.projects, hmirrors.next_eq⟩
  | acquireServingLease runtimeId =>
      have hid : runtimeId = r := hcall
      subst hid
      have hactive := activeTransition_acquireServingLease c runtimeId runtimeId
      have hactive' := activeTransition_acquireServingLease c' runtimeId runtimeId
      rw [if_pos rfl] at hactive hactive'
      refine ⟨?_, h.rewritten httl hactive hactive' fun _ => rfl,
        (retouches_acquireServingLease c' runtimeId).next_eq⟩
      have hsame : (c'.acquireServingLease runtimeId).1 = (c.acquireServingLease runtimeId).1 := by
        rw [acquireServingLease_fst, acquireServingLease_fst, h.active_eq, Option.isSome_map]
      change Answer.Same σ (.leased _) (.leased (c'.acquireServingLease runtimeId).1)
      rw [hsame]
      exact .leased _
  | releaseServingLease runtimeId =>
      have hid : runtimeId = r := hcall
      subst hid
      have hactive := activeTransition_releaseServingLease c runtimeId runtimeId
      have hactive' := activeTransition_releaseServingLease c' runtimeId runtimeId
      rw [if_pos rfl] at hactive hactive'
      exact ⟨.released, h.rewritten httl hactive hactive' fun _ => rfl,
        (retouches_releaseServingLease c' runtimeId).next_eq⟩
  | complete runtimeId token =>
      have hid : runtimeId = r := hcall
      subst hid
      obtain ⟨hsame, hprojects, hnext⟩ := complete_projects h hfaithful token
      refine ⟨?_, hprojects, hnext⟩
      change Answer.Same σ (.completed _) (.completed (c'.complete runtimeId (σ token)).1)
      rw [hsame]
      exact .completed _

end Step

/-! ### Whole runs -/

section Run

variable {r : RuntimeId} {σ : UInt64 → UInt64} {c c' : TransitionCoordinator}

/-- An active transition carries the token that the call issued, or the one it had. -/
theorem fencingToken_step {call : Call} {a : ActiveTransition}
    (h : (step c call).2.activeTransition r = some a) :
    issuedBy (Machine.record step c call) = some a.fencingToken ∨
      ∃ b, c.activeTransition r = some b ∧ a.fencingToken = b.fencingToken := by
  obtain ⟨req, nowMs, -, heq, hissued⟩ | ⟨hsame, -⟩ := step_cases c call
  · rw [heq, activeTransition_install] at h
    by_cases hr : r = req.runtimeId
    · rw [if_pos hr, Option.some.injEq] at h
      rw [hissued, ← h]
      exact .inl rfl
    · rw [if_neg hr] at h
      exact .inr ⟨a, h, rfl⟩
  · obtain ⟨b, hb, -, htoken⟩ := hsame.lookup_old _ a h
    exact .inr ⟨b, hb, htoken⟩

theorem ownTokens_logFrom_cons_of_eq {call : Call} {calls : List Call}
    (hcall : call.runtimeId = r) :
    ownTokens r (Machine.logFrom step c (call :: calls)) =
      (issuedBy (Machine.record step c call)).toList ++
        ownTokens r (Machine.logFrom step (step c call).2 calls) := by
  rw [Machine.logFrom_cons]
  exact ownTokens_cons_of_eq hcall

/-- What the renumbering has to do for the rest of a run: map the tokens that the runtime is
issued to those that `c'` issues next, and tell the tokens that the runtime can hold from
all others. -/
structure Renumbers (σ : UInt64 → UInt64) (r : RuntimeId) (c c' : TransitionCoordinator)
    (calls : List Call) : Prop where
  tokens : ∀ (i : ℕ) token, (ownTokens r (Machine.logFrom step c calls))[i]? = some token →
    σ token = c'.nextFencingToken + UInt64.ofNat i
  active : ∀ a, c.activeTransition r = some a → Faithful σ a.fencingToken
  issued : ∀ token ∈ ownTokens r (Machine.logFrom step c calls), Faithful σ token

theorem Renumbers.step_of_ne {call : Call} {calls : List Call}
    (h : Renumbers σ r c c' (call :: calls)) (hcall : call.runtimeId ≠ r) :
    Renumbers σ r (step c call).2 c' calls := by
  have hown : ownTokens r (Machine.logFrom step c (call :: calls)) =
      ownTokens r (Machine.logFrom step (step c call).2 calls) := by
    rw [Machine.logFrom_cons]
    exact ownTokens_cons_of_ne hcall
  refine ⟨fun i token htoken => h.tokens i token (hown ▸ htoken), fun a ha => ?_,
    fun token htoken => h.issued token (hown ▸ htoken)⟩
  rw [activeTransition_step_of_ne hcall.symm] at ha
  exact h.active a ha

/-- The token that the first call issues is the next one of the other run. -/
theorem Renumbers.next {call : Call} {calls : List Call} {token : UInt64}
    (h : Renumbers σ r c c' (call :: calls)) (hcall : call.runtimeId = r)
    (htoken : issuedBy (Machine.record step c call) = some token) :
    σ token = c'.nextFencingToken := by
  have hfirst := h.tokens 0 token (by
    rw [ownTokens_logFrom_cons_of_eq hcall, htoken]
    rfl)
  rw [hfirst]
  exact UInt64.add_zero _

theorem Renumbers.step_of_eq {call : Call} {calls : List Call} {d : TransitionCoordinator}
    (h : Renumbers σ r c c' (call :: calls)) (hcall : call.runtimeId = r)
    (hnext : d.nextFencingToken =
      if (issuedBy (Machine.record step c call)).isSome then c'.nextFencingToken + 1
      else c'.nextFencingToken) :
    Renumbers σ r (step c call).2 d calls := by
  obtain ⟨htokens, hactive, hissued⟩ := h
  rw [ownTokens_logFrom_cons_of_eq hcall] at htokens hissued
  refine ⟨fun i token htoken => ?_, fun a ha => ?_,
    fun token htoken => hissued token (List.mem_append_right _ htoken)⟩
  · cases hnew : issuedBy (Machine.record step c call) with
    | none =>
        rw [hnew] at hnext htokens
        rw [hnext]
        exact htokens i token htoken
    | some new =>
        rw [hnew] at hnext htokens
        have hlater := htokens (i + 1) token htoken
        rw [hlater, hnext, UInt64.ofNat_add, UInt64.add_comm (UInt64.ofNat i), ← UInt64.add_assoc]
        rfl
  · rcases fencingToken_step ha with hnew | ⟨b, hb, htoken⟩
    · rw [hnew] at hissued
      exact hissued _ (List.mem_append_left _ (List.mem_singleton_self _))
    · rw [htoken]
      exact hactive b hb

/-- Related coordinators stay related over a run and its part for the runtime. -/
theorem projects_runFrom {calls : List Call} (h : Projects r σ c c')
    (hσ : Renumbers σ r c c' calls) :
    List.Forall₂ (fun s s' : Step => s.output.Same σ s'.output)
        (stepsOf r (Machine.logFrom step c calls))
        (Machine.logFrom step c' (callsOf r σ calls)) ∧
      Projects r σ (Machine.runFrom step c calls)
        (Machine.runFrom step c' (callsOf r σ calls)) := by
  induction calls generalizing c c' with
  | nil => exact ⟨.nil, h⟩
  | cons call calls ih =>
      rw [Machine.logFrom_cons]
      by_cases hcall : call.runtimeId = r
      · -- a call to the runtime is made in both runs
        obtain ⟨hsame, hprojects, hnext⟩ :=
          h.step_of_eq hcall (fun token htoken => hσ.next hcall htoken) hσ.active
        obtain ⟨hanswers, hrun⟩ := ih hprojects (hσ.step_of_eq hcall hnext)
        rw [callsOf_cons_of_eq hcall, stepsOf_cons_of_eq hcall]
        exact ⟨.cons hsame hanswers, hrun⟩
      · -- the second run is without the call
        rw [callsOf_cons_of_ne hcall, stepsOf_cons_of_ne hcall]
        exact ih (h.step_of_ne (Ne.symm hcall)) (hσ.step_of_ne hcall)

end Run

/-! ### Tokens that are issued once -/

theorem length_le_of_nodup {tokens : List UInt64} (h : tokens.Nodup) :
    tokens.length ≤ 2 ^ 64 := by
  have hsub : tokens.map UInt64.toNat ⊆ List.range (2 ^ 64) := fun n hn => by
    obtain ⟨token, -, rfl⟩ := List.mem_map.mp hn
    exact List.mem_range.mpr token.toNat_lt
  have hle := ((h.map fun _ _ => UInt64.toNat_inj.mp).subperm hsub).length_le
  rwa [List.length_map, List.length_range] at hle

theorem renumber_getElem {own : List UInt64} (h : own.Nodup) {i : ℕ} {token : UInt64}
    (hi : own[i]? = some token) : renumber own token = 1 + UInt64.ofNat i := by
  obtain ⟨hlt, rfl⟩ := List.getElem?_eq_some_iff.mp hi
  rw [renumber, if_pos (List.getElem_mem hlt), h.idxOf_getElem i hlt, UInt64.ofNat_add,
    UInt64.add_comm]
  rfl

theorem faithful_renumber {own : List UInt64} (h : own.Nodup) {token : UInt64}
    (htoken : token ∈ own) : Faithful (renumber own) token := by
  intro other heq
  have hindex := List.idxOf_lt_length_of_mem htoken
  rw [renumber, renumber, if_pos htoken] at heq
  by_cases hother : other ∈ own
  · have hindex' := List.idxOf_lt_length_of_mem hother
    have hlen := length_le_of_nodup h
    rw [if_pos hother] at heq
    have hnat := congrArg UInt64.toNat heq
    rw [UInt64.toNat_ofNat', UInt64.toNat_ofNat'] at hnat
    exact (List.idxOf_inj hother).mp (by omega)
  · -- all own tokens and one more are different, so the numbers do not wrap to 0
    have hlen := length_le_of_nodup (List.nodup_cons.mpr ⟨hother, h⟩)
    rw [if_neg hother] at heq
    have hnat := congrArg UInt64.toNat heq
    rw [UInt64.toNat_ofNat', UInt64.toNat_zero] at hnat
    rw [List.length_cons] at hlen
    omega

theorem ownTokens_sublist (r : RuntimeId) (log : List Step) :
    (ownTokens r log).Sublist (log.filterMap issuedBy) :=
  (List.filter_sublist).filterMap issuedBy

/-- In a run that issues no token twice, nothing of one runtime shows in another. -/
theorem isolated_of_nodup (leaseTtlMs : UInt64) (calls : List Call) (r : RuntimeId)
    (h : ((history leaseTtlMs calls).filterMap issuedBy).Nodup) :
    Isolated leaseTtlMs calls r := by
  have hown : (ownTokens r (history leaseTtlMs calls)).Nodup := h.sublist (ownTokens_sublist r _)
  have hprojects : Projects r (renumbering leaseTtlMs calls r) (new leaseTtlMs) (new leaseTtlMs) :=
    ⟨rfl, rfl⟩
  have hrenumbers : Renumbers (renumbering leaseTtlMs calls r) r (new leaseTtlMs)
      (new leaseTtlMs) calls :=
    ⟨fun i token htoken => renumber_getElem hown htoken, nofun,
      fun token htoken => faithful_renumber hown htoken⟩
  obtain ⟨hanswers, hrun⟩ := projects_runFrom hprojects hrenumbers
  exact ⟨hanswers, hrun.active_eq⟩

/-- A request for a model on the runtime `rt-2`, which shares the coordinator with `rt`. -/
def neighbourRequest (ownerInstance desiredModel : String) : TransitionRequest :=
  { sampleRequest ownerInstance desiredModel with runtimeId := ⟨"rt-2"⟩ }

/-- The second transition of `rt` has the third token. The token of `rt-2` completes nothing
on `rt`. -/
def sharedCoordinatorRun : List Call :=
  [.requestTransition (sampleRequest "inst-a" "qwen9b") 0,
   .requestTransition (neighbourRequest "inst-b" "qwen9b") 0,
   .acquireServingLease ⟨"rt"⟩,
   .requestTransition (sampleRequest "inst-b" "qwen35b") 2000,
   .complete ⟨"rt"⟩ 2,
   .complete ⟨"rt"⟩ 3]

theorem isolated_sharedCoordinatorRun : Isolated 1000 sharedCoordinatorRun ⟨"rt"⟩ :=
  isolated_of_nodup 1000 sharedCoordinatorRun ⟨"rt"⟩ (by decide)

/-! ### The counter wraps -/

/-- A request installs its transition on a runtime that has none, or only an expired one. -/
theorem step_of_free {c : TransitionCoordinator} {req : TransitionRequest} {nowMs : UInt64}
    (havailable : req.runtimeAvailable = true)
    (hfree : ∀ a, c.activeTransition req.runtimeId = some a → a.leaseExpiresAtMs ≤ nowMs) :
    (step c (.requestTransition req nowMs)).2 = (c.install req nowMs).2 := by
  change (c.requestTransition req nowMs).2 = _
  cases hactive : c.activeTransition req.runtimeId with
  | none =>
      have hlookup : c.active.lookup req.runtimeId.text = none := hactive
      unfold requestTransition startFresh
      simp only [havailable, Bool.not_true, Bool.false_eq_true, if_false, hlookup]
  | some a => exact requestTransition_of_expired hactive havailable (hfree a hactive)

theorem activeTransition_complete_current {c : TransitionCoordinator} {runtimeId : RuntimeId}
    {a : ActiveTransition} {token : UInt64} (ha : c.activeTransition runtimeId = some a)
    (htoken : a.fencingToken = token) :
    (c.complete runtimeId token).2.activeTransition runtimeId = none := by
  rw [complete_snd_of_accepted c runtimeId token
    ((complete_fst_iff c runtimeId token).mpr ⟨a, ha, htoken⟩)]
  exact AList.lookup_erase _ _

/-- A request to `rt-2`, where every transition expires at once. -/
def neighbourCall : Call :=
  .requestTransition (neighbourRequest "inst-b" "qwen9b") 0

/-- Requests to `rt-2` use up the tokens and leave `rt` alone. -/
theorem runFrom_replicate_neighbourCall (n : ℕ) {c : TransitionCoordinator}
    (httl : c.leaseTtlMs = 0)
    (hfree : ∀ a, c.activeTransition ⟨"rt-2"⟩ = some a → a.leaseExpiresAtMs = 0) :
    let c' := Machine.runFrom step c (List.replicate n neighbourCall)
    c'.leaseTtlMs = 0 ∧ c'.nextFencingToken = c.nextFencingToken + UInt64.ofNat n ∧
      c'.activeTransition ⟨"rt"⟩ = c.activeTransition ⟨"rt"⟩ := by
  induction n generalizing c with
  | zero => exact ⟨httl, (UInt64.add_zero _).symm, rfl⟩
  | succ n ih =>
      have hstep : (step c neighbourCall).2 =
          (c.install (neighbourRequest "inst-b" "qwen9b") 0).2 :=
        step_of_free rfl fun a ha => by
          rw [hfree a ha]
          exact UInt64.le_refl 0
      have hactive := activeTransition_install c (neighbourRequest "inst-b" "qwen9b") 0
      have hfree' : ∀ a, (step c neighbourCall).2.activeTransition ⟨"rt-2"⟩ = some a →
          a.leaseExpiresAtMs = 0 := fun a ha => by
        rw [hstep, hactive, if_pos (by decide), Option.some.injEq] at ha
        rw [← ha, installed, httl]
        rfl
      obtain ⟨httl', hnext, hkept⟩ := ih ((leaseTtlMs_step c neighbourCall).trans httl) hfree'
      rw [List.replicate_succ, Machine.runFrom_cons]
      refine ⟨httl', ?_, ?_⟩
      · rw [hnext, hstep, UInt64.ofNat_add, UInt64.add_comm (UInt64.ofNat n), ← UInt64.add_assoc]
        rfl
      · rw [hkept, hstep, hactive, if_neg (by decide)]

/-- An owner starts a transition on `rt` under the first token. After `n` calls to `rt-2`,
`rt` is requested again. Then the first owner completes. -/
def staleCompletionRun (n : ℕ) : List Call :=
  .requestTransition (sampleRequest "inst-a" "qwen9b") 0 :: (List.replicate n neighbourCall ++
    [.requestTransition (sampleRequest "inst-b" "qwen35b") 0, .complete ⟨"rt"⟩ 1])

/-- When the calls to `rt-2` have used up the other tokens, the stale completion ends the
second transition, which has the same token. -/
theorem activeTransition_reached_staleCompletionRun {n : ℕ} (hn : 2 + UInt64.ofNat n = 1) :
    (reached 0 (staleCompletionRun n)).activeTransition ⟨"rt"⟩ = none := by
  have hstart : (step (new 0) (.requestTransition (sampleRequest "inst-a" "qwen9b") 0)).2 =
      ((new 0).install (sampleRequest "inst-a" "qwen9b") 0).2 :=
    step_of_free rfl fun a ha => by cases ha
  obtain ⟨httl, hnext, hkept⟩ := runFrom_replicate_neighbourCall n
    (c := ((new 0).install (sampleRequest "inst-a" "qwen9b") 0).2) rfl fun a ha => by
      rw [activeTransition_install, if_neg (by decide)] at ha
      cases ha
  rw [reached, staleCompletionRun, Machine.runFrom_cons, hstart, Machine.runFrom_append]
  generalize Machine.runFrom step ((new 0).install (sampleRequest "inst-a" "qwen9b") 0).2
    (List.replicate n neighbourCall) = c at httl hnext hkept ⊢
  have hstep : (step c (.requestTransition (sampleRequest "inst-b" "qwen35b") 0)).2 =
      (c.install (sampleRequest "inst-b" "qwen35b") 0).2 :=
    step_of_free rfl fun a ha => by
      have hfirst : c.activeTransition ⟨"rt"⟩ = some a := ha
      rw [hkept, activeTransition_install, if_pos (by decide), Option.some.injEq] at hfirst
      rw [← hfirst]
      decide
  -- the counter is back at the first token
  have htoken : (c.installed (sampleRequest "inst-b" "qwen35b") 0).fencingToken = 1 :=
    hnext.trans hn
  have hcurrent : (c.install (sampleRequest "inst-b" "qwen35b") 0).2.activeTransition ⟨"rt"⟩ =
      some (c.installed (sampleRequest "inst-b" "qwen35b") 0) := by
    rw [activeTransition_install, if_pos (by decide)]
  rw [Machine.runFrom_cons, hstep]
  exact activeTransition_complete_current hcurrent htoken

theorem callsOf_staleCompletionRun (n : ℕ) (σ : UInt64 → UInt64) :
    callsOf ⟨"rt"⟩ σ (staleCompletionRun n) =
      [.requestTransition (sampleRequest "inst-a" "qwen9b") 0,
       .requestTransition (sampleRequest "inst-b" "qwen35b") 0, .complete ⟨"rt"⟩ (σ 1)] := by
  rw [callsOf, staleCompletionRun, List.filter_cons_of_pos (by decide), List.filter_append,
    List.filter_replicate_of_neg (by decide)]
  rfl

theorem renumbering_staleCompletionRun (n : ℕ) :
    renumbering 0 (staleCompletionRun n) ⟨"rt"⟩ 1 = 1 := by
  rw [renumbering, history, staleCompletionRun, Machine.logFrom_cons,
    ownTokens_cons_of_eq (by decide)]
  change renumber (1 :: _) 1 = 1
  rw [renumber, if_pos List.mem_cons_self, List.idxOf_cons_self]
  rfl

/-- Without the calls to `rt-2`, the stale completion is rejected. -/
theorem not_isolated_staleCompletionRun :
    ¬Isolated 0 (staleCompletionRun (2 ^ 64 - 1)) ⟨"rt"⟩ := by
  generalize hn : 2 ^ 64 - 1 = n
  have hwraps : 2 + UInt64.ofNat n = 1 := by
    rw [← hn]
    decide
  intro h
  have hactive := congrArg Option.isSome h.active
  rw [activeTransition_reached_staleCompletionRun hwraps, callsOf_staleCompletionRun,
    renumbering_staleCompletionRun, Option.map_none] at hactive
  revert hactive
  decide

end TransitionCoordinator

end Anemoi
