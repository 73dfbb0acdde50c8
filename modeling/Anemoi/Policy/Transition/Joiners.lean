import Anemoi.Policy.Transition.Precedence

/-!
# Joiners

A request for the model that is already in flight joins the transition and leaves
no trace in it: the transition keeps the priority of its owner. A later request is
therefore compared with the owner only, and may displace the transition over a
joiner that comes before it.

`Standing` is what a step that admitted a request to a transition establishes of
every later state: the transition under that token, as long as it is active, has
at least the request's precedence. Joining keeps it only if `JoinsBelow` holds.
-/

namespace Anemoi

open Systems

/-- The token of the transition that an answer admits the requester to. -/
def TransitionPath.admits : TransitionPath → Option UInt64
  | joined token | started token | staged token | tookOver token _ => some token
  | servedHot _ | rejected _ | runtimeUnavailable => none

namespace TransitionCoordinator

/-- The request that a step admitted to a transition, and the transition's token. -/
def admittedBy (r : Step) : Option (TransitionRequest × UInt64) :=
  match r.input, r.output with
  | .requestTransition req _, .decided decision =>
      decision.path.admits.map fun token => (req, token)
  | _, _ => none

/-- The request by which a step took over a transition of another instance while its
lease had not expired, and that transition. -/
def displacedBy (r : Step) : Option (TransitionRequest × ActiveTransition) :=
  match r.input, r.output with
  | .requestTransition req nowMs, .decided ⟨.tookOver _ _, _, _⟩ =>
      ((r.before.activeTransition req.runtimeId).filter fun a =>
        nowMs < a.leaseExpiresAtMs && a.ownerInstance != req.ownerInstance).map fun a =>
          (req, a)
  | _, _ => none

/-- Whoever displaces a transition outranks every request of another instance that was
admitted to it before. -/
def OutranksAdmitted (r r' : Step) : Prop :=
  ∀ req req' a, admittedBy r = some (req, a.fencingToken) → displacedBy r' = some (req', a) →
    req.ownerInstance ≠ req'.ownerInstance → req.precedence < req'.precedence

/-- A request that joins does not outrank the transition it joins. -/
def JoinsBelow (r : Step) : Prop :=
  match r.input with
  | .requestTransition req nowMs =>
      ∀ a ∈ r.before.activeTransition req.runtimeId, req.runtimeAvailable = true →
        nowMs < a.leaseExpiresAtMs → a.desiredModel = req.desiredModel →
          req.precedence ≤ a.precedence
  | _ => True

/-- The transition that a step admitted a request to has the request's precedence or a
higher one, if it is active at all. -/
def Standing (r : Step) (c : TransitionCoordinator) : Prop :=
  ∀ req token, admittedBy r = some (req, token) →
    token < c.nextFencingToken ∧
      ∀ runtimeId a, c.activeTransition runtimeId = some a → a.fencingToken = token →
        req.precedence ≤ a.precedence

/-- A call that rewrites the entry of one runtime keeps tokens and precedences. -/
theorem exists_of_rewritten {c : TransitionCoordinator} {id runtimeId : RuntimeId}
    {f : ActiveTransition → ActiveTransition} {a : ActiveTransition}
    (hf : ∀ b, (f b).fencingToken = b.fencingToken ∧ (f b).precedence = b.precedence)
    (h : (if runtimeId = id then (c.activeTransition runtimeId).map f
      else c.activeTransition runtimeId) = some a) :
    ∃ b, c.activeTransition runtimeId = some b ∧ a.fencingToken = b.fencingToken ∧
      a.precedence = b.precedence := by
  by_cases hr : runtimeId = id
  · rw [if_pos hr] at h
    obtain ⟨b, hb, rfl⟩ := Option.map_eq_some_iff.mp h
    exact ⟨b, hb, hf b⟩
  · rw [if_neg hr] at h
    exact ⟨a, h, rfl, rfl⟩

/-- After a call, an active transition carries the token just issued or is one that
was active before, with the same token and precedence. -/
theorem activeTransition_step {c : TransitionCoordinator} {call : Call}
    {runtimeId : RuntimeId} {a : ActiveTransition}
    (h : (step c call).2.activeTransition runtimeId = some a) :
    a.fencingToken = c.nextFencingToken ∨
      ∃ b, c.activeTransition runtimeId = some b ∧ a.fencingToken = b.fencingToken ∧
        a.precedence = b.precedence := by
  cases call with
  | requestTransition req nowMs =>
      have hafter : (step c (.requestTransition req nowMs)).2 =
          (c.requestTransition req nowMs).2 := rfl
      rw [hafter] at h
      rcases requestTransition_snd_cases c req nowMs with heq | heq
      · rw [heq] at h
        exact Or.inr ⟨a, h, rfl, rfl⟩
      · rw [heq, activeTransition_install] at h
        by_cases hr : runtimeId = req.runtimeId
        · rw [if_pos hr, Option.some.injEq] at h
          rw [← h]
          exact Or.inl rfl
        · rw [if_neg hr] at h
          exact Or.inr ⟨a, h, rfl, rfl⟩
  | acquireServingLease id =>
      have hafter : (step c (.acquireServingLease id)).2 = (c.acquireServingLease id).2 := rfl
      rw [hafter, activeTransition_acquireServingLease] at h
      exact Or.inr (exists_of_rewritten (f := ActiveTransition.addLease)
        (fun _ => ⟨rfl, rfl⟩) h)
  | releaseServingLease id =>
      have hafter : (step c (.releaseServingLease id)).2 = c.releaseServingLease id := rfl
      rw [hafter, activeTransition_releaseServingLease] at h
      exact Or.inr (exists_of_rewritten (f := ActiveTransition.dropLease)
        (fun _ => ⟨rfl, rfl⟩) h)
  | complete id token => exact Or.inr ⟨a, activeTransition_complete h, rfl, rfl⟩

/-- The counter never goes back while tokens remain. -/
theorem next_le_step {c : TransitionCoordinator} (h : c.TokensRemain) (call : Call) :
    c.nextFencingToken ≤ (step c call).2.nextFencingToken := by
  obtain ⟨req, nowMs, -, heq, -⟩ | ⟨hsame, -⟩ := step_cases c call
  · rw [heq]
    exact UInt64.le_of_lt (next_lt_of_tokensRemain h)
  · rw [hsame.next_eq]
    exact UInt64.le_refl _

theorem standing_step {r : Step} {c : TransitionCoordinator} (h : c.TokensRemain)
    (hstanding : Standing r c) (call : Call) : Standing r (step c call).2 := by
  intro req token hadmitted
  obtain ⟨hlt, hprecedence⟩ := hstanding req token hadmitted
  refine ⟨UInt64.lt_of_lt_of_le hlt (next_le_step h call), ?_⟩
  rintro runtimeId a ha rfl
  obtain hnew | ⟨b, hb, htoken, heq⟩ := activeTransition_step ha
  · exact absurd (hnew ▸ hlt) (UInt64.lt_irrefl _)
  · rw [heq]
    exact hprecedence runtimeId b hb htoken.symm

/-- A request that installs its own transition stands under the token just issued. -/
theorem standing_install {c : TransitionCoordinator} (hc : c.Fenced) (h : c.TokensRemain)
    (req : TransitionRequest) (nowMs : UInt64) :
    c.nextFencingToken < (c.install req nowMs).2.nextFencingToken ∧
      ∀ runtimeId a, (c.install req nowMs).2.activeTransition runtimeId = some a →
        a.fencingToken = c.nextFencingToken → req.precedence ≤ a.precedence := by
  refine ⟨next_lt_of_tokensRemain h, fun runtimeId a ha htoken => ?_⟩
  rw [activeTransition_install] at ha
  by_cases hr : runtimeId = req.runtimeId
  · rw [if_pos hr, Option.some.injEq] at ha
    rw [← ha, (represents_installed c req nowMs).precedence_eq]
  · rw [if_neg hr] at ha
    have hlt := hc.token_lt _ a ha
    rw [htoken] at hlt
    exact absurd hlt (UInt64.lt_irrefl _)

theorem standing_record {c : TransitionCoordinator} (hc : c.Fenced) (h : c.TokensRemain)
    {call : Call} (hjoins : JoinsBelow (Machine.record step c call)) :
    Standing (Machine.record step c call) (step c call).2 := by
  intro req token hadmitted
  cases call with
  | requestTransition req' nowMs =>
      have hpath : (c.requestTransition req' nowMs).1.path.admits.map (fun t => (req', t)) =
          some (req, token) := hadmitted
      have hafter : (step c (.requestTransition req' nowMs)).2 =
          (c.requestTransition req' nowMs).2 := rfl
      obtain ⟨t, hadmits, heq⟩ := Option.map_eq_some_iff.mp hpath
      cases heq
      rw [hafter]
      have harb := arbitration_requestTransition c req nowMs
      generalize (c.requestTransition req nowMs).1.path = path at harb hadmits
      generalize (c.requestTransition req nowMs).2 = c' at harb ⊢
      cases harb with
      | fresh =>
          have htoken : token = c.nextFencingToken := by
            cases hbackground : req.background <;>
              simpa [hbackground, TransitionPath.admits] using hadmits.symm
          rw [htoken]
          exact standing_install hc h req nowMs
      | expired | wins =>
          cases hadmits
          exact standing_install hc h req nowMs
      | joins a havailable hsome hlease hmodel =>
          cases hadmits
          refine ⟨hc.token_lt _ a hsome, fun runtimeId b hb htoken => ?_⟩
          -- the token is carried by no other entry than the one joined
          have hkey := hc.distinct _ _ b a hb hsome htoken
          rw [activeTransition, hkey] at hb
          rw [activeTransition, hb, Option.some.injEq] at hsome
          rw [hsome]
          exact hjoins a (hsome ▸ hb) havailable hlease hmodel
      | unavailable | hot | blocked | loses => cases hadmits
  | acquireServingLease | releaseServingLease | complete => cases hadmitted

/-- A request that displaces a transition outranks it. -/
theorem precedence_lt_of_displacedBy {c : TransitionCoordinator} {call : Call}
    {req : TransitionRequest} {a : ActiveTransition}
    (h : displacedBy (Machine.record step c call) = some (req, a)) :
    c.activeTransition req.runtimeId = some a ∧ a.precedence < req.precedence := by
  cases call with
  | requestTransition req' nowMs =>
      simp only [displacedBy, Machine.record, step] at h
      split at h
      · next hinput houtput =>
          cases hinput
          have hpath := congrArg TransitionDecision.path (Answer.decided.inj houtput)
          obtain ⟨b, hb, heq⟩ := Option.map_eq_some_iff.mp h
          cases heq
          obtain ⟨hactive, hguard⟩ := Option.filter_eq_some_iff.mp hb
          rw [Bool.and_eq_true, decide_eq_true_eq, bne_iff_ne] at hguard
          refine ⟨hactive, ?_⟩
          have harb := arbitration_requestTransition c req nowMs
          generalize (c.requestTransition req nowMs).1.path = path at harb hpath
          generalize (c.requestTransition req nowMs).2 = c' at harb
          cases harb with
          | fresh _ hnone =>
              rw [hactive] at hnone
              cases hnone
          | expired b' _ hsome hexpired =>
              rw [hactive, Option.some.injEq] at hsome
              rw [← hsome] at hexpired
              exact absurd hguard.1 (UInt64.not_lt.mpr hexpired)
          | wins b' _ hsome _ _ _ _ hwins =>
              rw [hactive, Option.some.injEq] at hsome
              rw [← hsome] at hwins
              have hleases : a.servingLeases = 0 := by
                by_contra hne
                rw [incomingWins_of_servingLeases (UInt32.pos_iff_ne_zero.mpr hne)] at hwins
                cases hwins
              exact (incomingWins_iff hleases hguard.2.symm).mp hwins
          | unavailable | joins | hot | blocked | loses => cases hpath
      · cases h
  | acquireServingLease | releaseServingLease | complete => cases h

/-- In every run whose joins stay below the transition they join, no transition is
displaced over a request that was admitted to it. -/
theorem outranksAdmitted_history {leaseTtlMs : UInt64} {calls : List Call}
    (htokens : ∀ r ∈ history leaseTtlMs calls, r.before.TokensRemain)
    (hjoins : ∀ r ∈ history leaseTtlMs calls, JoinsBelow r) :
    (history leaseTtlMs calls).Pairwise OutranksAdmitted := by
  refine Machine.pairwise_logFrom step (I := Fenced) (Q := Standing)
    (G := fun r => r.before.TokensRemain ∧ JoinsBelow r)
    (fun _ call hc hG => fenced_step hc hG.1 call)
    (fun _ _ hc hG => standing_record hc hG.1 hG.2)
    (fun _ _ call _ hG hstanding => standing_step hG.1 hstanding call) ?_
    (fun r hr => ⟨htokens r hr, hjoins r hr⟩) (fenced_new leaseTtlMs)
  rintro r c call - - hstanding req req' a hadmitted hdisplaced -
  obtain ⟨hactive, hlt⟩ := precedence_lt_of_displacedBy hdisplaced
  exact ((hstanding req _ hadmitted).2 _ a hactive rfl).trans_lt hlt

/-- A less urgent instance joins a load before a third one displaces it. -/
def modestJoinerRun : List Call :=
  [.requestTransition (sampleRequest "inst-a" "qwen9b") 0,
   .requestTransition { sampleRequest "inst-b" "qwen9b" with priority := 3 } 1,
   .requestTransition { sampleRequest "inst-c" "qwen35b" with priority := 7 } 2]

theorem outranksAdmitted_modestJoinerRun :
    (history 1000 modestJoinerRun).Pairwise OutranksAdmitted :=
  outranksAdmitted_history (by decide) (by
    intro r hr
    fin_cases hr
    · exact fun a ha => nomatch ha
    · rintro a ha - - -
      cases ha
      exact (precedence_lt_iff.mpr (by decide)).le
    · rintro a ha - - hmodel
      cases ha
      exact absurd hmodel (by decide))

/-- An urgent instance joins the load that a background instance started, and a third
one, between the two, displaces it. -/
def outrankedJoinerRun : List Call :=
  [.requestTransition { sampleRequest "inst-a" "qwen9b" with priority := 1 } 0,
   .requestTransition { sampleRequest "inst-b" "qwen9b" with priority := 9 } 1,
   .requestTransition (sampleRequest "inst-c" "qwen35b") 2]

/-- The transition is displaced over its joiner of priority 9 by a request of
priority 5. -/
theorem not_outranksAdmitted_outrankedJoinerRun :
    ¬(history 1000 outrankedJoinerRun).Pairwise OutranksAdmitted := by
  intro h
  have hpair := (List.pairwise_cons.mp (List.pairwise_cons.mp h).2).1 _ List.mem_cons_self
  have hlt := hpair { sampleRequest "inst-b" "qwen9b" with priority := 9 }
    (sampleRequest "inst-c" "qwen35b")
    { (new 1000).installed (sampleRequest "inst-a" "qwen9b") 0 with priority := 1 }
    (by decide) (by decide) (by decide)
  exact absurd (precedence_lt_iff.mp hlt) (by decide)

end TransitionCoordinator

end Anemoi
