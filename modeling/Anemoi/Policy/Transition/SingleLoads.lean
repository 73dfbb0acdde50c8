import Anemoi.Policy.Transition.Isolation

/-!
# One load for each lease

While the lease of a transition lasts, every further request for its model joins it, so
that no model is loaded twice. `Leased` is the invariant: the runtime keeps the transition
with its model, token and expiry through every step that does not end it.

The expiry is a sum, which wraps for a lease that is never to expire. The lease is then
over before it has begun, and the next request for the model takes the transition over.
-/

namespace Anemoi

open Systems

namespace TransitionCoordinator

/-- The step completes the transition of the runtime under `token`, or takes it over. -/
def Ends (r : RuntimeId) (token : UInt64) (s : Step) : Prop :=
  s.input.runtimeId = r ∧ (acceptedBy s = some token ∨ overtakenBy s = some token)

/-- After the request, and until its transition ends, every request for the same model on
the runtime joins it while the lease lasts, and changes nothing. -/
def SingleLoad (c : TransitionCoordinator) (req : TransitionRequest) (nowMs token : UInt64) :
    Prop :=
  let installed := (c.requestTransition req nowMs).2
  ∀ (later : List Call), (∀ s ∈ Machine.logFrom step installed later, ¬Ends req.runtimeId token s) →
    ∀ (req' : TransitionRequest) (nowMs' : UInt64), req'.runtimeId = req.runtimeId →
      req'.desiredModel = req.desiredModel → req'.runtimeAvailable = true →
      nowMs ≤ nowMs' → nowMs' - nowMs < c.leaseTtlMs →
      let c' := Machine.runFrom step installed later
      (c'.requestTransition req' nowMs').1.path = .joined token ∧
        (c'.requestTransition req' nowMs').2 = c'

/-- Neither the expiry nor the token counter wraps when the request installs a lease. -/
structure InstallFits (c : TransitionCoordinator) (req : TransitionRequest) (nowMs : UInt64) :
    Prop where
  expiry : (c.installed req nowMs).leaseExpiresAtMs.toNat = nowMs.toNat + c.leaseTtlMs.toNat
  counter : (c.install req nowMs).2.nextFencingToken.toNat = c.nextFencingToken.toNat + 1

/-! ### The lease through a run -/

/-- The runtime has a transition to the model, under the token and until the expiry. -/
def Leased (r : RuntimeId) (model : ModelId) (token expiresAtMs : UInt64)
    (c : TransitionCoordinator) : Prop :=
  ∃ a, c.activeTransition r = some a ∧ a.desiredModel = model ∧ a.fencingToken = token ∧
    a.leaseExpiresAtMs = expiresAtMs

section Leased

variable {c : TransitionCoordinator} {r : RuntimeId} {model : ModelId}
  {token expiresAtMs : UInt64}

theorem leased_install (c : TransitionCoordinator) (req : TransitionRequest) (nowMs : UInt64) :
    Leased req.runtimeId req.desiredModel c.nextFencingToken (nowMs + c.leaseTtlMs)
      (c.install req nowMs).2 :=
  ⟨c.installed req nowMs, by rw [activeTransition_install, if_pos rfl], rfl, rfl, rfl⟩

/-- A request that issues a token installs its transition under it. -/
theorem requestTransition_of_issued {req : TransitionRequest} {nowMs : UInt64}
    (h : (c.requestTransition req nowMs).1.path.issued = some token) :
    token = c.nextFencingToken ∧ req.runtimeAvailable = true ∧
      (c.requestTransition req nowMs).2 = (c.install req nowMs).2 := by
  have harb := arbitration_requestTransition c req nowMs
  generalize (c.requestTransition req nowMs).1.path = path at harb h
  generalize (c.requestTransition req nowMs).2 = c' at harb ⊢
  cases harb with
  | fresh havailable =>
      refine ⟨?_, havailable, rfl⟩
      cases hbackground : req.background <;> rw [hbackground] at h
      · exact (Option.some.inj h).symm
      · exact (Option.some.inj h).symm
  | expired _ havailable | wins _ havailable =>
      exact ⟨(Option.some.inj h).symm, havailable, rfl⟩
  | unavailable | joins | hot | blocked | loses => cases h

/-- A request to the runtime either leaves the coordinator alone or ends the transition. -/
theorem requestTransition_of_leased (h : Leased r model token expiresAtMs c)
    {req : TransitionRequest} {nowMs : UInt64} (hreq : req.runtimeId = r) :
    (c.requestTransition req nowMs).2 = c ∨
      overtakenBy (Machine.record step c (.requestTransition req nowMs)) = some token := by
  subst hreq
  obtain ⟨a, ha, -, htoken, -⟩ := h
  have harb := arbitration_requestTransition c req nowMs
  have hover : ∀ token' previous, (c.requestTransition req nowMs).1.path =
      .tookOver token' previous →
        overtakenBy (Machine.record step c (.requestTransition req nowMs)) = some token := by
    intro token' previous hpath
    have hdecision : (c.requestTransition req nowMs).1 =
        ⟨.tookOver token' previous, (c.requestTransition req nowMs).1.reasons,
          (c.requestTransition req nowMs).1.rejected⟩ := by
      rw [← hpath]
    unfold overtakenBy Machine.record step
    dsimp only
    rw [hdecision]
    dsimp only
    rw [ha, Option.map_some, htoken]
  generalize (c.requestTransition req nowMs).1.path = path at harb hover
  generalize (c.requestTransition req nowMs).2 = c' at harb ⊢
  cases harb with
  | unavailable | joins | hot | blocked | loses => exact .inl rfl
  | fresh _ hnone =>
      rw [ha] at hnone
      cases hnone
  | expired | wins => exact .inr (hover _ _ rfl)

theorem leased_step {call : Call} (h : Leased r model token expiresAtMs c)
    (hends : ¬Ends r token (Machine.record step c call)) :
    Leased r model token expiresAtMs (step c call).2 := by
  by_cases hcall : call.runtimeId = r
  · cases call with
    | requestTransition req nowMs =>
        rcases requestTransition_of_leased h hcall with heq | hover
        · exact heq.symm ▸ h
        · exact absurd ⟨hcall, .inr hover⟩ hends
    | acquireServingLease runtimeId =>
        obtain rfl : runtimeId = r := hcall
        obtain ⟨a, ha, hmodel, htoken, hexpires⟩ := h
        refine ⟨a.addLease, ?_, hmodel, htoken, hexpires⟩
        change (c.acquireServingLease runtimeId).2.activeTransition runtimeId = _
        rw [activeTransition_acquireServingLease, if_pos rfl, ha, Option.map_some]
    | releaseServingLease runtimeId =>
        obtain rfl : runtimeId = r := hcall
        obtain ⟨a, ha, hmodel, htoken, hexpires⟩ := h
        refine ⟨a.dropLease, ?_, hmodel, htoken, hexpires⟩
        change (c.releaseServingLease runtimeId).activeTransition runtimeId = _
        rw [activeTransition_releaseServingLease, if_pos rfl, ha, Option.map_some]
    | complete runtimeId presented =>
        obtain rfl : runtimeId = r := hcall
        obtain ⟨a, ha, hpresented, heq⟩ | ⟨-, heq⟩ := complete_cases c runtimeId presented
        · -- only the token of the transition is accepted
          obtain ⟨b, hb, -, htoken, -⟩ := h
          rw [ha, Option.some.injEq] at hb
          rw [← hb, hpresented] at htoken
          subst htoken
          refine absurd ⟨rfl, .inl ?_⟩ hends
          simp [acceptedBy, Machine.record, step, heq]
        · change Leased runtimeId model token expiresAtMs (c.complete runtimeId presented).2
          rw [heq]
          exact h
  · obtain ⟨a, ha, hrest⟩ := h
    exact ⟨a, (activeTransition_step_of_ne (Ne.symm hcall)).trans ha, hrest⟩

theorem leased_runFrom {later : List Call} (h : Leased r model token expiresAtMs c)
    (hends : ∀ s ∈ Machine.logFrom step c later, ¬Ends r token s) :
    Leased r model token expiresAtMs (Machine.runFrom step c later) :=
  Machine.invariant_runFrom step (fun _ _ => leased_step) hends h

/-- Before the expiry a request for the model joins. -/
theorem requestTransition_joins (h : Leased r model token expiresAtMs c)
    {req : TransitionRequest} {nowMs : UInt64} (hruntime : req.runtimeId = r)
    (hmodel : req.desiredModel = model) (havailable : req.runtimeAvailable = true)
    (hlease : nowMs < expiresAtMs) :
    (c.requestTransition req nowMs).1.path = .joined token ∧
      (c.requestTransition req nowMs).2 = c := by
  obtain ⟨a, ha, hdesired, rfl, rfl⟩ := h
  rw [← hruntime, activeTransition] at ha
  unfold requestTransition
  simp [havailable, ha, UInt64.not_le.mpr hlease, hdesired, hmodel, join]

end Leased

/-! ### The expiry -/

theorem toNat_expiry_of_fits {nowMs ttl : UInt64}
    (h : nowMs.toNat + ttl.toNat < UInt64.size) :
    (nowMs + ttl).toNat = nowMs.toNat + ttl.toNat := by
  rw [UInt64.toNat_add]
  exact Nat.mod_eq_of_lt h

/-- A sum that wraps is below its first part. -/
theorem expiry_le_of_not_fits {nowMs ttl : UInt64}
    (h : ¬nowMs.toNat + ttl.toNat < UInt64.size) : nowMs + ttl ≤ nowMs := by
  have hsize : UInt64.size = 2 ^ 64 := rfl
  have hnow := nowMs.toNat_lt
  have hlt := ttl.toNat_lt
  rw [UInt64.le_iff_toNat_le, UInt64.toNat_add]
  omega

theorem installFits_iff (c : TransitionCoordinator) (req : TransitionRequest) (nowMs : UInt64) :
    c.InstallFits req nowMs ↔
      nowMs.toNat + c.leaseTtlMs.toNat < UInt64.size ∧ c.TokensRemain := by
  constructor
  · rintro ⟨hexpiry, hcounter⟩
    constructor
    · rw [← hexpiry]
      exact UInt64.toNat_lt _
    · unfold TokensRemain
      rw [← hcounter]
      exact UInt64.toNat_lt _
  · rintro ⟨hexpiry, hcounter⟩
    exact ⟨toNat_expiry_of_fits hexpiry, toNat_expiry_of_fits hcounter⟩

/-- The lease is kept as long as its expiry is the sum it stands for. -/
theorem singleLoad_of_issued {c : TransitionCoordinator} (httl : 1 ≤ c.leaseTtlMs)
    {req : TransitionRequest} {nowMs token : UInt64}
    (hissued : (c.requestTransition req nowMs).1.path.issued = some token) :
    SingleLoad c req nowMs token ↔ nowMs.toNat + c.leaseTtlMs.toNat < UInt64.size := by
  obtain ⟨rfl, havailable, heq⟩ := requestTransition_of_issued hissued
  have hleased := leased_install c req nowMs
  unfold SingleLoad
  rw [heq]
  constructor
  · intro h
    by_contra hwraps
    obtain ⟨hjoined, hkept⟩ := h [] (by simp) req nowMs rfl rfl havailable (UInt64.le_refl _) (by
      rw [UInt64.sub_self]
      exact httl)
    -- the request repeated at once takes over, which spends a token
    obtain ⟨a, ha, -, -, hexpires⟩ := hleased
    have hexpired : a.leaseExpiresAtMs ≤ nowMs := hexpires ▸ expiry_le_of_not_fits hwraps
    have harb := arbitration_requestTransition (c.install req nowMs).2 req nowMs
    rw [Machine.runFrom_nil] at hjoined
    rw [hjoined] at harb
    generalize hpath : TransitionPath.joined c.nextFencingToken = path at harb
    generalize ((c.install req nowMs).2.requestTransition req nowMs).2 = c' at harb
    cases harb with
    | joins b _ hsome hlease =>
        rw [ha, Option.some.injEq] at hsome
        rw [← hsome] at hlease
        exact absurd hlease (UInt64.not_lt.mpr hexpired)
    | fresh => split at hpath <;> cases hpath
    | unavailable | expired | hot | blocked | wins | loses => cases hpath
  · intro hfits _ later hends req' nowMs' hruntime hmodel havailable' hle hlt
    refine requestTransition_joins (leased_runFrom hleased hends) hruntime hmodel havailable' ?_
    rw [UInt64.lt_iff_toNat_lt, UInt64.toNat_sub_of_le _ _ hle] at hlt
    rw [UInt64.lt_iff_toNat_lt, toNat_expiry_of_fits hfits]
    omega

/-- In every run, a transition is loaded once for its lease exactly when the expiry does not
wrap, and installing it does not overflow exactly when the token counter does not either. -/
theorem singleLoad_reached_iff (leaseTtlMs : UInt64) (httl : 1 ≤ leaseTtlMs) (calls : List Call)
    (req : TransitionRequest) (nowMs token : UInt64)
    (hissued : ((reached leaseTtlMs calls).requestTransition req nowMs).1.path.issued =
      some token) :
    ((reached leaseTtlMs calls).SingleLoad req nowMs token ↔
        nowMs.toNat + leaseTtlMs.toNat < UInt64.size) ∧
      ((reached leaseTtlMs calls).InstallFits req nowMs ↔
        nowMs.toNat + leaseTtlMs.toNat < UInt64.size ∧
          (reached leaseTtlMs calls).TokensRemain) := by
  have hkept : (reached leaseTtlMs calls).leaseTtlMs = leaseTtlMs :=
    Machine.invariant_runFrom step (I := fun c => c.leaseTtlMs = leaseTtlMs) (G := fun _ => True)
      (fun c call hc _ => (leaseTtlMs_step c call).trans hc) (fun _ _ => trivial) rfl
  have hsingle := singleLoad_of_issued (by rw [hkept]; exact httl) hissued
  have hfits := installFits_iff (reached leaseTtlMs calls) req nowMs
  rw [hkept] at hsingle hfits
  exact ⟨hsingle, hfits⟩

theorem singleLoad_first :
    ((reached 1000 []).SingleLoad (sampleRequest "inst-a" "qwen9b") 5 1 ↔
        (5 : UInt64).toNat + (1000 : UInt64).toNat < UInt64.size) ∧
      ((reached 1000 []).InstallFits (sampleRequest "inst-a" "qwen9b") 5 ↔
        (5 : UInt64).toNat + (1000 : UInt64).toNat < UInt64.size ∧
          (reached 1000 []).TokensRemain) :=
  singleLoad_reached_iff 1000 (by decide) [] (sampleRequest "inst-a" "qwen9b") 5 1 (by decide)

/-- A lease that is never to expire ends before it begins: the second instance loads the
model again. -/
theorem not_singleLoad_neverExpiring :
    ((reached 18446744073709551615 []).requestTransition
        (sampleRequest "inst-a" "qwen9b") 1).1.path.issued = some 1 ∧
      ¬(reached 18446744073709551615 []).SingleLoad (sampleRequest "inst-a" "qwen9b") 1 1 ∧
      ¬(reached 18446744073709551615 []).InstallFits (sampleRequest "inst-a" "qwen9b") 1 := by
  refine ⟨by decide, fun h => ?_, fun h => ?_⟩
  · have hjoined := (h [] (by simp) (sampleRequest "inst-b" "qwen9b") 1 (by decide) (by decide)
      (by decide) (by decide) (by decide)).1
    revert hjoined
    decide
  · have hexpiry := h.expiry
    revert hexpiry
    decide

end TransitionCoordinator

end Anemoi
