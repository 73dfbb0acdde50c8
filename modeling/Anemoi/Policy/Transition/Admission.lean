import Anemoi.Policy.Transition.SingleLoads
import Anemoi.Policy.Transition.Precedence

/-!
# Admission

A request for an available runtime is either admitted, under a token of its own, or turned
away by the owner of the runtime. `Tenure` says who that owner is in terms of the run alone:
an earlier request that was admitted, and whose transition no later step has completed or
taken over. It is the invariant that every active transition has such a request behind it.

Nobody is turned away by a request older than the lease. An owner that died, a completion
that was lost or a serving lease that is never returned holds the runtime up to the expiry
and no longer.
-/

namespace Anemoi

open Systems

namespace TransitionCoordinator

/-- The active transition is what `install` stores for the request, its serving leases apart. -/
structure StandsFor (leaseTtlMs : UInt64) (req : TransitionRequest) (nowMs : UInt64)
    (a : ActiveTransition) : Prop where
  runtime_eq : a.runtimeId = req.runtimeId
  group_eq : a.residencyGroupId = req.residencyGroupId
  model_eq : a.desiredModel = req.desiredModel
  owner_eq : a.ownerInstance = req.ownerInstance
  priority_eq : a.priority = req.priority
  interactive_eq : a.interactive = req.interactive
  expiry_eq : a.leaseExpiresAtMs = nowMs + leaseTtlMs

/-- The request was admitted at `nowMs` in a step of the log under `token`, and none of the
steps since has ended its transition. -/
structure Tenure (log : List Step) (req : TransitionRequest) (nowMs token : UInt64)
    (since : List Step) : Prop where
  admitted : ∃ earlier s, log = earlier ++ s :: since ∧
    s.input = .requestTransition req nowMs ∧ issuedBy s = some token
  unended : ∀ s ∈ since, ¬Ends req.runtimeId token s

/-- A holder has taken a serving lease on the runtime in one of the steps. -/
def Served (r : RuntimeId) (steps : List Step) : Prop :=
  ∃ s ∈ steps, s.input = .acquireServingLease r

/-- `TurnedAway req owner token since path`: the request is answered with `path` because
`owner` has the runtime under `token`, the steps since its admission being `since`. -/
inductive TurnedAway (req owner : TransitionRequest) (token : UInt64) (since : List Step) :
    TransitionPath → Prop
  | joins (hmodel : owner.desiredModel = req.desiredModel) :
      TurnedAway req owner token since (.joined token)
  | hot (model : ModelId) (hmodel : owner.desiredModel ≠ req.desiredModel)
      (hinteractive : req.interactive = true) (hhot : req.hotCompatibleModel = some model) :
      TurnedAway req owner token since (.servedHot model)
  | blocked (hmodel : owner.desiredModel ≠ req.desiredModel)
      (hbackground : req.background = true) :
      TurnedAway req owner token since (.rejected owner.ownerInstance)
  | loses (hmodel : owner.desiredModel ≠ req.desiredModel) (hbackground : req.background = false)
      (hloses : Served req.runtimeId since ∨
        req.ownerInstance ≠ owner.ownerInstance ∧ ¬owner.precedence < req.precedence) :
      TurnedAway req owner token since (.rejected owner.ownerInstance)

/-- The request is admitted: it gets the next token, and its transition owns the runtime. -/
structure Admits (c : TransitionCoordinator) (req : TransitionRequest) (nowMs : UInt64) :
    Prop where
  issued : (c.requestTransition req nowMs).1.path.issued = some c.nextFencingToken
  active : (c.requestTransition req nowMs).2.activeTransition req.runtimeId =
    some (c.installed req nowMs)

section Tenure

variable {log since : List Step} {req : TransitionRequest} {nowMs token leaseTtlMs : UInt64}
  {s : Step} {r : RuntimeId}

theorem Tenure.cons (h : Tenure log req nowMs token since)
    (hs : ¬Ends req.runtimeId token s) : Tenure (log ++ [s]) req nowMs token (since ++ [s]) := by
  obtain ⟨earlier, t, hlog, hrest⟩ := h.admitted
  refine ⟨⟨earlier, t, by rw [hlog, List.append_assoc, List.cons_append], hrest⟩, ?_⟩
  intro u hu
  rcases List.mem_append.mp hu with hsince | hlast
  · exact h.unended u hsince
  · rw [List.mem_singleton.mp hlast]
    exact hs

theorem tenure_last (hinput : s.input = .requestTransition req nowMs)
    (hissued : issuedBy s = some token) : Tenure (log ++ [s]) req nowMs token [] :=
  ⟨⟨log, s, rfl, hinput, hissued⟩, fun _ h => (List.not_mem_nil h).elim⟩

theorem Served.append (h : Served r since) (later : List Step) : Served r (since ++ later) := by
  obtain ⟨t, ht, hinput⟩ := h
  exact ⟨t, List.mem_append_left _ ht, hinput⟩

theorem standsFor_installed (c : TransitionCoordinator) (req : TransitionRequest)
    (nowMs : UInt64) : StandsFor c.leaseTtlMs req nowMs (c.installed req nowMs) :=
  ⟨rfl, rfl, rfl, rfl, rfl, rfl, rfl⟩

theorem StandsFor.addLease {a : ActiveTransition} (h : StandsFor leaseTtlMs req nowMs a) :
    StandsFor leaseTtlMs req nowMs a.addLease :=
  ⟨h.runtime_eq, h.group_eq, h.model_eq, h.owner_eq, h.priority_eq, h.interactive_eq,
    h.expiry_eq⟩

theorem StandsFor.dropLease {a : ActiveTransition} (h : StandsFor leaseTtlMs req nowMs a) :
    StandsFor leaseTtlMs req nowMs a.dropLease :=
  ⟨h.runtime_eq, h.group_eq, h.model_eq, h.owner_eq, h.priority_eq, h.interactive_eq,
    h.expiry_eq⟩

theorem StandsFor.precedence_eq {a : ActiveTransition} (h : StandsFor leaseTtlMs req nowMs a) :
    a.precedence = req.precedence := by
  rw [ActiveTransition.precedence, TransitionRequest.precedence, h.owner_eq, h.priority_eq,
    h.interactive_eq]

end Tenure

/-! ### Every transition has a request behind it -/

/-- What the invariant says of one active transition: the request it stands for, and that
nobody serves from it unless a lease was taken since. -/
structure Accountable (leaseTtlMs : UInt64) (log : List Step) (a : ActiveTransition)
    (req : TransitionRequest) (nowMs : UInt64) (since : List Step) : Prop where
  stands : StandsFor leaseTtlMs req nowMs a
  tenure : Tenure log req nowMs a.fencingToken since
  served : 0 < a.servingLeases → Served req.runtimeId since

/-- How the active transition of a runtime comes about in a step. -/
inductive Succeeds (c : TransitionCoordinator) (call : Call) (r : RuntimeId) :
    ActiveTransition → Prop
  | installs (req : TransitionRequest) (nowMs : UInt64)
      (hcall : call = .requestTransition req nowMs) (hruntime : req.runtimeId = r)
      (hissued : (c.requestTransition req nowMs).1.path.issued = some c.nextFencingToken) :
      Succeeds c call r (c.installed req nowMs)
  | keeps (a : ActiveTransition) (ha : c.activeTransition r = some a)
      (hends : ¬Ends r a.fencingToken (Machine.record step c call)) : Succeeds c call r a
  | adds (a : ActiveTransition) (ha : c.activeTransition r = some a)
      (hcall : call = .acquireServingLease r) : Succeeds c call r a.addLease
  | drops (a : ActiveTransition) (ha : c.activeTransition r = some a)
      (hcall : call = .releaseServingLease r) : Succeeds c call r a.dropLease

section Succeeds

variable {c : TransitionCoordinator} {r : RuntimeId} {a : ActiveTransition}

theorem not_ends_of_ne {call : Call} {token : UInt64} (h : call.runtimeId ≠ r) :
    ¬Ends r token (Machine.record step c call) :=
  fun hends => h hends.1

/-- A request installs its transition under a new token, or changes nothing. -/
theorem succeeds_requestTransition {req : TransitionRequest} {nowMs : UInt64}
    (h : (c.requestTransition req nowMs).2.activeTransition req.runtimeId = some a) :
    Succeeds c (.requestTransition req nowMs) req.runtimeId a := by
  have harb := arbitration_requestTransition c req nowMs
  have hissued : (c.requestTransition req nowMs).2 = (c.install req nowMs).2 →
      (c.requestTransition req nowMs).1.path.issued = some c.nextFencingToken →
        Succeeds c (.requestTransition req nowMs) req.runtimeId a := by
    intro heq hpath
    rw [heq, activeTransition_install, if_pos rfl, Option.some.injEq] at h
    exact h ▸ .installs req nowMs rfl rfl hpath
  have hkept : (c.requestTransition req nowMs).2 = c →
      (c.requestTransition req nowMs).1.path.issued = none →
        Succeeds c (.requestTransition req nowMs) req.runtimeId a := by
    intro heq hpath
    rw [heq] at h
    refine .keeps a h fun hends => ?_
    rcases hends.2 with haccepted | hover
    · cases haccepted
    · -- what is taken over gives way to a token that is issued
      simp only [overtakenBy, Machine.record, step] at hover
      revert hover hpath
      cases (c.requestTransition req nowMs).1 with
      | mk path reasons rejected => cases path <;> simp [TransitionPath.issued]
  generalize (c.requestTransition req nowMs).1.path = path at harb hissued hkept
  generalize (c.requestTransition req nowMs).2 = c' at harb hissued hkept
  cases harb with
  | unavailable | joins | hot | blocked | loses => exact hkept rfl rfl
  | fresh => exact hissued rfl (by cases req.background <;> rfl)
  | expired | wins => exact hissued rfl rfl

theorem succeeds_complete {runtimeId : RuntimeId} {token : UInt64}
    (h : (c.complete runtimeId token).2.activeTransition runtimeId = some a) :
    Succeeds c (.complete runtimeId token) runtimeId a := by
  obtain ⟨b, hb, hpresented, heq⟩ | ⟨hother, heq⟩ := complete_cases c runtimeId token
  · rw [heq, activeTransition, AList.lookup_erase] at h
    cases h
  · rw [heq] at h
    refine .keeps a h fun hends => ?_
    rcases hends.2 with haccepted | hover
    · simp [acceptedBy, Machine.record, step, heq] at haccepted
    · simp [overtakenBy, Machine.record, step] at hover

theorem succeeds_step {call : Call} (h : (step c call).2.activeTransition r = some a) :
    Succeeds c call r a := by
  by_cases hcall : call.runtimeId = r
  · cases call with
    | requestTransition req nowMs =>
        obtain rfl : req.runtimeId = r := hcall
        exact succeeds_requestTransition h
    | acquireServingLease runtimeId =>
        obtain rfl : runtimeId = r := hcall
        change (c.acquireServingLease runtimeId).2.activeTransition runtimeId = _ at h
        rw [activeTransition_acquireServingLease, if_pos rfl] at h
        obtain ⟨b, hb, rfl⟩ := Option.map_eq_some_iff.mp h
        exact .adds b hb rfl
    | releaseServingLease runtimeId =>
        obtain rfl : runtimeId = r := hcall
        change (c.releaseServingLease runtimeId).activeTransition runtimeId = _ at h
        rw [activeTransition_releaseServingLease, if_pos rfl] at h
        obtain ⟨b, hb, rfl⟩ := Option.map_eq_some_iff.mp h
        exact .drops b hb rfl
    | complete runtimeId token =>
        obtain rfl : runtimeId = r := hcall
        exact succeeds_complete h
  · rw [activeTransition_step_of_ne (Ne.symm hcall)] at h
    exact .keeps a h (not_ends_of_ne hcall)

end Succeeds

/-- The invariant of a run, for the calls so far. -/
def AllAccountable (leaseTtlMs : UInt64) (log : List Step) (c : TransitionCoordinator) : Prop :=
  ∀ r a, c.activeTransition r = some a →
    ∃ req nowMs since, req.runtimeId = r ∧ Accountable leaseTtlMs log a req nowMs since

section AllAccountable

variable {leaseTtlMs : UInt64} {log : List Step} {c : TransitionCoordinator}

/-- A lease taken or returned does not end the transition it is on. -/
theorem not_ends_of_lease {call : Call} {r : RuntimeId} {token : UInt64}
    (hcall : call = .acquireServingLease r ∨ call = .releaseServingLease r) :
    ¬Ends r token (Machine.record step c call) := by
  rintro ⟨-, haccepted | hover⟩
  · obtain rfl | rfl := hcall <;> cases haccepted
  · obtain rfl | rfl := hcall <;> cases hover

theorem servingLeases_of_dropLease {a : ActiveTransition} (h : 0 < a.dropLease.servingLeases) :
    0 < a.servingLeases := by
  by_contra hzero
  have heq : a.servingLeases = 0 := UInt32.le_antisymm (UInt32.not_lt.mp hzero) (UInt32.zero_le)
  rw [ActiveTransition.dropLease, if_pos heq] at h
  exact UInt32.lt_irrefl _ h

theorem allAccountable_step (httl : c.leaseTtlMs = leaseTtlMs)
    (h : AllAccountable leaseTtlMs log c) (call : Call) :
    AllAccountable leaseTtlMs (log ++ [Machine.record step c call]) (step c call).2 := by
  intro r a ha
  cases succeeds_step ha with
  | installs req nowMs hcall hruntime hissued =>
      subst hcall
      refine ⟨req, nowMs, [], hruntime, httl ▸ standsFor_installed c req nowMs,
        tenure_last rfl hissued, fun hleases => ?_⟩
      exact absurd hleases (UInt32.lt_irrefl 0)
  | keeps _ hbefore hends =>
      obtain ⟨req, nowMs, since, hruntime, hacc⟩ := h r a hbefore
      subst hruntime
      exact ⟨req, nowMs, _, rfl, hacc.stands, hacc.tenure.cons hends,
        fun hleases => (hacc.served hleases).append _⟩
  | adds b hbefore hcall =>
      obtain ⟨req, nowMs, since, hruntime, hacc⟩ := h r b hbefore
      subst hruntime
      refine ⟨req, nowMs, _, rfl, hacc.stands.addLease,
        hacc.tenure.cons (not_ends_of_lease (.inl hcall)), fun _ => ?_⟩
      exact ⟨_, List.mem_append_right _ (List.mem_singleton_self _), hcall⟩
  | drops b hbefore hcall =>
      obtain ⟨req, nowMs, since, hruntime, hacc⟩ := h r b hbefore
      subst hruntime
      exact ⟨req, nowMs, _, rfl, hacc.stands.dropLease,
        hacc.tenure.cons (not_ends_of_lease (.inr hcall)),
        fun hleases => (hacc.served (servingLeases_of_dropLease hleases)).append _⟩

theorem allAccountable_reached (leaseTtlMs : UInt64) (calls : List Call) :
    (reached leaseTtlMs calls).leaseTtlMs = leaseTtlMs ∧
      AllAccountable leaseTtlMs (history leaseTtlMs calls) (reached leaseTtlMs calls) := by
  refine Machine.invariant_logFrom step
    (I := fun log c => c.leaseTtlMs = leaseTtlMs ∧ AllAccountable leaseTtlMs log c)
    (fun log c call h => ?_) ⟨rfl, fun _ _ ha => by cases ha⟩ calls
  exact ⟨(leaseTtlMs_step c call).trans h.1, allAccountable_step h.1 h.2 call⟩

end AllAccountable

/-! ### Answers -/

section Answers

variable {leaseTtlMs : UInt64} {log since : List Step} {c : TransitionCoordinator}
  {req owner : TransitionRequest} {nowMs nowMs' : UInt64} {a : ActiveTransition}

/-- Losing to a transition that nobody serves from is losing to the request behind it. -/
theorem served_or_outranked (hacc : Accountable leaseTtlMs log a owner nowMs since)
    (hruntime : owner.runtimeId = req.runtimeId) (hloses : incomingWins req a = false) :
    Served req.runtimeId since ∨
      req.ownerInstance ≠ owner.ownerInstance ∧ ¬owner.precedence < req.precedence := by
  by_cases hleases : 0 < a.servingLeases
  · exact .inl (hruntime ▸ hacc.served hleases)
  · have hzero : a.servingLeases = 0 :=
      UInt32.le_antisymm (UInt32.not_lt.mp hleases) UInt32.zero_le
    have howner : req.ownerInstance ≠ a.ownerInstance := by
      intro heq
      unfold incomingWins at hloses
      rw [if_neg hleases, if_pos heq] at hloses
      cases hloses
    refine .inr ⟨hacc.stands.owner_eq ▸ howner, fun hlt => ?_⟩
    rw [← hacc.stands.precedence_eq] at hlt
    rw [(incomingWins_iff hzero howner).mpr hlt] at hloses
    cases hloses

/-- A lease that has not expired was installed less than its length ago. -/
theorem toNat_lt_of_lease {ttl : UInt64} (h : nowMs < nowMs' + ttl) :
    nowMs.toNat < nowMs'.toNat + ttl.toNat := by
  rw [UInt64.lt_iff_toNat_lt, UInt64.toNat_add] at h
  exact h.trans_le (Nat.mod_le _ _)

theorem admits_of_install (hissued : (c.requestTransition req nowMs).1.path.issued =
      some c.nextFencingToken)
    (hafter : (c.requestTransition req nowMs).2 = (c.install req nowMs).2) :
    c.Admits req nowMs :=
  ⟨hissued, by rw [hafter, activeTransition_install, if_pos rfl]⟩

/-- The owner of the runtime answers for every request that is not admitted. -/
theorem admits_or_turnedAway (h : AllAccountable leaseTtlMs log c) (req : TransitionRequest)
    (nowMs : UInt64) (havailable : req.runtimeAvailable = true) :
    c.Admits req nowMs ∨
      ∃ owner nowMs' token since, owner.runtimeId = req.runtimeId ∧
        Tenure log owner nowMs' token since ∧
        nowMs.toNat < nowMs'.toNat + leaseTtlMs.toNat ∧
        TurnedAway req owner token since (c.requestTransition req nowMs).1.path := by
  have hadmits : (c.requestTransition req nowMs).1.path.issued = some c.nextFencingToken →
      (c.requestTransition req nowMs).2 = (c.install req nowMs).2 → c.Admits req nowMs :=
    admits_of_install
  -- the unexpired transition met in the other branches has its request behind it
  have hturned : ∀ a, c.activeTransition req.runtimeId = some a → nowMs < a.leaseExpiresAtMs →
      (∀ owner nowMs' since, owner.runtimeId = req.runtimeId →
        Accountable leaseTtlMs log a owner nowMs' since →
          TurnedAway req owner a.fencingToken since (c.requestTransition req nowMs).1.path) →
      ∃ owner nowMs' token since, owner.runtimeId = req.runtimeId ∧
        Tenure log owner nowMs' token since ∧
        nowMs.toNat < nowMs'.toNat + leaseTtlMs.toNat ∧
        TurnedAway req owner token since (c.requestTransition req nowMs).1.path := by
    intro a ha hlease hwhy
    obtain ⟨owner, nowMs', since, hruntime, hacc⟩ := h _ a ha
    rw [hacc.stands.expiry_eq] at hlease
    exact ⟨owner, nowMs', a.fencingToken, since, hruntime, hacc.tenure,
      toNat_lt_of_lease hlease, hwhy owner nowMs' since hruntime hacc⟩
  have harb := arbitration_requestTransition c req nowMs
  generalize (c.requestTransition req nowMs).1.path = path at harb hadmits hturned ⊢
  generalize (c.requestTransition req nowMs).2 = c' at harb hadmits
  cases harb with
  | unavailable h =>
      rw [havailable] at h
      cases h
  | fresh => exact .inl (hadmits (by cases req.background <;> rfl) rfl)
  | expired | wins => exact .inl (hadmits rfl rfl)
  | joins a _ hsome hlease hmodel =>
      exact .inr (hturned a hsome hlease fun _ _ _ _ hacc =>
        .joins (hacc.stands.model_eq ▸ hmodel))
  | hot a model _ hsome hlease hmodel hhot =>
      refine .inr (hturned a hsome hlease fun _ _ _ _ hacc => ?_)
      unfold hotFallback at hhot
      by_cases hinteractive : req.interactive = true
      · rw [if_pos hinteractive] at hhot
        exact .hot model (hacc.stands.model_eq ▸ hmodel) hinteractive hhot
      · rw [if_neg hinteractive] at hhot
        cases hhot
  | blocked a _ hsome hlease hmodel _ hbackground =>
      refine .inr (hturned a hsome hlease fun _ _ _ _ hacc => ?_)
      rw [hacc.stands.owner_eq]
      exact .blocked (hacc.stands.model_eq ▸ hmodel) hbackground
  | loses a _ hsome hlease hmodel _ hbackground hloses =>
      refine .inr (hturned a hsome hlease fun _ _ _ hruntime hacc => ?_)
      rw [hacc.stands.owner_eq]
      exact .loses (hacc.stands.model_eq ▸ hmodel) hbackground
        (served_or_outranked hacc hruntime hloses)

end Answers

/-- In every run, a request for an available runtime is admitted or turned away by an earlier
request for the runtime: one that was admitted less than a lease ago, whose transition has not
been ended since, and on whose account the answer is given. -/
theorem turned_away_by_owner (leaseTtlMs : UInt64) (calls : List Call) (req : TransitionRequest)
    (nowMs : UInt64) :
    (req.runtimeAvailable = false ∧
        ((reached leaseTtlMs calls).requestTransition req nowMs).1.path = .runtimeUnavailable) ∨
      (reached leaseTtlMs calls).Admits req nowMs ∨
      ∃ owner nowMs' token since, owner.runtimeId = req.runtimeId ∧
        Tenure (history leaseTtlMs calls) owner nowMs' token since ∧
        nowMs.toNat < nowMs'.toNat + leaseTtlMs.toNat ∧
        TurnedAway req owner token since
          ((reached leaseTtlMs calls).requestTransition req nowMs).1.path := by
  cases havailable : req.runtimeAvailable with
  | false =>
      refine .inl ⟨rfl, ?_⟩
      unfold requestTransition
      rw [havailable]
      rfl
  | true =>
      exact .inr (admits_or_turnedAway (allAccountable_reached leaseTtlMs calls).2 req nowMs
        havailable)

/-- The runtime and the time of the request that the step admits. -/
def admissionOf (s : Step) : Option (RuntimeId × UInt64) :=
  match s.input, issuedBy s with
  | .requestTransition req nowMs, some _ => some (req.runtimeId, nowMs)
  | _, _ => none

/-- No request was admitted to the runtime within the last lease. -/
def Quiet (leaseTtlMs : UInt64) (log : List Step) (r : RuntimeId) (nowMs : UInt64) : Prop :=
  ∀ s ∈ log, ∀ admission ∈ admissionOf s, admission.1 = r →
    admission.2.toNat + leaseTtlMs.toNat ≤ nowMs.toNat

instance (leaseTtlMs : UInt64) (log : List Step) (r : RuntimeId) (nowMs : UInt64) :
    Decidable (Quiet leaseTtlMs log r nowMs) :=
  inferInstanceAs (Decidable (∀ s ∈ log, ∀ admission ∈ admissionOf s, _))

theorem admissionOf_eq {s : Step} {req : TransitionRequest} {nowMs token : UInt64}
    (hinput : s.input = .requestTransition req nowMs) (hissued : issuedBy s = some token) :
    admissionOf s = some (req.runtimeId, nowMs) := by
  unfold admissionOf
  rw [hinput, hissued]

/-- Nothing keeps a runtime longer than a lease: with nobody admitted to it within the last
one, whoever asks for it next is admitted, whatever has become of the owners, their
completions and the serving leases on their transitions. -/
theorem admitted_of_quiet (leaseTtlMs : UInt64) (calls : List Call) (req : TransitionRequest)
    (nowMs : UInt64) (havailable : req.runtimeAvailable = true)
    (hquiet : Quiet leaseTtlMs (history leaseTtlMs calls) req.runtimeId nowMs) :
    (reached leaseTtlMs calls).Admits req nowMs := by
  rcases admits_or_turnedAway (allAccountable_reached leaseTtlMs calls).2 req nowMs havailable
    with hadmits | ⟨owner, nowMs', token, since, hruntime, htenure, hlease, -⟩
  · exact hadmits
  · obtain ⟨earlier, s, hlog, hinput, hissued⟩ := htenure.admitted
    have hmem : s ∈ history leaseTtlMs calls := by
      rw [hlog]
      exact List.mem_append_right _ List.mem_cons_self
    have hover := hquiet s hmem _ (admissionOf_eq hinput hissued) hruntime
    exact absurd hlease (Nat.not_lt.mpr hover)

/-- An owner was served from and died, and requests went on coming in; when its lease is over
the next one is admitted. -/
def deadOwnerRun : List Call :=
  [.requestTransition (sampleRequest "inst-a" "qwen9b") 0,
   .acquireServingLease ⟨"rt"⟩,
   .requestTransition (sampleRequest "inst-b" "qwen35b") 900,
   .requestTransition (sampleRequest "inst-c" "qwen9b") 990]

theorem admitted_deadOwnerRun :
    (reached 1000 deadOwnerRun).Admits (sampleRequest "inst-b" "qwen35b") 1000 :=
  admitted_of_quiet 1000 deadOwnerRun (sampleRequest "inst-b" "qwen35b") 1000 (by decide)
    (by decide)

end TransitionCoordinator

end Anemoi
