import Anemoi.Policy.Transition.Fencing

/-!
# Serving leases

A holder that serves from the model of the active transition takes a serving lease
on the runtime, and a transition with serving leases must not be displaced. The
coordinator keeps only a count, so `Ledger` runs it beside the book that the
holders could keep: who took which lease under which fencing token.

Two paths displace a transition that has leases. An expired owner is taken over
without a look at the count, and `releaseServingLease` names a runtime but no
token, so a late release is charged to whichever transition is active by then.
-/

namespace Anemoi

open Systems

/-- What a serving lease protects: owner, model, fencing token and the count. -/
def ActiveTransition.protectedPart (a : ActiveTransition) :
    String × ModelId × UInt64 × UInt32 :=
  (a.ownerInstance, a.desiredModel, a.fencingToken, a.servingLeases)

def ActiveTransition.addLease (a : ActiveTransition) : ActiveTransition :=
  { a with servingLeases := a.servingLeases + 1 }

def ActiveTransition.dropLease (a : ActiveTransition) : ActiveTransition :=
  { a with servingLeases := if a.servingLeases = 0 then 0 else a.servingLeases - 1 }

@[simp] theorem ActiveTransition.addLease_fencingToken (a : ActiveTransition) :
    a.addLease.fencingToken = a.fencingToken := rfl

@[simp] theorem ActiveTransition.dropLease_fencingToken (a : ActiveTransition) :
    a.dropLease.fencingToken = a.fencingToken := rfl

namespace TransitionCoordinator

/-! ### The active transition of a runtime after each call -/

theorem text_eq_iff {r r' : RuntimeId} : r.text = r'.text ↔ r = r' := by
  cases r
  cases r'
  exact ⟨fun h => congrArg RuntimeId.mk h, fun h => congrArg RuntimeId.text h⟩

theorem activeTransition_install (c : TransitionCoordinator) (req : TransitionRequest)
    (nowMs : UInt64) (r : RuntimeId) :
    (c.install req nowMs).2.activeTransition r =
      if r = req.runtimeId then some (c.installed req nowMs) else c.activeTransition r := by
  rw [activeTransition, lookup_install]
  simp only [text_eq_iff, activeTransition]

theorem acquireServingLease_of_none {c : TransitionCoordinator} {runtimeId : RuntimeId}
    (h : c.activeTransition runtimeId = none) : c.acquireServingLease runtimeId = (false, c) := by
  rw [activeTransition] at h
  simp only [acquireServingLease, h]

theorem acquireServingLease_of_some {c : TransitionCoordinator} {runtimeId : RuntimeId}
    {a : ActiveTransition} (h : c.activeTransition runtimeId = some a) :
    c.acquireServingLease runtimeId =
      (true, { c with active := c.active.insert runtimeId.text a.addLease }) := by
  rw [activeTransition] at h
  simp only [acquireServingLease, h]
  rfl

theorem releaseServingLease_of_none {c : TransitionCoordinator} {runtimeId : RuntimeId}
    (h : c.activeTransition runtimeId = none) : c.releaseServingLease runtimeId = c := by
  rw [activeTransition] at h
  simp only [releaseServingLease, h]

theorem releaseServingLease_of_some {c : TransitionCoordinator} {runtimeId : RuntimeId}
    {a : ActiveTransition} (h : c.activeTransition runtimeId = some a) :
    c.releaseServingLease runtimeId =
      { c with active := c.active.insert runtimeId.text a.dropLease } := by
  rw [activeTransition] at h
  simp only [releaseServingLease, h]
  rfl

/-- A call that rewrites the entry of one runtime, if there is one. -/
theorem activeTransition_rewritten {c c' : TransitionCoordinator} {runtimeId : RuntimeId}
    {f : ActiveTransition → ActiveTransition}
    (hnone : c.activeTransition runtimeId = none → c' = c)
    (hsome : ∀ a, c.activeTransition runtimeId = some a →
      c' = { c with active := c.active.insert runtimeId.text (f a) }) (r : RuntimeId) :
    c'.activeTransition r =
      if r = runtimeId then (c.activeTransition r).map f else c.activeTransition r := by
  by_cases hr : r = runtimeId
  · rw [if_pos hr, hr]
    cases h : c.activeTransition runtimeId with
    | none =>
        rw [hnone h, h]
        rfl
    | some a =>
        rw [hsome a h, activeTransition, AList.lookup_insert]
        rfl
  · rw [if_neg hr]
    cases h : c.activeTransition runtimeId with
    | none => rw [hnone h]
    | some a =>
        rw [hsome a h, activeTransition, AList.lookup_insert_ne (mt text_eq_iff.mp hr)]
        rfl

theorem activeTransition_acquireServingLease (c : TransitionCoordinator)
    (runtimeId r : RuntimeId) :
    (c.acquireServingLease runtimeId).2.activeTransition r =
      if r = runtimeId then (c.activeTransition r).map ActiveTransition.addLease
      else c.activeTransition r :=
  activeTransition_rewritten (fun h => by rw [acquireServingLease_of_none h])
    (fun a h => by rw [acquireServingLease_of_some h]) r

theorem activeTransition_releaseServingLease (c : TransitionCoordinator)
    (runtimeId r : RuntimeId) :
    (c.releaseServingLease runtimeId).activeTransition r =
      if r = runtimeId then (c.activeTransition r).map ActiveTransition.dropLease
      else c.activeTransition r :=
  activeTransition_rewritten releaseServingLease_of_none
    (fun _ h => releaseServingLease_of_some h) r

/-- Completing a transition leaves a runtime its transition or none. -/
theorem activeTransition_complete {c : TransitionCoordinator} {runtimeId r : RuntimeId}
    {token : UInt64} {a : ActiveTransition}
    (h : (c.complete runtimeId token).2.activeTransition r = some a) :
    c.activeTransition r = some a := by
  obtain ⟨b, -, -, heq⟩ | ⟨-, heq⟩ := complete_cases c runtimeId token
  · rw [heq, activeTransition, AList.lookup_erase_eq_ite] at h
    by_cases hr : r.text = runtimeId.text
    · rw [if_pos hr] at h
      cases h
    · rw [if_neg hr] at h
      exact h
  · rw [heq] at h
    exact h

/-! ### Requests against a transition with leases -/

/-- A request that is turned away or joins leaves the coordinator as it was; any
other one installs its own transition. -/
theorem requestTransition_snd_cases (c : TransitionCoordinator) (req : TransitionRequest)
    (nowMs : UInt64) :
    (c.requestTransition req nowMs).2 = c ∨
      (c.requestTransition req nowMs).2 = (c.install req nowMs).2 := by
  have harb := arbitration_requestTransition c req nowMs
  generalize (c.requestTransition req nowMs).1.path = path at harb
  generalize (c.requestTransition req nowMs).2 = c' at harb ⊢
  cases harb with
  | unavailable | joins | hot | blocked | loses => exact Or.inl rfl
  | fresh | expired | wins => exact Or.inr rfl

/-- A transition that has leases does not lose a conflict. -/
theorem incomingWins_of_servingLeases {req : TransitionRequest} {a : ActiveTransition}
    (h : 0 < a.servingLeases) : incomingWins req a = false := by
  unfold incomingWins
  rw [if_pos h]

theorem requestTransition_keeps_of_lease {c : TransitionCoordinator} {req : TransitionRequest}
    {nowMs : UInt64} {a : ActiveTransition}
    (hactive : c.activeTransition req.runtimeId = some a) (hleases : 0 < a.servingLeases)
    (hlease : req.runtimeAvailable → nowMs < a.leaseExpiresAtMs) :
    (c.requestTransition req nowMs).2 = c := by
  have harb := arbitration_requestTransition c req nowMs
  generalize (c.requestTransition req nowMs).1.path = path at harb
  generalize (c.requestTransition req nowMs).2 = c' at harb ⊢
  cases harb with
  | unavailable | joins | hot | blocked | loses => rfl
  | fresh _ hnone =>
      rw [hactive] at hnone
      cases hnone
  | expired b havailable hsome hexpired =>
      rw [hactive, Option.some.injEq] at hsome
      rw [← hsome] at hexpired
      exact absurd (hlease havailable) (UInt64.not_lt.mpr hexpired)
  | wins b _ hsome _ _ _ _ hwins =>
      rw [hactive, Option.some.injEq] at hsome
      rw [← hsome, incomingWins_of_servingLeases hleases] at hwins
      cases hwins

/-- An expired owner is taken over, whatever leases its transition has. -/
theorem requestTransition_of_expired {c : TransitionCoordinator} {req : TransitionRequest}
    {nowMs : UInt64} {a : ActiveTransition}
    (hactive : c.activeTransition req.runtimeId = some a)
    (havailable : req.runtimeAvailable = true) (hexpired : a.leaseExpiresAtMs ≤ nowMs) :
    (c.requestTransition req nowMs).2 = (c.install req nowMs).2 := by
  have hlookup : c.active.lookup req.runtimeId.text = some a := hactive
  unfold requestTransition
  simp only [havailable, Bool.not_true, Bool.false_eq_true, if_false, hlookup, hexpired, if_true]
  rfl

/-- In a reached state, a request leaves a transition with serving leases alone
exactly when it cannot reach the branch for expired owners. -/
theorem protected_by_servingLeases_iff (leaseTtlMs : UInt64) (calls : List Call)
    (req : TransitionRequest) (nowMs : UInt64) {a : ActiveTransition}
    (hactive : (reached leaseTtlMs calls).activeTransition req.runtimeId = some a)
    (hleases : 0 < a.servingLeases) :
    (((reached leaseTtlMs calls).requestTransition req nowMs).2.activeTransition
        req.runtimeId).map ActiveTransition.protectedPart = some a.protectedPart ↔
      (req.runtimeAvailable → nowMs < a.leaseExpiresAtMs) := by
  constructor
  · intro hkept havailable
    by_contra hexpired
    rw [requestTransition_of_expired hactive havailable (UInt64.not_lt.mp hexpired),
      activeTransition_install, if_pos rfl, Option.map_some, Option.some.injEq] at hkept
    -- the transition installed instead has no leases
    have hnone : (0 : UInt32) = a.servingLeases := congrArg (fun p => p.2.2.2) hkept
    rw [← hnone] at hleases
    exact UInt32.lt_irrefl _ hleases
  · intro hlease
    rw [requestTransition_keeps_of_lease hactive hleases hlease, hactive]
    rfl

/-- An owner starts a transition and a holder serves from its model. -/
def servedRun : List Call :=
  [.requestTransition (sampleRequest "inst-a" "qwen9b") 0, .acquireServingLease ⟨"rt"⟩]

/-- What the active transition of `rt` is after `servedRun`. -/
def servedTransition : ActiveTransition :=
  ((new 1000).installed (sampleRequest "inst-a" "qwen9b") 0).addLease

theorem protected_servedRun :
    (((reached 1000 servedRun).requestTransition (sampleRequest "inst-b" "qwen35b")
        999).2.activeTransition ⟨"rt"⟩).map ActiveTransition.protectedPart =
      some servedTransition.protectedPart :=
  (protected_by_servingLeases_iff 1000 servedRun (sampleRequest "inst-b" "qwen35b") 999
    (a := servedTransition) (by decide) (by decide)).mpr fun _ => by decide

/-- One millisecond later the lease of the owner has expired, and the same request
displaces the transition together with its serving lease. -/
theorem not_protected_by_servingLeases :
    ¬∀ (leaseTtlMs : UInt64) (calls : List Call) (req : TransitionRequest) (nowMs : UInt64)
      (a : ActiveTransition),
      (reached leaseTtlMs calls).activeTransition req.runtimeId = some a →
        0 < a.servingLeases →
        (((reached leaseTtlMs calls).requestTransition req nowMs).2.activeTransition
          req.runtimeId).map ActiveTransition.protectedPart = some a.protectedPart := by
  intro h
  have hkept := h 1000 servedRun (sampleRequest "inst-b" "qwen35b") 1000 servedTransition
    (by decide) (by decide)
  revert hkept
  decide

/-! ### The book of leases -/

variable {Holder : Type}

/-- A serving lease that was granted and is not released: who holds it, on which
runtime, and the token of the transition that was active when it was granted. -/
structure ServingLease (Holder : Type) where
  holder : Holder
  runtimeId : RuntimeId
  fencingToken : UInt64

/-- The coordinator, the holders that have called `acquireServingLease`, and the
leases that are out. -/
structure Ledger (Holder : Type) where
  coordinator : TransitionCoordinator
  callers : List Holder
  leases : List (ServingLease Holder)

namespace Ledger

def new (leaseTtlMs : UInt64) : Ledger Holder :=
  { coordinator := .new leaseTtlMs, callers := [], leases := [] }

/-- The leases out on a runtime under a token. -/
def leasesUnder (s : Ledger Holder) (r : RuntimeId) (token : UInt64) :
    List (ServingLease Holder) :=
  s.leases.filter fun l => l.runtimeId = r && l.fencingToken = token

/-- Book a lease if the runtime has an active transition. -/
def book (s : Ledger Holder) (holder : Holder) (runtimeId : RuntimeId) :
    List (ServingLease Holder) :=
  match s.coordinator.activeTransition runtimeId with
  | some a => ⟨holder, runtimeId, a.fencingToken⟩ :: s.leases
  | none => s.leases

/-- A call of a holder on the coordinator, with the book kept beside it. -/
def step [DecidableEq Holder] (s : Ledger Holder) : Holder × Call → Answer × Ledger Holder
  | (holder, .acquireServingLease runtimeId) =>
      let (answer, c') := s.coordinator.step (.acquireServingLease runtimeId)
      (answer,
        { coordinator := c'
          callers := holder :: s.callers
          leases := s.book holder runtimeId })
  | (holder, .releaseServingLease runtimeId) =>
      let (answer, c') := s.coordinator.step (.releaseServingLease runtimeId)
      (answer,
        { s with
          coordinator := c'
          leases := s.leases.filter fun l => l.holder ≠ holder })
  | (_, call) =>
      let (answer, c') := s.coordinator.step call
      (answer, { s with coordinator := c' })

abbrev Step (Holder : Type) := Record (Ledger Holder) (Holder × Call) Answer

def history [DecidableEq Holder] (leaseTtlMs : UInt64) (calls : List (Holder × Call)) :
    List (Step Holder) :=
  Machine.logFrom step (new leaseTtlMs) calls

def reached [DecidableEq Holder] (leaseTtlMs : UInt64) (calls : List (Holder × Call)) :
    Ledger Holder :=
  Machine.runFrom step (new leaseTtlMs) calls

/-- What holders keep to: each calls `acquireServingLease` at most once, and
`releaseServingLease` only for a lease it holds, on the same runtime. -/
def Disciplined (r : Step Holder) : Prop :=
  match r.input with
  | (holder, .acquireServingLease _) => holder ∉ r.before.callers
  | (holder, .releaseServingLease runtimeId) =>
      ∃ l ∈ r.before.leases, l.holder = holder ∧ l.runtimeId = runtimeId
  | _ => True

/-- What the count needs besides: a release finds the transition its lease was
granted under, no transition, or one without leases; no counter overflows. -/
def OnOwnTransition (r : Step Holder) : Prop :=
  match r.input with
  | (holder, .releaseServingLease runtimeId) =>
      ∀ a ∈ r.before.coordinator.activeTransition runtimeId, 0 < a.servingLeases →
        ∀ l ∈ r.before.leases, l.holder = holder → l.fencingToken = a.fencingToken
  | (_, .acquireServingLease runtimeId) =>
      ∀ a ∈ r.before.coordinator.activeTransition runtimeId,
        a.servingLeases.toNat + 1 < UInt32.size
  | (_, .requestTransition _ _) => r.before.coordinator.TokensRemain
  | (_, .complete _ _) => True

instance [DecidableEq Holder] (r : Step Holder) : Decidable (Disciplined r) :=
  match r with
  | ⟨before, (holder, .acquireServingLease _), _, _⟩ =>
      inferInstanceAs (Decidable (holder ∉ before.callers))
  | ⟨before, (holder, .releaseServingLease runtimeId), _, _⟩ =>
      inferInstanceAs
        (Decidable (∃ l ∈ before.leases, l.holder = holder ∧ l.runtimeId = runtimeId))
  | ⟨_, (_, .requestTransition _ _), _, _⟩ => isTrue trivial
  | ⟨_, (_, .complete _ _), _, _⟩ => isTrue trivial

instance [DecidableEq Holder] (r : Step Holder) : Decidable (OnOwnTransition r) :=
  match r with
  | ⟨before, (holder, .releaseServingLease runtimeId), _, _⟩ =>
      inferInstanceAs (Decidable (∀ a ∈ before.coordinator.activeTransition runtimeId,
        0 < a.servingLeases → ∀ l ∈ before.leases, l.holder = holder →
          l.fencingToken = a.fencingToken))
  | ⟨before, (_, .acquireServingLease runtimeId), _, _⟩ =>
      inferInstanceAs (Decidable (∀ a ∈ before.coordinator.activeTransition runtimeId,
        a.servingLeases.toNat + 1 < UInt32.size))
  | ⟨before, (_, .requestTransition _ _), _, _⟩ =>
      inferInstanceAs (Decidable before.coordinator.TokensRemain)
  | ⟨_, (_, .complete _ _), _, _⟩ => isTrue trivial

/-- The count of every active transition is the number of leases out under its token,
each with another holder. -/
def Accounted (s : Ledger Holder) : Prop :=
  ∀ r a, s.coordinator.activeTransition r = some a →
    a.servingLeases.toNat = (s.leasesUnder r a.fencingToken).length

/-- The invariant of a run: leases are out to distinct callers, under tokens that
were issued, and the counts agree with the book. -/
structure Balanced (s : Ledger Holder) : Prop where
  fenced : s.coordinator.Fenced
  nodup : (s.leases.map ServingLease.holder).Nodup
  called : ∀ l ∈ s.leases, l.holder ∈ s.callers
  token_lt : ∀ l ∈ s.leases, l.fencingToken < s.coordinator.nextFencingToken
  accounted : s.Accounted

theorem mem_leasesUnder {s : Ledger Holder} {r : RuntimeId} {token : UInt64}
    {l : ServingLease Holder} :
    l ∈ s.leasesUnder r token ↔ l ∈ s.leases ∧ l.runtimeId = r ∧ l.fencingToken = token := by
  rw [leasesUnder, List.mem_filter, Bool.and_eq_true, decide_eq_true_eq, decide_eq_true_eq]

theorem leasesUnder_eq_nil {s : Ledger Holder} {r : RuntimeId} {token : UInt64}
    (h : ∀ l ∈ s.leases, l.fencingToken ≠ token) : s.leasesUnder r token = [] := by
  rw [List.eq_nil_iff_forall_not_mem]
  intro l hl
  exact h l (mem_leasesUnder.mp hl).1 (mem_leasesUnder.mp hl).2.2

theorem balanced_new (leaseTtlMs : UInt64) : (new leaseTtlMs : Ledger Holder).Balanced where
  fenced := fenced_new leaseTtlMs
  nodup := List.nodup_nil
  called := fun _ h => nomatch h
  token_lt := fun _ h => nomatch h
  accounted := fun _ _ h => nomatch h

/-! ### What each call does to the books -/

/-- A new transition starts without leases, under a token that no lease carries. -/
theorem Balanced.install {s : Ledger Holder} (hs : s.Balanced)
    (h : s.coordinator.TokensRemain) (req : TransitionRequest) (nowMs : UInt64) :
    Balanced { s with coordinator := (s.coordinator.install req nowMs).2 } where
  fenced := hs.fenced.install h req nowMs
  nodup := hs.nodup
  called := hs.called
  token_lt := fun l hl => UInt64.lt_trans (hs.token_lt l hl) (next_lt_of_tokensRemain h)
  accounted := by
    intro r a ha
    rw [activeTransition_install] at ha
    by_cases hr : r = req.runtimeId
    · rw [if_pos hr, Option.some.injEq] at ha
      have hfresh : ∀ l ∈ s.leases, l.fencingToken ≠ a.fencingToken := by
        intro l hl
        rw [← ha]
        exact UInt64.ne_of_lt (hs.token_lt l hl)
      have hnone := leasesUnder_eq_nil (r := r) hfresh
      rw [leasesUnder] at hnone ⊢
      rw [hnone, ← ha]
      rfl
    · rw [if_neg hr] at ha
      exact hs.accounted r a ha

theorem Balanced.requestTransition {s : Ledger Holder} (hs : s.Balanced)
    (h : s.coordinator.TokensRemain) (req : TransitionRequest) (nowMs : UInt64) :
    Balanced { s with coordinator := (s.coordinator.requestTransition req nowMs).2 } := by
  rcases requestTransition_snd_cases s.coordinator req nowMs with heq | heq
  · rw [heq]
    exact hs
  · rw [heq]
    exact hs.install h req nowMs

theorem Balanced.complete {s : Ledger Holder} (hs : s.Balanced) (runtimeId : RuntimeId)
    (token : UInt64) :
    Balanced { s with coordinator := (s.coordinator.complete runtimeId token).2 } where
  fenced := (retouches_complete s.coordinator runtimeId token).fenced hs.fenced
  nodup := hs.nodup
  called := hs.called
  token_lt := by
    rw [(retouches_complete s.coordinator runtimeId token).next_eq]
    exact hs.token_lt
  accounted := fun r a ha => hs.accounted r a (activeTransition_complete ha)

theorem toNat_addLease {a : ActiveTransition}
    (h : a.servingLeases.toNat + 1 < UInt32.size) :
    a.addLease.servingLeases.toNat = a.servingLeases.toNat + 1 := by
  have hlt : a.servingLeases.toNat + 1 < 2 ^ 32 := h
  rw [ActiveTransition.addLease, UInt32.toNat_add, UInt32.toNat_one, Nat.mod_eq_of_lt hlt]

theorem toNat_dropLease (a : ActiveTransition) :
    a.dropLease.servingLeases.toNat = a.servingLeases.toNat - 1 := by
  unfold ActiveTransition.dropLease
  by_cases hzero : a.servingLeases = 0
  · simp [hzero]
  · have hpos : 1 ≤ a.servingLeases := UInt32.not_lt.mp fun hlt => hzero
      (UInt32.lt_one_iff.mp hlt)
    simp only [hzero, if_false]
    rw [UInt32.toNat_sub_of_le _ _ hpos, UInt32.toNat_one]

theorem book_of_none {s : Ledger Holder} {runtimeId : RuntimeId}
    (h : s.coordinator.activeTransition runtimeId = none) (holder : Holder) :
    s.book holder runtimeId = s.leases := by
  rw [book, h]

theorem book_of_some {s : Ledger Holder} {runtimeId : RuntimeId} {a : ActiveTransition}
    (h : s.coordinator.activeTransition runtimeId = some a) (holder : Holder) :
    s.book holder runtimeId = ⟨holder, runtimeId, a.fencingToken⟩ :: s.leases := by
  rw [book, h]

/-- A granted lease is one more entry under the token of the active transition, and
none under another. -/
theorem length_leasesUnder_granted {s : Ledger Holder} {coordinator : TransitionCoordinator}
    {callers : List Holder} {l : ServingLease Holder} (r : RuntimeId) (token : UInt64) :
    (leasesUnder ⟨coordinator, callers, l :: s.leases⟩ r token).length =
      if l.runtimeId = r ∧ l.fencingToken = token then (s.leasesUnder r token).length + 1
      else (s.leasesUnder r token).length := by
  rw [leasesUnder, leasesUnder]
  by_cases hown : l.runtimeId = r ∧ l.fencingToken = token
  · rw [if_pos hown, List.filter_cons_of_pos (by simpa using hown), List.length_cons]
  · rw [if_neg hown, List.filter_cons_of_neg (by simpa using hown)]

/-- A granted lease adds one to the count and one entry under the same token. -/
theorem Balanced.acquire {s : Ledger Holder} (hs : s.Balanced) {holder : Holder}
    {runtimeId : RuntimeId} (hcaller : holder ∉ s.callers)
    (hroom : ∀ a, s.coordinator.activeTransition runtimeId = some a →
      a.servingLeases.toNat + 1 < UInt32.size) :
    Balanced
      { coordinator := (s.coordinator.acquireServingLease runtimeId).2
        callers := holder :: s.callers
        leases := s.book holder runtimeId } := by
  have hcalled : ∀ l ∈ s.leases, l.holder ∈ holder :: s.callers := fun l hl =>
    List.mem_cons_of_mem holder (hs.called l hl)
  cases hactive : s.coordinator.activeTransition runtimeId with
  | none =>
      rw [book_of_none hactive, acquireServingLease_of_none hactive]
      exact ⟨hs.fenced, hs.nodup, hcalled, hs.token_lt, hs.accounted⟩
  | some b =>
      have hretouches := retouches_acquireServingLease s.coordinator runtimeId
      rw [book_of_some hactive]
      refine ⟨hretouches.fenced hs.fenced, ?_, ?_, ?_, ?_⟩
      · rw [List.map_cons, List.nodup_cons]
        refine ⟨fun hmem => ?_, hs.nodup⟩
        obtain ⟨l, hl, hholder⟩ := List.mem_map.mp hmem
        have hsame : l.holder = holder := hholder
        exact hcaller (hsame ▸ hs.called l hl)
      · rw [List.forall_mem_cons]
        exact ⟨List.mem_cons_self, hcalled⟩
      · rw [hretouches.next_eq, List.forall_mem_cons]
        exact ⟨hs.fenced.token_lt _ b hactive, hs.token_lt⟩
      · intro r a ha
        rw [activeTransition_acquireServingLease] at ha
        rw [length_leasesUnder_granted]
        by_cases hr : r = runtimeId
        · rw [if_pos hr, hr, hactive, Option.map_some, Option.some.injEq] at ha
          have hown : runtimeId = r ∧ b.fencingToken = a.fencingToken :=
            ⟨hr.symm, by rw [← ha, ActiveTransition.addLease_fencingToken]⟩
          rw [if_pos hown, ← hown.2, hr, ← hs.accounted runtimeId b hactive, ← ha,
            toNat_addLease (hroom b hactive)]
        · rw [if_neg hr] at ha
          rw [if_neg fun hown => hr hown.1.symm]
          exact hs.accounted r a ha

/-- Removing the entry of one key from a list with distinct keys shortens it by one. -/
theorem length_filter_key_ne {α κ : Type} [DecidableEq κ] {key : α → κ} {l : List α}
    (hnodup : (l.map key).Nodup) {a : α} (ha : a ∈ l) :
    (l.filter fun b => key b ≠ key a).length + 1 = l.length := by
  induction l with
  | nil => cases ha
  | cons b l ih =>
      rw [List.map_cons, List.nodup_cons] at hnodup
      by_cases hkey : key b = key a
      · rw [List.filter_cons_of_neg (by simp [hkey]), List.filter_eq_self.mpr, List.length_cons]
        intro c hc
        have hne : key c ≠ key a := fun heq =>
          hnodup.1 (hkey ▸ heq ▸ List.mem_map_of_mem hc)
        simpa using hne
      · have hmem : a ∈ l := (List.mem_cons.mp ha).resolve_left fun heq => hkey (heq ▸ rfl)
        rw [List.filter_cons_of_pos (by simpa using hkey), List.length_cons,
          ih hnodup.2 hmem, List.length_cons]

variable [DecidableEq Holder]

/-- The leases of `s` without those of a holder. -/
def returned (s : Ledger Holder) (holder : Holder) : Ledger Holder :=
  { s with leases := s.leases.filter fun l => l.holder ≠ holder }

/-- What a release does to the book: one entry less where the holder's lease is, and
no change elsewhere. -/
theorem length_leasesUnder_returned {s : Ledger Holder} (hs : s.Balanced)
    {l : ServingLease Holder} (hl : l ∈ s.leases) (r : RuntimeId) (token : UInt64) :
    (leasesUnder (s.returned l.holder) r token).length =
      if l.runtimeId = r ∧ l.fencingToken = token then (s.leasesUnder r token).length - 1
      else (s.leasesUnder r token).length := by
  have hcomm : leasesUnder (s.returned l.holder) r token =
      (s.leasesUnder r token).filter fun l' => l'.holder ≠ l.holder := by
    rw [leasesUnder, leasesUnder, returned, List.filter_comm]
  have hsub : ((s.leasesUnder r token).map ServingLease.holder).Nodup :=
    hs.nodup.sublist (List.filter_sublist.map _)
  rw [hcomm]
  by_cases hown : l.runtimeId = r ∧ l.fencingToken = token
  · have hshort := length_filter_key_ne hsub (mem_leasesUnder.mpr ⟨hl, hown⟩)
    rw [if_pos hown]
    omega
  · rw [if_neg hown, List.filter_eq_self.mpr]
    intro l' hl'
    obtain ⟨hmem, hunder⟩ := mem_leasesUnder.mp hl'
    have hne : l'.holder ≠ l.holder := by
      intro heq
      rw [List.inj_on_of_nodup_map hs.nodup hmem hl heq] at hunder
      exact hown hunder
    simpa using hne

/-- A release balances when the transition it is charged to is the one the lease was
granted under, or has no leases to lose. -/
theorem Balanced.release {s : Ledger Holder} (hs : s.Balanced) {l : ServingLease Holder}
    (hl : l ∈ s.leases)
    (hown : ∀ a, s.coordinator.activeTransition l.runtimeId = some a → 0 < a.servingLeases →
      l.fencingToken = a.fencingToken) :
    Balanced
      { s.returned l.holder with
        coordinator := s.coordinator.releaseServingLease l.runtimeId } := by
  have hretouches := retouches_releaseServingLease s.coordinator l.runtimeId
  have hsub : ∀ l' ∈ (s.returned l.holder).leases, l' ∈ s.leases := fun l' hl' =>
    List.mem_of_mem_filter hl'
  refine ⟨hretouches.fenced hs.fenced, hs.nodup.sublist (List.filter_sublist.map _),
    fun l' hl' => hs.called l' (hsub l' hl'), ?_, ?_⟩
  · rw [hretouches.next_eq]
    exact fun l' hl' => hs.token_lt l' (hsub l' hl')
  · intro r a ha
    have hcount := length_leasesUnder_returned hs hl r a.fencingToken
    rw [leasesUnder] at hcount ⊢
    rw [hcount]
    rw [activeTransition_releaseServingLease] at ha
    by_cases hr : r = l.runtimeId
    · rw [if_pos hr] at ha
      obtain ⟨b, hb, rfl⟩ := Option.map_eq_some_iff.mp ha
      rw [hr] at hb ⊢
      have hbefore := hs.accounted _ b hb
      rw [toNat_dropLease, ActiveTransition.dropLease_fencingToken, ← hbefore]
      by_cases hsame : l.fencingToken = b.fencingToken
      · rw [if_pos ⟨rfl, hsame⟩]
      · -- the transition is another one, so it has no leases and the count stays at zero
        have hzero : ¬0 < b.servingLeases := fun hpos => hsame (hown b hb hpos)
        rw [UInt32.lt_iff_toNat_lt, UInt32.toNat_zero] at hzero
        rw [if_neg fun h => hsame h.2]
        omega
    · rw [if_neg hr] at ha
      rw [if_neg fun h => hr h.1.symm]
      exact hs.accounted r a ha

/-- A release of a lease granted under another token than that of the active
transition leaves the count one short. -/
theorem not_accounted_release {s : Ledger Holder} (hs : s.Balanced) {l : ServingLease Holder}
    (hl : l ∈ s.leases) {a : ActiveTransition}
    (ha : s.coordinator.activeTransition l.runtimeId = some a) (hpos : 0 < a.servingLeases)
    (hother : l.fencingToken ≠ a.fencingToken) :
    ¬Accounted
      { s.returned l.holder with
        coordinator := s.coordinator.releaseServingLease l.runtimeId } := by
  intro h
  have hafter : (s.coordinator.releaseServingLease l.runtimeId).activeTransition l.runtimeId =
      some a.dropLease := by
    rw [activeTransition_releaseServingLease, if_pos rfl, ha]
    rfl
  have hcount := h l.runtimeId a.dropLease hafter
  have hbook := length_leasesUnder_returned hs hl l.runtimeId a.fencingToken
  have hbefore := hs.accounted l.runtimeId a ha
  rw [if_neg fun heq => hother heq.2] at hbook
  rw [leasesUnder] at hcount hbook
  rw [ActiveTransition.dropLease_fencingToken, hbook, toNat_dropLease, hbefore] at hcount
  rw [UInt32.lt_iff_toNat_lt, UInt32.toNat_zero] at hpos
  omega

/-! ### Whole runs -/

theorem balanced_step {s : Ledger Holder} (hs : s.Balanced) (call : Holder × Call)
    (hdisciplined : Disciplined (Machine.record step s call))
    (hown : OnOwnTransition (Machine.record step s call)) : (step s call).2.Balanced := by
  obtain ⟨holder, call⟩ := call
  cases call with
  | requestTransition req nowMs => exact hs.requestTransition hown req nowMs
  | complete runtimeId token => exact hs.complete runtimeId token
  | acquireServingLease runtimeId => exact hs.acquire hdisciplined hown
  | releaseServingLease runtimeId =>
      obtain ⟨l, hl, rfl, rfl⟩ := hdisciplined
      exact hs.release hl fun a ha hpos => hown a ha hpos l hl rfl

/-- Serving leases are accounted for in every run whose releases find their own
transition. -/
theorem accounted_reached {leaseTtlMs : UInt64} {calls : List (Holder × Call)}
    (hdisciplined : ∀ r ∈ history leaseTtlMs calls, Disciplined r)
    (hown : ∀ r ∈ history leaseTtlMs calls, OnOwnTransition r) :
    (reached leaseTtlMs calls).Accounted := by
  have hbalanced : (reached leaseTtlMs calls).Balanced :=
    Machine.invariant_runFrom step (I := Balanced)
      (G := fun r => Disciplined r ∧ OnOwnTransition r)
      (fun _ call hs hG => balanced_step hs call hG.1 hG.2)
      (fun r hr => ⟨hdisciplined r hr, hown r hr⟩) (balanced_new leaseTtlMs)
  exact hbalanced.accounted

/-- Two holders serve from one transition, and one of them stops. -/
def sharedRun : List (String × Call) :=
  [("inst-a", .requestTransition (sampleRequest "inst-a" "qwen9b") 0),
   ("user-1", .acquireServingLease ⟨"rt"⟩),
   ("user-2", .acquireServingLease ⟨"rt"⟩),
   ("user-1", .releaseServingLease ⟨"rt"⟩)]

theorem accounted_sharedRun : (reached 1000 sharedRun).Accounted :=
  accounted_reached (by decide) (by decide)

/-- The transition under which `user-1` took its lease is completed, and `user-1`
releases only when `user-2` already serves from the next one. -/
def lateReleaseRun : List (String × Call) :=
  [("inst-a", .requestTransition (sampleRequest "inst-a" "qwen9b") 0),
   ("user-1", .acquireServingLease ⟨"rt"⟩),
   ("inst-a", .complete ⟨"rt"⟩ 1),
   ("inst-b", .requestTransition (sampleRequest "inst-b" "qwen35b") 10),
   ("user-2", .acquireServingLease ⟨"rt"⟩),
   ("user-1", .releaseServingLease ⟨"rt"⟩)]

/-- The late release takes the lease of `user-2` off the books. -/
theorem not_accounted_lateReleaseRun :
    (∀ r ∈ history 1000 lateReleaseRun, Disciplined r) ∧
      ¬(reached 1000 lateReleaseRun).Accounted := by
  refine ⟨by decide, fun h => ?_⟩
  have hcount := h ⟨"rt"⟩
    { (TransitionCoordinator.new 1000).installed (sampleRequest "inst-b" "qwen35b") 10 with
      fencingToken := 2 } (by decide)
  revert hcount
  decide

end Ledger

end TransitionCoordinator

end Anemoi
