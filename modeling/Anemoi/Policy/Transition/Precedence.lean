import Anemoi.Policy.Transition.Leases
import Anemoi.Systems.Ranking
import Mathlib.Data.Prod.Lex
import Mathlib.Data.String.Basic
import Mathlib.Order.BoundedOrder.Basic
import Mathlib.Tactic.FinCases

/-!
# Precedence

Conflicting requests are ordered by `precedence`: the higher priority, then
interactive before background, then the smaller instance id. Without leases a
request takes over from another instance exactly when it comes later in this order.

Requests for different models therefore settle on the largest of them, in whatever
order they arrive. Requests that join a transition are not part of this: the
transition keeps the precedence of its owner, so `JoinsBelow` is needed to protect
those who joined it.
-/

namespace Anemoi

open Systems OrderDual

/-- The order in which conflicts are decided, the winner being the larger one. -/
def precedence (priority : UInt32) (interactive : Bool) (ownerInstance : String) :
    ℕ ×ₗ (Bool ×ₗ Stringᵒᵈ) :=
  toLex (priority.toNat, toLex (interactive, toDual ownerInstance))

def TransitionRequest.precedence (req : TransitionRequest) : ℕ ×ₗ (Bool ×ₗ Stringᵒᵈ) :=
  Anemoi.precedence req.priority req.interactive req.ownerInstance

/-- The precedence an active transition is compared with. -/
def ActiveTransition.precedence (a : ActiveTransition) : ℕ ×ₗ (Bool ×ₗ Stringᵒᵈ) :=
  Anemoi.precedence a.priority a.interactive a.ownerInstance

theorem precedence_lt_iff {p q : UInt32} {i j : Bool} {x y : String} :
    precedence p i x < precedence q j y ↔
      p < q ∨ p = q ∧ (i = false ∧ j = true ∨ i = j ∧ y < x) := by
  rw [precedence, precedence, Prod.Lex.toLex_lt_toLex, Prod.Lex.toLex_lt_toLex,
    toDual_lt_toDual, UInt32.lt_iff_toNat_lt, UInt32.toNat_inj, Bool.lt_iff]

theorem ownerInstance_eq_of_precedence {req req' : TransitionRequest}
    (h : req.precedence = req'.precedence) : req.ownerInstance = req'.ownerInstance :=
  congrArg (fun k : ℕ ×ₗ (Bool ×ₗ Stringᵒᵈ) => ofDual (ofLex (ofLex k).2).2) h

/-- Between two instances, and without serving leases, precedence decides. -/
theorem incomingWins_iff {req : TransitionRequest} {a : ActiveTransition}
    (hleases : a.servingLeases = 0) (howner : req.ownerInstance ≠ a.ownerInstance) :
    incomingWins req a = true ↔ a.precedence < req.precedence := by
  rw [ActiveTransition.precedence, TransitionRequest.precedence, precedence_lt_iff]
  unfold incomingWins
  rw [if_neg (by rw [hleases]; decide), if_neg howner]
  by_cases hlt : a.priority < req.priority
  · simp [hlt]
  · by_cases hgt : req.priority < a.priority
    · have hne : a.priority ≠ req.priority := (UInt32.ne_of_lt hgt).symm
      simp [hlt, hgt, hne]
    · have heq : a.priority = req.priority :=
        UInt32.le_antisymm (UInt32.not_lt.mp hgt) (UInt32.not_lt.mp hlt)
      rw [if_neg hlt, if_neg hgt]
      cases req.interactive <;> cases a.interactive <;> simp [heq]

/-- The answers by which a request becomes the owner in its own right. -/
def TransitionPath.Owns : TransitionPath → Prop
  | started _ | tookOver _ _ => True
  | joined _ | staged _ | servedHot _ | rejected _ | runtimeUnavailable => False

namespace TransitionCoordinator

/-! ### Conflicts between requests for different models -/

/-- A request on a runtime that can only win or lose: it is available, not a
background stage, and has no hot worker to be served by instead. -/
structure Contends (runtimeId : RuntimeId) (req : TransitionRequest) : Prop where
  runtime_eq : req.runtimeId = runtimeId
  available : req.runtimeAvailable = true
  foreground : req.background = false
  no_hot : ¬(req.interactive = true ∧ req.hotCompatibleModel.isSome = true)

/-- Two requests are of different instances and for different models. -/
def Apart (p q : TransitionRequest) : Prop :=
  p.ownerInstance ≠ q.ownerInstance ∧ p.desiredModel ≠ q.desiredModel

/-- Requests of pairwise distinct instances for pairwise distinct models. -/
structure Contenders (runtimeId : RuntimeId) (reqs : List TransitionRequest) : Prop where
  contends : ∀ req ∈ reqs, Contends runtimeId req
  owners : (reqs.map TransitionRequest.ownerInstance).Nodup
  models : (reqs.map TransitionRequest.desiredModel).Nodup

/-- The active transition `a` stands for the request `req`, and nobody serves from it. -/
structure Represents (a : ActiveTransition) (req : TransitionRequest) : Prop where
  owner_eq : a.ownerInstance = req.ownerInstance
  model_eq : a.desiredModel = req.desiredModel
  priority_eq : a.priority = req.priority
  interactive_eq : a.interactive = req.interactive
  no_leases : a.servingLeases = 0

/-- The request that the runtime's active transition stands for, if there is one. -/
def Stands (c : TransitionCoordinator) (runtimeId : RuntimeId) :
    Option TransitionRequest → Prop
  | none => c.activeTransition runtimeId = none
  | some req => ∃ a, c.activeTransition runtimeId = some a ∧ Represents a req

theorem Represents.precedence_eq {a : ActiveTransition} {req : TransitionRequest}
    (h : Represents a req) : a.precedence = req.precedence := by
  rw [ActiveTransition.precedence, TransitionRequest.precedence, h.owner_eq, h.priority_eq,
    h.interactive_eq]

theorem represents_installed (c : TransitionCoordinator) (req : TransitionRequest)
    (nowMs : UInt64) : Represents (c.installed req nowMs) req :=
  ⟨rfl, rfl, rfl, rfl, rfl⟩

theorem stands_install (c : TransitionCoordinator) (req : TransitionRequest)
    (nowMs : UInt64) : Stands (c.install req nowMs).2 req.runtimeId (some req) :=
  ⟨c.installed req nowMs, by rw [activeTransition_install, if_pos rfl],
    represents_installed c req nowMs⟩

theorem Contends.hotFallback_eq {runtimeId : RuntimeId} {req : TransitionRequest}
    (h : Contends runtimeId req) : hotFallback req = none := by
  unfold hotFallback
  by_cases hinteractive : req.interactive = true
  · rw [if_pos hinteractive, ← Option.not_isSome_iff_eq_none]
    exact fun hhot => h.no_hot ⟨hinteractive, hhot⟩
  · rw [if_neg hinteractive]

/-- The first contender gets the runtime. -/
theorem stands_of_free {c : TransitionCoordinator} {runtimeId : RuntimeId}
    {req : TransitionRequest} (hreq : Contends runtimeId req)
    (hfree : c.activeTransition runtimeId = none) (nowMs : UInt64) :
    Stands (c.requestTransition req nowMs).2 runtimeId (some req) ∧
      (c.requestTransition req nowMs).1.path.Owns := by
  obtain rfl := hreq.runtime_eq
  have harb := arbitration_requestTransition c req nowMs
  generalize (c.requestTransition req nowMs).1.path = path at harb ⊢
  generalize (c.requestTransition req nowMs).2 = c' at harb ⊢
  cases harb with
  | unavailable h => exact absurd hreq.available (by simp [h])
  | fresh =>
      rw [hreq.foreground]
      exact ⟨stands_install c req nowMs, trivial⟩
  | expired _ _ hsome | joins _ _ hsome | hot _ _ _ hsome | blocked _ _ hsome
  | wins _ _ hsome | loses _ _ hsome =>
      rw [hfree] at hsome
      cases hsome

/-- A contender displaces the one that stands there if it comes after it, and is turned
away otherwise. -/
theorem stands_of_standing {c : TransitionCoordinator} {runtimeId : RuntimeId}
    {req w : TransitionRequest} {nowMs : UInt64} (hreq : Contends runtimeId req)
    (hw : Stands c runtimeId (some w)) (hapart : Apart w req)
    (hlease : ∀ a ∈ c.activeTransition runtimeId, nowMs < a.leaseExpiresAtMs) :
    w.precedence < req.precedence ∧ Stands (c.requestTransition req nowMs).2 runtimeId (some req) ∧
        (c.requestTransition req nowMs).1.path.Owns ∨
      req.precedence < w.precedence ∧ (c.requestTransition req nowMs).2 = c := by
  obtain rfl := hreq.runtime_eq
  obtain ⟨a, ha, hrepresents⟩ := hw
  obtain ⟨howner, hmodel⟩ := hapart
  have hne : req.ownerInstance ≠ a.ownerInstance := by
    rw [hrepresents.owner_eq]
    exact howner.symm
  have hwins := incomingWins_iff hrepresents.no_leases hne
  rw [hrepresents.precedence_eq] at hwins
  have harb := arbitration_requestTransition c req nowMs
  generalize (c.requestTransition req nowMs).1.path = path at harb ⊢
  generalize (c.requestTransition req nowMs).2 = c' at harb ⊢
  cases harb with
  | unavailable h => exact absurd hreq.available (by simp [h])
  | fresh _ hnone =>
      rw [ha] at hnone
      cases hnone
  | expired b _ hsome hexpired =>
      exact absurd (hlease b hsome) (UInt64.not_lt.mpr hexpired)
  | joins b _ hsome _ hsame =>
      rw [ha, Option.some.injEq] at hsome
      rw [← hsome, hrepresents.model_eq] at hsame
      exact absurd hsame hmodel
  | hot _ _ _ _ _ _ hhot =>
      rw [hreq.hotFallback_eq] at hhot
      cases hhot
  | blocked _ _ _ _ _ _ hbackground => exact absurd hbackground (by simp [hreq.foreground])
  | wins b _ hsome _ _ _ _ hb =>
      rw [ha, Option.some.injEq] at hsome
      rw [← hsome] at hb
      exact Or.inl ⟨hwins.mp hb, stands_install c req nowMs, trivial⟩
  | loses b _ hsome _ _ _ _ hb =>
      rw [ha, Option.some.injEq] at hsome
      rw [← hsome] at hb
      have hle : req.precedence ≤ w.precedence :=
        not_lt.mp fun hlt => by simp [hwins.mpr hlt] at hb
      exact Or.inr ⟨lt_of_le_of_ne hle fun heq =>
        howner (ownerInstance_eq_of_precedence heq).symm, rfl⟩

/-- One contender more: the runtime stands for the larger of it and its predecessor,
and only a smaller one is turned away. -/
theorem stands_requestTransition {c : TransitionCoordinator} {runtimeId : RuntimeId}
    {best : Option TransitionRequest} {req : TransitionRequest} {nowMs : UInt64}
    (hreq : Contends runtimeId req) (hbest : Stands c runtimeId best)
    (hapart : ∀ w ∈ best, Apart w req)
    (hlease : ∀ a ∈ c.activeTransition runtimeId, nowMs < a.leaseExpiresAtMs) :
    Stands (c.requestTransition req nowMs).2 runtimeId
        (laterMax TransitionRequest.precedence best req) ∧
      ((c.requestTransition req nowMs).1.path.Owns ∨
        ∃ w ∈ best, req.precedence < w.precedence) := by
  cases best with
  | none =>
      obtain ⟨hstands, howns⟩ := stands_of_free hreq hbest nowMs
      exact ⟨hstands, Or.inl howns⟩
  | some w =>
      rcases stands_of_standing hreq hbest (hapart w rfl) hlease with
        ⟨hlt, hstands, howns⟩ | ⟨hlt, heq⟩
      · rw [laterMax, if_neg (not_lt.mpr hlt.le)]
        exact ⟨hstands, Or.inl howns⟩
      · rw [laterMax, if_pos hlt, heq]
        exact ⟨hbest, Or.inr ⟨w, rfl, hlt⟩⟩

/-- The call by which a request is submitted at a time. -/
def submit (s : TransitionRequest × UInt64) : Call :=
  .requestTransition s.1 s.2

/-- No lease on the runtime has expired when a step is taken. -/
def Unexpired (runtimeId : RuntimeId) (r : Step) : Prop :=
  match r.input with
  | .requestTransition _ nowMs =>
      ∀ a ∈ r.before.activeTransition runtimeId, nowMs < a.leaseExpiresAtMs
  | _ => True

/-- A step answers a request in a way that makes it the owner. -/
def Owned (r : Step) : Prop :=
  match r.output with
  | .decided decision => decision.path.Owns
  | _ => False

/-- A run of contenders ends with the largest of them, and every one that did not own
the runtime met a larger one. -/
theorem stands_submitted {runtimeId : RuntimeId} {subs : List (TransitionRequest × UInt64)}
    {c : TransitionCoordinator} {best : Option TransitionRequest}
    (hcontends : ∀ s ∈ subs, Contends runtimeId s.1)
    (hbest : Stands c runtimeId best) (hapart : ∀ w ∈ best, ∀ s ∈ subs, Apart w s.1)
    (hpairwise : subs.Pairwise fun s t => Apart s.1 t.1)
    (hlease : ∀ r ∈ Machine.logFrom step c (subs.map submit), Unexpired runtimeId r) :
    Stands (Machine.runFrom step c (subs.map submit)) runtimeId
        ((subs.map Prod.fst).foldl (laterMax TransitionRequest.precedence) best) ∧
      ∀ r ∈ Machine.logFrom step c (subs.map submit), ∀ req nowMs,
        r.input = .requestTransition req nowMs →
          Owned r ∨ ∃ w, (w ∈ best ∨ w ∈ subs.map Prod.fst) ∧
            req.precedence < w.precedence := by
  induction subs generalizing c best with
  | nil =>
      refine ⟨hbest, ?_⟩
      intro r hr
      cases hr
  | cons s subs ih =>
      rw [List.forall_mem_cons] at hcontends
      rw [List.pairwise_cons] at hpairwise
      rw [List.map_cons, Machine.logFrom_cons, List.forall_mem_cons] at hlease
      obtain ⟨hstands, howned⟩ := stands_requestTransition hcontends.1 hbest
        (fun w hw => hapart w hw s List.mem_cons_self) hlease.1
      have hapart' : ∀ w ∈ laterMax TransitionRequest.precedence best s.1, ∀ t ∈ subs,
          Apart w t.1 := by
        intro w hw t ht
        rcases mem_of_mem_laterMax hw with hw | rfl
        · exact hapart w hw t (List.mem_cons_of_mem s ht)
        · exact hpairwise.1 t ht
      obtain ⟨hfinal, hrest⟩ := ih hcontends.2 hstands hapart' hpairwise.2 hlease.2
      refine ⟨hfinal, ?_⟩
      rw [List.map_cons, Machine.logFrom_cons, List.forall_mem_cons]
      constructor
      · rintro req nowMs heq
        cases heq
        exact howned.imp id fun ⟨w, hw, hlt⟩ => ⟨w, Or.inl hw, hlt⟩
      · intro r hr req nowMs heq
        refine (hrest r hr req nowMs heq).imp id ?_
        rintro ⟨w, hw, hlt⟩
        refine ⟨w, ?_, hlt⟩
        rw [List.map_cons, List.mem_cons]
        rcases hw with hw | hw
        · exact (mem_of_mem_laterMax hw).imp_right Or.inl
        · exact Or.inr (Or.inr hw)

/-- The request that comes after all others. -/
def Top (reqs : List TransitionRequest) (w : TransitionRequest) : Prop :=
  w ∈ reqs ∧ ∀ q ∈ reqs, q ≠ w → q.precedence < w.precedence

/-- The decisions on the requests of an instance, oldest first. -/
def decisionsOf (ownerInstance : String) (log : List Step) : List TransitionDecision :=
  log.filterMap fun r =>
    match r.input, r.output with
    | .requestTransition req _, .decided decision =>
        if req.ownerInstance = ownerInstance then some decision else none
    | _, _ => none

/-- After the submissions `subs` the runtime is owned by the instance of `w`, for its
model, and the last decision on that instance says so. -/
structure SettlesOn (c : TransitionCoordinator) (runtimeId : RuntimeId)
    (subs : List (TransitionRequest × UInt64)) (w : TransitionRequest) : Prop where
  active : ∃ a,
    (Machine.runFrom step c (subs.map submit)).activeTransition runtimeId = some a ∧
      a.ownerInstance = w.ownerInstance ∧ a.desiredModel = w.desiredModel
  last : ∃ decision,
    (decisionsOf w.ownerInstance (Machine.logFrom step c (subs.map submit))).getLast? =
      some decision ∧ decision.path.Owns

theorem eq_of_precedence {reqs : List TransitionRequest}
    (h : (reqs.map TransitionRequest.ownerInstance).Nodup) {p q : TransitionRequest}
    (hp : p ∈ reqs) (hq : q ∈ reqs) (heq : p.precedence = q.precedence) : p = q :=
  List.inj_on_of_nodup_map h hp hq (ownerInstance_eq_of_precedence heq)

theorem top_of_maxByKey {reqs : List TransitionRequest}
    (h : (reqs.map TransitionRequest.ownerInstance).Nodup) {w : TransitionRequest}
    (hw : maxByKey TransitionRequest.precedence reqs = some w) : Top reqs w := by
  have hmem := mem_of_maxByKey hw
  refine ⟨hmem, fun q hq hne => ?_⟩
  exact lt_of_le_of_ne (key_le_of_maxByKey hw hq) fun heq =>
    hne (eq_of_precedence h hq hmem heq)

theorem Top.unique {reqs : List TransitionRequest} {w w' : TransitionRequest}
    (hw : Top reqs w) (hw' : Top reqs w') : w' = w := by
  by_contra hne
  exact lt_asymm (hw.2 w' hw'.1 hne) (hw'.2 w hw.1 (Ne.symm hne))

/-- Nothing outranks the top request. -/
theorem Top.not_outranked {reqs : List TransitionRequest} {w v : TransitionRequest}
    (hw : Top reqs w) (hv : v ∈ reqs) : ¬w.precedence < v.precedence := by
  intro hlt
  by_cases heq : v = w
  · rw [heq] at hlt
    exact lt_irrefl _ hlt
  · exact lt_asymm hlt (hw.2 v hv heq)

theorem mem_decisionsOf {ownerInstance : String} {log : List Step}
    {decision : TransitionDecision} :
    decision ∈ decisionsOf ownerInstance log ↔
      ∃ r ∈ log, ∃ req nowMs, r.input = .requestTransition req nowMs ∧
        r.output = .decided decision ∧ req.ownerInstance = ownerInstance := by
  rw [decisionsOf, List.mem_filterMap]
  refine exists_congr fun r => and_congr Iff.rfl ?_
  split
  · next req nowMs decision' hinput houtput =>
      rw [hinput, houtput]
      constructor
      · intro h
        split at h
        · next howner => exact ⟨req, nowMs, rfl, by rw [Option.some.inj h], howner⟩
        · cases h
      · rintro ⟨req', nowMs', hreq, hdecision, howner⟩
        cases hreq
        cases hdecision
        rw [if_pos howner]
  · next hneither =>
      constructor
      · intro h
        cases h
      · rintro ⟨req, nowMs, hinput, houtput, -⟩
        exact (hneither req nowMs decision hinput houtput).elim

/-- Every submission is decided. -/
theorem exists_decision {c : TransitionCoordinator}
    {subs : List (TransitionRequest × UInt64)} {s : TransitionRequest × UInt64}
    (h : s ∈ subs) :
    ∃ decision, decision ∈ decisionsOf s.1.ownerInstance
      (Machine.logFrom step c (subs.map submit)) := by
  have hinput : submit s ∈ (Machine.logFrom step c (subs.map submit)).map Record.input := by
    rw [Machine.map_input_logFrom]
    exact List.mem_map_of_mem h
  obtain ⟨r, hr, hsubmit⟩ := List.mem_map.mp hinput
  have hrecord := Machine.eq_record_of_mem_logFrom step hr
  rw [hsubmit] at hrecord
  refine ⟨(r.before.requestTransition s.1 s.2).1, mem_decisionsOf.mpr ⟨r, hr, s.1, s.2, ?_⟩⟩
  rw [hrecord]
  exact ⟨rfl, rfl, rfl⟩

/-- The last decision on an instance is there once it has submitted something, and is a
decision on one of its own submissions. -/
theorem exists_last_decision {c : TransitionCoordinator}
    {subs : List (TransitionRequest × UInt64)} {s : TransitionRequest × UInt64}
    (h : s ∈ subs) :
    ∃ decision, (decisionsOf s.1.ownerInstance
        (Machine.logFrom step c (subs.map submit))).getLast? = some decision ∧
      ∃ r ∈ Machine.logFrom step c (subs.map submit), ∃ req ∈ subs.map Prod.fst, ∃ nowMs,
        r.input = .requestTransition req nowMs ∧ r.output = .decided decision ∧
          req.ownerInstance = s.1.ownerInstance := by
  obtain ⟨d, hd⟩ := exists_decision (c := c) h
  cases hlast : (decisionsOf s.1.ownerInstance
      (Machine.logFrom step c (subs.map submit))).getLast? with
  | none =>
      rw [List.getLast?_eq_none_iff.mp hlast] at hd
      cases hd
  | some decision =>
      obtain ⟨r, hr, req, nowMs, hinput, houtput, howner⟩ :=
        mem_decisionsOf.mp (List.mem_of_getLast? hlast)
      have hreq : req ∈ subs.map Prod.fst := by
        have hmem := List.mem_map_of_mem (f := Record.input) hr
        rw [Machine.map_input_logFrom, hinput] at hmem
        obtain ⟨t, ht, heq⟩ := List.mem_map.mp hmem
        cases heq
        exact List.mem_map_of_mem ht
      exact ⟨decision, rfl, r, hr, req, hreq, nowMs, hinput, houtput, howner⟩

theorem pairwise_apart {runtimeId : RuntimeId} {reqs : List TransitionRequest}
    (h : Contenders runtimeId reqs) : reqs.Pairwise Apart :=
  (List.pairwise_map.mp h.owners).and (List.pairwise_map.mp h.models)

theorem Contenders.perm {runtimeId : RuntimeId} {reqs reqs' : List TransitionRequest}
    (h : Contenders runtimeId reqs) (hperm : reqs'.Perm reqs) : Contenders runtimeId reqs' where
  contends := fun req hreq => h.contends req (hperm.mem_iff.mp hreq)
  owners := (hperm.map _).nodup_iff.mpr h.owners
  models := (hperm.map _).nodup_iff.mpr h.models

/-- Contenders on a free runtime settle on the one of the highest precedence, in
whatever order and at whatever times they are submitted while no lease expires. -/
theorem settles_in_any_order {c : TransitionCoordinator} {runtimeId : RuntimeId}
    {reqs : List TransitionRequest} (h : Contenders runtimeId reqs) (hne : reqs ≠ [])
    (hfree : c.activeTransition runtimeId = none) :
    (∃! w, Top reqs w) ∧
      ∀ w, Top reqs w → ∀ subs : List (TransitionRequest × UInt64),
        (subs.map Prod.fst).Perm reqs →
        (∀ r ∈ Machine.logFrom step c (subs.map submit), Unexpired runtimeId r) →
        SettlesOn c runtimeId subs w := by
  constructor
  · obtain ⟨w, hw⟩ := exists_maxByKey TransitionRequest.precedence hne
    have htop := top_of_maxByKey h.owners hw
    exact ⟨w, htop, fun w' hw' => htop.unique hw'⟩
  · intro w hw subs hperm hlease
    have hsubs := h.perm hperm
    have hcontends : ∀ s ∈ subs, Contends runtimeId s.1 := fun s hs =>
      hsubs.contends s.1 (List.mem_map_of_mem hs)
    have hpairwise := List.pairwise_map.mp (pairwise_apart hsubs)
    have hnobody : Stands c runtimeId none := hfree
    obtain ⟨hstands, howned⟩ := stands_submitted hcontends hnobody
      (fun _ hw => nomatch hw) hpairwise hlease
    constructor
    · obtain ⟨v, hv⟩ := exists_maxByKey TransitionRequest.precedence
        (l := subs.map Prod.fst) (fun hnil => hne (hnil ▸ hperm).nil_eq.symm)
      have htop := top_of_maxByKey hsubs.owners hv
      have hsame : v = w := hw.unique
        ⟨hperm.mem_iff.mp htop.1, fun q hq => htop.2 q (hperm.mem_iff.mpr hq)⟩
      rw [maxByKey] at hv
      rw [hv, hsame] at hstands
      obtain ⟨a, ha, hrepresents⟩ := hstands
      exact ⟨a, ha, hrepresents.owner_eq, hrepresents.model_eq⟩
    · obtain ⟨s, hs, rfl⟩ := List.mem_map.mp (hperm.mem_iff.mpr hw.1)
      obtain ⟨decision, hlast, r, hr, req, hreq, nowMs, hinput, houtput, howner⟩ :=
        exists_last_decision (c := c) hs
      refine ⟨decision, hlast, ?_⟩
      have hsame : req = s.1 := List.inj_on_of_nodup_map h.owners
        (hperm.mem_iff.mp hreq) hw.1 howner
      rcases howned r hr req nowMs hinput with howns | ⟨v, hv, hlt⟩
      · rw [Owned, houtput] at howns
        exact howns
      · have hmem : v ∈ reqs := hperm.mem_iff.mp (hv.resolve_left (fun h => nomatch h))
        rw [hsame] at hlt
        exact absurd hlt (hw.not_outranked hmem)

/-- Three instances that want three different models on `rt`. -/
def rivals : List TransitionRequest :=
  [sampleRequest "inst-a" "qwen9b",
   { sampleRequest "inst-b" "qwen35b" with priority := 7, interactive := false },
   { sampleRequest "inst-c" "gemma27b" with priority := 7 }]

theorem contenders_rivals : Contenders ⟨"rt"⟩ rivals where
  contends := by
    intro req hreq
    fin_cases hreq <;> exact ⟨rfl, rfl, rfl, by decide⟩
  owners := by decide
  models := by decide

theorem settles_rivals :
    SettlesOn (new 1000) ⟨"rt"⟩
      [(rivals[2], 0), (rivals[0], 5), (rivals[1], 10)] rivals[2] :=
  (settles_in_any_order contenders_rivals (by decide) rfl).2 rivals[2]
    ⟨by decide, by
      intro q hq hne
      fin_cases hq
      · exact precedence_lt_iff.mpr (by decide)
      · exact precedence_lt_iff.mpr (by decide)
      · exact absurd rfl hne⟩
    [(rivals[2], 0), (rivals[0], 5), (rivals[1], 10)] (by decide)
    (by
      intro r hr
      fin_cases hr
      · exact fun a ha => nomatch ha
      · exact fun a ha => by cases ha; decide
      · exact fun a ha => by cases ha; decide)

end TransitionCoordinator

end Anemoi
