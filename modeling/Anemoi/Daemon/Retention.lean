import Anemoi.Daemon.Calls
import Anemoi.Daemon.Handoff

/-!
# What becomes of committed contexts

A context that was committed is to leave the cache only in a response, by expiry, or when
the cache has no room for it, and an execution is to return one while one is waiting for
the model it selects. `/execute` takes the reference of the first intent for the model and
then the entry, and after that it records the action plan.

`contextsKept_iff` says of every run of calls that this is so exactly when at each
execution that selects a model: if the first intent with a reference refers to a live
entry then telemetry accepts the plan, and if telemetry accepts the plan while any intent
refers to a live entry then the first one does.
-/

namespace Anemoi

open Systems

/-! ### Ids and contexts between calls -/

/-- Ids are unique, those in use were given out already, and a context that is pending is
not in the cache. -/
structure FreshIds (env : ℕ → Surroundings) (w : World) : Prop where
  unique : (w.stagingWorker.queue.map StagingIntent.id).Nodup
  queued : ∀ intent ∈ w.stagingWorker.queue, IssuedIn env 0 w.clock intent.id
  cached : ∀ id entry, w.escalationContext.entries.lookup id = some entry →
    IssuedIn env 0 w.clock id
  pending : ∀ intent ∈ w.stagingWorker.queue, intent.pendingContext ≠ none →
    w.escalationContext.entries.lookup intent.id = none

/-- The intent keeps its id, and its pending context unless it gives it up. -/
structure Sheds (intent after : StagingIntent) : Prop where
  id : after.id = intent.id
  pendingContext : after.pendingContext = none ∨ after.pendingContext = intent.pendingContext

theorem SameContexts.sheds {intent after : StagingIntent} (h : SameContexts intent after) :
    Sheds intent after :=
  ⟨h.id, Or.inr h.pendingContext⟩

namespace FreshIds

variable {env : ℕ → Surroundings} {w w' : World}

theorem start (governance : Governance) (disk : Disk) :
    FreshIds env (World.start governance disk) where
  unique := List.nodup_nil
  queued := List.forall_mem_nil _
  cached := by
    intro id entry h
    cases h
  pending := List.forall_mem_nil _

/-- The queue and the cache may only lose. -/
theorem of_sheds (h : FreshIds env w) (hclock : w.clock ≤ w'.clock)
    (hqueue : List.Forall₂ Sheds w.stagingWorker.queue w'.stagingWorker.queue)
    (hcache : ∀ id entry, w'.escalationContext.entries.lookup id = some entry →
      w.escalationContext.entries.lookup id = some entry) : FreshIds env w' where
  unique := by
    have hids : w'.stagingWorker.queue.map StagingIntent.id =
        w.stagingWorker.queue.map StagingIntent.id := by
      rw [← List.forall₂_eq_eq_eq, List.forall₂_map_left_iff, List.forall₂_map_right_iff]
      exact hqueue.flip.imp fun _ _ hsheds => hsheds.id
    rw [hids]
    exact h.unique
  queued := by
    intro after hafter
    obtain ⟨intent, hintent, hsheds⟩ := exists_of_mem_forall₂ hqueue hafter
    rw [hsheds.id]
    exact (h.queued intent hintent).mono le_rfl hclock
  cached id entry hlookup := (h.cached id entry (hcache id entry hlookup)).mono le_rfl hclock
  pending := by
    intro after hafter hpending
    obtain ⟨intent, hintent, hsheds⟩ := exists_of_mem_forall₂ hqueue hafter
    have hsome : intent.pendingContext ≠ none := by
      rcases hsheds.pendingContext with hnone | hsame
      · exact absurd hnone hpending
      · exact hsame ▸ hpending
    have hnone := h.pending intent hintent hsome
    rw [hsheds.id]
    cases hlookup : w'.escalationContext.entries.lookup intent.id with
    | none => rfl
    | some entry =>
        rw [hcache _ _ hlookup] at hnone
        cases hnone

variable (codec : Codec)

theorem commit (h : FreshIds env w) (drainingModels : List ModelId) :
    FreshIds env (handle codec env w (.commitEvictionContext drainingModels)).2 where
  unique := by
    have hids := StagingWorker.map_id_commitAll drainingModels (env w.clock).now
      w.escalationContext w.stagingWorker.queue
    exact hids ▸ h.unique
  queued := by
    intro after hafter
    obtain ⟨intent, hintent, hcommits⟩ := exists_of_mem_forall₂
      (StagingWorker.forall₂_commitAll drainingModels (env w.clock).now w.escalationContext
        w.stagingWorker.queue) hafter
    have hid : after.id = intent.id := by
      rcases hcommits with rfl | ⟨payload, -, -, rfl⟩ <;> rfl
    rw [hid]
    exact (h.queued intent hintent).mono le_rfl (Nat.le_succ _)
  cached := by
    intro id entry hlookup
    rcases StagingWorker.lookup_commitAll hlookup with hold | hnew
    · exact (h.cached id entry hold).mono le_rfl (Nat.le_succ _)
    · obtain ⟨intent, hintent, -, -, -, rfl, -⟩ := hnew
      exact (h.queued intent hintent).mono le_rfl (Nat.le_succ _)
  pending _ hafter hpending :=
    StagingWorker.lookup_commitAll_of_pending h.unique h.pending hafter hpending

/-- Every command but the one that queues an intent preserves this. -/
theorem handle (h : FreshIds env w) {c : Cmd} (hc : c.area ≠ .enqueueing) :
    FreshIds env (Anemoi.handle codec env w c).2 := by
  have hclock : w.clock ≤ (Anemoi.handle codec env w c).2.clock := by
    rw [clock_handle]
    exact Nat.le_succ _
  have hsame : ∀ {queue : List StagingIntent}, List.Forall₂ SameContexts w.stagingWorker.queue
      queue → List.Forall₂ Sheds w.stagingWorker.queue queue :=
    fun hqueue => hqueue.imp fun _ _ hsame => hsame.sheds
  have hrefl : List.Forall₂ Sheds w.stagingWorker.queue w.stagingWorker.queue :=
    hsame (List.forall₂_same.mpr fun intent _ => .refl intent)
  cases c with
  | enqueue intent => exact absurd rfl hc
  | commitEvictionContext drainingModels => exact h.commit codec drainingModels
  | takeContextRef model =>
      exact h.of_sheds hclock (forall₂_updateFirst (fun _ => ⟨rfl, Or.inr rfl⟩)
        (fun _ _ => ⟨rfl, Or.inr rfl⟩) _) fun _ _ hlookup => hlookup
  | takeContext contextRef =>
      refine h.of_sheds hclock hrefl fun id entry hlookup => ?_
      have htake := EscalationContextCache.lookup_takeAt w.escalationContext contextRef
        (env w.clock).now id
      replace hlookup := htake.symm.trans hlookup
      split at hlookup
      · cases hlookup
      · exact hlookup
  | updateState intentId newState error =>
      exact h.of_sheds hclock (hsame (sameContexts_updateState ..)) fun _ _ hlookup => hlookup
  | noteTick intentId skipReason =>
      exact h.of_sheds hclock (hsame (sameContexts_noteTick ..)) fun _ _ hlookup => hlookup
  | reconcileReady readyModels =>
      exact h.of_sheds hclock (hsame (sameContexts_reconcileReady ..)) fun _ _ hlookup => hlookup
  | _ => exact h.of_sheds hclock hrefl fun _ _ hlookup => hlookup

theorem run {α : Type} {areas : List Area} {p : Daemon α} (h : FreshIds env w)
    (hp : Within areas p) (hareas : Area.enqueueing ∉ areas) :
    FreshIds env (p.run (Anemoi.handle codec env) w).state := by
  have htriple := Program.triple_of_ensures (h := Anemoi.handle codec env)
    (P := fun _ s => FreshIds env s) hp (fun _ _ => trivial)
    fun _ s c hc hs => hs.handle codec fun he => hareas (he ▸ hc)
  exact htriple [] w h

theorem decide (h : FreshIds env w) (state : AppState) (request : InferenceRequest)
    (hfresh : NewIds env ((state.decide request).run (Anemoi.handle codec env) w).state.clock) :
    FreshIds env ((state.decide request).run (Anemoi.handle codec env) w).state := by
  have hclock := le_clock_run codec env (state.decide request) w
  have hcache := state.escalationContext_decide codec env request w
  cases state.queuesAtMostOne_decide codec env request w with
  | nothing hqueue =>
      refine h.of_sheds hclock ?_ fun _ _ hlookup => hcache ▸ hlookup
      rw [hqueue]
      exact List.forall₂_same.mpr fun intent _ => (SameContexts.refl intent).sheds
  | intent intent hid _ _ hqueue _ =>
      have hnew : ∀ {id}, IssuedIn env 0 w.clock id → id ≠ intent.id :=
        fun hold => hold.ne hid hfresh
      refine ⟨?_, ?_, ?_, ?_⟩
      · rw [hqueue, List.map_append]
        refine h.unique.append (List.nodup_singleton _) (List.disjoint_singleton.mpr ?_)
        intro hmem
        obtain ⟨old, hold, heq⟩ := List.mem_map.mp hmem
        exact hnew (h.queued old hold) heq
      · rw [hqueue]
        intro i hi
        rcases List.mem_append.mp hi with hi | hi
        · exact (h.queued i hi).mono le_rfl hclock
        · rw [List.mem_singleton.mp hi]
          exact hid.mono (Nat.zero_le _) le_rfl
      · rw [hcache]
        exact fun id entry hlookup => (h.cached id entry hlookup).mono le_rfl hclock
      · rw [hqueue, hcache]
        intro i hi hpending
        rcases List.mem_append.mp hi with hi | hi
        · exact h.pending i hi hpending
        · rw [List.mem_singleton.mp hi]
          cases hlookup : w.escalationContext.entries.lookup intent.id with
          | none => rfl
          | some entry => exact absurd rfl (hnew (h.cached _ _ hlookup))

end FreshIds

/-! ### Taking a context -/

namespace World

/-- The first committed intent for a model. -/
def firstCommitted (w : World) (model : ModelId) : Option StagingIntent :=
  w.stagingWorker.queue.find? fun intent =>
    intent.backgroundModel = model && intent.contextRef.isSome

/-- The intent's reference is to a live entry of the cache. -/
def RefersToLive (w : World) (now : DateTime) (intent : StagingIntent) : Prop :=
  ∃ contextRef entry, intent.contextRef = some contextRef ∧
    w.escalationContext.entries.lookup contextRef.intentId = some entry ∧
      w.escalationContext.live now entry = true

/-- The first committed intent for the model refers to a live entry. -/
def FirstRefers (w : World) (now : DateTime) (model : ModelId) : Prop :=
  ∃ first, w.firstCommitted model = some first ∧ w.RefersToLive now first

/-- Some intent for the model refers to a live entry. -/
def SomeRefers (w : World) (now : DateTime) (model : ModelId) : Prop :=
  ∃ intent ∈ w.stagingWorker.queue, intent.backgroundModel = model ∧ w.RefersToLive now intent

instance (w : World) (now : DateTime) (intent : StagingIntent) :
    Decidable (w.RefersToLive now intent) :=
  decidable_of_iff ((intent.contextRef.bind fun contextRef =>
      w.escalationContext.entries.lookup contextRef.intentId).any
        (w.escalationContext.live now) = true) <| by
    simp only [RefersToLive, Option.any_eq_true, Option.bind_eq_some_iff]
    constructor
    · rintro ⟨entry, ⟨contextRef, href, hlookup⟩, hlive⟩
      exact ⟨contextRef, entry, href, hlookup, hlive⟩
    · rintro ⟨contextRef, entry, href, hlookup, hlive⟩
      exact ⟨entry, ⟨contextRef, href, hlookup⟩, hlive⟩

instance (w : World) (now : DateTime) (model : ModelId) : Decidable (w.SomeRefers now model) :=
  inferInstanceAs (Decidable (∃ intent ∈ w.stagingWorker.queue, _ ∧ _))

end World

/-- Telemetry accepts an action plan. -/
def AcceptsPlan (trace : History) : Prop :=
  ∃ plan, (⟨.record (.recordActionPlan plan), .ok ()⟩ : Program.Event Cmd.Resp) ∈ trace

theorem acceptsPlan_append {t t' : History} :
    AcceptsPlan (t ++ t') ↔ AcceptsPlan t ∨ AcceptsPlan t' := by
  simp only [AcceptsPlan, List.mem_append, exists_or]

theorem acceptsPlan_singleton {plan : ActionPlan} {answer : Except String Unit} :
    AcceptsPlan [⟨.record (.recordActionPlan plan), answer⟩] ↔ answer = .ok () := by
  constructor
  · rintro ⟨plan', hmem⟩
    cases List.mem_singleton.mp hmem
    rfl
  · rintro rfl
    exact ⟨plan, List.mem_singleton_self _⟩

namespace AppState

section HandOff

variable (codec : Codec) (env : ℕ → Surroundings) {d : Decision} {model : ModelId} {w : World}

/-- The time at which the entry is taken. -/
def takingTime (w : World) : DateTime :=
  (env (w.clock + 1)).now

/-- A live entry of the first committed intent is returned; the others stay. -/
theorem handOffContext_of_firstRefers (hmodel : d.selectedModel = some model)
    (h : w.FirstRefers (takingTime env w) model) :
    ∃ taken entry, w.escalationContext.entries.lookup taken = some entry ∧
      w.escalationContext.live (takingTime env w) entry = true ∧
      ((handOffContext d).run (handle codec env) w).result = some entry.payload ∧
      ∀ id, ((handOffContext d).run (handle codec env) w).state.escalationContext.entries.lookup
        id = if id = taken then none else w.escalationContext.entries.lookup id := by
  obtain ⟨first, hfirst, contextRef, entry, href, hlookup, hlive⟩ := h
  refine ⟨contextRef.intentId, entry, hlookup, hlive, ?_⟩
  have hanswer : (handle codec env w (.takeContextRef model)).1 = some contextRef := by
    have hfind : (handle codec env w (.takeContextRef model)).1 =
        (w.firstCommitted model).bind StagingIntent.contextRef := rfl
    rw [hfind, hfirst, Option.bind_some, href]
  have hrun : (handOffContext d).run (handle codec env) w =
      (takeEscalationContext model).run (handle codec env) w := by
    rw [handOffContext, hmodel]
  rw [hrun, takeEscalationContext, Daemon.takeContextRef, Program.perform_bind,
    Program.run_call, hanswer]
  refine ⟨?_, ?_⟩
  · have hpayload : (w.escalationContext.takeAt contextRef (takingTime env w)).1 =
        some entry.payload := by
      rw [EscalationContextCache.takeAt, hlookup]
      exact if_pos hlive
    exact hpayload
  · exact EscalationContextCache.lookup_takeAt w.escalationContext contextRef (takingTime env w)

/-- Otherwise nothing is returned, and what is live stays. -/
theorem handOffContext_of_not_firstRefers (hmodel : d.selectedModel = some model)
    (h : ¬w.FirstRefers (takingTime env w) model) :
    ((handOffContext d).run (handle codec env) w).result = none ∧
      ∀ id entry, w.escalationContext.entries.lookup id = some entry →
        w.escalationContext.live (takingTime env w) entry = true →
          ((handOffContext d).run (handle codec env)
            w).state.escalationContext.entries.lookup id = some entry := by
  have hrun : (handOffContext d).run (handle codec env) w =
      (takeEscalationContext model).run (handle codec env) w := by
    rw [handOffContext, hmodel]
  have hfind : (handle codec env w (.takeContextRef model)).1 =
      (w.firstCommitted model).bind StagingIntent.contextRef := rfl
  rw [hrun, takeEscalationContext, Daemon.takeContextRef, Program.perform_bind,
    Program.run_call]
  cases hanswer : (handle codec env w (.takeContextRef model)).1 with
  | none => exact ⟨rfl, fun _ _ hlookup _ => hlookup⟩
  | some contextRef =>
      rw [hfind] at hanswer
      obtain ⟨first, hfirst, href⟩ := Option.bind_eq_some_iff.mp hanswer
      -- the entry of the first one is absent or has expired
      have hdead : ∀ entry, w.escalationContext.entries.lookup contextRef.intentId = some entry →
          w.escalationContext.live (takingTime env w) entry = false := by
        intro entry hlookup
        rw [← Bool.not_eq_true]
        exact fun hlive => h ⟨first, hfirst, contextRef, entry, href, hlookup, hlive⟩
      have htaken : (w.escalationContext.takeAt contextRef (takingTime env w)).1 = none := by
        rw [EscalationContextCache.takeAt]
        cases hlookup : w.escalationContext.entries.lookup contextRef.intentId with
        | none => rfl
        | some entry => exact if_neg (Bool.not_eq_true _ ▸ hdead entry hlookup)
      refine ⟨htaken, fun id entry hlookup hlive => ?_⟩
      have hlookup' := EscalationContextCache.lookup_takeAt w.escalationContext contextRef
        (takingTime env w) id
      have hne : id ≠ contextRef.intentId := by
        rintro rfl
        rw [hdead entry hlookup] at hlive
        cases hlive
      rw [if_neg hne] at hlookup'
      exact hlookup'.trans hlookup

/-- The command records no action plan, and leaves the escalation contexts alone. -/
def RecordsNoPlan (c : Cmd) : Prop :=
  c.area ∈ [.ambient, .loading] ∧ ∀ plan, c ≠ .record (.recordActionPlan plan)

/-- What a program that leaves the escalation contexts alone returns, and whether telemetry
has accepted an action plan by then. -/
abbrev Answers {α : Type} (post : α → Prop → Prop) (accepted : Prop) (p : Daemon α) : Prop :=
  Program.Follows (fun accepted e => accepted ∨ AcceptsPlan [e]) (fun _ _ => True)
    (fun _ c => c.area ∈ [.ambient, .loading]) post accepted p

theorem answers_of_respects {α : Type} {p : Daemon α}
    (hp : Program.Respects (fun _ _ => True) RecordsNoPlan p) (accepted : Prop) :
    Answers (fun _ after => after = accepted) accepted p := by
  refine (Program.follows_of_ensures hp (fun c hc => hc.1) fun c r hc => ?_).mono fun _ _ h => h.2
  refine propext (or_iff_left ?_)
  rintro ⟨plan, hmem⟩
  cases List.mem_singleton.mp hmem
  exact hc.2 plan rfl

theorem answers_liveExecuteEnabled (state : AppState) (accepted : Prop) :
    Answers (fun _ after => after = accepted) accepted state.liveExecuteEnabled := by
  have hreads : RecordsNoPlan .liveExecutionEnabled := ⟨by decide, fun _ h => by cases h⟩
  refine answers_of_respects ?_ accepted
  unfold liveExecuteEnabled
  split
  · exact trivial
  · exact Program.ensures_perform hreads fun _ _ => trivial

theorem answers_generateActionPlan (d : Decision) (dryRun : Bool) (accepted : Prop) :
    Answers (fun _ after => after = accepted) accepted (generateActionPlan d dryRun) := by
  have hreads : RecordsNoPlan .effective := ⟨by decide, fun _ h => by cases h⟩
  exact answers_of_respects (Program.ensures_perform hreads fun _ _ => trivial) accepted

theorem answers_executeActions (state : AppState) (live : Bool) (actions : List RuntimeAction)
    (accepted : Prop) :
    Answers (fun _ after => after = accepted) accepted (state.executeActions live actions) := by
  refine answers_of_respects ?_ accepted
  refine Program.Ensures.mono (state.within_executeActions live actions) ?_ fun _ h => h
  intro c hc
  refine ⟨List.mem_cons_of_mem _ hc, ?_⟩
  rintro plan rfl
  cases List.mem_singleton.mp hc

theorem answers_recordActionPlan (plan : ActionPlan) :
    Answers (fun answer after => after ↔ answer = .ok ()) False
      (Daemon.record (.recordActionPlan plan)) := by
  refine ⟨by simp [Cmd.area], fun answer _ => ?_⟩
  exact (or_iff_right not_false).trans acceptsPlan_singleton

/-- After it has taken the context, `/execute` leaves the contexts alone, and responds with
the one it has taken if telemetry accepts the plan. -/
theorem answers_executeDecision (state : AppState) (d : Decision) :
    ∃ respond, state.executeDecision d = handOffContext d >>= respond ∧ ∀ context,
      Answers (fun response accepted =>
          accepted ∧ (∃ r, response = .ok r ∧ r.decision = d ∧
            r.handoff.escalationContext = context) ∨
          ¬accepted ∧ ∃ e, response = .error e)
        False (respond context) := by
  refine ⟨_, rfl, fun context => ?_⟩
  refine Program.Follows.bind (answers_liveExecuteEnabled state False) ?_
  rintro live _ rfl
  refine Program.Follows.bind (answers_generateActionPlan d (!live) False) ?_
  rintro plan _ rfl
  refine Program.Follows.bind (answers_recordActionPlan plan) ?_
  intro answer accepted haccepted
  cases answer with
  | error e => exact Or.inr ⟨(fun h => by cases haccepted.mp h), _, rfl⟩
  | ok _ =>
      refine Program.Follows.bind (answers_executeActions state live plan.actions accepted) ?_
      rintro executed _ rfl
      exact Or.inl ⟨haccepted.mpr rfl, _, rfl, rfl, rfl⟩

theorem acceptsPlan_foldl (trace : History) (accepted : Prop) :
    trace.foldl (fun accepted e => accepted ∨ AcceptsPlan [e]) accepted ↔
      accepted ∨ AcceptsPlan trace := by
  induction trace generalizing accepted with
  | nil => simp [AcceptsPlan]
  | cons e trace ih => rw [List.foldl_cons, ih, or_assoc, ← acceptsPlan_append]; rfl

/-- The part of `/execute` after the context has been taken. Whether it responds depends
on telemetry alone. -/
theorem executeDecision_cases (state : AppState) (d : Decision) (w : World) :
    let handed := (handOffContext d).run (handle codec env) w
    let after := (state.executeDecision d).run (handle codec env) w
    after.state.escalationContext = handed.state.escalationContext ∧
      (AcceptsPlan after.trace ∧ (∃ r, after.result = .ok r ∧ r.decision = d ∧
          r.handoff.escalationContext = handed.result) ∨
        ¬AcceptsPlan after.trace ∧ ∃ e, after.result = .error e) := by
  intro handed after
  obtain ⟨respond, hrespond, hanswers⟩ := answers_executeDecision state d
  have hwithin : Within [.ambient, .loading] (respond handed.result) :=
    (hanswers handed.result).respects fun _ _ hc => hc
  have hresult := (hanswers handed.result).post_run (h := handle codec env)
    (fun _ _ => trivial) handed.state
  have hhanded : ¬AcceptsPlan handed.trace := by
    rintro ⟨plan, hmem⟩
    have harea := Program.forall_mem_trace (within_handOffContext d) (fun _ _ => trivial) w _ hmem
    cases List.mem_singleton.mp harea
  simp only [after, hrespond, Program.state_bind, Program.result_bind, Program.trace_bind]
  constructor
  · exact escalationContext_run codec env hwithin (by decide) (by decide) handed.state
  · rwa [acceptsPlan_append, or_iff_right hhanded, ← false_or (AcceptsPlan _),
      ← acceptsPlan_foldl]

end HandOff

/-! ### One call -/

section Calls

variable (state : AppState) (codec : Codec) (env : ℕ → Surroundings)

/-- A call that runs to its end before the next one begins. -/
def callStep (w : World) (call : ContextCall) : Option ExecuteResponse × World :=
  let outcome := (state.contextCall call).run (handle codec env) w
  (outcome.result, outcome.state)

/-- The state after the decision of an execution, in which it takes a context. -/
def decided (w : World) (request : InferenceRequest) : World :=
  ((state.decide request).run (handle codec env) w).state

/-- The time at which a call uses the cache. -/
def usingTime (w : World) : ContextCall → DateTime
  | .decide _ | .commitEvictionContext _ => (env w.clock).now
  | .execute request => takingTime env (state.decided codec env w request)
  | .stagingTick => (env (w.clock + 1)).now

/-- The models whose contexts a call commits. -/
def committing (w : World) : ContextCall → Option (List ModelId)
  | .decide _ | .execute _ => none
  | .commitEvictionContext drainingModels => some drainingModels
  | .stagingTick => some (drainingModels.run (handle codec env) w).result

/-- The live entries and the contexts that are committed do not all fit in the cache. -/
def Crowded (w : World) (drainingModels : List ModelId) (now : DateTime) : Prop :=
  w.escalationContext.capacity < w.escalationContext.liveEntries now +
    w.stagingWorker.queue.countP (StagingWorker.awaitsCommit drainingModels)

/-- What is asked of a call: an entry leaves the cache only in its response, by expiry or
for lack of room, and an execution that responds for a model returns a context if some
intent for the model refers to a live entry. -/
structure KeepsContexts (w : World) (call : ContextCall) : Prop where
  leaves : ∀ id entry, w.escalationContext.entries.lookup id = some entry →
    (state.callStep codec env w call).2.escalationContext.entries.lookup id ≠ some entry →
      (∃ response, (state.callStep codec env w call).1 = some response ∧
          response.handoff.escalationContext = some entry.payload) ∨
        w.escalationContext.live (state.usingTime codec env w call) entry = false ∨
          ∃ drainingModels, committing codec env w call = some drainingModels ∧
            Crowded w drainingModels (state.usingTime codec env w call)
  answers : ∀ request response model, call = .execute request →
    (state.callStep codec env w call).1 = some response →
      response.decision.selectedModel = some model →
        (state.decided codec env w request).SomeRefers (state.usingTime codec env w call) model →
          ∃ payload, response.handoff.escalationContext = some payload

/-- When an execution hands contexts over as it should: if the first committed intent for
the selected model refers to a live entry then telemetry accepts the action plan, and if
telemetry accepts it while some intent for the model refers to a live entry then the first
committed one does. -/
def HandsOverLive (w : World) (call : ContextCall) : Prop :=
  ∀ request d model, call = .execute request →
    ((state.decide request).run (handle codec env) w).result = .ok d →
      d.selectedModel = some model →
        let w' := state.decided codec env w request
        let trace := ((state.executeDecision d).run (handle codec env) w').trace
        (w'.FirstRefers (takingTime env w') model → AcceptsPlan trace) ∧
          (AcceptsPlan trace → w'.SomeRefers (takingTime env w') model →
            w'.FirstRefers (takingTime env w') model)

variable {env} {w : World}

theorem lookup_commit (h : FreshIds env w) (drainingModels : List ModelId) {id : Uuid}
    {entry : EscalationContextEntry}
    (hlookup : w.escalationContext.entries.lookup id = some entry) :
    (handle codec env w (.commitEvictionContext drainingModels)).2.escalationContext.entries.lookup
        id = some entry ∨
      w.escalationContext.live (env w.clock).now entry = false ∨
        Crowded w drainingModels (env w.clock).now := by
  refine StagingWorker.lookup_commitAll_of_ne hlookup fun intent hintent hpending => ?_
  rintro rfl
  rw [h.pending intent hintent hpending] at hlookup
  cases hlookup

/-- What a staging tick does to the cache. -/
theorem lookup_stagingTick (h : FreshIds env w) {id : Uuid} {entry : EscalationContextEntry}
    (hlookup : w.escalationContext.entries.lookup id = some entry) :
    (state.runStagingTick.run (handle codec env) w).state.escalationContext.entries.lookup id =
        some entry ∨
      w.escalationContext.live (env (w.clock + 1)).now entry = false ∨
        Crowded w (drainingModels.run (handle codec env) w).result
          (env (w.clock + 1)).now := by
  have hrest : ((state.runStagingTick).run (handle codec env) w).state.escalationContext =
      (commitDraining.run (handle codec env) w).state.escalationContext := by
    rw [runStagingTick, Program.state_bind]
    have hwithin : Within [.ambient, .staging, .loading] (do
        completeReady
        let pending ← Daemon.getPending
        pending.forM state.stageIntent) := by
      refine (within_completeReady.mono (by simp)).bind fun _ => ?_
      refine (Within.perform (by simp [Cmd.area])).bind fun pending => ?_
      exact .forM fun intent _ => (within_stageIntent state intent).mono (by simp)
    exact escalationContext_run codec env hwithin (by decide) (by decide) _
  rw [hrest, commitDraining, Program.state_bind]
  have hwithin : Within [.ambient] drainingModels :=
    (Within.perform (by simp [Cmd.area])).bind fun _ => .pure _
  have hdraining := h.run codec hwithin (by decide)
  split
  · exact Or.inl hlookup
  · exact lookup_commit codec hdraining _ hlookup

variable {state codec}

/-- The result of an execution, and what it leaves in the cache. -/
theorem callStep_execute {request : InferenceRequest} {d : Decision}
    (hd : ((state.decide request).run (handle codec env) w).result = .ok d) :
    state.callStep codec env w (.execute request) =
      (((state.executeDecision d).run (handle codec env)
          (state.decided codec env w request)).result.toOption,
        ((state.executeDecision d).run (handle codec env)
          (state.decided codec env w request)).state) := by
  simp only [callStep, contextCall, execute, Program.result_bind, Program.state_bind, hd]
  rfl

theorem callStep_execute_error {request : InferenceRequest} {e : String}
    (hd : ((state.decide request).run (handle codec env) w).result = .error e) :
    state.callStep codec env w (.execute request) =
      (none, state.decided codec env w request) := by
  simp only [callStep, contextCall, execute, Program.result_bind, Program.state_bind, hd]
  rfl

/-- An execution that takes no context keeps all that are live. -/
theorem keepsContexts_of_nothing_taken {request : InferenceRequest}
    (hcache : ∀ id entry, w.escalationContext.entries.lookup id = some entry →
      w.escalationContext.live (state.usingTime codec env w (.execute request)) entry = true →
        (state.callStep codec env w (.execute request)).2.escalationContext.entries.lookup id =
          some entry)
    (hanswers : ∀ response model,
      (state.callStep codec env w (.execute request)).1 = some response →
        response.decision.selectedModel = some model →
          ¬(state.decided codec env w request).SomeRefers
            (state.usingTime codec env w (.execute request)) model) :
    KeepsContexts state codec env w (.execute request) where
  leaves := by
    intro id entry hlookup hgone
    right
    left
    rw [← Bool.not_eq_true]
    exact fun hlive => hgone (hcache id entry hlookup hlive)
  answers := by
    rintro _ response model ⟨⟩ hresponse hmodel hwaits
    exact absurd hwaits (hanswers response model hresponse hmodel)

section Selected

variable {request : InferenceRequest} {d : Decision} {model : ModelId}
  (hd : ((state.decide request).run (handle codec env) w).result = .ok d)
  (hmodel : d.selectedModel = some model)

include hd hmodel

theorem handsOverLive_selected_iff :
    HandsOverLive state codec env w (.execute request) ↔
      let w' := state.decided codec env w request
      let trace := ((state.executeDecision d).run (handle codec env) w').trace
      (w'.FirstRefers (takingTime env w') model → AcceptsPlan trace) ∧
        (AcceptsPlan trace → w'.SomeRefers (takingTime env w') model →
          w'.FirstRefers (takingTime env w') model) := by
  refine ⟨fun h => h request d model rfl hd hmodel, ?_⟩
  rintro h _ d' model' ⟨⟩ hd' hmodel'
  rw [hd] at hd'
  obtain rfl := Except.ok.inj hd'
  rw [hmodel] at hmodel'
  obtain rfl := Option.some.inj hmodel'
  exact h

/-- When the first committed intent refers to a live entry, the entry is taken. -/
theorem keepsContexts_iff_of_firstRefers
    (hfirst : (state.decided codec env w request).FirstRefers
      (takingTime env (state.decided codec env w request)) model) :
    KeepsContexts state codec env w (.execute request) ↔
      AcceptsPlan ((state.executeDecision d).run (handle codec env)
        (state.decided codec env w request)).trace := by
  have hcache : (state.decided codec env w request).escalationContext = w.escalationContext :=
    state.escalationContext_decide codec env request w
  have hstep := callStep_execute hd
  obtain ⟨hafter, houtcome⟩ :=
    executeDecision_cases codec env state d (state.decided codec env w request)
  obtain ⟨taken, entry, hlookup, hlive, hresult, hkept⟩ :=
    handOffContext_of_firstRefers codec env hmodel hfirst
  rcases houtcome with ⟨haccepts, r, hr, hdecision, hcontext⟩ | ⟨hrefuses, e, he⟩
  · refine iff_of_true ⟨?_, ?_⟩ haccepts
    · intro id entry' hlookup' hgone
      left
      refine ⟨r, by rw [hstep, hr]; rfl, ?_⟩
      rw [hstep, hafter, hkept] at hgone
      have hid : id = taken := by
        by_contra hne
        rw [if_neg hne, hcache] at hgone
        exact hgone hlookup'
      rw [hid, ← hcache, hlookup] at hlookup'
      rw [hcontext, hresult, Option.some.inj hlookup']
    · rintro _ response model' ⟨⟩ hresponse - -
      rw [hstep, hr] at hresponse
      obtain rfl := Option.some.inj hresponse
      exact ⟨entry.payload, hcontext.trans hresult⟩
  · -- the context is taken and there is no response to return it in
    refine iff_of_false (fun hkeeps => ?_) hrefuses
    have hgone : (state.callStep codec env w
        (.execute request)).2.escalationContext.entries.lookup taken ≠ some entry := by
      rw [hstep, hafter, hkept, if_pos rfl]
      rintro ⟨⟩
    rcases hkeeps.leaves taken entry (hcache ▸ hlookup) hgone with
      ⟨response, hresponse, -⟩ | hexpired | ⟨_, hcommitting, -⟩
    · rw [hstep, he] at hresponse
      cases hresponse
    · have hexpired' : w.escalationContext.live
          (takingTime env (state.decided codec env w request)) entry = false := hexpired
      rw [← hcache, hlive] at hexpired'
      cases hexpired'
    · cases hcommitting

/-- When it does not, no response may have waited for another intent's entry. -/
theorem keepsContexts_iff_of_not_firstRefers
    (hfirst : ¬(state.decided codec env w request).FirstRefers
      (takingTime env (state.decided codec env w request)) model) :
    KeepsContexts state codec env w (.execute request) ↔
      (AcceptsPlan ((state.executeDecision d).run (handle codec env)
          (state.decided codec env w request)).trace →
        ¬(state.decided codec env w request).SomeRefers
          (takingTime env (state.decided codec env w request)) model) := by
  have hcache : (state.decided codec env w request).escalationContext = w.escalationContext :=
    state.escalationContext_decide codec env request w
  have hstep := callStep_execute hd
  obtain ⟨hafter, houtcome⟩ :=
    executeDecision_cases codec env state d (state.decided codec env w request)
  obtain ⟨hresult, hkept⟩ := handOffContext_of_not_firstRefers codec env hmodel hfirst
  have hstays : ∀ id entry, w.escalationContext.entries.lookup id = some entry →
      w.escalationContext.live (state.usingTime codec env w (.execute request)) entry = true →
        (state.callStep codec env w (.execute request)).2.escalationContext.entries.lookup id =
          some entry := by
    intro id entry hlookup hlive
    rw [hstep, hafter]
    exact hkept id entry (hcache ▸ hlookup) (hcache ▸ hlive)
  rcases houtcome with ⟨haccepts, r, hr, hdecision, hcontext⟩ | ⟨hrefuses, e, he⟩
  · constructor
    · intro hkeeps _ hwaits
      have hresponse : (state.callStep codec env w (.execute request)).1 = some r := by
        rw [hstep, hr]
        rfl
      obtain ⟨payload, hpayload⟩ := hkeeps.answers request r model rfl hresponse
        (hdecision ▸ hmodel) hwaits
      rw [hcontext, hresult] at hpayload
      cases hpayload
    · intro hnone
      refine keepsContexts_of_nothing_taken hstays fun response model' hresponse hmodel' => ?_
      rw [hstep, hr] at hresponse
      obtain rfl := Option.some.inj hresponse
      rw [hdecision, hmodel] at hmodel'
      obtain rfl := Option.some.inj hmodel'
      exact hnone haccepts
  · refine iff_of_true (keepsContexts_of_nothing_taken hstays ?_) fun h => absurd h hrefuses
    intro response model' hresponse
    rw [hstep, he] at hresponse
    cases hresponse

/-- An execution whose decision selects a model. -/
theorem keepsContexts_selected_iff :
    KeepsContexts state codec env w (.execute request) ↔
      HandsOverLive state codec env w (.execute request) := by
  rw [handsOverLive_selected_iff hd hmodel]
  by_cases hfirst : (state.decided codec env w request).FirstRefers
      (takingTime env (state.decided codec env w request)) model
  · rw [keepsContexts_iff_of_firstRefers hd hmodel hfirst]
    exact ⟨fun haccepts => ⟨fun _ => haccepts, fun _ _ => hfirst⟩, fun h => h.1 hfirst⟩
  · rw [keepsContexts_iff_of_not_firstRefers hd hmodel hfirst]
    exact ⟨fun h => ⟨fun hrefers => absurd hrefers hfirst, fun haccepts hwaits =>
      absurd hwaits (h haccepts)⟩, fun h haccepts hwaits => hfirst (h.2 haccepts hwaits)⟩

end Selected

theorem keepsContexts_execute_iff (request : InferenceRequest) :
    KeepsContexts state codec env w (.execute request) ↔
      HandsOverLive state codec env w (.execute request) := by
  have hcache : (state.decided codec env w request).escalationContext = w.escalationContext :=
    state.escalationContext_decide codec env request w
  cases hd : ((state.decide request).run (handle codec env) w).result with
  | error e =>
      have hstep := callStep_execute_error hd
      refine iff_of_true (keepsContexts_of_nothing_taken ?_ ?_) ?_
      · intro id entry hlookup _
        rw [hstep, hcache]
        exact hlookup
      · intro response model hresponse
        rw [hstep] at hresponse
        cases hresponse
      · rintro _ d model ⟨⟩ hok
        rw [hd] at hok
        cases hok
  | ok d =>
      have hstep := callStep_execute hd
      obtain ⟨hafter, houtcome⟩ :=
        executeDecision_cases codec env state d (state.decided codec env w request)
      cases hmodel : d.selectedModel with
      | none =>
          have hnothing : (handOffContext d).run (handle codec env)
              (state.decided codec env w request) =
                ⟨none, state.decided codec env w request, []⟩ := by
            rw [handOffContext, hmodel]
            rfl
          refine iff_of_true (keepsContexts_of_nothing_taken ?_ ?_) ?_
          · intro id entry hlookup _
            rw [hstep, hafter, hnothing, hcache]
            exact hlookup
          · intro response model hresponse hmodel'
            rw [hstep] at hresponse
            rcases houtcome with ⟨-, r, hr, hdecision, -⟩ | ⟨-, e, he⟩
            · rw [hr] at hresponse
              obtain rfl := Option.some.inj hresponse
              rw [hdecision, hmodel] at hmodel'
              cases hmodel'
            · rw [he] at hresponse
              cases hresponse
          · rintro _ d' model ⟨⟩ hd' hmodel'
            rw [hd] at hd'
            obtain rfl := Except.ok.inj hd'
            rw [hmodel] at hmodel'
            cases hmodel'
      | some model => exact keepsContexts_selected_iff hd hmodel

/-- Between two calls the ids are as `FreshIds` says. -/
theorem freshIds_callStep (h : FreshIds env w)
    (call : ContextCall) (hfresh : NewIds env (state.callStep codec env w call).2.clock) :
    FreshIds env (state.callStep codec env w call).2 := by
  cases call with
  | decide request =>
      have hstate : (state.callStep codec env w (.decide request)).2 =
          ((state.decide request).run (handle codec env) w).state := Program.state_bind ..
      rw [hstate] at hfresh ⊢
      exact h.decide codec state request hfresh
  | commitEvictionContext drainingModels => exact h.commit codec drainingModels
  | execute request =>
      cases hd : ((state.decide request).run (handle codec env) w).result with
      | error e =>
          rw [callStep_execute_error hd] at hfresh ⊢
          exact h.decide codec state request hfresh
      | ok d =>
          rw [callStep_execute hd] at hfresh ⊢
          have hdecided := h.decide codec state request
            (hfresh.mono (le_clock_run codec env (state.executeDecision d) _))
          exact hdecided.run codec (state.within_executeDecision d) (by decide)
  | stagingTick =>
      have hstate : (state.callStep codec env w .stagingTick).2 =
          (state.runStagingTick.run (handle codec env) w).state := Program.state_bind ..
      rw [hstate]
      exact h.run codec state.within_runStagingTick (by decide)

theorem keepsContexts_iff (h : FreshIds env w) (call : ContextCall) :
    KeepsContexts state codec env w call ↔ HandsOverLive state codec env w call := by
  cases call with
  | execute request => exact keepsContexts_execute_iff request
  | decide request =>
      refine iff_of_true ⟨?_, ?_⟩ ?_
      · intro id entry hlookup hgone
        have hstate : (state.callStep codec env w (.decide request)).2 =
            ((state.decide request).run (handle codec env) w).state := Program.state_bind ..
        rw [hstate, escalationContext_decide] at hgone
        exact absurd hlookup hgone
      · rintro _ _ _ ⟨⟩
      · rintro _ _ _ ⟨⟩
  | commitEvictionContext drainingModels =>
      refine iff_of_true ⟨?_, ?_⟩ ?_
      · intro id entry hlookup hgone
        rcases lookup_commit codec h drainingModels hlookup with
          hkept | hexpired | hcrowded
        · exact absurd hkept hgone
        · exact Or.inr (Or.inl hexpired)
        · exact Or.inr (Or.inr ⟨drainingModels, rfl, hcrowded⟩)
      · rintro _ _ _ ⟨⟩
      · rintro _ _ _ ⟨⟩
  | stagingTick =>
      refine iff_of_true ⟨?_, ?_⟩ ?_
      · intro id entry hlookup hgone
        have hstate : (state.callStep codec env w .stagingTick).2 =
            (state.runStagingTick.run (handle codec env) w).state := Program.state_bind ..
        rw [hstate] at hgone
        rcases lookup_stagingTick state codec h hlookup with
          hkept | hexpired | hcrowded
        · exact absurd hkept hgone
        · exact Or.inr (Or.inl hexpired)
        · exact Or.inr (Or.inr ⟨_, rfl, hcrowded⟩)
      · rintro _ _ _ ⟨⟩
      · rintro _ _ _ ⟨⟩

theorem le_clock_callStep (w : World) (call : ContextCall) :
    w.clock ≤ (state.callStep codec env w call).2.clock :=
  le_clock_run codec env (state.contextCall call) w

/-- In every run of calls, with any answers of telemetry and any clock, whose commands are
given new ids: every call keeps the committed contexts as it should if and only if every
execution hands over live ones. -/
theorem contextsKept_iff (state : AppState) (codec : Codec) (env : ℕ → Surroundings)
    (governance : Governance) (disk : Disk) (calls : List ContextCall)
    (hfresh : NewIds env (Machine.runFrom (state.callStep codec env)
      (World.start governance disk) calls).clock) :
    let log := Machine.logFrom (state.callStep codec env) (World.start governance disk) calls
    (∀ r ∈ log, KeepsContexts state codec env r.before r.input) ↔
      ∀ r ∈ log, HandsOverLive state codec env r.before r.input := by
  intro log
  have hle : ∀ r ∈ log, r.after.clock ≤ (Machine.runFrom (state.callStep codec env)
      (World.start governance disk) calls).clock :=
    Machine.le_runFrom_of_mem_logFrom (state.callStep codec env) le_clock_callStep
  have hlog : ∀ r ∈ log, (KeepsContexts state codec env r.before r.input ↔
      HandsOverLive state codec env r.before r.input) :=
    Machine.forall_mem_logFrom (state.callStep codec env) (I := FreshIds env)
      (G := fun r => NewIds env r.after.clock) (fun w call h hnew => freshIds_callStep h call hnew)
      (fun w call h _ => keepsContexts_iff h call) (fun r hr => hfresh.mono (hle r hr))
      (FreshIds.start governance disk)
  exact forall₂_congr hlog

end Calls

/-! ### Two ways to lose a context -/

/-- The calls of a run that commits one context. -/
def oneContext : List ContextCall :=
  [.decide contextRequest, .commitEvictionContext [⟨"qwen9b"⟩], .execute codingRequest]

/-- Telemetry that accepts no action plan. -/
def refusesPlans (n : ℕ) : Surroundings :=
  { growsHot n with
    record := fun event =>
      match event with
      | .recordActionPlan _ => .error "disk full"
      | _ => .ok () }

/-- Ten minutes pass after the first commit, and the large model becomes hot after the
second. -/
def waitsLong (n : ℕ) : Surroundings :=
  { (default : Surroundings) with
    now := ⟨if n < 26 then 0 else 600000000000 + n * 3000000000⟩
    newUuid := ⟨n⟩
    inspect := fun id =>
      hotAnswer id (if id = "a" then ["qwen9b"] else if n < 50 then [] else ["qwen70b"]) }

/-- The calls of a run that commits two contexts, one after the other. -/
def twoContexts : List ContextCall :=
  [.decide contextRequest, .commitEvictionContext [⟨"qwen9b"⟩], .decide contextRequest,
   .commitEvictionContext [⟨"qwen9b"⟩], .execute codingRequest]

/-- The state before the last call of a run. -/
def beforeLast (env : ℕ → Surroundings) (calls : List ContextCall) : World :=
  Machine.runFrom (twoRuntimes.callStep default env) twoRuntimesStart calls.dropLast

/-- Telemetry refuses the plan, and the context has been taken. -/
theorem not_keepsContexts_refusesPlans :
    ¬KeepsContexts twoRuntimes default refusesPlans (beforeLast refusesPlans oneContext)
      (.execute codingRequest) := by
  intro h
  have hlookup : (beforeLast refusesPlans oneContext).escalationContext.entries.lookup ⟨20⟩ =
      some ⟨"notes", ⟨75000000000⟩⟩ := by decide +kernel
  have hresponse : (twoRuntimes.callStep default refusesPlans
      (beforeLast refusesPlans oneContext) (.execute codingRequest)).1 = none := by
    decide +kernel
  rcases h.leaves ⟨20⟩ _ hlookup (by decide +kernel) with ⟨r, hr, -⟩ | hexpired | ⟨_, hnone, -⟩
  · rw [hresponse] at hr
    cases hr
  · revert hexpired
    decide +kernel
  · cases hnone

/-- The first intent's context has expired, and that of the second one is not looked for. -/
theorem not_keepsContexts_waitsLong :
    ¬KeepsContexts twoRuntimes default waitsLong (beforeLast waitsLong twoContexts)
      (.execute codingRequest) := by
  intro h
  have hresponse : (twoRuntimes.callStep default waitsLong
      (beforeLast waitsLong twoContexts) (.execute codingRequest)).1.map
        (fun r => (r.decision.selectedModel, r.handoff.escalationContext)) =
      some (some ⟨"qwen70b"⟩, none) := by decide +kernel
  obtain ⟨r, hr, hfields⟩ := Option.map_eq_some_iff.mp hresponse
  obtain ⟨hmodel, hcontext⟩ := Prod.mk.inj hfields
  obtain ⟨payload, hpayload⟩ :=
    h.answers codingRequest r ⟨"qwen70b"⟩ rfl hr hmodel (by decide +kernel)
  rw [hcontext] at hpayload
  cases hpayload

/-- The condition fails there: the first committed intent refers to no live entry. -/
theorem contextsKept_iff_waitsLong :
    ¬∀ r ∈ Machine.logFrom (twoRuntimes.callStep default waitsLong) twoRuntimesStart twoContexts,
      HandsOverLive twoRuntimes default waitsLong r.before r.input := by
  have hiff := contextsKept_iff twoRuntimes default waitsLong (.new twoRuntimesConfig {} none)
    ⟨none, none⟩ twoContexts (newIds_of_count (fun _ => rfl) (by decide +kernel))
  exact fun h => not_keepsContexts_waitsLong (hiff.mpr h _
    ((Machine.mem_logFrom_iff _).mpr ⟨twoContexts.dropLast, _, [], rfl, rfl⟩))

/-- In both runs a context is lost: one that was live when it was taken, and one that is
live and is not handed off. -/
theorem not_contextsKept :
    (∃ r ∈ Machine.logFrom (twoRuntimes.callStep default refusesPlans) twoRuntimesStart
        oneContext, ¬KeepsContexts twoRuntimes default refusesPlans r.before r.input) ∧
      ∃ r ∈ Machine.logFrom (twoRuntimes.callStep default waitsLong) twoRuntimesStart
        twoContexts, ¬KeepsContexts twoRuntimes default waitsLong r.before r.input :=
  ⟨⟨_, (Machine.mem_logFrom_iff _).mpr ⟨oneContext.dropLast, _, [], rfl, rfl⟩,
      not_keepsContexts_refusesPlans⟩,
    ⟨_, (Machine.mem_logFrom_iff _).mpr ⟨twoContexts.dropLast, _, [], rfl, rfl⟩,
      not_keepsContexts_waitsLong⟩⟩

end AppState

end Anemoi
