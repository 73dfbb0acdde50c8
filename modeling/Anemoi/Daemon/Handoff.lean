import Anemoi.Daemon.Decisions
import Anemoi.Daemon.EscalationCache
import Anemoi.Daemon.Footprints
import Anemoi.Systems.Phases

/-!
# Handing an escalation context over

A context that a request declares moves from holder to holder: it is pending in the
intent that its decision queues, a commit moves it into the escalation cache and leaves a
reference in the intent, `/execute` takes the reference from the queue and then, in a step
of its own, the payload from the cache, and puts it into its response. Other executions
may run between any two of these steps.

`handed_off_once` says of every interleaving that a payload is in at most one response,
which is one for the model the payload was declared for, and never pending and in the
cache at once. The invariant is `Handoff`; it needs that the ids of intents are unique.
-/

namespace Anemoi

open Systems

/-! ### The calls and what they leave in the trace -/

/-- The calls that may overlap. -/
inductive ContextCall where
  | decide (request : InferenceRequest)
  | commitEvictionContext (drainingModels : List ModelId)
  | execute (request : InferenceRequest)
  | stagingTick

/-- A call, with the response if it is an `/execute` that succeeds. -/
def AppState.contextCall (state : AppState) : ContextCall → Daemon (Option ExecuteResponse)
  | .decide request => do
      let _ ← state.decide request
      return none
  | .commitEvictionContext drainingModels => do
      let _ ← Daemon.commitEvictionContext drainingModels
      return none
  | .execute request => do
      let response ← state.execute request
      return response.toOption
  | .stagingTick => do
      state.runStagingTick
      return none

/-- The threads of some calls, over a daemon's state. -/
def AppState.handingOff (state : AppState) (calls : List ContextCall) (w : World) :
    Pool Cmd Cmd.Resp (Option ExecuteResponse) World :=
  ⟨calls.map state.contextCall, w⟩

/-- The intents that were queued, as they came in. -/
def enqueuedIntents (trace : List (ℕ × Program.Event Cmd.Resp)) : List StagingIntent :=
  trace.filterMap fun e =>
    match e.2 with
    | ⟨.enqueue intent, _⟩ => some intent
    | _ => none

/-- The payloads that were taken from the cache: by which thread, and of which intent. -/
def contextsTaken (trace : List (ℕ × Program.Event Cmd.Resp)) : List (ℕ × Uuid × String) :=
  trace.filterMap fun e =>
    match e.2 with
    | ⟨.takeContext contextRef, some payload⟩ => some (e.1, contextRef.intentId, payload)
    | _ => none

/-- What one thread took. -/
def takenBy (trace : List (ℕ × Program.Event Cmd.Resp)) (i : ℕ) : List (Uuid × String) :=
  ((contextsTaken trace).filter fun t => t.1 = i).map Prod.snd

/-- The thread has finished with a response that carries a payload, which is what it took
from the cache, and it took that of the intent. -/
def HandsOff (pool : Pool Cmd Cmd.Resp (Option ExecuteResponse) World)
    (trace : List (ℕ × Program.Event Cmd.Resp)) (i : ℕ) (intent : StagingIntent)
    (response : ExecuteResponse) (payload : String) : Prop :=
  pool.threads[i]? = some (.pure (some response)) ∧
    response.handoff.escalationContext = some payload ∧
    takenBy trace i = [(intent.id, payload)]

/-! ### The phases of a call -/

/-- The references and the payloads that a thread has taken so far. -/
structure HandoffPhase where
  refs : List (ModelId × ContextRef) := []
  taken : List (Uuid × String) := []

namespace HandoffPhase

def next (phase : HandoffPhase) : Program.Event Cmd.Resp → HandoffPhase
  | ⟨.takeContextRef model, some contextRef⟩ =>
      { phase with refs := phase.refs ++ [(model, contextRef)] }
  | ⟨.takeContext contextRef, some payload⟩ =>
      { phase with taken := phase.taken ++ [(contextRef.intentId, payload)] }
  | _ => phase

/-- An intent has no reference when it is queued. -/
def Allows (_ : HandoffPhase) (c : Cmd) : Prop :=
  ∀ intent, c = .enqueue intent → intent.contextRef = none

theorem next_of_area {c : Cmd} (hc : c.area ≠ .handingOff) (phase : HandoffPhase)
    (r : c.Resp) : phase.next ⟨c, r⟩ = phase := by
  cases c with
  | takeContextRef model => exact absurd rfl hc
  | takeContext contextRef => exact absurd rfl hc
  | _ => rfl

end HandoffPhase

/-- A program follows its phases with regard to the contexts. -/
abbrev Hands {α : Type} (post : α → HandoffPhase → Prop) (phase : HandoffPhase)
    (p : Daemon α) : Prop :=
  Program.Follows HandoffPhase.next (fun _ _ => True) HandoffPhase.Allows post phase p

section Threads

variable {α : Type} {p : Daemon α}

theorem hands_of_within {areas : List Area} (hp : Within areas p)
    (henqueueing : Area.enqueueing ∉ areas) (hhandingOff : Area.handingOff ∉ areas)
    (phase : HandoffPhase) : Hands (fun _ q => q = phase) phase p := by
  refine (Program.follows_of_ensures hp ?_ ?_).mono fun _ _ h => h.2
  · rintro c hc intent rfl
    exact absurd hc henqueueing
  · intro c r hc
    exact HandoffPhase.next_of_area (fun he => hhandingOff (he ▸ hc)) phase r

theorem hands_of_deciding (hp : Deciding p) (phase : HandoffPhase) :
    Hands (fun _ q => q = phase) phase p := by
  refine (Program.follows_of_ensures hp ?_ ?_).mono fun _ _ h => h.2
  · rintro c hc intent rfl
    rcases hc with hc | ⟨_, hintent, hnone⟩
    · cases hc
    · exact Cmd.enqueue.inj hintent ▸ hnone
  · rintro c r (hc | ⟨intent, rfl, -⟩)
    · exact HandoffPhase.next_of_area (by rw [hc]; decide) phase r
    · rfl

theorem hands_decide (state : AppState) (request : InferenceRequest) (phase : HandoffPhase) :
    Hands (fun _ q => q = phase) phase (state.decide request) := by
  refine Program.Follows.bind
    (hands_of_within state.within_refresh (by decide) (by decide) phase) ?_
  rintro _ q rfl
  refine Program.Follows.bind
    (hands_of_within within_getSnapshots (by decide) (by decide) q) ?_
  rintro snapshots q rfl
  exact hands_of_deciding (state.deciding_decideOn request snapshots) q

/-- Taking the context that waits for the selected model. -/
theorem hands_handOffContext (decision : Decision) :
    Hands (fun context q => ∀ payload, context = some payload → ∃ model contextRef,
      decision.selectedModel = some model ∧
        q = ⟨[(model, contextRef)], [(contextRef.intentId, payload)]⟩) {}
      (AppState.handOffContext decision) := by
  unfold AppState.handOffContext
  split
  next model hmodel =>
    refine ⟨fun _ h => Cmd.noConfusion h, fun contextRef _ => ?_⟩
    cases contextRef with
    | none =>
        rintro payload ⟨⟩
    | some contextRef =>
        refine ⟨fun _ h => Cmd.noConfusion h, fun taken _ => ?_⟩
        rintro payload rfl
        exact ⟨model, contextRef, hmodel, rfl⟩
  next =>
    rintro payload ⟨⟩

/-- What a thread that ran `/execute` has taken when it returns a context. -/
def AnswersTaken (response : Option ExecuteResponse) (phase : HandoffPhase) : Prop :=
  ∀ r, response = some r → ∀ payload, r.handoff.escalationContext = some payload →
    ∃ model contextRef, r.decision.selectedModel = some model ∧
      phase = ⟨[(model, contextRef)], [(contextRef.intentId, payload)]⟩

theorem answersTaken_none (phase : HandoffPhase) : AnswersTaken none phase := by
  rintro r ⟨⟩

theorem hands_executeDecision (state : AppState) (decision : Decision) :
    Hands (fun response q => AnswersTaken response.toOption q) {}
      (state.executeDecision decision) := by
  refine Program.Follows.bind (hands_handOffContext decision) ?_
  intro context q hcontext
  refine Program.Follows.bind
    (hands_of_within state.within_liveExecuteEnabled (by decide) (by decide) q) ?_
  rintro live q rfl
  refine Program.Follows.bind
    (hands_of_within (within_generateActionPlan decision _) (by decide) (by decide) q) ?_
  rintro plan q rfl
  refine Program.Follows.bind
    (hands_of_within (within_recordActionPlan plan) (by decide) (by decide) q) ?_
  rintro recorded q rfl
  cases recorded with
  | error e => exact answersTaken_none q
  | ok _ =>
      refine Program.Follows.bind
        (hands_of_within (state.within_executeActions live plan.actions) (by decide) (by decide)
          q) ?_
      rintro ⟨loadRequested, results⟩ q rfl
      rintro r hr payload hpayload
      obtain rfl := Option.some.inj hr
      exact hcontext payload hpayload

theorem hands_execute (state : AppState) (request : InferenceRequest) :
    Hands (fun response q => AnswersTaken response.toOption q) {} (state.execute request) := by
  refine Program.Follows.bind (hands_decide state request {}) ?_
  rintro decided q rfl
  cases decided with
  | error e => exact answersTaken_none {}
  | ok decision => exact hands_executeDecision state decision

theorem hands_contextCall (state : AppState) (call : ContextCall) :
    Hands AnswersTaken {} (state.contextCall call) := by
  cases call with
  | decide request =>
      refine Program.Follows.bind (hands_decide state request {}) ?_
      exact fun _ q _ => answersTaken_none q
  | commitEvictionContext drainingModels =>
      exact ⟨fun _ h => Cmd.noConfusion h, fun _ _ => answersTaken_none _⟩
  | execute request =>
      refine Program.Follows.bind (hands_execute state request) ?_
      intro response q h
      exact h
  | stagingTick =>
      refine Program.Follows.bind
        (hands_of_within state.within_runStagingTick (by decide) (by decide) {}) ?_
      exact fun _ q _ => answersTaken_none q

end Threads

/-! ### Where a payload may be -/

/-- The intent in the queue is the one that was queued, and its context is still pending
or has been committed. -/
structure Carries (queued intent : StagingIntent) : Prop where
  id : intent.id = queued.id
  backgroundModel : intent.backgroundModel = queued.backgroundModel
  pendingContext : intent.pendingContext = none ∨ intent.pendingContext = queued.pendingContext
  contextRef : ∀ contextRef, intent.contextRef = some contextRef → contextRef = ⟨queued.id⟩

/-- The ids of the intents whose payload was taken from the cache. -/
def takenIds (trace : List (ℕ × Program.Event Cmd.Resp)) : List Uuid :=
  (contextsTaken trace).map fun t => t.2.1

abbrev handoffPhase (trace : List (ℕ × Program.Event Cmd.Resp)) (i : ℕ) : HandoffPhase :=
  Pool.phaseAfter HandoffPhase.next {} i trace

/-- What holds after every event, while the ids of intents are unique. -/
structure Handoff (trace : List (ℕ × Program.Event Cmd.Resp)) (w : World) : Prop where
  carried : List.Forall₂ Carries (enqueuedIntents trace) w.stagingWorker.queue
  pending : ∀ intent ∈ w.stagingWorker.queue, intent.pendingContext ≠ none →
    w.escalationContext.entries.lookup intent.id = none ∧ intent.id ∉ takenIds trace
  cached : ∀ id entry, w.escalationContext.entries.lookup id = some entry →
    (∃ queued ∈ enqueuedIntents trace, queued.id = id ∧
      queued.pendingContext = some entry.payload) ∧ id ∉ takenIds trace
  refs : ∀ i model contextRef, (model, contextRef) ∈ (handoffPhase trace i).refs →
    ∃ queued ∈ enqueuedIntents trace, queued.id = contextRef.intentId ∧
      queued.backgroundModel = model
  taken : ∀ i id payload, (i, id, payload) ∈ contextsTaken trace →
    ∃ queued ∈ enqueuedIntents trace, queued.id = id ∧ queued.pendingContext = some payload
  once : (takenIds trace).Nodup

section Traces

variable {trace : List (ℕ × Program.Event Cmd.Resp)} {i : ℕ}

theorem enqueuedIntents_concat (e : ℕ × Program.Event Cmd.Resp) :
    enqueuedIntents (trace ++ [e]) = enqueuedIntents trace ++ enqueuedIntents [e] :=
  List.filterMap_append

theorem contextsTaken_concat (e : ℕ × Program.Event Cmd.Resp) :
    contextsTaken (trace ++ [e]) = contextsTaken trace ++ contextsTaken [e] :=
  List.filterMap_append

theorem enqueuedIntents_concat_of_ne {c : Cmd} (hc : ∀ intent, c ≠ .enqueue intent)
    (r : c.Resp) : enqueuedIntents (trace ++ [(i, ⟨c, r⟩)]) = enqueuedIntents trace := by
  have hnone : enqueuedIntents [(i, ⟨c, r⟩)] = [] := by
    cases c with
    | enqueue intent => exact absurd rfl (hc intent)
    | _ => rfl
  rw [enqueuedIntents_concat, hnone, List.append_nil]

theorem contextsTaken_concat_of_ne {c : Cmd} (hc : ∀ contextRef, c ≠ .takeContext contextRef)
    (r : c.Resp) : contextsTaken (trace ++ [(i, ⟨c, r⟩)]) = contextsTaken trace := by
  have hnone : contextsTaken [(i, ⟨c, r⟩)] = [] := by
    cases c with
    | takeContext contextRef => exact absurd rfl (hc contextRef)
    | _ => rfl
  rw [contextsTaken_concat, hnone, List.append_nil]

theorem takenIds_concat_of_ne {c : Cmd} (hc : ∀ contextRef, c ≠ .takeContext contextRef)
    (r : c.Resp) : takenIds (trace ++ [(i, ⟨c, r⟩)]) = takenIds trace := by
  rw [takenIds, contextsTaken_concat_of_ne hc, takenIds]

theorem handoffPhase_concat (j : ℕ) (e : Program.Event Cmd.Resp) :
    handoffPhase (trace ++ [(i, e)]) j =
      if i = j then (handoffPhase trace j).next e else handoffPhase trace j :=
  Pool.phaseAfter_concat ..

theorem mem_contextsTaken {id : Uuid} {payload : String}
    (h : takenBy trace i = [(id, payload)]) : (i, id, payload) ∈ contextsTaken trace := by
  have hmem : (id, payload) ∈ takenBy trace i := by
    rw [h]
    exact List.mem_singleton_self _
  obtain ⟨⟨j, t⟩, ht, rfl⟩ := List.mem_map.mp hmem
  obtain ⟨htaken, hj⟩ := List.mem_filter.mp ht
  obtain rfl : j = i := of_decide_eq_true hj
  exact htaken

/-- A thread's phase knows what the thread took. -/
theorem takenBy_eq (trace : List (ℕ × Program.Event Cmd.Resp)) (i : ℕ) :
    takenBy trace i = (handoffPhase trace i).taken := by
  induction trace using List.reverseRecOn with
  | nil => rfl
  | append_singleton trace e ih =>
      obtain ⟨j, c, r⟩ := e
      rw [handoffPhase_concat, takenBy, contextsTaken_concat, List.filter_append, List.map_append]
      rw [takenBy] at ih
      rw [ih]
      have hself : ∀ contextRef payload,
          takenBy [(j, ⟨.takeContext contextRef, some payload⟩)] i =
            if j = i then [(contextRef.intentId, payload)] else [] := by
        intro contextRef payload
        by_cases hj : j = i <;> simp [takenBy, contextsTaken, hj]
      cases c with
      | takeContext contextRef =>
          cases r with
          | none => simp [contextsTaken, HandoffPhase.next]
          | some payload =>
              have h := hself contextRef payload
              rw [takenBy] at h
              rw [h]
              by_cases hj : j = i <;> simp [hj, HandoffPhase.next]
      | takeContextRef model =>
          cases r with
          | none => simp [contextsTaken, HandoffPhase.next]
          | some contextRef => by_cases hj : j = i <;> simp [contextsTaken, HandoffPhase.next, hj]
      | _ => simp [contextsTaken, HandoffPhase.next]

end Traces

namespace Handoff

variable {codec : Codec} {env : ℕ → Surroundings} {trace : List (ℕ × Program.Event Cmd.Resp)}
  {w : World} {i : ℕ}

theorem start (hqueue : w.stagingWorker.queue = [])
    (hcache : w.escalationContext.entries = ∅) : Handoff [] w where
  carried := by
    rw [hqueue]
    exact .nil
  pending := by
    rw [hqueue]
    exact List.forall_mem_nil _
  cached := by
    intro id entry h
    rw [hcache, AList.lookup_empty] at h
    cases h
  refs := by
    intro i model contextRef h
    cases h
  taken := by
    intro i id payload h
    cases h
  once := List.nodup_nil

/-- The events in which an intent is queued or something is taken over. -/
def Marks : Program.Event Cmd.Resp → Prop
  | ⟨.enqueue _, _⟩ | ⟨.takeContextRef _, some _⟩ | ⟨.takeContext _, some _⟩ => True
  | _ => False

/-- Another event leaves no mark; what it has to keep is the queue and the cache. -/
theorem unmarked (h : Handoff trace w) {c : Cmd} {r : c.Resp} (hmarks : ¬Marks ⟨c, r⟩)
    {w' : World}
    (hcarried : List.Forall₂ Carries (enqueuedIntents trace) w'.stagingWorker.queue)
    (hpending : ∀ intent ∈ w'.stagingWorker.queue, intent.pendingContext ≠ none →
      w'.escalationContext.entries.lookup intent.id = none ∧ intent.id ∉ takenIds trace)
    (hcached : ∀ id entry, w'.escalationContext.entries.lookup id = some entry →
      (∃ queued ∈ enqueuedIntents trace, queued.id = id ∧
        queued.pendingContext = some entry.payload) ∧ id ∉ takenIds trace) :
    Handoff (trace ++ [(i, ⟨c, r⟩)]) w' := by
  have hevent : enqueuedIntents [(i, ⟨c, r⟩)] = [] ∧ contextsTaken [(i, ⟨c, r⟩)] = [] ∧
      ∀ phase : HandoffPhase, phase.next ⟨c, r⟩ = phase := by
    cases c with
    | enqueue intent => exact absurd trivial hmarks
    | takeContextRef model =>
        cases r with
        | none => exact ⟨rfl, rfl, fun _ => rfl⟩
        | some contextRef => exact absurd trivial hmarks
    | takeContext contextRef =>
        cases r with
        | none => exact ⟨rfl, rfl, fun _ => rfl⟩
        | some payload => exact absurd trivial hmarks
    | _ => exact ⟨rfl, rfl, fun _ => rfl⟩
  obtain ⟨hqueued, htaken, hnext⟩ := hevent
  have henqueued : enqueuedIntents (trace ++ [(i, ⟨c, r⟩)]) = enqueuedIntents trace := by
    rw [enqueuedIntents_concat, hqueued, List.append_nil]
  have htaken' : contextsTaken (trace ++ [(i, ⟨c, r⟩)]) = contextsTaken trace := by
    rw [contextsTaken_concat, htaken, List.append_nil]
  have hids : takenIds (trace ++ [(i, ⟨c, r⟩)]) = takenIds trace := by
    rw [takenIds, htaken', takenIds]
  refine ⟨?_, ?_, ?_, ?_, ?_, ?_⟩
  · rw [henqueued]
    exact hcarried
  · rw [hids]
    exact hpending
  · rw [henqueued, hids]
    exact hcached
  · intro j
    rw [handoffPhase_concat, hnext, ite_self, henqueued]
    exact h.refs j
  · rw [htaken', henqueued]
    exact h.taken
  · rw [hids]
    exact h.once

/-- A command that changes neither the queue's contexts nor the cache. -/
theorem quiet (h : Handoff trace w) {c : Cmd} (hmarks : ¬Marks ⟨c, (handle codec env w c).1⟩)
    (hqueue : List.Forall₂ SameContexts w.stagingWorker.queue
      (handle codec env w c).2.stagingWorker.queue)
    (hcache : (handle codec env w c).2.escalationContext = w.escalationContext) :
    Handoff (trace ++ [(i, ⟨c, (handle codec env w c).1⟩)]) (handle codec env w c).2 := by
  refine h.unmarked hmarks ?_ ?_ ?_
  · refine forall₂_trans h.carried hqueue fun queued intent after hcarries hsame => ?_
    exact ⟨hsame.id.trans hcarries.id, hsame.backgroundModel.trans hcarries.backgroundModel,
      hsame.pendingContext ▸ hcarries.pendingContext,
      hsame.contextRef ▸ hcarries.contextRef⟩
  · intro after hafter hpending
    obtain ⟨intent, hintent, hsame⟩ := exists_of_mem_forall₂ hqueue hafter
    rw [hcache, hsame.id]
    exact h.pending intent hintent (hsame.pendingContext ▸ hpending)
  · rw [hcache]
    exact h.cached

/-- Every context is pending in one intent at most. -/
theorem nodup_queue (h : Handoff trace w)
    (hunique : ((enqueuedIntents trace).map StagingIntent.id).Nodup) :
    (w.stagingWorker.queue.map StagingIntent.id).Nodup := by
  have hids : w.stagingWorker.queue.map StagingIntent.id =
      (enqueuedIntents trace).map StagingIntent.id := by
    rw [← List.forall₂_eq_eq_eq, List.forall₂_map_left_iff, List.forall₂_map_right_iff]
    exact h.carried.flip.imp fun _ _ hcarries => hcarries.id
  rw [hids]
  exact hunique

/-- The contexts of the intents whose foreground model drains go into the cache. -/
theorem commit (h : Handoff trace w)
    (hunique : ((enqueuedIntents trace).map StagingIntent.id).Nodup)
    (drainingModels : List ModelId) :
    Handoff (trace ++ [(i, ⟨.commitEvictionContext drainingModels,
        (handle codec env w (.commitEvictionContext drainingModels)).1⟩)])
      (handle codec env w (.commitEvictionContext drainingModels)).2 := by
  have hsame : ∀ {queued intent after : StagingIntent}, Carries queued intent →
      after = intent ∨ StagingWorker.Commits intent after → Carries queued after := by
    rintro queued intent after hcarries (rfl | ⟨payload, -, -, rfl⟩)
    · exact hcarries
    · exact ⟨hcarries.id, hcarries.backgroundModel, Or.inl rfl,
        fun contextRef href => by rw [← Option.some.inj href, hcarries.id]⟩
  have hafter := StagingWorker.forall₂_commitAll drainingModels (env w.clock).now
    w.escalationContext w.stagingWorker.queue
  refine h.unmarked id (forall₂_trans h.carried hafter fun _ _ _ => hsame) ?_ ?_
  · intro after hmem hpending
    obtain ⟨intent, hintent, rfl | ⟨payload, -, -, rfl⟩⟩ := exists_of_mem_forall₂ hafter hmem
    · exact ⟨StagingWorker.lookup_commitAll_of_pending (h.nodup_queue hunique)
        (fun i hi hp => (h.pending i hi hp).1) hmem hpending, (h.pending after hintent hpending).2⟩
    · exact absurd rfl hpending
  · intro id entry hlookup
    rcases StagingWorker.lookup_commitAll hlookup with hold | hnew
    · exact h.cached id entry hold
    · obtain ⟨intent, hintent, after, -, -, rfl, hpayload⟩ := hnew
      obtain ⟨queued, hqueued, hcarries⟩ := exists_of_mem_forall₂ h.carried hintent
      refine ⟨⟨queued, hqueued, hcarries.id.symm, ?_⟩, ?_⟩
      · rcases hcarries.pendingContext with hnone | hsome
        · rw [hnone] at hpayload
          cases hpayload
        · exact hsome ▸ hpayload
      · exact (h.pending intent hintent (by rw [hpayload]; exact Option.some_ne_none _)).2

/-- A fresh intent is queued. -/
theorem enqueue (h : Handoff trace w) {intent : StagingIntent}
    (hfresh : intent.id ∉ (enqueuedIntents trace).map StagingIntent.id)
    (href : intent.contextRef = none) :
    Handoff (trace ++ [(i, ⟨.enqueue intent, (handle codec env w (.enqueue intent)).1⟩)])
      (handle codec env w (.enqueue intent)).2 := by
  have henqueued : enqueuedIntents (trace ++ [(i, ⟨.enqueue intent,
      (handle codec env w (.enqueue intent)).1⟩)]) = enqueuedIntents trace ++ [intent] :=
    enqueuedIntents_concat _
  have htake : ∀ contextRef, Cmd.enqueue intent ≠ .takeContext contextRef :=
    fun _ h => by cases h
  have hphase : ∀ j, handoffPhase (trace ++ [(i, ⟨.enqueue intent,
      (handle codec env w (.enqueue intent)).1⟩)]) j = handoffPhase trace j := by
    intro j
    rw [handoffPhase_concat]
    exact ite_self _
  have hold : ∀ {P : StagingIntent → Prop}, (∃ queued ∈ enqueuedIntents trace, P queued) →
      ∃ queued ∈ enqueuedIntents trace ++ [intent], P queued := by
    rintro P ⟨queued, hqueued, hP⟩
    exact ⟨queued, List.mem_append_left _ hqueued, hP⟩
  have hnot : intent.id ∉ takenIds trace := by
    intro hmem
    obtain ⟨⟨j, id, payload⟩, hj, hid⟩ := List.mem_map.mp hmem
    obtain ⟨queued, hqueued, hid', -⟩ := h.taken j id payload hj
    exact hfresh (List.mem_map.mpr ⟨queued, hqueued, hid'.trans hid⟩)
  refine ⟨?_, ?_, ?_, ?_, ?_, ?_⟩
  · rw [henqueued]
    refine List.rel_append h.carried (.cons ⟨rfl, rfl, Or.inr rfl, ?_⟩ .nil)
    intro contextRef hsome
    rw [href] at hsome
    cases hsome
  · intro after hmem hpending
    rw [takenIds_concat_of_ne htake]
    rcases List.mem_append.mp hmem with hmem | hmem
    · exact h.pending after hmem hpending
    · rw [List.mem_singleton.mp hmem]
      refine ⟨?_, hnot⟩
      cases hlookup : w.escalationContext.entries.lookup intent.id with
      | none => exact hlookup
      | some entry =>
          obtain ⟨⟨queued, hqueued, hid, -⟩, -⟩ := h.cached _ _ hlookup
          exact absurd (hid ▸ List.mem_map_of_mem hqueued) hfresh
  · intro id entry hlookup
    rw [henqueued, takenIds_concat_of_ne htake]
    obtain ⟨hdeclared, huntaken⟩ := h.cached id entry hlookup
    exact ⟨hold hdeclared, huntaken⟩
  · intro j model contextRef hmem
    rw [hphase j] at hmem
    rw [henqueued]
    exact hold (h.refs j model contextRef hmem)
  · intro j id payload hmem
    rw [contextsTaken_concat_of_ne htake] at hmem
    rw [henqueued]
    exact hold (h.taken j id payload hmem)
  · rw [takenIds_concat_of_ne htake]
    exact h.once

/-- A reference that is taken is that of an intent for the model. -/
theorem mem_of_takeContextRef {model : ModelId} {contextRef : ContextRef}
    (h : (handle codec env w (.takeContextRef model)).1 = some contextRef) :
    ∃ intent ∈ w.stagingWorker.queue, intent.backgroundModel = model ∧
      intent.contextRef = some contextRef := by
  replace h : (w.stagingWorker.queue.find? fun intent =>
      intent.backgroundModel = model && intent.contextRef.isSome).bind StagingIntent.contextRef =
        some contextRef := h
  obtain ⟨intent, hfind, href⟩ := Option.bind_eq_some_iff.mp h
  have hmodel := List.find?_some hfind
  rw [Bool.and_eq_true, decide_eq_true_eq] at hmodel
  exact ⟨intent, List.mem_of_find?_eq_some hfind, hmodel.1, href⟩

/-- A reference is taken from the queue. -/
theorem takeRef (h : Handoff trace w) (model : ModelId) :
    Handoff (trace ++ [(i, ⟨.takeContextRef model,
        (handle codec env w (.takeContextRef model)).1⟩)])
      (handle codec env w (.takeContextRef model)).2 := by
  have henqueue : ∀ intent, Cmd.takeContextRef model ≠ .enqueue intent := fun _ h => by cases h
  have htake : ∀ contextRef, Cmd.takeContextRef model ≠ .takeContext contextRef :=
    fun _ h => by cases h
  have hqueue : List.Forall₂
      (fun intent after : StagingIntent => after = { intent with contextRef := after.contextRef } ∧
        (after.contextRef = none ∨ after.contextRef = intent.contextRef))
      w.stagingWorker.queue (handle codec env w (.takeContextRef model)).2.stagingWorker.queue :=
    forall₂_updateFirst (fun _ => ⟨rfl, Or.inr rfl⟩) (fun _ _ => ⟨rfl, Or.inl rfl⟩) _
  refine ⟨?_, ?_, ?_, ?_, ?_, ?_⟩
  · rw [enqueuedIntents_concat_of_ne henqueue]
    refine forall₂_trans h.carried hqueue fun queued intent after hcarries hafter => ?_
    obtain ⟨heq, href⟩ := hafter
    refine ⟨by rw [heq]; exact hcarries.id, by rw [heq]; exact hcarries.backgroundModel,
      by rw [heq]; exact hcarries.pendingContext, fun contextRef hsome => ?_⟩
    rcases href with hnone | hsame
    · rw [hnone] at hsome
      cases hsome
    · exact hcarries.contextRef contextRef (hsame ▸ hsome)
  · intro after hmem hpending
    obtain ⟨intent, hintent, heq, -⟩ := exists_of_mem_forall₂ hqueue hmem
    rw [takenIds_concat_of_ne htake]
    rw [heq] at hpending ⊢
    exact h.pending intent hintent hpending
  · rw [enqueuedIntents_concat_of_ne henqueue, takenIds_concat_of_ne htake]
    exact h.cached
  · intro j model' contextRef hmem
    rw [enqueuedIntents_concat_of_ne henqueue]
    rw [handoffPhase_concat] at hmem
    by_cases hj : i = j
    · rw [if_pos hj] at hmem
      cases hanswer : (handle codec env w (.takeContextRef model)).1 with
      | none =>
          rw [hanswer] at hmem
          exact h.refs j model' contextRef hmem
      | some answer =>
          rw [hanswer] at hmem
          rcases List.mem_append.mp hmem with hmem | hmem
          · exact h.refs j model' contextRef hmem
          · obtain ⟨rfl, rfl⟩ := Prod.mk.inj (List.mem_singleton.mp hmem)
            obtain ⟨intent, hintent, hmodel, href⟩ := mem_of_takeContextRef hanswer
            obtain ⟨queued, hqueued, hcarries⟩ := exists_of_mem_forall₂ h.carried hintent
            refine ⟨queued, hqueued, ?_, hcarries.backgroundModel.symm.trans hmodel⟩
            rw [hcarries.contextRef contextRef href]
    · rw [if_neg hj] at hmem
      exact h.refs j model' contextRef hmem
  · rw [contextsTaken_concat_of_ne htake, enqueuedIntents_concat_of_ne henqueue]
    exact h.taken
  · rw [takenIds_concat_of_ne htake]
    exact h.once

/-- The entry of the cache is taken and its payload handed over. -/
theorem handOver (h : Handoff trace w) {contextRef : ContextRef} {entry : EscalationContextEntry}
    {w' : World} (hqueue : w'.stagingWorker.queue = w.stagingWorker.queue)
    (hentry : w.escalationContext.entries.lookup contextRef.intentId = some entry)
    (hcache : ∀ id, w'.escalationContext.entries.lookup id =
      if id = contextRef.intentId then none else w.escalationContext.entries.lookup id) :
    Handoff (trace ++ [(i, ⟨.takeContext contextRef, some entry.payload⟩)]) w' := by
  have henqueue : ∀ intent, Cmd.takeContext contextRef ≠ .enqueue intent := fun _ h => by cases h
  have htaken : contextsTaken (trace ++ [(i, ⟨.takeContext contextRef, some entry.payload⟩)]) =
      contextsTaken trace ++ [(i, contextRef.intentId, entry.payload)] :=
    contextsTaken_concat _
  have hids : takenIds (trace ++ [(i, ⟨.takeContext contextRef, some entry.payload⟩)]) =
      takenIds trace ++ [contextRef.intentId] := by
    rw [takenIds, htaken, List.map_append, takenIds]
    rfl
  have hrefs : ∀ j, (handoffPhase (trace ++ [(i, ⟨.takeContext contextRef,
      some entry.payload⟩)]) j).refs = (handoffPhase trace j).refs := by
    intro j
    rw [handoffPhase_concat]
    split <;> rfl
  have huntaken : ∀ {id}, id ≠ contextRef.intentId → id ∉ takenIds trace →
      id ∉ takenIds trace ++ [contextRef.intentId] := by
    intro id hne hid
    exact List.not_mem_append hid (List.not_mem_cons_of_ne_of_not_mem hne List.not_mem_nil)
  obtain ⟨hdeclared, hfirst⟩ := h.cached _ entry hentry
  refine ⟨?_, ?_, ?_, ?_, ?_, ?_⟩
  · rw [enqueuedIntents_concat_of_ne henqueue, hqueue]
    exact h.carried
  · intro intent hmem hpending
    rw [hqueue] at hmem
    obtain ⟨hnone, hid⟩ := h.pending intent hmem hpending
    -- the entry that is taken is not that of an intent whose context is pending
    have hne : intent.id ≠ contextRef.intentId := by
      intro heq
      rw [heq, hentry] at hnone
      cases hnone
    rw [hcache, if_neg hne, hids]
    exact ⟨hnone, huntaken hne hid⟩
  · intro id entry' hlookup
    rw [hcache] at hlookup
    split at hlookup
    · cases hlookup
    next hne =>
      obtain ⟨hdeclared', hid⟩ := h.cached id entry' hlookup
      rw [enqueuedIntents_concat_of_ne henqueue, hids]
      exact ⟨hdeclared', huntaken hne hid⟩
  · intro j model contextRef' hmem
    rw [hrefs j] at hmem
    rw [enqueuedIntents_concat_of_ne henqueue]
    exact h.refs j model contextRef' hmem
  · intro j id payload hmem
    rw [enqueuedIntents_concat_of_ne henqueue]
    rw [htaken] at hmem
    rcases List.mem_append.mp hmem with hmem | hmem
    · exact h.taken j id payload hmem
    · cases List.mem_singleton.mp hmem
      exact hdeclared
  · rw [hids]
    exact List.Nodup.append h.once (List.nodup_singleton _) (List.disjoint_singleton.mpr hfirst)

/-- A payload is taken from the cache, if the entry is there and live. -/
theorem takePayload (h : Handoff trace w) (contextRef : ContextRef) :
    Handoff (trace ++ [(i, ⟨.takeContext contextRef,
        (handle codec env w (.takeContext contextRef)).1⟩)])
      (handle codec env w (.takeContext contextRef)).2 := by
  have hcache : ∀ id,
      (handle codec env w (.takeContext contextRef)).2.escalationContext.entries.lookup id =
        if id = contextRef.intentId then none else w.escalationContext.entries.lookup id :=
    EscalationContextCache.lookup_takeAt w.escalationContext contextRef (env w.clock).now
  have hqueue : (handle codec env w (.takeContext contextRef)).2.stagingWorker.queue =
      w.stagingWorker.queue := rfl
  cases hanswer : (handle codec env w (.takeContext contextRef)).1 with
  | none =>
      refine h.unmarked id (hqueue ▸ h.carried) (fun intent hmem hpending => ?_)
        fun id entry hlookup => ?_
      · obtain ⟨hnone, hid⟩ := h.pending intent hmem hpending
        rw [hcache, hnone, ite_self]
        exact ⟨rfl, hid⟩
      · rw [hcache] at hlookup
        split at hlookup
        · cases hlookup
        · exact h.cached id entry hlookup
  | some payload =>
      obtain ⟨entry, hentry, rfl⟩ := EscalationContextCache.lookup_of_takeAt hanswer
      exact h.handOver hqueue hentry hcache

/-- The ids of the intents queued up to this event are unique. -/
def UniqueSoFar (before : List (ℕ × Program.Event Cmd.Resp))
    (e : ℕ × Program.Event Cmd.Resp) : Prop :=
  ((enqueuedIntents (before ++ [e])).map StagingIntent.id).Nodup

theorem always_uniqueSoFar (h : ((enqueuedIntents trace).map StagingIntent.id).Nodup) :
    Always UniqueSoFar trace := by
  rintro before e after rfl
  have hsplit : before ++ e :: after = (before ++ [e]) ++ after := by simp
  rw [hsplit, enqueuedIntents, List.filterMap_append, List.map_append] at h
  exact (List.nodup_append.mp h).1

theorem step (h : Handoff trace w) {c : Cmd} (hallows : (handoffPhase trace i).Allows c)
    (hunique : UniqueSoFar trace (i, ⟨c, (handle codec env w c).1⟩)) :
    Handoff (trace ++ [(i, ⟨c, (handle codec env w c).1⟩)]) (handle codec env w c).2 := by
  rw [UniqueSoFar, enqueuedIntents_concat, List.map_append] at hunique
  cases c with
  | enqueue intent =>
      have hfresh := (List.nodup_append.mp hunique).2.2
      exact h.enqueue (fun hmem => hfresh _ hmem _ List.mem_cons_self rfl) (hallows intent rfl)
  | commitEvictionContext drainingModels =>
      exact h.commit (List.nodup_append.mp hunique).1 drainingModels
  | takeContextRef model => exact h.takeRef model
  | takeContext contextRef => exact h.takePayload contextRef
  | updateState intentId newState error =>
      exact h.quiet id (sameContexts_updateState w.stagingWorker intentId newState error) rfl
  | noteTick intentId skipReason =>
      exact h.quiet id (sameContexts_noteTick w.stagingWorker intentId skipReason) rfl
  | reconcileReady readyModels =>
      exact h.quiet id (sameContexts_reconcileReady w.stagingWorker readyModels) rfl
  | _ => exact h.quiet id (List.forall₂_same.mpr fun intent _ => .refl intent) rfl

end Handoff

/-- In every interleaving of decisions, commits, executions and staging ticks, if the ids
of the queued intents are unique: a response that carries a payload is for the model of
the intent it was declared for; no two responses carry the payload of one intent; and a
payload that is pending in its intent is not in the cache, which holds an intent's own
payload only. -/
theorem handed_off_once (state : AppState) (codec : Codec) (env : ℕ → Surroundings)
    (calls : List ContextCall) (w : World) (schedule : List ℕ)
    (hqueue : w.stagingWorker.queue = []) (hcache : w.escalationContext.entries = ∅)
    (hunique : ((enqueuedIntents (Pool.trace (handle codec env) (state.handingOff calls w)
      schedule)).map StagingIntent.id).Nodup) :
    let trace := Pool.trace (handle codec env) (state.handingOff calls w) schedule
    let after := Machine.runFrom (Pool.step (handle codec env)) (state.handingOff calls w)
      schedule
    (∀ i response payload, after.threads[i]? = some (.pure (some response)) →
        response.handoff.escalationContext = some payload →
          ∃ intent ∈ enqueuedIntents trace, intent.pendingContext = some payload ∧
            HandsOff after trace i intent response payload ∧
              response.decision.selectedModel = some intent.backgroundModel) ∧
      (∀ intent i j response response' payload payload',
        HandsOff after trace i intent response payload →
          HandsOff after trace j intent response' payload' → i = j) ∧
        (∀ intent ∈ after.shared.stagingWorker.queue, intent.pendingContext = none ∨
          after.shared.escalationContext.entries.lookup intent.id = none) ∧
          ∀ id entry, after.shared.escalationContext.entries.lookup id = some entry →
            ∃ intent ∈ enqueuedIntents trace, intent.id = id ∧
              intent.pendingContext = some entry.payload := by
  intro trace after
  have hthreads : ∀ p ∈ (state.handingOff calls w).threads, Hands AnswersTaken {} p := by
    intro p hp
    obtain ⟨call, -, rfl⟩ := List.mem_map.mp hp
    exact hands_contextCall state call
  obtain ⟨hrun, hphases⟩ := Pool.invariant_trace (fun _ _ => trivial) hthreads
    (Handoff.start hqueue hcache) (fun trace w i c h hok hG => h.step hok hG)
    (Handoff.always_uniqueSoFar hunique)
  refine ⟨?_, ?_, ?_, ?_⟩
  · intro i response payload hthread hpayload
    obtain ⟨model, contextRef, hmodel, hphase⟩ :=
      hphases i _ hthread response rfl payload hpayload
    replace hphase : handoffPhase trace i =
        ⟨[(model, contextRef)], [(contextRef.intentId, payload)]⟩ := hphase
    have htaken : takenBy trace i = [(contextRef.intentId, payload)] := by
      rw [takenBy_eq, hphase]
    have href : (model, contextRef) ∈ (handoffPhase trace i).refs := by
      rw [hphase]
      exact List.mem_singleton_self _
    obtain ⟨intent, hintent, hid, hmodel'⟩ := hrun.refs i model contextRef href
    obtain ⟨intent', hintent', hid', hpending⟩ :=
      hrun.taken i _ payload (mem_contextsTaken htaken)
    obtain rfl := List.inj_on_of_nodup_map hunique hintent' hintent (hid'.trans hid.symm)
    refine ⟨intent', hintent, hpending, ⟨hthread, hpayload, ?_⟩, ?_⟩
    · rw [htaken, hid]
    · rw [hmodel, hmodel']
  · rintro intent i j response response' payload payload' ⟨-, -, hi⟩ ⟨-, -, hj⟩
    have heq := List.inj_on_of_nodup_map hrun.once (mem_contextsTaken hi) (mem_contextsTaken hj)
      rfl
    exact congrArg Prod.fst heq
  · intro intent hintent
    by_cases hpending : intent.pendingContext = none
    · exact Or.inl hpending
    · exact Or.inr (hrun.pending intent hintent hpending).1
  · intro id entry hlookup
    exact (hrun.cached id entry hlookup).1

/-! ### Two executions at once -/

open AppState

/-- The clock runs, every id is new, and the large model becomes hot. -/
def growsHot (n : ℕ) : Surroundings :=
  { (default : Surroundings) with
    now := ⟨n * 3000000000⟩
    newUuid := ⟨n⟩
    inspect := fun id =>
      hotAnswer id (if id = "a" then ["qwen9b"] else if n < 20 then [] else ["qwen70b"]) }

/-- A request that declares a context. -/
def contextRequest : InferenceRequest :=
  { codingRequest with escalationIntent := some ⟨none, some "notes"⟩ }

/-- A context is declared and committed, and two executions want it. -/
def contextCalls : List ContextCall :=
  [.decide contextRequest, .commitEvictionContext [⟨"qwen9b"⟩], .execute codingRequest,
   .execute codingRequest]

/-- The first two run one after the other, and then the executions in turns. -/
def contextSchedule : List ℕ :=
  List.replicate 25 0 ++ [1] ++ (List.replicate 40 [2, 3]).flatten

def contextTrace : List (ℕ × Program.Event Cmd.Resp) :=
  Pool.trace (handle default growsHot) (twoRuntimes.handingOff contextCalls twoRuntimesStart)
    contextSchedule

def contextsHandedOff : Pool Cmd Cmd.Resp (Option ExecuteResponse) World :=
  Machine.runFrom (Pool.step (handle default growsHot))
    (twoRuntimes.handingOff contextCalls twoRuntimesStart) contextSchedule

/-- The response of a thread. -/
def answerOf (p : Daemon (Option ExecuteResponse)) : Option ExecuteResponse :=
  match p with
  | .pure response => response
  | .call _ _ => none

/-- One of them gets it. -/
theorem handed_off_once_twoExecutes :
    contextsHandedOff.threads.map (fun p =>
        (answerOf p).map fun r => (r.decision.selectedModel, r.handoff.escalationContext)) =
      [none, none, some (some ⟨"qwen70b"⟩, some "notes"), some (some ⟨"qwen70b"⟩, none)] ∧
    contextsTaken contextTrace = [(2, ⟨20⟩, "notes")] ∧
      ∀ intent i j response response' payload payload',
        HandsOff contextsHandedOff contextTrace i intent response payload →
          HandsOff contextsHandedOff contextTrace j intent response' payload' → i = j :=
  ⟨by decide +kernel, by decide +kernel,
    (handed_off_once twoRuntimes default growsHot contextCalls twoRuntimesStart contextSchedule
      rfl rfl (by decide +kernel)).2.1⟩

end Anemoi
