import Anemoi.Daemon.Decisions
import Anemoi.Daemon.Footprints
import Anemoi.Daemon.Transitions
import Anemoi.Systems.Phases

/-!
# Overlapping reconciliations

The background loop and every decision may run a reconciliation tick, and nothing keeps
two ticks apart. A tick inspects a runtime, reads the runtime's entry of the cache,
records what changed against it, and stores the new snapshot; between any two of these
another tick may do the same.

`Watch` is what an observer of a run notes about one runtime. `reconciliation_in_turn`
says when overlapping ticks do no harm: a tick reads the entry only when no other stands
between its reading and its update, and none that inspected later has updated already.
Then the cached snapshot never gets older, and the recorded transitions of a model that
every inspection reports are the changes between consecutive cached snapshots.
-/

namespace Anemoi

open Systems

/-! ### What a run did to one runtime -/

/-- The events seen so far, when each thread last inspected the runtime successfully, the
threads that have read the entry and not stored theirs yet, and when the snapshot in the
cache was inspected. A time is a number of events; zero is before the run. -/
structure Watch where
  events : ℕ := 0
  inspected : ℕ → ℕ := fun _ => 0
  comparing : List ℕ := []
  cached : ℕ := 0

namespace Watch

/-- What the observer notes at one event of the thread `i`. -/
def note (runtimeId : String) (watch : Watch) (i : ℕ) :
    Program.Event Cmd.Resp → Watch
  | ⟨.inspect id, .ok _⟩ =>
      if id = runtimeId then
        { watch with inspected := Function.update watch.inspected i (watch.events + 1) }
      else watch
  | ⟨.getReconciled id, _⟩ =>
      if id = runtimeId then { watch with comparing := i :: watch.comparing } else watch
  | ⟨.updateSnapshot id _, _⟩ =>
      if id = runtimeId then
        { watch with
          comparing := watch.comparing.filter fun j => j ≠ i
          cached := watch.inspected i }
      else watch
  | _ => watch

def observe (runtimeId : String) (watch : Watch) (e : ℕ × Program.Event Cmd.Resp) : Watch :=
  { watch.note runtimeId e.1 e.2 with events := watch.events + 1 }

/-- What the observer has noted after a trace. -/
def after (runtimeId : String) (trace : List (ℕ × Program.Event Cmd.Resp)) : Watch :=
  trace.foldl (observe runtimeId) {}

theorem after_concat (runtimeId : String) (trace : List (ℕ × Program.Event Cmd.Resp))
    (e : ℕ × Program.Event Cmd.Resp) :
    after runtimeId (trace ++ [e]) = (after runtimeId trace).observe runtimeId e :=
  List.foldl_concat ..

end Watch

/-- Does the command read the runtime's entry to compare with it? -/
def Cmd.readsEntry (runtimeId : String) : Cmd → Bool
  | getReconciled id => id = runtimeId
  | _ => false

/-- Does the command store a snapshot of the runtime? -/
def Cmd.storesEntry (runtimeId : String) : Cmd → Bool
  | updateSnapshot id _ => id = runtimeId
  | _ => false

/-- A snapshot that is stored was not inspected before the one it replaces. -/
def StoresNewer (runtimeId : String) (before : List (ℕ × Program.Event Cmd.Resp))
    (e : ℕ × Program.Event Cmd.Resp) : Prop :=
  e.2.1.storesEntry runtimeId = true →
    (Watch.after runtimeId before).cached ≤ (Watch.after runtimeId before).inspected e.1

/-- A thread that reads the entry of the cache reads it when no other stands between its
reading and its update, and none that inspected later has updated it. -/
def ReadsInTurn (runtimeId : String) (before : List (ℕ × Program.Event Cmd.Resp))
    (e : ℕ × Program.Event Cmd.Resp) : Prop :=
  e.2.1.readsEntry runtimeId = true →
    (Watch.after runtimeId before).comparing = [] ∧
      (Watch.after runtimeId before).cached ≤ (Watch.after runtimeId before).inspected e.1

instance (runtimeId : String) (before : List (ℕ × Program.Event Cmd.Resp))
    (e : ℕ × Program.Event Cmd.Resp) : Decidable (StoresNewer runtimeId before e) :=
  inferInstanceAs (Decidable (_ → _))

instance (runtimeId : String) (before : List (ℕ × Program.Event Cmd.Resp))
    (e : ℕ × Program.Event Cmd.Resp) : Decidable (ReadsInTurn runtimeId before e) :=
  inferInstanceAs (Decidable (_ → _))

/-- The transitions that were recorded for a runtime, with the model. -/
def recordedTransitions (runtimeId : String)
    (trace : List (ℕ × Program.Event Cmd.Resp)) : List (String × ResidencyChange) :=
  trace.filterMap fun e =>
    match e.2 with
    | ⟨.record (.recordResidentTransition record), _⟩ =>
        if record.runtimeId = runtimeId then
          some (record.modelId, record.fromState, record.toState)
        else none
    | _ => none

/-- The snapshots that were stored for a runtime. -/
def storedSnapshots (runtimeId : String)
    (trace : List (ℕ × Program.Event Cmd.Resp)) : List RuntimeSnapshot :=
  trace.filterMap fun e =>
    match e.2 with
    | ⟨.updateSnapshot id snapshot, _⟩ => if id = runtimeId then some snapshot else none
    | _ => none

/-- The residents that the cache has for a runtime. -/
def World.cachedResidents (w : World) (runtimeId : String) : List ModelResident :=
  ((w.reconciler.cache.lookup runtimeId).map fun r => r.snapshot.residents).getD []

/-! ### The phases of a tick -/

/-- Where a thread stands with one runtime: it has nothing under way, it has inspected the
runtime, or it has read the residents to compare with and recorded some transitions. -/
inductive ReconcilePhase where
  | idle
  | inspected (snapshot : RuntimeSnapshot)
  | comparing (snapshot : RuntimeSnapshot) (prior : List ModelResident)
      (recorded : List (String × ResidencyChange))

/-- Has the command to do with the runtime's entry of the cache? -/
def Cmd.reconciles (runtimeId : String) : Cmd → Prop
  | inspect id | getReconciled id | updateSnapshot id _ => id = runtimeId
  | record (.recordResidentTransition transition) => transition.runtimeId = runtimeId
  | _ => False

namespace ReconcilePhase

def next (runtimeId : String) (phase : ReconcilePhase) :
    Program.Event Cmd.Resp → ReconcilePhase
  | ⟨.inspect id, .ok snapshot⟩ =>
      if id = runtimeId then inspected snapshot.val else phase
  | ⟨.getReconciled id, previous⟩ =>
      if id = runtimeId then
        match phase with
        | inspected snapshot =>
            comparing snapshot ((previous.map fun p => p.snapshot.residents).getD []) []
        | phase => phase
      else phase
  | ⟨.record (.recordResidentTransition record), _⟩ =>
      if record.runtimeId = runtimeId then
        match phase with
        | comparing snapshot prior recorded =>
            comparing snapshot prior
              (recorded ++ [(record.modelId, record.fromState, record.toState)])
        | phase => phase
      else phase
  | ⟨.updateSnapshot id _, _⟩ => if id = runtimeId then idle else phase
  | _ => phase

/-- What a thread does next about the runtime. -/
def Allows (runtimeId : String) (phase : ReconcilePhase) (c : Cmd) : Prop :=
  c.reconciles runtimeId →
    match phase with
    | idle => c = .inspect runtimeId
    | inspected _ => c = .getReconciled runtimeId
    | comparing snapshot prior recorded =>
        (∃ record, c = .record (.recordResidentTransition record)) ∨
          c = .updateSnapshot runtimeId snapshot ∧
            recorded = snapshotTransitions prior snapshot.residents

theorem next_of_not_reconciles {runtimeId : String} {c : Cmd} (hc : ¬c.reconciles runtimeId)
    (phase : ReconcilePhase) (r : c.Resp) : phase.next runtimeId ⟨c, r⟩ = phase := by
  cases c with
  | inspect id =>
      have hne : ¬id = runtimeId := hc
      cases r with
      | ok snapshot => exact if_neg hne
      | error e => rfl
  | getReconciled id =>
      have hne : ¬id = runtimeId := hc
      exact if_neg hne
  | updateSnapshot id snapshot =>
      have hne : ¬id = runtimeId := hc
      exact if_neg hne
  | record event =>
      cases event with
      | recordResidentTransition transition =>
          have hne : ¬transition.runtimeId = runtimeId := hc
          exact if_neg hne
      | _ => rfl
  | _ => rfl

end ReconcilePhase

open AppState ReconcilePhase

section Threads

variable {runtimeId : String}

/-- A program follows its phases with regard to one runtime. -/
abbrev Reconciles (runtimeId : String) {α : Type} (post : α → ReconcilePhase → Prop)
    (phase : ReconcilePhase) (p : Daemon α) : Prop :=
  Program.Follows (ReconcilePhase.next runtimeId) (fun _ _ => True) (Allows runtimeId) post
    phase p

/-- A command that has nothing to do with the runtime changes nothing. -/
theorem reconciles_perform (c : Cmd) (hc : ¬c.reconciles runtimeId) (phase : ReconcilePhase) :
    Reconciles runtimeId (fun _ q => q = phase) phase (Program.perform c) :=
  Program.follows_perform (fun h => absurd h hc) fun r _ => next_of_not_reconciles hc phase r

theorem reconciles_of_ensures {α : Type} {p : Daemon α} {post : α → Prop}
    (hp : Program.Ensures (fun _ _ => True) (fun c => ¬c.reconciles runtimeId) post p)
    (phase : ReconcilePhase) : Reconciles runtimeId (fun _ q => q = phase) phase p :=
  (Program.follows_of_ensures hp (fun _ hc h => absurd h hc)
    fun _ r hc => next_of_not_reconciles hc phase r).mono fun _ _ h => h.2

/-- Recording transitions one after another. -/
theorem reconciles_forM_record (record : ResidentTransitionDetail → ResidentTransitionRecord)
    (hrecord : ∀ t, (record t).runtimeId = runtimeId ∧
      ((record t).modelId, (record t).fromState, (record t).toState) =
        (t.modelId.text, t.fromState, t.toState))
    (snapshot : RuntimeSnapshot) (prior : List ModelResident)
    (transitions : List ResidentTransitionDetail) (recorded : List (String × ResidencyChange)) :
    Reconciles runtimeId
      (fun _ q => q = comparing snapshot prior
        (recorded ++ transitions.map fun t => (t.modelId.text, t.fromState, t.toState)))
      (comparing snapshot prior recorded)
      (transitions.forM fun t => do
        let _ ← Daemon.record (.recordResidentTransition (record t))) := by
  induction transitions generalizing recorded with
  | nil =>
      rw [List.map_nil, List.append_nil]
      rfl
  | cons t transitions ih =>
      refine Program.Follows.bind (R := fun _ q => q = comparing snapshot prior
        (recorded ++ [(t.modelId.text, t.fromState, t.toState)])) ?_ ?_
      · refine ⟨fun _ => Or.inl ⟨_, rfl⟩, fun r _ => ?_⟩
        rw [← (hrecord t).2]
        exact if_pos (hrecord t).1
      · rintro _ q rfl
        have hrest := ih (recorded ++ [(t.modelId.text, t.fromState, t.toState)])
        rwa [List.append_assoc] at hrest

/-- What a tick records for the runtime it compares. -/
theorem reconciles_emitResidentTransitions (state : AppState) (snapshot : RuntimeSnapshot)
    (prior : List ModelResident) (round : UInt64) :
    Reconciles runtimeId
      (fun _ q => q = comparing snapshot prior (snapshotTransitions prior snapshot.residents))
      (comparing snapshot prior [])
      (state.emitResidentTransitions runtimeId prior snapshot.residents round) := by
  unfold AppState.emitResidentTransitions snapshotTransitions
  dsimp only
  split
  next hempty =>
    rw [List.isEmpty_iff.mp hempty]
    rfl
  next =>
    refine Program.Follows.bind (reconciles_perform .now not_false _) ?_
    rintro observedAt q rfl
    refine reconciles_forM_record (fun t =>
      { modelId := t.modelId.text
        runtimeId
        fromState := t.fromState
        toState := t.toState
        observedAt
        evidenceSource := _
        decisionId := none
        note := _ }) (fun t => ⟨rfl, rfl⟩) snapshot prior _ []

/-- The part of a tick that follows a successful inspection. -/
theorem reconciles_recordInspection (state : AppState) (snapshot : RuntimeSnapshot)
    (round : UInt64) :
    Reconciles runtimeId
      (fun _ q => ∃ prior,
        q = comparing snapshot prior (snapshotTransitions prior snapshot.residents))
      (inspected snapshot) (state.recordInspection runtimeId snapshot round) := by
  unfold AppState.recordInspection
  refine Program.Follows.bind (R := fun previous q => q = comparing snapshot
    ((previous.map fun p => p.snapshot.residents).getD []) []) ?_ ?_
  · exact ⟨fun _ => rfl, fun previous _ => if_pos rfl⟩
  · rintro previous q rfl
    refine Program.Follows.bind (reconciles_emitResidentTransitions state snapshot _ round) ?_
    rintro _ q rfl
    refine Program.Follows.bind (reconciles_perform .now not_false _) ?_
    rintro observedAt q rfl
    refine Program.Follows.bind (reconciles_perform .newUuid not_false _) ?_
    rintro id q rfl
    refine Program.Follows.bind (reconciles_perform
      (.record (.recordRuntimeSnapshot id runtimeId snapshot observedAt)) not_false _) ?_
    rintro _ q rfl
    exact ⟨_, rfl⟩

/-- A tick's part about the runtime comes back to where it started. -/
theorem reconciles_reconcileRuntime_self (state : AppState) (round : UInt64) :
    Reconciles runtimeId (fun _ q => q = idle) idle (state.reconcileRuntime runtimeId round) := by
  unfold AppState.reconcileRuntime
  refine Program.Follows.bind (R := fun answer q =>
    q = answer.toOption.elim idle fun snapshot => inspected snapshot.val) ?_ ?_
  · refine ⟨fun _ => rfl, fun answer _ => ?_⟩
    cases answer with
    | error e => rfl
    | ok snapshot => exact if_pos rfl
  · rintro answer q rfl
    cases answer with
    | error e => exact reconciles_perform (.recordError _ e) not_false idle
    | ok snapshot =>
        refine Program.Follows.bind (reconciles_recordInspection state snapshot.val round) ?_
        rintro _ q ⟨prior, rfl⟩
        exact ⟨fun _ => Or.inr ⟨rfl, rfl⟩, fun _ _ => if_pos rfl⟩

/-- A program that has nothing to do with the runtime. -/
abbrev Spares (runtimeId : String) {α : Type} (p : Daemon α) : Prop :=
  Program.Respects (fun _ _ => True) (fun c => ¬c.reconciles runtimeId) p

theorem spares_perform (c : Cmd) (hc : ¬c.reconciles runtimeId) :
    Spares runtimeId (Program.perform c) :=
  Program.ensures_perform hc fun _ _ => trivial

theorem spares_emitResidentTransitions (state : AppState) {id : String} (hid : id ≠ runtimeId)
    (previous current : List ModelResident) (round : UInt64) :
    Spares runtimeId (state.emitResidentTransitions id previous current round) := by
  unfold AppState.emitResidentTransitions
  dsimp only
  split
  · exact trivial
  · refine Program.Ensures.bind (spares_perform .now not_false) fun observedAt _ => ?_
    refine Program.Ensures.forM fun t _ => ?_
    exact Program.Ensures.bind (spares_perform (.record _) hid) fun _ _ => trivial

theorem spares_recordInspection (state : AppState) {id : String} (hid : id ≠ runtimeId)
    (snapshot : RuntimeSnapshot) (round : UInt64) :
    Spares runtimeId (state.recordInspection id snapshot round) := by
  refine Program.Ensures.bind (spares_perform (.getReconciled id) hid) fun previous _ => ?_
  refine Program.Ensures.bind (spares_emitResidentTransitions state hid _ _ round)
    fun _ _ => ?_
  refine Program.Ensures.bind (spares_perform .now not_false) fun observedAt _ => ?_
  refine Program.Ensures.bind (spares_perform .newUuid not_false) fun uuid _ => ?_
  exact Program.Ensures.bind (spares_perform
    (.record (.recordRuntimeSnapshot uuid id snapshot observedAt)) not_false) fun _ _ => trivial

/-- A tick's part about another runtime. -/
theorem spares_reconcileRuntime (state : AppState) {id : String} (hid : id ≠ runtimeId)
    (round : UInt64) : Spares runtimeId (state.reconcileRuntime id round) := by
  refine Program.Ensures.bind (spares_perform (.inspect id) hid) fun answer _ => ?_
  cases answer with
  | error e => exact spares_perform (.recordError id e) not_false
  | ok snapshot =>
      exact Program.Ensures.bind (spares_recordInspection state hid snapshot.val round)
        fun _ _ => spares_perform (.updateSnapshot id _) hid

theorem reconciles_runReconciliationTick (state : AppState) :
    Reconciles runtimeId (fun _ q => q = idle) idle state.runReconciliationTick := by
  refine Program.Follows.bind (reconciles_perform .nextRound not_false idle) ?_
  rintro round q rfl
  refine Program.Follows.forM (I := fun q => q = idle) (fun id _ q hq => ?_) rfl
  subst hq
  by_cases hid : id = runtimeId
  · rw [hid]
    exact reconciles_reconcileRuntime_self state round
  · exact reconciles_of_ensures (spares_reconcileRuntime state hid round) idle

theorem not_reconciles_of_area {c : Cmd} (h : c.area ≠ .reconciliation) :
    ¬c.reconciles runtimeId := by
  intro hc
  cases c with
  | record event =>
      cases event with
      | recordResidentTransition transition => exact h rfl
      | _ => exact hc
  | _ => first | exact h rfl | exact hc

theorem reconciles_decide (state : AppState) (request : InferenceRequest) :
    Reconciles runtimeId (fun _ q => q = idle) idle (state.decide request) := by
  unfold AppState.decide AppState.refresh
  refine Program.Follows.bind (R := fun _ q => q = idle) ?_ ?_
  · refine Program.Follows.bind (reconciles_perform .needsRefresh not_false idle) ?_
    rintro stale q rfl
    split
    · exact reconciles_runReconciliationTick state
    · exact rfl
  · rintro _ q rfl
    refine Program.Follows.bind (reconciles_perform .getSnapshots not_false idle) ?_
    rintro snapshots q rfl
    refine reconciles_of_ensures (Program.Ensures.mono (state.deciding_decideOn request snapshots)
      (fun c hc => not_reconciles_of_area ?_) fun _ h => h) idle
    rcases hc with hc | ⟨intent, rfl, -⟩
    · rw [hc]
      decide
    · simp [Cmd.area]

end Threads

/-! ### Overlapping executions -/

/-- Who runs reconciliation ticks: the background loop, for some number of rounds, and the
decisions. -/
inductive ReconcilingCall where
  | backgroundLoop (rounds : ℕ)
  | decide (request : InferenceRequest)

def AppState.reconcilingCall (state : AppState) : ReconcilingCall → Daemon Unit
  | .backgroundLoop rounds => (List.range rounds).forM fun _ => state.runReconciliationTick
  | .decide request => do
      let _ ← state.decide request

/-- The threads of some calls, over a daemon's state. -/
def AppState.reconciling (state : AppState) (calls : List ReconcilingCall) (w : World) :
    Pool Cmd Cmd.Resp Unit World :=
  ⟨calls.map state.reconcilingCall, w⟩

theorem reconciles_reconcilingCall (state : AppState) (runtimeId : String)
    (call : ReconcilingCall) :
    Reconciles runtimeId (fun _ q => q = idle) idle (state.reconcilingCall call) := by
  cases call with
  | backgroundLoop rounds =>
      refine Program.Follows.forM (I := fun q => q = idle) (fun _ _ q hq => ?_) rfl
      subst hq
      exact reconciles_runReconciliationTick state
  | decide request =>
      refine Program.Follows.bind (reconciles_decide state request) ?_
      rintro _ q rfl
      exact rfl

/-! ### What one event does -/

/-- The phase of a thread after a trace. -/
abbrev phaseOf (runtimeId : String) (trace : List (ℕ × Program.Event Cmd.Resp)) (i : ℕ) :
    ReconcilePhase :=
  Pool.phaseAfter (ReconcilePhase.next runtimeId) idle i trace

section Events

variable {runtimeId : String} {trace : List (ℕ × Program.Event Cmd.Resp)} {i : ℕ}

theorem phaseOf_concat_self (e : Program.Event Cmd.Resp) :
    phaseOf runtimeId (trace ++ [(i, e)]) i = (phaseOf runtimeId trace i).next runtimeId e := by
  rw [phaseOf, Pool.phaseAfter_concat, if_pos rfl]

theorem phaseOf_concat_ne {j : ℕ} (h : j ≠ i) (e : Program.Event Cmd.Resp) :
    phaseOf runtimeId (trace ++ [(i, e)]) j = phaseOf runtimeId trace j := by
  rw [phaseOf, Pool.phaseAfter_concat, if_neg h.symm]

theorem recordedTransitions_concat (e : ℕ × Program.Event Cmd.Resp) :
    recordedTransitions runtimeId (trace ++ [e]) =
      recordedTransitions runtimeId trace ++ recordedTransitions runtimeId [e] :=
  List.filterMap_append

theorem recordedTransitions_concat_of_ne {c : Cmd}
    (hc : ∀ transition, c ≠ .record (.recordResidentTransition transition)) (r : c.Resp) :
    recordedTransitions runtimeId (trace ++ [(i, ⟨c, r⟩)]) =
      recordedTransitions runtimeId trace := by
  have hnone : recordedTransitions runtimeId [(i, ⟨c, r⟩)] = [] := by
    cases c with
    | record event =>
        cases event with
        | recordResidentTransition transition => exact absurd rfl (hc transition)
        | _ => rfl
    | _ => rfl
  rw [recordedTransitions_concat, hnone, List.append_nil]

theorem storedSnapshots_concat (e : ℕ × Program.Event Cmd.Resp) :
    storedSnapshots runtimeId (trace ++ [e]) =
      storedSnapshots runtimeId trace ++ storedSnapshots runtimeId [e] :=
  List.filterMap_append

theorem storedSnapshots_concat_of_ne {c : Cmd}
    (hc : ∀ snapshot, c ≠ .updateSnapshot runtimeId snapshot) (r : c.Resp) :
    storedSnapshots runtimeId (trace ++ [(i, ⟨c, r⟩)]) = storedSnapshots runtimeId trace := by
  have hnone : storedSnapshots runtimeId [(i, ⟨c, r⟩)] = [] := by
    cases c with
    | updateSnapshot id snapshot =>
        have hne : ¬id = runtimeId := fun he => hc snapshot (he ▸ rfl)
        simp [storedSnapshots, hne]
    | _ => rfl
  rw [storedSnapshots_concat, hnone, List.append_nil]

/-- A thread that compares nothing, and whose event starts no comparison, compares nothing. -/
theorem phaseOf_concat_ne_comparing {e : Program.Event Cmd.Resp} {j : ℕ}
    (hself : ∀ snapshot residents recorded,
      (phaseOf runtimeId trace i).next runtimeId e ≠ comparing snapshot residents recorded)
    (hj : j ≠ i → ∀ snapshot residents recorded,
      phaseOf runtimeId trace j ≠ comparing snapshot residents recorded)
    (snapshot : RuntimeSnapshot) (residents : List ModelResident)
    (recorded : List (String × ResidencyChange)) :
    phaseOf runtimeId (trace ++ [(i, e)]) j ≠ comparing snapshot residents recorded := by
  by_cases hji : j = i
  · rw [hji, phaseOf_concat_self]
    exact hself snapshot residents recorded
  · rw [phaseOf_concat_ne hji]
    exact hj hji snapshot residents recorded

/-- A command that has nothing to do with the runtime leaves no mark. -/
theorem unmarked_of_not_reconciles {c : Cmd} (hc : ¬c.reconciles runtimeId) (r : c.Resp)
    (watch : Watch) :
    watch.note runtimeId i ⟨c, r⟩ = watch ∧
      recordedTransitions runtimeId [(i, ⟨c, r⟩)] = [] := by
  cases c with
  | inspect id =>
      have hne : ¬id = runtimeId := hc
      cases r with
      | ok snapshot => exact ⟨if_neg hne, rfl⟩
      | error e => exact ⟨rfl, rfl⟩
  | getReconciled id =>
      have hne : ¬id = runtimeId := hc
      exact ⟨if_neg hne, rfl⟩
  | updateSnapshot id snapshot =>
      have hne : ¬id = runtimeId := hc
      exact ⟨if_neg hne, rfl⟩
  | record event =>
      cases event with
      | recordResidentTransition transition =>
          have hne : ¬transition.runtimeId = runtimeId := hc
          exact ⟨rfl, by simp [recordedTransitions, hne]⟩
      | _ => exact ⟨rfl, rfl⟩
  | _ => exact ⟨rfl, rfl⟩

variable (codec : Codec) (env : ℕ → Surroundings) (runtimeId)

theorem cachedResidents_handle_update (w : World) (snapshot : RuntimeSnapshot) :
    (handle codec env w (.updateSnapshot runtimeId snapshot)).2.cachedResidents runtimeId =
      snapshot.residents := by
  have hlookup := Reconciler.lookup_update w.reconciler runtimeId snapshot (env w.clock).now
    runtimeId
  rw [if_pos rfl] at hlookup
  obtain ⟨entry, hentry, rfl⟩ := Option.map_eq_some_iff.mp hlookup
  simp only [World.cachedResidents, handle, hentry, Option.map_some, Option.getD_some]

/-- No other command changes what the cache has for the runtime's residents. -/
theorem cachedResidents_handle (w : World) {c : Cmd}
    (hc : ∀ snapshot, c ≠ .updateSnapshot runtimeId snapshot) :
    (handle codec env w c).2.cachedResidents runtimeId = w.cachedResidents runtimeId := by
  have hsnapshot : ∀ w : World, w.cachedResidents runtimeId =
      (((w.reconciler.cache.lookup runtimeId).map ReconciledSnapshot.snapshot).map
        RuntimeSnapshot.residents).getD [] := by
    intro w
    rw [Option.map_map]
    rfl
  cases c with
  | updateSnapshot id snapshot =>
      have hne : runtimeId ≠ id := fun he => hc snapshot (he ▸ rfl)
      rw [hsnapshot, hsnapshot]
      simp only [handle, Reconciler.lookup_update, if_neg hne]
  | recordError id error =>
      rw [hsnapshot, hsnapshot]
      simp only [handle, Reconciler.lookup_recordError]
      split
      · cases w.reconciler.cache.lookup runtimeId <;> rfl
      · rfl
  | _ => rfl

theorem residents_getReconciled (w : World) :
    ((handle codec env w (.getReconciled runtimeId)).1.map
      fun p => p.snapshot.residents).getD [] = w.cachedResidents runtimeId := by
  simp only [handle, Reconciler.get, World.cachedResidents, Option.map_map]
  rfl

end Events

/-! ### Ticks in turn -/

/-- The snapshot is an answer to an inspection of the runtime. -/
def Inspected (env : ℕ → Surroundings) (runtimeId : String) (snapshot : RuntimeSnapshot) :
    Prop :=
  ∃ n answer, (env n).inspect runtimeId = .ok answer ∧ answer.val = snapshot

/-- Nobody compares, or one thread does, against what the cache has. -/
inductive Comparing (env : ℕ → Surroundings) (runtimeId : String) (prior : List ModelResident)
    (trace : List (ℕ × Program.Event Cmd.Resp)) (w : World) : Prop where
  | nobody (hcomparing : (Watch.after runtimeId trace).comparing = [])
      (hothers : ∀ j snapshot residents recorded,
        phaseOf runtimeId trace j ≠ comparing snapshot residents recorded)
      (hrecorded : recordedTransitions runtimeId trace =
        transitionsAlong prior (storedSnapshots runtimeId trace))
  | one (i : ℕ) (snapshot : RuntimeSnapshot) (recorded : List (String × ResidencyChange))
      (hcomparing : (Watch.after runtimeId trace).comparing = [i])
      (hphase : phaseOf runtimeId trace i =
        comparing snapshot (w.cachedResidents runtimeId) recorded)
      (hothers : ∀ j, j ≠ i → ∀ snapshot residents recorded,
        phaseOf runtimeId trace j ≠ comparing snapshot residents recorded)
      (hnewer : (Watch.after runtimeId trace).cached ≤ (Watch.after runtimeId trace).inspected i)
      (hinspected : Inspected env runtimeId snapshot)
      (hrecorded : recordedTransitions runtimeId trace =
        transitionsAlong prior (storedSnapshots runtimeId trace) ++ recorded)

/-- A thread that compares is the one that does. -/
theorem Comparing.of_phase {env : ℕ → Surroundings} {runtimeId : String}
    {prior : List ModelResident} {trace : List (ℕ × Program.Event Cmd.Resp)} {w : World}
    (h : Comparing env runtimeId prior trace w) {i : ℕ} {snapshot : RuntimeSnapshot}
    {residents : List ModelResident} {recorded : List (String × ResidencyChange)}
    (hphase : phaseOf runtimeId trace i = comparing snapshot residents recorded) :
    (Watch.after runtimeId trace).comparing = [i] ∧ residents = w.cachedResidents runtimeId ∧
      (∀ j, j ≠ i → ∀ snapshot residents recorded,
        phaseOf runtimeId trace j ≠ comparing snapshot residents recorded) ∧
      (Watch.after runtimeId trace).cached ≤ (Watch.after runtimeId trace).inspected i ∧
      Inspected env runtimeId snapshot ∧
      recordedTransitions runtimeId trace =
        transitionsAlong prior (storedSnapshots runtimeId trace) ++ recorded := by
  cases h with
  | nobody hcomparing hothers hrecords => exact absurd hphase (hothers i _ _ _)
  | one k snapshot' recorded' hcomparing hk hothers hnewer hinspected hrecords =>
      have hki : i = k := by
        by_contra hne
        exact hothers i hne _ _ _ hphase
      subst hki
      rw [hphase, ReconcilePhase.comparing.injEq] at hk
      obtain ⟨rfl, rfl, rfl⟩ := hk
      exact ⟨hcomparing, rfl, hothers, hnewer, hinspected, hrecords⟩

/-- What holds after every event of a run in which ticks read in turn. -/
structure InTurn (env : ℕ → Surroundings) (runtimeId : String) (prior : List ModelResident)
    (trace : List (ℕ × Program.Event Cmd.Resp)) (w : World) : Prop where
  newer : Always (StoresNewer runtimeId) trace
  residents : w.cachedResidents runtimeId =
    lastResidents prior (storedSnapshots runtimeId trace)
  inspected : ∀ i snapshot, phaseOf runtimeId trace i = .inspected snapshot →
    Inspected env runtimeId snapshot
  stored : ∀ snapshot ∈ storedSnapshots runtimeId trace, Inspected env runtimeId snapshot
  comparing : Comparing env runtimeId prior trace w

namespace InTurn

variable {codec : Codec} {env : ℕ → Surroundings} {runtimeId : String}
  {prior : List ModelResident} {trace : List (ℕ × Program.Event Cmd.Resp)} {w : World} {i : ℕ}

theorem start : InTurn env runtimeId (w.cachedResidents runtimeId) [] w where
  newer := by
    intro before e after h
    cases before <;> cases h
  residents := rfl
  inspected := by
    intro i snapshot h
    cases h
  stored := List.forall_mem_nil _
  comparing := by
    refine .nobody rfl ?_ rfl
    intro j snapshot residents recorded h
    cases h

/-- An event that stores nothing. -/
theorem unstored (h : InTurn env runtimeId prior trace w) {c : Cmd}
    (hnot : ∀ snapshot, c ≠ .updateSnapshot runtimeId snapshot)
    (hinspected : ∀ snapshot, (phaseOf runtimeId trace i).next runtimeId
      ⟨c, (handle codec env w c).1⟩ = .inspected snapshot → Inspected env runtimeId snapshot)
    (hcomparing : Comparing env runtimeId prior (trace ++ [(i, ⟨c, (handle codec env w c).1⟩)])
      (handle codec env w c).2) :
    InTurn env runtimeId prior (trace ++ [(i, ⟨c, (handle codec env w c).1⟩)])
      (handle codec env w c).2 := by
  refine ⟨Always.concat_iff.mpr ⟨h.newer, ?_⟩, ?_, ?_, ?_, hcomparing⟩
  · intro hstores
    cases c with
    | updateSnapshot id snapshot =>
        have hid : id = runtimeId := of_decide_eq_true hstores
        exact absurd (hid ▸ rfl) (hnot snapshot)
    | _ => cases hstores
  · rw [cachedResidents_handle runtimeId codec env w hnot, storedSnapshots_concat_of_ne hnot]
    exact h.residents
  · intro j snapshot hj
    by_cases hji : j = i
    · rw [hji, phaseOf_concat_self] at hj
      exact hinspected snapshot hj
    · rw [phaseOf_concat_ne hji] at hj
      exact h.inspected j snapshot hj
  · rw [storedSnapshots_concat_of_ne hnot]
    exact h.stored

/-- An event that leaves no mark. -/
theorem unmarked (h : InTurn env runtimeId prior trace w) {c : Cmd}
    (hnote : (Watch.after runtimeId trace).note runtimeId i ⟨c, (handle codec env w c).1⟩ =
      Watch.after runtimeId trace)
    (hrecords : recordedTransitions runtimeId [(i, ⟨c, (handle codec env w c).1⟩)] = [])
    (hnext : (phaseOf runtimeId trace i).next runtimeId ⟨c, (handle codec env w c).1⟩ =
      phaseOf runtimeId trace i)
    (hnot : ∀ snapshot, c ≠ .updateSnapshot runtimeId snapshot) :
    InTurn env runtimeId prior (trace ++ [(i, ⟨c, (handle codec env w c).1⟩)])
      (handle codec env w c).2 := by
  refine h.unstored hnot (fun snapshot hi => h.inspected i snapshot (hnext ▸ hi)) ?_
  have hresidents := cachedResidents_handle runtimeId codec env w hnot
  generalize (handle codec env w c).2 = w' at hresidents ⊢
  generalize (handle codec env w c).1 = r at *
  have hphase : ∀ j, phaseOf runtimeId (trace ++ [(i, ⟨c, r⟩)]) j = phaseOf runtimeId trace j := by
    intro j
    by_cases hj : j = i
    · rw [hj, phaseOf_concat_self, hnext]
    · exact phaseOf_concat_ne hj _
  have hwatch : Watch.after runtimeId (trace ++ [(i, ⟨c, r⟩)]) =
      { Watch.after runtimeId trace with
        events := (Watch.after runtimeId trace).events + 1 } := by
    rw [Watch.after_concat, Watch.observe, hnote]
  have hrecorded : recordedTransitions runtimeId (trace ++ [(i, ⟨c, r⟩)]) =
      recordedTransitions runtimeId trace := by
    rw [recordedTransitions_concat, hrecords, List.append_nil]
  have hstored : storedSnapshots runtimeId (trace ++ [(i, ⟨c, r⟩)]) =
      storedSnapshots runtimeId trace := storedSnapshots_concat_of_ne hnot r
  cases h.comparing with
  | nobody hcomparing hothers hrecords' =>
      refine .nobody (by rw [hwatch]; exact hcomparing) ?_ (by rw [hrecorded, hstored, hrecords'])
      intro j
      rw [hphase j]
      exact hothers j
  | one k snapshot recorded hcomparing hk hothers hnewer hinspected hrecords' =>
      refine .one k snapshot recorded (by rw [hwatch]; exact hcomparing)
        (by rw [hphase k, hresidents, hk]) ?_ (by rw [hwatch]; exact hnewer) hinspected
        (by rw [hrecorded, hstored, hrecords'])
      intro j
      rw [hphase j]
      exact hothers j

/-- An event that has nothing to do with the runtime. -/
theorem unrelated (h : InTurn env runtimeId prior trace w) {c : Cmd}
    (hc : ¬c.reconciles runtimeId) :
    InTurn env runtimeId prior (trace ++ [(i, ⟨c, (handle codec env w c).1⟩)])
      (handle codec env w c).2 := by
  obtain ⟨hnote, hrecords⟩ := unmarked_of_not_reconciles (i := i) hc
    (handle codec env w c).1 (Watch.after runtimeId trace)
  refine h.unmarked hnote hrecords (ReconcilePhase.next_of_not_reconciles hc _ _) ?_
  rintro snapshot rfl
  exact hc rfl

/-- A thread that has nothing under way inspects the runtime. -/
theorem inspect (h : InTurn env runtimeId prior trace w)
    (hidle : phaseOf runtimeId trace i = idle) :
    InTurn env runtimeId prior
      (trace ++ [(i, ⟨.inspect runtimeId, (handle codec env w (.inspect runtimeId)).1⟩)])
      (handle codec env w (.inspect runtimeId)).2 := by
  have hanswer : (handle codec env w (.inspect runtimeId)).1 =
      (env w.clock).inspect runtimeId := rfl
  cases hr : (env w.clock).inspect runtimeId with
  | error e =>
      refine h.unmarked ?_ rfl ?_ (by simp)
      · rw [hanswer, hr]
        rfl
      · rw [hanswer, hr]
        rfl
  | ok answer =>
      refine h.unstored (by simp) ?_ ?_
      · intro snapshot hsnapshot
        rw [hanswer, hr, ReconcilePhase.next, if_pos rfl, ReconcilePhase.inspected.injEq]
          at hsnapshot
        exact ⟨w.clock, answer, hr, hsnapshot⟩
      have hresidents := cachedResidents_handle runtimeId codec env w
        (c := .inspect runtimeId) (by simp)
      generalize (handle codec env w (.inspect runtimeId)).2 = w' at hresidents ⊢
      rw [hanswer, hr]
      have hwatch : Watch.after runtimeId (trace ++ [(i, ⟨.inspect runtimeId, .ok answer⟩)]) =
          { Watch.after runtimeId trace with
            inspected := Function.update (Watch.after runtimeId trace).inspected i
              ((Watch.after runtimeId trace).events + 1)
            events := (Watch.after runtimeId trace).events + 1 } := by
        rw [Watch.after_concat, Watch.observe, Watch.note, if_pos rfl]
      have hrecorded : recordedTransitions runtimeId
          (trace ++ [(i, ⟨.inspect runtimeId, .ok answer⟩)]) =
            recordedTransitions runtimeId trace :=
        recordedTransitions_concat_of_ne (by simp) _
      have hstored : storedSnapshots runtimeId
          (trace ++ [(i, ⟨.inspect runtimeId, .ok answer⟩)]) = storedSnapshots runtimeId trace :=
        storedSnapshots_concat_of_ne (by simp) _
      have hnext : ∀ snapshot residents recorded,
          (phaseOf runtimeId trace i).next runtimeId ⟨.inspect runtimeId, .ok answer⟩ ≠
            .comparing snapshot residents recorded := by
        intro snapshot residents recorded
        rw [ReconcilePhase.next, if_pos rfl]
        exact ReconcilePhase.noConfusion
      cases h.comparing with
      | nobody hcomparing hothers hrecords =>
          exact .nobody (by rw [hwatch]; exact hcomparing)
            (fun j => phaseOf_concat_ne_comparing hnext fun _ => hothers j)
            (by rw [hrecorded, hstored, hrecords])
      | one k snapshot recorded hcomparing hk hothers hnewer hinspected hrecords =>
          have hki : k ≠ i := by
            rintro rfl
            rw [hidle] at hk
            cases hk
          refine .one k snapshot recorded (by rw [hwatch]; exact hcomparing)
            (by rw [phaseOf_concat_ne hki, hresidents, hk])
            (fun j hj => phaseOf_concat_ne_comparing hnext fun _ => hothers j hj) ?_ hinspected
            (by rw [hrecorded, hstored, hrecords])
          rw [hwatch]
          exact hnewer.trans_eq (Function.update_of_ne hki _ _).symm

/-- A thread reads the entry of the cache. -/
theorem read (h : InTurn env runtimeId prior trace w) {snapshot : RuntimeSnapshot}
    (hphase : phaseOf runtimeId trace i = .inspected snapshot)
    (hturn : ReadsInTurn runtimeId trace
      (i, ⟨.getReconciled runtimeId, (handle codec env w (.getReconciled runtimeId)).1⟩)) :
    InTurn env runtimeId prior
      (trace ++
        [(i, ⟨.getReconciled runtimeId, (handle codec env w (.getReconciled runtimeId)).1⟩)])
      (handle codec env w (.getReconciled runtimeId)).2 := by
  obtain ⟨hnone, hnewer⟩ := hturn (decide_eq_true rfl)
  have hnext : (phaseOf runtimeId trace i).next runtimeId
      ⟨.getReconciled runtimeId, (handle codec env w (.getReconciled runtimeId)).1⟩ =
        .comparing snapshot (w.cachedResidents runtimeId) [] := by
    rw [hphase, ← residents_getReconciled runtimeId codec env w]
    exact if_pos rfl
  refine h.unstored (by simp) (fun _ hi => by rw [hnext] at hi; cases hi) ?_
  have hresidents := cachedResidents_handle runtimeId codec env w
    (c := .getReconciled runtimeId) (by simp)
  generalize (handle codec env w (.getReconciled runtimeId)).2 = w' at hresidents ⊢
  generalize (handle codec env w (.getReconciled runtimeId)).1 = previous at *
  have hwatch : Watch.after runtimeId (trace ++ [(i, ⟨.getReconciled runtimeId, previous⟩)]) =
      { Watch.after runtimeId trace with
        comparing := i :: (Watch.after runtimeId trace).comparing
        events := (Watch.after runtimeId trace).events + 1 } := by
    rw [Watch.after_concat, Watch.observe, Watch.note, if_pos rfl]
  have hrecorded : recordedTransitions runtimeId
      (trace ++ [(i, ⟨.getReconciled runtimeId, previous⟩)]) =
        recordedTransitions runtimeId trace :=
    recordedTransitions_concat_of_ne (by simp) _
  have hstored : storedSnapshots runtimeId
      (trace ++ [(i, ⟨.getReconciled runtimeId, previous⟩)]) = storedSnapshots runtimeId trace :=
    storedSnapshots_concat_of_ne (by simp) _
  cases h.comparing with
  | one k _ _ hcomparing =>
      rw [hnone] at hcomparing
      cases hcomparing
  | nobody hcomparing hothers hrecords =>
      refine .one i snapshot [] (by rw [hwatch, hnone])
        (by rw [phaseOf_concat_self, hnext, hresidents]) ?_
        (by rw [hwatch]; exact hnewer) (h.inspected i snapshot hphase)
        (by rw [hrecorded, hstored, hrecords, List.append_nil])
      intro j hj
      rw [phaseOf_concat_ne hj]
      exact hothers j

/-- The thread that compares records a transition. -/
theorem record (h : InTurn env runtimeId prior trace w) {snapshot : RuntimeSnapshot}
    {residents : List ModelResident} {recorded : List (String × ResidencyChange)}
    (hphase : phaseOf runtimeId trace i = .comparing snapshot residents recorded)
    {transition : ResidentTransitionRecord} (hid : transition.runtimeId = runtimeId) :
    InTurn env runtimeId prior
      (trace ++ [(i, ⟨.record (.recordResidentTransition transition),
        (handle codec env w (.record (.recordResidentTransition transition))).1⟩)])
      (handle codec env w (.record (.recordResidentTransition transition))).2 := by
  have hnext : ∀ answer, (phaseOf runtimeId trace i).next runtimeId
      ⟨.record (.recordResidentTransition transition), answer⟩ =
        .comparing snapshot residents (recorded ++
          [(transition.modelId, transition.fromState, transition.toState)]) := by
    intro answer
    rw [hphase]
    exact if_pos hid
  refine h.unstored (by simp) (fun _ hi => by rw [hnext] at hi; cases hi) ?_
  have hresidents := cachedResidents_handle runtimeId codec env w
    (c := .record (.recordResidentTransition transition)) (by simp)
  generalize (handle codec env w (.record (.recordResidentTransition transition))).2 = w'
    at hresidents ⊢
  generalize (handle codec env w (.record (.recordResidentTransition transition))).1 = answer
  have hwatch : Watch.after runtimeId
      (trace ++ [(i, ⟨.record (.recordResidentTransition transition), answer⟩)]) =
      { Watch.after runtimeId trace with
        events := (Watch.after runtimeId trace).events + 1 } :=
    Watch.after_concat ..
  have hrecorded : recordedTransitions runtimeId
      (trace ++ [(i, ⟨.record (.recordResidentTransition transition), answer⟩)]) =
        recordedTransitions runtimeId trace ++
          [(transition.modelId, transition.fromState, transition.toState)] := by
    rw [recordedTransitions_concat]
    simp [recordedTransitions, hid]
  have hstored : storedSnapshots runtimeId
      (trace ++ [(i, ⟨.record (.recordResidentTransition transition), answer⟩)]) =
        storedSnapshots runtimeId trace := storedSnapshots_concat_of_ne (by simp) _
  obtain ⟨hcomparing, rfl, hothers, hnewer, hinspected, hrecords⟩ := h.comparing.of_phase hphase
  refine .one i snapshot _ (by rw [hwatch]; exact hcomparing)
    (by rw [phaseOf_concat_self, hnext, hresidents]) ?_
    (by rw [hwatch]; exact hnewer) hinspected
    (by rw [hrecorded, hstored, hrecords, List.append_assoc])
  intro j hj
  rw [phaseOf_concat_ne hj]
  exact hothers j hj

/-- The thread that compares stores its snapshot. -/
theorem store (h : InTurn env runtimeId prior trace w) {snapshot : RuntimeSnapshot}
    {residents : List ModelResident}
    (hphase : phaseOf runtimeId trace i =
      .comparing snapshot residents (snapshotTransitions residents snapshot.residents)) :
    InTurn env runtimeId prior
      (trace ++ [(i, ⟨.updateSnapshot runtimeId snapshot,
        (handle codec env w (.updateSnapshot runtimeId snapshot)).1⟩)])
      (handle codec env w (.updateSnapshot runtimeId snapshot)).2 := by
  have hresidents := cachedResidents_handle_update runtimeId codec env w snapshot
  generalize (handle codec env w (.updateSnapshot runtimeId snapshot)).2 = w' at hresidents
  generalize (handle codec env w (.updateSnapshot runtimeId snapshot)).1 = answer
  have hwatch : Watch.after runtimeId
      (trace ++ [(i, ⟨.updateSnapshot runtimeId snapshot, answer⟩)]) =
      { Watch.after runtimeId trace with
        comparing := (Watch.after runtimeId trace).comparing.filter fun j => j ≠ i
        cached := (Watch.after runtimeId trace).inspected i
        events := (Watch.after runtimeId trace).events + 1 } := by
    rw [Watch.after_concat, Watch.observe, Watch.note, if_pos rfl]
  have hnext : (phaseOf runtimeId trace i).next runtimeId
      ⟨.updateSnapshot runtimeId snapshot, answer⟩ = idle := if_pos rfl
  have hrecorded : recordedTransitions runtimeId
      (trace ++ [(i, ⟨.updateSnapshot runtimeId snapshot, answer⟩)]) =
        recordedTransitions runtimeId trace :=
    recordedTransitions_concat_of_ne (by simp) _
  have hstored : storedSnapshots runtimeId
      (trace ++ [(i, ⟨.updateSnapshot runtimeId snapshot, answer⟩)]) =
        storedSnapshots runtimeId trace ++ [snapshot] := by
    rw [storedSnapshots_concat]
    simp [storedSnapshots]
  obtain ⟨hcomparing, rfl, hothers, hnewer, hinspected, hrecords⟩ := h.comparing.of_phase hphase
  refine ⟨Always.concat_iff.mpr ⟨h.newer, fun _ => hnewer⟩, ?_, ?_, ?_, ?_⟩
  · rw [hresidents, hstored, lastResidents, List.foldl_concat]
  · intro j snapshot' hj
    by_cases hji : j = i
    · rw [hji, phaseOf_concat_self, hnext] at hj
      cases hj
    · rw [phaseOf_concat_ne hji] at hj
      exact h.inspected j snapshot' hj
  · rw [hstored]
    intro s hs
    rcases List.mem_append.mp hs with hs | hs
    · exact h.stored s hs
    · rw [List.mem_singleton.mp hs]
      exact hinspected
  · refine .nobody (by rw [hwatch, hcomparing]; simp) ?_ ?_
    · intro j
      refine phaseOf_concat_ne_comparing (fun _ _ _ => ?_) (hothers j)
      rw [hnext]
      exact ReconcilePhase.noConfusion
    · rw [hrecorded, hstored, transitionsAlong_concat, hrecords, h.residents]

/-- A step of a thread that keeps to its phases. -/
theorem step (h : InTurn env runtimeId prior trace w) {c : Cmd}
    (hallows : Allows runtimeId (phaseOf runtimeId trace i) c)
    (hturn : ReadsInTurn runtimeId trace (i, ⟨c, (handle codec env w c).1⟩)) :
    InTurn env runtimeId prior (trace ++ [(i, ⟨c, (handle codec env w c).1⟩)])
      (handle codec env w c).2 := by
  by_cases hc : c.reconciles runtimeId
  · have hnext := hallows hc
    cases hphase : phaseOf runtimeId trace i with
    | idle =>
        rw [hphase] at hnext
        obtain rfl : c = .inspect runtimeId := hnext
        exact h.inspect hphase
    | inspected snapshot =>
        rw [hphase] at hnext
        obtain rfl : c = .getReconciled runtimeId := hnext
        exact h.read hphase hturn
    | comparing snapshot residents recorded =>
        rw [hphase] at hnext
        rcases hnext with ⟨transition, rfl⟩ | ⟨rfl, rfl⟩
        · exact h.record hphase hc
        · exact h.store hphase
  · exact h.unrelated hc

end InTurn

/-- In every interleaving of reconciling executions that read the entry of a runtime in
turn, the snapshot in its cache is never replaced by one that was inspected earlier; and
whenever no execution stands between its reading and its update, the transitions recorded
for a model that every inspection reports are the changes of its state from one cached
snapshot to the next. -/
theorem reconciliation_in_turn (state : AppState) (codec : Codec) (env : ℕ → Surroundings)
    (runtimeId : String) (calls : List ReconcilingCall) (w : World) (schedule : List ℕ)
    (hturn : Always (ReadsInTurn runtimeId)
      (Pool.trace (handle codec env) (state.reconciling calls w) schedule)) :
    let trace := Pool.trace (handle codec env) (state.reconciling calls w) schedule
    Always (StoresNewer runtimeId) trace ∧
      ∀ model, (∀ n answer, (env n).inspect runtimeId = .ok answer →
          answer.val.ReportsOnce model) →
        (Watch.after runtimeId trace).comparing = [] →
          changesOf model (recordedTransitions runtimeId trace) =
            stateChanges model (w.cachedResidents runtimeId)
              (storedSnapshots runtimeId trace) := by
  intro trace
  have hthreads : ∀ p ∈ (state.reconciling calls w).threads,
      Reconciles runtimeId (fun _ q => q = idle) idle p := by
    intro p hp
    obtain ⟨call, -, rfl⟩ := List.mem_map.mp hp
    exact reconciles_reconcilingCall state runtimeId call
  obtain ⟨hrun, -⟩ := Pool.invariant_trace (fun _ _ => trivial) hthreads InTurn.start
    (fun trace w i c h hok hG => h.step hok hG) hturn
  refine ⟨hrun.newer, fun model hreports hdone => ?_⟩
  cases hrun.comparing with
  | one i _ _ hcomparing =>
      rw [hdone] at hcomparing
      cases hcomparing
  | nobody hcomparing hothers hrecords =>
      rw [hrecords]
      refine changesOf_transitionsAlong (fun snapshot hsnapshot => ?_) _
      obtain ⟨n, answer, hanswer, rfl⟩ := hrun.stored snapshot hsnapshot
      exact hreports n answer hanswer

/-! ### Two ticks at once -/

/-- A model that is cold until the second command of the run, and hot from then on. -/
def turnsHot (n : ℕ) : Surroundings :=
  { (default : Surroundings) with
    inspect := fun id => .ok ⟨{ hotSnapshot id [] with
      residents := [⟨⟨"qwen9b"⟩, if n < 2 then .cold else .hotGpu, none, none, none, none⟩] },
      rfl⟩ }

/-- The events of two background loops that run one tick each. -/
def twoTicks (schedule : List ℕ) : List (ℕ × Program.Event Cmd.Resp) :=
  Pool.trace (handle default turnsHot)
    (twoRuntimes.reconciling [.backgroundLoop 1, .backgroundLoop 1] twoRuntimesStart) schedule

theorem reportsOnce_turnsHot (n : ℕ) (answer : SnapshotOf "a")
    (h : (turnsHot n).inspect "a" = .ok answer) : answer.val.ReportsOnce ⟨"qwen9b"⟩ := by
  rw [← Except.ok.inj h]
  simp [RuntimeSnapshot.ReportsOnce]

/-- The second tick inspects before the first has stored its snapshot, and waits. -/
theorem reconciliation_in_turn_waiting :
    Always (StoresNewer "a") (twoTicks [0, 0, 1, 1, 0, 0, 0, 0, 0, 0, 0, 1, 1, 1, 1, 1, 1, 1]) ∧
      changesOf ⟨"qwen9b"⟩ (recordedTransitions "a"
          (twoTicks [0, 0, 1, 1, 0, 0, 0, 0, 0, 0, 0, 1, 1, 1, 1, 1, 1, 1])) =
        stateChanges ⟨"qwen9b"⟩ (twoRuntimesStart.cachedResidents "a") (storedSnapshots "a"
          (twoTicks [0, 0, 1, 1, 0, 0, 0, 0, 0, 0, 0, 1, 1, 1, 1, 1, 1, 1])) := by
  have h := reconciliation_in_turn twoRuntimes default turnsHot "a"
    [.backgroundLoop 1, .backgroundLoop 1] twoRuntimesStart
    [0, 0, 1, 1, 0, 0, 0, 0, 0, 0, 0, 1, 1, 1, 1, 1, 1, 1] (by decide +kernel)
  exact ⟨h.1, h.2 ⟨"qwen9b"⟩ reportsOnce_turnsHot (by decide +kernel)⟩

/-- The first tick inspects before the second and stores after it: the cache goes back to
the cold snapshot. When both ticks read before either has stored, one change is recorded
twice. -/
theorem not_reconciliation_overlapping :
    ¬Always (StoresNewer "a")
        (twoTicks [0, 0, 1, 1, 1, 1, 1, 1, 1, 1, 1, 0, 0, 0, 0, 0, 0, 0]) ∧
      (Watch.after "a"
          (twoTicks [0, 1, 0, 1, 0, 1, 0, 0, 0, 0, 0, 0, 1, 1, 1, 1, 1, 1])).comparing = [] ∧
        changesOf ⟨"qwen9b"⟩ (recordedTransitions "a"
            (twoTicks [0, 1, 0, 1, 0, 1, 0, 0, 0, 0, 0, 0, 1, 1, 1, 1, 1, 1])) =
          [(.cold, .hotGpu), (.cold, .hotGpu)] ∧
        stateChanges ⟨"qwen9b"⟩ (twoRuntimesStart.cachedResidents "a") (storedSnapshots "a"
            (twoTicks [0, 1, 0, 1, 0, 1, 0, 0, 0, 0, 0, 0, 1, 1, 1, 1, 1, 1])) =
          [(.cold, .hotGpu)] := by
  refine ⟨?_, ?_, ?_, ?_⟩ <;> decide +kernel

end Anemoi
