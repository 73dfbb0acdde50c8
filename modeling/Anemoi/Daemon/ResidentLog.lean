import Anemoi.Daemon.Evidence
import Anemoi.Daemon.Overlap

/-!
# The log of resident transitions

A tick compares the residents of a snapshot with those of the one before and records the
differences. A reader of the log takes a record to say that the state changed, and its
mark of a first observation to say that the model was never seen before.
`faithfulLog_iff` says on which snapshots the log of some ticks can be read like this: on
those where every model that arrives is seen for the first time, and not cold.
-/

namespace Anemoi

open Systems

/-- The snapshots that the inspections of a runtime answered with, oldest first. -/
def inspectedSnapshots (runtimeId : String) (history : History) : List RuntimeSnapshot :=
  (inspectionsOf history runtimeId).filterMap Except.toOption

/-- The state of a model in the latest snapshot that has it. -/
def latestState (snapshots : List RuntimeSnapshot) (model : ModelId) : Option ResidencyState :=
  snapshots.reverse.findSome? fun snapshot => stateIn snapshot.residents model

/-- No snapshot has the model. -/
def Unseen (snapshots : List RuntimeSnapshot) (model : ModelId) : Prop :=
  ∀ snapshot ∈ snapshots, ∀ r ∈ snapshot.residents, r.modelId ≠ model

/-- What a transition says is so, given the snapshots before the one it was recorded for. -/
structure FaithfulTransition (earlier : List RuntimeSnapshot) (t : ResidentTransitionDetail) :
    Prop where
  changes : t.fromState ≠ t.toState
  first_iff : t.firstObservation = true ↔ Unseen earlier t.modelId
  observed : t.firstObservation = false → latestState earlier t.modelId = some t.fromState

/-- The transition that a record stands for; the note marks a first observation. -/
def ResidentTransitionRecord.detail (record : ResidentTransitionRecord) :
    ResidentTransitionDetail where
  modelId := ⟨record.modelId⟩
  fromState := record.fromState
  toState := record.toState
  firstObservation := record.note.isSome

/-- A transition of the runtime that is recorded is faithful. The snapshot it is recorded
for is the last one inspected before. -/
def FaithfulRecord (runtimeId : String) (before : History) (e : Program.Event Cmd.Resp) : Prop :=
  ∀ record, e.1 = .record (.recordResidentTransition record) → record.runtimeId = runtimeId →
    FaithfulTransition (inspectedSnapshots runtimeId before).dropLast record.detail

/-- Every model that was not in the snapshot before is seen for the first time, and is not
cold. -/
def ArrivesOnce (earlier : List RuntimeSnapshot) (current : RuntimeSnapshot) : Prop :=
  ∀ r ∈ current.residents, (∀ r' ∈ lastResidents [] earlier, r'.modelId ≠ r.modelId) →
    r.state ≠ .cold ∧ Unseen earlier r.modelId

/-! ### One comparison -/

theorem stateIn_eq_none_iff {residents : List ModelResident} {model : ModelId} :
    stateIn residents model = none ↔ ∀ r ∈ residents, r.modelId ≠ model := by
  simp [stateIn]

theorem latestState_concat (snapshots : List RuntimeSnapshot) (snapshot : RuntimeSnapshot)
    (model : ModelId) :
    latestState (snapshots ++ [snapshot]) model =
      (stateIn snapshot.residents model).or (latestState snapshots model) := by
  unfold latestState
  rw [List.reverse_concat, List.findSome?_cons]
  cases stateIn snapshot.residents model <;> rfl

theorem lastResidents_concat (prior : List ModelResident) (snapshots : List RuntimeSnapshot)
    (snapshot : RuntimeSnapshot) :
    lastResidents prior (snapshots ++ [snapshot]) = snapshot.residents :=
  List.foldl_concat ..

/-- A state read off the snapshot before is the latest one. -/
theorem latestState_of_stateIn {earlier : List RuntimeSnapshot} {model : ModelId}
    {state : ResidencyState} (h : stateIn (lastResidents [] earlier) model = some state) :
    latestState earlier model = some state ∧ ¬Unseen earlier model := by
  rcases List.eq_nil_or_concat earlier with rfl | ⟨before, last, rfl⟩
  · cases h
  · rw [List.concat_eq_append, lastResidents_concat] at h
    rw [List.concat_eq_append]
    refine ⟨by rw [latestState_concat, h]; rfl, fun hunseen => ?_⟩
    have hnone := stateIn_eq_none_iff.mpr (hunseen last (by simp))
    rw [hnone] at h
    cases h

/-- The transitions between two snapshots are faithful when the models that arrive do so
for the first time. -/
theorem faithful_residentTransitions_iff {earlier : List RuntimeSnapshot}
    {current : RuntimeSnapshot} :
    (∀ t ∈ residentTransitions (lastResidents [] earlier) current.residents,
      FaithfulTransition earlier t) ↔ ArrivesOnce earlier current := by
  constructor
  · intro hfaithful r hr habsent
    have hnone := stateIn_eq_none_iff.mpr habsent
    have ht : (⟨r.modelId, .cold, r.state, true⟩ : ResidentTransitionDetail) ∈
        residentTransitions (lastResidents [] earlier) current.residents := by
      refine List.mem_filterMap.mpr ⟨r, hr, ?_⟩
      rw [lookup_priorStates, hnone]
    obtain ⟨hchanges, hfirst, -⟩ := hfaithful _ ht
    exact ⟨hchanges.symm, hfirst.mp rfl⟩
  · intro harrives t ht
    obtain ⟨r, hr, ht⟩ := List.mem_filterMap.mp ht
    rw [lookup_priorStates] at ht
    cases hprior : stateIn (lastResidents [] earlier) r.modelId with
    | none =>
        rw [hprior] at ht
        obtain ⟨hcold, hunseen⟩ := harrives r hr (stateIn_eq_none_iff.mp hprior)
        cases ht
        exact ⟨hcold.symm, ⟨fun _ => hunseen, fun _ => rfl⟩, nofun⟩
    | some prev =>
        rw [hprior] at ht
        obtain ⟨hlatest, hseen⟩ := latestState_of_stateIn hprior
        dsimp only at ht
        split at ht
        · cases ht
        · next hne =>
            cases ht
            exact ⟨hne, ⟨nofun, fun hunseen => absurd hunseen hseen⟩, fun _ => hlatest⟩

/-! ### The log along a tick -/

section Log

variable {runtimeId : String} {codec : Codec} {env : ℕ → Surroundings} {state : AppState}
  {history : History} {w : World}

theorem inspectedSnapshots_append_event {c : Cmd} (hc : c ≠ .inspect runtimeId)
    (answer : c.Resp) :
    inspectedSnapshots runtimeId (history ++ [⟨c, answer⟩]) =
      inspectedSnapshots runtimeId history := by
  unfold inspectedSnapshots
  rw [inspectionsOf_append]
  have hnothing : inspectionsOf [⟨c, answer⟩] runtimeId = [] := by
    cases c with
    | inspect r =>
        rw [inspectionsOf_inspect, if_neg fun hr => hc (by rw [hr])]
    | _ => rfl
  rw [hnothing, List.append_nil]

theorem inspectedSnapshots_append_inspect (answer : Except String (SnapshotOf runtimeId)) :
    inspectedSnapshots runtimeId (history ++ [⟨.inspect runtimeId, answer⟩]) =
      inspectedSnapshots runtimeId history ++
        (answer.map Subtype.val).toOption.toList := by
  unfold inspectedSnapshots
  rw [inspectionsOf_append, inspectionsOf_inspect, if_pos rfl, List.filterMap_append]
  cases answer <;> rfl

/-- What the cache holds for a runtime are the residents inspected last. -/
theorem cachedResidents_of_tracks (h : Tracks history w.reconciler) :
    w.cachedResidents runtimeId = lastResidents [] (inspectedSnapshots runtimeId history) := by
  have hresidents : w.cachedResidents runtimeId =
      (((w.reconciler.cache.lookup runtimeId).map ReconciledSnapshot.snapshot).map
        RuntimeSnapshot.residents).getD [] := by
    rw [Option.map_map]
    rfl
  rw [hresidents, h runtimeId]
  unfold heldAfter lastGood inspectedSnapshots
  rcases List.eq_nil_or_concat ((inspectionsOf history runtimeId).filterMap Except.toOption)
    with hnil | ⟨before, last, hconcat⟩
  · rw [hnil, List.getLast?_nil]
    dsimp only
    split <;> rfl
  · rw [hconcat, List.concat_eq_append, List.getLast?_concat, lastResidents_concat]
    rfl

theorem always_faithful_append_event {c : Cmd} (answer : c.Resp)
    (hc : ∀ record, c = .record (.recordResidentTransition record) →
      record.runtimeId ≠ runtimeId) :
    Always (FaithfulRecord runtimeId) (history ++ [⟨c, answer⟩]) ↔
      Always (FaithfulRecord runtimeId) history := by
  rw [Always.concat_iff]
  exact and_iff_left fun record hrecord hid => absurd hid (hc record hrecord)

/-- The log so far can be trusted when every model arrived once so far. -/
def Logged (runtimeId : String) : Program.Condition Cmd.Resp World := fun history _ =>
  Always (FaithfulRecord runtimeId) history ↔
    Always ArrivesOnce (inspectedSnapshots runtimeId history)

/-- A snapshot is compared with the residents before, and the transitions `done` have been
recorded. -/
structure ComparingTo (runtimeId : String) (earlier : List RuntimeSnapshot)
    (current : RuntimeSnapshot) (done : List ResidentTransitionDetail) (history : History)
    (w : World) : Prop where
  inspected : inspectedSnapshots runtimeId history = earlier ++ [current]
  cached : w.cachedResidents runtimeId = lastResidents [] earlier
  faithful : Always (FaithfulRecord runtimeId) history ↔
    Always ArrivesOnce earlier ∧ ∀ t ∈ done, FaithfulTransition earlier t

variable {earlier : List RuntimeSnapshot} {current : RuntimeSnapshot}
  {done : List ResidentTransitionDetail}

/-- A command that is not about the runtime's entry leaves a comparison as it is. -/
theorem comparingTo_event {c : Cmd} (hinspect : c ≠ .inspect runtimeId)
    (hupdate : ∀ snapshot, c ≠ .updateSnapshot runtimeId snapshot)
    (hrecord : ∀ record, c ≠ .record (.recordResidentTransition record))
    (h : ComparingTo runtimeId earlier current done history w) :
    ComparingTo runtimeId earlier current done
      (history ++ [⟨c, (handle codec env w c).1⟩]) (handle codec env w c).2 where
  inspected := by
    rw [inspectedSnapshots_append_event hinspect]
    exact h.inspected
  cached := by
    rw [cachedResidents_handle runtimeId codec env w hupdate]
    exact h.cached
  faithful := by
    rw [always_faithful_append_event _ fun record heq => absurd heq (hrecord record)]
    exact h.faithful

theorem comparingTo_command {c : Cmd} (hinspect : c ≠ .inspect runtimeId)
    (hupdate : ∀ snapshot, c ≠ .updateSnapshot runtimeId snapshot)
    (hrecord : ∀ record, c ≠ .record (.recordResidentTransition record)) :
    Program.Triple (handle codec env) (ComparingTo runtimeId earlier current done)
      (Program.perform c) fun _ => ComparingTo runtimeId earlier current done :=
  .perform fun _ _ h => comparingTo_event hinspect hupdate hrecord h

/-- Recording one transition. -/
theorem comparingTo_record {record : ResidentTransitionRecord} {t : ResidentTransitionDetail}
    (hid : record.runtimeId = runtimeId) (hdetail : record.detail = t)
    (h : ComparingTo runtimeId earlier current done history w) :
    ComparingTo runtimeId earlier current (done ++ [t])
      (history ++ [⟨.record (.recordResidentTransition record),
        (handle codec env w (.record (.recordResidentTransition record))).1⟩])
      (handle codec env w (.record (.recordResidentTransition record))).2 where
  inspected := by
    rw [inspectedSnapshots_append_event (c := .record (.recordResidentTransition record))
      (by simp)]
    exact h.inspected
  cached := by
    rw [cachedResidents_handle runtimeId codec env w
      (c := .record (.recordResidentTransition record)) (by simp)]
    exact h.cached
  faithful := by
    have hrecord : FaithfulRecord runtimeId history ⟨.record (.recordResidentTransition record),
        (handle codec env w (.record (.recordResidentTransition record))).1⟩ ↔
          FaithfulTransition earlier t := by
      unfold FaithfulRecord
      rw [h.inspected, List.dropLast_concat, ← hdetail]
      constructor
      · intro hfaithful
        exact hfaithful record rfl hid
      · rintro hfaithful record' heq -
        cases heq
        exact hfaithful
    rw [Always.concat_iff, h.faithful, hrecord, List.forall_mem_append, and_assoc]
    simp only [List.forall_mem_singleton]

/-- Recording transitions one after another. -/
theorem comparingTo_forM (record : ResidentTransitionDetail → ResidentTransitionRecord)
    (hrecord : ∀ t, (record t).runtimeId = runtimeId ∧ (record t).detail = t)
    (transitions done : List ResidentTransitionDetail) :
    Program.Triple (handle codec env) (ComparingTo runtimeId earlier current done)
      (transitions.forM fun t => do
        let _ ← Daemon.record (.recordResidentTransition (record t)))
      fun _ => ComparingTo runtimeId earlier current (done ++ transitions) := by
  induction transitions generalizing done with
  | nil =>
      rw [List.append_nil]
      exact .pure fun _ _ h => h
  | cons t transitions ih =>
      have hone : Program.Triple (handle codec env)
          (ComparingTo runtimeId earlier current done)
          (do let _ ← Daemon.record (.recordResidentTransition (record t)))
          fun _ => ComparingTo runtimeId earlier current (done ++ [t]) := by
        refine Program.Triple.bind (.perform (c := .record (.recordResidentTransition (record t)))
          (Q := fun _ => ComparingTo runtimeId earlier current (done ++ [t])) ?_)
          fun _ => .pure fun _ _ h => h
        exact fun history w h => comparingTo_record (hrecord t).1 (hrecord t).2 h
      have hrest := ih (done ++ [t])
      rw [List.append_assoc] at hrest
      exact hone.bind fun _ => hrest

theorem comparingTo_emitResidentTransitions (round : UInt64) :
    Program.Triple (handle codec env) (ComparingTo runtimeId earlier current [])
      (state.emitResidentTransitions runtimeId (lastResidents [] earlier) current.residents round)
      fun _ => ComparingTo runtimeId earlier current
        (residentTransitions (lastResidents [] earlier) current.residents) := by
  unfold AppState.emitResidentTransitions
  dsimp only
  split
  next hempty =>
    rw [List.isEmpty_iff.mp hempty]
    exact .pure fun _ _ h => h
  next =>
    refine (comparingTo_command (c := .now) (by simp) (by simp) (by simp)).bind fun observedAt => ?_
    refine comparingTo_forM (fun t =>
      { modelId := t.modelId.text
        runtimeId
        fromState := t.fromState
        toState := t.toState
        observedAt
        evidenceSource := _
        decisionId := none
        note := if t.firstObservation then
          some "first observation; prior state inferred as cold" else none })
      (fun t => ⟨rfl, ?_⟩) _ []
    cases t with
    | mk modelId fromState toState firstObservation => cases firstObservation <;> rfl

/-- What an inspection leaves: a snapshot to compare, or the log as it was. -/
def AfterInspection (runtimeId : String) :
    Except String (SnapshotOf runtimeId) → Program.Condition Cmd.Resp World
  | .ok current, history, w =>
      ∃ earlier, ComparingTo runtimeId earlier current.val [] history w
  | .error _, history, w => Logged runtimeId history w

theorem afterInspection_inspect :
    Program.Triple (handle codec env)
      (fun history w => AppState.Tracked (fun _ => True) history w ∧ Logged runtimeId history w)
      (Daemon.inspect runtimeId) (AfterInspection runtimeId) := by
  refine .perform fun history w h => ?_
  obtain ⟨⟨htracks, -⟩, hlogged⟩ := h
  have hcached := cachedResidents_handle runtimeId codec env w (c := .inspect runtimeId) (by simp)
  generalize (handle codec env w (.inspect runtimeId)).2 = w' at hcached ⊢
  generalize (handle codec env w (.inspect runtimeId)).1 = answer
  have hfaithful : Always (FaithfulRecord runtimeId) (history ++ [⟨.inspect runtimeId, answer⟩]) ↔
      Always (FaithfulRecord runtimeId) history :=
    always_faithful_append_event answer (by simp)
  have hinspected : inspectedSnapshots runtimeId (history ++ [⟨.inspect runtimeId, answer⟩]) =
      inspectedSnapshots runtimeId history ++ (answer.map Subtype.val).toOption.toList :=
    inspectedSnapshots_append_inspect answer
  cases answer with
  | error e =>
      rw [show ((Except.error e : Except String (SnapshotOf runtimeId)).map
        Subtype.val).toOption.toList = [] from rfl, List.append_nil] at hinspected
      change Always _ _ ↔ Always _ _
      rw [hfaithful, hinspected]
      exact hlogged
  | ok current =>
      refine ⟨inspectedSnapshots runtimeId history, hinspected, ?_, ?_⟩
      · rw [hcached]
        exact cachedResidents_of_tracks htracks
      · rw [hfaithful]
        exact hlogged.trans (and_iff_left fun _ ht => absurd ht List.not_mem_nil).symm

/-- The part of a tick that follows a successful inspection. -/
theorem comparingTo_recordInspection (round : UInt64) :
    Program.Triple (handle codec env) (ComparingTo runtimeId earlier current [])
      (state.recordInspection runtimeId current round)
      fun _ => ComparingTo runtimeId earlier current
        (residentTransitions (lastResidents [] earlier) current.residents) := by
  unfold AppState.recordInspection
  refine Program.Triple.bind (.perform (c := .getReconciled runtimeId)
    (Q := fun previous history w => ComparingTo runtimeId earlier current [] history w ∧
      (previous.map fun p => p.snapshot.residents).getD [] = lastResidents [] earlier)
    fun history w h => ?_) fun previous => ?_
  · refine ⟨comparingTo_event (by simp) (by simp) (by simp) h, ?_⟩
    rw [residents_getReconciled]
    exact h.cached
  · rintro history w ⟨h, hprior⟩
    dsimp only
    rw [hprior]
    revert history w h hprior
    have hrest : Program.Triple (handle codec env) (ComparingTo runtimeId earlier current [])
        (do
          state.emitResidentTransitions runtimeId (lastResidents [] earlier) current.residents
            round
          let observedAt ← Daemon.now
          let id ← Daemon.newUuid
          let _ ← Daemon.record (.recordRuntimeSnapshot id runtimeId current observedAt))
        fun _ => ComparingTo runtimeId earlier current
          (residentTransitions (lastResidents [] earlier) current.residents) := by
      refine (comparingTo_emitResidentTransitions round).bind fun _ => ?_
      refine (comparingTo_command (c := .now) (by simp) (by simp) (by simp)).bind
        fun observedAt => ?_
      refine (comparingTo_command (c := .newUuid) (by simp) (by simp) (by simp)).bind
        fun id => ?_
      exact (comparingTo_command (c := .record (.recordRuntimeSnapshot id runtimeId current
        observedAt)) (by simp) (by simp) (by simp)).bind fun _ => .pure fun _ _ h => h
    exact fun history w h _ => hrest history w h

/-- Storing the snapshot ends a comparison. -/
theorem logged_updateSnapshot :
    Program.Triple (handle codec env)
      (ComparingTo runtimeId earlier current
        (residentTransitions (lastResidents [] earlier) current.residents))
      (Daemon.updateSnapshot runtimeId current) fun _ => Logged runtimeId := by
  refine .perform fun history w h => ?_
  change Always _ _ ↔ Always _ _
  rw [always_faithful_append_event _ (by simp), inspectedSnapshots_append_event (by simp),
    h.inspected, h.faithful, Always.concat_iff, faithful_residentTransitions_iff]

/-- A tick's part about the runtime. -/
theorem logged_reconcileRuntime_self (round : UInt64) :
    Program.Triple (handle codec env)
      (fun history w => AppState.Tracked (fun _ => True) history w ∧ Logged runtimeId history w)
      (state.reconcileRuntime runtimeId round) fun _ => Logged runtimeId := by
  refine afterInspection_inspect.bind fun answer => ?_
  cases answer with
  | error e =>
      refine .perform fun history w h => ?_
      change Always _ _ ↔ Always _ _
      rw [always_faithful_append_event _ (by simp), inspectedSnapshots_append_event (by simp)]
      exact h
  | ok current =>
      rintro history w ⟨earlier, h⟩
      exact ((comparingTo_recordInspection round).bind fun _ => logged_updateSnapshot) history w h

/-- A tick's part about another runtime. -/
theorem logged_reconcileRuntime_ne {id : String} (hid : id ≠ runtimeId) (round : UInt64) :
    Program.Triple (handle codec env) (Logged runtimeId) (state.reconcileRuntime id round)
      fun _ => Logged runtimeId := by
  refine Program.triple_of_ensures (spares_reconcileRuntime state hid round)
    (fun _ _ => trivial) fun history w c hc h => ?_
  change Always _ _ ↔ Always _ _
  rw [always_faithful_append_event _ (by
      rintro record rfl heq
      exact hc heq),
    inspectedSnapshots_append_event (by
      rintro rfl
      exact hc rfl)]
  exact h

theorem logged_runReconciliationTick :
    Program.Triple (handle codec env)
      (fun history w => AppState.Tracked (fun _ => True) history w ∧ Logged runtimeId history w)
      state.runReconciliationTick
      fun _ history w =>
        AppState.Tracked (fun _ => True) history w ∧ Logged runtimeId history w := by
  refine Program.Triple.bind (.perform (c := .nextRound) (Q := fun _ history w =>
    AppState.Tracked (fun _ => True) history w ∧ Logged runtimeId history w)
    fun history w h => ?_) fun round => .forM fun id _ => ?_
  · refine ⟨AppState.tracked_event rfl history w h.1, ?_⟩
    change Always _ _ ↔ Always _ _
    rw [always_faithful_append_event _ (by simp), inspectedSnapshots_append_event (by simp)]
    exact h.2
  · refine ((AppState.tracked_reconcileRuntime id round).and ?_).weaken
      (P := fun history w => AppState.Tracked (fun _ => True) history w ∧
        AppState.Tracked (fun _ => True) history w ∧ Logged runtimeId history w)
      fun _ _ h => ⟨h.1, h⟩
    by_cases hid : id = runtimeId
    · subst hid
      exact logged_reconcileRuntime_self round
    · exact (logged_reconcileRuntime_ne hid round).weaken fun _ _ h => h.2

end Log

/-- The reconciliation ticks of a daemon, one after another. -/
def AppState.runTicks (state : AppState) (rounds : ℕ) : Daemon Unit :=
  (List.range rounds).forM fun _ => state.runReconciliationTick

theorem logged_runTicks (state : AppState) (codec : Codec) (env : ℕ → Surroundings)
    (governance : Governance) (disk : Disk) (runtimeId : String) (rounds : ℕ) :
    let ran := (state.runTicks rounds).run (handle codec env) (.start governance disk)
    Logged runtimeId ran.trace ran.state := by
  intro ran
  have hstart : AppState.Tracked (fun _ => True) [] (.start governance disk) :=
    ⟨fun _ => rfl, trivial⟩
  have hnothing : Logged runtimeId [] (.start governance disk) := iff_of_true .nil .nil
  have hrun : Program.Triple (handle codec env)
      (fun history w => AppState.Tracked (fun _ => True) history w ∧ Logged runtimeId history w)
      (state.runTicks rounds) _ :=
    .forM fun _ _ => logged_runReconciliationTick
  exact (hrun [] _ ⟨hstart, hnothing⟩).2

/-- After any number of ticks the log of a runtime can be trusted exactly when every model
that arrived in a snapshot was seen for the first time, and was not cold. -/
theorem faithfulLog_iff (state : AppState) (codec : Codec) (env : ℕ → Surroundings)
    (governance : Governance) (disk : Disk) (runtimeId : String) (rounds : ℕ) :
    let history := ((state.runTicks rounds).run (handle codec env)
      (.start governance disk)).trace
    Always (FaithfulRecord runtimeId) history ↔
      Always ArrivesOnce (inspectedSnapshots runtimeId history) :=
  logged_runTicks state codec env governance disk runtimeId rounds

/-! ### A model that comes back -/

open AppState

/-- The model is hot, then gone, then hot again. -/
def comesBack (n : ℕ) : Surroundings :=
  { (default : Surroundings) with
    inspect := fun id => hotAnswer id (if 13 ≤ n ∧ n < 20 then [] else ["qwen9b"]) }

/-- The model is reported cold from the first inspection on. -/
def reportedCold (_ : ℕ) : Surroundings :=
  { (default : Surroundings) with
    inspect := fun id => .ok ⟨{ hotSnapshot id [] with
      residents := [⟨⟨"qwen9b"⟩, .cold, none, none, none, none⟩] }, rfl⟩ }

def ticksHistory (env : ℕ → Surroundings) (rounds : ℕ) : History :=
  ((twoRuntimes.runTicks rounds).run (handle default env) twoRuntimesStart).trace

instance (snapshots : List RuntimeSnapshot) (model : ModelId) :
    Decidable (Unseen snapshots model) := by
  unfold Unseen; infer_instance

instance (earlier : List RuntimeSnapshot) (current : RuntimeSnapshot) :
    Decidable (ArrivesOnce earlier current) := by
  unfold ArrivesOnce; infer_instance

/-- A model that was away for one snapshot is recorded as observed for the first time, and
one that is cold as turning cold. -/
theorem not_faithful_ticksHistory :
    (∀ s ∈ inspectedSnapshots "a" (ticksHistory comesBack 3),
      (s.residents.map ModelResident.modelId).Nodup) ∧
    ¬Always (FaithfulRecord "a") (ticksHistory comesBack 3) ∧
      ¬Always (FaithfulRecord "a") (ticksHistory reportedCold 1) := by
  refine ⟨by decide +kernel, fun h => ?_, fun h => ?_⟩
  · have harrives := (logged_runTicks twoRuntimes default comesBack _ _ "a" 3).mp h
    revert harrives
    decide +kernel
  · have harrives := (logged_runTicks twoRuntimes default reportedCold _ _ "a" 1).mp h
    revert harrives
    decide +kernel

end Anemoi
