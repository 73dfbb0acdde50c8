import Anemoi.Daemon.ResidencyTruth

/-!
# Evictions on a fleet

An approved plan is walked action by action. Only mocks can unload, so an unload on another
runtime of the daemon fails whether live execution is enabled or not, and one on a runtime that
the daemon does not have fails while it is disabled and is passed over while it is enabled.
`unloads_up_to_live` says what is resident on the mocks where a walk has ended.

After a tick the cache has exactly what is on each mock: `mirrors_after_tick`.
-/

namespace Anemoi

open Systems

/-- The runtime and the model of an action that unloads. -/
def RuntimeAction.plannedUnload (action : RuntimeAction) : Option (String × ModelId) :=
  if action.kind = .unload then action.modelId.map fun model => (action.runtimeId.text, model)
  else none

/-- What a plan unloads: nothing if it is a dry run or not approved. -/
def ActionPlan.plannedUnloads (plan : ActionPlan) (approved : Bool) : List (String × ModelId) :=
  if plan.dryRun || !approved then []
  else plan.actions.filterMap RuntimeAction.plannedUnload

/-- What the gate answered when it was asked. -/
def gateRead : Program.Event Cmd.Resp → Option Bool
  | ⟨.liveExecutionEnabled, answer⟩ => some answer
  | _ => none

/-- The answers of the gate in a history. -/
def gateReads (history : History) : List Bool :=
  history.filterMap gateRead

/-- The planned unloads that a walk gets past with these answers of the gate. It gets past those
on mocks, and past those on runtimes that the daemon does not have if the gate is open. -/
def AppState.passed (state : AppState) :
    List (String × ModelId) → List Bool → List (String × ModelId)
  | [], _ => []
  | unload :: planned, gate =>
      if state.isMockRuntime unload.1 then unload :: state.passed planned gate
      else if (state.runtimes.lookup unload.1).isSome then []
      else if gate.head? = some true then unload :: state.passed planned gate.tail
      else []

/-- The planned unloads on mocks. -/
def AppState.onMocks (state : AppState) (planned : List (String × ModelId)) :
    List (String × ModelId) :=
  planned.filter fun unload => state.isMockRuntime unload.1

/-- The line that reports an unload. -/
def unloadedLine (unload : String × ModelId) : String :=
  s!"Unloaded {unload.2} on {(⟨unload.1⟩ : RuntimeId)}"

theorem RuntimeAction.plannedUnload_eq_some {action : RuntimeAction} {modelId : ModelId}
    (hkind : action.kind = .unload) (hmodel : action.modelId = some modelId) :
    action.plannedUnload = some (action.runtimeId.text, modelId) := by
  rw [plannedUnload, if_pos hkind, hmodel, Option.map_some]

theorem RuntimeAction.plannedUnload_eq_none {action : RuntimeAction}
    (h : ∀ modelId, action.kind = .unload → action.modelId = some modelId → False) :
    action.plannedUnload = none := by
  unfold plannedUnload
  split
  · next hkind =>
      rw [Option.map_eq_none_iff, Option.eq_none_iff_forall_ne_some]
      exact fun modelId => h modelId hkind
  · rfl

@[simp] theorem RuntimeAdapter.kind_evolved (a : RuntimeAdapter) (calls : List MockCall)
    (updates : List ModelStatusUpdate) : (a.evolved calls updates).kind = a.kind := by
  cases a <;> rfl

namespace Fleet

/-- The fleet has the adapters that the operations of the daemon read. -/
def Mirrors (state : AppState) (fleet : Fleet) : Prop :=
  ∀ runtimeId, state.runtimes.lookup runtimeId =
    (fleet.adapter runtimeId).map RuntimeAdapter.kind

theorem Mirrors.evolved {state : AppState} {fleet : Fleet} (h : Mirrors state fleet)
    (calls : String → List MockCall) (updates : String → List ModelStatusUpdate) :
    Mirrors state (fleet.evolved calls updates) := by
  intro runtimeId
  rw [h runtimeId, adapter_evolved, Option.map_map]
  congr 1
  exact funext fun a => (a.kind_evolved _ _).symm

end Fleet

theorem RuntimeAdapter.unloadModel_eq (a : RuntimeAdapter) :
    if a.kind.isMock then a.unloadModel = .ok () else ∃ e, a.unloadModel = .error e := by
  cases a with
  | mock adapter => exact rfl
  | ollama adapter => exact ⟨_, rfl⟩
  | llamaSwap adapter => exact ⟨_, rfl⟩
  | llamaCpp adapter => exact ⟨_, rfl⟩

/-- An adapter is a mock on the runtimes that are configured with `mock`. -/
theorem AppState.isMock_eq {state : AppState} {runtimeId : String} {kind : Adapter}
    (hlookup : state.runtimes.lookup runtimeId = some kind) :
    kind.isMock = state.isMockRuntime runtimeId := by
  rw [Bool.eq_iff_iff]
  refine ⟨isMockRuntime_of_isMock hlookup, fun hmock => ?_⟩
  rw [lookup_runtimes, Option.map_eq_some_iff] at hlookup
  obtain ⟨config, hconfig, rfl⟩ := hlookup
  rw [isMockRuntime, runtimeAdapterType, hconfig, Option.map_some, decide_eq_true_eq,
    Option.some.injEq] at hmock
  rw [hmock]
  rfl

/-- A runtime that is configured with `mock` has an adapter. -/
theorem AppState.lookup_of_isMockRuntime {state : AppState} {runtimeId : String}
    (hmock : state.isMockRuntime runtimeId = true) :
    ∃ kind, state.runtimes.lookup runtimeId = some kind := by
  rw [isMockRuntime, runtimeAdapterType, decide_eq_true_eq, Option.map_eq_some_iff] at hmock
  obtain ⟨config, hconfig, -⟩ := hmock
  exact ⟨_, by rw [lookup_runtimes, hconfig, Option.map_some]⟩

section Walk

variable {state : AppState} (codec : Codec) (library : AdapterLibrary)
  (outside : ℕ → FleetSurroundings)

/-- How a fleet answers an unload on a configured runtime. -/
theorem unloadModel_fleetSystem {s : World × Fleet} {runtimeId : String} {kind : Adapter}
    (hmirrors : s.2.Mirrors state) (hlookup : state.runtimes.lookup runtimeId = some kind)
    (model : ModelId) :
    let answered := fleetSystem codec library outside s (.unloadModel runtimeId model)
    answered.2.2.Mirrors state ∧
      if state.isMockRuntime runtimeId then answered.1 = .ok ()
      else ∃ e, answered.1 = .error e := by
  intro answered
  refine ⟨(hmirrors.evolved _ _).evolved _ _, ?_⟩
  have hadapter := hmirrors runtimeId
  rw [hlookup, eq_comm, Option.map_eq_some_iff] at hadapter
  obtain ⟨a, ha, rfl⟩ := hadapter
  have hnow : (s.2.receive (outside s.1.clock)).adapter runtimeId =
      some (a.evolved [] ((outside s.1.clock).updates runtimeId)) := by
    rw [Fleet.receive, Fleet.adapter_evolved, ha, Option.map_some]
  have hanswer : answered.1 =
      ((s.2.receive (outside s.1.clock)).answers library (outside s.1.clock)).unloadModel
        runtimeId model := rfl
  rw [Fleet.answers_unloadModel hnow] at hanswer
  have hunload := (a.evolved [] ((outside s.1.clock).updates runtimeId)).unloadModel_eq
  rw [RuntimeAdapter.kind_evolved, AppState.isMock_eq hlookup] at hunload
  rw [hanswer]
  exact hunload

/-- The unloads that a walk makes on a mock, in their order. -/
def callsOn (unloads : List (String × ModelId)) (runtimeId : String) : List MockCall :=
  (unloads.filter fun unload => unload.1 = runtimeId).map fun unload => .unload unload.2

/-- A walk over some actions: what it unloads on mocks, and whether it succeeds. -/
structure WalksTo (state : AppState) (planned : List (String × ModelId)) (results : List String)
    (after : Program.Outcome Cmd.Resp (Except String (List String)) (World × Fleet)) : Prop where
  calls : ∀ runtimeId, state.isMockRuntime runtimeId = true → mockCalls after.trace runtimeId =
    callsOn (state.passed planned (gateReads after.trace)) runtimeId
  succeeds : state.passed planned (gateReads after.trace) = planned →
    after.result = .ok (results ++ (state.onMocks planned).map unloadedLine)
  fails : state.passed planned (gateReads after.trace) ≠ planned → ∃ e, after.result = .error e

/-- The walk goes on after an unload on a mock. -/
theorem WalksTo.cons {planned : List (String × ModelId)} {results : List String}
    {after : Program.Outcome Cmd.Resp (Except String (List String)) (World × Fleet)}
    {runtimeId : String} {model : ModelId} (hmock : state.isMockRuntime runtimeId = true)
    (h : WalksTo state planned (results ++ [unloadedLine (runtimeId, model)]) after)
    (answer : Except String Unit) :
    WalksTo state ((runtimeId, model) :: planned) results
      ⟨after.result, after.state, ⟨.unloadModel runtimeId model, answer⟩ :: after.trace⟩ := by
  have hgate : gateReads (⟨.unloadModel runtimeId model, answer⟩ :: after.trace) =
      gateReads after.trace := rfl
  have hpassed : state.passed ((runtimeId, model) :: planned) (gateReads after.trace) =
      (runtimeId, model) :: state.passed planned (gateReads after.trace) := by
    rw [AppState.passed, if_pos hmock]
  refine ⟨fun r hr => ?_, fun hall => ?_, fun hnot => ?_⟩
  · have hcall := h.calls r hr
    rw [hgate, hpassed]
    by_cases hsame : runtimeId = r
    · simp [mockCalls, Cmd.mockCall, callsOn, hsame] at hcall ⊢
      exact hcall
    · simp [mockCalls, Cmd.mockCall, callsOn, hsame] at hcall ⊢
      exact hcall
  · rw [hgate, hpassed, List.cons.injEq] at hall
    rw [AppState.onMocks, List.filter_cons_of_pos (by exact hmock), List.map_cons, List.append_cons]
    exact h.succeeds hall.2
  · rw [hgate, hpassed] at hnot
    exact h.fails fun heq => hnot (by rw [heq])

/-- The walk goes on where the gate is open and the daemon does not have the runtime. -/
theorem WalksTo.skip {planned : List (String × ModelId)} {results : List String}
    {after : Program.Outcome Cmd.Resp (Except String (List String)) (World × Fleet)}
    {runtimeId : String} {model : ModelId} (hlive : state.isMockRuntime runtimeId ≠ true)
    (hnone : state.runtimes.lookup runtimeId = none) (h : WalksTo state planned results after) :
    WalksTo state ((runtimeId, model) :: planned) results
      ⟨after.result, after.state, ⟨.liveExecutionEnabled, true⟩ :: after.trace⟩ := by
  have hpassed : state.passed ((runtimeId, model) :: planned)
      (gateReads (⟨.liveExecutionEnabled, true⟩ :: after.trace)) =
        (runtimeId, model) :: state.passed planned (gateReads after.trace) := by
    simp [AppState.passed, hlive, hnone, gateReads, gateRead]
  refine ⟨fun r hr => ?_, fun hall => ?_, fun hnot => ?_⟩
  · have hother : runtimeId ≠ r := fun heq => hlive (heq ▸ hr)
    rw [hpassed, callsOn, List.filter_cons_of_neg (by simpa using hother)]
    exact h.calls r hr
  · rw [hpassed, List.cons.injEq] at hall
    rw [AppState.onMocks, List.filter_cons_of_neg (by exact hlive)]
    exact h.succeeds hall.2
  · rw [hpassed] at hnot
    exact h.fails fun heq => hnot (by rw [heq])

/-- The walk stops at an unload that it does not get past. -/
theorem WalksTo.stop {planned : List (String × ModelId)} {results : List String}
    {after : Program.Outcome Cmd.Resp (Except String (List String)) (World × Fleet)}
    {unload : String × ModelId}
    (hpassed : state.passed (unload :: planned) (gateReads after.trace) = [])
    (hcalls : ∀ r, state.isMockRuntime r = true → mockCalls after.trace r = [])
    (hresult : ∃ e, after.result = .error e) :
    WalksTo state (unload :: planned) results after := by
  refine ⟨fun r hr => ?_, fun hall => ?_, fun _ => hresult⟩
  · rw [hpassed, hcalls r hr]
    rfl
  · rw [hpassed] at hall
    cases hall

/-- The run of a command and what follows. -/
theorem run_perform_bind {σ β : Type} (h : Program.Handler Cmd.Resp σ) (c : Cmd)
    (f : c.Resp → Daemon β) (s : σ) :
    (Program.perform c >>= f).run h s =
      let o := (f (h s c).1).run h (h s c).2
      ⟨o.result, o.state, ⟨c, (h s c).1⟩ :: o.trace⟩ := rfl

theorem mutationAllowed_bind {β : Type} (isMock : Bool) (f : Bool → Daemon β) :
    mutationAllowed isMock >>= f =
      if isMock then f true else Daemon.liveExecutionEnabled >>= f := by
  cases isMock <;> rfl

theorem walksTo_unloadAll {actions : List RuntimeAction} {results : List String}
    {s : World × Fleet} (hmirrors : s.2.Mirrors state) :
    WalksTo state (actions.filterMap RuntimeAction.plannedUnload) results
      ((state.unloadAll actions results).run (fleetSystem codec library outside) s) := by
  induction actions generalizing results s with
  | nil => exact ⟨fun _ _ => rfl, fun _ => by simp [AppState.unloadAll, AppState.onMocks],
      fun h => absurd rfl h⟩
  | cons action rest ih =>
      unfold AppState.unloadAll
      split
      · next modelId hkind hmodel =>
          rw [List.filterMap_cons_some (RuntimeAction.plannedUnload_eq_some hkind hmodel)]
          dsimp only
          by_cases hmock : state.isMockRuntime action.runtimeId.text = true
          · obtain ⟨kind, hlookup⟩ := AppState.lookup_of_isMockRuntime hmock
            obtain ⟨hmirrors', hanswer⟩ := unloadModel_fleetSystem codec library outside hmirrors
              hlookup modelId
            rw [if_pos hmock] at hanswer
            rw [mutationAllowed_bind, if_pos hmock, if_pos rfl, hlookup]
            dsimp only
            rw [Daemon.unloadModel, run_perform_bind, hanswer]
            exact .cons hmock (ih hmirrors') _
          · rw [mutationAllowed_bind, if_neg hmock, Daemon.liveExecutionEnabled, run_perform_bind]
            set asked := fleetSystem codec library outside s .liveExecutionEnabled with hasked
            have hmirrors' : asked.2.2.Mirrors state := (hmirrors.evolved _ _).evolved _ _
            cases henabled : asked.1 with
            | false =>
                refine .stop ?_ (fun _ _ => rfl) ⟨_, rfl⟩
                simp [AppState.passed, hmock, gateReads, gateRead]
            | true =>
                rw [if_pos rfl]
                cases hlookup : state.runtimes.lookup action.runtimeId.text with
                | none => exact .skip hmock hlookup (ih hmirrors')
                | some kind =>
                    obtain ⟨-, hanswer⟩ := unloadModel_fleetSystem codec library outside hmirrors'
                      hlookup modelId
                    rw [if_neg hmock] at hanswer
                    obtain ⟨e, herror⟩ := hanswer
                    dsimp only
                    rw [Daemon.unloadModel, run_perform_bind, herror]
                    refine .stop ?_ (fun r hr => ?_) ⟨e, rfl⟩
                    · rw [AppState.passed, if_neg hmock, if_pos (by simp [hlookup])]
                    · have hother : action.runtimeId.text ≠ r := fun heq => hmock (heq ▸ hr)
                      simp [mockCalls, Cmd.mockCall, hother]
      · next hother =>
          rw [List.filterMap_cons_none (RuntimeAction.plannedUnload_eq_none hother)]
          exact ih hmirrors

theorem walksTo_executeEvictionPlan (plan : ActionPlan) (approved : Bool) {s : World × Fleet}
    (hmirrors : s.2.Mirrors state) :
    WalksTo state (plan.plannedUnloads approved) []
      ((state.executeEvictionPlan plan approved).run (fleetSystem codec library outside) s) := by
  rw [AppState.executeEvictionPlan, ActionPlan.plannedUnloads]
  split
  · exact ⟨fun _ _ => rfl, fun _ => rfl, fun h => absurd rfl h⟩
  · exact walksTo_unloadAll codec library outside hmirrors

theorem mockCalls_append (history later : History) (runtimeId : String) :
    mockCalls (history ++ later) runtimeId =
      mockCalls history runtimeId ++ mockCalls later runtimeId :=
  List.filterMap_append

/-- Unloads remove the residents of their models. -/
theorem residentOf_callsOn (adapter : MockRuntimeAdapter) (unloads : List (String × ModelId))
    (runtimeId : String) (model : ModelId) :
    (adapter.after (callsOn unloads runtimeId)).residentOf model =
      if (runtimeId, model) ∈ unloads then none else adapter.residentOf model := by
  rw [MockRuntimeAdapter.residentOf_after]
  generalize adapter.residentOf model = resident
  induction unloads generalizing resident with
  | nil => rfl
  | cons unload unloads ih =>
      obtain ⟨r, m⟩ := unload
      by_cases hr : r = runtimeId
      · subst hr
        have hfirst : callsOn ((r, m) :: unloads) r = .unload m :: callsOn unloads r := by
          simp [callsOn]
        rw [hfirst, List.foldl_cons, ih, MockRuntimeAdapter.cell]
        by_cases hm : model = m
        · simp [hm]
        · simp [hm]
      · have hskip : callsOn ((r, m) :: unloads) runtimeId = callsOn unloads runtimeId := by
          simp [callsOn, hr]
        rw [hskip, ih]
        simp [Ne.symm hr]

/-- An adapter of an evolved fleet that is a mock. -/
theorem Fleet.Evolves.mock {fleet : Fleet} {history : History} {s : World × Fleet}
    (h : Fleet.Evolves library outside fleet history s) {runtimeId : String}
    {a : MockRuntimeAdapter} :
    s.2.adapter runtimeId = some (.mock a) ↔ ∃ a₀, fleet.adapter runtimeId = some (.mock a₀) ∧
      a₀.after (mockCalls history runtimeId) = a := by
  rw [h.fleet_eq, Fleet.adapter_evolved, Option.map_eq_some_iff]
  constructor
  · rintro ⟨a₀, ha₀, hevolved⟩
    cases a₀ with
    | mock a₀ => exact ⟨a₀, ha₀, RuntimeAdapter.mock.inj hevolved⟩
    | ollama _ => cases hevolved
    | llamaSwap _ => cases hevolved
    | llamaCpp _ => cases hevolved
  · rintro ⟨a₀, ha₀, rfl⟩
    exact ⟨.mock a₀, ha₀, rfl⟩

/-- A plan is executed in any reachable state. Each mock loses the residents that are planned
among what the walk gets past, and keeps the others; the execution succeeds exactly if the walk
gets past everything, with one line for each unload on a mock. -/
theorem unloads_up_to_live {start : StartLibrary} {fleet : Fleet}
    (hstart : Fleet.start start state.config = .ok fleet) (governance : Governance) (disk : Disk)
    (operations : List Operation) (plan : ActionPlan) (approved : Bool) :
    let before := (state.performAll codec operations).run (fleetSystem codec library outside)
      (.start governance disk, fleet)
    let after := (state.executeEvictionPlan plan approved).run
      (fleetSystem codec library outside) before.state
    let planned := plan.plannedUnloads approved
    let passed := state.passed planned (gateReads after.trace)
    (∀ runtimeId a, before.state.2.adapter runtimeId = some (.mock a) →
      ∃ a', after.state.2.adapter runtimeId = some (.mock a') ∧
        ∀ model, a'.residentOf model =
          if (runtimeId, model) ∈ passed then none else a.residentOf model) ∧
      (passed = planned → after.result = .ok ((state.onMocks planned).map unloadedLine)) ∧
      (passed ≠ planned → ∃ e, after.result = .error e) := by
  intro before after planned passed
  have hbefore : Fleet.Evolves library outside fleet before.trace before.state :=
    Fleet.evolves_fleetSystem _ [] _ (Fleet.evolves_start governance disk)
  have hafter : Fleet.Evolves library outside fleet (before.trace ++ after.trace) after.state :=
    Fleet.evolves_fleetSystem _ before.trace before.state hbefore
  have hstarted : fleet.Mirrors state := Fleet.lookup_runtimes_start hstart
  have hmirrors : before.state.2.Mirrors state := by
    rw [hbefore.fleet_eq]
    exact hstarted.evolved _ _
  have hwalks : WalksTo state planned [] after :=
    walksTo_executeEvictionPlan codec library outside plan approved hmirrors
  refine ⟨fun runtimeId a ha => ?_, hwalks.succeeds, hwalks.fails⟩
  obtain ⟨a₀, ha₀, rfl⟩ := hbefore.mock.mp ha
  have hmock : state.isMockRuntime runtimeId = true := by
    rw [← AppState.isMock_eq ((hstarted runtimeId).trans (congrArg _ ha₀))]
    rfl
  refine ⟨_, hafter.mock.mpr ⟨a₀, ha₀, rfl⟩, fun model => ?_⟩
  rw [mockCalls_append, hwalks.calls runtimeId hmock, MockRuntimeAdapter.after,
    List.foldl_append]
  exact residentOf_callsOn _ _ _ _

/-! ### Ticks -/

/-- A tick calls no mock. -/
theorem mockCalls_tick (s : World × Fleet) (runtimeId : String) :
    mockCalls (state.runReconciliationTick.run (fleetSystem codec library outside) s).trace
      runtimeId = [] := by
  have harea := Program.forall_mem_trace (h := fleetSystem codec library outside)
    (AppState.within_runReconciliationTick state) (fun _ _ => trivial) s
  rw [mockCalls, List.filterMap_eq_nil_iff]
  rintro ⟨c, answer⟩ he
  have hc := harea _ he
  cases c with
  | loadModel r model => simp [Cmd.area] at hc
  | unloadModel r model => simp [Cmd.area] at hc
  | _ => rfl

/-- A tick inspects every runtime. -/
theorem inspect_mem_tick {runtimeId : String} (hmem : runtimeId ∈ state.runtimes.keys)
    (s : World × Fleet) : ∃ answer, ⟨.inspect runtimeId, answer⟩ ∈
      (state.runReconciliationTick.run (fleetSystem codec library outside) s).trace := by
  have hloop := Program.exists_mem_trace_forM (h := fleetSystem codec library outside)
    (f := fun r => state.reconcileRuntime r
      (fleetSystem codec library outside s .nextRound).1) hmem
    (P := fun e => ∃ answer, e = ⟨.inspect runtimeId, answer⟩)
    (fun s' => ⟨_, List.mem_cons_self, _, rfl⟩)
    (fleetSystem codec library outside s .nextRound).2
  obtain ⟨e, he, answer, rfl⟩ := hloop
  exact ⟨answer, List.mem_cons_of_mem _ he⟩

/-- An inspection of a fleet answers what the adapter answers. -/
theorem Fleet.map_inspect {fleet : Fleet} {replies : String → HttpReplies} {runtimeId : String}
    {a : RuntimeAdapter} (ha : fleet.adapter runtimeId = some a) :
    (fleet.inspect library replies runtimeId).map Subtype.val =
      a.inspect library (replies runtimeId) := by
  unfold inspect
  split
  · next hnone => cases hnone.symm.trans ha
  · next a' ha' =>
      obtain rfl : a' = a := Option.some.inj (ha'.symm.trans ha)
      split
      · next e he => exact he.symm
      · next snapshot hsnapshot => exact hsnapshot.symm

theorem heldAfter_append_same {runtimeId : String} {earlier : List (Except String RuntimeSnapshot)}
    {later : List (Except String RuntimeSnapshot)} {snapshot : RuntimeSnapshot}
    (hsome : later ≠ []) (hsame : ∀ answer ∈ later, answer = .ok snapshot) :
    heldAfter runtimeId (earlier ++ later) = some snapshot := by
  obtain ⟨front, last, rfl⟩ := (List.eq_nil_or_concat later).resolve_left hsome
  rw [hsame last (by simp), List.concat_eq_append, ← List.append_assoc]
  exact heldAfter_append_ok runtimeId _ snapshot

/-- After a tick in any reachable state the cache has what is on each mock. -/
theorem mirrors_after_tick {start : StartLibrary} {fleet : Fleet}
    (hstart : Fleet.start start state.config = .ok fleet) (governance : Governance) (disk : Disk)
    (operations : List Operation) :
    let before := (state.performAll codec operations).run (fleetSystem codec library outside)
      (.start governance disk, fleet)
    let after := state.runReconciliationTick.run (fleetSystem codec library outside) before.state
    ∀ runtimeId a, after.state.2.adapter runtimeId = some (.mock a) →
      (after.state.1.reconciler.cache.lookup runtimeId).map ReconciledSnapshot.snapshot =
        some a.snapshot := by
  intro before after runtimeId a ha
  have hbefore : TracksFleet library outside fleet before.trace before.state :=
    tracksFleet_performAll operations [] _ (tracksFleet_start governance disk)
  have hafter : Fleet.Evolves library outside fleet (before.trace ++ after.trace) after.state :=
    Fleet.evolves_fleetSystem _ before.trace before.state hbefore.2
  have htracks : Tracks (before.trace ++ after.trace) after.state.1.reconciler :=
    ((daemonSystem codec).triple_close (Fleet.environment library outside)
      (fun env => (AppState.tracked_runReconciliationTick :
        Program.Triple (handle codec env) (AppState.Tracked fun _ => True) _ _))
      before.trace before.state hbefore.1).1
  obtain ⟨a₀, ha₀, rfl⟩ := hafter.mock.mp ha
  -- the tick makes no calls, so that all its inspections find the same
  have hcalls : mockCalls after.trace runtimeId = [] :=
    mockCalls_tick codec library outside before.state runtimeId
  have hfound : ∀ answer ∈ inspectionsOf after.trace runtimeId, answer =
      .ok (a₀.after (mockCalls (before.trace ++ after.trace) runtimeId)).snapshot := by
    intro answer hanswer
    obtain ⟨inspected, hmem, rfl⟩ := mem_inspectionsOf.mp hanswer
    obtain ⟨earlier, later, hsplit⟩ := List.append_of_mem hmem
    have hearlier : mockCalls earlier runtimeId = [] := by
      rw [hsplit, mockCalls_append, List.append_eq_nil_iff] at hcalls
      exact hcalls.1
    have hinspected := hafter.answered (before.trace ++ earlier) _ inspected later
      (by rw [hsplit, List.append_assoc]) _ rfl
    have hadapter : (fleet.answering outside (before.trace ++ earlier)).adapter runtimeId =
        some (.mock (a₀.after (mockCalls (before.trace ++ earlier) runtimeId))) := by
      rw [Fleet.answering, Fleet.adapter_evolved, ha₀]
      rfl
    rw [hinspected, mockCalls_append, hcalls, ← hearlier, ← mockCalls_append]
    exact Fleet.map_inspect library hadapter
  obtain ⟨kind, hkind⟩ : ∃ kind, state.runtimes.lookup runtimeId = some kind :=
    ⟨_, (Fleet.lookup_runtimes_start hstart runtimeId).trans (congrArg _ ha₀)⟩
  have hkey : runtimeId ∈ state.runtimes.keys :=
    AList.mem_keys.mpr (AList.mem_iff_lookup.mpr ⟨kind, hkind⟩)
  obtain ⟨answer, hmem⟩ := inspect_mem_tick codec library outside hkey before.state
  have hsome : inspectionsOf after.trace runtimeId ≠ [] :=
    List.ne_nil_of_mem (mem_inspectionsOf.mpr ⟨answer, hmem, rfl⟩)
  rw [htracks runtimeId, inspectionsOf_append]
  exact heldAfter_append_same hsome hfound

end Walk

/-! ### A plan for both runtimes -/

/-- The small model on the mock first, then on Ollama. -/
def bothUnloads : ActionPlan where
  decisionId := ⟨0⟩
  actions :=
    [⟨.unload, ⟨"a"⟩, some ⟨"qwen9b"⟩, false, true, "idle", none⟩,
     ⟨.unload, ⟨"b"⟩, some ⟨"qwen9b"⟩, false, true, "idle", none⟩]
  dryRun := false

theorem exists_mock_of_kind {a : Option RuntimeAdapter}
    (h : a.map RuntimeAdapter.kind = some .mock) : ∃ mock, a = some (.mock mock) := by
  obtain ⟨a, rfl, ha⟩ := Option.map_eq_some_iff.mp h
  cases a with
  | mock mock => exact ⟨mock, rfl⟩
  | ollama _ => cases ha
  | llamaSwap _ => cases ha
  | llamaCpp _ => cases ha

/-- The mock has unloaded when the plan fails on Ollama. -/
theorem unloads_up_to_live_bothUnloads :
    let after := (warmStart.executeEvictionPlan bothUnloads true).run
      (fleetSystem default default quietOutside) warmRun.state
    (∃ a', after.state.2.adapter "a" = some (.mock a') ∧ a'.residentOf ⟨"qwen9b"⟩ = none) ∧
      ∃ e, after.result = .error e := by
  intro after
  have hpassed : ("a", ⟨"qwen9b"⟩) ∈
      warmStart.passed (bothUnloads.plannedUnloads true) (gateReads after.trace) := by
    decide +kernel
  have hstopped : warmStart.passed (bothUnloads.plannedUnloads true) (gateReads after.trace) ≠
      bothUnloads.plannedUnloads true := by
    decide +kernel
  obtain ⟨hmocks, -, hfails⟩ := unloads_up_to_live default default quietOutside start_warmFleet
    (.new warmStart.config {} none) ⟨none, none⟩
    [.reconciliationTick, .decide AppState.codingRequest] bothUnloads true
  obtain ⟨a, ha⟩ := exists_mock_of_kind (a := warmRun.state.2.adapter "a") (by decide +kernel)
  obtain ⟨a', ha', hresident⟩ := hmocks "a" a ha
  exact ⟨⟨a', ha', (hresident _).trans (if_pos hpassed)⟩, hfails hstopped⟩

theorem mirrors_after_tick_warmRun :
    let after := warmStart.runReconciliationTick.run (fleetSystem default default quietOutside)
      warmRun.state
    ∃ a, after.state.2.adapter "a" = some (.mock a) ∧
      (after.state.1.reconciler.cache.lookup "a").map ReconciledSnapshot.snapshot =
        some a.snapshot := by
  intro after
  obtain ⟨a, ha⟩ := exists_mock_of_kind (a := after.state.2.adapter "a") (by decide +kernel)
  exact ⟨a, ha, mirrors_after_tick default default quietOutside start_warmFleet
    (.new warmStart.config {} none) ⟨none, none⟩
    [.reconciliationTick, .decide AppState.codingRequest] "a" a ha⟩

end Anemoi
