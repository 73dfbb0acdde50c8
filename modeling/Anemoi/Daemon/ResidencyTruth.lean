import Anemoi.Daemon.Evidence
import Anemoi.Daemon.Fleet

/-!
# What a resident rests on

Routing trusts the residents that the cache of snapshots lists. `LoadEvidence` says what
each kind of runtime lists them on: a mock on its configuration and the calls it got,
llama-swap on the last event of its stream, Ollama on its list of running models.
llama.cpp lists none.

`residents_have_evidence` is about every reachable state of a daemon with its runtimes, and
`served_on_evidence` about every decision that is made there.
-/

namespace Anemoi

open Systems

/-- Why a runtime may list a resident when the daemon inspects it after a history. -/
inductive LoadEvidence (runtime : RuntimeConfig) (outside : ℕ → FleetSurroundings)
    (before : History) (runtimeId : String) (resident : ModelResident) : Prop
  /-- A mock starts with it, and it was never unloaded. -/
  | initial (isMock : runtime.adapter = "mock") (config : RuntimeResidentConfig)
      (config_mem : config ∈ runtime.initialResidents)
      (resident_eq : resident = config.intoResident)
      (kept : MockCall.unload resident.modelId ∉ mockCalls before runtimeId)
  /-- A mock was told to load it. -/
  | loaded (isMock : Adapter.ofName runtime.adapter = .mock)
      (resident_eq : resident = .bare resident.modelId .loading)
      (load_mem : MockCall.load resident.modelId ∈ mockCalls before runtimeId)
  /-- The last event of llama-swap's stream carries it. -/
  | pushed (isSwap : runtime.adapter = "llama_swap") (update : ModelStatusUpdate)
      (name : String) (state : LlamaSwapModelState)
      (last : (received outside (before.length + 1) runtimeId).getLast? = some update)
      (entry_mem : (name, state) ∈ update) (resident_eq : residentOf (name, state) = some resident)
  /-- Ollama runs it. -/
  | running (isOllama : runtime.adapter = "ollama") (status : UInt16)
      (body : List OllamaRunningModel) (model : OllamaRunningModel)
      (ps : ((outside before.length).replies runtimeId).ps = .ok (status, .ok body))
      (model_mem : model ∈ body) (resident_eq : resident = model.resident)

/-- The last successful inspection of a runtime in a history listed the resident, on
evidence. -/
inductive Witnessed (config : AnemoiConfig) (outside : ℕ → FleetSurroundings)
    (history : History) (runtimeId : String) (resident : ModelResident) : Prop
  | intro (runtime : RuntimeConfig) (before : History) (answer : SnapshotOf runtimeId)
      (after : History) (configured : config.runtimes.lookup ⟨runtimeId⟩ = some runtime)
      (split : history = before ++ ⟨.inspect runtimeId, .ok answer⟩ :: after)
      (last : ∀ snapshot, .ok snapshot ∉ inspectionsOf after runtimeId)
      (listed : resident ∈ answer.val.residents)
      (evidence : LoadEvidence runtime outside before runtimeId resident)

/-! ### One inspection -/

section Inspection

variable {library : AdapterLibrary} {replies : HttpReplies} {snapshot : RuntimeSnapshot}
  {resident : ModelResident}

theorem OllamaAdapter.mem_residents {adapter : OllamaAdapter}
    (h : adapter.inspect replies = .ok snapshot) (hmem : resident ∈ snapshot.residents) :
    ∃ status body, replies.ps = .ok (status, .ok body) ∧
      ∃ model ∈ body, resident = model.resident := by
  obtain ⟨⟨status, body⟩, hps, h⟩ := RuntimeAdapter.exists_of_bind h
  dsimp only at h
  split at h
  · obtain ⟨models, rfl, h⟩ := RuntimeAdapter.exists_of_bind h
    obtain rfl := Except.ok.inj h
    obtain ⟨model, hmodel, rfl⟩ := List.mem_map.mp hmem
    exact ⟨status, models, hps, model, hmodel, rfl⟩
  · obtain rfl := Except.ok.inj h
    exact absurd hmem List.not_mem_nil

theorem LlamaCppAdapter.residents_eq_nil {adapter : LlamaCppAdapter}
    (h : adapter.inspect library replies = .ok snapshot) : snapshot.residents = [] := by
  obtain ⟨-, -, h⟩ := RuntimeAdapter.exists_of_bind h
  obtain ⟨status, -, h⟩ := RuntimeAdapter.exists_of_bind h
  split at h <;>
  · obtain rfl := Except.ok.inj h
    rfl

theorem LlamaSwapAdapter.mem_residents {adapter : LlamaSwapAdapter}
    (h : adapter.inspect library replies = .ok snapshot) (hmem : resident ∈ snapshot.residents) :
    ∃ name state, adapter.modelStates.lookup name = some state ∧
      residentOf (name, state) = some resident := by
  obtain ⟨-, -, h⟩ := RuntimeAdapter.exists_of_bind h
  obtain ⟨status, -, h⟩ := RuntimeAdapter.exists_of_bind h
  split at h
  · obtain rfl := Except.ok.inj h
    obtain ⟨⟨name, state⟩, hentry, hresident⟩ :=
      List.mem_filterMap.mp ((List.mem_insertionSort _).mp hmem)
    exact ⟨name, state, AList.mem_items.mp hentry, hresident⟩
  · obtain rfl := Except.ok.inj h
    exact absurd hmem List.not_mem_nil

/-- The cache is what the last event said. -/
theorem lookup_foldl_applyModelStatus {updates : List ModelStatusUpdate} {name : String}
    {state : LlamaSwapModelState}
    (h : (updates.foldl applyModelStatus ∅).lookup name = some state) :
    ∃ update, updates.getLast? = some update ∧ (name, state) ∈ update := by
  rcases List.eq_nil_or_concat updates with rfl | ⟨earlier, update, rfl⟩
  · cases h
  · rw [List.concat_eq_append, List.foldl_append, List.foldl_cons, List.foldl_nil,
      applyModelStatus, AList.lookup_ofList_eq_find?, Option.map_eq_some_iff] at h
    obtain ⟨⟨name', state'⟩, hfind, rfl⟩ := h
    have hname := List.find?_some hfind
    rw [decide_eq_true_eq] at hname
    refine ⟨update, by simp, ?_⟩
    rw [← hname]
    exact List.mem_reverse.mp (List.mem_of_find?_eq_some hfind)

end Inspection

/-! ### One adapter -/

/-- What an adapter lists after calls and updates, it lists on evidence. -/
theorem loadEvidence_inspect {library : AdapterLibrary} {start : StartLibrary}
    {outside : ℕ → FleetSurroundings} {before : History} {runtimeId : String}
    {runtime : RuntimeConfig} {a : RuntimeAdapter} {snapshot : RuntimeSnapshot}
    {resident : ModelResident}
    (hnew : RuntimeAdapter.new start ⟨runtimeId⟩ runtime = .ok a)
    (hinspect : (a.evolved (mockCalls before runtimeId)
      (received outside (before.length + 1) runtimeId)).inspect library
        ((outside before.length).replies runtimeId) = .ok snapshot)
    (hmem : resident ∈ snapshot.residents) :
    LoadEvidence runtime outside before runtimeId resident := by
  unfold RuntimeAdapter.new at hnew
  split at hnew
  · next hname =>
      obtain ⟨-, -, hnew⟩ := RuntimeAdapter.exists_of_bind hnew
      obtain rfl := Except.ok.inj hnew
      obtain ⟨status, body, hps, model, hmodel, hresident⟩ :=
        OllamaAdapter.mem_residents hinspect hmem
      exact .running hname status body model hps hmodel hresident
  · next hname =>
      obtain rfl := Except.ok.inj hnew
      obtain rfl := Except.ok.inj hinspect
      rcases MockRuntimeAdapter.mem_residents_after hmem with ⟨hinitial, hkept⟩ | ⟨hbare, hload⟩
      · obtain ⟨config, hconfig, rfl⟩ := List.mem_map.mp hinitial
        exact .initial hname config hconfig rfl hkept
      · exact .loaded (by rw [hname]; rfl) hbare hload
  · next hname =>
      obtain ⟨-, -, hnew⟩ := RuntimeAdapter.exists_of_bind hnew
      obtain ⟨matrix, -, hnew⟩ := RuntimeAdapter.exists_of_bind hnew
      obtain rfl := Except.ok.inj hnew
      obtain ⟨name, state, hlookup, hresident⟩ := LlamaSwapAdapter.mem_residents hinspect hmem
      obtain ⟨update, hlast, hentry⟩ := lookup_foldl_applyModelStatus hlookup
      exact .pushed hname update name state hlast hentry hresident
  · obtain ⟨-, -, hnew⟩ := RuntimeAdapter.exists_of_bind hnew
    obtain rfl := Except.ok.inj hnew
    rw [LlamaCppAdapter.residents_eq_nil hinspect] at hmem
    exact absurd hmem List.not_mem_nil
  · obtain ⟨-, -, hnew⟩ := RuntimeAdapter.exists_of_bind hnew
    obtain rfl := Except.ok.inj hnew
    rw [LlamaCppAdapter.residents_eq_nil hinspect] at hmem
    exact absurd hmem List.not_mem_nil
  · next hollama hmock hswap hcpp hserver =>
      obtain rfl := Except.ok.inj hnew
      obtain rfl := Except.ok.inj hinspect
      rcases MockRuntimeAdapter.mem_residents_after hmem with ⟨hinitial, -⟩ | ⟨hbare, hload⟩
      · exact absurd hinitial List.not_mem_nil
      · refine .loaded ?_ hbare hload
        unfold Adapter.ofName
        split <;> first | rfl | contradiction

/-! ### Histories -/

/-- The last good snapshot is from an inspection after which none succeeded. -/
theorem exists_split_of_lastGood {history : History} {runtimeId : String}
    {snapshot : RuntimeSnapshot}
    (h : lastGood (inspectionsOf history runtimeId) = some snapshot) :
    ∃ before, ∃ answer : SnapshotOf runtimeId, ∃ after,
      history = before ++ ⟨.inspect runtimeId, .ok answer⟩ :: after ∧ answer.val = snapshot ∧
        ∀ later, .ok later ∉ inspectionsOf after runtimeId := by
  induction history using List.reverseRecOn with
  | nil => cases h
  | append_singleton history e ih =>
      obtain ⟨c, answer⟩ := e
      by_cases hc : ∃ ok : SnapshotOf runtimeId,
          (⟨c, answer⟩ : Program.Event Cmd.Resp) = ⟨.inspect runtimeId, .ok ok⟩
      · obtain ⟨ok, hok⟩ := hc
        rw [hok, inspectionsOf_append, inspectionsOf_inspect, if_pos rfl] at h
        refine ⟨history, ok, [], by rw [hok], ?_, fun later => List.not_mem_nil⟩
        exact Option.some.inj ((lastGood_append_ok _ _).symm.trans h)
      · -- the event is about something else, or it is a failure
        have hquiet : ∀ later, .ok later ∉ inspectionsOf [⟨c, answer⟩] runtimeId := by
          intro later hlater
          obtain ⟨inspected, hmem, hanswer⟩ := mem_inspectionsOf.mp hlater
          cases inspected with
          | error e => cases hanswer
          | ok ok => exact hc ⟨ok, (List.mem_singleton.mp hmem).symm⟩
        have hgood : lastGood (inspectionsOf history runtimeId) = some snapshot := by
          rw [← h, inspectionsOf_append, lastGood, lastGood, List.filterMap_append]
          have hnone : (inspectionsOf [⟨c, answer⟩] runtimeId).filterMap Except.toOption = [] := by
            rw [List.filterMap_eq_nil_iff]
            rintro (e | later) hlater
            · rfl
            · exact absurd hlater (hquiet later)
          rw [hnone, List.append_nil]
        obtain ⟨before, ok, after, rfl, hsnapshot, hlast⟩ := ih hgood
        refine ⟨before, ok, after ++ [⟨c, answer⟩], ?_, hsnapshot, fun later hlater => ?_⟩
        · rw [List.append_assoc, List.cons_append]
        · rw [inspectionsOf_append, List.mem_append] at hlater
          exact hlater.elim (hlast later) (hquiet later)

/-- A successful inspection of a fleet is one of its adapter. -/
theorem Fleet.inspect_eq_ok {library : AdapterLibrary} {fleet : Fleet}
    {replies : String → HttpReplies} {runtimeId : String} {answer : SnapshotOf runtimeId}
    (h : fleet.inspect library replies runtimeId = .ok answer) :
    ∃ a, fleet.adapter runtimeId = some a ∧
      a.inspect library (replies runtimeId) = .ok answer.val := by
  unfold inspect at h
  split at h
  · cases h
  · next a hadapter =>
      split at h
      · cases h
      · next snapshot hinspect =>
          obtain rfl := Except.ok.inj h
          exact ⟨a, hadapter, hinspect⟩

/-- What the cache holds of a runtime when the fleet has evolved by the history. -/
theorem Fleet.Evolves.witnessed {library : AdapterLibrary} {start : StartLibrary}
    {outside : ℕ → FleetSurroundings} {config : AnemoiConfig} {fleet : Fleet}
    {history : History} {s : World × Fleet} {runtimeId : String} {snapshot : RuntimeSnapshot}
    {resident : ModelResident} (h : Evolves library outside fleet history s)
    (hstart : Fleet.start start config = .ok fleet)
    (hheld : heldAfter runtimeId (inspectionsOf history runtimeId) = some snapshot)
    (hmem : resident ∈ snapshot.residents) :
    Witnessed config outside history runtimeId resident := by
  rcases heldAfter_cases hheld with hgood | rfl
  · obtain ⟨before, answer, after, hsplit, rfl, hlast⟩ := exists_split_of_lastGood hgood
    have hanswer := h.answered before _ _ after hsplit _ rfl
    obtain ⟨a', hadapter, hinspect⟩ := Fleet.inspect_eq_ok hanswer.symm
    rw [answering, adapter_evolved, Option.map_eq_some_iff] at hadapter
    obtain ⟨a, ha, rfl⟩ := hadapter
    obtain ⟨runtime, hruntime, hnew⟩ := (Fleet.adapter_start hstart).mp ha
    exact ⟨runtime, before, answer, after, hruntime, hsplit, hlast, hmem,
      loadEvidence_inspect hnew hinspect hmem⟩
  · exact absurd hmem List.not_mem_nil

/-! ### Runs -/

section Runs

variable {state : AppState} {codec : Codec} {library : AdapterLibrary} {start : StartLibrary}
  {outside : ℕ → FleetSurroundings} {fleet : Fleet}

/-- The cache tracks the inspections, and the fleet has evolved by the history. -/
def TracksFleet (library : AdapterLibrary) (outside : ℕ → FleetSurroundings) (fleet : Fleet) :
    Program.Condition Cmd.Resp (World × Fleet) := fun history s =>
  AppState.Tracked (fun _ => True) history s.1 ∧ Fleet.Evolves library outside fleet history s

theorem tracksFleet_start (governance : Governance) (disk : Disk) :
    TracksFleet library outside fleet [] (.start governance disk, fleet) :=
  ⟨⟨fun _ => rfl, trivial⟩, Fleet.evolves_start governance disk⟩

theorem tracksFleet_performAll (operations : List Operation) :
    Program.Triple (fleetSystem codec library outside) (TracksFleet library outside fleet)
      (state.performAll codec operations) fun _ => TracksFleet library outside fleet := by
  have hroutine : AppState.Routine state (state.performAll codec operations) :=
    AppState.Routine.performAll operations
  have htracked := (daemonSystem codec).triple_close (Fleet.environment library outside)
    fun env => (hroutine.tracked : Program.Triple (handle codec env) _ _ _)
  exact htracked.and (Fleet.evolves_fleetSystem _)

/-- What `getSnapshots` hands out, it hands out of the inspections so far. -/
theorem heldAfter_getSnapshots {env : ℕ → Surroundings} {governance : Governance} :
    Program.Triple (handle codec env) (AppState.Tracked (· = governance)) Daemon.getSnapshots
      fun snapshots history w => w.governance = governance ∧ ∀ snapshot ∈ snapshots,
        heldAfter snapshot.runtimeId.text (inspectionsOf history snapshot.runtimeId.text) =
          some snapshot := by
  refine .perform fun history w htracked => ⟨htracked.2, fun snapshot hmem => ?_⟩
  rw [inspectionsOf_append_event (fun _ => by rintro ⟨⟩)]
  exact htracked.1.heldAfter_of_mem (((env w.clock).hashOrder_perm _).mem_iff.mp hmem)

/-- A decision is made under the governance it finds, on what the inspections so far left. -/
theorem heldAfter_decide (state : AppState) (codec : Codec) (env : ℕ → Surroundings)
    (governance : Governance) (request : InferenceRequest) :
    Program.Triple (handle codec env) (AppState.Tracked (· = governance)) (state.decide request)
      fun result history _ => ∀ d, result = .ok d → ∃ snapshots stamp,
        governance.effective.scheduler.decide request snapshots stamp = .ok d ∧
          ∀ snapshot ∈ snapshots, heldAfter snapshot.runtimeId.text
            (inspectionsOf history snapshot.runtimeId.text) = some snapshot := by
  refine AppState.tracked_refresh.bind fun _ => heldAfter_getSnapshots.bind fun snapshots => ?_
  rintro history w ⟨rfl, hheld⟩ d hresult
  obtain ⟨stamp, hdecide⟩ := AppState.decideOn_ok hresult
  refine ⟨snapshots, stamp, hdecide, fun snapshot hmem => ?_⟩
  -- the decision itself inspects nothing
  have hblind : Blind (state.decideOn request snapshots) :=
    AppState.blind_decideOn state request snapshots
  have hsame := Program.triple_of_ensures (h := handle codec env)
    (P := fun later _ => ∀ r, inspectionsOf later r = inspectionsOf history r)
    hblind (fun _ _ => trivial)
    (fun later w c hc hlater r => (inspectionsOf_append_event
      (ne_inspect_of_blind hc) later _ r).trans (hlater r)) history w fun _ => rfl
  rw [hsame]
  exact hheld snapshot hmem

/-- In every reachable state of a daemon with its runtimes, whatever is resident in the cache
was listed by the last successful inspection of its runtime, on load evidence. -/
theorem residents_have_evidence (hstart : Fleet.start start state.config = .ok fleet)
    (governance : Governance) (disk : Disk) (operations : List Operation) (now : DateTime) :
    let after := (state.performAll codec operations).run (fleetSystem codec library outside)
      (.start governance disk, fleet)
    ∀ snapshot ∈ after.state.1.reconciler.getSnapshots now, ∀ resident ∈ snapshot.residents,
      Witnessed state.config outside after.trace snapshot.runtimeId.text resident := by
  intro after snapshot hsnapshot resident hresident
  have htracks : TracksFleet library outside fleet after.trace after.state :=
    tracksFleet_performAll operations [] _ (tracksFleet_start governance disk)
  exact htracks.2.witnessed hstart (htracks.1.1.heldAfter_of_mem hsnapshot) hresident

/-- A decision that serves a resident. -/
def ServesResident (d : Decision) : Prop :=
  d.action = .reuseHot ∨ d.action = .promoteWarm ∨ d.action = .stageBackground

/-- What a decision serves, it serves as a candidate of the model's state. -/
theorem exists_candidate_of_serves {scheduler : Scheduler} {request : InferenceRequest}
    {snapshots : List RuntimeSnapshot} {stamp : Stamp} {d : Decision}
    (h : scheduler.decide request snapshots stamp = .ok d) (hserves : ServesResident d) :
    ∃ c, Scheduler.Generated scheduler request snapshots c ∧
      d.selectedRuntime = some c.runtimeId ∧ d.selectedModel = some c.modelId ∧
      (d.action = c.action ∨ d.action = .stageBackground) ∧
      (c.action = .reuseHot ∨ c.action = .promoteWarm) := by
  obtain ⟨generated, hgenerated⟩ := Scheduler.generateCandidates_of_decide h
  cases Scheduler.outcome_decide hgenerated h with
  | denied => rcases hserves with h | h | h <;> cases h
  | @served best _ _ _ hbest =>
      have hc := (Scheduler.mem_candidates_iff hgenerated).mp hbest
      refine ⟨best, hc, rfl, rfl, Or.inl rfl, ?_⟩
      rcases hserves with h | h | h
      · exact Or.inl h
      · exact Or.inr h
      · exact absurd h hc.action_ne.2
  | @staged cold fallback _ _ hstages =>
      obtain ⟨-, hfallback, hhot⟩ := hstages.candidates
      exact ⟨fallback.candidate, (Scheduler.mem_candidates_iff hgenerated).mp hfallback, rfl,
        rfl, Or.inr rfl, hhot⟩

/-- A model that a decision serves is resident on the runtime it selects, on load evidence,
in the state that the decision's action is for. -/
theorem served_on_evidence (hstart : Fleet.start start state.config = .ok fleet)
    (governance : Governance) (disk : Disk) (operations : List Operation)
    (request : InferenceRequest) (d : Decision) :
    let before := (state.performAll codec operations).run (fleetSystem codec library outside)
      (.start governance disk, fleet)
    let after := (state.decide request).run (fleetSystem codec library outside) before.state
    after.result = .ok d → ServesResident d →
      ∃ runtimeId resident, d.selectedRuntime = some ⟨runtimeId⟩ ∧
        d.selectedModel = some resident.modelId ∧
        (d.action = actionFor resident.state ∨ d.action = .stageBackground) ∧
        (actionFor resident.state = .reuseHot ∨ actionFor resident.state = .promoteWarm) ∧
        Witnessed state.config outside (before.trace ++ after.trace) runtimeId resident := by
  intro before after hresult hserves
  have hbefore : TracksFleet library outside fleet before.trace before.state :=
    tracksFleet_performAll operations [] _ (tracksFleet_start governance disk)
  have hdecided := (daemonSystem codec).triple_close (Fleet.environment library outside)
    (fun env => heldAfter_decide state codec env before.state.1.governance request)
    before.trace before.state ⟨hbefore.1.1, rfl⟩
  obtain ⟨snapshots, stamp, hdecide, hheld⟩ := hdecided d hresult
  have hevolves : Fleet.Evolves library outside fleet (before.trace ++ after.trace) after.state :=
    Fleet.evolves_fleetSystem (state.decide request) before.trace before.state hbefore.2
  obtain ⟨c, hc, hruntime, hmodel, haction, hhot⟩ := exists_candidate_of_serves hdecide hserves
  obtain ⟨snapshot, hmem, hid, -, hstate, -⟩ := hc.exists_snapshot
  rw [hc.action_eq, hstate] at haction hhot
  -- a model that is not resident is cold
  unfold residencyOf at haction hhot
  cases hfind : snapshot.residents.find? fun resident => resident.modelId = c.modelId with
  | none =>
      rw [hfind] at hhot
      rcases hhot with h | h <;> cases h
  | some resident =>
      rw [hfind] at haction hhot
      have hresident := List.find?_some hfind
      rw [decide_eq_true_eq] at hresident
      refine ⟨snapshot.runtimeId.text, resident, ?_, ?_, haction, hhot, ?_⟩
      · rw [hruntime, hid]
      · rw [hmodel, hresident]
      · exact hevolves.witnessed hstart (hheld snapshot hmem) (List.mem_of_find?_eq_some hfind)

end Runs

/-! ### A fleet of two runtimes -/

/-- A mock has the small model on its GPU from the start, Ollama answers nothing. -/
def warmStart : AppState where
  config :=
    { AppState.twoRuntimesConfig with
      runtimes := .ofList
        [(⟨"a"⟩,
          { adapter := "mock", baseUrl := none, authToken := none
            initialResidents := [⟨⟨"qwen9b"⟩, .hotGpu, none, none, none⟩] }),
         (⟨"b"⟩,
          { adapter := "ollama", baseUrl := some "http://localhost:11434"
            authToken := none })] }
  valid := by decide

def warmStartLibrary : StartLibrary where
  parseUrl := fun _ => .ok ()
  matrixFromYamlFile := fun _ => .ok none

instance : Inhabited AdapterLibrary where
  default := ⟨fun _ => false, fun _ => none, fun _ _ => []⟩

def noReplies : HttpReplies where
  health := .error "connection refused"
  models := .error "connection refused"
  metrics := none
  ps := .error "connection refused"
  ping := .error "connection refused"

def quietOutside : ℕ → FleetSurroundings := fun _ => ⟨default, fun _ => [], fun _ => noReplies⟩

def warmFleet : Fleet :=
  (Fleet.empty.insert (.ollama ⟨⟨"b"⟩⟩)).insert
    (.mock (.new ⟨"a"⟩ [⟨⟨"qwen9b"⟩, .hotGpu, none, none, none, none⟩]))

theorem start_warmFleet : Fleet.start warmStartLibrary warmStart.config = .ok warmFleet := rfl

def warmRun : Program.Outcome Cmd.Resp Unit (World × Fleet) :=
  (warmStart.performAll default [.reconciliationTick, .decide AppState.codingRequest]).run
    (fleetSystem default default quietOutside)
    (.start (.new warmStart.config {} none) ⟨none, none⟩, warmFleet)

def warmDecision : Program.Outcome Cmd.Resp (Except String Decision) (World × Fleet) :=
  (warmStart.decide AppState.codingRequest).run (fleetSystem default default quietOutside)
    warmRun.state

theorem residents_have_evidence_warmRun :
    warmRun.state.1.reconciler.getSnapshots ⟨0⟩ ≠ [] ∧
      ∀ snapshot ∈ warmRun.state.1.reconciler.getSnapshots ⟨0⟩, ∀ resident ∈ snapshot.residents,
        Witnessed warmStart.config quietOutside warmRun.trace snapshot.runtimeId.text resident :=
  ⟨by decide +kernel, residents_have_evidence start_warmFleet (.new warmStart.config {} none)
    ⟨none, none⟩ [.reconciliationTick, .decide AppState.codingRequest] ⟨0⟩⟩

theorem served_on_evidence_warmRun : ∃ d, warmDecision.result = .ok d ∧
    ∃ runtimeId resident, d.selectedRuntime = some ⟨runtimeId⟩ ∧
      d.selectedModel = some resident.modelId ∧
      (d.action = actionFor resident.state ∨ d.action = .stageBackground) ∧
      (actionFor resident.state = .reuseHot ∨ actionFor resident.state = .promoteWarm) ∧
      Witnessed warmStart.config quietOutside (warmRun.trace ++ warmDecision.trace) runtimeId
        resident := by
  obtain ⟨d, h, haction⟩ := exists_ok_of_map (r := warmDecision.result)
    (f := Decision.action) (b := .reuseHot) (by decide +kernel)
  exact ⟨d, h, served_on_evidence start_warmFleet (.new warmStart.config {} none) ⟨none, none⟩
    [.reconciliationTick, .decide AppState.codingRequest] AppState.codingRequest d h
    (Or.inl haction)⟩

end Anemoi
