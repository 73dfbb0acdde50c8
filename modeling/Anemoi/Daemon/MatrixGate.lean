import Anemoi.Daemon.ResidencyTruth
import Anemoi.Runtime.MatrixLanguage

/-!
# Staging within the declared matrix

The matrix in the config file of a llama-swap runtime passes through many hands before it
bears on a decision: the adapter reads it once at the start, each good inspection lowers it
into the snapshot, the cache keeps that snapshot over failures, and the scheduler takes the
constraints of the candidate that it serves. `staged_pairs_colocate` is about all of this: what
a daemon stages behind a model on such a runtime is what the expressions of the file let stay
resident beside it.
-/

namespace Anemoi

open Systems

/-! ### The matrix of a file -/

namespace LlamaSwapMatrixConfig

/-- Every expression is one of the grammar. -/
def InGrammar (matrix : LlamaSwapMatrixConfig) : Prop :=
  ∀ set ∈ matrix.sets, ∃ e : Expr String .sum, Spells e set.models.toList

/-- Some group of some set holds both models. -/
def Colocates (matrix : LlamaSwapMatrixConfig) (a b : ModelId) : Prop :=
  ∃ set ∈ matrix.sets, ∃ e : Expr String .sum, Spells e set.models.toList ∧
    ∃ l ∈ e.denotation matrix.modelNamed, a.text ∈ l ∧ b.text ∈ l

theorem InGrammar.colocates {matrix : LlamaSwapMatrixConfig} (hgrammar : matrix.InGrammar)
    {a b : ModelId} (h : matrix.canColocate a b = true) : matrix.Colocates a b := by
  obtain ⟨l, hl, hab⟩ := canColocate_iff.mp h
  obtain ⟨set, hset, hl⟩ := List.mem_flatMap.mp hl
  obtain ⟨e, he⟩ := hgrammar set hset
  rw [mem_loadoutsWithVars he, matrix.resolve_stringVars] at hl
  exact ⟨set, hset, e, he, l, hl, hab⟩

end LlamaSwapMatrixConfig

/-- The runtime is a llama-swap whose config file has this matrix. -/
def DeclaresMatrix (start : StartLibrary) (config : AnemoiConfig) (runtimeId : RuntimeId)
    (matrix : LlamaSwapMatrixConfig) : Prop :=
  ∃ runtime, config.runtimes.lookup runtimeId = some runtime ∧
    runtime.adapter = "llama_swap" ∧ start.matrix runtime.configPath = .ok (some matrix)

/-! ### From the file to the snapshot -/

section Snapshot

variable {library : AdapterLibrary} {start : StartLibrary} {config : AnemoiConfig}
  {fleet : Fleet} {outside : ℕ → FleetSurroundings} {matrix : LlamaSwapMatrixConfig}
  {snapshot : RuntimeSnapshot}

/-- The adapter that is built for llama-swap has the matrix of its file. -/
theorem RuntimeAdapter.new_llamaSwap {id : RuntimeId} {runtime : RuntimeConfig}
    {a : RuntimeAdapter} (hswap : runtime.adapter = "llama_swap")
    (hmatrix : start.matrix runtime.configPath = .ok (some matrix))
    (hnew : new start id runtime = .ok a) :
    a = .llamaSwap { id, authToken := runtime.authToken, matrix := some matrix } := by
  simp only [new, hswap] at hnew
  obtain ⟨-, -, hnew⟩ := exists_of_bind hnew
  obtain ⟨read, hread, hnew⟩ := exists_of_bind hnew
  rw [hmatrix] at hread
  obtain rfl := Except.ok.inj hread
  exact (Except.ok.inj hnew).symm

/-- Calls and updates leave the matrix alone, and an available snapshot has its
constraints. -/
theorem LlamaSwapAdapter.colocation_inspect {adapter : LlamaSwapAdapter} {replies : HttpReplies}
    (hmatrix : adapter.matrix = some matrix)
    (h : adapter.inspect library replies = .ok snapshot) (havailable : snapshot.available = true) :
    snapshot.colocation = some matrix.colocationConstraints := by
  obtain ⟨-, -, h⟩ := RuntimeAdapter.exists_of_bind h
  obtain ⟨status, -, h⟩ := RuntimeAdapter.exists_of_bind h
  split at h
  · obtain rfl := Except.ok.inj h
    rw [hmatrix, Option.map_some]
  · obtain rfl := Except.ok.inj h
    cases havailable

/-- An available snapshot that is cached of a runtime has the constraints of its matrix. -/
theorem Fleet.Evolves.colocation_eq {history : History} {s : World × Fleet}
    {runtimeId : String} (h : Evolves library outside fleet history s)
    (hstart : Fleet.start start config = .ok fleet)
    (hdeclares : DeclaresMatrix start config ⟨runtimeId⟩ matrix)
    (hheld : heldAfter runtimeId (inspectionsOf history runtimeId) = some snapshot)
    (havailable : snapshot.available = true) :
    snapshot.colocation = some matrix.colocationConstraints := by
  obtain ⟨runtime, hruntime, hswap, hmatrix⟩ := hdeclares
  rcases heldAfter_cases hheld with hgood | rfl
  · obtain ⟨before, answer, after, hsplit, rfl, -⟩ := exists_split_of_lastGood hgood
    have hanswer := h.answered before _ _ after hsplit _ rfl
    obtain ⟨a', hadapter, hinspect⟩ := Fleet.inspect_eq_ok hanswer.symm
    rw [answering, adapter_evolved, Option.map_eq_some_iff] at hadapter
    obtain ⟨a, ha, rfl⟩ := hadapter
    obtain ⟨runtime', hruntime', hnew⟩ := (Fleet.adapter_start hstart).mp ha
    obtain rfl : runtime = runtime' := Option.some.inj (hruntime.symm.trans hruntime')
    rw [RuntimeAdapter.new_llamaSwap hswap hmatrix hnew] at hinspect
    exact LlamaSwapAdapter.colocation_inspect rfl hinspect havailable
  · -- what a failure leaves of a runtime that never answered is unavailable
    cases havailable

end Snapshot

/-! ### Decisions -/

/-- Both candidates of a staged decision, on the runtimes they were found on. -/
theorem Scheduler.exists_pair_of_stageBackground {scheduler : Scheduler}
    {request : InferenceRequest} {snapshots : List RuntimeSnapshot} {stamp : Stamp} {d : Decision}
    (h : scheduler.decide request snapshots stamp = .ok d)
    (haction : d.action = .stageBackground) :
    ∃ cold fallback, Scheduler.Generated scheduler request snapshots cold ∧
      Scheduler.Generated scheduler request snapshots fallback ∧
      d.selectedRuntime = some fallback.runtimeId ∧ d.selectedModel = some fallback.modelId ∧
      d.backgroundModel = some cold.modelId ∧
      (cold.runtimeId = fallback.runtimeId → ∀ constraints,
        fallback.colocation = some constraints →
          constraints.canColocate fallback.modelId cold.modelId = true) := by
  obtain ⟨generated, hgenerated⟩ := generateCandidates_of_decide h
  cases outcome_decide hgenerated h with
  | denied => cases haction
  | @served best _ _ _ hbest =>
      exact absurd haction ((mem_candidates_iff hgenerated).mp hbest).action_ne.2
  | @staged cold fallback _ _ hstages =>
      obtain ⟨⟨hcold, -⟩, hfallback, -⟩ := hstages.candidates
      exact ⟨cold.candidate, fallback.candidate, (mem_candidates_iff hgenerated).mp hcold,
        (mem_candidates_iff hgenerated).mp hfallback, rfl, rfl, rfl,
        colocationAdmits_iff.mp hstages.admits⟩

/-- The configuration places the model on this runtime only. -/
def OnlyOn (config : AnemoiConfig) (model : ModelId) (runtimeId : RuntimeId) : Prop :=
  ∀ profile, config.models.lookup model = some profile →
    ∀ r ∈ profile.supportedRuntimes, r = runtimeId

/-- A pair of candidates whose second model is placed on the runtime of the first shares it. -/
theorem Scheduler.Generated.runtimeId_eq {scheduler : Scheduler} {request : InferenceRequest}
    {snapshots : List RuntimeSnapshot} {cold fallback : Candidate}
    (hcold : Scheduler.Generated scheduler request snapshots cold)
    (hfallback : Scheduler.Generated scheduler request snapshots fallback)
    (honly : OnlyOn scheduler.config cold.modelId fallback.runtimeId) :
    cold.runtimeId = fallback.runtimeId := by
  cases hcold with
  | static _ _ _ _ _ hprofile _ hruntime _ => exact honly _ hprofile _ hruntime
  | live hdomain hlive _ _ _ _ =>
      cases hfallback with
      | static hdomain' hstatic _ _ _ _ _ _ _ =>
          exact absurd hlive (liveRoster_ne_some hdomain' hstatic hdomain)
      | live hdomain' hlive' _ _ _ _ =>
          -- a live domain names one runtime
          rw [hdomain, Option.some.injEq] at hdomain'
          subst hdomain'
          exact Option.some.inj (hlive.symm.trans hlive')

section Runs

variable {state : AppState} {codec : Codec} {library : AdapterLibrary} {start : StartLibrary}
  {outside : ℕ → FleetSurroundings} {fleet : Fleet}

/-- In every reachable state of a daemon with its runtimes, a staged pair is one that the
matrix of the runtime admits, if the staged model is placed on no other. -/
theorem staged_pairs_colocate (hstart : Fleet.start start state.config = .ok fleet)
    (governance : Governance) (disk : Disk) (operations : List Operation)
    (request : InferenceRequest) (d : Decision) :
    let before := (state.performAll codec operations).run (fleetSystem codec library outside)
      (.start governance disk, fleet)
    let after := (state.decide request).run (fleetSystem codec library outside) before.state
    after.result = .ok d → d.action = .stageBackground →
      ∃ runtimeId served staged, d.selectedRuntime = some runtimeId ∧
        d.selectedModel = some served ∧ d.backgroundModel = some staged ∧
        ∀ matrix, DeclaresMatrix start state.config runtimeId matrix →
          OnlyOn before.state.1.governance.effective.scheduler.config staged runtimeId →
          matrix.canColocate served staged = true ∧
            (matrix.InGrammar → matrix.Colocates served staged) := by
  intro before after hresult haction
  have hbefore : TracksFleet library outside fleet before.trace before.state :=
    tracksFleet_performAll operations [] _ (tracksFleet_start governance disk)
  have hdecided := (daemonSystem codec).triple_close (Fleet.environment library outside)
    (fun env => heldAfter_decide state codec env before.state.1.governance request)
    before.trace before.state ⟨hbefore.1.1, rfl⟩
  obtain ⟨snapshots, stamp, hdecide, hheld⟩ := hdecided d hresult
  have hevolves : Fleet.Evolves library outside fleet (before.trace ++ after.trace) after.state :=
    Fleet.evolves_fleetSystem (state.decide request) before.trace before.state hbefore.2
  obtain ⟨cold, fallback, hcold, hfallback, hruntime, hmodel, hbackground, hadmits⟩ :=
    Scheduler.exists_pair_of_stageBackground hdecide haction
  refine ⟨fallback.runtimeId, fallback.modelId, cold.modelId, hruntime, hmodel, hbackground,
    fun matrix hdeclares honly => ?_⟩
  obtain ⟨snapshot, hmem, hid, havailable, -, hcolocation⟩ := hfallback.exists_snapshot
  have hmatrix : snapshot.colocation = some matrix.colocationConstraints :=
    hevolves.colocation_eq hstart (hid ▸ hdeclares) (hheld snapshot hmem) havailable
  have hpair := hadmits (hcold.runtimeId_eq hfallback honly) _ (hcolocation.trans hmatrix)
  rw [LlamaSwapMatrixConfig.canColocate_colocationConstraints] at hpair
  exact ⟨hpair, fun hgrammar => hgrammar.colocates hpair⟩

end Runs

/-! ### A llama-swap with a matrix -/

/-- A small and a large model on one llama-swap. -/
def matrixHost : AppState where
  config :=
    { domains := .ofList [(⟨"coding"⟩, { rosters := [⟨"fast"⟩, ⟨"large"⟩] })]
      residencyGroups := .ofList
        [(⟨"fast"⟩, { models := [⟨"a"⟩], keepHot := true }), (⟨"large"⟩, { models := [⟨"gemma"⟩] })]
      models := .ofList
        [(⟨"a"⟩, { family := "qwen", parameterClass := "9b", supportedRuntimes := [⟨"swap"⟩] }),
         (⟨"gemma"⟩,
          { family := "gemma", parameterClass := "70b", coldLoadEstimateMs := some 60000
            supportedRuntimes := [⟨"swap"⟩] })]
      runtimes := .ofList
        [(⟨"swap"⟩,
          { adapter := "llama_swap", baseUrl := some "http://localhost:8080", authToken := none
            configPath := some "swap.yaml" })] }
  valid := by decide

/-- Its config file lets either small model stay beside the large one. -/
def matrixLibrary : StartLibrary where
  parseUrl := fun _ => .ok ()
  matrixFromYamlFile := fun _ => .ok (some .twoAndGemma)

def matrixFleet : Fleet :=
  Fleet.empty.insert (.llamaSwap { id := ⟨"swap"⟩, matrix := some .twoAndGemma })

theorem start_matrixFleet : Fleet.start matrixLibrary matrixHost.config = .ok matrixFleet := rfl

/-- The server is up and has the small model ready. -/
def swapOutside : ℕ → FleetSurroundings := fun n =>
  { base := default
    updates := fun _ => if n = 0 then [[("a", .ready)]] else []
    replies := fun _ =>
      { health := .ok 200
        models := .ok ["a", "gemma"]
        metrics := none
        ps := .error "not found"
        ping := .ok () } }

def swapRun : Program.Outcome Cmd.Resp Unit (World × Fleet) :=
  (matrixHost.performAll default [.reconciliationTick]).run
    (fleetSystem default default swapOutside)
    (.start (.new matrixHost.config {} none) ⟨none, none⟩, matrixFleet)

def swapDecision : Program.Outcome Cmd.Resp (Except String Decision) (World × Fleet) :=
  (matrixHost.decide AppState.codingRequest).run (fleetSystem default default swapOutside)
    swapRun.state

theorem declaresMatrix_matrixHost :
    DeclaresMatrix matrixLibrary matrixHost.config ⟨"swap"⟩ .twoAndGemma :=
  ⟨_, rfl, rfl, rfl⟩

theorem inGrammar_twoAndGemma : LlamaSwapMatrixConfig.twoAndGemma.InGrammar := by
  intro set hset
  rw [List.mem_singleton.mp hset]
  exact ⟨_, LlamaSwapMatrixConfig.spells_twoAndGemmaExpr⟩

theorem loadouts_twoAndGemma :
    LlamaSwapMatrixConfig.twoAndGemma.loadouts = [{"a", "gemma"}, {"b", "gemma"}] := by
  have hread := congrArg Prod.fst (parseOr_tokens LlamaSwapMatrixConfig.twoAndGemma.stringVars
    LlamaSwapMatrixConfig.twoAndGemmaExpr)
  rw [← tokenizeColocationExpr_of_spells LlamaSwapMatrixConfig.spells_twoAndGemmaExpr] at hread
  refine (List.flatMap_singleton _ _).trans ((congrArg dedupLoadouts hread).trans ?_)
  decide +kernel

theorem colocationConstraints_twoAndGemma :
    LlamaSwapMatrixConfig.twoAndGemma.colocationConstraints =
      ⟨[[⟨"a"⟩, ⟨"gemma"⟩], [⟨"b"⟩, ⟨"gemma"⟩]]⟩ := by
  have hsort : ∀ small ∈ ["a", "b"],
      ({small, "gemma"} : Loadout).sort (· ≤ ·) = [small, "gemma"] := by
    intro small hsmall
    have hset : ({small, "gemma"} : Loadout) = [small, "gemma"].toFinset := by simp
    rw [hset]
    refine (List.toFinset_sort (· ≤ ·) ?_).mpr ?_
    · revert small
      decide
    · revert small
      decide
  rw [LlamaSwapMatrixConfig.colocationConstraints, loadouts_twoAndGemma]
  simp only [List.map_cons, List.map_nil, hsort "a" (by simp), hsort "b" (by simp)]

/-- What is cached of the server when it has these groups. -/
def swapReconciler (constraints : ColocationConstraints) : Reconciler :=
  (Reconciler.new Reconciler.defaultReconciliationTtlMs).update "swap"
    { RuntimeSnapshot.availableWith ⟨"swap"⟩ [.bare ⟨"a"⟩ .hotGpu] [⟨"a"⟩, ⟨"gemma"⟩] with
      colocation := some constraints } ⟨0⟩

theorem state_swapRun : swapRun.state =
    ({ swapRun.state.1 with
        reconciler := swapReconciler LlamaSwapMatrixConfig.twoAndGemma.colocationConstraints },
      swapRun.state.2) := rfl

/-- The models and the runtime that a decision names. -/
def Decision.names (d : Decision) :
    DecisionAction × Option RuntimeId × Option ModelId × Option ModelId :=
  (d.action, d.selectedRuntime, d.selectedModel, d.backgroundModel)

/-- The large model is staged behind the small one. -/
theorem names_swapDecision : swapDecision.result.toOption.map Decision.names =
    some (.stageBackground, some ⟨"swap"⟩, some ⟨"a"⟩, some ⟨"gemma"⟩) := by
  rw [swapDecision, state_swapRun, colocationConstraints_twoAndGemma]
  decide +kernel

theorem onlyOn_swapRun :
    OnlyOn swapRun.state.1.governance.effective.scheduler.config ⟨"gemma"⟩ ⟨"swap"⟩ := by
  intro profile hprofile
  obtain rfl := Option.some.inj hprofile
  exact fun r hr => List.mem_singleton.mp hr

theorem staged_pairs_colocate_swapDecision : ∃ d, swapDecision.result = .ok d ∧
    d.selectedModel = some ⟨"a"⟩ ∧ d.backgroundModel = some ⟨"gemma"⟩ ∧
    LlamaSwapMatrixConfig.twoAndGemma.Colocates ⟨"a"⟩ ⟨"gemma"⟩ := by
  obtain ⟨d, h, hnames⟩ := exists_ok_of_map names_swapDecision
  obtain ⟨haction, hruntime, hmodel, hbackground⟩ : _ ∧ _ ∧ _ ∧ _ := by
    simpa only [Decision.names, Prod.mk.injEq] using hnames
  obtain ⟨_, _, _, hruntime', hmodel', hbackground', hgate⟩ :=
    staged_pairs_colocate start_matrixFleet (.new matrixHost.config {} none) ⟨none, none⟩
      [.reconciliationTick] AppState.codingRequest d h haction
  cases hruntime'.symm.trans hruntime
  cases hmodel'.symm.trans hmodel
  cases hbackground'.symm.trans hbackground
  exact ⟨d, h, hmodel, hbackground,
    (hgate _ declaresMatrix_matrixHost onlyOn_swapRun).2 inGrammar_twoAndGemma⟩

end Anemoi
