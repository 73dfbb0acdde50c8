import Anemoi.Daemon.Calls
import Anemoi.Runtime.Adapters
import Anemoi.Systems.Closing

/-!
# The daemon with its runtimes

A fleet is the adapters that `AppState::new` builds from a configuration. `fleetSystem`
closes the daemon with one: inspections are answered by the adapters, loads and unloads
change the mocks, and the event streams of llama-swap deliver updates between any two
commands. What the HTTP servers answer is not determined.

`evolves_fleetSystem` says what the fleet is after any program of the daemon: each adapter
has seen the calls made to it and the updates delivered to it, in their order.
-/

namespace Anemoi

open Systems

/-! ### Starting -/

def RuntimeResidentConfig.intoResident (config : RuntimeResidentConfig) : ModelResident where
  modelId := config.modelId
  state := config.state
  vramMb := config.vramMb
  ramMb := config.ramMb
  kvCacheMb := config.kvCacheMb
  loadedSince := none

/-- What the start of a daemon leaves to libraries and the file system: parsing a url, with
the message if it fails, and reading the matrix block of a llama-swap config file. -/
structure StartLibrary where
  parseUrl : String → Except String Unit
  matrixFromYamlFile : String → Except String (Option LlamaSwapMatrixConfig)

/-- The matrix block of a config file, if one is configured. -/
def StartLibrary.matrix (library : StartLibrary) :
    Option String → Except String (Option LlamaSwapMatrixConfig)
  | none => .ok none
  | some path => library.matrixFromYamlFile path

/-- The adapter of one configured runtime. -/
def RuntimeAdapter.new (library : StartLibrary) (id : RuntimeId) (runtime : RuntimeConfig) :
    Except String RuntimeAdapter :=
  match runtime.adapter with
  | "ollama" => do
      library.parseUrl (runtime.baseUrl.getD "http://localhost:11434")
      return .ollama { id }
  | "mock" =>
      return .mock (.new id (runtime.initialResidents.map RuntimeResidentConfig.intoResident))
  | "llama_swap" => do
      library.parseUrl (runtime.baseUrl.getD "http://localhost:8080")
      let matrix ← library.matrix runtime.configPath
      return .llamaSwap { id, authToken := runtime.authToken, matrix }
  | "llama_cpp" | "llama_server" => do
      library.parseUrl (runtime.baseUrl.getD "http://localhost:8080")
      return .llamaCpp { id, authToken := runtime.authToken }
  | _ => return .mock (.new id [])

/-- The adapters by the text of their ids. -/
structure Fleet where
  adapter : String → Option RuntimeAdapter
  id_adapter : ∀ runtimeId a, adapter runtimeId = some a → a.id = ⟨runtimeId⟩

namespace Fleet

def empty : Fleet where
  adapter := fun _ => none
  id_adapter := by
    intro runtimeId a h
    cases h

def insert (fleet : Fleet) (a : RuntimeAdapter) : Fleet where
  adapter := Function.update fleet.adapter a.id.text (some a)
  id_adapter := by
    intro runtimeId a' h
    by_cases hid : runtimeId = a.id.text
    · rw [hid, Function.update_self, Option.some.injEq] at h
      rw [← h, hid]
    · rw [Function.update_of_ne hid] at h
      exact fleet.id_adapter runtimeId a' h

/-- The adapters of a configuration; one that cannot be built fails the start. -/
def start (library : StartLibrary) (config : AnemoiConfig) : Except String Fleet :=
  config.runtimes.items.foldlM
    (fun fleet entry => (RuntimeAdapter.new library entry.1 entry.2).map fleet.insert) empty

/-- Change every adapter, but not its id. -/
def mapAdapters (fleet : Fleet) (f : String → RuntimeAdapter → RuntimeAdapter)
    (hf : ∀ runtimeId a, (f runtimeId a).id = a.id) : Fleet where
  adapter := fun runtimeId => (fleet.adapter runtimeId).map (f runtimeId)
  id_adapter := by
    intro runtimeId a h
    obtain ⟨a', ha', rfl⟩ := Option.map_eq_some_iff.mp h
    rw [hf]
    exact fleet.id_adapter runtimeId a' ha'

/-- The fleet after calls to the mocks and updates of the event streams, by runtime. -/
def evolved (fleet : Fleet) (calls : String → List MockCall)
    (updates : String → List ModelStatusUpdate) : Fleet :=
  fleet.mapAdapters (fun runtimeId a => a.evolved (calls runtimeId) (updates runtimeId))
    fun _ a => a.id_evolved _ _

theorem adapter_evolved (fleet : Fleet) (calls : String → List MockCall)
    (updates : String → List ModelStatusUpdate) (runtimeId : String) :
    (fleet.evolved calls updates).adapter runtimeId = (fleet.adapter runtimeId).map
      fun a => a.evolved (calls runtimeId) (updates runtimeId) := rfl

@[ext] theorem ext {fleet fleet' : Fleet}
    (h : ∀ runtimeId, fleet.adapter runtimeId = fleet'.adapter runtimeId) : fleet = fleet' := by
  cases fleet
  cases fleet'
  congr 1
  exact funext h

theorem evolved_evolved (fleet : Fleet) (calls calls' : String → List MockCall)
    (updates updates' : String → List ModelStatusUpdate) :
    (fleet.evolved calls updates).evolved calls' updates' =
      fleet.evolved (fun r => calls r ++ calls' r) fun r => updates r ++ updates' r := by
  ext runtimeId : 1
  rw [adapter_evolved, adapter_evolved, adapter_evolved, Option.map_map]
  congr 1
  exact funext fun a => (a.evolved_append _ _ _ _).symm

end Fleet

/-! ### The fleet of a configuration -/

/-- What an adapter is. -/
def RuntimeAdapter.kind : RuntimeAdapter → Adapter
  | ollama _ => .ollama
  | mock _ => .mock
  | llamaSwap _ => .llamaSwap
  | llamaCpp _ => .llamaCpp

/-- The adapter of a runtime has its id, and it is what the adapter's name says. -/
theorem RuntimeAdapter.new_eq_ok {library : StartLibrary} {id : RuntimeId}
    {runtime : RuntimeConfig} {a : RuntimeAdapter} (h : new library id runtime = .ok a) :
    a.id = id ∧ a.kind = .ofName runtime.adapter := by
  unfold new at h
  split at h
  · next hname =>
      obtain ⟨-, -, h⟩ := exists_of_bind h
      rw [hname, ← Except.ok.inj h]
      exact ⟨rfl, rfl⟩
  · next hname =>
      rw [hname, ← Except.ok.inj h]
      exact ⟨rfl, rfl⟩
  · next hname =>
      obtain ⟨-, -, h⟩ := exists_of_bind h
      obtain ⟨matrix, -, h⟩ := exists_of_bind h
      rw [hname, ← Except.ok.inj h]
      exact ⟨rfl, rfl⟩
  · next hname =>
      obtain ⟨-, -, h⟩ := exists_of_bind h
      rw [hname, ← Except.ok.inj h]
      exact ⟨rfl, rfl⟩
  · next hname =>
      obtain ⟨-, -, h⟩ := exists_of_bind h
      rw [hname, ← Except.ok.inj h]
      exact ⟨rfl, rfl⟩
  · next hollama hmock hswap hcpp hserver =>
      rw [← Except.ok.inj h]
      refine ⟨rfl, ?_⟩
      unfold Adapter.ofName
      split <;> first | rfl | contradiction

namespace Fleet

theorem adapter_insert (fleet : Fleet) (a : RuntimeAdapter) (runtimeId : String) :
    (fleet.insert a).adapter runtimeId =
      if runtimeId = a.id.text then some a else fleet.adapter runtimeId :=
  Function.update_apply ..

/-- The adapters that a start goes through, one after the other. -/
theorem adapter_foldlM {library : StartLibrary} {entries : List (RuntimeId × RuntimeConfig)}
    (hkeys : (entries.map Prod.fst).Nodup) {fleet₀ fleet : Fleet}
    (h : entries.foldlM (fun fleet entry =>
      (RuntimeAdapter.new library entry.1 entry.2).map fleet.insert) fleet₀ = .ok fleet) :
    (∀ id runtime, (id, runtime) ∈ entries → ∃ a, RuntimeAdapter.new library id runtime = .ok a ∧
      fleet.adapter id.text = some a) ∧
      ∀ id : RuntimeId, id ∉ entries.map Prod.fst →
        fleet.adapter id.text = fleet₀.adapter id.text := by
  induction entries generalizing fleet₀ with
  | nil =>
      obtain rfl := Except.ok.inj h
      exact ⟨fun _ _ hmem => absurd hmem List.not_mem_nil, fun _ _ => rfl⟩
  | cons entry entries ih =>
      obtain ⟨hfirst, hrest⟩ := List.nodup_cons.mp hkeys
      rw [List.foldlM_cons] at h
      cases hnew : RuntimeAdapter.new library entry.1 entry.2 with
      | error e =>
          rw [hnew] at h
          cases h
      | ok a =>
          rw [hnew] at h
          obtain ⟨hbuilt, hothers⟩ := ih hrest h
          have hid := (RuntimeAdapter.new_eq_ok hnew).1
          refine ⟨fun id runtime hmem => ?_, fun id hid' => ?_⟩
          · rcases List.mem_cons.mp hmem with rfl | hmem
            · refine ⟨a, hnew, (hothers _ hfirst).trans ?_⟩
              rw [adapter_insert, hid, if_pos rfl]
            · exact hbuilt id runtime hmem
          · rw [List.map_cons, List.mem_cons, not_or] at hid'
            refine (hothers id hid'.2).trans ?_
            rw [adapter_insert, hid, if_neg]
            intro htext
            cases id
            exact hid'.1 (congrArg RuntimeId.mk htext)

/-- A fleet holds what is built for each configured runtime, and nothing else. -/
theorem adapter_start {library : StartLibrary} {config : AnemoiConfig} {fleet : Fleet}
    (h : start library config = .ok fleet) {runtimeId : String} {a : RuntimeAdapter} :
    fleet.adapter runtimeId = some a ↔ ∃ runtime,
      config.runtimes.lookup ⟨runtimeId⟩ = some runtime ∧
        RuntimeAdapter.new library ⟨runtimeId⟩ runtime = .ok a := by
  obtain ⟨hbuilt, hothers⟩ := adapter_foldlM (AList.nodup_map_fst_items config.runtimes) h
  constructor
  · intro hadapter
    by_cases hmem : (⟨runtimeId⟩ : RuntimeId) ∈ config.runtimes.items.map Prod.fst
    · obtain ⟨⟨id, runtime⟩, hentry, rfl⟩ := List.mem_map.mp hmem
      obtain ⟨a', hnew, hadapter'⟩ := hbuilt _ runtime hentry
      obtain rfl : a = a' := Option.some.inj (hadapter.symm.trans hadapter')
      exact ⟨runtime, AList.mem_items.mp hentry, hnew⟩
    · cases (hothers _ hmem).symm.trans hadapter
  · rintro ⟨runtime, hlookup, hnew⟩
    obtain ⟨a', hnew', hadapter⟩ := hbuilt _ runtime (AList.mem_items.mpr hlookup)
    obtain rfl : a = a' := Except.ok.inj (hnew.symm.trans hnew')
    exact hadapter

/-- The adapters that the daemon's operations read are those of its fleet. -/
theorem lookup_runtimes_start {library : StartLibrary} {state : AppState} {fleet : Fleet}
    (h : start library state.config = .ok fleet) (runtimeId : String) :
    state.runtimes.lookup runtimeId = (fleet.adapter runtimeId).map RuntimeAdapter.kind := by
  obtain ⟨hbuilt, -⟩ := adapter_foldlM (AList.nodup_map_fst_items state.config.runtimes) h
  rw [AppState.lookup_runtimes]
  cases hlookup : state.config.runtimes.lookup ⟨runtimeId⟩ with
  | none =>
      have hnone : fleet.adapter runtimeId = none := by
        rw [Option.eq_none_iff_forall_ne_some]
        intro a hadapter
        obtain ⟨runtime, hruntime, -⟩ := (adapter_start h).mp hadapter
        cases hlookup.symm.trans hruntime
      rw [hnone]
      rfl
  | some runtime =>
      obtain ⟨a, hnew, hadapter⟩ := hbuilt _ runtime (AList.mem_items.mpr hlookup)
      rw [hadapter, Option.map_some, Option.map_some, (RuntimeAdapter.new_eq_ok hnew).2]

end Fleet

/-! ### Answers -/

/-- The call to a mock that a command is, on its runtime. -/
def Cmd.mockCall (runtimeId : String) : Cmd → Option MockCall
  | loadModel r model => if r = runtimeId then some (.load model) else none
  | unloadModel r model => if r = runtimeId then some (.unload model) else none
  | _ => none

/-- What is outside of the daemon and its adapters at a command. -/
structure FleetSurroundings where
  /-- Everything but the runtimes. -/
  base : Surroundings
  /-- What the event streams deliver before the command. -/
  updates : String → List ModelStatusUpdate
  replies : String → HttpReplies

namespace Fleet

variable (library : AdapterLibrary)

/-- Inspect a runtime; a runtime without adapter is never asked. -/
def inspect (fleet : Fleet) (replies : String → HttpReplies) (runtimeId : String) :
    Except String (SnapshotOf runtimeId) :=
  match hadapter : fleet.adapter runtimeId with
  | none => .error "runtime not found"
  | some a =>
      match hinspect : a.inspect library (replies runtimeId) with
      | .error e => .error e
      | .ok snapshot => .ok ⟨snapshot, by
          rw [RuntimeAdapter.runtimeId_inspect library hinspect,
            fleet.id_adapter runtimeId a hadapter]⟩

/-- What the daemon sees outside when these adapters answer it. -/
def answers (fleet : Fleet) (outside : FleetSurroundings) : Surroundings :=
  { outside.base with
    inspect := fleet.inspect library outside.replies
    loadModel := fun runtimeId model =>
      match fleet.adapter runtimeId with
      | none => .error "runtime not found"
      | some a => (a.loadModel library (outside.replies runtimeId)).map fun _ =>
          ⟨outside.base.newUuid, model⟩
    unloadModel := fun runtimeId _ =>
      match fleet.adapter runtimeId with
      | none => .error "runtime not found"
      | some a => a.unloadModel }

theorem answers_unloadModel {library : AdapterLibrary} {fleet : Fleet} {runtimeId : String}
    {a : RuntimeAdapter} (h : fleet.adapter runtimeId = some a) (outside : FleetSurroundings)
    (model : ModelId) :
    (fleet.answers library outside).unloadModel runtimeId model = a.unloadModel := by
  simp only [answers, h]

/-- The fleet when the event streams have delivered. -/
def receive (fleet : Fleet) (outside : FleetSurroundings) : Fleet :=
  fleet.evolved (fun _ => []) outside.updates

/-- The fleet after a command. -/
def call (fleet : Fleet) (c : Cmd) : Fleet :=
  fleet.evolved (fun runtimeId => (c.mockCall runtimeId).toList) fun _ => []

/-- The adapters as the daemon's environment. -/
def environment (outside : ℕ → FleetSurroundings) :
    Program.Environment Cmd.Resp Surroundings Fleet where
  shows n fleet := (fleet.receive (outside n)).answers library (outside n)
  next n fleet c _ := (fleet.receive (outside n)).call c

end Fleet

theorem handle_congr {codec : Codec} {env env' : ℕ → Surroundings} {w : World}
    (h : env w.clock = env' w.clock) (c : Cmd) : handle codec env w c = handle codec env' w c := by
  unfold handle
  rw [h]

/-- The daemon in any surroundings. -/
def daemonSystem (codec : Codec) : Program.OpenSystem Cmd.Resp Surroundings World where
  handler := handle codec
  clock := World.clock
  clock_handler := fun env w c => clock_handle codec env w c
  handler_congr := handle_congr

/-- The daemon with its runtimes. -/
def fleetSystem (codec : Codec) (library : AdapterLibrary) (outside : ℕ → FleetSurroundings) :
    Program.Handler Cmd.Resp (World × Fleet) :=
  (daemonSystem codec).close (Fleet.environment library outside)

/-! ### Runs -/

/-- The calls to a mock runtime so far. -/
def mockCalls (history : History) (runtimeId : String) : List MockCall :=
  history.filterMap fun e => e.1.mockCall runtimeId

/-- What a runtime's event stream delivers before the first `n` commands. -/
def received (outside : ℕ → FleetSurroundings) (n : ℕ) (runtimeId : String) :
    List ModelStatusUpdate :=
  (List.range n).flatMap fun k => (outside k).updates runtimeId

namespace Fleet

variable (library : AdapterLibrary) (outside : ℕ → FleetSurroundings) (fleet : Fleet)

/-- The fleet that answers the command after a history. -/
def answering (history : History) : Fleet :=
  fleet.evolved (mockCalls history) (received outside (history.length + 1))

/-- How the adapters answer a command that is for them. -/
def answer (fleet : Fleet) (outside : FleetSurroundings) : (c : Cmd) → Option c.Resp
  | .inspect runtimeId => some ((fleet.answers library outside).inspect runtimeId)
  | .loadModel runtimeId model =>
      some ((fleet.answers library outside).loadModel runtimeId model)
  | .unloadModel runtimeId model =>
      some ((fleet.answers library outside).unloadModel runtimeId model)
  | _ => none

/-- After a history the fleet has evolved by it, and every command in it that was for the
adapters was answered by what the fleet was then. -/
structure Evolves (history : History) (s : World × Fleet) : Prop where
  clock : s.1.clock = history.length
  fleet_eq : s.2 = fleet.evolved (mockCalls history) (received outside history.length)
  answered : ∀ before c r after, history = before ++ ⟨c, r⟩ :: after →
    ∀ r' ∈ (fleet.answering outside before).answer library (outside before.length) c, r = r'

theorem mockCalls_concat (history : History) (c : Cmd) (r : c.Resp) :
    mockCalls (history ++ [⟨c, r⟩]) =
      fun runtimeId => mockCalls history runtimeId ++ (c.mockCall runtimeId).toList := by
  funext runtimeId
  rw [mockCalls, List.filterMap_append]
  cases hcall : c.mockCall runtimeId <;> simp [mockCalls, hcall]

theorem received_succ (n : ℕ) :
    received outside (n + 1) =
      fun runtimeId => received outside n runtimeId ++ (outside n).updates runtimeId := by
  funext runtimeId
  rw [received, List.range_succ, List.flatMap_append, List.flatMap_singleton]
  rfl

variable {library outside fleet} {codec : Codec}

theorem answer_eq_handle {fleet : Fleet} {outside : FleetSurroundings} {w : World} {c : Cmd}
    {r : c.Resp} (hr : r ∈ fleet.answer library outside c) :
    (handle codec (fun _ => fleet.answers library outside) w c).1 = r := by
  cases c with
  | inspect runtimeId => exact Option.some.inj hr
  | loadModel runtimeId model => exact Option.some.inj hr
  | unloadModel runtimeId model => exact Option.some.inj hr
  | _ => cases hr

theorem evolves_call {history : History} {s : World × Fleet}
    (h : Evolves library outside fleet history s) (c : Cmd) :
    Evolves library outside fleet
      (history ++ [⟨c, (fleetSystem codec library outside s c).1⟩])
      (fleetSystem codec library outside s c).2 := by
  have hnow : s.2.receive (outside s.1.clock) = fleet.answering outside history := by
    rw [receive, h.fleet_eq, h.clock, evolved_evolved, answering, received_succ]
    simp
  refine ⟨?_, ?_, ?_⟩
  · rw [List.length_append, ← h.clock]
    exact clock_handle codec _ s.1 c
  · refine (congrArg (call · c) hnow).trans ?_
    rw [call, answering, evolved_evolved, mockCalls_concat, List.length_append]
    simp
  · intro before c' r after hsplit r' hr'
    rcases List.eq_nil_or_concat after with rfl | ⟨after', last, rfl⟩
    · obtain ⟨rfl, hlast⟩ := List.append_inj' hsplit rfl
      obtain ⟨rfl, hr⟩ := Sigma.mk.inj (List.singleton_inj.mp hlast)
      rw [← hnow, ← h.clock] at hr'
      exact (eq_of_heq hr).symm.trans (answer_eq_handle hr')
    · have hsplit' : history ++ [⟨c, (fleetSystem codec library outside s c).1⟩] =
          (before ++ ⟨c', r⟩ :: after') ++ [last] := by
        simpa using hsplit
      exact h.answered before c' r after' (List.append_inj' hsplit' rfl).1 r' hr'

/-- In every run of the daemon with its runtimes, the fleet evolves by the history. -/
theorem evolves_fleetSystem {α : Type} (p : Daemon α) :
    Program.Triple (fleetSystem codec library outside) (Evolves library outside fleet) p
      fun _ => Evolves library outside fleet := by
  refine Program.triple_of_forall ?_ p
  intro history s c h
  exact evolves_call h c

theorem evolves_start (governance : Governance) (disk : Disk) :
    Evolves library outside fleet [] (.start governance disk, fleet) := by
  refine ⟨rfl, ?_, ?_⟩
  · ext runtimeId : 1
    rw [adapter_evolved]
    simp [mockCalls, received]
  · intro before c r after hsplit
    simp at hsplit

end Fleet

end Anemoi
