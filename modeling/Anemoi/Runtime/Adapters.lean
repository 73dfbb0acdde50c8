import Anemoi.Core.Config
import Anemoi.Runtime.Matrix
import Anemoi.Runtime.Metrics
import Anemoi.Runtime.Mock
import Anemoi.Runtime.Residents

/-!
# Runtime adapters

The adapters through which the daemon sees its runtimes: the mock, which is its own
runtime, and those of Ollama, llama-swap and llama.cpp, which ask HTTP servers. What the
servers answer is `HttpReplies`; the state that llama-swap's event stream maintains is part
of its adapter.

An adapter reports as resident only what it has load evidence for: Ollama's list of running
models, or the event stream. The model list of llama-swap and llama.cpp is configuration.
-/

namespace Anemoi

open Systems

/-! ### Replies -/

structure OllamaRunningModel where
  name : String
  sizeVram : Option UInt64 := none
  size : Option UInt64 := none
  deriving DecidableEq, Repr

/-- What the servers of a runtime answer, each request as a status, a decoded body or the
text of the error. -/
structure HttpReplies where
  health : Except String UInt16
  models : Except String (List String)
  /-- Nothing when the probe exceeds its deadline. -/
  metrics : Option (Except String (List Char))
  ps : Except String (UInt16 × Except String (List OllamaRunningModel))
  ping : Except String Unit

/-- `StatusCode::is_success`. -/
def isSuccess (status : UInt16) : Bool :=
  200 ≤ status && status < 300

/-- What the adapters leave to libraries: which texts are header values, how a sample line
is read, and the order in which a map is traversed. -/
structure AdapterLibrary where
  isHeaderValue : String → Bool
  parseSampleLine : List Char → Option Sample
  traverse : SampleMap → ℕ → List SampleEntry

/-- A snapshot with residents and configured models and nothing else. -/
def RuntimeSnapshot.availableWith (runtimeId : RuntimeId) (residents : List ModelResident)
    (configuredModels : List ModelId) : RuntimeSnapshot where
  runtimeId := runtimeId
  available := true
  residents := residents
  configuredModels := configuredModels
  memory := {}
  activeRequests := []
  colocation := none

/-- The snapshot of a runtime whose health probe fails. -/
def RuntimeSnapshot.unhealthy (runtimeId : RuntimeId) : RuntimeSnapshot :=
  { RuntimeSnapshot.availableWith runtimeId [] [] with available := false }

/-- The authorization header, if there is a token. -/
def bearerHeaders (library : AdapterLibrary) (authToken : Option String) :
    Except String Unit :=
  match authToken with
  | none => .ok ()
  | some token =>
      if library.isHeaderValue s!"Bearer {token}" then .ok ()
      else .error "invalid runtime url: failed to parse header value"

/-- The configured models, which are none when the listing fails. Names that are left with
nothing are skipped. -/
def HttpReplies.configuredModels (replies : HttpReplies) : List ModelId :=
  match replies.models with
  | .ok ids => ids.filterMap fun id => (normalizeModelId id).toOption
  | .error _ => []

def unsupported (operation : String) : String :=
  s!"runtime operation is not supported: {operation}"

/-! ### Ollama -/

structure OllamaAdapter where
  id : RuntimeId
  deriving DecidableEq, Repr

def OllamaRunningModel.resident (model : OllamaRunningModel) : ModelResident where
  modelId := ⟨model.name⟩
  state := .hotGpu
  vramMb := model.sizeVram.map bytesToMb
  ramMb := model.size.map bytesToMb
  kvCacheMb := none
  loadedSince := none

def OllamaAdapter.inspect (adapter : OllamaAdapter) (replies : HttpReplies) :
    Except String RuntimeSnapshot := do
  let (status, body) ← replies.ps
  if isSuccess status then
    let models ← body
    return .availableWith adapter.id (models.map OllamaRunningModel.resident) []
  else return .unhealthy adapter.id

/-! ### llama.cpp -/

structure LlamaCppAdapter where
  id : RuntimeId
  authToken : Option String := none
  deriving DecidableEq, Repr

def LlamaCppAdapter.inspect (library : AdapterLibrary) (adapter : LlamaCppAdapter)
    (replies : HttpReplies) : Except String RuntimeSnapshot := do
  bearerHeaders library adapter.authToken
  let status ← replies.health
  if isSuccess status then
    return .availableWith adapter.id [] replies.configuredModels
  else return .unhealthy adapter.id

/-! ### llama-swap -/

structure LlamaSwapAdapter where
  id : RuntimeId
  authToken : Option String := none
  modelStates : ModelStateCache := ∅
  matrix : Option LlamaSwapMatrixConfig := none

/-- The memory that the optional metrics probe reports; unknown when it fails or takes too
long. -/
def HttpReplies.memory (library : AdapterLibrary) (replies : HttpReplies) :
    RuntimeMemorySnapshot :=
  match replies.metrics with
  | some (.ok text) => parseLlamaSwapMemoryMetrics library.parseSampleLine library.traverse text
  | some (.error _) | none => {}

def LlamaSwapAdapter.inspect (library : AdapterLibrary) (adapter : LlamaSwapAdapter)
    (replies : HttpReplies) : Except String RuntimeSnapshot := do
  bearerHeaders library adapter.authToken
  let status ← replies.health
  if isSuccess status then
    return {
      runtimeId := adapter.id
      available := true
      residents := residentsFromStates adapter.modelStates
      configuredModels := replies.configuredModels
      memory := replies.memory library
      activeRequests := []
      colocation := adapter.matrix.map LlamaSwapMatrixConfig.colocationConstraints }
  else return .unhealthy adapter.id

/-- The event stream delivers updates. -/
def LlamaSwapAdapter.receive (adapter : LlamaSwapAdapter) (updates : List ModelStatusUpdate) :
    LlamaSwapAdapter :=
  { adapter with modelStates := updates.foldl applyModelStatus adapter.modelStates }

/-! ### All of them -/

inductive RuntimeAdapter where
  | ollama (adapter : OllamaAdapter)
  | mock (adapter : MockRuntimeAdapter)
  | llamaSwap (adapter : LlamaSwapAdapter)
  | llamaCpp (adapter : LlamaCppAdapter)

namespace RuntimeAdapter

def id : RuntimeAdapter → RuntimeId
  | ollama adapter => adapter.id
  | mock adapter => adapter.id
  | llamaSwap adapter => adapter.id
  | llamaCpp adapter => adapter.id

def isMock : RuntimeAdapter → Bool
  | mock _ => true
  | ollama _ | llamaSwap _ | llamaCpp _ => false

variable (library : AdapterLibrary)

def inspect (adapter : RuntimeAdapter) (replies : HttpReplies) :
    Except String RuntimeSnapshot :=
  match adapter with
  | ollama adapter => adapter.inspect replies
  | mock adapter => .ok adapter.inspect
  | llamaSwap adapter => adapter.inspect library replies
  | llamaCpp adapter => adapter.inspect library replies

/-- Whether a load succeeds; llama-swap loads the model of the request it is pinged with. -/
def loadModel (adapter : RuntimeAdapter) (replies : HttpReplies) : Except String Unit :=
  match adapter with
  | ollama _ => .error (unsupported "ollama load")
  | mock _ => .ok ()
  | llamaSwap adapter => do
      bearerHeaders library adapter.authToken
      replies.ping
  | llamaCpp _ => .error (unsupported "llama-cpp load")

/-- Whether an unload succeeds. -/
def unloadModel : RuntimeAdapter → Except String Unit
  | ollama _ => .error (unsupported "ollama unload")
  | mock _ => .ok ()
  | llamaSwap _ => .error (unsupported "llama-swap unload")
  | llamaCpp _ => .error (unsupported "llama-cpp unload")

/-- The adapter after calls, which change a mock, and updates, which change the cache of an
event stream. -/
def evolved (adapter : RuntimeAdapter) (calls : List MockCall)
    (updates : List ModelStatusUpdate) : RuntimeAdapter :=
  match adapter with
  | mock adapter => mock (adapter.after calls)
  | llamaSwap adapter => llamaSwap (adapter.receive updates)
  | ollama adapter => ollama adapter
  | llamaCpp adapter => llamaCpp adapter

@[simp] theorem evolved_nil (adapter : RuntimeAdapter) : adapter.evolved [] [] = adapter := by
  cases adapter <;> rfl

theorem evolved_append (adapter : RuntimeAdapter) (calls calls' : List MockCall)
    (updates updates' : List ModelStatusUpdate) :
    adapter.evolved (calls ++ calls') (updates ++ updates') =
      (adapter.evolved calls updates).evolved calls' updates' := by
  cases adapter with
  | mock adapter => simp [evolved, MockRuntimeAdapter.after]
  | llamaSwap adapter => simp [evolved, LlamaSwapAdapter.receive]
  | ollama adapter => rfl
  | llamaCpp adapter => rfl

theorem id_after (adapter : MockRuntimeAdapter) (calls : List MockCall) :
    (adapter.after calls).id = adapter.id := by
  induction calls generalizing adapter with
  | nil => rfl
  | cons c calls ih =>
      refine (ih (adapter.call c)).trans ?_
      cases c with
      | load model =>
          unfold MockRuntimeAdapter.call MockRuntimeAdapter.loadModel
          dsimp only
          split <;> rfl
      | unload model => rfl
      | execute request now => rfl

@[simp] theorem id_evolved (adapter : RuntimeAdapter) (calls : List MockCall)
    (updates : List ModelStatusUpdate) : (adapter.evolved calls updates).id = adapter.id := by
  cases adapter with
  | mock adapter => exact id_after adapter calls
  | _ => rfl

/-- A reading that succeeds behind another one. -/
theorem exists_of_bind {α β : Type} {first : Except String α} {rest : α → Except String β}
    {b : β} (h : first >>= rest = .ok b) : ∃ a, first = .ok a ∧ rest a = .ok b := by
  cases first with
  | error e => cases h
  | ok a => exact ⟨a, rfl, h⟩

/-- A snapshot is of the runtime that the adapter is for. -/
theorem runtimeId_inspect {adapter : RuntimeAdapter} {replies : HttpReplies}
    {snapshot : RuntimeSnapshot} (h : adapter.inspect library replies = .ok snapshot) :
    snapshot.runtimeId = adapter.id := by
  cases adapter with
  | mock adapter => exact Except.ok.inj h ▸ adapter.runtime_eq
  | ollama adapter =>
      obtain ⟨⟨status, body⟩, -, h⟩ := exists_of_bind h
      dsimp only at h
      split at h
      · obtain ⟨models, -, h⟩ := exists_of_bind h
        exact Except.ok.inj h ▸ rfl
      · exact Except.ok.inj h ▸ rfl
  | llamaSwap adapter =>
      obtain ⟨-, -, h⟩ := exists_of_bind h
      obtain ⟨status, -, h⟩ := exists_of_bind h
      split at h <;> exact Except.ok.inj h ▸ rfl
  | llamaCpp adapter =>
      obtain ⟨-, -, h⟩ := exists_of_bind h
      obtain ⟨status, -, h⟩ := exists_of_bind h
      split at h <;> exact Except.ok.inj h ▸ rfl

end RuntimeAdapter

end Anemoi
