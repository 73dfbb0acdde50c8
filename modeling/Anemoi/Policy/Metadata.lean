import Anemoi.Core.Governance
import Anemoi.Policy.Candidates

/-!
# Where a candidate's metadata comes from

A profile field that the operator sets should win over the baseline configuration,
which should win over what the model's id suggests. Static domains keep this
precedence. Live domains make their profiles up from the ids alone, so they keep it
exactly when nothing that is set says otherwise.
-/

namespace Anemoi

/-! ### Fields -/

/-- The profile fields with a precedence. -/
inductive MetadataField where
  | family
  | parameterClass
  | contextWindow
  | vramRequiredMb
  | ramRequiredMb
  | coldLoadEstimateMs
  | supportsStreaming
  deriving DecidableEq, Repr

namespace MetadataField

@[reducible] def Value : MetadataField → Type
  | family | parameterClass => String
  | contextWindow => Option UInt32
  | vramRequiredMb | ramRequiredMb | coldLoadEstimateMs => Option UInt64
  | supportsStreaming => Option Bool

/-- The value that the operator sets, if the override sets the field. -/
def ofOverride : (field : MetadataField) → ModelProfileOverride → Option field.Value
  | family, o => o.family
  | parameterClass, o => o.parameterClass
  | contextWindow, o => o.contextWindow.map some
  | vramRequiredMb, o => o.vramRequiredMb.map some
  | ramRequiredMb, o => o.ramRequiredMb.map some
  | coldLoadEstimateMs, o => o.coldLoadEstimateMs.map some
  | supportsStreaming, o => o.supportsStreaming.map some

def ofConfig : (field : MetadataField) → ModelProfileConfig → field.Value
  | family, p => p.family
  | parameterClass, p => p.parameterClass
  | contextWindow, p => p.contextWindow
  | vramRequiredMb, p => p.vramRequiredMb
  | ramRequiredMb, p => p.ramRequiredMb
  | coldLoadEstimateMs, p => p.coldLoadEstimateMs
  | supportsStreaming, p => p.supportsStreaming

def ofProfile : (field : MetadataField) → ModelProfile → field.Value
  | family, p => p.family
  | parameterClass, p => p.parameterClass
  | contextWindow, p => p.contextWindow
  | vramRequiredMb, p => p.vramRequiredMb
  | ramRequiredMb, p => p.ramRequiredMb
  | coldLoadEstimateMs, p => p.coldLoadEstimateMs
  | supportsStreaming, p => p.supportsStreaming

/-- What the operator or else the baseline says about the field, if either does. -/
def declared (field : MetadataField) (operator : Option ModelProfileOverride)
    (baseline : Option ModelProfileConfig) : Option field.Value :=
  (operator.bind field.ofOverride).or (baseline.map field.ofConfig)

end MetadataField

/-- Every field of `p` has the operator's value, else the baseline's, else the one of
`inferred`. -/
def KeepsPrecedence (operator : Option ModelProfileOverride)
    (baseline : Option ModelProfileConfig) (inferred p : ModelProfile) : Prop :=
  ∀ field : MetadataField,
    field.ofProfile p = (field.declared operator baseline).getD (field.ofProfile inferred)

/-- No value that is set differs from the one of `p`. -/
def NothingElseDeclared (operator : Option ModelProfileOverride)
    (baseline : Option ModelProfileConfig) (p : ModelProfile) : Prop :=
  ∀ (field : MetadataField) (v : field.Value),
    field.declared operator baseline = some v → v = field.ofProfile p

theorem keepsPrecedence_self_iff {operator : Option ModelProfileOverride}
    {baseline : Option ModelProfileConfig} {p : ModelProfile} :
    KeepsPrecedence operator baseline p p ↔ NothingElseDeclared operator baseline p := by
  refine forall_congr' fun field => ?_
  cases field.declared operator baseline with
  | none => simp
  | some v =>
      constructor
      · intro h v' heq
        cases heq
        exact h.symm
      · intro h
        exact (h v rfl).symm

/-! ### Profiles of static domains -/

/-- What the merge says of a model that nobody describes. -/
def inferredProfile (modelId : ModelId) : ModelProfile :=
  (mergeProfile modelId none {}).intoProfile modelId

theorem or_bind_eq_getD {α β : Type} (x : Option α) (base : Option β) (f : β → Option α) :
    x.or (base.bind f) = ((x.map some).or (base.map f)).getD none := by
  cases x <;> cases base <;> rfl

theorem keepsPrecedence_mergeProfile (modelId : ModelId) (base : Option ModelProfileConfig)
    (o : ModelProfileOverride) :
    KeepsPrecedence (some o) base (inferredProfile modelId)
      ((mergeProfile modelId base o).intoProfile modelId) := by
  intro field
  cases field with
  | family | parameterClass => rfl
  | contextWindow | vramRequiredMb | ramRequiredMb | coldLoadEstimateMs | supportsStreaming =>
      exact or_bind_eq_getD _ _ _

theorem keepsPrecedence_baseline (modelId : ModelId) (profile : ModelProfileConfig) :
    KeepsPrecedence none (some profile) (inferredProfile modelId)
      (profile.intoProfile modelId) := by
  intro field
  cases field <;> rfl

/-- The profiles of the effective configuration keep the precedence. -/
theorem keepsPrecedence_effective {baseline : AnemoiConfig} {overrides : GovernanceOverrides}
    {modelId : ModelId} {profile : ModelProfileConfig}
    (h : (applyOverrides baseline overrides).models.lookup modelId = some profile) :
    KeepsPrecedence (overrides.modelProfiles.lookup modelId) (baseline.models.lookup modelId)
      (inferredProfile modelId) (profile.intoProfile modelId) := by
  rw [applyOverrides.lookup_models] at h
  cases hoperator : overrides.modelProfiles.lookup modelId with
  | none =>
      simp only [hoperator] at h
      rw [h]
      exact keepsPrecedence_baseline modelId profile
  | some o =>
      simp only [hoperator, Option.some.injEq] at h
      rw [← h]
      exact keepsPrecedence_mergeProfile modelId _ o

/-! ### Candidates -/

/-- The profile that a domain falls back to for a model nobody describes. -/
def fallbackProfile (domain : DomainConfig) (modelId : ModelId) : ModelProfile :=
  match domain.liveRoster with
  | some runtimeId => synthesizeProfile modelId runtimeId
  | none => inferredProfile modelId

/-- A live model has no known context window, so it is never too small. -/
theorem contextWindowRejection_synthesizeProfile (request : InferenceRequest)
    (modelId : ModelId) (runtimeId : RuntimeId) :
    contextWindowRejection request (synthesizeProfile modelId runtimeId) = none := by
  unfold contextWindowRejection
  cases requestRequiredTokens request with
  | none => rfl
  | some required => rfl

namespace Scheduler

section Precedence

variable {baseline : AnemoiConfig} {overrides : GovernanceOverrides}
  {request : InferenceRequest} {snapshots : List RuntimeSnapshot} {generated : CandidateSet}
  {domain : DomainConfig}

/-- Every candidate keeps the precedence, unless an available live runtime reports a
model for which something is set that its id does not suggest. -/
theorem keepsPrecedence_iff
    (hdomain : (applyOverrides baseline overrides).domains.lookup request.domain = some domain)
    (h : (Scheduler.mk (applyOverrides baseline overrides)).generateCandidates request
      snapshots = .ok generated) :
    (∀ c ∈ generated.candidates,
      KeepsPrecedence (overrides.modelProfiles.lookup c.modelId)
        (baseline.models.lookup c.modelId) (fallbackProfile domain c.modelId)
        c.modelProfile) ↔
    ∀ runtimeId snapshot, domain.liveRoster = some runtimeId →
      snapshots.find? (fun s => s.runtimeId = runtimeId) = some snapshot →
      snapshot.available = true → ∀ modelId ∈ snapshot.configuredModels,
        NothingElseDeclared (overrides.modelProfiles.lookup modelId)
          (baseline.models.lookup modelId) (synthesizeProfile modelId runtimeId) := by
  constructor
  · intro hkeeps runtimeId snapshot hlive hsnapshot havailable modelId hmodel
    have hgenerated := Generated.live hdomain hlive hsnapshot havailable hmodel
      (contextWindowRejection_synthesizeProfile request modelId runtimeId)
    have hkept := hkeeps _ ((mem_candidates_iff h).mpr hgenerated)
    rw [fallbackProfile, hlive] at hkept
    exact keepsPrecedence_self_iff.mp hkept
  · intro hnothing c hc
    cases (mem_candidates_iff h).mp hc with
    | static hdomain' hstatic _ _ _ hprofile =>
        rw [hdomain, Option.some.injEq] at hdomain'
        subst hdomain'
        rw [fallbackProfile, hstatic]
        exact keepsPrecedence_effective hprofile
    | live hdomain' hlive hsnapshot havailable hmodel =>
        rw [hdomain, Option.some.injEq] at hdomain'
        subst hdomain'
        rw [fallbackProfile, hlive]
        exact keepsPrecedence_self_iff.mpr (hnothing _ _ hlive hsnapshot havailable _ hmodel)

end Precedence

/-! ### A live model whose class the operator knows -/

def liveConfig : AnemoiConfig where
  domains := .ofList [(⟨"coding"⟩, { liveRoster := some ⟨"swap"⟩ })]
  residencyGroups := ∅
  models := ∅
  runtimes := .ofList
    [(⟨"swap"⟩,
      { adapter := "llama_swap", baseUrl := some "http://localhost:8085", authToken := none })]

def liveSnapshots : List RuntimeSnapshot :=
  [{ runtimeId := ⟨"swap"⟩, available := true, residents := []
     configuredModels := [⟨"nemotron"⟩], memory := {}, activeRequests := []
     colocation := none }]

/-- The operator sets the class of a model. -/
def classOverride (parameterClass : String) : GovernanceOverrides where
  modelProfiles := .ofList [(⟨"nemotron"⟩, { parameterClass := some parameterClass })]

def liveRequest : InferenceRequest where
  id := ⟨"request"⟩
  domain := ⟨"coding"⟩
  mode := .interactive
  promptTokensEstimate := none
  maxOutputTokens := none
  latencyBudgetMs := none
  qualityFloor := none
  escalationIntent := none

theorem keepsPrecedence_iff_live : ∃ generated,
    (Scheduler.mk (applyOverrides liveConfig (classOverride "unknown"))).generateCandidates
      liveRequest liveSnapshots = .ok generated ∧
    ((∀ c ∈ generated.candidates,
      KeepsPrecedence ((classOverride "unknown").modelProfiles.lookup c.modelId)
        (liveConfig.models.lookup c.modelId)
        (fallbackProfile { liveRoster := some ⟨"swap"⟩ } c.modelId) c.modelProfile) ↔
    ∀ runtimeId snapshot, (some ⟨"swap"⟩ : Option RuntimeId) = some runtimeId →
      liveSnapshots.find? (fun s => s.runtimeId = runtimeId) = some snapshot →
      snapshot.available = true → ∀ modelId ∈ snapshot.configuredModels,
        NothingElseDeclared ((classOverride "unknown").modelProfiles.lookup modelId)
          (liveConfig.models.lookup modelId) (synthesizeProfile modelId runtimeId)) := by
  have h : (Scheduler.mk (applyOverrides liveConfig (classOverride "unknown"))).generateCandidates
      liveRequest liveSnapshots = .ok _ := rfl
  exact ⟨_, h, keepsPrecedence_iff rfl h⟩

theorem not_keepsPrecedence_live : ∃ generated,
    (Scheduler.mk (applyOverrides liveConfig (classOverride "70b"))).generateCandidates
      liveRequest liveSnapshots = .ok generated ∧
    ¬∀ c ∈ generated.candidates,
      KeepsPrecedence ((classOverride "70b").modelProfiles.lookup c.modelId)
        (liveConfig.models.lookup c.modelId)
        (fallbackProfile { liveRoster := some ⟨"swap"⟩ } c.modelId) c.modelProfile := by
  refine ⟨_, rfl, fun h => ?_⟩
  have hclass := h _ List.mem_cons_self .parameterClass
  exact absurd hclass (by decide)

end Scheduler

end Anemoi
