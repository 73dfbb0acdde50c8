import Anemoi.Daemon.Decisions
import Anemoi.Daemon.Integrity

/-!
# Operator protection

A model in a keep-hot or pinned group is not to be evicted without force. The operator
edits the groups of the effective configuration, but the eviction planner reads those of
the baseline: the plan honours what the operator protects exactly when the edits made no
difference to the residents that the cache holds, or none that the planner can see.
-/

namespace Anemoi

open Systems

/-- The model is a member of a keep-hot or pinned group. -/
def OperatorProtected (config : AnemoiConfig) (modelId : ModelId) : Prop :=
  ∃ id group, config.residencyGroups.lookup id = some group ∧ modelId ∈ group.models ∧
    (group.keepHot = true ∨ group.pinned = true)

theorem foldl_addProtection (modelId : ModelId) (groups : List ResidencyGroupConfig)
    (flags : Bool × Bool) :
    ((groups.foldl (addProtection modelId) flags).1 ||
        (groups.foldl (addProtection modelId) flags).2) = true ↔
      (flags.1 || flags.2) = true ∨
        ∃ group ∈ groups, modelId ∈ group.models ∧
          (group.keepHot = true ∨ group.pinned = true) := by
  induction groups generalizing flags with
  | nil => simp
  | cons group groups ih =>
      rw [List.foldl_cons, ih, List.exists_mem_cons_iff, ← or_assoc]
      refine or_congr_left ?_
      by_cases hmember : modelId ∈ group.models
      · simp only [addProtection, List.contains_iff_mem.mpr hmember, if_true,
          Bool.or_eq_true, hmember, true_and]
        tauto
      · simp [addProtection, hmember]

/-- The two flags together say whether the model is protected. -/
theorem groupProtection_iff (config : AnemoiConfig) (modelId : ModelId) :
    ((groupProtection config modelId).1 || (groupProtection config modelId).2) = true ↔
      OperatorProtected config modelId := by
  rw [groupProtection, foldl_addProtection]
  constructor
  · rintro (hfalse | ⟨group, hgroup, hmember, hflags⟩)
    · cases hfalse
    · obtain ⟨id, hid⟩ := AList.mem_values.mp hgroup
      exact ⟨id, group, hid, hmember, hflags⟩
  · rintro ⟨id, group, hid, hmember, hflags⟩
    exact Or.inr ⟨group, AList.mem_values.mpr ⟨id, hid⟩, hmember, hflags⟩

/-- The runtime reports the resident as serving, or a request runs on its model. -/
def IsServing (snapshot : RuntimeSnapshot) (resident : ModelResident) : Prop :=
  resident.state = .serving ∨
    ∃ active ∈ snapshot.activeRequests, active.modelId = resident.modelId

theorem isServing_evictionResident {config : AnemoiConfig} {now : DateTime}
    {snapshot : RuntimeSnapshot} {resident : ModelResident} :
    (evictionResident config now snapshot resident).isServing = true ↔
      IsServing snapshot resident := by
  rw [EvictionCandidateResident.isServing, decide_eq_true_iff, evictionResident, IsServing]
  dsimp only
  split
  · next hserving =>
      refine ⟨fun _ => Or.inr ?_, fun _ => rfl⟩
      simpa using hserving
  · next hidle =>
      refine ⟨Or.inl, ?_⟩
      rintro (hserving | hactive)
      · exact hserving
      · exact absurd (by simpa using hactive) hidle

section Planner

variable {config : AnemoiConfig} {now : DateTime} {snapshot : RuntimeSnapshot}
  {resident : ModelResident}

theorem isProtected_evictionResident :
    (evictionResident config now snapshot resident).isProtected false = true ↔
      OperatorProtected config resident.modelId := by
  rw [EvictionCandidateResident.isProtected, Bool.not_false, Bool.and_true,
    ← groupProtection_iff]
  rfl

theorem isEvictable_evictionResident :
    (evictionResident config now snapshot resident).isEvictable false = true ↔
      ¬OperatorProtected config resident.modelId ∧ ¬IsServing snapshot resident := by
  rw [EvictionCandidateResident.isEvictable, Bool.not_false, Bool.and_true, Bool.and_eq_true,
    Bool.not_eq_true', Bool.not_eq_true', ← Bool.not_eq_true, ← Bool.not_eq_true,
    isProtected_evictionResident, isServing_evictionResident]

end Planner

/-! ### The plan of a daemon -/

/-- The plan evicts no model that `config` protects, and protects no other. -/
structure HonoursProtection (config : AnemoiConfig) (plan : EvictionPlan) : Prop where
  candidates : ∀ c ∈ plan.candidates, ¬OperatorProtected config c.modelId
  protected_ : ∀ p ∈ plan.protected_, OperatorProtected config p.modelId

/-- The two configurations agree on the protection of a resident; one that is serving may
be protected by the effective configuration only. -/
def SameProtection (baseline effective : AnemoiConfig) (snapshot : RuntimeSnapshot)
    (resident : ModelResident) : Prop :=
  (OperatorProtected baseline resident.modelId →
    OperatorProtected effective resident.modelId) ∧
  (OperatorProtected effective resident.modelId →
    OperatorProtected baseline resident.modelId ∨ IsServing snapshot resident)

section Plan

variable {baseline effective : AnemoiConfig} {now : DateTime}
  {snapshots : List RuntimeSnapshot}

/-- A model is a candidate when one of its residents is neither protected nor serving. -/
theorem candidates_evictionResidents {modelId : ModelId} :
    (∃ c ∈ (planEvictions ⟨evictionResidents baseline now snapshots, false⟩).candidates,
        c.modelId = modelId) ↔
      ¬OperatorProtected baseline modelId ∧
        ∃ snapshot ∈ snapshots, ∃ resident ∈ snapshot.residents,
          resident.modelId = modelId ∧ ¬IsServing snapshot resident := by
  rw [candidates_planEvictions]
  constructor
  · rintro ⟨r, hr, hevictable, rfl⟩
    obtain ⟨snapshot, hsnapshot, hr⟩ := List.mem_flatMap.mp hr
    obtain ⟨resident, hresident, rfl⟩ := List.mem_map.mp hr
    obtain ⟨hbaseline, hidle⟩ := isEvictable_evictionResident.mp hevictable
    exact ⟨hbaseline, snapshot, hsnapshot, resident, hresident, rfl, hidle⟩
  · rintro ⟨hbaseline, snapshot, hsnapshot, resident, hresident, rfl, hidle⟩
    refine ⟨evictionResident baseline now snapshot resident, ?_,
      isEvictable_evictionResident.mpr ⟨hbaseline, hidle⟩, rfl⟩
    exact List.mem_flatMap.mpr ⟨snapshot, hsnapshot, List.mem_map_of_mem hresident⟩

/-- A model is reported as protected when it is and has a resident. -/
theorem protected_evictionResidents {modelId : ModelId} :
    (∃ p ∈ (planEvictions ⟨evictionResidents baseline now snapshots, false⟩).protected_,
        p.modelId = modelId) ↔
      OperatorProtected baseline modelId ∧
        ∃ snapshot ∈ snapshots, ∃ resident ∈ snapshot.residents,
          resident.modelId = modelId := by
  rw [protected_planEvictions]
  constructor
  · rintro ⟨r, hr, hprotected, rfl⟩
    obtain ⟨snapshot, hsnapshot, hr⟩ := List.mem_flatMap.mp hr
    obtain ⟨resident, hresident, rfl⟩ := List.mem_map.mp hr
    exact ⟨isProtected_evictionResident.mp hprotected, snapshot, hsnapshot, resident,
      hresident, rfl⟩
  · rintro ⟨hprotected, snapshot, hsnapshot, resident, hresident, rfl⟩
    refine ⟨evictionResident baseline now snapshot resident, ?_,
      isProtected_evictionResident.mpr hprotected, rfl⟩
    exact List.mem_flatMap.mpr ⟨snapshot, hsnapshot, List.mem_map_of_mem hresident⟩

/-- A plan made with the groups of `baseline` honours `effective` when the two agree on
every resident. -/
theorem honoursProtection_iff :
    HonoursProtection effective
        (planEvictions ⟨evictionResidents baseline now snapshots, false⟩) ↔
      ∀ snapshot ∈ snapshots, ∀ resident ∈ snapshot.residents,
        SameProtection baseline effective snapshot resident := by
  constructor
  · intro hplan snapshot hsnapshot resident hresident
    refine ⟨fun hbaseline => ?_, fun heffective => ?_⟩
    · obtain ⟨p, hp, hmodel⟩ := protected_evictionResidents.mpr
        ⟨hbaseline, snapshot, hsnapshot, resident, hresident, rfl⟩
      exact hmodel ▸ hplan.protected_ p hp
    · by_contra hneither
      obtain ⟨hbaseline, hidle⟩ := not_or.mp hneither
      obtain ⟨c, hc, hmodel⟩ := candidates_evictionResidents.mpr
        ⟨hbaseline, snapshot, hsnapshot, resident, hresident, rfl, hidle⟩
      exact hplan.candidates c hc (hmodel ▸ heffective)
  · intro hsame
    refine ⟨fun c hc heffective => ?_, fun p hp => ?_⟩
    · obtain ⟨hbaseline, snapshot, hsnapshot, resident, hresident, hmodel, hidle⟩ :=
        candidates_evictionResidents.mp ⟨c, hc, rfl⟩
      rcases (hsame snapshot hsnapshot resident hresident).2 (hmodel ▸ heffective) with h | h
      · exact hbaseline (hmodel ▸ h)
      · exact hidle h
    · obtain ⟨hbaseline, snapshot, hsnapshot, resident, hresident, hmodel⟩ :=
        protected_evictionResidents.mp ⟨p, hp, rfl⟩
      exact hmodel ▸ (hsame snapshot hsnapshot resident hresident).1 (hmodel ▸ hbaseline)

end Plan

namespace AppState

/-- After any run of edits and over any cache, the plan honours the protection of the
effective configuration exactly when it is, for every resident, that of the baseline. -/
theorem honoursProtection_planEvictions_iff (state : AppState) (codec : Codec)
    (env : ℕ → Surroundings) (overrides : GovernanceOverrides) (path : Option OverridesPath)
    (disk : Disk) (edits : List (EditRequest × FailurePattern)) (w : World) :
    let gov := (Machine.runFrom (editStep codec.overridesToJson)
      (.new state.config overrides path, disk) edits).1
    HonoursProtection gov.effective.config
        ((state.planEvictions false).run (handle codec env)
          { w with governance := gov }).result ↔
      ∀ runtimeId r, w.reconciler.cache.lookup runtimeId = some r →
        ∀ resident ∈ r.snapshot.residents,
          SameProtection state.config (applyOverrides state.config gov.overrides) r.snapshot
            resident := by
  intro gov
  have hderived : Derived state.config gov :=
    derived_edits state.config overrides codec.overridesToJson path disk edits
  refine honoursProtection_iff.trans ?_
  rw [hderived.effective_eq]
  constructor
  · intro hsame runtimeId r hlookup
    refine hsame r.snapshot (((env w.clock).hashOrder_perm _).mem_iff.mpr ?_)
    exact Reconciler.mem_getSnapshots_iff.mpr ⟨runtimeId, r, hlookup, rfl⟩
  · intro hsame snapshot hsnapshot
    obtain ⟨runtimeId, r, hlookup, rfl⟩ := Reconciler.mem_getSnapshots_iff.mp
      (((env w.clock).hashOrder_perm _).mem_iff.mp hsnapshot)
    exact hsame runtimeId r hlookup

/-- The large model is resident on the live runtime. -/
def largeResident : World :=
  { twoRuntimesStart with
    reconciler := (Reconciler.new 5000).update "b" (hotSnapshot "b" ["qwen70b"]) ⟨0⟩ }

/-- The operator pins the group of the large model, which is proposed for eviction. -/
theorem not_honoursProtection_pinLarge :
    let gov := (Machine.runFrom (editStep (default : Codec).overridesToJson)
      (.new twoRuntimes.config {} none, ⟨none, none⟩)
      [(.patchRoster "large" { pinned := some true }, (default : Surroundings).disk)]).1
    ¬HonoursProtection gov.effective.config
      ((twoRuntimes.planEvictions false).run (handle default fun _ => default)
        { largeResident with governance := gov }).result := by
  intro gov hplan
  refine hplan.candidates
    ⟨⟨"qwen70b"⟩, ⟨"b"⟩, none, "idle, unpinned resident eligible for eviction"⟩
    (by decide +kernel) ⟨⟨"large"⟩, { models := [⟨"qwen70b"⟩], pinned := true }, ?_, ?_⟩
  · decide +kernel
  · decide +kernel

end AppState

end Anemoi
