import Anemoi.Policy.QualityFloor

/-!
# Soundness of decisions

Whatever a decision selects was offered: by a roster of the domain and a profile of
the configuration, or by the live runtime the domain follows, and always by a
runtime that a snapshot shows to be available. `Offer` is such an option and
`SoundDecision` says what a decision made of one.

Snapshots are looked up by runtime, so a decision does not depend on the order in
which they are given.
-/

namespace Anemoi

/-- A model of a group on a runtime, with its profile there and the snapshot that
was read. -/
structure Offer where
  groupId : ResidencyGroupId
  modelId : ModelId
  runtimeId : RuntimeId
  profile : ModelProfile
  snapshot : RuntimeSnapshot

namespace Offer

/-- The offer stands in a roster of a static domain. -/
structure Rostered (o : Offer) (config : AnemoiConfig) (domain : DomainConfig) : Prop where
  not_live : domain.liveRoster = none
  roster_mem : o.groupId ∈ domain.rosters
  model_mem : ∃ group, config.residencyGroups.lookup o.groupId = some group ∧
    o.modelId ∈ group.models
  profiled : ∃ profile, config.models.lookup o.modelId = some profile ∧
    o.profile = profile.intoProfile o.modelId ∧ o.runtimeId ∈ profile.supportedRuntimes

/-- The offer comes from the runtime that a live domain follows. -/
structure Live (o : Offer) (domain : DomainConfig) : Prop where
  live_roster : domain.liveRoster = some o.runtimeId
  group_eq : o.groupId = ⟨"live"⟩
  model_mem : o.modelId ∈ o.snapshot.configuredModels
  profile_eq : o.profile = synthesizeProfile o.modelId o.runtimeId

/-- An offer that the domain of the request has and that the request fits. -/
structure Valid (o : Offer) (config : AnemoiConfig) (request : InferenceRequest)
    (snapshots : List RuntimeSnapshot) : Prop where
  domain : ∃ domain, config.domains.lookup request.domain = some domain ∧
    (o.Rostered config domain ∨ o.Live domain)
  snapshot_mem : o.snapshot ∈ snapshots
  snapshot_runtime : o.snapshot.runtimeId = o.runtimeId
  available : o.snapshot.available = true
  fits : ∀ prompt, request.promptTokensEstimate = some prompt →
    ∀ window, o.profile.contextWindow = some window →
      saturatingAdd prompt (request.maxOutputTokens.getD 0) ≤ window

/-- The action that the model's state on the runtime asks for. -/
def image (o : Offer) : DecisionAction :=
  actionFor (residencyOf o.snapshot o.modelId)

end Offer

/-- A decision that is not a denial acts on an offer as the offer's state asks, or
serves a hot or warm one while another offer is loaded in the background. -/
structure SoundDecision (config : AnemoiConfig) (request : InferenceRequest)
    (snapshots : List RuntimeSnapshot) (d : Decision) : Prop where
  selected : ∃ o : Offer, o.Valid config request snapshots ∧
    d.selectedGroup = some o.groupId ∧ d.selectedModel = some o.modelId ∧
    d.selectedRuntime = some o.runtimeId ∧
    (d.action = o.image ∨
      d.action = .stageBackground ∧ (o.image = .reuseHot ∨ o.image = .promoteWarm))
  background : ∀ modelId, d.backgroundModel = some modelId →
    ∃ o : Offer, o.Valid config request snapshots ∧ o.modelId = modelId ∧ o.image = .coldLoad
  staged_iff : d.action = .stageBackground ↔ d.backgroundModel.isSome = true

theorem contextWindowRejection_eq_none_iff {request : InferenceRequest}
    {model : ModelProfile} :
    contextWindowRejection request model = none ↔
      ∀ prompt, request.promptTokensEstimate = some prompt →
        ∀ window, model.contextWindow = some window →
          saturatingAdd prompt (request.maxOutputTokens.getD 0) ≤ window := by
  unfold contextWindowRejection requestRequiredTokens
  cases hprompt : request.promptTokensEstimate with
  | none => simp
  | some prompt =>
      cases hwindow : model.contextWindow with
      | none => simp
      | some window =>
          simp only [Option.map_some, Option.bind_eq_bind, Option.bind_some, ite_eq_right_iff,
            reduceCtorEq, imp_false, Option.some.injEq, forall_eq', UInt32.not_lt]

namespace Scheduler

section Decide

variable {scheduler : Scheduler} {request : InferenceRequest}
  {snapshots : List RuntimeSnapshot} {stamp : Stamp} {d : Decision}

/-- Every candidate was offered. -/
theorem Generated.exists_offer {c : Candidate} (h : Generated scheduler request snapshots c) :
    ∃ o : Offer, o.Valid scheduler.config request snapshots ∧ o.groupId = c.groupId ∧
      o.modelId = c.modelId ∧ o.runtimeId = c.runtimeId ∧ o.image = c.action := by
  cases h with
  | @static domain groupId group modelId profile runtimeId snapshot hdomain hstatic hg hgroup
      hm hp hfits hruntime hsnapshot =>
      have hfound := List.find?_some hsnapshot
      rw [Bool.and_eq_true, decide_eq_true_eq] at hfound
      refine ⟨⟨groupId, modelId, runtimeId, profile.intoProfile modelId, snapshot⟩, ?_,
        rfl, rfl, rfl, rfl⟩
      exact
        { domain := ⟨domain, hdomain, Or.inl
            ⟨hstatic, hg, ⟨group, hgroup, hm⟩, ⟨profile, hp, rfl, hruntime⟩⟩⟩
          snapshot_mem := List.mem_of_find?_eq_some hsnapshot
          snapshot_runtime := hfound.1
          available := hfound.2
          fits := contextWindowRejection_eq_none_iff.mp hfits }
  | @live domain runtimeId snapshot modelId hdomain hlive hsnapshot havailable hm hfits =>
      have hfound := List.find?_some hsnapshot
      rw [decide_eq_true_eq] at hfound
      refine ⟨⟨⟨"live"⟩, modelId, runtimeId, synthesizeProfile modelId runtimeId, snapshot⟩,
        ?_, rfl, rfl, rfl, rfl⟩
      exact
        { domain := ⟨domain, hdomain, Or.inr ⟨hlive, rfl, hm, rfl⟩⟩
          snapshot_mem := List.mem_of_find?_eq_some hsnapshot
          snapshot_runtime := hfound
          available := havailable
          fits := contextWindowRejection_eq_none_iff.mp hfits }

end Decide

end Scheduler

/-! ### The order of snapshots -/

/-- An element that is the only one with a property is found in any order. -/
theorem find?_eq_of_perm {α : Type} {l l' : List α} {p : α → Bool} (hperm : l.Perm l')
    (hunique : ∀ a ∈ l, ∀ b ∈ l, p a = true → p b = true → a = b) :
    l.find? p = l'.find? p := by
  cases h : l.find? p with
  | none =>
      rw [List.find?_eq_none] at h
      have hnone : l'.find? p = none := List.find?_eq_none.mpr fun a ha =>
        h a (hperm.mem_iff.mpr ha)
      rw [hnone]
  | some a =>
      have ha := List.mem_of_find?_eq_some h
      have hpa := List.find?_some h
      have hfound : (l'.find? p).isSome = true :=
        List.find?_isSome.mpr ⟨a, hperm.mem_iff.mp ha, hpa⟩
      obtain ⟨b, hb⟩ := Option.isSome_iff_exists.mp hfound
      have hmem := hperm.mem_iff.mpr (List.mem_of_find?_eq_some hb)
      rw [hb, hunique a ha b hmem hpa (List.find?_some hb)]

namespace Scheduler

variable {scheduler : Scheduler} {request : InferenceRequest}
  {snapshots snapshots' : List RuntimeSnapshot}

theorem availableSnapshot_perm (hperm : snapshots.Perm snapshots')
    (hnodup : (snapshots.map RuntimeSnapshot.runtimeId).Nodup) (runtimeId : RuntimeId) :
    availableSnapshot snapshots runtimeId = availableSnapshot snapshots' runtimeId := by
  refine find?_eq_of_perm hperm fun a ha b hb hpa hpb => ?_
  rw [Bool.and_eq_true, decide_eq_true_eq] at hpa hpb
  exact List.inj_on_of_nodup_map hnodup ha hb (hpa.1.trans hpb.1.symm)

theorem liveSnapshot_perm (hperm : snapshots.Perm snapshots')
    (hnodup : (snapshots.map RuntimeSnapshot.runtimeId).Nodup) (runtimeId : RuntimeId) :
    snapshots.find? (fun s => s.runtimeId = runtimeId) =
      snapshots'.find? (fun s => s.runtimeId = runtimeId) := by
  refine find?_eq_of_perm hperm fun a ha b hb hpa hpb => ?_
  rw [decide_eq_true_eq] at hpa hpb
  exact List.inj_on_of_nodup_map hnodup ha hb (hpa.trans hpb.symm)

/-- The same candidates and the same rejections are generated, in the same order. -/
theorem generateCandidates_perm (hperm : snapshots.Perm snapshots')
    (hnodup : (snapshots.map RuntimeSnapshot.runtimeId).Nodup) :
    scheduler.generateCandidates request snapshots =
      scheduler.generateCandidates request snapshots' := by
  have havailable : availableSnapshot snapshots = availableSnapshot snapshots' :=
    funext (availableSnapshot_perm hperm hnodup)
  have hmodel : candidatesForModel request snapshots = candidatesForModel request snapshots' := by
    funext models group modelId
    rw [candidatesForModel, candidatesForModel, havailable]
  unfold generateCandidates
  rw [hmodel]
  simp only [liveSnapshot_perm hperm hnodup]

/-- A decision depends on its stamp in nothing but the identifier and the time. -/
theorem decide_stamp (stamp stamp' : Stamp) :
    scheduler.decide request snapshots stamp' =
      (scheduler.decide request snapshots stamp).map fun d =>
        { d with id := stamp'.id, createdAt := stamp'.createdAt } := by
  unfold decide
  cases scheduler.generateCandidates request snapshots with
  | error e => rfl
  | ok generated =>
      simp only [bind, Except.bind, pure, Except.pure]
      split <;> rfl

/-- Decisions on the same snapshots in another order differ in their stamp only. -/
theorem decide_perm (hperm : snapshots.Perm snapshots')
    (hnodup : (snapshots.map RuntimeSnapshot.runtimeId).Nodup) (stamp stamp' : Stamp) :
    scheduler.decide request snapshots' stamp' =
      (scheduler.decide request snapshots stamp).map fun d =>
        { d with id := stamp'.id, createdAt := stamp'.createdAt } := by
  rw [← decide_stamp]
  unfold decide
  rw [generateCandidates_perm hperm hnodup]

theorem decide_perm_busy :
    (Scheduler.mk busyConfig).decide floorRequest busySnapshots.reverse ⟨⟨1⟩, ⟨1⟩⟩ =
      ((Scheduler.mk busyConfig).decide floorRequest busySnapshots sampleStamp).map fun d =>
        { d with id := ⟨1⟩, createdAt := ⟨1⟩ } :=
  decide_perm (List.reverse_perm busySnapshots).symm (by decide) sampleStamp ⟨⟨1⟩, ⟨1⟩⟩

end Scheduler

end Anemoi
