import Anemoi.Policy.Soundness
import Mathlib.Data.List.Forall2

/-!
# Accounting for roster models

A static domain lists its models roster by roster. Each occurrence of a model there
either gives one candidate for every runtime that supports it and is available, or
is rejected by name, and candidates and rejections come in the order of the
occurrences. A denial therefore names every model of every roster.
-/

namespace Anemoi

/-- A snapshot shows the runtime to be available. -/
def isAvailable (snapshots : List RuntimeSnapshot) (runtimeId : RuntimeId) : Bool :=
  snapshots.any fun snapshot => snapshot.runtimeId = runtimeId && snapshot.available

/-- The models of a domain's rosters, roster by roster, each with its group. -/
def occurrences (config : AnemoiConfig) (domain : DomainConfig) :
    List (ResidencyGroup × ModelId) :=
  domain.rosters.flatMap fun groupId =>
    match config.residencyGroups.lookup groupId with
    | some group => group.models.map fun modelId => (group.intoGroup groupId, modelId)
    | none => []

/-- The runtimes on which a model with this profile can be offered. -/
def offeredRuntimes (snapshots : List RuntimeSnapshot) (profile : ModelProfileConfig) :
    List RuntimeId :=
  profile.supportedRuntimes.filter (isAvailable snapshots)

/-- What an occurrence of a model in a roster contributes: a candidate for every
runtime it can be offered on, or a rejection that names it. -/
inductive Contributes (config : AnemoiConfig) (request : InferenceRequest)
    (snapshots : List RuntimeSnapshot) : ResidencyGroup × ModelId → CandidateSet → Prop
  | offered {group : ResidencyGroup} {modelId : ModelId} {profile : ModelProfileConfig}
      {candidates : List Candidate}
      (profile_eq : config.models.lookup modelId = some profile)
      (nonempty : candidates ≠ [])
      (runtimes_eq : candidates.map Candidate.runtimeId = offeredRuntimes snapshots profile)
      (named : ∀ c ∈ candidates, c.groupId = group.id ∧ c.modelId = modelId) :
      Contributes config request snapshots (group, modelId) ⟨candidates, []⟩
  | rejected {group : ResidencyGroup} {modelId : ModelId} {reason : String}
      (cause : ∀ profile, config.models.lookup modelId = some profile →
        (contextWindowRejection request (profile.intoProfile modelId)).isSome = true ∨
          offeredRuntimes snapshots profile = []) :
      Contributes config request snapshots (group, modelId)
        ⟨[], [{ modelId := some modelId, runtimeId := none, reason }]⟩

namespace CandidateSet

theorem candidates_collect {α : Type} (l : List α) (f : α → CandidateSet) :
    (collect l f).candidates = l.flatMap fun a => (f a).candidates := by
  induction l with
  | nil => rfl
  | cons a l ih =>
      have hcons : (collect (a :: l) f).candidates =
          (f a).candidates ++ (collect l f).candidates := rfl
      rw [hcons, ih, List.flatMap_cons]

theorem rejectedOptions_collect {α : Type} (l : List α) (f : α → CandidateSet) :
    (collect l f).rejectedOptions = l.flatMap fun a => (f a).rejectedOptions := by
  induction l with
  | nil => rfl
  | cons a l ih =>
      have hcons : (collect (a :: l) f).rejectedOptions =
          (f a).rejectedOptions ++ (collect l f).rejectedOptions := rfl
      rw [hcons, ih, List.flatMap_cons]

end CandidateSet

/-! ### One occurrence -/

theorem isAvailable_eq_isSome (snapshots : List RuntimeSnapshot) (runtimeId : RuntimeId) :
    isAvailable snapshots runtimeId = (availableSnapshot snapshots runtimeId).isSome := by
  rw [isAvailable, availableSnapshot, List.isSome_find?]

/-- Collecting the values of a partial function keeps one for each argument that has
a value. -/
theorem map_filterMap_eq_filter {α β : Type} {f : α → Option β} {g : β → α}
    (h : ∀ a b, f a = some b → g b = a) (l : List α) :
    (l.filterMap f).map g = l.filter fun a => (f a).isSome := by
  induction l with
  | nil => rfl
  | cons a l ih =>
      cases hfa : f a with
      | none =>
          rw [List.filterMap_cons_none hfa, ih, List.filter_cons_of_neg (by simp [hfa])]
      | some b =>
          rw [List.filterMap_cons_some hfa, List.map_cons, ih, h a b hfa,
            List.filter_cons_of_pos (by simp [hfa])]

theorem contributes_candidatesForModel (config : AnemoiConfig) (request : InferenceRequest)
    (snapshots : List RuntimeSnapshot) (o : ResidencyGroup × ModelId) :
    Contributes config request snapshots o
      (candidatesForModel request snapshots config.models o.1 o.2) := by
  obtain ⟨group, modelId⟩ := o
  unfold candidatesForModel
  cases hprofile : config.models.lookup modelId with
  | none => exact .rejected fun profile h => by rw [hprofile] at h; cases h
  | some profile =>
      have hcause : ∀ p, config.models.lookup modelId = some p → p = profile := fun p hp =>
        Option.some.inj (hp.symm.trans hprofile)
      cases hfits : contextWindowRejection request (profile.intoProfile modelId) with
      | some reason =>
          simp only [hfits]
          exact .rejected fun p hp => Or.inl (by rw [hcause p hp, hfits]; rfl)
      | none =>
          simp only [hfits]
          have hruntimes : ((profile.intoProfile modelId).supportedRuntimes.filterMap
              fun runtimeId => (availableSnapshot snapshots runtimeId).map fun snapshot =>
                generateCandidate group (profile.intoProfile modelId) runtimeId snapshot).map
                  Candidate.runtimeId = offeredRuntimes snapshots profile := by
            rw [map_filterMap_eq_filter]
            · rw [offeredRuntimes]
              congr 1
              funext runtimeId
              rw [Option.isSome_map, isAvailable_eq_isSome]
            · intro runtimeId c hc
              obtain ⟨snapshot, -, rfl⟩ := Option.map_eq_some_iff.mp hc
              rfl
          split
          · next hempty =>
              rw [List.isEmpty_iff.mp hempty] at hruntimes
              exact .rejected fun p hp => Or.inr (by rw [hcause p hp, ← hruntimes]; rfl)
          · next hnonempty =>
              refine .offered hprofile (fun h => hnonempty (by rw [h]; rfl)) hruntimes ?_
              intro c hc
              obtain ⟨runtimeId, -, hsome⟩ := List.mem_filterMap.mp hc
              obtain ⟨snapshot, -, rfl⟩ := Option.map_eq_some_iff.mp hsome
              exact ⟨rfl, rfl⟩

/-! ### All occurrences -/

/-- The candidates and rejections are what the occurrences contribute, in order. -/
def AccountsForRosters (config : AnemoiConfig) (request : InferenceRequest)
    (snapshots : List RuntimeSnapshot) (domain : DomainConfig) (generated : CandidateSet) :
    Prop :=
  ∃ contributions,
    List.Forall₂ (Contributes config request snapshots) (occurrences config domain)
      contributions ∧
    generated.candidates = contributions.flatMap CandidateSet.candidates ∧
    generated.rejectedOptions = contributions.flatMap CandidateSet.rejectedOptions

theorem exists_of_forall₂ {α β : Type} {R : α → β → Prop} {l : List α} {l' : List β}
    (h : List.Forall₂ R l l') {a : α} (ha : a ∈ l) : ∃ b ∈ l', R a b := by
  induction h with
  | nil => cases ha
  | cons hab _ ih =>
      rcases List.mem_cons.mp ha with rfl | hmem
      · exact ⟨_, List.mem_cons_self, hab⟩
      · obtain ⟨b, hb, hR⟩ := ih hmem
        exact ⟨b, List.mem_cons_of_mem _ hb, hR⟩

/-- Every occurrence has a candidate or a rejection of its model. -/
theorem AccountsForRosters.candidate_or_rejection {config : AnemoiConfig}
    {request : InferenceRequest} {snapshots : List RuntimeSnapshot} {domain : DomainConfig}
    {generated : CandidateSet}
    (h : AccountsForRosters config request snapshots domain generated)
    {o : ResidencyGroup × ModelId} (ho : o ∈ occurrences config domain) :
    (∃ c ∈ generated.candidates, c.modelId = o.2) ∨
      ∃ r ∈ generated.rejectedOptions, r.modelId = some o.2 := by
  obtain ⟨contributions, hforall, hcandidates, hrejected⟩ := h
  obtain ⟨contribution, hmem, hcontributes⟩ := exists_of_forall₂ hforall ho
  rw [hcandidates, hrejected]
  cases hcontributes with
  | offered _ hnonempty _ hnamed =>
      obtain ⟨c, hc⟩ := List.exists_mem_of_ne_nil _ hnonempty
      exact Or.inl ⟨c, List.mem_flatMap.mpr ⟨_, hmem, hc⟩, (hnamed c hc).2⟩
  | rejected =>
      exact Or.inr ⟨_, List.mem_flatMap.mpr ⟨_, hmem, List.mem_singleton.mpr rfl⟩, rfl⟩

namespace Scheduler

theorem flatMap_domainGroups {α : Type} (scheduler : Scheduler) (domain : DomainConfig)
    (f : ResidencyGroup × ModelId → List α) :
    ((scheduler.domainGroups domain).flatMap fun group =>
      group.models.flatMap fun modelId => f (group, modelId)) =
      (occurrences scheduler.config domain).flatMap f := by
  rw [domainGroups, occurrences, List.flatMap_assoc]
  induction domain.rosters with
  | nil => rfl
  | cons groupId rosters ih =>
      rw [List.flatMap_cons, ← ih]
      cases hgroup : scheduler.config.residencyGroups.lookup groupId with
      | none =>
          rw [List.filterMap_cons_none (by rw [hgroup]; rfl)]
          rfl
      | some group =>
          rw [List.filterMap_cons_some (by rw [hgroup]; rfl), List.flatMap_cons]
          rw [List.flatMap_map]
          rfl

section Static

variable {scheduler : Scheduler} {request : InferenceRequest}
  {snapshots : List RuntimeSnapshot} {domain : DomainConfig}

/-- A static domain's candidates are collected over its groups and their models. -/
theorem generateCandidates_static
    (hdomain : scheduler.config.domains.lookup request.domain = some domain)
    (hstatic : domain.liveRoster = none) :
    scheduler.generateCandidates request snapshots =
      if domain.rosters.isEmpty then .error (.emptyRoster request.domain)
      else
        .ok (.collect (scheduler.domainGroups domain) fun group =>
          .collect group.models fun modelId =>
            candidatesForModel request snapshots scheduler.config.models group modelId) := by
  unfold generateCandidates
  simp only [hdomain, hstatic]

theorem accountsForRosters_collect (request : InferenceRequest)
    (snapshots : List RuntimeSnapshot) (domain : DomainConfig) :
    AccountsForRosters scheduler.config request snapshots domain
      (.collect (scheduler.domainGroups domain) fun group =>
        .collect group.models fun modelId =>
          candidatesForModel request snapshots scheduler.config.models group modelId) := by
  refine ⟨(occurrences scheduler.config domain).map fun o =>
    candidatesForModel request snapshots scheduler.config.models o.1 o.2, ?_, ?_, ?_⟩
  · rw [List.forall₂_map_right_iff, List.forall₂_same]
    exact fun o _ => contributes_candidatesForModel scheduler.config request snapshots o
  · simp only [CandidateSet.candidates_collect]
    rw [List.flatMap_map]
    exact flatMap_domainGroups scheduler domain fun o =>
      (candidatesForModel request snapshots scheduler.config.models o.1 o.2).candidates
  · simp only [CandidateSet.rejectedOptions_collect]
    rw [List.flatMap_map]
    exact flatMap_domainGroups scheduler domain fun o =>
      (candidatesForModel request snapshots scheduler.config.models o.1 o.2).rejectedOptions

/-- A denial reports the rejections of the generation and those of the floor, and no
candidate met the floor. -/
theorem denied_of_decide {generated : CandidateSet} {stamp : Stamp} {d : Decision}
    (hgenerated : scheduler.generateCandidates request snapshots = .ok generated)
    (h : scheduler.decide request snapshots stamp = .ok d) (haction : d.action = .deny) :
    (∀ c ∈ generated.candidates, ¬c.satisfiesFloor (qualityFloorValue request)) ∧
      d.explanation.rejectedOptions = combineRejected generated.rejectedOptions
        (qualityFloorRejections (scheduler.scoredCandidates request generated)
          (qualityFloorValue request) none) := by
  have hnone : ∀ c ∈ generated.candidates, ¬c.satisfiesFloor (qualityFloorValue request) := by
    cases outcome_decide hgenerated h with
    | denied hnone => exact hnone
    | served hbest =>
        exact absurd haction ((mem_candidates_iff hgenerated).mp hbest).action_ne.1
    | staged => cases haction
  refine ⟨hnone, ?_⟩
  have hbest : ((scheduler.scoredCandidates request generated).filter fun c =>
      candidateSatisfiesFloor c (qualityFloorValue request)).head? = none := by
    rw [List.head?_eq_none_iff, List.filter_eq_nil_iff]
    intro scored hscored hfloor
    obtain ⟨c, hc, rfl⟩ := mem_scoredCandidates_iff.mp hscored
    have hmeets := candidateSatisfiesFloor_iff.mp hfloor
    rw [scoreCandidate_candidate] at hmeets
    exact hnone c hc hmeets
  simp only [decide, hgenerated, bind, Except.bind, pure, Except.pure] at h
  rw [hbest, Except.ok.injEq] at h
  rw [← h]
  rfl

/-- A candidate below the floor is reported when nothing is selected. -/
theorem exists_floorRejection {generated : CandidateSet} {c : Candidate}
    (hc : c ∈ generated.candidates) (hbelow : ¬c.satisfiesFloor (qualityFloorValue request)) :
    ∃ r ∈ qualityFloorRejections (scheduler.scoredCandidates request generated)
      (qualityFloorValue request) none, r.modelId = some c.modelId := by
  unfold qualityFloorRejections
  cases hfloor : qualityFloorValue request with
  | none =>
      rw [hfloor] at hbelow
      exact absurd (fun _ _ h => nomatch h) hbelow
  | some floor =>
      obtain ⟨label, minimum⟩ := floor
      rw [hfloor] at hbelow
      have hlt : qualityScore c.modelProfile < minimum := by
        refine Int32.not_le.mp fun hle => hbelow fun label' minimum' heq => ?_
        cases heq
        exact hle
      have hmem := mem_scoredCandidates_iff.mpr
        (⟨c, hc, rfl⟩ : ∃ c' ∈ generated.candidates,
          scoreCandidate request c' scheduler.config = scoreCandidate request c scheduler.config)
      refine ⟨_, List.mem_map_of_mem (List.mem_filter.mpr ⟨hmem, ?_⟩), rfl⟩
      rw [scoreCandidate_candidate, Bool.and_eq_true, decide_eq_true_eq]
      exact ⟨rfl, hlt⟩

/-- No model of a static domain's rosters is dropped silently. -/
theorem accountsForRosters_generateCandidates
    (hdomain : scheduler.config.domains.lookup request.domain = some domain)
    (hstatic : domain.liveRoster = none) :
    (domain.rosters ≠ [] →
      ∃ generated, scheduler.generateCandidates request snapshots = .ok generated ∧
        AccountsForRosters scheduler.config request snapshots domain generated) ∧
    ∀ stamp d, scheduler.decide request snapshots stamp = .ok d → d.action = .deny →
      ∀ o ∈ occurrences scheduler.config domain,
        ∃ r ∈ d.explanation.rejectedOptions, r.modelId = some o.2 := by
  have heq : scheduler.generateCandidates request snapshots = _ :=
    generateCandidates_static hdomain hstatic
  constructor
  · intro hrosters
    rw [if_neg (by simpa using hrosters)] at heq
    exact ⟨_, heq, accountsForRosters_collect request snapshots domain⟩
  · intro stamp d h haction o ho
    obtain ⟨generated, hgenerated⟩ := generateCandidates_of_decide h
    obtain ⟨hnone, hrejected⟩ := denied_of_decide hgenerated h haction
    rw [hrejected, combineRejected]
    have haccounts : AccountsForRosters scheduler.config request snapshots domain generated := by
      rw [hgenerated] at heq
      split at heq
      · cases heq
      · rw [Except.ok.injEq] at heq
        rw [heq]
        exact accountsForRosters_collect request snapshots domain
    rcases haccounts.candidate_or_rejection ho with ⟨c, hc, hmodel⟩ | ⟨r, hr, hmodel⟩
    · have hbelow : ∃ r ∈ qualityFloorRejections (scheduler.scoredCandidates request generated)
          (qualityFloorValue request) none, r.modelId = some c.modelId :=
        exists_floorRejection hc (hnone c hc)
      obtain ⟨r, hr, hrmodel⟩ := hbelow
      exact ⟨r, List.mem_append_right _ hr, hrmodel.trans (congrArg some hmodel)⟩
    · exact ⟨r, List.mem_append_left _ hr, hmodel⟩

end Static

theorem accountsForRosters_busy :
    ∃ generated, (Scheduler.mk busyConfig).generateCandidates floorRequest busySnapshots =
        .ok generated ∧
      AccountsForRosters busyConfig floorRequest busySnapshots
        { rosters := [⟨"fast"⟩, ⟨"large"⟩] } generated := by
  have hdomain : (Scheduler.mk busyConfig).config.domains.lookup floorRequest.domain =
      some { rosters := [⟨"fast"⟩, ⟨"large"⟩] } := rfl
  exact (accountsForRosters_generateCandidates hdomain rfl).1 (by decide)

end Scheduler

end Anemoi
