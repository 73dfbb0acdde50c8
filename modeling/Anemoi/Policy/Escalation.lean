import Anemoi.Policy.ParameterClasses
import Anemoi.Policy.Scope
import Anemoi.Policy.Validation

/-!
# What the escalation warning means

`domain.no_escalation` is reported from the configuration alone: no known size among the
domain's roster models is above the escalation floor. `warnsNoEscalation_iff` says what that
tells of scheduling: it is reported exactly when every request for the domain that asks for
more than the floor is denied, whatever the runtimes hold.
-/

namespace Anemoi

open Systems

/-- The warning is among those of the configuration. -/
def WarnsNoEscalation (effective : AnemoiConfig) (id : DomainId) : Prop :=
  ∃ w ∈ validateGovernance effective, w.code = "domain.no_escalation" ∧ w.target = toString id

/-- Every request for the domain that asks for more than the escalation floor is denied. -/
def DeniesEscalation (effective : AnemoiConfig) (id : DomainId) : Prop :=
  ∀ (request : InferenceRequest) (snapshots : List RuntimeSnapshot) (stamp : Stamp)
    (decision : Decision) (label : String), request.domain = id →
    request.qualityFloor = some ⟨some label⟩ → 9 < (parameterClassValue label).toInt →
    (Scheduler.mk effective).decide request snapshots stamp = .ok decision →
    decision.action = .deny

/-- A class that governance and the scheduler read alike: a whole number of billions in range,
or no number at all. -/
inductive PlainClass : String → Prop
  | whole (c : DecimalClass) (no_fraction : c.fraction = []) (in_range : c.units < 2 ^ 31) :
      PlainClass c.text
  | unknown {parameterClass : String}
      (no_digits : parameterClass.toList.filter Char.isDigit = []) : PlainClass parameterClass

/-! ### Sizes -/

theorem max_le_floor_iff (a b k : UInt32) : max a b ≤ k ↔ a ≤ k ∧ b ≤ k := by
  have hmax : max a b = if a ≤ b then b else a := rfl
  rw [hmax]
  by_cases h : a ≤ b
  · rw [if_pos h]
    exact ⟨fun hb => ⟨UInt32.le_trans h hb, hb⟩, And.right⟩
  · rw [if_neg h]
    exact ⟨fun ha => ⟨ha, UInt32.le_trans (UInt32.le_of_lt (UInt32.not_le.mp h)) ha⟩, And.left⟩

/-- The largest size is within a bound when all are. -/
theorem any_largestBillions_le_iff (sizes : List UInt32) (k : UInt32) :
    (largestBillions sizes).any (· ≤ k) = true ↔ sizes ≠ [] ∧ ∀ b ∈ sizes, b ≤ k := by
  have hfold : ∀ (l : List UInt32) (a : UInt32),
      (l.foldl (fun largest billions =>
          some (largest.elim billions fun cur => max cur billions)) (some a)).any (· ≤ k) = true ↔
        a ≤ k ∧ ∀ b ∈ l, b ≤ k := by
    intro l
    induction l with
    | nil =>
        intro a
        simp
    | cons b l ih =>
        intro a
        rw [List.foldl_cons, Option.elim_some, ih, max_le_floor_iff, List.forall_mem_cons,
          and_assoc]
  cases sizes with
  | nil => simp [largestBillions]
  | cons a l =>
      rw [largestBillions, List.foldl_cons, Option.elim_none, hfold, List.forall_mem_cons]
      simp

theorem validateEscalation_ne_nil_iff {effective : AnemoiConfig} {id : DomainId}
    {domain : DomainConfig} :
    validateEscalation effective id domain ≠ [] ↔
      knownBillions effective domain ≠ [] ∧
        ∀ b ∈ knownBillions effective domain, b ≤ escalationFloorBillions := by
  unfold validateEscalation
  by_cases h : (largestBillions (knownBillions effective domain)).any
      (· ≤ escalationFloorBillions) = true
  · have hsizes := (any_largestBillions_le_iff _ _).mp h
    exact ⟨fun _ => hsizes, fun _ => by simp [h, hsizes.1]⟩
  · have hsizes := mt (any_largestBillions_le_iff _ _).mpr h
    simp only [h, Bool.and_false, Bool.false_eq_true, if_false, ne_eq, not_true_eq_false,
      false_iff]
    exact hsizes

/-! ### The warning among the others -/

section Warnings

variable {effective : AnemoiConfig} {id : DomainId} {domain : DomainConfig}
  {w : GovernanceWarning}

theorem code_ne_of_mem_validateRoster {groupId : ResidencyGroupId} {group : ResidencyGroupConfig}
    (h : w ∈ validateRoster effective groupId group) : w.code ≠ "domain.no_escalation" := by
  rw [validateRoster, List.mem_append] at h
  rcases h with h | h
  · by_cases hempty : group.models.isEmpty = true
    · rw [if_pos hempty, List.mem_singleton] at h
      rw [h]
      simp
    · rw [if_neg hempty] at h
      cases h
  · obtain ⟨model, -, hw⟩ := List.mem_filterMap.mp h
    by_cases hprofile : model ∈ effective.models
    · rw [if_pos hprofile] at hw
      cases hw
    · rw [if_neg hprofile, Option.some.injEq] at hw
      rw [← hw]
      simp

theorem of_mem_validateEscalation (h : w ∈ validateEscalation effective id domain) :
    w.code = "domain.no_escalation" ∧ w.target = toString id := by
  unfold validateEscalation at h
  dsimp only at h
  split at h
  · rw [List.mem_singleton.mp h]
    exact ⟨rfl, rfl⟩
  · cases h

theorem mem_validateEscalation (h : w ∈ validateRosters effective id domain)
    (hcode : w.code = "domain.no_escalation") : w ∈ validateEscalation effective id domain := by
  unfold validateRosters at h
  split at h
  · cases h
  · split at h
    · rw [List.mem_singleton.mp h] at hcode
      exact absurd hcode (by simp)
    · rcases List.mem_append.mp h with h | h
      · obtain ⟨rosterId, -, hw⟩ := List.mem_filterMap.mp h
        by_cases hknown : rosterId ∈ effective.residencyGroups
        · rw [if_pos hknown] at hw
          cases hw
        · rw [if_neg hknown, Option.some.injEq] at hw
          rw [← hw] at hcode
          exact absurd hcode (by simp)
      · exact h

theorem validateEscalation_subset (hstatic : domain.liveRoster = none)
    (hrosters : domain.rosters ≠ []) :
    validateEscalation effective id domain ⊆ validateRosters effective id domain := by
  unfold validateRosters
  rw [hstatic, Option.isSome_none, if_neg Bool.false_ne_true, if_neg (by simpa using hrosters)]
  exact List.subset_append_right _ _

/-- A static domain with rosters is reported by its own check. -/
theorem warnsNoEscalation_iff_validateEscalation
    (hdomain : effective.domains.lookup id = some domain) (hstatic : domain.liveRoster = none)
    (hrosters : domain.rosters ≠ []) :
    WarnsNoEscalation effective id ↔ validateEscalation effective id domain ≠ [] := by
  constructor
  · rintro ⟨w, hw, hcode, htarget⟩
    rcases List.mem_append.mp hw with hw | hw
    · obtain ⟨e, -, hw⟩ := List.mem_flatMap.mp hw
      exact absurd hcode (code_ne_of_mem_validateRoster hw)
    · obtain ⟨e, he, hw⟩ := List.mem_flatMap.mp hw
      have hmem := mem_validateEscalation hw hcode
      have hid : e.1 = id :=
        congrArg DomainId.mk ((of_mem_validateEscalation hmem).2.symm.trans htarget)
      have hlookup := AList.mem_items.mp he
      rw [hid, hdomain, Option.some.injEq] at hlookup
      rw [hid, ← hlookup] at hmem
      exact List.ne_nil_of_mem hmem
  · intro hne
    obtain ⟨w, hw⟩ := List.exists_mem_of_ne_nil _ hne
    refine ⟨w, List.mem_append_right _ (List.mem_flatMap.mpr
      ⟨(id, domain), AList.mem_items.mpr hdomain, validateEscalation_subset hstatic hrosters hw⟩),
      of_mem_validateEscalation hw⟩

end Warnings

/-! ### Sizes and scheduling -/

/-- A request for the smallest size above the floor. -/
def escalationRequest (id : DomainId) : InferenceRequest :=
  { domainRequest id with qualityFloor := some ⟨some "10b"⟩ }

/-- Above the floor, the class of a plain size is above it for both readers. -/
theorem PlainClass.above_iff {parameterClass : String} (h : PlainClass parameterClass) :
    9 < (parameterClassValue parameterClass).toInt ↔
      ∃ b, parameterBillions parameterClass = some b ∧ escalationFloorBillions < b := by
  cases h with
  | whole c hwhole hrange =>
      have hvalue := UInt32.toNat_ofNat_of_lt' (show c.units < UInt32.size by
        unfold UInt32.size; omega)
      rw [c.toInt_parameterClassValue hrange, c.parameterBillions_text hwhole (by omega)]
      simp only [Option.some.injEq, exists_eq_left', UInt32.lt_iff_toNat_lt, hvalue]
      have hfloor : escalationFloorBillions.toNat = 9 := rfl
      omega
  | unknown hnone =>
      have hparse : parameterClassValue parameterClass = 1 := by
        unfold parameterClassValue
        rw [hnone]
        rfl
      have hbillions : parameterBillions parameterClass = none := by
        unfold parameterBillions
        rw [List.takeWhile_eq_nil_iff.mpr]
        · rfl
        · intro hlength hdigit
          have hmem := List.mem_filter.mpr ⟨List.getElem_mem hlength, hdigit⟩
          rw [hnone] at hmem
          cases hmem
      rw [hparse, hbillions]
      constructor
      · intro h
        exact absurd h (by decide)
      · rintro ⟨b, hb, -⟩
        cases hb

section Scheduling

variable {effective : AnemoiConfig} {id : DomainId} {domain : DomainConfig}
  (hdomain : effective.domains.lookup id = some domain) (hstatic : domain.liveRoster = none)

include hdomain hstatic

theorem mem_rosterModels_iff {modelId : ModelId} :
    modelId ∈ effective.rosterModels id ↔
      ∃ rosterId ∈ domain.rosters, ∃ group,
        effective.residencyGroups.lookup rosterId = some group ∧ modelId ∈ group.models := by
  rw [AnemoiConfig.rosterModels, AnemoiConfig.staticRosters_eq hdomain hstatic, List.mem_flatMap]
  refine exists_congr fun rosterId => and_congr Iff.rfl ?_
  rw [AnemoiConfig.modelsOf, AnemoiConfig.rosterReading]
  cases effective.residencyGroups.lookup rosterId with
  | none => simp
  | some group => simp

/-- The known sizes are those of the profiles of the domain's roster models. -/
theorem mem_knownBillions_iff {b : UInt32} :
    b ∈ knownBillions effective domain ↔
      ∃ modelId ∈ effective.rosterModels id, ∃ profile,
        effective.models.lookup modelId = some profile ∧
          parameterBillions profile.parameterClass = some b := by
  simp only [mem_rosterModels_iff hdomain hstatic, knownBillions, List.mem_flatMap]
  constructor
  · rintro ⟨rosterId, hroster, hb⟩
    cases hgroup : effective.residencyGroups.lookup rosterId with
    | none =>
        rw [hgroup] at hb
        cases hb
    | some group =>
        rw [hgroup] at hb
        obtain ⟨modelId, hmodel, hb⟩ := List.mem_filterMap.mp hb
        obtain ⟨profile, hprofile, hb⟩ := Option.bind_eq_some_iff.mp hb
        exact ⟨modelId, ⟨rosterId, hroster, group, hgroup, hmodel⟩, profile, hprofile, hb⟩
  · rintro ⟨modelId, ⟨rosterId, hroster, group, hgroup, hmodel⟩, profile, hprofile, hb⟩
    refine ⟨rosterId, hroster, ?_⟩
    rw [hgroup]
    exact List.mem_filterMap.mpr
      ⟨modelId, hmodel, Option.bind_eq_some_iff.mpr ⟨profile, hprofile, hb⟩⟩

/-- Nothing above the floor is served when no known size is. -/
theorem deniesEscalation_of_sizes
    (hplain : ∀ modelId ∈ effective.rosterModels id, ∀ profile,
      effective.models.lookup modelId = some profile → PlainClass profile.parameterClass)
    (hsizes : ∀ b ∈ knownBillions effective domain, b ≤ escalationFloorBillions) :
    DeniesEscalation effective id := by
  rintro request snapshots stamp decision label rfl hfloor habove hdecide
  obtain ⟨generated, hgenerated⟩ := Scheduler.generateCandidates_of_decide hdecide
  have hbelow : ∀ c ∈ generated.candidates,
      ¬c.satisfiesFloor (qualityFloorValue request) := by
    intro c hc hmeets
    rw [satisfiesFloor_iff hfloor, Int32.le_iff_toInt_le] at hmeets
    cases (Scheduler.mem_candidates_iff hgenerated).mp hc with
    | @static _ _ _ modelId profile _ _ hdomain' hlive hroster hgroup hmodel hprofile =>
        cases hdomain.symm.trans hdomain'
        have hmem := (mem_rosterModels_iff hdomain hstatic).mpr
          ⟨_, hroster, _, hgroup, hmodel⟩
        obtain ⟨b, hb, hlt⟩ := (hplain modelId hmem profile hprofile).above_iff.mp
          (lt_of_lt_of_le habove hmeets)
        have hknown := (mem_knownBillions_iff hdomain hstatic).mpr
          ⟨modelId, hmem, profile, hprofile, hb⟩
        exact UInt32.not_le.mpr hlt (hsizes b hknown)
    | live hdomain' hlive =>
        cases hdomain.symm.trans hdomain'
        rw [hstatic] at hlive
        cases hlive
  cases Scheduler.outcome_decide hgenerated hdecide with
  | denied => rfl
  | served hbest hmeets => exact absurd hmeets (hbelow _ hbest)
  | staged hstages =>
      obtain ⟨⟨hcold, -, hmeets⟩, -⟩ := hstages.candidates
      exact absurd hmeets (hbelow _ hcold)

/-- A request for ten billions, made of an idle fleet, is served by a model that is larger than
the floor and has a configured runtime. -/
theorem not_deniesEscalation_of_larger {modelId : ModelId} {profile : ModelProfileConfig}
    (hmodel : modelId ∈ effective.rosterModels id)
    (hprofile : effective.models.lookup modelId = some profile)
    (habove : 9 < (parameterClassValue profile.parameterClass).toInt)
    (hruns : ∃ runtimeId ∈ profile.supportedRuntimes, runtimeId ∈ effective.runtimes) :
    ¬DeniesEscalation effective id := by
  intro hdenies
  obtain ⟨rosterId, hroster, group, hgroup, hmem⟩ :=
    (mem_rosterModels_iff hdomain hstatic).mp hmodel
  obtain ⟨runtimeId, hruntime, hconfigured⟩ := hruns
  obtain ⟨snapshot, hsnapshot⟩ := Scheduler.exists_availableSnapshot
    (allAvailable_idleSnapshots effective runtimeId hconfigured)
  have hok : ∃ generated, (Scheduler.mk effective).generateCandidates (escalationRequest id)
      (idleSnapshots effective) = .ok generated :=
    (Scheduler.exists_generateCandidates_iff hdomain).mpr
      ⟨fun r hr => absurd (hstatic.symm.trans hr) nofun, fun _ => List.ne_nil_of_mem hroster⟩
  have hanswers : ∃ decision, (Scheduler.mk effective).decide (escalationRequest id)
      (idleSnapshots effective) Scheduler.sampleStamp = .ok decision :=
    Scheduler.exists_decide_iff.mpr hok
  obtain ⟨generated, hgenerated⟩ := hok
  obtain ⟨decision, hdecide⟩ := hanswers
  have hfloor : (parameterClassValue "10b").toInt = 10 := by decide
  have hmeets : (generateCandidate (group.intoGroup rosterId) (profile.intoProfile modelId)
      runtimeId snapshot).satisfiesFloor (qualityFloorValue (escalationRequest id)) := by
    rw [satisfiesFloor_iff rfl, Int32.le_iff_toInt_le, hfloor]
    exact habove
  have hcandidate := (Scheduler.mem_candidates_iff hgenerated).mpr
    (.static hdomain hstatic hroster hgroup hmem hprofile
      (Scheduler.contextWindowRejection_of_no_estimate rfl _) hruntime hsnapshot)
  have hdeny := hdenies (escalationRequest id) _ _ decision "10b" rfl rfl
    (by rw [hfloor]; decide) hdecide
  cases Scheduler.outcome_decide hgenerated hdecide with
  | denied hnone => exact hnone _ hcandidate hmeets
  | served hbest =>
      exact ((Scheduler.mem_candidates_iff hgenerated).mp hbest).action_ne.1 hdeny
  | staged => cases hdeny

end Scheduling

/-- The warning is reported exactly when no request above the floor can be served. -/
theorem warnsNoEscalation_iff {effective : AnemoiConfig} {id : DomainId} {domain : DomainConfig}
    (hdomain : effective.domains.lookup id = some domain) (hstatic : domain.liveRoster = none)
    (hplain : ∀ modelId ∈ effective.rosterModels id, ∀ profile,
      effective.models.lookup modelId = some profile → PlainClass profile.parameterClass)
    (hruns : ∀ modelId ∈ effective.rosterModels id, ∀ profile,
      effective.models.lookup modelId = some profile →
        ∃ runtimeId ∈ profile.supportedRuntimes, runtimeId ∈ effective.runtimes)
    (hknown : knownBillions effective domain ≠ []) :
    WarnsNoEscalation effective id ↔ DeniesEscalation effective id := by
  have hrosters : domain.rosters ≠ [] := by
    intro hempty
    rw [knownBillions, hempty] at hknown
    exact hknown rfl
  rw [warnsNoEscalation_iff_validateEscalation hdomain hstatic hrosters,
    validateEscalation_ne_nil_iff]
  constructor
  · rintro ⟨-, hsizes⟩
    exact deniesEscalation_of_sizes hdomain hstatic hplain hsizes
  · intro hdenies
    refine ⟨hknown, fun b hb => UInt32.not_lt.mp fun hlt => ?_⟩
    obtain ⟨modelId, hmodel, profile, hprofile, hbillions⟩ :=
      (mem_knownBillions_iff hdomain hstatic).mp hb
    have habove := (hplain modelId hmodel profile hprofile).above_iff.mpr ⟨b, hbillions, hlt⟩
    exact not_deniesEscalation_of_larger hdomain hstatic hmodel hprofile habove
      (hruns modelId hmodel profile hprofile) hdenies

/-- One domain whose only model has nine billion parameters. -/
def nineBillionConfig : AnemoiConfig where
  domains := .ofList [(⟨"coding"⟩, { rosters := [⟨"fast"⟩] })]
  residencyGroups := .ofList [(⟨"fast"⟩, { models := [⟨"qwen9b"⟩] })]
  models := .ofList
    [(⟨"qwen9b"⟩, { family := "qwen", parameterClass := "9b", supportedRuntimes := [⟨"a"⟩] })]
  runtimes := .ofList [(⟨"a"⟩, { adapter := "mock", baseUrl := none, authToken := none })]

theorem warnsNoEscalation_iff_nineBillion :
    WarnsNoEscalation nineBillionConfig ⟨"coding"⟩ ↔
      DeniesEscalation nineBillionConfig ⟨"coding"⟩ := by
  have honly : ∀ modelId ∈ nineBillionConfig.rosterModels ⟨"coding"⟩, ∀ profile,
      nineBillionConfig.models.lookup modelId = some profile →
        profile.parameterClass = "9b" ∧ profile.supportedRuntimes = [⟨"a"⟩] := by
    intro modelId hmodel profile hprofile
    rw [List.mem_singleton.mp hmodel] at hprofile
    cases hprofile
    exact ⟨rfl, rfl⟩
  have hdomain : nineBillionConfig.domains.lookup ⟨"coding"⟩ = some { rosters := [⟨"fast"⟩] } := rfl
  refine warnsNoEscalation_iff hdomain rfl ?_ ?_ (by decide)
  · intro modelId hmodel profile hprofile
    rw [(honly modelId hmodel profile hprofile).1]
    exact .whole ⟨"9".toList, [], by decide, List.all_eq_true.mp rfl,
      fun c hc => absurd hc List.not_mem_nil⟩ rfl (by decide)
  · intro modelId hmodel profile hprofile
    rw [(honly modelId hmodel profile hprofile).2]
    exact ⟨⟨"a"⟩, List.mem_singleton_self _, by decide⟩

end Anemoi
