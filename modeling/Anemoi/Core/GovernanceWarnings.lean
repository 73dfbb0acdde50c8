import Anemoi.Core.Governance

/-!
# Governance warnings

The effective configuration may be served although a domain has little to offer.
`validateGovernance` reports that as advisory warnings: empty or unknown rosters,
roster models without a profile, and domains without a model above the escalation
floor. `noWarnings_iff` says what a configuration without warnings satisfies.
-/

namespace Anemoi

structure GovernanceWarning where
  code : String
  target : String
  detail : String
  deriving DecidableEq, Repr

/-- A domain whose largest model has at most this size cannot escalate. -/
def escalationFloorBillions : UInt32 := 9

/-- `str::parse::<u32>` on a string of ASCII digits: it fails beyond the range. -/
def parseU32 (digits : List Char) : Option UInt32 :=
  if decimalValue digits < UInt32.size then some (UInt32.ofNat (decimalValue digits)) else none

/-- The billions of parameters that a class like `35b` stands for. -/
def parameterBillions (parameterClass : String) : Option UInt32 :=
  let digits := parameterClass.toList.takeWhile Char.isDigit
  if digits.isEmpty then none else parseU32 digits

def validateRoster (effective : AnemoiConfig) (id : ResidencyGroupId)
    (group : ResidencyGroupConfig) : List GovernanceWarning :=
  (if group.models.isEmpty then
    [{ code := "roster.empty"
       target := toString id
       detail := s!"residency group {id} has no models; it can produce no candidates" }]
  else []) ++
  group.models.filterMap fun model =>
    if model ∈ effective.models then none
    else
      some
        { code := "model.missing_profile"
          target := toString model
          detail := s!"model {model} in residency group {id} has no profile; policy will " ++
            "reject it as a candidate" }

/-- The known sizes of a domain's roster models, in the order of the rosters. -/
def knownBillions (effective : AnemoiConfig) (domain : DomainConfig) : List UInt32 :=
  domain.rosters.flatMap fun rosterId =>
    match effective.residencyGroups.lookup rosterId with
    | none => []
    | some group => group.models.filterMap fun model =>
        (effective.models.lookup model).bind fun profile =>
          parameterBillions profile.parameterClass

/-- The largest of the sizes, if there is any. -/
def largestBillions (sizes : List UInt32) : Option UInt32 :=
  sizes.foldl (fun largest billions => some (largest.elim billions fun cur => max cur billions))
    none

def validateEscalation (effective : AnemoiConfig) (domainId : DomainId)
    (domain : DomainConfig) : List GovernanceWarning :=
  let sizes := knownBillions effective domain
  let largest := largestBillions sizes
  if !sizes.isEmpty && largest.any (· ≤ escalationFloorBillions) then
    [{ code := "domain.no_escalation"
       target := toString domainId
       detail := s!"domain {domainId} cannot escalate beyond {escalationFloorBillions}B: its " ++
         s!"largest roster model is {largest.getD 0}B; add a larger model to enable escalation" }]
  else []

/-- The checks of one domain; those of its rosters do not apply to a live domain. -/
def validateRosters (effective : AnemoiConfig) (domainId : DomainId)
    (domain : DomainConfig) : List GovernanceWarning :=
  if domain.liveRoster.isSome then []
  else if domain.rosters.isEmpty then
    [{ code := "domain.no_roster"
       target := toString domainId
       detail := s!"domain {domainId} has no rosters and no live_roster; it can produce no " ++
         "candidates" }]
  else
    (domain.rosters.filterMap fun rosterId =>
      if rosterId ∈ effective.residencyGroups then none
      else
        some
          { code := "domain.unknown_roster"
            target := toString domainId
            detail := s!"domain {domainId} references residency group {rosterId}, which is " ++
              "not defined" }) ++
    validateEscalation effective domainId domain

/-- All warnings, in the iteration order of the two maps. -/
def validateGovernance (effective : AnemoiConfig) : List GovernanceWarning :=
  effective.residencyGroups.items.flatMap (fun e => validateRoster effective e.1 e.2) ++
  effective.domains.items.flatMap (fun e => validateRosters effective e.1 e.2)

/-! ### What a configuration without warnings satisfies -/

theorem validateRosters_eq_nil_iff {effective : AnemoiConfig} {domainId : DomainId}
    {domain : DomainConfig} (hstatic : domain.liveRoster = none) :
    validateRosters effective domainId domain = [] ↔
      domain.rosters ≠ [] ∧
        (∀ rosterId ∈ domain.rosters, rosterId ∈ effective.residencyGroups) ∧
        validateEscalation effective domainId domain = [] := by
  unfold validateRosters
  rw [hstatic, Option.isSome_none, if_neg Bool.false_ne_true]
  by_cases hempty : domain.rosters = []
  · simp [hempty]
  · rw [if_neg (by simpa using hempty), List.append_eq_nil_iff, List.filterMap_eq_nil_iff]
    simp only [ite_eq_left_iff, reduceCtorEq, imp_false, not_not, hempty, ne_eq,
      not_false_eq_true, true_and]

/-- A configuration has no warnings when none of its groups and domains has. -/
theorem validateGovernance_eq_nil_iff {effective : AnemoiConfig} :
    validateGovernance effective = [] ↔
      (∀ id group, effective.residencyGroups.lookup id = some group →
        validateRoster effective id group = []) ∧
      ∀ id domain, effective.domains.lookup id = some domain →
        validateRosters effective id domain = [] := by
  rw [validateGovernance, List.append_eq_nil_iff, List.flatMap_eq_nil_iff,
    List.flatMap_eq_nil_iff]
  constructor
  · rintro ⟨hgroups, hdomains⟩
    exact ⟨fun id group h => hgroups (id, group) (AList.mem_items.mpr h),
      fun id domain h => hdomains (id, domain) (AList.mem_items.mpr h)⟩
  · rintro ⟨hgroups, hdomains⟩
    exact ⟨fun e he => hgroups e.1 e.2 (AList.mem_items.mp he),
      fun e he => hdomains e.1 e.2 (AList.mem_items.mp he)⟩

end Anemoi
