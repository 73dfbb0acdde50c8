import Anemoi.Daemon.Governance

/-!
# Governance edits

The operator's edits: rosters are created, patched and deleted, models are added to
and removed from them, domains are reassigned, and profile fields are set. Each is an
`Edit`, the closure that the handler gives to `Governance.mutate`.
-/

namespace Anemoi

/-- The effective roster `id` as an editable override: an operator override wins, a
removed roster is none, else the baseline group. -/
def currentRoster (overrides : GovernanceOverrides) (baseline : AnemoiConfig)
    (id : ResidencyGroupId) : Option RosterOverride :=
  match overrides.residencyGroups.lookup id with
  | some roster => some roster
  | none =>
      if id ∈ overrides.removedResidencyGroups then none
      else (baseline.residencyGroups.lookup id).map RosterOverride.fromConfig

/-! ### Requests -/

structure CreateRosterRequest where
  id : String
  purpose : List String := []
  models : List String := []
  keepHot : Bool := false
  allowBackgroundLoad : Bool := false
  pinned : Bool := false
  deriving DecidableEq, Repr

structure PatchRosterRequest where
  purpose : Option (List String) := none
  models : Option (List String) := none
  keepHot : Option Bool := none
  allowBackgroundLoad : Option Bool := none
  pinned : Option Bool := none
  deriving DecidableEq, Repr

/-! ### Edits -/

namespace GovernanceOverrides

/-- Store a roster; it is no longer removed. -/
def putRoster (overrides : GovernanceOverrides) (id : ResidencyGroupId)
    (roster : RosterOverride) : GovernanceOverrides :=
  { overrides with
    removedResidencyGroups := overrides.removedResidencyGroups.erase id
    residencyGroups := overrides.residencyGroups.insert id roster }

/-- Drop a roster and remember that it was removed. -/
def dropRoster (overrides : GovernanceOverrides) (id : ResidencyGroupId) :
    GovernanceOverrides :=
  { overrides with
    residencyGroups := overrides.residencyGroups.erase id
    removedResidencyGroups := overrides.removedResidencyGroups.insert id () }

end GovernanceOverrides

/-- Change an existing roster. -/
def editRoster (id : ResidencyGroupId) (change : RosterOverride → RosterOverride) : Edit :=
  fun overrides baseline =>
    match currentRoster overrides baseline id with
    | none => .error (.notFound s!"roster {id}")
    | some roster => .ok (overrides.putRoster id (change roster))

def createRoster (req : CreateRosterRequest) : Edit := fun overrides baseline =>
  let id : ResidencyGroupId := ⟨req.id⟩
  if (currentRoster overrides baseline id).isSome then
    .error (.conflict s!"roster {req.id} already exists")
  else
    .ok (overrides.putRoster id
      { purpose := req.purpose
        models := req.models.map ModelId.mk
        keepHot := req.keepHot
        allowBackgroundLoad := req.allowBackgroundLoad
        pinned := req.pinned })

def patchRoster (id : String) (req : PatchRosterRequest) : Edit :=
  editRoster ⟨id⟩ fun roster =>
    { purpose := req.purpose.getD roster.purpose
      models := (req.models.map fun models => models.map ModelId.mk).getD roster.models
      keepHot := req.keepHot.getD roster.keepHot
      allowBackgroundLoad := req.allowBackgroundLoad.getD roster.allowBackgroundLoad
      pinned := req.pinned.getD roster.pinned }

/-- The rosters of a domain in the effective configuration. -/
def effectiveRosters (overrides : GovernanceOverrides) (domainId : DomainId)
    (domain : DomainConfig) : List ResidencyGroupId :=
  (overrides.domainRosters.lookup domainId).getD domain.rosters

/-- A roster that some domain still uses cannot be deleted. -/
def deleteRoster (id : String) : Edit := fun overrides baseline =>
  let id : ResidencyGroupId := ⟨id⟩
  if (currentRoster overrides baseline id).isNone then .error (.notFound s!"roster {id}")
  else
    let referencing := baseline.domains.items.filter fun e =>
      (effectiveRosters overrides e.1 e.2).contains id
    if !referencing.isEmpty then
      let domains := ", ".intercalate (referencing.map fun e => e.1.text)
      .error (.conflict s!"roster {id} is still assigned to domain(s): {domains}")
    else .ok (overrides.dropRoster id)

def addRosterModel (id modelId : String) : Edit :=
  editRoster ⟨id⟩ fun roster =>
    if roster.models.contains ⟨modelId⟩ then roster
    else { roster with models := roster.models ++ [⟨modelId⟩] }

def removeRosterModel (id modelId : String) : Edit :=
  editRoster ⟨id⟩ fun roster =>
    { roster with models := roster.models.filter fun m => m != ⟨modelId⟩ }

/-- A domain without a live roster keeps at least one roster, and every roster it gets
is defined. -/
def patchDomainRosters (id : String) (rosters : List String) : Edit :=
  fun overrides baseline =>
    let domainId : DomainId := ⟨id⟩
    match baseline.domains.lookup domainId with
    | none => .error (.notFound s!"domain {domainId}")
    | some domain =>
        if rosters.isEmpty && domain.liveRoster.isNone then
          .error (.invalid (s!"domain {domainId} would have no rosters and no live_roster; " ++
            "assign at least one roster"))
        else
          let rosters := rosters.map ResidencyGroupId.mk
          match rosters.find? fun r => (currentRoster overrides baseline r).isNone with
          | some r =>
              .error (.invalid
                s!"roster {r} is not defined; create it before assigning it")
          | none =>
              .ok { overrides with
                domainRosters := overrides.domainRosters.insert domainId rosters }

/-- Set the operator's profile of a model, or clear it when no field is set. -/
def setModelProfile (modelId : String) (req : ModelProfileOverride) : Edit :=
  fun overrides _ =>
    if req.isEmpty then
      .ok { overrides with modelProfiles := overrides.modelProfiles.erase ⟨modelId⟩ }
    else
      .ok { overrides with modelProfiles := overrides.modelProfiles.insert ⟨modelId⟩ req }

/-- A governance request, as the handlers receive it. -/
inductive EditRequest where
  | createRoster (req : CreateRosterRequest)
  | patchRoster (id : String) (req : PatchRosterRequest)
  | deleteRoster (id : String)
  | addRosterModel (id modelId : String)
  | removeRosterModel (id modelId : String)
  | patchDomainRosters (id : String) (rosters : List String)
  | setModelProfile (modelId : String) (req : ModelProfileOverride)
  deriving DecidableEq, Repr

/-- The closure that a request's handler gives to `mutate`. -/
def EditRequest.edit : EditRequest → Edit
  | createRoster req => Anemoi.createRoster req
  | patchRoster id req => Anemoi.patchRoster id req
  | deleteRoster id => Anemoi.deleteRoster id
  | addRosterModel id modelId => Anemoi.addRosterModel id modelId
  | removeRosterModel id modelId => Anemoi.removeRosterModel id modelId
  | patchDomainRosters id rosters => Anemoi.patchDomainRosters id rosters
  | setModelProfile modelId req => Anemoi.setModelProfile modelId req

/-- One edit request against the holder and the disk, with the file operations that
fail on the way. -/
def editStep (toJson : GovernanceOverrides → Except String String)
    (s : Governance × Disk) (i : EditRequest × FailurePattern) :
    Except GovernanceError Unit × (Governance × Disk) :=
  let o := (s.1.mutate toJson i.1.edit).run i.2.handle ⟨s.2, 0⟩
  (o.result.1, (o.result.2, o.state.disk))

end Anemoi
