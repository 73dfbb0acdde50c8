import Anemoi.Core.GovernanceWarnings
import Anemoi.Core.Merging
import Anemoi.Daemon.Integrity
import Anemoi.Systems.Refinement

/-!
# The policy API

Operators read and edit rosters, domains and profiles over HTTP. The daemon keeps their edits
as overrides of a baseline: rosters that replace the baseline's, rosters that are removed,
rosters assigned to domains, and profile fields. `PolicyStore` is what this stands for: one
configuration, which the edits change in place.

`refines_policyStore` says that it does. In every interleaving of the handlers, whatever fails
while overrides are written to disk, each handler is answered as by the one configuration, so
that it returns the same response, and what the scheduler is given is that configuration.
-/

namespace Anemoi

open Systems

/-! ### Views -/

/-- Where the metadata of a profile comes from. -/
inductive MetadataSource where
  | runtime
  | inferred
  | operatorOverride
  | config
  deriving DecidableEq, Repr

structure RosterView where
  id : String
  purpose : List String
  models : List String
  keepHot : Bool
  allowBackgroundLoad : Bool
  pinned : Bool
  modelCount : ℕ
  usedByDomains : List String
  deriving DecidableEq, Repr

def rosterView (id : ResidencyGroupId) (group : ResidencyGroupConfig) (config : AnemoiConfig) :
    RosterView where
  id := id.text
  purpose := group.purpose
  models := group.models.map ModelId.text
  keepHot := group.keepHot
  allowBackgroundLoad := group.allowBackgroundLoad
  pinned := group.pinned
  modelCount := group.models.length
  usedByDomains :=
    (config.domains.items.filter fun e => e.2.rosters.contains id).map fun e => e.1.text

structure DomainView where
  id : String
  rosters : List String
  liveRoster : Option String
  deriving DecidableEq, Repr

def domainView (id : DomainId) (config : AnemoiConfig) : Option DomainView :=
  (config.domains.lookup id).map fun domain =>
    { id := id.text
      rosters := domain.rosters.map ResidencyGroupId.text
      liveRoster := domain.liveRoster.map RuntimeId.text }

structure ModelProfileView where
  modelId : String
  family : String
  parameterClass : String
  contextWindow : Option UInt32
  vramRequiredMb : Option UInt64
  ramRequiredMb : Option UInt64
  coldLoadEstimateMs : Option UInt64
  supportsStreaming : Option Bool
  supportedRuntimes : List String
  metadataSource : MetadataSource
  deriving DecidableEq, Repr

/-- A model without a profile is shown with what its id tells. -/
def modelProfileView (model : ModelId) (profile : Option ModelProfileConfig)
    (metadataSource : MetadataSource) : ModelProfileView :=
  let inferred := inferFamilyAndClass model.text
  { modelId := model.text
    family := (profile.map (·.family)).getD inferred.1
    parameterClass := (profile.map (·.parameterClass)).getD inferred.2
    contextWindow := profile.bind (·.contextWindow)
    vramRequiredMb := profile.bind (·.vramRequiredMb)
    ramRequiredMb := profile.bind (·.ramRequiredMb)
    coldLoadEstimateMs := profile.bind (·.coldLoadEstimateMs)
    supportsStreaming := profile.bind (·.supportsStreaming)
    supportedRuntimes :=
      (profile.map fun p => p.supportedRuntimes.map RuntimeId.text).getD []
    metadataSource }

/-! ### Requests and responses -/

inductive PolicyRequest where
  | listRosters
  | getRoster (id : String)
  | createRoster (req : CreateRosterRequest)
  | patchRoster (id : String) (req : PatchRosterRequest)
  | deleteRoster (id : String)
  | addRosterModel (id modelId : String)
  | removeRosterModel (id modelId : String)
  | listDomains
  | patchDomainRosters (id : String) (rosters : List String)
  | setModelProfile (modelId : String) (req : ModelProfileOverride)
  | effectiveConfig
  | validatePolicy

inductive PolicyBody where
  | error (error : String)
  | roster (view : RosterView)
  | rosters (rosters : List RosterView) (count : ℕ)
  | deleted (id : String)
  | domain (view : DomainView)
  | domains (domains : List DomainView) (count : ℕ)
  | profile (view : ModelProfileView)
  | config (config : AnemoiConfig)
  | validation (ok : Bool) (warnings : List GovernanceWarning) (count : ℕ)

structure PolicyResponse where
  status : ℕ
  body : PolicyBody

def governanceErrorResponse (err : GovernanceError) : PolicyResponse where
  status :=
    match err with
    | .notFound _ => 404
    | .conflict _ => 409
    | .invalid _ => 400
    | .persist _ => 500
  body := .error (toString err)

/-! ### Handlers -/

/-- What a handler does under a lock of the governance holder: it edits the overrides, or it
reads the configuration in force, or which profiles the overrides have. -/
inductive PolicyCmd where
  | mutate (request : EditRequest)
  | effective
  | overridesProfile (model : ModelId)
  deriving DecidableEq

@[reducible] def PolicyCmd.Resp : PolicyCmd → Type
  | mutate _ => Except GovernanceError Unit
  | effective => AnemoiConfig
  | overridesProfile _ => Bool

abbrev PolicyHandler := Program PolicyCmd PolicyCmd.Resp

namespace PolicyHandler

def mutate (request : EditRequest) : PolicyHandler (Except GovernanceError Unit) :=
  Program.perform (PolicyCmd.mutate request)

def effective : PolicyHandler AnemoiConfig := Program.perform PolicyCmd.effective

def overridesProfile (model : ModelId) : PolicyHandler Bool :=
  Program.perform (PolicyCmd.overridesProfile model)

/-- The roster as it is in force. -/
def rosterResponse (id : ResidencyGroupId) (status : ℕ) : PolicyHandler PolicyResponse := do
  let config ← effective
  match config.residencyGroups.lookup id with
  | some group => return ⟨status, .roster (rosterView id group config)⟩
  | none => return ⟨404, .error s!"roster {id} not found"⟩

/-- Edit, and show the roster afterwards. -/
def editRoster (request : EditRequest) (id : ResidencyGroupId) (status : ℕ) :
    PolicyHandler PolicyResponse := do
  match ← mutate request with
  | .ok () => rosterResponse id status
  | .error err => return governanceErrorResponse err

def listRosters : PolicyHandler PolicyResponse := do
  let config ← effective
  let rosters := (config.residencyGroups.items.map fun e => rosterView e.1 e.2 config).insertionSort
    fun a b => a.id ≤ b.id
  return ⟨200, .rosters rosters rosters.length⟩

def getRoster (id : String) : PolicyHandler PolicyResponse :=
  rosterResponse ⟨id⟩ 200

def createRoster (req : CreateRosterRequest) : PolicyHandler PolicyResponse :=
  editRoster (.createRoster req) ⟨req.id⟩ 201

def patchRoster (id : String) (req : PatchRosterRequest) : PolicyHandler PolicyResponse :=
  editRoster (.patchRoster id req) ⟨id⟩ 200

def deleteRoster (id : String) : PolicyHandler PolicyResponse := do
  match ← mutate (.deleteRoster id) with
  | .ok () => return ⟨200, .deleted id⟩
  | .error err => return governanceErrorResponse err

def addRosterModel (id modelId : String) : PolicyHandler PolicyResponse :=
  editRoster (.addRosterModel id modelId) ⟨id⟩ 200

def removeRosterModel (id modelId : String) : PolicyHandler PolicyResponse :=
  editRoster (.removeRosterModel id modelId) ⟨id⟩ 200

def listDomains : PolicyHandler PolicyResponse := do
  let config ← effective
  let domains := (config.domains.keys.filterMap fun id => domainView id config).insertionSort
    fun a b => a.id ≤ b.id
  return ⟨200, .domains domains domains.length⟩

def patchDomainRosters (id : String) (rosters : List String) : PolicyHandler PolicyResponse := do
  match ← mutate (.patchDomainRosters id rosters) with
  | .error err => return governanceErrorResponse err
  | .ok () =>
      let config ← effective
      match domainView ⟨id⟩ config with
      | some view => return ⟨200, .domain view⟩
      | none => return governanceErrorResponse (.notFound s!"domain {id}")

/-- The profile and its source are read one after the other. -/
def setModelProfile (baseline : AnemoiConfig) (modelId : String) (req : ModelProfileOverride) :
    PolicyHandler PolicyResponse := do
  match ← mutate (.setModelProfile modelId req) with
  | .error err => return governanceErrorResponse err
  | .ok () =>
      let config ← effective
      let overridden ← overridesProfile ⟨modelId⟩
      let source : MetadataSource :=
        if overridden then .operatorOverride
        else if ⟨modelId⟩ ∈ baseline.models then .config
        else .inferred
      return ⟨200, .profile (modelProfileView ⟨modelId⟩ (config.models.lookup ⟨modelId⟩) source)⟩

/-- Tokens are never shown. -/
def redactTokens (config : AnemoiConfig) : AnemoiConfig :=
  { config with
    runtimes := config.runtimes.mapItems fun _ runtime =>
      { runtime with authToken := runtime.authToken.map fun _ => "<redacted>" } }

def effectiveConfig : PolicyHandler PolicyResponse := do
  let config ← effective
  return ⟨200, .config (redactTokens config)⟩

def validatePolicy : PolicyHandler PolicyResponse := do
  let config ← effective
  let warnings := validateGovernance config
  return ⟨200, .validation warnings.isEmpty warnings warnings.length⟩

/-- The handler of a request. -/
def serve (baseline : AnemoiConfig) : PolicyRequest → PolicyHandler PolicyResponse
  | .listRosters => listRosters
  | .getRoster id => getRoster id
  | .createRoster req => createRoster req
  | .patchRoster id req => patchRoster id req
  | .deleteRoster id => deleteRoster id
  | .addRosterModel id modelId => addRosterModel id modelId
  | .removeRosterModel id modelId => removeRosterModel id modelId
  | .listDomains => listDomains
  | .patchDomainRosters id rosters => patchDomainRosters id rosters
  | .setModelProfile modelId req => setModelProfile baseline modelId req
  | .effectiveConfig => effectiveConfig
  | .validatePolicy => validatePolicy

end PolicyHandler

/-! ### The daemon -/

/-- The holder and its disk; the clock counts the commands. -/
structure PolicyWorld where
  governance : Governance
  disk : Disk
  clock : ℕ

/-- The holder answers; what fails on disk may be different at every command. -/
def handlePolicy (toJson : GovernanceOverrides → Except String String)
    (env : ℕ → FailurePattern) : Program.Handler PolicyCmd.Resp PolicyWorld := fun w c =>
  let pattern := env w.clock
  let w := { w with clock := w.clock + 1 }
  match c with
  | .mutate request =>
      let edited := editStep toJson (w.governance, w.disk) (request, pattern)
      (edited.1, { w with governance := edited.2.1, disk := edited.2.2 })
  | .effective => (w.governance.effective.config, w)
  | .overridesProfile model => (model ∈ w.governance.overrides.modelProfiles, w)

/-! ### One configuration -/

/-- A configuration, and the models whose profile the operator has set. -/
structure PolicyStore where
  config : AnemoiConfig
  operatorSet : ModelId → Bool

namespace PolicyStore

def putGroup (store : PolicyStore) (id : ResidencyGroupId) (group : ResidencyGroupConfig) :
    PolicyStore :=
  { store with config.residencyGroups := store.config.residencyGroups.insert id group }

def editGroup (store : PolicyStore) (id : String)
    (change : ResidencyGroupConfig → ResidencyGroupConfig) : Except GovernanceError PolicyStore :=
  match store.config.residencyGroups.lookup ⟨id⟩ with
  | none => .error (.notFound s!"roster {id}")
  | some group => .ok (store.putGroup ⟨id⟩ (change group))

/-- What an edit does to the configuration. The baseline's profile of a model comes back when
its override is cleared, and is what an override is merged onto. -/
def edit (baseline : AnemoiConfig) (store : PolicyStore) :
    EditRequest → Except GovernanceError PolicyStore
  | .createRoster req =>
      if ⟨req.id⟩ ∈ store.config.residencyGroups then
        .error (.conflict s!"roster {req.id} already exists")
      else
        .ok (store.putGroup ⟨req.id⟩
          { purpose := req.purpose
            models := req.models.map ModelId.mk
            keepHot := req.keepHot
            allowBackgroundLoad := req.allowBackgroundLoad
            pinned := req.pinned })
  | .patchRoster id req =>
      store.editGroup id fun group =>
        { purpose := req.purpose.getD group.purpose
          models := (req.models.map fun models => models.map ModelId.mk).getD group.models
          keepHot := req.keepHot.getD group.keepHot
          allowBackgroundLoad := req.allowBackgroundLoad.getD group.allowBackgroundLoad
          pinned := req.pinned.getD group.pinned }
  | .deleteRoster id =>
      if ⟨id⟩ ∉ store.config.residencyGroups then .error (.notFound s!"roster {id}")
      else
        let referencing := store.config.domains.items.filter fun e => e.2.rosters.contains ⟨id⟩
        if !referencing.isEmpty then
          let domains := ", ".intercalate (referencing.map fun e => e.1.text)
          .error (.conflict s!"roster {id} is still assigned to domain(s): {domains}")
        else .ok { store with config.residencyGroups := store.config.residencyGroups.erase ⟨id⟩ }
  | .addRosterModel id modelId =>
      store.editGroup id fun group =>
        if group.models.contains ⟨modelId⟩ then group
        else { group with models := group.models ++ [⟨modelId⟩] }
  | .removeRosterModel id modelId =>
      store.editGroup id fun group =>
        { group with models := group.models.filter fun m => m != ⟨modelId⟩ }
  | .patchDomainRosters id rosters =>
      match store.config.domains.lookup ⟨id⟩ with
      | none => .error (.notFound s!"domain {id}")
      | some domain =>
          if rosters.isEmpty && domain.liveRoster.isNone then
            .error (.invalid (s!"domain {id} would have no rosters and no live_roster; " ++
              "assign at least one roster"))
          else
            let rosters := rosters.map ResidencyGroupId.mk
            match rosters.find? fun r => r ∉ store.config.residencyGroups with
            | some r =>
                .error (.invalid s!"roster {r} is not defined; create it before assigning it")
            | none =>
                .ok { store with
                  config.domains := store.config.domains.insert ⟨id⟩ { domain with rosters } }
  | .setModelProfile modelId req =>
      let base := baseline.models.lookup ⟨modelId⟩
      let profile := if req.isEmpty then base else some (mergeProfile ⟨modelId⟩ base req)
      .ok
        { config := { store.config with models := store.config.models.set ⟨modelId⟩ profile }
          operatorSet := Function.update store.operatorSet ⟨modelId⟩ !req.isEmpty }

end PolicyStore

/-- The answers of the one configuration. Its tables are listed in any order, and an edit that
is not refused may fail to be stored. -/
inductive AnswersOf (baseline : AnemoiConfig) : Pool.CmdSpec PolicyStore PolicyCmd.Resp
  | accepted {store new : PolicyStore} {listing : AnemoiConfig} {request : EditRequest}
      (same : listing.Same store.config)
      (edit : PolicyStore.edit baseline { store with config := listing } request = .ok new) :
      AnswersOf baseline store (.mutate request) (.ok ()) new
  | rejected {store : PolicyStore} {listing : AnemoiConfig} {request : EditRequest}
      {err : GovernanceError} (same : listing.Same store.config)
      (edit : PolicyStore.edit baseline { store with config := listing } request = .error err) :
      AnswersOf baseline store (.mutate request) (.error err) store
  | unpersisted {store new : PolicyStore} {listing : AnemoiConfig} {request : EditRequest}
      {e : String} (same : listing.Same store.config)
      (edit : PolicyStore.edit baseline { store with config := listing } request = .ok new) :
      AnswersOf baseline store (.mutate request) (.error (.persist e)) store
  | effective {store : PolicyStore} {listing : AnemoiConfig} (same : listing.Same store.config) :
      AnswersOf baseline store .effective listing store
  | overridesProfile {store : PolicyStore} {model : ModelId} :
      AnswersOf baseline store (.overridesProfile model) (store.operatorSet model) store

/-! ### Edits of the overrides and of the configuration -/

section Edits

variable {baseline : AnemoiConfig} {o : GovernanceOverrides}

/-- The configuration in force, with the domains in the order of the baseline. -/
def listingOf (baseline : AnemoiConfig) (o : GovernanceOverrides) : AnemoiConfig :=
  { applyOverrides baseline o with
    domains := baseline.domains.mapItems fun id domain =>
      { domain with rosters := effectiveRosters o id domain } }

theorem lookup_domains_listingOf (id : DomainId) :
    (listingOf baseline o).domains.lookup id =
      (baseline.domains.lookup id).map fun domain =>
        { domain with rosters := effectiveRosters o id domain } :=
  AList.lookup_mapItems ..

theorem same_listingOf (baseline : AnemoiConfig) (o : GovernanceOverrides) :
    (listingOf baseline o).Same (applyOverrides baseline o) where
  domains id := (lookup_domains_listingOf id).trans (applyOverrides.lookup_domains ..).symm
  residencyGroups _ := rfl
  models _ := rfl
  runtimes _ := rfl
  continuity := rfl

/-- An edit of the overrides and one of the configuration are refused alike, or they lead to
overrides that stand for the configuration. -/
inductive Agrees (baseline : AnemoiConfig) :
    Except GovernanceError GovernanceOverrides → Except GovernanceError PolicyStore → Prop
  | refused (err : GovernanceError) : Agrees baseline (.error err) (.error err)
  | accepted {o : GovernanceOverrides} {store : PolicyStore}
      (same : (applyOverrides baseline o).Same store.config)
      (operatorSet : ∀ model, store.operatorSet model = decide (model ∈ o.modelProfiles)) :
      Agrees baseline (.ok o) (.ok store)

/-- The rosters of the configuration are those that an edit of the overrides sees. -/
theorem lookup_residencyGroups_listingOf (hdisjoint : o.Disjoint) (id : ResidencyGroupId) :
    (listingOf baseline o).residencyGroups.lookup id =
      (currentRoster o baseline id).map RosterOverride.intoConfig :=
  (hdisjoint.currentRoster_eq baseline id).symm

theorem mem_residencyGroups_listingOf (hdisjoint : o.Disjoint) (id : ResidencyGroupId) :
    id ∈ (listingOf baseline o).residencyGroups ↔ (currentRoster o baseline id).isSome = true := by
  rw [← AList.lookup_isSome, lookup_residencyGroups_listingOf hdisjoint, Option.isSome_map]

variable {operatorSet : ModelId → Bool}
  (hset : ∀ model, operatorSet model = decide (model ∈ o.modelProfiles))

include hset

theorem agrees_putRoster (id : ResidencyGroupId) (roster : RosterOverride) :
    Agrees baseline (.ok (o.putRoster id roster))
      (.ok (PolicyStore.putGroup ⟨listingOf baseline o, operatorSet⟩ id roster.intoConfig)) := by
  refine .accepted ⟨(same_listingOf baseline o).symm.domains, fun k => ?_, fun _ => rfl,
    fun _ => rfl, rfl⟩ hset
  change _ = ((applyOverrides baseline o).residencyGroups.insert id roster.intoConfig).lookup k
  rw [AList.lookup_insert_eq_ite, applyOverrides.lookup_residencyGroups,
    applyOverrides.lookup_residencyGroups, GovernanceOverrides.putRoster,
    AList.lookup_insert_eq_ite]
  by_cases hk : k = id
  · rw [if_pos hk, if_pos hk, if_neg fun h => (AList.mem_erase.mp h).1 hk]
    rfl
  · simp only [hk, if_false, AList.mem_erase, ne_eq, not_false_eq_true, true_and]

theorem agrees_dropRoster (id : ResidencyGroupId) :
    Agrees baseline (.ok (o.dropRoster id))
      (.ok ⟨{ listingOf baseline o with
        residencyGroups := (listingOf baseline o).residencyGroups.erase id }, operatorSet⟩) := by
  refine .accepted ⟨(same_listingOf baseline o).symm.domains, fun k => ?_, fun _ => rfl,
    fun _ => rfl, rfl⟩ hset
  change _ = ((applyOverrides baseline o).residencyGroups.erase id).lookup k
  rw [AList.lookup_erase_eq_ite, applyOverrides.lookup_residencyGroups,
    applyOverrides.lookup_residencyGroups, GovernanceOverrides.dropRoster,
    AList.lookup_erase_eq_ite]
  by_cases hk : k = id
  · rw [if_pos hk, if_pos ((AList.mem_insert _).mpr (.inl hk)), if_pos hk]
  · simp only [hk, if_false, AList.mem_insert, false_or]

theorem agrees_assign {id : DomainId} {domain : DomainConfig}
    (hdomain : baseline.domains.lookup id = some domain) (rosters : List ResidencyGroupId) :
    Agrees baseline (.ok { o with domainRosters := o.domainRosters.insert id rosters })
      (.ok ⟨{ listingOf baseline o with
        domains := (listingOf baseline o).domains.insert id { domain with rosters } },
        operatorSet⟩) := by
  refine .accepted ⟨fun k => ?_, fun _ => rfl, fun _ => rfl, fun _ => rfl, rfl⟩ hset
  rw [applyOverrides.lookup_domains, AList.lookup_insert_eq_ite, AList.lookup_insert_eq_ite,
    lookup_domains_listingOf]
  by_cases hk : k = id
  · rw [if_pos hk, if_pos hk, hk, hdomain]
    rfl
  · rw [if_neg hk, if_neg hk]
    rfl

theorem agrees_setProfile (id : ModelId) (override : Option ModelProfileOverride) :
    Agrees baseline (.ok { o with modelProfiles := o.modelProfiles.set id override })
      (.ok ⟨{ listingOf baseline o with
        models := (listingOf baseline o).models.set id
          (override.elim (baseline.models.lookup id) fun req =>
            some (mergeProfile id (baseline.models.lookup id) req)) },
        Function.update operatorSet id override.isSome⟩) := by
  refine .accepted ⟨(same_listingOf baseline o).symm.domains, fun _ => rfl, fun k => ?_,
    fun _ => rfl, rfl⟩ fun k => ?_
  · rw [applyOverrides.lookup_models, AList.lookup_set, AList.lookup_set]
    by_cases hk : k = id
    · rw [if_pos hk, if_pos hk, hk]
      cases override <;> rfl
    · rw [if_neg hk, if_neg hk, (same_listingOf baseline o).models, applyOverrides.lookup_models]
  · change Function.update operatorSet id override.isSome k = _
    rw [Function.update_apply, AList.decide_mem, AList.lookup_set, hset, AList.decide_mem]
    exact (apply_ite Option.isSome ..).symm

theorem agrees_editRoster (hdisjoint : o.Disjoint) (id : String)
    {change : RosterOverride → RosterOverride}
    {change' : ResidencyGroupConfig → ResidencyGroupConfig}
    (hchange : ∀ roster, change' (RosterOverride.intoConfig roster) = (change roster).intoConfig) :
    Agrees baseline (Anemoi.editRoster ⟨id⟩ change o baseline)
      (PolicyStore.editGroup ⟨listingOf baseline o, operatorSet⟩ id change') := by
  unfold Anemoi.editRoster PolicyStore.editGroup
  rw [lookup_residencyGroups_listingOf hdisjoint]
  cases currentRoster o baseline ⟨id⟩ with
  | none => exact .refused _
  | some roster =>
      simp only [Option.map_some, hchange]
      exact agrees_putRoster hset ⟨id⟩ (change roster)

theorem agrees_deleteRoster (hdisjoint : o.Disjoint) (id : String) :
    Agrees baseline (Anemoi.deleteRoster id o baseline)
      (PolicyStore.edit baseline ⟨listingOf baseline o, operatorSet⟩ (.deleteRoster id)) := by
  have hreferencing : ((listingOf baseline o).domains.items.filter fun e =>
        e.2.rosters.contains ⟨id⟩) =
      (baseline.domains.items.filter fun e =>
        (effectiveRosters o e.1 e.2).contains ⟨id⟩).map fun e =>
          (e.1, { e.2 with rosters := effectiveRosters o e.1 e.2 }) := by
    rw [listingOf, AList.items_mapItems, List.filter_map]
    rfl
  unfold Anemoi.deleteRoster PolicyStore.edit
  simp only [mem_residencyGroups_listingOf hdisjoint, hreferencing]
  cases hcurrent : currentRoster o baseline ⟨id⟩ with
  | none => exact .refused _
  | some roster =>
      simp only [Option.isNone_some, Bool.false_eq_true, if_false, Option.isSome_some,
        not_true_eq_false, List.isEmpty_map, List.map_map]
      split
      · exact .refused _
      · exact agrees_dropRoster hset ⟨id⟩

theorem agrees_patchDomainRosters (hdisjoint : o.Disjoint) (id : String)
    (rosters : List String) :
    Agrees baseline (Anemoi.patchDomainRosters id rosters o baseline)
      (PolicyStore.edit baseline ⟨listingOf baseline o, operatorSet⟩
        (.patchDomainRosters id rosters)) := by
  have hfind : ((rosters.map ResidencyGroupId.mk).find? fun r =>
        r ∉ (listingOf baseline o).residencyGroups) =
      (rosters.map ResidencyGroupId.mk).find? fun r =>
        (currentRoster o baseline r).isNone := by
    congr 1
    funext r
    rw [decide_not, AList.decide_mem, lookup_residencyGroups_listingOf hdisjoint,
      Option.isSome_map, Option.not_isSome]
  unfold Anemoi.patchDomainRosters PolicyStore.edit
  simp only [hfind, lookup_domains_listingOf]
  cases hdomain : baseline.domains.lookup ⟨id⟩ with
  | none => exact .refused _
  | some domain =>
      simp only [Option.map_some]
      split
      · exact .refused _
      · cases (rosters.map ResidencyGroupId.mk).find? fun r =>
          (currentRoster o baseline r).isNone with
        | some r => exact .refused _
        | none => exact agrees_assign hset hdomain _

/-- Every edit does the same to the overrides and to the configuration. -/
theorem agrees_edit (hdisjoint : o.Disjoint) (request : EditRequest) :
    Agrees baseline (request.edit o baseline)
      (PolicyStore.edit baseline ⟨listingOf baseline o, operatorSet⟩ request) := by
  cases request with
  | createRoster req =>
      change Agrees baseline (Anemoi.createRoster req o baseline) _
      unfold Anemoi.createRoster PolicyStore.edit
      simp only [mem_residencyGroups_listingOf hdisjoint]
      by_cases hcurrent : (currentRoster o baseline ⟨req.id⟩).isSome = true
      · rw [if_pos hcurrent, if_pos hcurrent]
        exact .refused _
      · rw [if_neg hcurrent, if_neg hcurrent]
        exact agrees_putRoster hset _ _
  | patchRoster id req => exact agrees_editRoster hset hdisjoint id fun _ => rfl
  | addRosterModel id modelId =>
      refine agrees_editRoster hset hdisjoint id fun roster => ?_
      rw [apply_ite RosterOverride.intoConfig]
      rfl
  | removeRosterModel id modelId => exact agrees_editRoster hset hdisjoint id fun _ => rfl
  | deleteRoster id => exact agrees_deleteRoster hset hdisjoint id
  | patchDomainRosters id rosters => exact agrees_patchDomainRosters hset hdisjoint id rosters
  | setModelProfile modelId req =>
      change Agrees baseline (Anemoi.setModelProfile modelId req o baseline) _
      unfold Anemoi.setModelProfile PolicyStore.edit
      by_cases hempty : req.isEmpty = true
      · simp only [hempty, if_true]
        exact agrees_setProfile hset ⟨modelId⟩ none
      · simp only [hempty, Bool.false_eq_true, if_false]
        exact agrees_setProfile hset ⟨modelId⟩ (some req)

end Edits

/-! ### The holder follows the configuration -/

/-- An edit is refused and changes nothing, or its overrides are swapped in, or they could not
be stored and nothing changes either. -/
theorem editStep_answers (toJson : GovernanceOverrides → Except String String)
    (s : Governance × Disk) (i : EditRequest × FailurePattern) :
    (∃ err, i.1.edit s.1.overrides s.1.baseline = .error err ∧
      (editStep toJson s i).1 = .error err ∧ (editStep toJson s i).2.1 = s.1) ∨
    (∃ new, i.1.edit s.1.overrides s.1.baseline = .ok new ∧
      (editStep toJson s i).1 = .ok () ∧ (editStep toJson s i).2.1 = s.1.swapIn new) ∨
    (∃ new e, i.1.edit s.1.overrides s.1.baseline = .ok new ∧
      (editStep toJson s i).1 = .error (.persist e) ∧ (editStep toJson s i).2.1 = s.1) := by
  unfold editStep
  cases hf : i.1.edit s.1.overrides s.1.baseline with
  | error err =>
      rw [Governance.mutate_of_rejected toJson hf]
      exact .inl ⟨err, rfl, rfl, rfl⟩
  | ok new =>
      cases hpath : s.1.overridesPath with
      | none =>
          rw [Governance.mutate_of_unpersisted toJson hf hpath]
          exact .inr (.inl ⟨new, rfl, rfl, rfl⟩)
      | some path =>
          simp only [Governance.mutate_of_accepted toJson hf hpath, Program.result_bind]
          cases ((writeOverridesAtomic toJson path new).run i.2.handle ⟨s.2, 0⟩).result with
          | error e => exact .inr (.inr ⟨new, e, rfl, rfl, rfl⟩)
          | ok _ => exact .inr (.inl ⟨new, rfl, rfl, rfl⟩)

/-- The holder stands for the configuration. -/
structure Shows (baseline : AnemoiConfig) (gov : Governance) (store : PolicyStore) : Prop where
  derived : Derived baseline gov
  disjoint : gov.overrides.Disjoint
  same : gov.effective.config.Same store.config
  operatorSet : ∀ model, store.operatorSet model = decide (model ∈ gov.overrides.modelProfiles)

section Simulation

variable {baseline : AnemoiConfig} {gov : Governance} {store : PolicyStore}

theorem Shows.config_eq (h : Shows baseline gov store) :
    gov.effective.config = applyOverrides baseline gov.overrides := by
  rw [h.derived.effective_eq]
  rfl

theorem Shows.same_listing (h : Shows baseline gov store) :
    (listingOf baseline gov.overrides).Same store.config :=
  (same_listingOf baseline gov.overrides).trans (h.config_eq ▸ h.same)

/-- An edit of the holder is one of the configuration. -/
theorem Shows.editStep (h : Shows baseline gov store)
    (toJson : GovernanceOverrides → Except String String) (disk : Disk) (request : EditRequest)
    (pattern : FailurePattern) :
    ∃ new, AnswersOf baseline store (.mutate request)
        (editStep toJson (gov, disk) (request, pattern)).1 new ∧
      Shows baseline (editStep toJson (gov, disk) (request, pattern)).2.1 new := by
  have hagrees := @agrees_edit baseline _ _ h.operatorSet h.disjoint request
  generalize hedit : PolicyStore.edit baseline
    ⟨listingOf baseline gov.overrides, store.operatorSet⟩ request = edited at hagrees
  rw [← h.derived.baseline_eq] at hagrees
  rcases editStep_answers toJson (gov, disk) (request, pattern) with
    ⟨err, hf, hanswer, hgov⟩ | ⟨new, hf, hanswer, hgov⟩ | ⟨new, e, hf, hanswer, hgov⟩
  · rw [hf] at hagrees
    rw [hanswer, hgov]
    cases hagrees with
    | refused => exact ⟨store, .rejected h.same_listing hedit, h⟩
  · rw [hf] at hagrees
    rw [hanswer, hgov]
    cases hagrees with
    | accepted same operatorSet =>
        exact ⟨_, .accepted h.same_listing hedit, h.derived.swapIn new,
          h.disjoint.effect (effect_of_edit hf), same, operatorSet⟩
  · rw [hf] at hagrees
    rw [hanswer, hgov]
    cases hagrees with
    | accepted => exact ⟨store, .unpersisted h.same_listing hedit, h⟩

/-- Every command is answered as by the configuration. -/
theorem Shows.handlePolicy {toJson : GovernanceOverrides → Except String String}
    {env : ℕ → FailurePattern} {w : PolicyWorld} (h : Shows baseline w.governance store)
    (c : PolicyCmd) :
    ∃ new, AnswersOf baseline store c (handlePolicy toJson env w c).1 new ∧
      Shows baseline (handlePolicy toJson env w c).2.governance new := by
  cases c with
  | mutate request => exact h.editStep toJson w.disk request (env w.clock)
  | effective => exact ⟨store, .effective h.same, h⟩
  | overridesProfile model =>
      have hanswer : (Anemoi.handlePolicy toJson env w (.overridesProfile model)).1 =
          store.operatorSet model := (h.operatorSet model).symm
      rw [hanswer]
      exact ⟨store, .overridesProfile, h⟩

end Simulation

theorem shows_new {baseline : AnemoiConfig} {overrides : GovernanceOverrides}
    (hdisjoint : overrides.Disjoint) (path : Option OverridesPath) :
    Shows baseline (.new baseline overrides path)
      ⟨applyOverrides baseline overrides, fun model => model ∈ overrides.modelProfiles⟩ where
  derived := derived_new baseline overrides path
  disjoint := hdisjoint
  same := .refl _
  operatorSet _ := rfl

/-- A roster is created and replaces another in a domain, while that one is deleted. -/
def replaceRosterRequests : List PolicyRequest :=
  [.createRoster { id := "large" }, .patchDomainRosters "coding" ["large"], .deleteRoster "fast"]

end Anemoi
