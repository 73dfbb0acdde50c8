import Anemoi.Daemon.Integrity
import Anemoi.Daemon.Persistence
import Anemoi.Systems.Refinement

/-!
# Governance across restarts

A daemon loads the overrides file when it starts, serves edits, and may be stopped or killed
at any time, also within an edit. `OverridesStore` is what an operator expects of this: one
set of overrides that only edits change, where an edit that was cut off took effect or did
not. `refines_overridesStore` says that the daemon gives just that when every rename
succeeds or the old file cannot be removed, and when the file's text determines what was
written.
-/

namespace Anemoi

open Systems

/-- The same overrides, whatever the order of their tables. -/
structure GovernanceOverrides.Same (o o' : GovernanceOverrides) : Prop where
  residencyGroups : SameBindings o.residencyGroups o'.residencyGroups
  removedResidencyGroups : SameBindings o.removedResidencyGroups o'.removedResidencyGroups
  domainRosters : SameBindings o.domainRosters o'.domainRosters
  modelProfiles : SameBindings o.modelProfiles o'.modelProfiles

/-! ### Loading -/

/-- How a path is displayed. -/
def OverridesPath.display (path : OverridesPath) : String :=
  match path.parent with
  | none => path.fileName
  | some parent =>
      if parent.isEmpty then path.fileName
      else if parent.endsWith "/" then parent ++ path.fileName
      else parent ++ "/" ++ path.fileName

/-- How the overrides file is written and read: what libraries decide. -/
structure OverridesCodec where
  toJson : GovernanceOverrides → Except String String
  fromJson : String → Except String GovernanceOverrides

/-- Reading a written file gives what was written. -/
def OverridesCodec.RoundTrips (codec : OverridesCodec) : Prop :=
  ∀ overrides text, codec.toJson overrides = .ok text →
    ∃ read, codec.fromJson text = .ok read ∧ read.Same overrides

/-- Build a holder from the overrides file. Without a file it has no overrides; one that
cannot be read or parsed is an error. -/
def Governance.load (codec : OverridesCodec) (readError : Option String)
    (baseline : AnemoiConfig) (overridesPath : Option OverridesPath) (disk : Disk) :
    Except GovernanceError Governance :=
  match overridesPath, disk.target with
  | some path, some text =>
      match readError with
      | some e => .error (.persist e)
      | none =>
          match codec.fromJson text with
          | .error e => .error (.invalid s!"overrides file {path.display}: {e}")
          | .ok overrides => .ok (.new baseline overrides overridesPath)
  | _, _ => .ok (.new baseline {} overridesPath)

/-! ### The life of an installation -/

/-- What happens to a daemon: an edit is served, the daemon is killed within an edit after
some of its file operations, it is stopped between two edits, or it is started. -/
inductive LifeEvent where
  | edit (request : EditRequest) (pattern : FailurePattern)
  | killed (request : EditRequest) (pattern : FailurePattern) (operations : ℕ)
  | stop
  | start (readError : Option String)

/-- The daemon, if it runs, and its disk. -/
structure Installation where
  running : Option Governance
  disk : Disk

/-- The answer to an edit or to a start; there is none if nobody is there to answer. -/
abbrev LifeAnswer := Option (Except GovernanceError Unit)

/-- The disk that a process leaves which is killed after some file operations. -/
def cutDisk {α : Type} (pattern : FailurePattern) (p : FileProgram α) (disk : Disk)
    (operations : ℕ) : Disk :=
  (((p.states pattern.handle ⟨disk, 0⟩)[operations]?).getD
    (p.run pattern.handle ⟨disk, 0⟩).state).disk

def lifeStep (codec : OverridesCodec) (baseline : AnemoiConfig)
    (overridesPath : Option OverridesPath) (s : Installation) :
    LifeEvent → LifeAnswer × Installation
  | .edit request pattern =>
      match s.running with
      | none => (none, s)
      | some gov =>
          let edited := editStep codec.toJson (gov, s.disk) (request, pattern)
          (some edited.1, ⟨some edited.2.1, edited.2.2⟩)
  | .killed request pattern operations =>
      match s.running with
      | none => (none, s)
      | some gov =>
          (none, ⟨none, cutDisk pattern (gov.mutate codec.toJson request.edit) s.disk operations⟩)
  | .stop => (none, { s with running := none })
  | .start readError =>
      match s.running with
      | some _ => (none, s)
      | none =>
          match Governance.load codec readError baseline overridesPath s.disk with
          | .error e => (some (.error e), s)
          | .ok gov => (some (.ok ()), { s with running := some gov })

/-! ### What is expected -/

/-- The overrides in force, and whether somebody serves them. -/
structure StoreState where
  up : Bool
  overrides : GovernanceOverrides

/-- The store of an operator's overrides. -/
inductive OverridesStore (baseline : AnemoiConfig) : Spec StoreState LifeEvent LifeAnswer
  | accepted {o new : GovernanceOverrides} {request : EditRequest} {pattern : FailurePattern}
      (edit : request.edit o baseline = .ok new) :
      OverridesStore baseline ⟨true, o⟩ (.edit request pattern) (some (.ok ())) ⟨true, new⟩
  | rejected {o : GovernanceOverrides} {request : EditRequest} {pattern : FailurePattern}
      {e : GovernanceError} (edit : request.edit o baseline = .error e) :
      OverridesStore baseline ⟨true, o⟩ (.edit request pattern) (some (.error e)) ⟨true, o⟩
  | unpersisted {o new : GovernanceOverrides} {request : EditRequest}
      {pattern : FailurePattern} {e : String} (edit : request.edit o baseline = .ok new) :
      OverridesStore baseline ⟨true, o⟩ (.edit request pattern) (some (.error (.persist e)))
        ⟨true, o⟩
  | lost {o : GovernanceOverrides} {request : EditRequest} {pattern : FailurePattern} {n : ℕ} :
      OverridesStore baseline ⟨true, o⟩ (.killed request pattern n) none ⟨false, o⟩
  | applied {o new : GovernanceOverrides} {request : EditRequest} {pattern : FailurePattern}
      {n : ℕ} (edit : request.edit o baseline = .ok new) :
      OverridesStore baseline ⟨true, o⟩ (.killed request pattern n) none ⟨false, new⟩
  | stopped {up : Bool} {o : GovernanceOverrides} :
      OverridesStore baseline ⟨up, o⟩ .stop none ⟨false, o⟩
  | started {o : GovernanceOverrides} {readError : Option String} :
      OverridesStore baseline ⟨false, o⟩ (.start readError) (some (.ok ())) ⟨true, o⟩
  | unreadable {o : GovernanceOverrides} {e : String} :
      OverridesStore baseline ⟨false, o⟩ (.start (some e)) (some (.error (.persist e)))
        ⟨false, o⟩
  | unanswered {o : GovernanceOverrides} {request : EditRequest} {pattern : FailurePattern} :
      OverridesStore baseline ⟨false, o⟩ (.edit request pattern) none ⟨false, o⟩
  | unaffected {o : GovernanceOverrides} {request : EditRequest} {pattern : FailurePattern}
      {n : ℕ} : OverridesStore baseline ⟨false, o⟩ (.killed request pattern n) none ⟨false, o⟩
  | already {o : GovernanceOverrides} {readError : Option String} :
      OverridesStore baseline ⟨true, o⟩ (.start readError) none ⟨true, o⟩

/-- A rename over the old file succeeds, or the old file cannot be removed. -/
def FailurePattern.KeepsOld (pattern : FailurePattern) : Prop :=
  pattern.rename 0 = none ∨ pattern.removeFile ≠ none

/-- No edit, served or cut off, gets to remove the old file. -/
def LifeEvent.KeepsOld : LifeEvent → Prop
  | .edit _ pattern | .killed _ pattern _ => pattern.KeepsOld
  | .stop | .start _ => True

/-- The overrides on disk: none before the first edit, else the text of the last ones. -/
def OnDisk (codec : OverridesCodec) (overrides : GovernanceOverrides) (disk : Disk) : Prop :=
  disk.target = none ∧ overrides.Same {} ∨
    ∃ written text, disk.target = some text ∧ codec.toJson written = .ok text ∧
      written.Same overrides

/-- The installation has these overrides, in memory if it runs and on disk. -/
structure Stores (codec : OverridesCodec) (baseline : AnemoiConfig) (path : OverridesPath)
    (s : Installation) (a : StoreState) : Prop where
  disk : OnDisk codec a.overrides s.disk
  up : a.up = s.running.isSome
  running : ∀ gov, s.running = some gov → Derived baseline gov ∧
    gov.overridesPath = some path ∧ gov.overrides.Same a.overrides

/-! ### Edits of the same overrides -/

namespace GovernanceOverrides.Same

variable {o o' o'' : GovernanceOverrides}

theorem refl (o : GovernanceOverrides) : o.Same o :=
  ⟨fun _ => rfl, fun _ => rfl, fun _ => rfl, fun _ => rfl⟩

theorem symm (h : o.Same o') : o'.Same o :=
  ⟨fun k => (h.1 k).symm, fun k => (h.2 k).symm, fun k => (h.3 k).symm, fun k => (h.4 k).symm⟩

theorem trans (h : o.Same o') (h' : o'.Same o'') : o.Same o'' :=
  ⟨fun k => (h.1 k).trans (h'.1 k), fun k => (h.2 k).trans (h'.2 k),
    fun k => (h.3 k).trans (h'.3 k), fun k => (h.4 k).trans (h'.4 k)⟩

theorem mem_removed (h : o.Same o') (id : ResidencyGroupId) :
    id ∈ o.removedResidencyGroups ↔ id ∈ o'.removedResidencyGroups := by
  rw [AList.mem_iff_lookup, AList.mem_iff_lookup, h.removedResidencyGroups id]

theorem currentRoster_eq (h : o.Same o') (baseline : AnemoiConfig) (id : ResidencyGroupId) :
    currentRoster o baseline id = currentRoster o' baseline id := by
  unfold currentRoster
  rw [h.residencyGroups id]
  cases o'.residencyGroups.lookup id with
  | some roster => rfl
  | none => simp only [h.mem_removed id]

theorem effectiveRosters_eq (h : o.Same o') (domainId : DomainId) (domain : DomainConfig) :
    effectiveRosters o domainId domain = effectiveRosters o' domainId domain := by
  rw [effectiveRosters, effectiveRosters, h.domainRosters domainId]

theorem putRoster (h : o.Same o') (id : ResidencyGroupId) (roster : RosterOverride) :
    (o.putRoster id roster).Same (o'.putRoster id roster) := by
  refine ⟨fun k => ?_, fun k => ?_, h.domainRosters, h.modelProfiles⟩
  · simp only [GovernanceOverrides.putRoster, AList.lookup_insert_eq_ite, h.residencyGroups k]
  · simp only [GovernanceOverrides.putRoster, AList.lookup_erase_eq_ite,
      h.removedResidencyGroups k]

theorem dropRoster (h : o.Same o') (id : ResidencyGroupId) :
    (o.dropRoster id).Same (o'.dropRoster id) := by
  refine ⟨fun k => ?_, fun k => ?_, h.domainRosters, h.modelProfiles⟩
  · simp only [GovernanceOverrides.dropRoster, AList.lookup_erase_eq_ite, h.residencyGroups k]
  · simp only [GovernanceOverrides.dropRoster, AList.lookup_insert_eq_ite,
      h.removedResidencyGroups k]

theorem assign (h : o.Same o') (domainId : DomainId) (rosters : List ResidencyGroupId) :
    ({ o with domainRosters := o.domainRosters.insert domainId rosters } :
      GovernanceOverrides).Same
        { o' with domainRosters := o'.domainRosters.insert domainId rosters } := by
  refine ⟨h.residencyGroups, h.removedResidencyGroups, fun k => ?_, h.modelProfiles⟩
  simp only [AList.lookup_insert_eq_ite, h.domainRosters k]

end GovernanceOverrides.Same

/-- Two outcomes of an edit: the same error, or the same overrides. -/
inductive SameOutcome : Except GovernanceError GovernanceOverrides →
    Except GovernanceError GovernanceOverrides → Prop
  | error (e : GovernanceError) : SameOutcome (.error e) (.error e)
  | ok {new new' : GovernanceOverrides} (same : new.Same new') : SameOutcome (.ok new) (.ok new')

theorem SameOutcome.of_error {e : GovernanceError}
    {r : Except GovernanceError GovernanceOverrides} (h : SameOutcome (.error e) r) :
    r = .error e := by
  cases h
  rfl

theorem SameOutcome.of_ok {new : GovernanceOverrides}
    {r : Except GovernanceError GovernanceOverrides} (h : SameOutcome (.ok new) r) :
    ∃ new', r = .ok new' ∧ new.Same new' := by
  cases h with
  | ok same => exact ⟨_, rfl, same⟩

section Congruence

variable {o o' : GovernanceOverrides} (h : o.Same o') (baseline : AnemoiConfig)

include h

theorem sameOutcome_editRoster (id : ResidencyGroupId)
    (change : RosterOverride → RosterOverride) :
    SameOutcome (editRoster id change o baseline) (editRoster id change o' baseline) := by
  unfold editRoster
  rw [h.currentRoster_eq baseline id]
  cases currentRoster o' baseline id with
  | none => exact .error _
  | some roster => exact .ok (h.putRoster id (change roster))

theorem sameOutcome_createRoster (req : CreateRosterRequest) :
    SameOutcome (createRoster req o baseline) (createRoster req o' baseline) := by
  unfold createRoster
  dsimp only
  rw [h.currentRoster_eq baseline ⟨req.id⟩]
  split
  · exact .error _
  · exact .ok (h.putRoster _ _)

theorem sameOutcome_deleteRoster (id : String) :
    SameOutcome (deleteRoster id o baseline) (deleteRoster id o' baseline) := by
  unfold deleteRoster
  dsimp only
  rw [h.currentRoster_eq baseline ⟨id⟩]
  split
  · exact .error _
  · simp only [h.effectiveRosters_eq]
    split
    · exact .error _
    · exact .ok (h.dropRoster _)

theorem sameOutcome_patchDomainRosters (id : String) (rosters : List String) :
    SameOutcome (patchDomainRosters id rosters o baseline)
      (patchDomainRosters id rosters o' baseline) := by
  unfold patchDomainRosters
  dsimp only
  cases baseline.domains.lookup ⟨id⟩ with
  | none => exact .error _
  | some domain =>
      dsimp only
      split
      · exact .error _
      · simp only [h.currentRoster_eq baseline]
        split
        · exact .error _
        · exact .ok (h.assign _ _)

theorem sameOutcome_setModelProfile (modelId : String) (req : ModelProfileOverride) :
    SameOutcome (setModelProfile modelId req o baseline)
      (setModelProfile modelId req o' baseline) := by
  unfold setModelProfile
  split
  · refine .ok ⟨h.residencyGroups, h.removedResidencyGroups, h.domainRosters, fun k => ?_⟩
    simp only [AList.lookup_erase_eq_ite, h.modelProfiles k]
  · refine .ok ⟨h.residencyGroups, h.removedResidencyGroups, h.domainRosters, fun k => ?_⟩
    simp only [AList.lookup_insert_eq_ite, h.modelProfiles k]

/-- An edit does not see the order of the tables. -/
theorem sameOutcome_edit (request : EditRequest) :
    SameOutcome (request.edit o baseline) (request.edit o' baseline) := by
  cases request with
  | createRoster req => exact sameOutcome_createRoster h baseline req
  | deleteRoster id => exact sameOutcome_deleteRoster h baseline id
  | patchDomainRosters id rosters => exact sameOutcome_patchDomainRosters h baseline id rosters
  | setModelProfile modelId req => exact sameOutcome_setModelProfile h baseline modelId req
  | _ => exact sameOutcome_editRoster h baseline _ _

end Congruence

/-! ### One edit on disk -/

section Edit

variable {toJson : GovernanceOverrides → Except String String} {pattern : FailurePattern}
  {gov : Governance} {f : Edit} {path : OverridesPath} {disk : Disk}

theorem FailurePattern.KeepsOld.not_removesTarget (h : pattern.KeepsOld) (disk : Disk) :
    ¬RemovesTarget pattern disk := by
  intro hremoves
  rcases h with hrename | hremove
  · exact hremoves.rename_refused hrename
  · exact hremove hremoves.remove_ok

/-- A write either replaces the file by the text of the overrides, or leaves it. -/
theorem writes_of_keepsOld (toJson : GovernanceOverrides → Except String String)
    (hkeeps : pattern.KeepsOld) (path : OverridesPath)
    (new : GovernanceOverrides) (disk : Disk) :
    (∃ text, toJson new = .ok text ∧
      Commits pattern (writeOverridesAtomic toJson path new) ⟨disk, 0⟩ text) ∨
    Aborts pattern (writeOverridesAtomic toJson path new) ⟨disk, 0⟩ := by
  rcases writeOverridesAtomic_cases pattern path new disk with
    ⟨text, hreaches, -, h⟩ | ⟨-, h⟩ | ⟨-, -, hremoves, -⟩
  · exact Or.inl ⟨text, hreaches.json_eq, h⟩
  · exact Or.inr h
  · exact absurd hremoves (hkeeps.not_removesTarget disk)

/-- How an edit ends that does not remove the old file. -/
inductive EditEnds (toJson : GovernanceOverrides → Except String String) (gov : Governance)
    (f : Edit) (disk : Disk) :
    Program.Outcome FileCmd.Resp (Except GovernanceError Unit × Governance) FileState → Prop
  | rejected {e : GovernanceError} {after : FileState} {trace : List (Program.Event FileCmd.Resp)}
      (edit : f gov.overrides gov.baseline = .error e)
      (target : after.disk.target = disk.target) : EditEnds toJson gov f disk
        ⟨(.error e, gov), after, trace⟩
  | unpersisted {new : GovernanceOverrides} {e : String} {after : FileState}
      {trace : List (Program.Event FileCmd.Resp)} (edit : f gov.overrides gov.baseline = .ok new)
      (target : after.disk.target = disk.target) : EditEnds toJson gov f disk
        ⟨(.error (.persist e), gov), after, trace⟩
  | accepted {new : GovernanceOverrides} {text : String} {after : FileState}
      {trace : List (Program.Event FileCmd.Resp)} (edit : f gov.overrides gov.baseline = .ok new)
      (json : toJson new = .ok text) (target : after.disk.target = some text) :
      EditEnds toJson gov f disk ⟨(.ok (), gov.swapIn new), after, trace⟩

theorem editEnds (toJson : GovernanceOverrides → Except String String)
    (hpath : gov.overridesPath = some path) (hkeeps : pattern.KeepsOld) (f : Edit) (disk : Disk) :
    EditEnds toJson gov f disk ((gov.mutate toJson f).run pattern.handle ⟨disk, 0⟩) := by
  cases hf : f gov.overrides gov.baseline with
  | error e =>
      rw [Governance.mutate_of_rejected toJson hf]
      exact .rejected hf rfl
  | ok new =>
      rw [Governance.mutate_of_accepted toJson hf hpath, Program.run_bind]
      dsimp only
      rcases writes_of_keepsOld toJson hkeeps path new disk with
        ⟨text, hjson, h⟩ | h
      · rw [h.result_eq]
        exact .accepted hf hjson h.target_eq
      · obtain ⟨e, he⟩ := h.result_eq
        rw [he]
        exact .unpersisted hf (h.passes _ (Program.state_mem_states _ _ _))

/-- What a process leaves on disk that is killed within an edit. -/
theorem target_cutDisk (toJson : GovernanceOverrides → Except String String)
    (hpath : gov.overridesPath = some path) (hkeeps : pattern.KeepsOld) (f : Edit) (disk : Disk)
    (operations : ℕ) :
    let left := cutDisk pattern (gov.mutate toJson f) disk operations
    left.target = disk.target ∨ ∃ new text, f gov.overrides gov.baseline = .ok new ∧
      toJson new = .ok text ∧ left.target = some text := by
  intro left
  obtain ⟨t, ht, hleft⟩ : ∃ t ∈ (gov.mutate toJson f).states pattern.handle ⟨disk, 0⟩,
      t.disk = left := by
    cases hcut : ((gov.mutate toJson f).states pattern.handle ⟨disk, 0⟩)[operations]? with
    | none => exact ⟨_, Program.state_mem_states _ _ _, by simp only [left, cutDisk, hcut]; rfl⟩
    | some t => exact ⟨t, List.mem_of_getElem? hcut, by simp only [left, cutDisk, hcut]; rfl⟩
  rw [← hleft]
  cases hf : f gov.overrides gov.baseline with
  | error e =>
      rw [Governance.mutate_of_rejected toJson hf, Program.states_pure, List.mem_singleton] at ht
      rw [ht]
      exact Or.inl rfl
  | ok new =>
      have hwrite := (Governance.mem_states_mutate_iff hf hpath).mp ht
      rcases writes_of_keepsOld toJson hkeeps path new disk with
        ⟨text, hjson, h⟩ | h
      · exact (h.passes t hwrite).imp_right fun htext => ⟨new, text, rfl, hjson, htext⟩
      · exact Or.inl (h.passes t hwrite)

end Edit

/-! ### Refinement -/

section Refinement

variable {codec : OverridesCodec} {baseline : AnemoiConfig} {path : OverridesPath}

theorem stores_new (disk : Disk) (hdisk : disk.target = none) :
    Stores codec baseline path ⟨none, disk⟩ ⟨false, {}⟩ :=
  ⟨Or.inl ⟨hdisk, .refl _⟩, rfl, fun _ h => nomatch h⟩

/-- Overrides that were written stand for those they are the same as. -/
theorem onDisk_of_written {written overrides : GovernanceOverrides} {text : String}
    {disk : Disk} (htarget : disk.target = some text) (hjson : codec.toJson written = .ok text)
    (hsame : written.Same overrides) : OnDisk codec overrides disk :=
  Or.inr ⟨written, text, htarget, hjson, hsame⟩

theorem OnDisk.of_target {overrides : GovernanceOverrides} {disk disk' : Disk}
    (h : OnDisk codec overrides disk) (htarget : disk'.target = disk.target) :
    OnDisk codec overrides disk' := by
  unfold OnDisk
  rw [htarget]
  exact h

/-- A start finds the overrides that are on disk. -/
theorem load_cases (baseline : AnemoiConfig) (path : OverridesPath) (hcodec : codec.RoundTrips)
    {overrides : GovernanceOverrides} {disk : Disk}
    (h : OnDisk codec overrides disk) (readError : Option String) :
    (∃ read, Governance.load codec readError baseline (some path) disk =
        .ok (.new baseline read (some path)) ∧ read.Same overrides) ∨
      ∃ e, readError = some e ∧
        Governance.load codec readError baseline (some path) disk = .error (.persist e) := by
  rcases h with ⟨hnone, hempty⟩ | ⟨written, text, htarget, hjson, hsame⟩
  · refine Or.inl ⟨{}, ?_, hempty.symm⟩
    unfold Governance.load
    rw [hnone]
  · cases readError with
    | some e =>
        refine Or.inr ⟨e, rfl, ?_⟩
        unfold Governance.load
        rw [htarget]
    | none =>
        obtain ⟨read, hread, hwritten⟩ := hcodec written text hjson
        refine Or.inl ⟨read, ?_, hwritten.trans hsame⟩
        unfold Governance.load
        rw [htarget]
        dsimp only
        rw [hread]

/-- The daemon keeps running with the overrides it has. -/
theorem Stores.unchanged {gov : Governance} {disk disk' : Disk} {o : GovernanceOverrides}
    (h : Stores codec baseline path ⟨some gov, disk⟩ ⟨true, o⟩)
    (htarget : disk'.target = disk.target) :
    Stores codec baseline path ⟨some gov, disk'⟩ ⟨true, o⟩ :=
  ⟨h.disk.of_target htarget, rfl, h.running⟩

theorem step_edit {gov : Governance} {disk : Disk} {o : GovernanceOverrides}
    (h : Stores codec baseline path ⟨some gov, disk⟩ ⟨true, o⟩) (request : EditRequest)
    {pattern : FailurePattern} (hkeeps : pattern.KeepsOld) :
    let after := lifeStep codec baseline (some path) ⟨some gov, disk⟩ (.edit request pattern)
    ∃ b, OverridesStore baseline ⟨true, o⟩ (.edit request pattern) after.1 b ∧
      Stores codec baseline path after.2 b := by
  intro after
  obtain ⟨hderived, hpath, hsame⟩ := h.running gov rfl
  have hsameOutcome := sameOutcome_edit hsame gov.baseline request
  have hends : EditEnds codec.toJson gov request.edit disk
      ((gov.mutate codec.toJson request.edit).run pattern.handle ⟨disk, 0⟩) :=
    editEnds codec.toJson hpath hkeeps request.edit disk
  have hafter : after = (some ((gov.mutate codec.toJson request.edit).run pattern.handle
        ⟨disk, 0⟩).result.1,
      ⟨some ((gov.mutate codec.toJson request.edit).run pattern.handle ⟨disk, 0⟩).result.2,
        ((gov.mutate codec.toJson request.edit).run pattern.handle ⟨disk, 0⟩).state.disk⟩) := rfl
  rw [hafter]
  generalize (gov.mutate codec.toJson request.edit).run pattern.handle ⟨disk, 0⟩ = run at hends
  cases hends with
  | rejected hedit htarget =>
      rw [hedit, hderived.baseline_eq] at hsameOutcome
      exact ⟨⟨true, o⟩, .rejected hsameOutcome.of_error, h.unchanged htarget⟩
  | unpersisted hedit htarget =>
      rw [hedit, hderived.baseline_eq] at hsameOutcome
      obtain ⟨expected, hexpected, -⟩ := hsameOutcome.of_ok
      exact ⟨⟨true, o⟩, .unpersisted hexpected, h.unchanged htarget⟩
  | accepted hedit hjson htarget =>
      rw [hedit, hderived.baseline_eq] at hsameOutcome
      obtain ⟨expected, hexpected, hnew⟩ := hsameOutcome.of_ok
      refine ⟨⟨true, expected⟩, .accepted hexpected, onDisk_of_written htarget hjson hnew, rfl, ?_⟩
      intro gov' hgov'
      obtain rfl := Option.some.inj hgov'
      exact ⟨hderived.swapIn _, hpath, hnew⟩

theorem step_killed {gov : Governance} {disk : Disk} {o : GovernanceOverrides}
    (h : Stores codec baseline path ⟨some gov, disk⟩ ⟨true, o⟩) (request : EditRequest)
    {pattern : FailurePattern} (hkeeps : pattern.KeepsOld) (operations : ℕ) :
    let after := lifeStep codec baseline (some path) ⟨some gov, disk⟩
      (.killed request pattern operations)
    ∃ b, OverridesStore baseline ⟨true, o⟩ (.killed request pattern operations) after.1 b ∧
      Stores codec baseline path after.2 b := by
  intro after
  obtain ⟨hderived, hpath, hsame⟩ := h.running gov rfl
  have hdown : ∀ gov', after.2.running = some gov' → Derived baseline gov' ∧
      gov'.overridesPath = some path ∧ gov'.overrides.Same o := fun _ h => nomatch h
  rcases target_cutDisk codec.toJson hpath hkeeps request.edit disk operations with
    hkept | ⟨new, text, hedit, hjson, htext⟩
  · exact ⟨⟨false, o⟩, .lost, h.disk.of_target hkept, rfl, hdown⟩
  · have hsameOutcome := sameOutcome_edit hsame gov.baseline request
    rw [hedit, hderived.baseline_eq] at hsameOutcome
    obtain ⟨expected, hexpected, hnew⟩ := hsameOutcome.of_ok
    exact ⟨⟨false, expected⟩, .applied hexpected, onDisk_of_written htext hjson hnew, rfl,
      fun _ h => nomatch h⟩

/-- One event in the life of an installation is a step of the store. -/
theorem step_life (hcodec : codec.RoundTrips) {s : Installation} {a : StoreState}
    (event : LifeEvent) (h : Stores codec baseline path s a) (hkeeps : event.KeepsOld) :
    ∃ b, OverridesStore baseline a event (lifeStep codec baseline (some path) s event).1 b ∧
      Stores codec baseline path (lifeStep codec baseline (some path) s event).2 b := by
  obtain ⟨running, disk⟩ := s
  obtain ⟨up, o⟩ := a
  obtain rfl : up = running.isSome := h.up
  cases running with
  | some gov =>
      cases event with
      | edit request pattern => exact step_edit h request hkeeps
      | killed request pattern operations => exact step_killed h request hkeeps operations
      | stop => exact ⟨⟨false, o⟩, .stopped, h.disk, rfl, fun _ h => nomatch h⟩
      | start readError => exact ⟨⟨true, o⟩, .already, h⟩
  | none =>
      cases event with
      | edit request pattern => exact ⟨⟨false, o⟩, .unanswered, h⟩
      | killed request pattern operations => exact ⟨⟨false, o⟩, .unaffected, h⟩
      | stop => exact ⟨⟨false, o⟩, .stopped, h⟩
      | start readError =>
          rcases load_cases baseline path hcodec h.disk readError with
            ⟨read, hload, hread⟩ | ⟨e, rfl, hload⟩
          · refine ⟨⟨true, o⟩, ?_, ?_⟩
            · simp only [lifeStep, hload]
              exact .started
            · simp only [lifeStep, hload]
              refine ⟨h.disk, rfl, fun gov hgov => ?_⟩
              obtain rfl := Option.some.inj hgov
              exact ⟨derived_new baseline read _, rfl, hread⟩
          · refine ⟨⟨false, o⟩, ?_, ?_⟩
            · simp only [lifeStep, hload]
              exact .unreadable
            · simp only [lifeStep, hload]
              exact h

/-- What every step of the store keeps. -/
theorem sound_overridesStore {a b : StoreState} {event : LifeEvent} {answer : LifeAnswer}
    (ha : Sound baseline a.overrides) (h : OverridesStore baseline a event answer b) :
    Sound baseline b.overrides := by
  cases h with
  | accepted edit => exact ha.effect (effect_of_edit edit)
  | applied edit => exact ha.effect (effect_of_edit edit)
  | _ => exact ha

theorem Sound.of_same {o o' : GovernanceOverrides} (h : Sound baseline o) (hsame : o'.Same o) :
    Sound baseline o' := by
  refine ⟨fun id hid => ?_, fun domainId domain hdomain id hid => ?_,
    fun domainId domain hdomain hlive => ?_⟩
  · rw [hsame.mem_removed id]
    rw [AList.mem_iff_lookup, hsame.residencyGroups id, ← AList.mem_iff_lookup] at hid
    exact h.disjoint id hid
  · rw [hsame.effectiveRosters_eq] at hid
    rw [hsame.currentRoster_eq]
    exact h.defined domainId domain hdomain id hid
  · rw [hsame.effectiveRosters_eq]
    exact h.nonempty domainId domain hdomain hlive

/-- The life of an installation is a run of the store: with the same answers to edits and
starts, in every order and with the daemon killed anywhere. Whenever it runs, its overrides are
those of the store and the references among them are intact. -/
theorem refines_overridesStore (hvalid : validateConfig baseline = []) (hcodec : codec.RoundTrips)
    (path : OverridesPath) (tmp : Option String) (events : List LifeEvent)
    (hkeeps : ∀ event ∈ events, event.KeepsOld) :
    let step := lifeStep codec baseline (some path)
    let after := Machine.runFrom step ⟨none, ⟨none, tmp⟩⟩ events
    ∃ a, (OverridesStore baseline).Runs ⟨false, {}⟩
        (Machine.answersFrom step ⟨none, ⟨none, tmp⟩⟩ events) a ∧
      OnDisk codec a.overrides after.disk ∧ a.up = after.running.isSome ∧
      ∀ gov, after.running = some gov → gov.overrides.Same a.overrides ∧
        gov.effective = buildBundle baseline gov.overrides ∧
        ReferentialIntegrity baseline gov.overrides gov.effective.config := by
  intro step after
  obtain ⟨a, hruns, hstores⟩ := Machine.refines_runFrom step
    (R := Stores codec baseline path) (G := LifeEvent.KeepsOld)
    (fun s a event h hkeeps => step_life hcodec event h hkeeps) hkeeps
    (stores_new ⟨none, tmp⟩ rfl)
  have hsound : Sound baseline a.overrides := hruns.invariant
    (fun _ _ _ _ ha h => sound_overridesStore ha h) (sound_empty hvalid)
  refine ⟨a, hruns, hstores.disk, hstores.up, fun gov hgov => ?_⟩
  obtain ⟨hderived, -, hsame⟩ := hstores.running gov hgov
  refine ⟨hsame, hderived.effective_eq, ?_⟩
  rw [hderived.effective_eq]
  exact (hsound.of_same hsame).referentialIntegrity

end Refinement

/-! ### A daemon that is killed and started again -/

/-- The domain is assigned the roster that it has. -/
def codingAssigned : GovernanceOverrides where
  domainRosters := .ofList [(⟨"coding"⟩, [⟨"fast"⟩])]

/-- A codec for these overrides only. -/
def codingCodec : OverridesCodec where
  toJson overrides :=
    if overrides = codingAssigned then Governance.domainsJson codingAssigned
    else .error "unsupported"
  fromJson text :=
    if Governance.domainsJson codingAssigned = .ok text then .ok codingAssigned
    else .error "unsupported"

theorem roundTrips_codingCodec : codingCodec.RoundTrips := by
  intro overrides text hjson
  unfold codingCodec at hjson ⊢
  dsimp only at hjson ⊢
  split at hjson
  · next heq => exact ⟨codingAssigned, if_pos hjson, heq ▸ .refl _⟩
  · cases hjson

/-- It is edited, stopped, started, killed within the same edit and started once more. -/
def killedLife : List LifeEvent :=
  let request := EditRequest.patchDomainRosters "coding" ["fast"]
  let pattern : FailurePattern := ⟨none, none, fun _ => none, none⟩
  [.start none, .edit request pattern, .stop, .start none, .killed request pattern 2, .start none]

theorem refines_overridesStore_killedLife :
    let step := lifeStep codingCodec codingConfig (some ⟨some "/var/lib/anemoi", "overrides.json"⟩)
    let after := Machine.runFrom step ⟨none, ⟨none, none⟩⟩ killedLife
    ∃ a, (OverridesStore codingConfig).Runs ⟨false, {}⟩
        (Machine.answersFrom step ⟨none, ⟨none, none⟩⟩ killedLife) a ∧
      OnDisk codingCodec a.overrides after.disk ∧ a.up = after.running.isSome ∧
      ∀ gov, after.running = some gov → gov.overrides.Same a.overrides ∧
        gov.effective = buildBundle codingConfig gov.overrides ∧
        ReferentialIntegrity codingConfig gov.overrides gov.effective.config := by
  refine refines_overridesStore (by decide) roundTrips_codingCodec _ none killedLife ?_
  intro event hevent
  simp only [killedLife, List.mem_cons, List.not_mem_nil, or_false] at hevent
  rcases hevent with rfl | rfl | rfl | rfl | rfl | rfl
  all_goals first | exact trivial | exact Or.inl rfl

end Anemoi
