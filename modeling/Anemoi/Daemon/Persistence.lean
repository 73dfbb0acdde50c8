import Anemoi.Daemon.Governance

/-!
# Edits and the overrides file

An edit should be a transaction: a rejected one leaves memory and the overrides file
as they were, an accepted one leaves both with the new overrides, and a crash leaves
the file with the old or the new content. `transactional_iff` says exactly when it is
one: not when the rename over the existing file is refused and the fallback removes
that file first.
-/

namespace Anemoi

open Systems FileProgram

/-- The error of creating the parent directory, if it is created at all and fails. -/
def FailurePattern.parentError (pattern : FailurePattern) (path : OverridesPath) :
    Option String :=
  match path.parent with
  | some parent => if parent.isEmpty then none else pattern.createDirAll
  | none => none

section Runs

variable {α β : Type} (pattern : FailurePattern)

/-! ### How a write ends -/

/-- The run succeeds with the target holding `text`, and never shows anything but the
old content or `text` on the way. -/
structure Commits (p : FileProgram (Except β Unit)) (s : FileState) (text : String) : Prop where
  result_eq : (p.run pattern.handle s).result = .ok ()
  target_eq : (p.run pattern.handle s).state.disk.target = some text
  passes : ∀ t ∈ p.states pattern.handle s,
    t.disk.target = s.disk.target ∨ t.disk.target = some text

/-- The run fails and the target keeps its content throughout. -/
structure Aborts (p : FileProgram (Except β Unit)) (s : FileState) : Prop where
  result_eq : ∃ e, (p.run pattern.handle s).result = .error e
  passes : ∀ t ∈ p.states pattern.handle s, t.disk.target = s.disk.target

/-- The run passes through a state without the target. -/
def LosesTarget (p : FileProgram α) (s : FileState) : Prop :=
  ∃ t ∈ p.states pattern.handle s, t.disk.target = none

/-- The run does not touch the target. -/
def Quiet (p : FileProgram α) (s : FileState) : Prop :=
  ∀ t ∈ p.states pattern.handle s, t.disk.target = s.disk.target

variable {pattern} {p : FileProgram α} {f : α → FileProgram (Except β Unit)} {s : FileState}

theorem Commits.after {text : String} (hp : Quiet pattern p s)
    (h : Commits pattern (f (p.run pattern.handle s).result) (p.run pattern.handle s).state
      text) : Commits pattern (p >>= f) s text := by
  have hlast := hp _ (Program.state_mem_states pattern.handle p s)
  refine ⟨?_, ?_, fun t ht => ?_⟩
  · rw [Program.result_bind]
    exact h.result_eq
  · rw [Program.state_bind]
    exact h.target_eq
  · rcases (Program.mem_states_bind pattern.handle).mp ht with ht | ht
    · exact Or.inl (hp t ht)
    · rw [← hlast]
      exact h.passes t ht

theorem Aborts.after (hp : Quiet pattern p s)
    (h : Aborts pattern (f (p.run pattern.handle s).result) (p.run pattern.handle s).state) :
    Aborts pattern (p >>= f) s := by
  have hlast := hp _ (Program.state_mem_states pattern.handle p s)
  refine ⟨?_, fun t ht => ?_⟩
  · rw [Program.result_bind]
    exact h.result_eq
  · rcases (Program.mem_states_bind pattern.handle).mp ht with ht | ht
    · exact hp t ht
    · rw [← hlast]
      exact h.passes t ht

theorem LosesTarget.after {f : α → FileProgram β}
    (h : LosesTarget pattern (f (p.run pattern.handle s).result)
      (p.run pattern.handle s).state) : LosesTarget pattern (p >>= f) s := by
  obtain ⟨t, ht, hnone⟩ := h
  exact ⟨t, (Program.mem_states_bind pattern.handle).mpr (Or.inr ht), hnone⟩

theorem aborts_pure (e : β) (s : FileState) :
    Aborts pattern (pure (.error e)) s := by
  refine ⟨⟨e, rfl⟩, fun t ht => ?_⟩
  rw [Program.states_pure, List.mem_singleton] at ht
  rw [ht]

end Runs

/-! ### The parts of a write -/

variable (pattern : FailurePattern)

theorem result_createParent (path : OverridesPath) (s : FileState) :
    ((createParent path).run pattern.handle s).result =
      failing (pattern.parentError path) := by
  unfold createParent FailurePattern.parentError
  cases path.parent with
  | none => rfl
  | some parent => by_cases hempty : parent.isEmpty = true <;> simp [hempty] <;> rfl

theorem mem_states_createParent {path : OverridesPath} {s t : FileState}
    (ht : t ∈ (createParent path).states pattern.handle s) : t = s := by
  unfold createParent at ht
  cases hparent : path.parent with
  | none => simpa [hparent] using ht
  | some parent =>
      by_cases hempty : parent.isEmpty = true
      · simpa [hparent, hempty] using ht
      · simpa [hparent, hempty, createDirAll, FailurePattern.handle] using ht

theorem quiet_createParent (path : OverridesPath) (s : FileState) :
    Quiet pattern (createParent path) s := by
  intro t ht
  rw [mem_states_createParent pattern ht]

theorem state_createParent (path : OverridesPath) (s : FileState) :
    ((createParent path).run pattern.handle s).state = s :=
  mem_states_createParent pattern (Program.state_mem_states pattern.handle _ s)

theorem quiet_writeTmp (text : String) (s : FileState) :
    Quiet pattern (writeTmp text) s := by
  intro t ht
  rcases (Program.mem_states_perform pattern.handle).mp ht with rfl | rfl
  · rfl
  · unfold FailurePattern.handle
    cases pattern.write <;> rfl

theorem run_writeTmp_ok (text : String) (s : FileState) (h : pattern.write = none) :
    ((writeTmp text).run pattern.handle s).result = .ok () ∧
      ((writeTmp text).run pattern.handle s).state = { s with disk.tmp := some text } := by
  simp [writeTmp, Program.perform, FailurePattern.handle, Program.run, h]

theorem run_writeTmp_error {text e : String} {left : Option String} (s : FileState)
    (h : pattern.write = some (e, left)) :
    ((writeTmp text).run pattern.handle s).result = .error e := by
  simp [writeTmp, Program.perform, FailurePattern.handle, Program.run, h]

/-- The fallback removes the existing target: the rename over it is refused, and the
removal succeeds. -/
structure RemovesTarget (disk : Disk) : Prop where
  rename_refused : pattern.rename 0 ≠ none
  target_exists : disk.target ≠ none
  remove_ok : pattern.removeFile = none

theorem replaceTarget_cases (disk : Disk) (text : String) (htmp : disk.tmp = some text) :
    (¬RemovesTarget pattern disk ∧ Commits pattern replaceTarget ⟨disk, 0⟩ text) ∨
    (¬RemovesTarget pattern disk ∧ Aborts pattern replaceTarget ⟨disk, 0⟩) ∨
    (RemovesTarget pattern disk ∧ LosesTarget pattern replaceTarget ⟨disk, 0⟩) := by
  cases hrename : pattern.rename 0 with
  | none =>
      refine Or.inl ⟨fun h => h.rename_refused hrename, ?_, ?_, ?_⟩ <;>
        simp [replaceTarget, renameTmp, FailurePattern.handle, hrename, htmp]
  | some e =>
      cases htarget : disk.target with
      | none =>
          refine Or.inr (Or.inl ⟨fun h => h.target_exists htarget, ?_, ?_⟩) <;>
            simp [replaceTarget, renameTmp, targetExists, FailurePattern.handle, hrename,
              htarget]
      | some old =>
          cases hremove : pattern.removeFile with
          | some e' =>
              refine Or.inr (Or.inl ⟨fun h => ?_, ?_, ?_⟩)
              · rw [h.remove_ok] at hremove
                cases hremove
              all_goals
                simp [replaceTarget, renameTmp, targetExists, removeTarget,
                  FailurePattern.handle, hrename, htarget, hremove]
          | none =>
              refine Or.inr (Or.inr ⟨⟨by simp [hrename], by simp [htarget], hremove⟩, ?_⟩)
              refine ⟨⟨⟨none, disk.tmp⟩, 1⟩, ?_, rfl⟩
              simp [replaceTarget, renameTmp, targetExists, removeTarget,
                FailurePattern.handle, hrename, htarget, hremove]

/-- The run gets as far as replacing the target by `text`. -/
structure ReachesReplace (toJson : GovernanceOverrides → Except String String)
    (path : OverridesPath) (overrides : GovernanceOverrides) (text : String) : Prop where
  parent_ok : pattern.parentError path = none
  json_eq : toJson overrides = .ok text
  write_ok : pattern.write = none

/-- A write that fails before the replacement leaves the target alone. -/
theorem aborts_of_not_reaches {toJson : GovernanceOverrides → Except String String}
    {path : OverridesPath} {overrides : GovernanceOverrides} (disk : Disk)
    (h : ¬∃ text, ReachesReplace pattern toJson path overrides text) :
    Aborts pattern (writeOverridesAtomic toJson path overrides) ⟨disk, 0⟩ := by
  refine Aborts.after (quiet_createParent pattern path ⟨disk, 0⟩) ?_
  rw [result_createParent, state_createParent]
  cases hparent : pattern.parentError path with
  | some e => exact aborts_pure e _
  | none =>
      cases hjson : toJson overrides with
      | error e =>
          simp only [failing]
          exact aborts_pure e _
      | ok text =>
          simp only [failing]
          cases hwrite : pattern.write with
          | some failure =>
              refine Aborts.after (quiet_writeTmp pattern text _) ?_
              rw [run_writeTmp_error pattern _ hwrite]
              exact aborts_pure failure.1 _
          | none => exact absurd ⟨text, hparent, hjson, hwrite⟩ h

theorem writeOverridesAtomic_cases {toJson : GovernanceOverrides → Except String String}
    (path : OverridesPath) (overrides : GovernanceOverrides) (disk : Disk) :
    (∃ text, ReachesReplace pattern toJson path overrides text ∧
      ¬RemovesTarget pattern disk ∧
      Commits pattern (writeOverridesAtomic toJson path overrides) ⟨disk, 0⟩ text) ∨
    ((∀ text, ReachesReplace pattern toJson path overrides text →
        ¬RemovesTarget pattern disk) ∧
      Aborts pattern (writeOverridesAtomic toJson path overrides) ⟨disk, 0⟩) ∨
    (∃ text, ReachesReplace pattern toJson path overrides text ∧
      RemovesTarget pattern disk ∧
      LosesTarget pattern (writeOverridesAtomic toJson path overrides) ⟨disk, 0⟩) := by
  by_cases hreach : ∃ text, ReachesReplace pattern toJson path overrides text
  swap
  · exact Or.inr (Or.inl ⟨fun text h => absurd ⟨text, h⟩ hreach,
      aborts_of_not_reaches pattern disk hreach⟩)
  obtain ⟨text, hreaches⟩ := hreach
  have hquiet := quiet_createParent pattern path ⟨disk, 0⟩
  have hresult := result_createParent pattern path ⟨disk, 0⟩
  rw [hreaches.parent_ok] at hresult
  have hstate := state_createParent pattern path ⟨disk, 0⟩
  obtain ⟨hok, hnext⟩ := run_writeTmp_ok pattern text ⟨disk, 0⟩ hreaches.write_ok
  have hwritten := quiet_writeTmp pattern text ⟨disk, 0⟩
  -- the removal looks at the target only, which is not written yet
  have hremoves : RemovesTarget pattern { disk with tmp := some text } ↔
      RemovesTarget pattern disk :=
    ⟨fun h => ⟨h.1, h.2, h.3⟩, fun h => ⟨h.1, h.2, h.3⟩⟩
  rcases replaceTarget_cases pattern { disk with tmp := some text } text rfl with
    ⟨hkept, h⟩ | ⟨hkept, h⟩ | ⟨hremoved, h⟩
  · refine Or.inl ⟨text, hreaches, fun h => hkept (hremoves.mpr h), ?_⟩
    refine Commits.after hquiet ?_
    rw [hresult, hstate]
    simp only [failing, hreaches.json_eq]
    refine Commits.after hwritten ?_
    rw [hok, hnext]
    exact h
  · refine Or.inr (Or.inl ⟨fun _ _ h => hkept (hremoves.mpr h), ?_⟩)
    refine Aborts.after hquiet ?_
    rw [hresult, hstate]
    simp only [failing, hreaches.json_eq]
    refine Aborts.after hwritten ?_
    rw [hok, hnext]
    exact h
  · refine Or.inr (Or.inr ⟨text, hreaches, hremoves.mp hremoved, ?_⟩)
    refine LosesTarget.after ?_
    rw [hresult, hstate]
    simp only [failing, hreaches.json_eq]
    refine LosesTarget.after ?_
    rw [hok, hnext]
    exact h

/-! ### Edits as transactions -/

namespace Governance

section Mutate

variable {toJson : GovernanceOverrides → Except String String} {pattern : FailurePattern}
  {gov : Governance} {f : Edit} {path : OverridesPath} {disk : Disk}

/-- The run of an edit from a disk. -/
abbrev editRun (toJson : GovernanceOverrides → Except String String)
    (pattern : FailurePattern) (gov : Governance) (f : Edit) (disk : Disk) :
    Program.Outcome FileCmd.Resp (Except GovernanceError Unit × Governance) FileState :=
  (gov.mutate toJson f).run pattern.handle ⟨disk, 0⟩

/-- An edit is a transaction on memory and disk. -/
structure Transactional (toJson : GovernanceOverrides → Except String String)
    (pattern : FailurePattern) (gov : Governance) (f : Edit) (disk : Disk) : Prop where
  on_error : ∀ e, (editRun toJson pattern gov f disk).result.1 = .error e →
    (editRun toJson pattern gov f disk).result.2 = gov ∧
      (editRun toJson pattern gov f disk).state.disk.target = disk.target
  on_ok : (editRun toJson pattern gov f disk).result.1 = .ok () →
    ∃ new text, f gov.overrides gov.baseline = .ok new ∧ toJson new = .ok text ∧
      (editRun toJson pattern gov f disk).state.disk.target = some text ∧
      (editRun toJson pattern gov f disk).result.2.overrides = new ∧
      (editRun toJson pattern gov f disk).result.2.effective.config =
        applyOverrides gov.baseline new
  at_crash : ∀ s ∈ (gov.mutate toJson f).states pattern.handle ⟨disk, 0⟩, ∀ old,
    disk.target = some old → s.disk.target = some old ∨
      ∃ new text, f gov.overrides gov.baseline = .ok new ∧ toJson new = .ok text ∧
        s.disk.target = some text

/-- The edit is accepted and gets as far as the fallback, which removes the old file. -/
def RemovesOld (toJson : GovernanceOverrides → Except String String)
    (pattern : FailurePattern) (gov : Governance) (f : Edit) (path : OverridesPath)
    (disk : Disk) : Prop :=
  ∃ new text, f gov.overrides gov.baseline = .ok new ∧
    ReachesReplace pattern toJson path new text ∧ RemovesTarget pattern disk

/-- An accepted edit passes through the states of its write and no others. -/
theorem mem_states_mutate_iff {new : GovernanceOverrides} {s : FileState}
    (hf : f gov.overrides gov.baseline = .ok new) (hpath : gov.overridesPath = some path) :
    s ∈ (gov.mutate toJson f).states pattern.handle ⟨disk, 0⟩ ↔
      s ∈ (writeOverridesAtomic toJson path new).states pattern.handle ⟨disk, 0⟩ := by
  rw [mutate_of_accepted toJson hf hpath, Program.mem_states_bind]
  refine ⟨fun hs => hs.elim id fun hs => ?_, Or.inl⟩
  have hlast : s = ((writeOverridesAtomic toJson path new).run pattern.handle ⟨disk, 0⟩).state := by
    cases h : ((writeOverridesAtomic toJson path new).run pattern.handle ⟨disk, 0⟩).result with
    | error e =>
        rw [h] at hs
        exact List.mem_singleton.mp hs
    | ok _ =>
        rw [h] at hs
        exact List.mem_singleton.mp hs
  rw [hlast]
  exact Program.state_mem_states _ _ _

theorem transactional_of_commits {new : GovernanceOverrides} {text : String}
    (hf : f gov.overrides gov.baseline = .ok new) (hpath : gov.overridesPath = some path)
    (hjson : toJson new = .ok text)
    (h : Commits pattern (writeOverridesAtomic toJson path new) ⟨disk, 0⟩ text) :
    Transactional toJson pattern gov f disk := by
  have heq := mutate_of_accepted toJson hf hpath
  constructor
  · intro e he
    rw [editRun, heq, Program.result_bind, h.result_eq] at he
    cases he
  · intro _
    refine ⟨new, text, hf, hjson, ?_⟩
    rw [editRun, heq, Program.result_bind, Program.state_bind, h.result_eq]
    exact ⟨h.target_eq, rfl, rfl⟩
  · intro s hs old hold
    rcases h.passes s ((mem_states_mutate_iff hf hpath).mp hs) with hkept | hnew
    · exact Or.inl (hkept.trans hold)
    · exact Or.inr ⟨new, text, hf, hjson, hnew⟩

theorem transactional_of_aborts {new : GovernanceOverrides}
    (hf : f gov.overrides gov.baseline = .ok new) (hpath : gov.overridesPath = some path)
    (h : Aborts pattern (writeOverridesAtomic toJson path new) ⟨disk, 0⟩) :
    Transactional toJson pattern gov f disk := by
  have heq := mutate_of_accepted toJson hf hpath
  obtain ⟨e, he⟩ := h.result_eq
  have hlast := h.passes _ (Program.state_mem_states _ _ _)
  constructor
  · intro _ _
    rw [editRun, heq, Program.result_bind, Program.state_bind, he]
    exact ⟨rfl, hlast⟩
  · intro hok
    rw [editRun, heq, Program.result_bind, he] at hok
    cases hok
  · intro s hs old hold
    exact Or.inl ((h.passes s ((mem_states_mutate_iff hf hpath).mp hs)).trans hold)

/-- An edit is a transaction unless the fallback removes the old file. -/
theorem transactional_iff (hpath : gov.overridesPath = some path) :
    Transactional toJson pattern gov f disk ↔
      ¬RemovesOld toJson pattern gov f path disk := by
  cases hf : f gov.overrides gov.baseline with
  | error e =>
      constructor
      · rintro - ⟨new, text, hnew, -, -⟩
        rw [hf] at hnew
        cases hnew
      · intro _
        have heq := mutate_of_rejected toJson hf
        refine ⟨fun _ _ => ?_, fun hok => ?_, fun s hs old hold => Or.inl ?_⟩
        · rw [editRun, heq]
          exact ⟨rfl, rfl⟩
        · rw [editRun, heq] at hok
          cases hok
        · rw [heq, Program.states_pure, List.mem_singleton] at hs
          rw [hs]
          exact hold
  | ok new =>
      have honly {new' : GovernanceOverrides} (h : f gov.overrides gov.baseline = .ok new') :
          new' = new := by
        rw [hf, Except.ok.injEq] at h
        exact h.symm
      rcases writeOverridesAtomic_cases pattern path new disk with
        ⟨text, hreaches, hkept, h⟩ | ⟨hkept, h⟩ | ⟨text, hreaches, hremoves, h⟩
      · refine ⟨fun _ hold => ?_, fun _ => transactional_of_commits hf hpath hreaches.json_eq h⟩
        obtain ⟨_, _, _, _, hremoves⟩ := hold
        exact hkept hremoves
      · refine ⟨fun _ hold => ?_, fun _ => transactional_of_aborts hf hpath h⟩
        obtain ⟨new', text, hnew, hreaches, hremoves⟩ := hold
        rw [honly hnew] at hreaches
        exact hkept text hreaches hremoves
      · refine ⟨fun htrans => ?_, fun hnot => absurd ⟨new, text, hf, hreaches, hremoves⟩ hnot⟩
        -- the state between the removal and the second rename has neither file content
        obtain ⟨s, hs, hnone⟩ := h
        obtain ⟨old, hold⟩ := Option.ne_none_iff_exists'.mp hremoves.target_exists
        have hmem : s ∈ (gov.mutate toJson f).states pattern.handle ⟨disk, 0⟩ :=
          (mem_states_mutate_iff hf hpath).mpr hs
        rcases htrans.at_crash s hmem old hold with hkept | ⟨_, _, _, _, hnew⟩
        · rw [hnone] at hkept
          cases hkept
        · rw [hnone] at hnew
          cases hnew

end Mutate

/-! ### An edit of a domain's rosters -/

/-- The pretty JSON of overrides in which only domains are reassigned. -/
def domainsJson (overrides : GovernanceOverrides) : Except String String :=
  let domains := overrides.domainRosters.items.map fun e =>
    "    \"" ++ e.1.text ++ "\": [\n" ++
      ",\n".intercalate (e.2.map fun id => "      \"" ++ id.text ++ "\"") ++ "\n    ]"
  let body :=
    if domains.isEmpty then "\x7b\x7d"
    else "\x7b\n" ++ ",\n".intercalate domains ++ "\n  \x7d"
  .ok ("\x7b\n  \"residency_groups\": \x7b\x7d,\n  \"removed_residency_groups\": [],\n" ++
    "  \"domain_rosters\": " ++ body ++ ",\n  \"model_profiles\": \x7b\x7d\n\x7d")

def sampleHolder : Governance :=
  .new ⟨∅, ∅, ∅, ∅, {}⟩ {} (some ⟨some "/var/lib/anemoi", "overrides.json"⟩)

def assignFast : Edit := fun overrides _ =>
  .ok { overrides with domainRosters := overrides.domainRosters.insert ⟨"coding"⟩ [⟨"fast"⟩] }

/-- The overrides file as the holder wrote it last. -/
def sampleDisk : Disk := ⟨(domainsJson {}).toOption, none⟩

theorem transactional_assignFast :
    Transactional domainsJson ⟨none, none, fun _ => none, none⟩ sampleHolder assignFast
      sampleDisk := by
  refine (transactional_iff rfl).mpr ?_
  rintro ⟨_, _, _, _, hremoves⟩
  exact hremoves.rename_refused rfl

/-- Renames are refused, first over the existing file and then once more. -/
def renamesRefused : FailurePattern := ⟨none, none, fun _ => some "denied", none⟩

theorem not_transactional_assignFast :
    ¬Transactional domainsJson renamesRefused sampleHolder assignFast sampleDisk := by
  intro h
  have hkept := (h.on_error (.persist "denied") rfl).2
  exact absurd hkept (by decide)

end Governance

end Anemoi
