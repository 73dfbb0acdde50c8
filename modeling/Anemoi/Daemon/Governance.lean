import Anemoi.Core.Governance
import Anemoi.Policy.Scheduler
import Anemoi.Systems.Program

/-!
# The governance holder

`Governance` holds the baseline configuration, the operator's overrides and the
effective bundle derived from them. An edit mutates a copy of the overrides, persists
it and only then replaces what is in memory.

Persisting is a program over the file operations of the source, each of which may
fail. A crash leaves one of the states that the program passes through.
-/

namespace Anemoi

open Systems

/-- The effective configuration and a scheduler built from it. -/
structure EffectiveBundle where
  config : AnemoiConfig
  scheduler : Scheduler

/-- Why an edit was rejected. -/
inductive GovernanceError where
  | notFound (what : String)
  | conflict (what : String)
  | invalid (what : String)
  | persist (what : String)
  deriving DecidableEq, Repr

instance : ToString GovernanceError where
  toString
    | .notFound what => s!"not found: {what}"
    | .conflict what => s!"conflict: {what}"
    | .invalid what => s!"invalid: {what}"
    | .persist what => s!"failed to persist governance overrides: {what}"

/-- The path of the overrides file; a bare file name has the empty parent. -/
structure OverridesPath where
  parent : Option String
  fileName : String
  deriving DecidableEq, Repr

structure Governance where
  baseline : AnemoiConfig
  overrides : GovernanceOverrides
  effective : EffectiveBundle
  overridesPath : Option OverridesPath

/-- An edit of the overrides, which may look at the baseline and may refuse. -/
abbrev Edit :=
  GovernanceOverrides → AnemoiConfig → Except GovernanceError GovernanceOverrides

def buildBundle (baseline : AnemoiConfig) (overrides : GovernanceOverrides) :
    EffectiveBundle :=
  let config := applyOverrides baseline overrides
  { config, scheduler := ⟨config⟩ }

/-! ### File operations -/

/-- The operations on the overrides file and on its temporary sibling. -/
inductive FileCmd where
  | createDirAll (path : String)
  | writeTmp (text : String)
  | renameTmp
  | targetExists
  | removeTarget
  deriving DecidableEq, Repr

@[reducible] def FileCmd.Resp : FileCmd → Type
  | targetExists => Bool
  | createDirAll _ | writeTmp _ | renameTmp | removeTarget => Except String Unit

abbrev FileProgram := Program FileCmd FileCmd.Resp

namespace FileProgram

def createDirAll (path : String) : FileProgram (Except String Unit) :=
  Program.perform (FileCmd.createDirAll path)

def writeTmp (text : String) : FileProgram (Except String Unit) :=
  Program.perform (FileCmd.writeTmp text)

def renameTmp : FileProgram (Except String Unit) :=
  Program.perform FileCmd.renameTmp

def targetExists : FileProgram Bool :=
  Program.perform FileCmd.targetExists

def removeTarget : FileProgram (Except String Unit) :=
  Program.perform FileCmd.removeTarget

end FileProgram

open FileProgram

/-- Create the directory of the overrides file, when its path names one. -/
def createParent (path : OverridesPath) : FileProgram (Except String Unit) :=
  match path.parent with
  | some parent =>
      if parent.isEmpty then pure (.ok ()) else createDirAll parent
  | none => pure (.ok ())

/-- Rename the temporary file over the target. Where replacing on rename is refused,
remove the target and rename again. -/
def replaceTarget : FileProgram (Except String Unit) := do
  match ← renameTmp with
  | .ok () => return .ok ()
  | .error e =>
      if ← targetExists then
        match ← removeTarget with
        | .error e => return .error e
        | .ok () => renameTmp
      else return .error e

/-- Write the serialized overrides to a temporary file and put it in the target's
place. -/
def writeOverridesAtomic (toJson : GovernanceOverrides → Except String String)
    (path : OverridesPath) (overrides : GovernanceOverrides) :
    FileProgram (Except String Unit) := do
  match ← createParent path with
  | .error e => return .error e
  | .ok () =>
  match toJson overrides with
  | .error e => return .error e
  | .ok json =>
  match ← writeTmp json with
  | .error e => return .error e
  | .ok () => replaceTarget

namespace Governance

def new (baseline : AnemoiConfig) (overrides : GovernanceOverrides)
    (overridesPath : Option OverridesPath) : Governance where
  baseline := baseline
  overrides := overrides
  effective := buildBundle baseline overrides
  overridesPath := overridesPath

/-- Replace the overrides and the bundle derived from them. -/
def swapIn (gov : Governance) (candidate : GovernanceOverrides) : Governance :=
  { gov with overrides := candidate, effective := buildBundle gov.baseline candidate }

def mutate (toJson : GovernanceOverrides → Except String String) (gov : Governance)
    (f : Edit) : FileProgram (Except GovernanceError Unit × Governance) :=
  match f gov.overrides gov.baseline with
  | .error e => return (.error e, gov)
  | .ok candidate =>
      match gov.overridesPath with
      | none => return (.ok (), gov.swapIn candidate)
      | some path => do
          match ← writeOverridesAtomic toJson path candidate with
          | .error e => return (.error (.persist e), gov)
          | .ok () => return (.ok (), gov.swapIn candidate)

variable (toJson : GovernanceOverrides → Except String String) {gov : Governance} {f : Edit}
  {new : GovernanceOverrides}

theorem mutate_of_rejected {e : GovernanceError} (hf : f gov.overrides gov.baseline = .error e) :
    gov.mutate toJson f = pure (.error e, gov) := by
  unfold mutate
  rw [hf]

theorem mutate_of_unpersisted (hf : f gov.overrides gov.baseline = .ok new)
    (hpath : gov.overridesPath = none) :
    gov.mutate toJson f = pure (.ok (), gov.swapIn new) := by
  unfold mutate
  rw [hf, hpath]

/-- What an accepted edit does once the file is written or not. -/
def finishEdit (gov : Governance) (new : GovernanceOverrides) :
    Except String Unit → FileProgram (Except GovernanceError Unit × Governance)
  | .error e => pure (.error (.persist e), gov)
  | .ok () => pure (.ok (), gov.swapIn new)

theorem mutate_of_accepted {path : OverridesPath}
    (hf : f gov.overrides gov.baseline = .ok new) (hpath : gov.overridesPath = some path) :
    gov.mutate toJson f = writeOverridesAtomic toJson path new >>= finishEdit gov new := by
  unfold mutate
  rw [hf, hpath]
  rfl

end Governance

/-! ### The disk -/

/-- The contents of the overrides file and of the temporary file. -/
structure Disk where
  target : Option String
  tmp : Option String
  deriving DecidableEq, Repr

/-- Which file operations fail, and with what error. A failed write leaves anything in
the temporary file; renames are told apart by how many came before. -/
structure FailurePattern where
  createDirAll : Option String
  write : Option (String × Option String)
  rename : ℕ → Option String
  removeFile : Option String

/-- The disk, and the number of renames tried so far. -/
structure FileState where
  disk : Disk
  renames : ℕ := 0
  deriving DecidableEq, Repr

/-- The result of an operation that fails with the given error, if any. -/
def failing : Option String → Except String Unit
  | none => .ok ()
  | some e => .error e

/-- One file operation. A rename is atomic: it replaces the target or does nothing. -/
def FailurePattern.handle (pattern : FailurePattern) :
    Program.Handler FileCmd.Resp FileState := fun s c =>
  match c with
  | .createDirAll _ => (failing pattern.createDirAll, s)
  | .writeTmp text =>
      match pattern.write with
      | none => (.ok (), { s with disk.tmp := some text })
      | some (e, left) => (.error e, { s with disk.tmp := left })
  | .renameTmp =>
      match pattern.rename s.renames with
      | none => (.ok (), ⟨⟨s.disk.tmp, none⟩, s.renames + 1⟩)
      | some e => (.error e, { s with renames := s.renames + 1 })
  | .targetExists => (s.disk.target.isSome, s)
  | .removeTarget =>
      match pattern.removeFile with
      | none => (.ok (), { s with disk.target := none })
      | some e => (.error e, s)

end Anemoi
