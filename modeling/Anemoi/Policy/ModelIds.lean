import Anemoi.Core.Governance
import Anemoi.Policy.Candidates
import Anemoi.Text.ParameterScan

/-!
# What a model's id says about it

The scheduler makes up the profile of a live model from its id, and the governance layer infers
what an operator left out; each has its own scan for the parameter class. With the scans run on
the bytes of the id, as the source has them, both still return, and what they return is the
profile and the pair that the rest of the development reads.
-/

namespace Anemoi

namespace ByteScan

/-- There is none where the scan panics. -/
def synthesizeProfile (modelId : ModelId) (runtimeId : RuntimeId) : Option ModelProfile :=
  (extractParameterClass modelId.text).map fun parameterClass =>
    { id := modelId
      family := familyPrefix modelId.text
      parameterClass := parameterClass
      contextWindow := none
      vramRequiredMb := none
      ramRequiredMb := none
      coldLoadEstimateMs := none
      supportsStreaming := some true
      supportedRuntimes := [runtimeId] }

theorem extractParameterClass_eq (id : String) :
    extractParameterClass id = some (Anemoi.extractParameterClass id) :=
  parameterClass_eq id

theorem inferFamilyAndClass_eq (modelId : String) :
    inferFamilyAndClass modelId = some (Anemoi.inferFamilyAndClass modelId) := by
  rw [inferFamilyAndClass, parameterClass_eq]
  rfl

theorem synthesizeProfile_eq (modelId : ModelId) (runtimeId : RuntimeId) :
    synthesizeProfile modelId runtimeId = some (Anemoi.synthesizeProfile modelId runtimeId) := by
  rw [synthesizeProfile, extractParameterClass_eq]
  rfl

end ByteScan

theorem FirstParameterRun.class_ne_unknown {id before run : List Char}
    (h : FirstParameterRun id before run) : String.ofList (run ++ ['b']) ≠ "unknown" := by
  obtain ⟨c, rest, rfl⟩ := List.exists_cons_of_ne_nil h.ne_nil
  have hc := h.digits c List.mem_cons_self
  intro heq
  have hlist := congrArg String.toList heq
  rw [String.toList_ofList, List.cons_append] at hlist
  have hu : c = 'u' := (List.cons.inj hlist).1
  rw [hu] at hc
  exact absurd hc (by decide)

/-- The token of an id is the first maximal run of digits that a `b` follows, with a `b`. -/
theorem parameterToken_cases (id : String) :
    parameterToken id = "unknown" ∧ (¬∃ before run, ParameterRun id.toList before run) ∨
      ∃ before run, FirstParameterRun id.toList before run ∧
        parameterToken id = String.ofList (run ++ ['b']) := by
  rcases scanParameterClass_cases id.toList with ⟨hnone, hno⟩ | ⟨before, run, hfirst, hsome⟩
  · refine .inl ⟨by rw [parameterToken, hnone, Option.getD_none], ?_⟩
    rintro ⟨before, run, h⟩
    exact hno before run h
  · exact .inr ⟨before, run, hfirst, by rw [parameterToken, hsome, Option.getD_some]⟩

/-- Both scans return on every id, without a panic, and read the same off it. -/
theorem modelId_inference (id : String) :
    ∃ family parameterClass,
      ByteScan.extractParameterClass id = some parameterClass ∧
      ByteScan.inferFamilyAndClass id = some (family, parameterClass) ∧
      (∀ runtimeId, ∃ profile, ByteScan.synthesizeProfile ⟨id⟩ runtimeId = some profile ∧
        profile.family = family ∧ profile.parameterClass = parameterClass) ∧
      ((∃ before run, ParameterRun id.toList before run) →
        ∃ before run, FirstParameterRun id.toList before run ∧
          parameterClass = String.ofList (run ++ ['b'])) ∧
      (parameterClass = "unknown" ↔ ¬∃ before run, ParameterRun id.toList before run) := by
  refine ⟨familyPrefix id, parameterToken id, ByteScan.extractParameterClass_eq id,
    ByteScan.inferFamilyAndClass_eq id, ?_, ?_⟩
  · intro runtimeId
    exact ⟨_, ByteScan.synthesizeProfile_eq ⟨id⟩ runtimeId, rfl, rfl⟩
  · rcases parameterToken_cases id with ⟨hunknown, hno⟩ | ⟨before, run, hfirst, hclass⟩
    · exact ⟨fun h => absurd h hno, iff_of_true hunknown hno⟩
    · refine ⟨fun _ => ⟨before, run, hfirst, hclass⟩, iff_of_false ?_ ?_⟩
      · rw [hclass]
        exact hfirst.class_ne_unknown
      · exact not_not_intro ⟨before, run, hfirst.toParameterRun⟩

end Anemoi
