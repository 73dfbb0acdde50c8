import Anemoi.Daemon.Reconciler

/-!
# Transitions and state changes

A reconciliation tick compares the residents of a new snapshot with those the cache has
and records the transitions (`snapshotTransitions`). `stateChanges` is what an observer of
one model would call the changes of its state along a list of snapshots. For a model that
every snapshot reports once the two are the same: `changesOf_transitionsAlong`.
-/

namespace Anemoi

open Systems

/-- A change of a model's residency, from one state to another. -/
abbrev ResidencyChange := ResidencyState × ResidencyState

/-- The entries about one model. -/
def changesOf (model : ModelId) (transitions : List (String × ResidencyChange)) :
    List ResidencyChange :=
  (transitions.filter fun t => t.1 = model.text).map Prod.snd

/-- The state that a list of residents gives for a model; a later entry wins. -/
def stateIn (residents : List ModelResident) (model : ModelId) : Option ResidencyState :=
  (residents.reverse.find? fun r => r.modelId = model).map ModelResident.state

/-- The changes of a model's state from one snapshot to the next; a model that was not
reported before counts as cold, and its first state as a change. -/
def stateChanges (model : ModelId) : List ModelResident → List RuntimeSnapshot →
    List ResidencyChange
  | _, [] => []
  | prior, snapshot :: rest =>
      ((stateIn snapshot.residents model).toList.filterMap fun state =>
        if stateIn prior model = some state then none
        else some ((stateIn prior model).getD .cold, state)) ++
      stateChanges model snapshot.residents rest

/-- The snapshot reports the model, with one state. -/
def RuntimeSnapshot.ReportsOnce (snapshot : RuntimeSnapshot) (model : ModelId) : Prop :=
  (snapshot.residents.map ModelResident.modelId).count model = 1

/-! ### Transitions between snapshots -/

/-- What a tick records for a snapshot, against the residents it has read. -/
def snapshotTransitions (prior current : List ModelResident) :
    List (String × ResidencyChange) :=
  (residentTransitions prior current).map fun t => (t.modelId.text, t.fromState, t.toState)

theorem lookup_priorStates (residents : List ModelResident) (model : ModelId) :
    (priorStates residents).lookup model = stateIn residents model := by
  rw [priorStates, AList.lookup_ofList_eq_find?, stateIn, ← List.map_reverse, List.find?_map,
    Option.map_map]
  rfl

theorem changesOf_cons (model : ModelId) (t : String × ResidencyChange)
    (l : List (String × ResidencyChange)) :
    changesOf model (t :: l) =
      (if t.1 = model.text then [t.2] else []) ++ changesOf model l := by
  by_cases h : t.1 = model.text
  · simp [changesOf, h]
  · simp [changesOf, h]

theorem changesOf_append (model : ModelId) (l l' : List (String × ResidencyChange)) :
    changesOf model (l ++ l') = changesOf model l ++ changesOf model l' := by
  rw [changesOf, List.filter_append, List.map_append, changesOf, changesOf]

/-- A model's transitions come from its own entries. -/
theorem changesOf_snapshotTransitions (prior current : List ModelResident) (model : ModelId) :
    changesOf model (snapshotTransitions prior current) =
      (current.filter fun r => r.modelId = model).filterMap fun r =>
        if stateIn prior model = some r.state then none
        else some ((stateIn prior model).getD .cold, r.state) := by
  induction current with
  | nil => rfl
  | cons r current ih =>
      have htext : r.modelId.text = model.text ↔ r.modelId = model := by
        cases r.modelId
        cases model
        exact (ModelId.mk.injEq ..).symm.to_iff
      rw [snapshotTransitions, residentTransitions] at ih ⊢
      rw [List.filterMap_cons, lookup_priorStates]
      by_cases h : r.modelId = model
      · rw [List.filter_cons_of_pos (by simpa using h), List.filterMap_cons, ← ih, ← h]
        cases hprior : stateIn prior r.modelId with
        | none => simp [changesOf_cons]
        | some state =>
            by_cases hstate : state = r.state
            · simp [hstate]
            · simp [hstate, changesOf_cons]
      · rw [List.filter_cons_of_neg (by simpa using h), ← ih]
        have hother : ¬r.modelId.text = model.text := fun he => h (htext.mp he)
        cases hprior : stateIn prior r.modelId with
        | none => simp [changesOf_cons, hother]
        | some state =>
            by_cases hstate : state = r.state
            · simp [hstate]
            · simp [hstate, changesOf_cons, hother]

theorem stateIn_of_filter {residents : List ModelResident} {model : ModelId} {r : ModelResident}
    (h : (residents.filter fun r => r.modelId = model) = [r]) :
    stateIn residents model = some r.state := by
  rw [stateIn, ← List.head?_filter, List.filter_reverse, h]
  rfl

/-- A tick records the change of state of a model that is reported once. -/
theorem changesOf_of_reportsOnce {snapshot : RuntimeSnapshot} {model : ModelId}
    (h : snapshot.ReportsOnce model) (prior : List ModelResident) :
    changesOf model (snapshotTransitions prior snapshot.residents) =
      stateChanges model prior [snapshot] := by
  have hlength : (snapshot.residents.filter fun r => r.modelId = model).length = 1 := by
    rw [RuntimeSnapshot.ReportsOnce, List.count_eq_countP, List.countP_map,
      List.countP_eq_length_filter] at h
    rw [← h]
    congr 1
  obtain ⟨r, hr⟩ := List.length_eq_one_iff.mp hlength
  rw [changesOf_snapshotTransitions, hr, stateChanges, stateIn_of_filter hr, stateChanges,
    List.append_nil]
  rfl

/-- What the ticks record that store these snapshots one after another. -/
def transitionsAlong : List ModelResident → List RuntimeSnapshot →
    List (String × ResidencyChange)
  | _, [] => []
  | prior, snapshot :: rest =>
      snapshotTransitions prior snapshot.residents ++ transitionsAlong snapshot.residents rest

/-- The residents that were stored last. -/
def lastResidents (prior : List ModelResident) (snapshots : List RuntimeSnapshot) :
    List ModelResident :=
  snapshots.foldl (fun _ snapshot => snapshot.residents) prior

theorem transitionsAlong_concat (prior : List ModelResident) (snapshots : List RuntimeSnapshot)
    (snapshot : RuntimeSnapshot) :
    transitionsAlong prior (snapshots ++ [snapshot]) =
      transitionsAlong prior snapshots ++
        snapshotTransitions (lastResidents prior snapshots) snapshot.residents := by
  induction snapshots generalizing prior with
  | nil => simp [transitionsAlong, lastResidents]
  | cons s snapshots ih =>
      rw [List.cons_append, transitionsAlong, ih, transitionsAlong, List.append_assoc]
      rfl

theorem changesOf_transitionsAlong {snapshots : List RuntimeSnapshot} {model : ModelId}
    (h : ∀ snapshot ∈ snapshots, snapshot.ReportsOnce model) (prior : List ModelResident) :
    changesOf model (transitionsAlong prior snapshots) = stateChanges model prior snapshots := by
  induction snapshots generalizing prior with
  | nil => rfl
  | cons snapshot snapshots ih =>
      rw [List.forall_mem_cons] at h
      rw [transitionsAlong, changesOf_append, changesOf_of_reportsOnce h.1, ih h.2]
      rw [stateChanges, stateChanges, List.append_nil, stateChanges]

end Anemoi
