import Anemoi.Runtime.EventStream
import Anemoi.Systems.Ranking
import Mathlib.Data.List.DropRight
import Mathlib.Data.String.Basic

/-!
# Residents from the state cache

The states that llama-swap pushes are kept under the names it reports, which may be paths of
model files. A snapshot lists the loaded ones under their normalized ids, sorted by id. The
map may list its entries in any order, and two names can have one id: the sort keeps such
residents in the order of the map.
-/

namespace Anemoi

open Systems

/-- The residency that a process state is reported as, unless the model is not loaded. -/
def LlamaSwapModelState.residency : LlamaSwapModelState → Option ResidencyState
  | stopped | shutdown => none
  | starting => some .loading
  | ready => some .hotGpu
  | stopping => some .draining

/-- A reported name that is left with nothing; the message quotes the name. -/
inductive RuntimeError where
  | emptyModelId (raw : String)
  deriving DecidableEq, Repr

/-- The bare id of a reported name: without directories and without a file extension. -/
def normalizeModelId (raw : String) : Except RuntimeError ModelId :=
  let normalized := raw.toList.map fun c => if c = '\\' then '/' else c
  let leaf := normalized.rtakeWhile (· ≠ '/')
  let leaf :=
    ((stripSuffix ".gguf".toList leaf).or (stripSuffix ".bin".toList leaf)).getD leaf
  if leaf.isEmpty then .error (.emptyModelId raw) else .ok ⟨String.ofList leaf⟩

/-- The resident of one entry of the cache, if it is loaded and has an id. -/
def residentOf (entry : String × LlamaSwapModelState) : Option ModelResident := do
  let residency ← entry.2.residency
  let modelId ← (normalizeModelId entry.1).toOption
  return {
    modelId
    state := residency
    vramMb := none
    ramMb := none
    kvCacheMb := none
    loadedSince := none }

def residentsFromStates (states : Table String LlamaSwapModelState) : List ModelResident :=
  (states.items.filterMap residentOf).insertionSort fun a b => a.modelId.text ≤ b.modelId.text

/-- The residents have distinct ids, are sorted by them, and are the same for every order of
the map. -/
structure CanonicalResidents (states : Table String LlamaSwapModelState) : Prop where
  distinct : ((residentsFromStates states).map ModelResident.modelId).Nodup
  sorted : (residentsFromStates states).Pairwise fun a b => a.modelId.text ≤ b.modelId.text
  content : ∀ states', SameBindings states states' →
    residentsFromStates states' = residentsFromStates states

/-- The names of loaded models are normalized to distinct ids. -/
def DistinctIds (states : Table String LlamaSwapModelState) : Prop :=
  ∀ name state name' state' id, states.lookup name = some state →
    states.lookup name' = some state' → state.residency.isSome → state'.residency.isSome →
    normalizeModelId name = .ok id → normalizeModelId name' = .ok id → name = name'

/-! ### One entry -/

theorem residentOf_eq_some_iff {entry : String × LlamaSwapModelState} {r : ModelResident} :
    residentOf entry = some r ↔
      entry.2.residency = some r.state ∧ normalizeModelId entry.1 = .ok r.modelId ∧
        r = ⟨r.modelId, r.state, none, none, none, none⟩ := by
  unfold residentOf
  cases hresidency : entry.2.residency with
  | none => simp
  | some residency =>
      cases hid : normalizeModelId entry.1 with
      | error e => simp [Except.toOption]
      | ok id =>
          constructor
          · intro h
            obtain rfl := Option.some.inj h
            exact ⟨rfl, rfl, rfl⟩
          · rintro ⟨hstate, hmodel, hr⟩
            rw [hr, Option.some.inj hstate, Except.ok.inj hmodel]
            rfl

/-- Residents with distinct names and one id are what `DistinctIds` excludes. -/
theorem distinctIds_iff (states : Table String LlamaSwapModelState) :
    DistinctIds states ↔ ∀ e ∈ states.items, ∀ e' ∈ states.items, ∀ a ∈ residentOf e,
      ∀ b ∈ residentOf e', a.modelId = b.modelId → e.1 = e'.1 := by
  constructor
  · rintro h ⟨name, state⟩ he ⟨name', state'⟩ he' a ha b hb hid
    obtain ⟨hstate, hmodel, -⟩ := residentOf_eq_some_iff.mp ha
    obtain ⟨hstate', hmodel', -⟩ := residentOf_eq_some_iff.mp hb
    rw [← hid] at hmodel'
    exact h name state name' state' a.modelId (AList.mem_items.mp he) (AList.mem_items.mp he')
      (Option.isSome_of_eq_some hstate) (Option.isSome_of_eq_some hstate') hmodel hmodel'
  · intro h name state name' state' id hlookup hlookup' hloaded hloaded' hid hid'
    obtain ⟨residency, hstate⟩ := Option.isSome_iff_exists.mp hloaded
    obtain ⟨residency', hstate'⟩ := Option.isSome_iff_exists.mp hloaded'
    exact h (name, state) (AList.mem_items.mpr hlookup) (name', state')
      (AList.mem_items.mpr hlookup') ⟨id, residency, none, none, none, none⟩
      (residentOf_eq_some_iff.mpr ⟨hstate, hid, rfl⟩) ⟨id, residency', none, none, none, none⟩
      (residentOf_eq_some_iff.mpr ⟨hstate', hid', rfl⟩) rfl

/-! ### The order of the map -/

instance : Std.Total fun a b : ModelResident => a.modelId.text ≤ b.modelId.text :=
  ⟨fun _ _ => le_total _ _⟩

instance : IsTrans ModelResident fun a b => a.modelId.text ≤ b.modelId.text :=
  ⟨fun _ _ _ hab hbc => hab.trans hbc⟩

theorem modelId_eq_of_text_le {a b : ModelId} (hab : a.text ≤ b.text) (hba : b.text ≤ a.text) :
    a = b := by
  cases a
  cases b
  exact congrArg ModelId.mk (le_antisymm hab hba)

theorem sameBindings_of_perm {states : Table String LlamaSwapModelState}
    {entries : List (Σ _ : String, LlamaSwapModelState)} (h : states.entries.Perm entries) :
    SameBindings states ⟨entries, (List.perm_nodupKeys h).mp states.nodupKeys⟩ := fun _ =>
  AList.perm_lookup h

theorem residentsFromStates_cons_cons {e e' : Σ _ : String, LlamaSwapModelState}
    {entries : List (Σ _ : String, LlamaSwapModelState)}
    {hkeys : (e :: e' :: entries).NodupKeys} {a b : ModelResident}
    (ha : residentOf (e.1, e.2) = some a) (hb : residentOf (e'.1, e'.2) = some b) :
    residentsFromStates ⟨e :: e' :: entries, hkeys⟩ =
      ((((entries.map fun e => (e.1, e.2)).filterMap residentOf).insertionSort
        fun a b => a.modelId.text ≤ b.modelId.text).orderedInsert
          (fun a b => a.modelId.text ≤ b.modelId.text) b).orderedInsert
            (fun a b => a.modelId.text ≤ b.modelId.text) a := by
  rw [residentsFromStates, AList.items, List.map_cons, List.map_cons,
    List.filterMap_cons_some ha, List.filterMap_cons_some hb]
  rfl

/-- The residents are the same for every order of the map exactly when those with one id are
the same. -/
theorem residentsFromStates_content_iff (states : Table String LlamaSwapModelState) :
    (∀ states', SameBindings states states' →
        residentsFromStates states' = residentsFromStates states) ↔
      ∀ e ∈ states.items, ∀ e' ∈ states.items, ∀ a ∈ residentOf e, ∀ b ∈ residentOf e',
        a.modelId = b.modelId → a = b := by
  constructor
  · intro h e he e' he' a ha b hb hid
    by_contra hne
    obtain ⟨s, hs, rfl⟩ := List.mem_map.mp he
    obtain ⟨s', hs', rfl⟩ := List.mem_map.mp he'
    have hss' : s' ≠ s := by
      rintro rfl
      exact hne (Option.some.inj (ha.symm.trans hb))
    -- the two entries first, in either order
    have hperm : states.entries.Perm (s :: s' :: (states.entries.erase s).erase s') :=
      (List.perm_cons_erase hs).trans
        ((List.perm_cons_erase ((List.mem_erase_of_ne hss').mpr hs')).cons s)
    have hone := h _ (sameBindings_of_perm hperm)
    have hother := h _ (sameBindings_of_perm (hperm.trans (.swap s' s _)))
    rw [residentsFromStates_cons_cons ha hb] at hone
    rw [residentsFromStates_cons_cons hb ha] at hother
    have htext : a.modelId.text = b.modelId.text := congrArg ModelId.text hid
    exact orderedInsert_comm_ne (r := fun a b : ModelResident => a.modelId.text ≤ b.modelId.text)
      htext.le htext.ge hne (hone.trans hother.symm)
  · intro h states' hsame
    have hperm : (states'.items.filterMap residentOf).Perm (states.items.filterMap residentOf) :=
      (hsame.perm.symm.map _).filterMap residentOf
    refine insertionSort_eq_of_perm hperm fun a ha b hb hab hba => ?_
    obtain ⟨e, he, hea⟩ := List.mem_filterMap.mp (hperm.mem_iff.mp ha)
    obtain ⟨e', he', heb⟩ := List.mem_filterMap.mp (hperm.mem_iff.mp hb)
    exact h e he e' he' a hea b heb (modelId_eq_of_text_le hab hba)

theorem nodup_residentsFromStates_iff (states : Table String LlamaSwapModelState) :
    ((residentsFromStates states).map ModelResident.modelId).Nodup ↔ DistinctIds states := by
  have hperm : (residentsFromStates states).Perm (states.items.filterMap residentOf) :=
    List.perm_insertionSort _ _
  rw [(hperm.map _).nodup_iff, distinctIds_iff, List.Nodup, List.pairwise_map,
    List.pairwise_filterMap]
  constructor
  · intro h e he e' he' a ha b hb hid
    by_contra hne
    have hsymm : Std.Symm fun e e' : String × LlamaSwapModelState =>
        ∀ a, residentOf e = some a → ∀ b, residentOf e' = some b → a.modelId ≠ b.modelId :=
      ⟨fun _ _ hrel a ha b hb heq => hrel b hb a ha heq.symm⟩
    exact h.forall he he' (fun heq => hne (congrArg Prod.fst heq)) a ha b hb hid
  · intro h
    have hkeys := List.pairwise_map.mp (AList.nodup_map_fst_items states)
    exact hkeys.imp_of_mem fun he he' hne a ha b hb hid => hne (h _ he _ he' a ha b hb hid)

/-- The residents are canonical exactly when no two loaded models have one id. -/
theorem canonicalResidents_iff (states : Table String LlamaSwapModelState) :
    CanonicalResidents states ↔ DistinctIds states := by
  constructor
  · intro h
    exact (nodup_residentsFromStates_iff states).mp h.distinct
  · intro h
    refine ⟨(nodup_residentsFromStates_iff states).mpr h, List.pairwise_insertionSort _ _,
      (residentsFromStates_content_iff states).mpr ?_⟩
    rintro ⟨name, state⟩ he ⟨name', state'⟩ he' a ha b hb hid
    -- one name has one state
    obtain rfl : name = name' := (distinctIds_iff states).mp h _ he _ he' a ha b hb hid
    have hlookup := AList.mem_items.mp he
    rw [AList.mem_items.mp he'] at hlookup
    rw [Option.some.inj hlookup] at hb
    exact Option.some.inj (ha.symm.trans hb)

/-- A model that is ready under its path and starting under its id. -/
def twoNames : Table String LlamaSwapModelState :=
  ((∅ : Table String LlamaSwapModelState).insert "qwen9b" .starting).insert
    "models/qwen9b.gguf" .ready

theorem not_canonicalResidents_twoNames : ¬CanonicalResidents twoNames := by
  intro h
  have hids := (nodup_residentsFromStates_iff twoNames).mp h.distinct
  have hnames := hids "models/qwen9b.gguf" .ready "qwen9b" .starting ⟨"qwen9b"⟩ (by decide)
    (by decide) (by decide) (by decide) (by decide) (by decide)
  revert hnames
  decide

end Anemoi
