import Mathlib.Data.List.AList
import Mathlib.Data.List.Induction

/-!
# Finite tables

A `Table κ ν` is a finite map with at most one binding per key. It is Mathlib's
association list with distinct keys, so lookup, insertion and erasure are
Mathlib's, and the list of bindings is one concrete iteration order of the map.

Programs that layer one map over another do it in a loop: every binding of the
second map is merged into the first, or every key of a set is dropped from it.
`mergeWith` and `eraseAll` are these two loops, and `lookup_mergeWith` and
`lookup_eraseAll` read them key by key, which is all a later proof needs.
-/

namespace Systems

/-- A finite map from `κ` to `ν` with distinct keys. -/
abbrev Table (κ ν : Type*) := AList fun _ : κ => ν

/-- A finite set of keys. -/
abbrev KeySet (κ : Type*) := Table κ Unit

/-- Two tables with the same bindings, whatever their iteration order. -/
def SameBindings {κ ν : Type*} [DecidableEq κ] (m m' : Table κ ν) : Prop :=
  ∀ k, m.lookup k = m'.lookup k

theorem SameBindings.perm {κ ν : Type*} [DecidableEq κ] {m m' : Table κ ν}
    (h : SameBindings m m') : m.entries.Perm m'.entries := by
  refine List.lookup_ext m.nodupKeys m'.nodupKeys fun k v => ?_
  have hk : m.entries.dlookup k = m'.entries.dlookup k := h k
  rw [hk]

end Systems

namespace AList

open Systems

variable {κ ν ν' : Type*}

/-- The bindings of a table in iteration order. -/
def items (m : Table κ ν) : List (κ × ν) :=
  m.entries.map fun e => (e.1, e.2)

/-- The values of a table in iteration order. -/
def values (m : Table κ ν) : List ν :=
  m.entries.map Sigma.snd

variable [DecidableEq κ]

theorem mem_items {m : Table κ ν} {k : κ} {v : ν} :
    (k, v) ∈ m.items ↔ m.lookup k = some v := by
  rw [← Option.mem_def, mem_lookup_iff, items, List.mem_map]
  constructor
  · rintro ⟨⟨k', v'⟩, hmem, heq⟩
    obtain ⟨rfl, rfl⟩ := Prod.mk.inj heq
    exact hmem
  · intro hmem
    exact ⟨⟨k, v⟩, hmem, rfl⟩

theorem mem_values {m : Table κ ν} {v : ν} :
    v ∈ m.values ↔ ∃ k, m.lookup k = some v := by
  rw [values, List.mem_map]
  constructor
  · rintro ⟨⟨k, v'⟩, hmem, rfl⟩
    exact ⟨k, mem_lookup_iff.mpr hmem⟩
  · rintro ⟨k, hk⟩
    exact ⟨⟨k, v⟩, mem_lookup_iff.mp hk, rfl⟩

theorem mem_iff_lookup {m : Table κ ν} {k : κ} : k ∈ m ↔ ∃ v, m.lookup k = some v := by
  rw [← lookup_isSome, Option.isSome_iff_exists]

theorem decide_mem (m : Table κ ν) (k : κ) : decide (k ∈ m) = (m.lookup k).isSome :=
  Bool.eq_iff_iff.mpr (decide_eq_true_iff.trans lookup_isSome.symm)

theorem lookup_insert_eq_ite (m : Table κ ν) (k k' : κ) (v : ν) :
    (m.insert k v).lookup k' = if k' = k then some v else m.lookup k' := by
  by_cases h : k' = k
  · subst h
    simp
  · rw [if_neg h, lookup_insert_ne h]

theorem lookup_erase_eq_ite (m : Table κ ν) (k k' : κ) :
    (m.erase k).lookup k' = if k' = k then none else m.lookup k' := by
  by_cases h : k' = k
  · subst h
    simp
  · rw [if_neg h, lookup_erase_ne h]

/-- Give a key a value, or none. -/
def set (m : Table κ ν) (k : κ) : Option ν → Table κ ν
  | some v => m.insert k v
  | none => m.erase k

theorem lookup_set (m : Table κ ν) (k k' : κ) (v : Option ν) :
    (m.set k v).lookup k' = if k' = k then v else m.lookup k' := by
  cases v with
  | none => exact lookup_erase_eq_ite m k k'
  | some v => exact lookup_insert_eq_ite m k k' v

/-- The table that holds the bindings of `l`; a later binding replaces an
earlier one of the same key. -/
def ofList (l : List (κ × ν)) : Table κ ν :=
  l.foldl (fun m e => m.insert e.1 e.2) ∅

/-- The bindings whose value has the property `p`. -/
def retain (m : Table κ ν) (p : ν → Bool) : Table κ ν :=
  ⟨m.entries.filter fun e => p e.2, m.nodupKeys.sublist List.filter_sublist⟩

section MapItems

variable (f : κ → ν → ν')

omit [DecidableEq κ] in
/-- Change every value, which may depend on its key; the iteration order stays. -/
def mapItems (m : Table κ ν) : Table κ ν' where
  entries := m.entries.map (.map id f)
  nodupKeys := by
    rw [List.NodupKeys, List.keys, List.map_map]
    exact m.nodupKeys

theorem lookup_mapItems (m : Table κ ν) (k : κ) :
    (m.mapItems f).lookup k = (m.lookup k).map (f k) :=
  List.dlookup_map₂ k

omit [DecidableEq κ] in
theorem items_mapItems (m : Table κ ν) :
    (m.mapItems f).items = m.items.map fun e => (e.1, f e.1 e.2) := by
  rw [items, items, mapItems, List.map_map, List.map_map]
  rfl

end MapItems

section Merge

variable (f : κ → Option ν → ν' → Option ν)

/-- Merge one binding: `f` sees the key, the value the table has for it and the
incoming value, and decides what to store, if anything. -/
def mergeOne (m : Table κ ν) (e : κ × ν') : Table κ ν :=
  match f e.1 (m.lookup e.1) e.2 with
  | some v => m.insert e.1 v
  | none => m

/-- Merge every binding of `o` into `m`, in the iteration order of `o`. -/
def mergeWith (m : Table κ ν) (o : Table κ ν') : Table κ ν :=
  o.items.foldl (mergeOne f) m

theorem lookup_mergeOne_self (m : Table κ ν) (k : κ) (w : ν') :
    (mergeOne f m (k, w)).lookup k = (f k (m.lookup k) w).or (m.lookup k) := by
  unfold mergeOne
  cases h : f k (m.lookup k) w with
  | none => simp
  | some v => simp

theorem lookup_mergeOne_ne (m : Table κ ν) {k k' : κ} (w : ν') (h : k' ≠ k) :
    (mergeOne f m (k, w)).lookup k' = m.lookup k' := by
  unfold mergeOne
  cases f k (m.lookup k) w with
  | none => rfl
  | some v => exact lookup_insert_ne h

theorem lookup_foldl_mergeOne_of_notMem (l : List (κ × ν')) (m : Table κ ν) {k : κ}
    (h : k ∉ l.map Prod.fst) :
    (l.foldl (mergeOne f) m).lookup k = m.lookup k := by
  induction l generalizing m with
  | nil => rfl
  | cons e l ih =>
      rw [List.map_cons, List.mem_cons, not_or] at h
      rw [List.foldl_cons, ih _ h.2, lookup_mergeOne_ne f m e.2 h.1]

theorem lookup_foldl_mergeOne (l : List (κ × ν')) (hl : (l.map Prod.fst).Nodup)
    (m : Table κ ν) {k : κ} {w : ν'} (h : (k, w) ∈ l) :
    (l.foldl (mergeOne f) m).lookup k = (f k (m.lookup k) w).or (m.lookup k) := by
  induction l generalizing m with
  | nil => cases h
  | cons e l ih =>
      rw [List.map_cons, List.nodup_cons] at hl
      rw [List.foldl_cons]
      rcases List.mem_cons.mp h with rfl | htail
      · rw [lookup_foldl_mergeOne_of_notMem f l _ hl.1, lookup_mergeOne_self]
      · have hne : k ≠ e.1 := by
          rintro rfl
          exact hl.1 (List.mem_map.mpr ⟨_, htail, rfl⟩)
        rw [ih hl.2 _ htail, lookup_mergeOne_ne f m e.2 hne]

omit [DecidableEq κ] in
theorem nodup_map_fst_items (o : Table κ ν') : (o.items.map Prod.fst).Nodup := by
  have h : o.items.map Prod.fst = o.keys := by
    simp [items, keys, List.keys, Function.comp_def]
  rw [h]
  exact o.keys_nodup

/-- A merged table, read key by key. -/
theorem lookup_mergeWith (m : Table κ ν) (o : Table κ ν') (k : κ) :
    (mergeWith f m o).lookup k =
      match o.lookup k with
      | some w => (f k (m.lookup k) w).or (m.lookup k)
      | none => m.lookup k := by
  unfold mergeWith
  cases h : o.lookup k with
  | some w =>
      exact lookup_foldl_mergeOne f o.items (nodup_map_fst_items o) m (mem_items.mpr h)
  | none =>
      apply lookup_foldl_mergeOne_of_notMem
      rw [List.mem_map]
      rintro ⟨⟨k', w⟩, hmem, rfl⟩
      rw [mem_items.mp hmem] at h
      cases h

end Merge

/-- A table built from distinct keys holds exactly the bindings it was built from. -/
theorem lookup_ofList {l : List (κ × ν)} (hl : (l.map Prod.fst).Nodup) {k : κ} {v : ν} :
    (ofList l).lookup k = some v ↔ (k, v) ∈ l := by
  have hfold : ofList l = l.foldl (mergeOne fun _ _ w => some w) ∅ := rfl
  rw [hfold]
  constructor
  · intro h
    by_contra hmem
    by_cases hk : k ∈ l.map Prod.fst
    · obtain ⟨⟨k', w⟩, hw, rfl⟩ := List.mem_map.mp hk
      rw [lookup_foldl_mergeOne _ l hl ∅ hw, Option.some_or, Option.some.injEq] at h
      exact hmem (h ▸ hw)
    · rw [lookup_foldl_mergeOne_of_notMem _ l ∅ hk, lookup_empty] at h
      cases h
  · intro h
    rw [lookup_foldl_mergeOne _ l hl ∅ h, Option.some_or]

/-- The binding that a table has for a key is the last one of the list it is built from. -/
theorem lookup_ofList_eq_find? (l : List (κ × ν)) (k : κ) :
    (ofList l).lookup k = (l.reverse.find? fun e => e.1 = k).map Prod.snd := by
  induction l using List.reverseRecOn with
  | nil => rfl
  | append_singleton l e ih =>
      rw [ofList] at ih ⊢
      rw [List.foldl_concat, lookup_insert_eq_ite, ih, List.reverse_concat, List.find?_cons]
      by_cases h : k = e.1
      · simp [h]
      · simp [h, Ne.symm h]

omit [DecidableEq κ] in
/-- Selected and rewritten bindings keep distinct keys when each keeps its own. -/
theorem nodup_map_fst_filterMap {f : κ × ν → Option (κ × ν')}
    (hf : ∀ e e', f e = some e' → e'.1 = e.1) (m : Table κ ν) :
    ((m.items.filterMap f).map Prod.fst).Nodup := by
  have hsub : ∀ l : List (κ × ν), ((l.filterMap f).map Prod.fst).Sublist (l.map Prod.fst) := by
    intro l
    induction l with
    | nil => exact List.Sublist.slnil
    | cons e l ih =>
        cases h : f e with
        | none =>
            rw [List.filterMap_cons_none h, List.map_cons]
            exact ih.cons e.1
        | some e' =>
            rw [List.filterMap_cons_some h, List.map_cons, List.map_cons, hf e e' h]
            exact ih.cons_cons e.1
  exact (nodup_map_fst_items m).sublist (hsub _)

/-- Drop every key of `ks` from `m`. -/
def eraseAll (m : Table κ ν) (ks : KeySet κ) : Table κ ν :=
  ks.keys.foldl (fun m k => m.erase k) m

theorem lookup_foldl_erase (l : List κ) (m : Table κ ν) (k : κ) :
    (l.foldl (fun m k => m.erase k) m).lookup k = if k ∈ l then none else m.lookup k := by
  induction l generalizing m with
  | nil => simp
  | cons a l ih =>
      rw [List.foldl_cons, ih, lookup_erase_eq_ite]
      by_cases hl : k ∈ l <;> by_cases ha : k = a <;> simp [hl, ha]

theorem lookup_eraseAll (m : Table κ ν) (ks : KeySet κ) (k : κ) :
    (eraseAll m ks).lookup k = if k ∈ ks then none else m.lookup k := by
  simp only [eraseAll, lookup_foldl_erase, mem_keys]

end AList
