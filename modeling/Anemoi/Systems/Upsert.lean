import Mathlib.Data.List.Dedup
import Mathlib.Data.List.Induction
import Mathlib.Data.List.Pairwise

/-!
# Two ways to keep the latest entry of each key

A list of entries with keys can take in an entry for a key it already has in two
ways: `replaceKeyed` puts it in the place of the old entry, `moveToEnd` drops the old
entry and appends. Both are upserts (`IsUpsert`): afterwards the list has the new entry
and the old entries of other keys. So after any run of them they hold the same entries,
the latest of each key, but in different orders, `replaceKeyed` by the first entry of
each key and `moveToEnd` by its last. `foldl_eq_iff` says when the two orders are one.
-/

namespace Systems

variable {α κ : Type*} [DecidableEq κ] (key : α → κ)

/-- `a` in the place of the entry with its key, or behind all entries. -/
def replaceKeyed (l : List α) (a : α) : List α :=
  if key a ∈ l.map key then l.map fun b => if key b = key a then a else b else l ++ [a]

/-- The entries with another key than `a`, and `a` behind them. -/
def moveToEnd (l : List α) (a : α) : List α :=
  l.filter (fun b => key b ≠ key a) ++ [a]

/-- The list gets the new entry and keeps the old ones that have another key. -/
def IsUpsert (f : List α → α → List α) : Prop :=
  ∀ l a b, b ∈ f l a ↔ b = a ∨ b ∈ l ∧ key b ≠ key a

theorem isUpsert_replaceKeyed : IsUpsert key (replaceKeyed key) := by
  intro l a b
  unfold replaceKeyed
  by_cases h : key a ∈ l.map key
  · rw [if_pos h, List.mem_map]
    constructor
    · rintro ⟨c, hc, rfl⟩
      by_cases hca : key c = key a
      · exact Or.inl (if_pos hca)
      · rw [if_neg hca]
        exact Or.inr ⟨hc, hca⟩
    · rintro (rfl | ⟨hb, hne⟩)
      · obtain ⟨c, hc, hkey⟩ := List.mem_map.mp h
        exact ⟨c, hc, if_pos hkey⟩
      · exact ⟨b, hb, if_neg hne⟩
  · rw [if_neg h, List.mem_append, List.mem_singleton, or_comm]
    have hne : b ∈ l → key b ≠ key a := fun hb he => h (he ▸ List.mem_map_of_mem hb)
    rw [and_iff_left_of_imp hne]

theorem isUpsert_moveToEnd : IsUpsert key (moveToEnd key) := by
  intro l a b
  rw [moveToEnd, List.mem_append, List.mem_filter, List.mem_singleton, or_comm,
    decide_eq_true_eq]

/-! ### New keys -/

/-- An entry whose key is new comes last. -/
def AppendsNew (f : List α → α → List α) : Prop :=
  ∀ l a, key a ∉ l.map key → f l a = l ++ [a]

theorem appendsNew_replaceKeyed : AppendsNew key (replaceKeyed key) :=
  fun _ _ h => if_neg h

theorem appendsNew_moveToEnd : AppendsNew key (moveToEnd key) := by
  intro l a h
  have hkept : l.filter (fun b => key b ≠ key a) = l := by
    refine List.filter_eq_self.mpr fun b hb => decide_eq_true fun he => h ?_
    rw [← he]
    exact List.mem_map_of_mem hb
  rw [moveToEnd, hkept]

omit [DecidableEq κ] in
/-- Entries with different keys are kept as they come. -/
theorem AppendsNew.foldl_of_nodup {key : α → κ} {f : List α → α → List α}
    (hf : AppendsNew key f) {as : List α} (h : (as.map key).Nodup) : as.foldl f [] = as := by
  induction as using List.reverseRecOn with
  | nil => rfl
  | append_singleton as a ih =>
      rw [List.map_append, List.map_singleton, List.nodup_append_comm, List.singleton_append,
        List.nodup_cons] at h
      rw [List.foldl_concat, ih h.2, hf as a h.1]

/-- Among entries with different keys each is the one found by its key. -/
theorem find?_key_of_nodup {key : α → κ} {l : List α} (h : (l.map key).Nodup) {a : α}
    (ha : a ∈ l) : l.find? (fun b => key b = key a) = some a := by
  have hsome : (l.find? fun b => key b = key a).isSome := by
    rw [List.find?_isSome]
    exact ⟨a, ha, decide_eq_true rfl⟩
  obtain ⟨b, hb⟩ := Option.isSome_iff_exists.mp hsome
  have hkey : key b = key a := by simpa using List.find?_some hb
  rw [hb, List.inj_on_of_nodup_map h (List.mem_of_find?_eq_some hb) ha hkey]

section Latest

variable {key} {f : List α → α → List α}

/-- After a run of upserts the list has the latest entry of each key. -/
theorem IsUpsert.mem_foldl_iff (hf : IsUpsert key f) (as : List α) (b : α) :
    b ∈ as.foldl f [] ↔ as.reverse.find? (fun c => key c = key b) = some b := by
  induction as using List.reverseRecOn with
  | nil => simp
  | append_singleton as a ih =>
      rw [List.foldl_concat, hf, ih, List.reverse_concat, List.find?_cons]
      by_cases h : key a = key b
      · simp [h, eq_comm]
      · have hba : b ≠ a := fun he => h (he ▸ rfl)
        simp [h, hba, Ne.symm h]

theorem IsUpsert.find?_foldl (hf : IsUpsert key f) (as : List α) (k : κ) :
    (as.foldl f []).find? (fun c => key c = k) = as.reverse.find? fun c => key c = k := by
  cases h : as.reverse.find? (fun c => key c = k) with
  | none =>
      rw [List.find?_eq_none] at h ⊢
      intro b hb
      rw [hf.mem_foldl_iff] at hb
      exact h b (List.mem_of_find?_eq_some hb)
  | some b =>
      have hkey : key b = k := by simpa using List.find?_some h
      have hmem : b ∈ as.foldl f [] := by rw [hf.mem_foldl_iff, hkey, h]
      cases hfind : (as.foldl f []).find? (fun c => key c = k) with
      | none => exact absurd hkey (by simpa using List.find?_eq_none.mp hfind b hmem)
      | some c =>
          have hc : key c = k := by simpa using List.find?_some hfind
          have hlatest := (hf.mem_foldl_iff as c).mp (List.mem_of_find?_eq_some hfind)
          rw [hc, h] at hlatest
          exact hlatest.symm

theorem IsUpsert.mem_map_foldl_iff (hf : IsUpsert key f) (as : List α) (k : κ) :
    k ∈ (as.foldl f []).map key ↔ k ∈ as.map key := by
  constructor
  · intro h
    obtain ⟨b, hb, rfl⟩ := List.mem_map.mp h
    have hfound := List.mem_of_find?_eq_some ((hf.mem_foldl_iff as b).mp hb)
    exact List.mem_map_of_mem (List.mem_reverse.mp hfound)
  · intro h
    obtain ⟨a, ha, rfl⟩ := List.mem_map.mp h
    have hsome : (as.reverse.find? fun c => key c = key a).isSome := by
      rw [List.find?_isSome]
      exact ⟨a, List.mem_reverse.mpr ha, by simp⟩
    obtain ⟨b, hb⟩ := Option.isSome_iff_exists.mp hsome
    have hkey : key b = key a := by simpa using List.find?_some hb
    exact List.mem_map.mpr ⟨b, (hf.mem_foldl_iff as b).mpr (by rw [hkey, hb]), hkey⟩

end Latest

/-! ### The order of the entries -/

/-- `replaceKeyed` keeps the entries in the order in which their keys came first. -/
theorem pairwise_foldl_replaceKeyed (as : List α) :
    (as.foldl (replaceKeyed key) []).Pairwise fun a b =>
      (as.map key).idxOf (key a) < (as.map key).idxOf (key b) := by
  induction as using List.reverseRecOn with
  | nil => exact List.Pairwise.nil
  | append_singleton as a ih =>
      have hkeys := (isUpsert_replaceKeyed key).mem_map_foldl_iff as
      rw [List.foldl_concat, List.map_append, List.map_singleton]
      generalize as.foldl (replaceKeyed key) [] = l at ih hkeys
      have hmem : ∀ b ∈ l, key b ∈ as.map key :=
        fun b hb => (hkeys _).mp (List.mem_map_of_mem hb)
      have hold : l.Pairwise fun b c =>
          (as.map key ++ [key a]).idxOf (key b) < (as.map key ++ [key a]).idxOf (key c) := by
        refine ih.imp_of_mem fun {b c} hb hc hlt => ?_
        rwa [List.idxOf_append_of_mem (hmem b hb), List.idxOf_append_of_mem (hmem c hc)]
      unfold replaceKeyed
      by_cases h : key a ∈ l.map key
      · have hkey : ∀ b, key (if key b = key a then a else b) = key b := by
          intro b
          split
          next he => exact he.symm
          next => rfl
        rw [if_pos h, List.pairwise_map]
        simpa only [hkey] using hold
      · rw [if_neg h, List.pairwise_append]
        refine ⟨hold, List.pairwise_singleton _ a, ?_⟩
        intro b hb c hc
        rw [List.mem_singleton.mp hc, List.idxOf_append_of_mem (hmem b hb),
          List.idxOf_append_of_notMem fun ha => h ((hkeys _).mpr ha)]
        exact Nat.lt_add_right _ (List.idxOf_lt_length_of_mem (hmem b hb))

/-- `moveToEnd` keeps the entries in the order in which their keys came last. -/
theorem pairwise_foldl_moveToEnd (as : List α) :
    (as.foldl (moveToEnd key) []).Pairwise fun a b =>
      (as.map key).reverse.idxOf (key b) < (as.map key).reverse.idxOf (key a) := by
  induction as using List.reverseRecOn with
  | nil => exact List.Pairwise.nil
  | append_singleton as a ih =>
      have hne : ∀ b ∈ (as.foldl (moveToEnd key) []).filter (fun b => key b ≠ key a),
          key a ≠ key b := fun b hb => Ne.symm (of_decide_eq_true (List.mem_filter.mp hb).2)
      rw [List.foldl_concat, List.map_append, List.map_singleton, List.reverse_concat, moveToEnd,
        List.pairwise_append]
      refine ⟨?_, List.pairwise_singleton _ a, ?_⟩
      · refine (ih.filter _).imp_of_mem fun {b c} hb hc hlt => ?_
        rw [List.idxOf_cons_ne _ (hne b hb), List.idxOf_cons_ne _ (hne c hc)]
        exact Nat.succ_lt_succ hlt
      · intro b hb c hc
        rw [List.mem_singleton.mp hc, List.idxOf_cons_self, List.idxOf_cons_ne _ (hne b hb)]
        exact Nat.succ_pos _

/-- Of two keys the one that comes first also has its last occurrence first. -/
def FirstOrderIsLastOrder (keys : List κ) : Prop :=
  ∀ j ∈ keys, ∀ k ∈ keys,
    keys.idxOf j < keys.idxOf k → keys.reverse.idxOf k < keys.reverse.idxOf j

instance (keys : List κ) : Decidable (FirstOrderIsLastOrder keys) :=
  inferInstanceAs (Decidable (∀ j ∈ keys, _))

/-- The two ways to upsert give the same list exactly when the keys came first in the
order in which they came last. -/
theorem foldl_eq_iff (as : List α) :
    as.foldl (replaceKeyed key) [] = as.foldl (moveToEnd key) [] ↔
      FirstOrderIsLastOrder (as.map key) := by
  have hfirst := pairwise_foldl_replaceKeyed key as
  have hlast := pairwise_foldl_moveToEnd key as
  have hkeys := (isUpsert_replaceKeyed key).mem_map_foldl_iff as
  constructor
  · intro heq j hj k hk hjk
    obtain ⟨a, ha, rfl⟩ := List.mem_map.mp ((hkeys j).mpr hj)
    obtain ⟨b, hb, rfl⟩ := List.mem_map.mp ((hkeys k).mpr hk)
    rw [← heq] at hlast
    -- both orders at once, made symmetric: `a` stands before `b` or behind it
    have hboth := (hfirst.and hlast).imp fun {x y} h =>
      (Or.inl h : _ ∨ ((as.map key).idxOf (key y) < (as.map key).idxOf (key x) ∧
        (as.map key).reverse.idxOf (key x) < (as.map key).reverse.idxOf (key y)))
    have : Std.Symm fun x y =>
        ((as.map key).idxOf (key x) < (as.map key).idxOf (key y) ∧
          (as.map key).reverse.idxOf (key y) < (as.map key).reverse.idxOf (key x)) ∨
        ((as.map key).idxOf (key y) < (as.map key).idxOf (key x) ∧
          (as.map key).reverse.idxOf (key x) < (as.map key).reverse.idxOf (key y)) :=
      ⟨fun _ _ h => h.symm⟩
    have hne : a ≠ b := fun he => Nat.lt_irrefl _ (he ▸ hjk)
    rcases hboth.forall ha hb hne with h | h
    · exact h.2
    · exact absurd hjk (Nat.lt_asymm h.1)
  · intro horder
    have hnodup : (as.foldl (replaceKeyed key) []).Nodup :=
      hfirst.imp fun {a b} h (he : a = b) => Nat.lt_irrefl _ (he ▸ h)
    have hnodup' : (as.foldl (moveToEnd key) []).Nodup :=
      hlast.imp fun {a b} h (he : a = b) => Nat.lt_irrefl _ (he ▸ h)
    have hperm : (as.foldl (replaceKeyed key) []).Perm (as.foldl (moveToEnd key) []) := by
      rw [List.perm_ext_iff_of_nodup hnodup hnodup']
      intro b
      rw [(isUpsert_replaceKeyed key).mem_foldl_iff, (isUpsert_moveToEnd key).mem_foldl_iff]
    have hfirst' : (as.foldl (replaceKeyed key) []).Pairwise fun a b =>
        (as.map key).reverse.idxOf (key b) < (as.map key).reverse.idxOf (key a) := by
      refine hfirst.imp_of_mem fun {a b} ha hb hlt => ?_
      exact horder _ ((hkeys _).mp (List.mem_map_of_mem ha)) _
        ((hkeys _).mp (List.mem_map_of_mem hb)) hlt
    exact hperm.eq_of_pairwise (fun a b _ _ h h' => absurd h (Nat.lt_asymm h')) hfirst' hlast

end Systems
