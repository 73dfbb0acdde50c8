import Mathlib.Data.List.MinMax
import Mathlib.Data.List.Sort

/-!
# Ranking by a key

`rankBy key l` is the stable sort of `l` from the largest key to the smallest:
elements with equal keys keep the order they have in `l`. `maxByKey key l` is the
element with the largest key, the last one of them on a tie; `minByKey key l` is the one
with the smallest key, the first on a tie.

The choice made after a ranking is usually its first element with some property
`p`. `find?_rankBy_eq_some_iff` says which one that is, in terms of the list before it was
ranked: of the elements with the property and the largest key, the first.

A stable sort depends on the order of its input as far as its comparison ties:
`insertionSort_eq_of_perm` and `orderedInsert_comm_ne`.
-/

namespace Systems

variable {α ι : Type*} [LinearOrder ι]

/-- The elements of `l` from the largest key to the smallest; ties keep their
order. -/
def rankBy (key : α → ι) (l : List α) : List α :=
  l.insertionSort fun a b => key b ≤ key a

theorem rankBy_cons (key : α → ι) (b : α) (l : List α) :
    rankBy key (b :: l) = (rankBy key l).orderedInsert (fun a b => key b ≤ key a) b := rfl

theorem mem_rankBy {key : α → ι} {l : List α} {a : α} : a ∈ rankBy key l ↔ a ∈ l :=
  List.mem_insertionSort _

theorem pairwise_rankBy (key : α → ι) (l : List α) :
    (rankBy key l).Pairwise fun a b => key b ≤ key a := by
  have htotal : Std.Total fun a b : α => key b ≤ key a := ⟨fun a b => le_total _ _⟩
  have htrans : IsTrans α fun a b => key b ≤ key a := ⟨fun a b c hab hbc => hbc.trans hab⟩
  exact List.pairwise_insertionSort _ l

/-- Of the elements of `l` with the property `p`, `a` is the first that has the largest
key. -/
def FirstBest (key : α → ι) (p : α → Bool) (l : List α) (a : α) : Prop :=
  ∃ before after, l = before ++ a :: after ∧ p a = true ∧
    (∀ b ∈ before, p b = true → key b < key a) ∧ ∀ b ∈ after, p b = true → key b ≤ key a

namespace FirstBest

variable {key : α → ι} {p : α → Bool} {l : List α} {a : α}

theorem mem (h : FirstBest key p l a) : a ∈ l := by
  obtain ⟨before, after, rfl, -⟩ := h
  exact List.mem_append_right _ List.mem_cons_self

theorem holds (h : FirstBest key p l a) : p a = true := by
  obtain ⟨-, -, -, ha, -⟩ := h
  exact ha

theorem key_le (h : FirstBest key p l a) {b : α} (hb : b ∈ l) (hpb : p b = true) :
    key b ≤ key a := by
  obtain ⟨before, after, rfl, -, hbefore, hafter⟩ := h
  rcases List.mem_append.mp hb with hb | hb
  · exact (hbefore b hb hpb).le
  · rcases List.mem_cons.mp hb with rfl | hb
    · exact le_rfl
    · exact hafter b hb hpb

theorem unique {a' : α} (h : FirstBest key p l a) (h' : FirstBest key p l a') : a = a' := by
  obtain ⟨before, after, rfl, ha, hbefore, hafter⟩ := h
  obtain ⟨before', after', hl, ha', hbefore', hafter'⟩ := h'
  -- an element that came before the other one would have a smaller and a larger key
  rcases List.append_eq_append_iff.mp hl with ⟨m, hm, ht⟩ | ⟨m, hm, ht⟩
  · cases m with
    | nil => exact (List.cons.inj ht).1
    | cons c m =>
        obtain ⟨rfl, rfl⟩ := List.cons.inj ht
        have hlt := hbefore' a (by simp [hm]) ha
        exact absurd (hafter a' (by simp) ha') (not_le.mpr hlt)
  · cases m with
    | nil => exact (List.cons.inj ht).1.symm
    | cons c m =>
        obtain ⟨rfl, rfl⟩ := List.cons.inj ht
        have hlt := hbefore a' (by simp [hm]) ha'
        exact absurd (hafter' a (by simp) ha) (not_le.mpr hlt)

/-- An element in front of the list, with a smaller key if it has the property. -/
theorem cons {b : α} (h : FirstBest key p l a) (hb : p b = true → key b < key a) :
    FirstBest key p (b :: l) a := by
  obtain ⟨before, after, rfl, ha, hbefore, hafter⟩ := h
  refine ⟨b :: before, after, rfl, ha, ?_, hafter⟩
  rintro c hc hpc
  rcases List.mem_cons.mp hc with rfl | hc
  · exact hb hpc
  · exact hbefore c hc hpc

theorem head {b : α} (hb : p b = true) (hl : ∀ c ∈ l, p c = true → key c ≤ key b) :
    FirstBest key p (b :: l) b :=
  ⟨[], l, rfl, hb, fun _ hc => absurd hc List.not_mem_nil, hl⟩

theorem of_map {β : Type*} {f : β → α} {l : List β} {a : α}
    (h : FirstBest key p (l.map f) a) :
    ∃ b, f b = a ∧ FirstBest (fun b => key (f b)) (fun b => p (f b)) l b := by
  obtain ⟨before, after, hl, ha, hbefore, hafter⟩ := h
  obtain ⟨l₁, l₂, rfl, rfl, hl₂⟩ := List.map_eq_append_iff.mp hl
  obtain ⟨b, l₃, rfl, rfl, rfl⟩ := List.map_eq_cons_iff.mp hl₂
  exact ⟨b, rfl, l₁, l₃, rfl, ha, fun c hc => hbefore _ (List.mem_map_of_mem hc),
    fun c hc => hafter _ (List.mem_map_of_mem hc)⟩

end FirstBest

/-- Ranking a list with one more element in front: it is chosen unless the element chosen
without it has a larger key. -/
theorem find?_orderedInsert {key : α → ι} {p : α → Bool} {l : List α} {b : α}
    (hl : l.Pairwise fun a b => key b ≤ key a) :
    (l.orderedInsert (fun a b => key b ≤ key a) b).find? p =
      if p b = true then
        match l.find? p with
        | none => some b
        | some a => if key a ≤ key b then some b else some a
      else l.find? p := by
  induction l with
  | nil => by_cases hb : p b = true <;> simp [hb]
  | cons c l ih =>
      obtain ⟨hc, hl⟩ := List.pairwise_cons.mp hl
      rw [List.orderedInsert_cons]
      by_cases hle : key c ≤ key b
      · rw [if_pos hle]
        by_cases hb : p b = true
        · rw [List.find?_cons_of_pos hb, if_pos hb]
          cases hfound : (c :: l).find? p with
          | none => rfl
          | some a =>
              have ha : key a ≤ key b := by
                rcases List.mem_cons.mp (List.mem_of_find?_eq_some hfound) with rfl | hmem
                · exact hle
                · exact (hc a hmem).trans hle
              simp only [ha, if_true]
        · rw [List.find?_cons_of_neg hb, if_neg hb]
      · rw [if_neg hle]
        by_cases hpc : p c = true
        · rw [List.find?_cons_of_pos hpc, List.find?_cons_of_pos hpc]
          simp [hle]
        · rw [List.find?_cons_of_neg hpc, List.find?_cons_of_neg hpc, ih hl]

/-- The first ranked element with a property is, of those with the largest key, the one
that came first. -/
theorem find?_rankBy_eq_some_iff {key : α → ι} {p : α → Bool} {l : List α} {a : α} :
    (rankBy key l).find? p = some a ↔ FirstBest key p l a := by
  have hfound : ∀ a, (rankBy key l).find? p = some a → FirstBest key p l a := by
    induction l with
    | nil =>
        intro a h
        cases h
    | cons b l ih =>
        intro a h
        rw [rankBy_cons, find?_orderedInsert (pairwise_rankBy key l)] at h
        by_cases hb : p b = true
        · rw [if_pos hb] at h
          cases hrest : (rankBy key l).find? p with
          | none =>
              rw [hrest] at h
              obtain rfl := Option.some.inj h
              refine .head hb fun c hc hpc => ?_
              exact absurd hpc (List.find?_eq_none.mp hrest c (mem_rankBy.mpr hc))
          | some c =>
              rw [hrest] at h
              dsimp only at h
              by_cases hle : key c ≤ key b
              · rw [if_pos hle] at h
                obtain rfl := Option.some.inj h
                exact .head hb fun d hd hpd => ((ih c hrest).key_le hd hpd).trans hle
              · rw [if_neg hle] at h
                obtain rfl := Option.some.inj h
                exact (ih c hrest).cons fun _ => not_le.mp hle
        · rw [if_neg hb] at h
          exact (ih a h).cons fun hpb => absurd hpb hb
  refine ⟨hfound a, fun h => ?_⟩
  have hsome : ((rankBy key l).find? p).isSome = true := by
    rw [List.find?_isSome]
    exact ⟨a, mem_rankBy.mpr h.mem, h.holds⟩
  obtain ⟨a', ha'⟩ := Option.isSome_iff_exists.mp hsome
  rw [ha', (hfound a' ha').unique h]

/-- One step of the search for the last largest key. -/
def laterMax (key : α → ι) (best : Option α) (a : α) : Option α :=
  match best with
  | none => some a
  | some b => if key a < key b then some b else some a

theorem mem_of_mem_laterMax {key : α → ι} {best : Option α} {a b : α}
    (h : b ∈ laterMax key best a) : b ∈ best ∨ b = a := by
  cases best with
  | none => exact Or.inr (Option.some.inj h).symm
  | some c =>
      rw [laterMax] at h
      split at h
      · exact Or.inl h
      · exact Or.inr (Option.some.inj h).symm

/-- The element with the largest key, the last one on a tie. -/
def maxByKey (key : α → ι) (l : List α) : Option α :=
  l.foldl (laterMax key) none

/-- The element with the smallest key, the first one on a tie. -/
def minByKey (key : α → ι) (l : List α) : Option α :=
  l.argmin key

theorem foldl_laterMax_eq_some (key : α → ι) (l : List α) (b : α) :
    ∃ a, l.foldl (laterMax key) (some b) = some a ∧ (a = b ∨ a ∈ l) := by
  induction l generalizing b with
  | nil => exact ⟨b, rfl, Or.inl rfl⟩
  | cons c l ih =>
      by_cases hlt : key c < key b
      · obtain ⟨a, ha, hmem⟩ := ih b
        refine ⟨a, by simpa [laterMax, hlt] using ha, ?_⟩
        exact hmem.imp_right (List.mem_cons_of_mem c)
      · obtain ⟨a, ha, hmem⟩ := ih c
        refine ⟨a, by simpa [laterMax, hlt] using ha, Or.inr ?_⟩
        exact hmem.elim (fun h => h ▸ List.mem_cons_self) (List.mem_cons_of_mem c)

/-- The search never returns less than what it started from or has seen. -/
theorem key_le_of_foldl_laterMax {key : α → ι} {l : List α} {best : Option α} {a b : α}
    (h : l.foldl (laterMax key) best = some a) (hb : some b = best ∨ b ∈ l) :
    key b ≤ key a := by
  induction l generalizing best b with
  | nil =>
      have heq : some b = some a := (hb.resolve_right List.not_mem_nil).trans h
      rw [Option.some.inj heq]
  | cons c l ih =>
      have hnext : ∀ d, some d = laterMax key best c → key d ≤ key a := fun d hd =>
        ih h (Or.inl hd)
      rcases hb with rfl | hmem
      · by_cases hlt : key c < key b
        · exact hnext b (by simp [laterMax, hlt])
        · exact (not_lt.mp hlt).trans (hnext c (by simp [laterMax, hlt]))
      · rcases List.mem_cons.mp hmem with rfl | hl
        · cases best with
          | none => exact hnext b rfl
          | some d =>
              by_cases hlt : key b < key d
              · exact hlt.le.trans (hnext d (by simp [laterMax, hlt]))
              · exact hnext b (by simp [laterMax, hlt])
        · exact ih h (Or.inr hl)

theorem exists_maxByKey (key : α → ι) {l : List α} (h : l ≠ []) :
    ∃ a, maxByKey key l = some a := by
  cases l with
  | nil => exact absurd rfl h
  | cons b l =>
      obtain ⟨a, ha, -⟩ := foldl_laterMax_eq_some key l b
      exact ⟨a, ha⟩

theorem key_le_of_maxByKey {key : α → ι} {l : List α} {a b : α}
    (h : maxByKey key l = some a) (hb : b ∈ l) : key b ≤ key a :=
  key_le_of_foldl_laterMax h (Or.inr hb)

theorem mem_of_maxByKey {key : α → ι} {l : List α} {a : α} (h : maxByKey key l = some a) :
    a ∈ l := by
  cases l with
  | nil => cases h
  | cons b l =>
      obtain ⟨a', ha', hmem⟩ := foldl_laterMax_eq_some key l b
      have heq : some a' = some a := ha'.symm.trans h
      cases heq
      exact hmem.elim (fun h => h ▸ List.mem_cons_self) (List.mem_cons_of_mem b)

/-! ### Ties -/

section Ties

variable {r : α → α → Prop} [DecidableRel r] [IsTrans α r] {a b : α} {l l' : List α}

/-- A comparison without ties among the elements sorts them into one order. -/
theorem insertionSort_eq_of_perm [Std.Total r] (h : l.Perm l')
    (hanti : ∀ a ∈ l, ∀ b ∈ l, r a b → r b a → a = b) :
    l.insertionSort r = l'.insertionSort r := by
  have hperm := List.perm_insertionSort r l
  have hperm' := List.perm_insertionSort r l'
  refine List.Perm.eq_of_pairwise (fun a b ha hb => ?_) (List.pairwise_insertionSort r l)
    (List.pairwise_insertionSort r l') (hperm.trans (h.trans hperm'.symm))
  exact hanti a (hperm.mem_iff.mp ha) b (h.mem_iff.mpr (hperm'.mem_iff.mp hb))

/-- Of two elements that tie, the one inserted last comes first. -/
theorem orderedInsert_comm_ne (hab : r a b) (hba : r b a) (hne : a ≠ b) :
    (l.orderedInsert r b).orderedInsert r a ≠ (l.orderedInsert r a).orderedInsert r b := by
  induction l with
  | nil =>
      intro heq
      simp only [List.orderedInsert, hab, hba, ↓reduceIte] at heq
      exact hne (List.cons.inj heq).1
  | cons x l ih =>
      intro heq
      by_cases hbx : r b x
      · have hax : r a x := trans_of r hab hbx
        simp only [List.orderedInsert, hab, hba, hax, hbx, ↓reduceIte] at heq
        exact hne (List.cons.inj heq).1
      · have hax : ¬r a x := fun hax => hbx (trans_of r hba hax)
        simp only [List.orderedInsert, hax, hbx, ↓reduceIte] at heq
        exact ih (List.cons.inj heq).2

end Ties

end Systems
