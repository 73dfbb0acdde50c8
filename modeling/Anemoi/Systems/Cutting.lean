import Mathlib.Data.List.DropRight
import Mathlib.Data.List.Infix

/-!
# Cutting lists at a separator

A text format is read by cutting a list at the places where a separator stands. When the list
was put together from pieces that the separator is not in, a cut falls into one of the other
pieces: `cut_append_left` and `cut_append_right`. `exists_mem_splitOn_iff` says what the parts
between the separators start with.
-/

namespace Systems

variable {α : Type*} {x : α} {a b l m s : List α}

/-- A cut falls into the first piece or into the last one. -/
theorem cut_append (h : a ++ m = b ++ x :: s) :
    (∃ t, a = b ++ x :: t ∧ s = t ++ m) ∨ ∃ p, b = a ++ p ∧ m = p ++ x :: s := by
  rcases List.append_eq_append_iff.mp h with ⟨p, rfl, hm⟩ | ⟨p, rfl, hs⟩
  · exact Or.inr ⟨p, rfl, hm⟩
  · cases p with
    | nil => exact Or.inr ⟨[], by simp, by simpa using hs.symm⟩
    | cons c p =>
        obtain ⟨rfl, rfl⟩ := List.cons.inj hs
        exact Or.inl ⟨p, rfl, rfl⟩

/-- A cut falls behind a first piece without the separator. -/
theorem cut_append_left (ha : x ∉ a) (h : a ++ m = b ++ x :: s) :
    ∃ p, b = a ++ p ∧ m = p ++ x :: s := by
  refine (cut_append h).resolve_left ?_
  rintro ⟨t, rfl, -⟩
  exact ha (by simp)

/-- A cut falls before a last piece without the separator. -/
theorem cut_append_right (hm : x ∉ m) (h : a ++ m = b ++ x :: s) :
    ∃ t, a = b ++ x :: t ∧ s = t ++ m := by
  refine (cut_append h).resolve_right ?_
  rintro ⟨p, -, rfl⟩
  exact hm (by simp)

/-- Two cuts at the first separator are one. -/
theorem cut_unique {t : List α} (ha : x ∉ a) (hb : x ∉ b) (h : a ++ x :: s = b ++ x :: t) :
    a = b ∧ s = t := by
  obtain ⟨p, rfl, hp⟩ := cut_append_left ha h
  cases p with
  | nil => exact ⟨by simp, by simpa using hp⟩
  | cons c p =>
      obtain ⟨rfl, -⟩ := List.cons.inj hp
      exact absurd (by simp) hb

/-- The last element is not `c` when none is behind the last separator. -/
theorem getLast?_append_cons_ne {c : α} (hx : x ≠ c) (hm : c ∉ m) (l : List α) :
    (l ++ x :: m).getLast? ≠ some c := by
  rw [List.getLast?_append, List.getLast?_cons, Option.some_or, ne_eq, Option.some.injEq]
  cases hlast : m.getLast? with
  | none => exact hx
  | some d =>
      rintro rfl
      exact hm (List.mem_of_getLast? hlast)

/-- Every cut of a list with one more element in front. -/
theorem forall_cut_cons_iff {c : α} {P : List α → Prop} :
    (∀ b t, c :: l = b ++ x :: t → P b) ↔
      (c = x → P []) ∧ ∀ b t, l = b ++ x :: t → P (c :: b) := by
  constructor
  · intro h
    refine ⟨?_, fun b t hl => h (c :: b) t (by rw [hl, List.cons_append])⟩
    rintro rfl
    exact h [] l rfl
  · rintro ⟨hhead, htail⟩ b t h
    cases b with
    | nil => exact hhead (List.cons.inj h).1
    | cons d b =>
        obtain ⟨rfl, hl⟩ := List.cons.inj h
        exact htail b t hl

/-! ### Dropping from both ends -/

section Drop

variable {p : α → Bool} {c : α}

theorem takeWhile_append_of_head (ha : ∀ d ∈ a, p d = true) (hb : ∀ d ∈ b.head?, p d = false) :
    (a ++ b).takeWhile p = a := by
  rw [List.takeWhile_append_of_pos ha]
  cases b with
  | nil => rw [List.takeWhile_nil, List.append_nil]
  | cons d b => rw [List.takeWhile_cons_of_neg (by simp [hb d rfl]), List.append_nil]

theorem dropWhile_append_of_head (ha : ∀ d ∈ a, p d = true) (hb : ∀ d ∈ b.head?, p d = false) :
    (a ++ b).dropWhile p = b := by
  rw [List.dropWhile_append_of_pos ha]
  cases b with
  | nil => rfl
  | cons d b => exact List.dropWhile_cons_of_neg (by simp [hb d rfl])

/-- Where a list stops being in a class there is one cut. -/
theorem append_inj_of_head {a' b' : List α} (ha : ∀ d ∈ a, p d = true)
    (hb : ∀ d ∈ b.head?, p d = false) (ha' : ∀ d ∈ a', p d = true)
    (hb' : ∀ d ∈ b'.head?, p d = false) (h : a ++ b = a' ++ b') : a = a' ∧ b = b' := by
  have hfront : a = a' := by
    rw [← takeWhile_append_of_head ha hb, h, takeWhile_append_of_head ha' hb']
  exact ⟨hfront, List.append_cancel_left (hfront ▸ h)⟩

theorem dropWhile_append_cons (hc : p c = false) (l m : List α) :
    (l ++ c :: m).dropWhile p = l.dropWhile p ++ c :: m := by
  induction l with
  | nil => rw [List.nil_append, List.dropWhile_cons_of_neg (by simp [hc])]; rfl
  | cons d l ih =>
      by_cases hd : p d = true
      · rw [List.cons_append, List.dropWhile_cons_of_pos hd, List.dropWhile_cons_of_pos hd, ih]
      · rw [List.cons_append, List.dropWhile_cons_of_neg hd, List.dropWhile_cons_of_neg hd,
          List.cons_append]

theorem rdropWhile_append_cons (hc : p c = false) (l m : List α) :
    (l ++ c :: m).rdropWhile p = l ++ c :: m.rdropWhile p := by
  rw [List.rdropWhile, List.reverse_append, List.reverse_cons, List.append_assoc,
    List.singleton_append, dropWhile_append_cons hc, List.reverse_append, List.reverse_cons,
    List.reverse_reverse, List.append_assoc, List.singleton_append, List.rdropWhile]

theorem rdropWhile_append_of_pos (h : ∀ d ∈ m, p d = true) (l : List α) :
    (l ++ m).rdropWhile p = l.rdropWhile p := by
  rw [List.rdropWhile, List.reverse_append,
    List.dropWhile_append_of_pos fun d hd => h d (List.mem_reverse.mp hd), List.rdropWhile]

end Drop

/-! ### The parts between separators -/

section Split

variable [DecidableEq α]

theorem takeWhile_ne_eq_self (h : x ∉ l) : l.takeWhile (· ≠ x) = l := by
  refine List.takeWhile_eq_self_iff.mpr fun d hd => decide_eq_true ?_
  rintro rfl
  exact h hd

theorem takeWhile_ne_append_cons (h : x ∉ a) : (a ++ x :: l).takeWhile (· ≠ x) = a := by
  have hpos : (a.takeWhile (· ≠ x)).length = a.length := by rw [takeWhile_ne_eq_self h]
  rw [List.takeWhile_append, if_pos hpos, List.takeWhile_cons_of_neg (by simp), List.append_nil]

/-- Induction on the number of separators: the first one cuts off a part. -/
theorem cut_induction {P : List α → Prop} (whole : ∀ l, x ∉ l → P l)
    (cut : ∀ a m, x ∉ a → P m → P (a ++ x :: m)) (l : List α) : P l := by
  induction hn : l.length using Nat.strong_induction_on generalizing l with
  | _ n ih =>
      by_cases hx : x ∈ l
      · obtain ⟨a, m, rfl, ha⟩ := List.eq_append_cons_of_mem hx
        refine cut a m ha (ih m.length ?_ m rfl)
        rw [← hn, List.length_append, List.length_cons]
        omega
      · exact whole l hx

theorem infix_of_mem_splitOn {part : List α} (h : part ∈ l.splitOn x) : part <:+: l := by
  induction l using cut_induction (x := x) with
  | whole l hx =>
      rw [List.splitOn_eq_singleton hx, List.mem_singleton] at h
      exact h ▸ List.infix_rfl
  | cut a m ha ih =>
      rw [List.splitOn_append_cons_self_of_not_mem ha] at h
      rcases List.mem_cons.mp h with rfl | hm
      · exact (List.prefix_append _ _).isInfix
      · exact (ih hm).trans ((List.suffix_cons x m).isInfix.trans
          (List.suffix_append a (x :: m)).isInfix)

/-- A part starts with `b` and another separator when the list does, or when this stands behind
a separator of the list. -/
theorem exists_mem_splitOn_iff {y : α} (hxy : x ≠ y) (hb : x ∉ b) (l : List α) :
    (∃ part ∈ l.splitOn x, ∃ v, part = b ++ y :: v) ↔
      ∃ u v, x :: l = u ++ x :: (b ++ y :: v) := by
  have hstart : x ∉ b ++ [y] := by simp [hb, hxy]
  induction l using cut_induction (x := x) with
  | whole l hx =>
      rw [List.splitOn_eq_singleton hx]
      simp only [List.mem_singleton, exists_eq_left]
      constructor
      · rintro ⟨v, rfl⟩
        exact ⟨[], v, rfl⟩
      · rintro ⟨u, v, h⟩
        cases u with
        | nil => exact ⟨v, (List.cons.inj h).2⟩
        | cons c u =>
            rw [(List.cons.inj h).2] at hx
            exact absurd (by simp) hx
  | cut a m ha ih =>
      rw [List.splitOn_append_cons_self_of_not_mem ha]
      simp only [List.mem_cons, exists_eq_or_imp, ih]
      constructor
      · rintro (⟨v, rfl⟩ | ⟨u, v, h⟩)
        · exact ⟨[], v ++ x :: m, by simp⟩
        · exact ⟨x :: a ++ u, v, by rw [h]; simp⟩
      · rintro ⟨u, v, h⟩
        cases u with
        | nil =>
            -- the separator behind `a` comes after `b` and `y`
            have hcut := (List.cons.inj h).2.symm
            rw [show b ++ y :: v = (b ++ [y]) ++ v by simp] at hcut
            obtain ⟨p, rfl, -⟩ := cut_append_left hstart hcut
            exact Or.inl ⟨p, by simp⟩
        | cons c u =>
            obtain ⟨p, -, hm⟩ := cut_append_left ha (List.cons.inj h).2
            exact Or.inr ⟨p, v, hm⟩

end Split

end Systems
