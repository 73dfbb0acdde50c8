import Mathlib.Data.List.TakeWhile
import Mathlib.Data.Nat.Notation

/-!
# Patterns and replacement

`readings` are the ways in which a pattern reads the front of a list, in the order in which a
backtracking search tries them: the left side of an alternative before the right one, more of a
repetition before less. The first of them is the match at this place, and `Replaced` goes through
a list from left to right and replaces each match that it comes to; `ReplacesAll` says this of a
function for patterns that match no empty list.

A repetition is followed by something it does not read in most patterns. Then only its longest
reading goes on, which is `flatMap_runs`.
-/

namespace Systems

variable {α : Type*}

/-- Patterns over classes of symbols, with groups that are captured under a number. -/
inductive Regex (α : Type*) where
  | one (p : α → Bool)
  | many (p : α → Bool)
  | seq (r s : Regex α)
  | alt (r s : Regex α)
  | group (index : ℕ) (r : Regex α)

/-- What was matched, and what the groups that took part in it captured. -/
structure Captures (α : Type*) where
  matched : List α
  groups : List (ℕ × List α)

namespace Captures

/-- The group with a number; the whole match is number 0. -/
def get (captures : Captures α) (index : ℕ) : Option (List α) :=
  if index = 0 then some captures.matched else captures.groups.lookup index

def cons (a : α) (captures : Captures α) : Captures α :=
  ⟨a :: captures.matched, captures.groups⟩

def append (first second : Captures α) : Captures α :=
  ⟨first.matched ++ second.matched, first.groups ++ second.groups⟩

def capture (index : ℕ) (captures : Captures α) : Captures α :=
  ⟨captures.matched, (index, captures.matched) :: captures.groups⟩

end Captures

/-- The beginnings of a list that are in a class, with what is behind them, longest first. -/
def runs (p : α → Bool) : List α → List (Captures α × List α)
  | [] => [(⟨[], []⟩, [])]
  | a :: l =>
      (if p a then (runs p l).map fun e => (e.1.cons a, e.2) else []) ++ [(⟨[], []⟩, a :: l)]

/-- Only the longest run is not followed by a symbol of the class. -/
theorem exists_runs_eq_cons (p : α → Bool) (l : List α) :
    ∃ shorter, runs p l = (⟨l.takeWhile p, []⟩, l.dropWhile p) :: shorter ∧
      ∀ e ∈ shorter, ∃ a rest, e.2 = a :: rest ∧ p a = true := by
  induction l with
  | nil => exact ⟨[], rfl, fun _ h => nomatch h⟩
  | cons a l ih =>
      obtain ⟨shorter, hruns, hshorter⟩ := ih
      rw [runs]
      by_cases ha : p a = true
      · rw [if_pos ha, hruns, List.takeWhile_cons_of_pos ha, List.dropWhile_cons_of_pos ha]
        refine ⟨(shorter.map fun e => (e.1.cons a, e.2)) ++ [(⟨[], []⟩, a :: l)], rfl, ?_⟩
        intro e he
        rcases List.mem_append.mp he with he | he
        · obtain ⟨e', he', rfl⟩ := List.mem_map.mp he
          exact hshorter e' he'
        · obtain rfl := List.mem_singleton.mp he
          exact ⟨a, l, rfl, ha⟩
      · rw [if_neg ha, List.takeWhile_cons_of_neg ha, List.dropWhile_cons_of_neg ha]
        exact ⟨[], rfl, fun _ h => nomatch h⟩

/-- What cannot go on with a symbol of the class goes on with the longest run only. -/
theorem flatMap_runs {β : Type*} {p : α → Bool} {f : Captures α × List α → List β}
    (h : ∀ captures a rest, p a = true → f (captures, a :: rest) = []) (l : List α) :
    (runs p l).flatMap f = f (⟨l.takeWhile p, []⟩, l.dropWhile p) := by
  obtain ⟨shorter, hruns, hshorter⟩ := exists_runs_eq_cons p l
  rw [hruns, List.flatMap_cons]
  refine List.append_right_eq_self.mpr (List.flatMap_eq_nil_iff.mpr ?_)
  rintro ⟨captures, rest⟩ he
  obtain ⟨a, rest', rfl, ha⟩ := hshorter _ he
  exact h captures a rest' ha

namespace Regex

/-- The ways to read the front of a list, with what is left, in the order of preference. -/
def readings : Regex α → List α → List (Captures α × List α)
  | one _, [] => []
  | one p, a :: l => if p a then [(⟨[a], []⟩, l)] else []
  | many p, l => runs p l
  | seq r s, l =>
      (readings r l).flatMap fun e => (readings s e.2).map fun e' => (e.1.append e'.1, e'.2)
  | alt r s, l => readings r l ++ readings s l
  | group index r, l => (readings r l).map fun e => (e.1.capture index, e.2)

/-- The match at the front of a list. -/
def matchAt (r : Regex α) (l : List α) : Option (Captures α × List α) :=
  (readings r l).head?

theorem readings_one_cons (p : α → Bool) (a : α) (l : List α) :
    readings (one p) (a :: l) = if p a then [(⟨[a], []⟩, l)] else [] := rfl

theorem readings_many (p : α → Bool) (l : List α) : readings (many p) l = runs p l := rfl

theorem readings_group (index : ℕ) (r : Regex α) (l : List α) :
    readings (group index r) l = (readings r l).map fun e => (e.1.capture index, e.2) := rfl

theorem readings_seq (r s : Regex α) (l : List α) :
    readings (seq r s) l =
      (readings r l).flatMap fun e => (readings s e.2).map fun e' => (e.1.append e'.1, e'.2) :=
  rfl

theorem readings_seq_one_cons (p : α → Bool) (s : Regex α) (a : α) (l : List α) :
    readings (seq (one p) s) (a :: l) =
      if p a then (readings s l).map fun e => (e.1.cons a, e.2) else [] := by
  rw [readings_seq, readings_one_cons]
  by_cases ha : p a = true
  · rw [if_pos ha, if_pos ha]
    exact List.flatMap_singleton _ _
  · rw [if_neg ha, if_neg ha, List.flatMap_nil]

theorem matchAt_alt (r s : Regex α) (l : List α) :
    matchAt (alt r s) l = (matchAt r l).or (matchAt s l) :=
  List.head?_append

theorem matchAt_group (index : ℕ) (r : Regex α) (l : List α) :
    matchAt (group index r) l = (matchAt r l).map fun e => (e.1.capture index, e.2) := by
  rw [matchAt, readings_group, List.head?_map]
  rfl

theorem matchAt_seq_one_cons (p : α → Bool) (s : Regex α) (a : α) (l : List α) :
    matchAt (seq (one p) s) (a :: l) =
      if p a then (matchAt s l).map fun e => (e.1.cons a, e.2) else none := by
  rw [matchAt, readings_seq_one_cons]
  split
  · rw [List.head?_map]
    rfl
  · rfl

/-- A repetition at the end of a pattern reads what it can. -/
theorem matchAt_many (p : α → Bool) (l : List α) :
    matchAt (many p) l = some (⟨l.takeWhile p, []⟩, l.dropWhile p) := by
  obtain ⟨shorter, hruns, -⟩ := exists_runs_eq_cons p l
  rw [matchAt, readings_many, hruns, List.head?_cons]

/-- A repetition in front of what does not read its symbols reads what it can as well. -/
theorem matchAt_seq_group_many (index : ℕ) {p : α → Bool} {s : Regex α}
    (hs : ∀ a rest, p a = true → readings s (a :: rest) = []) (l : List α) :
    matchAt (seq (group index (many p)) s) l =
      (matchAt s (l.dropWhile p)).map fun e =>
        (⟨l.takeWhile p ++ e.1.matched, (index, l.takeWhile p) :: e.1.groups⟩, e.2) := by
  rw [matchAt, readings_seq, readings_group, readings_many, List.flatMap_map, flatMap_runs,
    List.head?_map]
  · rfl
  · intro captures a rest ha
    rw [hs a rest ha, List.map_nil]

/-- A pattern reads a beginning of the list and leaves the rest. -/
theorem append_of_mem_runs {p : α → Bool} {l : List α} {e : Captures α × List α}
    (h : e ∈ runs p l) : e.1.matched ++ e.2 = l := by
  induction l generalizing e with
  | nil =>
      obtain rfl := List.mem_singleton.mp h
      rfl
  | cons a l ih =>
      rw [runs] at h
      rcases List.mem_append.mp h with h | h
      · split at h
        next =>
          obtain ⟨e', he', rfl⟩ := List.mem_map.mp h
          exact congrArg (a :: ·) (ih he')
        next => cases h
      · obtain rfl := List.mem_singleton.mp h
        rfl

theorem append_of_mem_readings {r : Regex α} {l : List α} {e : Captures α × List α}
    (h : e ∈ readings r l) : e.1.matched ++ e.2 = l := by
  induction r generalizing l e with
  | one p =>
      cases l with
      | nil => cases h
      | cons a l =>
          rw [readings_one_cons] at h
          split at h
          next =>
            obtain rfl := List.mem_singleton.mp h
            rfl
          next => cases h
  | many p => exact append_of_mem_runs h
  | seq r s ihr ihs =>
      obtain ⟨first, hfirst, h⟩ := List.mem_flatMap.mp h
      obtain ⟨second, hsecond, rfl⟩ := List.mem_map.mp h
      change (first.1.matched ++ second.1.matched) ++ second.2 = l
      rw [List.append_assoc, ihs hsecond, ihr hfirst]
  | alt r s ihr ihs => exact (List.mem_append.mp h).elim (ihr ·) (ihs ·)
  | group index r ih =>
      obtain ⟨inner, hinner, rfl⟩ := List.mem_map.mp h
      have happend := ih hinner
      exact happend

/-! ### Replacing -/

/-- A pattern that matches no empty list. -/
def Consuming (r : Regex α) : Prop :=
  ∀ l, ∀ e ∈ readings r l, e.1.matched ≠ []

theorem Consuming.seq_one (p : α → Bool) (s : Regex α) : Consuming (seq (one p) s) := by
  intro l e he
  cases l with
  | nil => cases he
  | cons a l =>
      rw [readings_seq_one_cons] at he
      split at he
      next =>
        obtain ⟨e', -, rfl⟩ := List.mem_map.mp he
        exact List.cons_ne_nil _ _
      next => cases he

theorem Consuming.alt {r s : Regex α} (hr : Consuming r) (hs : Consuming s) :
    Consuming (alt r s) :=
  fun l e he => (List.mem_append.mp he).elim (hr l e) (hs l e)

theorem Consuming.length_lt {r : Regex α} (hr : Consuming r) {l rest : List α}
    {captures : Captures α} (h : matchAt r l = some (captures, rest)) :
    rest.length < l.length := by
  have hmem := List.mem_of_head? h
  have hlength := congrArg List.length (append_of_mem_readings hmem)
  have hpos := List.length_pos_iff.mpr (hr l _ hmem)
  rw [List.length_append] at hlength
  dsimp only at hlength hpos
  omega

/-- One pass from left to right: what matches is replaced, and what no match starts at is
copied. -/
inductive Replaced (r : Regex α) (f : Captures α → List α) : List α → List α → Prop where
  | nil : Replaced r f [] []
  | skip {a : α} {l out : List α} (h : matchAt r (a :: l) = none) (hl : Replaced r f l out) :
      Replaced r f (a :: l) (a :: out)
  | hit {l rest out : List α} {captures : Captures α} (h : matchAt r l = some (captures, rest))
      (hrest : Replaced r f rest out) : Replaced r f l (f captures ++ out)

/-- `replaceAll` replaces the matches of a pattern from left to right. -/
def ReplacesAll (replaceAll : Regex α → (Captures α → List α) → List α → List α) : Prop :=
  ∀ r f l, Consuming r → Replaced r f l (replaceAll r f l)

def replaceWithin (r : Regex α) (f : Captures α → List α) : ℕ → List α → List α
  | 0, l => l
  | _ + 1, [] => []
  | fuel + 1, a :: l =>
      match matchAt r (a :: l) with
      | none => a :: replaceWithin r f fuel l
      | some (captures, rest) => f captures ++ replaceWithin r f fuel rest

/-- The pass as a function: each step of it leaves a shorter list. -/
def replaceAll (r : Regex α) (f : Captures α → List α) (l : List α) : List α :=
  replaceWithin r f l.length l

theorem replaced_replaceWithin {r : Regex α} (hr : Consuming r) (f : Captures α → List α)
    {fuel : ℕ} {l : List α} (h : l.length ≤ fuel) :
    Replaced r f l (replaceWithin r f fuel l) := by
  induction fuel generalizing l with
  | zero =>
      obtain rfl := List.length_eq_zero_iff.mp (Nat.le_zero.mp h)
      exact .nil
  | succ fuel ih =>
      cases l with
      | nil => exact .nil
      | cons a l =>
          rw [replaceWithin]
          cases hmatch : matchAt r (a :: l) with
          | none => exact .skip hmatch (ih (Nat.le_of_succ_le_succ h))
          | some e =>
              obtain ⟨captures, rest⟩ := e
              have hlt := hr.length_lt hmatch
              rw [List.length_cons] at h hlt
              exact .hit hmatch (ih (by omega))

theorem replacesAll_replaceAll : ReplacesAll (replaceAll (α := α)) :=
  fun _ f _ hr => replaced_replaceWithin hr f le_rfl

end Regex

end Systems
