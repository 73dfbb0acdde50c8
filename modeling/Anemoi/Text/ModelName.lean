import Anemoi.Systems.Cutting
import Anemoi.Text.Alphabetic
import Mathlib.Data.List.TakeWhile

/-!
# What a model's name says about it

Both the governance layer and the live-roster scheduler read the family and the
parameter class of a model off its id: the family is the leading alphabetic
prefix, the class is the first `NNb` token. `scanParameterClass_cases` says what that
is: the first maximal run of digits that a `b` follows.
-/

namespace Anemoi

/-- The leading alphabetic prefix of an id, `unknown` when it is empty. -/
def familyPrefix (id : String) : String :=
  let family := id.toList.takeWhile isAlphabetic
  if family.isEmpty then "unknown" else String.ofList family

/-- The scan for an `NNb` token; `run` holds the digits just read. A run that no
`b` follows is dropped, and the scan goes on behind it. -/
def scanParameterClass (run : List Char) : List Char → Option String
  | [] => none
  | c :: cs =>
      if c.isDigit then scanParameterClass (run ++ [c]) cs
      else if !run.isEmpty && (c == 'b' || c == 'B') then
        some (String.ofList (run ++ ['b']))
      else scanParameterClass [] cs

/-- The first `NNb` token of an id, `unknown` when there is none. -/
def parameterToken (id : String) : String :=
  (scanParameterClass [] id.toList).getD "unknown"

/-! ### Runs of digits -/

/-- A `b` in either case. -/
def isB (c : Char) : Bool :=
  c == 'b' || c == 'B'

/-- In the id, `run` is a maximal run of digits behind `before`, and a `b` follows it. -/
structure ParameterRun (id before run : List Char) : Prop where
  digits : ∀ c ∈ run, c.isDigit = true
  ne_nil : run ≠ []
  maximal : before.getLast?.any Char.isDigit = false
  follows : ∃ c after, id = before ++ (run ++ c :: after) ∧ isB c = true

structure FirstParameterRun (id before run : List Char) : Prop extends
    ParameterRun id before run where
  first : ∀ before' run', ParameterRun id before' run' → before.length ≤ before'.length

theorem isDigit_iff {c : Char} : c.isDigit = true ↔ 48 ≤ c.toNat ∧ c.toNat ≤ 57 := by
  have hdigit : c.isDigit = (decide (c.val ≥ '0'.val) && decide (c.val ≤ '9'.val)) := rfl
  rw [hdigit, Bool.and_eq_true, decide_eq_true_eq, decide_eq_true_eq, ge_iff_le,
    UInt32.le_iff_toNat_le, UInt32.le_iff_toNat_le]
  rfl

theorem isDigit_of_isB {c : Char} (h : isB c = true) : c.isDigit = false := by
  rw [isB, Bool.or_eq_true, beq_iff_eq, beq_iff_eq] at h
  rcases h with rfl | rfl <;> decide

/-- Induction on the maximal runs of digits of a text. -/
theorem digitRuns_induction {P : List Char → Prop} (nil : P [])
    (other : ∀ c l, c.isDigit = false → P l → P (c :: l))
    (digits : ∀ run l, run ≠ [] → (∀ c ∈ run, c.isDigit = true) →
      l.head?.any Char.isDigit = false → P l → P (run ++ l)) (l : List Char) : P l := by
  induction hn : l.length using Nat.strongRecOn generalizing l with
  | _ n ih =>
      cases l with
      | nil => exact nil
      | cons c l =>
          rw [List.length_cons] at hn
          by_cases hc : c.isDigit = true
          · have hle := (List.dropWhile_sublist (p := Char.isDigit) (l := l)).length_le
            have hrest : (l.dropWhile Char.isDigit).head?.any Char.isDigit = false := by
              have hnot := List.head?_dropWhile_not Char.isDigit l
              cases h : (l.dropWhile Char.isDigit).head? with
              | none => rfl
              | some d => simpa [h] using hnot
            have hrun := digits (c :: l.takeWhile Char.isDigit) (l.dropWhile Char.isDigit)
              (List.cons_ne_nil _ _)
              (List.forall_mem_cons.mpr ⟨hc, fun d hd => List.mem_takeWhile_imp hd⟩) hrest
              (ih _ (by omega) _ rfl)
            rwa [List.cons_append, List.takeWhile_append_dropWhile] at hrun
          · exact other c l (by simpa using hc) (ih l.length (by omega) l rfl)

section Scan

variable {c : Char} {run l before : List Char}

theorem scanParameterClass_other (hc : c.isDigit = false) :
    scanParameterClass [] (c :: l) = scanParameterClass [] l := by
  simp [scanParameterClass, hc]

theorem scanParameterClass_append (acc : List Char) (hrun : ∀ c ∈ run, c.isDigit = true) :
    scanParameterClass acc (run ++ l) = scanParameterClass (acc ++ run) l := by
  induction run generalizing acc with
  | nil => rw [List.nil_append, List.append_nil]
  | cons c run ih =>
      obtain ⟨hc, hrun⟩ := List.forall_mem_cons.mp hrun
      rw [List.cons_append, scanParameterClass, if_pos hc, ih _ hrun, List.append_assoc,
        List.singleton_append]

/-- What the scan does behind a maximal run of digits. -/
theorem scanParameterClass_run (hne : run ≠ []) (hl : l.head?.any Char.isDigit = false) :
    scanParameterClass run l =
      if l.head?.any isB then some (String.ofList (run ++ ['b']))
      else scanParameterClass [] l := by
  cases l with
  | nil => rfl
  | cons c l =>
      have hc : c.isDigit = false := hl
      have hrun : run.isEmpty = false := by
        rwa [← Bool.not_eq_true, List.isEmpty_iff]
      rw [scanParameterClass_other hc, scanParameterClass, hc, if_neg Bool.false_ne_true, hrun,
        Bool.not_false, Bool.true_and]
      rfl

theorem getLast?_append_cons (before : List Char) (c : Char) (l : List Char) :
    (before ++ c :: l).getLast? = (c :: l).getLast? := by
  rw [List.getLast?_append, List.getLast?_cons, Option.some_or]

theorem ParameterRun.head_isDigit {id : List Char} (h : ParameterRun id [] run) :
    id.head?.any Char.isDigit = true := by
  obtain ⟨c, after, hid, -⟩ := h.follows
  obtain ⟨d, rest, hd⟩ := List.exists_cons_of_ne_nil h.ne_nil
  rw [hid, hd]
  exact h.digits d (hd ▸ List.mem_cons_self)

theorem parameterRun_nil (before run : List Char) : ¬ParameterRun [] before run := by
  intro h
  obtain ⟨c, after, hid, -⟩ := h.follows
  have hlen := congrArg List.length hid
  simp at hlen

/-- In front of a character that is no digit, the runs move by one. -/
theorem parameterRun_cons_iff (hc : c.isDigit = false) :
    ParameterRun (c :: l) before run ↔ ∃ before', before = c :: before' ∧
      ParameterRun l before' run := by
  constructor
  · intro h
    cases before with
    | nil => exact absurd h.head_isDigit (by simp [hc])
    | cons d before =>
        obtain ⟨b, after, hid, hb⟩ := h.follows
        obtain ⟨rfl, hl⟩ := List.cons.inj hid
        refine ⟨before, rfl, h.digits, h.ne_nil, ?_, b, after, hl, hb⟩
        have hmax := h.maximal
        rw [List.getLast?_cons] at hmax
        cases hlast : before.getLast? with
        | none => rfl
        | some x => simpa [hlast] using hmax
  · rintro ⟨before, rfl, h⟩
    obtain ⟨b, after, hid, hb⟩ := h.follows
    refine ⟨h.digits, h.ne_nil, ?_, b, after, congrArg (c :: ·) hid, hb⟩
    have hmax := h.maximal
    rw [List.getLast?_cons]
    cases hlast : before.getLast? with
    | none => simpa using hc
    | some x => simpa [hlast] using hmax

/-- Behind a maximal run of digits, the runs move by its length; it is one itself if a `b`
follows it. -/
theorem parameterRun_append_iff {digits : List Char} (before run : List Char) (hne : digits ≠ [])
    (hdigits : ∀ c ∈ digits, c.isDigit = true) (hl : l.head?.any Char.isDigit = false) :
    ParameterRun (digits ++ l) before run ↔
      before = [] ∧ run = digits ∧ l.head?.any isB = true ∨
        ∃ before', before = digits ++ before' ∧ ParameterRun l before' run := by
  constructor
  · intro h
    obtain ⟨b, after, hid, hb⟩ := h.follows
    rcases List.append_eq_append_iff.mp hid with ⟨before', hbefore, htail⟩ | ⟨back, hfront, htail⟩
    · refine .inr ⟨before', hbefore, h.digits, h.ne_nil, ?_, b, after, htail, hb⟩
      cases before' with
      | nil => rfl
      | cons d before' =>
          have hmax := h.maximal
          rwa [hbefore, getLast?_append_cons] at hmax
    · -- The run starts among the digits, so at their first, and ends where they end.
      have hbefore : before = [] := by
        by_contra hne'
        obtain ⟨front, d, rfl⟩ := List.eq_nil_or_concat before |>.resolve_left hne'
        have hd := hdigits d (by rw [hfront]; simp)
        have hmax := h.maximal
        simp [hd] at hmax
      subst hbefore
      have hhead : ∀ d ∈ l.head?, d.isDigit = false := by
        intro d hd
        rwa [Option.mem_def.mp hd] at hl
      have hbehind : ∀ d ∈ (b :: after).head?, d.isDigit = false := by
        simpa using isDigit_of_isB hb
      obtain ⟨rfl, rfl⟩ := Systems.append_inj_of_head hdigits hhead h.digits hbehind
        (hid.trans (congrArg (· ++ b :: after) (List.nil_append run)))
      exact .inl ⟨rfl, rfl, hb⟩
  · rintro (⟨rfl, rfl, hb⟩ | ⟨before, rfl, h⟩)
    · cases l with
      | nil => exact absurd hb Bool.false_ne_true
      | cons b after => exact ⟨hdigits, hne, rfl, b, after, rfl, hb⟩
    · obtain ⟨b, after, hid, hb⟩ := h.follows
      refine ⟨h.digits, h.ne_nil, ?_, b, after, by rw [hid, List.append_assoc], hb⟩
      cases before with
      | nil => exact absurd h.head_isDigit (by rw [hl]; exact Bool.false_ne_true)
      | cons d before =>
          rw [getLast?_append_cons]
          exact h.maximal

/-- The scan finds the first maximal run of digits that a `b` follows, if there is one. -/
theorem scanParameterClass_cases (id : List Char) :
    scanParameterClass [] id = none ∧ (∀ before run, ¬ParameterRun id before run) ∨
      ∃ before run, FirstParameterRun id before run ∧
        scanParameterClass [] id = some (String.ofList (run ++ ['b'])) := by
  induction id using digitRuns_induction with
  | nil => exact .inl ⟨rfl, parameterRun_nil⟩
  | other c l hc ih =>
      rw [scanParameterClass_other hc]
      rcases ih with ⟨hnone, hno⟩ | ⟨before, run, hfirst, hsome⟩
      · refine .inl ⟨hnone, fun before run h => ?_⟩
        obtain ⟨before', -, h⟩ := (parameterRun_cons_iff hc).mp h
        exact hno before' run h
      · refine .inr ⟨c :: before, run, ?_, hsome⟩
        refine ⟨(parameterRun_cons_iff hc).mpr ⟨before, rfl, hfirst.toParameterRun⟩, ?_⟩
        intro before' run' h
        obtain ⟨before', rfl, hrest⟩ := (parameterRun_cons_iff hc).mp h
        exact Nat.succ_le_succ (hfirst.first before' run' hrest)
  | digits run l hne hdigits hl ih =>
      have hiff : ∀ before run', _ := fun before run' =>
        parameterRun_append_iff before run' hne hdigits hl
      rw [scanParameterClass_append [] hdigits, List.nil_append, scanParameterClass_run hne hl]
      by_cases hb : l.head?.any isB = true
      · refine .inr ⟨[], run, ⟨(hiff [] run).mpr (.inl ⟨rfl, rfl, hb⟩), ?_⟩, if_pos hb⟩
        intro before' run' h
        exact Nat.zero_le _
      rw [if_neg hb]
      rcases ih with ⟨hnone, hno⟩ | ⟨before, run', hfirst, hsome⟩
      · refine .inl ⟨hnone, fun before run' h => ?_⟩
        rcases (hiff before run').mp h with ⟨-, -, hb'⟩ | ⟨before', -, h⟩
        · exact hb hb'
        · exact hno before' run' h
      · refine .inr ⟨run ++ before, run', ⟨(hiff _ _).mpr (.inr ⟨before, rfl,
          hfirst.toParameterRun⟩), ?_⟩, hsome⟩
        intro before' run'' h
        rcases (hiff before' run'').mp h with ⟨-, -, hb'⟩ | ⟨before', rfl, hrest⟩
        · exact absurd hb' hb
        · rw [List.length_append, List.length_append]
          exact Nat.add_le_add_left (hfirst.first before' run'' hrest) _

end Scan

/-- The number that a string of ASCII digits denotes. -/
def decimalValue (digits : List Char) : ℕ :=
  digits.foldl (fun n c => 10 * n + (c.toNat - '0'.toNat)) 0

example : parameterToken "minimax-256k" = "unknown" := by decide
example : parameterToken "qwen3-35B-a3b" = "35b" := by decide

end Anemoi
