import Anemoi.Runtime.Metrics
import Anemoi.Systems.Cutting
import Mathlib.Algebra.Group.Nat.Even
import Mathlib.Algebra.Order.Ring.Rat
import Mathlib.Data.List.Count
import Mathlib.Data.Nat.Cast.Order.Ring

/-!
# Reading a sample line

A line of the exposition is read in one pass: the metric's name, the end of the label block,
the `id` label in the block and the first token behind it. The block ends at the first `}`
behind an even number of double quotes, and its labels are what stands between commas;
neither knows of escapes. How a token is parsed as a floating point number is a parameter.
-/

namespace Anemoi

open Systems

/-! ### The value -/

/-- A floating point number. -/
inductive F64 where
  | nan
  | infinite
  | finite (value : ℚ)
  deriving DecidableEq

/-- The first power of two that a `u64` cannot hold. -/
def twoPow64 : ℚ := 18446744073709551616

/-- The bytes that a value stands for exactly. -/
def F64.wholeBytes : F64 → Option UInt64
  | nan | infinite => none
  | finite value =>
      if !value.isInt || !(0 ≤ value && value < twoPow64) then none
      else some (UInt64.ofNat value.num.toNat)

/-- The first token of a text, without the whitespace around it. -/
def firstToken (text : List Char) : Option (List Char) :=
  let token := (text.dropWhile isWhiteSpace).takeWhile fun c => !isWhiteSpace c
  if token.isEmpty then none else some token

/-- The bytes that the first token of a text reads as. -/
def readBytes (parse : List Char → Option F64) (text : List Char) : Option UInt64 := do
  let token ← firstToken text
  let value ← parse token
  value.wholeBytes

/-! ### The labels -/

/-- What stands before and behind the first `c`. -/
def splitOnce (c : Char) (text : List Char) : Option (List Char × List Char) :=
  if c ∈ text then some (text.takeWhile (· ≠ c), (text.dropWhile (· ≠ c)).drop 1) else none

/-- The text between double quotes, unless it is empty. -/
def unquoted (quoted : List Char) : Option (List Char) := do
  let inner ← stripPrefix ['"'] quoted
  let inner ← stripSuffix ['"'] inner
  if inner.isEmpty then none else some inner

/-- What a part of the block decides about the label `key`; nothing, if it is not that label. -/
def readPart (key part : List Char) : Option (Option (List Char)) :=
  match splitOnce '=' (trim part) with
  | none => none
  | some (labelKey, labelValue) =>
      if trim labelKey ≠ key then none else some (unquoted (trim labelValue))

/-- The quoted value of a label of the block. -/
def extractLabelValue (block key : List Char) : Option (List Char) :=
  ((block.splitOn ',').findSome? (readPart key)).join

/-- The scan for the end of the block, from a position on. -/
def findLabelBlockEndFrom (inQuotes : Bool) (index : ℕ) : List Char → Option ℕ
  | [] => none
  | c :: cs =>
      if c = '"' then findLabelBlockEndFrom (!inQuotes) (index + 1) cs
      else if c = '}' && !inQuotes then some index
      else findLabelBlockEndFrom inQuotes (index + 1) cs

/-- The position of the `}` that ends the block, counted in characters. -/
def findLabelBlockEnd (tail : List Char) : Option ℕ :=
  findLabelBlockEndFrom false 0 tail

/-- What stands behind the label block, and the block, if there is one. -/
def splitLabels (rest : List Char) : Option (List Char × Option (List Char)) :=
  match stripPrefix ['{'] rest with
  | some tail => (findLabelBlockEnd tail).map fun e =>
      ((tail.drop (e + 1)).dropWhile isWhiteSpace, some (tail.take e))
  | none => some (rest, none)

/-- Does a character end the metric's name? -/
def endsName (c : Char) : Bool :=
  c = '{' || isWhiteSpace c

def parseSampleLine (parse : List Char → Option F64) (line : List Char) : Option Sample := do
  let name := line.takeWhile fun c => !endsName c
  if name.isEmpty then none
  else
    let rest := (line.dropWhile fun c => !endsName c).dropWhile isWhiteSpace
    let (afterLabels, labelBlock) ← splitLabels rest
    let deviceId := labelBlock.bind fun block => extractLabelValue block "id".toList
    let valueBytes ← readBytes parse afterLabels
    return { name := String.ofList name, valueBytes, gpuDeviceId := deviceId.map String.ofList }

/-! ### Tokens and values -/

theorem wholeBytes_eq_some_iff {f : F64} {v : UInt64} :
    f.wholeBytes = some v ↔ ∃ q, f = .finite q ∧ (v.toNat : ℚ) = q := by
  cases f with
  | nan | infinite => simp [F64.wholeBytes]
  | finite q =>
      simp only [F64.wholeBytes, F64.finite.injEq]
      constructor
      · intro h
        split at h
        · cases h
        next hq =>
          simp only [Bool.or_eq_true, Bool.not_eq_true', not_or, Bool.not_eq_false,
            Bool.and_eq_true, decide_eq_true_eq] at hq
          obtain ⟨hint, hnonneg, hlt⟩ := hq
          have hnum : (q.num.toNat : ℚ) = q := by
            rw [← Int.cast_natCast, Int.toNat_of_nonneg (Rat.num_nonneg.mpr hnonneg)]
            exact Rat.coe_int_num_of_den_eq_one (by simpa [Rat.isInt] using hint)
          have hsize : q.num.toNat < 2 ^ 64 := by
            rw [← hnum, twoPow64] at hlt
            exact_mod_cast hlt
          refine ⟨q, rfl, ?_⟩
          rw [← Option.some.inj h, UInt64.toNat_ofNat', Nat.mod_eq_of_lt hsize]
          exact hnum
      · rintro ⟨_, rfl, rfl⟩
        have hv := v.toNat_lt
        have hlt : ((v.toNat : ℕ) : ℚ) < twoPow64 := by
          rw [twoPow64]
          exact_mod_cast hv
        have hnonneg : (0 : ℚ) ≤ (v.toNat : ℕ) := Nat.cast_nonneg _
        rw [if_neg (by simp [Rat.isInt, hlt, hnonneg])]
        simp

theorem firstToken_dropWhile (text : List Char) :
    firstToken (text.dropWhile isWhiteSpace) = firstToken text := by
  rw [firstToken, firstToken, List.dropWhile_idempotent]

theorem readBytes_dropWhile (parse : List Char → Option F64) (text : List Char) :
    readBytes parse (text.dropWhile isWhiteSpace) = readBytes parse text := by
  rw [readBytes, readBytes, firstToken_dropWhile]

/-- A token that only whitespace stands before and that whitespace follows, if anything. -/
theorem firstToken_append {gap token rest : List Char} (hgap : ∀ c ∈ gap, isWhiteSpace c = true)
    (hne : token ≠ []) (htoken : ∀ c ∈ token, isWhiteSpace c = false)
    (hrest : ∀ c ∈ rest.head?, isWhiteSpace c = true) :
    firstToken (gap ++ (token ++ rest)) = some token := by
  have hhead : ∀ c ∈ (token ++ rest).head?, isWhiteSpace c = false := by
    cases token with
    | nil => exact absurd rfl hne
    | cons c token =>
        intro d hd
        obtain rfl := Option.some.inj hd
        exact htoken c List.mem_cons_self
  rw [firstToken, dropWhile_append_of_head hgap hhead,
    takeWhile_append_of_head (by simpa using htoken) (by simpa using hrest)]
  simp [hne]

/-! ### The end of the block -/

/-- The scan takes what stands before the first `}` behind an even number of double quotes for
the block. -/
structure EndsAt (tail block after : List Char) : Prop where
  split : tail = block ++ '}' :: after
  closed : Even (block.count '"')
  first : ∀ b t, block = b ++ '}' :: t → ¬Even (b.count '"')

/-- The scan from inside or outside of quotes. -/
def EndsFrom (inQuotes : Bool) (index e : ℕ) (tail : List Char) : Prop :=
  ∃ block after, tail = block ++ '}' :: after ∧ e = index + block.length ∧
    (Even (block.count '"') ↔ inQuotes = false) ∧
      ∀ b t, block = b ++ '}' :: t → ¬(Even (b.count '"') ↔ inQuotes = false)

/-- A quote changes sides, any other character that does not end the block changes nothing. -/
theorem endsFrom_cons_iff {inQuotes : Bool} {index e : ℕ} {c : Char} {cs : List Char}
    (hc : ¬(c = '}' ∧ inQuotes = false)) :
    EndsFrom inQuotes index e (c :: cs) ↔
      EndsFrom (if c = '"' then !inQuotes else inQuotes) (index + 1) e cs := by
  have hcount : ∀ b : List Char, (Even ((c :: b).count '"') ↔ inQuotes = false) ↔
      (Even (b.count '"') ↔ (if c = '"' then !inQuotes else inQuotes) = false) := by
    intro b
    by_cases hquote : c = '"'
    · subst hquote
      rw [List.count_cons_self, Nat.even_add_one]
      cases inQuotes <;> simp
    · rw [List.count_cons_of_ne hquote, if_neg hquote]
  constructor
  · rintro ⟨block, after, htail, rfl, hclosed, hfirst⟩
    cases block with
    | nil =>
        refine absurd ⟨(List.cons.inj htail).1, ?_⟩ hc
        exact hclosed.mp (by simp)
    | cons d block =>
        obtain ⟨rfl, rfl⟩ := List.cons.inj htail
        refine ⟨block, after, rfl, by rw [List.length_cons]; omega, (hcount block).mp hclosed, ?_⟩
        intro b t hb
        exact mt (hcount b).mpr ((forall_cut_cons_iff.mp hfirst).2 b t hb)
  · rintro ⟨block, after, rfl, rfl, hclosed, hfirst⟩
    refine ⟨c :: block, after, rfl, by rw [List.length_cons]; omega, (hcount block).mpr hclosed,
      forall_cut_cons_iff.mpr ⟨?_, fun b t hb => mt (hcount b).mp (hfirst b t hb)⟩⟩
    rintro rfl hempty
    exact hc ⟨rfl, hempty.mp (by simp)⟩

theorem findLabelBlockEndFrom_eq_some_iff {inQuotes : Bool} {index e : ℕ} {tail : List Char} :
    findLabelBlockEndFrom inQuotes index tail = some e ↔ EndsFrom inQuotes index e tail := by
  induction tail generalizing inQuotes index with
  | nil => simp [findLabelBlockEndFrom, EndsFrom]
  | cons c cs ih =>
      rw [findLabelBlockEndFrom]
      by_cases hstop : c = '}' ∧ inQuotes = false
      · obtain ⟨rfl, rfl⟩ := hstop
        rw [if_neg (by decide), if_pos (by decide), Option.some.injEq]
        constructor
        · rintro rfl
          exact ⟨[], cs, rfl, rfl, by simp, by simp⟩
        · rintro ⟨block, after, htail, rfl, -, hfirst⟩
          cases block with
          | nil => rfl
          | cons d block =>
              obtain ⟨rfl, -⟩ := List.cons.inj htail
              exact absurd (by simp) (hfirst [] block rfl)
      · rw [endsFrom_cons_iff hstop]
        by_cases hquote : c = '"'
        · rw [if_pos hquote, if_pos hquote, ih]
        · rw [if_neg hquote, if_neg hquote, if_neg (by simpa using hstop), ih]

/-- Where the scan stops. -/
theorem findLabelBlockEnd_eq_some_iff {tail : List Char} {e : ℕ} :
    findLabelBlockEnd tail = some e ↔
      ∃ block after, EndsAt tail block after ∧ e = block.length := by
  rw [findLabelBlockEnd, findLabelBlockEndFrom_eq_some_iff]
  constructor
  · rintro ⟨block, after, htail, rfl, hclosed, hfirst⟩
    exact ⟨block, after, ⟨htail, by simpa using hclosed, by simpa using hfirst⟩, by simp⟩
  · rintro ⟨block, after, ⟨htail, hclosed, hfirst⟩, rfl⟩
    exact ⟨block, after, htail, by simp, by simpa using hclosed, by simpa using hfirst⟩

/-! ### Parts of the block -/

theorem splitOnce_append {c : Char} {k v : List Char} (hk : c ∉ k) :
    splitOnce c (k ++ c :: v) = some (k, v) := by
  have hall : ∀ d ∈ k, decide (d ≠ c) = true := fun d hd => by
    simpa using fun heq : d = c => hk (heq ▸ hd)
  rw [splitOnce, if_pos (by simp), List.takeWhile_append_of_pos hall,
    List.dropWhile_append_of_pos hall, List.takeWhile_cons_of_neg (by simp),
    List.dropWhile_cons_of_neg (by simp), List.append_nil]
  rfl

theorem unquoted_quoted (x : List Char) :
    unquoted ('"' :: (x ++ ['"'])) = if x.isEmpty then none else some x := by
  unfold unquoted
  rw [stripPrefix_eq_some_iff.mpr (List.singleton_append).symm, Option.bind_eq_bind,
    Option.bind_some, stripSuffix_eq_some_iff.mpr rfl]
  rfl

theorem unquoted_eq_some_iff {quoted x : List Char} :
    unquoted quoted = some x ↔ quoted = '"' :: (x ++ ['"']) ∧ x ≠ [] := by
  constructor
  · intro h
    unfold unquoted at h
    obtain ⟨inner, hinner, h⟩ := Option.bind_eq_some_iff.mp h
    obtain ⟨inner', hinner', h⟩ := Option.bind_eq_some_iff.mp h
    rw [stripPrefix_eq_some_iff.mp hinner, stripSuffix_eq_some_iff.mp hinner']
    split at h
    · cases h
    next hne =>
      obtain rfl := Option.some.inj h
      exact ⟨rfl, by simpa using hne⟩
  · rintro ⟨rfl, hx⟩
    rw [unquoted_quoted, if_neg (by simpa using hx)]

/-- Without whitespace at the ends, the separator still stands between the same texts. -/
theorem trim_append_cons {c : Char} (hc : isWhiteSpace c = false) (k v : List Char) :
    trim (k ++ c :: v) = k.dropWhile isWhiteSpace ++ c :: v.rdropWhile isWhiteSpace := by
  rw [trim, dropWhile_append_cons hc, rdropWhile_append_cons hc]

theorem trim_padded {a text b : List Char} (ha : ∀ c ∈ a, isWhiteSpace c = true)
    (hb : ∀ c ∈ b, isWhiteSpace c = true) (hne : text ≠ [])
    (htext : ∀ c ∈ text, isWhiteSpace c = false) : trim (a ++ text ++ b) = text := by
  have hdrop : (text ++ b).dropWhile isWhiteSpace = text ++ b := by
    cases text with
    | nil => exact absurd rfl hne
    | cons c text => exact List.dropWhile_cons_of_neg (by simp [htext c List.mem_cons_self])
  rw [trim, List.append_assoc, List.dropWhile_append_of_pos ha, hdrop,
    rdropWhile_append_of_pos hb, List.rdropWhile_eq_self_iff]
  intro h
  simp [htext _ (List.getLast_mem h)]

/-- Trimming loses nothing but whitespace. -/
theorem notMem_of_notMem_trim {c : Char} (hc : isWhiteSpace c = false) {text : List Char}
    (h : c ∉ trim text) : c ∉ text := by
  intro hmem
  obtain ⟨k, v, rfl, -⟩ := List.eq_append_cons_of_mem hmem
  rw [trim_append_cons hc] at h
  exact h (by simp)

theorem trim_dropWhile (text : List Char) : trim (text.dropWhile isWhiteSpace) = trim text := by
  rw [trim, trim, List.dropWhile_idempotent]

theorem readPart_append {key k v : List Char} (hk : '=' ∉ k) :
    readPart key (k ++ '=' :: v) =
      if trim k ≠ key then none else some (unquoted (trim (v.rdropWhile isWhiteSpace))) := by
  have hdrop : '=' ∉ k.dropWhile isWhiteSpace := fun h => hk ((List.dropWhile_sublist _).mem h)
  rw [readPart, trim_append_cons (by decide), splitOnce_append hdrop]
  dsimp only
  rw [trim_dropWhile]

theorem readPart_of_notMem {key part : List Char} (h : '=' ∉ part) : readPart key part = none := by
  have htrim : '=' ∉ trim part := by
    intro hmem
    have hstart : trim part <+: part.dropWhile isWhiteSpace := List.rdropWhile_prefix _ _
    exact h ((List.dropWhile_sublist _).mem (hstart.mem hmem))
  rw [readPart, splitOnce, if_neg htrim]

/-- A part decides about a label when the text before its first equals sign is the label. -/
theorem readPart_ne_none_iff {key part : List Char} :
    readPart key part ≠ none ↔ ∃ k v, part = k ++ '=' :: v ∧ '=' ∉ k ∧ trim k = key := by
  by_cases h : '=' ∈ part
  · obtain ⟨k, v, rfl, hk⟩ := List.eq_append_cons_of_mem h
    rw [readPart_append hk]
    constructor
    · intro hne
      by_cases hkey : trim k = key
      · exact ⟨k, v, rfl, hk, hkey⟩
      · exact absurd (if_pos hkey) hne
    · rintro ⟨k', v', heq, hk', hkey⟩
      rw [(cut_unique hk hk' heq).1, if_neg (not_not_intro hkey)]
      simp
  · rw [readPart_of_notMem h]
    refine iff_of_false (fun hne => hne rfl) ?_
    rintro ⟨k, v, rfl, -⟩
    exact h (by simp)

end Anemoi
