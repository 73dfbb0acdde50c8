import Anemoi.Systems.Regex
import Mathlib.Data.List.Infix
import Mathlib.Algebra.Order.BigOperators.Group.List
import Mathlib.Algebra.Order.Group.Nat

/-!
# Environment variables in a configuration

`expand_env_vars` replaces the references to environment variables in the text of a
configuration before it is parsed. `expandEnvVars` is the function, over what replaces the
matches of a pattern; `expand` is the documented grammar, as one pass over the text. A text is the
list of its characters.

The two agree on every reference but one whose first modifier is `:+` with a `:-` behind it:
the function looks for `:-` first, in the whole body. `expandEnvVars_eq_expand_iff` is the result.
-/

namespace Anemoi

open Systems

/-- The environment: a value for some of the names. -/
abbrev Environment := List Char → Option (List Char)

def isNameStart (c : Char) : Bool :=
  c.isAlpha || c == '_'

def isNameChar (c : Char) : Bool :=
  c.isAlphanum || c == '_'

/-! ### The function -/

/-- `\$\{([^}]*)\}|\$([A-Za-z_][A-Za-z0-9_]*)` -/
def envVarRe : Regex Char :=
  .alt
    (.seq (.one (· == '$')) (.seq (.one (· == '{'))
      (.seq (.group 1 (.many (· != '}'))) (.one (· == '}')))))
    (.seq (.one (· == '$')) (.group 2 (.seq (.one isNameStart) (.many isNameChar))))

/-- `str::split_once`: what is before and behind the first place of a separator. -/
def splitOnceAt (separator : List Char) : List Char → Option (List Char × List Char)
  | [] => if separator = [] then some ([], []) else none
  | c :: text =>
      if separator.isPrefixOf (c :: text) then
        some ([], (c :: text).drop separator.length)
      else (splitOnceAt separator text).map fun e => (c :: e.1, e.2)

/-- What a match is replaced by. When the second group took no part the first one did. -/
def expandCaptures (env : Environment) (captures : Captures Char) : List Char :=
  match captures.get 2 with
  | some bare => (env bare).getD captures.matched
  | none =>
      let inner := (captures.get 1).getD []
      match splitOnceAt [':', '-'] inner with
      | some (name, default) =>
          match env name with
          | some value => if !value.isEmpty then value else default
          | none => default
      | none =>
          match splitOnceAt [':', '+'] inner with
          | some (name, alt) =>
              match env name with
              | some value => if !value.isEmpty then alt else []
              | none => []
          | none => (env inner).getD captures.matched

def expandEnvVars
    (replaceAll : Regex Char → (Captures Char → List Char) → List Char → List Char)
    (env : Environment) (text : List Char) : List Char :=
  replaceAll envVarRe (expandCaptures env) text

/-! ### The grammar -/

/-- `$name`, or a body in braces. -/
inductive Reference where
  | bare (name : List Char)
  | braced (body : List Char)

def Reference.text : Reference → List Char
  | bare name => '$' :: name
  | braced body => '$' :: '{' :: (body ++ ['}'])

/-- The reference that a `$` in front of a text makes, and what is behind it. -/
def referenceBehind : List Char → Option (Reference × List Char)
  | [] => none
  | c :: text =>
      if c = '{' then
        match text.dropWhile (· != '}') with
        | [] => none
        | _ :: rest => some (.braced (text.takeWhile (· != '}')), rest)
      else if isNameStart c then
        some (.bare (c :: text.takeWhile isNameChar), text.dropWhile isNameChar)
      else none

/-- The reference at the front of a text, and what is behind it. -/
def reference : List Char → Option (Reference × List Char)
  | [] => none
  | c :: text => if c = '$' then referenceBehind text else none

theorem dropWhile_ne_eq_cons {c d : Char} {text rest : List Char}
    (h : text.dropWhile (· != c) = d :: rest) : d = c := by
  have hhead := List.head?_dropWhile_not (· != c) text
  rw [h, List.head?_cons] at hhead
  simpa using hhead

theorem append_of_referenceBehind {text rest : List Char} {r : Reference}
    (h : referenceBehind text = some (r, rest)) : '$' :: text = r.text ++ rest := by
  cases text with
  | nil => cases h
  | cons c text =>
      rw [referenceBehind] at h
      by_cases hc : c = '{'
      · rw [if_pos hc] at h
        subst hc
        split at h
        next => cases h
        next hdrop =>
          obtain ⟨rfl, rfl⟩ := Prod.mk.inj (Option.some.inj h)
          have hsplit := List.takeWhile_append_dropWhile (p := (· != '}')) (l := text)
          rw [hdrop, dropWhile_ne_eq_cons hdrop] at hsplit
          rw [Reference.text, List.cons_append, List.cons_append, List.append_assoc,
            List.singleton_append, hsplit]
      · rw [if_neg hc] at h
        split at h
        next =>
          obtain ⟨rfl, rfl⟩ := Prod.mk.inj (Option.some.inj h)
          rw [Reference.text, List.cons_append, List.cons_append,
            List.takeWhile_append_dropWhile]
        next => cases h

/-- A reference is a beginning of the text. -/
theorem append_of_reference {text rest : List Char} {r : Reference}
    (h : reference text = some (r, rest)) : text = r.text ++ rest := by
  cases text with
  | nil => cases h
  | cons c text =>
      rw [reference] at h
      split at h
      next hc =>
        subst hc
        exact append_of_referenceBehind h
      next => cases h

theorem length_lt_of_reference {text rest : List Char} {r : Reference}
    (h : reference text = some (r, rest)) : rest.length < text.length := by
  rw [append_of_reference h, List.length_append]
  cases r <;> simp only [Reference.text, List.length_cons] <;> omega

/-- A text from left to right: the characters that are copied, and the references. -/
def pieces : List Char → List (Char ⊕ Reference)
  | [] => []
  | c :: text =>
      match _h : reference (c :: text) with
      | none => .inl c :: pieces text
      | some (r, rest) => .inr r :: pieces rest
  termination_by text => text.length
  decreasing_by
  · exact Nat.lt_succ_self _
  · exact length_lt_of_reference _h

@[simp] theorem pieces_nil : pieces [] = [] := by
  rw [pieces]

theorem pieces_of_none {c : Char} {text : List Char} (h : reference (c :: text) = none) :
    pieces (c :: text) = .inl c :: pieces text := by
  rw [pieces]
  split
  next => rfl
  next hsome =>
    rw [h] at hsome
    cases hsome

theorem pieces_of_some {text rest : List Char} {r : Reference}
    (h : reference text = some (r, rest)) : pieces text = .inr r :: pieces rest := by
  cases text with
  | nil => cases h
  | cons c text =>
      rw [pieces]
      split
      next hnone =>
        rw [h] at hnone
        cases hnone
      next hsome =>
        rw [h] at hsome
        obtain ⟨rfl, rfl⟩ := Prod.mk.inj (Option.some.inj hsome)
        rfl

/-- One pass: each reference is replaced, and every other character is copied. -/
def pass (value : Reference → List Char) (text : List Char) : List Char :=
  (pieces text).flatMap (Sum.elim (fun c => [c]) value)

inductive Modifier where
  | orElse
  | ifSet
  deriving DecidableEq, Repr

/-- The name in front of the first modifier of a body, the modifier and what is behind it. -/
def splitModifier : List Char → Option (List Char × Modifier × List Char)
  | [] => none
  | c :: text =>
      if c = ':' ∧ text.head? = some '-' then some ([], .orElse, text.tail)
      else if c = ':' ∧ text.head? = some '+' then some ([], .ifSet, text.tail)
      else (splitModifier text).map fun e => (c :: e.1, e.2)

/-- The value of a name that is set to something. -/
def nonempty (env : Environment) (name : List Char) : Option (List Char) :=
  (env name).filter fun value => !value.isEmpty

/-- What a reference stands for. -/
def Reference.value (env : Environment) : Reference → List Char
  | bare name => (env name).getD (bare name).text
  | braced body =>
      match splitModifier body with
      | none => (env body).getD (braced body).text
      | some (name, .orElse, default) => (nonempty env name).getD default
      | some (name, .ifSet, alt) => if (nonempty env name).isSome then alt else []

def expand (env : Environment) (text : List Char) : List Char :=
  pass (Reference.value env) text

/-! ### The pass of the function -/

/-- What the pattern captures of a reference. -/
def Reference.captures : Reference → Captures Char
  | bare name => ⟨(bare name).text, [(2, name)]⟩
  | braced body => ⟨(braced body).text, [(1, body)]⟩

/-- What the function replaces a reference by. -/
def Reference.replacement (env : Environment) (r : Reference) : List Char :=
  expandCaptures env r.captures

theorem matchAt_braced (text : List Char) :
    (Regex.seq (.group 1 (.many (· != '}'))) (.one (· == '}'))).matchAt text =
      match text.dropWhile (· != '}') with
      | [] => none
      | _ :: rest =>
          some (⟨text.takeWhile (· != '}') ++ ['}'], [(1, text.takeWhile (· != '}'))]⟩, rest) := by
  rw [Regex.matchAt_seq_group_many]
  · cases hdrop : text.dropWhile (· != '}') with
    | nil => rfl
    | cons c rest =>
        rw [dropWhile_ne_eq_cons hdrop]
        rfl
  · intro c rest hc
    rw [Regex.readings_one_cons, if_neg (by simpa using hc)]

theorem matchAt_envVarRe (text : List Char) :
    envVarRe.matchAt text = (reference text).map fun e => (e.1.captures, e.2) := by
  rw [envVarRe, Regex.matchAt_alt]
  cases text with
  | nil => rfl
  | cons c text =>
      rw [Regex.matchAt_seq_one_cons, Regex.matchAt_seq_one_cons, reference]
      by_cases hc : c = '$'
      · subst hc
        rw [if_pos (beq_self_eq_true _), if_pos (beq_self_eq_true _), if_pos rfl]
        cases text with
        | nil => rfl
        | cons d text =>
            rw [Regex.matchAt_group, Regex.matchAt_seq_one_cons, Regex.matchAt_seq_one_cons,
              referenceBehind]
            by_cases hd : d = '{'
            · subst hd
              rw [if_pos (beq_self_eq_true _), if_pos rfl, if_neg (by decide), matchAt_braced]
              cases text.dropWhile (· != '}') <;> rfl
            · rw [if_neg (by simpa using hd), if_neg hd, Regex.matchAt_many]
              by_cases hstart : isNameStart d = true
              · rw [if_pos hstart, if_pos hstart]
                rfl
              · rw [if_neg hstart, if_neg hstart]
                rfl
      · rw [if_neg (by simpa using hc), if_neg (by simpa using hc), if_neg hc]
        rfl

theorem consuming_envVarRe : envVarRe.Consuming :=
  .alt (.seq_one _ _) (.seq_one _ _)

/-- Replacing the matches of the pattern is one pass over the references. -/
theorem eq_pass_of_replaced {f : Captures Char → List Char} {text out : List Char}
    (h : Regex.Replaced envVarRe f text out) : out = pass (fun r => f r.captures) text := by
  induction h with
  | nil => rw [pass, pieces_nil, List.flatMap_nil]
  | @skip c text out hmatch _ ih =>
      rw [matchAt_envVarRe, Option.map_eq_none_iff] at hmatch
      rw [pass, pieces_of_none hmatch, List.flatMap_cons, ih]
      rfl
  | @hit text rest out captures hmatch _ ih =>
      rw [matchAt_envVarRe] at hmatch
      obtain ⟨⟨r, rest'⟩, hr, heq⟩ := Option.map_eq_some_iff.mp hmatch
      obtain ⟨rfl, rfl⟩ := Prod.mk.inj heq
      rw [pass, pieces_of_some hr, List.flatMap_cons, ih]
      rfl

theorem expandEnvVars_eq_pass
    {replaceAll : Regex Char → (Captures Char → List Char) → List Char → List Char}
    (h : Regex.ReplacesAll replaceAll) (env : Environment) (text : List Char) :
    expandEnvVars replaceAll env text = pass (Reference.replacement env) text :=
  eq_pass_of_replaced (h envVarRe (expandCaptures env) text consuming_envVarRe)

/-! ### Modifiers -/

theorem splitOnceAt_eq_none_iff {separator text : List Char} :
    splitOnceAt separator text = none ↔ ¬separator <:+: text := by
  induction text with
  | nil =>
      rw [splitOnceAt, List.infix_nil]
      split <;> simp_all
  | cons c text ih =>
      rw [splitOnceAt, List.infix_cons_iff, ← List.isPrefixOf_iff_prefix, not_or, ← ih]
      split
      next h => exact iff_of_false (fun hnone => nomatch hnone) (fun hnot => hnot.1 h)
      next h => exact Option.map_eq_none_iff.trans (and_iff_right h).symm

theorem append_of_splitOnceAt {separator text before rest : List Char}
    (h : splitOnceAt separator text = some (before, rest)) :
    text = before ++ (separator ++ rest) := by
  induction text generalizing before with
  | nil =>
      rw [splitOnceAt] at h
      split at h
      next hsep =>
        cases h
        rw [hsep]
        rfl
      next => cases h
  | cons c text ih =>
      rw [splitOnceAt] at h
      split at h
      next hpre =>
        cases h
        obtain ⟨rest, hrest⟩ := List.isPrefixOf_iff_prefix.mp hpre
        rw [← hrest, List.drop_left, List.nil_append]
      next =>
        obtain ⟨⟨before', rest'⟩, hsplit, heq⟩ := Option.map_eq_some_iff.mp h
        cases heq
        exact congrArg (c :: ·) (ih hsplit)

/-- The separator is not in what is before its first place. -/
theorem not_infix_of_splitOnceAt {separator text before rest : List Char}
    (hne : separator ≠ []) (h : splitOnceAt separator text = some (before, rest)) :
    ¬separator <:+: before := by
  induction text generalizing before with
  | nil =>
      rw [splitOnceAt, if_neg hne] at h
      cases h
  | cons c text ih =>
      rw [splitOnceAt] at h
      split at h
      next =>
        cases h
        exact fun hinfix => hne (List.infix_nil.mp hinfix)
      next hnot =>
        obtain ⟨⟨before', rest'⟩, hsplit, heq⟩ := Option.map_eq_some_iff.mp h
        cases heq
        rw [List.infix_cons_iff, not_or]
        refine ⟨fun hprefix => hnot ?_, ih hsplit⟩
        rw [List.isPrefixOf_iff_prefix]
        rw [append_of_splitOnceAt hsplit, ← List.cons_append]
        exact hprefix.trans (List.prefix_append _ _)

/-- A separator of two characters is where the second one follows the first. -/
theorem splitOnceAt_pair_cons (a b c : Char) (text : List Char) :
    splitOnceAt [a, b] (c :: text) =
      if c = a ∧ text.head? = some b then some ([], text.tail)
      else (splitOnceAt [a, b] text).map fun e => (c :: e.1, e.2) := by
  have hiff : [a, b].isPrefixOf (c :: text) = true ↔ c = a ∧ text.head? = some b := by
    rw [List.isPrefixOf_iff_prefix, List.cons_prefix_cons]
    refine and_congr eq_comm ?_
    cases text with
    | nil => simp
    | cons d text => simpa using eq_comm
  rw [splitOnceAt]
  by_cases h : c = a ∧ text.head? = some b
  · rw [if_pos (hiff.mpr h), if_pos h]
    rw [List.length_cons, List.length_singleton, List.drop_succ_cons, List.drop_one]
  · rw [if_neg (hiff.not.mpr h), if_neg h]

/-- Where the first modifier is, in terms of the two separators that the function looks for. -/
theorem splitOnceAt_of_splitModifier (body : List Char) :
    match splitModifier body with
    | none => splitOnceAt [':', '-'] body = none ∧ splitOnceAt [':', '+'] body = none
    | some (name, .orElse, default) => splitOnceAt [':', '-'] body = some (name, default)
    | some (name, .ifSet, alt) =>
        splitOnceAt [':', '+'] body = some (name, alt) ∧
          splitOnceAt [':', '-'] body = (splitOnceAt [':', '-'] alt).map fun e =>
            (name ++ ':' :: '+' :: e.1, e.2) := by
  induction body with
  | nil => exact ⟨rfl, rfl⟩
  | cons c text ih =>
      rw [splitModifier, splitOnceAt_pair_cons, splitOnceAt_pair_cons]
      by_cases hElse : c = ':' ∧ text.head? = some '-'
      · rw [if_pos hElse, if_pos hElse]
      · rw [if_neg hElse, if_neg hElse]
        by_cases hSet : c = ':' ∧ text.head? = some '+'
        · obtain ⟨rfl, hhead⟩ := hSet
          obtain ⟨alt, rfl⟩ := List.head?_eq_some_iff.mp hhead
          rw [if_pos ⟨rfl, hhead⟩, if_pos ⟨rfl, hhead⟩]
          refine ⟨rfl, ?_⟩
          rw [splitOnceAt_pair_cons, if_neg (by simp), Option.map_map]
          rfl
        · rw [if_neg hSet, if_neg hSet]
          match hsplit : splitModifier text with
          | none =>
              rw [hsplit] at ih
              exact ⟨by rw [ih.1]; rfl, by rw [ih.2]; rfl⟩
          | some (name, .orElse, default) =>
              rw [hsplit] at ih
              exact congrArg (Option.map _) ih
          | some (name, .ifSet, alt) =>
              rw [hsplit] at ih
              refine ⟨congrArg (Option.map _) ih.1, ?_⟩
              rw [ih.2, Option.map_map]
              rfl

/-- The first modifier is `:+`, and a `:-` is behind it. -/
def Mixed (body : List Char) : Prop :=
  ∃ name alt, splitModifier body = some (name, .ifSet, alt) ∧ [':', '-'] <:+: alt

theorem getD_nonempty (env : Environment) (name default : List Char) :
    (nonempty env name).getD default =
      match env name with
      | some value => if !value.isEmpty then value else default
      | none => default := by
  rw [nonempty]
  cases env name with
  | none => rfl
  | some value =>
      rw [Option.filter_some]
      dsimp only
      split <;> rfl

theorem ite_isSome_nonempty (env : Environment) (name alt : List Char) :
    (if (nonempty env name).isSome then alt else []) =
      match env name with
      | some value => if !value.isEmpty then alt else []
      | none => [] := by
  rw [nonempty]
  cases env name with
  | none => rfl
  | some value =>
      rw [Option.filter_some]
      dsimp only
      split <;> rfl

theorem Reference.replacement_bare (env : Environment) (name : List Char) :
    (bare name).replacement env = (bare name).value env := rfl

theorem Reference.replacement_braced (env : Environment) (body : List Char) :
    (braced body).replacement env =
      match splitOnceAt [':', '-'] body with
      | some (name, default) => (nonempty env name).getD default
      | none =>
          match splitOnceAt [':', '+'] body with
          | some (name, alt) => if (nonempty env name).isSome then alt else []
          | none => (env body).getD (braced body).text := by
  simp only [getD_nonempty, ite_isSome_nonempty]
  rfl

/-- The function gives every reference that is not mixed its value. -/
theorem Reference.replacement_eq_value (env : Environment) {r : Reference}
    (h : ∀ body, r = braced body → ¬Mixed body) : r.replacement env = r.value env := by
  cases r with
  | bare name => exact replacement_bare env name
  | braced body =>
      have hsplit := splitOnceAt_of_splitModifier body
      rw [replacement_braced, value]
      match hbody : splitModifier body with
      | none =>
          rw [hbody] at hsplit
          rw [hsplit.1, hsplit.2]
      | some (name, .orElse, default) =>
          rw [hbody] at hsplit
          rw [hsplit]
      | some (name, .ifSet, alt) =>
          rw [hbody] at hsplit
          have hnone : splitOnceAt [':', '-'] alt = none :=
            splitOnceAt_eq_none_iff.mpr fun hinfix => h body rfl ⟨name, alt, hbody, hinfix⟩
          rw [hsplit.2, hsplit.1, hnone]
          rfl

/-- Every name without a `:+` is set. -/
def plainNames : Environment := fun name =>
  if [':', '+'] <:+: name then none else some ['1']

/-- In a mixed reference the function takes a name that has the `:+` in it, and inserts less. -/
theorem Reference.length_replacement_lt {body : List Char} (h : Mixed body) :
    ((braced body).replacement plainNames).length < ((braced body).value plainNames).length := by
  obtain ⟨name, alt, hbody, hinfix⟩ := h
  have hsplit := splitOnceAt_of_splitModifier body
  rw [hbody] at hsplit
  obtain ⟨hname, hfirst⟩ := hsplit
  obtain ⟨⟨before, default⟩, hdefault⟩ := Option.ne_none_iff_exists'.mp
    (mt splitOnceAt_eq_none_iff.mp (not_not.mpr hinfix))
  rw [hdefault, Option.map_some] at hfirst
  have hset : nonempty plainNames name = some ['1'] := by
    rw [nonempty, plainNames, if_neg (not_infix_of_splitOnceAt (List.cons_ne_nil _ _) hname)]
    rfl
  have hunset : nonempty plainNames (name ++ ':' :: '+' :: before) = none := by
    rw [nonempty, plainNames, if_pos ⟨name, before, by simp⟩]
    rfl
  have hvalue : (braced body).value plainNames = alt := by
    rw [value, hbody]
    dsimp only
    rw [hset]
    rfl
  rw [replacement_braced, hfirst, hvalue]
  dsimp only
  rw [hunset, Option.getD_none, append_of_splitOnceAt hdefault]
  simp only [List.length_append, List.length_cons]
  omega

/-! ### Which texts the function expands by the grammar -/

theorem pass_congr {f g : Reference → List Char} {text : List Char}
    (h : ∀ r, .inr r ∈ pieces text → f r = g r) : pass f text = pass g text := by
  refine List.flatMap_congr fun piece hpiece => ?_
  cases piece with
  | inl c => rfl
  | inr r => exact h r hpiece

/-- A pass that inserts less somewhere, and nowhere more, makes a shorter text. -/
theorem length_pass_lt {f g : Reference → List Char} {text : List Char}
    (hle : ∀ r, (f r).length ≤ (g r).length) {r : Reference} (hr : .inr r ∈ pieces text)
    (hlt : (f r).length < (g r).length) : (pass f text).length < (pass g text).length := by
  rw [pass, pass, List.length_flatMap, List.length_flatMap]
  refine List.sum_lt_sum _ _ ?_ ⟨.inr r, hr, hlt⟩
  rintro (c | r') -
  · exact le_rfl
  · exact hle r'

theorem Reference.length_replacement_le (r : Reference) :
    (r.replacement plainNames).length ≤ (r.value plainNames).length := by
  by_cases h : ∃ body, r = braced body ∧ Mixed body
  · obtain ⟨body, rfl, hmixed⟩ := h
    exact (length_replacement_lt hmixed).le
  · rw [replacement_eq_value plainNames fun body hbody hmixed => h ⟨body, hbody, hmixed⟩]

/-- The function follows the grammar in every environment exactly where no reference of the text
is mixed. -/
theorem expandEnvVars_eq_expand_iff
    {replaceAll : Regex Char → (Captures Char → List Char) → List Char → List Char}
    (h : Regex.ReplacesAll replaceAll) (text : List Char) :
    (∀ env, expandEnvVars replaceAll env text = expand env text) ↔
      ∀ body, .inr (.braced body) ∈ pieces text → ¬Mixed body := by
  simp only [expandEnvVars_eq_pass h, expand]
  constructor
  · intro heq body hbody hmixed
    have hlt := length_pass_lt Reference.length_replacement_le hbody
      (Reference.length_replacement_lt hmixed)
    exact hlt.ne (congrArg List.length (heq plainNames))
  · intro hnone env
    refine pass_congr fun r hr => r.replacement_eq_value env ?_
    rintro body rfl
    exact hnone body hr

theorem expand_of_reference {env : Environment} {text : List Char} {r : Reference}
    (h : reference text = some (r, [])) : expand env text = r.value env := by
  rw [expand, pass, pieces_of_some h, pieces_nil]
  exact List.append_nil _

/-- `${HOST:-localhost}` -/
def hostReference : List Char :=
  Reference.text (.braced "HOST:-localhost".toList)

theorem expandEnvVars_hostReference :
    expandEnvVars Regex.replaceAll (fun _ => none) hostReference =
      expand (fun _ => none) hostReference := by
  refine (expandEnvVars_eq_expand_iff Regex.replacesAll_replaceAll hostReference).mpr ?_ _
  have href : reference hostReference = some (.braced "HOST:-localhost".toList, []) := rfl
  have hpieces : pieces hostReference = [.inr (.braced "HOST:-localhost".toList)] := by
    rw [pieces_of_some href, pieces_nil]
  rintro body hbody ⟨name, alt, hsplit, -⟩
  rw [hpieces, List.mem_singleton] at hbody
  cases hbody
  cases hsplit

/-- `A` is set to `1`. -/
def onlyA : Environment := fun name =>
  if name = ['A'] then some ['1'] else none

/-- Where `A` is set, `${A:+x:-y}` should be `x:-y`; the function makes it `y`, the default of a
variable `A:+x` that is not set. -/
theorem expandEnvVars_mixed :
    expandEnvVars Regex.replaceAll onlyA (Reference.text (.braced "A:+x:-y".toList)) =
        "y".toList ∧
      expand onlyA (Reference.text (.braced "A:+x:-y".toList)) = "x:-y".toList := by
  refine ⟨by decide, ?_⟩
  rw [expand_of_reference (r := .braced "A:+x:-y".toList) rfl]
  decide

end Anemoi
