import Anemoi.Runtime.Matrix
import Anemoi.Systems.Alternatives

/-!
# What a colocation expression means

A text spells an expression of the grammar of `Systems.Expr` when it is its items and
operators with any whitespace between them (`Spells`). The tokenizer turns such a text
into the tokens of the expression (`tokenizeFrom_of_spells`), the recursive descent turns
the tokens into its loadouts (`parseOr_tokens`), and these are its denotation. Since no
expression is without a group, the case of `crossUnion` for an empty side is never
reached on a text of the grammar.
-/

namespace Anemoi

open Systems

/-! ### Spelling -/

def Blank (text : List Char) : Prop :=
  ∀ c ∈ text, isWhiteSpace c = true

/-- The characters of an identifier: neither operators nor whitespace. -/
def IsIdentChar (c : Char) : Prop :=
  c ∉ ['&', '|', '(', ')'] ∧ isWhiteSpace c = false

def IsIdent (id : String) : Prop :=
  id.toList ≠ [] ∧ ∀ c ∈ id.toList, IsIdentChar c

instance (text : List Char) : Decidable (Blank text) :=
  List.decidableBAll _ text

instance (c : Char) : Decidable (IsIdentChar c) :=
  inferInstanceAs (Decidable (_ ∧ _))

instance (id : String) : Decidable (IsIdent id) :=
  have := List.decidableBAll IsIdentChar id.toList
  inferInstanceAs (Decidable (_ ∧ _))

/-- The text is the expression, with whitespace around its items and parentheses. -/
inductive Spells : {level : Level} → Expr String level → List Char → Prop
  | item {id : String} {w w' : List Char} : IsIdent id → Blank w → Blank w' →
      Spells (.item id) (w ++ id.toList ++ w')
  | group {e : Expr String .sum} {s w w' : List Char} : Spells e s → Blank w → Blank w' →
      Spells (.group e) (w ++ '(' :: s ++ ')' :: w')
  | single {f : Expr String .factor} {s : List Char} : Spells f s → Spells (.single f) s
  | both {t : Expr String .product} {f : Expr String .factor} {s s' : List Char} :
      Spells t s → Spells f s' → Spells (.both t f) (s ++ '&' :: s')
  | only {t : Expr String .product} {s : List Char} : Spells t s → Spells (.only t) s
  | either {e : Expr String .sum} {t : Expr String .product} {s s' : List Char} :
      Spells e s → Spells t s' → Spells (.either e t) (s ++ '|' :: s')

/-- The tokens of an expression. -/
def exprTokens : {level : Level} → Expr String level → List MatrixToken
  | _, .item id => [.ident id]
  | _, .group e => .openParen :: (exprTokens e ++ [.closeParen])
  | _, .single f => exprTokens f
  | _, .both t f => exprTokens t ++ .and :: exprTokens f
  | _, .only t => exprTokens t
  | _, .either e t => exprTokens e ++ .or :: exprTokens t

/-! ### The tokenizer on a spelling -/

/-- An identifier that is being read ends in front of this text. -/
def EndsIdent (text : List Char) : Prop :=
  ∀ ch ∈ text.head?, (MatrixToken.ofChar? ch).isSome

theorem endsIdent_cons {ch : Char} {token : MatrixToken}
    (h : MatrixToken.ofChar? ch = some token) (text : List Char) : EndsIdent (ch :: text) := by
  intro c hc
  rw [List.head?_cons, Option.mem_some] at hc
  rw [← hc, h, Option.isSome_some]

theorem ofChar?_of_isWhiteSpace {ch : Char} (h : isWhiteSpace ch = true) :
    MatrixToken.ofChar? ch = none := by
  unfold MatrixToken.ofChar?
  split
  · exact absurd h (by decide)
  · exact absurd h (by decide)
  · exact absurd h (by decide)
  · exact absurd h (by decide)
  · rfl

theorem ofChar?_of_isIdentChar {ch : Char} (h : IsIdentChar ch) :
    MatrixToken.ofChar? ch = none := by
  obtain ⟨hop, -⟩ := h
  unfold MatrixToken.ofChar?
  split
  · exact absurd hop (by decide)
  · exact absurd hop (by decide)
  · exact absurd hop (by decide)
  · exact absurd hop (by decide)
  · rfl

/-- An operator ends the identifier in front of it and is a token of its own. -/
theorem tokenizeFrom_operator {ch : Char} {token : MatrixToken}
    (h : MatrixToken.ofChar? ch = some token) (ident rest : List Char) :
    tokenizeFrom ident (ch :: rest) = takeIdent ident ++ token :: tokenizeFrom [] rest := by
  rw [tokenizeFrom, h]

/-- Whitespace between tokens is passed over. -/
theorem tokenizeFrom_blank {w : List Char} (hw : Blank w) (rest : List Char) :
    tokenizeFrom [] (w ++ rest) = tokenizeFrom [] rest := by
  induction w with
  | nil => rfl
  | cons ch w ih =>
      obtain ⟨hch, hw⟩ := List.forall_mem_cons.mp hw
      rw [List.cons_append, tokenizeFrom, ofChar?_of_isWhiteSpace hch]
      simp only [hch, if_true, takeIdent, List.isEmpty_nil, List.nil_append]
      exact ih hw

/-- The characters of an identifier are collected. -/
theorem tokenizeFrom_identChars {l : List Char} (hl : ∀ c ∈ l, IsIdentChar c)
    (ident rest : List Char) :
    tokenizeFrom ident (l ++ rest) = tokenizeFrom (ident ++ l) rest := by
  induction l generalizing ident with
  | nil => rw [List.nil_append, List.append_nil]
  | cons ch l ih =>
      obtain ⟨hch, hl⟩ := List.forall_mem_cons.mp hl
      rw [List.cons_append, tokenizeFrom, ofChar?_of_isIdentChar hch]
      simp only [hch.2, Bool.false_eq_true, if_false]
      rw [ih hl, List.append_assoc, List.singleton_append]

/-- An identifier ends at whitespace, at an operator and at the end of the text. -/
theorem tokenizeFrom_end {w rest : List Char} (hw : Blank w) (hrest : EndsIdent rest)
    (ident : List Char) :
    tokenizeFrom ident (w ++ rest) = takeIdent ident ++ tokenizeFrom [] rest := by
  cases w with
  | cons ch w =>
      obtain ⟨hch, hw⟩ := List.forall_mem_cons.mp hw
      rw [List.cons_append, tokenizeFrom, ofChar?_of_isWhiteSpace hch]
      simp only [hch, if_true]
      rw [tokenizeFrom_blank hw]
  | nil =>
      rw [List.nil_append]
      cases rest with
      | nil => simp [tokenizeFrom, takeIdent]
      | cons ch rest =>
          obtain ⟨token, htoken⟩ := Option.isSome_iff_exists.mp (hrest ch rfl)
          rw [tokenizeFrom_operator htoken, tokenizeFrom_operator htoken]
          simp [takeIdent]

theorem takeIdent_toList {id : String} (h : IsIdent id) :
    takeIdent id.toList = [.ident id] := by
  rw [takeIdent, if_neg (by simpa using h.1), String.ofList_toList]

/-- The tokenizer reads a spelling as the tokens of the expression. -/
theorem tokenizeFrom_of_spells {level : Level} {e : Expr String level} {s : List Char}
    (h : Spells e s) {rest : List Char} (hrest : EndsIdent rest) :
    tokenizeFrom [] (s ++ rest) = exprTokens e ++ tokenizeFrom [] rest := by
  induction h generalizing rest with
  | item hid hw hw' =>
      rw [List.append_assoc, List.append_assoc, tokenizeFrom_blank hw,
        tokenizeFrom_identChars hid.2, List.nil_append, tokenizeFrom_end hw' hrest,
        takeIdent_toList hid, exprTokens]
  | group he hw hw' ih =>
      have hopen : MatrixToken.ofChar? '(' = some .openParen := rfl
      have hclose : MatrixToken.ofChar? ')' = some .closeParen := rfl
      rw [List.append_assoc, List.append_assoc, tokenizeFrom_blank hw, List.cons_append,
        tokenizeFrom_operator hopen, List.cons_append, ih (endsIdent_cons hclose _),
        tokenizeFrom_operator hclose, tokenizeFrom_blank hw', exprTokens]
      simp [takeIdent]
  | single _ ih => exact ih hrest
  | both _ _ iht ihf =>
      have hand : MatrixToken.ofChar? '&' = some .and := rfl
      rw [List.append_assoc, List.cons_append, iht (endsIdent_cons hand _),
        tokenizeFrom_operator hand, ihf hrest, exprTokens]
      simp [takeIdent]
  | only _ ih => exact ih hrest
  | either _ _ ihe iht =>
      have hor : MatrixToken.ofChar? '|' = some .or := rfl
      rw [List.append_assoc, List.cons_append, ihe (endsIdent_cons hor _),
        tokenizeFrom_operator hor, iht hrest, exprTokens]
      simp [takeIdent]

theorem tokenizeColocationExpr_of_spells {e : Expr String .sum} {models : String}
    (h : Spells e models.toList) : tokenizeColocationExpr models = exprTokens e := by
  have hend : EndsIdent [] := fun ch hch => absurd hch (Option.not_mem_none ch)
  have htokens := tokenizeFrom_of_spells h hend
  rwa [List.append_nil, tokenizeFrom, takeIdent, List.isEmpty_nil, if_pos rfl,
    List.append_nil] at htokens

/-! ### The descent on the tokens of an expression -/

/-- The loadouts of a parser and the tokens it leaves. -/
def Parsed.result {tokens : List MatrixToken} (p : Parsed tokens) :
    List Loadout × List MatrixToken :=
  (p.loadouts, p.rest)

section Descent

variable (vars : Table String String)

theorem result_parseOr (tokens : List MatrixToken) :
    (parseOr vars tokens).result =
      (parseOrLoop vars (parseAnd vars tokens).result.1
        (parseAnd vars tokens).result.2).result := by
  rw [parseOr]
  rfl

theorem result_parseOrLoop_or (loadouts : List Loadout) (tokens : List MatrixToken) :
    (parseOrLoop vars loadouts (.or :: tokens)).result =
      (parseOrLoop vars (loadouts ++ (parseAnd vars tokens).result.1)
        (parseAnd vars tokens).result.2).result := by
  rw [parseOrLoop]
  rfl

theorem result_parseOrLoop_end (loadouts : List Loadout) {tokens : List MatrixToken}
    (h : tokens.head? ≠ some .or) :
    (parseOrLoop vars loadouts tokens).result = (loadouts, tokens) := by
  rw [parseOrLoop]
  · rfl
  · rintro rest rfl
    exact h rfl

theorem result_parseAnd (tokens : List MatrixToken) :
    (parseAnd vars tokens).result =
      (parseAndLoop vars (parseFactor vars tokens).result.1
        (parseFactor vars tokens).result.2).result := by
  rw [parseAnd]
  rfl

theorem result_parseAndLoop_and (loadouts : List Loadout) (tokens : List MatrixToken) :
    (parseAndLoop vars loadouts (.and :: tokens)).result =
      (parseAndLoop vars (crossUnion loadouts (parseFactor vars tokens).result.1)
        (parseFactor vars tokens).result.2).result := by
  rw [parseAndLoop]
  rfl

theorem result_parseAndLoop_end (loadouts : List Loadout) {tokens : List MatrixToken}
    (h : tokens.head? ≠ some .and) :
    (parseAndLoop vars loadouts tokens).result = (loadouts, tokens) := by
  rw [parseAndLoop]
  · rfl
  · rintro rest rfl
    exact h rfl

theorem result_parseFactor_ident (id : String) (tokens : List MatrixToken) :
    (parseFactor vars (.ident id :: tokens)).result = ([{resolve vars id}], tokens) := by
  rw [parseFactor]
  rfl

/-- The tokens without a closing parenthesis in front of them. -/
def dropClose : List MatrixToken → List MatrixToken
  | .closeParen :: rest => rest
  | tokens => tokens

theorem dropClose_of_head? {tokens : List MatrixToken} (h : tokens.head? ≠ some .closeParen) :
    dropClose tokens = tokens := by
  unfold dropClose
  split
  · exact absurd rfl h
  · rfl

theorem Parsed.result_skipClose {tokens : List MatrixToken} (p : Parsed tokens) :
    p.skipClose.result = (p.result.1, dropClose p.result.2) := by
  obtain ⟨loadouts, rest, h⟩ := p
  rcases rest with _ | ⟨_ | _ | _ | _ | _, rest⟩ <;> rfl

theorem result_parseFactor_open (tokens : List MatrixToken) :
    (parseFactor vars (.openParen :: tokens)).result =
      ((parseOr vars tokens).result.1, dropClose (parseOr vars tokens).result.2) := by
  rw [← Parsed.result_skipClose, parseFactor]
  rfl

/-- In front of an operator, a closing parenthesis or the end, no factor is read. -/
theorem result_parseFactor_none {tokens : List MatrixToken}
    (hident : ∀ id, tokens.head? ≠ some (.ident id)) (hopen : tokens.head? ≠ some .openParen) :
    (parseFactor vars tokens).result = ([], tokens) := by
  rw [parseFactor]
  · rfl
  · rintro id rest rfl
    exact hident id rfl
  · rintro rest rfl
    exact hopen rfl

/-- A group that is closed behind the expression in it. -/
theorem result_parseFactor_group {tokens rest : List MatrixToken} {loadouts : List Loadout}
    (h : (parseOr vars tokens).result = (loadouts, .closeParen :: rest)) :
    (parseFactor vars (.openParen :: tokens)).result = (loadouts, rest) := by
  rw [result_parseFactor_open, h]
  rfl

/-- With groups on both sides, the cross product is the pairwise union. -/
theorem crossUnion_eq {l r : List Loadout} (hl : l ≠ []) (hr : r ≠ []) :
    crossUnion l r = pairUnions l r := by
  rw [crossUnion, if_neg (by simpa using hl), if_neg (by simpa using hr), pairUnions]

/-- How the parser of a level reads the tokens of an expression in front of other tokens:
it has the loadouts of the expression when its loop reaches those tokens. -/
def ReadsAs : (level : Level) → Expr String level → Prop
  | .sum, e => ∀ rest : List MatrixToken, rest.head? ≠ some .and →
      (parseOr vars (exprTokens e ++ rest)).result =
        (parseOrLoop vars (e.loadouts (resolve vars)) rest).result
  | .product, t => ∀ rest : List MatrixToken,
      (parseAnd vars (exprTokens t ++ rest)).result =
        (parseAndLoop vars (t.loadouts (resolve vars)) rest).result
  | .factor, f => ∀ rest : List MatrixToken,
      (parseFactor vars (exprTokens f ++ rest)).result = (f.loadouts (resolve vars), rest)

theorem readsAs {level : Level} (e : Expr String level) : ReadsAs vars level e := by
  induction e with
  | item id =>
      intro rest
      exact result_parseFactor_ident vars id rest
  | group e ih =>
      intro rest
      have hinner := ih (.closeParen :: rest) (by simp)
      rw [result_parseOrLoop_end vars _ (by simp)] at hinner
      have htokens : exprTokens (.group e) ++ rest =
          .openParen :: (exprTokens e ++ .closeParen :: rest) := by
        simp [exprTokens]
      rw [htokens]
      exact result_parseFactor_group vars hinner
  | single f ih =>
      intro rest
      rw [exprTokens, result_parseAnd, ih rest, Expr.loadouts]
  | both t f iht ihf =>
      intro rest
      rw [exprTokens, List.append_assoc, List.cons_append, iht, result_parseAndLoop_and,
        ihf rest, crossUnion_eq (t.loadouts_ne_nil _) (f.loadouts_ne_nil _), Expr.loadouts]
  | only t ih =>
      intro rest hrest
      rw [exprTokens, result_parseOr, ih rest, result_parseAndLoop_end vars _ hrest,
        Expr.loadouts]
  | either e t ihe iht =>
      intro rest hrest
      rw [exprTokens, List.append_assoc, List.cons_append, ihe _ (by simp),
        result_parseOrLoop_or, iht rest, result_parseAndLoop_end vars _ hrest,
        Expr.loadouts]

/-- On the tokens of an expression the descent reads its loadouts and every token. -/
theorem parseOr_tokens (e : Expr String .sum) :
    (parseOr vars (exprTokens e)).result = (e.loadouts (resolve vars), []) := by
  have hread := readsAs vars e [] (by simp)
  rwa [List.append_nil, result_parseOrLoop_end vars _ (by simp)] at hread

end Descent

/-! ### The loadouts of a set -/

theorem mem_dedupFrom {seen : Finset Loadout} {l : List Loadout} {x : Loadout} :
    x ∈ dedupFrom seen l ↔ x ∈ l ∧ x ∉ seen := by
  induction l generalizing seen with
  | nil => simp [dedupFrom]
  | cons y l ih =>
      rw [dedupFrom]
      by_cases hy : y ∈ seen
      · rw [if_pos hy, ih, List.mem_cons]
        constructor
        · rintro ⟨hx, hseen⟩
          exact ⟨Or.inr hx, hseen⟩
        · rintro ⟨rfl | hx, hseen⟩
          · exact absurd hy hseen
          · exact ⟨hx, hseen⟩
      · rw [if_neg hy, List.mem_cons, ih, Finset.mem_insert, List.mem_cons]
        by_cases hxy : x = y
        · subst hxy
          simp [hy]
        · simp [hxy]

theorem nodup_dedupFrom (seen : Finset Loadout) (l : List Loadout) :
    (dedupFrom seen l).Nodup := by
  induction l generalizing seen with
  | nil => exact List.nodup_nil
  | cons y l ih =>
      rw [dedupFrom]
      by_cases hy : y ∈ seen
      · rw [if_pos hy]
        exact ih seen
      · rw [if_neg hy, List.nodup_cons]
        refine ⟨fun hmem => ?_, ih _⟩
        exact (mem_dedupFrom.mp hmem).2 (Finset.mem_insert_self y seen)

theorem mem_loadoutsWithVars {set : ColocationSet} {e : Expr String .sum}
    (h : Spells e set.models.toList) (vars : Table String String) {l : Loadout} :
    l ∈ set.loadoutsWithVars vars ↔ l ∈ e.denotation (resolve vars) := by
  have hloadouts : (parseOr vars (exprTokens e)).loadouts = e.loadouts (resolve vars) :=
    congrArg Prod.fst (parseOr_tokens vars e)
  rw [ColocationSet.loadoutsWithVars, tokenizeColocationExpr_of_spells h, hloadouts,
    dedupLoadouts, mem_dedupFrom, Expr.mem_loadouts]
  simp

/-! ### Colocation -/

theorem aliasBinding_eq_some {e : String × MatrixVar} {e' : String × String} :
    aliasBinding e = some e' ↔ e = (e'.1, .string e'.2) := by
  obtain ⟨k, v⟩ := e
  obtain ⟨k', s⟩ := e'
  cases v <;> simp [aliasBinding]

namespace LlamaSwapMatrixConfig

/-- The model that a name of an expression stands for: its alias among the vars, if it
has one. -/
def modelNamed (config : LlamaSwapMatrixConfig) (id : String) : String :=
  match config.vars.lookup id with
  | some (.string s) => s
  | _ => id

theorem lookup_stringVars (config : LlamaSwapMatrixConfig) {k s : String} :
    config.stringVars.lookup k = some s ↔ config.vars.lookup k = some (.string s) := by
  have hkeys := AList.nodup_map_fst_filterMap (f := aliasBinding)
    (fun e e' h => congrArg Prod.fst (aliasBinding_eq_some.mp h).symm) config.vars
  rw [stringVars, AList.lookup_ofList hkeys, List.mem_filterMap, ← AList.mem_items]
  constructor
  · rintro ⟨e, hmem, he⟩
    rwa [aliasBinding_eq_some.mp he] at hmem
  · intro hmem
    exact ⟨_, hmem, rfl⟩

theorem resolve_stringVars (config : LlamaSwapMatrixConfig) :
    resolve config.stringVars = config.modelNamed := by
  funext id
  rw [resolve, modelNamed]
  cases h : config.stringVars.lookup id with
  | some s =>
      rw [config.lookup_stringVars.mp h]
      rfl
  | none =>
      split
      · next s hs =>
          rw [config.lookup_stringVars.mpr hs] at h
          cases h
      · rfl

theorem canColocate_iff {config : LlamaSwapMatrixConfig} {a b : ModelId} :
    config.canColocate a b = true ↔ ∃ l ∈ config.loadouts, a.text ∈ l ∧ b.text ∈ l := by
  simp only [canColocate, List.any_eq_true, Bool.and_eq_true, decide_eq_true_eq]

theorem canColocate_comm (config : LlamaSwapMatrixConfig) (a b : ModelId) :
    config.canColocate a b = config.canColocate b a := by
  rw [Bool.eq_iff_iff, canColocate_iff, canColocate_iff]
  simp only [and_comm]

/-- The lowered constraints answer as the matrix does. -/
theorem canColocate_colocationConstraints (config : LlamaSwapMatrixConfig) (a b : ModelId) :
    config.colocationConstraints.canColocate a b = config.canColocate a b := by
  have hmem : ∀ (l : Loadout) (m : ModelId),
      m ∈ (l.sort (· ≤ ·)).map ModelId.mk ↔ m.text ∈ l := by
    intro l m
    rw [List.mem_map]
    constructor
    · rintro ⟨s, hs, rfl⟩
      exact (Finset.mem_sort _).mp hs
    · intro hm
      exact ⟨m.text, (Finset.mem_sort _).mpr hm, rfl⟩
  rw [Bool.eq_iff_iff, canColocate_iff, ColocationConstraints.canColocate,
    colocationConstraints, List.any_map, List.any_eq_true]
  simp only [Function.comp_apply, Bool.and_eq_true, List.contains_iff_mem, hmem]

/-- The meaning of the matrix. A set whose expression is in the grammar admits, without
repetition, the groups of the denotation of the expression; the matrix and the lowered
constraints give the same, symmetric answer for every pair; and when every expression is
in the grammar, a pair colocates exactly when some group of some set holds both. -/
theorem matrix_denotes (config : LlamaSwapMatrixConfig) :
    (∀ (set : ColocationSet) (e : Expr String .sum), Spells e set.models.toList →
      ∀ vars : Table String String, (set.loadoutsWithVars vars).Nodup ∧
        ∀ l, l ∈ set.loadoutsWithVars vars ↔ l ∈ e.denotation (resolve vars)) ∧
    (∀ a b, config.canColocate a b = config.colocationConstraints.canColocate a b ∧
      config.colocationConstraints.canColocate a b = config.canColocate b a) ∧
    ((∀ set ∈ config.sets, ∃ e : Expr String .sum, Spells e set.models.toList) →
      ∀ a b, config.canColocate a b = true ↔
        ∃ set ∈ config.sets, ∃ e : Expr String .sum, Spells e set.models.toList ∧
          ∃ l ∈ e.denotation config.modelNamed, a.text ∈ l ∧ b.text ∈ l) := by
  refine ⟨fun set e h vars => ⟨nodup_dedupFrom ∅ _, fun l => mem_loadoutsWithVars h vars⟩,
    fun a b => ?_, fun hgrammar a b => ?_⟩
  · rw [canColocate_colocationConstraints]
    exact ⟨rfl, config.canColocate_comm a b⟩
  · rw [canColocate_iff, ← config.resolve_stringVars]
    constructor
    · rintro ⟨l, hl, hab⟩
      obtain ⟨set, hset, hl⟩ := List.mem_flatMap.mp hl
      obtain ⟨e, he⟩ := hgrammar set hset
      exact ⟨set, hset, e, he, l, (mem_loadoutsWithVars he _).mp hl, hab⟩
    · rintro ⟨set, hset, e, he, l, hl, hab⟩
      exact ⟨l, List.mem_flatMap.mpr ⟨set, hset, (mem_loadoutsWithVars he _).mpr hl⟩, hab⟩

/-- A matrix with an alias and a budget among its vars. -/
def twoAndGemma : LlamaSwapMatrixConfig where
  vars := AList.ofList [("g", .string "gemma"), ("gpu", .uint 24576)]
  sets := [⟨"(a | b) & g"⟩]

/-- The expression of its only set. -/
def twoAndGemmaExpr : Expr String .sum :=
  .only (.both (.single (.group (.either (.only (.single (.item "a"))) (.single (.item "b")))))
    (.item "g"))

theorem spells_twoAndGemmaExpr : Spells twoAndGemmaExpr "(a | b) & g".toList := by
  have hident : ∀ id ∈ ["a", "b", "g"], IsIdent id := by decide
  have hnone : Blank [] := by decide
  have hspace : Blank [' '] := by decide
  have ha : Spells (.item "a") ([] ++ "a".toList ++ [' ']) :=
    .item (hident "a" (by simp)) hnone hspace
  have hb : Spells (.item "b") ([' '] ++ "b".toList ++ []) :=
    .item (hident "b" (by simp)) hspace hnone
  have hg : Spells (.item "g") ([' '] ++ "g".toList ++ []) :=
    .item (hident "g" (by simp)) hspace hnone
  have hgroup := Spells.group (.either (.only (.single ha)) (.single hb)) hnone hspace
  exact .only (.both (.single hgroup) hg)

theorem matrix_denotes_twoAndGemma :
    (ColocationSet.loadoutsWithVars ⟨"(a | b) & g"⟩ twoAndGemma.stringVars).Nodup ∧
      twoAndGemma.canColocate ⟨"a"⟩ ⟨"gemma"⟩ = true := by
  obtain ⟨hsets, -, hpairs⟩ := twoAndGemma.matrix_denotes
  refine ⟨(hsets ⟨"(a | b) & g"⟩ twoAndGemmaExpr spells_twoAndGemmaExpr _).1, ?_⟩
  have hgrammar : ∀ set ∈ twoAndGemma.sets, ∃ e : Expr String .sum,
      Spells e set.models.toList := by
    intro set hset
    rw [List.mem_singleton.mp hset]
    exact ⟨twoAndGemmaExpr, spells_twoAndGemmaExpr⟩
  refine (hpairs hgrammar ⟨"a"⟩ ⟨"gemma"⟩).mpr ⟨_, List.mem_singleton_self _, twoAndGemmaExpr,
    spells_twoAndGemmaExpr, {"a"} ∪ {"gemma"}, ?_, by decide⟩
  have halias : twoAndGemma.modelNamed "a" = "a" ∧ twoAndGemma.modelNamed "g" = "gemma" := by
    decide
  exact ⟨{"a"}, Or.inl (by rw [← halias.1]; rfl), {"gemma"}, by rw [← halias.2]; rfl, rfl⟩

end LlamaSwapMatrixConfig

end Anemoi
