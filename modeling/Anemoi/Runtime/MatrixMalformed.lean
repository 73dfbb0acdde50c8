import Anemoi.Runtime.MatrixLanguage

/-!
# What a malformed expression admits

The descent never fails: where a factor is missing it reads none, and where it cannot go on it
stops and drops what is left. So the loadouts are empty exactly when it stops before it has read
any identifier. `readsItem` follows it up to that point, with nothing but the number of open
groups; the rest of the module says in terms of the text when that point is never reached.
-/

namespace Anemoi

open Systems

/-- Whether the descent reads an identifier of these tokens, in `depth` open groups, in front of
an operand or behind one. -/
def readsItem (depth : ℕ) (operand : Bool) : List MatrixToken → Bool
  | [] => false
  | .ident _ :: _ => operand
  | .and :: rest => readsItem depth true rest
  | .or :: rest => readsItem depth true rest
  | .openParen :: rest => operand && readsItem (depth + 1) true rest
  | .closeParen :: rest =>
      match depth with
      | 0 => false
      | depth + 1 => readsItem depth false rest

/-! ### The parsers -/

/-- A parser with loadouts has read an identifier, and one without leaves it to the tokens behind
the operand whether any is. -/
def Follows (operand : Bool) (tokens : List MatrixToken)
    (result : List Loadout × List MatrixToken) : Prop :=
  (result.1 ≠ [] → ∀ depth, readsItem depth operand tokens = true) ∧
    (result.1 = [] → ∀ depth, readsItem depth operand tokens = readsItem depth false result.2)

/-- A parser that reads nothing. -/
theorem Follows.of_none {operand : Bool} {tokens : List MatrixToken}
    (h : ∀ depth, readsItem depth operand tokens = readsItem depth false tokens) :
    Follows operand tokens ([], tokens) :=
  ⟨fun hne => absurd rfl hne, fun _ => h⟩

/-- What is behind an operand without loadouts decides. -/
theorem Follows.trans {operand : Bool} {tokens : List MatrixToken}
    {first last : List Loadout × List MatrixToken} (hfirst : Follows operand tokens first)
    (hlast : first.1 = [] → Follows false first.2 last)
    (hkept : first.1 ≠ [] → last.1 ≠ []) : Follows operand tokens last := by
  by_cases hnil : first.1 = []
  · have hlast := hlast hnil
    constructor
    · intro hne depth
      rw [hfirst.2 hnil, hlast.1 hne]
    · intro hempty depth
      rw [hfirst.2 hnil, hlast.2 hempty]
  · exact ⟨fun _ => hfirst.1 hnil, fun hempty => absurd hempty (hkept hnil)⟩

theorem crossUnion_eq_nil_iff {lhs rhs : List Loadout} :
    crossUnion lhs rhs = [] ↔ lhs = [] ∧ rhs = [] := by
  unfold crossUnion
  cases lhs with
  | nil => simp
  | cons l lhs =>
      cases rhs with
      | nil => simp
      | cons r rhs => simp

section Parsers

variable (vars : Table String String)

/-- What the loop of a level makes of the tokens behind an operand. -/
structure LoopFollows (operator : MatrixToken) (loadouts : List Loadout)
    (tokens : List MatrixToken) (result : List Loadout × List MatrixToken) : Prop where
  follows : loadouts = [] → Follows false tokens result
  kept : loadouts ≠ [] → result.1 ≠ []
  no_and : result.2.head? ≠ some .and
  no_operator : result.2.head? ≠ some operator

/-- In front of less than `n` tokens, every parser follows `readsItem`, and neither loop leaves
an operator of its level. -/
structure FollowsAll (n : ℕ) : Prop where
  or : ∀ tokens : List MatrixToken, tokens.length < n →
    Follows true tokens (parseOr vars tokens).result ∧
      (parseOr vars tokens).result.2.head? ≠ some .and ∧
      (parseOr vars tokens).result.2.head? ≠ some .or
  orLoop : ∀ (tokens : List MatrixToken) (loadouts : List Loadout), tokens.length < n →
    tokens.head? ≠ some .and →
    LoopFollows .or loadouts tokens (parseOrLoop vars loadouts tokens).result
  and : ∀ tokens : List MatrixToken, tokens.length < n →
    Follows true tokens (parseAnd vars tokens).result ∧
      (parseAnd vars tokens).result.2.head? ≠ some .and
  andLoop : ∀ (tokens : List MatrixToken) (loadouts : List Loadout), tokens.length < n →
    LoopFollows .and loadouts tokens (parseAndLoop vars loadouts tokens).result
  factor : ∀ tokens : List MatrixToken, tokens.length < n →
    Follows true tokens (parseFactor vars tokens).result

variable {vars} {n : ℕ} {tokens : List MatrixToken}

/-- Behind an inner expression without loadouts, the closing parenthesis is all that is read. -/
theorem readsItem_dropClose (hand : tokens.head? ≠ some .and) (hor : tokens.head? ≠ some .or)
    (depth : ℕ) :
    readsItem (depth + 1) false tokens = readsItem depth false (dropClose tokens) := by
  rcases tokens with _ | ⟨_ | _ | _ | _ | _, rest⟩
  · rfl
  · rfl
  · exact absurd rfl hand
  · exact absurd rfl hor
  · rfl
  · rfl

theorem follows_parseFactor (ih : FollowsAll vars n) (hn : tokens.length < n + 1) :
    Follows true tokens (parseFactor vars tokens).result := by
  rcases tokens with _ | ⟨id | _ | _ | _ | _, rest⟩
  case cons.ident =>
    rw [result_parseFactor_ident]
    exact ⟨fun _ _ => rfl, fun h => absurd h (List.cons_ne_nil _ _)⟩
  case cons.openParen =>
    obtain ⟨hinner, hand, hor⟩ := ih.or rest (Nat.succ_lt_succ_iff.mp hn)
    rw [result_parseFactor_open]
    constructor
    · intro hne depth
      exact hinner.1 hne (depth + 1)
    · intro hempty depth
      exact (hinner.2 hempty (depth + 1)).trans (readsItem_dropClose hand hor depth)
  all_goals
    rw [result_parseFactor_none vars (by simp) (by simp)]
    exact .of_none fun _ => rfl

theorem loopFollows_parseAndLoop (ih : FollowsAll vars n) (hn : tokens.length < n + 1)
    (loadouts : List Loadout) :
    LoopFollows .and loadouts tokens (parseAndLoop vars loadouts tokens).result := by
  by_cases hhead : tokens.head? = some .and
  · obtain ⟨rest, rfl⟩ := List.head?_eq_some_iff.mp hhead
    have hlt : rest.length < n := Nat.succ_lt_succ_iff.mp hn
    have hfactor := ih.factor rest hlt
    have hloop := ih.andLoop _ (crossUnion loadouts (parseFactor vars rest).result.1)
      ((parseFactor vars rest).rest_le.trans_lt hlt)
    rw [result_parseAndLoop_and]
    refine ⟨fun hnil => ?_, fun hne => hloop.kept ?_, hloop.no_and, hloop.no_operator⟩
    · refine hfactor.trans (fun h => hloop.follows ?_) fun hne => hloop.kept ?_
      · exact crossUnion_eq_nil_iff.mpr ⟨hnil, h⟩
      · exact fun h => hne (crossUnion_eq_nil_iff.mp h).2
    · exact fun h => hne (crossUnion_eq_nil_iff.mp h).1
  · rw [result_parseAndLoop_end vars _ hhead]
    exact ⟨fun hnil => hnil ▸ .of_none fun _ => rfl, fun hne => hne, hhead, hhead⟩

theorem follows_parseAnd (hfactor : Follows true tokens (parseFactor vars tokens).result)
    (hloop : ∀ rest loadouts, rest.length ≤ tokens.length →
      LoopFollows .and loadouts rest (parseAndLoop vars loadouts rest).result) :
    Follows true tokens (parseAnd vars tokens).result ∧
      (parseAnd vars tokens).result.2.head? ≠ some .and := by
  have hrest := hloop _ (parseFactor vars tokens).result.1 (parseFactor vars tokens).rest_le
  rw [result_parseAnd]
  exact ⟨hfactor.trans hrest.follows hrest.kept, hrest.no_and⟩

theorem loopFollows_parseOrLoop (ih : FollowsAll vars n) (hn : tokens.length < n + 1)
    (loadouts : List Loadout) (hnot : tokens.head? ≠ some .and) :
    LoopFollows .or loadouts tokens (parseOrLoop vars loadouts tokens).result := by
  by_cases hhead : tokens.head? = some .or
  · obtain ⟨rest, rfl⟩ := List.head?_eq_some_iff.mp hhead
    have hlt : rest.length < n := Nat.succ_lt_succ_iff.mp hn
    obtain ⟨hand, hno⟩ := ih.and rest hlt
    have hloop := ih.orLoop _ (loadouts ++ (parseAnd vars rest).result.1)
      ((parseAnd vars rest).rest_le.trans_lt hlt) hno
    rw [result_parseOrLoop_or]
    refine ⟨fun hnil => ?_, fun hne => hloop.kept ?_, hloop.no_and, hloop.no_operator⟩
    · refine hand.trans (fun h => hloop.follows ?_) fun hne => hloop.kept ?_
      · exact List.append_eq_nil_iff.mpr ⟨hnil, h⟩
      · exact fun h => hne (List.append_eq_nil_iff.mp h).2
    · exact fun h => hne (List.append_eq_nil_iff.mp h).1
  · rw [result_parseOrLoop_end vars _ hhead]
    exact ⟨fun hnil => hnil ▸ .of_none fun _ => rfl, fun hne => hne, hnot, hhead⟩

theorem follows_parseOr (hand : Follows true tokens (parseAnd vars tokens).result)
    (hnot : (parseAnd vars tokens).result.2.head? ≠ some .and)
    (hloop : ∀ rest loadouts, rest.length ≤ tokens.length → rest.head? ≠ some .and →
      LoopFollows .or loadouts rest (parseOrLoop vars loadouts rest).result) :
    Follows true tokens (parseOr vars tokens).result ∧
      (parseOr vars tokens).result.2.head? ≠ some .and ∧
      (parseOr vars tokens).result.2.head? ≠ some .or := by
  have hrest := hloop _ (parseAnd vars tokens).result.1 (parseAnd vars tokens).rest_le hnot
  rw [result_parseOr]
  exact ⟨hand.trans hrest.follows hrest.kept, hrest.no_and, hrest.no_operator⟩

variable (vars) in
theorem followsAll (n : ℕ) : FollowsAll vars n := by
  induction n with
  | zero => constructor <;> intros <;> omega
  | succ n ih =>
      have hfactor : ∀ tokens : List MatrixToken, tokens.length < n + 1 →
          Follows true tokens (parseFactor vars tokens).result :=
        fun _ hn => follows_parseFactor ih hn
      have hand := fun (tokens : List MatrixToken) (hn : tokens.length < n + 1) =>
        follows_parseAnd (hfactor tokens hn) fun _ loadouts hle =>
          loopFollows_parseAndLoop ih (hle.trans_lt hn) loadouts
      have hor := fun (tokens : List MatrixToken) (hn : tokens.length < n + 1) =>
        follows_parseOr (hand tokens hn).1 (hand tokens hn).2 fun _ loadouts hle hno =>
          loopFollows_parseOrLoop ih (hle.trans_lt hn) loadouts hno
      exact ⟨hor, fun _ loadouts hn hno => loopFollows_parseOrLoop ih hn loadouts hno, hand,
        fun _ loadouts hn => loopFollows_parseAndLoop ih hn loadouts, hfactor⟩

/-- The descent has loadouts exactly if it reads an identifier. -/
theorem loadouts_parseOr_eq_nil_iff :
    (parseOr vars tokens).loadouts = [] ↔ readsItem 0 true tokens = false := by
  obtain ⟨hfollows, hand, hor⟩ := (followsAll vars (tokens.length + 1)).or tokens
    (Nat.lt_succ_self _)
  constructor
  · intro hempty
    rw [hfollows.2 hempty 0]
    rcases hrest : (parseOr vars tokens).result.2 with _ | ⟨_ | _ | _ | _ | _, rest⟩
    · rfl
    · rfl
    · rw [hrest] at hand
      exact absurd rfl hand
    · rw [hrest] at hor
      exact absurd rfl hor
    · rfl
    · rfl
  · intro hreads
    by_contra hne
    rw [hfollows.1 hne 0] at hreads
    exact Bool.false_ne_true hreads.symm

end Parsers

/-! ### Where the descent stops -/

/-- The descent, in `depth` open groups, does not get through these tokens to an identifier
behind them: a closing parenthesis closes nothing, or stands where an operator is missing. -/
def Blocked (depth : ℕ) (operand : Bool) (front : List MatrixToken) : Prop :=
  operand = false ∧ (front = [] ∨ front.head? = some .openParen) ∨
    ∃ before after, front = before ++ .closeParen :: after ∧
      (depth + before.count .openParen ≤ before.count .closeParen ∨ after = [] ∨
        after.head? = some .openParen)

section Blocked

variable {depth : ℕ} {operand : Bool} {front : List MatrixToken}

/-- A closing parenthesis is the first token or among the others. -/
theorem exists_close_cons_iff {token : MatrixToken}
    {p : List MatrixToken → List MatrixToken → Prop} :
    (∃ before after, token :: front = before ++ .closeParen :: after ∧ p before after) ↔
      token = .closeParen ∧ p [] front ∨
        ∃ before after, front = before ++ .closeParen :: after ∧ p (token :: before) after := by
  constructor
  · rintro ⟨before, after, hfront, hp⟩
    cases before with
    | nil =>
        obtain ⟨rfl, rfl⟩ := List.cons.inj hfront
        exact .inl ⟨rfl, hp⟩
    | cons t before =>
        obtain ⟨rfl, htail⟩ := List.cons.inj hfront
        exact .inr ⟨before, after, htail, hp⟩
  · rintro (⟨rfl, hp⟩ | ⟨before, after, rfl, hp⟩)
    · exact ⟨[], front, rfl, hp⟩
    · exact ⟨token :: before, after, rfl, hp⟩

/-- Behind an operator, an operand is next. -/
theorem blocked_operator_iff {token : MatrixToken} (hclose : token ≠ .closeParen)
    (hopen : token ≠ .openParen) :
    Blocked depth operand (token :: front) ↔ Blocked depth true front := by
  simp [Blocked, exists_close_cons_iff, hclose, hopen, List.count_cons_of_ne]

theorem blocked_open_iff :
    Blocked depth true (.openParen :: front) ↔ Blocked (depth + 1) true front := by
  simp [Blocked, exists_close_cons_iff, Nat.add_assoc, Nat.add_comm 1]

theorem blocked_close_iff :
    Blocked (depth + 1) operand (.closeParen :: front) ↔ Blocked depth false front := by
  simp [Blocked, exists_close_cons_iff, Nat.add_right_comm]

theorem readsItem_of_noIdent {tokens : List MatrixToken} (h : ∀ id, .ident id ∉ tokens)
    (depth : ℕ) (operand : Bool) : readsItem depth operand tokens = false := by
  induction tokens generalizing depth operand with
  | nil => rfl
  | cons token tokens ih =>
      have hrest := ih fun id hid => h id (List.mem_cons_of_mem _ hid)
      cases token with
      | ident id => exact absurd List.mem_cons_self (h id)
      | and => exact hrest depth true
      | or => exact hrest depth true
      | openParen => rw [readsItem, hrest, Bool.and_false]
      | closeParen =>
          cases depth with
          | zero => rfl
          | succ depth => exact hrest depth false

/-- An identifier is read unless what is in front of it blocks. -/
theorem readsItem_append_ident (h : ∀ id, .ident id ∉ front) (id : String)
    (rest : List MatrixToken) (depth : ℕ) (operand : Bool) :
    readsItem depth operand (front ++ .ident id :: rest) = false ↔
      Blocked depth operand front := by
  induction front generalizing depth operand with
  | nil => simp [readsItem, Blocked]
  | cons token front ih =>
      have hrest := ih fun id hid => h id (List.mem_cons_of_mem _ hid)
      cases token with
      | ident id => exact absurd List.mem_cons_self (h id)
      | and => exact (hrest depth true).trans (blocked_operator_iff (by simp) (by simp)).symm
      | or => exact (hrest depth true).trans (blocked_operator_iff (by simp) (by simp)).symm
      | openParen =>
          cases operand with
          | false => exact iff_of_true rfl (.inl ⟨rfl, .inr rfl⟩)
          | true => exact (hrest (depth + 1) true).trans blocked_open_iff.symm
      | closeParen =>
          cases depth with
          | zero => exact iff_of_true rfl (.inr ⟨[], front, rfl, .inl le_rfl⟩)
          | succ depth => exact (hrest depth false).trans blocked_close_iff.symm

end Blocked

/-! ### The text -/

/-- The operators and parentheses in front of the first identifier of a text. -/
def operatorsBefore (text : List Char) : List MatrixToken :=
  (text.takeWhile fun c => ¬IsIdentChar c).filterMap MatrixToken.ofChar?

/-- The text has no identifier, or in front of its first one a closing parenthesis closes
nothing or is followed directly by an opening one or by that identifier. -/
def Unreadable (text : List Char) : Prop :=
  (∀ c ∈ text, ¬IsIdentChar c) ∨
    ∃ before after, operatorsBefore text = before ++ .closeParen :: after ∧
      (before.count .openParen ≤ before.count .closeParen ∨ after = [] ∨
        after.head? = some .openParen)

theorem ofChar?_ne_ident (c : Char) (id : String) :
    MatrixToken.ofChar? c ≠ some (.ident id) := by
  unfold MatrixToken.ofChar?
  split <;> simp

theorem isWhiteSpace_of_ofChar?_eq_none {c : Char} (h : MatrixToken.ofChar? c = none)
    (hc : ¬IsIdentChar c) : isWhiteSpace c = true := by
  by_contra hwhite
  refine hc ⟨?_, Bool.eq_false_iff.mpr hwhite⟩
  intro hmem
  rcases List.mem_cons.mp hmem with rfl | hmem
  · cases h
  simp only [List.mem_cons, List.not_mem_nil, or_false] at hmem
  rcases hmem with rfl | rfl | rfl <;> cases h

/-- In front of the first identifier, every token is one character. -/
theorem tokenizeFrom_operators {front : List Char} (hfront : ∀ c ∈ front, ¬IsIdentChar c)
    (rest : List Char) :
    tokenizeFrom [] (front ++ rest) =
      front.filterMap MatrixToken.ofChar? ++ tokenizeFrom [] rest := by
  induction front with
  | nil => rfl
  | cons c front ih =>
      obtain ⟨hc, hfront⟩ := List.forall_mem_cons.mp hfront
      rw [List.cons_append]
      cases h : MatrixToken.ofChar? c with
      | some token =>
          rw [tokenizeFrom_operator h, ih hfront, List.filterMap_cons_some h]
          rfl
      | none =>
          rw [tokenizeFrom, h, List.filterMap_cons_none h]
          simp only [isWhiteSpace_of_ofChar?_eq_none h hc, if_true]
          exact ih hfront

/-- An identifier that is being read is the next token. -/
theorem tokenizeFrom_ident {ident : List Char} (hident : ident ≠ []) (text : List Char) :
    ∃ id rest, tokenizeFrom ident text = .ident id :: rest := by
  have htake : ∀ l : List Char, l ≠ [] → takeIdent l = [.ident (String.ofList l)] := by
    intro l hl
    rw [takeIdent, if_neg (by simpa using hl)]
  induction text generalizing ident with
  | nil => exact ⟨_, [], htake ident hident⟩
  | cons c text ih =>
      rw [tokenizeFrom]
      split
      · rw [htake ident hident]
        exact ⟨_, _, rfl⟩
      · split
        · rw [htake ident hident]
          exact ⟨_, _, rfl⟩
        · exact ih (by simp)

theorem readsItem_tokenize (text : List Char) :
    readsItem 0 true (tokenizeFrom [] text) = false ↔ Unreadable text := by
  have hnoIdent : ∀ (l : List Char) id, .ident id ∉ l.filterMap MatrixToken.ofChar? := by
    intro l id hid
    obtain ⟨c, -, hc⟩ := List.mem_filterMap.mp hid
    exact ofChar?_ne_ident c id hc
  have hfront : ∀ c ∈ text.takeWhile fun c => ¬IsIdentChar c, ¬IsIdentChar c := by
    intro c hc
    simpa using List.mem_takeWhile_imp hc
  have hsplit := List.takeWhile_append_dropWhile (p := fun c => ¬IsIdentChar c) (l := text)
  have htokens := tokenizeFrom_operators hfront (text.dropWhile fun c => ¬IsIdentChar c)
  rw [hsplit] at htokens
  rw [htokens, Unreadable]
  cases hrest : text.dropWhile fun c => ¬IsIdentChar c with
  | nil =>
      rw [hrest, List.append_nil] at hsplit
      refine iff_of_true ?_ (.inl (by rwa [hsplit] at hfront))
      exact readsItem_of_noIdent (by simpa [tokenizeFrom, takeIdent] using hnoIdent _) 0 true
  | cons c rest =>
      have hc : IsIdentChar c := by
        have hnot := List.head?_dropWhile_not (fun c => ¬IsIdentChar c) text
        rw [hrest] at hnot
        simpa using hnot
      have hmem : c ∈ text := by
        rw [← hsplit, hrest]
        simp
      obtain ⟨id, tokens, hid⟩ := tokenizeFrom_ident (List.cons_ne_nil c []) rest
      have hfirst : tokenizeFrom [] (c :: rest) = .ident id :: tokens := by
        rw [← hid, tokenizeFrom, ofChar?_of_isIdentChar hc]
        simp only [hc.2, Bool.false_eq_true, if_false, List.nil_append]
      rw [hfirst, readsItem_append_ident (hnoIdent _), Blocked, ← operatorsBefore]
      simp [show ¬∀ c ∈ text, ¬IsIdentChar c from fun h => h c hmem hc]

theorem dedupLoadouts_eq_nil_iff {loadouts : List Loadout} :
    dedupLoadouts loadouts = [] ↔ loadouts = [] := by
  rw [List.eq_nil_iff_forall_not_mem, List.eq_nil_iff_forall_not_mem]
  simp [dedupLoadouts, mem_dedupFrom]

/-- Whatever the aliases are, a set admits nothing exactly if its text is unreadable. -/
theorem loadoutsWithVars_eq_nil_iff (models : String) (vars : Table String String) :
    ColocationSet.loadoutsWithVars ⟨models⟩ vars = [] ↔ Unreadable models.toList := by
  rw [ColocationSet.loadoutsWithVars, dedupLoadouts_eq_nil_iff, loadouts_parseOr_eq_nil_iff]
  exact readsItem_tokenize models.toList

/-- A text outside the grammar admits nothing exactly if it is unreadable. -/
theorem malformed_admitsNothing_iff (models : String) (vars : Table String String) :
    ((¬∃ e : Expr String .sum, Spells e models.toList) →
        ColocationSet.loadoutsWithVars ⟨models⟩ vars = []) ↔
      (∃ e : Expr String .sum, Spells e models.toList) ∨ Unreadable models.toList := by
  rw [loadoutsWithVars_eq_nil_iff]
  exact or_iff_not_imp_left.symm

/-- Two identifiers without an operator between them admit the first. -/
theorem juxtaposed_admits :
    ¬∀ (models : String) (vars : Table String String),
      (¬∃ e : Expr String .sum, Spells e models.toList) →
        ColocationSet.loadoutsWithVars ⟨models⟩ vars = [] := by
  intro hall
  have htokens : tokenizeColocationExpr "a b" = [.ident "a", .ident "b"] := by rfl
  have hread : (parseOr ∅ [.ident "a", .ident "b"]).result = ([{"a"}], [.ident "b"]) := by
    rw [result_parseOr, result_parseAnd, result_parseFactor_ident,
      result_parseAndLoop_end _ _ (by simp), result_parseOrLoop_end _ _ (by simp)]
    rfl
  have hnot : ¬∃ e : Expr String .sum, Spells e "a b".toList := by
    rintro ⟨e, he⟩
    have hwhole := parseOr_tokens ∅ e
    rw [← tokenizeColocationExpr_of_spells he, htokens, hread] at hwhole
    cases (Prod.mk.inj hwhole).2
  have hempty := hall "a b" ∅ hnot
  rw [ColocationSet.loadoutsWithVars, dedupLoadouts_eq_nil_iff, htokens] at hempty
  have hloadouts := congrArg Prod.fst hread
  exact absurd (hempty.symm.trans hloadouts) (List.cons_ne_nil _ _).symm

end Anemoi
