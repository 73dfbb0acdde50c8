import Mathlib.Data.Finset.Sort
import Mathlib.Data.String.Basic
import Anemoi.Core.Types
import Anemoi.Systems.Table
import Anemoi.Text.Lines

/-!
# The colocation matrix of llama-swap

The `matrix` block of a llama-swap config declares which models may be GPU-resident
together, as expressions over model ids with `&`, `|` and parentheses. This is the
reader of these expressions: the tokenizer, the recursive descent over the tokens, the
loadouts each set admits, and the two ways to ask whether a pair of models colocates.

A `BTreeSet` of strings is a `Finset`, and its iteration is the sorted list of it. The
position in the token slice is the list of tokens still to be read; `Parsed` carries
that a parser never gives back more than it was given, which is why the descent ends.
-/

namespace Anemoi

open Systems

/-- A value in the `vars` block: a budget or an alias of a model id. -/
inductive MatrixVar where
  | uint (n : UInt64)
  | string (s : String)
  deriving DecidableEq, Repr

/-- One named colocation set, by its expression. -/
structure ColocationSet where
  models : String
  deriving DecidableEq, Repr

structure LlamaSwapMatrixConfig where
  vars : Table String MatrixVar
  sets : List ColocationSet

/-! ### Tokens -/

inductive MatrixToken where
  | ident (id : String)
  | and
  | or
  | openParen
  | closeParen
  deriving DecidableEq, Repr

/-- The token that a character is by itself. -/
def MatrixToken.ofChar? : Char → Option MatrixToken
  | '&' => some .and
  | '|' => some .or
  | '(' => some .openParen
  | ')' => some .closeParen
  | _ => none

/-- The identifier read so far, as a token unless it is empty. -/
def takeIdent (ident : List Char) : List MatrixToken :=
  if ident.isEmpty then [] else [.ident (String.ofList ident)]

/-- The tokens of a text behind the characters `ident` of an identifier. -/
def tokenizeFrom (ident : List Char) : List Char → List MatrixToken
  | [] => takeIdent ident
  | ch :: rest =>
      match MatrixToken.ofChar? ch with
      | some token => takeIdent ident ++ token :: tokenizeFrom [] rest
      | none =>
          if isWhiteSpace ch then takeIdent ident ++ tokenizeFrom [] rest
          else tokenizeFrom (ident ++ [ch]) rest

def tokenizeColocationExpr (expr : String) : List MatrixToken :=
  tokenizeFrom [] expr.toList

/-! ### Loadouts -/

abbrev Loadout := Finset String

/-- Every union of a loadout of one side with one of the other. A side without loadouts
leaves the other as it is. -/
def crossUnion (lhs rhs : List Loadout) : List Loadout :=
  if lhs.isEmpty then rhs
  else if rhs.isEmpty then lhs
  else lhs.flatMap fun left => rhs.map fun right => left ∪ right

/-- The loadouts not in `seen`, each where it occurs first. -/
def dedupFrom (seen : Finset Loadout) : List Loadout → List Loadout
  | [] => []
  | loadout :: rest =>
      if loadout ∈ seen then dedupFrom seen rest
      else loadout :: dedupFrom (insert loadout seen) rest

def dedupLoadouts (loadouts : List Loadout) : List Loadout :=
  dedupFrom ∅ loadouts

/-! ### The recursive descent -/

/-- What a parser makes of a list of tokens: the loadouts and the tokens it leaves. -/
structure Parsed (tokens : List MatrixToken) where
  loadouts : List Loadout
  rest : List MatrixToken
  rest_le : rest.length ≤ tokens.length

namespace Parsed

/-- The result of a parser that went on from a shorter list. -/
def after {tokens tokens' : List MatrixToken} (p : Parsed tokens')
    (h : tokens'.length ≤ tokens.length) : Parsed tokens :=
  ⟨p.loadouts, p.rest, p.rest_le.trans h⟩

/-- A closing parenthesis in front of the rest is read too. -/
def skipClose {tokens : List MatrixToken} (p : Parsed tokens) : Parsed tokens :=
  match p with
  | ⟨loadouts, .closeParen :: rest, h⟩ => ⟨loadouts, rest, (Nat.le_succ _).trans h⟩
  | p => p

end Parsed

/-- The model that an identifier of an expression stands for: one alias step. -/
def resolve (vars : Table String String) (id : String) : String :=
  (vars.lookup id).getD id

section Descent

variable (vars : Table String String)

mutual

def parseOr (tokens : List MatrixToken) : Parsed tokens :=
  let first := parseAnd tokens
  (parseOrLoop first.loadouts first.rest).after first.rest_le
  termination_by (tokens.length, 4)
  decreasing_by
    · exact Prod.Lex.right _ (by decide)
    · exact Prod.Lex.right' _ first.rest_le (by decide)

/-- The loop of `parse_or`, with the loadouts read so far. -/
def parseOrLoop (loadouts : List Loadout) (tokens : List MatrixToken) : Parsed tokens :=
  match tokens with
  | .or :: rest =>
      let next := parseAnd rest
      (parseOrLoop (loadouts ++ next.loadouts) next.rest).after
        (next.rest_le.trans (Nat.le_succ _))
  | tokens => ⟨loadouts, tokens, Nat.le_refl _⟩
  termination_by (tokens.length, 3)
  decreasing_by
    · exact Prod.Lex.left _ _ (Nat.lt_succ_self _)
    · exact Prod.Lex.left _ _ (Nat.lt_succ_of_le next.rest_le)

def parseAnd (tokens : List MatrixToken) : Parsed tokens :=
  let first := parseFactor tokens
  (parseAndLoop first.loadouts first.rest).after first.rest_le
  termination_by (tokens.length, 2)
  decreasing_by
    · exact Prod.Lex.right _ (by decide)
    · exact Prod.Lex.right' _ first.rest_le (by decide)

/-- The loop of `parse_and`, with the loadouts read so far. -/
def parseAndLoop (loadouts : List Loadout) (tokens : List MatrixToken) : Parsed tokens :=
  match tokens with
  | .and :: rest =>
      let rhs := parseFactor rest
      (parseAndLoop (crossUnion loadouts rhs.loadouts) rhs.rest).after
        (rhs.rest_le.trans (Nat.le_succ _))
  | tokens => ⟨loadouts, tokens, Nat.le_refl _⟩
  termination_by (tokens.length, 1)
  decreasing_by
    · exact Prod.Lex.left _ _ (Nat.lt_succ_self _)
    · exact Prod.Lex.left _ _ (Nat.lt_succ_of_le rhs.rest_le)

def parseFactor (tokens : List MatrixToken) : Parsed tokens :=
  match tokens with
  | .ident id :: rest => ⟨[{resolve vars id}], rest, Nat.le_succ _⟩
  | .openParen :: rest => ((parseOr rest).skipClose).after (Nat.le_succ _)
  | tokens => ⟨[], tokens, Nat.le_refl _⟩
  termination_by (tokens.length, 0)
  decreasing_by exact Prod.Lex.left _ _ (Nat.lt_succ_self _)

end

end Descent

/-! ### Colocation -/

/-- The co-resident loadouts that the expression of a set implies. -/
def ColocationSet.loadoutsWithVars (set : ColocationSet) (vars : Table String String) :
    List Loadout :=
  dedupLoadouts (parseOr vars (tokenizeColocationExpr set.models)).loadouts

/-- The binding of a var, if it is an alias. -/
def aliasBinding : String × MatrixVar → Option (String × String)
  | (k, .string s) => some (k, s)
  | (_, .uint _) => none

namespace LlamaSwapMatrixConfig

/-- The vars that are aliases. -/
def stringVars (config : LlamaSwapMatrixConfig) : Table String String :=
  AList.ofList (config.vars.items.filterMap aliasBinding)

/-- The loadouts of all sets, in their order. -/
def loadouts (config : LlamaSwapMatrixConfig) : List Loadout :=
  config.sets.flatMap fun set => set.loadoutsWithVars config.stringVars

def canColocate (config : LlamaSwapMatrixConfig) (a b : ModelId) : Bool :=
  config.loadouts.any fun loadout => a.text ∈ loadout && b.text ∈ loadout

def colocationConstraints (config : LlamaSwapMatrixConfig) : ColocationConstraints :=
  ⟨config.loadouts.map fun loadout => (loadout.sort (· ≤ ·)).map ModelId.mk⟩

end LlamaSwapMatrixConfig

end Anemoi
