import Anemoi.Runtime.MatrixLanguage

/-!
# The descent by positions

The source keeps one position into the slice of tokens, which its three parsers and their loops
move. Here they are as such, on fuel, with a record of what their results do not show: the calls
of `parse_or`, each with the starts of the calls it is made in, and the turns of the loops. A
parser at `pos` has `tokens.length - pos` tokens ahead, and three times that is enough fuel for
it: an operator or a parenthesis is consumed in front of every turn and every nested call. What
comes out is what the parsers on the remaining tokens give.
-/

namespace Anemoi

open Systems

inductive DescentEvent where
  /-- A call of `parse_or` at `start`, inside those that started at `active`. -/
  | parseOr (active : List ℕ) (start : ℕ)
  /-- One iteration of a loop. -/
  | turn (before after : ℕ)
  deriving DecidableEq, Repr

/-- A nested call starts behind the calls it is in, and an iteration moves on. -/
def DescentEvent.Advances : DescentEvent → Prop
  | parseOr active start => ∀ p ∈ active, p < start
  | turn before after => before < after

structure Descended where
  loadouts : List Loadout
  pos : ℕ
  events : List DescentEvent
  deriving DecidableEq

/-- The result of what ran last, behind the events before it. -/
def Descended.behind (last : Descended) (events : List DescentEvent) : Descended :=
  { last with events := events ++ last.events }

section Positions

variable (vars : Table String String) (tokens : List MatrixToken)

mutual

def parseOrAt (fuel : ℕ) (active : List ℕ) (pos : ℕ) : Option Descended :=
  match fuel with
  | 0 => none
  | fuel + 1 => do
      let first ← parseAndAt fuel (pos :: active) pos
      let last ← parseOrLoopAt fuel (pos :: active) first.loadouts first.pos
      return last.behind (.parseOr active pos :: first.events)
  termination_by structural fuel

def parseOrLoopAt (fuel : ℕ) (active : List ℕ) (loadouts : List Loadout) (pos : ℕ) :
    Option Descended :=
  match fuel with
  | 0 => none
  | fuel + 1 =>
      match tokens[pos]? with
      | some .or => do
          let next ← parseAndAt fuel active (pos + 1)
          let last ← parseOrLoopAt fuel active (loadouts ++ next.loadouts) next.pos
          return last.behind (.turn pos next.pos :: next.events)
      | _ => some ⟨loadouts, pos, []⟩
  termination_by structural fuel

def parseAndAt (fuel : ℕ) (active : List ℕ) (pos : ℕ) : Option Descended :=
  match fuel with
  | 0 => none
  | fuel + 1 => do
      let first ← parseFactorAt fuel active pos
      let last ← parseAndLoopAt fuel active first.loadouts first.pos
      return last.behind first.events
  termination_by structural fuel

def parseAndLoopAt (fuel : ℕ) (active : List ℕ) (loadouts : List Loadout) (pos : ℕ) :
    Option Descended :=
  match fuel with
  | 0 => none
  | fuel + 1 =>
      match tokens[pos]? with
      | some .and => do
          let rhs ← parseFactorAt fuel active (pos + 1)
          let last ← parseAndLoopAt fuel active (crossUnion loadouts rhs.loadouts) rhs.pos
          return last.behind (.turn pos rhs.pos :: rhs.events)
      | _ => some ⟨loadouts, pos, []⟩
  termination_by structural fuel

def parseFactorAt (fuel : ℕ) (active : List ℕ) (pos : ℕ) : Option Descended :=
  match fuel with
  | 0 => none
  | fuel + 1 =>
      match tokens[pos]? with
      | some (.ident id) => some ⟨[{resolve vars id}], pos + 1, []⟩
      | some .openParen => do
          let inner ← parseOrAt fuel active (pos + 1)
          if tokens[inner.pos]? = some .closeParen then
            return { inner with pos := inner.pos + 1 }
          return inner
      | _ => some ⟨[], pos, []⟩
  termination_by structural fuel

end

/-! ### Enough fuel -/

/-- From `fuel` on, the run returns `parsed`, at a position between `pos` and the end of the
tokens, and all it did on the way advances. -/
def Returns (run : ℕ → Option Descended) (fuel pos : ℕ)
    (parsed : List Loadout × List MatrixToken) : Prop :=
  ∃ d, (∀ n, fuel ≤ n → run n = some d) ∧ pos ≤ d.pos ∧ d.pos ≤ tokens.length ∧
    (d.loadouts, tokens.drop d.pos) = parsed ∧ ∀ e ∈ d.events, e.Advances

variable {tokens} {run first : ℕ → Option Descended} {fuel pos start : ℕ}
  {parsed parsed' : List Loadout × List MatrixToken}

/-- A run that ends at once. -/
theorem Returns.of_eq {d : Descended} (hrun : ∀ n, run (n + 1) = some d) (hpos : pos ≤ d.pos)
    (hlen : d.pos ≤ tokens.length) (hparsed : (d.loadouts, tokens.drop d.pos) = parsed)
    (hevents : d.events = []) : Returns tokens run (fuel + 1) pos parsed := by
  refine ⟨d, ?_, hpos, hlen, hparsed, by simp [hevents]⟩
  intro n hn
  obtain ⟨m, rfl⟩ := Nat.exists_eq_add_of_le' hn
  exact hrun (m + fuel)

/-- A run that goes on where its first part ended. -/
theorem Returns.seq (hfirst : Returns tokens first fuel start parsed) (hpos : pos ≤ start)
    (next : Descended → ℕ → Option Descended) (extra : Descended → List DescentEvent)
    (hnext : ∀ a : Descended, start ≤ a.pos → a.pos ≤ tokens.length →
      (a.loadouts, tokens.drop a.pos) = parsed → Returns tokens (next a) fuel a.pos parsed')
    (hextra : ∀ a : Descended, start ≤ a.pos → ∀ e ∈ extra a, e.Advances)
    (hrun : ∀ n, run (n + 1) = (first n).bind fun a =>
      (next a n).bind fun b => some (b.behind (extra a ++ a.events))) :
    Returns tokens run (fuel + 1) pos parsed' := by
  obtain ⟨a, ha, hstart, halen, haparsed, haevents⟩ := hfirst
  obtain ⟨b, hb, hab, hblen, hbparsed, hbevents⟩ := hnext a hstart halen haparsed
  refine ⟨b.behind (extra a ++ a.events), ?_, hpos.trans (hstart.trans hab), hblen, hbparsed, ?_⟩
  · intro n hn
    obtain ⟨m, rfl⟩ := Nat.exists_eq_add_of_le' hn
    rw [← Nat.add_assoc, hrun, ha _ (Nat.le_add_left _ _), Option.bind_some,
      hb _ (Nat.le_add_left _ _), Option.bind_some]
  · intro e he
    rcases List.mem_append.mp he with he | he
    · rcases List.mem_append.mp he with he | he
      · exact hextra a hstart e he
      · exact haevents e he
    · exact hbevents e he

/-! ### The parsers and their loops -/

theorem drop_eq_cons {token : MatrixToken} (h : tokens[pos]? = some token) :
    tokens.drop pos = token :: tokens.drop (pos + 1) := by
  obtain ⟨hlt, rfl⟩ := List.getElem?_eq_some_iff.mp h
  exact List.drop_eq_getElem_cons hlt

theorem head?_drop_ne {token : MatrixToken} (h : tokens[pos]? ≠ some token) :
    (tokens.drop pos).head? ≠ some token := by
  rwa [List.head?_drop]

theorem lt_of_getElem? {token : MatrixToken} (h : tokens[pos]? = some token) :
    pos < tokens.length :=
  (List.getElem?_eq_some_iff.mp h).1

variable (tokens) in
/-- With this much fuel, every parser returns from every position that the fuel is enough for,
and so does every loop. -/
structure Descends (fuel : ℕ) : Prop where
  or : ∀ active pos, pos ≤ tokens.length → 3 * (tokens.length - pos) + 3 ≤ fuel →
    (∀ p ∈ active, p < pos) →
    Returns tokens (fun n => parseOrAt vars tokens n active pos) fuel pos
      (parseOr vars (tokens.drop pos)).result
  orLoop : ∀ active loadouts pos, pos ≤ tokens.length →
    3 * (tokens.length - pos) + 1 ≤ fuel → (∀ p ∈ active, p ≤ pos) →
    Returns tokens (fun n => parseOrLoopAt vars tokens n active loadouts pos) fuel pos
      (parseOrLoop vars loadouts (tokens.drop pos)).result
  and : ∀ active pos, pos ≤ tokens.length → 3 * (tokens.length - pos) + 2 ≤ fuel →
    (∀ p ∈ active, p ≤ pos) →
    Returns tokens (fun n => parseAndAt vars tokens n active pos) fuel pos
      (parseAnd vars (tokens.drop pos)).result
  andLoop : ∀ active loadouts pos, pos ≤ tokens.length →
    3 * (tokens.length - pos) + 1 ≤ fuel → (∀ p ∈ active, p ≤ pos) →
    Returns tokens (fun n => parseAndLoopAt vars tokens n active loadouts pos) fuel pos
      (parseAndLoop vars loadouts (tokens.drop pos)).result
  factor : ∀ active pos, pos ≤ tokens.length → 3 * (tokens.length - pos) + 1 ≤ fuel →
    (∀ p ∈ active, p ≤ pos) →
    Returns tokens (fun n => parseFactorAt vars tokens n active pos) fuel pos
      (parseFactor vars (tokens.drop pos)).result

namespace Descends

variable {vars} {active : List ℕ} {loadouts : List Loadout}

theorem parseOr_succ (ih : Descends vars tokens fuel) (hpos : pos ≤ tokens.length)
    (hfuel : 3 * (tokens.length - pos) + 3 ≤ fuel + 1) (hactive : ∀ p ∈ active, p < pos) :
    Returns tokens (fun n => parseOrAt vars tokens n active pos) (fuel + 1) pos
      (parseOr vars (tokens.drop pos)).result := by
  have hinner : ∀ p ∈ pos :: active, p ≤ pos :=
    List.forall_mem_cons.mpr ⟨le_rfl, fun p hp => (hactive p hp).le⟩
  refine (ih.and (pos :: active) pos hpos (by omega) hinner).seq le_rfl
    (fun a n => parseOrLoopAt vars tokens n (pos :: active) a.loadouts a.pos)
    (fun _ => [.parseOr active pos]) ?_ ?_ ?_
  · intro a hstart halen ha
    rw [result_parseOr, ← ha]
    exact ih.orLoop _ _ _ halen (by omega) fun p hp => (hinner p hp).trans hstart
  · intro a hstart e he
    rw [List.mem_singleton.mp he]
    exact hactive
  · intro n
    rw [parseOrAt]
    rfl

theorem parseOrLoop_succ (ih : Descends vars tokens fuel) (hpos : pos ≤ tokens.length)
    (hfuel : 3 * (tokens.length - pos) + 1 ≤ fuel + 1) (hactive : ∀ p ∈ active, p ≤ pos) :
    Returns tokens (fun n => parseOrLoopAt vars tokens n active loadouts pos) (fuel + 1) pos
      (parseOrLoop vars loadouts (tokens.drop pos)).result := by
  by_cases htoken : tokens[pos]? = some .or
  · have hlt := lt_of_getElem? htoken
    rw [drop_eq_cons htoken, result_parseOrLoop_or]
    refine (ih.and active (pos + 1) hlt (by omega)
      fun p hp => (hactive p hp).trans (Nat.le_succ pos)).seq (Nat.le_succ pos)
      (fun a n => parseOrLoopAt vars tokens n active (loadouts ++ a.loadouts) a.pos)
      (fun a => [.turn pos a.pos]) ?_ ?_ ?_
    · intro a hstart halen ha
      rw [← ha]
      exact ih.orLoop _ _ _ halen (by omega) fun p hp => (hactive p hp).trans (by omega)
    · intro a hstart e he
      rw [List.mem_singleton.mp he]
      exact hstart
    · intro n
      rw [parseOrLoopAt, htoken]
      rfl
  · rw [result_parseOrLoop_end vars _ (head?_drop_ne htoken)]
    refine .of_eq (d := ⟨loadouts, pos, []⟩) ?_ le_rfl hpos rfl rfl
    intro n
    rw [parseOrLoopAt]
    split
    · next h => exact absurd h htoken
    · rfl

theorem parseAnd_succ (ih : Descends vars tokens fuel) (hpos : pos ≤ tokens.length)
    (hfuel : 3 * (tokens.length - pos) + 2 ≤ fuel + 1) (hactive : ∀ p ∈ active, p ≤ pos) :
    Returns tokens (fun n => parseAndAt vars tokens n active pos) (fuel + 1) pos
      (parseAnd vars (tokens.drop pos)).result := by
  refine (ih.factor active pos hpos (by omega) hactive).seq le_rfl
    (fun a n => parseAndLoopAt vars tokens n active a.loadouts a.pos) (fun _ => []) ?_ ?_ ?_
  · intro a hstart halen ha
    rw [result_parseAnd, ← ha]
    exact ih.andLoop _ _ _ halen (by omega) fun p hp => (hactive p hp).trans hstart
  · intro a hstart e he
    exact absurd he List.not_mem_nil
  · intro n
    rw [parseAndAt]
    rfl

theorem parseAndLoop_succ (ih : Descends vars tokens fuel) (hpos : pos ≤ tokens.length)
    (hfuel : 3 * (tokens.length - pos) + 1 ≤ fuel + 1) (hactive : ∀ p ∈ active, p ≤ pos) :
    Returns tokens (fun n => parseAndLoopAt vars tokens n active loadouts pos) (fuel + 1) pos
      (parseAndLoop vars loadouts (tokens.drop pos)).result := by
  by_cases htoken : tokens[pos]? = some .and
  · have hlt := lt_of_getElem? htoken
    rw [drop_eq_cons htoken, result_parseAndLoop_and]
    refine (ih.factor active (pos + 1) hlt (by omega)
      fun p hp => (hactive p hp).trans (Nat.le_succ pos)).seq (Nat.le_succ pos)
      (fun a n => parseAndLoopAt vars tokens n active (crossUnion loadouts a.loadouts) a.pos)
      (fun a => [.turn pos a.pos]) ?_ ?_ ?_
    · intro a hstart halen ha
      rw [← ha]
      exact ih.andLoop _ _ _ halen (by omega) fun p hp => (hactive p hp).trans (by omega)
    · intro a hstart e he
      rw [List.mem_singleton.mp he]
      exact hstart
    · intro n
      rw [parseAndLoopAt, htoken]
      rfl
  · rw [result_parseAndLoop_end vars _ (head?_drop_ne htoken)]
    refine .of_eq (d := ⟨loadouts, pos, []⟩) ?_ le_rfl hpos rfl rfl
    intro n
    rw [parseAndLoopAt]
    split
    · next h => exact absurd h htoken
    · rfl

/-- The parenthesis is consumed in front of the nested call, which so starts behind all that it
is in. -/
theorem parseFactor_open (ih : Descends vars tokens fuel) (htoken : tokens[pos]? = some .openParen)
    (hfuel : 3 * (tokens.length - pos) + 1 ≤ fuel + 1) (hactive : ∀ p ∈ active, p ≤ pos) :
    Returns tokens (fun n => parseFactorAt vars tokens n active pos) (fuel + 1) pos
      (parseFactor vars (tokens.drop pos)).result := by
  have hlt := lt_of_getElem? htoken
  obtain ⟨inner, hrun, hstart, hlen, hparsed, hevents⟩ := ih.or active (pos + 1) hlt (by omega)
    fun p hp => Nat.lt_succ_of_le (hactive p hp)
  have hfactor : ∀ n, fuel ≤ n → parseFactorAt vars tokens (n + 1) active pos =
      some (if tokens[inner.pos]? = some .closeParen then { inner with pos := inner.pos + 1 }
        else inner) := by
    intro n hn
    rw [parseFactorAt, htoken]
    have hor : parseOrAt vars tokens n active (pos + 1) = some inner := hrun n hn
    dsimp only
    rw [hor]
    dsimp only [Option.bind_eq_bind, Option.bind_some]
    split <;> rfl
  rw [drop_eq_cons htoken, result_parseFactor_open, ← hparsed]
  by_cases hclose : tokens[inner.pos]? = some .closeParen
  · refine ⟨{ inner with pos := inner.pos + 1 }, ?_, by dsimp only; omega,
      lt_of_getElem? hclose, ?_, hevents⟩
    · intro n hn
      obtain ⟨m, rfl⟩ := Nat.exists_eq_add_of_le' hn
      exact (hfactor (m + fuel) (Nat.le_add_left _ _)).trans (by rw [if_pos hclose])
    · dsimp only
      rw [drop_eq_cons hclose]
      rfl
  · refine ⟨inner, ?_, by omega, hlen, ?_, hevents⟩
    · intro n hn
      obtain ⟨m, rfl⟩ := Nat.exists_eq_add_of_le' hn
      exact (hfactor (m + fuel) (Nat.le_add_left _ _)).trans (by rw [if_neg hclose])
    · dsimp only
      rw [dropClose_of_head? (head?_drop_ne hclose)]

theorem parseFactor_succ (ih : Descends vars tokens fuel) (hpos : pos ≤ tokens.length)
    (hfuel : 3 * (tokens.length - pos) + 1 ≤ fuel + 1) (hactive : ∀ p ∈ active, p ≤ pos) :
    Returns tokens (fun n => parseFactorAt vars tokens n active pos) (fuel + 1) pos
      (parseFactor vars (tokens.drop pos)).result := by
  by_cases hopen : tokens[pos]? = some .openParen
  · exact parseFactor_open ih hopen hfuel hactive
  by_cases hident : ∃ id, tokens[pos]? = some (.ident id)
  · obtain ⟨id, hid⟩ := hident
    rw [drop_eq_cons hid, result_parseFactor_ident]
    refine .of_eq (d := ⟨[{resolve vars id}], pos + 1, []⟩) ?_ (Nat.le_succ _)
      (lt_of_getElem? hid) rfl rfl
    intro n
    rw [parseFactorAt, hid]
  · rw [not_exists] at hident
    rw [result_parseFactor_none vars (fun id => head?_drop_ne (hident id)) (head?_drop_ne hopen)]
    refine .of_eq (d := ⟨[], pos, []⟩) ?_ le_rfl hpos rfl rfl
    intro n
    rw [parseFactorAt]
    split
    · next id h => exact absurd h (hident id)
    · next h => exact absurd h hopen
    · rfl

end Descends

theorem descends (fuel : ℕ) : Descends vars tokens fuel := by
  induction fuel with
  | zero => constructor <;> intros <;> omega
  | succ fuel ih =>
      exact ⟨fun _ _ hpos hfuel hactive => ih.parseOr_succ hpos hfuel hactive,
        fun _ _ _ hpos hfuel hactive => ih.parseOrLoop_succ hpos hfuel hactive,
        fun _ _ hpos hfuel hactive => ih.parseAnd_succ hpos hfuel hactive,
        fun _ _ _ hpos hfuel hactive => ih.parseAndLoop_succ hpos hfuel hactive,
        fun _ _ hpos hfuel hactive => ih.parseFactor_succ hpos hfuel hactive⟩

/-- Whatever the tokens are and wherever they start, the three parsers return, and they give what
the parsers on the remaining tokens give. On the way no loop stands still, and every call of
`parse_or` starts behind those that it is made in. -/
theorem descent_returns (hpos : pos ≤ tokens.length) :
    Returns tokens (fun n => parseOrAt vars tokens n [] pos) (3 * (tokens.length - pos) + 3) pos
        (parseOr vars (tokens.drop pos)).result ∧
      Returns tokens (fun n => parseAndAt vars tokens n [] pos) (3 * (tokens.length - pos) + 2)
        pos (parseAnd vars (tokens.drop pos)).result ∧
      Returns tokens (fun n => parseFactorAt vars tokens n [] pos)
        (3 * (tokens.length - pos) + 1) pos (parseFactor vars (tokens.drop pos)).result :=
  ⟨(descends vars _).or [] pos hpos le_rfl (by simp),
    (descends vars _).and [] pos hpos le_rfl (by simp),
    (descends vars _).factor [] pos hpos le_rfl (by simp)⟩

end Positions

/-- A group that holds nothing, an operator without a left side, and a stray parenthesis. -/
def brokenTokens : List MatrixToken :=
  [.openParen, .and, .openParen, .or, .ident "a", .closeParen, .closeParen, .closeParen]

theorem descent_returns_brokenTokens :
    ∃ d, parseOrAt ∅ brokenTokens 27 [] 0 = some d ∧ d.pos = 7 ∧
      .parseOr [1, 0] 3 ∈ d.events ∧ .turn 3 5 ∈ d.events := by
  have hpos : 0 ≤ brokenTokens.length := by decide
  obtain ⟨⟨d, hd, -⟩, -⟩ := descent_returns ∅ hpos
  have hrun := hd 27 le_rfl
  have heval : parseOrAt ∅ brokenTokens 27 [] 0 =
      some ⟨[{"a"}], 7, [.parseOr [] 0, .parseOr [0] 1, .turn 1 6, .parseOr [1, 0] 3,
        .turn 3 5]⟩ := by
    rfl
  refine ⟨d, hrun, ?_⟩
  rw [Option.some.inj (hrun.symm.trans heval)]
  decide

end Anemoi
