import Anemoi.Systems.Upsert
import Anemoi.Telemetry.DecisionLog

/-!
# Decisions in a table

The `decisions` table of `SqliteEventStore`: rows with a rowid, the text of the
decision's id as the primary key, and its JSON. `recordDecision` is an
`INSERT OR REPLACE`, `getDecision` selects by id and `listDecisions` selects all rows by
their rowids. Which rowid SQLite gives a new row is the parameter `RowidSource`; it is
above all rowids in the table.

`Holds` says that the rows spell a list of decisions, and recording a decision is
`moveToEnd` of that list.
-/

namespace Anemoi

open Systems

/-! ### The text of an id -/

theorem Uuid.toList_toText (u : Uuid) :
    u.toText.toList =
      let digits := hexDigits 32 u.bits.toNat
      digits.take 8 ++ '-' :: ((digits.drop 8).take 4 ++ '-' :: ((digits.drop 12).take 4 ++
        '-' :: ((digits.drop 16).take 4 ++ '-' :: (digits.drop 20).take 12))) := by
  simp [Uuid.toText, toString]

/-- The five groups of 32 digits make up the digits. -/
theorem uuidGroups_append {l : List Char} (hl : l.length = 32) :
    l.take 8 ++ ((l.drop 8).take 4 ++ ((l.drop 12).take 4 ++
      ((l.drop 16).take 4 ++ (l.drop 20).take 12))) = l := by
  have hpart : ∀ m n, (l.drop m).take n ++ l.drop (m + n) = l.drop m := by
    intro m n
    rw [← List.drop_drop, List.take_append_drop]
  have hlast : (l.drop 20).take 12 = l.drop 20 := List.take_of_length_le (by simp [hl])
  rw [hlast, hpart 16 4, hpart 12 4, hpart 8 4, List.take_append_drop]

theorem Uuid.toText_injective : Function.Injective Uuid.toText := by
  intro u v h
  have hlength : ∀ w : Uuid, (hexDigits 32 w.bits.toNat).length = 32 :=
    fun w => length_hexDigits (by decide) (by simpa using w.bits.isLt)
  have hu := hlength u
  have hv := hlength v
  have hlist := congrArg String.toList h
  rw [Uuid.toList_toText, Uuid.toList_toText] at hlist
  have hdigits : hexDigits 32 u.bits.toNat = hexDigits 32 v.bits.toNat := by
    -- the hyphens stand at the same places, so the groups agree one by one
    obtain ⟨h1, hlist⟩ := List.append_inj hlist (by simp [hu, hv])
    obtain ⟨h2, hlist⟩ := List.append_inj (List.cons.inj hlist).2 (by simp [hu, hv])
    obtain ⟨h3, hlist⟩ := List.append_inj (List.cons.inj hlist).2 (by simp [hu, hv])
    obtain ⟨h4, hlist⟩ := List.append_inj (List.cons.inj hlist).2 (by simp [hu, hv])
    have h5 := (List.cons.inj hlist).2
    rw [← uuidGroups_append hu, ← uuidGroups_append hv, h1, h2, h3, h4, h5]
  cases u
  cases v
  exact congrArg Uuid.mk (BitVec.eq_of_toNat_eq (hexDigits_injective 32 hdigits))

/-! ### The table -/

/-- A row of `decisions`; the column `recorded_at` is never read back. -/
structure DecisionRow where
  rowid : ℕ
  id : String
  decisionJson : List Char

/-- How SQLite numbers a new row. -/
structure RowidSource where
  next : List DecisionRow → ℕ
  lt_next : ∀ {rows row}, row ∈ rows → row.rowid < next rows

/-- One more than the largest rowid in the table. -/
def RowidSource.maxPlusOne : RowidSource where
  next rows := rows.foldr (fun row n => max (row.rowid + 1) n) 1
  lt_next := by
    intro rows row h
    induction rows with
    | nil => exact absurd h List.not_mem_nil
    | cons r rows ih =>
        rw [List.foldr_cons]
        rcases List.mem_cons.mp h with rfl | h
        · exact Nat.lt_of_lt_of_le (Nat.lt_succ_self _) (Nat.le_max_left _ _)
        · exact Nat.lt_of_lt_of_le (ih h) (Nat.le_max_right _ _)

/-- The `decisions` table, its rows as the table's tree holds them, by their rowids;
ids are a primary key. -/
structure SqliteEventStore where
  decisions : List DecisionRow
  id_nodup : (decisions.map (·.id)).Nodup
  rowid_lt : decisions.Pairwise fun r s => r.rowid < s.rowid

namespace SqliteEventStore

variable (codec : DecisionCodec) (rowids : RowidSource)

/-- The tables as `init_tables` creates them. -/
def empty : SqliteEventStore := ⟨[], List.nodup_nil, List.Pairwise.nil⟩

/-- `INSERT OR REPLACE`: the row with the same id goes, the new one comes in with a new
rowid. -/
def insertOrReplace (store : SqliteEventStore) (id : String) (decisionJson : List Char) :
    SqliteEventStore where
  decisions := moveToEnd (·.id) store.decisions ⟨rowids.next store.decisions, id, decisionJson⟩
  id_nodup := by
    rw [moveToEnd, List.map_append, List.nodup_append]
    refine ⟨store.id_nodup.sublist (List.filter_sublist.map _), List.nodup_singleton _, ?_⟩
    intro a ha b hb
    obtain ⟨row, hrow, rfl⟩ := List.mem_map.mp ha
    rw [List.mem_singleton.mp hb]
    exact of_decide_eq_true (List.mem_filter.mp hrow).2
  rowid_lt := by
    rw [moveToEnd, List.pairwise_append]
    refine ⟨store.rowid_lt.filter _, List.pairwise_singleton _ _, ?_⟩
    intro row hrow new hnew
    rw [List.mem_singleton.mp hnew]
    exact rowids.lt_next (List.mem_filter.mp hrow).1

def recordDecision (store : SqliteEventStore) (decision : Decision) : SqliteEventStore :=
  store.insertOrReplace rowids decision.id.toText (codec.write decision)

/-- `serde_json::from_str`. -/
def fromStr (json : List Char) : Except TelemetryError Decision :=
  (codec.read json).elim (.error .serde) .ok

def readDecision (store : SqliteEventStore) (id : Uuid) :
    Except TelemetryError (Option Decision) :=
  match store.decisions.find? fun row => row.id = id.toText with
  | none => .ok none
  | some row => (fromStr codec row.decisionJson).map some

def getDecision (store : SqliteEventStore) (id : Uuid) :
    Except TelemetryError (Option Decision) :=
  store.readDecision codec id

/-- `SELECT … ORDER BY rowid`, then each row's JSON. -/
def listDecisions (store : SqliteEventStore) : Except TelemetryError (List Decision) :=
  (store.decisions.mergeSort fun r s => r.rowid ≤ s.rowid).mapM
    fun row => fromStr codec row.decisionJson

/-! ### The decisions the rows spell -/

/-- The row is that of the decision. -/
def Spells (row : DecisionRow) (d : Decision) : Prop :=
  row.id = d.id.toText ∧ codec.read row.decisionJson = some d

/-- The rows are those of the decisions, in their order. -/
def Holds (store : SqliteEventStore) (l : List Decision) : Prop :=
  List.Forall₂ (Spells codec) store.decisions l

variable {codec rowids} {store : SqliteEventStore} {l : List Decision}

theorem holds_empty : empty.Holds codec [] := List.Forall₂.nil

/-- Recording a decision moves it to the end. -/
theorem Holds.recordDecision (h : store.Holds codec l) {d : Decision}
    (hd : codec.read (codec.write d) = some d) :
    (store.recordDecision codec rowids d).Holds codec (moveToEnd Decision.id l d) := by
  refine List.rel_append ?_ (List.Forall₂.cons ⟨rfl, hd⟩ List.Forall₂.nil)
  refine List.rel_filter ?_ h
  intro row e hspells
  have hid : row.id = d.id.toText ↔ e.id = d.id := by
    rw [hspells.1]
    exact Uuid.toText_injective.eq_iff
  simpa using not_congr hid

theorem Holds.getDecision (h : store.Holds codec l) (id : Uuid) :
    store.getDecision codec id = .ok (l.find? fun d => d.id = id) := by
  obtain ⟨rows, hnodup, hlt⟩ := store
  unfold SqliteEventStore.getDecision readDecision
  have hrows : List.Forall₂ (Spells codec) rows l := h
  dsimp only
  clear h hnodup hlt
  induction hrows with
  | nil => rfl
  | @cons row d rows l hspells _ ih =>
      by_cases hid : d.id = id
      · have hrow : row.id = id.toText := by rw [hspells.1, hid]
        rw [List.find?_cons_of_pos (by simpa using hrow),
          List.find?_cons_of_pos (by simpa using hid)]
        simp only [fromStr, hspells.2, Option.elim_some]
        rfl
      · have hrow : row.id ≠ id.toText := by
          rw [hspells.1]
          exact Uuid.toText_injective.ne hid
        rw [List.find?_cons_of_neg (by simpa using hrow),
          List.find?_cons_of_neg (by simpa using hid)]
        exact ih

theorem mergeSort_decisions (store : SqliteEventStore) :
    store.decisions.mergeSort (fun r s => r.rowid ≤ s.rowid) = store.decisions :=
  List.mergeSort_of_pairwise (store.rowid_lt.imp fun h => decide_eq_true h.le)

theorem Holds.listDecisions (h : store.Holds codec l) :
    store.listDecisions codec = .ok l := by
  rw [SqliteEventStore.listDecisions, mergeSort_decisions]
  have hrows : List.Forall₂ (Spells codec) store.decisions l := h
  generalize store.decisions = rows at hrows
  clear h
  induction hrows with
  | nil => rfl
  | @cons row d rows l hspells _ ih =>
      rw [List.mapM_cons, fromStr, hspells.2, ih]
      rfl

end SqliteEventStore

end Anemoi
