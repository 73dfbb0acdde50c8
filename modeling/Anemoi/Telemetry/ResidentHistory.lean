import Anemoi.Daemon.Effects
import Mathlib.Data.List.TakeDrop

/-!
# The resident history

The `resident_events` table of `SqliteEventStore` and its readers. A transition is stored as a row
of texts under an id that SQLite hands out (`AutoIncrement`), and every reader goes through one
query, which brings its limit into `1..500`. So the reader of the whole history of a model gives
its first 500 transitions (`residentEvents_eq`), which is all of them only up to that number.
-/

namespace Anemoi

/-! ### The table -/

/-- A transition as it is stored and read back. -/
structure ResidentEvent where
  modelId : String
  runtimeId : String
  fromState : String
  toState : String
  observedAt : String
  evidenceSource : String
  decisionId : Option String
  note : Option String
  deriving DecidableEq, Repr

structure ResidentRow where
  id : ℕ
  event : ResidentEvent
  deriving DecidableEq, Repr

/-- How SQLite numbers a new row of an `AUTOINCREMENT` table. -/
structure AutoIncrement where
  next : List ResidentRow → ℕ
  lt_next : ∀ {rows row}, row ∈ rows → row.id < next rows

/-- One more than the number of the last row. -/
def AutoIncrement.successive : AutoIncrement where
  next rows := (rows.map (·.id)).foldr max 0 + 1
  lt_next := by
    intro rows row h
    exact Nat.lt_succ_of_le (List.le_max_of_le' 0 (List.mem_map_of_mem h) le_rfl)

/-- The `resident_events` table; its rows stand in the order of their ids. -/
structure ResidentTable where
  rows : List ResidentRow
  id_lt : rows.Pairwise fun r s => r.id < s.id

/-- The `snake_case` names that `serde` gives the states. -/
def residencyStateStr : ResidencyState → String
  | .cold => "cold"
  | .loading => "loading"
  | .warmCpu => "warm_cpu"
  | .partial_ => "partial"
  | .hotGpu => "hot_gpu"
  | .serving => "serving"
  | .draining => "draining"
  | .evicting => "evicting"
  | .failed => "failed"

namespace ResidentTable

variable (ids : AutoIncrement) (toRfc3339 : DateTime → String)

def empty : ResidentTable := ⟨[], List.Pairwise.nil⟩

/-- The columns of a transition; how an instant is printed is a parameter. -/
def columns (record : ResidentTransitionRecord) : ResidentEvent where
  modelId := record.modelId
  runtimeId := record.runtimeId
  fromState := residencyStateStr record.fromState
  toState := residencyStateStr record.toState
  observedAt := toRfc3339 record.observedAt
  evidenceSource := record.evidenceSource
  decisionId := record.decisionId.map Uuid.toText
  note := record.note

def recordResidentEvent (table : ResidentTable) (record : ResidentTransitionRecord) :
    ResidentTable where
  rows := table.rows ++ [⟨ids.next table.rows, columns toRfc3339 record⟩]
  id_lt := by
    rw [List.pairwise_append]
    refine ⟨table.id_lt, List.pairwise_singleton _ _, ?_⟩
    intro row hrow new hnew
    rw [List.mem_singleton.mp hnew]
    exact ids.lt_next hrow

/-- The table after some transitions are recorded. -/
def recordAll (records : List ResidentTransitionRecord) : ResidentTable :=
  records.foldl (recordResidentEvent ids toRfc3339) empty

/-! ### The readers -/

/-- `limit.clamp(1, 500)`. -/
def normalizeLimit (limit : UInt64) : UInt64 :=
  if limit < 1 then 1 else if 500 < limit then 500 else limit

/-- `usize::MAX`. -/
def usizeMax : UInt64 := 0xFFFFFFFFFFFFFFFF

/-- `LIMIT`: the first rows, all of them if the number is negative. -/
def limitRows (limit : Int64) (rows : List ResidentRow) : List ResidentRow :=
  if limit < 0 then rows else rows.take limit.toInt.toNat

def residentEventsForQuery (table : ResidentTable) (modelId : Option String) (limit : UInt64)
    (newestFirst : Bool) : List ResidentEvent :=
  let limit := normalizeLimit limit
  let selected := table.rows.filter fun row => modelId.all fun m => row.event.modelId = m
  let ordered := selected.mergeSort fun r s => if newestFirst then s.id ≤ r.id else r.id ≤ s.id
  (limitRows limit.toInt64 ordered).map (·.event)

def residentEvents (table : ResidentTable) (modelId : String) : List ResidentEvent :=
  table.residentEventsForQuery (some modelId) usizeMax false

def listResidentEvents (table : ResidentTable) (modelId : Option String) (limit : UInt64) :
    List ResidentEvent :=
  table.residentEventsForQuery modelId limit true

/-! ### What they return -/

variable {ids toRfc3339} {records : List ResidentTransitionRecord} {table : ResidentTable}

/-- The rows are those of the transitions, in the order in which they were recorded. -/
theorem map_rows_recordAll :
    (recordAll ids toRfc3339 records).rows.map (·.event) = records.map (columns toRfc3339) := by
  induction records using List.reverseRecOn with
  | nil => rfl
  | append_singleton records record ih =>
      rw [recordAll, List.foldl_concat, ← recordAll, recordResidentEvent, List.map_append, ih,
        List.map_append]
      rfl

theorem toNat_normalizeLimit (limit : UInt64) :
    (normalizeLimit limit).toNat = max 1 (min limit.toNat 500) := by
  unfold normalizeLimit
  split
  · next h =>
      rw [UInt64.lt_iff_toNat_lt] at h
      simp at h ⊢
      omega
  · next h =>
      rw [UInt64.lt_iff_toNat_lt] at h
      split
      · next h' =>
          rw [UInt64.lt_iff_toNat_lt] at h'
          simp at h h' ⊢
          omega
      · next h' =>
          rw [UInt64.lt_iff_toNat_lt] at h'
          simp at h h' ⊢
          omega

/-- A limit in its range is no negative number. -/
theorem limitRows_normalizeLimit (limit : UInt64) (rows : List ResidentRow) :
    limitRows (normalizeLimit limit).toInt64 rows = rows.take (max 1 (min limit.toNat 500)) := by
  have hrange := toNat_normalizeLimit limit
  have hint : (normalizeLimit limit).toInt64.toInt = (normalizeLimit limit).toNat := by
    refine BitVec.toInt_eq_toNat_of_lt ?_
    change 2 * (normalizeLimit limit).toNat < 2 ^ 64
    omega
  have hnot : ¬(normalizeLimit limit).toInt64 < 0 := by
    rw [Int64.lt_iff_toInt_lt, hint]
    exact Int.not_lt.mpr (Int.natCast_nonneg _)
  rw [limitRows, if_neg hnot, hint, Int.toNat_natCast, hrange]

/-- Rows in the order of their ids are sorted, or are once they are turned around. -/
theorem mergeSort_rows {rows : List ResidentRow} (hrows : rows.Pairwise fun r s => r.id < s.id)
    (newestFirst : Bool) :
    rows.mergeSort (fun r s => if newestFirst then s.id ≤ r.id else r.id ≤ s.id) =
      if newestFirst then rows.reverse else rows := by
  cases newestFirst with
  | false => exact List.mergeSort_of_pairwise (hrows.imp fun h => by simpa using h.le)
  | true =>
      have hsorted : (rows.mergeSort fun r s => decide (s.id ≤ r.id)).Pairwise
          fun r s => decide (s.id ≤ r.id) = true := by
        refine List.pairwise_mergeSort (fun a b c hab hbc => ?_) (fun a b => ?_) rows
        · simp only [decide_eq_true_eq] at *
          omega
        · simp only [Bool.or_eq_true, decide_eq_true_eq]
          omega
      have hreverse : rows.reverse.Pairwise fun r s => decide (s.id ≤ r.id) = true :=
        List.pairwise_reverse.mpr (hrows.imp fun h => decide_eq_true h.le)
      have hperm := (List.mergeSort_perm rows fun r s => decide (s.id ≤ r.id)).trans
        (List.reverse_perm rows).symm
      have hnodup : (rows.map (·.id)).Nodup :=
        List.pairwise_map.mpr (hrows.imp fun h => h.ne)
      refine hperm.eq_of_pairwise ?_ hsorted hreverse
      intro r s hr hs hle hge
      refine List.inj_on_of_nodup_map hnodup (List.mem_mergeSort.mp hr) (List.mem_reverse.mp hs) ?_
      exact Nat.le_antisymm (of_decide_eq_true hge) (of_decide_eq_true hle)

/-- Every reader gives a page of the selected transitions, oldest or newest first. -/
theorem residentEventsForQuery_eq (modelId : Option String) (limit : UInt64)
    (newestFirst : Bool) :
    table.residentEventsForQuery modelId limit newestFirst =
      let selected := (table.rows.map (·.event)).filter fun event =>
        modelId.all fun m => event.modelId = m
      (if newestFirst then selected.reverse else selected).take
        (max 1 (min limit.toNat 500)) := by
  rw [residentEventsForQuery, mergeSort_rows (table.id_lt.filter _), limitRows_normalizeLimit,
    List.map_take, List.filter_map]
  cases newestFirst with
  | false => rfl
  | true => exact congrArg _ (List.map_reverse ..)

/-- The reader of the whole history stops after 500 transitions. -/
theorem residentEvents_recordAll (modelId : String) :
    (recordAll ids toRfc3339 records).residentEvents modelId =
      ((records.filter fun record => record.modelId = modelId).map (columns toRfc3339)).take
        500 := by
  rw [residentEvents, residentEventsForQuery_eq, map_rows_recordAll, List.filter_map]
  rfl

/-- The whole history of a model is returned exactly if it has at most 500 transitions. -/
theorem residentEvents_complete_iff (ids : AutoIncrement) (toRfc3339 : DateTime → String)
    (records : List ResidentTransitionRecord) (modelId : String) :
    (recordAll ids toRfc3339 records).residentEvents modelId =
        (records.filter fun record => record.modelId = modelId).map (columns toRfc3339) ↔
      (records.filter fun record => record.modelId = modelId).length ≤ 500 := by
  rw [residentEvents_recordAll, List.take_eq_self_iff, List.length_map]

/-- A model that is loaded. -/
def aLoad : ResidentTransitionRecord where
  modelId := "m"
  runtimeId := "r"
  fromState := .cold
  toState := .loading
  observedAt := ⟨0⟩
  evidenceSource := "reconciler"
  decisionId := none
  note := none

/-- Of 501 transitions of a model, one is missing from its history. -/
theorem residentEvents_incomplete :
    ¬∀ (ids : AutoIncrement) (toRfc3339 : DateTime → String)
      (records : List ResidentTransitionRecord) (modelId : String),
      (recordAll ids toRfc3339 records).residentEvents modelId =
        (records.filter fun record => record.modelId = modelId).map (columns toRfc3339) := by
  intro hall
  have hlength := congrArg List.length
    (hall .successive (fun _ => "") (List.replicate 501 aLoad) "m")
  have hfilter : (List.replicate 501 aLoad).filter (fun record => record.modelId = "m") =
      List.replicate 501 aLoad := List.filter_replicate_of_pos (by decide)
  rw [residentEvents_recordAll, hfilter, List.length_take, List.length_map,
    List.length_replicate] at hlength
  exact absurd hlength (by decide)

end ResidentTable

end Anemoi
