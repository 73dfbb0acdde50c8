import Anemoi.Telemetry.Durability
import Anemoi.Telemetry.Sqlite

/-!
# Do the three logs agree?

Each log answers `get_decision` and `list_decisions`; `DecisionReader` is these two
answers. After the same calls of `record_decision` the in-memory log and the JSONL log,
live or opened again, hold the list that `replaceKeyed` makes of the decisions, and the
SQLite store the list that `moveToEnd` makes. They find the same decision for every id
and list the same decisions, but a decision recorded again stays in its place in the
one list and moves to the end of the other. `logsAgree_iff` says for which sequences
that cannot be seen.
-/

namespace Anemoi

open Systems

/-- What a log answers to `get_decision` and `list_decisions`. -/
structure DecisionReader where
  getDecision : Uuid → Except TelemetryError (Option Decision)
  listDecisions : Except TelemetryError (List Decision)

/-- The answers of a log that holds the list `l`. -/
def DecisionReader.ofList (l : List Decision) : DecisionReader :=
  ⟨fun id => .ok (l.find? fun d => d.id = id), .ok l⟩

theorem DecisionReader.ofList_injective : Function.Injective DecisionReader.ofList :=
  fun _ _ h => Except.ok.inj (congrArg DecisionReader.listDecisions h)

/-! ### The in-memory log -/

namespace InMemoryDecisionLog

def reader (log : InMemoryDecisionLog) : DecisionReader :=
  ⟨fun id => .ok (log.getDecision id), .ok log.listDecisions⟩

theorem getDecision_eq_find? (log : InMemoryDecisionLog) (id : Uuid) :
    log.getDecision id = log.listDecisions.find? fun d => d.id = id := by
  cases h : log.listDecisions.find? (fun d => d.id = id) with
  | some d =>
      have hid : d.id = id := by simpa using List.find?_some h
      rw [← hid]
      exact mem_listDecisions.mp (List.mem_of_find?_eq_some h)
  | none =>
      by_contra hne
      obtain ⟨d, hd⟩ := Option.ne_none_iff_exists'.mp hne
      have hid : d.id = id := log.id_eq hd
      have hmem : d ∈ log.listDecisions := mem_listDecisions.mpr (hid ▸ hd)
      exact List.find?_eq_none.mp h d hmem (by simpa using hid)

theorem reader_eq (log : InMemoryDecisionLog) :
    log.reader = .ofList log.listDecisions := by
  simp only [reader, DecisionReader.ofList, getDecision_eq_find?]

theorem mem_map_listDecisions {log : InMemoryDecisionLog} {id : Uuid} :
    id ∈ log.listDecisions.map Decision.id ↔ id ∈ log.decisions := by
  rw [List.mem_map, ← AList.lookup_isSome]
  constructor
  · rintro ⟨d, hd, rfl⟩
    exact Option.isSome_iff_exists.mpr ⟨d, mem_listDecisions.mp hd⟩
  · intro h
    obtain ⟨d, hd⟩ := Option.isSome_iff_exists.mp h
    have hid : d.id = id := log.id_eq hd
    exact ⟨d, mem_listDecisions.mpr (hid ▸ hd), hid⟩

/-- A decision takes the place of the one with its id, or comes last. -/
theorem listDecisions_insertSync (log : InMemoryDecisionLog) (d : Decision) :
    (log.insertSync d).listDecisions = replaceKeyed Decision.id log.listDecisions d := by
  have hlookup : ∀ id, (log.insertSync d).decisions.lookup id =
      if id = d.id then some d else log.decisions.lookup id :=
    fun id => log.getDecision_insertSync d id
  have hlist : (log.insertSync d).listDecisions =
      (log.pushOrder d.id).filterMap fun id => (log.insertSync d).decisions.lookup id := rfl
  rw [hlist, replaceKeyed, pushOrder]
  by_cases h : d.id ∈ log.decisions
  · rw [if_pos h, if_pos (mem_map_listDecisions.mpr h), listDecisions, List.map_filterMap]
    refine List.filterMap_congr fun id hid => ?_
    obtain ⟨e, he⟩ := AList.mem_iff_lookup.mp (log.mem_order.mp hid)
    rw [hlookup, he, Option.map_some, log.id_eq he]
    split <;> rfl
  · rw [if_neg h, if_neg fun hmem => h (mem_map_listDecisions.mp hmem), List.filterMap_append,
      listDecisions]
    congr 1
    · refine List.filterMap_congr fun id hid => ?_
      have hne : id ≠ d.id := fun he => h (he ▸ log.mem_order.mp hid)
      rw [hlookup, if_neg hne]
    · rw [List.filterMap_cons, hlookup, if_pos rfl]
      rfl

/-- The log after a sequence of calls. -/
def recordAll (ds : List Decision) : InMemoryDecisionLog :=
  ds.foldl recordDecision .empty

theorem listDecisions_foldl (ds : List Decision) (log : InMemoryDecisionLog) :
    (ds.foldl insertSync log).listDecisions =
      ds.foldl (replaceKeyed Decision.id) log.listDecisions := by
  induction ds generalizing log with
  | nil => rfl
  | cons d ds ih => rw [List.foldl_cons, List.foldl_cons, ih, listDecisions_insertSync]

theorem reader_recordAll (ds : List Decision) :
    (recordAll ds).reader = .ofList (ds.foldl (replaceKeyed Decision.id) []) := by
  rw [reader_eq]
  exact congrArg DecisionReader.ofList (listDecisions_foldl ds .empty)

end InMemoryDecisionLog

/-! ### The JSONL log -/

namespace JsonlDecisionLog

variable (codec : DecisionCodec)

def reader (log : JsonlDecisionLog) : DecisionReader :=
  ⟨fun id => .ok (log.getDecision id), .ok log.listDecisions⟩

/-- The log and its file after one more call. -/
def recordNext (s : JsonlDecisionLog × Option ByteArray) (d : Decision) :
    JsonlDecisionLog × Option ByteArray :=
  let (log, file) := s.1.recordDecision codec s.2 d
  (log, some file)

/-- The log and its file after a sequence of calls, from no file on. -/
def recordAll (ds : List Decision) : JsonlDecisionLog × Option ByteArray :=
  ds.foldl (recordNext codec) (⟨.empty⟩, none)

theorem foldl_recordNext (ds : List Decision) (s : JsonlDecisionLog × Option ByteArray) :
    (ds.foldl (recordNext codec) s).1.memory =
        ds.foldl InMemoryDecisionLog.insertSync s.1.memory ∧
      (ds.foldl (recordNext codec) s).2.getD .empty =
        s.2.getD .empty ++ encode (ds.flatMap (appended codec)) := by
  induction ds generalizing s with
  | nil =>
      refine ⟨rfl, ?_⟩
      rw [List.flatMap_nil, encode_nil, ByteArray.append_empty]
      rfl
  | cons d ds ih =>
      obtain ⟨hmemory, hfile⟩ := ih (recordNext codec s d)
      have hnext : (recordNext codec s d).2.getD .empty =
          s.2.getD .empty ++ encode (appended codec d) := rfl
      refine ⟨hmemory, hfile.trans ?_⟩
      rw [hnext, List.flatMap_cons, encode_append, ← ByteArray.append_assoc]

theorem memory_recordAll (ds : List Decision) :
    (recordAll codec ds).1.memory = InMemoryDecisionLog.recordAll ds :=
  (foldl_recordNext codec ds (⟨.empty⟩, none)).1

/-- Opening the file again gives the log that was closed. -/
theorem new_recordAll {ds : List Decision} (h : ∀ d ∈ ds, codec.WritesLine d) :
    new codec (recordAll codec ds).2 = .ok ⟨InMemoryDecisionLog.recordAll ds⟩ := by
  have hfile := (foldl_recordNext codec ds (⟨.empty⟩, none)).2
  rw [Option.getD_none, ByteArray.empty_append] at hfile
  have hlines : lines (ds.flatMap (appended codec)) =
      ds.map fun d => stripCarriageReturn (codec.write d) := by
    have hempty : lines [] = [] := rfl
    have hall := lines_flatMap_append (fun d hd => (h d hd).single_line) []
    rwa [List.append_nil, hempty, List.append_nil] at hall
  refine (new_of_encode codec hfile).trans ?_
  rw [hlines, foldl_reloadLine h]
  rfl

end JsonlDecisionLog

/-! ### The SQLite store -/

namespace SqliteEventStore

variable (codec : DecisionCodec) (rowids : RowidSource)

def reader (store : SqliteEventStore) : DecisionReader :=
  ⟨store.getDecision codec, store.listDecisions codec⟩

/-- The store after a sequence of calls, from empty tables on. -/
def recordAll (ds : List Decision) : SqliteEventStore :=
  ds.foldl (recordDecision codec rowids) .empty

variable {codec rowids}

theorem holds_foldl {ds : List Decision} (h : ∀ d ∈ ds, codec.WritesLine d)
    {store : SqliteEventStore} {l : List Decision} (hstore : store.Holds codec l) :
    (ds.foldl (recordDecision codec rowids) store).Holds codec
      (ds.foldl (moveToEnd Decision.id) l) := by
  induction ds generalizing store l with
  | nil => exact hstore
  | cons d ds ih =>
      rw [List.forall_mem_cons] at h
      exact ih h.2 (hstore.recordDecision h.1.read_write)

theorem reader_recordAll {ds : List Decision} (h : ∀ d ∈ ds, codec.WritesLine d) :
    (recordAll codec rowids ds).reader codec =
      .ofList (ds.foldl (moveToEnd Decision.id) []) := by
  have hholds : (recordAll codec rowids ds).Holds codec _ := holds_foldl h holds_empty
  simp only [reader, DecisionReader.ofList, hholds.listDecisions]
  congr 1
  funext id
  exact hholds.getDecision id

end SqliteEventStore

/-! ### The three together -/

/-- After the calls the logs answer alike, the JSONL log also when it is opened again. -/
structure LogsAgree (codec : DecisionCodec) (rowids : RowidSource) (ds : List Decision) :
    Prop where
  live : (JsonlDecisionLog.recordAll codec ds).1.reader = (InMemoryDecisionLog.recordAll ds).reader
  reopened : ∃ log, JsonlDecisionLog.new codec (JsonlDecisionLog.recordAll codec ds).2 = .ok log ∧
    log.reader = (InMemoryDecisionLog.recordAll ds).reader
  sqlite : (SqliteEventStore.recordAll codec rowids ds).reader codec =
    (InMemoryDecisionLog.recordAll ds).reader

open JsonlDecisionLog (denial denialCodec writesObject_denial)

variable {codec : DecisionCodec} {rowids : RowidSource} {ds : List Decision}

/-- The two kinds of log find the same decision under every id. -/
theorem getDecision_recordAll (h : ∀ d ∈ ds, codec.WritesLine d) (id : Uuid) :
    ((SqliteEventStore.recordAll codec rowids ds).reader codec).getDecision id =
      (InMemoryDecisionLog.recordAll ds).reader.getDecision id := by
  rw [SqliteEventStore.reader_recordAll h, InMemoryDecisionLog.reader_recordAll]
  simp only [DecisionReader.ofList]
  rw [(isUpsert_moveToEnd Decision.id).find?_foldl, (isUpsert_replaceKeyed Decision.id).find?_foldl]

theorem reader_sqlite_eq_iff (h : ∀ d ∈ ds, codec.WritesLine d) :
    (SqliteEventStore.recordAll codec rowids ds).reader codec =
        (InMemoryDecisionLog.recordAll ds).reader ↔
      FirstOrderIsLastOrder (ds.map Decision.id) := by
  rw [SqliteEventStore.reader_recordAll h, InMemoryDecisionLog.reader_recordAll,
    DecisionReader.ofList_injective.eq_iff, eq_comm, foldl_eq_iff]

/-- After any sequence of calls the three logs agree exactly when, of two ids, the one
recorded first also has its last record first. -/
theorem logsAgree_iff (codec : DecisionCodec) (rowids : RowidSource) (ds : List Decision)
    (h : ∀ d ∈ ds, codec.WritesLine d) :
    LogsAgree codec rowids ds ↔ FirstOrderIsLastOrder (ds.map Decision.id) := by
  refine Iff.trans ⟨fun hagree => hagree.sqlite, fun hsqlite => ⟨?_, ?_, hsqlite⟩⟩
    (reader_sqlite_eq_iff h)
  · exact congrArg InMemoryDecisionLog.reader (JsonlDecisionLog.memory_recordAll codec ds)
  · exact ⟨_, JsonlDecisionLog.new_recordAll codec h, rfl⟩

theorem writesLine_denials {ds : List Decision} (h : ds ⊆ [denial 1, denial 2]) :
    ∀ d ∈ ds, denialCodec.WritesLine d :=
  fun _ hd => (writesObject_denial (by simpa using h hd)).writesLine

/-- A denial is recorded twice before another one. -/
theorem logsAgree_recordedTwice :
    LogsAgree denialCodec .maxPlusOne [denial 1, denial 1, denial 2] ↔
      FirstOrderIsLastOrder ([denial 1, denial 1, denial 2].map Decision.id) :=
  logsAgree_iff denialCodec .maxPlusOne _ (writesLine_denials (by simp))

/-- A denial is recorded, another one, and the first one again. -/
theorem not_logsAgree_rerecorded :
    (∀ d ∈ [denial 1, denial 2, denial 1], denialCodec.WritesLine d) ∧
      ¬LogsAgree denialCodec .maxPlusOne [denial 1, denial 2, denial 1] := by
  have hwrites : ∀ d ∈ [denial 1, denial 2, denial 1], denialCodec.WritesLine d :=
    writesLine_denials (by simp)
  refine ⟨hwrites, fun hagree => ?_⟩
  have horder := (reader_sqlite_eq_iff hwrites).mp hagree.sqlite
  revert horder
  decide

end Anemoi
