import Anemoi.Core.Types
import Anemoi.Systems.Table
import Anemoi.Text.Lines

/-!
# Decision logs

`InMemoryDecisionLog` keeps decisions by id together with the order in which the ids
came first. `JsonlDecisionLog` is such an index over a file with one JSON object a
line: `new` fills the index from the file and `recordDecision` appends to it. The
two directions of JSON are a parameter, `DecisionCodec`; the file is a byte array,
which `new` has to decode as UTF-8 before it can look at its lines.
-/

namespace Anemoi

open Systems

/-- The failures of a log that this development can meet. -/
inductive TelemetryError where
  | io (detail : String)
  | serde
  deriving DecidableEq, Repr

/-- What `serde_json` writes for a decision, and what it makes of a text. -/
structure DecisionCodec where
  write : Decision → List Char
  read : List Char → Option Decision

/-- The decisions of a log; every decision is stored under its own id, and the ids
in `order` are those of the stored decisions. -/
structure InMemoryDecisionLog where
  decisions : Table Uuid Decision
  order : List Uuid
  id_eq : ∀ {id d}, decisions.lookup id = some d → d.id = id
  mem_order : ∀ {id}, id ∈ order ↔ id ∈ decisions

namespace InMemoryDecisionLog

/-- `Default::default`. -/
def empty : InMemoryDecisionLog where
  decisions := ∅
  order := []
  id_eq h := by simp at h
  mem_order := by simp

/-- The order of ids after a decision with the id `id` came in. -/
def pushOrder (log : InMemoryDecisionLog) (id : Uuid) : List Uuid :=
  if id ∈ log.decisions then log.order else log.order ++ [id]

theorem mem_pushOrder {log : InMemoryDecisionLog} {id id' : Uuid} :
    id' ∈ log.pushOrder id ↔ id' = id ∨ id' ∈ log.decisions := by
  unfold pushOrder
  by_cases h : id ∈ log.decisions
  · rw [if_pos h, log.mem_order]
    exact ⟨Or.inr, fun h' => h'.elim (fun he => he ▸ h) (fun h' => h')⟩
  · rw [if_neg h, List.mem_append, List.mem_singleton, log.mem_order, or_comm]

def insertSync (log : InMemoryDecisionLog) (decision : Decision) : InMemoryDecisionLog where
  decisions := log.decisions.insert decision.id decision
  order := log.pushOrder decision.id
  id_eq := by
    intro id d h
    rw [AList.lookup_insert_eq_ite] at h
    split at h
    next hid =>
      cases h
      exact hid.symm
    next => exact log.id_eq h
  mem_order := by
    intro id
    rw [mem_pushOrder, AList.mem_insert]

/-- The same steps as `insertSync`, behind the asynchronous interface. -/
def recordDecision (log : InMemoryDecisionLog) (decision : Decision) : InMemoryDecisionLog :=
  log.insertSync decision

def getDecision (log : InMemoryDecisionLog) (id : Uuid) : Option Decision :=
  log.decisions.lookup id

def listDecisions (log : InMemoryDecisionLog) : List Decision :=
  log.order.filterMap fun id => log.decisions.lookup id

theorem getDecision_insertSync (log : InMemoryDecisionLog) (d : Decision) (id : Uuid) :
    (log.insertSync d).getDecision id = if id = d.id then some d else log.getDecision id :=
  AList.lookup_insert_eq_ite log.decisions d.id id d

/-- The two ways to ask a log for a decision agree. -/
theorem mem_listDecisions {log : InMemoryDecisionLog} {d : Decision} :
    d ∈ log.listDecisions ↔ log.getDecision d.id = some d := by
  rw [listDecisions, List.mem_filterMap]
  constructor
  · rintro ⟨id, -, h⟩
    rw [getDecision, log.id_eq h, h]
  · intro h
    exact ⟨d.id, log.mem_order.mpr (AList.mem_iff_lookup.mpr ⟨d, h⟩), h⟩

/-- A stored decision stays as long as nothing else comes in under its id. -/
theorem getDecision_insertSync_of_eq {log : InMemoryDecisionLog} {d e : Decision}
    (he : log.getDecision e.id = some e) (hid : e.id = d.id → e = d) :
    (log.insertSync d).getDecision e.id = some e := by
  rw [getDecision_insertSync]
  split
  next h => rw [hid h]
  next => exact he

/-- After a list of insertions a decision is there if it was there before or is one of
them, and nothing else came in under its id. -/
theorem getDecision_foldl_insertSync {l : List Decision} {e : Decision}
    (hid : ∀ d ∈ l, e.id = d.id → e = d) {log : InMemoryDecisionLog}
    (he : log.getDecision e.id = some e ∨ e ∈ l) :
    (l.foldl insertSync log).getDecision e.id = some e := by
  induction l generalizing log with
  | nil => exact he.resolve_right List.not_mem_nil
  | cons d l ih =>
      rw [List.forall_mem_cons] at hid
      rw [List.foldl_cons]
      apply ih hid.2
      rcases he with he | he
      · exact Or.inl (getDecision_insertSync_of_eq he hid.1)
      · rcases List.mem_cons.mp he with rfl | he
        · exact Or.inl (by rw [getDecision_insertSync, if_pos rfl])
        · exact Or.inr he

end InMemoryDecisionLog

/-- The in-memory index of a log whose file is kept beside it. -/
structure JsonlDecisionLog where
  memory : InMemoryDecisionLog

namespace JsonlDecisionLog

variable (codec : DecisionCodec)

/-- The body of the loop in `new`: blank lines and lines that do not parse are
skipped. -/
def reloadLine (memory : InMemoryDecisionLog) (line : List Char) : InMemoryDecisionLog :=
  let line := trim line
  if line.isEmpty then memory
  else
    match codec.read line with
    | some decision => memory.insertSync decision
    | none => memory

/-- `read_to_string`: the whole file has to be UTF-8. -/
def readToString (file : ByteArray) : Except TelemetryError (List Char) :=
  match decode file with
  | some text => .ok text
  | none => .error (.io "stream did not contain valid UTF-8")

@[simp] theorem readToString_encode (text : List Char) :
    readToString (encode text) = .ok text := by
  rw [readToString, decode_encode]

/-- Open the log over the file, which need not exist. -/
def new (file : Option ByteArray) : Except TelemetryError JsonlDecisionLog :=
  match file with
  | none => .ok ⟨.empty⟩
  | some bytes => do
      let text ← readToString bytes
      return ⟨(lines text).foldl (reloadLine codec) .empty⟩

theorem new_encode (text : List Char) :
    new codec (some (encode text)) = .ok ⟨(lines text).foldl (reloadLine codec) .empty⟩ := by
  rw [new, readToString_encode]
  rfl

/-- A file that does not exist reads as an empty one. -/
theorem new_of_encode {file : Option ByteArray} {text : List Char}
    (h : file.getD .empty = encode text) :
    new codec file = .ok ⟨(lines text).foldl (reloadLine codec) .empty⟩ := by
  cases file with
  | none =>
      have hempty : text = [] := encode_injective h.symm
      rw [hempty]
      rfl
  | some bytes =>
      have hbytes : bytes = encode text := h
      rw [hbytes, new_encode]

/-- The text `record_decision` appends: the record and a newline. -/
def appended (decision : Decision) : List Char :=
  codec.write decision ++ ['\n']

/-- The log and the file after a completed `record_decision`. -/
def recordDecision (log : JsonlDecisionLog) (file : Option ByteArray) (decision : Decision) :
    JsonlDecisionLog × ByteArray :=
  (⟨log.memory.recordDecision decision⟩, file.getD .empty ++ encode (appended codec decision))

def getDecision (log : JsonlDecisionLog) (id : Uuid) : Option Decision :=
  log.memory.getDecision id

def listDecisions (log : JsonlDecisionLog) : List Decision :=
  log.memory.listDecisions

end JsonlDecisionLog

end Anemoi
