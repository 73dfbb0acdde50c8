import Anemoi.Policy.Scoring
import Anemoi.Systems.Ranking

/-!
# Background staging

A decision that stages a model queues an intent: which model to load, where, and for
which decision. The staging worker owns the queue. The escalation cache keeps, for a
bounded time and in bounded number, the context that a request declared for the model
it escalates to.

Each operation is one that the source runs under a lock.
-/

namespace Anemoi

open Systems

/-! ### Intents -/

inductive StagingState where
  | blocked
  | pending
  | failed
  | completed
  deriving DecidableEq, Repr

namespace StagingState

/-- The serialized name. -/
def name : StagingState → String
  | blocked => "blocked"
  | pending => "pending"
  | failed => "failed"
  | completed => "completed"

def isTerminal : StagingState → Bool
  | failed | completed => true
  | blocked | pending => false

end StagingState

/-- A reference to a stored context payload, by the id of its intent. -/
structure ContextRef where
  intentId : Uuid
  deriving DecidableEq, Repr

structure StagingIntent where
  id : Uuid
  decisionId : Uuid
  foregroundModel : Option ModelId
  backgroundModel : ModelId
  targetRuntime : RuntimeId
  reason : String
  createdAt : DateTime
  state : StagingState
  lastError : Option String
  attemptCount : UInt32
  lastSkipReason : Option String
  pendingContext : Option String
  contextRef : Option ContextRef
  deriving DecidableEq, Repr

namespace StagingIntent

def new (stamp : Stamp) (decisionId : Uuid) (foregroundModel : Option ModelId)
    (backgroundModel : ModelId) (targetRuntime : RuntimeId) (reason : String) :
    StagingIntent where
  id := stamp.id
  decisionId := decisionId
  foregroundModel := foregroundModel
  backgroundModel := backgroundModel
  targetRuntime := targetRuntime
  reason := reason
  createdAt := stamp.createdAt
  state := .blocked
  lastError := none
  attemptCount := 0
  lastSkipReason := none
  pendingContext := none
  contextRef := none

def markPending (intent : StagingIntent) : StagingIntent :=
  { intent with state := .pending }

/-- Count a tick that did not change the state, with the reason why nothing ran. -/
def noteTick (intent : StagingIntent) (skipReason : Option String) : StagingIntent :=
  { intent with attemptCount := intent.attemptCount + 1, lastSkipReason := skipReason }

def markCompleted (intent : StagingIntent) : StagingIntent :=
  { intent with state := .completed }

def markFailed (intent : StagingIntent) (error : String) : StagingIntent :=
  { intent with state := .failed, lastError := some error }

/-- The intent that `queueIntent` queues: pending when it may run, else blocked with
the reason. -/
def queued (stamp : Stamp) (decisionId : Uuid) (foregroundModel : Option ModelId)
    (backgroundModel : ModelId) (targetRuntime : RuntimeId) (reason : String)
    (pendingContext : Option String) (runnable : Bool) : StagingIntent :=
  let intent := new stamp decisionId foregroundModel backgroundModel targetRuntime reason
  let intent := { intent with pendingContext }
  if runnable then intent.markPending
  else
    { intent with
      lastError := some ("blocked: target runtime is not mock and " ++
        "ANEMOI_ENABLE_LIVE_EXECUTE is not set") }

section Queued

variable (stamp : Stamp) (decisionId : Uuid) (foregroundModel : Option ModelId)
  (backgroundModel : ModelId) (targetRuntime : RuntimeId) (reason : String)
  (pendingContext : Option String) (runnable : Bool)

@[simp] theorem queued_id :
    (queued stamp decisionId foregroundModel backgroundModel targetRuntime reason
      pendingContext runnable).id = stamp.id := by
  cases runnable <;> rfl

@[simp] theorem queued_decisionId :
    (queued stamp decisionId foregroundModel backgroundModel targetRuntime reason
      pendingContext runnable).decisionId = decisionId := by
  cases runnable <;> rfl

@[simp] theorem queued_backgroundModel :
    (queued stamp decisionId foregroundModel backgroundModel targetRuntime reason
      pendingContext runnable).backgroundModel = backgroundModel := by
  cases runnable <;> rfl

@[simp] theorem queued_targetRuntime :
    (queued stamp decisionId foregroundModel backgroundModel targetRuntime reason
      pendingContext runnable).targetRuntime = targetRuntime := by
  cases runnable <;> rfl

@[simp] theorem queued_contextRef :
    (queued stamp decisionId foregroundModel backgroundModel targetRuntime reason
      pendingContext runnable).contextRef = none := by
  cases runnable <;> rfl

end Queued

end StagingIntent

/-! ### The escalation cache -/

structure EscalationContextEntry where
  payload : String
  storedAt : DateTime
  deriving DecidableEq, Repr

/-- The time to live is in nanoseconds. -/
structure EscalationContextCache where
  entries : Table Uuid EscalationContextEntry
  ttl : ℤ
  capacity : ℕ

namespace EscalationContextCache

def new (ttl : ℤ) (capacity : ℕ) : EscalationContextCache where
  entries := ∅
  ttl := ttl
  capacity := max capacity 1

def defaultEscalationContextTtlSecs : ℤ := 600
def defaultEscalationContextCapacity : ℕ := 256

def default : EscalationContextCache :=
  new (defaultEscalationContextTtlSecs * 1000000000) defaultEscalationContextCapacity

/-- Is an entry younger than the time to live? -/
def live (cache : EscalationContextCache) (now : DateTime) (e : EscalationContextEntry) :
    Bool :=
  now.nanos - e.storedAt.nanos < cache.ttl

/-- The id of the oldest entry, the first one in iteration order on a tie. -/
def oldest (entries : Table Uuid EscalationContextEntry) : Option Uuid :=
  (minByKey (fun e => e.2.storedAt.nanos) entries.items).map Prod.fst

/-- Evict the oldest entry until there is room for `intentId`. The fuel is the number
of entries: every round removes one. -/
def evictFor (capacity : ℕ) (intentId : Uuid) :
    ℕ → Table Uuid EscalationContextEntry → Table Uuid EscalationContextEntry
  | 0, entries => entries
  | fuel + 1, entries =>
      if capacity ≤ entries.entries.length && intentId ∉ entries then
        match oldest entries with
        | none => entries
        | some id => evictFor capacity intentId fuel (entries.erase id)
      else entries

def writeAt (cache : EscalationContextCache) (intentId : Uuid) (payload : String)
    (now : DateTime) : ContextRef × EscalationContextCache :=
  let entries := cache.entries.retain (cache.live now)
  let entries := evictFor cache.capacity intentId entries.entries.length entries
  (⟨intentId⟩, { cache with entries := entries.insert intentId { payload, storedAt := now } })

/-- Consume the payload; an expired one is consumed too, but not returned. -/
def takeAt (cache : EscalationContextCache) (contextRef : ContextRef) (now : DateTime) :
    Option String × EscalationContextCache :=
  match cache.entries.lookup contextRef.intentId with
  | none => (none, cache)
  | some entry =>
      (if cache.live now entry then some entry.payload else none,
       { cache with entries := cache.entries.erase contextRef.intentId })

end EscalationContextCache

/-! ### The queue -/

/-- Replace the first element that satisfies `p` by `f` of it. -/
def updateFirst {α : Type} (p : α → Bool) (f : α → α) : List α → List α
  | [] => []
  | a :: l => if p a then f a :: l else a :: updateFirst p f l

/-- An element of the updated list: the old one, or the first that satisfies `p`,
changed. -/
theorem getElem?_updateFirst {α : Type} {p : α → Bool} {f : α → α} {l : List α} {n : ℕ}
    {a : α} (h : l[n]? = some a) :
    (updateFirst p f l)[n]? = some a ∨
      l.find? p = some a ∧ (updateFirst p f l)[n]? = some (f a) := by
  induction l generalizing n with
  | nil => cases h
  | cons b l ih =>
      rw [updateFirst, List.find?_cons]
      cases hb : p b with
      | true =>
          cases n with
          | zero =>
              obtain rfl : b = a := Option.some.inj h
              exact Or.inr ⟨rfl, rfl⟩
          | succ n => exact Or.inl h
      | false =>
          cases n with
          | zero => exact Or.inl h
          | succ n => exact ih h

/-- The element that is changed has a position. -/
theorem exists_getElem?_updateFirst {α : Type} {p : α → Bool} {l : List α} {a : α}
    (h : l.find? p = some a) (f : α → α) :
    ∃ n : ℕ, l[n]? = some a ∧ (updateFirst p f l)[n]? = some (f a) := by
  induction l with
  | nil => cases h
  | cons b l ih =>
      rw [List.find?_cons] at h
      rw [updateFirst]
      cases hb : p b with
      | true =>
          rw [hb] at h
          obtain rfl : b = a := Option.some.inj h
          exact ⟨0, rfl, rfl⟩
      | false =>
          rw [hb] at h
          obtain ⟨n, hn, hn'⟩ := ih h
          exact ⟨n + 1, hn, hn'⟩

structure StagingWorker where
  queue : List StagingIntent := []

namespace StagingWorker

def enqueue (worker : StagingWorker) (intent : StagingIntent) : StagingWorker :=
  { worker with queue := worker.queue ++ [intent] }

def getPending (worker : StagingWorker) : List StagingIntent :=
  worker.queue.filter fun i => i.state = .pending

def updateState (worker : StagingWorker) (intentId : Uuid) (newState : StagingState)
    (error : Option String) : StagingWorker :=
  let change (intent : StagingIntent) : StagingIntent :=
    match newState with
    | .pending => intent.markPending
    | .completed => intent.markCompleted
    | .failed => intent.markFailed (error.getD "")
    | .blocked => { intent with state := .blocked }
  { worker with queue := updateFirst (fun i => i.id = intentId) change worker.queue }

def noteTick (worker : StagingWorker) (intentId : Uuid) (skipReason : Option String) :
    StagingWorker :=
  { worker with
    queue := updateFirst (fun i => i.id = intentId) (·.noteTick skipReason) worker.queue }

/-- Complete every pending intent whose model is ready. -/
def reconcileReady (worker : StagingWorker) (readyModels : List ModelId) :
    List Uuid × StagingWorker :=
  let ready (i : StagingIntent) : Bool :=
    i.state = .pending && readyModels.contains i.backgroundModel
  ((worker.queue.filter ready).map StagingIntent.id,
   { worker with queue := worker.queue.map fun i => if ready i then i.markCompleted else i })

/-- One intent of `commitEvictionContext`: store its context when its foreground model
is draining. -/
def commitOne (drainingModels : List ModelId) (now : DateTime)
    (cache : EscalationContextCache) (intent : StagingIntent) :
    StagingIntent × EscalationContextCache :=
  let draining := intent.foregroundModel.any fun model => drainingModels.contains model
  match intent.contextRef, intent.pendingContext with
  | none, some payload =>
      if draining then
        let written := cache.writeAt intent.id payload now
        ({ intent with contextRef := some written.1, pendingContext := none }, written.2)
      else (intent, cache)
  | _, _ => (intent, cache)

/-- Store the declared contexts of all intents whose foreground model is draining, in
queue order. -/
def commitAll (drainingModels : List ModelId) (now : DateTime) :
    EscalationContextCache → List StagingIntent →
      List StagingIntent × EscalationContextCache
  | cache, [] => ([], cache)
  | cache, intent :: rest =>
      let one := commitOne drainingModels now cache intent
      let others := commitAll drainingModels now one.2 rest
      (one.1 :: others.1, others.2)

/-- The ids returned are those of the intents that got their reference now. -/
def commitEvictionContext (worker : StagingWorker) (drainingModels : List ModelId)
    (cache : EscalationContextCache) (now : DateTime) :
    List Uuid × StagingWorker × EscalationContextCache :=
  let committed := commitAll drainingModels now cache worker.queue
  let changed := (worker.queue.zip committed.1).filter fun e =>
    e.1.contextRef.isNone && e.2.contextRef.isSome
  (changed.map fun e => e.1.id, { worker with queue := committed.1 }, committed.2)

/-- Take the reference of the first committed intent for `model`. -/
def takeContextRefForBackground (worker : StagingWorker) (model : ModelId) :
    Option ContextRef × StagingWorker :=
  let committed (i : StagingIntent) : Bool :=
    i.backgroundModel = model && i.contextRef.isSome
  ((worker.queue.find? committed).bind StagingIntent.contextRef,
   { worker with
     queue := updateFirst committed (fun i => { i with contextRef := none }) worker.queue })

end StagingWorker

end Anemoi
