import Anemoi.Daemon.Progress
import Anemoi.Systems.Tickets
import Anemoi.Telemetry.Agreement

/-!
# What can be looked up afterwards

The daemon names decisions and staged intents by uuids that it draws, and looks both up by
these names: `/decisions/{id}` and `/explain/{id}` ask the decision log for the decision,
the staging queue finds an intent by its id. A uuid is a ticket here: `thrifty_performAll`
says that a handler uses every one it draws at most once, as its file shows.

So in every interleaving of handlers no two decisions and intents have the same name, if no
two answers of the generator are the same (`journal_trace`): the logs hold each recorded
decision once, in the order in which they were recorded, and what a handler does on account
of a decision is done when that decision can be looked up, whatever the others do meanwhile.
-/

namespace Anemoi

open Systems

/-! ### The uuids that are used up -/

/-- The uuids that a command gives to something that is looked up by it. -/
def Cmd.names : Cmd → Multiset Uuid
  | .record (.recordDecision decision) => {decision.id}
  | .enqueue intent => {intent.id}
  | _ => 0

/-- The uuid that is drawn. -/
def drawnUuid : Program.Event Cmd.Resp → Multiset Uuid
  | ⟨.newUuid, id⟩ => {id}
  | _ => 0

/-- Uuids are drawn from the generator and used up as names. -/
def uuids : Tickets Cmd.Resp Uuid := ⟨drawnUuid, Cmd.names⟩

/-- The uuids that a handler holds are on its file. -/
theorem uuids_file (dossier : Dossier) (e : Program.Event Cmd.Resp) :
    (dossier.file e).uuids = uuids.hold dossier.uuids e := by
  have hkept : dossier.uuids = dossier.uuids - 0 + 0 := by rw [add_zero, tsub_zero]
  obtain ⟨c, r⟩ := e
  cases c with
  | newUuid => exact congrArg (· + {r}) (tsub_zero dossier.uuids).symm
  | enqueue intent => exact (add_zero _).symm
  | record event =>
      cases event with
      | recordDecision d => cases r <;> exact (add_zero _).symm
      | recordActionPlan plan => cases r <;> exact hkept
      | _ => exact hkept
  | _ => exact hkept

/-- A command is warranted only if its handler holds the uuid that it uses. -/
theorem Warranted.covers {state : AppState} {codec : Codec} {operations : List Operation}
    {intents : StagingIntent → Prop} {dossier : Dossier} {c : Cmd}
    (h : Warranted state codec operations intents dossier c) : uuids.Covers dossier.uuids c := by
  cases c with
  | enqueue intent => exact Multiset.singleton_le.mpr h.2
  | record event =>
      cases event with
      | recordDecision d => exact Multiset.singleton_le.mpr h.2
      | _ => exact Multiset.zero_le _
  | _ => exact Multiset.zero_le _

/-- A handler uses every uuid that it draws at most once as a name. -/
theorem thrifty_performAll (state : AppState) (codec : Codec) (own : List Operation) :
    uuids.Thrifty (state.performAll codec own) := by
  have hfiles : Files state codec own (fun _ _ => True) {} (state.performAll codec own) :=
    files_performAll (List.Subset.refl own) {}
  exact hfiles.map Dossier.uuids uuids_file fun _ _ hc => hc.covers

/-! ### Looking up -/

namespace DecisionReader

variable (display : TelemetryError → String) (reader : DecisionReader)

/-- The handler of `/decisions/{id}`, where `display` is the text of an error. -/
def decision (id : Uuid) : Except HttpError Decision :=
  match reader.getDecision id with
  | .error e => .error (internalError (display e))
  | .ok none => .error ⟨404, s!"decision {id} was not found"⟩
  | .ok (some decision) => .ok decision

/-- The handler of `/explain/{id}`. -/
def explain (id : Uuid) : Except HttpError Explanation := do
  let decision ← reader.decision display id
  return decision.explanation

/-- Both handlers know the decision by its id. -/
structure Knows (decision : Decision) : Prop where
  decision_eq : reader.decision display decision.id = .ok decision
  explain_eq : reader.explain display decision.id = .ok decision.explanation

variable {display} {l : List Decision}

/-- Decisions with ids of their own are found. -/
theorem knows_ofList (h : (l.map Decision.id).Nodup) {d : Decision} (hd : d ∈ l) :
    (ofList l).Knows display d := by
  have hget : (ofList l).getDecision d.id = .ok (some d) :=
    congrArg Except.ok (find?_key_of_nodup h hd)
  have hdecision : (ofList l).decision display d.id = .ok d := by
    rw [decision, hget]
  refine ⟨hdecision, ?_⟩
  rw [explain, hdecision]
  rfl

end DecisionReader

/-! ### Traces -/

/-- The decisions that the log has taken, in order. -/
def decisionsRecorded (trace : List (ℕ × Program.Event Cmd.Resp)) : List Decision :=
  trace.filterMap fun e =>
    match e.2 with
    | ⟨.record (.recordDecision decision), .ok _⟩ => some decision
    | _ => none

/-- A log in memory, after what was recorded in the trace. -/
def decisionLogAfter (trace : List (ℕ × Program.Event Cmd.Resp)) : InMemoryDecisionLog :=
  .recordAll (decisionsRecorded trace)

/-- The names given to the decisions that were taken, and to the intents that were queued. -/
def namesGiven (trace : List (ℕ × Program.Event Cmd.Resp)) : List Uuid :=
  (decisionsRecorded trace).map Decision.id ++ (enqueuedIntents trace).map StagingIntent.id

section Traces

variable {trace : List (ℕ × Program.Event Cmd.Resp)} {i : ℕ}

theorem decisionsRecorded_concat (e : ℕ × Program.Event Cmd.Resp) :
    decisionsRecorded (trace ++ [e]) = decisionsRecorded trace ++ decisionsRecorded [e] :=
  List.filterMap_append

/-- What one event names is used up by its command. -/
theorem namesGiven_singleton_le (e : ℕ × Program.Event Cmd.Resp) :
    (namesGiven [e] : Multiset Uuid) ≤ e.2.1.names := by
  obtain ⟨i, c, r⟩ := e
  cases c with
  | record event =>
      cases event with
      | recordDecision d =>
          cases r with
          | error e => exact Multiset.zero_le _
          | ok _ => exact le_refl _
      | _ => exact le_refl _
  | enqueue intent => exact le_refl _
  | _ => exact le_refl _

theorem namesGiven_append (trace after : List (ℕ × Program.Event Cmd.Resp)) :
    (namesGiven (trace ++ after) : Multiset Uuid) =
      (namesGiven trace : Multiset Uuid) + (namesGiven after : Multiset Uuid) := by
  simp only [namesGiven, decisionsRecorded, enqueuedIntents, List.filterMap_append,
    List.map_append, ← Multiset.coe_add]
  abel

theorem namesGiven_le_usedIn (trace : List (ℕ × Program.Event Cmd.Resp)) :
    (namesGiven trace : Multiset Uuid) ≤ uuids.usedIn trace := by
  induction trace using List.reverseRecOn with
  | nil => exact Multiset.zero_le _
  | append_singleton trace e ih =>
      rw [namesGiven_append, Tickets.usedIn_concat]
      exact add_le_add ih (namesGiven_singleton_le e)

/-- Names that are used up once are given once, also in what came before. -/
theorem nodup_namesGiven {before after : List (ℕ × Program.Event Cmd.Resp)}
    (h : (uuids.usedIn (before ++ after)).Nodup) : (namesGiven before).Nodup := by
  have hle : (namesGiven before : Multiset Uuid) ≤ uuids.usedIn (before ++ after) := by
    refine le_trans ?_ (namesGiven_le_usedIn (before ++ after))
    rw [namesGiven_append]
    exact Multiset.le_add_right _ _
  exact Multiset.coe_nodup.mp (Multiset.nodup_of_le hle h)

/-- The decision on a handler's file has been recorded. -/
theorem mem_decisionsRecorded_of_filed {decision : Decision}
    (h : (Dossier.after i trace).decision = some decision) :
    decision ∈ decisionsRecorded trace := by
  induction trace using List.reverseRecOn with
  | nil => cases h
  | append_singleton trace e ih =>
      rw [decisionsRecorded_concat, List.mem_append]
      rw [Dossier.after, Pool.phaseAfter_concat] at h
      by_cases hi : e.1 = i
      · rw [if_pos hi] at h
        obtain ⟨j, c, r⟩ := e
        cases c with
        | record event =>
            cases event with
            | recordDecision d =>
                cases r with
                | error e => exact .inl (ih h)
                | ok _ => exact .inr (List.mem_singleton.mpr (Option.some.inj h).symm)
            | recordActionPlan plan => cases r <;> exact .inl (ih h)
            | _ => exact .inl (ih h)
        | forwardChatCompletion runtimeId target body => cases h
        | getPending => cases h
        | _ => exact .inl (ih h)
      · rw [if_neg hi] at h
        exact .inl (ih h)

end Traces

/-! ### Interleavings -/

section Interleavings

variable (display : TelemetryError → String)

/-- The log of the trace knows the decision. -/
abbrev KnownAfter (before : List (ℕ × Program.Event Cmd.Resp)) (decision : Decision) : Prop :=
  (decisionLogAfter before).reader.Knows display decision

/-- The handler has recorded the decision last, and the log knows it. -/
def OwnDecision (before : List (ℕ × Program.Event Cmd.Resp)) (i : ℕ) (decision : Decision) :
    Prop :=
  (Dossier.after i before).decision = some decision ∧ KnownAfter display before decision

/-- What a handler does on account of its decision can be explained: the log knows it. A load
is one of the handler's plan if it has recorded one for its decision, and else that of an intent
that was queued. -/
def Explained (before : List (ℕ × Program.Event Cmd.Resp)) (i : ℕ) : Cmd → Prop
  | .record (.recordActionPlan plan) =>
      ∃ decision, OwnDecision display before i decision ∧ plan.decisionId = decision.id ∧
        ∃ models dryRun, plan = actionPlanFor models decision dryRun
  | .loadModel runtimeId model =>
      (∃ decision plan action, OwnDecision display before i decision ∧
        (Dossier.after i before).plan = some plan ∧ plan.decisionId = decision.id ∧
        action ∈ plan.actions ∧ action.Is .load runtimeId model ∧
        decision.selectedRuntime = some ⟨runtimeId⟩ ∧
        (decision.selectedModel = some model ∨ decision.backgroundModel = some model)) ∨
      (Dossier.after i before).plan = none ∧
        ∃ intent ∈ enqueuedIntents before, intent.backgroundModel = model
  | .forwardChatCompletion runtimeId _ forwarded =>
      ∃ decision model body, OwnDecision display before i decision ∧
        decision.selectedRuntime = some ⟨runtimeId⟩ ∧ decision.selectedModel = some model ∧
        forwarded = gatewayForwardBody body model
  | _ => True

/-- What the daemon keeps by name after a trace. -/
structure Journal (trace : List (ℕ × Program.Event Cmd.Resp)) (w : World) : Prop where
  /-- No two decisions and intents have the same name. -/
  names : (namesGiven trace).Nodup
  /-- The log in memory lists each decision once, in the order of the recordings. -/
  logged : (decisionLogAfter trace).reader = .ofList (decisionsRecorded trace)
  /-- So do the tables, if the text of each decision can be read back. -/
  stored : ∀ (codec : DecisionCodec) (rowids : RowidSource),
    (∀ decision ∈ decisionsRecorded trace, codec.WritesLine decision) →
    (SqliteEventStore.recordAll codec rowids (decisionsRecorded trace)).reader codec =
      .ofList (decisionsRecorded trace)
  known : ∀ decision ∈ decisionsRecorded trace, KnownAfter display trace decision
  /-- The queue finds an intent by its id, for as long as the daemon runs. -/
  staged : ∀ queued ∈ enqueuedIntents trace, ∃ intent, w.staged queued.id = some intent ∧
    StemsFrom queued intent
  explained : Always (fun before e => Explained display before e.1 e.2.1) trace

variable {display} {state : AppState} {codec : Codec} {operations : List Operation}
  {trace : List (ℕ × Program.Event Cmd.Resp)}

theorem nodup_decisionsRecorded (h : (namesGiven trace).Nodup) :
    ((decisionsRecorded trace).map Decision.id).Nodup :=
  (List.nodup_append.mp h).1

theorem reader_decisionLogAfter (h : (namesGiven trace).Nodup) :
    (decisionLogAfter trace).reader = .ofList (decisionsRecorded trace) := by
  rw [decisionLogAfter, InMemoryDecisionLog.reader_recordAll,
    (appendsNew_replaceKeyed Decision.id).foldl_of_nodup (nodup_decisionsRecorded h)]

theorem knownAfter_of_mem (h : (namesGiven trace).Nodup) {d : Decision}
    (hd : d ∈ decisionsRecorded trace) : KnownAfter display trace d := by
  rw [KnownAfter, reader_decisionLogAfter h]
  exact DecisionReader.knows_ofList (nodup_decisionsRecorded h) hd

/-- A command that its handler's file warrants is explained by the log. -/
theorem AccountedFor.explained (h : (namesGiven trace).Nodup)
    {e : ℕ × Program.Event Cmd.Resp} (he : AccountedFor state codec operations trace e) :
    Explained display trace e.1 e.2.1 := by
  have hown : ∀ d, (Dossier.after e.1 trace).decision = some d →
      OwnDecision display trace e.1 d :=
    fun d hd => ⟨hd, knownAfter_of_mem h (mem_decisionsRecorded_of_filed hd)⟩
  obtain ⟨i, c, r⟩ := e
  cases c with
  | record event =>
      cases event with
      | recordActionPlan plan =>
          obtain ⟨decision, effective, dryRun, hdecision, -, rfl⟩ := he
          exact ⟨decision, hown _ hdecision,
            (AppState.planOf_actionPlanFor _ decision _).decisionId, _, dryRun, rfl⟩
      | _ => trivial
  | loadModel runtimeId model =>
      rcases he.2 with ⟨decision, plan, action, hdecision, hplan, hid, hmem, his, hselected⟩ |
        ⟨hplan, intent, hintent, hmodel, -⟩
      · exact .inl ⟨decision, plan, action, hown _ hdecision, hplan, hid, hmem, his, hselected⟩
      · exact .inr ⟨hplan, intent, hintent, hmodel⟩
  | forwardChatCompletion runtimeId target forwarded =>
      obtain ⟨-, body, _, decision, model, -, -, hdecision, -, hmodel, hruntime, -, -, hbody⟩ := he
      exact ⟨decision, model, body, hown _ hdecision, hruntime, hmodel, hbody⟩
  | _ => trivial

/-- The intents in the queue are those that were queued, in their places. -/
def InPlace (trace : List (ℕ × Program.Event Cmd.Resp)) (w : World) : Prop :=
  List.Forall₂ StemsFrom (enqueuedIntents trace) w.stagingWorker.queue

theorem InPlace.start {w : World} (hqueue : w.stagingWorker.queue = []) : InPlace [] w := by
  rw [InPlace, hqueue]
  exact .nil

theorem InPlace.step {env : ℕ → Surroundings} {w : World} (h : InPlace trace w) (i : ℕ)
    (c : Cmd) :
    InPlace (trace ++ [(i, ⟨c, (handle codec env w c).1⟩)]) (handle codec env w c).2 := by
  rw [InPlace]
  by_cases henqueue : c.area = .enqueueing
  · obtain ⟨queued, rfl⟩ := eq_enqueue_of_area henqueue
    rw [enqueuedIntents_concat]
    exact List.rel_append h (.cons (.refl queued) .nil)
  · have hne : ∀ intent, c ≠ .enqueue intent := by
      rintro intent rfl
      exact henqueue rfl
    rw [enqueuedIntents_concat_of_ne hne]
    exact forall₂_trans h (forall₂_stemsFrom_handle codec env henqueue w)
      fun _ _ _ => StemsFrom.trans

/-- What was queued under a name of its own is found by it. -/
theorem InPlace.staged {w : World} (h : InPlace trace w)
    (hnodup : ((enqueuedIntents trace).map StagingIntent.id).Nodup) {queued : StagingIntent}
    (hqueued : queued ∈ enqueuedIntents trace) :
    ∃ intent, w.staged queued.id = some intent ∧ StemsFrom queued intent := by
  have hids : w.stagingWorker.queue.map StagingIntent.id =
      (enqueuedIntents trace).map StagingIntent.id := by
    rw [← List.forall₂_eq_eq_eq, List.forall₂_map_left_iff, List.forall₂_map_right_iff]
    exact h.flip.imp fun _ _ hstems => hstems.id
  obtain ⟨intent, hintent, hstems⟩ := exists_of_mem_forall₂ h.flip hqueued
  refine ⟨intent, ?_, hstems⟩
  rw [World.staged, ← hstems.id]
  exact find?_key_of_nodup (hids ▸ hnodup) hintent

theorem inPlace_trace (state : AppState) (codec : Codec) (env : ℕ → Surroundings)
    (handlers : List (List Operation)) (w : World) (schedule : List ℕ)
    (hqueue : w.stagingWorker.queue = []) :
    let trace := Pool.trace (handle codec env) (state.serving codec handlers w) schedule
    let w' := (Machine.runFrom (Pool.step (handle codec env)) (state.serving codec handlers w)
      schedule).shared
    OnRecord state codec handlers.flatten trace w' ∧ InPlace trace w' :=
  (Pool.invariant_trace
    (I := fun trace w => OnRecord state codec handlers.flatten trace w ∧ InPlace trace w)
    (fun _ _ => trivial) (files_serving state codec handlers w)
    ⟨.start hqueue, .start hqueue⟩
    (fun _ _ i c h hc _ => ⟨h.1.step hc, h.2.step i c⟩)
    (G := fun _ _ => True) fun _ _ _ _ => trivial).1

/-- In every interleaving of handlers, from a daemon with nothing staged and an empty log,
over which the generator gives out no uuid twice, everything that has a name is found by it,
and what is done on account of a decision is done when the log knows the decision. -/
theorem journal_trace (display : TelemetryError → String) (state : AppState) (codec : Codec)
    (env : ℕ → Surroundings) (handlers : List (List Operation)) (w : World) (schedule : List ℕ)
    (hqueue : w.stagingWorker.queue = [])
    (hdrawn : (uuids.drawnIn
      (Pool.trace (handle codec env) (state.serving codec handlers w) schedule)).Nodup) :
    Journal display (Pool.trace (handle codec env) (state.serving codec handlers w) schedule)
      (Machine.runFrom (Pool.step (handle codec env)) (state.serving codec handlers w)
        schedule).shared := by
  have hnames : ∀ p ∈ (state.serving codec handlers w).threads, uuids.Thrifty p := by
    intro p hp
    obtain ⟨own, -, rfl⟩ := List.mem_map.mp hp
    exact thrifty_performAll state codec own
  have hused := Tickets.nodup_usedIn hnames hdrawn
  obtain ⟨hrecord, hplace⟩ := inPlace_trace state codec env handlers w schedule hqueue
  generalize Pool.trace (handle codec env) (state.serving codec handlers w) schedule = trace at *
  have hbefore : ∀ before after, trace = before ++ after → (namesGiven before).Nodup :=
    fun before after heq => nodup_namesGiven (heq ▸ hused)
  have hall := hbefore trace [] (List.append_nil trace).symm
  refine ⟨hall, reader_decisionLogAfter hall, fun decisionCodec rowids hwrites => ?_,
    fun decision hdecision => knownAfter_of_mem hall hdecision,
    fun queued hqueued => hplace.staged (List.nodup_append.mp hall).2.1 hqueued,
    fun before e after heq => ?_⟩
  · rw [SqliteEventStore.reader_recordAll hwrites,
      (appendsNew_moveToEnd Decision.id).foldl_of_nodup (nodup_decisionsRecorded hall)]
  · exact (hrecord.accounted before e after heq).explained (hbefore before (e :: after) heq)

end Interleavings

/-! ### Two handlers -/

open AppState

/-- A handler decides and stages, another completes a chat: each of their decisions and the
intent are found by the names that they got. -/
theorem journal_servingTrace :
    (namesGiven servingTrace).length = 3 ∧
      ∃ w, Journal (fun _ => "database error") servingTrace w :=
  ⟨by decide +kernel, _,
    journal_trace (fun _ => "database error") twoRuntimes lenientCodec growsHotLive servingHandlers
      twoRuntimesStart _ rfl (by decide +kernel)⟩

end Anemoi
