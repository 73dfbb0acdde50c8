import Anemoi.Daemon.Calls
import Anemoi.Daemon.EscalationCache
import Anemoi.Daemon.Operations
import Anemoi.Daemon.Readiness
import Anemoi.Systems.Machine
import Anemoi.Systems.Phases

/-!
# The loads of a staged decision

Three paths make the load that a decision stages: `/execute` walks the action plan of its
decision, the staging tick loads for every pending intent, and `execute_pending` loads for
every pending intent on the adapter it is given. A `Ledger` keeps who made which load
along a run: those of action plans by the decision, the others by the intent whose outcome
is stored next. It loses none: `calls_foldl_note` says that its entries are the calls of
`load_model` in the trace.

`loaded_once` says that an intent has one load at most, on its own target, in every run
whose staging ticks and `execute_pending` steps spare the loads that `/execute` has made,
and that every call of the run is entered for one decision or intent.
-/

namespace Anemoi

open Systems

/-! ### Who loaded what -/

/-- The loads so far. `walking` is the decision whose action plan is being walked, and
`loading` are the loads whose outcome has not been stored yet. -/
structure Ledger where
  walking : Option Uuid := none
  loading : List (String × ModelId) := []
  planned : List (Uuid × String × ModelId) := []
  staged : List (Uuid × String × ModelId) := []

namespace Ledger

def note (ledger : Ledger) : Program.Event Cmd.Resp → Ledger
  | ⟨.record (.recordActionPlan plan), _⟩ => { ledger with walking := some plan.decisionId }
  | ⟨.loadModel runtimeId model, _⟩ =>
      match ledger.walking with
      | some decisionId =>
          { ledger with planned := ledger.planned ++ [(decisionId, runtimeId, model)] }
      | none => { ledger with loading := ledger.loading ++ [(runtimeId, model)] }
  | ⟨.updateState intentId _ _, _⟩ =>
      { ledger with
        loading := []
        staged := ledger.staged ++ ledger.loading.map fun load => (intentId, load) }
  | _ => { ledger with walking := none }

/-- The ledger after the events of one call. -/
def noteCall (ledger : Ledger) (trace : History) : Ledger :=
  trace.foldl note { ledger with walking := none }

/-- All loads of the ledger. -/
def calls (ledger : Ledger) : List (String × ModelId) :=
  (ledger.planned ++ ledger.staged).map Prod.snd ++ ledger.loading

/-- The loads that were made for an intent: by its decision's action plan, and others. -/
def loadsFor (ledger : Ledger) (intent : StagingIntent) : List (String × ModelId) :=
  (ledger.planned.filter (fun load => load.1 = intent.decisionId) ++
    ledger.staged.filter fun load => load.1 = intent.id).map Prod.snd

/-- The decisions whose action plans made a load. -/
def plannedIds (ledger : Ledger) : List Uuid :=
  ledger.planned.map Prod.fst

/-- The two ledgers have the same loads. -/
structure SameLoads (ledger after : Ledger) : Prop where
  planned : after.planned = ledger.planned
  staged : after.staged = ledger.staged
  loading : after.loading = ledger.loading

end Ledger

/-- The call of `load_model` that the event is. -/
def loadCall : Program.Event Cmd.Resp → Option (String × ModelId)
  | ⟨.loadModel runtimeId model, _⟩ => some (runtimeId, model)
  | _ => none

/-- Does the command load a model or store an outcome? -/
def Cmd.marks : Cmd → Bool
  | loadModel _ _ | updateState _ _ _ => true
  | _ => false

/-- Does the command store the outcome of a load? -/
def Cmd.stores : Cmd → Bool
  | updateState _ _ _ => true
  | _ => false

theorem Cmd.stores_of_area {c : Cmd} (hstaging : c.area ≠ .staging) : c.stores = false := by
  cases c with
  | updateState id state error => exact absurd rfl hstaging
  | _ => rfl

theorem Cmd.marks_of_area {c : Cmd} (hloading : c.area ≠ .loading)
    (hstaging : c.area ≠ .staging) : c.marks = false := by
  cases c with
  | loadModel runtimeId model => exact absurd rfl hloading
  | updateState id state error => exact absurd rfl hstaging
  | _ => rfl

namespace Ledger

theorem SameLoads.trans {a b c : Ledger} (h : SameLoads a b) (h' : SameLoads b c) :
    SameLoads a c :=
  ⟨h'.planned.trans h.planned, h'.staged.trans h.staged, h'.loading.trans h.loading⟩

/-- Commands that make no mark leave the loads as they are. -/
theorem sameLoads_note {c : Cmd} (hc : c.marks = false) (ledger : Ledger) (r : c.Resp) :
    SameLoads ledger (ledger.note ⟨c, r⟩) := by
  cases c with
  | loadModel runtimeId model => cases hc
  | updateState id state error => cases hc
  | record event => cases event <;> exact ⟨rfl, rfl, rfl⟩
  | _ => exact ⟨rfl, rfl, rfl⟩

theorem SameLoads.calls_eq {ledger after : Ledger} (h : SameLoads ledger after) :
    after.calls = ledger.calls := by
  rw [calls, h.planned, h.staged, h.loading, calls]

/-- An event enters the call that it is, and no other. -/
theorem calls_note (ledger : Ledger) (e : Program.Event Cmd.Resp) :
    (ledger.note e).calls.Perm (ledger.calls ++ (loadCall e).toList) := by
  obtain ⟨c, r⟩ := e
  by_cases hc : c.marks = true
  · cases c with
    | loadModel runtimeId model =>
        rw [note]
        cases hwalking : ledger.walking with
        | none =>
            simp only [calls, loadCall, Option.toList_some, List.append_assoc]
            exact .refl _
        | some decisionId =>
            simp only [calls, loadCall, Option.toList_some, List.map_append, List.append_assoc]
            refine List.Perm.append_left _ ?_
            rw [← List.append_assoc (ledger.staged.map Prod.snd)]
            exact List.perm_append_comm
    | updateState intentId newState error =>
        have hmap : (ledger.loading.map fun load => (intentId, load)).map Prod.snd =
            ledger.loading := by
          rw [List.map_map]
          exact List.map_id ledger.loading
        simp only [calls, note, loadCall, Option.toList_none, List.map_append, List.append_nil,
          hmap, List.append_assoc]
        exact .refl _
    | _ => cases hc
  · rw [Bool.not_eq_true] at hc
    have hnone : loadCall ⟨c, r⟩ = none := by
      cases c with
      | loadModel runtimeId model => cases hc
      | _ => rfl
    rw [hnone, Option.toList_none, List.append_nil, (sameLoads_note hc ledger r).calls_eq]

/-- The ledger loses no call. -/
theorem calls_foldl_note (ledger : Ledger) (trace : History) :
    (trace.foldl note ledger).calls.Perm (ledger.calls ++ trace.filterMap loadCall) := by
  induction trace generalizing ledger with
  | nil =>
      rw [List.foldl_nil, List.filterMap_nil, List.append_nil]
  | cons e trace ih =>
      have hcons : (e :: trace).filterMap loadCall =
          (loadCall e).toList ++ trace.filterMap loadCall := by
        rw [List.filterMap_cons]
        cases loadCall e <;> rfl
      rw [List.foldl_cons, hcons, ← List.append_assoc]
      exact (ih (ledger.note e)).trans ((calls_note ledger e).append_right _)

end Ledger

/-- What a program does to the loads. -/
abbrev Loads {α : Type} (post : α → Ledger → Prop) (ledger : Ledger) (p : Daemon α) : Prop :=
  Program.Follows Ledger.note (fun _ _ => True) (fun _ _ => True) post ledger p

section Threads

variable {α : Type} {p : Daemon α}

theorem loads_of_respects
    (hp : Program.Respects (fun _ _ => True) (fun c => c.marks = false) p) (ledger : Ledger) :
    Loads (fun _ after => ledger.SameLoads after) ledger p := by
  induction p generalizing ledger with
  | pure a => exact ⟨rfl, rfl, rfl⟩
  | call c k ih =>
      refine ⟨trivial, fun r _ => ?_⟩
      have hnote := Ledger.sameLoads_note hp.1 ledger r
      exact (ih r (hp.2 r trivial) (ledger.note ⟨c, r⟩)).mono fun _ _ h => hnote.trans h

theorem loads_of_within {areas : List Area} (hp : Within areas p)
    (hloading : Area.loading ∉ areas) (hstaging : Area.staging ∉ areas) (ledger : Ledger) :
    Loads (fun _ after => ledger.SameLoads after) ledger p :=
  loads_of_respects (Program.Ensures.mono hp (fun c hc =>
    c.marks_of_area (fun he => hloading (he ▸ hc)) fun he => hstaging (he ▸ hc)) fun _ h => h)
    ledger

end Threads

/-! ### What stays of an intent -/

/-- The intent has the same ids, model and target, and is pending only if it was. -/
structure SameStage (intent after : StagingIntent) : Prop where
  id : after.id = intent.id
  decisionId : after.decisionId = intent.decisionId
  backgroundModel : after.backgroundModel = intent.backgroundModel
  targetRuntime : after.targetRuntime = intent.targetRuntime
  pending : after.state = .pending → intent.state = .pending

namespace SameStage

theorem refl (intent : StagingIntent) : SameStage intent intent :=
  ⟨rfl, rfl, rfl, rfl, fun h => h⟩

theorem trans {a b c : StagingIntent} (h : SameStage a b) (h' : SameStage b c) : SameStage a c :=
  ⟨h'.id.trans h.id, h'.decisionId.trans h.decisionId,
    h'.backgroundModel.trans h.backgroundModel, h'.targetRuntime.trans h.targetRuntime,
    fun hc => h.pending (h'.pending hc)⟩

end SameStage

/-- The queues have the same intents, at most fewer of them pending. -/
abbrev SameStages (queue after : List StagingIntent) : Prop :=
  List.Forall₂ SameStage queue after

theorem SameStages.refl (queue : List StagingIntent) : SameStages queue queue :=
  List.forall₂_same.mpr fun intent _ => .refl intent

theorem SameStages.trans {a b c : List StagingIntent} (h : SameStages a b)
    (h' : SameStages b c) : SameStages a c :=
  forall₂_trans h h' fun _ _ _ => SameStage.trans

theorem SameStages.map_id {queue after : List StagingIntent} (h : SameStages queue after) :
    after.map StagingIntent.id = queue.map StagingIntent.id := by
  rw [← List.forall₂_eq_eq_eq, List.forall₂_map_left_iff, List.forall₂_map_right_iff]
  exact h.flip.imp fun _ _ hsame => hsame.id

section Commands

variable (codec : Codec) (env : ℕ → Surroundings)

/-- A command that queues no intent and stores no outcome changes no more. -/
theorem sameStages_handle {c : Cmd} (hc : c.area ≠ .enqueueing) (hstores : c.stores = false)
    (w : World) :
    SameStages w.stagingWorker.queue (handle codec env w c).2.stagingWorker.queue := by
  cases c with
  | enqueue intent => exact absurd rfl hc
  | commitEvictionContext drainingModels =>
      refine (StagingWorker.forall₂_commitAll drainingModels (env w.clock).now
        w.escalationContext w.stagingWorker.queue).imp ?_
      rintro intent after (rfl | ⟨payload, -, -, rfl⟩)
      · exact .refl after
      · exact ⟨rfl, rfl, rfl, rfl, fun h => h⟩
  | takeContextRef model =>
      refine forall₂_updateFirst SameStage.refl (fun intent _ => ?_) _
      exact ⟨rfl, rfl, rfl, rfl, fun h => h⟩
  | updateState intentId newState error => cases hstores
  | noteTick intentId skipReason =>
      refine forall₂_updateFirst SameStage.refl (fun intent _ => ?_) _
      exact ⟨rfl, rfl, rfl, rfl, fun h => h⟩
  | reconcileReady readyModels =>
      refine List.forall₂_map_right_iff.mpr (List.forall₂_same.mpr fun intent _ => ?_)
      split
      · exact ⟨rfl, rfl, rfl, rfl, fun h => by cases h⟩
      · exact .refl intent
  | _ => exact .refl _

theorem sameStages_run {α : Type} {p : Daemon α}
    (hp : Program.Respects (fun _ _ => True)
      (fun c => c.area ≠ .enqueueing ∧ c.stores = false) p) (w : World) :
    SameStages w.stagingWorker.queue (p.run (handle codec env) w).state.stagingWorker.queue := by
  have htriple := Program.triple_of_ensures (h := handle codec env)
    (P := fun _ s => SameStages w.stagingWorker.queue s.stagingWorker.queue) hp
    (fun _ _ => trivial)
    fun _ s c hc hs => hs.trans (sameStages_handle codec env hc.1 hc.2 s)
  exact htriple [] w (.refl _)

theorem sameStages_within {α : Type} {p : Daemon α} {areas : List Area} (hp : Within areas p)
    (henqueueing : Area.enqueueing ∉ areas) (hstaging : Area.staging ∉ areas) (w : World) :
    SameStages w.stagingWorker.queue (p.run (handle codec env) w).state.stagingWorker.queue :=
  sameStages_run codec env (Program.Ensures.mono hp (fun c hc =>
    ⟨fun he => henqueueing (he ▸ hc), c.stores_of_area fun he => hstaging (he ▸ hc)⟩)
    fun _ h => h) w

theorem sameLoads_run {α : Type} {p : Daemon α}
    (hp : Program.Respects (fun _ _ => True) (fun c => c.marks = false) p) (w : World)
    (ledger : Ledger) :
    ledger.SameLoads ((p.run (handle codec env) w).trace.foldl Ledger.note ledger) :=
  (loads_of_respects hp ledger).post_run (fun _ _ => trivial) w

theorem sameLoads_within {α : Type} {p : Daemon α} {areas : List Area} (hp : Within areas p)
    (hloading : Area.loading ∉ areas) (hstaging : Area.staging ∉ areas) (w : World)
    (ledger : Ledger) :
    ledger.SameLoads ((p.run (handle codec env) w).trace.foldl Ledger.note ledger) :=
  (loads_of_within hp hloading hstaging ledger).post_run (fun _ _ => trivial) w

end Commands

/-! ### One load for an intent -/

/-- What holds between two calls of a run, and at each intent of a loop over the queue. -/
structure LoadsOnce (env : ℕ → Surroundings) (ledger : Ledger) (w : World) : Prop where
  loading : ledger.loading = []
  unique : (w.stagingWorker.queue.map StagingIntent.id).Nodup
  queued : ∀ intent ∈ w.stagingWorker.queue, IssuedIn env 0 w.clock intent.id ∧
    IssuedIn env 0 w.clock intent.decisionId
  plannedOnce : ledger.plannedIds.Nodup
  planned : ∀ id runtimeId model, (id, runtimeId, model) ∈ ledger.planned →
    IssuedIn env 0 w.clock id ∧ ∀ intent ∈ w.stagingWorker.queue, intent.decisionId = id →
      runtimeId = intent.targetRuntime.text ∧ model = intent.backgroundModel
  stagedOnce : (ledger.staged.map Prod.fst).Nodup
  staged : ∀ id runtimeId model, (id, runtimeId, model) ∈ ledger.staged →
    IssuedIn env 0 w.clock id ∧ ∀ intent ∈ w.stagingWorker.queue, intent.id = id →
      runtimeId = intent.targetRuntime.text ∧ model = intent.backgroundModel ∧
        intent.state ≠ .pending ∧ intent.decisionId ∉ ledger.plannedIds

theorem length_filter_key_le_one {α β : Type} [DecidableEq α] {l : List (α × β)}
    (h : (l.map Prod.fst).Nodup) (a : α) : (l.filter fun e => e.1 = a).length ≤ 1 := by
  have hcount := List.nodup_iff_count_le_one.mp h a
  rw [List.count_eq_countP, List.countP_map, List.countP_eq_length_filter] at hcount
  exact hcount

namespace LoadsOnce

variable {env : ℕ → Surroundings} {ledger ledger' : Ledger} {w w' : World}

theorem start (governance : Governance) (disk : Disk) :
    LoadsOnce env {} (World.start governance disk) where
  loading := rfl
  unique := List.nodup_nil
  queued := List.forall_mem_nil _
  plannedOnce := List.nodup_nil
  planned := by
    rintro id runtimeId model h
    cases h
  stagedOnce := List.nodup_nil
  staged := by
    rintro id runtimeId model h
    cases h

/-- An intent has one load at most, on its own target. -/
theorem loadsFor (h : LoadsOnce env ledger w) {intent : StagingIntent}
    (hintent : intent ∈ w.stagingWorker.queue) :
    (ledger.loadsFor intent).length ≤ 1 ∧ ∀ load ∈ ledger.loadsFor intent,
      load = (intent.targetRuntime.text, intent.backgroundModel) := by
  have hplanned := length_filter_key_le_one h.plannedOnce intent.decisionId
  have hstaged := length_filter_key_le_one h.stagedOnce intent.id
  constructor
  · rw [Ledger.loadsFor, List.length_map, List.length_append]
    cases hload : ledger.staged.filter fun load => load.1 = intent.id with
    | nil => exact hplanned
    | cons load rest =>
        -- then its decision's plan made none
        have hmem : load ∈ ledger.staged.filter fun load => load.1 = intent.id := by
          rw [hload]
          exact List.mem_cons_self
        obtain ⟨hmem, hid⟩ := List.mem_filter.mp hmem
        obtain ⟨-, -, -, hnone⟩ :=
          (h.staged load.1 load.2.1 load.2.2 hmem).2 intent hintent (of_decide_eq_true hid).symm
        have hempty : (ledger.planned.filter fun load => load.1 = intent.decisionId) = [] := by
          rw [List.filter_eq_nil_iff]
          intro plan hplan heq
          exact hnone (of_decide_eq_true heq ▸ List.mem_map_of_mem hplan)
        rw [hempty, ← hload, List.length_nil, Nat.zero_add]
        exact hstaged
  · intro load hmem
    obtain ⟨⟨id, runtimeId, model⟩, hentry, rfl⟩ := List.mem_map.mp hmem
    rcases List.mem_append.mp hentry with hmem | hmem
    · obtain ⟨hmem, hid⟩ := List.mem_filter.mp hmem
      obtain ⟨rfl, rfl⟩ :=
        (h.planned id runtimeId model hmem).2 intent hintent (of_decide_eq_true hid).symm
      rfl
    · obtain ⟨hmem, hid⟩ := List.mem_filter.mp hmem
      obtain ⟨rfl, rfl, -⟩ :=
        (h.staged id runtimeId model hmem).2 intent hintent (of_decide_eq_true hid).symm
      rfl

/-- A new intent is queued. -/
theorem queue (h : LoadsOnce env ledger w) (hclock : w.clock ≤ w'.clock)
    (hfresh : NewIds env w'.clock) (hledger : ledger.SameLoads ledger') {intent : StagingIntent}
    (hid : IssuedIn env w.clock w'.clock intent.id)
    (hdecision : IssuedIn env w.clock w'.clock intent.decisionId)
    (hqueue : w'.stagingWorker.queue = w.stagingWorker.queue ++ [intent]) :
    LoadsOnce env ledger' w' := by
  have hids : ledger'.plannedIds = ledger.plannedIds := by
    rw [Ledger.plannedIds, hledger.planned, Ledger.plannedIds]
  refine ⟨hledger.loading.trans h.loading, ?_, ?_, ?_, ?_, ?_, ?_⟩
  · rw [hqueue, List.map_append]
    refine h.unique.append (List.nodup_singleton _) (List.disjoint_singleton.mpr ?_)
    intro hmem
    obtain ⟨old, hold, heq⟩ := List.mem_map.mp hmem
    exact (h.queued old hold).1.ne hid hfresh heq
  · rw [hqueue]
    intro i hi
    rcases List.mem_append.mp hi with hi | hi
    · obtain ⟨hi, hi'⟩ := h.queued i hi
      exact ⟨hi.mono le_rfl hclock, hi'.mono le_rfl hclock⟩
    · rw [List.mem_singleton.mp hi]
      exact ⟨hid.mono (Nat.zero_le _) le_rfl, hdecision.mono (Nat.zero_le _) le_rfl⟩
  · rw [hids]
    exact h.plannedOnce
  · intro id runtimeId model hmem
    rw [hledger.planned] at hmem
    obtain ⟨hissued, hright⟩ := h.planned id runtimeId model hmem
    refine ⟨hissued.mono le_rfl hclock, ?_⟩
    rw [hqueue]
    intro i hi heq
    rcases List.mem_append.mp hi with hi | hi
    · exact hright i hi heq
    · rw [List.mem_singleton.mp hi] at heq
      exact absurd heq.symm (hissued.ne hdecision hfresh)
  · rw [hledger.staged]
    exact h.stagedOnce
  · intro id runtimeId model hmem
    rw [hledger.staged] at hmem
    obtain ⟨hissued, hright⟩ := h.staged id runtimeId model hmem
    refine ⟨hissued.mono le_rfl hclock, ?_⟩
    rw [hqueue, hids]
    intro i hi heq
    rcases List.mem_append.mp hi with hi | hi
    · exact hright i hi heq
    · rw [List.mem_singleton.mp hi] at heq
      exact absurd heq.symm (hissued.ne hid hfresh)

/-- An action plan makes a load, for a decision whose intents have none yet. -/
theorem plan (h : LoadsOnce env ledger w) {id : Uuid} {runtimeId : String} {model : ModelId}
    (hplanned : ledger'.planned = ledger.planned ++ [(id, runtimeId, model)])
    (hstaged : ledger'.staged = ledger.staged) (hloading : ledger'.loading = ledger.loading)
    (hissued : IssuedIn env 0 w.clock id) (hnew : id ∉ ledger.plannedIds)
    (hintents : ∀ intent ∈ w.stagingWorker.queue, intent.decisionId = id →
      runtimeId = intent.targetRuntime.text ∧ model = intent.backgroundModel ∧
        intent.id ∉ ledger.staged.map Prod.fst) : LoadsOnce env ledger' w := by
  have hids : ledger'.plannedIds = ledger.plannedIds ++ [id] := by
    rw [Ledger.plannedIds, hplanned, List.map_append, Ledger.plannedIds]
    rfl
  refine ⟨hloading.trans h.loading, h.unique, h.queued, ?_, ?_, ?_, ?_⟩
  · rw [hids]
    exact h.plannedOnce.append (List.nodup_singleton _) (List.disjoint_singleton.mpr hnew)
  · intro id' runtimeId' model' hmem
    rw [hplanned] at hmem
    rcases List.mem_append.mp hmem with hmem | hmem
    · exact h.planned id' runtimeId' model' hmem
    · cases List.mem_singleton.mp hmem
      refine ⟨hissued, fun intent hintent hdecision => ?_⟩
      obtain ⟨hruntime, hmodel, -⟩ := hintents intent hintent hdecision
      exact ⟨hruntime, hmodel⟩
  · rw [hstaged]
    exact h.stagedOnce
  · intro id' runtimeId' model' hmem
    rw [hstaged] at hmem
    obtain ⟨hissued', hright⟩ := h.staged id' runtimeId' model' hmem
    refine ⟨hissued', fun intent hintent heq => ?_⟩
    obtain ⟨hruntime, hmodel, hstate, hunplanned⟩ := hright intent hintent heq
    refine ⟨hruntime, hmodel, hstate, ?_⟩
    rw [hids]
    refine List.not_mem_append hunplanned fun hmem' => ?_
    obtain ⟨-, -, hunstaged⟩ := hintents intent hintent (List.mem_singleton.mp hmem')
    exact hunstaged (heq ▸ List.mem_map_of_mem hmem)

theorem nodup_getPending (h : LoadsOnce env ledger w) :
    (w.stagingWorker.getPending.map StagingIntent.id).Nodup :=
  h.unique.sublist (List.filter_sublist.map _)

/-- The queue may lose pending intents while no load is made. -/
theorem of_same (h : LoadsOnce env ledger w) (hclock : w.clock ≤ w'.clock)
    (hqueue : SameStages w.stagingWorker.queue w'.stagingWorker.queue)
    (hledger : ledger.SameLoads ledger') : LoadsOnce env ledger' w' := by
  have hids : ledger'.plannedIds = ledger.plannedIds := by
    rw [Ledger.plannedIds, hledger.planned, Ledger.plannedIds]
  refine ⟨hledger.loading.trans h.loading, ?_, ?_, ?_, ?_, ?_, ?_⟩
  · rw [hqueue.map_id]
    exact h.unique
  · intro after hafter
    obtain ⟨intent, hintent, hsame⟩ := exists_of_mem_forall₂ hqueue hafter
    rw [hsame.id, hsame.decisionId]
    obtain ⟨hid, hdecision⟩ := h.queued intent hintent
    exact ⟨hid.mono le_rfl hclock, hdecision.mono le_rfl hclock⟩
  · rw [hids]
    exact h.plannedOnce
  · intro id runtimeId model hmem
    rw [hledger.planned] at hmem
    obtain ⟨hid, hright⟩ := h.planned id runtimeId model hmem
    refine ⟨hid.mono le_rfl hclock, fun after hafter hdecision => ?_⟩
    obtain ⟨intent, hintent, hsame⟩ := exists_of_mem_forall₂ hqueue hafter
    rw [hsame.targetRuntime, hsame.backgroundModel]
    exact hright intent hintent (hsame.decisionId.symm.trans hdecision)
  · rw [hledger.staged]
    exact h.stagedOnce
  · intro id runtimeId model hmem
    rw [hledger.staged] at hmem
    obtain ⟨hid, hright⟩ := h.staged id runtimeId model hmem
    refine ⟨hid.mono le_rfl hclock, fun after hafter hdone => ?_⟩
    obtain ⟨intent, hintent, hsame⟩ := exists_of_mem_forall₂ hqueue hafter
    obtain ⟨hruntime, hmodel, hstate, hplanned⟩ :=
      hright intent hintent (hsame.id.symm.trans hdone)
    rw [hsame.targetRuntime, hsame.backgroundModel, hsame.decisionId, hids]
    exact ⟨hruntime, hmodel, fun hpending => hstate (hsame.pending hpending), hplanned⟩

/-- A load is made for a pending intent, on its target, and the outcome is stored. -/
theorem stage (h : LoadsOnce env ledger w) {intent : StagingIntent}
    (hintent : intent ∈ w.stagingWorker.queue) (hpending : intent.state = .pending)
    (hunplanned : intent.decisionId ∉ ledger.plannedIds) (hclock : w.clock ≤ w'.clock)
    (hqueue : SameStages w.stagingWorker.queue w'.stagingWorker.queue)
    (hdone : ∀ after ∈ w'.stagingWorker.queue, after.id = intent.id → after.state ≠ .pending)
    (hplanned : ledger'.planned = ledger.planned) (hloading : ledger'.loading = [])
    (hstaged : ledger'.staged =
      ledger.staged ++ [(intent.id, intent.targetRuntime.text, intent.backgroundModel)]) :
    LoadsOnce env ledger' w' := by
  have hsame : ledger.SameLoads { ledger' with staged := ledger.staged } :=
    ⟨hplanned, rfl, hloading.trans h.loading.symm⟩
  have hbase := h.of_same hclock hqueue hsame
  have hids : ledger'.plannedIds = ledger.plannedIds := by
    rw [Ledger.plannedIds, hplanned, Ledger.plannedIds]
  refine ⟨hloading, hbase.unique, hbase.queued, hbase.plannedOnce, hbase.planned, ?_, ?_⟩
  · rw [hstaged, List.map_append]
    refine h.stagedOnce.append (List.nodup_singleton _) (List.disjoint_singleton.mpr ?_)
    intro hmem
    obtain ⟨⟨id, runtimeId, model⟩, hload, hid⟩ := List.mem_map.mp hmem
    obtain ⟨-, -, hstate, -⟩ := (h.staged id runtimeId model hload).2 intent hintent hid.symm
    exact hstate hpending
  · intro id runtimeId model hmem
    rw [hstaged] at hmem
    rcases List.mem_append.mp hmem with hmem | hmem
    · exact hbase.staged id runtimeId model hmem
    · cases List.mem_singleton.mp hmem
      refine ⟨(h.queued intent hintent).1.mono le_rfl hclock, fun after hafter hid => ?_⟩
      obtain ⟨intent', hintent', hsame'⟩ := exists_of_mem_forall₂ hqueue hafter
      obtain rfl := List.inj_on_of_nodup_map h.unique hintent' hintent
        (hsame'.id.symm.trans hid)
      rw [hsame'.targetRuntime, hsame'.backgroundModel, hsame'.decisionId, hids]
      exact ⟨rfl, rfl, hdone after hafter hid, hunplanned⟩

end LoadsOnce

/-! ### One intent of a loop -/

section Updates

variable {p : StagingIntent → Bool} {f : StagingIntent → StagingIntent}

theorem mem_updateFirst_of_not {l : List StagingIntent} {a : StagingIntent} (h : a ∈ l)
    (ha : p a = false) : a ∈ updateFirst p f l := by
  induction l with
  | nil => cases h
  | cons b l ih =>
      rw [updateFirst]
      split
      next hb =>
        rcases List.mem_cons.mp h with rfl | h
        · rw [ha] at hb
          cases hb
        · exact List.mem_cons_of_mem _ h
      next =>
        rcases List.mem_cons.mp h with rfl | h
        · exact List.mem_cons_self
        · exact List.mem_cons_of_mem _ (ih h)

/-- The intent that has the id afterwards is the one that was changed. -/
theorem exists_of_mem_updateFirst {l : List StagingIntent} {id : Uuid} {after : StagingIntent}
    (hunique : (l.map StagingIntent.id).Nodup)
    (h : after ∈ updateFirst (fun i => i.id = id) f l) (hid : after.id = id) :
    ∃ intent ∈ l, after = f intent := by
  induction l with
  | nil => cases h
  | cons b l ih =>
      rw [List.map_cons, List.nodup_cons] at hunique
      rw [updateFirst] at h
      split at h
      next hb =>
        rcases List.mem_cons.mp h with rfl | h
        · exact ⟨b, List.mem_cons_self, rfl⟩
        · have hb' : b.id = id := of_decide_eq_true hb
          exact absurd (hb'.trans hid.symm ▸ List.mem_map_of_mem h) hunique.1
      next hb =>
        rcases List.mem_cons.mp h with rfl | h
        · exact absurd (decide_eq_true hid) hb
        · obtain ⟨intent, hintent, heq⟩ := ih hunique.2 h
          exact ⟨intent, List.mem_cons_of_mem b hintent, heq⟩

end Updates

/-- What a loop does with one of its intents: it stores nothing and makes no load, or it
makes one, which happens only if it `can`, and stores the outcome. -/
structure Passed (intent : StagingIntent) (w w' : World) (ledger' : Ledger) : Prop where
  clock : w.clock ≤ w'.clock
  same : SameStages w.stagingWorker.queue w'.stagingWorker.queue
  others : ∀ other ∈ w.stagingWorker.queue, other.id ≠ intent.id →
    other ∈ w'.stagingWorker.queue
  walking : ledger'.walking = none
  loading : ledger'.loading = []

inductive Handled (intent : StagingIntent) (runtimeId : String) (can : Prop) (w w' : World)
    (ledger ledger' : Ledger) : Prop where
  | skipped (passed : Passed intent w w' ledger') (loads : ledger.SameLoads ledger')
  | loaded (passed : Passed intent w w' ledger') (allowed : can)
      (planned : ledger'.planned = ledger.planned)
      (staged : ledger'.staged = ledger.staged ++ [(intent.id, runtimeId, intent.backgroundModel)])
      (done : (w.stagingWorker.queue.map StagingIntent.id).Nodup →
        ∀ after ∈ w'.stagingWorker.queue, after.id = intent.id → after.state ≠ .pending)

section Loops

variable (codec : Codec) (env : ℕ → Surroundings)

theorem handled_loadIntent (runtimeId : String) (intent : StagingIntent) (w : World)
    {ledger : Ledger} (hwalking : ledger.walking = none) (hloading : ledger.loading = []) :
    Handled intent runtimeId True w
      ((loadIntent runtimeId intent).run (handle codec env) w).state ledger
      (((loadIntent runtimeId intent).run (handle codec env) w).trace.foldl Ledger.note
        ledger) := by
  have hqueue : ∃ change : StagingIntent → StagingIntent,
      (∀ i, SameStage i (change i) ∧ (change i).state ≠ .pending) ∧
      ((loadIntent runtimeId intent).run (handle codec env) w).state.stagingWorker.queue =
        updateFirst (fun i => i.id = intent.id) change w.stagingWorker.queue ∧
      ∃ answer state error, ((loadIntent runtimeId intent).run (handle codec env) w).trace =
        [⟨.loadModel runtimeId intent.backgroundModel, answer⟩,
          ⟨.updateState intent.id state error, ()⟩] := by
    have hanswer : (handle codec env w (.loadModel runtimeId intent.backgroundModel)).1 =
        (env w.clock).loadModel runtimeId intent.backgroundModel := rfl
    rw [loadIntent, Daemon.loadModel, Program.perform_bind, Program.run_call, hanswer]
    cases (env w.clock).loadModel runtimeId intent.backgroundModel with
    | ok handle =>
        exact ⟨StagingIntent.markCompleted, fun i => ⟨⟨rfl, rfl, rfl, rfl, by rintro ⟨⟩⟩,
          by rintro ⟨⟩⟩, rfl, _, _, _, rfl⟩
    | error e =>
        exact ⟨fun i => i.markFailed e, fun i => ⟨⟨rfl, rfl, rfl, rfl, by rintro ⟨⟩⟩,
          by rintro ⟨⟩⟩, rfl, _, _, _, rfl⟩
  obtain ⟨change, hchange, hqueue, answer, stored, error, htrace⟩ := hqueue
  have hledger : ((loadIntent runtimeId intent).run (handle codec env) w).trace.foldl Ledger.note
      ledger = { ledger with
        loading := []
        staged := ledger.staged ++ [(intent.id, runtimeId, intent.backgroundModel)] } := by
    rw [htrace]
    simp only [List.foldl_cons, List.foldl_nil, Ledger.note, hwalking, hloading,
      List.nil_append, List.map_cons, List.map_nil]
  have hsame : SameStages w.stagingWorker.queue
      ((loadIntent runtimeId intent).run (handle codec env) w).state.stagingWorker.queue := by
    rw [hqueue]
    exact forall₂_updateFirst SameStage.refl (fun i _ => (hchange i).1) _
  rw [hledger]
  refine .loaded ⟨le_clock_run codec env _ w, hsame, ?_, hwalking, rfl⟩ trivial rfl rfl ?_
  · intro other hother hne
    rw [hqueue]
    exact mem_updateFirst_of_not hother (decide_eq_false hne)
  · intro hunique after hafter hid
    rw [hqueue] at hafter
    obtain ⟨i, -, rfl⟩ := exists_of_mem_updateFirst hunique hafter hid
    exact (hchange i).2

/-- The load of an intent may be made during the given commands: its runtime is known, and
it is a mock or the gate is open at one of them. -/
def AppState.CanLoad (state : AppState) (start finish : ℕ) (intent : StagingIntent) : Prop :=
  state.runtimes.lookup intent.targetRuntime.text ≠ none ∧
    (state.isMockRuntime intent.targetRuntime.text = true ∨
      ∃ n, start ≤ n ∧ n < finish ∧ (env n).liveExecutionEnabled = true)

theorem AppState.CanLoad.mono {env : ℕ → Surroundings} {state : AppState}
    {start finish start' finish' : ℕ} {intent : StagingIntent}
    (h : state.CanLoad env start finish intent) (hstart : start' ≤ start)
    (hfinish : finish ≤ finish') : state.CanLoad env start' finish' intent := by
  refine ⟨h.1, h.2.imp_right ?_⟩
  rintro ⟨n, hn, hn', hlive⟩
  exact ⟨n, hstart.trans hn, hn'.trans_le hfinish, hlive⟩

/-- A note on an intent changes nothing that matters here. -/
theorem passed_noteTick (intent : StagingIntent) (reason : Option String) (w : World)
    {ledger : Ledger} (hloading : ledger.loading = []) :
    Passed intent w (handle codec env w (.noteTick intent.id reason)).2
      (ledger.note ⟨.noteTick intent.id reason, ()⟩) where
  clock := Nat.le_succ _
  same := by
    refine forall₂_updateFirst SameStage.refl (fun i _ => ?_) _
    exact ⟨rfl, rfl, rfl, rfl, fun h => h⟩
  others other hother hne := mem_updateFirst_of_not hother (decide_eq_false hne)
  walking := rfl
  loading := hloading

theorem Handled.imp {intent : StagingIntent} {runtimeId : String} {can can' : Prop}
    {w w' : World} {ledger ledger' : Ledger} (h : Handled intent runtimeId can w w' ledger ledger')
    (hcan : can → can') : Handled intent runtimeId can' w w' ledger ledger' := by
  cases h with
  | skipped hp hl => exact .skipped hp hl
  | loaded hp hallowed hplanned hstaged hdone =>
      exact .loaded hp (hcan hallowed) hplanned hstaged hdone

theorem Handled.after {intent : StagingIntent} {runtimeId : String} {can can' : Prop}
    {w w' w'' : World} {ledger ledger' ledger'' : Ledger} (hpassed : Passed intent w w' ledger')
    (hloads : ledger.SameLoads ledger')
    (h : Handled intent runtimeId can w' w'' ledger' ledger'') (hcan : can → can') :
    Handled intent runtimeId can' w w'' ledger ledger'' := by
  have htrans : ∀ {l : Ledger}, Passed intent w' w'' l → Passed intent w w'' l := by
    intro l hp
    exact ⟨hpassed.clock.trans hp.clock, hpassed.same.trans hp.same,
      fun other hother hne => hp.others other (hpassed.others other hother hne) hne, hp.walking,
      hp.loading⟩
  cases h with
  | skipped hp hl =>
      exact .skipped (htrans hp) (hloads.trans hl)
  | loaded hp hallowed hplanned hstaged hdone =>
      refine .loaded (htrans hp) (hcan hallowed) (hplanned.trans hloads.planned) ?_ ?_
      · rw [hstaged, hloads.staged]
      · intro hunique
        exact hdone (hpassed.same.map_id.symm ▸ hunique)

/-- The part of a tick that follows an open gate. -/
theorem handled_noteAndLoad (state : AppState) (intent : StagingIntent) (w : World)
    {ledger : Ledger} (hloading : ledger.loading = []) {p : Daemon Unit}
    (hp : p = do
      Daemon.noteTick intent.id none
      match state.runtimes.lookup intent.targetRuntime.text with
      | none => return
      | some _ => loadIntent intent.targetRuntime.text intent) :
    Handled intent intent.targetRuntime.text
      (state.runtimes.lookup intent.targetRuntime.text ≠ none) w
      (p.run (handle codec env) w).state ledger
      ((p.run (handle codec env) w).trace.foldl Ledger.note ledger) := by
  have hnote := passed_noteTick codec env intent none w hloading
  have hloads : ledger.SameLoads (ledger.note ⟨.noteTick intent.id none, ()⟩) := ⟨rfl, rfl, rfl⟩
  rw [hp, Daemon.noteTick, Program.perform_bind, Program.run_call, List.foldl_cons]
  cases hlookup : state.runtimes.lookup intent.targetRuntime.text with
  | none => exact .skipped hnote hloads
  | some adapter =>
      have hload := handled_loadIntent codec env intent.targetRuntime.text intent
        (handle codec env w (.noteTick intent.id none)).2 hnote.walking hnote.loading
      exact hload.after hnote hloads fun _ => Option.some_ne_none adapter

theorem handled_stageIntent (state : AppState) (intent : StagingIntent) (w : World)
    {ledger : Ledger} (hloading : ledger.loading = []) :
    let out := (state.stageIntent intent).run (handle codec env) w
    Handled intent intent.targetRuntime.text (state.CanLoad env w.clock out.state.clock intent)
      w out.state ledger (out.trace.foldl Ledger.note ledger) := by
  intro out
  by_cases hmock : state.isMockRuntime intent.targetRuntime.text = true
  · have hopen := handled_noteAndLoad codec env state intent w hloading
      (p := state.stageIntent intent)
      (by rw [AppState.stageIntent, mutationAllowed, hmock]; rfl)
    exact hopen.imp fun hlookup => ⟨hlookup, Or.inl hmock⟩
  · have hasked : Passed intent w (handle codec env w .liveExecutionEnabled).2
        (ledger.note ⟨.liveExecutionEnabled, (handle codec env w .liveExecutionEnabled).1⟩) :=
      ⟨Nat.le_succ _, .refl _, fun _ hother _ => hother, rfl, hloading⟩
    have hloads : ledger.SameLoads
        (ledger.note ⟨.liveExecutionEnabled, (handle codec env w .liveExecutionEnabled).1⟩) :=
      ⟨rfl, rfl, rfl⟩
    simp only [out, AppState.stageIntent, mutationAllowed, if_neg hmock,
      Daemon.liveExecutionEnabled, Program.perform_bind, Program.run_call, List.foldl_cons]
    have hanswer : (handle codec env w .liveExecutionEnabled).1 =
        (env w.clock).liveExecutionEnabled := rfl
    cases hlive : (handle codec env w .liveExecutionEnabled).1 with
    | false =>
        rw [hlive] at hasked hloads
        rw [if_neg Bool.false_ne_true]
        exact Handled.after hasked hloads
          (.skipped (passed_noteTick codec env intent _ _ hasked.loading) ⟨rfl, rfl, rfl⟩)
          fun h => h
    | true =>
        rw [hlive] at hasked hloads
        rw [if_pos rfl]
        have hopen := handled_noteAndLoad codec env state intent
          (handle codec env w .liveExecutionEnabled).2 hasked.loading rfl
        refine hopen.after hasked hloads fun hlookup =>
          ⟨hlookup, Or.inr ⟨w.clock, le_rfl, ?_, hanswer.symm.trans hlive⟩⟩
        exact Nat.lt_of_succ_le
          (le_clock_run codec env _ (handle codec env w .liveExecutionEnabled).2)

/-- A loop over pending intents, where what can be loaded is loaded on its target and was
not loaded by an action plan. -/
theorem loadsOnce_forM {f : StagingIntent → Daemon Unit} {runtimeOf : StagingIntent → String}
    {C : ℕ → ℕ → StagingIntent → Prop} {start finish : ℕ}
    (hf : ∀ intent w ledger, ledger.walking = none → ledger.loading = [] →
      Handled intent (runtimeOf intent)
        (C w.clock ((f intent).run (handle codec env) w).state.clock intent) w
        ((f intent).run (handle codec env) w).state ledger
        (((f intent).run (handle codec env) w).trace.foldl Ledger.note ledger))
    {intents : List StagingIntent} {w : World} {ledger : Ledger}
    (h : LoadsOnce env ledger w) (hwalking : ledger.walking = none)
    (hpending : ∀ intent ∈ intents, intent ∈ w.stagingWorker.queue ∧ intent.state = .pending)
    (hnodup : (intents.map StagingIntent.id).Nodup)
    (hcan : ∀ intent ∈ intents, ∀ s e, start ≤ s → e ≤ finish → C s e intent →
      runtimeOf intent = intent.targetRuntime.text ∧ intent.decisionId ∉ ledger.plannedIds)
    (hstart : start ≤ w.clock)
    (hfinish : ((intents.forM f).run (handle codec env) w).state.clock ≤ finish) :
    LoadsOnce env (((intents.forM f).run (handle codec env) w).trace.foldl Ledger.note ledger)
      ((intents.forM f).run (handle codec env) w).state := by
  induction intents generalizing w ledger with
  | nil => exact h
  | cons intent rest ih =>
      rw [List.map_cons, List.nodup_cons] at hnodup
      rw [List.forall_mem_cons] at hpending hcan
      have hcons : (intent :: rest).forM f = f intent >>= fun _ => rest.forM f := rfl
      rw [hcons, Program.state_bind] at hfinish
      rw [hcons, Program.state_bind, Program.trace_bind, List.foldl_append]
      have hone := hf intent w ledger hwalking h.loading
      have hlater := le_clock_run codec env (rest.forM f)
        ((f intent).run (handle codec env) w).state
      generalize ((f intent).run (handle codec env) w).trace.foldl Ledger.note ledger = ledger'
        at hone ⊢
      generalize ((f intent).run (handle codec env) w).state = w' at hone hfinish hlater ⊢
      -- the intents that are left are still in the queue
      have hleft : Passed intent w w' ledger' → ∀ other ∈ rest,
          other ∈ w'.stagingWorker.queue ∧ other.state = .pending := by
        intro hpassed other hother
        obtain ⟨hmem, hstate⟩ := hpending.2 other hother
        refine ⟨hpassed.others other hmem fun hid => ?_, hstate⟩
        exact hnodup.1 (hid ▸ List.mem_map_of_mem hother)
      cases hone with
      | skipped hpassed hloads =>
          have hids : ledger'.plannedIds = ledger.plannedIds := by
            rw [Ledger.plannedIds, hloads.planned, Ledger.plannedIds]
          exact ih (h.of_same hpassed.clock hpassed.same hloads) hpassed.walking (hleft hpassed)
            hnodup.2 (hids.symm ▸ hcan.2) (hstart.trans hpassed.clock) hfinish
      | loaded hpassed hallowed hplanned hstaged hdone =>
          have hids : ledger'.plannedIds = ledger.plannedIds := by
            rw [Ledger.plannedIds, hplanned, Ledger.plannedIds]
          obtain ⟨hruntime, hunplanned⟩ := hcan.1 w.clock w'.clock hstart
            (hlater.trans hfinish) hallowed
          rw [hruntime] at hstaged
          have hnext := h.stage hpending.1.1 hpending.1.2 hunplanned hpassed.clock hpassed.same
            (hdone h.unique) hplanned hpassed.loading hstaged
          exact ih hnext hpassed.walking (hleft hpassed) hnodup.2 (hids.symm ▸ hcan.2)
            (hstart.trans hpassed.clock) hfinish

end Loops

/-! ### The calls -/

/-- The calls that decide, load, or look what is loaded. -/
inductive LoadingCall where
  | decide (request : InferenceRequest)
  | execute (request : InferenceRequest)
  | reconciliationTick
  | stagingTick
  | executePending (runtimeId : String)

namespace AppState

variable (state : AppState)

def loadingCall : LoadingCall → Daemon Unit
  | .decide request => do
      let _ ← state.decide request
  | .execute request => do
      let _ ← state.execute request
  | .reconciliationTick => state.runReconciliationTick
  | .stagingTick => state.runStagingTick
  | .executePending runtimeId => state.executePendingOn runtimeId

variable (codec : Codec) (env : ℕ → Surroundings)

/-- A call that runs to its end, and its loads. -/
def loadingStep (s : Ledger × World) (call : LoadingCall) : History × (Ledger × World) :=
  let outcome := (state.loadingCall call).run (handle codec env) s.2
  (outcome.trace, (s.1.noteCall outcome.trace, outcome.state))

/-- The call spares the loads that action plans have made: a staging tick finds their
models ready or cannot load them, and `execute_pending` runs when the pending intents are
for its runtime and none of them has such a load. -/
def SparesPlanned (s : Ledger × World) : LoadingCall → Prop
  | .stagingTick =>
      ∀ intent ∈ s.2.stagingWorker.queue, intent.state = .pending →
        intent.decisionId ∈ s.1.plannedIds →
          s.2.reconciler.ReadySomewhere intent.backgroundModel ∨
            ¬state.CanLoad env s.2.clock
              (state.runStagingTick.run (handle codec env) s.2).state.clock intent
  | .executePending runtimeId =>
      ∀ adapter, state.runtimes.lookup runtimeId = some adapter →
        (adapter.isMock = true ∨ (env s.2.clock).liveExecutionEnabled = true) →
          ∀ intent ∈ s.2.stagingWorker.queue, intent.state = .pending →
            intent.targetRuntime.text = runtimeId ∧ intent.decisionId ∉ s.1.plannedIds
  | _ => True

/-! ### Walking a plan -/

/-- The plan is of the decision and has one action at most; if that is a load and the
decision stages one, then it is the load of the decision's intent. -/
structure PlanOf (d : Decision) (plan : ActionPlan) : Prop where
  decisionId : plan.decisionId = d.id
  actions : plan.actions = [] ∨ ∃ action, plan.actions = [action] ∧
    (action.kind = .load → ∀ intent, StagesFor d intent →
      action.runtimeId = intent.targetRuntime ∧ action.modelId = some intent.backgroundModel)

namespace PlanOf

variable {d : Decision} {dryRun : Bool}

theorem new : PlanOf d (.new d.id dryRun) :=
  ⟨rfl, Or.inl rfl⟩

theorem addNoop (runtimeId : RuntimeId) (reason : String) :
    PlanOf d ((ActionPlan.new d.id dryRun).addNoop runtimeId reason) :=
  ⟨rfl, Or.inr ⟨_, rfl, by rintro ⟨⟩⟩⟩

theorem addLoad {runtimeId : RuntimeId} {model : ModelId} (isForeground : Bool)
    (reason : String) (cost : Option UInt64)
    (h : d.action = .stageBackground →
      d.selectedRuntime = some runtimeId ∧ d.backgroundModel = some model) :
    PlanOf d ((ActionPlan.new d.id dryRun).addLoad runtimeId model isForeground reason cost) := by
  refine ⟨rfl, Or.inr ⟨_, rfl, fun _ intent hstages => ?_⟩⟩
  obtain ⟨hruntime, hmodel⟩ := h hstages.action
  exact ⟨Option.some.inj (hruntime.symm.trans hstages.selectedRuntime),
    hmodel.symm.trans hstages.backgroundModel⟩

end PlanOf

theorem planOf_actionPlanFor (models : Table ModelId ModelProfileConfig) (d : Decision)
    (dryRun : Bool) : PlanOf d (actionPlanFor models d dryRun) := by
  unfold actionPlanFor
  dsimp only
  split
  next => exact .addNoop _ _
  next hpromote =>
    split
    · exact .addLoad true _ _ fun hstage => by rw [hpromote] at hstage; cases hstage
    · exact .new
  next hcold =>
    split
    · exact .addLoad true _ _ fun hstage => by rw [hcold] at hstage; cases hstage
    · exact .new
  next =>
    split
    next hruntime hmodel => exact .addLoad false _ _ fun _ => ⟨hruntime, hmodel⟩
    next => exact .new
  all_goals exact .addNoop _ _

theorem loads_generateActionPlan (d : Decision) (dryRun : Bool) (ledger : Ledger) :
    Loads (fun plan after => PlanOf d plan ∧ ledger.SameLoads after) ledger
      (generateActionPlan d dryRun) :=
  ⟨trivial, fun _ _ => ⟨planOf_actionPlanFor _ d dryRun, rfl, rfl, rfl⟩⟩

/-- The walk of a plan begins when the plan is recorded. -/
theorem loads_recordActionPlan (plan : ActionPlan) (ledger : Ledger) :
    Loads (fun _ after => after.walking = some plan.decisionId ∧ ledger.SameLoads after) ledger
      (Daemon.record (.recordActionPlan plan)) :=
  ⟨trivial, fun _ _ => ⟨rfl, rfl, rfl, rfl⟩⟩

/-- An action loads its model for the decision whose plan is walked, or nothing. -/
theorem loads_executeAction (live : Bool) (action : RuntimeAction) {ledger : Ledger} {id : Uuid}
    (hwalking : ledger.walking = some id) :
    Loads (fun _ after => after = ledger ∨ ∃ model, action.kind = .load ∧
        action.modelId = some model ∧
        after = { ledger with planned := ledger.planned ++ [(id, action.runtimeId.text, model)] })
      ledger (state.executeAction live action) := by
  unfold executeAction
  dsimp only
  split
  next hkind =>
    cases hmodel : action.modelId with
    | none => exact Or.inl rfl
    | some model =>
        dsimp only
        split
        · exact Or.inl rfl
        · split
          · exact Or.inl rfl
          · refine ⟨trivial, fun loaded _ => ?_⟩
            have hnote : ledger.note ⟨.loadModel action.runtimeId.text model, loaded⟩ =
                { ledger with
                  planned := ledger.planned ++ [(id, action.runtimeId.text, model)] } := by
              simp only [Ledger.note, hwalking]
            cases loaded with
            | ok handle => exact Or.inr ⟨model, hkind, rfl, hnote⟩
            | error e => exact Or.inr ⟨model, hkind, rfl, hnote⟩
  next => exact Or.inl rfl

/-- One load at most has been added, by the decision, and it is the one it stages. -/
def Walked (d : Decision) (ledger after : Ledger) : Prop :=
  after.staged = ledger.staged ∧ after.loading = ledger.loading ∧
    (after.planned = ledger.planned ∨ ∃ runtimeId model,
      after.planned = ledger.planned ++ [(d.id, runtimeId, model)] ∧
        ∀ intent, StagesFor d intent →
          runtimeId = intent.targetRuntime.text ∧ model = intent.backgroundModel)

theorem Walked.of_sameLoads {d : Decision} {ledger before after : Ledger}
    (h : Walked d before after) (hsame : ledger.SameLoads before) : Walked d ledger after := by
  rw [Walked, ← hsame.staged, ← hsame.planned, ← hsame.loading]
  exact h

theorem loads_executeActions {d : Decision} {plan : ActionPlan} (hplan : PlanOf d plan)
    (live : Bool) {ledger : Ledger} (hwalking : ledger.walking = some d.id) :
    Loads (fun _ after => Walked d ledger after) ledger
      (state.executeActions live plan.actions) := by
  rcases hplan.actions with hnone | ⟨action, hone, hright⟩
  · rw [hnone]
    exact ⟨rfl, rfl, Or.inl rfl⟩
  · rw [hone]
    refine Program.Follows.bind (state.loads_executeAction live action hwalking) ?_
    rintro one after (rfl | ⟨model, hkind, hmodel, rfl⟩)
    · exact ⟨rfl, rfl, Or.inl rfl⟩
    · refine ⟨rfl, rfl, Or.inr ⟨action.runtimeId.text, model, rfl, fun intent hstages => ?_⟩⟩
      obtain ⟨hruntime, hbackground⟩ := hright hkind intent hstages
      exact ⟨congrArg RuntimeId.text hruntime, Option.some.inj (hmodel.symm.trans hbackground)⟩

theorem loads_executeDecision (d : Decision) (ledger : Ledger) :
    Loads (fun _ after => Walked d ledger after) ledger (state.executeDecision d) := by
  refine Program.Follows.bind
    (loads_of_within (within_handOffContext d) (by decide) (by decide) ledger) ?_
  intro context handed hhanded
  refine Program.Follows.bind
    (loads_of_within state.within_liveExecuteEnabled (by decide) (by decide) handed) ?_
  intro live asked hasked
  refine Program.Follows.bind (loads_generateActionPlan d (!live) asked) ?_
  rintro plan planned ⟨hplan, hplanned⟩
  refine Program.Follows.bind (loads_recordActionPlan plan planned) ?_
  rintro recorded walking ⟨hwalking, hrecorded⟩
  have hsame := ((hhanded.trans hasked).trans hplanned).trans hrecorded
  cases recorded with
  | error e => exact Walked.of_sameLoads ⟨rfl, rfl, Or.inl rfl⟩ hsame
  | ok _ =>
      rw [hplan.decisionId] at hwalking
      refine Program.Follows.bind (state.loads_executeActions hplan live hwalking) ?_
      intro executed after hwalked
      exact hwalked.of_sameLoads hsame

section Calls

variable {codec env} {ledger : Ledger} {w : World}

theorem noMarks_decide (request : InferenceRequest) :
    Program.Respects (fun _ _ => True) (fun c => c.marks = false) (state.decide request) := by
  have hambient : ∀ {α : Type} {p : Daemon α}, Within [.ambient, .reconciliation] p →
      Program.Respects (fun _ _ => True) (fun c => c.marks = false) p := by
    intro α p hp
    refine Program.Ensures.mono hp (fun c hc => c.marks_of_area ?_ ?_) fun _ h => h
    · rintro he
      rw [he] at hc
      revert hc
      decide
    · rintro he
      rw [he] at hc
      revert hc
      decide
  refine Program.Ensures.bind (hambient state.within_refresh) fun _ _ => ?_
  refine Program.Ensures.bind (hambient (within_getSnapshots.mono (by simp))) fun _ _ => ?_
  refine Program.Ensures.mono (state.deciding_decideOn request _) ?_ fun _ h => h
  rintro c (hc | ⟨intent, rfl, -⟩)
  · exact c.marks_of_area (by rw [hc]; decide) (by rw [hc]; decide)
  · rfl

theorem loadsOnce_decide (h : LoadsOnce env ledger w) (request : InferenceRequest)
    (hfresh : NewIds env ((state.decide request).run (handle codec env) w).state.clock) :
    LoadsOnce env
      (((state.decide request).run (handle codec env) w).trace.foldl Ledger.note ledger)
      ((state.decide request).run (handle codec env) w).state := by
  have hclock := le_clock_run codec env (state.decide request) w
  have hloads := sameLoads_run codec env (state.noMarks_decide request) w ledger
  cases state.queuesAtMostOne_decide codec env request w with
  | nothing hqueue =>
      refine h.of_same hclock ?_ hloads
      rw [hqueue]
      exact .refl _
  | intent intent hid hdecision _ hqueue _ =>
      exact h.queue hclock hfresh hloads hid hdecision hqueue

/-- The intents of a decision that has just been made have no load yet, and stage its
load. -/
theorem intents_of_decide (h : LoadsOnce env ledger w) {request : InferenceRequest}
    {d : Decision} (hd : ((state.decide request).run (handle codec env) w).result = .ok d)
    (hfresh : NewIds env ((state.decide request).run (handle codec env) w).state.clock) :
    d.id ∉ ledger.plannedIds ∧ ∀ intent ∈
      ((state.decide request).run (handle codec env) w).state.stagingWorker.queue,
        intent.decisionId = d.id → StagesFor d intent ∧ intent.id ∉ ledger.staged.map Prod.fst := by
  have hissued := state.issued_decide codec env request w hd
  constructor
  · intro hmem
    obtain ⟨⟨id, runtimeId, model⟩, hload, rfl⟩ := List.mem_map.mp hmem
    exact (h.planned _ _ _ hload).1.ne hissued hfresh rfl
  · intro intent hintent hdecision
    have hold : intent ∉ w.stagingWorker.queue := fun hmem =>
      (h.queued intent hmem).2.ne hissued hfresh hdecision
    cases state.queuesAtMostOne_decide codec env request w with
    | nothing hqueue =>
        rw [hqueue] at hintent
        exact absurd hintent hold
    | intent new hid _ _ hqueue hstages =>
        rw [hqueue] at hintent
        obtain rfl : intent = new :=
          List.mem_singleton.mp ((List.mem_append.mp hintent).resolve_left hold)
        refine ⟨hstages d hd, fun hmem => ?_⟩
        obtain ⟨⟨id, runtimeId, model⟩, hload, heq⟩ := List.mem_map.mp hmem
        exact (h.staged _ _ _ hload).1.ne hid hfresh heq

theorem loadsOnce_execute (h : LoadsOnce env ledger w) (request : InferenceRequest)
    (hfresh : NewIds env ((state.execute request).run (handle codec env) w).state.clock) :
    LoadsOnce env
      (((state.execute request).run (handle codec env) w).trace.foldl Ledger.note ledger)
      ((state.execute request).run (handle codec env) w).state := by
  have hclock : ((state.decide request).run (handle codec env) w).state.clock ≤
      ((state.execute request).run (handle codec env) w).state.clock := by
    rw [execute, Program.state_bind]
    exact le_clock_run codec env _ _
  replace hfresh := hfresh.mono hclock
  have hdecided := state.loadsOnce_decide h request hfresh
  have hloads := sameLoads_run codec env (state.noMarks_decide request) w ledger
  rw [execute, Program.trace_bind, Program.state_bind, List.foldl_append]
  cases hd : ((state.decide request).run (handle codec env) w).result with
  | error e => exact hdecided
  | ok d =>
      obtain ⟨hunplanned, hintents⟩ := state.intents_of_decide h hd hfresh
      have hissued := state.issued_decide codec env request w hd
      dsimp only
      generalize ((state.decide request).run (handle codec env) w).trace.foldl Ledger.note
        ledger = ledger' at hdecided hloads ⊢
      generalize ((state.decide request).run (handle codec env) w).state = w'
        at hdecided hintents hissued ⊢
      have hsame := sameStages_within codec env (state.within_executeDecision d) (by decide)
        (by decide) w'
      obtain ⟨hstaged, hloading, hplanned⟩ := (state.loads_executeDecision d ledger').post_run
        (h := handle codec env) (fun _ _ => trivial) w'
      have hlater := le_clock_run codec env (state.executeDecision d) w'
      rcases hplanned with hnone | ⟨runtimeId, model, hone, hright⟩
      · exact hdecided.of_same hlater hsame ⟨hnone, hstaged, hloading⟩
      · refine LoadsOnce.of_same ?_ hlater hsame ⟨rfl, rfl, rfl⟩
        refine hdecided.plan hone hstaged hloading (hissued.mono (Nat.zero_le _) le_rfl) ?_ ?_
        · rw [Ledger.plannedIds, hloads.planned]
          exact hunplanned
        · intro intent hintent hdecision
          obtain ⟨hstages, hunstaged⟩ := hintents intent hintent hdecision
          obtain ⟨hruntime, hmodel⟩ := hright intent hstages
          rw [hloads.staged]
          exact ⟨hruntime, hmodel, hunstaged⟩

theorem loadsOnce_reconciliationTick (h : LoadsOnce env ledger w) :
    LoadsOnce env
      ((state.runReconciliationTick.run (handle codec env) w).trace.foldl Ledger.note ledger)
      (state.runReconciliationTick.run (handle codec env) w).state :=
  h.of_same (le_clock_run codec env _ w)
    (sameStages_within codec env state.within_runReconciliationTick (by decide) (by decide) w)
    (sameLoads_within codec env state.within_runReconciliationTick (by decide) (by decide) w
      ledger)

/-- The pending intents of the queue, as `execute_pending` and a tick take them up. -/
theorem pending_of_getPending (w : World) : ∀ intent ∈ w.stagingWorker.getPending,
    intent ∈ w.stagingWorker.queue ∧ intent.state = .pending := by
  intro intent hintent
  obtain ⟨hmem, hstate⟩ := List.mem_filter.mp hintent
  exact ⟨hmem, of_decide_eq_true hstate⟩

/-- A loop over the pending intents. -/
theorem loadsOnce_pending {f : StagingIntent → Daemon Unit}
    {runtimeOf : StagingIntent → String} {C : ℕ → ℕ → StagingIntent → Prop}
    {start finish : ℕ}
    (hf : ∀ intent w ledger, ledger.walking = none → ledger.loading = [] →
      Handled intent (runtimeOf intent)
        (C w.clock ((f intent).run (handle codec env) w).state.clock intent) w
        ((f intent).run (handle codec env) w).state ledger
        (((f intent).run (handle codec env) w).trace.foldl Ledger.note ledger))
    (h : LoadsOnce env ledger w)
    (hcan : ∀ intent ∈ w.stagingWorker.queue, intent.state = .pending → ∀ s e, start ≤ s →
      e ≤ finish → C s e intent →
        runtimeOf intent = intent.targetRuntime.text ∧ intent.decisionId ∉ ledger.plannedIds)
    {p : Daemon Unit} (hp : p = do
      let pending ← Daemon.getPending
      pending.forM f)
    (hstart : start ≤ w.clock) (hfinish : (p.run (handle codec env) w).state.clock ≤ finish) :
    LoadsOnce env ((p.run (handle codec env) w).trace.foldl Ledger.note ledger)
      (p.run (handle codec env) w).state := by
  subst hp
  rw [Daemon.getPending, Program.perform_bind, Program.run_call] at hfinish ⊢
  rw [List.foldl_cons]
  have hasked : LoadsOnce env (ledger.note ⟨.getPending, w.stagingWorker.getPending⟩)
      (handle codec env w .getPending).2 := h.of_same (Nat.le_succ _) (.refl _) ⟨rfl, rfl, rfl⟩
  refine loadsOnce_forM codec env hf hasked rfl (pending_of_getPending w)
    h.nodup_getPending ?_ (hstart.trans (Nat.le_succ _)) hfinish
  intro intent hintent
  obtain ⟨hmem, hstate⟩ := pending_of_getPending w intent hintent
  exact hcan intent hmem hstate

theorem result_mutationAllowed (isMock : Bool) :
    ((mutationAllowed isMock).run (handle codec env) w).result =
      (isMock || (env w.clock).liveExecutionEnabled) := by
  cases isMock <;> rfl

theorem loadsOnce_executePending (h : LoadsOnce env ledger w) (runtimeId : String)
    (hspares : state.SparesPlanned codec env (ledger, w) (.executePending runtimeId)) :
    LoadsOnce env
      (((state.executePendingOn runtimeId).run (handle codec env) w).trace.foldl Ledger.note
        ledger)
      ((state.executePendingOn runtimeId).run (handle codec env) w).state := by
  unfold executePendingOn
  cases hadapter : state.runtimes.lookup runtimeId with
  | none => exact h
  | some adapter =>
      have hgate : Within [.ambient] (mutationAllowed adapter.isMock) := within_mutationAllowed _
      have hclock := le_clock_run codec env (mutationAllowed adapter.isMock) w
      have hqueue := stagingWorker_run codec env hgate (by decide) w
      have hloads := sameLoads_within codec env hgate (by decide) (by decide) w ledger
      dsimp only
      rw [StagingWorker.executePending, Program.state_bind, Program.trace_bind,
        List.foldl_append, result_mutationAllowed]
      generalize ((mutationAllowed adapter.isMock).run (handle codec env) w).trace.foldl
        Ledger.note ledger = asked at hloads ⊢
      generalize ((mutationAllowed adapter.isMock).run (handle codec env) w).state = w'
        at hclock hqueue ⊢
      have hasked : LoadsOnce env asked w' :=
        h.of_same hclock (by rw [hqueue]; exact .refl _) hloads
      cases hallowed : adapter.isMock || (env w.clock).liveExecutionEnabled with
      | false => exact hasked
      | true =>
          refine loadsOnce_pending (C := fun _ _ _ => True)
            (fun intent w ledger hwalking hloading =>
              handled_loadIntent codec env runtimeId intent w hwalking hloading)
            hasked ?_ rfl le_rfl le_rfl
          intro intent hmem hstate _ _ _ _ _
          rw [hqueue] at hmem
          obtain ⟨hruntime, hunplanned⟩ :=
            hspares adapter hadapter (Bool.or_eq_true_iff.mp hallowed) intent hmem hstate
          refine ⟨hruntime.symm, ?_⟩
          rwa [Ledger.plannedIds, hloads.planned]

theorem respects_completeReady {P : Cmd → Prop} (hread : P .getSnapshots)
    (hcomplete : ∀ models, P (.reconcileReady models)) :
    Program.Respects (fun _ _ => True) P completeReady := by
  have hready : Program.Respects (fun _ _ => True) P readyModels :=
    ⟨hread, fun _ _ => trivial⟩
  refine Program.Ensures.bind hready fun ready _ => ?_
  split
  · exact trivial
  · exact Program.Ensures.bind (Program.ensures_perform (hcomplete ready) fun _ _ => trivial)
      fun _ _ => trivial

variable (codec env)

theorem reconciler_commitDraining (w : World) :
    (commitDraining.run (handle codec env) w).state.reconciler = w.reconciler := by
  refine keeps_run codec env within_commitDraining (fun w c hc => ?_) w
  cases c with
  | updateSnapshot runtimeId snapshot => simp [Cmd.area] at hc
  | recordError runtimeId error => simp [Cmd.area] at hc
  | _ => rfl

/-- An intent that is still pending after the readiness step was pending before, and its
model is not ready. -/
theorem pending_of_completeReady {intent : StagingIntent}
    (hmem : intent ∈ (completeReady.run (handle codec env) w).state.stagingWorker.queue)
    (hstate : intent.state = .pending) : intent ∈ w.stagingWorker.queue ∧
      ¬w.reconciler.ReadySomewhere intent.backgroundModel := by
  rw [queue_completeReady] at hmem
  obtain ⟨before, hbefore, rfl⟩ := List.mem_map.mp hmem
  by_cases hready : before.state = .pending ∧ w.reconciler.ReadySomewhere before.backgroundModel
  · rw [if_pos hready] at hstate
    cases hstate
  · rw [if_neg hready] at hstate ⊢
    exact ⟨hbefore, fun hsomewhere => hready ⟨hstate, hsomewhere⟩⟩

variable {codec env}

theorem loadsOnce_stagingTick (h : LoadsOnce env ledger w)
    (hspares : state.SparesPlanned codec env (ledger, w) .stagingTick) :
    LoadsOnce env
      ((state.runStagingTick.run (handle codec env) w).trace.foldl Ledger.note ledger)
      (state.runStagingTick.run (handle codec env) w).state := by
  have htick : ∀ intent ∈ w.stagingWorker.queue, intent.state = .pending →
      intent.decisionId ∈ ledger.plannedIds →
        w.reconciler.ReadySomewhere intent.backgroundModel ∨
          ¬state.CanLoad env w.clock
            (state.runStagingTick.run (handle codec env) w).state.clock intent := hspares
  rw [runStagingTick, Program.state_bind, Program.state_bind] at htick
  rw [runStagingTick, Program.state_bind, Program.state_bind, Program.trace_bind,
    Program.trace_bind, List.foldl_append, List.foldl_append]
  -- the contexts of draining models are committed
  have hclock₁ := le_clock_run codec env commitDraining w
  have hqueue₁ := sameStages_within codec env within_commitDraining (by decide) (by decide) w
  have hloads₁ := sameLoads_within codec env within_commitDraining (by decide) (by decide) w
    ledger
  have hreconciler := reconciler_commitDraining codec env w
  generalize (commitDraining.run (handle codec env) w).trace.foldl Ledger.note ledger = l₁
    at hloads₁ ⊢
  generalize (commitDraining.run (handle codec env) w).state = w₁
    at hclock₁ hqueue₁ hreconciler htick ⊢
  have h₁ := h.of_same hclock₁ hqueue₁ hloads₁
  -- the intents whose model is ready are completed
  have hclock₂ := le_clock_run codec env completeReady w₁
  have hqueue₂ := sameStages_run codec env (respects_completeReady
    (P := fun c => c.area ≠ .enqueueing ∧ c.stores = false) ⟨by decide, rfl⟩
    fun _ => ⟨by simp [Cmd.area], rfl⟩) w₁
  have hloads₂ := sameLoads_run codec env (respects_completeReady
    (P := fun c => c.marks = false) rfl fun _ => rfl) w₁ l₁
  have hpending := fun intent => @pending_of_completeReady codec env w₁ intent
  generalize (completeReady.run (handle codec env) w₁).trace.foldl Ledger.note l₁ = l₂
    at hloads₂ ⊢
  generalize (completeReady.run (handle codec env) w₁).state = w₂
    at hclock₂ hqueue₂ hpending htick ⊢
  have h₂ := h₁.of_same hclock₂ hqueue₂ hloads₂
  refine loadsOnce_pending (C := state.CanLoad env)
    (fun intent w ledger _ hloading => handled_stageIntent codec env state intent w hloading) h₂ ?_
    rfl (hclock₁.trans hclock₂) le_rfl
  intro intent hmem hstate s e hs he hcan
  refine ⟨rfl, fun hplanned => ?_⟩
  rw [Ledger.plannedIds, hloads₂.planned, hloads₁.planned] at hplanned
  obtain ⟨hmem₁, hnot⟩ := hpending intent hmem hstate
  obtain ⟨before, hbefore, hsame⟩ := exists_of_mem_forall₂ hqueue₁ hmem₁
  rcases htick before hbefore (hsame.pending hstate) (hsame.decisionId ▸ hplanned) with
    hready | hcannot
  · rw [hreconciler, hsame.backgroundModel] at hnot
    exact hnot hready
  · refine hcannot ?_
    have hall := hcan.mono hs he
    rw [CanLoad, hsame.targetRuntime] at hall
    exact hall

theorem loadsOnce_loadingStep {s : Ledger × World} (h : LoadsOnce env s.1 s.2)
    {call : LoadingCall} (hspares : state.SparesPlanned codec env s call)
    (hfresh : NewIds env (state.loadingStep codec env s call).2.2.clock) :
    LoadsOnce env (state.loadingStep codec env s call).2.1
      (state.loadingStep codec env s call).2.2 := by
  obtain ⟨ledger, w⟩ := s
  have hstart : LoadsOnce env { ledger with walking := none } w :=
    h.of_same le_rfl (.refl _) ⟨rfl, rfl, rfl⟩
  simp only [loadingStep, Ledger.noteCall] at hfresh ⊢
  cases call with
  | decide request =>
      simp only [loadingCall, Program.trace_bind, Program.state_bind, Program.run_pure,
        List.append_nil] at hfresh ⊢
      exact state.loadsOnce_decide hstart request hfresh
  | execute request =>
      simp only [loadingCall, Program.trace_bind, Program.state_bind, Program.run_pure,
        List.append_nil] at hfresh ⊢
      exact state.loadsOnce_execute hstart request hfresh
  | reconciliationTick => exact state.loadsOnce_reconciliationTick hstart
  | stagingTick => exact state.loadsOnce_stagingTick hstart hspares
  | executePending runtimeId => exact state.loadsOnce_executePending hstart runtimeId hspares

/-- The calls of `load_model` in a run, in order. -/
def loadCalls (log : List (Record (Ledger × World) LoadingCall History)) :
    List (String × ModelId) :=
  log.flatMap fun r => r.output.filterMap loadCall

/-- Every call of a run is entered in the ledger. -/
theorem calls_runFrom (s : Ledger × World) (calls : List LoadingCall) :
    (Machine.runFrom (state.loadingStep codec env) s calls).1.calls.Perm
      (s.1.calls ++ loadCalls (Machine.logFrom (state.loadingStep codec env) s calls)) := by
  induction calls generalizing s with
  | nil =>
      rw [Machine.logFrom_nil, loadCalls, List.flatMap_nil, List.append_nil]
      exact .refl _
  | cons call calls ih =>
      have hstep : (state.loadingStep codec env s call).2.1.calls.Perm
          (s.1.calls ++ (state.loadingStep codec env s call).1.filterMap loadCall) :=
        Ledger.calls_foldl_note { s.1 with walking := none } _
      rw [Machine.runFrom_cons, Machine.logFrom_cons, loadCalls, List.flatMap_cons,
        ← List.append_assoc]
      exact (ih _).trans (hstep.append_right _)

/-- In every run of calls that spare the loads of action plans, and whose commands are
given new ids, each call of `load_model` is made for one decision or intent, and an intent
has one at most, of its model on its target. -/
theorem loaded_once (governance : Governance) (disk : Disk) (calls : List LoadingCall)
    (hfresh : NewIds env (Machine.runFrom (state.loadingStep codec env)
      ({}, World.start governance disk) calls).2.clock)
    (hspares : ∀ r ∈ Machine.logFrom (state.loadingStep codec env)
      ({}, World.start governance disk) calls, state.SparesPlanned codec env r.before r.input) :
    let after := Machine.runFrom (state.loadingStep codec env) ({}, World.start governance disk)
      calls
    ((after.1.planned ++ after.1.staged).map Prod.snd).Perm
        (loadCalls (Machine.logFrom (state.loadingStep codec env)
          ({}, World.start governance disk) calls)) ∧
      ∀ intent ∈ after.2.stagingWorker.queue, (after.1.loadsFor intent).length ≤ 1 ∧
        ∀ load ∈ after.1.loadsFor intent,
          load = (intent.targetRuntime.text, intent.backgroundModel) := by
  intro after
  have hle : ∀ r ∈ Machine.logFrom (state.loadingStep codec env)
      ({}, World.start governance disk) calls, r.after.2.clock ≤ after.2.clock :=
    Machine.le_runFrom_of_mem_logFrom (state.loadingStep codec env)
      (f := fun s : Ledger × World => s.2.clock)
      fun s call => le_clock_run codec env (state.loadingCall call) s.2
  have hrun := Machine.invariant_runFrom (state.loadingStep codec env)
    (I := fun s => LoadsOnce env s.1 s.2)
    (G := fun r => state.SparesPlanned codec env r.before r.input ∧ NewIds env r.after.2.clock)
    (fun s call h hG => state.loadsOnce_loadingStep h hG.1 hG.2)
    (fun r hr => ⟨hspares r hr, hfresh.mono (hle r hr)⟩) (LoadsOnce.start governance disk)
  refine ⟨?_, fun intent hintent => LoadsOnce.loadsFor hrun hintent⟩
  have hcalls := @calls_runFrom state codec env ({}, World.start governance disk) calls
  rwa [Ledger.calls, LoadsOnce.loading hrun, List.append_nil] at hcalls

end Calls

/-! ### Two runtimes -/

/-- Live execution is on, and a loaded model shows up after a while. -/
def liveDaemon (n : ℕ) : Surroundings :=
  { (default : Surroundings) with
    newUuid := ⟨n⟩
    liveExecutionEnabled := true
    inspect := fun id => hotAnswer id
      (if id = "a" then if n < 30 then ["qwen9b"] else ["qwen9b", "qwen70b"] else []) }

/-- The ledger and the state after the calls. -/
def afterCalls (calls : List LoadingCall) : Ledger × World :=
  Machine.runFrom (twoRuntimes.loadingStep default liveDaemon) ({}, twoRuntimesStart) calls

/-- A load by `/execute` and then one by the tick; and a load on another runtime than the
target. -/
theorem not_loaded_once :
    (¬∀ intent ∈ (afterCalls [.execute codingRequest, .stagingTick]).2.stagingWorker.queue,
      ((afterCalls [.execute codingRequest, .stagingTick]).1.loadsFor intent).length ≤ 1) ∧
    ¬∀ intent ∈ (afterCalls [.decide codingRequest, .executePending "b"]).2.stagingWorker.queue,
      ∀ load ∈ (afterCalls [.decide codingRequest, .executePending "b"]).1.loadsFor intent,
        load.1 = intent.targetRuntime.text := by
  constructor <;> decide +kernel

/-- A tick spares the load of `/execute` when a reconciliation has found the model. -/
theorem loaded_once_reconciled :
    let after := afterCalls [.execute codingRequest, .reconciliationTick, .stagingTick]
    after.2.stagingWorker.queue ≠ [] ∧
      ((after.1.planned ++ after.1.staged).map Prod.snd).Perm
        (loadCalls (Machine.logFrom (twoRuntimes.loadingStep default liveDaemon)
          ({}, twoRuntimesStart) [.execute codingRequest, .reconciliationTick, .stagingTick])) ∧
      ∀ intent ∈ after.2.stagingWorker.queue, (after.1.loadsFor intent).length ≤ 1 ∧
        ∀ load ∈ after.1.loadsFor intent,
          load = (intent.targetRuntime.text, intent.backgroundModel) := by
  refine ⟨by decide +kernel, loaded_once twoRuntimes (.new twoRuntimesConfig {} none) ⟨none, none⟩
    [.execute codingRequest, .reconciliationTick, .stagingTick]
    (newIds_of_count (fun _ => rfl) (by decide +kernel)) ?_⟩
  rw [Machine.logFrom_cons, Machine.logFrom_cons, Machine.logFrom_cons, Machine.logFrom_nil,
    List.forall_mem_cons, List.forall_mem_cons, List.forall_mem_singleton]
  refine ⟨trivial, trivial, fun intent hintent _ _ => .inl ?_⟩
  -- the cache has found the model on the runtime
  have hmodels : ∀ intent ∈ (afterCalls
      [.execute codingRequest, .reconciliationTick]).2.stagingWorker.queue,
      intent.backgroundModel = ⟨"qwen70b"⟩ := by decide +kernel
  rw [hmodels intent hintent]
  exact (mem_result_readyModels default liveDaemon _).mp (by decide +kernel)

end AppState

end Anemoi
