import Anemoi.Daemon.Decisions
import Anemoi.Daemon.Footprints
import Mathlib.Order.Interval.Set.Basic

/-!
# What a call leaves behind

For calls that run one after the other: what a program leaves as it was, by its footprint,
and what `decide` adds to the staging queue. It queues one intent at most, with ids that
no earlier command was given.
-/

namespace Anemoi

open Systems

section Frames

variable (codec : Codec) (env : ℕ → Surroundings) {areas : List Area} {α : Type}
  {p : Daemon α}

/-- A part of the daemon's state that no command of a footprint changes. -/
theorem keeps_run {β : Type} {part : World → β} (hp : Within areas p)
    (hkeep : ∀ w c, c.area ∈ areas → part (handle codec env w c).2 = part w) (w : World) :
    part (p.run (handle codec env) w).state = part w := by
  have htriple := Program.triple_of_ensures (h := handle codec env)
    (P := fun _ s => part s = part w) hp (fun _ _ => trivial)
    fun _ s c hc hs => (hkeep s c hc).trans hs
  exact htriple [] w rfl

/-- The areas that change the staging queue. -/
def Area.stages : Area → Bool
  | enqueueing | staging | committing | handingOff => true
  | _ => false

theorem stagingWorker_handle {c : Cmd} (hc : c.area.stages = false) (w : World) :
    (handle codec env w c).2.stagingWorker = w.stagingWorker := by
  cases c with
  | record event => rfl
  | enqueue intent => cases hc
  | updateState id state error => cases hc
  | noteTick id reason => cases hc
  | reconcileReady models => cases hc
  | commitEvictionContext models => cases hc
  | takeContextRef model => cases hc
  | _ => rfl

theorem escalationContext_handle {c : Cmd} (hcommitting : c.area ≠ .committing)
    (hhandingOff : c.area ≠ .handingOff) (w : World) :
    (handle codec env w c).2.escalationContext = w.escalationContext := by
  cases c with
  | commitEvictionContext models => exact absurd rfl hcommitting
  | takeContext contextRef => exact absurd rfl hhandingOff
  | _ => rfl

theorem stagingWorker_run (hp : Within areas p)
    (hareas : areas.all fun area => !area.stages) (w : World) :
    (p.run (handle codec env) w).state.stagingWorker = w.stagingWorker := by
  refine keeps_run codec env hp (fun w c hc => stagingWorker_handle codec env ?_ w) w
  have harea := List.all_eq_true.mp hareas _ hc
  rwa [Bool.not_eq_true'] at harea

theorem escalationContext_run (hp : Within areas p) (hcommitting : Area.committing ∉ areas)
    (hhandingOff : Area.handingOff ∉ areas) (w : World) :
    (p.run (handle codec env) w).state.escalationContext = w.escalationContext := by
  refine keeps_run codec env hp (fun w c hc => escalationContext_handle codec env ?_ ?_ w) w
  · exact fun he => hcommitting (he ▸ hc)
  · exact fun he => hhandingOff (he ▸ hc)

theorem governance_handle {c : Cmd} (hc : c.area ≠ .governance) (w : World) :
    (handle codec env w c).2.governance = w.governance := by
  cases c with
  | mutate edit => exact absurd rfl hc
  | _ => rfl

theorem governance_run (hp : Within areas p) (hareas : Area.governance ∉ areas) (w : World) :
    (p.run (handle codec env) w).state.governance = w.governance :=
  keeps_run codec env hp
    (fun w _ hc => governance_handle codec env (fun he => hareas (he ▸ hc)) w) w

theorem clock_handle (w : World) (c : Cmd) :
    (handle codec env w c).2.clock = w.clock + 1 := by
  cases c <;> rfl

/-- The clock counts the commands. -/
theorem clock_run (p : Daemon α) (w : World) :
    (p.run (handle codec env) w).state.clock =
      w.clock + (p.run (handle codec env) w).trace.length := by
  induction p generalizing w with
  | pure a => rfl
  | call c k ih =>
      rw [Program.run_call, ih, clock_handle, List.length_cons, Nat.add_assoc, Nat.add_comm 1]

theorem le_clock_run (p : Daemon α) (w : World) :
    w.clock ≤ (p.run (handle codec env) w).state.clock := by
  rw [clock_run]
  exact Nat.le_add_right ..

end Frames

/-! ### The intent of a decision -/

/-- The id was given out at a command in the range. -/
def IssuedIn (env : ℕ → Surroundings) (start finish : ℕ) (id : Uuid) : Prop :=
  ∃ n, start ≤ n ∧ n < finish ∧ id = (env n).newUuid

/-- The intent stages the load of the decision. -/
structure StagesFor (d : Decision) (intent : StagingIntent) : Prop where
  decisionId : intent.decisionId = d.id
  action : d.action = .stageBackground
  selectedRuntime : d.selectedRuntime = some intent.targetRuntime
  backgroundModel : d.backgroundModel = some intent.backgroundModel

/-- `decide` queues nothing, or a new intent for its decision, which has an id of its own. -/
inductive QueuesAtMostOne (env : ℕ → Surroundings) (w after : World)
    (result : Except String Decision) : Prop where
  | nothing (queue : after.stagingWorker.queue = w.stagingWorker.queue)
  | intent (intent : StagingIntent) (id : IssuedIn env w.clock after.clock intent.id)
      (decisionId : IssuedIn env w.clock after.clock intent.decisionId)
      (contextRef : intent.contextRef = none)
      (queue : after.stagingWorker.queue = w.stagingWorker.queue ++ [intent])
      (decision : ∀ d, result = .ok d → StagesFor d intent)

theorem IssuedIn.mono {env : ℕ → Surroundings} {start finish start' finish' : ℕ} {id : Uuid}
    (h : IssuedIn env start finish id) (hstart : start' ≤ start) (hfinish : finish ≤ finish') :
    IssuedIn env start' finish' id := by
  obtain ⟨n, hn, hn', hid⟩ := h
  exact ⟨n, hstart.trans hn, hn'.trans_le hfinish, hid⟩

/-- Of the commands of a run no two are given the same id. -/
def NewIds (env : ℕ → Surroundings) (finish : ℕ) : Prop :=
  Set.InjOn (fun n => (env n).newUuid) (Set.Iio finish)

theorem NewIds.mono {env : ℕ → Surroundings} {finish finish' : ℕ} (h : NewIds env finish')
    (hle : finish ≤ finish') : NewIds env finish :=
  Set.InjOn.mono (Set.Iio_subset_Iio hle) h

/-- Ids that are numbers counting up are new. -/
theorem newIds_of_count {env : ℕ → Surroundings} (henv : ∀ n : ℕ, (env n).newUuid = ⟨n⟩)
    {finish : ℕ} (h : finish ≤ 2 ^ 128) : NewIds env finish := by
  intro n hn m hm heq
  dsimp only at heq
  rw [henv, henv] at heq
  have hbits := congrArg BitVec.toNat (Uuid.mk.inj heq)
  rw [BitVec.natCast_eq_ofNat, BitVec.natCast_eq_ofNat, BitVec.toNat_ofNat, BitVec.toNat_ofNat,
    Nat.mod_eq_of_lt (lt_of_lt_of_le hn h), Nat.mod_eq_of_lt (lt_of_lt_of_le hm h)] at hbits
  exact hbits

/-- Ids that were given out in different ranges are different. -/
theorem IssuedIn.ne {env : ℕ → Surroundings} {start middle finish : ℕ} {id id' : Uuid}
    (h : IssuedIn env start middle id) (h' : IssuedIn env middle finish id')
    (hfresh : NewIds env finish) : id ≠ id' := by
  obtain ⟨n, -, hn, rfl⟩ := h
  obtain ⟨n', hn', hlt, rfl⟩ := h'
  intro heq
  have hsame : n = n' := hfresh (hn.trans_le (hn'.trans hlt.le)) hlt heq
  omega

theorem Scheduler.id_decide {scheduler : Scheduler} {request : InferenceRequest}
    {snapshots : List RuntimeSnapshot} {stamp : Stamp} {d : Decision}
    (h : scheduler.decide request snapshots stamp = .ok d) : d.id = stamp.id := by
  unfold Scheduler.decide at h
  cases hgenerated : scheduler.generateCandidates request snapshots with
  | error e =>
      rw [hgenerated] at h
      cases h
  | ok generated =>
      simp only [hgenerated, bind, Except.bind, pure, Except.pure] at h
      split at h <;>
      · cases h
        rfl

namespace AppState

variable (state : AppState) (codec : Codec) (env : ℕ → Surroundings)
  (request : InferenceRequest) (d : Decision) (w : World)

theorem queueStage_cases :
    let after := ((state.queueStage request d).run (handle codec env) w).state
    after.stagingWorker.queue = w.stagingWorker.queue ∨
      ∃ intent, IssuedIn env w.clock after.clock intent.id ∧ intent.contextRef = none ∧
        after.stagingWorker.queue = w.stagingWorker.queue ++ [intent] ∧ StagesFor d intent := by
  intro after
  cases haction : d.action with
  | stageBackground =>
      cases hruntime : d.selectedRuntime with
      | none =>
          left
          simp only [after, queueStage, haction, hruntime]
          rfl
      | some runtimeId =>
          cases hbackground : d.backgroundModel with
          | none =>
              left
              simp only [after, queueStage, haction, hruntime, hbackground]
              rfl
          | some modelId =>
              right
              have hclock := le_clock_run codec env
                (state.executionAllowed runtimeId.text) w
              obtain ⟨-, hqueue, hlater⟩ := @queueStage_staged state codec env request d w
                runtimeId modelId haction hruntime hbackground
              refine ⟨_, ?_, ?_, hqueue, ?_⟩
              all_goals rw [result_prepareIntent]
              · refine ⟨_, hclock, ?_, StagingIntent.queued_id ..⟩
                rw [hlater, clock_prepareIntent]
                exact Nat.lt_add_of_pos_right (Nat.succ_pos 3)
              · exact StagingIntent.queued_contextRef ..
              · exact ⟨StagingIntent.queued_decisionId .., haction,
                  hruntime.trans (congrArg some (StagingIntent.queued_targetRuntime ..).symm),
                  hbackground.trans (congrArg some (StagingIntent.queued_backgroundModel ..).symm)⟩
  | _ =>
      left
      simp only [after, queueStage, haction]
      rfl

/-- What `decide` queues; `start` is the clock when the call begins, which is before the
decision got its id. -/
theorem queuesAtMostOne_commitDecision {start : World} (hworker : start.stagingWorker =
    w.stagingWorker) (hclock : start.clock ≤ w.clock)
    (hid : IssuedIn env start.clock w.clock d.id) :
    QueuesAtMostOne env start ((state.commitDecision request d).run (handle codec env) w).state
      ((state.commitDecision request d).run (handle codec env) w).result := by
  have hresult : ∀ d', ((state.commitDecision request d).run (handle codec env) w).result =
      .ok d' → d = d' := fun _ => result_commitDecision
  have hlast : ((state.commitDecision request d).run (handle codec env) w).state.stagingWorker =
      ((state.queueStage request d).run (handle codec env) w).state.stagingWorker :=
    stagingWorker_commitDecision
  have hlater : ((state.queueStage request d).run (handle codec env) w).state.clock ≤
      ((state.commitDecision request d).run (handle codec env) w).state.clock := by
    rw [commitDecision, Program.state_bind]
    exact le_clock_run codec env _ _
  rcases state.queueStage_cases codec env request d w with
    hnothing | ⟨intent, hintent, href, hqueue, hstages⟩
  · refine .nothing ?_
    rw [hlast, hnothing, hworker]
  · refine .intent intent (hintent.mono hclock hlater) ?_ href ?_ ?_
    · rw [hstages.decisionId]
      exact hid.mono le_rfl ((le_clock_run codec env _ w).trans hlater)
    · rw [hlast, hqueue, hworker]
    · intro d' hd'
      exact hresult d' hd' ▸ hstages

/-- The part of `decideOn` that gives out the decision's id. -/
theorem decideOn_cases (snapshots : List RuntimeSnapshot) :
    let after := ((state.decideOn request snapshots).run (handle codec env) w)
    after.state.stagingWorker = w.stagingWorker ∧ (∀ d, after.result ≠ .ok d) ∨
      ∃ (d : Decision) (w' : World), w'.stagingWorker = w.stagingWorker ∧
        w.clock ≤ w'.clock ∧ IssuedIn env w.clock w'.clock d.id ∧
        after.state = ((state.commitDecision request d).run (handle codec env) w').state ∧
        after.result = ((state.commitDecision request d).run (handle codec env) w').result := by
  intro after
  simp only [after, decideOn, Program.state_bind, Program.result_bind]
  split
  next e he =>
    refine Or.inl ⟨rfl, ?_⟩
    intro d hd
    cases hd
  next d hd =>
    refine Or.inr ⟨d, (Daemon.stamp.run (handle codec env)
      (Daemon.effective.run (handle codec env) w).state).state, rfl, ?_,
      ⟨w.clock + 1, ?_, ?_, Scheduler.id_decide hd⟩, rfl, rfl⟩
    · exact Nat.le_add_right w.clock 3
    · exact Nat.le_succ _
    · exact Nat.lt_succ_of_lt (Nat.lt_succ_self _)

theorem within_readSnapshots : Within [.ambient, .reconciliation] state.readSnapshots :=
  state.within_refresh.bind fun _ => within_getSnapshots.mono (by decide)

theorem queuesAtMostOne_decide :
    QueuesAtMostOne env w ((state.decide request).run (handle codec env) w).state
      ((state.decide request).run (handle codec env) w).result := by
  have hworker := stagingWorker_run codec env state.within_readSnapshots (by decide) w
  have hclock := le_clock_run codec env state.readSnapshots w
  rw [run_decide]
  dsimp only
  generalize state.readSnapshots.run (handle codec env) w = read at hworker hclock ⊢
  rcases state.decideOn_cases codec env request read.state read.result with
    ⟨hnothing, -⟩ | ⟨d, w', hworker', hclock', hid, hstate, hresult⟩
  · refine .nothing ?_
    rw [hnothing, hworker]
  · rw [hstate, hresult]
    exact state.queuesAtMostOne_commitDecision codec env request d w'
      (hworker.symm.trans hworker'.symm) (hclock.trans hclock') (hid.mono hclock le_rfl)

/-- A decision's id is given out while it is made. -/
theorem issued_decide {d : Decision}
    (h : ((state.decide request).run (handle codec env) w).result = .ok d) :
    IssuedIn env w.clock ((state.decide request).run (handle codec env) w).state.clock d.id := by
  have hclock := le_clock_run codec env state.readSnapshots w
  rw [run_decide] at h ⊢
  dsimp only at h ⊢
  generalize state.readSnapshots.run (handle codec env) w = read at h hclock ⊢
  rcases state.decideOn_cases codec env request read.state read.result with
    ⟨-, hfails⟩ | ⟨decision, w', -, -, hid, hstate, hresult⟩
  · exact absurd h (hfails d)
  · rw [hresult] at h
    obtain rfl := result_commitDecision h
    rw [hstate]
    exact hid.mono hclock (le_clock_run codec env _ w')

theorem escalationContext_decide :
    ((state.decide request).run (handle codec env) w).state.escalationContext =
      w.escalationContext :=
  escalationContext_run codec env (state.within_decide request) (by decide) (by decide) w

end AppState

end Anemoi
