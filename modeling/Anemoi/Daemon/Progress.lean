import Anemoi.Daemon.Provenance
import Anemoi.Systems.Interference

/-!
# Staged loads make progress

A staging tick reads the pending intents and works on its copy of them, while others queue,
complete and fail intents. `staged_settles` says that none is left behind: an intent that is
pending and may run is completed or failed by the next staging tick that gets to its end, in
every interleaving, and it stays so.

No operation takes an intent back to an earlier state (`settling_performAll`), so that an
intent only advances (`advances_handle`); the tick is verified among such operations.
-/

namespace Anemoi

open Systems Program

/-! ### Operations that settle intents -/

/-- The command stores no state that is not terminal. -/
def Cmd.settles : Cmd → Bool
  | updateState _ newState _ => newState.isTerminal
  | _ => true

/-- The program issues no other commands. -/
abbrev Settling {α : Type} (p : Daemon α) : Prop :=
  Program.Respects (fun _ _ => True) (fun c => c.settles = true) p

theorem settling_perform {c : Cmd} (hc : c.settles = true) : Settling (Program.perform c) :=
  Program.ensures_perform hc fun _ _ => trivial

/-- A program that issues only what its file warrants settles intents only. -/
theorem settling_of_files {state : AppState} {codec : Codec} {operations : List Operation}
    {α : Type} {p : Daemon α} {post : α → Dossier → Prop} {dossier : Dossier}
    (hp : Files state codec operations post dossier p) : Settling p := by
  refine hp.respects fun q c hc => ?_
  cases c with
  | updateState => exact hc.1
  | _ => rfl

theorem settling_performAll (state : AppState) (codec : Codec) (operations : List Operation) :
    Settling (state.performAll codec operations) :=
  settling_of_files (files_performAll (List.Subset.refl operations) {})

/-! ### Intents only advance -/

/-- The intent under an id; ids are looked up from the front of the queue. -/
def World.staged (w : World) (id : Uuid) : Option StagingIntent :=
  w.stagingWorker.queue.find? fun i => i.id = id

/-- The same intent, in the same state or in a terminal one. -/
structure Advances (intent after : StagingIntent) : Prop where
  stems : StemsFrom intent after
  state : after.state = intent.state ∨ after.state.isTerminal = true

theorem Advances.refl (intent : StagingIntent) : Advances intent intent :=
  ⟨.refl intent, .inl rfl⟩

/-- What is found by id in a queue is found in one where every intent has advanced. -/
theorem exists_find?_of_advances {queue after : List StagingIntent}
    (h : List.Forall₂ Advances queue after) {id : Uuid} {intent : StagingIntent}
    (hfind : queue.find? (fun i => i.id = id) = some intent) :
    ∃ intent', after.find? (fun i => i.id = id) = some intent' ∧ Advances intent intent' := by
  induction h with
  | nil => cases hfind
  | @cons before first queue after hfirst _ ih =>
      rw [List.find?_cons] at hfind ⊢
      rw [hfirst.stems.id]
      split at hfind
      · next hid =>
          rw [Option.some.injEq] at hfind
          exact ⟨first, rfl, hfind ▸ hfirst⟩
      · next hid => exact ih hfind

section Commands

variable (codec : Codec) (env : ℕ → Surroundings)

theorem forall₂_advances_handle {c : Cmd} (hc : c.settles = true)
    (henqueue : c.area ≠ .enqueueing) (w : World) :
    List.Forall₂ Advances w.stagingWorker.queue
      (handle codec env w c).2.stagingWorker.queue := by
  cases c with
  | enqueue intent => exact absurd rfl henqueue
  | updateState intentId newState error =>
      refine forall₂_updateFirst Advances.refl (fun intent _ => ?_) _
      cases newState with
      | pending | blocked => cases hc
      | completed | failed => exact ⟨⟨rfl, rfl, rfl, rfl⟩, .inr rfl⟩
  | noteTick intentId skipReason =>
      refine forall₂_updateFirst Advances.refl (fun intent _ => ?_) _
      exact ⟨⟨rfl, rfl, rfl, rfl⟩, .inl rfl⟩
  | takeContextRef model =>
      refine forall₂_updateFirst Advances.refl (fun intent _ => ?_) _
      exact ⟨⟨rfl, rfl, rfl, rfl⟩, .inl rfl⟩
  | reconcileReady readyModels =>
      refine List.forall₂_map_right_iff.mpr (List.forall₂_same.mpr fun intent _ => ?_)
      split
      · exact ⟨⟨rfl, rfl, rfl, rfl⟩, .inr rfl⟩
      · exact .refl intent
  | commitEvictionContext drainingModels =>
      refine (StagingWorker.forall₂_commitAll drainingModels (env w.clock).now
        w.escalationContext w.stagingWorker.queue).imp ?_
      rintro intent after (rfl | ⟨payload, -, -, rfl⟩)
      · exact .refl after
      · exact ⟨⟨rfl, rfl, rfl, rfl⟩, .inl rfl⟩
  | _ => exact List.forall₂_same.mpr fun intent _ => .refl intent

/-- What a command that settles does to an intent. -/
theorem advances_handle {c : Cmd} (hc : c.settles = true) {w : World} {id : Uuid}
    {intent : StagingIntent} (h : w.staged id = some intent) :
    ∃ intent', (handle codec env w c).2.staged id = some intent' ∧ Advances intent intent' := by
  by_cases henqueue : c.area = .enqueueing
  · cases c with
    | enqueue queued =>
        refine ⟨intent, ?_, .refl intent⟩
        change (w.stagingWorker.queue ++ [queued]).find? _ = some intent
        rw [List.find?_append, show w.stagingWorker.queue.find? _ = some intent from h]
        rfl
    | record event => cases event <;> cases henqueue
    | _ => cases henqueue
  · exact exists_find?_of_advances (forall₂_advances_handle codec env hc henqueue w) h

end Commands

/-- The intent is in the queue, in a state of the given ones. -/
def StagedIn (states : StagingState → Prop) (intent : StagingIntent) (w : World) : Prop :=
  ∃ current, w.staged intent.id = some current ∧ StemsFrom intent current ∧ states current.state

/-- The intent has not been held back: it is pending, completed or failed. -/
abbrev Released : StagingIntent → World → Prop := StagedIn fun s => s ≠ .blocked

/-- The intent is completed or failed. -/
abbrev Settled : StagingIntent → World → Prop := StagedIn fun s => s.isTerminal = true

section Stability

variable (codec : Codec) (env : ℕ → Surroundings) (intent : StagingIntent)

theorem stable_stagedIn {states : StagingState → Prop}
    (hterminal : ∀ s : StagingState, s.isTerminal = true → states s) :
    Stable (handle codec env) (fun c => c.settles = true) (StagedIn states intent) := by
  rintro w c hc ⟨current, hfind, hstems, hstate⟩
  obtain ⟨after, hafter, hadvances⟩ := advances_handle codec env hc hfind
  refine ⟨after, hafter, hstems.trans hadvances.stems, ?_⟩
  rcases hadvances.state with hsame | hend
  · rw [hsame]
    exact hstate
  · exact hterminal _ hend

theorem stable_released :
    Stable (handle codec env) (fun c => c.settles = true) (Released intent) :=
  stable_stagedIn codec env intent fun s hs hblocked => by
    rw [hblocked] at hs
    cases hs

theorem stable_settled :
    Stable (handle codec env) (fun c => c.settles = true) (Settled intent) :=
  stable_stagedIn codec env intent fun _ hs => hs

end Stability

/-- The element that is changed is still the first one with the property. -/
theorem find?_updateFirst {α : Type} {p : α → Bool} {f : α → α} {l : List α} {a : α}
    (h : l.find? p = some a) (ha : p (f a) = true) : (updateFirst p f l).find? p = some (f a) := by
  induction l with
  | nil => cases h
  | cons b l ih =>
      rw [List.find?_cons] at h
      rw [updateFirst]
      split at h
      · next hb =>
          obtain rfl := Option.some.inj h
          rw [if_pos hb, List.find?_cons, ha]
      · next hb =>
          rw [hb, if_neg Bool.false_ne_true, List.find?_cons, hb]
          exact ih h

/-! ### A staging tick among other operations -/

/-- The load of the intent may be made at any time: its runtime is configured, and it is a
mock or live execution is enabled. -/
structure AppState.Runnable (state : AppState) (env : ℕ → Surroundings) (intent : StagingIntent) :
    Prop where
  configured : state.runtimes.lookup intent.targetRuntime.text ≠ none
  allowed : state.isMockRuntime intent.targetRuntime.text = true ∨
    ∀ n, (env n).liveExecutionEnabled = true

/-- The program brings this about among operations of the daemon. -/
abbrev WithstandsOperations (codec : Codec) (env : ℕ → Surroundings) {α : Type}
    (P : World → Prop) (p : Daemon α) (Q : α → World → Prop) : Prop :=
  Program.Withstands (handle codec env) (fun c => c.settles = true) P p Q

section Tick

variable {state : AppState} {codec : Codec} {env : ℕ → Surroundings} {intent : StagingIntent}

/-- What is stable is kept by every operation and its parts. -/
theorem withstands_of_settling {α : Type} {p : Daemon α} (hp : Settling p) {P : World → Prop}
    (hP : Stable (handle codec env) (fun c => c.settles = true) P) :
    WithstandsOperations codec env P p fun _ => P :=
  .keeps hp (fun _ _ => trivial) hP

/-- The outcome of a load settles the intent. -/
theorem settled_updateState {w : World} (h : Released intent w) {newState : StagingState}
    (hterminal : newState.isTerminal = true) (error : Option String) :
    Settled intent (handle codec env w (.updateState intent.id newState error)).2 := by
  obtain ⟨current, hfind, hstems, -⟩ := h
  have hid : current.id = intent.id := hstems.id
  cases newState with
  | pending | blocked => cases hterminal
  | completed =>
      exact ⟨current.markCompleted, find?_updateFirst hfind (decide_eq_true hid),
        ⟨hstems.1, hstems.2, hstems.3, hstems.4⟩, rfl⟩
  | failed =>
      exact ⟨current.markFailed (error.getD ""), find?_updateFirst hfind (decide_eq_true hid),
        ⟨hstems.1, hstems.2, hstems.3, hstems.4⟩, rfl⟩

/-- Loading an intent settles it, whether the load succeeds or fails. -/
theorem withstands_loadIntent {runtimeId : String} {copy : StagingIntent}
    (hid : copy.id = intent.id) :
    WithstandsOperations codec env (Released intent) (loadIntent runtimeId copy)
      fun _ => Settled intent := by
  have hreleased := stable_released codec env intent
  have hstore : ∀ {newState : StagingState}, newState.isTerminal = true → ∀ error,
      WithstandsOperations codec env (Released intent)
        (Daemon.updateState copy.id newState error) fun _ => Settled intent := by
    intro newState hterminal error
    refine .perform hreleased (fun _ => stable_settled codec env intent) fun w hw => ?_
    rw [hid]
    exact settled_updateState hw hterminal error
  refine Withstands.bind (Q := fun _ => Released intent)
    (withstands_of_settling (settling_perform rfl) hreleased) fun loaded => ?_
  cases loaded with
  | ok handle => exact hstore rfl none
  | error e => exact hstore rfl (some e)

/-- Where the load may be made it is. -/
theorem withstands_mutationAllowed {isMock : Bool} {P : World → Prop}
    (hP : Stable (handle codec env) (fun c => c.settles = true) P)
    (hallowed : isMock = true ∨ ∀ n, (env n).liveExecutionEnabled = true) :
    WithstandsOperations codec env P (mutationAllowed isMock) fun allowed w =>
      allowed = true ∧ P w := by
  unfold mutationAllowed
  split
  · exact .pure hP fun _ hw => ⟨rfl, hw⟩
  · next hmock =>
      refine .perform hP (fun _ => (Stable.const _).and hP) fun w hw => ?_
      exact ⟨hallowed.resolve_left hmock w.clock, hP w _ rfl hw⟩

/-- The tick settles an intent that may run when it comes to its copy of it. -/
theorem withstands_stageIntent (hrunnable : state.Runnable env intent) {copy : StagingIntent}
    (hid : copy.id = intent.id) (htarget : copy.targetRuntime = intent.targetRuntime) :
    WithstandsOperations codec env (Released intent) (state.stageIntent copy)
      fun _ => Settled intent := by
  have hreleased := stable_released codec env intent
  unfold AppState.stageIntent
  dsimp only
  rw [htarget]
  refine (withstands_mutationAllowed hreleased hrunnable.allowed).bind fun allowed => ?_
  refine Withstands.of_fact fun hallowed => ?_
  rw [if_pos hallowed]
  refine Withstands.bind (Q := fun _ => Released intent)
    (withstands_of_settling (settling_perform rfl) hreleased) fun _ => ?_
  cases hlookup : state.runtimes.lookup intent.targetRuntime.text with
  | none => exact absurd hlookup hrunnable.configured
  | some adapter => exact withstands_loadIntent hid

/-- When the tick reads the pending intents, the intent is one of them or it is settled. -/
theorem withstands_getPending :
    WithstandsOperations codec env (Released intent) Daemon.getPending fun pending w =>
      Settled intent w ∨ (∃ copy ∈ pending, copy.id = intent.id ∧
        copy.targetRuntime = intent.targetRuntime) ∧ Released intent w := by
  have hreleased := stable_released codec env intent
  refine .perform hreleased
    (fun _ => (stable_settled codec env intent).or ((Stable.const _).and hreleased)) ?_
  rintro w ⟨current, hfind, hstems, hstate⟩
  by_cases hpending : current.state = .pending
  · refine .inr ⟨⟨current, ?_, hstems.id, hstems.targetRuntime⟩, current, hfind, hstems, hstate⟩
    exact List.mem_filter.mpr ⟨List.mem_of_find?_eq_some hfind, decide_eq_true hpending⟩
  · refine .inl ⟨current, hfind, hstems, ?_⟩
    cases hcurrent : current.state with
    | blocked => exact absurd hcurrent hstate
    | pending => exact absurd hcurrent hpending
    | completed | failed => rfl

/-- A staging tick settles every intent that was released before it and may run. -/
theorem withstands_runStagingTick (hrunnable : state.Runnable env intent) :
    WithstandsOperations codec env (Released intent) state.runStagingTick
      fun _ => Settled intent := by
  have hreleased := stable_released codec env intent
  have hsettled := stable_settled codec env intent
  have hdraining : Files state codec [] (fun _ _ => True) {} commitDraining :=
    files_commitDraining {}
  have hready : Files state codec [] (fun _ _ => True) {} completeReady := files_completeReady {}
  have hstage : ∀ copy, Settling (state.stageIntent copy) := by
    intro copy
    have hfiles : Files state codec [] _ ({ pending := [copy] } : Dossier)
        (state.stageIntent copy) := files_stageIntent rfl (List.mem_singleton_self copy)
    exact settling_of_files hfiles
  refine (withstands_of_settling (settling_of_files hdraining) hreleased).bind fun _ => ?_
  refine (withstands_of_settling (settling_of_files hready) hreleased).bind fun _ => ?_
  refine withstands_getPending.bind fun pending => ?_
  have hkeep : ∀ {P : World → Prop}, Stable (handle codec env) (fun c => c.settles = true) P →
      ∀ copy ∈ pending, WithstandsOperations codec env P (state.stageIntent copy) fun _ => P :=
    fun hP copy _ => withstands_of_settling (hstage copy) hP
  refine .or (.forM hsettled (hkeep hsettled)) (.of_fact ?_)
  rintro ⟨copy, hmem, hid, htarget⟩
  exact .forM_of_mem hmem (withstands_stageIntent hrunnable hid htarget) hsettled
    (hkeep hreleased) (hkeep hsettled)

end Tick

/-! ### No intent is left behind -/

section Progress

variable (state : AppState) (codec : Codec) (env : ℕ → Surroundings)

/-- What a thread has still to do includes a whole staging tick, after the rest of what it is
at. The loop that the daemon is served with always has one before it. -/
def TickAhead (p : Daemon Unit) : Prop :=
  ∃ (rest : Daemon Unit) (later : List Operation),
    p = rest >>= fun _ => state.performAll codec (.stagingTick :: later)

theorem tickAhead_performAll {operations : List Operation} (h : .stagingTick ∈ operations) :
    TickAhead state codec (state.performAll codec operations) := by
  obtain ⟨before, later, rfl⟩ := List.append_of_mem h
  exact ⟨state.performAll codec before, later, Program.forM_append before _ _⟩

/-- Serve the handlers on an endless schedule, for some steps. -/
abbrev servedFor (handlers : List (List Operation)) (w : World) (schedule : ℕ → ℕ) (n : ℕ) :
    Pool Cmd Cmd.Resp Unit World :=
  Pool.after (handle codec env) (state.serving codec handlers w) schedule n

/-- In every interleaving of handlers, once an intent is pending that may run, the next staging
tick of a handler that gets a turn again and again completes or fails it for good, however the
ticks, the executors of pending intents and the readiness path overlap. -/
theorem staged_settles (handlers : List (List Operation)) (w : World) {schedule : ℕ → ℕ}
    {j n : ℕ} {p : Daemon Unit} {intent : StagingIntent} (hturns : Pool.Recurs schedule j)
    (hthread : (servedFor state codec env handlers w schedule n).threads[j]? = some p)
    (htick : TickAhead state codec p)
    (hqueued : (servedFor state codec env handlers w schedule n).shared.staged intent.id =
      some intent)
    (hpending : intent.state = .pending) (hrunnable : state.Runnable env intent) :
    ∃ m, n ≤ m ∧ ∀ k, m ≤ k → ∃ settled,
      (servedFor state codec env handlers w schedule k).shared.staged intent.id = some settled ∧
      StemsFrom intent settled ∧ settled.state.isTerminal = true := by
  have hthreads : ∀ p ∈ (state.serving codec handlers w).threads, Settling p := by
    intro p hp
    obtain ⟨own, -, rfl⟩ := List.mem_map.mp hp
    exact settling_performAll state codec own
  have hsettling : Settling p :=
    Pool.ensures_after (fun _ _ => trivial) hthreads n p (List.mem_of_getElem? hthread)
  have hsettled := stable_settled codec env intent
  obtain ⟨rest, later, rfl⟩ := htick
  have hp : WithstandsOperations codec env (Released intent)
      (rest >>= fun _ => state.performAll codec (.stagingTick :: later))
      fun _ => Settled intent := by
    have hrest : Settling rest := hsettling.of_bind.mono (fun _ hc => hc) fun _ _ => trivial
    refine (withstands_of_settling hrest (stable_released codec env intent)).bind fun _ => ?_
    refine (withstands_runStagingTick hrunnable).bind fun _ => ?_
    exact withstands_of_settling (settling_performAll state codec later) hsettled
  refine Pool.eventually_of_withstands (fun _ _ => trivial) hthreads hturns hthread hp hsettled ?_
  exact ⟨intent, hqueued, .refl intent, by rw [hpending]; exact fun h => nomatch h⟩

end Progress

/-! ### A load that is staged -/

open AppState

/-- One handler decides, and the other waits to make a staging tick. -/
def stagingHandlers : List (List Operation) :=
  [[.decide codingRequest], [.stagingTick]]

/-- The decision is made, and then the two take turns. -/
def stagingSchedule (n : ℕ) : ℕ :=
  if n < 26 then 0 else n % 2

theorem recurs_stagingSchedule : Pool.Recurs stagingSchedule 1 := by
  intro n
  refine ⟨2 * n + 27, by omega, ?_⟩
  rw [stagingSchedule, if_neg (by omega)]
  omega

/-- The decision queues the load for the mock, and the tick settles it. -/
theorem staged_settles_stagingSchedule :
    ∃ intent, (servedFor twoRuntimes default growsHot stagingHandlers twoRuntimesStart
        stagingSchedule 26).shared.staged ⟨20⟩ = some intent ∧
      ∃ m, 26 ≤ m ∧ ∀ k, m ≤ k → ∃ settled,
        (servedFor twoRuntimes default growsHot stagingHandlers twoRuntimesStart
          stagingSchedule k).shared.staged intent.id = some settled ∧
        StemsFrom intent settled ∧ settled.state.isTerminal = true := by
  have hfields : ((servedFor twoRuntimes default growsHot stagingHandlers twoRuntimesStart
      stagingSchedule 26).shared.staged ⟨20⟩).map (fun i => (i.id, i.state, i.targetRuntime)) =
      some (⟨20⟩, .pending, ⟨"a"⟩) := by
    decide +kernel
  obtain ⟨intent, hqueued, hintent⟩ := Option.map_eq_some_iff.mp hfields
  simp only [Prod.mk.injEq] at hintent
  obtain ⟨hid, hpending, htarget⟩ := hintent
  have hrunnable : twoRuntimes.Runnable growsHot intent :=
    ⟨by rw [htarget]; decide, .inl (by rw [htarget]; decide)⟩
  refine ⟨intent, hqueued, staged_settles twoRuntimes default growsHot stagingHandlers
    twoRuntimesStart recurs_stagingSchedule (j := 1) (p := twoRuntimes.performAll default
      [.stagingTick]) ?_ ?_ ?_ hpending hrunnable⟩
  · exact Pool.threads_after_of_idle 26 (by decide)
  · exact tickAhead_performAll twoRuntimes default (List.mem_singleton_self _)
  · rw [hid]
    exact hqueued

end Anemoi
