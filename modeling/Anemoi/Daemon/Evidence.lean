import Anemoi.Daemon.Decisions
import Anemoi.Daemon.Footprints

/-!
# The evidence behind a decision

A decision reads the cache of snapshots. What the cache holds for a runtime is a function
of the runtime's inspections so far: the last good snapshot, or the placeholder when there
were only failures. `Tracks` is this invariant. A tick breaks it between an inspection and
the write of its outcome and restores it; no other operation touches either side.

The cache does not forget the last good snapshot of a runtime that has failed since, so a
decision may select such a runtime. It does not when the snapshots kept that way yield no
candidate.
-/

namespace Anemoi

open Systems

/-- What the inspections of a runtime answered, oldest first. -/
def inspectionsOf (history : History) (runtimeId : String) :
    List (Except String RuntimeSnapshot) :=
  history.filterMap fun
    | ⟨.inspect r, answer⟩ =>
        if r = runtimeId then some (answer.map Subtype.val) else none
    | _ => none

/-- The snapshot of the last inspection that succeeded. -/
def lastGood (answers : List (Except String RuntimeSnapshot)) : Option RuntimeSnapshot :=
  (answers.filterMap Except.toOption).getLast?

/-- The most recent inspection of the runtime failed. -/
def SinceFailed (history : History) (runtimeId : String) : Prop :=
  ∃ e, (inspectionsOf history runtimeId).getLast? = some (.error e)

/-- What the cache holds for a runtime after these inspections. -/
def heldAfter (runtimeId : String) (answers : List (Except String RuntimeSnapshot)) :
    Option RuntimeSnapshot :=
  match lastGood answers with
  | some snapshot => some snapshot
  | none => if answers.isEmpty then none else some (.unavailable ⟨runtimeId⟩)

/-- The cache holds what the inspections of every runtime say. -/
def Tracks (history : History) (reconciler : Reconciler) : Prop :=
  ∀ runtimeId, (reconciler.cache.lookup runtimeId).map ReconciledSnapshot.snapshot =
    heldAfter runtimeId (inspectionsOf history runtimeId)

/-! ### Inspections -/

theorem inspectionsOf_append (history later : History) (runtimeId : String) :
    inspectionsOf (history ++ later) runtimeId =
      inspectionsOf history runtimeId ++ inspectionsOf later runtimeId := by
  rw [inspectionsOf, List.filterMap_append]
  rfl

theorem inspectionsOf_inspect (r : String) (answer : Except String (SnapshotOf r))
    (runtimeId : String) :
    inspectionsOf [⟨.inspect r, answer⟩] runtimeId =
      if r = runtimeId then [answer.map Subtype.val] else [] := by
  by_cases h : r = runtimeId <;> simp [inspectionsOf, h]

/-- Other events say nothing about a runtime. -/
theorem inspectionsOf_append_event {c : Cmd} (hc : ∀ r, c ≠ .inspect r) (history : History)
    (answer : c.Resp) (runtimeId : String) :
    inspectionsOf (history ++ [⟨c, answer⟩]) runtimeId = inspectionsOf history runtimeId := by
  have hnothing : inspectionsOf [⟨c, answer⟩] runtimeId = [] := by
    cases c with
    | inspect r => exact absurd rfl (hc r)
    | _ => rfl
  rw [inspectionsOf_append, hnothing, List.append_nil]

theorem ne_inspect_of_blind {c : Cmd} (hc : c.affectsDecisions = false) (r : String) :
    c ≠ .inspect r := by
  rintro rfl
  cases hc

theorem lastGood_append_ok (answers : List (Except String RuntimeSnapshot))
    (snapshot : RuntimeSnapshot) : lastGood (answers ++ [.ok snapshot]) = some snapshot := by
  simp [lastGood, Except.toOption]

theorem lastGood_append_error (answers : List (Except String RuntimeSnapshot)) (e : String) :
    lastGood (answers ++ [.error e]) = lastGood answers := by
  simp [lastGood, Except.toOption]

theorem heldAfter_append_ok (runtimeId : String)
    (answers : List (Except String RuntimeSnapshot)) (snapshot : RuntimeSnapshot) :
    heldAfter runtimeId (answers ++ [.ok snapshot]) = some snapshot := by
  rw [heldAfter, lastGood_append_ok]

theorem heldAfter_append_error (runtimeId : String)
    (answers : List (Except String RuntimeSnapshot)) (e : String) :
    heldAfter runtimeId (answers ++ [.error e]) =
      some ((heldAfter runtimeId answers).getD (.unavailable ⟨runtimeId⟩)) := by
  rw [heldAfter, heldAfter, lastGood_append_error]
  cases lastGood answers with
  | some snapshot => rfl
  | none => cases answers <;> rfl

theorem mem_inspectionsOf {history : History} {runtimeId : String}
    {answer : Except String RuntimeSnapshot} :
    answer ∈ inspectionsOf history runtimeId ↔
      ∃ inspected : Except String (SnapshotOf runtimeId),
        ⟨.inspect runtimeId, inspected⟩ ∈ history ∧ inspected.map Subtype.val = answer := by
  constructor
  · intro h
    obtain ⟨⟨c, inspected⟩, hmem, hanswer⟩ := List.mem_filterMap.mp h
    cases c with
    | inspect r =>
        dsimp only at hanswer
        split at hanswer
        · next hr =>
            subst hr
            exact ⟨inspected, hmem, Option.some.inj hanswer⟩
        · cases hanswer
    | _ => cases hanswer
  · rintro ⟨inspected, hmem, rfl⟩
    exact List.mem_filterMap.mpr ⟨_, hmem, if_pos rfl⟩

/-- A successful inspection answers with a snapshot of the runtime that was inspected. -/
theorem runtimeId_of_mem_inspectionsOf {history : History} {runtimeId : String}
    {snapshot : RuntimeSnapshot} (h : .ok snapshot ∈ inspectionsOf history runtimeId) :
    snapshot.runtimeId = ⟨runtimeId⟩ := by
  obtain ⟨inspected, _, hanswer⟩ := mem_inspectionsOf.mp h
  cases inspected with
  | error e => cases hanswer
  | ok s =>
      cases hanswer
      exact congrArg RuntimeId.mk s.2

/-- A runtime that has failed since was inspected and failed. -/
theorem SinceFailed.exists_failed {history : History} {runtimeId : String}
    (h : SinceFailed history runtimeId) :
    ∃ e, ⟨.inspect runtimeId, .error e⟩ ∈ history := by
  obtain ⟨e, he⟩ := h
  obtain ⟨inspected, hmem, hanswer⟩ := mem_inspectionsOf.mp (List.mem_of_getLast? he)
  cases inspected with
  | error e' => exact ⟨e', hmem⟩
  | ok s => cases hanswer

theorem mem_of_lastGood {answers : List (Except String RuntimeSnapshot)}
    {snapshot : RuntimeSnapshot} (h : lastGood answers = some snapshot) :
    .ok snapshot ∈ answers := by
  obtain ⟨answer, hmem, hanswer⟩ := List.mem_filterMap.mp (List.mem_of_getLast? h)
  cases answer with
  | error e => cases hanswer
  | ok s =>
      cases hanswer
      exact hmem

/-- The cache holds the last good snapshot of a runtime, or its placeholder. -/
theorem heldAfter_cases {runtimeId : String} {answers : List (Except String RuntimeSnapshot)}
    {snapshot : RuntimeSnapshot} (h : heldAfter runtimeId answers = some snapshot) :
    lastGood answers = some snapshot ∨ snapshot = .unavailable ⟨runtimeId⟩ := by
  unfold heldAfter at h
  cases hgood : lastGood answers with
  | some good =>
      rw [hgood] at h
      exact Or.inl h
  | none =>
      rw [hgood] at h
      dsimp only at h
      split at h
      · cases h
      · exact Or.inr (Option.some.inj h).symm

theorem runtimeId_of_heldAfter {history : History} {runtimeId : String}
    {snapshot : RuntimeSnapshot}
    (h : heldAfter runtimeId (inspectionsOf history runtimeId) = some snapshot) :
    snapshot.runtimeId = ⟨runtimeId⟩ := by
  rcases heldAfter_cases h with hgood | rfl
  · exact runtimeId_of_mem_inspectionsOf (mem_of_lastGood hgood)
  · rfl

/-- A tracked cache hands out, for every runtime, what its inspections left. -/
theorem Tracks.heldAfter_of_mem {history : History} {reconciler : Reconciler}
    (h : Tracks history reconciler) {now : DateTime} {snapshot : RuntimeSnapshot}
    (hmem : snapshot ∈ reconciler.getSnapshots now) :
    heldAfter snapshot.runtimeId.text (inspectionsOf history snapshot.runtimeId.text) =
      some snapshot := by
  obtain ⟨k, r, hk, rfl⟩ := Reconciler.mem_getSnapshots_iff.mp hmem
  have hheld := h k
  rw [hk, Option.map_some] at hheld
  rw [runtimeId_of_heldAfter hheld.symm]
  exact hheld.symm

/-! ### The invariant -/

namespace AppState

variable {state : AppState} {codec : Codec} {env : ℕ → Surroundings}

/-- The cache tracks the inspections, and the governance has the property `G`. -/
def Tracked (G : Governance → Prop) : Program.Condition Cmd.Resp World := fun history w =>
  Tracks history w.reconciler ∧ G w.governance

/-- The runtime was inspected with this answer, which the cache does not have yet. -/
def Inspected (G : Governance → Prop) (runtimeId : String)
    (answer : Except String RuntimeSnapshot) : Program.Condition Cmd.Resp World :=
  fun history w => ∃ earlier, Tracked G earlier w ∧ ∀ r, inspectionsOf history r =
    inspectionsOf earlier r ++ if runtimeId = r then [answer] else []

variable {G : Governance → Prop}

/-- A command that does not affect decisions leaves the cache and the governance as they
are. -/
theorem tracked_handle {c : Cmd} (hc : c.affectsDecisions = false) {history : History}
    {w : World} (h : Tracked G history w) : Tracked G history (handle codec env w c).2 := by
  cases c with
  | inspect r => cases hc
  | updateSnapshot r snapshot => cases hc
  | recordError r e => cases hc
  | mutate request => cases hc
  | _ => exact h

theorem tracked_event {c : Cmd} (hc : c.affectsDecisions = false) (history : History)
    (w : World) (h : Tracked G history w) :
    Tracked G (history ++ [⟨c, (handle codec env w c).1⟩]) (handle codec env w c).2 := by
  refine ⟨fun runtimeId => ?_, (tracked_handle hc h).2⟩
  rw [inspectionsOf_append_event (ne_inspect_of_blind hc)]
  exact (tracked_handle hc h).1 runtimeId

theorem tracked_command {c : Cmd} (hc : c.affectsDecisions = false) :
    Program.Triple (handle codec env) (Tracked G) (Program.perform c) fun _ => Tracked G :=
  .perform (tracked_event hc)

theorem tracked_of_blind {α : Type} {p : Daemon α} (hp : Blind p) :
    Program.Triple (handle codec env) (Tracked G) p fun _ => Tracked G :=
  Program.triple_of_ensures hp (fun _ _ => trivial)
    fun history w _ hc => tracked_event hc history w

theorem inspected_of_blind {α : Type} {p : Daemon α} (hp : Blind p)
    (runtimeId : String) (answer : Except String RuntimeSnapshot) :
    Program.Triple (handle codec env) (Inspected G runtimeId answer) p
      fun _ => Inspected G runtimeId answer := by
  refine Program.triple_of_ensures hp (fun _ _ => trivial) fun history w c hc hinspected => ?_
  obtain ⟨earlier, htracked, hanswers⟩ := hinspected
  refine ⟨earlier, tracked_handle hc htracked, fun r => ?_⟩
  rw [inspectionsOf_append_event (ne_inspect_of_blind hc)]
  exact hanswers r

/-- Writing the snapshot of an inspection restores the invariant. -/
theorem tracked_updateSnapshot (runtimeId : String) (snapshot : RuntimeSnapshot) :
    Program.Triple (handle codec env) (Inspected G runtimeId (.ok snapshot))
      (Daemon.updateSnapshot runtimeId snapshot) fun _ => Tracked G := by
  refine .perform fun history w hinspected => ?_
  obtain ⟨earlier, htracked, hanswers⟩ := hinspected
  refine ⟨fun r => ?_, htracked.2⟩
  have hupdate := Reconciler.lookup_update w.reconciler runtimeId snapshot
    (env w.clock).now r
  refine hupdate.trans ?_
  rw [inspectionsOf_append_event (fun _ => by rintro ⟨⟩), hanswers r]
  by_cases hr : r = runtimeId
  · rw [if_pos hr, if_pos hr.symm]
    exact (heldAfter_append_ok r _ snapshot).symm
  · rw [if_neg hr, if_neg (Ne.symm hr), List.append_nil]
    exact htracked.1 r

/-- So does recording the error of an inspection. -/
theorem tracked_recordError (runtimeId e : String) :
    Program.Triple (handle codec env) (Inspected G runtimeId (.error e))
      (Daemon.recordError runtimeId e) fun _ => Tracked G := by
  refine .perform fun history w hinspected => ?_
  obtain ⟨earlier, htracked, hanswers⟩ := hinspected
  refine ⟨fun r => ?_, htracked.2⟩
  have hrecord := Reconciler.lookup_recordError w.reconciler runtimeId e
    (env w.clock).now r
  refine hrecord.trans ?_
  rw [inspectionsOf_append_event (fun _ => by rintro ⟨⟩), hanswers r]
  by_cases hr : r = runtimeId
  · rw [if_pos hr, if_pos hr.symm, htracked.1 r]
    exact (heldAfter_append_error r _ e).symm
  · rw [if_neg hr, if_neg (Ne.symm hr), List.append_nil]
    exact htracked.1 r

theorem inspected_inspect (runtimeId : String) :
    Program.Triple (handle codec env) (Tracked G) (Daemon.inspect runtimeId)
      fun answer => Inspected G runtimeId (answer.map Subtype.val) := by
  refine .perform fun history w htracked => ?_
  refine ⟨history, htracked, fun r => ?_⟩
  rw [inspectionsOf_append]
  exact congrArg (inspectionsOf history r ++ ·) (inspectionsOf_inspect runtimeId _ r)

theorem tracked_reconcileRuntime (runtimeId : String) (round : UInt64) :
    Program.Triple (handle codec env) (Tracked G) (state.reconcileRuntime runtimeId round)
      fun _ => Tracked G := by
  refine (inspected_inspect runtimeId).bind fun answer => ?_
  cases answer with
  | ok snapshot =>
      have hrecord : Blind (state.recordInspection runtimeId snapshot round) :=
        blind_recordInspection state runtimeId snapshot round
      refine (inspected_of_blind hrecord runtimeId _).bind fun _ => ?_
      exact tracked_updateSnapshot runtimeId snapshot
  | error e => exact tracked_recordError runtimeId e

/-- A tick keeps the invariant. -/
theorem tracked_runReconciliationTick :
    Program.Triple (handle codec env) (Tracked G) state.runReconciliationTick
      fun _ => Tracked G :=
  (tracked_command rfl).bind fun round => .forM fun runtimeId _ =>
    tracked_reconcileRuntime runtimeId round

/-- Every routine keeps the invariant, whatever it does to the governance. -/
theorem Routine.tracked {α : Type} {p : Daemon α} (h : Routine state p) :
    Program.Triple (handle codec env) (Tracked fun _ => True) p
      fun _ => Tracked fun _ => True := by
  induction h with
  | blind h => exact tracked_of_blind h
  | tick => exact tracked_runReconciliationTick
  | edit request =>
      refine .perform fun history w htracked => ⟨fun runtimeId => ?_, trivial⟩
      rw [inspectionsOf_append_event (fun _ => by rintro ⟨⟩)]
      exact htracked.1 runtimeId
  | bind _ _ hp hf => exact hp.bind hf

/-! ### Decisions -/

/-- The decision selects no runtime whose most recent inspection failed. -/
def OnFreshEvidence (history : History) (d : Decision) : Prop :=
  ∀ runtimeId, SinceFailed history runtimeId → d.selectedRuntime ≠ some ⟨runtimeId⟩

/-- The snapshots kept of runtimes that have failed since yield no candidate. -/
def KeepsNoCandidate (scheduler : Scheduler) (request : InferenceRequest)
    (history : History) : Prop :=
  ∀ runtimeId snapshot c, SinceFailed history runtimeId →
    lastGood (inspectionsOf history runtimeId) = some snapshot →
    ¬Scheduler.Generated scheduler request [snapshot] c

/-- The scheduler selects no failed runtime when it reads a tracked cache and nothing
that was kept there yields a candidate. -/
theorem onFreshEvidence_of_tracks {history : History} {scheduler : Scheduler}
    {request : InferenceRequest} {snapshots : List RuntimeSnapshot} {stamp : Stamp}
    {d : Decision}
    (hheld : ∀ snapshot ∈ snapshots, heldAfter snapshot.runtimeId.text
      (inspectionsOf history snapshot.runtimeId.text) = some snapshot)
    (hdecide : scheduler.decide request snapshots stamp = .ok d)
    (hkeeps : KeepsNoCandidate scheduler request history) : OnFreshEvidence history d := by
  intro runtimeId hfailed hselected
  obtain ⟨c, hc, hruntime⟩ := Scheduler.exists_candidate_of_decide hdecide hselected
  obtain ⟨snapshot, hmem, hid, havailable, honly⟩ := hc.of_snapshot
  have hsnapshot := hheld snapshot hmem
  rw [hid, hruntime] at hsnapshot
  rcases heldAfter_cases hsnapshot with hgood | rfl
  · exact hkeeps runtimeId snapshot c hfailed hgood honly
  · cases havailable

theorem tracked_refresh :
    Program.Triple (handle codec env) (Tracked G) state.refresh fun _ => Tracked G := by
  refine (tracked_command rfl).bind fun stale => ?_
  split
  · exact tracked_runReconciliationTick
  · exact .pure fun _ _ htracked => htracked

/-- The part of a decision after the refresh. -/
theorem onFreshEvidence_decideOn {request : InferenceRequest} {d : Decision}
    (governance : Governance) :
    Program.Triple (handle codec env) (Tracked (· = governance))
      (do
        let snapshots ← Daemon.getSnapshots
        state.decideOn request snapshots)
      fun result history _ => result = .ok d →
        KeepsNoCandidate governance.effective.scheduler request history →
        OnFreshEvidence history d := by
  have hread : Program.Triple (handle codec env) (Tracked (· = governance))
      Daemon.getSnapshots fun snapshots history w => w.governance = governance ∧
        ∀ snapshot ∈ snapshots, heldAfter snapshot.runtimeId.text
          (inspectionsOf history snapshot.runtimeId.text) = some snapshot := by
    refine .perform fun history w htracked => ⟨htracked.2, fun snapshot hmem => ?_⟩
    rw [inspectionsOf_append_event (fun _ => by rintro ⟨⟩)]
    exact htracked.1.heldAfter_of_mem (((env w.clock).hashOrder_perm _).mem_iff.mp hmem)
  refine hread.bind fun snapshots => ?_
  rintro history w ⟨rfl, hheld⟩ hresult hkeeps
  obtain ⟨stamp, hdecide⟩ := decideOn_ok hresult
  refine onFreshEvidence_of_tracks (fun snapshot hmem => ?_) hdecide hkeeps
  -- the decision itself inspects nothing
  have hblind : Blind (state.decideOn request snapshots) :=
    blind_decideOn state request snapshots
  have hsame := Program.triple_of_ensures (h := handle codec env)
    (P := fun later _ => ∀ r, inspectionsOf later r = inspectionsOf history r)
    hblind (fun _ _ => trivial)
    (fun later w c hc hlater r => (inspectionsOf_append_event
      (ne_inspect_of_blind hc) later _ r).trans (hlater r)) history w fun _ => rfl
  rw [hsame]
  exact hheld snapshot hmem

/-- In every run of a daemon, a decision is made on fresh evidence if the snapshots kept
of runtimes that have failed since yield no candidate for the request. -/
theorem onFreshEvidence_decide (state : AppState) (codec : Codec) (env : ℕ → Surroundings)
    (governance : Governance) (disk : Disk) (operations : List Operation)
    (request : InferenceRequest) (d : Decision) :
    let before := (state.performAll codec operations).run (handle codec env)
      (.start governance disk)
    let after := (state.decide request).run (handle codec env) before.state
    after.result = .ok d →
    KeepsNoCandidate before.state.governance.effective.scheduler request
      (before.trace ++ after.trace) →
    OnFreshEvidence (before.trace ++ after.trace) d := by
  intro before after
  have hstart : Tracked (fun _ => True) [] (.start governance disk) :=
    ⟨fun _ => rfl, trivial⟩
  have hroutine : Routine state (state.performAll codec operations) :=
    Routine.performAll operations
  have hbefore : Tracked (fun _ => True) before.trace before.state :=
    hroutine.tracked [] _ hstart
  exact tracked_refresh.bind (fun _ => onFreshEvidence_decideOn before.state.governance)
    before.trace before.state ⟨hbefore.1, rfl⟩

/-! ### Two runs -/

/-- For the first commands both runtimes answer; then none does. -/
def thenDown (t : ℕ) : Surroundings :=
  if t < 16 then
    { (default : Surroundings) with
      inspect := fun r => hotAnswer r (if r = "a" then ["qwen9b"] else []) }
  else default

/-- The runtime `a` always answers; `b` reports that it is unavailable, and fails then. -/
def oneDown (t : ℕ) : Surroundings :=
  { (default : Surroundings) with
    inspect := fun r =>
      if r = "a" then hotAnswer r ["qwen9b"]
      else if t < 16 then .ok ⟨{ hotSnapshot r [] with available := false }, rfl⟩
      else .error "connection refused" }

/-- The history of two ticks and a decision, and what was decided. -/
def twoTicks (env : ℕ → Surroundings) : History × Except String Decision :=
  let before := (twoRuntimes.performAll default
    [.reconciliationTick, .reconciliationTick]).run (handle default env) twoRuntimesStart
  let after := (twoRuntimes.decide codingRequest).run (handle default env) before.state
  (before.trace ++ after.trace, after.result)

/-- The snapshot kept of the runtime that failed says that it is unavailable. -/
theorem keepsNoCandidate_oneDown (scheduler : Scheduler) (request : InferenceRequest) :
    KeepsNoCandidate scheduler request (twoTicks oneDown).1 := by
  intro runtimeId snapshot c hfailed hgood hgenerated
  have honly : (twoTicks oneDown).1.all (fun
      | ⟨.inspect r, .error _⟩ => r = "b"
      | _ => true) = true := by decide +kernel
  have hkept : (lastGood (inspectionsOf (twoTicks oneDown).1 "b")).map
      RuntimeSnapshot.available = some false := by decide +kernel
  obtain ⟨e, hmem⟩ := hfailed.exists_failed
  have hb : runtimeId = "b" := of_decide_eq_true (List.all_eq_true.mp honly _ hmem)
  rw [← hb, hgood, Option.map_some, Option.some.injEq] at hkept
  obtain ⟨same, hsame, _, havailable, _⟩ := hgenerated.of_snapshot
  rw [List.mem_singleton.mp hsame, hkept] at havailable
  cases havailable

theorem onFreshEvidence_oneDown :
    ∃ d, (twoTicks oneDown).2 = .ok d ∧ SinceFailed (twoTicks oneDown).1 "b" ∧
      OnFreshEvidence (twoTicks oneDown).1 d := by
  obtain ⟨d, h, _⟩ := exists_ok_of_map (r := (twoTicks oneDown).2)
    (f := Decision.selectedRuntime) (b := some ⟨"a"⟩) (by decide +kernel)
  have hfailed : SinceFailed (twoTicks oneDown).1 "b" :=
    ⟨"connection refused", by decide +kernel⟩
  exact ⟨d, h, hfailed, onFreshEvidence_decide twoRuntimes default oneDown _ _ _ codingRequest
    d h (keepsNoCandidate_oneDown _ _)⟩

/-- A runtime that has been down since the second tick is selected. -/
theorem not_onFreshEvidence_thenDown :
    ∃ d, (twoTicks thenDown).2 = .ok d ∧ ¬OnFreshEvidence (twoTicks thenDown).1 d := by
  obtain ⟨d, h, hselected⟩ := exists_ok_of_map (r := (twoTicks thenDown).2)
    (f := Decision.selectedRuntime) (b := some ⟨"a"⟩) (by decide +kernel)
  have hfailed : SinceFailed (twoTicks thenDown).1 "a" :=
    ⟨"connection refused", by decide +kernel⟩
  exact ⟨d, h, fun hfresh => hfresh "a" hfailed hselected⟩

end AppState

end Anemoi
