import Anemoi.Daemon.Decisions

/-!
# Refused evictions

The walk over the actions of an eviction plan asks the gate at each of them, so a plan that is
refused at a live runtime has already unloaded on the mock runtimes in front of it, and the error
does not say so. `calls_of_refused` is what a refusal promises: the calls made are those of the
actions before the refused one, each on a mock or right after the gate was read as open.
-/

namespace Anemoi

open Systems

/-- The runtime and the model of an unload. -/
def Cmd.unloadCall : Cmd → Option (String × ModelId)
  | unloadModel runtimeId model => some (runtimeId, model)
  | _ => none

/-- The calls of `unload_model` in a run. -/
def unloadCalls (trace : History) : List (String × ModelId) :=
  trace.filterMap fun e => e.1.unloadCall

/-- What a runtime failed to unload with. -/
def unloadFailure : Program.Event Cmd.Resp → Option String
  | ⟨.unloadModel _ _, .error e⟩ => some e
  | _ => none

/-- What a plan is refused with. -/
def liveEvictionError : String :=
  "Live eviction requires ANEMOI_ENABLE_LIVE_EXECUTE=1"

namespace AppState

variable (state : AppState)

/-- The call that an action asks for: it unloads a model on a runtime of the daemon. -/
def callOf (action : RuntimeAction) : Option (String × ModelId) :=
  match action.kind, action.modelId with
  | .unload, some modelId =>
      (state.runtimes.lookup action.runtimeId.text).map fun _ => (action.runtimeId.text, modelId)
  | _, _ => none

/-- Each call that unloads was made on a mock, or right after the gate was read as open. -/
def OpenFor (trace : History) : Prop :=
  ∀ earlier later runtimeId model answer,
    trace = earlier ++ ⟨.unloadModel runtimeId model, answer⟩ :: later →
    state.isMockRuntime runtimeId = true ∨
      earlier.getLast? = some ⟨.liveExecutionEnabled, true⟩

/-- What the walk did when it was refused at an action: it made the calls of the actions before
and no others, and the last thing it did was to ask the gate, which was closed. -/
structure RefusedAt (before : List RuntimeAction) (refused : RuntimeAction) (trace : History) :
    Prop where
  unload : refused.kind = .unload ∧ refused.modelId.isSome
  live : state.isMockRuntime refused.runtimeId.text = false
  calls : unloadCalls trace = before.filterMap state.callOf
  last : trace.getLast? = some ⟨.liveExecutionEnabled, false⟩
  opened : state.OpenFor trace

/-- What the walk did at an action that it went on from. -/
structure WentOn (action : RuntimeAction) (done : History) : Prop where
  calls : unloadCalls done = [action].filterMap state.callOf
  opened : state.OpenFor done

variable {state}

theorem openFor_nil : state.OpenFor [] := by
  intro earlier later runtimeId model answer hsplit
  simp at hsplit

/-- To ask the gate is no call. -/
theorem openFor_gate (answer : Bool) : state.OpenFor [⟨.liveExecutionEnabled, answer⟩] := by
  intro earlier later runtimeId model unloaded hsplit
  have hmem : ⟨.unloadModel runtimeId model, unloaded⟩ ∈
      ([⟨.liveExecutionEnabled, answer⟩] : History) := by
    rw [hsplit]
    simp
  cases List.mem_singleton.mp hmem

/-- An event of two histories in turn lies behind the whole first one, or in the first one. -/
theorem append_eq_append_cons {done trace earlier later : History} {e : Program.Event Cmd.Resp}
    (h : done ++ trace = earlier ++ e :: later) :
    (∃ between, earlier = done ++ between ∧ trace = between ++ e :: later) ∨
      ∃ rest, done = earlier ++ e :: rest := by
  rcases List.append_eq_append_iff.mp h with ⟨between, hearlier, htrace⟩ | ⟨rest, hdone, hrest⟩
  · exact .inl ⟨between, hearlier, htrace⟩
  · cases rest with
    | nil => exact .inl ⟨[], by simp [hdone], hrest.symm⟩
    | cons e' rest =>
        obtain ⟨rfl, -⟩ := List.cons.inj hrest
        exact .inr ⟨rest, hdone⟩

theorem OpenFor.append {done trace : History} (hdone : state.OpenFor done)
    (htrace : state.OpenFor trace) : state.OpenFor (done ++ trace) := by
  intro earlier later runtimeId model answer hsplit
  rcases append_eq_append_cons hsplit with ⟨between, rfl, hbetween⟩ | ⟨rest, hrest⟩
  · refine (htrace between later runtimeId model answer hbetween).imp_right fun hlast => ?_
    rw [List.getLast?_append, hlast, Option.some_or]
  · exact hdone earlier rest runtimeId model answer hrest

/-- An unload that the gate is open for may follow. -/
theorem OpenFor.unload {asked : History} (hasked : state.OpenFor asked) {runtimeId : String}
    (hgate : state.isMockRuntime runtimeId = true ∨
      asked.getLast? = some ⟨.liveExecutionEnabled, true⟩)
    (model : ModelId) (answer : Except String Unit) :
    state.OpenFor (asked ++ [⟨.unloadModel runtimeId model, answer⟩]) := by
  intro earlier later runtimeId' model' answer' hsplit
  rcases append_eq_append_cons hsplit with ⟨between, rfl, hbetween⟩ | ⟨rest, hrest⟩
  · cases between with
    | nil =>
        obtain ⟨hcall, -⟩ := List.cons.inj hbetween
        cases hcall
        rwa [List.append_nil]
    | cons e between => simp at hbetween
  · exact hasked earlier rest runtimeId' model' answer' hrest

/-- Behind an action that the walk went on from, a refusal is one of the whole walk. -/
theorem RefusedAt.cons {action refused : RuntimeAction} {before : List RuntimeAction}
    {done trace : History} (h : state.RefusedAt before refused trace)
    (hdone : state.WentOn action done) :
    state.RefusedAt (action :: before) refused (done ++ trace) where
  unload := h.unload
  live := h.live
  calls := by
    rw [unloadCalls, List.filterMap_append, ← unloadCalls, hdone.calls, ← unloadCalls, h.calls,
      ← List.filterMap_append, List.singleton_append]
  last := by rw [List.getLast?_append, h.last, Option.some_or]
  opened := hdone.opened.append h.opened

section Run

variable (state) (h : Program.Handler Cmd.Resp World)

/-- The gate for one runtime: what is asked, and whether the unload may follow. -/
theorem run_mutationAllowed (runtimeId : String) (w : World) :
    (∃ asked w', Program.run h (mutationAllowed (state.isMockRuntime runtimeId)) w =
        ⟨true, w', asked⟩ ∧ unloadCalls asked = [] ∧ state.OpenFor asked ∧
        (state.isMockRuntime runtimeId = true ∨
          asked.getLast? = some ⟨.liveExecutionEnabled, true⟩)) ∨
      ∃ w', Program.run h (mutationAllowed (state.isMockRuntime runtimeId)) w =
          ⟨false, w', [⟨.liveExecutionEnabled, false⟩]⟩ ∧
        state.isMockRuntime runtimeId = false := by
  cases hmock : state.isMockRuntime runtimeId with
  | true => exact .inl ⟨[], w, rfl, rfl, openFor_nil, .inl rfl⟩
  | false =>
      have hrun : Program.run h (mutationAllowed false) w =
          ⟨(h w .liveExecutionEnabled).1, (h w .liveExecutionEnabled).2,
            [⟨.liveExecutionEnabled, (h w .liveExecutionEnabled).1⟩]⟩ := rfl
      rw [hrun]
      cases hopen : (h w .liveExecutionEnabled).1 with
      | true => exact .inl ⟨_, _, rfl, rfl, openFor_gate true, .inr rfl⟩
      | false => exact .inr ⟨_, rfl, rfl⟩

/-- The calls at an action whose runtime the gate is open for: what it asked, and the unload. -/
theorem wentOn_unload {action : RuntimeAction} {modelId : ModelId} {adapter : Adapter}
    {asked : History} (hkind : action.kind = .unload) (hmodel : action.modelId = some modelId)
    (hadapter : state.runtimes.lookup action.runtimeId.text = some adapter)
    (hcalls : unloadCalls asked = []) (hopen : state.OpenFor asked)
    (hgate : state.isMockRuntime action.runtimeId.text = true ∨
      asked.getLast? = some ⟨.liveExecutionEnabled, true⟩) (answer : Except String Unit) :
    state.WentOn action (asked ++ [⟨.unloadModel action.runtimeId.text modelId, answer⟩]) := by
  constructor
  · rw [unloadCalls, List.filterMap_append, ← unloadCalls, hcalls, List.filterMap_cons,
      List.filterMap_cons, callOf, hkind, hmodel, hadapter]
    rfl
  · exact hopen.unload hgate modelId answer

/-- The walk goes on from an action that asks for no call. -/
theorem wentOn_of_callOf_none {action : RuntimeAction} {asked : History}
    (hnone : state.callOf action = none) (hcalls : unloadCalls asked = [])
    (hopen : state.OpenFor asked) : state.WentOn action asked := by
  refine ⟨?_, hopen⟩
  rw [hcalls, List.filterMap_cons_none hnone]
  rfl

/-- The gate is closed for the first action of the walk. -/
theorem refusedAt_nil {action : RuntimeAction} {modelId : ModelId}
    (hkind : action.kind = .unload) (hmodel : action.modelId = some modelId)
    (hmock : state.isMockRuntime action.runtimeId.text = false) :
    state.RefusedAt [] action [⟨.liveExecutionEnabled, false⟩] where
  unload := ⟨hkind, Option.isSome_of_eq_some hmodel⟩
  live := hmock
  calls := rfl
  last := rfl
  opened := openFor_gate false

variable {state}

/-- One action of the walk: it goes on behind it, it is refused, or the runtime fails. -/
theorem unloadAll_cons (action : RuntimeAction) (rest : List RuntimeAction)
    (results : List String) (w : World) :
    let o := Program.run h (state.unloadAll (action :: rest) results) w
    (∃ done results' w', state.WentOn action done ∧
        o.result = (Program.run h (state.unloadAll rest results') w').result ∧
        o.trace = done ++ (Program.run h (state.unloadAll rest results') w').trace) ∨
      (state.RefusedAt [] action o.trace ∧ o.result = .error liveEvictionError) ∨
      ∃ e runtimeId model, o.result = .error e ∧
        ⟨.unloadModel runtimeId model, .error e⟩ ∈ o.trace := by
  rw [unloadAll]
  split
  · next modelId hkind hmodel =>
      simp only [Program.run_bind]
      rcases run_mutationAllowed state h action.runtimeId.text w with
        ⟨asked, w', hrun, hcalls, hopen, hgate⟩ | ⟨w', hrun, hmock⟩
      · rw [hrun]
        simp only [if_true]
        cases hadapter : state.runtimes.lookup action.runtimeId.text with
        | none =>
            have hnone : state.callOf action = none := by
              rw [callOf, hkind, hmodel, hadapter]
              rfl
            exact .inl ⟨asked, results, w', wentOn_of_callOf_none state hnone hcalls hopen, rfl,
              rfl⟩
        | some adapter =>
            have hdone := wentOn_unload state hkind hmodel hadapter hcalls hopen hgate
            rw [Daemon.unloadModel, Program.perform_bind, Program.run_call]
            cases hanswer : (h w' (.unloadModel action.runtimeId.text modelId)).1 with
            | error e =>
                refine .inr (.inr ⟨e, action.runtimeId.text, modelId, rfl, ?_⟩)
                exact List.mem_append_right _ List.mem_cons_self
            | ok u =>
                refine .inl ⟨_, _, _, hdone (.ok u), rfl, ?_⟩
                rw [List.append_assoc]
                rfl
      · rw [hrun]
        exact .inr (.inl ⟨refusedAt_nil state hkind hmodel hmock, rfl⟩)
  · next hkind =>
      have hnone : state.callOf action = none := by
        rw [callOf]
        split
        · next modelId hunload hmodel => exact absurd hmodel (hkind modelId hunload)
        · rfl
      exact .inl ⟨[], results, w, wentOn_of_callOf_none state hnone rfl openFor_nil, rfl, rfl⟩

/-- The walk is refused at one of its actions, unless a runtime fails with the same text. -/
theorem refusedAt_unloadAll (actions : List RuntimeAction) (results : List String) (w : World)
    (hresult : (Program.run h (state.unloadAll actions results) w).result =
      .error liveEvictionError)
    (hown : liveEvictionError ∉
      (Program.run h (state.unloadAll actions results) w).trace.filterMap unloadFailure) :
    ∃ before refused after, actions = before ++ refused :: after ∧
      state.RefusedAt before refused (Program.run h (state.unloadAll actions results) w).trace := by
  induction actions generalizing results w with
  | nil => cases hresult
  | cons action rest ih =>
      rcases unloadAll_cons h action rest results w with
        ⟨done, results', w', hdone, hsame, htrace⟩ | ⟨hrefused, -⟩ |
        ⟨e, runtimeId, model, herror, hmem⟩
      · rw [hsame] at hresult
        rw [htrace] at hown ⊢
        rw [List.filterMap_append, List.mem_append, not_or] at hown
        obtain ⟨before, refused, after, rfl, hrefused⟩ := ih results' w' hresult hown.2
        exact ⟨action :: before, refused, after, rfl, hrefused.cons hdone⟩
      · exact ⟨[], action, rest, rfl, hrefused⟩
      · rw [herror, Except.error.injEq] at hresult
        rw [hresult] at hmem
        exact (hown (List.mem_filterMap.mpr ⟨_, hmem, rfl⟩)).elim

end Run

/-- When a plan is refused, the calls made are those of the actions before the refused one, each
on a mock or behind an open gate; the refused action and those after it have made none. -/
theorem calls_of_refused (state : AppState) (codec : Codec) (env : ℕ → Surroundings) (w : World)
    (plan : ActionPlan) (approved : Bool)
    (hresult : ((state.executeEvictionPlan plan approved).run (handle codec env) w).result =
      .error "Live eviction requires ANEMOI_ENABLE_LIVE_EXECUTE=1")
    (hown : "Live eviction requires ANEMOI_ENABLE_LIVE_EXECUTE=1" ∉
      ((state.executeEvictionPlan plan approved).run (handle codec env) w).trace.filterMap
        unloadFailure) :
    ∃ before refused after, plan.actions = before ++ refused :: after ∧
      state.RefusedAt before refused
        ((state.executeEvictionPlan plan approved).run (handle codec env) w).trace := by
  rw [executeEvictionPlan] at hresult hown ⊢
  split at hresult
  · cases hresult
  · next hexecuted =>
      rw [if_neg hexecuted] at hown ⊢
      exact refusedAt_unloadAll (handle codec env) plan.actions [] w hresult hown

/-- An unload on the mock, and one on the runtime that is none. -/
def mockThenLive : ActionPlan where
  decisionId := ⟨0⟩
  actions := ["a", "b"].map fun runtimeId =>
    { kind := .unload, runtimeId := ⟨runtimeId⟩, modelId := some ⟨"qwen9b"⟩
      isForeground := false, isMutating := true, reason := "idle", expectedCostMs := none }
  dryRun := false

/-- The model is gone from the mock when the plan is refused. -/
theorem refused_mockThenLive :
    ¬∀ (state : AppState) (codec : Codec) (env : ℕ → Surroundings) (w : World)
      (plan : ActionPlan), plan.dryRun = false →
      ((state.executeEvictionPlan plan true).run (handle codec env) w).result =
        .error "Live eviction requires ANEMOI_ENABLE_LIVE_EXECUTE=1" →
      unloadCalls ((state.executeEvictionPlan plan true).run (handle codec env) w).trace = [] := by
  intro hall
  have hcalls := hall twoRuntimes default (fun _ => default) twoRuntimesStart mockThenLive rfl
    (by decide +kernel)
  exact absurd hcalls (by decide +kernel)

theorem calls_of_refused_mockThenLive :
    ∃ before refused after, mockThenLive.actions = before ++ refused :: after ∧
      twoRuntimes.RefusedAt before refused
        ((twoRuntimes.executeEvictionPlan mockThenLive true).run
          (handle default fun _ => default) twoRuntimesStart).trace := by
  exact calls_of_refused twoRuntimes default (fun _ => default) twoRuntimesStart mockThenLive
    true (by decide +kernel) (by decide +kernel)

end AppState

end Anemoi
