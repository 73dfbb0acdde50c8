import Anemoi.Daemon.Staging

/-!
# What the escalation cache keeps

Lookups after the operations of the cache: pruning and eviction only drop entries, a write
adds the one it was asked to, and a commit adds entries of intents that had their context
pending, which they give up for a reference.
-/

namespace AList

open Systems

variable {κ ν : Type*} [DecidableEq κ]

theorem lookup_retain_iff {m : Table κ ν} {p : ν → Bool} {k : κ} {v : ν} :
    (m.retain p).lookup k = some v ↔ m.lookup k = some v ∧ p v = true := by
  rw [← Option.mem_def, ← Option.mem_def, mem_lookup_iff, mem_lookup_iff, retain,
    List.mem_filter]

end AList

namespace Anemoi

open Systems

section Lists

variable {α β : Type}

theorem exists_of_mem_forall₂ {R : α → β → Prop} {l : List α} {l' : List β}
    (h : List.Forall₂ R l l') {b : β} (hb : b ∈ l') : ∃ a ∈ l, R a b := by
  induction h with
  | nil => cases hb
  | @cons a b' l l' hab _ ih =>
      rcases List.mem_cons.mp hb with rfl | hb
      · exact ⟨a, List.mem_cons_self, hab⟩
      · obtain ⟨a', ha', hR⟩ := ih hb
        exact ⟨a', List.mem_cons_of_mem a ha', hR⟩

theorem forall₂_updateFirst {R : α → α → Prop} {p : α → Bool} {f : α → α}
    (hrefl : ∀ a, R a a) (hf : ∀ a, p a = true → R a (f a)) (l : List α) :
    List.Forall₂ R l (updateFirst p f l) := by
  induction l with
  | nil => exact .nil
  | cons a l ih =>
      rw [updateFirst]
      cases hp : p a with
      | true => exact .cons (hf a hp) (List.forall₂_same.mpr fun b _ => hrefl b)
      | false => exact .cons (hrefl a) ih

theorem forall₂_trans {γ : Type} {R : α → β → Prop} {S : β → γ → Prop} {T : α → γ → Prop}
    {l : List α} {l' : List β} {l'' : List γ} (h : List.Forall₂ R l l')
    (h' : List.Forall₂ S l' l'') (hT : ∀ a b c, R a b → S b c → T a c) :
    List.Forall₂ T l l'' := by
  induction h generalizing l'' with
  | nil =>
      cases h'
      exact .nil
  | @cons a b l l' hab _ ih =>
      cases h' with
      | cons hbc hrest => exact .cons (hT _ _ _ hab hbc) (ih hrest)

end Lists

namespace EscalationContextCache

theorem lookup_of_lookup_evictFor {capacity : ℕ} {intentId k : Uuid} {fuel : ℕ}
    {entries : Table Uuid EscalationContextEntry} {e : EscalationContextEntry}
    (h : (evictFor capacity intentId fuel entries).lookup k = some e) :
    entries.lookup k = some e := by
  induction fuel generalizing entries with
  | zero => exact h
  | succ fuel ih =>
      rw [evictFor] at h
      split at h
      · split at h
        · exact h
        · have herase := ih h
          rw [AList.lookup_erase_eq_ite] at herase
          split at herase
          · cases herase
          · exact herase
      · exact h

theorem length_evictFor_le (capacity : ℕ) (intentId : Uuid) (fuel : ℕ)
    (entries : Table Uuid EscalationContextEntry) :
    (evictFor capacity intentId fuel entries).entries.length ≤ entries.entries.length := by
  induction fuel generalizing entries with
  | zero => exact le_rfl
  | succ fuel ih =>
      rw [evictFor]
      split
      · split
        · exact le_rfl
        · exact (ih _).trans (List.kerase_sublist _ _).length_le
      · exact le_rfl

/-- Where there is room nothing is evicted. -/
theorem evictFor_of_lt {capacity : ℕ} {intentId : Uuid} (fuel : ℕ)
    {entries : Table Uuid EscalationContextEntry} (h : entries.entries.length < capacity) :
    evictFor capacity intentId fuel entries = entries := by
  cases fuel with
  | zero => rfl
  | succ fuel =>
      rw [evictFor, decide_eq_false (Nat.not_le.mpr h), Bool.false_and]
      exact if_neg Bool.false_ne_true

/-- The number of entries that are live. -/
def liveEntries (cache : EscalationContextCache) (now : DateTime) : ℕ :=
  cache.entries.entries.countP fun e => cache.live now e.2

theorem length_retain_live (cache : EscalationContextCache) (now : DateTime) :
    (cache.entries.retain (cache.live now)).entries.length = cache.liveEntries now :=
  List.countP_eq_length_filter.symm

/-- A write adds one live entry at most. -/
theorem liveEntries_writeAt_le (cache : EscalationContextCache) (intentId : Uuid)
    (payload : String) (now : DateTime) :
    (cache.writeAt intentId payload now).2.liveEntries now ≤ cache.liveEntries now + 1 := by
  refine List.countP_le_length.trans ?_
  rw [writeAt]
  dsimp only
  rw [AList.entries_insert, List.length_cons, ← length_retain_live]
  exact Nat.succ_le_succ ((List.kerase_sublist _ _).length_le.trans (length_evictFor_le ..))

/-- What a write takes away had expired, or there were live entries in every place. -/
theorem lookup_writeAt_of_ne {cache : EscalationContextCache} {intentId k : Uuid}
    (payload : String) {now : DateTime} {e : EscalationContextEntry}
    (h : cache.entries.lookup k = some e) (hk : k ≠ intentId) :
    (cache.writeAt intentId payload now).2.entries.lookup k = some e ∨
      cache.live now e = false ∨ cache.capacity ≤ cache.liveEntries now := by
  by_cases hroom : cache.capacity ≤ cache.liveEntries now
  · exact Or.inr (Or.inr hroom)
  · cases hlive : cache.live now e with
    | false => exact Or.inr (Or.inl rfl)
    | true =>
        left
        rw [writeAt]
        dsimp only
        rw [AList.lookup_insert_ne hk, evictFor_of_lt, AList.lookup_retain_iff]
        · exact ⟨h, hlive⟩
        · rw [length_retain_live]
          exact Nat.not_le.mp hroom

/-- A write keeps no entry but live ones, and adds its own. -/
theorem lookup_writeAt {cache : EscalationContextCache} {intentId k : Uuid} {payload : String}
    {now : DateTime} {e : EscalationContextEntry}
    (h : (cache.writeAt intentId payload now).2.entries.lookup k = some e) :
    k = intentId ∧ e = ⟨payload, now⟩ ∨
      k ≠ intentId ∧ cache.entries.lookup k = some e := by
  rw [writeAt] at h
  dsimp only at h
  rw [AList.lookup_insert_eq_ite] at h
  split at h
  next hk => exact Or.inl ⟨hk, (Option.some.inj h).symm⟩
  next hk =>
    exact Or.inr ⟨hk, (AList.lookup_retain_iff.mp (lookup_of_lookup_evictFor h)).1⟩

theorem lookup_takeAt (cache : EscalationContextCache) (contextRef : ContextRef)
    (now : DateTime) (k : Uuid) :
    (cache.takeAt contextRef now).2.entries.lookup k =
      if k = contextRef.intentId then none else cache.entries.lookup k := by
  unfold takeAt
  split
  next hnone =>
    split
    next hk => rw [hk, hnone]
    next => rfl
  next => exact AList.lookup_erase_eq_ite _ _ _

/-- A payload that is returned was in the cache. -/
theorem lookup_of_takeAt {cache : EscalationContextCache} {contextRef : ContextRef}
    {now : DateTime} {payload : String}
    (h : (cache.takeAt contextRef now).1 = some payload) :
    ∃ e, cache.entries.lookup contextRef.intentId = some e ∧ e.payload = payload := by
  unfold takeAt at h
  split at h
  next => cases h
  next e he =>
    refine ⟨e, he, ?_⟩
    dsimp only at h
    split at h
    · exact Option.some.inj h
    · cases h

end EscalationContextCache

namespace StagingWorker

/-- The intent gives up its pending context for a reference to it. -/
def Commits (intent committed : StagingIntent) : Prop :=
  ∃ payload, intent.contextRef = none ∧ intent.pendingContext = some payload ∧
    committed = { intent with contextRef := some ⟨intent.id⟩, pendingContext := none }

/-- The intent has a context to commit, and its foreground model drains. -/
def awaitsCommit (drainingModels : List ModelId) (intent : StagingIntent) : Bool :=
  intent.contextRef.isNone && intent.pendingContext.isSome &&
    intent.foregroundModel.any fun model => drainingModels.contains model

theorem commitOne_cases (drainingModels : List ModelId) (now : DateTime)
    (cache : EscalationContextCache) (intent : StagingIntent) :
    commitOne drainingModels now cache intent = (intent, cache) ∨
      ∃ payload, awaitsCommit drainingModels intent = true ∧ intent.contextRef = none ∧
        intent.pendingContext = some payload ∧
          commitOne drainingModels now cache intent =
            ({ intent with contextRef := some ⟨intent.id⟩, pendingContext := none },
              (cache.writeAt intent.id payload now).2) := by
  unfold commitOne awaitsCommit
  dsimp only
  split
  next payload href hpending =>
    split
    next hdraining =>
      refine Or.inr ⟨payload, ?_, href, hpending, rfl⟩
      rw [href, hpending, hdraining]
      rfl
    next => exact Or.inl rfl
  next => exact Or.inl rfl

/-- A commit leaves each intent as it is or commits it. -/
theorem forall₂_commitAll (drainingModels : List ModelId) (now : DateTime)
    (cache : EscalationContextCache) (queue : List StagingIntent) :
    List.Forall₂ (fun intent after => after = intent ∨ Commits intent after) queue
      (commitAll drainingModels now cache queue).1 := by
  induction queue generalizing cache with
  | nil => exact .nil
  | cons intent rest ih =>
      refine .cons ?_ (ih _)
      rcases commitOne_cases drainingModels now cache intent with
        hsame | ⟨payload, -, href, hp, hc⟩
      · exact Or.inl (congrArg Prod.fst hsame)
      · exact Or.inr ⟨payload, href, hp, congrArg Prod.fst hc⟩

theorem map_id_commitAll (drainingModels : List ModelId) (now : DateTime)
    (cache : EscalationContextCache) (queue : List StagingIntent) :
    (commitAll drainingModels now cache queue).1.map StagingIntent.id =
      queue.map StagingIntent.id := by
  rw [← List.forall₂_eq_eq_eq, List.forall₂_map_left_iff, List.forall₂_map_right_iff]
  refine (forall₂_commitAll drainingModels now cache queue).flip.imp ?_
  rintro after intent (rfl | ⟨payload, -, -, rfl⟩) <;> rfl

/-- An entry of the cache after a commit was there before, or is the context of an intent
that the commit committed. -/
theorem lookup_commitAll {drainingModels : List ModelId} {now : DateTime}
    {cache : EscalationContextCache} {queue : List StagingIntent} {k : Uuid}
    {e : EscalationContextEntry}
    (h : (commitAll drainingModels now cache queue).2.entries.lookup k = some e) :
    cache.entries.lookup k = some e ∨
      ∃ intent ∈ queue, ∃ after ∈ (commitAll drainingModels now cache queue).1,
        Commits intent after ∧ intent.id = k ∧ intent.pendingContext = some e.payload := by
  induction queue generalizing cache with
  | nil => exact Or.inl h
  | cons intent rest ih =>
      rw [commitAll] at h ⊢
      rcases ih h with hcache | ⟨i, hi, after, hafter, hcommits, hid, hpayload⟩
      · rcases commitOne_cases drainingModels now cache intent with
          hsame | ⟨payload, -, href, hp, hc⟩
        · rw [hsame] at hcache
          exact Or.inl hcache
        · rw [hc] at hcache
          rcases EscalationContextCache.lookup_writeAt hcache with ⟨hk, he⟩ | ⟨-, hold⟩
          · refine Or.inr ⟨intent, List.mem_cons_self, _, List.mem_cons_self, ?_, hk.symm, ?_⟩
            · exact ⟨payload, href, hp, congrArg Prod.fst hc⟩
            · rw [hp, he]
          · exact Or.inl hold
      · exact Or.inr ⟨i, List.mem_cons_of_mem _ hi, after, List.mem_cons_of_mem _ hafter, hcommits,
          hid, hpayload⟩

/-- What a commit takes away had expired, or the live entries and the contexts that are
committed do not all fit. -/
theorem lookup_commitAll_of_ne {drainingModels : List ModelId} {now : DateTime}
    {cache : EscalationContextCache} {queue : List StagingIntent} {k : Uuid}
    {e : EscalationContextEntry} (h : cache.entries.lookup k = some e)
    (hk : ∀ intent ∈ queue, intent.pendingContext ≠ none → k ≠ intent.id) :
    (commitAll drainingModels now cache queue).2.entries.lookup k = some e ∨
      cache.live now e = false ∨
        cache.capacity < cache.liveEntries now + queue.countP (awaitsCommit drainingModels) := by
  induction queue generalizing cache with
  | nil => exact Or.inl h
  | cons intent rest ih =>
      have hrest : ∀ i ∈ rest, i.pendingContext ≠ none → k ≠ i.id :=
        fun i hi => hk i (List.mem_cons_of_mem _ hi)
      rw [commitAll]
      rcases commitOne_cases drainingModels now cache intent with
        hsame | ⟨payload, hawaits, -, hpending, hcommit⟩
      · rw [hsame]
        rcases ih h hrest with hkept | hexpired | hfull
        · exact Or.inl hkept
        · exact Or.inr (Or.inl hexpired)
        · exact Or.inr (Or.inr (hfull.trans_le
            (Nat.add_le_add_left ((List.sublist_cons_self _ _).countP_le) _)))
      · have hne : k ≠ intent.id :=
          hk intent List.mem_cons_self (by rw [hpending]; exact Option.some_ne_none _)
        have hmore := EscalationContextCache.liveEntries_writeAt_le cache intent.id payload now
        rw [hcommit, List.countP_cons_of_pos hawaits]
        rcases EscalationContextCache.lookup_writeAt_of_ne payload h hne with
          hkept | hexpired | hfull
        · rcases ih hkept hrest with hkept | hexpired | hfull
          · exact Or.inl hkept
          · exact Or.inr (Or.inl hexpired)
          · refine Or.inr (Or.inr ?_)
            have hcapacity : (cache.writeAt intent.id payload now).2.capacity = cache.capacity :=
              rfl
            omega
        · exact Or.inr (Or.inl hexpired)
        · refine Or.inr (Or.inr ?_)
          omega

/-- A context that is still pending after a commit is not in the cache. -/
theorem lookup_commitAll_of_pending {drainingModels : List ModelId} {now : DateTime}
    {cache : EscalationContextCache} {queue : List StagingIntent}
    (hids : (queue.map StagingIntent.id).Nodup)
    (hpending : ∀ intent ∈ queue, intent.pendingContext ≠ none →
      cache.entries.lookup intent.id = none)
    {after : StagingIntent} (hmem : after ∈ (commitAll drainingModels now cache queue).1)
    (hafter : after.pendingContext ≠ none) :
    (commitAll drainingModels now cache queue).2.entries.lookup after.id = none := by
  have hstep := forall₂_commitAll drainingModels now cache queue
  obtain ⟨intent, hintent, rfl | ⟨payload, -, -, rfl⟩⟩ := exists_of_mem_forall₂ hstep hmem
  · cases hlookup : (commitAll drainingModels now cache queue).2.entries.lookup after.id with
    | none => rfl
    | some entry =>
        rcases lookup_commitAll hlookup with hold | hnew
        · rw [hpending after hintent hafter] at hold
          cases hold
        · -- an intent with the same id was committed, so it is this one
          obtain ⟨intent', -, after', hmem', ⟨_, -, -, rfl⟩, hid, -⟩ := hnew
          have hnodup := map_id_commitAll drainingModels now cache queue ▸ hids
          have heq := List.inj_on_of_nodup_map hnodup hmem' hmem hid
          rw [← heq] at hafter
          exact absurd rfl hafter
  · exact absurd rfl hafter

end StagingWorker

/-! ### What the queue's operations do to contexts -/

/-- The two intents have the same id, model, context and reference. -/
structure SameContexts (intent after : StagingIntent) : Prop where
  id : after.id = intent.id
  backgroundModel : after.backgroundModel = intent.backgroundModel
  pendingContext : after.pendingContext = intent.pendingContext
  contextRef : after.contextRef = intent.contextRef

theorem SameContexts.refl (intent : StagingIntent) : SameContexts intent intent :=
  ⟨rfl, rfl, rfl, rfl⟩

section Queue

open StagingWorker

theorem sameContexts_updateState (worker : StagingWorker) (intentId : Uuid)
    (newState : StagingState) (error : Option String) :
    List.Forall₂ SameContexts worker.queue
      (worker.updateState intentId newState error).queue := by
  refine forall₂_updateFirst SameContexts.refl (fun intent _ => ?_) worker.queue
  cases newState <;> exact ⟨rfl, rfl, rfl, rfl⟩

theorem sameContexts_noteTick (worker : StagingWorker) (intentId : Uuid)
    (skipReason : Option String) :
    List.Forall₂ SameContexts worker.queue (worker.noteTick intentId skipReason).queue := by
  refine forall₂_updateFirst SameContexts.refl (fun intent _ => ?_) worker.queue
  exact ⟨rfl, rfl, rfl, rfl⟩

theorem sameContexts_reconcileReady (worker : StagingWorker) (readyModels : List ModelId) :
    List.Forall₂ SameContexts worker.queue (worker.reconcileReady readyModels).2.queue := by
  unfold reconcileReady
  rw [List.forall₂_map_right_iff, List.forall₂_same]
  intro intent _
  split <;> exact ⟨rfl, rfl, rfl, rfl⟩

end Queue

end Anemoi
