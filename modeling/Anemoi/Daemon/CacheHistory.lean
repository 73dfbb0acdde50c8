import Anemoi.Daemon.EscalationCache
import Anemoi.Systems.Phases

/-!
# The history of the escalation cache

The cache is bounded in time and in number, it is overwritten, and a read consumes. A
history of writes and takes says what it must hold nevertheless: `Held calls id e` reads the
entry of `id` off the history, as the last write that was not taken since and was not
evicted for want of room. `callCorrect_always` says that along every history whose times do
not decrease the cache agrees with it, and never grows beyond its capacity. The entries are
kept in a hash map, which may list them in another order after every call: with equal times
it is this order that chooses what is evicted.
-/

namespace Anemoi

open Systems

/-- A call of the cache, with the time it is made at. -/
inductive CacheCall where
  | write (intentId : Uuid) (payload : String) (now : DateTime)
  | take (intentId : Uuid) (now : DateTime)

namespace CacheCall

def time : CacheCall → ℤ
  | write _ _ now => now.nanos
  | take _ now => now.nanos

def perform (cache : EscalationContextCache) : CacheCall → EscalationContextCache
  | write intentId payload now => (cache.writeAt intentId payload now).2
  | take intentId now => (cache.takeAt ⟨intentId⟩ now).2

end CacheCall

/-- An order in which a hash map may list its entries. -/
structure HashOrder where
  arrange : Table Uuid EscalationContextEntry → Table Uuid EscalationContextEntry
  perm : ∀ entries, (arrange entries).entries.Perm entries.entries

namespace EscalationContextCache

def arranged (cache : EscalationContextCache) (order : HashOrder) : EscalationContextCache :=
  { cache with entries := order.arrange cache.entries }

/-- The cache after some calls, when `order n` is the order of its entries after call `n`. -/
def after (order : ℕ → HashOrder) (ttl : ℤ) (capacity : ℕ) (calls : List CacheCall) :
    EscalationContextCache :=
  calls.zipIdx.foldl (fun cache call => (call.1.perform cache).arranged (order call.2))
    (.new ttl capacity)

/-- The entries that a write at the time `now` finds after it has pruned. -/
def unexpired (cache : EscalationContextCache) (now : DateTime) :
    Table Uuid EscalationContextEntry :=
  cache.entries.retain (cache.live now)

/-- The entries that a write of `intentId` keeps. -/
def roomFor (cache : EscalationContextCache) (intentId : Uuid) (now : DateTime) :
    Table Uuid EscalationContextEntry :=
  evictFor cache.capacity intentId (cache.unexpired now).entries.length (cache.unexpired now)

/-- A write of `intentId` evicts the entry of `id` for want of room. -/
def Evicts (cache : EscalationContextCache) (intentId : Uuid) (now : DateTime) (id : Uuid) :
    Prop :=
  id ∈ cache.unexpired now ∧ id ∉ cache.roomFor intentId now

end EscalationContextCache

open EscalationContextCache

/-- The call leaves the entry of `id` alone. -/
def CacheCall.Spares (cache : EscalationContextCache) (id : Uuid) : CacheCall → Prop
  | write intentId _ now => intentId ≠ id ∧ ¬cache.Evicts intentId now id
  | take intentId _ => intentId ≠ id

/-- The last write of `id` stored `e`, and since then it was neither taken nor evicted for
want of room. -/
def Held (order : ℕ → HashOrder) (ttl : ℤ) (capacity : ℕ) (calls : List CacheCall) (id : Uuid)
    (e : EscalationContextEntry) : Prop :=
  ∃ before since, calls = before ++ .write id e.payload e.storedAt :: since ∧
    Always (fun later call =>
      call.Spares
        (after order ttl capacity (before ++ .write id e.payload e.storedAt :: later)) id) since

/-- What a write may do to the cache. -/
structure WriteCorrect (capacity : ℕ) (cache : EscalationContextCache) (intentId : Uuid)
    (payload : String) (now : DateTime) : Prop where
  bounded : (cache.writeAt intentId payload now).2.entries.entries.length ≤ max capacity 1
  terminates : ¬(cache.capacity ≤ (cache.roomFor intentId now).entries.length ∧
    intentId ∉ cache.roomFor intentId now)
  oldest_first : ∀ id, cache.Evicts intentId now id →
    ∃ e, cache.entries.lookup id = some e ∧ cache.live now e = true ∧
      ∀ id' e', id' ≠ intentId →
        (cache.writeAt intentId payload now).2.entries.lookup id' = some e' →
        e.storedAt.nanos ≤ e'.storedAt.nanos
  overwrites : intentId ∈ cache.unexpired now → ∀ id, ¬cache.Evicts intentId now id

/-- Every call of a history does what it should after the calls before it. -/
def CallCorrect (order : ℕ → HashOrder) (ttl : ℤ) (capacity : ℕ) (before : List CacheCall) :
    CacheCall → Prop
  | .write intentId payload now =>
      WriteCorrect capacity (after order ttl capacity before) intentId payload now
  | .take intentId now =>
      ∀ payload, ((after order ttl capacity before).takeAt ⟨intentId⟩ now).1 = some payload ↔
        ∃ storedAt, Held order ttl capacity before intentId ⟨payload, storedAt⟩ ∧
          now.nanos - storedAt.nanos < ttl

/-! ### Eviction -/

namespace EscalationContextCache

theorem lookup_oldest {entries : Table Uuid EscalationContextEntry} {id : Uuid}
    (h : oldest entries = some id) :
    ∃ e, entries.lookup id = some e ∧
      ∀ id' e', entries.lookup id' = some e' → e.storedAt.nanos ≤ e'.storedAt.nanos := by
  obtain ⟨⟨k, e⟩, hmin, rfl⟩ := Option.map_eq_some_iff.mp h
  have hmem := List.argmin_mem (Option.mem_def.mpr hmin)
  refine ⟨e, AList.mem_items.mp hmem, fun id' e' h' => ?_⟩
  exact List.le_of_mem_argmin (f := fun e : Uuid × EscalationContextEntry => e.2.storedAt.nanos)
    (AList.mem_items.mpr h') (Option.mem_def.mpr hmin)

theorem oldest_ne_none {entries : Table Uuid EscalationContextEntry}
    (h : 0 < entries.entries.length) : oldest entries ≠ none := by
  intro hnone
  have hempty := List.argmin_eq_none.mp (Option.map_eq_none_iff.mp hnone)
  rw [AList.items, List.map_eq_nil_iff] at hempty
  rw [hempty] at h
  exact absurd h (lt_irrefl 0)

theorem length_erase_oldest {entries : Table Uuid EscalationContextEntry} {id : Uuid}
    (h : oldest entries = some id) :
    (entries.erase id).entries.length + 1 = entries.entries.length := by
  obtain ⟨e, he, -⟩ := lookup_oldest h
  have hmem : id ∈ entries := AList.mem_iff_lookup.mpr ⟨e, he⟩
  have hkeys : (entries.erase id).keys.length + 1 = entries.keys.length := by
    rw [AList.keys_erase]
    exact List.length_erase_add_one hmem
  simpa [AList.keys, List.keys] using hkeys

/-- The loop ends with its guard false: as many rounds as there are entries are enough. -/
theorem guard_evictFor {capacity : ℕ} (hcapacity : 0 < capacity) (intentId : Uuid) (fuel : ℕ)
    (entries : Table Uuid EscalationContextEntry) (h : entries.entries.length ≤ fuel) :
    ¬(capacity ≤ (evictFor capacity intentId fuel entries).entries.length ∧
      intentId ∉ evictFor capacity intentId fuel entries) := by
  induction fuel generalizing entries with
  | zero =>
      rintro ⟨hfull, -⟩
      rw [evictFor] at hfull
      omega
  | succ fuel ih =>
      rw [evictFor]
      by_cases hguard : capacity ≤ entries.entries.length ∧ intentId ∉ entries
      · rw [if_pos (by simpa using hguard)]
        cases hold : oldest entries with
        | none => exact absurd hold (oldest_ne_none (hcapacity.trans_le hguard.1))
        | some id =>
            have hlength := length_erase_oldest hold
            exact ih _ (by omega)
      · rw [if_neg (by simpa using hguard)]
        exact hguard

/-- An entry that is already there needs no room. -/
theorem evictFor_of_mem {capacity : ℕ} {intentId : Uuid} (fuel : ℕ)
    {entries : Table Uuid EscalationContextEntry} (h : intentId ∈ entries) :
    evictFor capacity intentId fuel entries = entries := by
  cases fuel with
  | zero => rfl
  | succ fuel =>
      rw [evictFor, if_neg]
      simp [h]

/-- Nothing that is kept is older than what is evicted. -/
theorem storedAt_le_of_evictFor {capacity : ℕ} {intentId id id' : Uuid} {fuel : ℕ}
    {entries : Table Uuid EscalationContextEntry} {e e' : EscalationContextEntry}
    (he : entries.lookup id = some e) (hout : id ∉ evictFor capacity intentId fuel entries)
    (he' : (evictFor capacity intentId fuel entries).lookup id' = some e') :
    e.storedAt.nanos ≤ e'.storedAt.nanos := by
  induction fuel generalizing entries with
  | zero =>
      rw [evictFor] at hout
      exact absurd (AList.mem_iff_lookup.mpr ⟨e, he⟩) hout
  | succ fuel ih =>
      have hkept := lookup_of_lookup_evictFor he'
      rw [evictFor] at hout he'
      split at hout
      next hguard =>
        rw [if_pos hguard] at he'
        cases hold : oldest entries with
        | none =>
            rw [hold] at hout
            exact absurd (AList.mem_iff_lookup.mpr ⟨e, he⟩) hout
        | some k =>
            rw [hold] at hout he'
            by_cases hk : id = k
            · subst hk
              obtain ⟨e₀, he₀, hmin⟩ := lookup_oldest hold
              rw [he, Option.some.injEq] at he₀
              rw [he₀]
              exact hmin id' e' hkept
            · exact ih (by rw [AList.lookup_erase_ne hk]; exact he) hout he'
      next => exact absurd (AList.mem_iff_lookup.mpr ⟨e, he⟩) hout

theorem lookup_unexpired {cache : EscalationContextCache} {now : DateTime} {id : Uuid}
    {e : EscalationContextEntry} :
    (cache.unexpired now).lookup id = some e ↔
      cache.entries.lookup id = some e ∧ cache.live now e = true :=
  AList.lookup_retain_iff

/-- What a write keeps was unexpired and not evicted. -/
theorem lookup_roomFor {cache : EscalationContextCache} {intentId id : Uuid} {now : DateTime}
    {e : EscalationContextEntry} :
    (cache.roomFor intentId now).lookup id = some e ↔
      cache.entries.lookup id = some e ∧ cache.live now e = true ∧
        ¬cache.Evicts intentId now id := by
  constructor
  · intro h
    obtain ⟨hlookup, hlive⟩ := lookup_unexpired.mp (lookup_of_lookup_evictFor h)
    exact ⟨hlookup, hlive, fun hevicts => hevicts.2 (AList.mem_iff_lookup.mpr ⟨e, h⟩)⟩
  · rintro ⟨hlookup, hlive, hevicts⟩
    have hunexpired := lookup_unexpired.mpr ⟨hlookup, hlive⟩
    have hroom : id ∈ cache.roomFor intentId now := by
      by_contra hout
      exact hevicts ⟨AList.mem_iff_lookup.mpr ⟨e, hunexpired⟩, hout⟩
    obtain ⟨e', he'⟩ := AList.mem_iff_lookup.mp hroom
    have heq := (lookup_of_lookup_evictFor he').symm.trans hunexpired
    rw [← Option.some.inj heq]
    exact he'

theorem lookup_writeAt_iff {cache : EscalationContextCache} {intentId id : Uuid}
    {payload : String} {now : DateTime} {e : EscalationContextEntry} (h : id ≠ intentId) :
    (cache.writeAt intentId payload now).2.entries.lookup id = some e ↔
      cache.entries.lookup id = some e ∧ cache.live now e = true ∧
        ¬cache.Evicts intentId now id := by
  rw [← lookup_roomFor, writeAt]
  dsimp only
  rw [AList.lookup_insert_ne h]
  rfl

theorem lookup_writeAt_self (cache : EscalationContextCache) (intentId : Uuid)
    (payload : String) (now : DateTime) :
    (cache.writeAt intentId payload now).2.entries.lookup intentId = some ⟨payload, now⟩ :=
  AList.lookup_insert _

theorem takeAt_eq_some_iff {cache : EscalationContextCache} {id : Uuid} {now : DateTime}
    {payload : String} :
    (cache.takeAt ⟨id⟩ now).1 = some payload ↔
      ∃ e, cache.entries.lookup id = some e ∧ cache.live now e = true ∧ e.payload = payload := by
  unfold takeAt
  cases hlookup : cache.entries.lookup id with
  | none => simp
  | some e =>
      dsimp only
      cases hlive : cache.live now e <;> simp [hlive]

theorem capacity_takeAt (cache : EscalationContextCache) (r : ContextRef)
    (now : DateTime) :
    (cache.takeAt r now).2.capacity = cache.capacity ∧ (cache.takeAt r now).2.ttl = cache.ttl := by
  unfold takeAt
  split <;> exact ⟨rfl, rfl⟩

theorem length_takeAt_le (cache : EscalationContextCache) (r : ContextRef)
    (now : DateTime) :
    (cache.takeAt r now).2.entries.entries.length ≤ cache.entries.entries.length := by
  unfold takeAt
  split
  · exact le_rfl
  · exact (List.kerase_sublist _ _).length_le

/-! ### One write -/

/-- A write keeps to the bound when the cache does. -/
theorem length_writeAt_le {cache : EscalationContextCache} (hcapacity : 0 < cache.capacity)
    (hbounded : cache.entries.entries.length ≤ cache.capacity) (intentId : Uuid)
    (payload : String) (now : DateTime) :
    (cache.writeAt intentId payload now).2.entries.entries.length ≤ cache.capacity := by
  have hlength : ∀ m : Table Uuid EscalationContextEntry, m.entries.length = m.keys.length :=
    fun m => by simp [AList.keys, List.keys]
  have hguard := guard_evictFor hcapacity intentId _ (cache.unexpired now) le_rfl
  rw [not_and_or, not_le, not_not] at hguard
  rw [writeAt]
  dsimp only
  change ((cache.roomFor intentId now).insert intentId _).entries.length ≤ _
  rw [hlength, AList.keys_insert, List.length_cons]
  by_cases hmem : intentId ∈ cache.roomFor intentId now
  · have herase := List.length_erase_add_one (AList.mem_keys.mpr hmem)
    rw [herase, ← hlength]
    refine (length_evictFor_le ..).trans (le_trans ?_ hbounded)
    exact List.filter_sublist.length_le
  · have hroom := hguard.resolve_right hmem
    rw [List.erase_of_not_mem fun h => hmem (AList.mem_keys.mp h), ← hlength]
    exact hroom

theorem writeCorrect {cache : EscalationContextCache} {capacity : ℕ}
    (hcapacity : cache.capacity = max capacity 1)
    (hbounded : cache.entries.entries.length ≤ cache.capacity) (intentId : Uuid)
    (payload : String) (now : DateTime) :
    WriteCorrect capacity cache intentId payload now where
  bounded := by
    rw [← hcapacity]
    exact length_writeAt_le (by omega) hbounded intentId payload now
  terminates := guard_evictFor (by omega) intentId _ _ le_rfl
  oldest_first := by
    rintro id ⟨hunexpired, hout⟩
    obtain ⟨e, he⟩ := AList.mem_iff_lookup.mp hunexpired
    obtain ⟨hlookup, hlive⟩ := lookup_unexpired.mp he
    refine ⟨e, hlookup, hlive, fun id' e' hne hkept => ?_⟩
    exact storedAt_le_of_evictFor he hout
      (lookup_roomFor.mpr ((lookup_writeAt_iff hne).mp hkept))
  overwrites := by
    rintro hmem id ⟨hunexpired, hout⟩
    unfold roomFor at hout
    rw [evictFor_of_mem _ hmem] at hout
    exact hout hunexpired

end EscalationContextCache

/-! ### Histories -/

namespace EscalationContextCache

variable (cache : EscalationContextCache) (order : HashOrder)

theorem lookup_arranged (id : Uuid) :
    (cache.arranged order).entries.lookup id = cache.entries.lookup id :=
  AList.perm_lookup (order.perm _)

theorem length_arranged :
    (cache.arranged order).entries.entries.length = cache.entries.entries.length :=
  (order.perm _).length_eq

end EscalationContextCache

section Histories

variable {order : ℕ → HashOrder} {ttl : ℤ} {capacity : ℕ} {calls : List CacheCall}
  {call : CacheCall} {id : Uuid} {e : EscalationContextEntry}

theorem after_concat (order : ℕ → HashOrder) (ttl : ℤ) (capacity : ℕ) (calls : List CacheCall)
    (call : CacheCall) :
    after order ttl capacity (calls ++ [call]) =
      (call.perform (after order ttl capacity calls)).arranged (order calls.length) := by
  unfold after
  rw [List.zipIdx_append, List.foldl_append, Nat.zero_add]
  rfl

theorem capacity_after (order : ℕ → HashOrder) (ttl : ℤ) (capacity : ℕ) (calls : List CacheCall) :
    (after order ttl capacity calls).capacity = max capacity 1 ∧
      (after order ttl capacity calls).ttl = ttl := by
  induction calls using List.reverseRecOn with
  | nil => exact ⟨rfl, rfl⟩
  | append_singleton calls call ih =>
      rw [after_concat]
      cases call with
      | write intentId payload now => exact ih
      | take intentId now =>
          obtain ⟨hcapacity, httl⟩ :=
            capacity_takeAt (after order ttl capacity calls) ⟨intentId⟩ now
          exact ⟨hcapacity.trans ih.1, httl.trans ih.2⟩

theorem length_after_le (order : ℕ → HashOrder) (ttl : ℤ) (capacity : ℕ) (calls : List CacheCall) :
    (after order ttl capacity calls).entries.entries.length ≤ max capacity 1 := by
  induction calls using List.reverseRecOn with
  | nil => exact Nat.zero_le _
  | append_singleton calls call ih =>
      have hcapacity := (capacity_after order ttl capacity calls).1
      rw [after_concat, length_arranged]
      cases call with
      | write intentId payload now =>
          exact (writeCorrect hcapacity (by omega) intentId payload now).bounded
      | take intentId now => exact (length_takeAt_le ..).trans ih

/-- The history says one thing more with every call. -/
theorem held_concat_iff :
    Held order ttl capacity (calls ++ [call]) id e ↔
      call = .write id e.payload e.storedAt ∨
        Held order ttl capacity calls id e ∧ call.Spares (after order ttl capacity calls) id := by
  constructor
  · rintro ⟨before, since, hsplit, hspared⟩
    rcases List.eq_nil_or_concat since with rfl | ⟨since, call', rfl⟩
    · exact Or.inl (List.cons.inj (List.append_inj' hsplit rfl).2).1
    · rw [List.concat_eq_append, ← List.cons_append, ← List.append_assoc] at hsplit
      obtain ⟨rfl, hlast⟩ := List.append_inj' hsplit rfl
      obtain rfl := (List.cons.inj hlast).1
      rw [List.concat_eq_append, Always.concat_iff] at hspared
      exact Or.inr ⟨⟨before, since, rfl, hspared.1⟩, hspared.2⟩
  · rintro (rfl | ⟨⟨before, since, rfl, hspared⟩, hcall⟩)
    · exact ⟨calls, [], rfl, .nil⟩
    · exact ⟨before, since ++ [call], by rw [List.append_assoc, List.cons_append],
        Always.concat_iff.mpr ⟨hspared, hcall⟩⟩

/-- While times do not decrease, the cache has what the history says, as far as it has not
expired. -/
theorem lookup_after_iff (hordered : calls.Pairwise fun c c' => c.time ≤ c'.time) {now : ℤ}
    (hnow : ∀ c ∈ calls, c.time ≤ now) (hlive : now - e.storedAt.nanos < ttl) :
    (after order ttl capacity calls).entries.lookup id = some e ↔
      Held order ttl capacity calls id e := by
  induction calls using List.reverseRecOn with
  | nil =>
      refine iff_of_false (fun h => ?_) ?_
      · cases h
      · rintro ⟨before, since, h, -⟩
        simp at h
  | append_singleton calls call ih =>
      have htime : call.time ≤ now := hnow call (by simp)
      have hkept := ih (List.pairwise_append.mp hordered).1 fun c hc => hnow c (by simp [hc])
      rw [after_concat, lookup_arranged, held_concat_iff, ← hkept]
      cases call with
      | write intentId payload written =>
          by_cases hid : id = intentId
          · subst hid
            have hspares : ¬(CacheCall.write id payload written).Spares
                (after order ttl capacity calls) id := fun h => h.1 rfl
            rw [CacheCall.perform, lookup_writeAt_self, CacheCall.write.injEq, Option.some.injEq]
            constructor
            · rintro rfl
              exact Or.inl ⟨rfl, rfl, rfl⟩
            · rintro (⟨-, rfl, rfl⟩ | ⟨-, h⟩)
              · rfl
              · exact absurd h hspares
          · have hunexpired : (after order ttl capacity calls).live written e = true := by
              unfold live
              rw [(capacity_after order ttl capacity calls).2, decide_eq_true_iff]
              change written.nanos ≤ now at htime
              omega
            rw [CacheCall.perform, lookup_writeAt_iff hid, CacheCall.write.injEq]
            simp [hunexpired, Ne.symm hid, CacheCall.Spares]
      | take intentId written =>
          rw [CacheCall.perform, lookup_takeAt]
          by_cases hid : id = intentId
          · simp [hid, CacheCall.Spares]
          · simp [hid, Ne.symm hid, CacheCall.Spares]

/-- Along every history whose times do not decrease, the cache stays within its capacity,
evicts the oldest first, and hands out what was written last. -/
theorem callCorrect_always (order : ℕ → HashOrder) (ttl : ℤ) (capacity : ℕ) (calls : List CacheCall)
    (hordered : calls.Pairwise fun c c' => c.time ≤ c'.time) :
    Always (CallCorrect order ttl capacity) calls := by
  rintro before call since rfl
  obtain ⟨hcapacity, httl⟩ := capacity_after order ttl capacity before
  cases call with
  | write intentId payload now =>
      have hbounded := length_after_le order ttl capacity before
      rw [← hcapacity] at hbounded
      exact writeCorrect hcapacity hbounded intentId payload now
  | take intentId now =>
      intro payload
      obtain ⟨hbefore, -, hcross⟩ := List.pairwise_append.mp hordered
      have hnow : ∀ c ∈ before, c.time ≤ now.nanos := fun c hc =>
        hcross c hc (.take intentId now) List.mem_cons_self
      rw [takeAt_eq_some_iff]
      constructor
      · rintro ⟨⟨payload, storedAt⟩, hlookup, hlive, rfl⟩
        have hfresh : now.nanos - storedAt.nanos < ttl := by
          rw [← httl]
          exact of_decide_eq_true hlive
        exact ⟨storedAt, (lookup_after_iff hbefore hnow hfresh).mp hlookup, hfresh⟩
      · rintro ⟨storedAt, hheld, hfresh⟩
        refine ⟨⟨payload, storedAt⟩, (lookup_after_iff hbefore hnow hfresh).mpr hheld, ?_, rfl⟩
        unfold live
        rw [httl]
        exact decide_eq_true hfresh

theorem callCorrect_secondWrite :
    Always (CallCorrect (fun _ => ⟨fun entries => entries, fun _ => .refl _⟩) 600 1)
      [.write ⟨1⟩ "qwen9b" ⟨0⟩, .write ⟨2⟩ "hermes70b" ⟨0⟩, .take ⟨2⟩ ⟨10⟩] :=
  callCorrect_always _ _ _ _ (by decide)

end Histories

end Anemoi
