import Anemoi.Runtime.Metrics

/-!
# What a scrape tells about memory

The gauges of a scrape, read off its samples: `hostReadings` for the host and
`gpuReadings`, by device, for the GPUs. `memory_all_or_nothing` says what
the two passes make of them: the VRAM pair is known exactly when both gauges report the
same, non-empty set of devices, each device once, and both sums fit in 64 bits; the host
pair is known exactly when either gauge was read once.

The map of the first pass is read key by key (`lookup_collect`). The sums of the second
pass do not depend on the order of the traversal because what they add up is, whatever
the order, a permutation of the readings (`perm_valuesOf`).
-/

namespace Anemoi

open Systems

/-- The readings of a host gauge. -/
def hostReadings (name : String) (samples : List Sample) : List UInt64 :=
  samples.filterMap fun sample =>
    if sample.name = name then some sample.valueBytes else none

/-- The readings of a GPU gauge, each with its device. -/
def gpuReadings (name : String) (samples : List Sample) : List (String × UInt64) :=
  samples.filterMap fun sample =>
    if sample.name = name then sample.gpuDeviceId.map fun device => (device, sample.valueBytes)
    else none

/-- The sum of some readings in bytes. -/
def totalBytes (readings : List (String × UInt64)) : ℕ :=
  (readings.map fun reading => reading.2.toNat).sum

theorem toNat_bytesToMb (bytes : UInt64) : (bytesToMb bytes).toNat = bytes.toNat / 2 ^ 20 := by
  rw [bytesToMb, UInt64.toNat_div, UInt64.toNat_div, Nat.div_div_eq_div_mul]
  rfl

/-! ### The map of the first pass -/

/-- The values filed under a key. -/
def filedUnder (key : SampleKey) (filed : List (SampleKey × UInt64)) : List UInt64 :=
  (filed.filter fun e => e.1 = key).map Prod.snd

/-- What the map holds for a key under which these values were filed. -/
def slot : List UInt64 → Option (Option UInt64)
  | [] => none
  | [bytes] => some (some bytes)
  | _ :: _ :: _ => some none

theorem slot_concat (values : List UInt64) (bytes : UInt64) :
    slot (values ++ [bytes]) =
      match slot values with
      | none => some (some bytes)
      | some _ => some none := by
  match values with
  | [] => rfl
  | [_] => rfl
  | _ :: _ :: _ => rfl

theorem slot_eq_none {values : List UInt64} : slot values = none ↔ values = [] := by
  match values with
  | [] => simp [slot]
  | [_] => simp [slot]
  | _ :: _ :: _ => simp [slot]

theorem slot_eq_some_some {values : List UInt64} {bytes : UInt64} :
    slot values = some (some bytes) ↔ values = [bytes] := by
  match values with
  | [] => simp [slot]
  | [_] => simp [slot]
  | _ :: _ :: _ => simp [slot]

theorem slot_eq_some_none {values : List UInt64} :
    slot values = some none ↔ 1 < values.length := by
  match values with
  | [] => simp [slot]
  | [_] => simp [slot]
  | _ :: _ :: _ => simp [slot]

theorem lookup_fileSample (samples : SampleMap) (filed : SampleKey × UInt64)
    (key : SampleKey) :
    (fileSample samples filed).lookup key =
      if filed.1 = key then
        match samples.lookup key with
        | none => some (some filed.2)
        | some _ => some none
      else samples.lookup key := by
  unfold fileSample
  by_cases hkey : filed.1 = key
  · subst hkey
    cases samples.lookup filed.1 <;> simp
  · rw [if_neg hkey]
    cases samples.lookup filed.1 with
    | none => exact AList.lookup_insert_ne (Ne.symm hkey)
    | some v => exact AList.lookup_insert_ne (Ne.symm hkey)

theorem filedUnder_concat (key : SampleKey) (filed : List (SampleKey × UInt64))
    (e : SampleKey × UInt64) :
    filedUnder key (filed ++ [e]) =
      filedUnder key filed ++ if e.1 = key then [e.2] else [] := by
  rw [filedUnder, List.filter_append, List.map_append, ← filedUnder]
  by_cases hkey : e.1 = key
  · simp [hkey]
  · simp [hkey]

/-- The map of the first pass, read key by key. -/
theorem lookup_collect (filed : List (SampleKey × UInt64)) (key : SampleKey) :
    (filed.foldl fileSample ∅).lookup key = slot (filedUnder key filed) := by
  induction filed using List.reverseRecOn with
  | nil => rfl
  | append_singleton filed e ih =>
      rw [List.foldl_append, List.foldl_cons, List.foldl_nil, lookup_fileSample, ih,
        filedUnder_concat]
      by_cases hkey : e.1 = key
      · rw [if_pos hkey, if_pos hkey, slot_concat]
      · rw [if_neg hkey, if_neg hkey, List.append_nil]

/-! ### Readings and filed samples -/

theorem filedUnder_ramTotal (samples : List Sample) :
    filedUnder (.ramTotal, none) (filedSamples samples) =
      hostReadings "llamaswap_memory_total_bytes" samples := by
  rw [filedUnder, filedSamples, hostReadings, List.filter_filterMap, List.map_filterMap]
  congr 1
  funext sample
  unfold Sample.key?
  split <;> simp_all

theorem filedUnder_ramUsed (samples : List Sample) :
    filedUnder (.ramUsed, none) (filedSamples samples) =
      hostReadings "llamaswap_memory_used_bytes" samples := by
  rw [filedUnder, filedSamples, hostReadings, List.filter_filterMap, List.map_filterMap]
  congr 1
  funext sample
  unfold Sample.key?
  split <;> simp_all

/-- The samples filed under a GPU metric are these readings. -/
def FiledAs (metric : Metric) (filed : List (SampleKey × UInt64))
    (readings : List (String × UInt64)) : Prop :=
  (filed.filter fun e => e.1.1 = metric) =
    readings.map fun reading => ((metric, some reading.1), reading.2)

theorem filedAs_vramTotal (samples : List Sample) :
    FiledAs .vramTotal (filedSamples samples)
      (gpuReadings "llamaswap_gpu_memory_total_bytes" samples) := by
  rw [FiledAs, filedSamples, gpuReadings, List.filter_filterMap, List.map_filterMap]
  congr 1
  funext sample
  unfold Sample.key?
  cases sample.gpuDeviceId <;> split <;> simp_all

theorem filedAs_vramUsed (samples : List Sample) :
    FiledAs .vramUsed (filedSamples samples)
      (gpuReadings "llamaswap_gpu_memory_used_bytes" samples) := by
  rw [FiledAs, filedSamples, gpuReadings, List.filter_filterMap, List.map_filterMap]
  congr 1
  funext sample
  unfold Sample.key?
  cases sample.gpuDeviceId <;> split <;> simp_all

section Gpu

variable {metric : Metric} {filed : List (SampleKey × UInt64)}
  {readings : List (String × UInt64)} {entries : List SampleEntry}

theorem filedUnder_gpu (h : FiledAs metric filed readings) (device : String) :
    filedUnder (metric, some device) filed =
      (readings.filter fun reading => reading.1 = device).map Prod.snd := by
  have hfilter : (filed.filter fun e => e.1 = (metric, some device)) =
      (filed.filter fun e => e.1.1 = metric).filter fun e => e.1 = (metric, some device) := by
    rw [List.filter_filter]
    apply List.filter_congr
    intro e _
    by_cases hkey : e.1 = (metric, some device)
    · simp [hkey]
    · simp [hkey]
  rw [filedUnder, hfilter, h, List.filter_map, List.map_map]
  congr 1
  apply List.filter_congr
  intro reading _
  simp

theorem mem_entries (hentries : entries.Perm (filed.foldl fileSample ∅).items)
    {key : SampleKey} {value : Option UInt64} :
    (key, value) ∈ entries ↔ slot (filedUnder key filed) = some value := by
  rw [hentries.mem_iff, AList.mem_items, lookup_collect]

/-- The devices of the map are those of the readings. -/
theorem devicesReporting_eq (hentries : entries.Perm (filed.foldl fileSample ∅).items)
    (h : FiledAs metric filed readings) :
    devicesReporting entries metric = (readings.map Prod.fst).toFinset := by
  ext device
  rw [devicesReporting, List.mem_toFinset, List.mem_filterMap, List.mem_toFinset]
  constructor
  · rintro ⟨⟨⟨m, d⟩, value⟩, hmem, hentry⟩
    obtain ⟨rfl, rfl⟩ : m = metric ∧ d = some device := by simpa using hentry
    have hslot := (mem_entries hentries).mp hmem
    rw [filedUnder_gpu h] at hslot
    by_contra hnot
    have hnone : (readings.filter fun reading => reading.1 = device) = [] := by
      rw [List.filter_eq_nil_iff]
      rintro reading hreading heq
      exact hnot (List.mem_map.mpr ⟨reading, hreading, by simpa using heq⟩)
    rw [hnone] at hslot
    cases hslot
  · intro hmem
    obtain ⟨reading, hreading, rfl⟩ := List.mem_map.mp hmem
    have hne : filedUnder (metric, some reading.1) filed ≠ [] := by
      rw [filedUnder_gpu h]
      exact List.ne_nil_of_mem (List.mem_map.mpr
        ⟨reading, List.mem_filter.mpr ⟨hreading, by simp⟩, rfl⟩)
    obtain ⟨value, hvalue⟩ := Option.ne_none_iff_exists'.mp (mt slot_eq_none.mp hne)
    exact ⟨_, (mem_entries hentries).mpr hvalue, by simp⟩

/-- A device is marked in the map exactly when it was read twice. -/
theorem exists_marked_iff (hentries : entries.Perm (filed.foldl fileSample ∅).items)
    (h : FiledAs metric filed readings) :
    (∃ device, ((metric, some device), none) ∈ entries) ↔ ¬(readings.map Prod.fst).Nodup := by
  have hcount : ∀ device, (readings.map Prod.fst).count device =
      (filedUnder (metric, some device) filed).length := by
    intro device
    rw [filedUnder_gpu h, List.length_map, List.count_eq_countP, List.countP_map,
      List.countP_eq_length_filter]
    congr 1
  simp only [List.nodup_iff_count_le_one, hcount, mem_entries hentries, slot_eq_some_none,
    not_forall, not_le]

/-! ### The sums -/

/-- What the sum of a metric adds up along a traversal. -/
def valueOf? (metric : Metric) (entry : SampleEntry) : Option (SampleKey × UInt64) :=
  if entry.1.1 = metric then entry.2.map fun bytes => (entry.1, bytes) else none

theorem valueOf?_eq_some {entry : SampleEntry} {e : SampleKey × UInt64} :
    valueOf? metric entry = some e ↔ e.1.1 = metric ∧ entry = (e.1, some e.2) := by
  obtain ⟨key, value⟩ := entry
  obtain ⟨key', bytes⟩ := e
  rw [valueOf?]
  by_cases hm : key.1 = metric
  · rw [if_pos hm, Option.map_eq_some_iff]
    constructor
    · rintro ⟨b, rfl, hb⟩
      obtain ⟨rfl, rfl⟩ := Prod.mk.inj hb
      exact ⟨hm, rfl⟩
    · rintro ⟨-, hentry⟩
      obtain ⟨rfl, rfl⟩ := Prod.mk.inj hentry
      exact ⟨bytes, rfl, rfl⟩
  · rw [if_neg hm]
    constructor
    · intro hnone
      cases hnone
    · rintro ⟨hm', hentry⟩
      obtain ⟨rfl, -⟩ := Prod.mk.inj hentry
      exact absurd hm' hm

/-- Each device read once has one value filed. -/
theorem filedUnder_eq_singleton (h : FiledAs metric filed readings)
    (hnodup : (readings.map Prod.fst).Nodup) {reading : String × UInt64}
    (hmem : reading ∈ readings) :
    filedUnder (metric, some reading.1) filed = [reading.2] := by
  have hkey : (readings.filter fun r => r.1 = reading.1).map Prod.fst =
      (readings.map Prod.fst).filter (· = reading.1) := by
    rw [List.filter_map]
    rfl
  have hone : (readings.filter fun r => r.1 = reading.1).length = 1 := by
    rw [← List.length_map Prod.fst, hkey, ← List.countP_eq_length_filter]
    exact List.count_eq_one_of_mem hnodup (List.mem_map.mpr ⟨reading, hmem, rfl⟩)
  obtain ⟨r, hr⟩ := List.length_eq_one_iff.mp hone
  have hin : reading ∈ readings.filter fun r => r.1 = reading.1 :=
    List.mem_filter.mpr ⟨hmem, by simp⟩
  rw [hr, List.mem_singleton] at hin
  rw [filedUnder_gpu h, hr, hin, List.map_singleton]

/-- Whatever the order of the traversal, the sum is over the readings. -/
theorem perm_valuesOf (hentries : entries.Perm (filed.foldl fileSample ∅).items)
    (h : FiledAs metric filed readings) (hnodup : (readings.map Prod.fst).Nodup) :
    (entries.filterMap (valueOf? metric)).Perm
      (readings.map fun reading => ((metric, some reading.1), reading.2)) := by
  have hvalues : (entries.filterMap (valueOf? metric)).Nodup := by
    have hkeys := AList.nodup_map_fst_filterMap (f := valueOf? metric)
      (fun entry e he => congrArg Prod.fst (valueOf?_eq_some.mp he).2.symm)
      (filed.foldl fileSample ∅)
    exact ((hentries.filterMap _).nodup_iff).mpr hkeys.of_map
  have hreadings : (readings.map fun reading => ((metric, some reading.1), reading.2)).Nodup := by
    apply List.Nodup.of_map fun e : SampleKey × UInt64 => e.1.2
    rw [List.map_map]
    have hsome := hnodup.map (Option.some_injective String)
    rwa [List.map_map] at hsome
  rw [List.perm_ext_iff_of_nodup hvalues hreadings]
  rintro ⟨key, bytes⟩
  rw [List.mem_filterMap]
  constructor
  · rintro ⟨entry, hmem, hentry⟩
    obtain ⟨hmetric, rfl⟩ := valueOf?_eq_some.mp hentry
    have hfiled := slot_eq_some_some.mp ((mem_entries hentries).mp hmem)
    have hbytes : bytes ∈ filedUnder key filed := hfiled ▸ List.mem_singleton_self bytes
    obtain ⟨⟨key', bytes'⟩, he, hbytes'⟩ := List.mem_map.mp hbytes
    obtain ⟨hin, hkey⟩ := List.mem_filter.mp he
    obtain rfl : key' = key := by simpa using hkey
    obtain rfl : bytes' = bytes := hbytes'
    rw [← h, List.mem_filter]
    exact ⟨hin, by simpa using hmetric⟩
  · intro hmem
    obtain ⟨reading, hreading, hpair⟩ := List.mem_map.mp hmem
    obtain ⟨rfl, rfl⟩ := Prod.mk.inj hpair
    refine ⟨((metric, some reading.1), some reading.2), (mem_entries hentries).mpr ?_, ?_⟩
    · exact slot_eq_some_some.mpr (filedUnder_eq_singleton h hnodup hreading)
    · exact valueOf?_eq_some.mpr ⟨rfl, rfl⟩

/-- With every device read once, no key of the metric is marked. -/
theorem value_ne_none (hentries : entries.Perm (filed.foldl fileSample ∅).items)
    (h : FiledAs metric filed readings) (hnodup : (readings.map Prod.fst).Nodup) :
    ∀ entry ∈ entries, entry.1.1 = metric → entry.2 ≠ none := by
  rintro ⟨key, value⟩ hmem rfl rfl
  have hslot := (mem_entries hentries).mp hmem
  have hne : filedUnder key filed ≠ [] := by
    intro hnil
    rw [hnil] at hslot
    cases hslot
  obtain ⟨bytes, hbytes⟩ := List.exists_mem_of_ne_nil _ hne
  obtain ⟨⟨key', bytes'⟩, he, -⟩ := List.mem_map.mp hbytes
  obtain ⟨hin, hkey⟩ := List.mem_filter.mp he
  obtain rfl : key' = key := by simpa using hkey
  have hgpu : (key', bytes') ∈ filed.filter fun e => e.1.1 = key'.1 :=
    List.mem_filter.mpr ⟨hin, by simp⟩
  rw [h] at hgpu
  obtain ⟨reading, hreading, hpair⟩ := List.mem_map.mp hgpu
  have hkey' : (key'.1, some reading.1) = key' := congrArg Prod.fst hpair
  rw [← hkey', filedUnder_eq_singleton h hnodup hreading] at hslot
  cases hslot

end Gpu

/-- The sum of the values of a metric along a traversal. -/
def bytesAlong (metric : Metric) (entries : List SampleEntry) : ℕ :=
  ((entries.filterMap (valueOf? metric)).map fun e => e.2.toNat).sum

theorem bytesAlong_cons_of_eq {metric : Metric} {key : SampleKey} (h : key.1 = metric)
    (bytes : UInt64) (entries : List SampleEntry) :
    bytesAlong metric ((key, some bytes) :: entries) =
      bytes.toNat + bytesAlong metric entries := by
  simp [bytesAlong, valueOf?, h]

theorem bytesAlong_cons_of_ne {metric : Metric} {key : SampleKey} (h : key.1 ≠ metric)
    (value : Option UInt64) (entries : List SampleEntry) :
    bytesAlong metric ((key, value) :: entries) = bytesAlong metric entries := by
  simp [bytesAlong, valueOf?, h]

/-- Checked addition along a traversal gives the exact sum if that fits. -/
theorem toNat_sumMetricFrom {metric : Metric} {entries : List SampleEntry}
    (h : ∀ entry ∈ entries, entry.1.1 = metric → entry.2 ≠ none) (acc : UInt64) :
    (sumMetricFrom metric (some acc) entries).map UInt64.toNat =
      if acc.toNat + bytesAlong metric entries < 2 ^ 64
      then some (acc.toNat + bytesAlong metric entries) else none := by
  induction entries generalizing acc with
  | nil => simp [sumMetricFrom, bytesAlong, acc.toNat_lt]
  | cons entry entries ih =>
      obtain ⟨hhead, htail⟩ := List.forall_mem_cons.mp h
      obtain ⟨key, value⟩ := entry
      by_cases hm : key.1 = metric
      · cases value with
        | none => exact absurd rfl (hhead hm)
        | some bytes =>
            rw [bytesAlong_cons_of_eq hm, sumMetricFrom, if_neg (not_not.mpr hm)]
            by_cases hfit : acc.toNat + bytes.toNat < 2 ^ 64
            · have hadd : (acc + bytes).toNat = acc.toNat + bytes.toNat := by
                rw [UInt64.toNat_add, Nat.mod_eq_of_lt hfit]
              simp only [checkedAdd, if_pos hfit]
              rw [ih htail, hadd, Nat.add_assoc]
            · simp only [checkedAdd, if_neg hfit, Option.map_none]
              rw [if_neg (by omega)]
      · rw [bytesAlong_cons_of_ne hm, sumMetricFrom, if_pos hm]
        exact ih htail acc

/-- Without a value there is no sum, not even zero. -/
theorem toNat_sumMetricValues {metric : Metric} {entries : List SampleEntry}
    (h : ∀ entry ∈ entries, entry.1.1 = metric → entry.2 ≠ none) :
    (sumMetricValues entries metric).map UInt64.toNat =
      if entries.filterMap (valueOf? metric) ≠ [] ∧ bytesAlong metric entries < 2 ^ 64
      then some (bytesAlong metric entries) else none := by
  rw [sumMetricValues]
  induction entries with
  | nil => simp [sumMetricFrom]
  | cons entry entries ih =>
      obtain ⟨hhead, htail⟩ := List.forall_mem_cons.mp h
      obtain ⟨key, value⟩ := entry
      by_cases hm : key.1 = metric
      · cases value with
        | none => exact absurd rfl (hhead hm)
        | some bytes =>
            have hfirst : sumMetricFrom metric none ((key, some bytes) :: entries) =
                sumMetricFrom metric (some bytes) entries := by
              rw [sumMetricFrom, if_neg (not_not.mpr hm)]
            rw [bytesAlong_cons_of_eq hm, hfirst, toNat_sumMetricFrom htail]
            simp [valueOf?, hm]
      · have hcons : ((key, value) :: entries).filterMap (valueOf? metric) =
            entries.filterMap (valueOf? metric) := by
          simp [valueOf?, hm]
        rw [bytesAlong_cons_of_ne hm, hcons, sumMetricFrom, if_pos hm]
        exact ih htail

/-- The sum of the second pass, from the readings alone. -/
theorem toNat_sum_readings {metric : Metric} {filed : List (SampleKey × UInt64)}
    {readings : List (String × UInt64)} {entries : List SampleEntry}
    (hentries : entries.Perm (filed.foldl fileSample ∅).items)
    (h : FiledAs metric filed readings) (hnodup : (readings.map Prod.fst).Nodup) :
    (sumMetricValues entries metric).map UInt64.toNat =
      if readings ≠ [] ∧ totalBytes readings < 2 ^ 64 then some (totalBytes readings)
      else none := by
  have hperm := perm_valuesOf hentries h hnodup
  have hsum : bytesAlong metric entries = totalBytes readings := by
    rw [bytesAlong, (hperm.map _).sum_eq, List.map_map]
    rfl
  have hnil : entries.filterMap (valueOf? metric) = [] ↔ readings = [] := by
    rw [← List.length_eq_zero_iff, hperm.length_eq, List.length_map, List.length_eq_zero_iff]
  rw [toNat_sumMetricValues (value_ne_none hentries h hnodup), hsum]
  simp only [ne_eq, hnil]

/-! ### The two pairs -/

/-- When the GPU gauges make a known pair. -/
def VramKnown (totals useds : List (String × UInt64)) : Prop :=
  (totals.map Prod.fst).toFinset = (useds.map Prod.fst).toFinset ∧ totals ≠ [] ∧
    ((totals.map Prod.fst).Nodup ∧ (useds.map Prod.fst).Nodup) ∧
    totalBytes totals < 2 ^ 64 ∧ totalBytes useds < 2 ^ 64

instance (totals useds : List (String × UInt64)) : Decidable (VramKnown totals useds) :=
  inferInstanceAs (Decidable (_ ∧ _))

/-- The VRAM pair that the GPU gauges mean, in megabytes. -/
def vramOf (totals useds : List (String × UInt64)) : Option ℕ × Option ℕ :=
  if VramKnown totals useds then
    (some (totalBytes totals / 2 ^ 20), some (totalBytes useds / 2 ^ 20))
  else (none, none)

/-- The host pair that the host gauges mean, in megabytes. -/
def ramOf : List UInt64 → List UInt64 → Option ℕ × Option ℕ
  | [total], [used] => (some (total.toNat / 2 ^ 20), some (used.toNat / 2 ^ 20))
  | _, _ => (none, none)

def toNats (pair : Option UInt64 × Option UInt64) : Option ℕ × Option ℕ :=
  (pair.1.map UInt64.toNat, pair.2.map UInt64.toNat)

theorem toNats_injective : Function.Injective toNats := by
  have hmap := Option.map_injective (f := UInt64.toNat) fun _ _ => UInt64.toNat.inj
  rintro ⟨a, b⟩ ⟨a', b'⟩ h
  obtain ⟨ha, hb⟩ := Prod.mk.inj h
  exact Prod.ext (hmap ha) (hmap hb)

theorem any_isDuplicateOfGpu {entries : List SampleEntry} :
    entries.any isDuplicateOfGpu = true ↔
      (∃ device, ((.vramTotal, some device), none) ∈ entries) ∨
        ∃ device, ((.vramUsed, some device), none) ∈ entries := by
  rw [List.any_eq_true, ← exists_or]
  constructor
  · rintro ⟨⟨⟨metric, device⟩, value⟩, hmem, hdup⟩
    cases value <;> cases device <;> cases metric <;> simp [isDuplicateOfGpu] at hdup
    · exact ⟨_, Or.inl hmem⟩
    · exact ⟨_, Or.inr hmem⟩
  · rintro ⟨device, hmem | hmem⟩
    · exact ⟨_, hmem, rfl⟩
    · exact ⟨_, hmem, rfl⟩

/-- Two sums that are known or not make a pair that is known or not. -/
theorem toNats_pairInMb {a b : Option UInt64} {m n : ℕ} {p q : Prop} [Decidable p]
    [Decidable q] (ha : a.map UInt64.toNat = if p then some m else none)
    (hb : b.map UInt64.toNat = if q then some n else none) :
    toNats (pairInMb a b) =
      if p ∧ q then (some (m / 2 ^ 20), some (n / 2 ^ 20)) else (none, none) := by
  by_cases hp : p
  · rw [if_pos hp, Option.map_eq_some_iff] at ha
    obtain ⟨total, rfl, rfl⟩ := ha
    by_cases hq : q
    · rw [if_pos hq, Option.map_eq_some_iff] at hb
      obtain ⟨used, rfl, rfl⟩ := hb
      rw [if_pos ⟨hp, hq⟩, pairInMb, toNats, Option.map_some, Option.map_some,
        toNat_bytesToMb, toNat_bytesToMb]
    · rw [if_neg hq, Option.map_eq_none_iff] at hb
      rw [hb, if_neg fun h => hq h.2]
      rfl
  · rw [if_neg hp, Option.map_eq_none_iff] at ha
    rw [ha, if_neg fun h => hp h.1]
    rfl

theorem toNats_vramPair {filed : List (SampleKey × UInt64)}
    {totals useds : List (String × UInt64)} {traversal : ℕ → List SampleEntry}
    (htraversal : ∀ n, (traversal n).Perm (filed.foldl fileSample ∅).items)
    (htotals : FiledAs .vramTotal filed totals) (huseds : FiledAs .vramUsed filed useds) :
    toNats (vramPair traversal) = vramOf totals useds := by
  have hdup : (traversal 2).any isDuplicateOfGpu = true ↔
      ¬((totals.map Prod.fst).Nodup ∧ (useds.map Prod.fst).Nodup) := by
    rw [any_isDuplicateOfGpu, exists_marked_iff (htraversal 2) htotals,
      exists_marked_iff (htraversal 2) huseds, not_and_or]
  simp only [vramPair, devicesReporting_eq (htraversal 0) htotals,
    devicesReporting_eq (htraversal 1) huseds, hdup, vramOf]
  by_cases hset : (totals.map Prod.fst).toFinset = (useds.map Prod.fst).toFinset
  · rw [if_neg (not_not.mpr hset)]
    by_cases hnodup : (totals.map Prod.fst).Nodup ∧ (useds.map Prod.fst).Nodup
    · rw [if_neg (not_not.mpr hnodup), toNats_pairInMb
        (toNat_sum_readings (htraversal 3) htotals hnodup.1)
        (toNat_sum_readings (htraversal 4) huseds hnodup.2)]
      -- the second gauge has a reading when the first has one
      have hempty : ∀ l : List (String × UInt64), l = [] ↔ (l.map Prod.fst).toFinset = ∅ := by
        intro l
        rw [List.toFinset_eq_empty_iff, List.map_eq_nil_iff]
      have hnil : totals = [] ↔ useds = [] := by
        rw [hempty, hempty, hset]
      apply if_congr _ rfl rfl
      unfold VramKnown
      tauto
    · rw [if_pos hnodup, if_neg fun h : VramKnown totals useds => hnodup h.2.2.1]
      rfl
  · rw [if_pos hset, if_neg fun h : VramKnown totals useds => hset h.1]
    rfl

theorem toNats_ramPair (samples : List Sample) :
    toNats (ramPair ((filedSamples samples).foldl fileSample ∅)) =
      ramOf (hostReadings "llamaswap_memory_total_bytes" samples)
        (hostReadings "llamaswap_memory_used_bytes" samples) := by
  simp only [ramPair, lookup_collect, filedUnder_ramTotal, filedUnder_ramUsed]
  generalize hostReadings "llamaswap_memory_total_bytes" samples = totals
  generalize hostReadings "llamaswap_memory_used_bytes" samples = useds
  match totals, useds with
  | [], [] => rfl
  | [], [_] => rfl
  | [], _ :: _ :: _ => rfl
  | [_], [] => rfl
  | [_], _ :: _ :: _ => rfl
  | _ :: _ :: _, _ => rfl
  | [total], [used] =>
      simp [slot, ramOf, toNats, pairInMb, toNat_bytesToMb]

/-! ### Orders -/

theorem vramOf_perm {totals totals' useds useds' : List (String × UInt64)}
    (htotals : totals.Perm totals') (huseds : useds.Perm useds') :
    vramOf totals useds = vramOf totals' useds' := by
  have hbytes : ∀ {l l' : List (String × UInt64)}, l.Perm l' → totalBytes l = totalBytes l' :=
    fun h => (h.map _).sum_eq
  have hdevices : ∀ {l l' : List (String × UInt64)}, l.Perm l' →
      (l.map Prod.fst).toFinset = (l'.map Prod.fst).toFinset :=
    fun h => List.toFinset_eq_of_perm _ _ (h.map _)
  have hknown : VramKnown totals useds ↔ VramKnown totals' useds' := by
    unfold VramKnown
    rw [hdevices htotals, hdevices huseds, hbytes htotals, hbytes huseds,
      (htotals.map Prod.fst).nodup_iff, (huseds.map Prod.fst).nodup_iff]
    have hnil : totals = [] ↔ totals' = [] := by
      rw [← List.length_eq_zero_iff, htotals.length_eq, List.length_eq_zero_iff]
    simp only [ne_eq, hnil]
  rw [vramOf, vramOf, hbytes htotals, hbytes huseds]
  exact if_congr hknown rfl rfl

theorem ramOf_perm {totals totals' useds useds' : List UInt64}
    (htotals : totals.Perm totals') (huseds : useds.Perm useds') :
    ramOf totals useds = ramOf totals' useds' := by
  have hcases : ∀ {l l' : List UInt64}, l.Perm l' →
      l = l' ∨ 2 ≤ l.length ∧ 2 ≤ l'.length := by
    intro l l' h
    match l with
    | [] => exact Or.inl h.nil_eq
    | [x] => exact Or.inl (List.singleton_perm.mp h)
    | x :: y :: rest =>
        have hlen := h.length_eq
        simp only [List.length_cons] at hlen ⊢
        omega
  have hleft : ∀ {l : List UInt64} (r : List UInt64), 2 ≤ l.length → ramOf l r = (none, none) := by
    intro l r h
    match l with
    | [] => simp at h
    | [_] => simp at h
    | _ :: _ :: _ => rfl
  have hright : ∀ (l : List UInt64) {r : List UInt64}, 2 ≤ r.length → ramOf l r = (none, none) := by
    intro l r h
    match l, r with
    | _, [] => simp at h
    | _, [_] => simp at h
    | [], _ :: _ :: _ => rfl
    | [_], _ :: _ :: _ => rfl
    | _ :: _ :: _, _ :: _ :: _ => rfl
  rcases hcases htotals with rfl | ⟨h, h'⟩
  · rcases hcases huseds with rfl | ⟨h, h'⟩
    · rfl
    · rw [hright _ h, hright _ h']
  · rw [hleft _ h, hleft _ h']

/-- The memory metrics are all or nothing. The VRAM pair and the host pair are what the
GPU gauges and the host gauges mean, so neither depends on the readings of the other; and
neither the order of the lines nor the orders in which the map is traversed matter. -/
theorem memory_all_or_nothing (parseSampleLine : List Char → Option Sample)
    (traverse : SampleMap → ℕ → List SampleEntry)
    (htraverse : ∀ samples n, (traverse samples n).Perm samples.items)
    (rawLines : List (List Char)) :
    let samples := rawLines.filterMap (sampleOfLine parseSampleLine)
    let memory := memoryOfLines parseSampleLine traverse rawLines
    toNats (memory.vramTotalMb, memory.vramUsedMb) =
        vramOf (gpuReadings "llamaswap_gpu_memory_total_bytes" samples)
          (gpuReadings "llamaswap_gpu_memory_used_bytes" samples) ∧
      toNats (memory.ramTotalMb, memory.ramUsedMb) =
        ramOf (hostReadings "llamaswap_memory_total_bytes" samples)
          (hostReadings "llamaswap_memory_used_bytes" samples) ∧
      (∀ rawLines', let samples' := rawLines'.filterMap (sampleOfLine parseSampleLine)
        let memory' := memoryOfLines parseSampleLine traverse rawLines'
        (gpuReadings "llamaswap_gpu_memory_total_bytes" samples' =
            gpuReadings "llamaswap_gpu_memory_total_bytes" samples →
          gpuReadings "llamaswap_gpu_memory_used_bytes" samples' =
            gpuReadings "llamaswap_gpu_memory_used_bytes" samples →
          (memory'.vramTotalMb, memory'.vramUsedMb) =
            (memory.vramTotalMb, memory.vramUsedMb)) ∧
        (hostReadings "llamaswap_memory_total_bytes" samples' =
            hostReadings "llamaswap_memory_total_bytes" samples →
          hostReadings "llamaswap_memory_used_bytes" samples' =
            hostReadings "llamaswap_memory_used_bytes" samples →
          (memory'.ramTotalMb, memory'.ramUsedMb) = (memory.ramTotalMb, memory.ramUsedMb))) ∧
      ∀ traverse' : SampleMap → ℕ → List SampleEntry,
        (∀ samples n, (traverse' samples n).Perm samples.items) →
        ∀ rawLines', rawLines.Perm rawLines' →
          memoryOfLines parseSampleLine traverse' rawLines' = memory := by
  have hvram : ∀ traverse' : SampleMap → ℕ → List SampleEntry,
      (∀ samples n, (traverse' samples n).Perm samples.items) → ∀ rawLines',
      toNats (vramPair (traverse' (collectSamples parseSampleLine rawLines'))) = _ :=
    fun traverse' htraverse' rawLines' =>
      toNats_vramPair (htraverse' _) (filedAs_vramTotal _) (filedAs_vramUsed _)
  have hram : ∀ rawLines',
      toNats (ramPair (collectSamples parseSampleLine rawLines')) = _ :=
    fun rawLines' => toNats_ramPair _
  refine ⟨hvram traverse htraverse rawLines, hram rawLines, ?_, ?_⟩
  · intro rawLines'
    refine ⟨fun htotals huseds => toNats_injective ?_, fun htotals huseds => toNats_injective ?_⟩
    · refine (hvram traverse htraverse rawLines').trans ?_
      rw [htotals, huseds]
      exact (hvram traverse htraverse rawLines).symm
    · refine (hram rawLines').trans ?_
      rw [htotals, huseds]
      exact (hram rawLines).symm
  intro traverse' htraverse' rawLines' hperm
  have hsamples := hperm.filterMap (sampleOfLine parseSampleLine)
  have hvrams : vramPair (traverse' (collectSamples parseSampleLine rawLines')) =
      vramPair (traverse (collectSamples parseSampleLine rawLines)) := by
    apply toNats_injective
    rw [hvram traverse' htraverse', hvram traverse htraverse]
    exact vramOf_perm (hsamples.symm.filterMap _) (hsamples.symm.filterMap _)
  have hrams : ramPair (collectSamples parseSampleLine rawLines') =
      ramPair (collectSamples parseSampleLine rawLines) := by
    apply toNats_injective
    rw [hram, hram]
    exact ramOf_perm (hsamples.symm.filterMap _) (hsamples.symm.filterMap _)
  simp only [memoryOfLines, hvrams, hrams]

/-- Two megabytes of host memory, one of them used, and a GPU that reports its total
only. -/
theorem memory_all_or_nothing_half_a_gpu :
    let parse : List Char → Option Sample
      | ['t'] => some ⟨"llamaswap_memory_total_bytes", 2097152, none⟩
      | ['u'] => some ⟨"llamaswap_memory_used_bytes", 1048577, none⟩
      | _ => some ⟨"llamaswap_gpu_memory_total_bytes", 1048576, some "0"⟩
    let memory := memoryOfLines parse (fun samples _ => samples.items) [['u'], ['g'], ['t', ' ']]
    toNats (memory.ramTotalMb, memory.ramUsedMb) = (some 2, some 1) ∧
      toNats (memory.vramTotalMb, memory.vramUsedMb) = (none, none) := by
  intro parse memory
  obtain ⟨hvram, hram, -, -⟩ := memory_all_or_nothing parse (fun samples _ => samples.items)
    (fun _ _ => List.Perm.refl _) [['u'], ['g'], ['t', ' ']]
  exact ⟨hram.trans (by decide), hvram.trans (by decide)⟩

end Anemoi
