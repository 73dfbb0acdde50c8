import Mathlib.Algebra.BigOperators.Group.List.Basic
import Mathlib.Algebra.GroupWithZero.Nat
import Mathlib.Algebra.Order.BigOperators.Group.List
import Mathlib.Data.Finset.Basic
import Mathlib.Data.Finset.Dedup
import Anemoi.Core.Types
import Anemoi.Systems.Table
import Anemoi.Text.Lines

/-!
# The memory metrics of llama-swap

llama-swap exports four gauges as Prometheus samples: total and used bytes of the host's
memory and, for each GPU, of its memory. One scrape is read in two passes. The first
files every sample under its metric and device and marks a key that is filed twice; the
second decides each pair of total and used from the complete map, and gives both numbers
or neither.

How a line is read as a sample is a parameter, since the value is parsed as a floating
point number. The traversals of the map that the second pass makes are a parameter too: a
`HashMap` promises no order.
-/

namespace Anemoi

open Systems

inductive Metric where
  | ramTotal
  | ramUsed
  | vramTotal
  | vramUsed
  deriving DecidableEq, Repr

/-- A metric and, for the samples of a GPU, the device. -/
abbrev SampleKey := Metric × Option String

/-- The samples by key; a key that was filed more than once has no value. -/
abbrev SampleMap := Table SampleKey (Option UInt64)

/-- What a line of the exposition says: name, value in bytes and the `id` label. -/
structure Sample where
  name : String
  valueBytes : UInt64
  gpuDeviceId : Option String
  deriving DecidableEq, Repr

def bytesToMb (bytes : UInt64) : UInt64 :=
  bytes / 1024 / 1024

/-! ### Pass one: collect -/

/-- The key a sample is filed under. A GPU sample without a device is skipped. -/
def Sample.key? (sample : Sample) : Option SampleKey :=
  match sample.name with
  | "llamaswap_memory_total_bytes" => some (.ramTotal, none)
  | "llamaswap_memory_used_bytes" => some (.ramUsed, none)
  | "llamaswap_gpu_memory_total_bytes" =>
      sample.gpuDeviceId.map fun device => (.vramTotal, some device)
  | "llamaswap_gpu_memory_used_bytes" =>
      sample.gpuDeviceId.map fun device => (.vramUsed, some device)
  | _ => none

/-- The sample on a line; a blank line and a comment have none. -/
def sampleOfLine (parseSampleLine : List Char → Option Sample) (raw : List Char) :
    Option Sample :=
  let line := trim raw
  if line.isEmpty || line.head? == some '#' then none else parseSampleLine line

/-- File a value under a key, or mark the key when it has been filed before. -/
def fileSample (samples : SampleMap) (filed : SampleKey × UInt64) : SampleMap :=
  match samples.lookup filed.1 with
  | none => samples.insert filed.1 (some filed.2)
  | some _ => samples.insert filed.1 none

/-- The samples of some lines, each with the key it is filed under. -/
def filedSamples (samples : List Sample) : List (SampleKey × UInt64) :=
  samples.filterMap fun sample => sample.key?.map fun key => (key, sample.valueBytes)

def collectSamples (parseSampleLine : List Char → Option Sample)
    (rawLines : List (List Char)) : SampleMap :=
  (filedSamples (rawLines.filterMap (sampleOfLine parseSampleLine))).foldl fileSample ∅

/-! ### Pass two: decide -/

abbrev SampleEntry := SampleKey × Option UInt64

/-- The devices that reported a sample of the metric. -/
def devicesReporting (entries : List SampleEntry) (metric : Metric) : Finset String :=
  (entries.filterMap fun entry =>
    if entry.1.1 = metric then entry.1.2 else none).toFinset

/-- `u64::checked_add`. -/
def checkedAdd (a b : UInt64) : Option UInt64 :=
  if a.toNat + b.toNat < 2 ^ 64 then some (a + b) else none

/-- The sum of the values of a metric, from what the loop has so far. -/
def sumMetricFrom (metric : Metric) (total : Option UInt64) :
    List SampleEntry → Option UInt64
  | [] => total
  | entry :: entries =>
      if entry.1.1 ≠ metric then sumMetricFrom metric total entries
      else
        match entry.2 with
        | none => none
        | some bytes =>
            match (match total with
              | none => some bytes
              | some acc => checkedAdd acc bytes) with
            | none => none
            | some acc => sumMetricFrom metric (some acc) entries

def sumMetricValues (entries : List SampleEntry) (metric : Metric) : Option UInt64 :=
  sumMetricFrom metric none entries

/-- Whether the entry is a duplicated sample of a GPU. -/
def isDuplicateOfGpu (entry : SampleEntry) : Bool :=
  entry.2.isNone && entry.1.2.isSome && (entry.1.1 = .vramTotal || entry.1.1 = .vramUsed)

/-- Both values in megabytes, or neither. -/
def pairInMb : Option UInt64 → Option UInt64 → Option UInt64 × Option UInt64
  | some total, some used => (some (bytesToMb total), some (bytesToMb used))
  | _, _ => (none, none)

/-- The VRAM pair. `traversal n` is the order in which the map is traversed the `n`-th
time. -/
def vramPair (traversal : ℕ → List SampleEntry) : Option UInt64 × Option UInt64 :=
  let totalDevices := devicesReporting (traversal 0) .vramTotal
  let usedDevices := devicesReporting (traversal 1) .vramUsed
  if totalDevices ≠ usedDevices then (none, none)
  else if (traversal 2).any isDuplicateOfGpu then (none, none)
  else
    pairInMb (sumMetricValues (traversal 3) .vramTotal) (sumMetricValues (traversal 4) .vramUsed)

/-- The host memory pair. -/
def ramPair (samples : SampleMap) : Option UInt64 × Option UInt64 :=
  let total := samples.lookup (.ramTotal, none)
  let used := samples.lookup (.ramUsed, none)
  if total = some none ∨ used = some none then (none, none)
  else pairInMb total.join used.join

/-- The memory of a scrape, from its lines. -/
def memoryOfLines (parseSampleLine : List Char → Option Sample)
    (traverse : SampleMap → ℕ → List SampleEntry) (rawLines : List (List Char)) :
    RuntimeMemorySnapshot :=
  let samples := collectSamples parseSampleLine rawLines
  let vram := vramPair (traverse samples)
  let ram := ramPair samples
  { vramTotalMb := vram.1, vramUsedMb := vram.2, ramTotalMb := ram.1, ramUsedMb := ram.2 }

def parseLlamaSwapMemoryMetrics (parseSampleLine : List Char → Option Sample)
    (traverse : SampleMap → ℕ → List SampleEntry) (text : List Char) :
    RuntimeMemorySnapshot :=
  memoryOfLines parseSampleLine traverse (lines text)

end Anemoi
