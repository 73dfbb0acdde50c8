import Mathlib.Data.List.Infix
import Anemoi.Core.Types
import Anemoi.Systems.Framing
import Anemoi.Systems.Table
import Anemoi.Text.Lines

/-!
# The event stream of llama-swap

llama-swap pushes the states of its models over server-sent events. `SseDecoder` buffers
the bytes that arrive, without carriage returns, and takes an event off the buffer at each
blank line; the payload of an event is what stands in its `data:` lines. How a payload is
parsed is a parameter, since it is a JSON library's work.

`push_chunks` says that the decoder reads the same updates from a byte stream however it
was cut into chunks and whichever of its lines end with a carriage return.
-/

namespace Anemoi

open Systems

/-- The process states of a model. -/
inductive LlamaSwapModelState where
  | stopped
  | starting
  | ready
  | stopping
  | shutdown
  deriving DecidableEq, Repr

/-- The full model set that one event carries. -/
abbrev ModelStatusUpdate := List (String × LlamaSwapModelState)

/-! ### Events -/

/-- The position of the first window of `haystack` that is `needle`. -/
def findSubslice (haystack needle : List UInt8) : Option ℕ :=
  (List.range (haystack.length + 1 - needle.length)).find? fun i =>
    (haystack.drop i).take needle.length = needle

/-- The blank line behind an event. -/
def eventDelimiter : List UInt8 := [10, 10]

def carriageReturn : UInt8 := 13

/-- Drain the first event of a buffer: its bytes and the bytes behind its delimiter. -/
def drainEvent (buffer : List UInt8) : Option (List UInt8 × List UInt8) :=
  (findSubslice buffer eventDelimiter).map fun e =>
    let event := buffer.take (e + 2)
    (event.take e, buffer.drop (e + 2))

/-- The `data:` lines of an event, each without the blank behind the colon. -/
def dataLines (event : List Char) : List (List Char) :=
  (lines event).filterMap fun line =>
    (stripPrefix "data:".toList line).map fun rest => (stripPrefix [' '] rest).getD rest

/-- The payload of an event that has data lines. -/
def sseDataField (event : List Char) : Option (List Char) :=
  if (dataLines event).isEmpty then none
  else some (List.intercalate ['\n'] (dataLines event))

/-- The update that an event carries. -/
def readEvent (parseModelStatusPayload : List Char → Option ModelStatusUpdate)
    (event : List UInt8) : Option ModelStatusUpdate := do
  let text ← decode ⟨event.toArray⟩
  let payload ← sseDataField text
  parseModelStatusPayload payload

/-! ### The delimiter search -/

theorem findSubslice_eq_some {haystack needle : List UInt8} {i : ℕ} :
    findSubslice haystack needle = some i ↔
      (haystack.drop i).take needle.length = needle ∧
        i + needle.length ≤ haystack.length ∧
          ∀ j < i, (haystack.drop j).take needle.length ≠ needle := by
  rw [findSubslice, List.find?_range_eq_some, List.mem_range, decide_eq_true_eq]
  have hlt : i < haystack.length + 1 - needle.length ↔ i + needle.length ≤ haystack.length := by
    omega
  rw [hlt]
  simp

/-- A window that is found stays the first one when bytes are appended. -/
theorem findSubslice_append {haystack needle : List UInt8} {i : ℕ}
    (h : findSubslice haystack needle = some i) (more : List UInt8) :
    findSubslice (haystack ++ more) needle = some i := by
  obtain ⟨hwindow, hle, hfirst⟩ := findSubslice_eq_some.mp h
  have hsame : ∀ j ≤ i, ((haystack ++ more).drop j).take needle.length =
      (haystack.drop j).take needle.length := by
    intro j hj
    rw [List.drop_append_of_le_length (by omega),
      List.take_append_of_le_length (by rw [List.length_drop]; omega)]
  refine findSubslice_eq_some.mpr ⟨?_, ?_, fun j hj => ?_⟩
  · rw [hsame i le_rfl]
    exact hwindow
  · rw [List.length_append]
    exact hle.trans (Nat.le_add_right _ _)
  · rw [hsame j hj.le]
    exact hfirst j hj

/-- Without a window there is no occurrence. -/
theorem not_infix_of_findSubslice {haystack needle : List UInt8}
    (h : findSubslice haystack needle = none) : ¬needle <:+: haystack := by
  rintro ⟨before, after, rfl⟩
  rw [findSubslice, List.find?_range_eq_none] at h
  have hat := h before.length (by simp only [List.length_append]; omega)
  rw [List.append_assoc, List.drop_left, List.take_left] at hat
  simp at hat

theorem drainEvent_eq_some {buffer event rest : List UInt8} :
    drainEvent buffer = some (event, rest) ↔
      ∃ e, findSubslice buffer eventDelimiter = some e ∧
        buffer.take e = event ∧ buffer.drop (e + 2) = rest := by
  rw [drainEvent, Option.map_eq_some_iff]
  have htake : ∀ e, (buffer.take (e + 2)).take e = buffer.take e := by
    intro e
    rw [List.take_take, Nat.min_eq_left (Nat.le_add_right e 2)]
  simp only [htake, Prod.mk.injEq]

/-- Events as frames of the byte stream. -/
def eventFramer : Framer UInt8 where
  next := drainEvent
  shrinks := by
    intro buffer event rest h
    obtain ⟨e, hfind, -, rfl⟩ := drainEvent_eq_some.mp h
    obtain ⟨-, hle, -⟩ := findSubslice_eq_some.mp hfind
    have hlen : eventDelimiter.length = 2 := rfl
    rw [List.length_drop]
    omega
  stable := by
    intro buffer event rest h more
    obtain ⟨e, hfind, rfl, rfl⟩ := drainEvent_eq_some.mp h
    obtain ⟨-, hle, -⟩ := findSubslice_eq_some.mp hfind
    have hlen : eventDelimiter.length = 2 := rfl
    refine drainEvent_eq_some.mpr ⟨e, findSubslice_append hfind more, ?_, ?_⟩
    · exact List.take_append_of_le_length (by omega)
    · exact List.drop_append_of_le_length (by omega)

/-! ### The decoder -/

/-- The bytes that no complete event has been taken from. -/
structure SseDecoder where
  buffer : List UInt8
  deriving DecidableEq, Repr

namespace SseDecoder

def new : SseDecoder := ⟨[]⟩

/-- The bytes of a chunk that the decoder buffers. -/
def kept (chunk : List UInt8) : List UInt8 :=
  chunk.filter (· != carriageReturn)

section Push

variable (parseModelStatusPayload : List Char → Option ModelStatusUpdate)

/-- The updates of the events that are complete with this chunk. -/
def push (decoder : SseDecoder) (chunk : List UInt8) : List ModelStatusUpdate × SseDecoder :=
  let drained := eventFramer.drain (readEvent parseModelStatusPayload)
    (decoder.buffer ++ kept chunk)
  (drained.1, ⟨drained.2⟩)

/-- The updates of all pushes of some chunks, in order. -/
def updates (decoder : SseDecoder) (chunks : List (List UInt8)) : List ModelStatusUpdate :=
  (Machine.logFrom (push parseModelStatusPayload) decoder chunks).flatMap Record.output

/-- The decoder after the pushes of some chunks. -/
def afterPushes (decoder : SseDecoder) (chunks : List (List UInt8)) : SseDecoder :=
  Machine.runFrom (push parseModelStatusPayload) decoder chunks

theorem updates_eq (decoder : SseDecoder) (chunks : List (List UInt8)) :
    decoder.updates parseModelStatusPayload chunks =
      (Machine.logFrom (eventFramer.feed (readEvent parseModelStatusPayload)) decoder.buffer
        (chunks.map kept)).flatMap Record.output := by
  induction chunks generalizing decoder with
  | nil => rfl
  | cons chunk chunks ih =>
      have htail := ih (push parseModelStatusPayload decoder chunk).2
      rw [updates] at htail
      rw [updates, Machine.logFrom_cons, List.flatMap_cons, htail, List.map_cons,
        Machine.logFrom_cons, List.flatMap_cons]
      rfl

theorem afterPushes_eq (decoder : SseDecoder) (chunks : List (List UInt8)) :
    (decoder.afterPushes parseModelStatusPayload chunks).buffer =
      Machine.runFrom (eventFramer.feed (readEvent parseModelStatusPayload)) decoder.buffer
        (chunks.map kept) := by
  induction chunks generalizing decoder with
  | nil => rfl
  | cons chunk chunks ih =>
      rw [afterPushes, Machine.runFrom_cons, ← afterPushes, ih, List.map_cons,
        Machine.runFrom_cons]
      rfl

theorem kept_flatten (chunks : List (List UInt8)) :
    (chunks.map kept).flatten = kept chunks.flatten := by
  rw [kept, List.filter_flatten]
  rfl

/-- On a buffer without a complete event, chunks are read as the stream they make up. -/
theorem updates_of_next {decoder : SseDecoder} (h : drainEvent decoder.buffer = none)
    (chunks : List (List UInt8)) :
    decoder.updates parseModelStatusPayload chunks =
      (decoder.push parseModelStatusPayload chunks.flatten).1 := by
  rw [updates_eq, Framer.flatMap_output_feed _ _ h, kept_flatten, push]

theorem afterPushes_of_next {decoder : SseDecoder} (h : drainEvent decoder.buffer = none)
    (chunks : List (List UInt8)) :
    decoder.afterPushes parseModelStatusPayload chunks =
      (decoder.push parseModelStatusPayload chunks.flatten).2 := by
  have hbuffer := decoder.afterPushes_eq parseModelStatusPayload chunks
  rw [Framer.runFrom_feed _ _ h, kept_flatten] at hbuffer
  exact congrArg SseDecoder.mk hbuffer

/-- A push leaves no complete event behind. -/
theorem not_infix_push (decoder : SseDecoder) (chunk : List UInt8) :
    ¬eventDelimiter <:+: (decoder.push parseModelStatusPayload chunk).2.buffer := by
  have hnext := eventFramer.next_drain (readEvent parseModelStatusPayload)
    (decoder.buffer ++ kept chunk)
  exact not_infix_of_findSubslice (Option.map_eq_none_iff.mp hnext)

/-- A push brings no carriage return into the buffer. -/
theorem notMem_push {decoder : SseDecoder} (h : carriageReturn ∉ decoder.buffer)
    (chunk : List UInt8) :
    carriageReturn ∉ (decoder.push parseModelStatusPayload chunk).2.buffer := by
  intro hmem
  have hsuffix : ∀ {buffer frame rest : List UInt8},
      eventFramer.next buffer = some (frame, rest) → rest <:+ buffer := by
    intro buffer frame rest hnext
    obtain ⟨e, -, -, rfl⟩ := drainEvent_eq_some.mp hnext
    exact List.drop_suffix _ _
  have hbuffer := (eventFramer.drain_suffix (readEvent parseModelStatusPayload) hsuffix
    (decoder.buffer ++ kept chunk)).subset hmem
  rcases List.mem_append.mp hbuffer with hold | hnew
  · exact h hold
  · exact absurd (List.mem_filter.mp hnew).2 (by simp)

end Push

/-- The second stream is the first with some newlines written as carriage return and
newline. -/
inductive Crlf : List UInt8 → List UInt8 → Prop
  | nil : Crlf [] []
  | keep {s s' : List UInt8} (b : UInt8) : Crlf s s' → Crlf (b :: s) (b :: s')
  | crlf {s s' : List UInt8} : Crlf s s' → Crlf (10 :: s) (carriageReturn :: 10 :: s')

theorem kept_eq_of_crlf {s s' : List UInt8} (h : Crlf s s') : kept s' = kept s := by
  unfold kept
  induction h with
  | nil => rfl
  | keep b _ ih => rw [List.filter_cons, List.filter_cons, ih]
  | crlf _ ih =>
      rw [List.filter_cons_of_neg (by decide), List.filter_cons, List.filter_cons, ih]

/-- Decoding does not depend on the chunks. However a stream is cut, the pushes of a fresh
decoder give the updates of a single push and leave its buffer; after each of them the
buffer holds neither a blank line nor a carriage return; the loop of every push ends; and
a stream whose newlines are written otherwise, cut in any other way, is decoded alike. -/
theorem push_chunks (parseModelStatusPayload : List Char → Option ModelStatusUpdate)
    (chunks : List (List UInt8)) :
    (new.updates parseModelStatusPayload chunks =
        (new.push parseModelStatusPayload chunks.flatten).1 ∧
      new.afterPushes parseModelStatusPayload chunks =
        (new.push parseModelStatusPayload chunks.flatten).2) ∧
    (∀ r ∈ Machine.logFrom (push parseModelStatusPayload) new chunks,
      ¬eventDelimiter <:+: r.after.buffer ∧ carriageReturn ∉ r.after.buffer) ∧
    (∀ (decoder : SseDecoder) (chunk : List UInt8), ∃ rounds,
      (eventFramer.drainWithin (readEvent parseModelStatusPayload) rounds
        (decoder.buffer ++ kept chunk)) =
          some ((decoder.push parseModelStatusPayload chunk).1,
            (decoder.push parseModelStatusPayload chunk).2.buffer)) ∧
    ∀ chunks' : List (List UInt8), Crlf chunks.flatten chunks'.flatten →
      new.updates parseModelStatusPayload chunks' =
        new.updates parseModelStatusPayload chunks ∧
      new.afterPushes parseModelStatusPayload chunks' =
        new.afterPushes parseModelStatusPayload chunks := by
  have hfresh : drainEvent new.buffer = none := rfl
  refine ⟨⟨updates_of_next _ hfresh chunks, afterPushes_of_next _ hfresh chunks⟩, ?_, ?_, ?_⟩
  · have hguard : ∀ r ∈ Machine.logFrom (push parseModelStatusPayload) new chunks, True :=
      fun _ _ => trivial
    have hsteps := Machine.forall_mem_logFrom (push parseModelStatusPayload)
      (I := fun d => carriageReturn ∉ d.buffer) (G := fun _ => True)
      (P := fun r => ¬eventDelimiter <:+: r.after.buffer ∧ carriageReturn ∉ r.after.buffer)
      (fun d chunk hd _ => notMem_push _ hd chunk)
      (fun d chunk hd _ => ⟨not_infix_push _ d chunk, notMem_push _ hd chunk⟩)
      hguard List.not_mem_nil
    exact hsteps
  · intro decoder chunk
    exact ⟨_, Framer.drainWithin_of_lt _ _ (Nat.lt_succ_self _)⟩
  · intro chunks' hcrlf
    have hpush : new.push parseModelStatusPayload chunks'.flatten =
        new.push parseModelStatusPayload chunks.flatten := by
      rw [push, push, kept_eq_of_crlf hcrlf]
    rw [updates_of_next _ hfresh, updates_of_next _ hfresh, afterPushes_of_next _ hfresh,
      afterPushes_of_next _ hfresh, hpush]
    exact ⟨rfl, rfl⟩

/-- A blank line cut in two, its second newline written with a carriage return. -/
theorem push_chunks_cut_delimiter :
    new.updates (fun _ => some []) [[100, 10, 13], [], [10]] =
      new.updates (fun _ => some []) [[100, 10, 10]] :=
  ((push_chunks (fun _ => some []) [[100, 10, 10]]).2.2.2 [[100, 10, 13], [], [10]]
    (.keep 100 (.keep 10 (.crlf .nil)))).1

end SseDecoder

/-! ### The cache that follows the stream -/

/-- The states of the models that the stream last reported. -/
abbrev ModelStateCache := Table String LlamaSwapModelState

/-- An event replaces the whole cache. -/
def applyModelStatus (_cache : ModelStateCache) (entries : ModelStatusUpdate) :
    ModelStateCache :=
  AList.ofList entries

/-- The cache after one connection delivered some chunks to a fresh decoder. -/
def streamEventsOnce (parseModelStatusPayload : List Char → Option ModelStatusUpdate)
    (cache : ModelStateCache) (chunks : List (List UInt8)) : ModelStateCache :=
  (SseDecoder.new.updates parseModelStatusPayload chunks).foldl applyModelStatus cache

/-- The cache does not depend on how the network cut the stream. -/
theorem streamEventsOnce_eq_of_flatten
    (parseModelStatusPayload : List Char → Option ModelStatusUpdate) (cache : ModelStateCache)
    {chunks chunks' : List (List UInt8)} (h : chunks.flatten = chunks'.flatten) :
    streamEventsOnce parseModelStatusPayload cache chunks =
      streamEventsOnce parseModelStatusPayload cache chunks' := by
  have hfresh : drainEvent SseDecoder.new.buffer = none := rfl
  rw [streamEventsOnce, streamEventsOnce, SseDecoder.updates_of_next _ hfresh,
    SseDecoder.updates_of_next _ hfresh, h]

end Anemoi
