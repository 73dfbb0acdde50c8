import Anemoi.Runtime.Residents
import Anemoi.Text.ParameterScan
import Mathlib.Data.List.Chain

/-!
# The cache follows the stream

What the event stream of llama-swap leaves in the cache, from the events that its servers
wrote: `run_event_stream` connects again and again, each connection delivers some initial part
of what the server writes, in any chunks and with either kind of line ending, and then breaks
off. The cache is that of the last model status of which all bytes have arrived
(`runEventStream_eq`). What is torn at the end of a connection is not read, neither alone nor
together with the next connection.

An event is some lines, and its payload is what they say behind `data:` (`SseEvent.Carries`).
A status is sent as JSON in JSON: `StatusCodec` is what the JSON library decodes, and
`SseEvent.CarriesStatus` says that it decodes the payload of an event to a status.
-/

namespace Anemoi

open Systems

/-! ### Payloads -/

/-- The process state with the given name. -/
def LlamaSwapModelState.fromWire : String → Option LlamaSwapModelState
  | "stopped" => some stopped
  | "starting" => some starting
  | "ready" => some ready
  | "stopping" => some stopping
  | "shutdown" => some shutdown
  | _ => none

/-- What the JSON library decodes: the type and the data of a frame, and the entries in the
data, each a model and the name of a state. -/
structure StatusCodec where
  frame : List Char → Option (String × String)
  entries : String → Option (List (String × String))

/-- The entries with a known state. -/
def knownStates (entries : List (String × String)) : ModelStatusUpdate :=
  entries.filterMap fun entry =>
    (LlamaSwapModelState.fromWire entry.2).map fun state => (entry.1, state)

/-- The states in a `modelStatus` frame, whose data is a JSON text again. -/
def parseModelStatusPayload (codec : StatusCodec) (payload : List Char) :
    Option ModelStatusUpdate := do
  let (kind, data) ← codec.frame payload
  if kind ≠ "modelStatus" then none
  else
    let entries ← codec.entries data
    return knownStates entries

/-- The cache after some connections, each with the chunks that it delivered. -/
def runEventStream (codec : StatusCodec) (cache : ModelStateCache)
    (connections : List (List (List UInt8))) : ModelStateCache :=
  connections.foldl (streamEventsOnce (parseModelStatusPayload codec)) cache

/-! ### Events on the wire -/

/-- The bytes of a text. -/
def bytesOf (text : List Char) : List UInt8 :=
  (encode text).data.toList

/-- No two newlines stand next to each other. -/
def NoBlankLine (text : List Char) : Prop :=
  text.IsChain fun a b => ¬(a = '\n' ∧ b = '\n')

/-- The text of an event: it has no carriage return, and no blank line when the newline
behind it is there. -/
structure SseEvent where
  text : List Char
  no_return : '\r' ∉ text
  no_blank_line : NoBlankLine (text ++ ['\n'])
  deriving DecidableEq

namespace SseEvent

/-- The bytes of an event, with the blank line behind it. -/
def wire (event : SseEvent) : List UInt8 :=
  bytesOf event.text ++ eventDelimiter

/-- The model status that the event carries. -/
def update (codec : StatusCodec) (event : SseEvent) : Option ModelStatusUpdate :=
  (sseDataField event.text).bind (parseModelStatusPayload codec)

end SseEvent

/-! ### Blank lines in bytes -/

theorem bytesOf_eq (text : List Char) : bytesOf text = text.flatMap String.utf8EncodeChar := by
  have hbytes := asBytes_eq (String.ofList text)
  rwa [String.toList_ofList] at hbytes

/-- A byte below 128 is a character of the text. -/
theorem mem_of_mem_bytesOf {text : List Char} {byte : UInt8} (h : byte ∈ bytesOf text)
    (hlt : byte < 128) : Char.ofNat byte.toNat ∈ text := by
  rw [bytesOf_eq, List.mem_flatMap] at h
  obtain ⟨c, hc, hbyte⟩ := h
  by_cases hascii : c.toNat < 128
  · rw [utf8EncodeChar_of_lt hascii, List.mem_singleton] at hbyte
    rwa [hbyte, toNat_toUInt8 hascii, Char.ofNat_toNat]
  · exact absurd (le_of_mem_utf8EncodeChar (not_lt.mp hascii) hbyte) (UInt8.not_le.mpr hlt)

/-- No two newline bytes stand next to each other. -/
def NoBlankBytes (bytes : List UInt8) : Prop :=
  bytes.IsChain fun a b => ¬(a = 10 ∧ b = 10)

theorem noBlankBytes_utf8EncodeChar (c : Char) : NoBlankBytes (String.utf8EncodeChar c) := by
  by_cases hascii : c.toNat < 128
  · rw [utf8EncodeChar_of_lt hascii]
    exact List.isChain_singleton _
  · refine List.Pairwise.isChain (List.pairwise_of_forall_mem_list fun a ha b _ hab => ?_)
    have hle := le_of_mem_utf8EncodeChar (not_lt.mp hascii) ha
    rw [hab.1] at hle
    exact absurd hle (by decide)

/-- The bytes of a text start with a newline exactly when the text does. -/
theorem head?_bytesOf_newline {text : List Char} (h : (bytesOf text).head? = some 10) :
    text.head? = some '\n' := by
  have hbyte : ∀ c : Char, c.toNat < 128 → (c.val.toUInt8 == 10) = (c == '\n') := by
    intro c hc
    rw [Bool.eq_iff_iff, beq_iff_eq, beq_iff_eq, ← UInt8.toNat_inj, toNat_toUInt8 hc,
      ← Char.toNat_inj]
    rfl
  have hhigh : ∀ byte : UInt8, 128 ≤ byte → (byte == 10) = false := by
    rintro byte hle
    exact beq_eq_false_iff_ne.mpr fun heq => absurd (heq ▸ hle) (by decide)
  have hlarge : ∀ c : Char, 128 ≤ c.toNat → (c == '\n') = false := by
    rintro c hle
    exact beq_eq_false_iff_ne.mpr fun heq => absurd (heq ▸ hle) (by decide)
  have hhead := head?_utf8EncodeChar hbyte hhigh hlarge text
  rw [← bytesOf_eq, h, Option.any_some, beq_self_eq_true, eq_comm, Option.any_eq_true] at hhead
  obtain ⟨c, hc, hnewline⟩ := hhead
  rw [hc, beq_iff_eq.mp hnewline]

theorem noBlankBytes_bytesOf {text : List Char} (h : NoBlankLine text) :
    NoBlankBytes (bytesOf text) := by
  induction text with
  | nil => exact List.isChain_nil
  | cons c text ih =>
      rw [bytesOf_eq, List.flatMap_cons, ← bytesOf_eq text]
      refine List.isChain_append.mpr
        ⟨noBlankBytes_utf8EncodeChar c, ih (List.IsChain.tail h), ?_⟩
      rintro a ha b hb ⟨rfl, rfl⟩
      have hmem : (10 : UInt8) ∈ bytesOf [c] := by
        rw [bytesOf_eq, List.flatMap_singleton]
        exact List.mem_of_mem_getLast? ha
      have hc := List.mem_singleton.mp (mem_of_mem_bytesOf hmem (by decide))
      have hhead := head?_bytesOf_newline (Option.mem_def.mp hb)
      obtain ⟨rest, rfl⟩ := List.head?_eq_some_iff.mp hhead
      exact (List.isChain_cons_cons.mp h).1 ⟨hc.symm, rfl⟩

theorem NoBlankBytes.window {bytes : List UInt8} (h : NoBlankBytes bytes) (j : ℕ) :
    (bytes.drop j).take eventDelimiter.length ≠ eventDelimiter := by
  intro hwindow
  have hchain : NoBlankBytes (bytes.drop j) := List.IsChain.drop h j
  obtain ⟨rest, hrest⟩ : ∃ rest, bytes.drop j = 10 :: 10 :: rest :=
    ⟨(bytes.drop j).drop 2, by
      rw [← List.take_append_drop 2 (bytes.drop j), show (bytes.drop j).take 2 = _ from hwindow]
      rfl⟩
  rw [hrest] at hchain
  exact (List.isChain_cons_cons.mp hchain).1 ⟨rfl, rfl⟩

/-! ### Events as frames -/

theorem findSubslice_wire {bytes : List UInt8} (h : NoBlankBytes (bytes ++ [10]))
    (more : List UInt8) :
    findSubslice (bytes ++ eventDelimiter ++ more) eventDelimiter = some bytes.length := by
  have hlen : eventDelimiter.length = 2 := rfl
  refine findSubslice_eq_some.mpr ⟨?_, ?_, fun j hj => ?_⟩
  · rw [List.append_assoc, List.drop_left, List.take_left]
  · rw [List.length_append, List.length_append]
    exact Nat.le_add_right _ _
  · -- the window ends before the second newline of the delimiter
    have hsplit : bytes ++ eventDelimiter ++ more = (bytes ++ [10]) ++ (10 :: more) := by
      rw [List.append_assoc, List.append_assoc]
      rfl
    have hwindow := h.window j
    rw [hsplit, List.drop_append_of_le_length (by rw [List.length_append]; omega),
      List.take_append_of_le_length (by
        rw [List.length_drop, List.length_append, List.length_singleton]
        omega)]
    exact hwindow

theorem findSubslice_cut {bytes cut : List UInt8} (h : NoBlankBytes (bytes ++ [10]))
    (hcut : cut <+: bytes ++ eventDelimiter) (hne : cut ≠ bytes ++ eventDelimiter) :
    findSubslice cut eventDelimiter = none := by
  have hsplit : bytes ++ eventDelimiter = bytes ++ [10] ++ [10] := by
    rw [List.append_assoc]
    rfl
  rw [hsplit] at hcut hne
  rcases List.prefix_concat_iff.mp hcut with heq | hprefix
  · exact absurd heq hne
  · have hchain : NoBlankBytes cut := List.IsChain.prefix h hprefix
    cases hfind : findSubslice cut eventDelimiter with
    | none => rfl
    | some i => exact absurd (findSubslice_eq_some.mp hfind).1 (hchain.window i)

theorem SseEvent.noBlankBytes (event : SseEvent) :
    NoBlankBytes (bytesOf event.text ++ [10]) := by
  have hnewline : bytesOf ['\n'] = [10] := by decide
  have hchain := noBlankBytes_bytesOf event.no_blank_line
  rwa [bytesOf_eq, List.flatMap_append, ← bytesOf_eq, ← bytesOf_eq, hnewline] at hchain

/-- An event is one frame of the decoder. -/
theorem wires_sseEvent :
    eventFramer.Wires SseEvent.wire fun event => bytesOf event.text where
  next_wire := by
    intro event more
    refine drainEvent_eq_some.mpr ⟨_, findSubslice_wire event.noBlankBytes more, ?_, ?_⟩
    · rw [SseEvent.wire, List.append_assoc, List.take_left]
    · have hlen : (bytesOf event.text).length + 2 = event.wire.length := by
        rw [SseEvent.wire, List.length_append]
        rfl
      rw [hlen, List.drop_left]
  next_cut := by
    intro event cut hcut hne
    exact Option.map_eq_none_iff.mpr (findSubslice_cut event.noBlankBytes hcut hne)

theorem readEvent_bytesOf (codec : StatusCodec) (event : SseEvent) :
    readEvent (parseModelStatusPayload codec) (bytesOf event.text) = event.update codec := by
  have hbytes : (⟨(bytesOf event.text).toArray⟩ : ByteArray) = encode event.text := by
    rw [bytesOf, Array.toArray_toList]
  rw [readEvent, hbytes, decode_encode]
  rfl

/-- The decoder keeps all bytes of an event. -/
theorem SseEvent.kept_wire (events : List SseEvent) :
    SseDecoder.kept (events.flatMap SseEvent.wire) = events.flatMap SseEvent.wire := by
  refine List.filter_eq_self.mpr fun byte hbyte => ?_
  obtain ⟨event, -, hmem⟩ := List.mem_flatMap.mp hbyte
  rw [bne_iff_ne]
  rintro rfl
  rcases List.mem_append.mp hmem with htext | hdelimiter
  · exact event.no_return (mem_of_mem_bytesOf htext (by decide))
  · revert hdelimiter
    decide

/-! ### Connections -/

/-- A connection: what the server writes, and the chunks that the network delivers of it, the
line endings written in one way or the other, before the connection breaks off. -/
structure Connection where
  sent : List SseEvent
  chunks : List (List UInt8)
  received : ∃ stream, SseDecoder.Crlf (sent.flatMap SseEvent.wire) stream ∧
    chunks.flatten <+: stream

/-- The events that have arrived with their blank lines. -/
def Connection.arrived (connection : Connection) : List SseEvent :=
  Framer.arrived SseEvent.wire connection.sent (SseDecoder.kept connection.chunks.flatten)

/-- The cache after the last of some updates. -/
def lastUpdate (cache : ModelStateCache) (updates : List ModelStatusUpdate) : ModelStateCache :=
  (updates.getLast?.map fun entries => AList.ofList entries).getD cache

theorem foldl_applyModelStatus (cache : ModelStateCache) (updates : List ModelStatusUpdate) :
    updates.foldl applyModelStatus cache = lastUpdate cache updates := by
  rcases List.eq_nil_or_concat updates with rfl | ⟨earlier, last, rfl⟩
  · rfl
  · rw [List.concat_eq_append, List.foldl_append, lastUpdate, List.getLast?_concat]
    rfl

/-- One connection leaves the cache of the last status that arrived on it. -/
theorem streamEventsOnce_eq (codec : StatusCodec) (cache : ModelStateCache)
    (connection : Connection) :
    streamEventsOnce (parseModelStatusPayload codec) cache connection.chunks =
      lastUpdate cache (connection.arrived.filterMap (SseEvent.update codec)) := by
  obtain ⟨stream, hcrlf, hprefix⟩ := connection.received
  have hkept : SseDecoder.kept connection.chunks.flatten <+:
      connection.sent.flatMap SseEvent.wire := by
    rw [← SseEvent.kept_wire, ← SseDecoder.kept_eq_of_crlf hcrlf]
    exact hprefix.filter _
  have hread := eventFramer.drain_of_arrived (readEvent (parseModelStatusPayload codec))
    wires_sseEvent hkept
  simp only [readEvent_bytesOf] at hread
  rw [streamEventsOnce, SseDecoder.updates_of_next _ rfl, foldl_applyModelStatus]
  exact congrArg (lastUpdate cache) hread

theorem lastUpdate_append (cache : ModelStateCache) (updates updates' : List ModelStatusUpdate) :
    lastUpdate cache (updates ++ updates') = lastUpdate (lastUpdate cache updates) updates' := by
  rw [← foldl_applyModelStatus, List.foldl_append, foldl_applyModelStatus, foldl_applyModelStatus]

/-- After any connections the cache is that of the last model status that has arrived whole
on any of them. -/
theorem runEventStream_eq (codec : StatusCodec) (cache : ModelStateCache)
    (connections : List Connection) :
    runEventStream codec cache (connections.map Connection.chunks) =
      lastUpdate cache
        ((connections.flatMap Connection.arrived).filterMap (SseEvent.update codec)) := by
  induction connections generalizing cache with
  | nil => rfl
  | cons connection connections ih =>
      rw [List.map_cons, runEventStream, List.foldl_cons, ← runEventStream, ih,
        streamEventsOnce_eq, List.flatMap_cons, List.filterMap_append, lastUpdate_append]

/-! ### Statuses -/

/-- A line of an event: a part of the payload, behind a blank or not, or something else. -/
inductive SseLine where
  | spaced (part : List Char)
  | tight (part : List Char)
  | other (line : List Char)
  deriving Inhabited, DecidableEq

namespace SseLine

def text : SseLine → List Char
  | spaced part => "data: ".toList ++ part
  | tight part => "data:".toList ++ part
  | other line => line

/-- What the line says of the payload. -/
def part : SseLine → Option (List Char)
  | spaced part | tight part => some part
  | other _ => none

/-- The line is one line, and it cannot be read in another way. -/
def Proper : SseLine → Prop
  | spaced part => '\n' ∉ part
  | tight part => '\n' ∉ part ∧ ¬[' '] <+: part
  | other line => '\n' ∉ line ∧ ¬"data:".toList <+: line

theorem Proper.one_line {line : SseLine} (h : line.Proper) : '\n' ∉ line.text := by
  cases line with
  | spaced part => exact List.not_mem_append (by decide) h
  | tight part => exact List.not_mem_append (by decide) h.1
  | other line => exact h.1

/-- Every line is written in one of the ways. -/
theorem exists_text_eq {text : List Char} (h : '\n' ∉ text) :
    ∃ line : SseLine, line.Proper ∧ line.text = text := by
  cases hdata : stripPrefix "data:".toList text with
  | none => exact ⟨other text, ⟨h, stripPrefix_eq_none_iff.mp hdata⟩, rfl⟩
  | some rest =>
      obtain rfl := stripPrefix_eq_some_iff.mp hdata
      have hrest : '\n' ∉ rest := fun hmem => h (List.mem_append_right _ hmem)
      cases hblank : stripPrefix [' '] rest with
      | none => exact ⟨tight rest, ⟨hrest, stripPrefix_eq_none_iff.mp hblank⟩, rfl⟩
      | some part =>
          obtain rfl := stripPrefix_eq_some_iff.mp hblank
          exact ⟨spaced part, fun hmem => hrest (List.mem_append_right _ hmem), rfl⟩

/-- The line is read as what it says. -/
theorem Proper.strip_text {line : SseLine} (h : line.Proper) :
    ((stripPrefix "data:".toList line.text).map fun rest =>
      (stripPrefix [' '] rest).getD rest) = line.part := by
  cases line with
  | spaced part =>
      have hdata : stripPrefix "data:".toList (spaced part).text = some (' ' :: part) :=
        stripPrefix_eq_some_iff.mpr rfl
      have hblank : stripPrefix [' '] (' ' :: part) = some part := stripPrefix_eq_some_iff.mpr rfl
      rw [hdata, Option.map_some, hblank]
      rfl
  | tight part =>
      have hdata : stripPrefix "data:".toList (tight part).text = some part :=
        stripPrefix_eq_some_iff.mpr rfl
      rw [hdata, Option.map_some, stripPrefix_eq_none_iff.mpr h.2]
      rfl
  | other line =>
      have hdata : stripPrefix "data:".toList (other line).text = none :=
        stripPrefix_eq_none_iff.mpr h.2
      rw [hdata]
      rfl

end SseLine

namespace SseEvent

/-- The event is written in lines, some of them with a part of the payload each. -/
def Carries (event : SseEvent) (payload : List Char) : Prop :=
  ∃ ls : List SseLine, (∀ line ∈ ls, line.Proper) ∧
    event.text = List.intercalate ['\n'] (ls.map SseLine.text) ∧
    ls.filterMap SseLine.part ≠ [] ∧
    payload = List.intercalate ['\n'] (ls.filterMap SseLine.part)

/-- The event carries a model status with these entries. -/
def CarriesStatus (codec : StatusCodec) (event : SseEvent) (entries : List (String × String)) :
    Prop :=
  ∃ payload data, event.Carries payload ∧ codec.frame payload = some ("modelStatus", data) ∧
    codec.entries data = some entries

/-- Of an event that is written in lines, what they say is read. -/
theorem dataLines_eq {event : SseEvent} {ls : List SseLine} (hproper : ∀ line ∈ ls, line.Proper)
    (htext : event.text = List.intercalate ['\n'] (ls.map SseLine.text)) :
    dataLines event.text = ls.filterMap SseLine.part := by
  have hreturn : ∀ l ∈ ls.map SseLine.text, '\r' ∉ l := by
    intro l hl hmem
    refine event.no_return ?_
    rw [htext]
    exact mem_intercalate_of_mem hl hmem
  have hnewline : ∀ l ∈ ls.map SseLine.text, '\n' ∉ l := by
    intro l hl
    obtain ⟨line, hline, rfl⟩ := List.mem_map.mp hl
    exact (hproper line hline).one_line
  rw [dataLines, htext, filterMap_lines_intercalate (by decide) hnewline hreturn,
    List.filterMap_map]
  exact List.filterMap_congr fun line hline => (hproper line hline).strip_text

/-- What is read of an event is its payload. -/
theorem sseDataField_eq_some_iff (event : SseEvent) (payload : List Char) :
    sseDataField event.text = some payload ↔ event.Carries payload := by
  have hread : ∀ ls : List SseLine, (∀ line ∈ ls, line.Proper) →
      event.text = List.intercalate ['\n'] (ls.map SseLine.text) →
      (sseDataField event.text = some payload ↔ ls.filterMap SseLine.part ≠ [] ∧
        payload = List.intercalate ['\n'] (ls.filterMap SseLine.part)) := by
    intro ls hproper htext
    rw [sseDataField, dataLines_eq hproper htext]
    cases ls.filterMap SseLine.part with
    | nil => simp
    | cons part parts => simp [eq_comm]
  constructor
  · intro hpayload
    obtain ⟨texts, hnewline, htext⟩ := exists_intercalate_lines event.text
    choose! line hproper hline using fun text (h : '\n' ∉ text) => SseLine.exists_text_eq h
    have hmap : (texts.map line).map SseLine.text = texts := by
      rw [List.map_map]
      exact (List.map_congr_left fun text hmem => hline text (hnewline text hmem)).trans
        (List.map_id texts)
    have hall : ∀ l ∈ texts.map line, l.Proper := by
      rw [List.forall_mem_map]
      exact fun text hmem => hproper text (hnewline text hmem)
    rw [← hmap] at htext
    exact ⟨texts.map line, hall, htext, (hread _ hall htext).mp hpayload⟩
  · rintro ⟨ls, hproper, htext, hpayload⟩
    exact (hread ls hproper htext).mpr hpayload

end SseEvent

/-- A `modelStatus` frame is parsed to the known states of its entries. -/
theorem parseModelStatusPayload_eq_some_iff {codec : StatusCodec} {payload : List Char}
    {update : ModelStatusUpdate} :
    parseModelStatusPayload codec payload = some update ↔
      ∃ data entries, codec.frame payload = some ("modelStatus", data) ∧
        codec.entries data = some entries ∧ knownStates entries = update := by
  simp only [parseModelStatusPayload, Option.bind_eq_bind, Option.bind_eq_some_iff, Prod.exists]
  constructor
  · rintro ⟨kind, data, hframe, hkind⟩
    split at hkind
    · cases hkind
    · next hstatus =>
        obtain ⟨entries, hentries, hknown⟩ := Option.bind_eq_some_iff.mp hkind
        rw [not_not.mp hstatus] at hframe
        exact ⟨data, entries, hframe, hentries, Option.some.inj hknown⟩
  · rintro ⟨data, entries, hframe, hentries, rfl⟩
    refine ⟨"modelStatus", data, hframe, ?_⟩
    rw [if_neg (not_not_intro rfl), hentries]
    rfl

namespace SseEvent

/-- A status is read as its known states. -/
theorem update_eq_some_iff {codec : StatusCodec} {event : SseEvent}
    {update : ModelStatusUpdate} :
    event.update codec = some update ↔
      ∃ entries, event.CarriesStatus codec entries ∧ knownStates entries = update := by
  simp only [SseEvent.update, Option.bind_eq_some_iff, sseDataField_eq_some_iff,
    parseModelStatusPayload_eq_some_iff]
  constructor
  · rintro ⟨payload, hcarries, data, entries, hframe, hentries, hknown⟩
    exact ⟨entries, ⟨payload, data, hcarries, hframe, hentries⟩, hknown⟩
  · rintro ⟨entries, ⟨payload, data, hcarries, hframe, hentries⟩, hknown⟩
    exact ⟨payload, hcarries, data, entries, hframe, hentries, hknown⟩

end SseEvent

/-- The line endings may stay as they are. -/
theorem SseDecoder.Crlf.refl (stream : List UInt8) : SseDecoder.Crlf stream stream := by
  induction stream with
  | nil => exact .nil
  | cons b stream ih => exact .keep b ih

def readyData : String :=
  "[\x7b\"id\":\"qwen9b\",\"state\":\"ready\"\x7d]"

/-- A frame that is sent in two parts, the second one without a blank in front of it. -/
def readyLines : List SseLine :=
  [.other "event: message".toList, .spaced "\x7b\"type\":\"modelStatus\",".toList,
    .tight ("\"data\":\"[\x7b\\\"id\\\":\\\"qwen9b\\\"," ++
      "\\\"state\\\":\\\"ready\\\"\x7d]\"\x7d").toList]

def readyPayload : List Char :=
  List.intercalate ['\n'] (readyLines.filterMap SseLine.part)

/-- The library on one payload. -/
def readyCodec : StatusCodec where
  frame payload := if payload = readyPayload then some ("modelStatus", readyData) else none
  entries data := if data = readyData then some [("qwen9b", "ready")] else none

instance (text : List Char) : Decidable (NoBlankLine text) :=
  inferInstanceAs (Decidable (text.IsChain _))

def readyStatus : SseEvent where
  text := List.intercalate ['\n'] (readyLines.map SseLine.text)
  no_return := by decide
  no_blank_line := by decide +kernel

theorem carriesStatus_readyStatus :
    readyStatus.CarriesStatus readyCodec [("qwen9b", "ready")] := by
  refine ⟨readyPayload, readyData, ⟨readyLines, ?_, rfl, by decide, rfl⟩, ?_, ?_⟩
  · simp only [readyLines, List.forall_mem_cons, SseLine.Proper]
    exact ⟨by decide, by decide, by decide, List.forall_mem_nil _⟩
  · simp only [readyCodec, if_true]
  · simp only [readyCodec, if_true]

def heartbeat : SseEvent where
  text := ": ping".toList
  no_return := by decide
  no_blank_line := by decide

theorem not_carriesStatus_heartbeat (entries : List (String × String)) :
    ¬heartbeat.CarriesStatus readyCodec entries := by
  rintro ⟨payload, data, hcarries, -⟩
  have hpayload := (heartbeat.sseDataField_eq_some_iff payload).mpr hcarries
  have hnone : sseDataField heartbeat.text = none := by decide
  rw [hnone] at hpayload
  cases hpayload

/-- The first connection breaks off inside a status. -/
def tornConnection : Connection where
  sent := [readyStatus]
  chunks := [readyStatus.wire.take 30, (readyStatus.wire.drop 30).take 20]
  received := ⟨_, .refl _, by decide +kernel⟩

/-- The second one delivers it, and a heartbeat behind it. -/
def wholeConnection : Connection where
  sent := [readyStatus, heartbeat, readyStatus]
  chunks := [readyStatus.wire.take 7, readyStatus.wire.drop 7 ++ heartbeat.wire]
  received := ⟨_, .refl _, by decide +kernel⟩

end Anemoi
