import Anemoi.Systems.Machine
import Anemoi.Telemetry.DecisionLog

/-!
# Decisions across crashes

The process over one log file as a machine: it opens the log, records decisions, and
may die in the middle of an append, of which the file then keeps the first bytes.
`Durable` is what such a log is for: opening succeeds, and a decision whose recording
was answered is found in every later session.

The invariant is `Written`: the file is the lines of the decisions stored so far and
behind them at most one torn record. A torn record is harmless for as long as no
other record is appended to it, which `CleanAppend` asks of each append of a run.
`durable_of_cleanAppends` is the result, and `not_durable_tornRun` a run where the
record behind a torn one is lost.
-/

namespace Anemoi

open Systems

/-- The calls of a process on its log; `crashDuring` is a `record_decision` that dies
after the given number of bytes. -/
inductive LogCall where
  | new
  | recordDecision (decision : Decision)
  | crashDuring (decision : Decision) (written : ℕ)
  deriving DecidableEq, Repr

inductive LogAnswer where
  | opened
  | failed (error : TelemetryError)
  | recorded
  | crashed
  | notRunning
  deriving DecidableEq, Repr

namespace LogCall

/-- The decision a call tries to append. -/
def attempt : LogCall → Option Decision
  | new => none
  | recordDecision d => some d
  | crashDuring d _ => some d

/-- The decision whose whole record a call writes. -/
def persisted (codec : DecisionCodec) : LogCall → Option Decision
  | new => none
  | recordDecision d => some d
  | crashDuring d written => if (encode (codec.write d)).size ≤ written then some d else none

theorem attempt_of_persisted {codec : DecisionCodec} {c : LogCall} {d : Decision}
    (h : c.persisted codec = some d) : c.attempt = some d := by
  cases c with
  | new => exact h
  | recordDecision d => exact h
  | crashDuring d written => exact (Option.ite_none_right_eq_some.mp h).2

end LogCall

/-- The file, and the open log of the process when it runs. -/
structure LogState where
  file : Option ByteArray
  log : Option JsonlDecisionLog

namespace LogState

/-- No file yet and no process. -/
def start : LogState := ⟨none, none⟩

end LogState

namespace JsonlDecisionLog

variable (codec : DecisionCodec)

def step (s : LogState) : LogCall → LogAnswer × LogState
  | .new =>
      match new codec s.file with
      | .ok log => (.opened, { s with log := some log })
      | .error e => (.failed e, { s with log := none })
  | .recordDecision d =>
      match s.log with
      | none => (.notRunning, s)
      | some log =>
          let (log, file) := log.recordDecision codec s.file d
          (.recorded, ⟨some file, some log⟩)
  | .crashDuring d written =>
      match s.log with
      | none => (.notRunning, s)
      | some _ =>
          let torn := (encode (appended codec d)).extract 0 written
          (.crashed, ⟨some (s.file.getD .empty ++ torn), none⟩)

section Steps

variable {codec} {s : LogState} {log : JsonlDecisionLog}

theorem step_new (h : new codec s.file = .ok log) :
    step codec s .new = (.opened, ⟨s.file, some log⟩) := by
  simp only [step, h]

theorem step_recordDecision (h : s.log = some log) (d : Decision) :
    step codec s (.recordDecision d) =
      (.recorded, ⟨some (s.file.getD .empty ++ encode (appended codec d)),
        some ⟨log.memory.insertSync d⟩⟩) := by
  simp only [step, h]
  rfl

theorem step_crashDuring (h : s.log = some log) (d : Decision) (n : ℕ) :
    step codec s (.crashDuring d n) =
      (.crashed, ⟨some (s.file.getD .empty ++ (encode (appended codec d)).extract 0 n),
        none⟩) := by
  simp only [step, h]

/-- Without a process nothing happens. -/
theorem step_of_not_running (h : s.log = none) {c : LogCall} (hc : c ≠ .new) :
    step codec s c = (.notRunning, s) := by
  cases c with
  | new => exact absurd rfl hc
  | recordDecision d => simp only [step, h]
  | crashDuring d n => simp only [step, h]

end Steps

/-- The steps of the process on `calls`, over no file. -/
def history (calls : List LogCall) : List (Record LogState LogCall LogAnswer) :=
  Machine.logFrom (step codec) .start calls

/-- The step recorded `d` and said so. -/
def Acknowledged (r : Record LogState LogCall LogAnswer) (d : Decision) : Prop :=
  r.input = .recordDecision d ∧ r.output = .recorded

/-- Both ways to ask the log for `d` find it. -/
def Returns (log : JsonlDecisionLog) (d : Decision) : Prop :=
  log.getDecision d.id = some d ∧ d ∈ log.listDecisions

/-- The log of a process survives its crashes. -/
structure Durable (calls : List LogCall) : Prop where
  reopens : ∀ r ∈ history codec calls, r.input = .new → r.output = .opened
  returned : (history codec calls).Pairwise fun r r' =>
    ∀ d, Acknowledged r d → ∀ log, r'.after.log = some log → Returns log d

theorem returns_iff {log : JsonlDecisionLog} {d : Decision} :
    Returns log d ↔ log.getDecision d.id = some d :=
  and_iff_left_of_imp InMemoryDecisionLog.mem_listDecisions.mpr

end JsonlDecisionLog

/-! ### JSON objects -/

/-- The text of `d` is a JSON object on one line which parses back to `d`. -/
structure DecisionCodec.WritesLine (codec : DecisionCodec) (d : Decision) : Prop where
  object : ∃ body, codec.write d = '{' :: body ++ ['}']
  single_line : '\n' ∉ codec.write d
  read_write : codec.read (codec.write d) = some d

/-- The text of `d` is a JSON object on one line which parses back to `d`, and no
shorter piece of it parses. -/
structure DecisionCodec.WritesObject (codec : DecisionCodec) (d : Decision) : Prop where
  object : ∃ body, codec.write d = '{' :: body ++ ['}']
  single_line : '\n' ∉ codec.write d
  read_write : codec.read (codec.write d) = some d
  read_prefix : ∀ p, p <+: codec.write d → p ≠ codec.write d → codec.read p = none

theorem DecisionCodec.WritesObject.writesLine {codec : DecisionCodec} {d : Decision}
    (h : codec.WritesObject d) : codec.WritesLine d :=
  ⟨h.object, h.single_line, h.read_write⟩

namespace JsonlDecisionLog

variable {codec : DecisionCodec} {d : Decision}

/-- A torn record is skipped. -/
theorem reloadLine_of_prefix (hd : codec.WritesObject d) {p : List Char}
    (hp : p <+: codec.write d) (hne : p ≠ codec.write d) (memory : InMemoryDecisionLog) :
    reloadLine codec memory p = memory := by
  have htrim : trim p <+: p := by
    cases p with
    | nil => exact List.nil_prefix
    | cons c l =>
        obtain ⟨body, hbody⟩ := hd.object
        rw [hbody, List.cons_append] at hp
        have hc : c = '{' := (List.cons_prefix_cons.mp hp).1
        exact trim_prefix (by rw [hc]; decide) l
  have hproper : trim p ≠ codec.write d := by
    intro h
    exact hne (hp.eq_of_length_le (h ▸ htrim.length_le))
  have hread := hd.read_prefix _ (htrim.trans hp) hproper
  unfold reloadLine
  simp only [hread, ite_self]

theorem stripCarriageReturn_write (hd : codec.WritesLine d) :
    stripCarriageReturn (codec.write d) = codec.write d := by
  obtain ⟨body, hbody⟩ := hd.object
  rw [hbody]
  exact stripCarriageReturn_concat (by decide) ('{' :: body)

/-- A whole record is read back. -/
theorem reloadLine_write (hd : codec.WritesLine d) (memory : InMemoryDecisionLog) :
    reloadLine codec memory (codec.write d) = memory.insertSync d := by
  have htrim : trim (codec.write d) = codec.write d := by
    obtain ⟨body, hbody⟩ := hd.object
    rw [hbody]
    exact trim_eq_self (by decide) (by decide)
  have hempty : (codec.write d).isEmpty = false := by
    obtain ⟨body, hbody⟩ := hd.object
    rw [hbody, List.cons_append, List.isEmpty_cons]
  unfold reloadLine
  simp only [htrim, hempty, hd.read_write]
  rfl

/-! ### What is in the file -/

/-- What may stand behind the last complete line, with the decisions it reads back as:
nothing, a torn record, or a whole record without its newline. -/
inductive Tail (codec : DecisionCodec) (P : Decision → Prop) :
    List Char → List Decision → Prop where
  | none : Tail codec P [] []
  | torn {d : Decision} {p : List Char} (hd : codec.WritesObject d)
      (hp : p <+: codec.write d) (hne : p ≠ codec.write d) : Tail codec P p []
  | whole {d : Decision} (hd : codec.WritesObject d) (hP : P d) :
      Tail codec P (codec.write d) [d]

/-- The file is the lines of the decisions `done` and a tail. -/
def Written (codec : DecisionCodec) (P : Decision → Prop) (file : Option ByteArray)
    (done : List Decision) : Prop :=
  (∀ d ∈ done, codec.WritesObject d ∧ P d) ∧
    ∃ tail read, Tail codec P tail read ∧
      file.getD .empty = encode (done.flatMap (appended codec) ++ tail)

variable {P : Decision → Prop}

theorem Tail.no_newline {tail : List Char} {read : List Decision}
    (h : Tail codec P tail read) : '\n' ∉ tail := by
  cases h with
  | none => exact List.not_mem_nil
  | torn hd hp hne => exact fun hmem => hd.single_line (hp.subset hmem)
  | whole hd hP => exact hd.single_line

theorem Tail.mem_read {tail : List Char} {read : List Decision}
    (h : Tail codec P tail read) : ∀ d ∈ read, P d := by
  cases h with
  | none => exact List.forall_mem_nil P
  | torn hd hp hne => exact List.forall_mem_nil P
  | whole hd hP => exact fun d hd' => List.mem_singleton.mp hd' ▸ hP

/-- Reloading a tail stores the decisions it reads back as. -/
theorem Tail.reload {tail : List Char} {read : List Decision} (h : Tail codec P tail read)
    (memory : InMemoryDecisionLog) :
    (lines tail).foldl (reloadLine codec) memory =
      read.foldl InMemoryDecisionLog.insertSync memory := by
  rw [lines_of_no_newline h.no_newline]
  cases h with
  | none => rfl
  | @torn d p hd hp hne =>
      by_cases hempty : tail.isEmpty
      · rw [if_pos hempty]
        rfl
      · rw [if_neg hempty]
        exact reloadLine_of_prefix hd hp hne memory
  | @whole d hd hP =>
      obtain ⟨body, hbody⟩ := hd.object
      have hempty : ¬(codec.write d).isEmpty := by
        rw [hbody, List.cons_append, List.isEmpty_cons]
        exact Bool.false_ne_true
      rw [if_neg hempty]
      exact reloadLine_write hd.writesLine memory

theorem foldl_reloadLine {done : List Decision} (h : ∀ d ∈ done, codec.WritesLine d)
    (memory : InMemoryDecisionLog) :
    (done.map fun d => stripCarriageReturn (codec.write d)).foldl (reloadLine codec) memory =
      done.foldl InMemoryDecisionLog.insertSync memory := by
  induction done generalizing memory with
  | nil => rfl
  | cons d done ih =>
      rw [List.forall_mem_cons] at h
      rw [List.map_cons, List.foldl_cons, List.foldl_cons, stripCarriageReturn_write h.1,
        reloadLine_write h.1, ih h.2]

/-- Opening the log succeeds and finds every decision of a complete line. -/
theorem Written.new {file : Option ByteArray} {done : List Decision}
    (h : Written codec P file done) (hP : ∀ d e, P d → P e → d.id = e.id → d = e) :
    ∃ log, new codec file = .ok log ∧ ∀ d ∈ done, log.getDecision d.id = some d := by
  obtain ⟨hdone, tail, read, htail, hfile⟩ := h
  have hlines : lines (done.flatMap (appended codec) ++ tail) =
      (done.map fun d => stripCarriageReturn (codec.write d)) ++ lines tail :=
    lines_flatMap_append (fun d hd => (hdone d hd).1.single_line) tail
  refine ⟨_, new_of_encode codec hfile, ?_⟩
  rw [hlines, List.foldl_append, foldl_reloadLine fun d hd => (hdone d hd).1.writesLine,
    htail.reload, ← List.foldl_append]
  intro d hd
  have hread : ∀ e ∈ done ++ read, P e := by
    intro e he
    rcases List.mem_append.mp he with he | he
    · exact (hdone e he).2
    · exact htail.mem_read e he
  exact InMemoryDecisionLog.getDecision_foldl_insertSync
    (fun e he => hP d e (hdone d hd).2 (hread e he)) (Or.inr (List.mem_append_left _ hd))

/-- An append lands at the start of a line. -/
def endsWithNewline (file : Option ByteArray) : Bool :=
  (decode (file.getD .empty)).any fun text => text.getLast?.all (· = '\n')

theorem endsWithNewline_concat (l : List Char) :
    endsWithNewline (some (encode (l ++ ['\n']))) = true := by
  rw [endsWithNewline, Option.getD_some, decode_encode, Option.any_some, List.getLast?_concat]
  rfl

theorem Written.content_eq {file : Option ByteArray} {done : List Decision}
    (h : Written codec P file done) (hend : endsWithNewline file = true) :
    file.getD .empty = encode (done.flatMap (appended codec)) := by
  obtain ⟨-, tail, read, htail, hfile⟩ := h
  rcases List.eq_nil_or_concat tail with rfl | ⟨l, c, rfl⟩
  · rw [hfile, List.append_nil]
  · rw [endsWithNewline, hfile, decode_encode, Option.any_some, List.concat_eq_append,
      ← List.append_assoc, List.getLast?_concat, Option.all_some, decide_eq_true_eq] at hend
    refine absurd ?_ htail.no_newline
    rw [List.concat_eq_append, hend]
    exact List.mem_append_right _ List.mem_cons_self

/-- A completed append at the start of a line. -/
theorem Written.append {file : Option ByteArray} {done : List Decision}
    (h : Written codec P file done) (hend : endsWithNewline file = true)
    (hd : codec.WritesObject d) (hP : P d) :
    Written codec P (some (file.getD .empty ++ encode (appended codec d))) (done ++ [d]) := by
  refine ⟨?_, [], [], Tail.none, ?_⟩
  · intro e he
    rcases List.mem_append.mp he with he | he
    · exact h.1 e he
    · rw [List.mem_singleton.mp he]
      exact ⟨hd, hP⟩
  · rw [Option.getD_some, h.content_eq hend, ← encode_append, List.append_nil,
      List.flatMap_append, List.flatMap_singleton]

/-- An append at the start of a line that is cut between two characters. -/
theorem Written.cut {file : Option ByteArray} {done : List Decision} {n : ℕ}
    (h : Written codec P file done) (hend : endsWithNewline file = true)
    (hd : codec.WritesObject d) (hP : (encode (codec.write d)).size ≤ n → P d)
    (hcut : CutsBetweenChars (appended codec d) n) :
    ∃ done', done ⊆ done' ∧ Written codec P
      (some (file.getD .empty ++ (encode (appended codec d)).extract 0 n)) done' := by
  obtain ⟨p, hp, hbytes, hsize⟩ := exists_prefix_of_cutsBetweenChars hcut
  have hcontent : file.getD .empty ++ (encode (appended codec d)).extract 0 n =
      encode (done.flatMap (appended codec) ++ p) := by
    rw [h.content_eq hend, hbytes, ← encode_append]
  rcases List.prefix_concat_iff.mp hp with rfl | hp
  · -- the newline was written too
    have hwhole : P d := by
      apply hP
      refine le_trans ?_ hsize
      rw [encode_append, ByteArray.size_append]
      exact Nat.le_add_right _ _
    refine ⟨done ++ [d], List.subset_append_left _ _, ?_⟩
    rw [hbytes]
    exact h.append hend hd hwhole
  · refine ⟨done, List.Subset.refl done, h.1, p, ?_⟩
    by_cases hwhole : p = codec.write d
    · rw [hwhole] at hsize
      exact ⟨[d], hwhole ▸ Tail.whole hd (hP hsize), hcontent⟩
    · exact ⟨[], Tail.torn hd hp hwhole, hcontent⟩

/-- An append that is cut inside a character makes the whole file unreadable: from then
on the log does not open. -/
theorem Written.new_of_cut_inside {file : Option ByteArray} {done : List Decision} {n : ℕ}
    (h : Written codec P file done) (hcut : ¬CutsBetweenChars (appended codec d) n) :
    JsonlDecisionLog.new codec
      (some (file.getD .empty ++ (encode (appended codec d)).extract 0 n)) =
        .error (.io "stream did not contain valid UTF-8") := by
  obtain ⟨-, tail, read, -, hfile⟩ := h
  rw [hfile, JsonlDecisionLog.new, readToString, decode_of_cut_inside hcut]
  rfl

/-! ### Two denials -/

/-- A denial as `decide` makes it when nothing can run. -/
def denial (id : BitVec 128) : Decision where
  id := ⟨id⟩
  requestId := ⟨"4c1d"⟩
  action := .deny
  selectedModel := none
  selectedRuntime := none
  selectedGroup := none
  backgroundModel := none
  score := {}
  explanation := ⟨"No runnable model candidate was available.", [], []⟩
  createdAt := ⟨0⟩

/-- An object whose text differs from others in one character. -/
def objectText (head : List Char) (c : Char) (body : List Char) : List Char :=
  '{' :: (head ++ c :: body) ++ ['}']

theorem length_objectText (head : List Char) (c c' : Char) (body : List Char) :
    (objectText head c body).length = (objectText head c' body).length := by
  simp only [objectText, List.length_append, List.length_cons]

theorem objectText_injective {head : List Char} {c c' : Char} {body : List Char}
    (h : objectText head c body = objectText head c' body) : c = c' := by
  have hcancel := (List.cons.inj (List.append_cancel_right h)).2
  exact (List.cons.inj (List.append_cancel_left hcancel)).1

theorem newline_not_mem_objectText {head body : List Char} {c : Char} (hhead : '\n' ∉ head)
    (hc : '\n' ≠ c) (hbody : '\n' ∉ body) : '\n' ∉ objectText head c body := by
  simp only [objectText, List.mem_append, List.mem_cons, List.not_mem_nil, or_false, not_or]
  exact ⟨⟨by decide, hhead, hc, hbody⟩, by decide⟩

/-- The text of a denial up to the last digit of its id, behind the brace. -/
@[irreducible] def denialTextHead : List Char :=
  "\"id\":\"00000000-0000-0000-0000-00000000000".toList

/-- The text of a denial behind its id, up to the closing brace. -/
@[irreducible] def denialTextBody : List Char :=
  "\",\"request_id\":\"4c1d\",\"action\":\"deny\",".toList ++
    "\"selected_model\":null,\"selected_runtime\":null,".toList ++
    "\"selected_group\":null,\"background_model\":null,".toList ++
    "\"score\":\x7b\"total\":0,\"contributions\":[]\x7d,".toList ++
    "\"explanation\":\x7b\"summary\":\"".toList ++
    "No runnable model candidate was available.".toList ++
    "\",\"reasons\":[],\"rejected_options\":[]\x7d,".toList ++
    "\"created_at\":\"1970-01-01T00:00:00Z\"".toList

/-- The text of a denial with an id below 16. -/
def denialText (d : Decision) : List Char :=
  objectText denialTextHead (Nat.digitChar d.id.bits.toNat) denialTextBody

/-- JSON, as far as two denials go. -/
def denialCodec : DecisionCodec where
  write := denialText
  read text := [denial 1, denial 2].find? fun d => denialText d = text

theorem newline_not_mem_denialTextHead : '\n' ∉ denialTextHead := by
  rw [denialTextHead]
  decide +kernel

theorem newline_not_mem_denialTextBody : '\n' ∉ denialTextBody := by
  simp only [denialTextBody, List.mem_append, not_or]
  refine ⟨⟨⟨⟨⟨⟨⟨?_, ?_⟩, ?_⟩, ?_⟩, ?_⟩, ?_⟩, ?_⟩, ?_⟩ <;> decide +kernel

theorem read_denialText_ne {text : List Char} (h : ∀ d, text ≠ denialText d) :
    denialCodec.read text = none := by
  rw [denialCodec, List.find?_eq_none]
  exact fun d _ => by simpa using (h d).symm

theorem writesObject_denial {d : Decision} (hd : d = denial 1 ∨ d = denial 2) :
    denialCodec.WritesObject d where
  object := ⟨_, rfl⟩
  single_line := by
    refine newline_not_mem_objectText newline_not_mem_denialTextHead ?_
      newline_not_mem_denialTextBody
    rcases hd with rfl | rfl <;> decide
  read_write := by
    have hread : denialCodec.read (denialCodec.write d) =
        [denial 1, denial 2].find? fun e => denialText e = denialText d := rfl
    rw [hread]
    rcases hd with rfl | rfl
    · exact List.find?_cons_of_pos (by rw [decide_eq_true_eq])
    · have hne : denialText (denial 1) ≠ denialText (denial 2) := by
        intro h
        have hdigit := objectText_injective h
        revert hdigit
        decide
      rw [List.find?_cons_of_neg (by rwa [decide_eq_true_eq])]
      exact List.find?_cons_of_pos (by rw [decide_eq_true_eq])
  read_prefix := by
    intro p hp hne
    apply read_denialText_ne
    rintro d' rfl
    exact hne (hp.eq_of_length (length_objectText _ _ _ _))

theorem size_denialTextHead : (encode ('{' :: denialTextHead)).size = 42 := by
  rw [denialTextHead]
  decide +kernel

theorem appended_denial (d : Decision) :
    ∃ rest, appended denialCodec d = ('{' :: denialTextHead) ++ rest := by
  refine ⟨Nat.digitChar d.id.bits.toNat :: denialTextBody ++ ['}'] ++ ['\n'], ?_⟩
  simp only [appended, denialCodec, denialText, objectText, List.cons_append, List.append_assoc]

/-- A denial cut after 42 bytes is cut inside its id. -/
theorem cut_denial (d : Decision) :
    (encode (appended denialCodec d)).extract 0 42 = encode ('{' :: denialTextHead) := by
  obtain ⟨rest, hrest⟩ := appended_denial d
  rw [hrest, encode_append, ByteArray.extract_append_eq_left size_denialTextHead.symm]

theorem cutsBetweenChars_denial (d : Decision) :
    CutsBetweenChars (appended denialCodec d) 42 := by
  obtain ⟨rest, hrest⟩ := appended_denial d
  rw [hrest, ← size_denialTextHead]
  exact cutsBetweenChars_append _ rest

/-! ### Runs -/

/-- A completed append starts at the start of a line, and so does one that is cut
unless it writes nothing; no cut falls inside a character. -/
structure CleanAppend (codec : DecisionCodec) (r : Record LogState LogCall LogAnswer) :
    Prop where
  record : ∀ d, r.input = .recordDecision d → endsWithNewline r.before.file = true
  crash : ∀ d n, r.input = .crashDuring d n →
    (n = 0 ∨ endsWithNewline r.before.file = true) ∧ CutsBetweenChars (appended codec d) n

theorem cleanAppend_new {s s' : LogState} {answer : LogAnswer} :
    CleanAppend codec ⟨s, .new, answer, s'⟩ := by
  constructor
  · intro d hd
    cases hd
  · intro d n hd
    cases hd

/-- What is known of every step of a run. -/
structure StepGuard (codec : DecisionCodec) (P : Decision → Prop)
    (r : Record LogState LogCall LogAnswer) : Prop where
  clean : CleanAppend codec r
  attempt : ∀ d, r.input.attempt = some d → codec.WritesObject d
  persisted : ∀ d, r.input.persisted codec = some d → P d

/-- The decisions `done` are in the file, and an open log has them. -/
def Stored (codec : DecisionCodec) (P : Decision → Prop) (done : List Decision)
    (s : LogState) : Prop :=
  Written codec P s.file done ∧
    ∀ log, s.log = some log → ∀ d ∈ done, log.getDecision d.id = some d

/-- The decisions stored after one step. -/
def StoredAfter (codec : DecisionCodec) (P : Decision → Prop) (done : List Decision)
    (r : Record LogState LogCall LogAnswer) : Prop :=
  ∃ done', done ⊆ done' ∧ Stored codec P done' r.after ∧ ∀ d, Acknowledged r d → d ∈ done'

section Steps

variable (hP : ∀ d e, P d → P e → d.id = e.id → d = e) {done : List Decision} {s : LogState}

include hP in
theorem stored_new (h : Stored codec P done s) :
    StoredAfter codec P done (Machine.record (step codec) s .new) ∧
      (step codec s .new).1 = .opened := by
  obtain ⟨log, hnew, hget⟩ := h.1.new hP
  refine ⟨⟨done, List.Subset.refl done, ?_, ?_⟩, by rw [step_new hnew]⟩
  · rw [Machine.record, step_new hnew]
    exact ⟨h.1, fun log' hlog => Option.some.inj hlog ▸ hget⟩
  · rintro d ⟨hin, -⟩
    cases hin

include hP in
theorem stored_recordDecision (h : Stored codec P done s)
    (hG : StepGuard codec P (Machine.record (step codec) s (.recordDecision d))) :
    StoredAfter codec P done (Machine.record (step codec) s (.recordDecision d)) := by
  have hd : codec.WritesObject d := hG.attempt d rfl
  have hPd : P d := hG.persisted d rfl
  cases hlog : s.log with
  | none =>
      have hstep : step codec s (.recordDecision d) = (.notRunning, s) :=
        step_of_not_running hlog LogCall.noConfusion
      refine ⟨done, List.Subset.refl done, ?_, ?_⟩
      · rw [Machine.record, hstep]
        exact h
      · rintro e ⟨-, hout⟩
        rw [Machine.record, hstep] at hout
        cases hout
  | some log =>
      refine ⟨done ++ [d], List.subset_append_left _ _, ?_, ?_⟩
      · rw [Machine.record, step_recordDecision hlog]
        refine ⟨h.1.append (hG.clean.record d rfl) hd hPd, ?_⟩
        intro log' hlog' e he
        obtain rfl := Option.some.inj hlog'
        rcases List.mem_append.mp he with he | he
        · exact InMemoryDecisionLog.getDecision_insertSync_of_eq (h.2 log hlog e he)
            (hP e d (h.1.1 e he).2 hPd)
        · rw [List.mem_singleton.mp he]
          exact (InMemoryDecisionLog.getDecision_insertSync log.memory d d.id).trans
            (if_pos rfl)
      · rintro e ⟨hin, -⟩
        cases hin
        exact List.mem_append_right _ List.mem_cons_self

theorem stored_crashDuring {n : ℕ} (h : Stored codec P done s)
    (hG : StepGuard codec P (Machine.record (step codec) s (.crashDuring d n))) :
    StoredAfter codec P done (Machine.record (step codec) s (.crashDuring d n)) := by
  have hnone : ∀ r : Record LogState LogCall LogAnswer, r.input = .crashDuring d n →
      ∀ e, Acknowledged r e → e ∈ done := by
    rintro r hr e ⟨hin, -⟩
    rw [hr] at hin
    cases hin
  cases hlog : s.log with
  | none =>
      have hstep : step codec s (.crashDuring d n) = (.notRunning, s) :=
        step_of_not_running hlog LogCall.noConfusion
      refine ⟨done, List.Subset.refl done, ?_, hnone _ rfl⟩
      rw [Machine.record, hstep]
      exact h
  | some log =>
      obtain ⟨hend, hcut⟩ := hG.clean.crash d n rfl
      have hwritten : ∃ done', done ⊆ done' ∧ Written codec P
          (some (s.file.getD .empty ++ (encode (appended codec d)).extract 0 n)) done' := by
        rcases hend with rfl | hend
        · refine ⟨done, List.Subset.refl done, h.1.1, ?_⟩
          rw [ByteArray.extract_same, ByteArray.append_empty]
          exact h.1.2
        · exact h.1.cut hend (hG.attempt d rfl) (fun hn => hG.persisted d (if_pos hn)) hcut
      obtain ⟨done', hsub, hwritten⟩ := hwritten
      refine ⟨done', hsub, ?_, fun e he => hsub (hnone _ rfl e he)⟩
      rw [Machine.record, step_crashDuring hlog]
      refine ⟨hwritten, fun log' hlog' => ?_⟩
      cases hlog'

include hP in
/-- Nothing that is stored is lost in a step. -/
theorem stored_step {c : LogCall} (h : Stored codec P done s)
    (hG : StepGuard codec P (Machine.record (step codec) s c)) :
    StoredAfter codec P done (Machine.record (step codec) s c) := by
  cases c with
  | new => exact (stored_new hP h).1
  | recordDecision d => exact stored_recordDecision hP h hG
  | crashDuring d n => exact stored_crashDuring h hG

end Steps

theorem durable_of_cleanAppends (codec : DecisionCodec) (calls : List LogCall)
    (hcodec : ∀ c ∈ calls, ∀ d, c.attempt = some d → codec.WritesObject d)
    (hclean : ∀ r ∈ history codec calls, CleanAppend codec r)
    (hids : ∀ c ∈ calls, ∀ c' ∈ calls, ∀ d d', c.persisted codec = some d →
      c'.persisted codec = some d' → d.id = d'.id → d = d') :
    Durable codec calls := by
  let P (d : Decision) : Prop := ∃ c ∈ calls, c.persisted codec = some d
  have hP : ∀ d e, P d → P e → d.id = e.id → d = e := by
    rintro d e ⟨c, hc, hd⟩ ⟨c', hc', he⟩
    exact hids c hc c' hc' d e hd he
  have hguard : ∀ r ∈ history codec calls, StepGuard codec P r := by
    intro r hr
    have hin : r.input ∈ calls := by
      rw [← Machine.map_input_logFrom (step codec) .start calls]
      exact List.mem_map_of_mem hr
    exact ⟨hclean r hr, hcodec r.input hin, fun d hd => ⟨r.input, hin, hd⟩⟩
  have hstart : ∃ done, Stored codec P done .start := by
    refine ⟨[], ⟨List.forall_mem_nil _, [], [], Tail.none, rfl⟩, fun log hlog => ?_⟩
    cases hlog
  have hstep : ∀ s c, (∃ done, Stored codec P done s) →
      StepGuard codec P (Machine.record (step codec) s c) →
      ∃ done, Stored codec P done (step codec s c).2 := by
    rintro s c ⟨done, h⟩ hG
    obtain ⟨done', -, h', -⟩ := stored_step hP h hG
    exact ⟨done', h'⟩
  constructor
  · refine Machine.forall_mem_logFrom (step codec) hstep ?_ hguard hstart
    rintro s c ⟨done, h⟩ - rfl
    exact (stored_new hP h).2
  · refine Machine.pairwise_logFrom (step codec)
      (Q := fun r s => ∃ done, Stored codec P done s ∧ ∀ d, Acknowledged r d → d ∈ done)
      hstep ?_ ?_ ?_ hguard hstart
    · rintro s c ⟨done, h⟩ hG
      obtain ⟨done', -, h', hack⟩ := stored_step hP h hG
      exact ⟨done', h', hack⟩
    · rintro r s c - hG ⟨done, h, hack⟩
      obtain ⟨done', hsub, h', -⟩ := stored_step hP h hG
      exact ⟨done', h', fun d hd => hsub (hack d hd)⟩
    · rintro r s c - hG ⟨done, h, hack⟩ d hd log hlog
      obtain ⟨done', hsub, h', -⟩ := stored_step hP h hG
      exact returns_iff.mpr (h'.2 log hlog d (hsub (hack d hd)))

/-- A torn record is skipped on reload, whatever else is in the file. -/
def tornTailRun : List LogCall :=
  [.new, .recordDecision (denial 1), .crashDuring (denial 2) 42, .new]

theorem attempt_tornTailRun :
    ∀ c ∈ tornTailRun, ∀ d, c.attempt = some d → d = denial 1 ∨ d = denial 2 := by
  intro c hc d hd
  simp only [tornTailRun, List.mem_cons, List.not_mem_nil, or_false] at hc
  rcases hc with rfl | rfl | rfl | rfl <;> cases hd
  · exact Or.inl rfl
  · exact Or.inr rfl

theorem cleanAppend_tornTailRun : ∀ r ∈ history denialCodec tornTailRun,
    CleanAppend denialCodec r := by
  have hfirst : step denialCodec .start .new = (.opened, ⟨none, some ⟨.empty⟩⟩) := rfl
  have hrecord : step denialCodec ⟨none, some ⟨.empty⟩⟩ (.recordDecision (denial 1)) =
      (.recorded, ⟨some (encode (appended denialCodec (denial 1))),
        some ⟨InMemoryDecisionLog.empty.insertSync (denial 1)⟩⟩) := by
    rw [step_recordDecision rfl, Option.getD_none, ByteArray.empty_append]
  simp only [history, tornTailRun, Machine.logFrom_cons, Machine.logFrom_nil, hfirst, hrecord,
    List.forall_mem_cons, Machine.record]
  refine ⟨cleanAppend_new, ⟨fun d hd => rfl, ?_⟩, ⟨?_, ?_⟩, cleanAppend_new,
    List.forall_mem_nil _⟩
  · intro d n hd
    cases hd
  · intro d hd
    cases hd
  · intro d n hd
    cases hd
    exact ⟨Or.inr (endsWithNewline_concat _), cutsBetweenChars_denial _⟩

theorem durable_tornTailRun : Durable denialCodec tornTailRun := by
  refine durable_of_cleanAppends denialCodec tornTailRun
    (fun c hc d hd => writesObject_denial (attempt_tornTailRun c hc d hd))
    cleanAppend_tornTailRun ?_
  intro c hc c' hc' d d' hd hd' hid
  have hattempt := attempt_tornTailRun c hc d (LogCall.attempt_of_persisted hd)
  have hattempt' := attempt_tornTailRun c' hc' d' (LogCall.attempt_of_persisted hd')
  rcases hattempt with rfl | rfl <;> rcases hattempt' with rfl | rfl
  · rfl
  · exact absurd hid (by decide)
  · exact absurd hid (by decide)
  · rfl

/-- The first record is cut inside its id; the second one is recorded after a restart. -/
def tornRun : List LogCall :=
  [.new, .crashDuring (denial 1) 42, .new, .recordDecision (denial 2), .new]

theorem attempt_tornRun : ∀ c ∈ tornRun, ∀ d, c.attempt = some d → d = denial 1 ∨ d = denial 2 := by
  intro c hc d hd
  simp only [tornRun, List.mem_cons, List.not_mem_nil, or_false] at hc
  rcases hc with rfl | rfl | rfl | rfl | rfl <;> cases hd
  · exact Or.inl rfl
  · exact Or.inr rfl

/-- A record behind a torn one shares its line, and neither is read back. -/
theorem reload_torn {head : List Char} {c : Char} {body : List Char}
    (hhead : '\n' ∉ head) (hobject : '\n' ∉ objectText head c body)
    (hread : codec.read ('{' :: head ++ objectText head c body) = none)
    (memory : InMemoryDecisionLog) :
    (lines ('{' :: head ++ (objectText head c body ++ ['\n']))).foldl (reloadLine codec) memory =
      memory := by
  have hline : '{' :: head ++ objectText head c body =
      '{' :: (head ++ '{' :: (head ++ c :: body)) ++ ['}'] := by
    simp only [objectText, List.cons_append, List.append_assoc]
  have hnewline : '\n' ∉ '{' :: head ++ objectText head c body := by
    rw [List.cons_append, List.mem_cons, List.mem_append]
    exact fun h => h.elim (by decide) (fun h => h.elim hhead hobject)
  have htrim : trim ('{' :: head ++ objectText head c body) =
      '{' :: head ++ objectText head c body := by
    rw [hline]
    exact trim_eq_self (by decide) (by decide)
  have hstrip : stripCarriageReturn ('{' :: head ++ objectText head c body) =
      '{' :: head ++ objectText head c body := by
    rw [hline]
    exact stripCarriageReturn_concat (by decide) _
  rw [← List.append_assoc, lines_append_newline hnewline, hstrip]
  simp only [lines, linesFrom, List.isEmpty_nil, if_true, List.foldl_cons, List.foldl_nil,
    reloadLine, htrim, hread, ite_self]

/-- The file of the torn run when the log is opened for the last time. -/
def tornText : List Char :=
  '{' :: denialTextHead ++ appended denialCodec (denial 2)

theorem reload_tornText :
    (lines tornText).foldl (reloadLine denialCodec) .empty = .empty := by
  refine reload_torn newline_not_mem_denialTextHead
    (writesObject_denial (Or.inr rfl)).single_line (read_denialText_ne ?_) .empty
  intro d h
  have hlength := congrArg List.length h
  rw [denialText, List.length_append, length_objectText _ _ (Nat.digitChar d.id.bits.toNat),
    List.length_cons] at hlength
  omega

/-- The second record is answered, and it is gone when the log is opened again. -/
theorem not_durable_tornRun :
    (∀ c ∈ tornRun, ∀ d, c.attempt = some d → denialCodec.WritesObject d) ∧
      ¬Durable denialCodec tornRun := by
  refine ⟨fun c hc d hd => writesObject_denial (attempt_tornRun c hc d hd), ?_⟩
  intro h
  have hfirst : step denialCodec .start .new = (.opened, ⟨none, some ⟨.empty⟩⟩) := rfl
  have hcrash : step denialCodec ⟨none, some ⟨.empty⟩⟩ (.crashDuring (denial 1) 42) =
      (.crashed, ⟨some (encode ('{' :: denialTextHead)), none⟩) := by
    rw [step_crashDuring rfl, Option.getD_none, ByteArray.empty_append, cut_denial]
  have hsecond := step_new (s := ⟨some (encode ('{' :: denialTextHead)), none⟩)
    (new_encode denialCodec ('{' :: denialTextHead))
  have hrecord : ∀ log : JsonlDecisionLog,
      step denialCodec ⟨some (encode ('{' :: denialTextHead)), some log⟩
        (.recordDecision (denial 2)) =
      (.recorded, ⟨some (encode tornText), some ⟨log.memory.insertSync (denial 2)⟩⟩) := by
    intro log
    rw [step_recordDecision rfl, Option.getD_some, ← encode_append, tornText]
  have hthird : ∀ log, step denialCodec ⟨some (encode tornText), log⟩ .new =
      (.opened, ⟨some (encode tornText), some ⟨.empty⟩⟩) := by
    intro log
    have hnew := new_encode denialCodec tornText
    rw [reload_tornText] at hnew
    exact step_new hnew
  have hpair := h.returned
  rw [history, tornRun] at hpair
  simp only [Machine.logFrom_cons, Machine.logFrom_nil, List.pairwise_cons, hfirst, hcrash,
    hsecond] at hpair
  obtain ⟨-, -, -, hlast, -⟩ := hpair
  have hreturns := hlast _ (List.mem_singleton_self _) (denial 2)
    ⟨rfl, by rw [Machine.record, hrecord]⟩ ⟨.empty⟩ (by rw [Machine.record, hrecord, hthird])
  cases hreturns.1

end JsonlDecisionLog

end Anemoi
