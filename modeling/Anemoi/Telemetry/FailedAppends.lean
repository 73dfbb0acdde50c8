import Anemoi.Telemetry.Durability
import Mathlib.Data.List.Infix

/-!
# Appends that fail

`record_decision` changes the index in memory and then takes three steps on the file, each of
which may fail: it opens the file, writes the record, of which a failed write leaves the first
bytes, and writes the newline. `leavesUnchanged_iff` says when a failure leaves the log as it
was, both the open one and one opened again over the file: when the decision was in the log
already, with the same content, and the file's unfinished last line is not what it was read from.
-/

namespace Anemoi

/-! ### Unfinished lines -/

/-- `tail` stands behind the last newline of the text `finished ++ tail`. -/
structure LastLine (finished tail : List Char) : Prop where
  finished : finished.getLast?.all (· = '\n') = true
  tail : '\n' ∉ tail

theorem exists_lastLine (text : List Char) :
    ∃ finished tail, text = finished ++ tail ∧ LastLine finished tail := by
  induction text using List.reverseRecOn with
  | nil => exact ⟨[], [], rfl, rfl, List.not_mem_nil⟩
  | append_singleton text c ih =>
      obtain ⟨finished, tail, rfl, h⟩ := ih
      by_cases hc : c = '\n'
      · subst hc
        refine ⟨finished ++ tail ++ ['\n'], [], (List.append_nil _).symm, ?_, List.not_mem_nil⟩
        rw [List.getLast?_concat]
        rfl
      · refine ⟨finished, tail ++ [c], List.append_assoc .., h.finished, ?_⟩
        rw [List.mem_append, List.mem_singleton]
        exact fun hmem => hmem.elim h.tail (Ne.symm hc)

theorem linesFrom_append_of_newline {text : List Char} (h : text.getLast? = some '\n')
    (line rest : List Char) :
    linesFrom line (text ++ rest) = linesFrom line text ++ lines rest := by
  induction text generalizing line with
  | nil => cases h
  | cons c text ih =>
      rw [List.cons_append, linesFrom, linesFrom]
      cases text with
      | nil =>
          rw [List.getLast?_singleton, Option.some.injEq] at h
          rw [if_pos h, if_pos h]
          rfl
      | cons c' text =>
          rw [List.getLast?_cons_cons] at h
          by_cases hc : c = '\n'
          · rw [if_pos hc, if_pos hc, ih h, List.cons_append]
          · rw [if_neg hc, if_neg hc, ih h]

/-- The lines of a text are the finished ones and what its last line is. -/
theorem lines_append_of_lastLine {finished tail : List Char} (h : LastLine finished tail)
    (rest : List Char) : lines (finished ++ rest) = lines finished ++ lines rest := by
  cases hlast : finished.getLast? with
  | none =>
      rw [List.getLast?_eq_none_iff.mp hlast]
      rfl
  | some c =>
      have hc := h.finished
      rw [hlast, Option.all_some, decide_eq_true_eq] at hc
      exact linesFrom_append_of_newline (hc ▸ hlast) [] rest

theorem encode_of_decode {bytes : ByteArray} {text : List Char} (h : decode bytes = some text) :
    bytes = encode text := by
  obtain ⟨s, hs, rfl⟩ := Option.map_eq_some_iff.mp h
  obtain ⟨hvalid, hs⟩ := Option.dite_none_right_eq_some.mp hs
  rw [encode, String.ofList_toList, ← Option.some.inj hs]
  rfl

/-- Whitespace in front of a text is trimmed. -/
theorem trim_append_of_blank {before : List Char} (h : ∀ c ∈ before, isWhiteSpace c = true)
    (text : List Char) : trim (before ++ text) = trim text := by
  rw [trim, trim, List.dropWhile_append_of_pos h]

namespace JsonlDecisionLog

variable (codec : DecisionCodec)

/-! ### The steps of an append -/

/-- Where an append fails: opening the file, in the record after some bytes, or at the newline. -/
inductive AppendFailure where
  | openFile (detail : String)
  | serialize (written : ℕ)
  | newline (detail : String)
  deriving DecidableEq, Repr

/-- `record_decision`, with the step that fails if one does: what it returns, the log and the
file. The memory comes first. -/
def recordDecisionWith (log : JsonlDecisionLog) (file : Option ByteArray) (decision : Decision)
    (failure : Option AppendFailure) :
    Except TelemetryError Unit × JsonlDecisionLog × Option ByteArray :=
  let log : JsonlDecisionLog := ⟨log.memory.recordDecision decision⟩
  let content := file.getD .empty
  match failure with
  | some (.openFile detail) => (.error (.io detail), log, file)
  | some (.serialize written) =>
      (.error .serde, log, some (content ++ (encode (codec.write decision)).extract 0 written))
  | some (.newline detail) =>
      (.error (.io detail), log, some (content ++ encode (codec.write decision)))
  | none => (.ok (), log, some (content ++ encode (appended codec decision)))

/-- Without a failure it is the completed append. -/
theorem recordDecisionWith_none (log : JsonlDecisionLog) (file : Option ByteArray)
    (d : Decision) :
    recordDecisionWith codec log file d none =
      (.ok (), (log.recordDecision codec file d).1, some (log.recordDecision codec file d).2) :=
  rfl

theorem recordDecisionWith_error (log : JsonlDecisionLog) (file : Option ByteArray)
    (d : Decision) (failure : AppendFailure) :
    ∃ e, (recordDecisionWith codec log file d (some failure)).1 = .error e := by
  cases failure <;> exact ⟨_, rfl⟩

/-- A call leaves the log as it was: the open one answers as before, and if one opened over the
file agreed with it about the decision, it still does. -/
structure LeavesUnchanged (log : JsonlDecisionLog) (file : Option ByteArray) (d : Decision)
    (log' : JsonlDecisionLog) (file' : Option ByteArray) : Prop where
  get : ∀ id, log'.getDecision id = log.getDecision id
  list : log'.listDecisions = log.listDecisions
  reopened : ∀ reopened, new codec file = .ok reopened →
    reopened.getDecision d.id = log.getDecision d.id →
    ∀ reopened', new codec file' = .ok reopened' →
      reopened'.getDecision d.id = log'.getDecision d.id

/-- The index that the lines of a text make up. -/
def reload (text : List Char) : InMemoryDecisionLog :=
  (lines text).foldl (reloadLine codec) .empty

/-- The decision is in the log with this content, and if a log opened over the file has it, then
not from an unfinished last line. -/
structure StoredAlready (log : JsonlDecisionLog) (file : Option ByteArray) (d : Decision) :
    Prop where
  memory : log.getDecision d.id = some d
  file : ∀ finished tail, file.getD .empty = encode (finished ++ tail) → LastLine finished tail →
    (reload codec (finished ++ tail)).getDecision d.id = some d →
    (reload codec finished).getDecision d.id = some d

end JsonlDecisionLog

/-- Behind anything but blanks, no beginning of the text of `d` reads as a decision. -/
def DecisionCodec.StandsAlone (codec : DecisionCodec) (d : Decision) : Prop :=
  ∀ before p, ¬(∀ c ∈ before, isWhiteSpace c = true) → p ≠ [] → p <+: codec.write d →
    codec.read (trim (before ++ p)) = none

namespace JsonlDecisionLog

variable {codec : DecisionCodec} {log : JsonlDecisionLog} {file : Option ByteArray}
  {d : Decision}

/-! ### The memory -/

theorem getDecision_insertSync_eq (log : InMemoryDecisionLog) (d : Decision) :
    (∀ id, (log.insertSync d).getDecision id = log.getDecision id) ↔
      log.getDecision d.id = some d := by
  constructor
  · intro h
    rw [← h, InMemoryDecisionLog.getDecision_insertSync, if_pos rfl]
  · intro h id
    rw [InMemoryDecisionLog.getDecision_insertSync]
    split
    · next hid => rw [hid, h]
    · rfl

theorem listDecisions_insertSync_of_stored {log : InMemoryDecisionLog}
    (h : log.getDecision d.id = some d) :
    (log.insertSync d).listDecisions = log.listDecisions := by
  have hmem : d.id ∈ log.decisions := AList.mem_iff_lookup.mpr ⟨d, h⟩
  have horder : (log.insertSync d).order = log.order := if_pos hmem
  rw [InMemoryDecisionLog.listDecisions, InMemoryDecisionLog.listDecisions, horder]
  exact List.filterMap_congr fun id _ => (getDecision_insertSync_eq log d).mpr h id

/-! ### The file -/

/-- The first bytes of the record behind a text, if they are characters of it. -/
theorem exists_prefix_of_new {text : List Char} {n : ℕ} {reopened : JsonlDecisionLog}
    (h : new codec (some (encode text ++ (encode (codec.write d)).extract 0 n)) =
      .ok reopened) :
    ∃ p, p <+: codec.write d ∧ reopened = ⟨reload codec (text ++ p)⟩ := by
  by_cases hcut : CutsBetweenChars (codec.write d) n
  · obtain ⟨p, hp, hbytes, -⟩ := exists_prefix_of_cutsBetweenChars hcut
    rw [hbytes, ← encode_append, new_encode] at h
    exact ⟨p, hp, (Except.ok.inj h).symm⟩
  · rw [new, readToString, decode_of_cut_inside hcut] at h
    cases h

theorem reloadLine_of_blank {line : List Char} (h : ∀ c ∈ line, isWhiteSpace c = true)
    (memory : InMemoryDecisionLog) : reloadLine codec memory line = memory := by
  have htrim := trim_append_of_blank h []
  rw [List.append_nil] at htrim
  rw [reloadLine, htrim]
  rfl

/-- The last line is read behind the finished ones. -/
theorem reload_append {finished tail : List Char} (h : LastLine finished tail) :
    reload codec (finished ++ tail) = reloadLine codec (reload codec finished) tail := by
  rw [reload, lines_append_of_lastLine h, List.foldl_append, lines_of_no_newline h.tail]
  cases tail with
  | nil => exact (reloadLine_of_blank (List.forall_mem_nil _) _).symm
  | cons c tail => rfl

/-- The beginning of a record behind an unfinished line adds the decision or nothing. -/
theorem reloadLine_append_prefix (hd : codec.WritesObject d) (halone : codec.StandsAlone d)
    (tail : List Char) {p : List Char} (hp : p <+: codec.write d) (hne : p ≠ [])
    (memory : InMemoryDecisionLog) :
    reloadLine codec memory (tail ++ p) = memory ∨
      reloadLine codec memory (tail ++ p) = memory.insertSync d := by
  by_cases hblank : ∀ c ∈ tail, isWhiteSpace c = true
  · have hline : reloadLine codec memory (tail ++ p) = reloadLine codec memory p := by
      rw [reloadLine, trim_append_of_blank hblank, ← reloadLine]
    rw [hline]
    by_cases hwhole : p = codec.write d
    · exact .inr (hwhole ▸ reloadLine_write hd.writesLine memory)
    · refine .inl ?_
      exact reloadLine_of_prefix hd hp hwhole memory
  · refine .inl ?_
    unfold reloadLine
    simp only [halone tail p hblank hne hp, ite_self]

/-- Once the finished lines have the decision, no beginning of its record loses it. -/
theorem getDecision_reload_append (hd : codec.WritesObject d) (halone : codec.StandsAlone d)
    {finished tail p : List Char} (h : LastLine finished tail) (hp : p <+: codec.write d)
    (hstored : (reload codec (finished ++ tail)).getDecision d.id = some d)
    (hfinished : (reload codec finished).getDecision d.id = some d) :
    (reload codec (finished ++ (tail ++ p))).getDecision d.id = some d := by
  by_cases hne : p = []
  · rwa [hne, List.append_nil]
  have htail : LastLine finished (tail ++ p) := by
    refine ⟨h.finished, fun hmem => ?_⟩
    rcases List.mem_append.mp hmem with hmem | hmem
    · exact h.tail hmem
    · exact hd.single_line (hp.subset hmem)
  rw [reload_append htail]
  rcases reloadLine_append_prefix hd halone tail hp hne (reload codec finished) with hsame | hnew
  · rw [hsame, hfinished]
  · rw [hnew, InMemoryDecisionLog.getDecision_insertSync, if_pos rfl]

/-- Whatever a failed append wrote is a beginning of the record. -/
theorem exists_prefix_of_failure {text : List Char} (hfile : file.getD .empty = encode text)
    {failure : AppendFailure} {reopened : JsonlDecisionLog}
    (h : new codec (recordDecisionWith codec log file d (some failure)).2.2 = .ok reopened) :
    ∃ p, p <+: codec.write d ∧ reopened = ⟨reload codec (text ++ p)⟩ := by
  cases failure with
  | openFile detail =>
      rw [recordDecisionWith, new_of_encode codec hfile] at h
      exact ⟨[], List.nil_prefix, by rw [List.append_nil]; exact (Except.ok.inj h).symm⟩
  | serialize written =>
      rw [recordDecisionWith, hfile] at h
      exact exists_prefix_of_new h
  | newline detail =>
      rw [recordDecisionWith, hfile, ← encode_append, new_encode] at h
      exact ⟨_, List.prefix_rfl, (Except.ok.inj h).symm⟩

/-- A file over which a log opens has a text. -/
theorem exists_text_of_new {reopened : JsonlDecisionLog} (h : new codec file = .ok reopened) :
    ∃ text, file.getD .empty = encode text ∧ reopened = ⟨reload codec text⟩ := by
  cases file with
  | none => exact ⟨[], rfl, (Except.ok.inj h).symm⟩
  | some bytes =>
      cases htext : decode bytes with
      | none =>
          rw [new, readToString, htext] at h
          cases h
      | some text =>
          have hbytes : bytes = encode text := encode_of_decode htext
          rw [hbytes, new_encode] at h
          exact ⟨text, hbytes, (Except.ok.inj h).symm⟩

/-! ### When a failure leaves the log as it was -/

theorem StoredAlready.leavesUnchanged (hd : codec.WritesObject d) (halone : codec.StandsAlone d)
    (h : StoredAlready codec log file d) (failure : AppendFailure) :
    LeavesUnchanged codec log file d
      (recordDecisionWith codec log file d (some failure)).2.1
      (recordDecisionWith codec log file d (some failure)).2.2 := by
  have hlog : (recordDecisionWith codec log file d (some failure)).2.1 =
      ⟨log.memory.insertSync d⟩ := by
    cases failure <;> rfl
  rw [hlog]
  refine ⟨(getDecision_insertSync_eq log.memory d).mpr h.memory,
    listDecisions_insertSync_of_stored h.memory, ?_⟩
  intro reopened hnew hagree reopened' hnew'
  obtain ⟨text, hfile, rfl⟩ := exists_text_of_new hnew
  obtain ⟨p, hp, rfl⟩ := exists_prefix_of_failure hfile hnew'
  obtain ⟨finished, tail, rfl, hlast⟩ := exists_lastLine text
  have hstored : (reload codec (finished ++ tail)).getDecision d.id = some d :=
    hagree.trans h.memory
  refine Eq.trans ?_ ((InMemoryDecisionLog.getDecision_insertSync _ _ _).trans (if_pos rfl)).symm
  rw [getDecision, List.append_assoc]
  exact getDecision_reload_append hd halone hlast hp hstored
    (h.file finished tail hfile hlast hstored)

/-- A record of which one byte is written does not hide that it was read from the last line. -/
theorem StoredAlready.of_leavesUnchanged (hd : codec.WritesObject d)
    (halone : codec.StandsAlone d)
    (h : ∀ failure, LeavesUnchanged codec log file d
      (recordDecisionWith codec log file d (some failure)).2.1
      (recordDecisionWith codec log file d (some failure)).2.2) :
    StoredAlready codec log file d := by
  have hmemory : log.getDecision d.id = some d :=
    (getDecision_insertSync_eq log.memory d).mp (h (.openFile "")).get
  refine ⟨hmemory, ?_⟩
  intro finished tail hfile hlast hstored
  obtain ⟨body, hbody⟩ := hd.object
  have hbrace : ['{'] <+: codec.write d := by
    rw [hbody]
    exact ⟨body ++ ['}'], rfl⟩
  have hcut : (encode (codec.write d)).extract 0 1 = encode ['{'] := by
    obtain ⟨rest, hrest⟩ := hbrace
    rw [← hrest, encode_append]
    exact ByteArray.extract_append_eq_left rfl
  have hnew' : new codec (recordDecisionWith codec log file d (some (.serialize 1))).2.2 =
      .ok ⟨reload codec (finished ++ (tail ++ ['{']))⟩ := by
    rw [recordDecisionWith, hfile, hcut, ← encode_append, List.append_assoc, new_encode]
    rfl
  have hafter := (h (.serialize 1)).reopened _ (new_of_encode codec hfile)
    (hstored.trans hmemory.symm) _ hnew'
  rw [(h (.serialize 1)).get, hmemory] at hafter
  by_cases hblank : ∀ c ∈ tail, isWhiteSpace c = true
  · rwa [reload_append hlast, reloadLine_of_blank hblank] at hstored
  · have htail : LastLine finished (tail ++ ['{']) := by
      refine ⟨hlast.finished, fun hmem => ?_⟩
      rcases List.mem_append.mp hmem with hmem | hmem
      · exact hlast.tail hmem
      · exact absurd (List.mem_singleton.mp hmem) (by decide)
    have hskip : reloadLine codec (reload codec finished) (tail ++ ['{']) =
        reload codec finished := by
      unfold reloadLine
      simp only [halone tail ['{'] hblank (List.cons_ne_nil _ _) hbrace, ite_self]
    rwa [getDecision, reload_append htail, hskip] at hafter

/-- Every failed append of a decision leaves the log as it was exactly if the decision is in it
already, and not by an unfinished line. -/
theorem leavesUnchanged_iff (codec : DecisionCodec) (log : JsonlDecisionLog)
    (file : Option ByteArray) (d : Decision) (hd : codec.WritesObject d)
    (halone : codec.StandsAlone d) :
    (∀ failure, (∃ e, (recordDecisionWith codec log file d failure).1 = .error e) →
        LeavesUnchanged codec log file d
          (recordDecisionWith codec log file d failure).2.1
          (recordDecisionWith codec log file d failure).2.2) ↔
      StoredAlready codec log file d := by
  constructor
  · intro h
    exact .of_leavesUnchanged hd halone fun failure =>
      h (some failure) (recordDecisionWith_error codec log file d failure)
  · rintro h failure ⟨e, he⟩
    cases failure with
    | none => cases he
    | some failure => exact h.leavesUnchanged hd halone failure

/-- The file cannot be opened, and the log has a decision that it said it could not record. -/
theorem openFailure_changes :
    (recordDecisionWith denialCodec ⟨.empty⟩ none (denial 1)
        (some (.openFile "Permission denied"))).1 = .error (.io "Permission denied") ∧
      ¬LeavesUnchanged denialCodec ⟨.empty⟩ none (denial 1)
        (recordDecisionWith denialCodec ⟨.empty⟩ none (denial 1)
          (some (.openFile "Permission denied"))).2.1
        (recordDecisionWith denialCodec ⟨.empty⟩ none (denial 1)
          (some (.openFile "Permission denied"))).2.2 := by
  refine ⟨rfl, fun h => ?_⟩
  have hget := h.get (denial 1).id
  have hafter := InMemoryDecisionLog.getDecision_insertSync .empty (denial 1) (denial 1).id
  rw [if_pos rfl] at hafter
  exact absurd (hafter.symm.trans hget) (by simp [getDecision, InMemoryDecisionLog.getDecision,
    InMemoryDecisionLog.empty])

/-- No end of the text of a denial is a beginning of one. -/
theorem not_isPrefixOf_tails_denialText :
    ∀ d ∈ [denial 1, denial 2], ∀ back ∈ (denialText d).tail.tails, back ≠ [] →
      back.isPrefixOf (denialText (denial 1)) = false := by
  decide +kernel

theorem standsAlone_denial : denialCodec.StandsAlone (denial 1) := by
  intro before p hblank hne hp
  rw [denialCodec, List.find?_eq_none]
  intro d hd htext
  rw [decide_eq_true_eq, trim, List.dropWhile_append] at htext
  have hdrop : before.dropWhile isWhiteSpace ≠ [] := mt List.dropWhile_eq_nil_iff.mp hblank
  rw [if_neg (by simpa using hdrop)] at htext
  generalize hfront : before.dropWhile isWhiteSpace = front at htext hdrop
  -- The text and some whitespace are what is in front of the record, and the record.
  have hwhole : denialText d ++ (front ++ p).rtakeWhile isWhiteSpace = front ++ p := by
    rw [htext, List.rdropWhile_append_rtakeWhile]
  have hbrace : '{' ∉ (front ++ p).rtakeWhile isWhiteSpace := fun hmem =>
    absurd (List.mem_rtakeWhile_imp hmem) (by decide)
  obtain ⟨rest, hrest⟩ := hp
  obtain ⟨c, q, rfl⟩ := List.exists_cons_of_ne_nil hne
  have hc : c = '{' := (List.cons.inj hrest).1
  subst hc
  rcases List.append_eq_append_iff.mp hwhole with ⟨a, -, hblanks⟩ | ⟨back, htail, hback⟩
  · exact hbrace (hblanks ▸ List.mem_append_right _ List.mem_cons_self)
  · have hne' : back ≠ [] := by
      intro hnil
      rw [hnil, List.nil_append] at hback
      exact hbrace (by rw [← hback]; exact List.mem_cons_self)
    obtain ⟨c, front, rfl⟩ := List.exists_cons_of_ne_nil hdrop
    have hsuffix : back <:+ (denialText d).tail := ⟨front, by rw [htail]; rfl⟩
    have hno := not_isPrefixOf_tails_denialText d hd back ((List.mem_tails ..).mpr hsuffix) hne'
    rw [← Bool.not_eq_true, List.isPrefixOf_iff_prefix] at hno
    refine hno ⟨(c :: front ++ '{' :: q).rtakeWhile isWhiteSpace ++ rest, ?_⟩
    rw [← List.append_assoc, ← hback]
    exact hrest

/-- A log with one decision in it. -/
def denialLog : JsonlDecisionLog :=
  ⟨InMemoryDecisionLog.empty.insertSync (denial 1)⟩

/-- The file it was read from. -/
def denialFile : Option ByteArray :=
  some (encode (appended denialCodec (denial 1)))

/-- The write of the record fails after ten bytes. -/
theorem leavesUnchanged_denialLog :
    LeavesUnchanged denialCodec denialLog denialFile (denial 1)
      (recordDecisionWith denialCodec denialLog denialFile (denial 1)
        (some (.serialize 10))).2.1
      (recordDecisionWith denialCodec denialLog denialFile (denial 1)
        (some (.serialize 10))).2.2 := by
  refine (leavesUnchanged_iff denialCodec _ _ _ (writesObject_denial (Or.inl rfl))
    standsAlone_denial).mpr ⟨?_, ?_⟩ _ ⟨.serde, rfl⟩
  · exact (InMemoryDecisionLog.getDecision_insertSync _ _ _).trans (if_pos rfl)
  · intro finished tail hfile hlast hstored
    have htext : denialText (denial 1) ++ ['\n'] = finished ++ tail := encode_injective hfile
    have htail : tail = [] := by
      rcases List.eq_nil_or_concat tail with h | ⟨l, c, rfl⟩
      · exact h
      · rw [List.concat_eq_append, ← List.append_assoc] at htext
        have hc := (List.append_inj' htext rfl).2
        refine absurd ?_ hlast.tail
        rw [List.concat_eq_append, ← hc]
        exact List.mem_append_right _ List.mem_cons_self
    rwa [htail, List.append_nil] at hstored

end JsonlDecisionLog

end Anemoi
