import Anemoi.Runtime.SampleLines
import Anemoi.Text.ModelName

/-!
# Sample lines of the exposition format

A sample line is a metric's name, an optional block of labels and a number, which a timestamp
may follow. The value of a label is any text, in which backslashes, double quotes and newlines
are escaped. `Shown` is a field of the block as far as the reader sees it: the block may seem
to end inside a label value, behind an escaped quote, and a comma of a value seems to end its
label. `readOrRejected_iff` says which lines are misread.
-/

namespace Anemoi

open Systems

/-! ### The format -/

/-- A character of a label value as it is written. -/
def escapeChar (c : Char) : List Char :=
  if c = '\\' then ['\\', '\\']
  else if c = '"' then ['\\', '"']
  else if c = '\n' then ['\\', 'n']
  else [c]

def escape (value : List Char) : List Char :=
  value.flatMap escapeChar

/-- What may stand between the tokens of a line. -/
abbrev Blanks := { l : List Char // ∀ c ∈ l, c = ' ' ∨ c = '\t' }

def isTokenChar (c : Char) : Bool :=
  c.isAlphanum || c = '_' || c = ':' || c = '+' || c = '-' || c = '.'

/-- A name, a number or a timestamp. -/
abbrev Token := { l : List Char // l ≠ [] ∧ ∀ c ∈ l, isTokenChar c = true }

structure Label where
  name : Token
  value : List Char
  beforeName : Blanks
  afterName : Blanks
  beforeValue : Blanks
  afterValue : Blanks

/-- A field of a label block; it is blank in an empty block and behind a last comma. -/
inductive Field where
  | blank (gap : Blanks)
  | label (label : Label)

def Field.label? : Field → Option Label
  | blank _ => none
  | label l => some l

/-- A line, with the blanks behind the block, if there is one. -/
structure SampleLine where
  name : Token
  afterName : Blanks
  block : Option (List Field × Blanks)
  number : Token
  afterNumber : Blanks
  timestamp : Option Token
  name_apart : block = none → afterName.val ≠ []
  timestamp_apart : timestamp.isSome → afterNumber.val ≠ []
  labels_distinct : ∀ fields gap, block = some (fields, gap) →
    ((fields.filterMap Field.label?).map Label.name).Nodup

/-- A field as far as it is seen: of a label `seen` is what is seen of its value, and
`closed` says whether its end is seen. -/
inductive Shown where
  | blank (gap : Blanks)
  | label (label : Label) (seen : List Char) (closed : Bool)

namespace Label

def opening (l : Label) : List Char :=
  l.beforeName.val ++ l.name.val ++ l.afterName.val ++ '=' :: (l.beforeValue.val ++ ['"'])

def closing (l : Label) : List Char :=
  '"' :: l.afterValue.val

end Label

def Field.shown : Field → Shown
  | blank gap => .blank gap
  | label l => .label l (escape l.value) true

def Shown.text : Shown → List Char
  | blank gap => gap.val
  | label l seen closed => l.opening ++ (seen ++ if closed then l.closing else [])

def showText (shown : List Shown) : List Char :=
  [','].intercalate (shown.map Shown.text)

namespace SampleLine

def labels (line : SampleLine) : List Label :=
  match line.block with
  | none => []
  | some (fields, _) => fields.filterMap Field.label?

/-- The number and the timestamp. -/
def ending (line : SampleLine) : List Char :=
  line.number.val ++ (line.afterNumber.val ++ (line.timestamp.map Subtype.val).getD [])

/-- The line behind the opening brace of its block. -/
def tail (line : SampleLine) (fields : List Field) (gap : Blanks) : List Char :=
  showText (fields.map Field.shown) ++ '}' :: (gap.val ++ line.ending)

def text (line : SampleLine) : List Char :=
  line.name.val ++ (line.afterName.val ++
    match line.block with
    | none => line.ending
    | some (fields, gap) => '{' :: line.tail fields gap)

end SampleLine

/-! ### What the reader makes of a line -/

/-- A sample that says what its line says. The device is the value of the `id` label as it is
written. -/
structure SampleLine.ReadAs (parse : List Char → Option F64) (line : SampleLine)
    (sample : Sample) : Prop where
  name : sample.name = String.ofList line.name.val
  value : ∃ q, parse line.number.val = some (.finite q) ∧ (sample.valueBytes.toNat : ℚ) = q
  device : ∀ device, sample.gpuDeviceId = some device →
    ∃ l ∈ line.labels, l.name.val = "id".toList ∧ device = String.ofList (escape l.value)

def ReadOrRejected (parse : List Char → Option F64) (line : SampleLine) : Prop :=
  ∀ sample, parseSampleLine parse line.text = some sample → line.ReadAs parse sample

/-- What can be seen of a block: all of it, or its fields up to a `}` in a label value. -/
inductive IsView (fields : List Field) : List Shown → Prop
  | whole : IsView fields (fields.map Field.shown)
  | cut (before after : List Field) (l : Label) (p s : List Char)
      (hfields : fields = before ++ .label l :: after) (hvalue : escape l.value = p ++ '}' :: s) :
      IsView fields (before.map Field.shown ++ [.label l p false])

/-- A comma in the value is followed by `id` and an equals sign, as if by a label. -/
def NamesId (seen : List Char) : Prop :=
  ∃ x k y, seen = x ++ ',' :: (k ++ '=' :: y) ∧ trim k = "id".toList

/-- The field decides which device is read. -/
def Shown.Decides : Shown → Prop
  | blank _ => False
  | label l seen _ => l.name.val = "id".toList ∨ NamesId seen

/-- The value seems to end at a quote before its first comma, or before the end of what is
seen. -/
def SeemsQuoted (seen : List Char) (closed : Bool) : Prop :=
  (closed = true → ',' ∈ seen) ∧
    ((seen.takeWhile (· ≠ ',')).rdropWhile isWhiteSpace).getLast? = some '"'

/-- Of the `id` label only a part of the value is read. -/
def IdCut (shown : List Shown) : Prop :=
  ∃ before l seen closed after, shown = before ++ .label l seen closed :: after ∧
    l.name.val = "id".toList ∧ (∀ f ∈ before, ¬f.Decides) ∧ SeemsQuoted seen closed

/-- Where the block seems to end, no other number follows, and the `id` label is not cut. -/
def Unmistaken (parse : List Char → Option F64) (line : SampleLine) : Prop :=
  ∀ fields gap, line.block = some (fields, gap) → ∀ shown after, IsView fields shown →
    EndsAt (line.tail fields gap) (showText shown) after →
      ∀ v, readBytes parse after = some v →
        (parse line.number.val).bind F64.wholeBytes = some v ∧ ¬IdCut shown

/-! ### Characters -/

theorem isAlphanum_eq (c : Char) : c.isAlphanum =
    (decide (c.val ≥ 'A'.val ∧ c.val ≤ 'Z'.val) ||
      (decide (c.val ≥ 'a'.val) && decide (c.val ≤ 'z'.val)) ||
        (decide (c.val ≥ '0'.val) && decide (c.val ≤ '9'.val))) := rfl

theorem isWhiteSpace_of_isTokenChar {c : Char} (h : isTokenChar c = true) :
    isWhiteSpace c = false := by
  have hrange : 43 ≤ c.toNat ∧ c.toNat ≤ 122 := by
    simp only [isTokenChar, isAlphanum_eq, Bool.or_eq_true, Bool.and_eq_true, decide_eq_true_eq,
      ge_iff_le, UInt32.le_iff_toNat_le] at h
    rcases h with ((((halnum | rfl) | rfl) | rfl) | rfl) | rfl
    · have hval : c.toNat = c.val.toNat := rfl
      have hbounds : 'A'.val.toNat = 65 ∧ 'Z'.val.toNat = 90 ∧ 'a'.val.toNat = 97 ∧
        'z'.val.toNat = 122 ∧ '0'.val.toNat = 48 ∧ '9'.val.toNat = 57 := by decide
      omega
    all_goals decide
  simp only [isWhiteSpace, Bool.or_eq_false_iff, Bool.and_eq_false_iff, decide_eq_false_iff_not,
    beq_eq_false_iff_ne]
  omega

theorem isWhiteSpace_of_mem_blanks (gap : Blanks) : ∀ c ∈ gap.val, isWhiteSpace c = true := by
  intro c hc
  rcases gap.property c hc with rfl | rfl <;> decide

/-- The characters with a meaning in the format are in no token. -/
theorem Token.notMem (t : Token) {c : Char} (hc : isTokenChar c = false) : c ∉ t.val := by
  intro hmem
  rw [t.property.2 c hmem] at hc
  cases hc

theorem Blanks.notMem (gap : Blanks) {c : Char} (hc : isWhiteSpace c = false) : c ∉ gap.val := by
  intro hmem
  rw [isWhiteSpace_of_mem_blanks gap c hmem] at hc
  cases hc

theorem Label.notMem_opening (l : Label) {c : Char} (htoken : isTokenChar c = false)
    (hblank : isWhiteSpace c = false) (hc : c ∉ ['=', '"']) : c ∉ l.opening := by
  simp only [Label.opening, List.mem_append, List.mem_cons, not_or] at hc ⊢
  exact ⟨⟨⟨l.beforeName.notMem hblank, l.name.notMem htoken⟩, l.afterName.notMem hblank⟩, hc.1,
    l.beforeValue.notMem hblank, hc.2⟩

theorem Label.notMem_closing (l : Label) (closed : Bool) {c : Char}
    (hblank : isWhiteSpace c = false) (hc : c ≠ '"') :
    c ∉ if closed then l.closing else [] := by
  cases closed with
  | false => simp
  | true => simpa [Label.closing, hc] using l.afterValue.notMem hblank

/-! ### Escaped quotes -/

/-- A backslash stands right before every double quote. -/
def QuotesEscaped (text : List Char) : Prop :=
  ∀ x y, text = x ++ '"' :: y → x.getLast? = some '\\'

theorem QuotesEscaped.prefix {p s : List Char} (h : QuotesEscaped (p ++ s)) : QuotesEscaped p := by
  rintro x y rfl
  exact h x (y ++ s) (by simp)

theorem quotesEscaped_escape (value : List Char) : QuotesEscaped (escape value) := by
  induction value with
  | nil =>
      intro x y h
      simp [escape] at h
  | cons c value ih =>
      have hplain : ∀ a, '"' ∉ a → ∀ x y, a ++ escape value = x ++ '"' :: y →
          x.getLast? = some '\\' := by
        intro a ha x y h
        obtain ⟨p, rfl, hp⟩ := cut_append_left ha h
        rw [List.getLast?_append, ih p y hp]
        rfl
      intro x y h
      rw [escape, List.flatMap_cons, ← escape] at h
      by_cases hquote : c = '"'
      · -- the quote written for `c`, or one behind it
        subst hquote
        have hx : ['\\'] ++ '"' :: escape value = x ++ '"' :: y := h
        obtain ⟨p, rfl, hp⟩ := cut_append_left (by decide) hx
        cases p with
        | nil => rfl
        | cons d p =>
            obtain ⟨rfl, hp'⟩ := List.cons.inj hp
            rw [List.getLast?_append, List.getLast?_cons, ih p y hp']
            rfl
      · refine hplain (escapeChar c) ?_ x y h
        unfold escapeChar
        split
        · decide
        · split
          · decide
          · simpa using Ne.symm hquote

/-! ### Parts inside a label value -/

/-- Behind the first comma of what is seen of a label, no part reads as a quoted value: a quote
in it is escaped or the last one. -/
theorem readPart_inner {l : Label} {first more key part x : List Char} {closed : Bool}
    (hescaped : QuotesEscaped (first ++ ',' :: more))
    (hpart : part ∈ (more ++ if closed then l.closing else []).splitOn ',') :
    readPart key part ≠ some (some x) := by
  intro hread
  obtain ⟨k, v, rfl, hk, -⟩ := readPart_ne_none_iff.mp (by rw [hread]; simp)
  rw [readPart_append hk] at hread
  split at hread
  · cases hread
  obtain ⟨hquoted, -⟩ := unquoted_eq_some_iff.mp (Option.some.inj hread)
  -- the value starts with a quote, and another one follows
  obtain ⟨u, hu⟩ := List.rdropWhile_prefix isWhiteSpace v
  obtain ⟨gap, w, hgap, hblank⟩ := exists_append_trim (v.rdropWhile isWhiteSpace)
  rw [hquoted] at hgap
  obtain ⟨before, after, hinfix⟩ := infix_of_mem_splitOn hpart
  rw [← hu, hgap] at hinfix
  have hcut : more ++ (if closed then l.closing else []) =
      (before ++ k ++ '=' :: gap) ++ '"' :: (x ++ '"' :: (w ++ u ++ after)) := by
    rw [← hinfix]
    simp
  have hbackslash : '\\' ∉ gap := fun hmem => absurd (hblank _ hmem) (by decide)
  have hlast : (first ++ ',' :: (before ++ k ++ '=' :: gap)).getLast? ≠ some '\\' := by
    rw [← List.cons_append, ← List.append_assoc]
    exact getLast?_append_cons_ne (by decide) hbackslash _
  rcases cut_append hcut with ⟨t, rfl, -⟩ | ⟨p, -, hclosing⟩
  · exact hlast (hescaped _ t (by simp))
  · have hafter : '"' ∉ l.afterValue.val := l.afterValue.notMem (by decide)
    cases closed with
    | false => simp at hclosing
    | true =>
        cases p with
        | nil =>
            rw [(List.cons.inj hclosing).2] at hafter
            simp at hafter
        | cons c p =>
            rw [(List.cons.inj hclosing).2] at hafter
            simp at hafter

/-- Some part behind the first comma decides about `id` exactly when the value names it. -/
theorem exists_readPart_inner_iff {l : Label} {first more : List Char} {closed : Bool}
    (hfirst : ',' ∉ first) :
    (∃ part ∈ (more ++ if closed then l.closing else []).splitOn ',',
        readPart "id".toList part ≠ none) ↔ NamesId (first ++ ',' :: more) := by
  have hne : ',' ≠ '=' := by decide
  have hclosing : '=' ∉ if closed then l.closing else [] :=
    l.notMem_closing closed (by decide) (by decide)
  have hid : ∀ k, trim k = "id".toList → '=' ∉ k ∧ ',' ∉ k := fun k hk =>
    ⟨notMem_of_notMem_trim (by decide) (by rw [hk]; decide),
      notMem_of_notMem_trim (by decide) (by rw [hk]; decide)⟩
  constructor
  · rintro ⟨part, hmem, hread⟩
    obtain ⟨k, v, hpart, -, hk⟩ := readPart_ne_none_iff.mp hread
    obtain ⟨u, v, hcut⟩ := (exists_mem_splitOn_iff hne (hid k hk).2 _).mp
      ⟨part, hmem, v, hpart⟩
    rw [← List.cons_append, ← List.cons_append, ← List.append_assoc] at hcut
    obtain ⟨t, ht, -⟩ := cut_append_right hclosing hcut
    exact ⟨first ++ u, k, t, by rw [ht]; simp, hk⟩
  · rintro ⟨x, k, y, hcut, hk⟩
    obtain ⟨p, -, hp⟩ := cut_append_left hfirst hcut
    obtain ⟨part, hmem, v, hpart⟩ := (exists_mem_splitOn_iff hne (hid k hk).2
      (more ++ if closed then l.closing else [])).mpr
        ⟨p, y ++ if closed then l.closing else [], by rw [← List.cons_append, hp]; simp⟩
    exact ⟨part, hmem, readPart_ne_none_iff.mpr ⟨k, v, hpart, (hid k hk).1, hk⟩⟩

/-! ### One field -/

/-- What the parts of a field decide about the `id` label. -/
def Shown.outcome (f : Shown) : Option (Option (List Char)) :=
  (f.text.splitOn ',').findSome? (readPart "id".toList)

theorem outcome_blank (gap : Blanks) : (Shown.blank gap).outcome = none := by
  have hcomma : ',' ∉ gap.val := gap.notMem (by decide)
  rw [Shown.outcome, Shown.text, List.splitOn_eq_singleton hcomma, List.findSome?_singleton,
    readPart_of_notMem (gap.notMem (by decide))]

/-- The first part of a label. -/
theorem readPart_opening (l : Label) (content : List Char) :
    readPart "id".toList (l.opening ++ content) =
      if l.name.val ≠ "id".toList then none
      else some (unquoted ('"' :: content.rdropWhile isWhiteSpace)) := by
  have hkey : '=' ∉ l.beforeName.val ++ l.name.val ++ l.afterName.val := by
    simp only [List.mem_append, not_or]
    exact ⟨⟨l.beforeName.notMem (by decide), l.name.notMem (by decide)⟩,
      l.afterName.notMem (by decide)⟩
  have htrim : trim (l.beforeName.val ++ l.name.val ++ l.afterName.val) = l.name.val :=
    trim_padded (isWhiteSpace_of_mem_blanks _) (isWhiteSpace_of_mem_blanks _) l.name.property.1
      fun c hc => isWhiteSpace_of_isTokenChar (l.name.property.2 c hc)
  have hgap : l.beforeValue.val.dropWhile isWhiteSpace = [] :=
    List.dropWhile_eq_nil_iff.mpr (isWhiteSpace_of_mem_blanks _)
  have hsplit : l.opening ++ content = l.beforeName.val ++ l.name.val ++ l.afterName.val ++
      '=' :: (l.beforeValue.val ++ '"' :: content) := by
    simp [Label.opening]
  rw [hsplit, readPart_append hkey, htrim, rdropWhile_append_cons (by decide),
    trim_append_cons (by decide), hgap, List.rdropWhile_idempotent, List.nil_append]

/-- What is read of the value of a label. -/
def shownValue (seen : List Char) (closed : Bool) : Option (List Char) :=
  if closed = true ∧ ',' ∉ seen then (if seen.isEmpty then none else some seen)
  else unquoted ('"' :: (seen.takeWhile (· ≠ ',')).rdropWhile isWhiteSpace)

/-- A label without a comma is one part. -/
theorem outcome_of_notMem (l : Label) {seen : List Char} (closed : Bool) (h : ',' ∉ seen) :
    (Shown.label l seen closed).outcome =
      if l.name.val ≠ "id".toList then none else some (shownValue seen closed) := by
  have hopening : ',' ∉ l.opening := l.notMem_opening (by decide) (by decide) (by decide)
  have hclosing : ',' ∉ if closed then l.closing else [] :=
    l.notMem_closing closed (by decide) (by decide)
  have htext : ',' ∉ (Shown.label l seen closed).text := by
    simp only [Shown.text, List.mem_append, not_or]
    exact ⟨hopening, h, hclosing⟩
  have hvalue : unquoted ('"' :: (seen ++ if closed then l.closing else []).rdropWhile
      isWhiteSpace) = shownValue seen closed := by
    cases closed with
    | true =>
        have hgap : l.afterValue.val.rdropWhile isWhiteSpace = [] :=
          List.rdropWhile_eq_nil_iff.mpr (isWhiteSpace_of_mem_blanks _)
        rw [if_pos rfl, Label.closing, rdropWhile_append_cons (by decide), hgap, shownValue,
          if_pos ⟨rfl, h⟩, unquoted_quoted]
    | false =>
        rw [if_neg (by simp), List.append_nil, shownValue, if_neg (by simp),
          takeWhile_ne_eq_self h]
  rw [Shown.outcome, List.splitOn_eq_singleton htext, List.findSome?_singleton, Shown.text,
    readPart_opening, hvalue]

/-- A label with a comma is cut at the first one; what is behind it may name `id`. -/
theorem outcome_of_comma (l : Label) {first : List Char} (more : List Char) (closed : Bool)
    (h : ',' ∉ first) :
    (Shown.label l (first ++ ',' :: more) closed).outcome =
      if l.name.val ≠ "id".toList then
        ((more ++ if closed then l.closing else []).splitOn ',').findSome? (readPart "id".toList)
      else some (shownValue (first ++ ',' :: more) closed) := by
  have hopening : ',' ∉ l.opening := l.notMem_opening (by decide) (by decide) (by decide)
  have htext : (Shown.label l (first ++ ',' :: more) closed).text =
      (l.opening ++ first) ++ ',' :: (more ++ if closed then l.closing else []) := by
    simp [Shown.text]
  have hfirst : ',' ∉ l.opening ++ first := by
    simp only [List.mem_append, not_or]
    exact ⟨hopening, h⟩
  have hvalue : shownValue (first ++ ',' :: more) closed =
      unquoted ('"' :: first.rdropWhile isWhiteSpace) := by
    rw [shownValue, if_neg (by simp), takeWhile_ne_append_cons h]
  rw [Shown.outcome, htext, List.splitOn_append_cons_self_of_not_mem hfirst, List.findSome?_cons,
    readPart_opening, hvalue]
  by_cases hname : l.name.val ≠ "id".toList
  · rw [if_pos hname, if_pos hname]
  · rw [if_neg hname, if_neg hname]

/-- The quotes in what is seen of a field are escaped. -/
def Shown.Escaped : Shown → Prop
  | blank _ => True
  | label _ seen _ => QuotesEscaped seen

theorem outcome_eq_none_iff (f : Shown) : f.outcome = none ↔ ¬f.Decides := by
  cases f with
  | blank gap => exact iff_of_true (outcome_blank gap) id
  | label l seen closed =>
      by_cases hcomma : ',' ∈ seen
      · obtain ⟨first, more, rfl, hfirst⟩ := List.eq_append_cons_of_mem hcomma
        have hnames : (∃ part ∈ (more ++ if closed then l.closing else []).splitOn ',',
            readPart "id".toList part ≠ none) ↔ NamesId (first ++ ',' :: more) :=
          exists_readPart_inner_iff hfirst
        rw [outcome_of_comma l more closed hfirst, Shown.Decides, not_or]
        by_cases hname : l.name.val = "id".toList
        · rw [if_neg (not_not_intro hname)]
          simp [hname]
        · rw [if_pos hname, List.findSome?_eq_none_iff, ← hnames]
          constructor
          · rintro h
            refine ⟨hname, ?_⟩
            rintro ⟨part, hpart, hread⟩
            exact hread (h part hpart)
          · rintro ⟨-, h⟩ part hpart
            by_contra hread
            exact h ⟨part, hpart, hread⟩
      · have hnames : ¬NamesId seen := by
          rintro ⟨x, k, y, rfl, -⟩
          exact hcomma (by simp)
        rw [outcome_of_notMem l closed hcomma, Shown.Decides, not_or]
        by_cases hname : l.name.val = "id".toList
        · rw [if_neg (not_not_intro hname)]
          simp [hname]
        · rw [if_pos hname]
          exact iff_of_true rfl ⟨hname, hnames⟩

theorem outcome_eq_some_iff {f : Shown} (hescaped : f.Escaped) {x : List Char} :
    f.outcome = some (some x) ↔ ∃ l seen closed, f = .label l seen closed ∧
      l.name.val = "id".toList ∧ shownValue seen closed = some x := by
  cases f with
  | blank gap =>
      rw [outcome_blank]
      simp
  | label l seen closed =>
      have hlabel : (Shown.label l seen closed).outcome = some (some x) ↔
          l.name.val = "id".toList ∧ shownValue seen closed = some x := by
        by_cases hname : l.name.val = "id".toList
        · by_cases hcomma : ',' ∈ seen
          · obtain ⟨first, more, rfl, hfirst⟩ := List.eq_append_cons_of_mem hcomma
            rw [outcome_of_comma l more closed hfirst, if_neg (not_not_intro hname)]
            simp [hname]
          · rw [outcome_of_notMem l closed hcomma, if_neg (not_not_intro hname)]
            simp [hname]
        · refine iff_of_false (fun h => ?_) fun h => hname h.1
          by_cases hcomma : ',' ∈ seen
          · obtain ⟨first, more, rfl, hfirst⟩ := List.eq_append_cons_of_mem hcomma
            rw [outcome_of_comma l more closed hfirst, if_pos hname] at h
            obtain ⟨part, hpart, hread⟩ := List.exists_of_findSome?_eq_some h
            exact readPart_inner hescaped hpart hread
          · rw [outcome_of_notMem l closed hcomma, if_pos hname] at h
            cases h
      rw [hlabel]
      constructor
      · rintro ⟨hname, hvalue⟩
        exact ⟨l, seen, closed, rfl, hname, hvalue⟩
      · rintro ⟨_, _, _, heq, hname, hvalue⟩
        cases heq
        exact ⟨hname, hvalue⟩

/-! ### What is read of a value -/

theorem shownValue_cases {seen x : List Char} {closed : Bool}
    (h : shownValue seen closed = some x) : closed = true ∧ x = seen ∨ SeemsQuoted seen closed := by
  rw [shownValue] at h
  split at h
  next hwhole =>
    split at h
    · cases h
    · exact Or.inl ⟨hwhole.1, (Option.some.inj h).symm⟩
  next hcut =>
    obtain ⟨hquoted, -⟩ := unquoted_eq_some_iff.mp h
    refine Or.inr ⟨fun hclosed => not_not.mp fun hcomma => hcut ⟨hclosed, hcomma⟩, ?_⟩
    rw [(List.cons.inj hquoted).2, List.getLast?_concat]

/-- A value that seems quoted is read up to that quote. -/
theorem exists_shownValue {seen : List Char} {closed : Bool} (hescaped : QuotesEscaped seen)
    (h : SeemsQuoted seen closed) :
    ∃ x, shownValue seen closed = some x ∧ x.length < seen.length := by
  obtain ⟨hcomma, hlast⟩ := h
  obtain ⟨x, hx⟩ := List.getLast?_eq_some_iff.mp hlast
  have hstart : seen.takeWhile (fun c => decide (c ≠ ',')) <+: seen := List.takeWhile_prefix _
  have htrim : x ++ ['"'] <+: seen.takeWhile (fun c => decide (c ≠ ',')) := by
    rw [← hx]
    exact List.rdropWhile_prefix isWhiteSpace _
  obtain ⟨r, rfl⟩ := htrim.trans hstart
  have hne : x ≠ [] := by
    rintro rfl
    have hbackslash := hescaped [] r rfl
    cases hbackslash
  refine ⟨x, ?_, by simp⟩
  rw [shownValue, if_neg fun hwhole => hwhole.2 (hcomma hwhole.1), hx]
  exact unquoted_eq_some_iff.mpr ⟨rfl, hne⟩

/-! ### A block as far as it is seen -/

theorem showText_cons_cons (f g : Shown) (shown : List Shown) :
    showText (f :: g :: shown) = f.text ++ ',' :: showText (g :: shown) := by
  simp [showText, List.intercalate]

theorem extractLabelValue_showText (shown : List Shown) :
    extractLabelValue (showText shown) "id".toList = (shown.findSome? Shown.outcome).join := by
  have hparts : ((showText shown).splitOn ',').findSome? (readPart "id".toList) =
      shown.findSome? Shown.outcome := by
    induction shown with
    | nil => rfl
    | cons f shown ih =>
        cases shown with
        | nil =>
            rw [List.findSome?_singleton, Shown.outcome]
            simp [showText, List.intercalate]
        | cons g shown =>
            have hcons : (f :: g :: shown).findSome? Shown.outcome =
                f.outcome.or ((g :: shown).findSome? Shown.outcome) := by
              cases houtcome : f.outcome <;> simp [List.findSome?_cons, houtcome]
            rw [showText_cons_cons, List.splitOn_append_cons_self, List.findSome?_append, ih, hcons]
            rfl
  rw [extractLabelValue, hparts]

theorem extractLabelValue_eq_some_iff {shown : List Shown} (hescaped : ∀ f ∈ shown, f.Escaped)
    {x : List Char} :
    extractLabelValue (showText shown) "id".toList = some x ↔
      ∃ before l seen closed after, shown = before ++ .label l seen closed :: after ∧
        l.name.val = "id".toList ∧ (∀ f ∈ before, ¬f.Decides) ∧
          shownValue seen closed = some x := by
  rw [extractLabelValue_showText, Option.join_eq_some_iff, List.findSome?_eq_some_iff]
  constructor
  · rintro ⟨before, f, after, rfl, houtcome, hbefore⟩
    obtain ⟨l, seen, closed, rfl, hname, hvalue⟩ :=
      (outcome_eq_some_iff (hescaped f (by simp))).mp houtcome
    exact ⟨before, l, seen, closed, after, rfl, hname,
      fun g hg => (outcome_eq_none_iff g).mp (hbefore g hg), hvalue⟩
  · rintro ⟨before, l, seen, closed, after, rfl, hname, hbefore, hvalue⟩
    exact ⟨before, _, after, rfl,
      (outcome_eq_some_iff (hescaped _ (by simp))).mpr ⟨l, seen, closed, rfl, hname, hvalue⟩,
      fun g hg => (outcome_eq_none_iff g).mpr (hbefore g hg)⟩

/-! ### Views of a block -/

theorem showText_cons (f : Shown) {shown : List Shown} (h : shown ≠ []) :
    showText (f :: shown) = f.text ++ ',' :: showText shown := by
  obtain ⟨g, rest, rfl⟩ := List.exists_cons_of_ne_nil h
  exact showText_cons_cons f g rest

/-- What a view shows of a label. -/
theorem IsView.label_mem {fields : List Field} {shown : List Shown} (h : IsView fields shown)
    {l : Label} {seen : List Char} {closed : Bool} (hmem : .label l seen closed ∈ shown) :
    .label l ∈ fields ∧ seen <+: escape l.value ∧ (closed = true → seen = escape l.value) := by
  have hfields : ∀ fields : List Field, .label l seen closed ∈ fields.map Field.shown →
      .label l ∈ fields ∧ seen = escape l.value := by
    intro fields hmem
    obtain ⟨f, hf, heq⟩ := List.mem_map.mp hmem
    cases f with
    | blank gap => cases heq
    | label l' =>
        cases heq
        exact ⟨hf, rfl⟩
  cases h with
  | whole =>
      obtain ⟨hfield, rfl⟩ := hfields fields hmem
      exact ⟨hfield, List.prefix_rfl, fun _ => rfl⟩
  | cut before after l' p s hsplit hvalue =>
      subst hsplit
      rcases List.mem_append.mp hmem with hbefore | hlast
      · obtain ⟨hfield, rfl⟩ := hfields before hbefore
        exact ⟨List.mem_append_left _ hfield, List.prefix_rfl, fun _ => rfl⟩
      · obtain ⟨rfl, rfl, rfl⟩ := Shown.label.inj (List.mem_singleton.mp hlast)
        exact ⟨by simp, ⟨'}' :: s, hvalue.symm⟩, nofun⟩

theorem IsView.escaped {fields : List Field} {shown : List Shown} (h : IsView fields shown) :
    ∀ f ∈ shown, f.Escaped := by
  intro f hf
  cases f with
  | blank gap => trivial
  | label l seen closed =>
      obtain ⟨-, ⟨rest, hrest⟩, -⟩ := h.label_mem hf
      exact QuotesEscaped.prefix (hrest.symm ▸ quotesEscaped_escape l.value)

/-- A closing brace in a field stands in the value of a label. -/
theorem exists_of_text_cut {f : Field} {b s : List Char} (h : f.shown.text = b ++ '}' :: s) :
    ∃ l p t, f = .label l ∧ escape l.value = p ++ '}' :: t ∧
      b = (Shown.label l p false).text := by
  cases f with
  | blank gap =>
      have hgap : gap.val = b ++ '}' :: s := h
      have hmem : '}' ∉ gap.val := gap.notMem (by decide)
      rw [hgap] at hmem
      simp at hmem
  | label l =>
      obtain ⟨p, rfl, hp⟩ := cut_append_left
        (l.notMem_opening (by decide) (by decide) (by decide)) h
      obtain ⟨t, ht, -⟩ := cut_append_right (l.notMem_closing true (by decide) (by decide)) hp
      exact ⟨l, p, t, rfl, ht, by simp [Shown.text]⟩

theorem exists_view_of_cut {fields : List Field} {b s : List Char}
    (h : showText (fields.map Field.shown) = b ++ '}' :: s) :
    ∃ before after l p t, fields = before ++ .label l :: after ∧
      escape l.value = p ++ '}' :: t ∧
        b = showText (before.map Field.shown ++ [.label l p false]) := by
  induction fields generalizing b with
  | nil => simp [showText] at h
  | cons f fields ih =>
      have hone : ∀ l p, showText [.label l p false] = (Shown.label l p false).text := fun l p => by
        simp [showText]
      cases fields with
      | nil =>
          rw [List.map_singleton, showText, List.map_singleton, List.intercalate_singleton] at h
          obtain ⟨l, p, t, rfl, hvalue, rfl⟩ := exists_of_text_cut h
          exact ⟨[], [], l, p, t, rfl, hvalue, (hone l p).symm⟩
      | cons g fields =>
          rw [List.map_cons, List.map_cons, showText_cons_cons, ← List.map_cons] at h
          rcases cut_append h with ⟨t, hf, -⟩ | ⟨q, rfl, hq⟩
          · obtain ⟨l, p, t, rfl, hvalue, rfl⟩ := exists_of_text_cut hf
            exact ⟨[], g :: fields, l, p, t, rfl, hvalue, (hone l p).symm⟩
          · cases q with
            | nil => cases (List.cons.inj hq).1
            | cons c q =>
                obtain ⟨rfl, hrest⟩ := List.cons.inj hq
                obtain ⟨before, after, l, p, t, hfields, hvalue, rfl⟩ := ih hrest
                refine ⟨f :: before, after, l, p, t, by rw [hfields, List.cons_append], hvalue, ?_⟩
                rw [List.map_cons, List.cons_append, showText_cons _ (by simp)]

/-! ### A line -/

namespace SampleLine

theorem notMem_ending (line : SampleLine) {c : Char} (htoken : isTokenChar c = false)
    (hblank : isWhiteSpace c = false) : c ∉ line.ending := by
  have htimestamp : c ∉ (line.timestamp.map Subtype.val).getD [] := by
    cases line.timestamp with
    | none => simp
    | some t => exact t.notMem htoken
  simp only [ending, List.mem_append, not_or]
  exact ⟨line.number.notMem htoken, line.afterNumber.notMem hblank, htimestamp⟩

theorem head_ending (line : SampleLine) {c : Char} (h : c ∈ line.ending.head?) :
    isTokenChar c = true := by
  rw [ending, List.head?_append_of_ne_nil _ line.number.property.1] at h
  exact line.number.property.2 c (List.mem_of_mem_head? h)

/-- Behind the block and its blanks the reader finds the number. -/
theorem readBytes_ending (parse : List Char → Option F64) (line : SampleLine) {gap : List Char}
    (hgap : ∀ c ∈ gap, isWhiteSpace c = true) :
    readBytes parse (gap ++ line.ending) = (parse line.number.val).bind F64.wholeBytes := by
  have hrest : ∀ c ∈ (line.afterNumber.val ++ (line.timestamp.map Subtype.val).getD []).head?,
      isWhiteSpace c = true := by
    intro c hc
    cases hafter : line.afterNumber.val with
    | nil =>
        rw [hafter] at hc
        cases htimestamp : line.timestamp with
        | none => simp [htimestamp] at hc
        | some t => exact absurd hafter (line.timestamp_apart (by simp [htimestamp]))
    | cons d gap =>
        rw [hafter] at hc
        obtain rfl := Option.some.inj hc
        exact isWhiteSpace_of_mem_blanks line.afterNumber d (hafter ▸ List.mem_cons_self)
  have htoken := firstToken_append hgap line.number.property.1
    (fun c hc => isWhiteSpace_of_isTokenChar (line.number.property.2 c hc)) hrest
  rw [readBytes, ending, htoken]
  rfl

end SampleLine

/-- Every end that the scan may take is the end of a view. -/
theorem EndsAt.exists_view {line : SampleLine} {fields : List Field} {gap : Blanks}
    {block after : List Char} (h : EndsAt (line.tail fields gap) block after) :
    ∃ shown, IsView fields shown ∧ block = showText shown := by
  have hending : '}' ∉ gap.val ++ line.ending := by
    simp only [List.mem_append, not_or]
    exact ⟨gap.notMem (by decide), line.notMem_ending (by decide) (by decide)⟩
  rcases cut_append h.split with ⟨t, hblock, -⟩ | ⟨p, rfl, hp⟩
  · obtain ⟨before, after, l, p, t, rfl, hvalue, rfl⟩ := exists_view_of_cut hblock
    exact ⟨_, .cut before after l p t rfl hvalue, rfl⟩
  · cases p with
    | nil => exact ⟨_, .whole, List.append_nil _⟩
    | cons c p =>
        rw [(List.cons.inj hp).2] at hending
        exact absurd (by simp) hending

/-- What is made of the name, of what stands behind the block, and of the block. -/
def sampleOf (parse : List Char → Option F64) (name after : List Char)
    (block : Option (List Char)) : Option Sample :=
  (readBytes parse after).map fun valueBytes =>
    { name := String.ofList name
      valueBytes
      gpuDeviceId := (block.bind fun block =>
        extractLabelValue block "id".toList).map String.ofList }

theorem parseSampleLine_append (parse : List Char → Option F64) (name : Token) (gap : Blanks)
    {rest : List Char} (hrest : ∀ c ∈ rest.head?, isWhiteSpace c = false)
    (hapart : gap.val = [] → ∀ c ∈ rest.head?, c = '{') :
    parseSampleLine parse (name.val ++ (gap.val ++ rest)) =
      (splitLabels rest).bind fun split => sampleOf parse name.val split.1 split.2 := by
  have hname : ∀ c ∈ name.val, (!endsName c) = true := by
    intro c hc
    have hbrace : c ≠ '{' := fun heq => name.notMem (c := '{') (by decide) (heq ▸ hc)
    simp [endsName, hbrace, isWhiteSpace_of_isTokenChar (name.property.2 c hc)]
  have hend : ∀ c ∈ (gap.val ++ rest).head?, (!endsName c) = false := by
    intro c hc
    cases hgap : gap.val with
    | nil =>
        rw [hgap] at hc
        simp [endsName, hapart hgap c hc]
    | cons d l =>
        rw [hgap] at hc
        obtain rfl := Option.some.inj hc
        simp [endsName, isWhiteSpace_of_mem_blanks gap d (hgap ▸ List.mem_cons_self)]
  have hne : name.val.isEmpty = false := by simpa using name.property.1
  rw [parseSampleLine, takeWhile_append_of_head hname hend, dropWhile_append_of_head hname hend,
    dropWhile_append_of_head (isWhiteSpace_of_mem_blanks gap) hrest]
  simp only [hne, Bool.false_eq_true, if_false]
  cases splitLabels rest with
  | none => rfl
  | some split =>
      cases hbytes : readBytes parse split.1 <;> simp [sampleOf, hbytes]

theorem parseSampleLine_of_none {parse : List Char → Option F64} {line : SampleLine}
    (h : line.block = none) :
    parseSampleLine parse line.text = sampleOf parse line.name.val line.ending none := by
  have hhead : ∀ c ∈ line.ending.head?, isWhiteSpace c = false := fun c hc =>
    isWhiteSpace_of_isTokenChar (line.head_ending hc)
  have hbrace : stripPrefix ['{'] line.ending = none := by
    rw [Option.eq_none_iff_forall_ne_some]
    intro rest hrest
    have htoken := line.head_ending (c := '{') (by rw [stripPrefix_eq_some_iff.mp hrest]; rfl)
    revert htoken
    decide
  rw [SampleLine.text, h, parseSampleLine_append parse line.name line.afterName hhead
    fun hgap => absurd hgap (line.name_apart h), splitLabels, hbrace]
  rfl

theorem parseSampleLine_eq_some_iff {parse : List Char → Option F64} {line : SampleLine}
    {fields : List Field} {gap : Blanks} (h : line.block = some (fields, gap))
    {sample : Sample} :
    parseSampleLine parse line.text = some sample ↔
      ∃ block after, EndsAt (line.tail fields gap) block after ∧
        sampleOf parse line.name.val after (some block) = some sample := by
  have hprefix : stripPrefix ['{'] ('{' :: line.tail fields gap) = some (line.tail fields gap) :=
    stripPrefix_eq_some_iff.mpr rfl
  have hcut : ∀ {block after}, EndsAt (line.tail fields gap) block after →
      (line.tail fields gap).take block.length = block ∧
        (line.tail fields gap).drop (block.length + 1) = after := by
    intro block after hends
    rw [hends.split, List.take_left]
    refine ⟨rfl, ?_⟩
    rw [List.drop_length_add_append]
    rfl
  rw [SampleLine.text, h, parseSampleLine_append parse line.name line.afterName
    (fun c hc => by cases hc; decide) (fun _ c hc => by cases hc; rfl), splitLabels, hprefix,
    Option.bind_eq_some_iff]
  constructor
  · rintro ⟨split, hsplit, hsample⟩
    obtain ⟨e, he, rfl⟩ := Option.map_eq_some_iff.mp hsplit
    obtain ⟨block, after, hends, rfl⟩ := findLabelBlockEnd_eq_some_iff.mp he
    obtain ⟨htake, hdrop⟩ := hcut hends
    rw [htake, hdrop, sampleOf, readBytes_dropWhile] at hsample
    exact ⟨block, after, hends, hsample⟩
  · rintro ⟨block, after, hends, hsample⟩
    obtain ⟨htake, hdrop⟩ := hcut hends
    refine ⟨_, Option.map_eq_some_iff.mpr
      ⟨block.length, findLabelBlockEnd_eq_some_iff.mpr ⟨block, after, hends, rfl⟩, rfl⟩, ?_⟩
    rw [htake, hdrop, sampleOf, readBytes_dropWhile]
    exact hsample

theorem bind_wholeBytes_eq_some_iff {parsed : Option F64} {v : UInt64} :
    parsed.bind F64.wholeBytes = some v ↔
      ∃ q, parsed = some (.finite q) ∧ (v.toNat : ℚ) = q := by
  rw [Option.bind_eq_some_iff]
  simp only [wholeBytes_eq_some_iff]
  constructor
  · rintro ⟨_, hparsed, q, rfl, hq⟩
    exact ⟨q, hparsed, hq⟩
  · rintro ⟨q, hparsed, hq⟩
    exact ⟨_, hparsed, q, rfl, hq⟩

/-- The `id` label of a line is its only one. -/
theorem SampleLine.label_unique {line : SampleLine} {l l' : Label} (h : l ∈ line.labels)
    (h' : l' ∈ line.labels) (hname : l.name = l'.name) : l = l' := by
  cases hblock : line.block with
  | none => simp [labels, hblock] at h
  | some block =>
      have hdistinct := line.labels_distinct block.1 block.2 hblock
      rw [labels, hblock] at h h'
      exact List.inj_on_of_nodup_map hdistinct h h' hname

theorem SampleLine.mem_labels_iff {line : SampleLine} {fields : List Field} {gap : Blanks}
    (h : line.block = some (fields, gap)) {l : Label} :
    l ∈ line.labels ↔ .label l ∈ fields := by
  rw [labels, h]
  constructor
  · intro hl
    obtain ⟨f, hf, hlabel⟩ := List.mem_filterMap.mp hl
    cases f with
    | blank gap => cases hlabel
    | label l' => exact Option.some.inj hlabel ▸ hf
  · exact fun hl => List.mem_filterMap.mpr ⟨_, hl, rfl⟩

section Device

variable {line : SampleLine} {fields : List Field} {gap : Blanks} {shown : List Shown}

/-- Where the `id` label is cut, the reader takes for the device what no label says. -/
theorem IdCut.exists_misread (hcut : IdCut shown) (h : line.block = some (fields, gap))
    (hview : IsView fields shown) :
    ∃ x, extractLabelValue (showText shown) "id".toList = some x ∧
      ∀ l ∈ line.labels, l.name.val = "id".toList → x ≠ escape l.value := by
  obtain ⟨before, l, seen, closed, rest, rfl, hname, hbefore, hquoted⟩ := hcut
  have hshown : Shown.label l seen closed ∈ before ++ .label l seen closed :: rest := by simp
  obtain ⟨hfield, hseen, -⟩ := hview.label_mem hshown
  obtain ⟨x, hvalue, hlength⟩ := exists_shownValue (hview.escaped _ hshown) hquoted
  refine ⟨x, (extractLabelValue_eq_some_iff hview.escaped).mpr
    ⟨before, l, seen, closed, rest, rfl, hname, hbefore, hvalue⟩, ?_⟩
  rintro l' hl' hname' rfl
  -- what is read is shorter than the value of the only `id` label
  obtain rfl := line.label_unique ((SampleLine.mem_labels_iff h).mpr hfield) hl'
    (Subtype.ext (hname.trans hname'.symm))
  exact absurd hseen.length_le (not_le.mpr hlength)

theorem IsView.exists_label_of_not_idCut (hview : IsView fields shown)
    (h : line.block = some (fields, gap)) (hcut : ¬IdCut shown) {x : List Char}
    (hx : extractLabelValue (showText shown) "id".toList = some x) :
    ∃ l ∈ line.labels, l.name.val = "id".toList ∧ x = escape l.value := by
  obtain ⟨before, l, seen, closed, rest, rfl, hname, hbefore, hvalue⟩ :=
    (extractLabelValue_eq_some_iff hview.escaped).mp hx
  rcases shownValue_cases hvalue with ⟨hclosed, rfl⟩ | hquoted
  · obtain ⟨hfield, -, hseen⟩ := hview.label_mem (List.mem_append_right _ List.mem_cons_self)
    exact ⟨l, (SampleLine.mem_labels_iff h).mpr hfield, hname, hseen hclosed⟩
  · exact absurd ⟨before, l, seen, closed, rest, rfl, hname, hbefore, hquoted⟩ hcut

end Device

/-- A line is read as what it says or rejected exactly when its block does not seem to end
before another number and its `id` label does not seem to end at an escaped quote. -/
theorem readOrRejected_iff (parse : List Char → Option F64) (line : SampleLine) :
    ReadOrRejected parse line ↔ Unmistaken parse line := by
  cases hblock : line.block with
  | none =>
      refine iff_of_true (fun sample hsample => ?_) fun fields gap h => ?_
      · rw [parseSampleLine_of_none hblock, sampleOf, ← List.nil_append line.ending,
          line.readBytes_ending parse (by simp)] at hsample
        obtain ⟨v, hv, rfl⟩ := Option.map_eq_some_iff.mp hsample
        exact ⟨rfl, bind_wholeBytes_eq_some_iff.mp hv, nofun⟩
      · rw [hblock] at h
        cases h
  | some block =>
      obtain ⟨fields, gap⟩ := block
      constructor
      · intro h fields' gap' hblock' shown after hview hends v hv
        rw [hblock] at hblock'
        obtain ⟨rfl, rfl⟩ := Prod.mk.inj (Option.some.inj hblock')
        have hread := h _ ((parseSampleLine_eq_some_iff hblock).mpr
          ⟨_, after, hends, by rw [sampleOf, hv]; rfl⟩)
        refine ⟨bind_wholeBytes_eq_some_iff.mpr hread.value, fun hcut => ?_⟩
        obtain ⟨x, hx, hmisread⟩ := hcut.exists_misread hblock hview
        obtain ⟨l, hl, hname, hdevice⟩ := hread.device (String.ofList x)
          (Option.map_eq_some_iff.mpr ⟨x, hx, rfl⟩)
        exact hmisread l hl hname (String.ofList_injective hdevice)
      · intro h sample hsample
        obtain ⟨block, after, hends, hsample⟩ :=
          (parseSampleLine_eq_some_iff hblock).mp hsample
        obtain ⟨shown, hview, rfl⟩ := hends.exists_view
        obtain ⟨v, hv, rfl⟩ := Option.map_eq_some_iff.mp hsample
        obtain ⟨hnumber, hcut⟩ := h fields gap hblock shown after hview hends v hv
        refine ⟨rfl, bind_wholeBytes_eq_some_iff.mp hnumber, fun device hdevice => ?_⟩
        obtain ⟨x, hx, rfl⟩ := Option.map_eq_some_iff.mp hdevice
        obtain ⟨l, hl, hname, rfl⟩ := hview.exists_label_of_not_idCut hblock hcut hx
        exact ⟨l, hl, hname, rfl⟩

/-- Reads digits only. -/
def parseDigits (token : List Char) : Option F64 :=
  if token.all Char.isDigit then some (.finite (decimalValue token)) else none

def noBlanks : Blanks := ⟨[], by simp⟩

/-- A line with one label and the number 7, without needless blanks. -/
def lineWith (name value : String) (h : name.toList ≠ [] ∧ ∀ c ∈ name.toList, isTokenChar c) :
    SampleLine where
  name := ⟨"m".toList, by decide, List.all_eq_true.mp rfl⟩
  afterName := noBlanks
  block := some ([.label ⟨⟨name.toList, h⟩, value.toList, noBlanks, noBlanks, noBlanks, noBlanks⟩],
    ⟨[' '], by simp⟩)
  number := ⟨['7'], by decide, List.all_eq_true.mp rfl⟩
  afterNumber := noBlanks
  timestamp := none
  name_apart := nofun
  timestamp_apart := nofun
  labels_distinct := by
    rintro fields gap ⟨⟩
    exact List.nodup_singleton _

/-- A number is read from inside the first label value, and of the second one only the part
before its comma. -/
theorem misread_quotedValues :
    ¬ReadOrRejected parseDigits (lineWith "name" "a\"\x7d 5 \"b"
        ⟨by decide, List.all_eq_true.mp rfl⟩) ∧
      ¬ReadOrRejected parseDigits (lineWith "id" "GPU \"0\", PCI"
        ⟨by decide, List.all_eq_true.mp rfl⟩) := by
  constructor
  · intro h
    obtain ⟨q, hparse, hq⟩ := (h ⟨"m", 5, none⟩ (by decide)).value
    have hseven : parseDigits ['7'] = some (.finite 7) := by decide
    obtain rfl := F64.finite.inj (Option.some.inj (hseven.symm.trans hparse))
    revert hq
    decide
  · intro h
    obtain ⟨l, hl, -, hdevice⟩ := (h ⟨"m", 7, some "GPU \\\"0\\"⟩ (by decide)).device _ rfl
    obtain rfl := List.mem_singleton.mp hl
    revert hdevice
    decide

end Anemoi
